/-
The double nearest to a decimal fraction.

The numbers between two halfway points round to one double, those up to half of the least double to
zero, and those from halfway between the greatest double and the next power of two on to infinity;
there are no others.  Each double has neighbours no closer than these points, so none is nearer.
-/
import Mathlib.Data.Int.Log
import Mathlib.Data.Rat.Floor
import PipeQuery.Proofs.SortOrder

namespace PipeQuery.Double

open Float.Model
open Float.Model.UnpackedFloat

variable {m n : Nat} {q p t : Int} {v w x : ℚ}

/-! ## Every positive number is rounded -/

theorem two_zpow_succ (t : Int) : (2 : ℚ) ^ (t + 1) = 2 * 2 ^ t := by
  rw [zpow_add_one₀ two_ne_zero, mul_comm]

/-- The least double is two of its halves. -/
theorem two_zpow_least : (2 : ℚ) ^ (-1074 : Int) = 2 * 2 ^ (-1075 : Int) := by
  have hexponent : (-1074 : Int) = -1075 + 1 := rfl
  rw [hexponent, two_zpow_succ]

/-- Halfway between the greatest double and the next power of two. -/
def overflowBound : ℚ := 2 ^ 1024 - 2 ^ 970

theorem overflowBound_eq : overflowBound = (2 ^ 54 - 1) * 2 ^ (970 : Int) := by
  have hpower : (2 : ℚ) ^ (970 : Int) = 2 ^ 970 := zpow_natCast 2 970
  have hsum : (2 : ℚ) ^ 1024 = 2 ^ 54 * 2 ^ 970 := pow_add 2 54 970
  rw [overflowBound, hpower, hsum, sub_mul, one_mul]

theorem two_zpow_lt_overflowBound : (2 : ℚ) ^ (970 : Int) < overflowBound := by
  rw [overflowBound_eq]
  exact lt_mul_of_one_lt_left (two_zpow_pos 970) (by norm_num)

theorem exists_fits (hv : 0 < v) : ∃ t, Fits t v := by
  have hlow : (2 : ℚ) ^ Int.log 2 v ≤ v := by exact_mod_cast Int.zpow_log_le_self one_lt_two hv
  have hhigh : v < (2 : ℚ) ^ (Int.log 2 v + 1) := by
    exact_mod_cast Int.lt_zpow_succ_log_self one_lt_two v
  refine ⟨max (Int.log 2 v - 52) (-1074), le_max_right _ _, ?_, ?_⟩
  · exact hhigh.trans_le (two_zpow_le (by omega))
  · rcases le_total (Int.log 2 v - 52) (-1074) with hbottom | hnormal
    · exact .inl (max_eq_right hbottom)
    · right
      rw [max_eq_left hnormal, sub_add_cancel]
      exact hlow

theorem Fits.div_lt (h : Fits t v) : v / 2 ^ t < 2 ^ 53 := by
  rw [div_lt_iff₀ (two_zpow_pos t), ← two_zpow_add]
  exact h.lt

theorem Fits.le_div (h : Fits t v) (ht : t ≠ -1074) : 2 ^ 52 ≤ v / 2 ^ t := by
  rw [le_div_iff₀ (two_zpow_pos t), ← two_zpow_add]
  exact h.normal.resolve_left ht

/-- Some significand is the nearest, the even one of two that are as near. -/
theorem exists_nearest (hx : 0 ≤ x) : ∃ m, Nearest m x := by
  have hfloor := Nat.floor_le hx
  have hceil := Nat.lt_floor_add_one x
  generalize ⌊x⌋₊ = a at hfloor hceil
  rcases lt_trichotomy (2 * x) (2 * a + 1) with hless | htie | hmore
  · exact ⟨a, by linarith, hless.le, fun _ => ⟨by linarith, hless⟩⟩
  · rcases Nat.mod_two_eq_zero_or_one a with heven | hodd
    · exact ⟨a, by linarith, htie.le, fun hodd => by omega⟩
    · refine ⟨a + 1, ?_, ?_, fun hodd' => by omega⟩
      · push_cast
        linarith
      · push_cast
        linarith
  · refine ⟨a + 1, ?_, ?_, fun _ => ⟨?_, ?_⟩⟩
    all_goals push_cast; linarith

/-- The nearest significand is that of the double, unless the number lies in the half of the
interval that is denser. -/
theorem Nearest.roundsTo (h : Nearest m x) (hnormal : m = 2 ^ 52 → -1074 < t → (2 ^ 52 : ℚ) ≤ x) :
    RoundsTo m t (x * 2 ^ t) := by
  have hunit := two_zpow_pos (t - 2)
  rw [two_zpow_eq_quarters t]
  refine ⟨?_, ?_, fun hodd => ⟨?_, ?_⟩, fun hm ht => ?_⟩
  · have hlow := mul_le_mul_of_nonneg_right h.low hunit.le
    linarith
  · have hhigh := mul_le_mul_of_nonneg_right h.high hunit.le
    linarith
  · have hlow := mul_lt_mul_of_pos_right (h.strict hodd).1 hunit
    linarith
  · have hhigh := mul_lt_mul_of_pos_right (h.strict hodd).2 hunit
    linarith
  · have hdense := mul_le_mul_of_nonneg_right (hnormal hm ht) hunit.le
    subst hm
    push_cast
    linarith

/-- A significand rounded up to one that is too long is that of a power of two. -/
theorem Nearest.roundsTo_carry (h : Nearest (2 ^ 53) x) (hx : x < 2 ^ 53) :
    RoundsTo (2 ^ 52) (t + 1) (x * 2 ^ t) := by
  have hunit := two_zpow_pos (t - 1)
  have hhalves : (2 : ℚ) ^ t = 2 * 2 ^ (t - 1) := by
    rw [← two_zpow_succ, sub_add_cancel]
  have hexponent : t + 1 - 2 = t - 1 := by omega
  have hlow := mul_le_mul_of_nonneg_right h.low hunit.le
  have hhigh := mul_lt_mul_of_pos_right hx hunit
  push_cast at hlow
  refine ⟨?_, ?_, fun hodd => by norm_num at hodd, fun _ _ => ?_⟩
  all_goals
    rw [hhalves, hexponent]
    push_cast
    linarith

theorem Nearest.le_of_lt (h : Nearest m x) (hx : x < 2 ^ 53) : m ≤ 2 ^ 53 := by
  have hlow := h.low
  have hlt : (2 * m : ℚ) < 2 ^ 54 + 1 := by linarith
  have hnat : 2 * m < 2 ^ 54 + 1 := by exact_mod_cast hlt
  omega

theorem Nearest.le_of_le (h : Nearest m x) (hx : (2 ^ 52 : ℚ) ≤ x) : 2 ^ 52 ≤ m := by
  have hhigh := h.high
  have hle : (2 ^ 53 : ℚ) ≤ 2 * m + 1 := by linarith
  have hnat : 2 ^ 53 ≤ 2 * m + 1 := by exact_mod_cast hle
  omega

theorem Nearest.eq_zero (h : Nearest m x) (hx : 2 * x ≤ 1) : m = 0 := by
  have hlow := h.low
  have hle : (2 * m : ℚ) ≤ 2 := by linarith
  have hnat : 2 * m ≤ 2 := by exact_mod_cast hle
  refine Nat.eq_zero_of_not_pos fun hpos => ?_
  obtain rfl : m = 1 := by omega
  have hstrict := (h.strict rfl).1
  rw [Nat.cast_one] at hstrict
  linarith

theorem Nearest.carry_le (h : Nearest m x) (hx : 2 ^ 54 - 1 ≤ 2 * x) : 2 ^ 53 ≤ m := by
  have hhigh := h.high
  have hle : (2 ^ 54 : ℚ) ≤ 2 * m + 2 := by linarith
  have hnat : 2 ^ 54 ≤ 2 * m + 2 := by exact_mod_cast hle
  refine not_lt.1 fun hlt => ?_
  obtain rfl : m = 2 ^ 53 - 1 := by omega
  have hstrict := (h.strict rfl).2
  push_cast at hstrict
  linarith

theorem overflowBound_le_of_exponent (ht : 971 < t) (hx : (2 ^ 52 : ℚ) ≤ x) :
    overflowBound ≤ x * 2 ^ t := by
  have hpower : (2 : ℚ) ^ (972 : Int) ≤ 2 ^ t := two_zpow_le (by omega)
  have hsum : (2 : ℚ) ^ (972 : Int) = 2 ^ 2 * 2 ^ (970 : Int) := two_zpow_add 970 2
  have hunit := two_zpow_pos 970
  rw [hsum] at hpower
  rw [overflowBound_eq]
  generalize (2 : ℚ) ^ (970 : Int) = unit at hpower hunit
  have hproduct : 2 ^ 52 * (2 ^ 2 * unit) ≤ x * 2 ^ t :=
    mul_le_mul hx hpower (by positivity) (by linarith)
  linarith

theorem overflowBound_le_of_carry (h : Nearest (2 ^ 53) x) :
    overflowBound ≤ x * 2 ^ (971 : Int) := by
  have hhalves : (2 : ℚ) ^ (971 : Int) = 2 * 2 ^ (970 : Int) := two_zpow_succ 970
  have hunit := two_zpow_pos 970
  rw [overflowBound_eq, hhalves]
  generalize (2 : ℚ) ^ (970 : Int) = unit at hunit
  have hlow := mul_le_mul_of_nonneg_right h.low hunit.le
  push_cast at hlow
  linarith

theorem le_half_of_bottom (h : Nearest 0 x) : x * 2 ^ (-1074 : Int) ≤ 2 ^ (-1075 : Int) := by
  have hunit := two_zpow_pos (-1075)
  rw [two_zpow_least]
  generalize (2 : ℚ) ^ (-1075 : Int) = unit at hunit
  have hhigh := mul_le_mul_of_nonneg_right h.high hunit.le
  push_cast at hhigh
  linarith

/-- A positive number rounds to zero, to infinity or to a double. -/
theorem rounding_cases (hv : 0 < v) :
    v ≤ 2 ^ (-1075 : Int) ∨ overflowBound ≤ v ∨ ∃ m q, Canonical m q ∧ RoundsTo m q v := by
  obtain ⟨t, hfits⟩ := exists_fits hv
  have hlt := hfits.div_lt
  have hnormal : t = -1074 ∨ 2 ^ 52 ≤ v / 2 ^ t := or_iff_not_imp_left.2 hfits.le_div
  have hx : 0 ≤ v / 2 ^ t := (div_pos hv (two_zpow_pos t)).le
  have hvalue : v = v / 2 ^ t * 2 ^ t := (div_mul_cancel₀ v (two_zpow_pos t).ne').symm
  generalize v / 2 ^ t = x at hlt hnormal hx hvalue
  subst hvalue
  obtain ⟨m, hm⟩ := exists_nearest hx
  rcases lt_or_ge 971 t with hhuge | hhighest
  · exact .inr (.inl (overflowBound_le_of_exponent hhuge (hnormal.resolve_left (by omega))))
  rcases Nat.eq_zero_or_pos m with rfl | hpos
  · -- the nearest significand is zero at the bottom only
    obtain rfl := hnormal.resolve_right fun hlarge => absurd (hm.le_of_le hlarge) (by decide)
    exact .inl (le_half_of_bottom hm)
  right
  rcases Nat.eq_or_lt_of_le (hm.le_of_lt hlt) with rfl | hshort
  · rcases eq_or_lt_of_le hhighest with rfl | hlower
    · exact .inl (overflowBound_le_of_carry hm)
    · have hlowest := hfits.lowest
      exact .inr ⟨2 ^ 52, t + 1, ⟨by decide, by decide, by omega, by omega, .inl (le_refl _)⟩,
        hm.roundsTo_carry hlt⟩
  · refine .inr ⟨m, t, ⟨hpos, hshort, hfits.lowest, hhighest, ?_⟩, hm.roundsTo fun _ ht => ?_⟩
    · exact (hnormal.imp_right hm.le_of_le).symm
    · exact hnormal.resolve_left (by omega)

/-! ## What the operations round to -/

section Operations

variable {sign : UnpackedFloat.Sign} {u : UnpackedFloat}

/-- What a double of the nearest significand is: one that is too long is shifted once more. -/
inductive Settled (sign : UnpackedFloat.Sign) (t : Int) : Nat → UnpackedFloat → Prop
  | zero : Settled sign t 0 (.zero sign)
  | short {m : Nat} (hpos : 0 < m) (hlt : m < 2 ^ 53) : Settled sign t m (.finite sign m t hpos)
  | carry : Settled sign t (2 ^ 53) (.finite sign (2 ^ 52) (t + 1) (by decide))

theorem RoundedFrom.exists_settled (h : RoundedFrom sign v u) :
    ∃ t m, Fits t v ∧ Nearest m (v / 2 ^ t) ∧ Settled sign t m u := by
  obtain ⟨n, e, accuracy, hmarks, hbits, rfl⟩ := h
  obtain ⟨em, t, hfits, hshifted, hfirst⟩ := exists_shifted hmarks hbits
  have hnonneg : 0 ≤ v / 2 ^ t := le_trans (Nat.cast_nonneg _) hshifted.floor.1
  obtain ⟨m, hm⟩ := exists_nearest hnonneg
  refine ⟨t, m, hfits, hm, ?_⟩
  have hrounded := hshifted.roundedMantissa_eq hm
  rcases Nat.eq_or_lt_of_le (hm.le_of_lt hfits.div_lt) with rfl | hlt
  · have hsecond : shiftToTargetExponent Format.binary64 em.roundedMantissa t .exact =
        (⟨2 ^ 52, false, false⟩, t + 1) := by
      rw [hrounded]
      exact shiftToTargetExponent_carry hfits.lowest
    rw [roundWithAccuracy_of_shifts hfirst hsecond]
    exact .carry
  · have hsecond : shiftToTargetExponent Format.binary64 em.roundedMantissa t .exact =
        (⟨m, false, false⟩, t) := by
      rw [hrounded]
      exact shiftToTargetExponent_of_lt hlt hfits.lowest
    rw [roundWithAccuracy_of_shifts hfirst hsecond]
    by_cases hzero : m = 0
    · rw [dif_pos hzero, hzero]
      exact .zero
    · rw [dif_neg hzero]
      exact .short (Nat.pos_of_ne_zero hzero) hlt

/-- Up to half of the least double the result is zero. -/
theorem RoundedFrom.eq_zero (h : RoundedFrom sign v u) (hv : v ≤ 2 ^ (-1075 : Int)) :
    u = .zero sign := by
  obtain ⟨t, m, hfits, hm, hsettled⟩ := h.exists_settled
  obtain rfl : t = -1074 := by
    refine hfits.normal.resolve_right fun hnormal => ?_
    have hexponent : t + 52 ≤ -1075 :=
      (zpow_le_zpow_iff_right₀ (by norm_num)).1 (hnormal.trans hv)
    have hlowest := hfits.lowest
    omega
  have hhalf : 2 * (v / 2 ^ (-1074 : Int)) ≤ 1 := by
    rw [← mul_div_assoc, div_le_one (two_zpow_pos _), two_zpow_least]
    linarith
  have hzero : m = 0 := hm.eq_zero hhalf
  cases hsettled with
  | zero => rfl
  | short hpos hlt => exact absurd hzero hpos.ne'
  | carry => exact absurd hzero (by decide)

theorem pack_overflow {hpos : 0 < m} (hq : 971 < q) :
    Float.Model.pack (.finite sign m q hpos) = Float.Model.pack (.infinity sign) := by
  have hbiased : 2 ^ 11 ≤ (q + (1023 : Nat) + (52 : Nat)).toNat + 1 := by omega
  have hpacked : UnpackedFloat.pack Format.binary64 (.finite sign m q hpos) =
      UnpackedFloat.pack Format.binary64 (.infinity sign) := if_pos hbiased
  exact eq_of_bits hpacked

/-- From halfway between the greatest double and the next power of two on the result is infinite. -/
theorem RoundedFrom.pack_eq_infinity (h : RoundedFrom sign v u) (hv : overflowBound ≤ v) :
    Float.Model.pack u = Float.Model.pack (.infinity sign) := by
  obtain ⟨t, m, hfits, hm, hsettled⟩ := h.exists_settled
  have hunit := two_zpow_pos 970
  have hexponent : 971 ≤ t := by
    have hless : (2 : ℚ) ^ (970 + (53 : Nat) : Int) < overflowBound := by
      rw [overflowBound_eq, two_zpow_add]
      exact mul_lt_mul_of_pos_right (by norm_num) hunit
    have hlt := (zpow_lt_zpow_iff_right₀ (by norm_num)).1 (hless.trans_le (hv.trans hfits.lt.le))
    omega
  cases hsettled with
  | zero => exact absurd (hm.le_of_le (hfits.le_div (by omega))) (by decide)
  | short hpos hlt =>
      refine pack_overflow (lt_of_le_of_ne hexponent ?_)
      rintro rfl
      have hhalves : (2 : ℚ) ^ (971 : Int) = 2 * 2 ^ (970 : Int) := two_zpow_succ 970
      have hlong : (2 ^ 54 - 1 : ℚ) ≤ 2 * (v / 2 ^ (971 : Int)) := by
        rw [overflowBound_eq] at hv
        rw [← mul_div_assoc, hhalves, le_div_iff₀ (by positivity)]
        linarith
      exact absurd hlt (not_lt.2 (hm.carry_le hlong))
  | carry => exact pack_overflow (by omega)

end Operations

/-! ## Decimal fractions of every size -/

theorem ofScientific_zero (k : Int) :
    Float.ofScientific 0 (decide (k < 0)) k.natAbs = .ofModel (.pack (.zero .positive)) := by
  by_cases hshort : (0 : Nat) < 2 ^ 53 ∧ k.natAbs ≤ 22
  · have htable (e : Fin 23) (divided : Bool) :
        Float.ofScientific 0 divided e = .ofModel (.pack (.zero .positive)) := by
      rw [Float.ofScientific, dif_pos ⟨by decide, by omega⟩]
      have hten := unpack_powerOfTen e
      cases divided with
      | false =>
          show Float.ofModel (.pack (mul _ _ _)) = _
          erw [hten]
          rfl
      | true =>
          show Float.ofModel (.pack (div _ _ _)) = _
          erw [hten]
          rfl
    exact htable ⟨k.natAbs, by omega⟩ _
  · rw [ofScientific_of_not_short hshort, UnpackedFloat.ofScientific, dif_pos rfl]

/-- A decimal fraction up to half of the least double is read as zero. -/
theorem ofScientific_of_le {k : Int} (hv : (n * 10 ^ k : ℚ) ≤ 2 ^ (-1075 : Int)) :
    Float.ofScientific n (decide (k < 0)) k.natAbs = .ofModel (.pack (.zero .positive)) := by
  rcases Nat.eq_zero_or_pos n with rfl | hpos
  · exact ofScientific_zero k
  have hlarge : k ≤ 2048 := by
    refine not_lt.1 fun hhuge => ?_
    have hexponent := (zpow_le_zpow_iff_right₀ (show (1 : ℚ) < 2 by norm_num)).1
      ((two_zpow_le_of_huge hpos hhuge).trans hv)
    omega
  by_cases hsmall : -(2048 + (n.log2 : Int)) ≤ k
  · obtain ⟨u, hu, hrounded⟩ := exists_roundedFrom hpos hlarge hsmall
    rw [hu, hrounded.eq_zero hv]
  · have hlong : ¬ (n < 2 ^ 53 ∧ k.natAbs ≤ 22) := by omega
    rw [ofScientific_of_not_short hlong, UnpackedFloat.ofScientific, dif_neg hpos.ne',
      if_neg (by norm_num; omega), if_pos (by norm_num; omega)]

/-- A decimal fraction from halfway between the greatest double and the next power of two on is read
as infinity. -/
theorem ofScientific_of_overflow {k : Int} (hv : overflowBound ≤ n * 10 ^ k) :
    Float.ofScientific n (decide (k < 0)) k.natAbs = .ofModel (.pack (.infinity .positive)) := by
  have hbound := two_zpow_lt_overflowBound
  have hpos : 0 < n := by
    refine Nat.pos_of_ne_zero ?_
    rintro rfl
    rw [Nat.cast_zero, zero_mul] at hv
    exact absurd (hbound.trans_le hv) (two_zpow_pos 970).not_gt
  have hsmall : -(2048 + (n.log2 : Int)) ≤ k := by
    refine not_lt.1 fun htiny => ?_
    have hexponent := (zpow_lt_zpow_iff_right₀ (show (1 : ℚ) < 2 by norm_num)).1
      (hbound.trans_le (hv.trans (le_two_zpow_of_tiny htiny)))
    omega
  by_cases hlarge : k ≤ 2048
  · obtain ⟨u, hu, hrounded⟩ := exists_roundedFrom hpos hlarge hsmall
    rw [hu, hrounded.pack_eq_infinity hv]
  · have hlong : ¬ (n < 2 ^ 53 ∧ k.natAbs ≤ 22) := by omega
    rw [ofScientific_of_not_short hlong, UnpackedFloat.ofScientific, dif_neg hpos.ne',
      if_pos (by norm_num; omega)]

/-! ## No double is nearer -/

/-- The doubles beside a double, in quarters of the unit of its significand: they are a unit away,
and half of one below a power of two. -/
theorem Canonical.gap (h : Canonical m q)
    (hw : w ≤ 0 ∨ ∃ n p, Canonical n p ∧ w = n * 2 ^ p) (hne : w ≠ m * 2 ^ q) :
    (4 * (m : ℚ) + 4) * 2 ^ (q - 2) ≤ w ∨ w ≤ (4 * (m : ℚ) - 4) * 2 ^ (q - 2) ∨
      m = 2 ^ 52 ∧ -1074 < q ∧ w ≤ (4 * (m : ℚ) - 2) * 2 ^ (q - 2) := by
  have hunit := two_zpow_pos (q - 2)
  rcases hw with hneg | ⟨n, p, hn, rfl⟩
  · have hone : (1 : ℚ) ≤ m := by exact_mod_cast h.pos
    exact .inr (.inl (hneg.trans (mul_nonneg (by linarith) hunit.le)))
  rcases le_or_gt q p with hle | hlt
  · obtain ⟨j, hj⟩ := Int.eq_ofNat_of_zero_le (sub_nonneg.2 hle)
    have hvalue : (n * 2 ^ p : ℚ) = (n * 2 ^ j : Nat) * 2 ^ q := by
      rw [show p = q + (j : Int) by omega, two_zpow_add]
      push_cast
      ring
    rw [hvalue] at hne ⊢
    generalize n * 2 ^ j = k at hne ⊢
    have hk : k ≠ m := fun heq => hne (by rw [heq])
    rw [two_zpow_eq_quarters q]
    rcases Nat.lt_or_gt_of_ne hk with hless | hmore
    · right
      left
      have hcast : (k : ℚ) + 1 ≤ m := by exact_mod_cast hless
      have hscaled := mul_le_mul_of_nonneg_right hcast hunit.le
      linarith
    · left
      have hcast : (m : ℚ) + 1 ≤ k := by exact_mod_cast hmore
      have hscaled := mul_le_mul_of_nonneg_right hcast hunit.le
      linarith
  · -- a double of a lower exponent has fewer bits above, so it is below every power of two
    right
    have hlowest := hn.lowest
    have hnormal : 2 ^ 52 ≤ m := h.normal.resolve_right (by omega)
    have hcast : (n : ℚ) ≤ 2 ^ 53 - 1 := by
      have hnat : n + 1 ≤ 2 ^ 53 := hn.lt
      have hrat : (n : ℚ) + 1 ≤ 2 ^ 53 := by exact_mod_cast hnat
      linarith
    have hpower : (2 : ℚ) ^ p ≤ 2 * 2 ^ (q - 2) := by
      rw [← two_zpow_succ]
      exact two_zpow_le (by omega)
    have hupper : (n * 2 ^ p : ℚ) ≤ (2 ^ 53 - 1) * (2 * 2 ^ (q - 2)) :=
      mul_le_mul hcast hpower (two_zpow_pos p).le (by norm_num)
    rcases Nat.eq_or_lt_of_le hnormal with heq | hmore
    · refine .inr ⟨heq.symm, by omega, ?_⟩
      rw [← heq]
      push_cast
      linarith
    · left
      have hm : (2 ^ 52 + 1 : ℚ) ≤ m := by exact_mod_cast hmore
      have hscaled := mul_le_mul_of_nonneg_right hm hunit.le
      linarith

/-- No double is nearer to a number than the one in whose rounding interval it is, and that one is
even if another is as near. -/
theorem RoundsTo.abs_sub_le (h : RoundsTo m q v) (hcanonical : Canonical m q)
    (hw : w ≤ 0 ∨ ∃ n p, Canonical n p ∧ w = n * 2 ^ p) :
    |v - m * 2 ^ q| ≤ |v - w| ∧ (|v - w| = |v - m * 2 ^ q| → w ≠ m * 2 ^ q → m % 2 = 0) := by
  by_cases hne : w = m * 2 ^ q
  · rw [hne]
    exact ⟨le_refl _, fun _ hself => absurd rfl hself⟩
  have hunit := two_zpow_pos (q - 2)
  have hgap := hcanonical.gap hw hne
  have hlow := h.low
  have hhigh := h.high
  rw [two_zpow_eq_quarters q]
  have hnear : |v - m * (4 * 2 ^ (q - 2))| ≤ 2 * 2 ^ (q - 2) := by
    rw [abs_le]
    constructor <;> linarith
  have heven (hfar : 2 * 2 ^ (q - 2) ≤ |v - w|) (htie : |v - w| = |v - m * (4 * 2 ^ (q - 2))|) :
      m % 2 = 0 := by
    refine (Nat.mod_two_eq_zero_or_one m).resolve_right fun hodd => ?_
    obtain ⟨hlow, hhigh⟩ := h.strict hodd
    have hnearer : |v - m * (4 * 2 ^ (q - 2))| < 2 * 2 ^ (q - 2) := by
      rw [abs_lt]
      constructor <;> linarith
    linarith
  rcases hgap with habove | hbelow | ⟨hm, hq, hbelow⟩
  · have hfar : 2 * 2 ^ (q - 2) ≤ |v - w| := by
      rw [abs_sub_comm, abs_of_nonneg (by linarith)]
      linarith
    exact ⟨hnear.trans hfar, fun htie _ => heven hfar htie⟩
  · have hfar : 2 * 2 ^ (q - 2) ≤ |v - w| := by
      rw [abs_of_nonneg (by linarith)]
      linarith
    exact ⟨hnear.trans hfar, fun htie _ => heven hfar htie⟩
  · have hdense := h.denser hm hq
    refine ⟨?_, fun _ _ => by omega⟩
    rw [abs_of_nonneg (show 0 ≤ v - w by linarith), abs_le]
    constructor <;> linarith

theorem abs_sub_zero_le (hnonneg : 0 ≤ v) (hv : v ≤ 2 ^ (-1075 : Int))
    (hw : w ≤ 0 ∨ ∃ n p, Canonical n p ∧ w = n * 2 ^ p) : |v - 0| ≤ |v - w| := by
  rw [sub_zero, abs_of_nonneg hnonneg]
  rcases hw with hneg | ⟨n, p, hn, rfl⟩
  · rw [abs_of_nonneg (by linarith)]
    linarith
  · have hone : (1 : ℚ) ≤ n := by exact_mod_cast hn.pos
    have hleast : (2 : ℚ) ^ (-1074 : Int) ≤ n * 2 ^ p :=
      (two_zpow_le hn.lowest).trans (le_mul_of_one_le_left (two_zpow_pos p).le hone)
    rw [two_zpow_least] at hleast
    rw [abs_sub_comm, abs_of_nonneg (by linarith)]
    linarith

theorem RoundsTo.lt_overflowBound (h : RoundsTo m q v) (hcanonical : Canonical m q) :
    v < overflowBound := by
  have hunit := two_zpow_pos (q - 2)
  have hpower : 2 * (2 : ℚ) ^ (q - 2) ≤ 2 ^ (970 : Int) := by
    rw [← two_zpow_succ]
    have hhighest := hcanonical.highest
    exact two_zpow_le (by omega)
  have hscaled : v < (2 ^ 54 - 1) * (2 * 2 ^ (q - 2)) := by
    rcases Nat.lt_or_ge m (2 ^ 53 - 1) with hless | hgreatest
    · have hnat : m + 2 ≤ 2 ^ 53 := by omega
      have hcast : (m : ℚ) + 2 ≤ 2 ^ 53 := by exact_mod_cast hnat
      have hhigh := h.high
      have hmore := mul_le_mul_of_nonneg_right hcast hunit.le
      linarith
    · have hlt := hcanonical.lt
      obtain rfl : m = 2 ^ 53 - 1 := by omega
      have hstrict := (h.strict rfl).2
      push_cast at hstrict
      linarith
  rw [overflowBound_eq]
  exact hscaled.trans_le (mul_le_mul_of_nonneg_left hpower (by norm_num))

end PipeQuery.Double

namespace PipeQuery

open Double (Canonical RoundsTo overflowBound)
open Float.Model (UnpackedFloat)

variable {v r : ℚ} {negative : Bool} {x : Float}

/-! ## Numerals -/

/-- The double that is the nearest to `v`: none is nearer, and of two that are as near it has the
even significand.  From halfway between the greatest double and the next power of two on it is
infinite.  Its sign is given, that of a zero too. -/
inductive NearestDouble (v : ℚ) (negative : Bool) : Binary → Prop
  | finite {m : Nat} {q : Int} (hsmall : |v| < overflowBound)
      (hnearest : ∀ x r, (Binary.ofFloat x).number? = some (WithBotTop.coe r) →
        |v - Binary.signed negative m * 2 ^ q| ≤ |v - r|)
      (heven : ∀ x r, (Binary.ofFloat x).number? = some (WithBotTop.coe r) →
        |v - r| = |v - Binary.signed negative m * 2 ^ q| →
          r ≠ Binary.signed negative m * 2 ^ q → m % 2 = 0) :
      NearestDouble v negative (.finite negative m q)
  | infinite (hlarge : overflowBound ≤ |v|) : NearestDouble v negative (.infinite negative)

/-- One with a sign. -/
def Binary.side (negative : Bool) : ℚ :=
  if negative then -1 else 1

/-- The number that a numeral denotes. -/
def Numeral.value (numeral : Numeral) : ℚ :=
  Binary.side numeral.negative *
    ((digitsValue numeral.whole + digitsValue numeral.fraction / 10 ^ numeral.fraction.length) *
      10 ^ numeral.exponent.getD 0)

theorem signed_cast (negative : Bool) (m : Nat) :
    (Binary.signed negative m : ℚ) = Binary.side negative * m := by
  cases negative <;> simp [Binary.signed, Binary.side]

theorem abs_side_mul_sub (negative : Bool) (v r : ℚ) :
    |Binary.side negative * v - r| = |v - Binary.side negative * r| := by
  cases negative with
  | false => simp [Binary.side]
  | true =>
      rw [← abs_neg]
      congr 1
      simp only [Binary.side, if_true]
      ring

theorem abs_side_mul (negative : Bool) (v : ℚ) : |Binary.side negative * v| = |v| := by
  cases negative <;> simp [Binary.side]

theorem side_mul_eq_iff (negative : Bool) (v r : ℚ) :
    Binary.side negative * r = v ↔ r = Binary.side negative * v := by
  cases negative with
  | false => simp [Binary.side]
  | true => simp [Binary.side, neg_eq_iff_eq_neg]

theorem magnitude_of_number? (h : (Binary.ofFloat x).number? = some (WithBotTop.coe r)) :
    r = 0 ∨ ∃ n p, Canonical n p ∧ |r| = n * 2 ^ p := by
  have hdenotes := denotes_of_number? h
  generalize hs : WithBotTop.coe r = s at hdenotes
  generalize x.toModel.unpack = unpacked at hdenotes
  cases hdenotes with
  | bottom => exact absurd hs (WithBotTop.coe_ne_bot r)
  | top => exact absurd hs (WithBotTop.coe_ne_top r)
  | zero => exact .inl (WithBotTop.coe_strictMono.injective hs)
  | negative hcanonical =>
      obtain rfl := WithBotTop.coe_strictMono.injective hs
      refine .inr ⟨_, _, hcanonical, ?_⟩
      rw [abs_neg, abs_of_pos hcanonical.value_pos]
  | positive hcanonical =>
      obtain rfl := WithBotTop.coe_strictMono.injective hs
      exact .inr ⟨_, _, hcanonical, abs_of_pos hcanonical.value_pos⟩

/-- A double with either sign is at most zero or a positive double. -/
theorem side_mul_cases (h : (Binary.ofFloat x).number? = some (WithBotTop.coe r))
    (negative : Bool) :
    Binary.side negative * r ≤ 0 ∨
      ∃ n p, Canonical n p ∧ Binary.side negative * r = n * 2 ^ p := by
  rcases magnitude_of_number? h with rfl | ⟨n, p, hcanonical, hr⟩
  · exact .inl (mul_zero _).le
  · rcases le_or_gt (Binary.side negative * r) 0 with hneg | hpos
    · exact .inl hneg
    · refine .inr ⟨n, p, hcanonical, ?_⟩
      rw [← hr, ← abs_side_mul negative, abs_of_pos hpos]

theorem nearestDouble_zero (hnonneg : 0 ≤ v) (hv : v ≤ 2 ^ (-1075 : Int)) :
    NearestDouble (Binary.side negative * v) negative (.finite negative 0 0) := by
  refine .finite ?_ (fun x r hr => ?_) fun _ _ _ _ _ => rfl
  · rw [abs_side_mul, abs_of_nonneg hnonneg]
    exact (hv.trans (Double.two_zpow_le (by decide))).trans_lt Double.two_zpow_lt_overflowBound
  · rw [signed_cast, Nat.cast_zero, mul_zero, zero_mul, abs_side_mul_sub, abs_side_mul_sub,
      mul_zero]
    exact Double.abs_sub_zero_le hnonneg hv (side_mul_cases hr negative)

theorem nearestDouble_finite {m : Nat} {q : Int} (hcanonical : Canonical m q)
    (hv : RoundsTo m q v) :
    NearestDouble (Binary.side negative * v) negative (.finite negative m q) := by
  have hdouble : Binary.side negative * (Binary.signed negative m * 2 ^ q) = m * 2 ^ q := by
    rw [signed_cast]
    cases negative <;> simp [Binary.side]
  refine .finite ?_ (fun x r hr => ?_) fun x r hr htie hne => ?_
  · rw [abs_side_mul, abs_of_pos (hv.pos hcanonical)]
    exact hv.lt_overflowBound hcanonical
  · rw [abs_side_mul_sub, abs_side_mul_sub, hdouble]
    exact (hv.abs_sub_le hcanonical (side_mul_cases hr negative)).1
  · rw [abs_side_mul_sub, abs_side_mul_sub, hdouble] at htie
    refine (hv.abs_sub_le hcanonical (side_mul_cases hr negative)).2 htie fun heq => hne ?_
    rw [side_mul_eq_iff] at heq
    rw [heq, signed_cast, mul_assoc]

theorem nearestDouble_infinite (hv : overflowBound ≤ v) :
    NearestDouble (Binary.side negative * v) negative (.infinite negative) := by
  refine .infinite ?_
  rw [abs_side_mul]
  exact hv.trans (le_abs_self v)

theorem Numeral.value_eq (numeral : Numeral) :
    numeral.value = Binary.side numeral.negative *
      (digitsValue (numeral.whole ++ numeral.fraction) *
        10 ^ (numeral.exponent.getD 0 - numeral.fraction.length)) := by
  have hdigits : digitsValue (numeral.whole ++ numeral.fraction) =
      10 ^ numeral.fraction.length * digitsValue numeral.whole + digitsValue numeral.fraction := by
    rw [digitsValue, Nat.ofDigitChars_append, Nat.ofDigitChars_eq_ofDigitChars_zero]
    rfl
  rw [Numeral.value, hdigits, zpow_sub₀ (by norm_num), zpow_natCast]
  push_cast
  field_simp

/-- The number of an integral numeral is its integer. -/
theorem Numeral.value_of_isIntegral {numeral : Numeral} (h : numeral.isIntegral = true) :
    numeral.value = numeral.toInt := by
  simp only [Numeral.isIntegral, Bool.and_eq_true, List.isEmpty_iff, Option.isNone_iff_eq_none] at h
  rw [Numeral.value, h.1, h.2, Numeral.toInt, signed_cast]
  simp [digitsValue]

theorem ofFloat_infinity :
    Binary.ofFloat (if negative then -.ofModel (.pack (.infinity .positive))
      else .ofModel (.pack (.infinity .positive))) = .infinite negative := by
  cases negative with
  | false => decide +kernel
  | true => decide +kernel

/-- Every numeral is read as the double nearest to the number that it denotes. -/
theorem nearestDouble_toFloat (numeral : Numeral) :
    NearestDouble numeral.value numeral.negative (Binary.ofFloat numeral.toFloat) := by
  rw [Numeral.value_eq]
  obtain ⟨negative, whole, fraction, exponent⟩ := numeral
  dsimp only
  rw [Numeral.toFloat]
  dsimp only
  generalize digitsValue (whole ++ fraction) = n
  generalize exponent.getD 0 - (fraction.length : Int) = k
  have hnonneg : (0 : ℚ) ≤ n * 10 ^ k := by positivity
  have hzero (hv : (n * 10 ^ k : ℚ) ≤ 2 ^ (-1075 : Int)) :
      NearestDouble (Binary.side negative * (n * 10 ^ k)) negative
        (Binary.ofFloat (if negative then -Float.ofScientific n (decide (k < 0)) k.natAbs
          else Float.ofScientific n (decide (k < 0)) k.natAbs)) := by
    rw [Double.ofScientific_of_le hv]
    have h := @nearestDouble_zero _ negative hnonneg hv
    cases negative <;> exact h
  rcases hnonneg.eq_or_lt with heq | hpos
  · exact hzero (heq ▸ (Double.two_zpow_pos _).le)
  rcases Double.rounding_cases hpos with hv | hv | ⟨m, q, hcanonical, hv⟩
  · exact hzero hv
  · rw [Double.ofScientific_of_overflow hv]
    rw [ofFloat_infinity]
    exact nearestDouble_infinite hv
  · rw [Double.ofScientific_eq hcanonical hv]
    have h := @nearestDouble_finite _ negative _ _ hcanonical hv
    rw [← ofFloat_pack hcanonical] at h
    cases negative with
    | false => exact h
    | true =>
        rw [if_pos rfl, neg_pack hcanonical]
        exact h

end PipeQuery
