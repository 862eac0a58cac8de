/-
The double that a decimal fraction is read as.

Short numbers are multiplied or divided as doubles and all others exactly; either way the result is
rounded once, from the exact number.
-/
import Mathlib.Tactic.FinCases
import PipeQuery.Proofs.Rounding

namespace PipeQuery.Double

open Float.Model
open Float.Model.UnpackedFloat

/-! ## Products and quotients -/

theorem marks_exact (n : Nat) : Marks (.ofMantissaAndAccuracy n .exact) n :=
  ⟨0, le_refl 0, by norm_num, by simp [ExtendedMantissa.ofMantissaAndAccuracy],
    by simp [ExtendedMantissa.ofMantissaAndAccuracy]⟩

/-- The quotient and its accuracy say where the exact quotient lies. -/
theorem marks_quotient (a : Nat) {b : Nat} (hb : 0 < b) :
    Marks (.ofMantissaAndAccuracy (a / b) (accuracyOfFraction (a % b) b)) ((a : ℚ) / b) := by
  have hpos : (0 : ℚ) < b := by exact_mod_cast hb
  have hlt : ((a % b : Nat) : ℚ) < b := by exact_mod_cast Nat.mod_lt a hb
  have hquotient : (a : ℚ) / b = (a / b : Nat) + ((a % b : Nat) : ℚ) / b := by
    have hsplit : (a : ℚ) = b * (a / b : Nat) + (a % b : Nat) := by
      exact_mod_cast (Nat.div_add_mod a b).symm
    conv => lhs; rw [hsplit]
    field_simp
  rw [hquotient]
  rcases Nat.eq_zero_or_pos (a % b) with hzero | hrest
  · simp only [accuracyOfFraction, hzero, if_true, Nat.cast_zero, zero_div, add_zero]
    exact marks_exact _
  · have hrest' : (0 : ℚ) < (a % b : Nat) := by exact_mod_cast hrest
    rw [accuracyOfFraction, if_neg (by omega)]
    rcases hcompare : compare (2 * (a % b)) b with _ | _ | _
    · have hless : (2 * (a % b : Nat) : ℚ) < b := by exact_mod_cast Nat.compare_eq_lt.1 hcompare
      refine ⟨((a % b : Nat) : ℚ) / b, ?_, ?_, ?_, ?_⟩
      · positivity
      · rw [div_lt_div_iff₀ hpos (by norm_num)]
        linarith
      · simpa [ExtendedMantissa.ofMantissaAndAccuracy] using div_pos hrest' hpos
      · simp [ExtendedMantissa.ofMantissaAndAccuracy]
    · have htie : (2 * (a % b : Nat) : ℚ) = b := by exact_mod_cast Nat.compare_eq_eq.1 hcompare
      refine ⟨0, le_refl 0, by norm_num, by simp [ExtendedMantissa.ofMantissaAndAccuracy], ?_⟩
      have hhalf : ((a % b : Nat) : ℚ) / b = 1 / 2 := by
        rw [div_eq_div_iff hpos.ne' (by norm_num)]
        linarith
      simp [ExtendedMantissa.ofMantissaAndAccuracy, hhalf]
    · have hmore : (b : ℚ) < 2 * (a % b : Nat) := by exact_mod_cast Nat.compare_eq_gt.1 hcompare
      have hhalf : 1 / 2 < ((a % b : Nat) : ℚ) / b := by
        rw [div_lt_div_iff₀ (by norm_num) hpos]
        linarith
      have hone : ((a % b : Nat) : ℚ) / b < 1 := (div_lt_one hpos).2 hlt
      refine ⟨((a % b : Nat) : ℚ) / b - 1 / 2, by linarith, by linarith, ?_, ?_⟩
      · simpa [ExtendedMantissa.ofMantissaAndAccuracy] using hhalf
      · simp [ExtendedMantissa.ofMantissaAndAccuracy]

/-- The double is what rounding makes of `v`: of a significand that says where `v` lies and has bits
enough. -/
def RoundedFrom (sign : UnpackedFloat.Sign) (v : ℚ) (u : UnpackedFloat) : Prop :=
  ∃ n e accuracy, Marks (.ofMantissaAndAccuracy n accuracy) (v / 2 ^ e) ∧
    (2 ^ 52 ≤ n ∨ e ≤ -1074) ∧ roundWithAccuracy Format.binary64 sign n e accuracy = u

/-- A number in the rounding interval of a double is rounded to this double. -/
theorem RoundedFrom.eq_finite {sign : UnpackedFloat.Sign} {v : ℚ} {u : UnpackedFloat}
    (h : RoundedFrom sign v u) {m : Nat} {q : Int} (hcanonical : Canonical m q)
    (hv : RoundsTo m q v) : u = .finite sign m q hcanonical.pos := by
  obtain ⟨n, e, accuracy, hmarks, hbits, rfl⟩ := h
  exact roundWithAccuracy_eq hcanonical hv hmarks hbits

theorem roundedFrom_mul {m₁ m₂ : Nat} {e₁ e₂ : Int} {s₁ s₂ sign : UnpackedFloat.Sign}
    {h₁ : 0 < m₁} {h₂ : 0 < m₂} (hsign : s₁ * s₂ = sign) (hbits : 2 ^ 52 ≤ m₁ * m₂) :
    RoundedFrom sign (m₁ * 2 ^ e₁ * (m₂ * 2 ^ e₂))
      (mul Format.binary64 (.finite s₁ m₁ e₁ h₁) (.finite s₂ m₂ e₂ h₂)) := by
  subst hsign
  refine ⟨m₁ * m₂, e₁ + e₂, .exact, ?_, .inl hbits, rfl⟩
  have hproduct : (m₁ * 2 ^ e₁ * (m₂ * 2 ^ e₂) : ℚ) / 2 ^ (e₁ + e₂) = (m₁ * m₂ : Nat) := by
    have h₁ := (two_zpow_pos e₁).ne'
    have h₂ := (two_zpow_pos e₂).ne'
    rw [zpow_add₀ (by norm_num), Nat.cast_mul]
    field_simp
  rw [hproduct]
  exact marks_exact _

/-- A significand is shifted until it has bits enough, and then rounded. -/
theorem roundedFrom_round {n : Nat} {e : Int} {sign : UnpackedFloat.Sign} (hpos : 0 < n) :
    RoundedFrom sign (n * 2 ^ e) (UnpackedFloat.round Format.binary64 sign n e) := by
  generalize htarget : max ((n.log2 : Int) + e - 52) (-1074) = t
  refine ⟨n * 2 ^ (e - t).toNat, e - (e - t).toNat, .exact, ?_, ?_, ?_⟩
  · have hshifted : (n * 2 ^ e : ℚ) / 2 ^ (e - ((e - t).toNat : Int)) =
        (n * 2 ^ (e - t).toNat : Nat) := by
      rw [zpow_sub₀ (by norm_num), zpow_natCast, Nat.cast_mul, Nat.cast_pow, Nat.cast_ofNat]
      have hunit := (two_zpow_pos e).ne'
      field_simp
    rw [hshifted]
    exact marks_exact _
  · rcases Nat.lt_or_ge n.log2 53 with hshort | hlong
    · by_cases hbottom : t = -1074
      · exact .inr (by omega)
      · left
        have hshift : (e - t).toNat = 52 - n.log2 := by omega
        have hlow : 2 ^ n.log2 ≤ n := Nat.log2_self_le (by omega)
        rw [hshift]
        calc 2 ^ 52 = 2 ^ n.log2 * 2 ^ (52 - n.log2) := by rw [← Nat.pow_add]; congr 1; omega
          _ ≤ n * 2 ^ (52 - n.log2) := Nat.mul_le_mul_right _ hlow
    · left
      have hlow : 2 ^ 53 ≤ n := (Nat.le_log2 (by omega)).1 hlong
      exact (show 2 ^ 52 ≤ n by omega).trans (Nat.le_mul_of_pos_right n (by positivity))
  · simp only [UnpackedFloat.round, decreaseExponent, targetExponent_eq, htarget, Nat.shiftLeft_eq]

/-- The quotient has bits enough to be rounded. -/
theorem divCore_bits {m₁ m₂ : Nat} {e₁ e₂ : Int} (h₁ : 0 < m₁) (h₂ : 0 < m₂) :
    2 ^ 52 ≤ (divCore Format.binary64 m₁ e₁ m₂ e₂).1 ∨
      (divCore Format.binary64 m₁ e₁ m₂ e₂).2.1 ≤ -1074 := by
  simp only [divCore, targetExponent_binary64, totalExponent]
  generalize hshift : min (e₁ - e₂)
    (max ((m₁.log2 : Int) + 1 + e₁ - (m₂.log2 + 1 + e₂) - 53) (-1074)) = t
  by_cases hbottom : t ≤ -1074
  · exact .inr hbottom
  · left
    have hlow : 2 ^ m₁.log2 ≤ m₁ := Nat.log2_self_le (by omega)
    have hhigh : m₂ < 2 ^ (m₂.log2 + 1) := Nat.lt_log2_self
    rw [Nat.shiftLeft_eq, Nat.le_div_iff_mul_le h₂]
    calc 2 ^ 52 * m₂ ≤ 2 ^ 52 * 2 ^ (m₂.log2 + 1) := Nat.mul_le_mul_left _ hhigh.le
      _ = 2 ^ (52 + (m₂.log2 + 1)) := (Nat.pow_add 2 _ _).symm
      _ ≤ 2 ^ (m₁.log2 + (e₁ - e₂ - t).toNat) := Nat.pow_le_pow_right (by decide) (by omega)
      _ = 2 ^ m₁.log2 * 2 ^ (e₁ - e₂ - t).toNat := Nat.pow_add 2 _ _
      _ ≤ m₁ * 2 ^ (e₁ - e₂ - t).toNat := Nat.mul_le_mul_right _ hlow

theorem marks_divCore {m₁ m₂ : Nat} {e₁ e₂ : Int} (h₂ : 0 < m₂) :
    Marks (.ofMantissaAndAccuracy (divCore Format.binary64 m₁ e₁ m₂ e₂).1
        (divCore Format.binary64 m₁ e₁ m₂ e₂).2.2)
      (m₁ * 2 ^ e₁ / (m₂ * 2 ^ e₂) / 2 ^ (divCore Format.binary64 m₁ e₁ m₂ e₂).2.1) := by
  simp only [divCore]
  generalize hexponent :
    min (e₁ - e₂) (Format.binary64.targetExponent (totalExponent m₁ e₁ - totalExponent m₂ e₂)) = t
  have hquotient : (m₁ * 2 ^ e₁ / (m₂ * 2 ^ e₂) : ℚ) / 2 ^ t =
      ((m₁ <<< (e₁ - e₂ - t).toNat : Nat) : ℚ) / m₂ := by
    have hne : (m₂ : ℚ) ≠ 0 := by exact_mod_cast h₂.ne'
    have hunit₂ := (two_zpow_pos e₂).ne'
    have hunit := (two_zpow_pos t).ne'
    have hsum : e₁ = e₂ + t + ((e₁ - e₂ - t).toNat : Nat) := by omega
    rw [Nat.shiftLeft_eq, Nat.cast_mul, Nat.cast_pow, Nat.cast_ofNat]
    conv => lhs; rw [hsum, two_zpow_add, zpow_add₀ (by norm_num)]
    field_simp
  rw [hquotient]
  exact marks_quotient _ h₂

theorem roundedFrom_div {m₁ m₂ : Nat} {e₁ e₂ : Int} {s₁ s₂ sign : UnpackedFloat.Sign}
    {h₁ : 0 < m₁} {h₂ : 0 < m₂} (hsign : s₁ / s₂ = sign) :
    RoundedFrom sign (m₁ * 2 ^ e₁ / (m₂ * 2 ^ e₂))
      (div Format.binary64 (.finite s₁ m₁ e₁ h₁) (.finite s₂ m₂ e₂ h₂)) := by
  subst hsign
  exact ⟨_, _, _, marks_divCore h₂, divCore_bits h₁ h₂, rfl⟩

/-! ## Exact numbers -/

theorem RoundsTo.self (m : Nat) (q : Int) : RoundsTo m q (m * 2 ^ q) := by
  have hunit := two_zpow_pos (q - 2)
  rw [two_zpow_eq_quarters q]
  refine ⟨?_, ?_, fun _ => ⟨?_, ?_⟩, fun _ _ => ?_⟩ <;> linarith

/-- A number of 53 bits, shifted to the full length, is a significand. -/
theorem canonical_of_lt {n : Nat} (hpos : 0 < n) (hlt : n < 2 ^ 53) :
    Canonical (n * 2 ^ (52 - n.log2)) (n.log2 - 52) := by
  have hne : n ≠ 0 := by omega
  have hlog : n.log2 < 53 := (Nat.log2_lt hne).2 hlt
  have hlow : 2 ^ n.log2 ≤ n := Nat.log2_self_le hne
  have hhigh : n < 2 ^ (n.log2 + 1) := Nat.lt_log2_self
  have hm : 2 ^ 52 ≤ n * 2 ^ (52 - n.log2) := by
    calc 2 ^ 52 = 2 ^ n.log2 * 2 ^ (52 - n.log2) := by rw [← Nat.pow_add]; congr 1; omega
      _ ≤ n * 2 ^ (52 - n.log2) := Nat.mul_le_mul_right _ hlow
  have hmlt : n * 2 ^ (52 - n.log2) < 2 ^ 53 := by
    calc n * 2 ^ (52 - n.log2) < 2 ^ (n.log2 + 1) * 2 ^ (52 - n.log2) :=
          Nat.mul_lt_mul_of_pos_right hhigh (by positivity)
      _ = 2 ^ 53 := by rw [← Nat.pow_add]; congr 1; omega
  exact ⟨by omega, hmlt, by omega, by omega, .inl hm⟩

theorem canonical_value {n : Nat} (hlt : n < 2 ^ 53) :
    ((n * 2 ^ (52 - n.log2) : Nat) * 2 ^ ((n.log2 : Int) - 52) : ℚ) = n := by
  have hlog : n.log2 < 53 := by
    rcases Nat.eq_zero_or_pos n with hzero | hpos
    · simp [hzero]
    · exact (Nat.log2_lt (by omega)).2 hlt
  have hsum : ((n.log2 : Int) - 52) + ((52 - n.log2 : Nat) : Int) = 0 := by omega
  rw [Nat.cast_mul, Nat.cast_pow, Nat.cast_ofNat, mul_assoc, ← two_zpow_add, hsum]
  simp

theorem unpack_toFloat {n : Nat} (hpos : 0 < n) (hlt : n < 2 ^ 53) :
    n.toUInt64.toFloat.toModel.unpack =
      .finite .positive (n * 2 ^ (52 - n.log2)) (n.log2 - 52) (canonical_of_lt hpos hlt).pos := by
  have hcanonical := canonical_of_lt hpos hlt
  have hsmall : n.toUInt64.toNat = n := by
    simp [Nat.toUInt64]
    omega
  have hcompare : compare (n : Int) 0 = .gt := Int.compare_eq_gt.2 (by omega)
  have hround : UnpackedFloat.round Format.binary64 .positive n 0 =
      .finite .positive (n * 2 ^ (52 - n.log2)) (n.log2 - 52) hcanonical.pos := by
    have hvalue := canonical_value hlt
    refine (roundedFrom_round hpos).eq_finite hcanonical ?_
    rw [zpow_zero, mul_one, ← hvalue]
    exact .self _ _
  have hmodel : n.toUInt64.toFloat.toModel =
      .pack (.finite .positive (n * 2 ^ (52 - n.log2)) (n.log2 - 52) hcanonical.pos) := by
    rw [← hround]
    show Float.Model.pack
      (UnpackedFloat.normalize Format.binary64 (n.toUInt64.toNat : Int) 0 .positive) = _
    rw [hsmall, UnpackedFloat.normalize, hcompare]
    rfl
  rw [hmodel, unpack_pack hcanonical]

/-- The significand and the exponent of a power of ten that is a double. -/
def tenSignificand (e : Nat) : Nat :=
  10 ^ e * 2 ^ 52 / 2 ^ (10 ^ e).log2

def tenExponent (e : Nat) : Int :=
  (10 ^ e).log2 - 52

/-- The tabulated powers of ten are exact. -/
theorem unpack_powerOfTen (e : Fin 23) :
    (getElem Float.exactlyRepresentablePowersOfTen e.val e.isLt).toModel.unpack =
      .finite .positive (tenSignificand e) (tenExponent e) (by revert e; decide +kernel) := by
  fin_cases e <;> rfl

theorem tenSignificand_spec (e : Fin 23) :
    2 ^ 52 ≤ tenSignificand e ∧
      tenSignificand e * 2 ^ (10 ^ e.val).log2 = 10 ^ e.val * 2 ^ 52 := by
  revert e
  decide +kernel

theorem ten_value (e : Fin 23) :
    (tenSignificand e * 2 ^ tenExponent e : ℚ) = 10 ^ e.val := by
  have hspec : (tenSignificand e * 2 ^ (10 ^ e.val).log2 : ℚ) = 10 ^ e.val * 2 ^ 52 := by
    exact_mod_cast (tenSignificand_spec e).2
  rw [tenExponent, zpow_sub₀ (by norm_num), zpow_natCast, ← mul_div_assoc, hspec,
    div_eq_iff (by norm_num)]
  norm_num

/-! ## Decimal fractions -/

/-- Short numbers: both factors are doubles. -/
theorem exists_roundedFrom_short {n : Nat} (hpos : 0 < n) (hlt : n < 2 ^ 53) (e : Fin 23)
    (divided : Bool) :
    ∃ u, Float.ofScientific n divided e = .ofModel (.pack u) ∧
      RoundedFrom .positive (if divided then (n : ℚ) / 10 ^ e.val else n * 10 ^ e.val) u := by
  have hfast : n < 2 ^ 53 ∧ e.val ≤ 22 := ⟨hlt, by omega⟩
  have hn := unpack_toFloat hpos hlt
  have hten := unpack_powerOfTen e
  have htenPos : 0 < tenSignificand e := by
    have hspec := (tenSignificand_spec e).1
    omega
  rw [Float.ofScientific, dif_pos hfast, ← ten_value e]
  conv => arg 1; ext u; rw [← canonical_value hlt]
  cases divided with
  | false =>
    have hbits : 2 ^ 52 ≤ n * 2 ^ (52 - n.log2) * tenSignificand e := by
      have hnormal : 2 ^ 52 ≤ n * 2 ^ (52 - n.log2) := by
        have hlog : n.log2 < 53 := (Nat.log2_lt (by omega)).2 hlt
        exact (canonical_of_lt hpos hlt).normal.resolve_right (by omega)
      have hspec := (tenSignificand_spec e).1
      exact hnormal.trans (Nat.le_mul_of_pos_right _ (by omega))
    refine ⟨mul Format.binary64 (.finite .positive _ _ (canonical_of_lt hpos hlt).pos)
      (.finite .positive _ _ htenPos), ?_, roundedFrom_mul rfl hbits⟩
    show Float.ofModel (.pack (mul _ _ _)) = _
    erw [hn, hten]
  | true =>
    refine ⟨div Format.binary64 (.finite .positive _ _ (canonical_of_lt hpos hlt).pos)
      (.finite .positive _ _ htenPos), ?_, roundedFrom_div rfl⟩
    show Float.ofModel (.pack (div _ _ _)) = _
    erw [hn, hten]

theorem RoundsTo.le_max {m : Nat} {q : Int} {v : ℚ} (h : RoundsTo m q v)
    (hcanonical : Canonical m q) : v ≤ 2 ^ (1024 : Int) := by
  have hunit := two_zpow_pos (q - 2)
  have hm : (m : ℚ) + 1 ≤ 2 ^ 53 := by exact_mod_cast hcanonical.lt
  have hhighest := hcanonical.highest
  calc v ≤ (4 * (m : ℚ) + 2) * 2 ^ (q - 2) := h.high
    _ ≤ 2 ^ 55 * 2 ^ (q - 2) := mul_le_mul_of_nonneg_right (by linarith) hunit.le
    _ = 2 ^ (q - 2 + (55 : Nat)) := (two_zpow_add _ _).symm
    _ ≤ 2 ^ (1024 : Int) := two_zpow_le (by omega)

theorem RoundsTo.min_le {m : Nat} {q : Int} {v : ℚ} (h : RoundsTo m q v)
    (hcanonical : Canonical m q) : 2 ^ (-1076 : Int) ≤ v := by
  have hunit := two_zpow_pos (q - 2)
  have hm : (1 : ℚ) ≤ m := by exact_mod_cast hcanonical.pos
  have hlowest := hcanonical.lowest
  calc (2 : ℚ) ^ (-1076 : Int) ≤ 2 ^ (q - 2) := two_zpow_le (by omega)
    _ = 1 * 2 ^ (q - 2) := (one_mul _).symm
    _ ≤ (4 * (m : ℚ) - 2) * 2 ^ (q - 2) := mul_le_mul_of_nonneg_right (by linarith) hunit.le
    _ ≤ v := h.low

theorem ten_zpow_le_two_zpow {k : Int} (hk : k ≤ 0) : (10 : ℚ) ^ k ≤ 2 ^ k := by
  have hneg : k = -(k.natAbs : Int) := by omega
  rw [hneg, zpow_neg, zpow_neg, zpow_natCast, zpow_natCast]
  exact inv_anti₀ (by positivity) (pow_le_pow_left₀ (by norm_num) (by norm_num) _)

theorem two_zpow_le_of_huge {n : Nat} {k : Int} (hpos : 0 < n) (hk : 2048 < k) :
    (2 : ℚ) ^ (1025 : Int) ≤ n * 10 ^ k := by
  have hten := zpow_pos (show (0 : ℚ) < 10 by norm_num) k
  have hone : (1 : ℚ) ≤ n := by exact_mod_cast hpos
  calc (2 : ℚ) ^ (1025 : Int) ≤ 2 ^ k := two_zpow_le (by omega)
    _ ≤ 10 ^ k := zpow_le_zpow_left₀ (by omega) (by norm_num) (by norm_num)
    _ = 1 * 10 ^ k := (one_mul _).symm
    _ ≤ n * 10 ^ k := mul_le_mul_of_nonneg_right hone hten.le

theorem le_two_zpow_of_tiny {n : Nat} {k : Int} (hk : k < -(2048 + (n.log2 : Int))) :
    (n * 10 ^ k : ℚ) ≤ 2 ^ (-2048 : Int) := by
  have hten := zpow_pos (show (0 : ℚ) < 10 by norm_num) k
  have hupper : n < 2 ^ (n.log2 + 1) := Nat.lt_log2_self
  have hcast : (n : ℚ) ≤ 2 ^ (n.log2 + 1) := by exact_mod_cast hupper.le
  calc (n * 10 ^ k : ℚ) ≤ 2 ^ (n.log2 + 1) * 10 ^ k := mul_le_mul_of_nonneg_right hcast hten.le
    _ ≤ 2 ^ (n.log2 + 1) * 2 ^ k := by
      refine mul_le_mul_of_nonneg_left ?_ (by positivity)
      exact ten_zpow_le_two_zpow (by omega)
    _ = 2 ^ (k + (n.log2 + 1 : Nat)) := (two_zpow_add _ _).symm
    _ ≤ 2 ^ (-2048 : Int) := two_zpow_le (by omega)

/-- The power of ten of a number in a rounding interval is neither huge nor tiny. -/
theorem RoundsTo.power_bounds {m : Nat} {q : Int} {n : Nat} {k : Int}
    (h : RoundsTo m q (n * 10 ^ k)) (hcanonical : Canonical m q) (hpos : 0 < n) :
    k ≤ 2048 ∧ -(2048 + (n.log2 : Int)) ≤ k := by
  constructor
  · by_contra hlarge
    have hless : (2 : ℚ) ^ (1024 : Int) < 2 ^ (1025 : Int) :=
      zpow_lt_zpow_right₀ (by norm_num) (by norm_num)
    have hhuge := two_zpow_le_of_huge hpos (not_le.1 hlarge)
    exact absurd (hhuge.trans (h.le_max hcanonical)) (not_le.2 hless)
  · by_contra hsmall
    have hless : (2 : ℚ) ^ (-2048 : Int) < 2 ^ (-1076 : Int) :=
      zpow_lt_zpow_right₀ (by norm_num) (by norm_num)
    have htiny := le_two_zpow_of_tiny (not_le.1 hsmall)
    exact absurd ((h.min_le hcanonical).trans htiny) (not_le.2 hless)

/-- All other numbers, but for those that are huge or tiny: from the exact fraction. -/
theorem roundedFrom_ofScientific {n : Nat} {k : Int} (hpos : 0 < n) (hlarge : k ≤ 2048)
    (hsmall : -(2048 + (n.log2 : Int)) ≤ k) :
    RoundedFrom .positive (n * 10 ^ k) (UnpackedFloat.ofScientific Format.binary64 n k) := by
  have hlarge' : ¬ k > 2 ^ Format.binary64.exponentBits := by
    norm_num
    exact hlarge
  have hsmall' : ¬ k < -((2 ^ Format.binary64.exponentBits : Int) + n.log2) := by
    norm_num
    omega
  rw [UnpackedFloat.ofScientific, dif_neg (by omega), if_neg hlarge', if_neg hsmall']
  by_cases hk : 0 ≤ k
  · rw [if_pos hk]
    have hbits : Format.binary64.mantissaBits = 53 := rfl
    have hnonneg : (10 : ℚ) ^ k = 10 ^ k.toNat := by
      rw [← zpow_natCast]
      congr 1
      omega
    have hunscaled : ((n <<< Format.binary64.mantissaBits : Nat) *
        2 ^ (-(Format.binary64.mantissaBits : Nat) : Int) : ℚ) = n := by
      rw [hbits, Nat.shiftLeft_eq, Nat.cast_mul, Nat.cast_pow, Nat.cast_ofNat, mul_assoc,
        ← two_zpow_add]
      simp
    have hvalue : (n * 10 ^ k : ℚ) = (n <<< Format.binary64.mantissaBits : Nat) *
        2 ^ (-(Format.binary64.mantissaBits : Nat) : Int) *
          ((10 ^ k.toNat : Nat) * 2 ^ (0 : Int)) := by
      rw [hunscaled, zpow_zero, mul_one, Nat.cast_pow, Nat.cast_ofNat, ← hnonneg]
    rw [hvalue]
    refine roundedFrom_mul rfl ?_
    rw [hbits, Nat.shiftLeft_eq]
    have hten : 0 < 10 ^ k.toNat := Nat.pow_pos (by decide)
    calc 2 ^ 52 ≤ 1 * 2 ^ 53 * 1 := by norm_num
      _ ≤ n * 2 ^ 53 * 10 ^ k.toNat := Nat.mul_le_mul (Nat.mul_le_mul_right _ hpos) hten
  · rw [if_neg hk]
    have hneg : (10 : ℚ) ^ k = (10 ^ (-k).toNat)⁻¹ := by
      rw [← zpow_natCast, ← zpow_neg]
      congr 1
      omega
    have hvalue : (n * 10 ^ k : ℚ) =
        n * 2 ^ (0 : Int) / ((10 ^ (-k).toNat : Nat) * 2 ^ (0 : Int)) := by
      rw [zpow_zero, mul_one, mul_one, Nat.cast_pow, Nat.cast_ofNat, div_eq_mul_inv, ← hneg]
    rw [hvalue]
    exact roundedFrom_div rfl

/-- The signed power of ten of a number that is not short. -/
theorem ofScientific_of_not_short {n : Nat} {k : Int} (h : ¬ (n < 2 ^ 53 ∧ k.natAbs ≤ 22)) :
    Float.ofScientific n (decide (k < 0)) k.natAbs =
      .ofModel (.pack (UnpackedFloat.ofScientific Format.binary64 n k)) := by
  have hexponent :
      (if decide (k < 0) = true then Int.negOfNat k.natAbs else Int.ofNat k.natAbs) = k := by
    by_cases hk : k < 0
    · simp only [hk, decide_true, if_true, Int.negOfNat_eq, Int.ofNat_eq_natCast]
      omega
    · simp only [hk, decide_false, Bool.false_eq_true, if_false, Int.ofNat_eq_natCast]
      omega
  rw [Float.ofScientific, dif_neg h]
  show Float.ofModel (.pack (UnpackedFloat.ofScientific Format.binary64 n _)) = _
  rw [hexponent]

theorem exists_roundedFrom {n : Nat} {k : Int} (hpos : 0 < n) (hlarge : k ≤ 2048)
    (hsmall : -(2048 + (n.log2 : Int)) ≤ k) :
    ∃ u, Float.ofScientific n (decide (k < 0)) k.natAbs = .ofModel (.pack u) ∧
      RoundedFrom .positive (n * 10 ^ k) u := by
  by_cases hshort : n < 2 ^ 53 ∧ k.natAbs ≤ 22
  · obtain ⟨u, hu, hrounded⟩ :=
      exists_roundedFrom_short hpos hshort.1 ⟨k.natAbs, by omega⟩ (decide (k < 0))
    refine ⟨u, hu, ?_⟩
    by_cases hk : k < 0
    · have hneg : k = -(k.natAbs : Int) := by omega
      simp only [hk, decide_true, if_true] at hrounded
      rw [hneg, zpow_neg, zpow_natCast, ← div_eq_mul_inv]
      exact hrounded
    · have hnonneg : k = (k.natAbs : Int) := by omega
      simp only [hk, decide_false, Bool.false_eq_true, if_false] at hrounded
      rw [hnonneg, zpow_natCast]
      exact hrounded
  · exact ⟨_, ofScientific_of_not_short hshort, roundedFrom_ofScientific hpos hlarge hsmall⟩

/-- A decimal fraction in the rounding interval of a double is read as this double. -/
theorem ofScientific_eq {m : Nat} {q : Int} (hcanonical : Canonical m q) {n : Nat} {k : Int}
    (hv : RoundsTo m q (n * 10 ^ k)) :
    Float.ofScientific n (decide (k < 0)) k.natAbs =
      .ofModel (.pack (.finite .positive m q hcanonical.pos)) := by
  have hpos := hv.coefficient_pos hcanonical
  obtain ⟨hlarge, hsmall⟩ := hv.power_bounds hcanonical hpos
  obtain ⟨u, hu, hrounded⟩ := exists_roundedFrom hpos hlarge hsmall
  rw [hu, hrounded.eq_finite hcanonical hv]

end PipeQuery.Double
