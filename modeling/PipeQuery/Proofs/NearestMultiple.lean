/-
Rounding before the point.

The quotient by a power of ten is exact at the places that fit, so that it is rounded only once, to
an integer, and what comes of it is the nearest multiple.  The power itself must have 64 bits.  To
more digits the result is zero, which is the nearest multiple unless a number of 19 or 20 digits is
rounded to 19 of them.
-/
import PipeQuery.Proofs.MixedArithmetic

namespace PipeQuery

open Arithmetic

/-! ## Nearest multiples -/

/-- The multiple of the unit nearest to the number; of two that are as near, the one away from
zero. -/
structure NearestMultiple (unit n k : Int) : Prop where
  dvd : unit ∣ k
  nearest : ∀ j, unit ∣ j → (n - k).natAbs ≤ (n - j).natAbs
  away : ∀ j, unit ∣ j → (n - j).natAbs = (n - k).natAbs → j.natAbs ≤ k.natAbs

namespace NearestMultiple

variable {unit n j k : Int}

theorem unique (hj : NearestMultiple unit n j) (hk : NearestMultiple unit n k) : j = k := by
  have hdistance := Nat.le_antisymm (hk.nearest j hj.dvd) (hj.nearest k hk.dvd)
  have hmagnitude := Nat.le_antisymm (hk.away j hj.dvd hdistance.symm) (hj.away k hk.dvd hdistance)
  have hzero := hj.nearest 0 (dvd_zero unit)
  omega

theorem neg (h : NearestMultiple unit n k) : NearestMultiple unit (-n) (-k) := by
  have hmirror (j : Int) : (-n - j).natAbs = (n - -j).natAbs := by omega
  refine ⟨h.dvd.neg_right, fun j hj => ?_, fun j hj heq => ?_⟩
  · rw [hmirror, hmirror, neg_neg]
    exact h.nearest (-j) hj.neg_right
  · rw [hmirror, hmirror, neg_neg] at heq
    rw [Int.natAbs_neg, ← Int.natAbs_neg j]
    exact h.away (-j) hj.neg_right heq

/-- A multiple at most half a unit away is the nearest one, if it is farther from zero where it is
half a unit away. -/
theorem of_near (hdvd : unit ∣ k) (hnear : 2 * (n - k).natAbs ≤ unit)
    (htie : 2 * (n - k).natAbs = unit → n.natAbs < k.natAbs) : NearestMultiple unit n k := by
  -- Two multiples are at least a unit apart, and `k` is at least a unit away from zero.
  have hapart (j : Int) (hj : unit ∣ j) : j = k ∨ unit ≤ (j - k).natAbs := by
    by_cases heq : j = k
    · exact .inl heq
    · exact .inr (Int.le_of_dvd (by omega) (Int.dvd_natAbs.2 (dvd_sub hj hdvd)))
  refine ⟨hdvd, fun j hj => ?_, fun j hj heq => ?_⟩
  · have := hapart j hj
    omega
  · have hj := hapart j hj
    have hk := hapart 0 (dvd_zero unit)
    omega

theorem zero (h : 2 * n.natAbs < unit) : NearestMultiple unit n 0 := by
  refine of_near (dvd_zero unit) ?_ fun htie => ?_
  · rw [sub_zero]
    exact h.le
  · rw [sub_zero] at htie
    exact absurd htie h.ne

end NearestMultiple

/-! ## Decimals rounded to integers -/

namespace Scaled

section Rounding

variable {n : Int} {unit digits : Nat}

theorem roundQuotient_awayFromZero (num den : Nat) :
    roundQuotient .awayFromZero num den =
      if 2 * (num % den) < den then num / den else num / den + 1 := by
  rw [roundQuotient]
  split_ifs <;> rfl

theorem nearestMultiple_roundQuotient (hunit : 0 < unit) (n : Nat) :
    NearestMultiple unit n (unit * roundQuotient .awayFromZero n unit : Nat) := by
  have hdivision : unit * (n / unit) + n % unit = n := Nat.div_add_mod n unit
  have hmod : n % unit < unit := Nat.mod_lt n hunit
  refine .of_near (Int.natCast_dvd_natCast.2 (Nat.dvd_mul_right unit _)) ?_ ?_
  all_goals
    rw [roundQuotient_awayFromZero]
    split
    · omega
    · rw [mul_add, mul_one]
      omega

theorem nearestMultiple_roundedQuotient (hunit : 0 < unit) (n : Int) :
    NearestMultiple unit n (roundedQuotient .awayFromZero n unit * unit) := by
  have hnearest := nearestMultiple_roundQuotient hunit n.natAbs
  rw [Nat.cast_mul, mul_comm] at hnearest
  by_cases hn : n < 0
  · have hneg := hnearest.neg
    rw [← neg_mul, Int.ofNat_natAbs_of_nonpos hn.le, neg_neg] at hneg
    simpa [roundedQuotient, hn, Binary.signed] using hneg
  · rw [Int.natAbs_of_nonneg (not_lt.1 hn)] at hnearest
    simpa [roundedQuotient, hn, Binary.signed] using hnearest

theorem roundTo_zero (c : Int) (scale : Nat) :
    (⟨c, scale⟩ : Scaled).roundTo 0 = ofInt (roundedQuotient .awayFromZero c (10 ^ scale)) := by
  cases scale with
  | zero => rw [pow_zero, roundedQuotient_one]; rfl
  | succ scale => rfl

/-- The places that hold nothing do not matter to the integer. -/
theorem roundTo_trimmed (c : Int) (scale : Nat) :
    (trimmed c scale).roundTo 0 = ofInt (roundedQuotient .awayFromZero c (10 ^ scale)) := by
  induction scale generalizing c with
  | zero => exact roundTo_zero c 0
  | succ scale ih =>
      rw [trimmed]
      split
      · rename_i hten
        obtain ⟨d, rfl⟩ := Int.dvd_of_emod_eq_zero hten
        have htens := roundedQuotient_mul_right .awayFromZero (by decide : 0 < 10) d (10 ^ scale)
        rw [Int.mul_ediv_cancel_left _ (by decide), ih, pow_succ, mul_comm 10 d]
        exact congrArg ofInt htens.symm
      · exact roundTo_zero c (scale + 1)

/-- The quotient by a power of ten is exact at the places that there are. -/
theorem exists_div?_roundTo (hn : n.natAbs < bound) (hdigits : digits ≤ maxScale) :
    ∃ q, (ofInt n).div? (ofInt (10 ^ digits)) = some q ∧
      q.roundTo 0 = ofInt (roundedQuotient .awayFromZero n (10 ^ digits)) := by
  have hexact : n * 10 ^ digits = n * (10 ^ digits : Nat) := by
    push_cast
    rfl
  obtain ⟨s, hs, _, hfit⟩ := exists_fit?_eq hexact (by positivity) hn hdigits
  refine ⟨trimmed (n * 10 ^ (s - digits)) s, ?_, ?_⟩
  · have hsign : Int.sign (10 ^ digits) = 1 := Int.sign_eq_one_of_pos (by positivity)
    have hmagnitude : Int.natAbs (10 ^ digits) = 10 ^ digits := Int.natAbs_pow 10 _
    rw [div?_eq, hsign, hmagnitude, mul_one, hfit, Option.map_some]
  · have hscale : 10 ^ digits * 10 ^ (s - digits) = 10 ^ s := by
      rw [← pow_add, Nat.add_sub_cancel' hs]
    have hpos : 0 < 10 ^ (s - digits) := by positivity
    have hscaled := roundedQuotient_mul_right .awayFromZero hpos n (10 ^ digits)
    rw [hscale, Nat.cast_pow] at hscaled
    exact (roundTo_trimmed _ s).trans (congrArg ofInt hscaled)

theorem toFloat_ofInt (n : Int) : (ofInt n).toFloat = Float.ofInt n := by
  cases n with
  | ofNat n => rfl
  | negSucc n =>
      have hnegative : (ofInt (Int.negSucc n)).isNegative = true :=
        decide_eq_true (Int.negSucc_lt_zero n)
      rw [toFloat, hnegative]
      rfl

end Rounding

end Scaled

/-! ## Rounding of values -/

/-- A multiple as the rounding of the value gives it: an integer if the value is one and the
multiple has 64 bits, else a float. -/
def Value.ofMultiple (value : Value) (multiple : Int) : Value :=
  match value with
  | .int _ => if fitsInt64 multiple then .int (.ofInt multiple) else .float (Float.ofInt multiple)
  | _ => .float (Float.ofInt multiple)

/-- A number of 19 or 20 digits is rounded to 19, and its nearest multiple is not zero. -/
def Dropped (places n : Int) : Prop :=
  places = -19 ∧ 5 * 10 ^ 18 ≤ n.natAbs

namespace Arithmetic

section Rounding

variable {value : Value} {n multiple places : Int}

/-- The greatest power of ten with 64 bits has 18 zeros. -/
theorem checkedPower?_ten (digits : Nat) :
    checkedPower? 10 digits = if digits ≤ 18 then some (10 ^ digits) else none := by
  split
  · rename_i hdigits
    have hpower : (10 : Int) ^ digits ≤ 10 ^ 18 := pow_le_pow_right₀ (by decide) hdigits
    have hpos : (0 : Int) < 10 ^ digits := by positivity
    refine (checkedPower?_eq_some_iff (Int.natCast_nonneg digits)).2 ⟨rfl, ?_, by omega⟩
    rw [fitsInt64_iff]
    omega
  · rename_i hdigits
    rw [Option.eq_none_iff_forall_ne_some]
    intro n hn
    obtain ⟨hpower, hfits, _⟩ := (checkedPower?_eq_some_iff (Int.natCast_nonneg digits)).1 hn
    have hlarge : (10 : Int) ^ 19 ≤ 10 ^ digits := pow_le_pow_right₀ (by decide) (by omega)
    rw [fitsInt64_iff, ← hpower, Int.toNat_natCast] at hfits
    omega

theorem exists_roundScaled? (hn : n.natAbs < 2 ^ 64) (hplaces : places < 0) :
    ∃ multiple, roundScaled? (.ofInt n) places = some (.ofInt multiple) ∧
      (Dropped places n → multiple = 0) ∧
        (¬ Dropped places n → NearestMultiple (10 ^ places.natAbs) n multiple) := by
  rw [roundScaled?, if_neg (not_le.2 hplaces), checkedPower?_ten]
  by_cases hdigits : places.natAbs ≤ 18
  · rw [if_pos hdigits]
    obtain ⟨q, hq, hrounded⟩ := Scaled.exists_div?_roundTo
      (hn.trans (by decide : 2 ^ 64 < Scaled.bound)) (hdigits.trans (by decide))
    have hnearest := Scaled.nearestMultiple_roundedQuotient
      (by positivity : 0 < 10 ^ places.natAbs) n
    push_cast at hnearest
    -- Zero is a multiple, so that the nearest one is at most twice as large as the number.
    have hbound : (Scaled.roundedQuotient .awayFromZero n (10 ^ places.natAbs) *
        10 ^ places.natAbs).natAbs < Scaled.bound := by
      have hzero := hnearest.nearest 0 (dvd_zero _)
      rw [Scaled.bound]
      omega
    refine ⟨_, ?_, fun hdropped => ?_, fun _ => hnearest⟩
    · refine Option.bind_eq_some_iff.2 ⟨q, hq, ?_⟩
      rw [hrounded]
      exact Scaled.mul?_ofInt hbound
    · rw [hdropped.1] at hdigits
      exact absurd hdigits (by decide)
  · rw [if_neg hdigits]
    refine ⟨0, rfl, fun _ => rfl, fun hdropped => .zero ?_⟩
    by_cases hlimit : places.natAbs = 19
    · have hsmall : n.natAbs < 5 * 10 ^ 18 := by
        by_contra hlarge
        exact hdropped ⟨by omega, not_lt.1 hlarge⟩
      rw [hlimit]
      omega
    · -- From twenty digits on no number is as large as half a unit.
      have hpower : (10 : Int) ^ 20 ≤ 10 ^ places.natAbs :=
        pow_le_pow_right₀ (by decide) (by omega)
      omega

theorem round_eq (h : value.Denotes n) (hn : n.natAbs < 2 ^ 64) (hplaces : places < 0)
    (hrounded : roundScaled? (.ofInt n) places = some (.ofInt multiple)) :
    round value (some places) = value.ofMultiple multiple := by
  have hscaled := scaled?_of_denotes h (hn.trans (by decide))
  cases value with
  | int k =>
      cases hfits : fitsInt64 multiple with
      | true =>
          simp [round, hplaces, hscaled, hrounded, Scaled.toInt64?_ofInt, hfits, Value.ofMultiple]
      | false =>
          simp [round, hplaces, hscaled, hrounded, Scaled.toInt64?_ofInt, hfits, Value.ofMultiple,
            Scaled.toFloat_ofInt]
  | float x =>
      cases hfits : fitsInt64 multiple with
      | true =>
          simp [round, hscaled, hrounded, Scaled.toInt64?_ofInt, hfits, Value.ofMultiple,
            Scaled.toFloat_ofInt]
      | false =>
          simp [round, hscaled, hrounded, Scaled.toInt64?_ofInt, hfits, Value.ofMultiple,
            Scaled.toFloat_ofInt]
  | _ => cases h

/-- The nearest multiple of a number that is dropped has 20 digits. -/
theorem natAbs_of_dropped (hn : n.natAbs < 2 ^ 64) (hdropped : Dropped places n)
    (hnearest : NearestMultiple (10 ^ places.natAbs) n multiple) :
    multiple.natAbs = 10 ^ 19 ∨ multiple.natAbs = 2 * 10 ^ 19 := by
  obtain ⟨rfl, hlarge⟩ := hdropped
  have hunit : (10 : Int) ^ (-19 : Int).natAbs = 10 ^ 19 := rfl
  rw [hunit] at hnearest
  obtain ⟨⟨k, rfl⟩, hnear, haway⟩ := hnearest
  -- One of the two units is at most as far away as zero, which is not away from zero.
  have hzero := hnear 0 (dvd_zero _)
  have hpositive := hnear (10 ^ 19) dvd_rfl
  have hnegative := hnear (-10 ^ 19) (dvd_neg.2 dvd_rfl)
  have hpositive' := haway (10 ^ 19) dvd_rfl
  have hnegative' := haway (-10 ^ 19) (dvd_neg.2 dvd_rfl)
  omega

theorem ofMultiple_zero_ne (h : multiple.natAbs = 10 ^ 19 ∨ multiple.natAbs = 2 * 10 ^ 19) :
    value.ofMultiple 0 ≠ value.ofMultiple multiple := by
  have hzero : fitsInt64 0 = true := rfl
  have hfits : fitsInt64 multiple = false := by
    rw [← Bool.not_eq_true, fitsInt64_iff]
    omega
  have hfloat : Float.ofInt 0 ≠ Float.ofInt multiple := by
    have hmultiple : multiple = 10 ^ 19 ∨ multiple = -10 ^ 19 ∨ multiple = 2 * 10 ^ 19 ∨
        multiple = -(2 * 10 ^ 19) := by omega
    rcases hmultiple with rfl | rfl | rfl | rfl <;> decide
  cases value with
  | int k => simp [Value.ofMultiple, hzero, hfits]
  | _ => exact fun heq => hfloat (Value.float.inj heq)

end Rounding

end Arithmetic

/-! ## The function on a number that denotes an integer -/

namespace Library

variable {value digits : Value} {n : Int} {places : Int64}

theorem gives_round (value : Value) (hdigits : digits.asInt? = some places) :
    Gives "round" [value, digits] (round value (some places.toInt)) := by
  refine ⟨_, _, rfl, rfl, ?_⟩
  simp [argument, hdigits]

/-- A number that denotes an integer is rounded before the point to the nearest multiple of the
power of ten, if and only if it is not dropped. -/
theorem gives_round_iff (h : value.Denotes n) (hn : n.natAbs < 2 ^ 64)
    (hdigits : digits.asInt? = some places) (hplaces : places.toInt < 0) :
    ∃ multiple, NearestMultiple (10 ^ places.toInt.natAbs) n multiple ∧
      (Gives "round" [value, digits] (value.ofMultiple multiple) ↔ ¬ Dropped places.toInt n) := by
  obtain ⟨result, hresult, hzero, hnearest⟩ := exists_roundScaled? hn hplaces
  have hgives : Gives "round" [value, digits] (value.ofMultiple result) :=
    round_eq h hn hplaces hresult ▸ gives_round value hdigits
  by_cases hdropped : Dropped places.toInt n
  · have hmultiple := Scaled.nearestMultiple_roundedQuotient
      (by positivity : 0 < 10 ^ places.toInt.natAbs) n
    push_cast at hmultiple
    refine ⟨_, hmultiple, fun hother => ?_, fun hkept => absurd hdropped hkept⟩
    rw [hzero hdropped] at hgives
    exact absurd (hgives.unique hother)
      (ofMultiple_zero_ne (natAbs_of_dropped hn hdropped hmultiple))
  · exact ⟨result, hnearest hdropped, fun _ => hdropped, fun _ => hgives⟩

/-- A half goes away from zero, and the multiple next to the greatest integer is a float. -/
theorem gives_round_iff_half :
    Gives "round" [.int (-25), .int (-1)] (.int (-30)) ∧
      Gives "round" [.int 9223372036854775807, .int (-1)]
        (.float (Float.ofInt 9223372036854775810)) := by
  have hhalf : (Value.int (-25)).Denotes (-25) := Value.denotes_int_iff.2 rfl
  have hgreatest : (Value.int 9223372036854775807).Denotes 9223372036854775807 :=
    Value.denotes_int_iff.2 rfl
  have hdigits : (Value.int (-1)).asInt? = some (-1) := rfl
  constructor
  · obtain ⟨multiple, hnearest, hgives⟩ := gives_round_iff hhalf (by decide) hdigits (by decide)
    obtain rfl : multiple = -30 := hnearest.unique (.of_near (by decide) (by decide) (by decide))
    exact hgives.2 fun hdropped => absurd hdropped.1 (by decide)
  · obtain ⟨multiple, hnearest, hgives⟩ := gives_round_iff hgreatest (by decide) hdigits (by decide)
    obtain rfl : multiple = 9223372036854775810 :=
      hnearest.unique (.of_near (by decide) (by decide) (by decide))
    exact hgives.2 fun hdropped => absurd hdropped.1 (by decide)

/-- The greatest integer has 19 digits and its nearest multiple is `10 ^ 19`, but it is rounded to
zero. -/
theorem exists_round_dropped :
    NearestMultiple (10 ^ 19) 9223372036854775807 (10 ^ 19) ∧
      Gives "round" [.int 9223372036854775807, .int (-19)] (.int 0) ∧
        ¬ Gives "round" [.int 9223372036854775807, .int (-19)]
          ((Value.int 9223372036854775807).ofMultiple (10 ^ 19)) := by
  have hdigits : (Value.int (-19)).asInt? = some (-19) := rfl
  have hgives : Gives "round" [.int 9223372036854775807, .int (-19)] (.int 0) :=
    gives_round (.int 9223372036854775807) hdigits
  have hne : (Value.int 9223372036854775807).ofMultiple 0 ≠
      (Value.int 9223372036854775807).ofMultiple (10 ^ 19) :=
    ofMultiple_zero_ne (.inl rfl)
  exact ⟨.of_near (by decide) (by decide) (by decide), hgives,
    fun hother => hne (hgives.unique hother)⟩

end Library

end PipeQuery
