/-
Arithmetic on an integer and a double that denotes an integer.

Both come into the decimals with their exact value, at scale zero.  What a decimal rounds to the
places that fit is exact where it is an integer, at whatever scale it fits, so a result that is an
integer of 64 bits comes out as it is.
-/
import PipeQuery.Proofs.IntegerArithmetic
import PipeQuery.Proofs.SortOrder

namespace PipeQuery

open Arithmetic

/-- The value is a number, and it denotes this integer. -/
def Value.Denotes (value : Value) (n : Int) : Prop :=
  value.number? = some (WithBotTop.coe (n : ℚ))

theorem Value.denotes_int_iff {k : Int64} {n : Int} : (Value.int k).Denotes n ↔ k.toInt = n := by
  rw [Denotes, number?, Option.some.injEq, WithBotTop.coe_injective.eq_iff]
  exact Int.cast_inj

/-! ## Decimals that are integers -/

namespace Scaled

section Doubles

variable {m : Nat} {q n : Int} {negative : Bool} {x : Float}

/-- Factors of two that are there are taken out with the tens. -/
theorem takeFives_mul_pow (fives m : Nat) (tens : Int) :
    takeFives fives (m * 2 ^ fives) tens = (m, tens + fives) := by
  induction fives generalizing tens with
  | zero => simp [takeFives]
  | succ fives ih =>
      have hdouble : m * 2 ^ (fives + 1) = 2 * (m * 2 ^ fives) := by ring
      rw [takeFives, hdouble, if_pos (Nat.mul_mod_right 2 _), Nat.mul_div_cancel_left _ (by decide),
        ih]
      push_cast
      ring_nf

/-- Factors of two are taken in as long as they fit. -/
theorem dropFives?_of_lt (fives : Nat) {m : Nat} (tens : Int) (h : m * 2 ^ fives < bound) :
    dropFives? fives m tens = some (m * 2 ^ fives, tens - fives) := by
  induction fives generalizing m tens with
  | zero => simp [dropFives?]
  | succ fives ih =>
      have hdouble : m * 2 ^ (fives + 1) = 2 * m * 2 ^ fives := by ring
      have hlt : m < 2 ^ 95 := by
        have hle : 2 * m ≤ 2 * m * 2 ^ fives := Nat.le_mul_of_pos_right _ (by positivity)
        have hbound : 2 * m * 2 ^ fives < 2 ^ 96 := hdouble ▸ h
        omega
      rw [dropFives?, if_pos hlt, ih _ (hdouble ▸ h), hdouble]
      push_cast
      ring_nf

theorem natAbs_signed (negative : Bool) (m : Nat) : (Binary.signed negative m).natAbs = m := by
  cases negative <;> simp [Binary.signed]

theorem signed_mul (negative : Bool) (m k : Nat) :
    Binary.signed negative (m * k) = Binary.signed negative m * k := by
  rw [signed_eq, signed_eq]
  push_cast
  ring

/-- The significand becomes the integer that the double denotes, with no tens left. -/
theorem exists_coefficient (h : (Binary.signed negative m * 2 ^ q : ℚ) = n)
    (hn : n.natAbs < bound) :
    (if q ≤ 0 then some (takeFives (-q).toNat m q) else dropFives? q.toNat m q) =
        some (n.natAbs, 0) ∧ Binary.signed negative n.natAbs = n := by
  split
  · -- The twos below the point are in the significand, so that no five has to be taken in.
    rename_i hq
    obtain ⟨k, rfl⟩ := Int.exists_eq_neg_ofNat hq
    have hvalue : Binary.signed negative m = n * (2 ^ k : Nat) := by
      have hunit : (2 : ℚ) ^ k ≠ 0 := by positivity
      rw [zpow_neg, zpow_natCast, ← div_eq_mul_inv, div_eq_iff hunit] at h
      exact_mod_cast h
    have hm : m = n.natAbs * 2 ^ k := by
      rw [← natAbs_signed negative m, hvalue, Int.natAbs_mul, Int.natAbs_natCast]
    refine ⟨?_, ?_⟩
    · rw [neg_neg, Int.toNat_natCast, hm, takeFives_mul_pow, neg_add_cancel]
    · rw [hm, signed_mul] at hvalue
      exact mul_right_cancel₀ (by positivity) hvalue
  · rename_i hq
    obtain ⟨k, rfl⟩ := Int.eq_ofNat_of_zero_le (by omega : 0 ≤ q)
    have hvalue : Binary.signed negative (m * 2 ^ k) = n := by
      rw [zpow_natCast] at h
      rw [signed_mul]
      exact_mod_cast h
    have hm : m * 2 ^ k = n.natAbs := by rw [← hvalue, natAbs_signed]
    refine ⟨?_, ?_⟩
    · rw [Int.toNat_natCast, dropFives?_of_lt k k (hm ▸ hn), hm, sub_self]
    · rw [← hm, hvalue]

theorem ofFloat?_of_denotes (h : (Value.float x).Denotes n) (hn : n.natAbs < bound) :
    ofFloat? x = some (ofInt n) := by
  rw [Value.Denotes, Value.number?] at h
  rw [ofFloat?]
  cases hx : Binary.ofFloat x with
  | undefined =>
      rw [hx] at h
      cases h
  | infinite negative =>
      rw [hx] at h
      cases negative with
      | true => exact absurd (Option.some.inj h).symm (WithBotTop.coe_ne_bot _)
      | false => exact absurd (Option.some.inj h).symm (WithBotTop.coe_ne_top _)
  | finite negative m q =>
      rw [hx] at h
      have hvalue : (Binary.signed negative m * 2 ^ q : ℚ) = n :=
        WithBotTop.coe_injective (Option.some.inj h)
      obtain ⟨hshifted, hsigned⟩ := exists_coefficient hvalue hn
      simp only [hshifted]
      split
      · rename_i hzero
        have hnone : Binary.signed negative 0 = 0 := by cases negative <;> rfl
        rw [hzero, hnone, Int.cast_zero, zero_mul] at hvalue
        obtain rfl : n = 0 := by exact_mod_cast hvalue.symm
        rfl
      · simp [takeTens?, dropBits, trimmed, hsigned, ofInt]

end Doubles

section Quotients

variable {num j : Int} {k den p scale : Nat}

/-- The quotient rounded to an integer. -/
def roundedQuotient (tie : Tie) (num : Int) (den : Nat) : Int :=
  Binary.signed (decide (num < 0)) (roundQuotient tie num.natAbs den)

theorem signed_natAbs (n : Int) : Binary.signed (decide (n < 0)) n.natAbs = n := by
  by_cases hn : n < 0
  · simp only [hn, decide_true, Binary.signed, if_true]
    omega
  · simp only [hn, decide_false, Binary.signed, Bool.false_eq_true, if_false]
    omega

theorem mul_neg_iff_of_pos {a b : Int} (hb : 0 < b) : a * b < 0 ↔ a < 0 := by
  rw [mul_neg_iff]
  omega

theorem roundQuotient_mul_right (tie : Tie) (hk : 0 < k) (num den : Nat) :
    roundQuotient tie (num * k) (den * k) = roundQuotient tie num den := by
  simp only [roundQuotient, Nat.mul_div_mul_right _ _ hk, Nat.mul_mod_mul_right, ← mul_assoc,
    Nat.mul_lt_mul_right hk]

theorem roundedQuotient_mul_right (tie : Tie) (hk : 0 < k) (num : Int) (den : Nat) :
    roundedQuotient tie (num * k) (den * k) = roundedQuotient tie num den := by
  have hsign : num * k < 0 ↔ num < 0 := mul_neg_iff_of_pos (Int.natCast_pos.2 hk)
  have hmagnitude : (num * k).natAbs = num.natAbs * k := by
    rw [Int.natAbs_mul, Int.natAbs_natCast]
  rw [roundedQuotient, hmagnitude, roundQuotient_mul_right _ hk, decide_eq_decide.2 hsign,
    roundedQuotient]

theorem roundedQuotient_one (tie : Tie) (n : Int) : roundedQuotient tie n 1 = n := by
  have hwhole : roundQuotient tie n.natAbs 1 = n.natAbs := by simp [roundQuotient, Nat.mod_one]
  rw [roundedQuotient, hwhole, signed_natAbs]

theorem roundedQuotient_mul_self (tie : Tie) (j : Int) (hden : 0 < den) :
    roundedQuotient tie (j * den) den = j := by
  have hwhole := roundedQuotient_mul_right tie hden j 1
  rwa [one_mul, roundedQuotient_one] at hwhole

/-- What is tried at a scale is the rounded quotient there. -/
theorem signed_roundQuotient (tie : Tie) (num : Int) (den scale : Nat) :
    Binary.signed (decide (num < 0)) (roundQuotient tie (num.natAbs * 10 ^ scale) den) =
      roundedQuotient tie (num * 10 ^ scale) den := by
  have hsign : num * 10 ^ scale < 0 ↔ num < 0 := mul_neg_iff_of_pos (by positivity)
  have hmagnitude : (num * 10 ^ scale).natAbs = num.natAbs * 10 ^ scale := by
    rw [Int.natAbs_mul, Int.natAbs_pow]
    rfl
  rw [roundedQuotient, hmagnitude, decide_eq_decide.2 hsign]

theorem fit?_of_lt (h : (roundedQuotient .toEven (num * 10 ^ scale) den).natAbs < bound) :
    fit? num den scale = some ⟨roundedQuotient .toEven (num * 10 ^ scale) den, scale⟩ := by
  rw [← signed_roundQuotient, natAbs_signed] at h
  rw [fit?.eq_def, if_pos h, signed_roundQuotient]

theorem fit?_succ_of_not_lt
    (h : ¬ (roundedQuotient .toEven (num * 10 ^ (scale + 1)) den).natAbs < bound) :
    fit? num den (scale + 1) = fit? num den scale := by
  rw [← signed_roundQuotient, natAbs_signed] at h
  rw [fit?, if_neg h]

/-- A number that is exact at a scale is exact at all places that fit from there on. -/
theorem exists_fit?_eq (h : num * 10 ^ p = j * den) (hden : 0 < den) (hj : j.natAbs < bound)
    (hp : p ≤ scale) :
    ∃ s, p ≤ s ∧ s ≤ scale ∧ fit? num den scale = some ⟨j * 10 ^ (s - p), s⟩ := by
  have hexact (s : Nat) (hs : p ≤ s) :
      roundedQuotient .toEven (num * 10 ^ s) den = j * 10 ^ (s - p) := by
    have hscaled : num * 10 ^ s = j * 10 ^ (s - p) * den := by
      calc num * 10 ^ s = num * 10 ^ p * 10 ^ (s - p) := by
            rw [mul_assoc, ← pow_add, Nat.add_sub_cancel' hs]
        _ = j * 10 ^ (s - p) * den := by rw [h]; ring
    rw [hscaled, roundedQuotient_mul_self _ _ hden]
  -- By induction on the places that are tried, the most first: at `p` places it fits.
  induction scale with
  | zero =>
      obtain rfl : p = 0 := Nat.le_zero.1 hp
      have hsame : j * 10 ^ (0 - 0) = j := by simp
      refine ⟨0, le_rfl, le_rfl, ?_⟩
      rw [← hsame, ← hexact 0 le_rfl] at hj
      rw [fit?_of_lt hj, hexact 0 le_rfl]
  | succ scale ih =>
      by_cases hfits : (j * 10 ^ (scale + 1 - p)).natAbs < bound
      · rw [← hexact (scale + 1) hp] at hfits
        exact ⟨scale + 1, hp, le_rfl, by rw [fit?_of_lt hfits, hexact (scale + 1) hp]⟩
      · rcases Nat.le_or_eq_of_le_succ hp with hle | rfl
        · obtain ⟨s, hs, hscale, hfit⟩ := ih hle
          rw [← hexact (scale + 1) hp] at hfits
          exact ⟨s, hs, hscale.trans (Nat.le_succ scale), (fit?_succ_of_not_lt hfits).trans hfit⟩
        · rw [Nat.sub_self, pow_zero, mul_one] at hfits
          exact absurd hj hfits

end Quotients

section Integers

variable {n m : Int}

theorem trimmed_mul_pow (j : Int) (scale : Nat) : trimmed (j * 10 ^ scale) scale = ofInt j := by
  induction scale with
  | zero => simp [trimmed, ofInt]
  | succ scale ih =>
      have hten : j * 10 ^ (scale + 1) = 10 * (j * 10 ^ scale) := by ring
      rw [trimmed, hten, if_pos (Int.mul_emod_right 10 _), Int.mul_ediv_cancel_left _ (by decide),
        ih]

theorem fit?_ofInt (hn : n.natAbs < bound) : fit? n 1 0 = some (ofInt n) := by
  obtain ⟨s, _, hs, hfit⟩ := exists_fit?_eq (show n * 10 ^ 0 = n * (1 : Nat) by simp) one_pos hn
    le_rfl
  obtain rfl : s = 0 := Nat.le_zero.1 hs
  simpa [ofInt] using hfit

theorem add?_ofInt (h : (m + n).natAbs < bound) :
    (ofInt m).add? (ofInt n) = some (ofInt (m + n)) := by
  simpa [add?, coefficientAt, ofInt] using fit?_ofInt h

theorem sub?_ofInt (h : (m - n).natAbs < bound) :
    (ofInt m).sub? (ofInt n) = some (ofInt (m - n)) :=
  add?_ofInt h

theorem mul?_ofInt (h : (m * n).natAbs < bound) :
    (ofInt m).mul? (ofInt n) = some (ofInt (m * n)) := by
  simpa [mul?, ofInt] using fit?_ofInt h

theorem div?_eq (m n : Int) :
    (ofInt m).div? (ofInt n) =
      (fit? (m * n.sign) n.natAbs maxScale).map fun q => trimmed q.coefficient q.scale := by
  simp [div?, ofInt]

theorem div?_ofInt (hn : n ≠ 0) (hm : m.natAbs < bound) :
    (ofInt (m * n)).div? (ofInt n) = some (ofInt m) := by
  have hexact : m * n * n.sign * 10 ^ 0 = m * (n.natAbs : Nat) := by
    rw [pow_zero, mul_one, mul_assoc, Int.mul_sign_self]
  obtain ⟨s, _, _, hfit⟩ := exists_fit?_eq hexact (Int.natAbs_pos.2 hn) hm (Nat.zero_le maxScale)
  rw [div?_eq, hfit, Option.map_some, Nat.sub_zero, trimmed_mul_pow]

theorem rem_ofInt (m n : Int) : (ofInt m).rem (ofInt n) = ofInt (m.tmod n) := by
  simp [rem, coefficientAt, ofInt]

@[simp] theorem isZero_ofInt (n : Int) : (ofInt n).isZero = (n == 0) := rfl

@[simp] theorem isNegative_ofInt (n : Int) : (ofInt n).isNegative = decide (n < 0) := rfl

theorem toInt64?_ofInt (n : Int) :
    (ofInt n).toInt64? = if fitsInt64 n then some (.ofInt n) else none := by
  have htruncate : (ofInt n).truncate = n := Int.tdiv_one n
  rw [toInt64?, htruncate]

theorem isWhole_ofInt (n : Int) : (ofInt n).isWhole = true :=
  beq_iff_eq.2 (Nat.mod_one _)

end Integers

end Scaled

/-! ## Operations on decimals that are integers -/

namespace Arithmetic

section Integers

variable {operation : Operation} {value : Value} {m n r : Int}

theorem scaled?_of_denotes (h : value.Denotes n) (hn : n.natAbs < Scaled.bound) :
    scaled? value = some (.ofInt n) := by
  cases value with
  | int k => exact congrArg (fun n => some (Scaled.ofInt n)) (Value.denotes_int_iff.1 h)
  | float x => exact Scaled.ofFloat?_of_denotes h hn
  | _ => cases h

theorem onScaled?_ofInt (hn : divides operation = true → n ≠ 0) (h : operation.exact m n = r)
    (hr : r.natAbs < Scaled.bound) :
    onScaled? operation (.ofInt m) (.ofInt n) = some (.ofInt r) := by
  cases operation with
  | add =>
      obtain rfl := Operation.exact_add.1 h
      exact Scaled.add?_ofInt hr
  | subtract =>
      obtain rfl := Operation.exact_subtract.1 h
      exact Scaled.sub?_ofInt hr
  | multiply =>
      obtain rfl := Operation.exact_multiply.1 h
      exact Scaled.mul?_ofInt hr
  | divide =>
      obtain rfl := (Operation.exact_divide (hn rfl)).1 h
      exact Scaled.div?_ofInt (hn rfl) hr
  | modulo =>
      obtain rfl := Operation.exact_modulo.1 h
      have hnonzero : (!(m.tmod n == 0)) = (m.tmod n != 0) := rfl
      rw [fmod_eq_ite] at hr ⊢
      simp only [onScaled?, Scaled.rem_ofInt, Scaled.isZero_ofInt, Scaled.isNegative_ofInt,
        hnonzero]
      split
      · rename_i hdiffer
        rw [if_pos hdiffer] at hr
        exact Scaled.add?_ofInt hr
      · rfl

theorem ofScaled_ofInt (n : Int64) : ofScaled (.ofInt n.toInt) = .int n := by
  simp [ofScaled, Scaled.toInt64?_ofInt, fitsInt64_toInt, Scaled.isWhole_ofInt]

end Integers

/-! ## An integer and a double -/

/-- An integer and a double that denotes an integer of at most `2 ^ 63` in magnitude, in either
order, and the integers that they denote. -/
inductive Mixed : Value → Value → Int → Int → Prop
  | intFloat (k : Int64) {x : Float} {n : Int} (hx : (Value.float x).Denotes n)
      (hn : n.natAbs ≤ 2 ^ 63) : Mixed (.int k) (.float x) k.toInt n
  | floatInt {x : Float} {n : Int} (hx : (Value.float x).Denotes n) (hn : n.natAbs ≤ 2 ^ 63)
      (k : Int64) : Mixed (.float x) (.int k) n k.toInt

section Mixed

variable {operation : Operation} {a b : Value} {m n : Int}

theorem Mixed.scaled? (h : Mixed a b m n) :
    scaled? a = some (.ofInt m) ∧ scaled? b = some (.ofInt n) := by
  cases h with
  | intFloat k hx hn => exact ⟨rfl, scaled?_of_denotes hx (hn.trans_lt (by decide))⟩
  | floatInt hx hn k => exact ⟨scaled?_of_denotes hx (hn.trans_lt (by decide)), rfl⟩

theorem Mixed.gives (h : Mixed a b m n) (operation : Operation) :
    Library.Gives operation.name [a, b] (onMixed operation a b) := by
  cases h with
  | intFloat k hx hn => exact Library.gives_operation operation rfl rfl
  | floatInt hx hn k => exact Library.gives_operation operation rfl rfl

theorem Mixed.onMixed_zero (h : Mixed a b m 0) (hdivides : divides operation = true) :
    onMixed operation a b = .null := by
  obtain ⟨ha, hb⟩ := h.scaled?
  simp [onMixed, ha, hb, hdivides]

theorem Mixed.onMixed_eq (h : Mixed a b m n) (hn : divides operation = true → n ≠ 0) {r : Int64}
    (hr : operation.exact m n = r.toInt) : onMixed operation a b = .int r := by
  obtain ⟨ha, hb⟩ := h.scaled?
  have hbound : r.toInt.natAbs < Scaled.bound := by
    have hlow := r.le_toInt
    have hhigh := r.toInt_lt
    rw [Scaled.bound]
    omega
  have hresult := onScaled?_ofInt hn hr hbound
  simpa [onMixed, ha, hb, hresult, ofScaled_ofInt] using hn

end Mixed

end Arithmetic

/-! ## The functions on an integer and a double -/

namespace Library

/-- The functions on an integer and a double that denotes an integer have as result the integer of
64 bits that is the exact result, where there is one; a zero divisor gives null. -/
theorem gives_exact_of_mixed {a b : Value} {m n : Int} (h : Mixed a b m n) (operation : Operation) :
    (divides operation = true → n = 0 → Gives operation.name [a, b] .null) ∧
      ((divides operation = true → n ≠ 0) → ∀ r : Int64, operation.exact m n = r.toInt →
        Gives operation.name [a, b] (.int r)) := by
  refine ⟨?_, fun hn r hr => ?_⟩
  · rintro hdivides rfl
    exact h.onMixed_zero hdivides ▸ h.gives operation
  · exact h.onMixed_eq hn hr ▸ h.gives operation

/-- Nothing is divided by the negative zero, and after division by `2 ^ 63` there remains of -7 what
it lacks to a multiple. -/
theorem gives_exact_of_mixed_limits :
    Mixed (.int 1) (.float (-0.0)) 1 0 ∧ Gives "divide" [.int 1, .float (-0.0)] .null ∧
      Mixed (.int (-7)) (.float 9223372036854775808) (-7) (2 ^ 63) ∧
        Gives "mod" [.int (-7), .float 9223372036854775808] (.int 9223372036854775801) := by
  have hzero : Mixed (.int 1) (.float (-0.0)) 1 0 := by
    refine .intFloat 1 ?_ (by decide)
    have hbinary : Binary.ofFloat (-0.0) = .finite true 0 0 := rfl
    norm_num [Value.Denotes, Value.number?, hbinary, Binary.number?, Binary.signed]
  have hlimit : Mixed (.int (-7)) (.float 9223372036854775808) (-7) (2 ^ 63) := by
    refine .intFloat (-7) ?_ (by decide)
    have hbinary : Binary.ofFloat 9223372036854775808 = .finite false (2 ^ 52) 11 := rfl
    norm_num [Value.Denotes, Value.number?, hbinary, Binary.number?, Binary.signed]
  have hexact : Operation.exact (-7 : Int) (2 ^ 63 : Int) .modulo =
      (9223372036854775801 : Int64).toInt :=
    Operation.exact_modulo.2 (by decide)
  refine ⟨hzero, (gives_exact_of_mixed hzero .divide).1 rfl rfl, hlimit, ?_⟩
  exact (gives_exact_of_mixed hlimit .modulo).2 (fun _ => by decide) _ hexact

end Library

end PipeQuery
