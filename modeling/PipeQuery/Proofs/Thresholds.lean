/-
An integer and a double are compared as the numbers they denote.

A double beyond the integers of 64 bits is told by the two bounds.  Any other has an integer part of
64 bits, which is nearer to it than one, so that only an integer that is this part is left to be
compared with what the double has after its point.  Nothing is rounded on the way: the bounds, the
integer part and the difference of the double and its integer part are doubles.
-/
import Mathlib.Data.Nat.Cast.Order.Field
import PipeQuery.Proofs.DenotedNumber

namespace PipeQuery

namespace Double

open Float.Model
open Float.Model.UnpackedFloat

variable {m n : Nat} {q : Int} {a b v : ℚ} {sign : UnpackedFloat.Sign} {u u' : UnpackedFloat}

/-! ## Numbers that are doubles -/

theorem abs_signed (negative : Bool) (m : Nat) : |(Binary.signed negative m : ℚ)| = m := by
  cases negative <;> simp [Binary.signed]

/-- The number is zero, or a positive double with a sign. -/
def Representable (v : ℚ) : Prop :=
  v = 0 ∨ ∃ m q, Canonical m q ∧ |v| = m * 2 ^ q

theorem representable_neg : Representable (-v) ↔ Representable v := by
  rw [Representable, Representable, neg_eq_zero, abs_neg]

/-- A significand of 53 bits, shifted as far as the exponents go, is a canonical one. -/
theorem exists_canonical (hpos : 0 < m) (hlt : m < 2 ^ 53) (hlow : -1074 ≤ q) (hhigh : q ≤ 971) :
    ∃ m' q', Canonical m' q' ∧ (m' * 2 ^ q' : ℚ) = m * 2 ^ q := by
  obtain ⟨j, hj⟩ := Int.eq_ofNat_of_zero_le (show 0 ≤ q + 1074 by omega)
  have hfull := canonical_of_lt hpos hlt
  have hbits := hfull.normal.resolve_right (by omega)
  generalize hshift : min (52 - m.log2) j = k
  refine ⟨m * 2 ^ k, q - k, ⟨by positivity, ?_, by omega, by omega, ?_⟩, ?_⟩
  · calc m * 2 ^ k ≤ m * 2 ^ (52 - m.log2) :=
          Nat.mul_le_mul_left m (Nat.pow_le_pow_right (by decide) (by omega))
      _ < 2 ^ 53 := hfull.lt
  · rcases min_choice (52 - m.log2) j with h | h
    · rw [hshift] at h
      rw [h]
      exact .inl hbits
    · exact .inr (by omega)
  · have hsum : q = q - k + (k : Int) := by omega
    conv => rhs; rw [hsum, two_zpow_add]
    push_cast
    ring

theorem representable_signed (negative : Bool) (hlt : m < 2 ^ 53) (hlow : -1074 ≤ q)
    (hhigh : q ≤ 971) : Representable (Binary.signed negative m * 2 ^ q) := by
  rcases Nat.eq_zero_or_pos m with rfl | hpos
  · left
    simp [signed_eq]
  · obtain ⟨m', q', hcanonical, hvalue⟩ := exists_canonical hpos hlt hlow hhigh
    refine .inr ⟨m', q', hcanonical, ?_⟩
    rw [hvalue, abs_mul, abs_of_pos (two_zpow_pos q), abs_signed]

/-! ## Exact rounding -/

theorem unpack_pack_zero : (Float.Model.pack (.zero sign)).unpack = .zero sign := by
  cases sign <;> rfl

theorem Denotes.finite {hpos : 0 < m} (sign : UnpackedFloat.Sign) (h : Canonical m q) :
    Denotes (.finite sign m q hpos) (WithBotTop.coe ((sign.apply m : Int) * 2 ^ q)) := by
  cases sign with
  | negative =>
      have hvalue : ((Sign.negative.apply m : Int) * 2 ^ q : ℚ) = -(m * 2 ^ q) := by
        simp [Sign.apply]
      rw [hvalue]
      exact .negative h
  | positive => exact .positive h

/-- A double that denotes a rational number is a zero or finite. -/
theorem Denotes.cases_coe (h : Denotes u (WithBotTop.coe a)) :
    (∃ sign, u = .zero sign ∧ a = 0) ∨
      ∃ sign m q hpos, Canonical m q ∧ u = .finite sign m q hpos ∧
        a = (sign.apply m : Int) * 2 ^ q := by
  generalize hr : WithBotTop.coe a = r at h
  cases h with
  | bottom => exact absurd hr (WithBotTop.coe_ne_bot a)
  | top => exact absurd hr (WithBotTop.coe_ne_top a)
  | zero sign => exact .inl ⟨sign, rfl, WithBotTop.coe_strictMono.injective hr⟩
  | @negative m q hpos h =>
      refine .inr ⟨.negative, m, q, hpos, h, rfl, ?_⟩
      rw [WithBotTop.coe_strictMono.injective hr]
      simp [Sign.apply]
  | @positive m q hpos h =>
      exact .inr ⟨.positive, m, q, hpos, h, rfl, WithBotTop.coe_strictMono.injective hr⟩

/-- A double is rounded to itself. -/
theorem denotes_round (sign : UnpackedFloat.Sign) (hpos : 0 < n)
    (h : Representable (n * 2 ^ q)) :
    Denotes (Float.Model.pack (UnpackedFloat.round Format.binary64 sign n q)).unpack
      (WithBotTop.coe ((sign.apply n : Int) * 2 ^ q)) := by
  have hvalue : (0 : ℚ) < n * 2 ^ q := mul_pos (by exact_mod_cast hpos) (two_zpow_pos q)
  obtain ⟨m, p, hcanonical, hm⟩ := h.resolve_left hvalue.ne'
  rw [abs_of_pos hvalue] at hm
  have hround : UnpackedFloat.round Format.binary64 sign n q =
      .finite sign m p hcanonical.pos :=
    (roundedFrom_round hpos).eq_finite hcanonical (hm ▸ .self m p)
  have hsigned : ((sign.apply n : Int) * 2 ^ q : ℚ) = (sign.apply m : Int) * 2 ^ p := by
    cases sign with
    | negative => simpa [Sign.apply] using hm
    | positive => simpa [Sign.apply] using hm
  rw [hround, unpack_pack hcanonical, hsigned]
  exact .finite sign hcanonical

theorem denotes_normalize {k : Int} (h : Representable (k * 2 ^ q)) :
    Denotes (Float.Model.pack (UnpackedFloat.normalize Format.binary64 k q .positive)).unpack
      (WithBotTop.coe (k * 2 ^ q)) := by
  rw [UnpackedFloat.normalize]
  rcases lt_trichotomy k 0 with hk | rfl | hk
  · obtain ⟨n, rfl⟩ : ∃ n : Nat, k = -n := ⟨k.natAbs, by omega⟩
    rw [Int.compare_eq_lt.2 hk, neg_neg, Int.toNat_natCast]
    refine denotes_round .negative (by omega) ?_
    rwa [Int.cast_neg, neg_mul, representable_neg] at h
  · rw [Int.compare_eq_eq.2 rfl, Int.cast_zero, zero_mul]
    show Denotes (Float.Model.pack (.zero .positive)).unpack _
    rw [unpack_pack_zero]
    exact .zero .positive
  · obtain ⟨n, rfl⟩ := Int.eq_ofNat_of_zero_le hk.le
    rw [Int.compare_eq_gt.2 hk]
    exact denotes_round .positive (by omega) (by exact_mod_cast h)

/-! ## Differences -/

theorem decreaseExponent_fst (sign : UnpackedFloat.Sign) (m : Nat) {t : Int} (ht : t ≤ q) :
    ((sign.apply (decreaseExponent m q t).1 : Int) * 2 ^ t : ℚ) = (sign.apply m : Int) * 2 ^ q := by
  have hsum : q = t + ((q - t).toNat : Int) := by omega
  conv => rhs; rw [hsum, two_zpow_add]
  rw [decreaseExponent, Nat.shiftLeft_eq]
  cases sign with
  | negative =>
      simp only [Sign.apply]
      push_cast
      ring
  | positive =>
      simp only [Sign.apply]
      push_cast
      ring

/-- A difference that is a double is not rounded. -/
theorem denotes_sub (hu : Denotes u (WithBotTop.coe a)) (hu' : Denotes u' (WithBotTop.coe b))
    (h : Representable (a - b)) :
    Denotes (Float.Model.pack (UnpackedFloat.sub Format.binary64 u u')).unpack
      (WithBotTop.coe (a - b)) := by
  rcases hu.cases_coe with ⟨sign, rfl, rfl⟩ | ⟨sign, m, q, hpos, hcanonical, rfl, rfl⟩
  · rcases hu'.cases_coe with ⟨sign', rfl, rfl⟩ | ⟨sign', n, p, hpos', hcanonical', rfl, rfl⟩
    · rw [sub_zero]
      cases sign <;> cases sign' <;> exact .zero _
    · have hneg : (0 - (sign'.apply n : Int) * 2 ^ p : ℚ) = ((-sign').apply n : Int) * 2 ^ p := by
        cases sign' <;> simp [Sign.apply]
      rw [hneg]
      show Denotes (Float.Model.pack (.finite (-sign') n p hpos')).unpack _
      rw [unpack_pack hcanonical']
      exact .finite _ hcanonical'
  · rcases hu'.cases_coe with ⟨sign', rfl, rfl⟩ | ⟨sign', n, p, hpos', hcanonical', rfl, rfl⟩
    · rw [sub_zero]
      show Denotes (Float.Model.pack (.finite sign m q hpos)).unpack _
      rw [unpack_pack hcanonical]
      exact .finite _ hcanonical
    · have hm := decreaseExponent_fst sign m (min_le_left q p)
      have hn := decreaseExponent_fst sign' n (min_le_right q p)
      rw [← hm, ← hn, ← sub_mul, ← Int.cast_sub] at h ⊢
      exact denotes_normalize h

/-! ## Integers of 64 bits -/

/-- Truncation shifts the significand until its exponent is zero. -/
theorem exists_roundToInt (sign : UnpackedFloat.Sign) (m : Nat) (q : Int) :
    ∃ em, Marks em (m * 2 ^ q) ∧ roundToInt sign m q = sign.apply em.mantissa := by
  refine ⟨_, ?_, rfl⟩
  have hshifted : (m * 2 ^ q : ℚ) =
      (m <<< (q - 0).toNat : Nat) / 2 ^ (0 - (q - (q - 0).toNat)).toNat := by
    rw [Nat.shiftLeft_eq]
    push_cast
    rcases le_or_gt 0 q with hq | hq
    · obtain ⟨k, rfl⟩ := Int.eq_ofNat_of_zero_le hq
      simp
    · obtain ⟨k, rfl⟩ : ∃ k : Nat, q = -k := ⟨q.natAbs, by omega⟩
      have hk : (-(k : Int) - 0).toNat = 0 := by omega
      rw [hk, zpow_neg, zpow_natCast]
      simp [div_eq_mul_inv]
  rw [hshifted]
  exact (marks_exact _).shiftRight _

/-- Truncation gives the integer that a double denotes. -/
theorem roundToInt_eq {t : Int} (h : ((sign.apply m : Int) * 2 ^ q : ℚ) = t) :
    roundToInt sign m q = t := by
  obtain ⟨em, hmarks, hround⟩ := exists_roundToInt sign m q
  have hmagnitude : (m * 2 ^ q : ℚ) = t.natAbs := by
    rw [Nat.cast_natAbs, Int.cast_abs, ← h, abs_mul, abs_of_pos (two_zpow_pos q)]
    cases sign <;> simp [Sign.apply]
  have hmantissa : em.mantissa = t.natAbs := by
    rw [hmagnitude] at hmarks
    obtain ⟨hle, hlt⟩ := hmarks.floor
    have hle' : em.mantissa ≤ t.natAbs := by exact_mod_cast hle
    have hlt' : t.natAbs < em.mantissa + 1 := by exact_mod_cast hlt
    omega
  have hsigned : ((sign.apply em.mantissa : Int) : ℚ) = (sign.apply m : Int) * 2 ^ q := by
    cases sign <;> simp [Sign.apply, hmagnitude, hmantissa]
  rw [hround]
  exact_mod_cast hsigned.trans h

theorem toInt64_of_denotes {t : Int} (h : Denotes u (WithBotTop.coe t))
    (hfits : fitsInt64 t = true) : u.toInt64.toInt = t := by
  have hinteger : u.toInt Int64.minValue.toInt Int64.maxValue.toInt = t := by
    rcases h.cases_coe with ⟨sign, rfl, ht⟩ | ⟨sign, m, q, hpos, hcanonical, rfl, ht⟩
    · exact_mod_cast ht.symm
    · exact roundToInt_eq ht.symm
  have hrange : -2 ^ 63 ≤ t ∧ t < 2 ^ 63 := decide_eq_true_iff.1 hfits
  rw [UnpackedFloat.toInt64, hinteger, Int64.toInt_ofIntClamp]
  · exact hrange.1
  · exact Int.le_sub_one_of_lt hrange.2

end Double

open Double

section Floats

variable {x y : Float} {n : Int64} {negative : Bool} {m : Nat} {q : Int} {v w : ℚ}
  {r s : WithBotTop ℚ}

theorem lt_of_number? (hx : (Binary.ofFloat x).number? = some r)
    (hy : (Binary.ofFloat y).number? = some s) : x < y ↔ r < s := by
  rw [float_lt_iff, compare_of_denotes (denotes_of_number? hx) (denotes_of_number? hy),
    Option.some_inj, compare_lt_iff_lt]

theorem le_of_number? (hx : (Binary.ofFloat x).number? = some r)
    (hy : (Binary.ofFloat y).number? = some s) : x ≤ y ↔ r ≤ s := by
  rw [float_le_iff, compare_of_denotes (denotes_of_number? hx) (denotes_of_number? hy),
    Option.any_some, Ordering.isLE_iff_ne_gt, ← not_lt, ← compare_gt_iff_gt]

theorem number?_sub (hx : (Binary.ofFloat x).number? = some (WithBotTop.coe v))
    (hy : (Binary.ofFloat y).number? = some (WithBotTop.coe w)) (h : Representable (v - w)) :
    (Binary.ofFloat (x - y)).number? = some (WithBotTop.coe (v - w)) :=
  number?_of_denotes (denotes_sub (denotes_of_number? hx) (denotes_of_number? hy) h)

theorem number?_toFloat (h : Representable (Binary.signed negative m * 2 ^ q)) :
    (Binary.ofFloat (Binary.finite negative m q).toFloat).number? =
      some (WithBotTop.coe (Binary.signed negative m * 2 ^ q : ℚ)) := by
  apply number?_of_denotes
  cases m with
  | zero =>
      have hzero : (Binary.finite negative 0 q).toFloat =
          .ofModel (.pack (.zero (signOf negative))) := by
        cases negative <;> rfl
      rw [hzero, unpack_pack_zero, signed_eq, Nat.cast_zero, mul_zero, Int.cast_zero, zero_mul]
      exact .zero _
  | succ m =>
      cases negative with
      | false => exact denotes_round .positive (Nat.succ_pos m) h
      | true =>
          refine denotes_round .negative (Nat.succ_pos m) ?_
          rwa [Binary.signed, if_pos rfl, Int.cast_neg, neg_mul, representable_neg] at h

/-- The significand and the exponent of a finite double. -/
theorem bounds_of_ofFloat (h : Binary.ofFloat x = .finite negative m q) :
    m < 2 ^ 53 ∧ -1074 ≤ q ∧ q ≤ 971 := by
  rw [Binary.ofFloat] at h
  cases hunpack : x.toModel.unpack with
  | notANumber =>
      rw [hunpack] at h
      cases h
  | infinity sign =>
      rw [hunpack] at h
      cases h
  | zero sign =>
      rw [hunpack] at h
      cases h
      decide
  | finite sign m q hpos =>
      have hcanonical := canonical_of_unpack hunpack
      rw [hunpack] at h
      cases h
      exact ⟨hcanonical.lt, hcanonical.lowest, hcanonical.highest⟩

theorem signed_split (negative : Bool) (m k : Nat) :
    (Binary.signed negative m * 2 ^ (-k : Int) : ℚ) = Binary.signed negative (m / 2 ^ k) +
      Binary.signed negative (m % 2 ^ k) * 2 ^ (-k : Int) := by
  have hsplit : Binary.signed negative m =
      Binary.signed negative (m / 2 ^ k) * 2 ^ k + Binary.signed negative (m % 2 ^ k) := by
    rw [signed_eq, signed_eq, signed_eq]
    conv => lhs; rw [← Nat.div_add_mod m (2 ^ k)]
    push_cast
    ring
  rw [hsplit, Int.cast_add, Int.cast_mul, zpow_neg, zpow_natCast]
  push_cast
  field_simp

theorem abs_signed_shifted (negative : Bool) (m k : Nat) :
    |(Binary.signed negative m * 2 ^ (-k : Int) : ℚ)| = m / 2 ^ k := by
  rw [abs_mul, abs_signed, abs_of_pos (two_zpow_pos _), zpow_neg, zpow_natCast, ← div_eq_mul_inv]

theorem abs_signed_mod_lt (negative : Bool) (m k : Nat) :
    |(Binary.signed negative (m % 2 ^ k) * 2 ^ (-k : Int) : ℚ)| < 1 := by
  have hremainder : (m % 2 ^ k : Nat) < (2 : ℚ) ^ k := by
    exact_mod_cast Nat.mod_lt m (by positivity)
  rw [abs_signed_shifted, div_lt_one (by positivity)]
  exact hremainder

theorem abs_signed_div_le (negative : Bool) (m k : Nat) :
    |(Binary.signed negative (m / 2 ^ k) : ℚ)| ≤
      |(Binary.signed negative m * 2 ^ (-k : Int) : ℚ)| := by
  rw [abs_signed, abs_signed_shifted]
  exact_mod_cast Nat.cast_div_le

/-- The integer part is nearer than one and not beyond the number, and what is left is a double. -/
theorem exists_truncate (h : (Binary.ofFloat x).number? = some (WithBotTop.coe v)) :
    ∃ t : Int, (Binary.ofFloat (floatTruncate x)).number? = some (WithBotTop.coe (t : ℚ)) ∧
      |v - t| < 1 ∧ |(t : ℚ)| ≤ |v| ∧ Representable (v - t) := by
  cases hbinary : Binary.ofFloat x with
  | undefined =>
      rw [hbinary] at h
      cases h
  | infinite negative =>
      rw [hbinary] at h
      cases negative with
      | false => exact absurd (Option.some.inj h).symm (WithBotTop.coe_ne_top v)
      | true => exact absurd (Option.some.inj h).symm (WithBotTop.coe_ne_bot v)
  | finite negative m q =>
      obtain ⟨hlt, hlow, hhigh⟩ := bounds_of_ofFloat hbinary
      have hv : v = Binary.signed negative m * 2 ^ q := by
        rw [hbinary] at h
        exact (WithBotTop.coe_strictMono.injective (Option.some.inj h)).symm
      rcases le_or_gt 0 q with hq | hq
      · obtain ⟨k, rfl⟩ := Int.eq_ofNat_of_zero_le hq
        have hwhole : floatTruncate x = x := by simp [floatTruncate, hbinary]
        refine ⟨Binary.signed negative m * 2 ^ k, ?_, ?_⟩
        · rw [hwhole, h, hv]
          simp
        · simp [hv, Representable]
      · obtain ⟨k, rfl⟩ : ∃ k : Nat, q = -k := ⟨q.natAbs, by omega⟩
        have hpart : floatTruncate x = (Binary.finite negative (m / 2 ^ k) 0).toFloat := by
          simp only [floatTruncate, hbinary, if_neg (not_le.2 hq), neg_neg, Int.toNat_natCast]
        have hquotient : m / 2 ^ k < 2 ^ 53 := (Nat.div_le_self m _).trans_lt hlt
        have hdouble := representable_signed (q := 0) negative hquotient (by decide) (by decide)
        have hrest : v - Binary.signed negative (m / 2 ^ k) =
            Binary.signed negative (m % 2 ^ k) * 2 ^ (-k : Int) := by
          rw [hv, signed_split, add_sub_cancel_left]
        refine ⟨Binary.signed negative (m / 2 ^ k), ?_, ?_, ?_, ?_⟩
        · rw [hpart, number?_toFloat hdouble, zpow_zero, mul_one]
        · rw [hrest]
          exact abs_signed_mod_lt negative m k
        · rw [hv]
          exact abs_signed_div_le negative m k
        · rw [hrest]
          exact representable_signed negative ((Nat.mod_le m _).trans_lt hlt) hlow hhigh

/-! ## The comparison -/

theorem number?_upper :
    (Binary.ofFloat 9223372036854775808).number? = some (WithBotTop.coe (2 ^ 63)) := by
  have hbinary : Binary.ofFloat 9223372036854775808 = .finite false (2 ^ 52) 11 := rfl
  norm_num [hbinary, Binary.number?, Binary.signed]

theorem number?_lower :
    (Binary.ofFloat (-9223372036854775808)).number? = some (WithBotTop.coe (-2 ^ 63)) := by
  have hbinary : Binary.ofFloat (-9223372036854775808) = .finite true (2 ^ 52) 11 := rfl
  norm_num [hbinary, Binary.number?, Binary.signed]

theorem number?_zero : (Binary.ofFloat 0).number? = some (WithBotTop.coe 0) := by
  have hbinary : Binary.ofFloat 0 = .finite false 0 0 := rfl
  norm_num [hbinary, Binary.number?, Binary.signed]

theorem compare_zero_sub (v w : ℚ) : compare 0 (v - w) = compare w v := by
  rcases lt_trichotomy w v with h | rfl | h
  · rw [compare_lt_iff_lt.2 h, compare_lt_iff_lt.2 (sub_pos.2 h)]
  · rw [sub_self, compare_eq_iff_eq.2 rfl, compare_eq_iff_eq.2 rfl]
  · rw [compare_gt_iff_gt.2 h, compare_gt_iff_gt.2 (sub_neg.2 h)]

/-- Among the integers of 64 bits, the integer parts decide, and where they are equal the sign of
what is left. -/
theorem compare_parts (h : (Binary.ofFloat x).number? = some (WithBotTop.coe v))
    (hlow : -2 ^ 63 ≤ v) (hhigh : v < 2 ^ 63) :
    (match compare n.toInt (floatTruncate x).toModel.toInt64.toInt with
      | .eq => compareFloats 0 (floatFraction x)
      | order => some order) = some (compare (n.toInt : ℚ) v) := by
  obtain ⟨t, ht, hnear, hinside, hrest⟩ := exists_truncate h
  obtain ⟨habove, hbelow⟩ := abs_lt.1 hnear
  have hfits : fitsInt64 t = true := by
    obtain ⟨hleast, hgreatest⟩ : (-2 ^ 63 : ℚ) ≤ t ∧ (t : ℚ) < 2 ^ 63 := by
      have hmagnitude := abs_le.1 hinside
      rcases le_or_gt 0 v with hv | hv
      · rw [abs_of_nonneg hv] at hmagnitude
        constructor <;> linarith
      · rw [abs_of_neg hv] at hmagnitude
        constructor <;> linarith
    exact decide_eq_true ⟨by exact_mod_cast hleast, by exact_mod_cast hgreatest⟩
  have hpart : (floatTruncate x).toModel.toInt64.toInt = t :=
    toInt64_of_denotes (denotes_of_number? ht) hfits
  have hfraction : compareFloats 0 (floatFraction x) = some (compare (t : ℚ) v) := by
    rw [floatFraction, compareFloats_of_number? number?_zero (number?_sub h ht hrest), compare_coe,
      compare_zero_sub]
  rw [hpart]
  rcases lt_trichotomy n.toInt t with hlt | rfl | hgt
  · have hle : (n.toInt : ℚ) + 1 ≤ t := by exact_mod_cast hlt
    rw [compare_lt_iff_lt.2 hlt, compare_lt_iff_lt.2 (by linarith : (n.toInt : ℚ) < v)]
  · rw [compare_eq_iff_eq.2 rfl, hfraction]
  · have hle : (t : ℚ) + 1 ≤ n.toInt := by exact_mod_cast hgt
    rw [compare_gt_iff_gt.2 hgt, compare_gt_iff_gt.2 (by linarith : v < (n.toInt : ℚ))]

/-- An integer and a double are compared as the numbers they denote. -/
theorem compareIntFloat_of_number? (h : (Binary.ofFloat x).number? = some r) :
    compareIntFloat n x = some (compare (WithBotTop.coe (n.toInt : ℚ)) r) := by
  have hnumber : x.isNaN = false := by
    rw [Bool.eq_false_iff, ne_eq, ← number?_ofFloat_eq_none_iff, h]
    exact Option.some_ne_none r
  have hlow : (-2 ^ 63 : ℚ) ≤ n.toInt := by exact_mod_cast n.le_toInt
  have hhigh : (n.toInt : ℚ) < 2 ^ 63 := by exact_mod_cast n.toInt_lt
  rw [compareIntFloat, hnumber, if_neg Bool.false_ne_true]
  split_ifs with hupper hlower
  · rw [le_of_number? number?_upper h] at hupper
    rw [compare_lt_iff_lt.2 ((WithBotTop.coe_strictMono hhigh).trans_le hupper)]
  · rw [lt_of_number? h number?_lower] at hlower
    rw [compare_gt_iff_gt.2 (hlower.trans_le (WithBotTop.coe_strictMono.monotone hlow))]
  · rw [le_of_number? number?_upper h, not_le] at hupper
    rw [lt_of_number? h number?_lower, not_lt] at hlower
    induction r using WithBotTop.rec with
    | bot => exact absurd hlower (bot_lt_coe _).not_ge
    | coe v =>
        rw [compare_coe]
        exact compare_parts h (WithBotTop.coe_le_coe.1 hlower) (WithBotTop.coe_lt_coe.1 hupper)
    | top => exact absurd hupper (coe_lt_top _).not_gt

/-- The comparison by the bounds and the parts is the exact one. -/
theorem compareIntFloat_eq (n : Int64) (x : Float) :
    compareIntFloat n x = (Binary.ofFloat x).compareInt n.toInt := by
  cases h : (Binary.ofFloat x).number? with
  | none =>
      have hundefined : x.isNaN = true := number?_ofFloat_eq_none_iff.1 h
      rw [compareIntFloat, if_pos hundefined, compareInt_ofFloat_eq_none_iff.2 hundefined]
  | some r => rw [compareIntFloat_of_number? h, compareInt_of_number? h]

end Floats

end PipeQuery
