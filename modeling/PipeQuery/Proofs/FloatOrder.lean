/-
The order of doubles, and the integers that are doubles.

Doubles are compared by their sign, then by exponent and significand, which is a total order once
both zeros count as one and what is no number is left out.  An integer that a double denotes exactly
is rounded to this double.
-/
import PipeQuery.Proofs.FloatText
import PipeQuery.Value.Order

namespace PipeQuery

open Float.Model (UnpackedFloat)

/-! ## Unpacked doubles -/

namespace Double

section Finite

variable {sign : UnpackedFloat.Sign} {m n : Nat} {e f : Int} {hm : 0 < m} {hn : 0 < n}

theorem compare_positive :
    (UnpackedFloat.finite .positive m e hm).compare (.finite .positive n f hn) =
      some ((compare e f).then (compare m n)) :=
  rfl

theorem compare_negative :
    (UnpackedFloat.finite .negative m e hm).compare (.finite .negative n f hn) =
      some ((compare e f).then (compare m n)).swap :=
  rfl

theorem swap_compare_then (m n : Nat) (e f : Int) :
    ((compare e f).then (compare m n)).swap = (compare f e).then (compare n m) := by
  rw [Ordering.swap_then, Int.compare_swap, Nat.compare_swap]

theorem compare_then_eq_iff :
    (compare e f).then (compare m n) = .eq ↔
      UnpackedFloat.finite sign m e hm = .finite sign n f hn := by
  rw [Ordering.then_eq_eq, Int.compare_eq_eq, Nat.compare_eq_eq]
  constructor
  · rintro ⟨he, hm⟩
    exact finite_congr hm he
  · intro h
    cases h
    exact ⟨rfl, rfl⟩

end Finite

theorem swap_compare (u v : UnpackedFloat) : (u.compare v).map Ordering.swap = v.compare u := by
  rcases u with (_ | _) | _ | (_ | _) | ⟨_ | _, m, e, hm⟩ <;>
    rcases v with (_ | _) | _ | (_ | _) | ⟨_ | _, n, f, hn⟩
  case finite.negative.finite.negative =>
    rw [compare_negative, compare_negative, Option.map_some, swap_compare_then]
  case finite.positive.finite.positive =>
    rw [compare_positive, compare_positive, Option.map_some, swap_compare_then]
  all_goals rfl

/-- What a comparison sees: one zero for both. -/
def oneZero : UnpackedFloat → UnpackedFloat
  | .zero _ => .zero .positive
  | u => u

theorem isNaN_iff (u : UnpackedFloat) : u.isNaN = true ↔ u = .notANumber := by
  cases u with
  | notANumber => exact ⟨fun _ => rfl, fun _ => rfl⟩
  | _ => exact ⟨nofun, nofun⟩

theorem compare_eq_some_eq_iff (u v : UnpackedFloat) :
    u.compare v = some .eq ↔ u.isNaN = false ∧ oneZero u = oneZero v := by
  rcases u with (_ | _) | _ | (_ | _) | ⟨_ | _, m, e, hm⟩ <;>
    rcases v with (_ | _) | _ | (_ | _) | ⟨_ | _, n, f, hn⟩
  case finite.negative.finite.negative =>
    rw [compare_negative, Option.some_inj, Ordering.swap_eq_eq]
    exact compare_then_eq_iff.trans (and_iff_right rfl).symm
  case finite.positive.finite.positive =>
    rw [compare_positive, Option.some_inj]
    exact compare_then_eq_iff.trans (and_iff_right rfl).symm
  case infinity.negative.infinity.negative | infinity.positive.infinity.positive |
      zero.negative.zero.negative | zero.negative.zero.positive | zero.positive.zero.negative |
      zero.positive.zero.positive =>
    exact ⟨fun _ => ⟨rfl, rfl⟩, fun _ => rfl⟩
  all_goals exact ⟨nofun, fun h => nomatch h⟩

theorem compare_eq_none_iff (u v : UnpackedFloat) :
    u.compare v = none ↔ u.isNaN = true ∨ v.isNaN = true := by
  constructor
  · intro h
    rcases u with (_ | _) | _ | (_ | _) | ⟨_ | _, m, e, hm⟩ <;>
      rcases v with (_ | _) | _ | (_ | _) | ⟨_ | _, n, f, hn⟩ <;>
      first
      | exact .inl rfl
      | exact .inr rfl
      | cases h
  · rintro (h | h)
    · rw [(isNaN_iff u).1 h]
      rfl
    · rw [(isNaN_iff v).1 h]
      cases u <;> rfl

end Double

/-! ## Comparing doubles -/

section Floats

variable {x y z : Float}

theorem float_lt_iff : x < y ↔ x.toModel.unpack.compare y.toModel.unpack = some .lt := by
  show decide ((x.toModel.unpack.compare y.toModel.unpack == some .lt) = true) = true ↔ _
  simp

theorem float_le_iff :
    x ≤ y ↔ (x.toModel.unpack.compare y.toModel.unpack).any Ordering.isLE = true := by
  show decide ((x.toModel.unpack.compare y.toModel.unpack).any Ordering.isLE = true) = true ↔ _
  rw [decide_eq_true_iff]

theorem float_beq_iff :
    (x == y) = true ↔ x.toModel.unpack.compare y.toModel.unpack = some .eq := by
  show (x.toModel.unpack.compare y.toModel.unpack == some .eq) = true ↔ _
  simp

theorem compareFloats_eq (x y : Float) :
    compareFloats x y = x.toModel.unpack.compare y.toModel.unpack := by
  simp only [compareFloats, float_lt_iff, float_beq_iff,
    ← Double.swap_compare x.toModel.unpack y.toModel.unpack]
  rcases x.toModel.unpack.compare y.toModel.unpack with _ | _ | _ | _ <;> simp

theorem swap_compareFloats (x y : Float) :
    (compareFloats x y).map Ordering.swap = compareFloats y x := by
  rw [compareFloats_eq, compareFloats_eq, Double.swap_compare]

theorem compareFloats_eq_some_eq_iff : compareFloats x y = some .eq ↔ (x == y) = true := by
  rw [compareFloats_eq, float_beq_iff]

theorem compareFloats_eq_none_iff :
    compareFloats x y = none ↔ x.isNaN = true ∨ y.isNaN = true := by
  rw [compareFloats_eq]
  exact Double.compare_eq_none_iff _ _

theorem float_beq_self (h : x.isNaN = false) : (x == x) = true :=
  float_beq_iff.2 ((Double.compare_eq_some_eq_iff _ _).2 ⟨h, rfl⟩)

theorem float_beq_comm (x y : Float) : (x == y) = (y == x) := by
  rw [Bool.eq_iff_iff, ← compareFloats_eq_some_eq_iff, ← compareFloats_eq_some_eq_iff,
    ← swap_compareFloats y x]
  rcases compareFloats y x with _ | _ | _ | _ <;> simp

theorem float_beq_trans (hxy : (x == y) = true) (hyz : (y == z) = true) : (x == z) = true := by
  rw [float_beq_iff, Double.compare_eq_some_eq_iff] at hxy hyz ⊢
  exact ⟨hxy.1, hxy.2.trans hyz.2⟩

end Floats

/-! ## Integers that are doubles -/

section Integers

open Double (Canonical RoundsTo)

variable {negative : Bool} {m : Nat} {q n : Int} {x : Float}

/-- The exact order of an integer and the number denoted; nothing compares with no number. -/
def Binary.compareInt (n : Int) : Binary → Option Ordering
  | .undefined => none
  | .infinite negative => some (if negative then .gt else .lt)
  | .finite negative m q =>
    if 0 ≤ q then
      some (compare n (signed negative (m * 2 ^ q.toNat)))
    else
      some (compare (n * 2 ^ (-q).toNat) (signed negative m))

theorem Binary.compareInt_eq_none_iff {b : Binary} :
    b.compareInt n = none ↔ b = .undefined := by
  cases b with
  | undefined => simp [compareInt]
  | infinite negative => simp [compareInt]
  | finite negative m q => simp only [compareInt]; split <;> simp

theorem signed_eq (negative : Bool) (m : Nat) :
    Binary.signed negative m = (if negative then -1 else 1) * (m : Int) := by
  cases negative <;> simp [Binary.signed]

/-- A double that compares equal to an integer denotes this integer. -/
theorem eq_of_compareInt (h : (Binary.finite negative m q).compareInt n = some .eq) :
    (n : ℚ) = Binary.signed negative m * 2 ^ q := by
  rw [Binary.compareInt] at h
  split at h
  · rename_i hq
    have hn := Int.compare_eq_eq.1 (Option.some.inj h)
    obtain ⟨k, rfl⟩ := Int.eq_ofNat_of_zero_le hq
    rw [hn, signed_eq, signed_eq]
    push_cast
    simp
  · have hn := Int.compare_eq_eq.1 (Option.some.inj h)
    obtain ⟨k, hk⟩ := Int.eq_ofNat_of_zero_le (show 0 ≤ -q by omega)
    obtain rfl : q = -k := by omega
    rw [← hn]
    push_cast
    simp

/-- An integer is rounded by its magnitude and keeps its sign. -/
theorem ofInt_of_roundsTo (hcanonical : Canonical m q) (h : RoundsTo m q n.natAbs) :
    Float.ofInt n =
      .ofModel (.pack (.finite (signOf (decide (n < 0))) m q hcanonical.pos)) := by
  have hnatural {k : Nat} (hk : RoundsTo m q k) :
      Float.ofInt k = .ofModel (.pack (.finite .positive m q hcanonical.pos)) := by
    refine Double.ofScientific_eq hcanonical (n := k) (k := 0) ?_
    rwa [zpow_zero, mul_one]
  cases n with
  | ofNat k => exact hnatural h
  | negSucc k =>
      show -Float.ofInt (k + 1 : Nat) = _
      rw [@hnatural (k + 1) h, neg_pack hcanonical, decide_eq_true (Int.negSucc_lt_zero k)]
      rfl

/-- An integer that is a double is rounded to it. -/
theorem ofInt_eq (hcanonical : Canonical m q) (h : (n : ℚ) = Binary.signed negative m * 2 ^ q) :
    Float.ofInt n = .ofModel (.pack (.finite (signOf negative) m q hcanonical.pos)) := by
  have hpos : (0 : ℚ) < m * 2 ^ q :=
    mul_pos (by exact_mod_cast hcanonical.pos) (Double.two_zpow_pos q)
  obtain ⟨hsign, hmagnitude⟩ : decide (n < 0) = negative ∧ (n.natAbs : ℚ) = m * 2 ^ q := by
    rw [Nat.cast_natAbs, Int.cast_abs]
    cases negative with
    | false =>
        have hn : (n : ℚ) = m * 2 ^ q := by simpa [Binary.signed] using h
        have hnonneg : 0 ≤ n := by exact_mod_cast hn ▸ hpos.le
        exact ⟨decide_eq_false hnonneg.not_gt, by rw [hn, abs_of_pos hpos]⟩
    | true =>
        have hn : (n : ℚ) = -(m * 2 ^ q) := by simpa [Binary.signed] using h
        have hnegative : n < 0 := by exact_mod_cast hn ▸ neg_neg_of_pos hpos
        exact ⟨decide_eq_true hnegative, by rw [hn, abs_neg, abs_of_pos hpos]⟩
  have hrounds : RoundsTo m q n.natAbs := hmagnitude ▸ .self m q
  rw [ofInt_of_roundsTo hcanonical hrounds, hsign]

theorem canonical_of_unpack {sign : UnpackedFloat.Sign} {hpos : 0 < m}
    (h : x.toModel.unpack = .finite sign m q hpos) : Canonical m q := by
  have hfinite : x.toModel.unpack.isFinite = true := by
    rw [h]
    rfl
  have hunpacked := Double.unpacked_of_isFinite hfinite
  rw [← Float.Model.unpack, h] at hunpacked
  exact hunpacked.canonical

/-- An integer that a double denotes is rounded to this double, of whatever sign a zero is. -/
theorem ofInt_beq_of_compareInt (h : (Binary.ofFloat x).compareInt n = some .eq) :
    (Float.ofInt n == x) = true := by
  rw [Binary.ofFloat] at h
  cases hunpack : x.toModel.unpack with
  | notANumber =>
      rw [hunpack] at h
      cases h
  | infinity sign =>
      rw [hunpack] at h
      cases sign <;> cases h
  | zero sign =>
      rw [hunpack] at h
      have hzero : n = 0 := by
        have hn := eq_of_compareInt h
        simpa [signed_eq] using hn
      rw [float_beq_iff, hunpack, hzero]
      cases sign <;> rfl
  | finite sign m q hpos =>
      obtain ⟨negative, rfl⟩ := exists_signOf sign
      have hfinite : x.isFinite = true := congrArg UnpackedFloat.isFinite hunpack
      have hnumber : x.isNaN = false := congrArg UnpackedFloat.isNaN hunpack
      have hx := eq_pack_unpack hfinite
      have hn : (n : ℚ) = Binary.signed negative m * 2 ^ q := by
        apply eq_of_compareInt
        rw [← h, hunpack]
        cases negative <;> rfl
      rw [hunpack] at hx
      rw [ofInt_eq (canonical_of_unpack hunpack) hn, ← hx]
      exact float_beq_self hnumber

theorem compareInt_ofFloat_eq_none_iff :
    (Binary.ofFloat x).compareInt n = none ↔ x.isNaN = true := by
  rw [Binary.compareInt_eq_none_iff, Binary.ofFloat]
  show _ ↔ x.toModel.unpack.isNaN = true
  rw [Double.isNaN_iff]
  cases x.toModel.unpack with
  | notANumber => exact ⟨fun _ => rfl, fun _ => rfl⟩
  | _ =>
      constructor
      · intro h
        cases h
      · intro h
        cases h

end Integers

end PipeQuery
