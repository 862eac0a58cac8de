/-
The number that a double or a value denotes, and that doubles are compared by these numbers.

A finite double denotes a rational number, and the infinities are below and above all of these.
-/
import Mathlib.Order.WithBotTop
import PipeQuery.Proofs.FloatOrder

namespace PipeQuery

open Float.Model (UnpackedFloat)

/-- The number that a double denotes; both zeros are zero. -/
def Binary.number? : Binary → Option (WithBotTop ℚ)
  | undefined => none
  | infinite negative => some (if negative then ⊥ else ⊤)
  | finite negative m q => some (WithBotTop.coe (signed negative m * 2 ^ q))

/-- The number that a value denotes. -/
def Value.number? : Value → Option (WithBotTop ℚ)
  | int n => some (WithBotTop.coe n.toInt)
  | float x => (Binary.ofFloat x).number?
  | _ => none

/-! ## Comparing numbers -/

section Numbers

variable {m n : Nat} {q p : Int} {r s : WithBotTop ℚ} {x y : Float}

theorem compare_coe (a b : ℚ) : compare (WithBotTop.coe a) (WithBotTop.coe b) = compare a b := by
  rw [← cmp_eq_compare, ← cmp_eq_compare]
  exact WithBotTop.coe_strictMono.cmp_map_eq a b

theorem compare_intCast (a b : Int) : compare (a : ℚ) b = compare a b := by
  rw [← cmp_eq_compare, ← cmp_eq_compare]
  exact Int.cast_strictMono.cmp_map_eq a b

theorem compare_natCast (a b : Nat) : compare (a : ℚ) b = compare a b := by
  rw [← cmp_eq_compare, ← cmp_eq_compare]
  exact Nat.strictMono_cast.cmp_map_eq a b

theorem compare_mul_pos {c : ℚ} (hc : 0 < c) (a b : ℚ) : compare (a * c) (b * c) = compare a b := by
  rw [← cmp_eq_compare, ← cmp_eq_compare]
  exact cmp_mul_pos_right hc a b

theorem compare_neg (a b : ℚ) : compare (-a) (-b) = (compare a b).swap := by
  have hanti : StrictAnti fun a : ℚ => -a := fun _ _ => neg_lt_neg
  rw [← cmp_eq_compare, ← cmp_eq_compare, cmp_swap]
  exact hanti.cmp_map_eq a b

/-- Two canonical significands with exponents are ordered as the numbers they denote. -/
theorem Double.Canonical.compare_eq (h : Double.Canonical m q) (h' : Double.Canonical n p) :
    (compare q p).then (compare m n) = compare (m * 2 ^ q : ℚ) (n * 2 ^ p) := by
  have hlt {m n : Nat} {q p : Int} (h : Double.Canonical m q) (h' : Double.Canonical n p)
      (hexponent : q < p) : (m * 2 ^ q : ℚ) < n * 2 ^ p := by
    have hnormal : 2 ^ 52 ≤ n := by
      rcases h'.normal with hnormal | hlowest
      · exact hnormal
      · have := h.lowest
        omega
    have hm : (m : ℚ) < 2 ^ 53 := by exact_mod_cast h.lt
    have hn : (2 ^ 52 : ℚ) ≤ n := by exact_mod_cast hnormal
    have hpower : (2 : ℚ) ^ (q + 1) ≤ 2 ^ p := zpow_le_zpow_right₀ (by norm_num) (by omega)
    calc (m * 2 ^ q : ℚ) < 2 ^ 53 * 2 ^ q := by gcongr
      _ = 2 ^ 52 * 2 ^ (q + 1) := by
        rw [zpow_add₀ (by norm_num)]
        ring
      _ ≤ n * 2 ^ p := by gcongr
  rcases lt_trichotomy q p with hexponent | rfl | hexponent
  · rw [compare_lt_iff_lt.2 hexponent, compare_lt_iff_lt.2 (hlt h h' hexponent)]
    rfl
  · rw [compare_mul_pos (Double.two_zpow_pos q), compare_natCast, compare_eq_iff_eq.2 rfl]
    rfl
  · rw [compare_gt_iff_gt.2 hexponent, compare_gt_iff_gt.2 (hlt h' h hexponent)]
    rfl

/-- What an unpacked double denotes. -/
inductive Double.Denotes : UnpackedFloat → WithBotTop ℚ → Prop
  | bottom : Denotes (.infinity .negative) ⊥
  | top : Denotes (.infinity .positive) ⊤
  | zero (sign : UnpackedFloat.Sign) : Denotes (.zero sign) (WithBotTop.coe 0)
  | negative {m : Nat} {q : Int} {hpos : 0 < m} (h : Double.Canonical m q) :
      Denotes (.finite .negative m q hpos) (WithBotTop.coe (-(m * 2 ^ q)))
  | positive {m : Nat} {q : Int} {hpos : 0 < m} (h : Double.Canonical m q) :
      Denotes (.finite .positive m q hpos) (WithBotTop.coe (m * 2 ^ q))

theorem denotes_of_number? (h : (Binary.ofFloat x).number? = some r) :
    Double.Denotes x.toModel.unpack r := by
  rw [Binary.ofFloat] at h
  cases hunpack : x.toModel.unpack with
  | notANumber =>
      rw [hunpack] at h
      cases h
  | infinity sign =>
      rw [hunpack] at h
      cases sign with
      | negative =>
          obtain rfl := Option.some.inj h
          exact .bottom
      | positive =>
          obtain rfl := Option.some.inj h
          exact .top
  | zero sign =>
      rw [hunpack] at h
      have hzero : WithBotTop.coe 0 = r := by
        simpa [Binary.number?, signed_eq] using h
      rw [← hzero]
      exact .zero sign
  | finite sign m q hpos =>
      have hcanonical := canonical_of_unpack hunpack
      rw [hunpack] at h
      cases sign with
      | negative =>
          have hvalue : WithBotTop.coe (-(m * 2 ^ q : ℚ)) = r := by
            rw [← Option.some.inj h, neg_mul_eq_neg_mul]
            rfl
          rw [← hvalue]
          exact .negative hcanonical
      | positive =>
          obtain rfl := Option.some.inj h
          exact .positive hcanonical

theorem number?_of_denotes (h : Double.Denotes x.toModel.unpack r) :
    (Binary.ofFloat x).number? = some r := by
  rw [Binary.ofFloat]
  generalize x.toModel.unpack = u at h
  cases h with
  | bottom => rfl
  | top => rfl
  | zero sign => cases sign <;> simp [Binary.number?, signed_eq]
  | negative h =>
      rw [neg_mul_eq_neg_mul]
      rfl
  | positive h => rfl

theorem Double.Canonical.value_pos (h : Double.Canonical m q) : (0 : ℚ) < m * 2 ^ q :=
  mul_pos (by exact_mod_cast h.pos) (Double.two_zpow_pos q)

theorem bot_lt_coe (a : ℚ) : ⊥ < WithBotTop.coe a :=
  bot_lt_iff_ne_bot.2 (WithBotTop.coe_ne_bot a)

theorem coe_lt_top (a : ℚ) : WithBotTop.coe a < ⊤ :=
  lt_top_iff_ne_top.2 (WithBotTop.coe_ne_top a)

/-- Doubles are compared as the numbers they denote. -/
theorem compare_of_denotes {u v : UnpackedFloat} (hu : Double.Denotes u r)
    (hv : Double.Denotes v s) : u.compare v = some (compare r s) := by
  have hlt {r s : WithBotTop ℚ} (h : r < s) : some Ordering.lt = some (compare r s) := by
    rw [compare_lt_iff_lt.2 h]
  have hgt {r s : WithBotTop ℚ} (h : s < r) : some Ordering.gt = some (compare r s) := by
    rw [compare_gt_iff_gt.2 h]
  have hself (r : WithBotTop ℚ) : some Ordering.eq = some (compare r r) := by
    rw [compare_eq_iff_eq.2 rfl]
  cases hu with
  | bottom =>
      cases hv with
      | bottom => exact hself ⊥
      | top => exact hlt bot_lt_top
      | _ => exact hlt (bot_lt_coe _)
  | top =>
      cases hv with
      | bottom => exact hgt bot_lt_top
      | top => exact hself ⊤
      | _ => exact hgt (coe_lt_top _)
  | zero =>
      cases hv with
      | bottom => exact hgt (bot_lt_coe _)
      | top => exact hlt (coe_lt_top _)
      | zero => exact hself _
      | negative h' => exact hgt (WithBotTop.coe_strictMono (neg_neg_of_pos h'.value_pos))
      | positive h' => exact hlt (WithBotTop.coe_strictMono h'.value_pos)
  | negative h =>
      have hneg := neg_neg_of_pos h.value_pos
      cases hv with
      | bottom => exact hgt (bot_lt_coe _)
      | top => exact hlt (coe_lt_top _)
      | zero => exact hlt (WithBotTop.coe_strictMono hneg)
      | negative h' =>
          rw [compare_coe, compare_neg, ← h.compare_eq h']
          rfl
      | positive h' => exact hlt (WithBotTop.coe_strictMono (hneg.trans h'.value_pos))
  | positive h =>
      cases hv with
      | bottom => exact hgt (bot_lt_coe _)
      | top => exact hlt (coe_lt_top _)
      | zero => exact hgt (WithBotTop.coe_strictMono h.value_pos)
      | negative h' =>
          have hneg := neg_neg_of_pos h'.value_pos
          exact hgt (WithBotTop.coe_strictMono (hneg.trans h.value_pos))
      | positive h' =>
          rw [compare_coe, ← h.compare_eq h']
          rfl

theorem compareFloats_of_number? (hx : (Binary.ofFloat x).number? = some r)
    (hy : (Binary.ofFloat y).number? = some s) : compareFloats x y = some (compare r s) := by
  rw [compareFloats_eq]
  exact compare_of_denotes (denotes_of_number? hx) (denotes_of_number? hy)

/-- An integer and a double are compared without rounding the integer. -/
theorem compareInt_of_number? {k : Int} {b : Binary} (h : b.number? = some r) :
    b.compareInt k = some (compare (WithBotTop.coe (k : ℚ)) r) := by
  cases b with
  | undefined => cases h
  | infinite negative =>
      cases negative with
      | true =>
          obtain rfl := Option.some.inj h
          exact congrArg some (compare_gt_iff_gt.2 (bot_lt_coe _)).symm
      | false =>
          obtain rfl := Option.some.inj h
          exact congrArg some (compare_lt_iff_lt.2 (coe_lt_top _)).symm
  | finite negative m q =>
      obtain rfl := Option.some.inj h
      rw [Binary.compareInt, compare_coe]
      split
      · rename_i hq
        obtain ⟨j, rfl⟩ := Int.eq_ofNat_of_zero_le hq
        rw [← compare_intCast, signed_eq, signed_eq]
        push_cast
        simp
      · rename_i hq
        obtain ⟨j, hj⟩ := Int.eq_ofNat_of_zero_le (show 0 ≤ -q by omega)
        obtain rfl : q = -j := by omega
        rw [← compare_intCast, ← compare_mul_pos (Double.two_zpow_pos (-j))]
        push_cast
        simp

theorem number?_eq_none_iff {b : Binary} : b.number? = none ↔ b = .undefined := by
  cases b <;> simp [Binary.number?]

theorem number?_ofFloat_eq_none_iff : (Binary.ofFloat x).number? = none ↔ x.isNaN = true := by
  rw [number?_eq_none_iff, ← Binary.compareInt_eq_none_iff (n := 0), compareInt_ofFloat_eq_none_iff]

end Numbers

end PipeQuery
