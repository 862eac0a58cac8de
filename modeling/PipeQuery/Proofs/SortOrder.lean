/-
The order in which values are sorted.

Sorting compares values by keys of four parts: the rank, the boolean, the number and the text, of
which a value has at most one besides its rank.  A number is the rational number it denotes, or an
infinity, and what is no number comes after these; so the order is that of the keys.
-/
import PipeQuery.Proofs.Thresholds

namespace PipeQuery

/-! ## Comparing values -/

namespace Value

variable {a b c : Value} {r s : WithBotTop ℚ}

theorem isNaN_eq (h : a.isNumber = true) : a.isNaN = a.number?.isNone := by
  cases a with
  | int n => rfl
  | float x =>
      rw [Bool.eq_iff_iff, Option.isNone_iff_eq_none]
      exact number?_ofFloat_eq_none_iff.symm
  | _ => cases h

/-- Numbers of either kind are compared as the numbers they denote. -/
theorem compareSameType_of_number? (ha : a.number? = some r) (hb : b.number? = some s) :
    a.compareSameType b = some (compare r s) := by
  cases a with
  | int m =>
      cases b with
      | int n =>
          obtain rfl := Option.some.inj ha
          obtain rfl := Option.some.inj hb
          rw [compareSameType, compare_coe, compare_intCast]
      | float y =>
          obtain rfl := Option.some.inj ha
          exact compareIntFloat_of_number? hb
      | _ => cases hb
  | float x =>
      cases b with
      | int n =>
          obtain rfl := Option.some.inj hb
          rw [compareSameType, compareIntFloat_of_number? ha, Option.map_some,
            ← Std.OrientedOrd.eq_swap]
      | float y => exact compareFloats_of_number? ha hb
      | _ => cases hb
  | _ => cases ha

/-- The boolean that a value is sorted by. -/
def booleanPart : Value → Bool
  | bool b => b
  | _ => false

/-- The number that a value is sorted by; what is no number comes last. -/
def numberPart (a : Value) : WithTop (WithBotTop ℚ) :=
  match a.number? with
  | some r => r
  | none => ⊤

theorem numberPart_of_number? (h : a.number? = some r) : a.numberPart = r := by
  rw [numberPart, h]

theorem numberPart_of_none (h : a.number? = none) : a.numberPart = ⊤ := by
  rw [numberPart, h]

theorem compare_numberPart (ha : a.number? = some r) (hb : b.number? = some s) :
    compare a.numberPart b.numberPart = compare r s := by
  rw [numberPart_of_number? ha, numberPart_of_number? hb, ← cmp_eq_compare, ← cmp_eq_compare]
  exact WithTop.coe_strictMono.cmp_map_eq r s

/-- The text that a value is sorted by. -/
def textPart : Value → String
  | str s => s
  | _ => ""

theorem sortRank_of_isNumber (h : a.isNumber = true) : a.sortRank = 1 := by
  cases a with
  | int n => rfl
  | float x => rfl
  | _ => cases h

/-- Numbers are sorted as the numbers they denote, and what is no number after them. -/
theorem sortCompare_of_isNumber (ha : a.isNumber = true) (hb : b.isNumber = true) :
    sortCompare a b = compare a.numberPart b.numberPart := by
  have hrank : a.sortRank = b.sortRank := by
    rw [sortRank_of_isNumber ha, sortRank_of_isNumber hb]
  rw [sortCompare, if_neg (not_not.2 hrank), isNaN_eq ha, isNaN_eq hb]
  cases hr : a.number? with
  | none =>
      rw [numberPart_of_none hr]
      cases hs : b.number? with
      | none =>
          rw [numberPart_of_none hs]
          exact (compare_eq_iff_eq.2 rfl).symm
      | some s =>
          rw [numberPart_of_number? hs]
          exact (compare_gt_iff_gt.2 (WithTop.coe_lt_top s)).symm
  | some r =>
      cases hs : b.number? with
      | none =>
          rw [numberPart_of_number? hr, numberPart_of_none hs]
          exact (compare_lt_iff_lt.2 (WithTop.coe_lt_top r)).symm
      | some s =>
          rw [compare_numberPart hr hs, compareSameType_of_number? hr hs]
          rfl

/-- Values of one rank differ in one part at most. -/
theorem sortCompare_of_sortRank_eq (h : a.sortRank = b.sortRank) :
    sortCompare a b = (compare a.booleanPart b.booleanPart).then
      ((compare a.numberPart b.numberPart).then (compare a.textPart b.textPart)) := by
  have hnumbers (ha : a.isNumber = true) (hb : b.isNumber = true)
      (hboolean : a.booleanPart = b.booleanPart) (htext : a.textPart = b.textPart) :
      sortCompare a b = (compare a.booleanPart b.booleanPart).then
        ((compare a.numberPart b.numberPart).then (compare a.textPart b.textPart)) := by
    rw [sortCompare_of_isNumber ha hb, hboolean, htext, Std.ReflOrd.compare_self,
      Std.ReflOrd.compare_self, Ordering.then_eq, Ordering.eq_then]
  cases a with
  | bool p =>
      cases b with
      | bool q =>
          simp [sortCompare, sortRank, isNaN, compareSameType, booleanPart, numberPart, number?,
            textPart]
      | _ => simp [sortRank] at h
  | int m =>
      cases b with
      | int n => exact hnumbers rfl rfl rfl rfl
      | float y => exact hnumbers rfl rfl rfl rfl
      | _ => simp [sortRank] at h
  | float x =>
      cases b with
      | int n => exact hnumbers rfl rfl rfl rfl
      | float y => exact hnumbers rfl rfl rfl rfl
      | _ => simp [sortRank] at h
  | str s =>
      cases b with
      | str t =>
          simp [sortCompare, sortRank, isNaN, compareSameType, booleanPart, numberPart, number?,
            textPart]
      | _ => simp [sortRank] at h
  | _ =>
      cases b <;>
        simp [sortCompare, isNaN, compareSameType, booleanPart, numberPart, number?, textPart,
          sortRank] at h ⊢

/-- The order of values is that of their ranks and parts, one after the other. -/
theorem sortCompare_eq :
    sortCompare = compareLex (compareOn sortRank)
      (compareLex (compareOn booleanPart)
        (compareLex (compareOn numberPart) (compareOn textPart))) := by
  funext a b
  by_cases hrank : a.sortRank = b.sortRank
  · rw [sortCompare_of_sortRank_eq hrank]
    simp only [compareLex, compareOn, hrank, Std.ReflOrd.compare_self, Ordering.eq_then]
  · rw [sortCompare, if_pos hrank]
    have hne : compare a.sortRank b.sortRank ≠ .eq := fun h => hrank (Nat.compare_eq_eq.1 h)
    cases hcompare : compare a.sortRank b.sortRank with
    | eq => exact absurd hcompare hne
    | lt => simp [compareLex, compareOn, hcompare]
    | gt => simp [compareLex, compareOn, hcompare]

instance : Std.TransCmp sortCompare := by
  rw [sortCompare_eq]
  infer_instance

/-- Sorting compares by a total preorder, in which numbers stand as the numbers they denote. -/
theorem sortCompare_preorder (a b c : Value) :
    sortCompare a a = .eq ∧ sortCompare b a = (sortCompare a b).swap ∧
      ((sortCompare a b).isLE = true → (sortCompare b c).isLE = true →
        (sortCompare a c).isLE = true) ∧
      (a.isNumber = true → a.isNaN = false → b.isNumber = true → b.isNaN = false →
        ∃ r s, a.number? = some r ∧ b.number? = some s ∧ sortCompare a b = compare r s) := by
  refine ⟨Std.ReflCmp.compare_self, Std.OrientedCmp.eq_swap, Std.TransCmp.isLE_trans, ?_⟩
  intro ha hnumber hb hnumber'
  rw [isNaN_eq ha, Option.isNone_eq_false_iff] at hnumber
  rw [isNaN_eq hb, Option.isNone_eq_false_iff] at hnumber'
  obtain ⟨r, hr⟩ := Option.isSome_iff_exists.1 hnumber
  obtain ⟨s, hs⟩ := Option.isSome_iff_exists.1 hnumber'
  refine ⟨r, s, hr, hs, ?_⟩
  rw [sortCompare_of_isNumber ha hb, compare_numberPart hr hs]

/-- The double 2 ^ 53 is below the integer after it, and both are below what is no number. -/
theorem sortCompare_preorder_near :
    let double : Value := .float 9007199254740992
    let next : Value := .int 9007199254740993
    let undefined : Value := .float (0 / 0)
    (double.isNumber = true ∧ double.isNaN = false ∧ next.isNumber = true ∧ next.isNaN = false) ∧
      ((sortCompare double next).isLE = true ∧ (sortCompare next undefined).isLE = true) ∧
        (sortCompare double undefined).isLE = true ∧
          ∃ r s, double.number? = some r ∧ next.number? = some s ∧
            sortCompare double next = compare r s := by
  intro double next undefined
  have hnumber : double.isNaN = false := by decide +kernel
  have hbelow : (sortCompare double next).isLE = true := by decide +kernel
  have hlast : (sortCompare next undefined).isLE = true := by decide +kernel
  obtain ⟨_, _, htrans, hnumbers⟩ := sortCompare_preorder double next undefined
  exact ⟨⟨rfl, hnumber, rfl, rfl⟩, ⟨hbelow, hlast⟩, htrans hbelow hlast,
    hnumbers rfl hnumber rfl rfl⟩

end Value

end PipeQuery
