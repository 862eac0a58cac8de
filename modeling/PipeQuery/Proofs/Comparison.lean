/-
Equality and order of values.

Equality takes an integer and a float for the same number where the float is the nearest double to
the integer, and the order compares the two exactly.  They agree but on an integer that is no
double: it equals the nearest double, which is less or greater, and the other integers with this
nearest double equal the double and not each other.
-/
import Mathlib.Data.List.Perm.Subperm
import PipeQuery.Proofs.Replacement
import PipeQuery.Proofs.Thresholds

namespace PipeQuery

namespace Value

/-- No float inside is NaN, and no object has a key twice. -/
inductive Defined : Value → Prop
  | null : Defined .null
  | bool (b : Bool) : Defined (.bool b)
  | int (n : Int64) : Defined (.int n)
  | float {x : Float} (h : x.isNaN = false) : Defined (.float x)
  | str (s : String) : Defined (.str s)
  | arr {items : List Value} (h : ∀ item ∈ items, Defined item) : Defined (.arr items)
  | obj {members : List (String × Value)} (hdistinct : Entries.Distinct members)
      (h : ∀ member ∈ members, Defined member.2) : Defined (.obj members)

/-- In one place the values hold different integers with the same nearest double. -/
inductive Blurred : Value → Value → Prop
  | int {m n : Int64} (hne : m ≠ n) (h : (integerFloat m == integerFloat n) = true) :
      Blurred (.int m) (.int n)
  | arr {as bs : List Value} {a b : Value} (hmem : (a, b) ∈ as.zip bs) (h : Blurred a b) :
      Blurred (.arr as) (.arr bs)
  | obj {as bs : List (String × Value)} {key : String} {a b : Value}
      (ha : as.lookup key = some a) (hb : bs.lookup key = some b) (h : Blurred a b) :
      Blurred (.obj as) (.obj bs)

/-- Both are booleans, both are numbers or both are strings. -/
inductive Comparable : Value → Value → Prop
  | bools (a b : Bool) : Comparable (.bool a) (.bool b)
  | numbers {a b : Value} (ha : a.isNumber = true) (hb : b.isNumber = true) : Comparable a b
  | strings (a b : String) : Comparable (.str a) (.str b)

/-- One is an integer that is no double, and the other is the double nearest to it. -/
inductive Rounded : Value → Value → Prop
  | integer {n : Int64} {x : Float} (hnearest : (integerFloat n == x) = true)
      (hinexact : (Binary.ofFloat x).compareInt n.toInt ≠ some .eq) : Rounded (.int n) (.float x)
  | float {n : Int64} {x : Float} (hnearest : (integerFloat n == x) = true)
      (hinexact : (Binary.ofFloat x).compareInt n.toInt ≠ some .eq) : Rounded (.float x) (.int n)

variable {a b c : Value}

/-! ## Equality within a type -/

theorem beq_bool_iff {p q : Bool} : (bool p == bool q) = true ↔ p = q := by
  show (p == q) = true ↔ _
  rw [beq_iff_eq]

theorem beq_int_iff {m n : Int64} : (int m == int n) = true ↔ m = n := by
  show (m == n) = true ↔ _
  rw [beq_iff_eq]

theorem beq_str_iff {s t : String} : (str s == str t) = true ↔ s = t := by
  show (s == t) = true ↔ _
  rw [beq_iff_eq]

theorem equalItems_iff {as bs : List Value} :
    equalItems as bs = true ↔ List.Forall₂ (fun a b => (a == b) = true) as bs := by
  induction as generalizing bs with
  | nil => cases bs <;> simp [equalItems]
  | cons a as ih =>
      cases bs with
      | nil => simp [equalItems]
      | cons b bs =>
          rw [equalItems, Bool.and_eq_true, ih, List.forall₂_cons]
          rfl

theorem equalMembers_iff {as bs : List (String × Value)} :
    equalMembers as bs = true ↔
      ∀ member ∈ as, ∃ b, bs.lookup member.1 = some b ∧ (member.2 == b) = true := by
  induction as with
  | nil => simp [equalMembers]
  | cons member as ih =>
      obtain ⟨key, a⟩ := member
      rw [equalMembers, Bool.and_eq_true, ih, List.forall_mem_cons]
      refine and_congr_left fun _ => ?_
      cases bs.lookup key with
      | none => simp
      | some b =>
          simp only [Option.some.injEq, exists_eq_left']
          rfl

theorem beq_arr_iff {as bs : List Value} :
    (arr as == arr bs) = true ↔ List.Forall₂ (fun a b => (a == b) = true) as bs :=
  equalItems_iff

theorem beq_obj_iff {as bs : List (String × Value)} :
    (obj as == obj bs) = true ↔ as.length = bs.length ∧
      ∀ member ∈ as, ∃ b, bs.lookup member.1 = some b ∧ (member.2 == b) = true := by
  show (as.length == bs.length && equalMembers as bs) = true ↔ _
  rw [Bool.and_eq_true, equalMembers_iff, beq_iff_eq]

/-! ## Equality -/

theorem beq_self (h : a.Defined) : (a == a) = true := by
  induction h with
  | null => rfl
  | bool b => exact beq_self_eq_true b
  | int n => exact beq_self_eq_true n
  | float h => exact float_beq_self h
  | str s => exact beq_self_eq_true s
  | arr _ ih => exact beq_arr_iff.2 (List.forall₂_same.2 ih)
  | obj hdistinct _ ih =>
      refine beq_obj_iff.2 ⟨rfl, fun member hmember => ⟨member.2, ?_, ih member hmember⟩⟩
      exact Entries.lookup_of_mem hdistinct hmember

/-- As many distinct keys that contain the others are no more than these. -/
theorem keys_subset {as bs : List (String × Value)} (hdistinct : Entries.Distinct as)
    (hlength : as.length = bs.length) (hkeys : Entries.keys as ⊆ Entries.keys bs) :
    Entries.keys bs ⊆ Entries.keys as := by
  have hsubperm := List.subperm_of_subset hdistinct hkeys
  refine (hsubperm.perm_of_length_le ?_).symm.subset
  simp [Entries.keys, hlength]

theorem beq_obj_symm {as bs : List (String × Value)} (has : Entries.Distinct as)
    (hbs : Entries.Distinct bs)
    (hsymm : ∀ member ∈ as, ∀ member' ∈ bs,
      (member.2 == member'.2) = true → (member'.2 == member.2) = true)
    (h : (obj as == obj bs) = true) : (obj bs == obj as) = true := by
  obtain ⟨hlength, hmembers⟩ := beq_obj_iff.1 h
  -- Equality looks for the keys of the first only; the lengths make up for the second.
  have hkeys : Entries.keys bs ⊆ Entries.keys as := by
    refine keys_subset has hlength fun key hkey => ?_
    obtain ⟨member, hmember, rfl⟩ := List.mem_map.1 hkey
    obtain ⟨b, hb, _⟩ := hmembers member hmember
    exact List.mem_map.2 ⟨_, Entries.mem_of_lookup hb, rfl⟩
  refine beq_obj_iff.2 ⟨hlength.symm, fun member hmember => ?_⟩
  obtain ⟨⟨key, a⟩, ha, hkey⟩ := List.mem_map.1 (hkeys (List.mem_map_of_mem hmember))
  obtain rfl : key = member.1 := hkey
  obtain ⟨b, hb, hequal⟩ := hmembers _ ha
  obtain rfl : member.2 = b :=
    Option.some.inj ((Entries.lookup_of_mem hbs hmember).symm.trans hb)
  exact ⟨a, Entries.lookup_of_mem has ha, hsymm _ ha _ hmember hequal⟩

theorem beq_arr_symm {as bs : List Value}
    (hsymm : ∀ a ∈ as, ∀ b ∈ bs, (a == b) = true → (b == a) = true)
    (h : (arr as == arr bs) = true) : (arr bs == arr as) = true := by
  rw [beq_arr_iff] at h ⊢
  exact (forall₂_imp_of_mem h hsymm).flip

theorem beq_symm (ha : a.Defined) (hb : b.Defined) (h : (a == b) = true) : (b == a) = true := by
  induction ha generalizing b with
  | null =>
      cases hb with
      | null => exact h
      | _ => cases h
  | bool p =>
      cases hb with
      | bool q => exact beq_bool_iff.2 (beq_bool_iff.1 h).symm
      | _ => cases h
  | int n =>
      cases hb with
      | int m => exact beq_int_iff.2 (beq_int_iff.1 h).symm
      | @float x _ => exact (float_beq_comm x (integerFloat n)).trans h
      | _ => cases h
  | @float x _ =>
      cases hb with
      | int m => exact (float_beq_comm (integerFloat m) x).trans h
      | @float y _ => exact (float_beq_comm y x).trans h
      | _ => cases h
  | str s =>
      cases hb with
      | str t => exact beq_str_iff.2 (beq_str_iff.1 h).symm
      | _ => cases h
  | arr _ ih =>
      cases hb with
      | arr hitems => exact beq_arr_symm (fun a ha b hb => ih a ha (hitems b hb)) h
      | _ => cases h
  | obj hdistinct _ ih =>
      cases hb with
      | obj hdistinct' hmembers =>
          exact beq_obj_symm hdistinct hdistinct'
            (fun member ha member' hb => ih member ha (hmembers member' hb)) h
      | _ => cases h

theorem beq_comm (ha : a.Defined) (hb : b.Defined) : (a == b) = (b == a) :=
  Bool.eq_iff_iff.2 ⟨beq_symm ha hb, beq_symm hb ha⟩

theorem beq_arr_trans {as bs cs : List Value}
    (htrans : ∀ a ∈ as, ∀ b c, (a == b) = true → (b == c) = true → ¬ a.Blurred c → (a == c) = true)
    (hab : (arr as == arr bs) = true) (hbc : (arr bs == arr cs) = true)
    (hblurred : ¬ (arr as).Blurred (arr cs)) : (arr as == arr cs) = true := by
  have hplaces : ∀ pair ∈ as.zip cs, ¬ pair.1.Blurred pair.2 :=
    fun pair hmem h => hblurred (.arr hmem h)
  clear hblurred
  rw [beq_arr_iff] at hab hbc ⊢
  induction hab generalizing cs with
  | nil => exact hbc
  | cons hequal _ ih =>
      rcases hbc with _ | ⟨hequal', hrest⟩
      rw [List.zip_cons_cons, List.forall_mem_cons] at hplaces
      have hhead := htrans _ List.mem_cons_self _ _ hequal hequal' hplaces.1
      have htail := ih (fun a ha => htrans a (List.mem_cons_of_mem _ ha)) hrest hplaces.2
      exact .cons hhead htail

theorem beq_obj_trans {as bs cs : List (String × Value)} (hdistinct : Entries.Distinct as)
    (htrans : ∀ member ∈ as, ∀ b c, (member.2 == b) = true → (b == c) = true →
      ¬ member.2.Blurred c → (member.2 == c) = true)
    (hab : (obj as == obj bs) = true) (hbc : (obj bs == obj cs) = true)
    (hblurred : ¬ (obj as).Blurred (obj cs)) : (obj as == obj cs) = true := by
  obtain ⟨hlength, hmembers⟩ := beq_obj_iff.1 hab
  obtain ⟨hlength', hmembers'⟩ := beq_obj_iff.1 hbc
  refine beq_obj_iff.2 ⟨hlength.trans hlength', fun member hmember => ?_⟩
  obtain ⟨b, hb, hequal⟩ := hmembers member hmember
  obtain ⟨c, hc, hequal'⟩ := hmembers' _ (Entries.mem_of_lookup hb)
  have hplace : ¬ member.2.Blurred c := fun h =>
    hblurred (.obj (Entries.lookup_of_mem hdistinct hmember) hc h)
  exact ⟨c, hc, htrans member hmember b c hequal hequal' hplace⟩

theorem beq_number_trans (ha : a.isNumber = true) (hab : (a == b) = true) (hbc : (b == c) = true)
    (hblurred : ¬ a.Blurred c) : (a == c) = true := by
  cases a with
  | int n =>
      cases b with
      | int m =>
          obtain rfl := beq_int_iff.1 hab
          exact hbc
      | float x =>
          cases c with
          | int k =>
              by_contra hne
              exact hblurred (.int (fun heq => hne (beq_int_iff.2 heq)) (float_beq_trans hab hbc))
          | float y => exact float_beq_trans hab hbc
          | _ => cases hbc
      | _ => cases hab
  | float x =>
      cases b with
      | int m =>
          cases c with
          | int k =>
              obtain rfl := beq_int_iff.1 hbc
              exact hab
          | float y => exact float_beq_trans hab hbc
          | _ => cases hbc
      | float y =>
          cases c with
          | int k => exact float_beq_trans hab hbc
          | float z => exact float_beq_trans hab hbc
          | _ => cases hbc
      | _ => cases hab
  | _ => cases ha

/-- Values that equal the same value equal each other, unless they hold different integers with the
same nearest double in one place. -/
theorem beq_trans (ha : a.Defined) (hab : (a == b) = true) (hbc : (b == c) = true)
    (hblurred : ¬ a.Blurred c) : (a == c) = true := by
  induction ha generalizing b c with
  | null =>
      cases b with
      | null => exact hbc
      | _ => cases hab
  | bool p =>
      cases b with
      | bool q =>
          obtain rfl := beq_bool_iff.1 hab
          exact hbc
      | _ => cases hab
  | int n => exact beq_number_trans rfl hab hbc hblurred
  | float => exact beq_number_trans rfl hab hbc hblurred
  | str s =>
      cases b with
      | str t =>
          obtain rfl := beq_str_iff.1 hab
          exact hbc
      | _ => cases hab
  | arr _ ih =>
      cases b with
      | arr bs =>
          cases c with
          | arr cs => exact beq_arr_trans (fun a ha _ _ => ih a ha) hab hbc hblurred
          | _ => cases hbc
      | _ => cases hab
  | obj hdistinct _ ih =>
      cases b with
      | obj bs =>
          cases c with
          | obj cs =>
              exact beq_obj_trans hdistinct (fun member h _ _ => ih member h) hab hbc hblurred
          | _ => cases hbc
      | _ => cases hab

/-! ## Order -/

/-- The values have this order, which agrees with their equality but on a rounded integer. -/
structure Ordered (a b : Value) (order : Ordering) : Prop where
  compare : a.compareSameType b = some order
  equal : (a == b) = true ↔ order = .eq ∨ a.Rounded b
  rounded (h : a.Rounded b) : order ≠ .eq

theorem ordered_of_not_rounded {order : Ordering} (hcompare : a.compareSameType b = some order)
    (hequal : (a == b) = true ↔ order = .eq) (hrounded : ¬ a.Rounded b) : Ordered a b order where
  compare := hcompare
  equal := by rw [hequal, or_iff_left hrounded]
  rounded h := absurd h hrounded

theorem ordered_ints (m n : Int64) : Ordered (int m) (int n) (compare m.toInt n.toInt) := by
  refine ordered_of_not_rounded rfl ?_ (by rintro ⟨⟩)
  rw [beq_int_iff, Int.compare_eq_eq, Int64.toInt_inj]

theorem exists_ordered_floats {x y : Float} (hx : x.isNaN = false) (hy : y.isNaN = false) :
    ∃ order, Ordered (float x) (float y) order := by
  cases hcompare : compareFloats x y with
  | none =>
      rcases compareFloats_eq_none_iff.1 hcompare with h | h
      · rw [hx] at h
        cases h
      · rw [hy] at h
        cases h
  | some order =>
      refine ⟨order, ordered_of_not_rounded hcompare ?_ (by rintro ⟨⟩)⟩
      show (x == y) = true ↔ _
      rw [← compareFloats_eq_some_eq_iff, hcompare, Option.some.injEq]

theorem exists_ordered_int_float (n : Int64) {x : Float} (hx : x.isNaN = false) :
    ∃ order, Ordered (int n) (float x) order := by
  cases hcompare : (Binary.ofFloat x).compareInt n.toInt with
  | none =>
      rw [compareInt_ofFloat_eq_none_iff, hx] at hcompare
      cases hcompare
  | some order =>
      refine ⟨order, (compareIntFloat_eq n x).trans hcompare, ⟨fun hequal => ?_, ?_⟩, ?_⟩
      · by_cases heq : order = .eq
        · exact .inl heq
        · exact .inr (.integer hequal (by simpa [hcompare] using heq))
      · rintro (rfl | ⟨hnearest, _⟩)
        · exact ofInt_beq_of_compareInt hcompare
        · exact hnearest
      · rintro ⟨_, hinexact⟩ rfl
        exact hinexact hcompare

theorem Rounded.symm (h : a.Rounded b) : b.Rounded a := by
  cases h with
  | integer hnearest hinexact => exact .float hnearest hinexact
  | float hnearest hinexact => exact .integer hnearest hinexact

theorem Ordered.swap_float {n : Int64} {x : Float} {order : Ordering}
    (h : Ordered (int n) (float x) order) : Ordered (float x) (int n) order.swap where
  compare := by
    have hcompare : compareIntFloat n x = some order := h.compare
    rw [compareSameType, hcompare, Option.map_some]
  equal := by
    have hequal : (float x == int n) = (int n == float x) := float_beq_comm x (integerFloat n)
    rw [hequal, h.equal, Ordering.swap_eq_eq]
    exact or_congr_right ⟨.symm, .symm⟩
  rounded hrounded := by
    rw [ne_eq, Ordering.swap_eq_eq]
    exact h.rounded hrounded.symm

/-- Comparable values have an order. -/
theorem exists_ordered (ha : a.Defined) (hb : b.Defined) (h : a.Comparable b) :
    ∃ order, Ordered a b order := by
  cases h with
  | bools p q =>
      refine ⟨_, ordered_of_not_rounded rfl ?_ (by rintro ⟨⟩)⟩
      rw [beq_bool_iff]
      cases p <;> cases q <;> decide
  | strings s t =>
      refine ⟨_, ordered_of_not_rounded rfl ?_ (by rintro ⟨⟩)⟩
      rw [beq_str_iff, Std.compare_eq_iff_eq]
  | numbers ha' hb' =>
      cases ha with
      | int m =>
          cases hb with
          | int n => exact ⟨_, ordered_ints m n⟩
          | float hx => exact exists_ordered_int_float m hx
          | _ => cases hb'
      | float hx =>
          cases hb with
          | int n =>
              obtain ⟨order, horder⟩ := exists_ordered_int_float n hx
              exact ⟨_, horder.swap_float⟩
          | float hy => exact exists_ordered_floats hx hy
          | _ => cases hb'
      | _ => cases ha'

end Value

/-! ## The functions of the library -/

namespace Library

open Value (Ordered)

variable {a b : Value} {order : Ordering}

/-- What a function of two values answers, where it answers yes or no. -/
def answer? (name : String) (a b : Value) : Option Bool :=
  match builtin.lookup name with
  | some (.value _ call) =>
    match call [a, b] with
    | .ok (.bool answer) => some answer
    | _ => none
  | _ => none

theorem less_eq (h : Ordered a b order) : Logic.less a b = (order == .lt) := by
  rw [Logic.less, h.compare]
  cases order <;> rfl

theorem greater_eq (h : Ordered a b order) : Logic.greater a b = (order == .gt) := by
  rw [Logic.greater, h.compare]
  cases order <;> rfl

/-- One of three holds, and the other two relations are the opposites, unless an integer is
rounded. -/
theorem not_rounded_iff (h : Ordered a b order) :
    ¬ a.Rounded b ↔
      [Logic.less a b, a == b, Logic.greater a b].count true = 1 ∧
        (Logic.less a b || a == b) = !Logic.greater a b ∧
          (Logic.greater a b || a == b) = !Logic.less a b := by
  rw [less_eq h, greater_eq h]
  have hequal := h.equal
  have hrounded := h.rounded
  by_cases hround : a.Rounded b
  · have htrue : (a == b) = true := hequal.2 (.inr hround)
    rw [htrue]
    cases order with
    | eq => exact absurd rfl (hrounded hround)
    | lt => simp [hround]
    | gt => simp [hround]
  · have hvalue : (a == b) = (order == .eq) := by
      rw [Bool.eq_iff_iff, hequal, or_iff_left hround, beq_iff_eq]
    rw [hvalue]
    cases order <;> simp [hround]

/-- Equality is reflexive and symmetric, and it is transitive but for different integers with the
same nearest double.  Of two comparable values one is less than, equal to or greater than the other,
as the five functions say, unless one is an integer that is rounded to the other. -/
theorem equality_and_order (ha : a.Defined) (hb : b.Defined) :
    (a == a) = true ∧ (a == b) = (b == a) ∧
      (∀ c, (a == b) = true → (b == c) = true → ¬ a.Blurred c → (a == c) = true) ∧
        (a.Comparable b →
          ∃ less equal greater, answer? "lt" a b = some less ∧ answer? "eq" a b = some equal ∧
            answer? "gt" a b = some greater ∧
              (¬ a.Rounded b ↔ [less, equal, greater].count true = 1 ∧
                answer? "lte" a b = some !greater ∧ answer? "gte" a b = some !less)) := by
  refine ⟨Value.beq_self ha, Value.beq_comm ha hb, fun _ => Value.beq_trans ha,
    fun hcomparable => ?_⟩
  obtain ⟨order, horder⟩ := Value.exists_ordered ha hb hcomparable
  have hlte : answer? "lte" a b = some (Logic.less a b || a == b) := rfl
  have hgte : answer? "gte" a b = some (Logic.greater a b || a == b) := rfl
  refine ⟨Logic.less a b, a == b, Logic.greater a b, rfl, rfl, rfl, ?_⟩
  rw [hlte, hgte, Option.some.injEq, Option.some.injEq]
  exact not_rounded_iff horder

/-- The zero that is an integer equals both zeros that are floats, and 2 is less than 2.5. -/
theorem equality_and_order_zeros :
    let integer := Value.arr [.int 0]
    let negative := Value.arr [.float (-0.0)]
    let positive := Value.arr [.float 0.0]
    integer.Defined ∧ negative.Defined ∧ (integer == negative) = true ∧
      (negative == positive) = true ∧ ¬ integer.Blurred positive ∧ (integer == positive) = true ∧
        (Value.int 2).Comparable (.float 2.5) ∧ ¬ (Value.int 2).Rounded (.float 2.5) ∧
          answer? "lt" (.int 2) (.float 2.5) = some true ∧
            answer? "gte" (.int 2) (.float 2.5) = some false := by
  intro integer negative positive
  have hzero : Float.isNaN (-0.0) = false := by decide +kernel
  have hhalf : Float.isNaN 2.5 = false := by decide +kernel
  have hinteger : integer.Defined := .arr (List.forall_mem_singleton.2 (.int 0))
  have hnegative : negative.Defined := .arr (List.forall_mem_singleton.2 (.float hzero))
  have hequal : (integer == negative) = true := by decide +kernel
  have hequal' : (negative == positive) = true := by decide +kernel
  have hblurred : ¬ (Value.arr [.int 0]).Blurred (.arr [.float 0.0]) := by
    rintro (_ | ⟨hmem, h⟩)
    obtain ⟨rfl, rfl⟩ := Prod.mk.inj (List.mem_singleton.1 hmem)
    cases h
  have hcomparable : (Value.int 2).Comparable (.float 2.5) := .numbers rfl rfl
  have hrounded : ¬ (Value.int 2).Rounded (.float 2.5) := by
    rintro ⟨hnearest, _⟩
    revert hnearest
    decide +kernel
  have hless : answer? "lt" (.int 2) (.float 2.5) = some true := by decide +kernel
  obtain ⟨less, equal, greater, hlt, heq, hgt, hiff⟩ :=
    (equality_and_order (.int 2) (.float hhalf)).2.2.2 hcomparable
  obtain ⟨_, _, hgte⟩ := hiff.1 hrounded
  rw [hlt] at hless
  have htrans := (equality_and_order hinteger hnegative).2.2.1 positive hequal hequal' hblurred
  refine ⟨hinteger, hnegative, hequal, hequal', hblurred, htrans, hcomparable, hrounded,
    hlt.trans hless, ?_⟩
  rw [hgte, Option.some.inj hless]
  rfl

/-- Where they clash: the integer after 2 ^ 53 is no double, so it equals the double 2 ^ 53, which
equals the integer 2 ^ 53, and is greater than the double all the same. -/
theorem equality_and_order_clash :
    let power : Value := .int 9007199254740992
    let double : Value := .float 9007199254740992
    let next : Value := .int 9007199254740993
    ((power == double) = true ∧ (double == next) = true ∧ (power == next) = false) ∧
      answer? "eq" next double = some true ∧ answer? "gt" next double = some true ∧
        answer? "lte" next double = some true := by
  decide +kernel

end Library

end PipeQuery
