/-
Sums, products and averages.

An operation on two numbers gives a number, unless it divides by zero, and an operation on anything
else gives null.  So a fold over numbers has a number, of whatever kind, and one over other items
has null from the first of them on.  Over integers it stays with integers as long as the exact
totals have 64 bits.  The count that an average divides by is not rounded to zero.
-/
import PipeQuery.Proofs.MixedArithmetic
import PipeQuery.Proofs.NearestDouble
import PipeQuery.Proofs.Sorting

namespace PipeQuery

open Arithmetic

/-! ## Integers as doubles -/

/-- No integer of 64 bits but zero is rounded to zero. -/
theorem ofInt_beq_zero {n : Int} (hne : n ≠ 0) (hn : n.natAbs < 2 ^ 64) :
    (Float.ofInt n == 0) = false := by
  have hone : (1 : ℚ) ≤ n.natAbs := by exact_mod_cast Int.natAbs_pos.2 hne
  have hbound : (n.natAbs : ℚ) < Double.overflowBound := by
    calc (n.natAbs : ℚ) < 2 ^ 64 := by exact_mod_cast hn
      _ = 2 ^ (64 : Int) := (zpow_natCast 2 64).symm
      _ ≤ 2 ^ (970 : Int) := Double.two_zpow_le (by decide)
      _ < Double.overflowBound := Double.two_zpow_lt_overflowBound
  rcases Double.rounding_cases (zero_lt_one.trans_le hone) with
    hsmall | hlarge | ⟨m, q, hm, hrounds⟩
  · have hless : (2 : ℚ) ^ (-1075 : Int) < 1 := zpow_lt_one_of_neg₀ one_lt_two (by decide)
    exact absurd (hone.trans hsmall) hless.not_ge
  · exact absurd hlarge hbound.not_ge
  · rw [ofInt_of_roundsTo hm hrounds, ← Bool.not_eq_true, float_beq_iff, Double.unpack_pack hm]
    cases decide (n < 0) <;> exact nofun

theorem integerFloat_beq_zero {n : Int64} (hne : n ≠ 0) : (integerFloat n == 0) = false := by
  have hlow := n.le_toInt
  have hhigh := n.toInt_lt
  exact ofInt_beq_zero (fun hzero => hne (Int64.toInt_inj.1 hzero)) (by omega)

/-! ## One operation -/

namespace Arithmetic

variable {operation : Operation} {a b : Value} {x y : Float} {m n : Int64}

theorem apply_of_not_isNumber (h : a.isNumber = false ∨ b.isNumber = false) :
    apply operation a b = .null := by
  cases a with
  | int m =>
      cases b with
      | int n => simp [Value.isNumber] at h
      | float y => simp [Value.isNumber] at h
      | _ => rfl
  | float x =>
      cases b with
      | int n => simp [Value.isNumber] at h
      | float y => simp [Value.isNumber] at h
      | _ => rfl
  | _ => rfl

theorem isNumber_onFloats (h : divides operation = true → (y == 0) = false) :
    (onFloats operation x y).isNumber = true := by
  unfold onFloats
  rw [if_neg (by simpa using h)]
  rfl

theorem isNumber_onIntegers (h : divides operation = true → n ≠ 0) :
    (onIntegers operation m n).isNumber = true := by
  rw [onIntegers, if_neg (by simpa using h)]
  split
  · rfl
  · exact isNumber_onFloats fun hdivides => integerFloat_beq_zero (h hdivides)

theorem isNumber_ofScaled (result : Scaled) : (ofScaled result).isNumber = true := by
  rw [ofScaled]
  split
  · split <;> rfl
  · rfl

theorem isNumber_onMixed (ha : a.asFloat? = some x) (hb : b.asFloat? = some y)
    (hfloat : divides operation = true → (y == 0) = false)
    (hscaled : ∀ z, scaled? b = some z → divides operation = true → z.isZero = false) :
    (onMixed operation a b).isNumber = true := by
  simp only [onMixed, ha, hb]
  split
  · rename_i z w hz hw
    rw [if_neg (by simpa using hscaled w hw)]
    split
    · exact isNumber_ofScaled _
    · exact isNumber_onFloats hfloat
  · exact isNumber_onFloats hfloat

/-- Numbers give a number, if none is divided by anything but an integer that is not zero. -/
theorem isNumber_apply (ha : a.isNumber = true) (hb : b.isNumber = true)
    (h : divides operation = true → ∃ n : Int64, n ≠ 0 ∧ b = .int n) :
    (apply operation a b).isNumber = true := by
  have hinteger {n : Int64} (hn : b = .int n) (hdivides : divides operation = true) : n ≠ 0 := by
    obtain ⟨k, hk, rfl⟩ := h hdivides
    exact Value.int.inj hn ▸ hk
  -- A float can be zero and is no divisor here.
  have hfloat {y : Float} (hy : b = .float y) : divides operation ≠ true := by
    intro hdivides
    obtain ⟨k, -, rfl⟩ := h hdivides
    cases hy
  cases a with
  | int m =>
      cases b with
      | int n => exact isNumber_onIntegers (hinteger rfl)
      | float y =>
          exact isNumber_onMixed rfl rfl (fun hdivides => absurd hdivides (hfloat rfl))
            fun _ _ hdivides => absurd hdivides (hfloat rfl)
      | _ => cases hb
  | float x =>
      cases b with
      | int n =>
          refine isNumber_onMixed rfl rfl
            (fun hdivides => integerFloat_beq_zero (hinteger rfl hdivides)) ?_
          rintro _ ⟨⟩ hdivides
          rw [Scaled.isZero_ofInt, beq_eq_false_iff_ne]
          exact fun hzero => hinteger rfl hdivides (Int64.toInt_inj.1 hzero)
      | float y => exact isNumber_onFloats fun hdivides => absurd hdivides (hfloat rfl)
      | _ => cases hb
  | _ => cases ha

/-- On integers an operation that does not divide is exact, as long as the result has 64 bits. -/
theorem apply_int {result : Int} (hoperation : divides operation = false)
    (hexact : operation.exact m.toInt n.toInt = result) (hfits : fitsInt64 result = true) :
    apply operation (.int m) (.int n) = .int (.ofInt result) := by
  refine (onIntegers_eq_int_iff ?_).2 ⟨?_, ?_⟩
  · rw [hoperation]
    exact nofun
  · rw [hexact, toInt_ofInt_of_fits hfits]
  · rintro rfl
    cases hoperation

end Arithmetic

/-! ## Folds -/

/-- What becomes of these items: a number if they are numbers, and null if one of them is none. -/
structure Totals (items : List Value) (total : Value) : Prop where
  isNumber : (∀ item ∈ items, item.isNumber = true) → total.isNumber = true
  eq_null : (∃ item ∈ items, item.isNumber = false) → total = .null

section Folds

variable {operation : Operation} {items rest : List Value} {total item : Value}

theorem all_isNumber_or_exists (items : List Value) :
    (∀ item ∈ items, item.isNumber = true) ∨ ∃ item ∈ items, item.isNumber = false := by
  by_cases h : ∃ item ∈ items, item.isNumber = false
  · exact .inr h
  · push Not at h
    exact .inl fun item hitem => Bool.eq_true_of_not_eq_false (h item hitem)

theorem Totals.eq_null_iff (h : Totals items total) :
    total = .null ↔ ∃ item ∈ items, item.isNumber = false := by
  refine ⟨?_, h.eq_null⟩
  rintro rfl
  exact (all_isNumber_or_exists items).resolve_left fun hall => absurd (h.isNumber hall) (by decide)

theorem Totals.ne_str (h : Totals items total) (s : String) : total ≠ .str s := by
  rintro rfl
  rcases all_isNumber_or_exists items with hall | hsome
  · cases h.isNumber hall
  · cases h.eq_null hsome

theorem totals_nil : Totals [] (.int 0) :=
  ⟨fun _ => rfl, by simp⟩

/-- A number by itself, or null in the place of anything else. -/
theorem totals_singleton (item : Value) :
    Totals [item] (if item.isNumber then item else .null) := by
  cases hnumber : item.isNumber with
  | false => exact ⟨fun hall => by simp [hnumber] at hall, fun _ => rfl⟩
  | true => exact ⟨fun _ => hnumber, by simp [hnumber]⟩

/-- One more item. -/
theorem Totals.apply (h : Totals items total) (hoperation : divides operation = false) :
    Totals (items ++ [item]) (Arithmetic.apply operation total item) := by
  constructor
  · intro hall
    refine isNumber_apply (h.isNumber fun item hitem => hall item (by simp [hitem]))
      (hall item (by simp)) ?_
    rw [hoperation]
    exact nofun
  · rintro ⟨other, hother, hnumber⟩
    apply apply_of_not_isNumber
    rcases List.mem_append.1 hother with hitems | hlast
    · rw [h.eq_null ⟨other, hitems, hnumber⟩]
      exact .inl rfl
    · rw [← List.mem_singleton.1 hlast]
      exact .inr hnumber

theorem Totals.foldl (h : Totals items total) (hoperation : divides operation = false) :
    Totals (items ++ rest) (rest.foldl (Arithmetic.apply operation) total) := by
  induction rest generalizing items total with
  | nil => rwa [List.append_nil]
  | cons item rest ih =>
      rw [List.append_cons]
      exact ih (h.apply hoperation)

/-- A step of the sum is an addition, in which nothing is concatenated. -/
theorem Totals.add (h : Totals items total) :
    (if item.isNumber then Arithmetic.add total item else .null) =
      Arithmetic.apply .add total item := by
  cases hitem : item.isNumber with
  | false => exact (apply_of_not_isNumber (.inr hitem)).symm
  | true =>
      refine Arithmetic.add_eq_apply h.ne_str ?_
      rintro s rfl
      cases hitem

theorem Aggregates.sum_eq_foldl (items : List Value) :
    sum items = items.foldl (Arithmetic.apply .add) (.int 0) := by
  -- What has been added is no string at any step, whatever the items seen so far are.
  have hfold (seen : List Value) (total : Value) (h : Totals seen total) (rest : List Value) :
      rest.foldl (fun total item => if item.isNumber then Arithmetic.add total item else .null)
        total = rest.foldl (Arithmetic.apply .add) total := by
    induction rest generalizing seen total with
    | nil => rfl
    | cons item rest ih =>
        rw [List.foldl_cons, List.foldl_cons, h.add]
        exact ih _ _ (h.apply rfl)
  exact hfold [] _ totals_nil items

theorem totals_sum (items : List Value) : Totals items (Aggregates.sum items) := by
  rw [Aggregates.sum_eq_foldl]
  exact totals_nil.foldl rfl

theorem Aggregates.product_eq_null_iff : product items = .null ↔
    items = [] ∨ ∃ item ∈ items, item.isNumber = false := by
  cases items with
  | nil => exact ⟨fun _ => .inl rfl, fun _ => rfl⟩
  | cons first rest =>
      have h : Totals (first :: rest) (product (first :: rest)) :=
        (totals_singleton first).foldl rfl
      rw [h.eq_null_iff, or_iff_right (List.cons_ne_nil first rest)]

/-- The count of an array in memory has 64 bits, and it is not zero unless the array is empty. -/
theorem Aggregates.average_eq_null_iff (hlength : items.length < 2 ^ 64) : average items = .null ↔
    items = [] ∨ ∃ item ∈ items, item.isNumber = false := by
  cases items with
  | nil => exact ⟨fun _ => .inl rfl, fun _ => rfl⟩
  | cons first rest =>
      rw [or_iff_right (List.cons_ne_nil first rest)]
      have hcount : Int64.ofInt (first :: rest).length ≠ 0 := by
        intro hzero
        have hvalue := congrArg Int64.toInt hzero
        rw [Int64.toInt_ofInt] at hvalue
        have hdvd := Int.natCast_dvd_natCast.1 (Int.dvd_of_bmod_eq_zero hvalue)
        exact absurd hlength (not_lt.2 (Nat.le_of_dvd (Nat.succ_pos _) hdvd))
      have h : Totals (first :: rest) (average (first :: rest)) := by
        refine ⟨fun hall => ?_, fun hsome => ?_⟩
        · exact isNumber_apply ((totals_sum _).isNumber hall) rfl fun _ => ⟨_, hcount, rfl⟩
        · exact apply_of_not_isNumber (.inl (by rw [(totals_sum _).eq_null hsome]; rfl))
      exact h.eq_null_iff

end Folds

/-! ## Folds over integers -/

section Integers

variable {operation : Operation} {combine : Int → Int → Int} {start : Int64} {ints : List Int64}

/-- As long as the exact totals have 64 bits, a fold over integers has the integer of the exact
total. -/
theorem exists_foldl_apply (hoperation : divides operation = false)
    (hexact : ∀ a b : Int, operation.exact a b = combine a b)
    (hfits : ∀ part, part <+: ints →
      fitsInt64 ((part.map Int64.toInt).foldl combine start.toInt) = true) :
    ∃ total : Int64,
      (ints.map Value.int).foldl (Arithmetic.apply operation) (.int start) = .int total ∧
        total.toInt = (ints.map Int64.toInt).foldl combine start.toInt := by
  -- The last step comes after the prefixes, of which all have totals of 64 bits.
  induction ints using List.reverseRecOn with
  | nil => exact ⟨start, rfl, rfl⟩
  | append_singleton ints n ih =>
      obtain ⟨total, htotal, hvalue⟩ :=
        ih fun part hpart => hfits part (hpart.trans (List.prefix_append ints [n]))
      have hresult := hfits _ List.prefix_rfl
      simp only [List.map_append, List.foldl_append, List.map_cons, List.map_nil, List.foldl_cons,
        List.foldl_nil, ← hvalue] at hresult ⊢
      rw [htotal]
      exact ⟨_, apply_int hoperation (hexact _ _) hresult, toInt_ofInt_of_fits hresult⟩

theorem Aggregates.exists_sum_eq
    (hfits : ∀ part, part <+: ints → fitsInt64 (part.map Int64.toInt).sum = true) :
    ∃ total : Int64, sum (ints.map .int) = .int total ∧
      total.toInt = (ints.map Int64.toInt).sum := by
  simp only [List.sum_eq_foldl] at hfits ⊢
  rw [Aggregates.sum_eq_foldl]
  exact exists_foldl_apply rfl (fun a b => Operation.exact_add.2 rfl) hfits

theorem Aggregates.exists_product_eq (hne : ints ≠ [])
    (hfits : ∀ part, part <+: ints → fitsInt64 (part.map Int64.toInt).prod = true) :
    ∃ total : Int64, product (ints.map .int) = .int total ∧
      total.toInt = (ints.map Int64.toInt).prod := by
  obtain ⟨first, rest, rfl⟩ := List.exists_cons_of_ne_nil hne
  have hfold (part : List Int64) : ((first :: part).map Int64.toInt).prod =
      (part.map Int64.toInt).foldl (· * ·) first.toInt := by
    rw [List.prod_eq_foldl, List.map_cons, List.foldl_cons, one_mul]
  rw [hfold]
  refine exists_foldl_apply rfl (fun a b => Operation.exact_multiply.2 rfl) fun part hpart => ?_
  rw [← hfold]
  exact hfits _ ((List.prefix_cons_inj first).2 hpart)

end Integers

/-! ## Calls of the library -/

/-- `sum` is null if and only if an item is no number, and `prod` and `average` are null for an
empty array too.  Of integers whose prefixes all have an exact sum, or product, of 64 bits, `sum`,
or `prod`, is the integer of the exact result.  The count of an array in memory has 64 bits. -/
theorem sum_prod_average (limit budget : Nat) (items : List Value) :
    ∃ total product mean,
      Evaluates limit (budget + 1) (.call "sum" []) (.arr items) total ∧
        Evaluates limit (budget + 1) (.call "prod" []) (.arr items) product ∧
        Evaluates limit (budget + 1) (.call "average" []) (.arr items) mean ∧
        (total = .null ↔ ∃ item ∈ items, item.isNumber = false) ∧
        (product = .null ↔ items = [] ∨ ∃ item ∈ items, item.isNumber = false) ∧
        (items.length < 2 ^ 64 →
          (mean = .null ↔ items = [] ∨ ∃ item ∈ items, item.isNumber = false)) ∧
        ∀ ints : List Int64, items = ints.map .int →
          ((∀ part, part <+: ints → fitsInt64 (part.map Int64.toInt).sum = true) →
            ∃ n : Int64, total = .int n ∧ n.toInt = (ints.map Int64.toInt).sum) ∧
          (ints ≠ [] →
            (∀ part, part <+: ints → fitsInt64 (part.map Int64.toInt).prod = true) →
              ∃ n : Int64, product = .int n ∧ n.toInt = (ints.map Int64.toInt).prod) := by
  refine ⟨Aggregates.sum items, Aggregates.product items, Aggregates.average items,
    ⟨_, compileWithin_call rfl rfl, rfl⟩, ⟨_, compileWithin_call rfl rfl, rfl⟩,
    ⟨_, compileWithin_call rfl rfl, rfl⟩, (totals_sum items).eq_null_iff,
    Aggregates.product_eq_null_iff, Aggregates.average_eq_null_iff, ?_⟩
  rintro ints rfl
  exact ⟨Aggregates.exists_sum_eq, Aggregates.exists_product_eq⟩

/-- The product is the least integer; one string makes everything null; without items the sum alone
is a number. -/
theorem sum_prod_average_least :
    (∃ mean, mean ≠ .null ∧
      Evaluates 1 1 (.call "sum" []) (.arr [.int 4611686018427387904, .int (-2)])
        (.int 4611686018427387902) ∧
      Evaluates 1 1 (.call "prod" []) (.arr [.int 4611686018427387904, .int (-2)])
        (.int Int64.minValue) ∧
      Evaluates 1 1 (.call "average" []) (.arr [.int 4611686018427387904, .int (-2)]) mean) ∧
      (∀ name ∈ ["sum", "prod", "average"],
        Evaluates 1 1 (.call name []) (.arr [.int 1, .str "2", .float 2.5]) .null) ∧
      Evaluates 1 1 (.call "sum" []) (.arr []) (.int 0) ∧
      Evaluates 1 1 (.call "prod" []) (.arr []) .null ∧
      Evaluates 1 1 (.call "average" []) (.arr []) .null := by
  refine ⟨?_, ?_, ?_⟩
  · obtain ⟨_, _, mean, hsum, hprod, haverage, _, _, hmean, hexact⟩ :=
      sum_prod_average 1 0 [.int 4611686018427387904, .int (-2)]
    have hfits : ∀ part ∈ [4611686018427387904, (-2 : Int64)].inits,
        fitsInt64 (part.map Int64.toInt).sum = true ∧
          fitsInt64 (part.map Int64.toInt).prod = true := by decide
    obtain ⟨⟨total, rfl, htotal⟩, hproduct⟩ := (hexact [4611686018427387904, -2] rfl).imp_left
      fun h => h fun part hpart => (hfits part ((List.mem_inits _ _).2 hpart)).1
    obtain ⟨product, rfl, hvalue⟩ := hproduct (by decide) fun part hpart =>
      (hfits part ((List.mem_inits _ _).2 hpart)).2
    obtain rfl : total = 4611686018427387902 := Int64.toInt_inj.1 htotal
    obtain rfl : product = Int64.minValue := Int64.toInt_inj.1 hvalue
    refine ⟨mean, fun hnull => ?_, hsum, hprod, haverage⟩
    have hitems := (hmean (by decide)).1 hnull
    simp [Value.isNumber] at hitems
  · obtain ⟨total, product, mean, hsum, hprod, haverage, htotal, hproduct, hmean, _⟩ :=
      sum_prod_average 1 0 [.int 1, .str "2", .float 2.5]
    have htext : ∃ item ∈ [Value.int 1, .str "2", .float 2.5], item.isNumber = false :=
      ⟨.str "2", by simp, rfl⟩
    obtain rfl := htotal.2 htext
    obtain rfl := hproduct.2 (.inr htext)
    obtain rfl := (hmean (by simp)).2 (.inr htext)
    simp only [List.forall_mem_cons, List.not_mem_nil, IsEmpty.forall_iff, implies_true, and_true]
    exact ⟨hsum, hprod, haverage⟩
  · obtain ⟨_, product, mean, hsum, hprod, haverage, _, hproduct, hmean, hexact⟩ :=
      sum_prod_average 1 0 []
    obtain ⟨total, rfl, htotal⟩ := (hexact [] rfl).1 fun part hpart => by
      rw [List.prefix_nil.1 hpart]
      rfl
    obtain rfl : total = 0 := Int64.toInt_inj.1 htotal
    obtain rfl := hproduct.2 (.inl rfl)
    obtain rfl := (hmean (by simp)).2 (.inl rfl)
    exact ⟨hsum, hprod, haverage⟩

end PipeQuery
