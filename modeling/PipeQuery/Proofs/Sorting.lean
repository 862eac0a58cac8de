/-
Sorting, and the least and the greatest item of an array.

Sorting orders the places of the items: by their keys, and places of equal keys as they are.  Any
two places have an order then, so that one place comes before all others and one comes after them,
and the items of these two are what the folds for the least and the greatest item end with.
-/
import Mathlib.Data.List.FinRange
import PipeQuery.Proofs.Comparison
import PipeQuery.Proofs.Resolution
import PipeQuery.Proofs.SortOrder

namespace PipeQuery

/-! ## The order of places -/

/-- The order of keys in a sort that goes up or down. -/
def Value.directed (descending : Bool) (a b : Value) : Ordering :=
  if descending then sortCompare b a else sortCompare a b

instance (descending : Bool) : Std.TransCmp (Value.directed descending) := by
  cases descending with
  | false => exact inferInstanceAs (Std.TransCmp Value.sortCompare)
  | true => exact inferInstanceAs (Std.TransCmp fun a b => Value.sortCompare b a)

/-- Values of one sortable type are sorted as they are compared. -/
theorem Value.sortCompare_of_compareSameType {a b : Value} {order : Ordering}
    (h : a.compareSameType b = some order) : sortCompare a b = order := by
  obtain ⟨hrank, ha, hb⟩ : a.sortRank = b.sortRank ∧ a.isNaN = false ∧ b.isNaN = false := by
    cases a with
    | bool p =>
        cases b with
        | bool q => exact ⟨rfl, rfl, rfl⟩
        | _ => cases h
    | str s =>
        cases b with
        | str t => exact ⟨rfl, rfl, rfl⟩
        | _ => cases h
    | int m =>
        cases b with
        | int n => exact ⟨rfl, rfl, rfl⟩
        | float y =>
            have hcompare : compareIntFloat m y = some order := h
            refine ⟨rfl, rfl, Bool.eq_false_iff.2 fun hy => ?_⟩
            rw [compareIntFloat_eq, compareInt_ofFloat_eq_none_iff.2 hy] at hcompare
            cases hcompare
        | _ => cases h
    | float x =>
        cases b with
        | int n =>
            have hcompare : (compareIntFloat n x).map .swap = some order := h
            refine ⟨rfl, Bool.eq_false_iff.2 fun hx => ?_, rfl⟩
            rw [compareIntFloat_eq, compareInt_ofFloat_eq_none_iff.2 hx] at hcompare
            cases hcompare
        | float y =>
            have hcompare : compareFloats x y = some order := h
            refine ⟨rfl, Bool.eq_false_iff.2 fun hx => ?_, Bool.eq_false_iff.2 fun hy => ?_⟩
            · rw [compareFloats_eq_none_iff.2 (.inl hx)] at hcompare
              cases hcompare
            · rw [compareFloats_eq_none_iff.2 (.inr hy)] at hcompare
              cases hcompare
        | _ => cases h
    | _ => cases h
  rw [sortCompare, if_neg (not_not.2 hrank), ha, hb]
  simp only [h, Option.getD_some]

/-- The key of the place `i` comes first, or the keys are equal and `i` is the earlier place. -/
def Precedes {n : Nat} (descending : Bool) (keys : Fin n → Value) (i j : Fin n) : Prop :=
  Value.directed descending (keys i) (keys j) = .lt ∨
    Value.directed descending (keys i) (keys j) = .eq ∧ i < j

section Places

variable {n : Nat} {descending : Bool} {keys : Fin n → Value} {i j k : Fin n}

theorem Precedes.trans (hij : Precedes descending keys i j) (hjk : Precedes descending keys j k) :
    Precedes descending keys i k := by
  rcases hij with hij | ⟨hij, hlt⟩
  · rcases hjk with hjk | ⟨hjk, _⟩
    · exact .inl (Std.TransCmp.lt_trans hij hjk)
    · exact .inl (Std.TransCmp.lt_of_lt_of_eq hij hjk)
  · rcases hjk with hjk | ⟨hjk, hlt'⟩
    · exact .inl (Std.TransCmp.lt_of_eq_of_lt hij hjk)
    · exact .inr ⟨Std.TransCmp.eq_trans hij hjk, hlt.trans hlt'⟩

theorem Precedes.irrefl : ¬ Precedes descending keys i i := by
  have hself : Value.directed descending (keys i) (keys i) = .eq := Std.ReflCmp.compare_self
  rintro (h | ⟨_, h⟩)
  · rw [hself] at h
    cases h
  · exact lt_irrefl i h

/-- The earlier of two places comes first, unless the key of the later is less. -/
theorem precedes_of_lt (hlt : i < j)
    (h : Value.directed descending (keys j) (keys i) ≠ .lt) : Precedes descending keys i j := by
  have hswap : Value.directed descending (keys i) (keys j) ≠ .gt := by
    rwa [ne_eq, Std.OrientedCmp.gt_iff_lt]
  cases hcompare : Value.directed descending (keys i) (keys j) with
  | lt => exact .inl hcompare
  | eq => exact .inr ⟨hcompare, hlt⟩
  | gt => exact absurd hcompare hswap

/-- The places in the order of the sort. -/
def sortedPlaces (descending : Bool) (keys : Fin n → Value) : List (Fin n) :=
  (List.finRange n).mergeSort fun i j => (Value.directed descending (keys i) (keys j)).isLE

theorem perm_sortedPlaces (descending : Bool) (keys : Fin n → Value) :
    (sortedPlaces descending keys).Perm (List.finRange n) :=
  List.mergeSort_perm _ _

theorem isLE_directed_trans (a b c : Value) (hab : (Value.directed descending a b).isLE = true)
    (hbc : (Value.directed descending b c).isLE = true) :
    (Value.directed descending a c).isLE = true :=
  Std.TransCmp.isLE_trans hab hbc

theorem isLE_directed_total (a b : Value) :
    ((Value.directed descending a b).isLE || (Value.directed descending b a).isLE) = true := by
  have hswap : Value.directed descending b a = (Value.directed descending a b).swap :=
    Std.OrientedCmp.eq_swap
  rw [hswap]
  cases Value.directed descending a b <;> rfl

/-- Places with keys equal to one key stay in order. -/
theorem filter_sortedPlaces (descending : Bool) (keys : Fin n → Value) (key : Value) :
    (sortedPlaces descending keys).filter (fun i => Value.directed descending key (keys i) == .eq) =
      (List.finRange n).filter fun i => Value.directed descending key (keys i) == .eq := by
  have hequal : ((List.finRange n).filter fun i =>
      Value.directed descending key (keys i) == .eq).Pairwise
        fun i j => (Value.directed descending (keys i) (keys j)).isLE = true := by
    refine List.pairwise_filter.2 (List.pairwise_of_forall fun i j hi hj => ?_)
    have hi' := Std.OrientedCmp.eq_symm (beq_iff_eq.1 hi)
    rw [Std.TransCmp.eq_trans hi' (beq_iff_eq.1 hj)]
    rfl
  have hsublist : ((List.finRange n).filter fun i =>
      Value.directed descending key (keys i) == .eq).Sublist (sortedPlaces descending keys) :=
    List.sublist_mergeSort (fun i j k => isLE_directed_trans (keys i) (keys j) (keys k))
      (fun i j => isLE_directed_total (keys i) (keys j)) hequal List.filter_sublist
  have hlength := ((perm_sortedPlaces descending keys).filter fun i =>
    Value.directed descending key (keys i) == .eq).length_eq
  refine (List.Sublist.eq_of_length ?_ hlength.symm).symm
  have h := hsublist.filter fun i => Value.directed descending key (keys i) == .eq
  simpa only [List.filter_filter, Bool.and_self] using h

/-- The sort is stable. -/
theorem pairwise_sortedPlaces (descending : Bool) (keys : Fin n → Value) :
    (sortedPlaces descending keys).Pairwise (Precedes descending keys) := by
  have hsorted : (sortedPlaces descending keys).Pairwise fun i j =>
      (Value.directed descending (keys i) (keys j)).isLE = true :=
    List.pairwise_mergeSort (fun i j k => isLE_directed_trans (keys i) (keys j) (keys k))
      (fun i j => isLE_directed_total (keys i) (keys j)) _
  rw [List.pairwise_iff_forall_sublist] at hsorted ⊢
  intro i j hsublist
  cases hcompare : Value.directed descending (keys i) (keys j) with
  | lt => exact .inl hcompare
  | gt =>
      have h := hsorted hsublist
      rw [hcompare] at h
      cases h
  | eq =>
      have hself : Value.directed descending (keys i) (keys i) = .eq := Std.ReflCmp.compare_self
      have hpair := hsublist.filter fun j => Value.directed descending (keys i) (keys j) == .eq
      rw [filter_sortedPlaces] at hpair
      simp only [List.filter_cons, hself, hcompare, beq_self_eq_true, if_true, List.filter_nil]
        at hpair
      have hplaces := (List.pairwise_lt_finRange n).sublist (hpair.trans List.filter_sublist)
      exact .inr ⟨hcompare, List.rel_of_pairwise_cons hplaces List.mem_cons_self⟩

/-- No key is less than that of a place before it. -/
theorem Precedes.not_lt (h : Precedes descending keys i j) :
    Value.directed descending (keys j) (keys i) ≠ .lt := by
  rw [ne_eq, ← Std.OrientedCmp.gt_iff_lt]
  rcases h with h | ⟨h, _⟩
  · rw [h]
    exact nofun
  · rw [h]
    exact nofun

end Places

/-! ## The first of a list in an order -/

section First

variable {α : Type} {before earlier : α → α → Prop} {step : α → α → α} {a b : α} {items : List α}

/-- The item comes before all others. -/
def IsFirst (before : α → α → Prop) (a : α) (items : List α) : Prop :=
  a ∈ items ∧ ∀ b ∈ items, b = a ∨ before a b

theorem IsFirst.unique (ha : IsFirst before a items) (hb : IsFirst before b items)
    (htrans : ∀ a b c, before a b → before b c → before a c) (hirrefl : ∀ a, ¬ before a a) :
    a = b := by
  rcases hb.2 a ha.1 with h | hba
  · exact h
  · rcases ha.2 b hb.1 with h | hab
    · exact h.symm
    · exact absurd (htrans a b a hab hba) (hirrefl a)

theorem isFirst_cons (h : (a :: items).Pairwise before) : IsFirst before a (a :: items) := by
  refine ⟨List.mem_cons_self, fun b hb => ?_⟩
  rcases List.mem_cons.1 hb with rfl | hb
  · exact .inl rfl
  · exact .inr (List.rel_of_pairwise_cons h hb)

theorem isFirst_pair (h : before a b) : IsFirst before a [a, b] :=
  isFirst_cons (List.pairwise_pair.2 h)

theorem isFirst_pair_swap (h : before b a) : IsFirst before b [a, b] := by
  refine ⟨List.mem_pair.2 (.inr rfl), fun c hc => ?_⟩
  rcases List.mem_pair.1 hc with rfl | rfl
  · exact .inr h
  · exact .inl rfl

theorem IsFirst.perm {others : List α} (h : IsFirst before a items) (hperm : items.Perm others) :
    IsFirst before a others :=
  ⟨hperm.mem_iff.1 h.1, fun b hb => h.2 b (hperm.mem_iff.2 hb)⟩

theorem exists_head? (hne : items ≠ []) (h : items.Pairwise before) :
    ∃ a, items.head? = some a ∧ IsFirst before a items := by
  obtain ⟨a, rest, rfl⟩ := List.exists_cons_of_ne_nil hne
  exact ⟨a, rfl, isFirst_cons h⟩

theorem exists_getLast? (hne : items ≠ []) (h : items.Pairwise before) :
    ∃ a, items.getLast? = some a ∧ IsFirst (fun a b => before b a) a items := by
  obtain ⟨a, hhead, hfirst⟩ :=
    exists_head? (List.reverse_ne_nil_iff.2 hne) (List.pairwise_reverse.2 h)
  rw [List.head?_reverse] at hhead
  exact ⟨a, hhead, hfirst.perm (List.reverse_perm items)⟩

/-- A fold that keeps the first of two items ends with the first of all. -/
theorem isFirst_foldl (hstep : ∀ a b, earlier a b → IsFirst before (step a b) [a, b])
    (htrans : ∀ {a b c}, before a b → before b c → before a c)
    (h : (a :: items).Pairwise earlier) : IsFirst before (items.foldl step a) (a :: items) := by
  induction items generalizing a with
  | nil => exact isFirst_cons (List.pairwise_singleton _ _)
  | cons second items ih =>
      rw [List.pairwise_cons, List.pairwise_cons] at h
      obtain ⟨hfirst, hsecond, hitems⟩ := h
      obtain ⟨hkept, hpair⟩ := hstep a second (hfirst second List.mem_cons_self)
      rw [List.foldl_cons]
      generalize step a second = kept at hkept hpair
      have hothers : (kept :: items).Pairwise earlier := by
        refine List.pairwise_cons.2 ⟨fun b hb => ?_, hitems⟩
        rcases List.mem_pair.1 hkept with rfl | rfl
        · exact hfirst b (List.mem_cons_of_mem _ hb)
        · exact hsecond b hb
      obtain ⟨hmem, hall⟩ := ih hothers
      refine ⟨?_, fun b hb => ?_⟩
      · rcases List.mem_cons.1 hmem with heq | hmem
        · rw [heq]
          exact List.mem_append_left items hkept
        · exact List.mem_append_right [a, second] hmem
      · rcases List.mem_append.1 (show b ∈ [a, second] ++ items from hb) with hb | hb
        · rcases hpair b hb with rfl | hlater
          · exact hall b List.mem_cons_self
          · rcases hall kept List.mem_cons_self with heq | hkept
            · exact .inr (heq ▸ hlater)
            · exact .inr (htrans hkept hlater)
        · exact hall b (List.mem_cons_of_mem _ hb)

end First

/-! ## The least and the greatest item -/

namespace Aggregates

variable {items rest : List Value} {first : Value}

/-- A fold over the items that keeps the first of two places ends with the item of the first. -/
theorem exists_isFirst {step : Value → Value → Value}
    (choose : Fin (first :: rest).length → Fin (first :: rest).length → Fin (first :: rest).length)
    {before : Fin (first :: rest).length → Fin (first :: rest).length → Prop}
    (hstep : ∀ i j, step ((first :: rest).get i) ((first :: rest).get j) =
      (first :: rest).get (choose i j))
    (hchoose : ∀ i j, i < j → IsFirst before (choose i j) [i, j])
    (htrans : ∀ {i j k}, before i j → before j k → before i k) :
    ∃ i, IsFirst before i (List.finRange (first :: rest).length) ∧
      rest.foldl step first = (first :: rest).get i := by
  have hplaces : List.finRange (first :: rest).length =
      0 :: (List.finRange rest.length).map Fin.succ :=
    List.finRange_succ
  have hrest : ((List.finRange rest.length).map Fin.succ).map (first :: rest).get = rest := by
    rw [List.map_map]
    exact List.map_get_finRange rest
  generalize (List.finRange rest.length).map Fin.succ = places at hplaces hrest
  refine ⟨places.foldl choose 0, ?_, ?_⟩
  · have hearlier := List.pairwise_lt_finRange (first :: rest).length
    rw [hplaces] at hearlier ⊢
    exact isFirst_foldl hchoose htrans hearlier
  · calc rest.foldl step first = (places.map (first :: rest).get).foldl step first := by rw [hrest]
      _ = places.foldl (fun best i => step best ((first :: rest).get i)) ((first :: rest).get 0) :=
        List.foldl_map
      _ = (first :: rest).get (places.foldl choose 0) := List.foldl_hom (first :: rest).get hstep

/-- The fold for the least item ends with that of the first place. -/
theorem exists_least (hne : items ≠ []) :
    ∃ i, IsFirst (Precedes false items.get) i (List.finRange items.length) ∧
      least items = items.get i := by
  obtain ⟨first, rest, rfl⟩ := List.exists_cons_of_ne_nil hne
  refine exists_isFirst (fun i j =>
    if ((first :: rest).get j).sortCompare ((first :: rest).get i) == .lt then j else i)
    (fun i j => ?_) (fun i j hlt => ?_) Precedes.trans
  · split <;> rfl
  · split
    · rename_i hless
      exact isFirst_pair_swap (.inl (beq_iff_eq.1 hless))
    · rename_i hless
      exact isFirst_pair (precedes_of_lt hlt fun h => hless (beq_iff_eq.2 h))

/-- The fold for the greatest item ends with that of the last place. -/
theorem exists_greatest (hne : items ≠ []) :
    ∃ i, IsFirst (fun i j => Precedes false items.get j i) i (List.finRange items.length) ∧
      greatest items = items.get i := by
  obtain ⟨first, rest, rfl⟩ := List.exists_cons_of_ne_nil hne
  refine exists_isFirst (fun i j =>
    if ((first :: rest).get j).sortCompare ((first :: rest).get i) == .lt then i else j)
    (fun i j => ?_) (fun i j hlt => ?_) fun hij hjk => hjk.trans hij
  · split <;> rfl
  · split
    · rename_i hless
      exact isFirst_pair (.inl (beq_iff_eq.1 hless))
    · rename_i hless
      exact isFirst_pair_swap (precedes_of_lt hlt fun h => hless (beq_iff_eq.2 h))

end Aggregates

/-! ## Sorted items -/

namespace Collections

variable {items : List Value} {program : Program} {key : Value → Value} {descending : Bool}

/-- Items with their keys are sorted by their places. -/
theorem sortBy_eq (descending : Bool) (key : Value → Value) (items : List Value) :
    sortBy descending ((items.map key).zip items) =
      (sortedPlaces descending fun i => key (items.get i)).map items.get := by
  have hkeyed : (items.map key).zip items =
      (List.finRange items.length).map fun i => (key (items.get i), items.get i) := by
    conv => lhs; rw [← List.map_get_finRange items]
    rw [List.map_map, List.zip_map']
    rfl
  rw [sortBy, hkeyed, ← List.map_mergeSort, List.map_map]
  · rfl
  · intro i _ j _
    cases descending <;> rfl

theorem sort_some (hkeys : ∀ item ∈ items, program item = .ok (key item)) :
    sort (some program) descending items =
      .ok (.arr ((sortedPlaces descending fun i => key (items.get i)).map items.get)) := by
  have hmapped : items.mapM program = .ok (items.map key) := by
    have h := mapM_map_ok (f := id) hkeys
    rwa [List.map_id] at h
  rw [← sortBy_eq]
  exact bind_ok hmapped rfl

theorem sort_none :
    sort none false items = .ok (.arr ((sortedPlaces false items.get).map items.get)) := by
  have h := sortBy_eq false id items
  rw [List.map_id] at h
  exact congrArg (fun sorted => Except.ok (Value.arr sorted)) h

end Collections

/-! ## Calls of the library -/

/-- The query compiles with the functions of the library, and it has this value on the document. -/
def Evaluates (limit budget : Nat) (query : Query) (data value : Value) : Prop :=
  ∃ program, compileWithin Library.builtin limit budget query = .ok program ∧
    program data = .ok value

/-- The arguments of a call of `sort`, the keys of the items of an array, and whether the sort goes
down.  Without arguments every item is its own key. -/
inductive SortArguments (limit budget : Nat) (items : List Value) :
    List Query → (Value → Value) → Bool → Prop
  | items : SortArguments limit budget items [] id false
  | key {query : Query} {program : Program} {key : Value → Value}
      (hprogram : compileWithin Library.builtin limit budget query = .ok program)
      (hkeys : ∀ item ∈ items, program item = .ok (key item)) :
      SortArguments limit budget items [query] key false
  | directed {query : Query} {program : Program} {key : Value → Value}
      (hprogram : compileWithin Library.builtin limit budget query = .ok program)
      (hkeys : ∀ item ∈ items, program item = .ok (key item)) (descending : Bool) :
      SortArguments limit budget items
        [query, .literal (.str (if descending then "desc" else "asc"))] key descending

section Calls

open Aggregates (least greatest exists_least exists_greatest)

variable {limit budget : Nat} {items : List Value} {args : List Query} {key : Value → Value}
  {descending : Bool}

theorem evaluates_sort (h : SortArguments limit budget items args key descending) :
    Evaluates limit (budget + 1) (.call "sort" args) (.arr items)
      (.arr ((sortedPlaces descending fun i => key (items.get i)).map items.get)) := by
  cases h with
  | items => exact ⟨_, compileWithin_call rfl rfl, Collections.sort_none⟩
  | @key _ program _ hprogram hkeys =>
      refine ⟨onArray (Collections.sort (some program) false), compileWithin_call rfl ?_,
        Collections.sort_some hkeys⟩
      exact bind_ok rfl (bind_ok (mapM_some_ok hprogram) rfl)
  | @directed _ program _ hprogram hkeys descending =>
      refine ⟨onArray (Collections.sort (some program) descending), compileWithin_call rfl ?_,
        Collections.sort_some hkeys⟩
      refine bind_ok rfl (bind_ok (mapM_some_ok hprogram) ?_)
      cases descending <;> rfl

theorem evaluates_least : Evaluates limit (budget + 1) (.call "min" []) (.arr items)
    (least items) :=
  ⟨_, compileWithin_call rfl rfl, rfl⟩

theorem evaluates_greatest : Evaluates limit (budget + 1) (.call "max" []) (.arr items)
    (greatest items) :=
  ⟨_, compileWithin_call rfl rfl, rfl⟩

theorem less_eq_false_of_not_lt {a b : Value} (h : Value.sortCompare a b ≠ .lt) :
    Logic.less a b = false := by
  rw [Logic.less, beq_eq_false_iff_ne]
  exact fun hcompare => h (Value.sortCompare_of_compareSameType hcompare)

/-- `sort` puts the places of the items in order, by their keys up or down and places of equal keys
as they are, which names the order.  Without a key no later item is less than an earlier one, and
`min` and `max` are the first and the last item. -/
theorem sort_min_max (h : SortArguments limit budget items args key descending) :
    ∃ order : List (Fin items.length),
      Evaluates limit (budget + 1) (.call "sort" args) (.arr items) (.arr (order.map items.get)) ∧
        order.Perm (List.finRange items.length) ∧
        order.Pairwise (Precedes descending fun i => key (items.get i)) ∧
        (args = [] →
          (order.map items.get).Pairwise (fun a b => Library.answer? "lt" b a = some false) ∧
          (items ≠ [] → ∃ first last, (order.map items.get).head? = some first ∧
            (order.map items.get).getLast? = some last ∧
              Evaluates limit (budget + 1) (.call "min" []) (.arr items) first ∧
                Evaluates limit (budget + 1) (.call "max" []) (.arr items) last)) := by
  have hperm := perm_sortedPlaces descending fun i => key (items.get i)
  have hsorted := pairwise_sortedPlaces descending fun i => key (items.get i)
  refine ⟨_, evaluates_sort h, hperm, hsorted, ?_⟩
  rintro rfl
  cases h
  refine ⟨List.pairwise_map.2 (hsorted.imp fun hprecedes => ?_), fun hne => ?_⟩
  · exact congrArg some (less_eq_false_of_not_lt hprecedes.not_lt)
  · have hplaces : sortedPlaces false items.get ≠ [] := by
      intro hnil
      have hlength := hperm.length_eq
      rw [List.length_finRange] at hlength
      exact hne (List.eq_nil_of_length_eq_zero (hlength.symm.trans (congrArg List.length hnil)))
    obtain ⟨i, hhead, hi⟩ := exists_head? hplaces hsorted
    obtain ⟨j, hlast, hj⟩ := exists_getLast? hplaces hsorted
    obtain ⟨i', hi', hleast⟩ := exists_least hne
    obtain ⟨j', hj', hgreatest⟩ := exists_greatest hne
    obtain rfl := hi'.unique (hi.perm hperm) (fun _ _ _ => .trans) fun _ => Precedes.irrefl
    obtain rfl := hj'.unique (hj.perm hperm) (fun _ _ _ h h' => h'.trans h) fun _ => Precedes.irrefl
    refine ⟨least items, greatest items, ?_, ?_, evaluates_least, evaluates_greatest⟩
    · rw [List.head?_map]
      exact (congrArg (Option.map items.get) hhead).trans (congrArg some hleast.symm)
    · rw [List.getLast?_map]
      exact (congrArg (Option.map items.get) hlast).trans (congrArg some hgreatest.symm)

/-- Rows with the keys 1 and 1.0, sorted downwards by the key, and the two numbers by themselves. -/
theorem sort_min_max_ties :
    let row (key : Value) (name : String) : Value := .arr [key, .str name]
    let rows := [row (.int 1) "a", row (.float 1) "b", row (.int 2) "c"]
    let key : Value → Value
      | .arr (key :: _) => key
      | _ => .null
    let numbers : List Value := [.int 2, .float 1, .int 1]
    let query := Query.call "get" [.literal (.int 0)]
    SortArguments 2 1 rows [query, .literal (.str "desc")] key true ∧
      (∃ order : List (Fin 3),
        Evaluates 2 2 (.call "sort" [query, .literal (.str "desc")]) (.arr rows)
          (.arr (order.map rows.get)) ∧
          order.Perm [0, 1, 2] ∧ order.Pairwise (Precedes true fun i => key (rows.get i))) ∧
        SortArguments 1 0 numbers [] id false ∧
          ∃ sorted first last, Evaluates 1 1 (.call "sort" []) (.arr numbers) (.arr sorted) ∧
            sorted.head? = some first ∧ sorted.getLast? = some last ∧
              Evaluates 1 1 (.call "min" []) (.arr numbers) first ∧
                Evaluates 1 1 (.call "max" []) (.arr numbers) last := by
  intro row rows key numbers query
  obtain ⟨program, hprogram⟩ :
      ∃ program, compileWithin Library.builtin 2 1 query = .ok program := ⟨_, rfl⟩
  have hkeys : ∀ item ∈ rows, program item = .ok (key item) := by
    simp only [rows, List.forall_mem_cons, ← Except.ok.inj hprogram]
    exact ⟨rfl, rfl, rfl, List.forall_mem_nil _⟩
  have hrows : SortArguments 2 1 rows [query, .literal (.str "desc")] key true :=
    .directed hprogram hkeys true
  have hnumbers : SortArguments 1 0 numbers [] id false := .items
  obtain ⟨order, hsort, hperm, hsorted, _⟩ := sort_min_max hrows
  obtain ⟨_, hplain, _, _, hextremes⟩ := sort_min_max hnumbers
  obtain ⟨first, last, hhead, hlast, hleast, hgreatest⟩ :=
    (hextremes rfl).2 (List.cons_ne_nil _ _)
  exact ⟨hrows, ⟨order, hsort, hperm, hsorted⟩, hnumbers, _, first, last, hplain, hhead, hlast,
    hleast, hgreatest⟩

end Calls

end PipeQuery
