/-
Items by the texts of their keys.

Groups and first items are gathered by one fold, which differs in what becomes of the entry at a
key.  Its keys are those of the items in order of first appearance, and what stands at a key depends
on the items of that key alone; so the groups take the items apart, and the first items are the
first of the groups.
-/
import PipeQuery.Proofs.Sorting

namespace PipeQuery

/-! ## Gathering pairs -/

namespace Entries

variable {α β : Type} {change : Option α → β → α}

/-- Pairs taken up one after the other: what stands at the key of a pair changes with its value. -/
def gather (change : Option α → β → α) (pairs : List (String × β)) : Entries α :=
  pairs.foldl (fun entries pair => update pair.1 (fun old => change old pair.2) entries) []

theorem gather_concat (pairs : List (String × β)) (pair : String × β) :
    gather change (pairs ++ [pair]) =
      update pair.1 (fun old => change old pair.2) (gather change pairs) := by
  rw [gather, List.foldl_append]
  rfl

theorem keys_gather (change : Option α → β → α) (pairs : List (String × β)) :
    keys (gather change pairs) = (pairs.map (·.1)).eraseDups := by
  induction pairs using List.reverseRecOn with
  | nil => rfl
  | append_singleton pairs pair ih =>
      rw [gather_concat, keys_update, ih, List.map_append, List.map_singleton,
        List.eraseDups_append]
      by_cases hmem : pair.1 ∈ pairs.map (·.1)
      · rw [if_pos (List.mem_eraseDups.2 hmem)]
        simp [List.removeAll, hmem]
      · rw [if_neg fun h => hmem (List.mem_eraseDups.1 h)]
        simp [List.removeAll, hmem, List.eraseDups_cons]

theorem distinct_gather (change : Option α → β → α) (pairs : List (String × β)) :
    Distinct (gather change pairs) := by
  induction pairs using List.reverseRecOn with
  | nil => exact List.nodup_nil
  | append_singleton pairs pair ih =>
      rw [gather_concat]
      exact ih.update _ _

/-- What stands at a key depends on the values of that key, in their order. -/
theorem lookup_gather (outcome : List β → Option α) (hnil : outcome [] = none)
    (hconcat : ∀ values value,
      outcome (values ++ [value]) = some (change (outcome values) value))
    (pairs : List (String × β)) (key : String) :
    (gather change pairs).lookup key =
      outcome ((pairs.filter fun pair => pair.1 == key).map (·.2)) := by
  induction pairs using List.reverseRecOn with
  | nil => exact hnil.symm
  | append_singleton pairs pair ih =>
      rw [gather_concat, List.filter_append]
      by_cases hkey : pair.1 = key
      · subst hkey
        rw [lookup_update_self, ih]
        simp [hconcat]
      · rw [lookup_update_ne (Ne.symm hkey), ih]
        simp [hkey]

/-- Distinct keys find the values in their order. -/
theorem map_lookup_keys {entries : Entries α} (h : Distinct entries) :
    entries.keys.map (fun key => entries.lookup key) = entries.values.map some := by
  rw [keys, values, List.map_map, List.map_map]
  exact List.map_congr_left fun entry hentry => lookup_of_mem h hentry

end Entries

/-! ## Groups and their first items -/

namespace Collections

open Entries (gather keys_gather distinct_gather lookup_gather map_lookup_keys)

theorem groups_eq_gather (pairs : List (String × Value)) :
    groups pairs = gather (fun old item => old.getD [] ++ [item]) pairs :=
  rfl

theorem firsts_eq_gather (pairs : List (String × Value)) :
    firsts pairs = gather (fun old item => old.getD item) pairs :=
  rfl

theorem distinct_groups (pairs : List (String × Value)) : (groups pairs).Distinct := by
  rw [groups_eq_gather]
  exact distinct_gather _ pairs

theorem distinct_firsts (pairs : List (String × Value)) : (firsts pairs).Distinct := by
  rw [firsts_eq_gather]
  exact distinct_gather _ pairs

variable {text : Value → String} {items : List Value}

/-- The items with the texts of their keys. -/
def labelled (text : Value → String) (items : List Value) : List (String × Value) :=
  items.map fun item => (text item, item)

/-- The items with a key. -/
def withKey (text : Value → String) (items : List Value) (key : String) : List Value :=
  items.filter fun item => text item == key

theorem filter_labelled (key : String) :
    ((labelled text items).filter fun pair => pair.1 == key).map (·.2) =
      withKey text items key := by
  rw [labelled, List.filter_map, List.map_map, withKey]
  exact List.map_id _

theorem lookup_groups (key : String) :
    (groups (labelled text items)).lookup key =
      if (withKey text items key).isEmpty then none else some (withKey text items key) := by
  rw [groups_eq_gather, ← filter_labelled]
  refine lookup_gather (fun values => if values.isEmpty then none else some values) rfl ?_ _ key
  intro values value
  cases values <;> rfl

theorem lookup_firsts (key : String) :
    (firsts (labelled text items)).lookup key =
      (withKey text items key).head? := by
  rw [firsts_eq_gather, ← filter_labelled]
  refine lookup_gather List.head? rfl ?_ _ key
  intro values value
  cases values <;> rfl

theorem keys_labelled : (labelled text items).map (·.1) = items.map text := by
  rw [labelled, List.map_map]
  rfl

theorem keys_groups :
    (groups (labelled text items)).keys = (items.map text).eraseDups := by
  rw [groups_eq_gather, keys_gather, keys_labelled]

theorem keys_firsts :
    (firsts (labelled text items)).keys = (items.map text).eraseDups := by
  rw [firsts_eq_gather, keys_gather, keys_labelled]

theorem eq_withKey_of_mem_groups {key : String} {members : List Value}
    (h : (key, members) ∈ groups (labelled text items)) :
    members = withKey text items key := by
  have hlookup := Entries.lookup_of_mem (distinct_groups _) h
  rw [lookup_groups] at hlookup
  split at hlookup
  · cases hlookup
  · exact (Option.some.inj hlookup).symm

/-- The first items are those of the groups, group by group. -/
theorem heads_groups :
    (groups (labelled text items)).values.map List.head? =
      (firsts (labelled text items)).values.map some := by
  have hgroups := map_lookup_keys (distinct_groups (labelled text items))
  have hfirsts := map_lookup_keys (distinct_firsts (labelled text items))
  rw [keys_groups] at hgroups
  rw [keys_firsts] at hfirsts
  calc (groups (labelled text items)).values.map List.head?
      = ((groups (labelled text items)).values.map some).map
          (·.bind List.head?) := by
        rw [List.map_map]
        rfl
    _ = (items.map text).eraseDups.map fun key => (withKey text items key).head? := by
        rw [← hgroups, List.map_map]
        refine List.map_congr_left fun key _ => ?_
        rw [Function.comp_apply, lookup_groups]
        cases withKey text items key <;> rfl
    _ = (firsts (labelled text items)).values.map some := by
        rw [← hfirsts]
        exact List.map_congr_left fun key _ => (lookup_firsts key).symm

/-- Distinct keys, among which are those of all items, take the items apart. -/
theorem perm_flatMap_withKey {keys : List String} (hnodup : keys.Nodup)
    (hmem : ∀ item ∈ items, text item ∈ keys) :
    (keys.flatMap (withKey text items)).Perm items := by
  induction keys generalizing items with
  | nil =>
      obtain rfl : items = [] := List.eq_nil_iff_forall_not_mem.2 fun item hitem =>
        List.not_mem_nil (hmem item hitem)
      exact List.Perm.refl []
  | cons key keys ih =>
      rw [List.nodup_cons] at hnodup
      let others := items.filter fun item => !(text item == key)
      have hothers : (keys.flatMap (withKey text others)).Perm others := by
        refine ih hnodup.2 fun item hitem => ?_
        simp only [others, List.mem_filter, Bool.not_eq_true', beq_eq_false_iff_ne] at hitem
        exact (List.mem_cons.1 (hmem item hitem.1)).resolve_left hitem.2
      have hsame : keys.flatMap (withKey text items) = keys.flatMap (withKey text others) := by
        refine List.flatMap_congr fun other hother => ?_
        have hne : other ≠ key := fun heq => hnodup.1 (heq ▸ hother)
        rw [withKey, withKey, List.filter_filter]
        refine List.filter_congr fun item _ => ?_
        by_cases heq : text item = other
        · simp [heq, hne]
        · simp [heq]
      rw [List.flatMap_cons, hsame]
      exact (hothers.append_left _).trans (List.filter_append_perm _ items)

theorem perm_groups : (groups (labelled text items)).values.flatten.Perm items := by
  have hvalues : (groups (labelled text items)).values =
      (items.map text).eraseDups.map (withKey text items) := by
    rw [← keys_groups, Entries.values, Entries.keys, List.map_map]
    exact List.map_congr_left fun entry hentry => eq_withKey_of_mem_groups hentry
  rw [hvalues, ← List.flatMap_def]
  refine perm_flatMap_withKey ?_ fun item hitem => ?_
  · rw [← keys_groups]
    exact distinct_groups _
  · exact List.mem_eraseDups.2 (List.mem_map_of_mem hitem)

end Collections

/-! ## Calls of the library -/

/-- The query compiles with the functions of the library, and it ends with this fault on the
document. -/
def Fails (limit budget : Nat) (query : Query) (data : Value) (fault : RuntimeFault) : Prop :=
  ∃ program, compileWithin Library.builtin limit budget query = .ok program ∧
    program data = .error fault

section Calls

open Collections (keyed labelled groups firsts)

variable {limit budget : Nat} {query : Query} {getter : Program} {items : List Value}
  {key : Value → Value} {fault : RuntimeFault} {data value : Value}

theorem keyed_ok (hkeys : ∀ item ∈ items, getter item = .ok (key item)) :
    keyed getter items = .ok (labelled (fun item => (key item).asText) items) := by
  have hpairs := mapM_map_ok (f := id)
    (g := fun item => do return ((← getter item).asText, item))
    fun item hitem => bind_ok (hkeys item hitem) rfl
  rwa [List.map_id] at hpairs

/-- The first item without a key ends the evaluation of the keys. -/
theorem keyed_error {before after : List Value} {item : Value}
    (hbefore : ∀ earlier ∈ before, ∃ value, getter earlier = .ok value)
    (hitem : getter item = .error fault) :
    keyed getter (before ++ item :: after) = .error fault := by
  induction before with
  | nil =>
      rw [keyed, List.nil_append, List.mapM_cons, hitem]
      rfl
  | cons earlier before ih =>
      obtain ⟨value, hvalue⟩ := hbefore earlier List.mem_cons_self
      have hrest := ih fun earlier hearlier => hbefore earlier (List.mem_cons_of_mem _ hearlier)
      rw [keyed] at hrest ⊢
      rw [List.cons_append, List.mapM_cons, hvalue, hrest]
      rfl

theorem error_bind {α β : Type} {x : Except RuntimeFault α} {f : α → Except RuntimeFault β}
    (hx : x = .error fault) : x >>= f = .error fault := by
  rw [hx]
  rfl

theorem compileWithin_overQuery {name : String} {program : Program → Program}
    (hgetter : compileWithin Library.builtin limit budget query = .ok getter)
    (hlookup : Library.builtin.lookup name = some (.overQuery name program)) :
    compileWithin Library.builtin limit (budget + 1) (.call name [query]) =
      .ok (program getter) :=
  compileWithin_call hlookup (bind_ok hgetter rfl)

/-- `groupBy`, `keyBy` and `uniqBy` describe one partition of the items, by the texts of their keys.
The groups have the distinct keys in order of first appearance, the members of a group are the items
of its key in their order, and no item is lost or stands in two groups; `keyBy` has the same keys in
the same order with the first member of each group, and `uniqBy` gives these without the keys.
Where the key of an item fails, and the keys of those before it do not, all three end with its
fault. -/
theorem partition_by_key
    (hgetter : compileWithin Library.builtin limit budget query = .ok getter) :
    (∀ {items : List Value} {key : Value → Value},
        (∀ item ∈ items, getter item = .ok (key item)) →
      ∃ (groups : Entries (List Value)) (firsts : Entries Value),
        groups.keys = (items.map fun item => (key item).asText).eraseDups ∧
          (∀ group ∈ groups, group.2 = items.filter fun item => (key item).asText == group.1) ∧
          groups.values.flatten.Perm items ∧
          firsts.keys = groups.keys ∧ firsts.values.map some = groups.values.map List.head? ∧
          Evaluates limit (budget + 1) (.call "groupBy" [query]) (.arr items)
            (.obj (groups.map fun group => (group.1, .arr group.2))) ∧
          Evaluates limit (budget + 1) (.call "keyBy" [query]) (.arr items) (.obj firsts) ∧
          Evaluates limit (budget + 1) (.call "uniqBy" [query]) (.arr items)
            (.arr firsts.values)) ∧
      ∀ {before item after fault}, (∀ earlier ∈ before, ∃ value, getter earlier = .ok value) →
        getter item = .error fault →
          ∀ name ∈ ["groupBy", "keyBy", "uniqBy"],
            Fails limit (budget + 1) (.call name [query]) (.arr (before ++ item :: after))
              fault := by
  have hgroupBy := compileWithin_overQuery hgetter
    (show Library.builtin.lookup "groupBy" = some (.overQuery "groupBy" _) from rfl)
  have hkeyBy := compileWithin_overQuery hgetter
    (show Library.builtin.lookup "keyBy" = some (.overQuery "keyBy" _) from rfl)
  have huniqBy := compileWithin_overQuery hgetter
    (show Library.builtin.lookup "uniqBy" = some (.overQuery "uniqBy" _) from rfl)
  refine ⟨fun {items key} hkeys => ?_, fun {before item after fault} hbefore hitem => ?_⟩
  · have hkeyed := keyed_ok hkeys
    refine ⟨groups (labelled (fun item => (key item).asText) items),
      firsts (labelled (fun item => (key item).asText) items), Collections.keys_groups,
      fun group hgroup => Collections.eq_withKey_of_mem_groups hgroup, Collections.perm_groups,
      Collections.keys_firsts.trans Collections.keys_groups.symm,
      Collections.heads_groups.symm, ⟨_, hgroupBy, ?_⟩, ⟨_, hkeyBy, ?_⟩, ⟨_, huniqBy, ?_⟩⟩
    · exact bind_ok hkeyed rfl
    · exact bind_ok hkeyed rfl
    · exact bind_ok hkeyed rfl
  · have hkeyed : keyed getter (before ++ item :: after) = .error fault := keyed_error hbefore hitem
    intro name hname
    simp only [List.mem_cons, List.not_mem_nil, or_false] at hname
    rcases hname with rfl | rfl | rfl
    · exact ⟨_, hgroupBy, error_bind hkeyed⟩
    · exact ⟨_, hkeyBy, error_bind hkeyed⟩
    · exact ⟨_, huniqBy, error_bind hkeyed⟩

/-- Arrays by their reverses, of which the first and the last have one key, and an array with an
item that cannot be reversed. -/
theorem partition_by_key_reverse :
    let query := Query.call "reverse" []
    let items : List Value := [.arr [], .arr [.null], .arr []]
    (∃ (groups : Entries (List Value)) (firsts : Entries Value),
      groups.keys = ["[]", "[null]"] ∧ groups.values.flatten.Perm items ∧
        firsts.keys = groups.keys ∧ firsts.values.map some = groups.values.map List.head? ∧
        Evaluates 2 2 (.call "groupBy" [query]) (.arr items)
          (.obj (groups.map fun group => (group.1, .arr group.2))) ∧
        Evaluates 2 2 (.call "keyBy" [query]) (.arr items) (.obj firsts) ∧
        Evaluates 2 2 (.call "uniqBy" [query]) (.arr items) (.arr firsts.values)) ∧
      Fails 2 2 (.call "groupBy" [query]) (.arr [.arr [], .null, .bool true]) .arrayExpected := by
  intro query items
  obtain ⟨getter, hgetter⟩ :
      ∃ getter, compileWithin Library.builtin 2 1 query = .ok getter := ⟨_, rfl⟩
  obtain rfl := Except.ok.inj hgetter
  obtain ⟨hpartition, hfault⟩ := partition_by_key hgetter
  refine ⟨?_, ?_⟩
  · obtain ⟨groups, firsts, hkeys, _, hperm, hfirsts, hheads, hgroupBy, hkeyBy, huniqBy⟩ :=
      @hpartition items (fun item => item) (by simp [items, onArray])
    refine ⟨groups, firsts, hkeys.trans ?_, hperm, hfirsts, hheads, hgroupBy, hkeyBy, huniqBy⟩
    decide +kernel
  · refine @hfault [.arr []] .null [.bool true] .arrayExpected ?_ rfl "groupBy" (by simp)
    simp [onArray]

end Calls

end PipeQuery
