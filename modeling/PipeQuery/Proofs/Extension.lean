/-
What adding operators does to a table.

One operator joins the groups that have its anchor, or stands in a group of its own next to the
first of them.  Groups are never dropped nor moved; within a group a function has one symbol, and
joining under its name gives it another.
-/
import PipeQuery.Operators

namespace PipeQuery

variable {table table' between : OperatorTable} {operator : Operator}
  {operators earlier later : List Operator} {group : OperatorGroup} {entry : String × String}

/-! ### One operator and one group -/

namespace Operator

/-- What the operator lists in a group. -/
def listing (operator : Operator) : String × String :=
  (operator.name, operator.symbol)

/-- Whether the operator goes into the group. -/
def joins (operator : Operator) (group : OperatorGroup) : Bool :=
  match operator.placement with
  | .joining anchor => OperatorTable.hasSymbol anchor group
  | .before _ | .after _ => false

/-- The group once the operator is added. -/
def joinInto (operator : Operator) (group : OperatorGroup) : OperatorGroup :=
  if operator.joins group then Entries.insert operator.name operator.symbol group else group

/-- The operator goes into the group and gives the function of the entry another symbol. -/
structure Replaces (operator : Operator) (group : OperatorGroup) (entry : String × String) :
    Prop where
  joins : operator.joins group = true
  name : operator.name = entry.1
  symbol : operator.symbol ≠ entry.2

theorem listing_mem_joinInto (h : operator.joins group = true) :
    operator.listing ∈ operator.joinInto group := by
  rw [joinInto, if_pos h]
  exact Entries.mem_insert_self _ _ _

/-- A group gains at most what the operator lists. -/
theorem mem_of_mem_joinInto (h : entry ∈ operator.joinInto group) :
    entry ∈ group ∨ operator.joins group = true ∧ entry = operator.listing := by
  rw [joinInto] at h
  split at h
  · rename_i hjoins
    exact (Entries.mem_insert h).symm.imp_right fun heq => ⟨hjoins, heq⟩
  · exact .inl h

/-- A group loses at most the entry whose symbol the operator replaces. -/
theorem mem_joinInto_or_replaces (operator : Operator) (h : entry ∈ group) :
    entry ∈ operator.joinInto group ∨ operator.Replaces group entry := by
  by_cases hreplaces : operator.Replaces group entry
  · exact .inr hreplaces
  · left
    rw [joinInto]
    split
    · rename_i hjoins
      apply Entries.mem_insert_of_mem h
      intro hname
      by_cases hsymbol : operator.symbol = entry.2
      · exact hsymbol
      · exact absurd ⟨hjoins, hname, hsymbol⟩ hreplaces
    · exact h

end Operator

namespace OperatorTable

/-! ### One operator and the table -/

/-- The groups of a table before and after an operator is added. -/
inductive Added (operator : Operator) : List OperatorGroup → List OperatorGroup → Prop
  | joining {anchor : String} {groups : List OperatorGroup}
      (hplacement : operator.placement = .joining anchor)
      (hanchor : ∃ group ∈ groups, hasSymbol anchor group = true) :
      Added operator groups (groups.map operator.joinInto)
  | before {anchor : String} {left right : List OperatorGroup} {group : OperatorGroup}
      (hplacement : operator.placement = .before anchor) (hanchor : hasSymbol anchor group = true)
      (hfirst : ∀ other ∈ left, hasSymbol anchor other = false) :
      Added operator (left ++ group :: right) (left ++ [operator.listing] :: group :: right)
  | after {anchor : String} {left right : List OperatorGroup} {group : OperatorGroup}
      (hplacement : operator.placement = .after anchor) (hanchor : hasSymbol anchor group = true)
      (hfirst : ∀ other ∈ left, hasSymbol anchor other = false) :
      Added operator (left ++ group :: right) (left ++ group :: [operator.listing] :: right)

theorem exists_split_of_findIdx? {α : Type} {p : α → Bool} {xs : List α} {index : Nat}
    (h : xs.findIdx? p = some index) :
    ∃ left x right, xs = left ++ x :: right ∧ left.length = index ∧ p x = true ∧
      ∀ y ∈ left, p y = false := by
  obtain ⟨hlt, hp, hfirst⟩ := List.findIdx?_eq_some_iff_getElem.1 h
  refine ⟨xs.take index, xs[index], xs.drop (index + 1), ?_, ?_, hp, ?_⟩
  · rw [List.getElem_cons_drop, List.take_append_drop]
  · exact List.length_take_of_le (Nat.le_of_lt hlt)
  · intro y hy
    obtain ⟨j, hj, rfl⟩ := List.mem_take_iff_getElem.1 hy
    simpa using hfirst j (by omega)

theorem insertIdx_append {α : Type} (left right : List α) (x : α) (n : Nat) :
    (left ++ right).insertIdx (left.length + n) x = left ++ right.insertIdx n x := by
  induction left with
  | nil => simp
  | cons y left ih =>
      rw [List.cons_append, List.length_cons, Nat.add_right_comm, List.insertIdx_succ_cons, ih,
        List.cons_append]

/-- All that adding an operator can do. -/
theorem add_cases (h : table.add operator = .ok table') :
    Added operator table.groups table'.groups ∧
      table'.vararg = (if operator.vararg then operator.name :: table.vararg else table.vararg) ∧
      table'.leftAssociative =
        (if operator.leftAssociative then operator.name :: table.leftAssociative
        else table.leftAssociative) := by
  unfold add at h
  simp only at h
  split at h
  · simp at h
  · rename_i index hindex
    obtain ⟨left, group, right, hgroups, rfl, hanchor, hfirst⟩ := exists_split_of_findIdx? hindex
    rw [Except.ok.injEq] at h
    subst h
    refine ⟨?_, rfl, rfl⟩
    cases hplacement : operator.placement with
    | joining anchor =>
        rw [hplacement] at hanchor
        have hjoin : operator.joinInto = fun group => if hasSymbol anchor group then
            Entries.insert operator.name operator.symbol group else group := by
          funext group
          simp [Operator.joinInto, Operator.joins, hplacement]
        have hadded : Added operator table.groups (table.groups.map operator.joinInto) :=
          .joining hplacement ⟨group, by simp [hgroups], hanchor⟩
        rw [hjoin] at hadded
        exact hadded
    | before anchor =>
        rw [hplacement] at hanchor hfirst
        have hinsert := insertIdx_append left (group :: right) [operator.listing] 0
        simp only [hgroups]
        rw [Nat.add_zero, List.insertIdx_zero] at hinsert
        rw [Operator.listing] at hinsert
        rw [hinsert]
        exact .before hplacement hanchor hfirst
    | after anchor =>
        rw [hplacement] at hanchor hfirst
        have hinsert := insertIdx_append left (group :: right) [operator.listing] 1
        simp only [hgroups]
        rw [List.insertIdx_succ_cons, List.insertIdx_zero] at hinsert
        rw [Operator.listing] at hinsert
        rw [hinsert]
        exact .after hplacement hanchor hfirst

theorem extend_nil : table.extend [] = .ok table := rfl

/-- Operators can be added in two parts. -/
theorem extend_append_iff : table.extend (earlier ++ later) = .ok table' ↔
    ∃ between, table.extend earlier = .ok between ∧ between.extend later = .ok table' := by
  unfold extend
  rw [List.foldlM_append]
  cases earlier.foldlM add table with
  | error fault => simp [bind, Except.bind]
  | ok between => simp [bind, Except.bind]

/-- Adding operators starts with the first. -/
theorem exists_add_of_extend_cons (h : table.extend (operator :: operators) = .ok table') :
    ∃ between, table.add operator = .ok between ∧ between.extend operators = .ok table' := by
  rw [← List.singleton_append] at h
  obtain ⟨between, hadd, h⟩ := extend_append_iff.1 h
  exact ⟨between, by simpa [extend] using hadd, h⟩

/-- What one added operator keeps, all of them keep. -/
theorem extend_induction (kept : OperatorTable → Prop) (h : table.extend operators = .ok table')
    (htable : kept table)
    (hadd : ∀ operator ∈ operators, ∀ {before after : OperatorTable},
      before.add operator = .ok after → kept before → kept after) : kept table' := by
  induction operators generalizing table with
  | nil =>
      obtain rfl : table = table' := by simpa [extend_nil] using h
      exact htable
  | cons operator operators ih =>
      obtain ⟨between, hbetween, h⟩ := exists_add_of_extend_cons h
      exact ih h (hadd operator List.mem_cons_self hbetween htable)
        fun operator hmem => hadd operator (List.mem_cons_of_mem _ hmem)

/-! ### Entries -/

/-- The entry is in some group of the table. -/
def HasEntry (table : OperatorTable) (entry : String × String) : Prop :=
  ∃ group ∈ table.groups, entry ∈ group

/-- A function that no group names has no entry. -/
theorem ne_of_precedence?_eq_none {name : String} (h : table.precedence? name = none)
    (hentry : table.HasEntry entry) : entry.1 ≠ name := by
  obtain ⟨group, hgroup, hmem⟩ := hentry
  intro heq
  have hcontains : Entries.contains name group = true :=
    List.any_eq_true.2 ⟨entry, hmem, by simp [heq]⟩
  rw [precedence?, List.findIdx?_eq_none_iff] at h
  rw [h group hgroup] at hcontains
  cases hcontains

/-- A group of the new table is one of the old table's, or the operator's own. -/
theorem Added.mem_cases {groups groups' : List OperatorGroup} (h : Added operator groups groups')
    (hgroup : group ∈ groups') :
    (∃ group' ∈ groups, group = group' ∨ group = operator.joinInto group') ∨
      group = [operator.listing] := by
  cases h with
  | joining =>
      obtain ⟨group', hgroup', rfl⟩ := List.mem_map.1 hgroup
      exact .inl ⟨group', hgroup', .inr rfl⟩
  | before | after =>
      simp only [List.mem_append, List.mem_cons] at hgroup ⊢
      grind

/-- An operator that is added brings its own entry and no other. -/
theorem hasEntry_of_add (h : table.add operator = .ok table') (hentry : table'.HasEntry entry) :
    table.HasEntry entry ∨ entry = (operator.name, operator.symbol) := by
  obtain ⟨group, hgroup, hmem⟩ := hentry
  rcases (add_cases h).1.mem_cases hgroup with ⟨group', hgroup', rfl | rfl⟩ | rfl
  · exact .inl ⟨group, hgroup', hmem⟩
  · rcases Operator.mem_of_mem_joinInto hmem with hmem | ⟨_, heq⟩
    · exact .inl ⟨group', hgroup', hmem⟩
    · exact .inr heq
  · exact .inr (List.mem_singleton.1 hmem)

theorem hasEntry_of_extend (h : table.extend operators = .ok table')
    (hentry : table'.HasEntry entry) :
    table.HasEntry entry ∨
      ∃ operator ∈ operators, entry = (operator.name, operator.symbol) := by
  let added : Prop := ∃ operator ∈ operators, entry = (operator.name, operator.symbol)
  refine extend_induction (fun after => after.HasEntry entry → table.HasEntry entry ∨ added) h
    .inl ?_ hentry
  intro operator hmem before after hadd hkept hentry
  rcases hasEntry_of_add hadd hentry with hentry | heq
  · exact hkept hentry
  · exact .inr ⟨operator, hmem, heq⟩

theorem Added.ne_nil {groups groups' : List OperatorGroup} (h : Added operator groups groups') :
    groups' ≠ [] := by
  cases h with
  | joining _ hanchor =>
      obtain ⟨group, hgroup, _⟩ := hanchor
      simp [List.ne_nil_of_mem hgroup]
  | before | after => simp

/-- Operators are added beside groups that are there, so none are lost. -/
theorem groups_ne_nil_of_extend (h : table.extend operators = .ok table')
    (hne : table.groups ≠ []) : table'.groups ≠ [] := by
  apply extend_induction (fun table => table.groups ≠ []) h hne
  intro operator _ before after hadd _
  exact (add_cases hadd).1.ne_nil

/-! ### What stays -/

/-- The group once all the operators are added. -/
def grown (operators : List Operator) (group : OperatorGroup) : OperatorGroup :=
  operators.foldl (fun group operator => operator.joinInto group) group

theorem grown_cons : grown (operator :: operators) = grown operators ∘ operator.joinInto := rfl

/-- Adding an operator changes groups at most by joining them, and keeps their order. -/
theorem Added.sublist {groups groups' : List OperatorGroup} (h : Added operator groups groups') :
    (groups.map operator.joinInto).Sublist groups' := by
  have hjoin (hplacement : ∀ anchor, operator.placement ≠ .joining anchor) :
      operator.joinInto = id := by
    funext group
    have hjoins : operator.joins group = false := by
      unfold Operator.joins
      split
      · rename_i hjoining
        exact absurd hjoining (hplacement _)
      all_goals rfl
    simp [Operator.joinInto, hjoins]
  cases h with
  | joining => exact List.Sublist.refl _
  | before hplacement =>
      rw [hjoin (by simp [hplacement]), List.map_id]
      exact (List.Sublist.refl _).append (List.sublist_cons_self _ _)
  | after hplacement =>
      rw [hjoin (by simp [hplacement]), List.map_id]
      exact (List.Sublist.refl _).append ((List.sublist_cons_self _ _).cons_cons _)

/-- The groups stay, in their order, grown by the operators that join them. -/
theorem sublist_of_extend (h : table.extend operators = .ok table') :
    (table.groups.map (grown operators)).Sublist table'.groups := by
  induction operators generalizing table with
  | nil =>
      obtain rfl : table = table' := by simpa [extend_nil] using h
      exact (List.map_id' table.groups).symm ▸ List.Sublist.refl _
  | cons operator operators ih =>
      obtain ⟨between, hadd, h⟩ := exists_add_of_extend_cons h
      have hgrown := (add_cases hadd).1.sublist.map (grown operators)
      rw [List.map_map, ← grown_cons] at hgrown
      exact hgrown.trans (ih h)

/-- An entry stays in its group, up to the first operator that replaces its symbol there. -/
theorem mem_grown_or_replaces (operators : List Operator) (h : entry ∈ group) :
    entry ∈ grown operators group ∨
      ∃ earlier operator later, operators = earlier ++ operator :: later ∧
        entry ∈ grown earlier group ∧ operator.Replaces (grown earlier group) entry := by
  induction operators generalizing group with
  | nil => exact .inl h
  | cons operator operators ih =>
      rcases operator.mem_joinInto_or_replaces h with hjoin | hreplaces
      · rcases ih hjoin with hgrown | ⟨earlier, replacement, later, rfl, hmem, hreplaces⟩
        · exact .inl hgrown
        · exact .inr ⟨operator :: earlier, replacement, later, rfl, hmem, hreplaces⟩
      · exact .inr ⟨[], operator, operators, rfl, h, hreplaces⟩

/-- An added operator is listed at once. -/
theorem Added.exists_mem {groups groups' : List OperatorGroup} (h : Added operator groups groups') :
    ∃ group ∈ groups', operator.listing ∈ group := by
  cases h with
  | joining hplacement hanchor =>
      obtain ⟨group, hgroup, hsymbol⟩ := hanchor
      refine ⟨operator.joinInto group, List.mem_map_of_mem hgroup, ?_⟩
      apply Operator.listing_mem_joinInto
      rwa [Operator.joins, hplacement]
  | before | after => exact ⟨[operator.listing], by simp, List.mem_cons_self⟩

theorem exists_mem_of_extend_snoc (h : table.extend (earlier ++ [operator]) = .ok table') :
    ∃ group ∈ table'.groups, operator.listing ∈ group := by
  obtain ⟨between, _, h⟩ := extend_append_iff.1 h
  obtain ⟨added, hadd, h⟩ := exists_add_of_extend_cons h
  obtain rfl : added = table' := by simpa [extend_nil] using h
  exact (add_cases hadd).1.exists_mem

theorem grown_mem_of_extend (h : table.extend operators = .ok table')
    (hgroup : group ∈ table.groups) :
    grown operators group ∈ table'.groups :=
  (sublist_of_extend h).subset (List.mem_map_of_mem hgroup)

/-- An operator is listed in the end, unless a later one replaces its symbol where it is listed. -/
theorem hasEntry_or_replaces (h : table.extend (earlier ++ operator :: later) = .ok table') :
    table'.HasEntry operator.listing ∨
      ∃ middle replacement rest between, later = middle ++ replacement :: rest ∧
        table.extend (earlier ++ operator :: middle) = .ok between ∧
        ∃ group ∈ between.groups, operator.listing ∈ group ∧
          replacement.Replaces group operator.listing := by
  rw [List.append_cons] at h
  obtain ⟨added, hadded, hlater⟩ := extend_append_iff.1 h
  obtain ⟨group, hgroup, hlisted⟩ := exists_mem_of_extend_snoc hadded
  rcases mem_grown_or_replaces later hlisted with
    hgrown | ⟨middle, replacement, rest, rfl, hmem, hreplaces⟩
  · exact .inl ⟨_, grown_mem_of_extend hlater hgroup, hgrown⟩
  · obtain ⟨between, hmiddle, _⟩ := extend_append_iff.1 hlater
    refine .inr ⟨middle, replacement, rest, between, rfl, ?_, _,
      grown_mem_of_extend hmiddle hgroup, hmem, hreplaces⟩
    rw [List.append_cons]
    exact extend_append_iff.2 ⟨added, hadded, hmiddle⟩

/-- Operators of different functions are all listed. -/
theorem hasEntry_of_mem (h : table.extend operators = .ok table')
    (hdistinct : (operators.map (·.name)).Nodup) (hmem : operator ∈ operators) :
    table'.HasEntry operator.listing := by
  obtain ⟨earlier, later, rfl⟩ := List.append_of_mem hmem
  rcases hasEntry_or_replaces h with hentry | ⟨middle, replacement, rest, _, rfl, _, _, _, _, h⟩
  · exact hentry
  · rw [List.map_append, List.map_cons, List.nodup_append, List.nodup_cons] at hdistinct
    refine absurd ?_ hdistinct.2.1.1
    exact List.mem_map.2 ⟨replacement, by simp, h.name⟩

/-- Extending a table only adds, apart from new symbols for functions: every group stays, in order,
and every entry, of the table and of the operators, is listed there until an operator that joins
the group gives the function another symbol. -/
theorem extend_retains (h : table.extend operators = .ok table') :
    (table.groups.map (grown operators)).Sublist table'.groups ∧
    (∀ group ∈ table.groups, ∀ entry ∈ group,
      entry ∈ grown operators group ∨
        ∃ earlier replacement later, operators = earlier ++ replacement :: later ∧
          replacement.Replaces (grown earlier group) entry) ∧
    (∀ earlier operator later, operators = earlier ++ operator :: later →
      table'.HasEntry (operator.name, operator.symbol) ∨
        ∃ middle replacement rest between, later = middle ++ replacement :: rest ∧
          table.extend (earlier ++ operator :: middle) = .ok between ∧
          ∃ group ∈ between.groups, (operator.name, operator.symbol) ∈ group ∧
            replacement.Replaces group (operator.name, operator.symbol)) := by
  refine ⟨sublist_of_extend h, ?_, ?_⟩
  · intro group _ entry hentry
    rcases mem_grown_or_replaces operators hentry with
      hgrown | ⟨earlier, operator, later, hsplit, _, h⟩
    · exact .inl hgrown
    · exact .inr ⟨earlier, operator, later, hsplit, h⟩
  · rintro earlier operator later rfl
    exact hasEntry_or_replaces h

/-- A group of its own and a new member of the additive group: no symbol is replaced. -/
theorem extend_retains_negate :
    let operators : List Operator :=
      [{ name := "negate", symbol := "~", placement := .before "^" },
        { name := "join", symbol := "++", placement := .joining "-" }]
    ∃ table, builtin.extend operators = .ok table ∧
      (builtin.groups.map (grown operators)).Sublist table.groups ∧
      (∀ group ∈ builtin.groups, ∀ entry ∈ group, entry ∈ grown operators group) ∧
      ∀ operator ∈ operators, table.HasEntry (operator.name, operator.symbol) := by
  intro operators
  obtain ⟨table, hextend⟩ : ∃ table, builtin.extend operators = .ok table := ⟨_, rfl⟩
  obtain ⟨hsublist, hkept, hadded⟩ := extend_retains hextend
  refine ⟨table, hextend, hsublist, ?_, ?_⟩
  · intro group hgroup entry hentry
    rcases hkept group hgroup entry hentry with hmem | ⟨earlier, replacement, later, hsplit, h⟩
    · exact hmem
    · have hnew : ∀ group ∈ builtin.groups, ∀ entry ∈ group, ∀ operator ∈ operators,
          operator.name ≠ entry.1 := by decide
      exact absurd h.name (hnew group hgroup entry hentry replacement (by simp [hsplit]))
  · intro operator hmem
    obtain ⟨earlier, later, hsplit⟩ := List.append_of_mem hmem
    rcases hadded earlier operator later hsplit with
      hentry | ⟨middle, replacement, rest, _, rfl, _, _, _, _, h⟩
    · exact hentry
    · have hdistinct : ∀ operator ∈ operators, ∀ other ∈ operators,
          other.name = operator.name → other.symbol = operator.symbol := by decide
      exact absurd (hdistinct operator hmem replacement (by simp [hsplit]) h.name) h.symbol

/-- A new symbol for `add` takes the place of `+`, as does one for an operator added before. -/
theorem exists_entry_lost :
    let operators : List Operator :=
      [{ name := "either", symbol := "??", placement := .after "|" },
        { name := "either", symbol := "?:", placement := .joining "??" },
        { name := "add", symbol := "plus", placement := .joining "+" }]
    ∃ table, builtin.extend operators = .ok table ∧
      builtin.HasEntry ("add", "+") ∧ ¬ table.HasEntry ("add", "+") ∧
      ¬ table.HasEntry ("either", "??") := by
  intro operators
  refine ⟨_, rfl, ?_, ?_, ?_⟩
  all_goals
    unfold HasEntry
    decide +kernel

/-! ### New functions -/

/-- Groups among which groups of new entries stand, and which have new entries at their ends. -/
inductive Widened (new : String × String → Prop) : List OperatorGroup → List OperatorGroup → Prop
  | nil : Widened new [] []
  | added {group : OperatorGroup} {groups groups' : List OperatorGroup}
      (hnew : ∀ entry ∈ group, new entry) (h : Widened new groups groups') :
      Widened new groups (group :: groups')
  | kept {group extra : OperatorGroup} {groups groups' : List OperatorGroup}
      (hnew : ∀ entry ∈ extra, new entry) (h : Widened new groups groups') :
      Widened new (group :: groups) ((group ++ extra) :: groups')

namespace Widened

variable {new : String × String → Prop} {groups groups' left right : List OperatorGroup}

theorem refl (groups : List OperatorGroup) : Widened new groups groups := by
  induction groups with
  | nil => exact .nil
  | cons group groups ih =>
      have h : Widened new (group :: groups) ((group ++ []) :: groups) :=
        .kept (List.forall_mem_nil new) ih
      rwa [List.append_nil] at h

/-- A group of new entries may stand anywhere. -/
theorem insert (hnew : ∀ entry ∈ group, new entry) (h : Widened new groups (left ++ right)) :
    Widened new groups (left ++ group :: right) := by
  induction left generalizing groups with
  | nil => exact .added hnew h
  | cons first left ih =>
      cases h with
      | added hfirst h => exact .added hfirst (ih h)
      | kept hextra h => exact .kept hextra (ih h)

/-- A new operator joins a group at its end. -/
theorem map_joinInto (hnew : new operator.listing)
    (hname : ∀ group ∈ groups, operator.name ∉ Entries.keys group)
    (h : Widened new groups groups') :
    Widened new groups (groups'.map operator.joinInto) := by
  have hgrown {group : OperatorGroup} (hgroup : ∀ entry ∈ group, new entry) :
      ∀ entry ∈ operator.joinInto group, new entry := by
    intro entry hentry
    rcases Operator.mem_of_mem_joinInto hentry with hentry | ⟨_, rfl⟩
    · exact hgroup entry hentry
    · exact hnew
  induction h with
  | nil => exact .nil
  | added hgroup _ ih => exact .added (hgrown hgroup) (ih hname)
  | @kept group extra groups groups' hextra _ ih =>
      obtain ⟨hfirst, hname⟩ := List.forall_mem_cons.1 hname
      rw [List.map_cons, Operator.joinInto]
      split
      · rw [Entries.insert_append _ hfirst]
        refine .kept ?_ (ih hname)
        intro entry hentry
        rcases Entries.mem_insert hentry with rfl | hentry
        · exact hnew
        · exact hextra entry hentry
      · exact .kept hextra (ih hname)

end Widened

variable {new : String × String → Prop}

theorem Added.widened {groups before after : List OperatorGroup}
    (h : Added operator before after) (hnew : new operator.listing)
    (hname : ∀ group ∈ groups, operator.name ∉ Entries.keys group)
    (hwidened : Widened new groups before) : Widened new groups after := by
  have halone : ∀ entry ∈ [operator.listing], new entry := by simpa using hnew
  cases h with
  | joining => exact hwidened.map_joinInto hnew hname
  | before => exact hwidened.insert halone
  | @after _ left right group =>
      rw [List.append_cons] at hwidened ⊢
      exact hwidened.insert halone

/-- Operators for functions that no group names only widen the table. -/
theorem widened_of_extend (h : table.extend operators = .ok table')
    (hname : ∀ operator ∈ operators, table.precedence? operator.name = none) :
    Widened (fun entry => ∃ operator ∈ operators, entry = operator.listing)
      table.groups table'.groups := by
  apply extend_induction (fun after => Widened _ table.groups after.groups) h (.refl _)
  intro operator hmem before after hadd hwidened
  refine (add_cases hadd).1.widened ⟨operator, hmem, rfl⟩ ?_ hwidened
  intro group hgroup hkeys
  obtain ⟨entry, hentry, heq⟩ := List.mem_map.1 hkeys
  exact ne_of_precedence?_eq_none (hname operator hmem) ⟨group, hgroup, hentry⟩ heq

/-- How other functions are chained stays. -/
theorem isVararg_of_extend {name : String} (h : table.extend operators = .ok table')
    (hname : ∀ operator ∈ operators, operator.name ≠ name) :
    table'.isVararg name = table.isVararg name ∧
      table'.isLeftAssociative name = table.isLeftAssociative name := by
  apply extend_induction (fun after => after.isVararg name = table.isVararg name ∧
    after.isLeftAssociative name = table.isLeftAssociative name) h ⟨rfl, rfl⟩
  intro operator hmem before after hadd hkept
  obtain ⟨_, hvararg, hleft⟩ := add_cases hadd
  have hne := (hname operator hmem).symm
  simp only [isVararg, isLeftAssociative, hvararg, hleft] at hkept ⊢
  constructor
  · split
    · simpa [hne] using hkept.1
    · exact hkept.1
  · split
    · simpa [hne] using hkept.2
    · exact hkept.2

end OperatorTable

end PipeQuery
