/-
When the operators of a table can be told apart by their symbols.

The longest symbol of a group wins, so a symbol is taken for itself when no other of its group and
none of a tighter group can be taken in its place.
-/
import PipeQuery.Proofs.Ladder

namespace PipeQuery

namespace Parser

open Scan (skipBlanks Ends)

variable {table : OperatorTable} {group : OperatorGroup} {operators : List (String × String)}
  {name symbol : String} {text rest : List Char}

/-! ## The operator that comes next -/

theorem dropPiece?_eq_none_iff {piece : List Char} :
    Scan.dropPiece? piece text = none ↔ ¬ piece <+: text := by
  constructor
  · rintro hnone ⟨rest, rfl⟩
    rw [Scan.dropPiece?_eq_some_iff.2 rfl] at hnone
    simp at hnone
  · intro hstart
    cases h : Scan.dropPiece? piece text with
    | none => rfl
    | some rest => exact absurd ⟨rest, (Scan.dropPiece?_eq_some_iff.1 h).symm⟩ hstart

theorem operator?_cons_of_not_start (h : ¬ symbol.toList <+: text) :
    operator? ((name, symbol) :: operators) text = operator? operators text := by
  have hnone := dropPiece?_eq_none_iff.2 h
  unfold operator?
  rw [List.findSome?_cons]
  split
  · rename_i found hfound
    simp only at hfound
    split at hfound
    · simp at hfound
    · rename_i rest hrest
      simp [hnone] at hrest
  · rfl

theorem operatorAt_cons_of_append (name symbol : String) (rest : List Char) :
    OperatorAt ((name, symbol) :: operators) (symbol.toList ++ rest) name (skipBlanks rest) := by
  have hsome : Scan.dropPiece? symbol.toList (symbol.toList ++ rest) = some rest :=
    Scan.dropPiece?_eq_some_iff.2 rfl
  have hle := Scan.length_skipBlanks_le rest
  refine ⟨by simp only [List.length_append]; omega, ?_⟩
  unfold operator?
  rw [List.findSome?_cons]
  split
  · rename_i found hfound
    simp only at hfound
    split at hfound
    · simp at hfound
    · rename_i rest' hrest'
      obtain rfl : rest = rest' := by simpa [hsome] using hrest'
      exact hfound.symm
  · rename_i hnone
    simp only at hnone
    split at hnone
    · rename_i hnone'
      simp [hsome] at hnone'
    · simp at hnone

theorem operator?_eq_none (h : ∀ entry ∈ operators, ¬ entry.2.toList <+: text) :
    operator? operators text = none := by
  induction operators with
  | nil => rfl
  | cons entry operators ih =>
      rw [operator?_cons_of_not_start (h entry List.mem_cons_self)]
      exact ih fun entry hentry => h entry (List.mem_cons_of_mem _ hentry)

theorem operator?_ne_none {entry : String × String} (hmem : entry ∈ operators)
    (hstart : entry.2.toList <+: text) : operator? operators text ≠ none := by
  induction operators with
  | nil => simp at hmem
  | cons head operators ih =>
      by_cases hhead : head.2.toList <+: text
      · obtain ⟨rest, rfl⟩ := hhead
        obtain ⟨_, hoperator⟩ := @operatorAt_cons_of_append operators head.1 head.2 rest
        simp [hoperator]
      · rw [operator?_cons_of_not_start hhead]
        rcases List.mem_cons.1 hmem with rfl | hmem
        · exact absurd hstart hhead
        · exact ih hmem

/-- In a list from long to short symbols, the symbol that is taken is the longest that comes
next. -/
theorem exists_longest_of_operator?
    (hsorted : operators.Pairwise fun a b => b.2.length ≤ a.2.length)
    {after : { rest : List Char // rest.length ≤ text.length }}
    (h : operator? operators text = some (name, after)) :
    ∃ symbol rest, (name, symbol) ∈ operators ∧ text = symbol.toList ++ rest ∧
      after.val = skipBlanks rest ∧
      ∀ entry ∈ operators, entry.2.toList <+: text → entry.2.length ≤ symbol.length := by
  induction operators with
  | nil => simp [operator?] at h
  | cons head operators ih =>
      obtain ⟨hhead, hsorted⟩ := List.pairwise_cons.1 hsorted
      by_cases hstart : head.2.toList <+: text
      · obtain ⟨rest, rfl⟩ := hstart
        obtain ⟨_, hoperator⟩ := @operatorAt_cons_of_append operators head.1 head.2 rest
        obtain ⟨rfl, rfl⟩ : head.1 = name ∧ _ = after := by simpa using hoperator.symm.trans h
        refine ⟨head.2, rest, List.mem_cons_self, rfl, rfl, ?_⟩
        intro entry hentry _
        rcases List.mem_cons.1 hentry with rfl | hentry
        · exact Nat.le_refl _
        · exact hhead entry hentry
      · rw [operator?_cons_of_not_start hstart] at h
        obtain ⟨symbol, rest, hmem, htext, hafter, hlongest⟩ := ih hsorted h
        refine ⟨symbol, rest, List.mem_cons_of_mem _ hmem, htext, hafter, ?_⟩
        intro entry hentry hnext
        rcases List.mem_cons.1 hentry with rfl | hentry
        · exact absurd hnext hstart
        · exact hlongest entry hentry hnext

/-- In a list from long to short symbols, the first symbol that comes next is the longest. -/
theorem operatorAt_of_longest
    (hsorted : operators.Pairwise fun a b => b.2.length ≤ a.2.length)
    (hmem : (name, symbol) ∈ operators)
    (hlongest : ∀ entry ∈ operators, entry.2.toList <+: symbol.toList ++ rest →
      entry = (name, symbol) ∨ entry.2.length < symbol.length) :
    OperatorAt operators (symbol.toList ++ rest) name (skipBlanks rest) := by
  induction operators with
  | nil => simp at hmem
  | cons entry operators ih =>
      obtain ⟨hentry, hsorted⟩ := List.pairwise_cons.1 hsorted
      by_cases hstart : entry.2.toList <+: symbol.toList ++ rest
      · rcases hlongest entry List.mem_cons_self hstart with rfl | hlt
        · exact operatorAt_cons_of_append name symbol rest
        · rcases List.mem_cons.1 hmem with heq | hmem
          · subst heq
            exact absurd hlt (Nat.lt_irrefl _)
          · have hle := hentry _ hmem
            simp only at hle
            omega
      · rw [OperatorAt, operator?_cons_of_not_start hstart]
        refine ih hsorted ?_ fun entry hentry => hlongest entry (List.mem_cons_of_mem _ hentry)
        rcases List.mem_cons.1 hmem with heq | hmem
        · subst heq
          exact absurd (List.prefix_append _ _) hstart
        · exact hmem

theorem pairwise_candidates (group : OperatorGroup) :
    (candidates group).Pairwise fun a b => b.2.length ≤ a.2.length := by
  have hsorted := @List.pairwise_mergeSort _
    (fun a b : String × String => decide (b.2.length ≤ a.2.length))
    (fun a b c hab hbc => by simp only [decide_eq_true_eq] at *; omega)
    (fun a b => by simp only [Bool.or_eq_true, decide_eq_true_eq]; omega) group
  simpa [candidates] using hsorted

/-- Members of a group whose symbols do not come next make no difference. -/
theorem operator?_candidates_append {extra : OperatorGroup}
    (hdistinct : ∀ entry ∈ group, ∀ entry' ∈ group, entry.2 = entry'.2 → entry = entry')
    (hextra : ∀ entry ∈ extra, ¬ entry.2.toList <+: text) :
    operator? (candidates (group ++ extra)) text = operator? (candidates group) text := by
  have hmem {entry : String × String} (hentry : entry ∈ candidates (group ++ extra))
      (hstart : entry.2.toList <+: text) : entry ∈ group := by
    rcases List.mem_append.1 (List.mem_mergeSort.1 hentry) with hentry | hentry
    · exact hentry
    · exact absurd hstart (hextra entry hentry)
  cases h : operator? (candidates group) text with
  | none =>
      refine operator?_eq_none fun entry hentry hstart => ?_
      exact operator?_ne_none (List.mem_mergeSort.2 (hmem hentry hstart)) hstart h
  | some found =>
      obtain ⟨name, after⟩ := found
      obtain ⟨symbol, rest, hentry, rfl, hafter, hlongest⟩ :=
        exists_longest_of_operator? (pairwise_candidates group) h
      have hentry' := List.mem_mergeSort.1 hentry
      obtain ⟨hle, hoperator⟩ : OperatorAt (candidates (group ++ extra)) (symbol.toList ++ rest)
          name (skipBlanks rest) := by
        refine operatorAt_of_longest (pairwise_candidates _)
          (List.mem_mergeSort.2 (List.mem_append_left _ hentry')) ?_
        intro entry hother hstart
        have hgroup := hmem hother hstart
        rcases Nat.lt_or_eq_of_le (hlongest entry (List.mem_mergeSort.2 hgroup) hstart) with
          hlt | heq
        · exact .inr hlt
        · have hprefix := List.prefix_of_prefix_length_le hstart (List.prefix_append _ rest)
            (Nat.le_of_eq (by simpa only [String.length_toList] using heq))
          have hsymbol := hprefix.eq_of_length (by simpa only [String.length_toList] using heq)
          exact .inl (hdistinct entry hgroup _ hentry' (String.toList_inj.1 hsymbol))
      rw [hoperator]
      simp [← hafter]

/-! ## Tables -/

theorem exists_group_of_symbol? (h : table.symbol? name = some symbol) :
    ∃ level group, table.precedence? name = some level ∧ table.groups[level]? = some group ∧
      (name, symbol) ∈ group := by
  obtain ⟨group, hfind, hlookup⟩ := Option.bind_eq_some_iff.1 h
  obtain ⟨hcontains, level, hlevel, hgroup, hbefore⟩ := List.find?_eq_some_iff_getElem.1 hfind
  refine ⟨level, group, ?_, ?_, ?_⟩
  · rw [OperatorTable.precedence?, List.findIdx?_eq_some_iff_getElem]
    refine ⟨hlevel, by simpa [hgroup] using hcontains, fun j hj => ?_⟩
    simpa using hbefore j hj
  · rw [List.getElem?_eq_getElem hlevel, hgroup]
  · obtain ⟨before, after, rfl, _⟩ := List.lookup_eq_some_iff.1 hlookup
    simp

/-- A name that some group lists has a symbol. -/
theorem exists_symbol?_of_mem (hgroup : group ∈ table.groups) (hentry : (name, symbol) ∈ group) :
    ∃ symbol', table.symbol? name = some symbol' := by
  have hcontains : Entries.contains name group = true := List.any_eq_true.2 ⟨_, hentry, by simp⟩
  obtain ⟨found, hfound⟩ :
      ∃ found, table.groups.find? (Entries.contains name) = some found := by
    rw [← Option.isSome_iff_exists, List.find?_isSome]
    exact ⟨group, hgroup, hcontains⟩
  have hfound' : Entries.contains name found = true := List.find?_some hfound
  obtain ⟨entry, hmem, hname⟩ := List.any_eq_true.1 hfound'
  rw [OperatorTable.symbol?, hfound, Option.bind_some]
  cases hlookup : found.lookup name with
  | some symbol' => exact ⟨symbol', rfl⟩
  | none =>
      have hne := List.lookup_eq_none_iff.1 hlookup entry hmem
      simp_all

/-- Whether a symbol starts with a character that neither ends a token nor opens parentheses. -/
def isSymbolStart (symbol : String) : Bool :=
  match symbol.toList with
  | [] => false
  | c :: _ => !Scan.isBlank c && !isCloser c && c != '('

/-- Symbols that cannot be taken for one another where a blank follows them. -/
structure Separable (table : OperatorTable) : Prop where
  groups_ne_nil : table.groups ≠ []
  starts {group : OperatorGroup} (hgroup : group ∈ table.groups) :
    ∀ entry ∈ group, isSymbolStart entry.2 = true
  /-- The symbols of a group are distinct. -/
  distinct {group : OperatorGroup} (hgroup : group ∈ table.groups) :
    ∀ entry ∈ group, ∀ entry' ∈ group, entry.2 = entry'.2 → entry = entry'
  /-- No symbol goes on after another and a space. -/
  unspaced {group group' : OperatorGroup} (hgroup : group ∈ table.groups)
    (hgroup' : group' ∈ table.groups) :
    ∀ entry ∈ group, ∀ entry' ∈ group', ¬ entry.2.toList ++ [' '] <+: entry'.2.toList
  /-- No symbol of a tighter group starts one of a looser group. -/
  tighter : table.groups.Pairwise fun group group' =>
    ∀ entry ∈ group, ∀ entry' ∈ group', ¬ entry.2.toList <+: entry'.2.toList
  constructors {name : String} (h : name = "get" ∨ name = "array" ∨ name = "object") :
    table.symbol? name = none

/-- A piece that starts a longer text starts its first part, or goes on after it. -/
theorem prefix_append_cons {piece first : List Char} {c : Char}
    (h : piece <+: first ++ c :: rest) : piece <+: first ∨ first ++ [c] <+: piece := by
  have hsplit : first ++ c :: rest = first ++ [c] ++ rest := by simp
  rw [hsplit] at h
  rcases List.prefix_or_prefix_of_prefix h (List.prefix_append (first ++ [c]) rest) with h | h
  · rcases List.prefix_concat_iff.1 h with rfl | h
    · exact .inr (List.prefix_refl _)
    · exact .inl h
  · exact .inr h

/-- Where no symbol of a group starts this one, none comes next in its place. -/
theorem Separable.no_operator (h : Separable table) {name symbol : String} {j : Nat}
    {group : OperatorGroup} (hsymbol : table.symbol? name = some symbol)
    (hgroup : table.groups[j]? = some group)
    (hstart : ∀ entry ∈ group, ¬ entry.2.toList <+: symbol.toList) (text : List Char) :
    operator? (candidates group) (symbol.toList ++ ' ' :: text) = none := by
  obtain ⟨_, _, _, hgroup', hmem⟩ := exists_group_of_symbol? hsymbol
  refine operator?_eq_none fun entry hentry hfront => ?_
  have hentry' := List.mem_mergeSort.1 hentry
  rcases prefix_append_cons hfront with hfront | hfront
  · exact hstart entry hentry' hfront
  · exact h.unspaced (List.mem_of_getElem? hgroup') (List.mem_of_getElem? hgroup) _ hmem entry
      hentry' hfront

theorem Separable.legible (h : Separable table) : Legible table where
  groups_ne_nil := h.groups_ne_nil
  closes {group rest} hgroup hrest := by
    refine operator?_eq_none fun entry hentry hstart => ?_
    have hstarts := h.starts hgroup entry (List.mem_mergeSort.1 hentry)
    unfold isSymbolStart at hstarts
    split at hstarts
    · simp at hstarts
    · rename_i c more hlist
      obtain ⟨rest', hrest'⟩ := hstart
      rw [hlist] at hrest'
      have hcloser := hrest c (by simp [← hrest'])
      simp only [Bool.not_eq_false'] at hcloser
      simp [hcloser] at hstarts
  opens {name symbol} hsymbol := by
    obtain ⟨level, group, _, hgroup, hmem⟩ := exists_group_of_symbol? hsymbol
    have hstarts := h.starts (List.mem_of_getElem? hgroup) _ hmem
    unfold isSymbolStart at hstarts
    split at hstarts
    · simp at hstarts
    · rename_i c more hlist
      simp only [Bool.and_eq_true, Bool.not_eq_true', bne_iff_ne, ne_eq] at hstarts
      exact ⟨c, more, hlist, hstarts.1.1, hstarts.2⟩
  group {name symbol} hsymbol := by
    obtain ⟨level, group, hlevel, hgroup, hmem⟩ := exists_group_of_symbol? hsymbol
    have hgroup' := List.mem_of_getElem? hgroup
    refine ⟨level, group, hlevel, hgroup, fun text => ?_⟩
    have hskip : skipBlanks (' ' :: text) = skipBlanks text := by simp [skipBlanks, Scan.isBlank]
    rw [← hskip]
    refine operatorAt_of_longest (pairwise_candidates group) (List.mem_mergeSort.2 hmem) ?_
    intro entry hentry hstart
    have hentry' := List.mem_mergeSort.1 hentry
    rcases prefix_append_cons hstart with hstart | hstart
    · rcases Nat.lt_or_ge entry.2.length symbol.length with hlt | hge
      · exact .inr hlt
      · have heq := hstart.eq_of_length_le (by
          simpa only [String.length_toList] using hge)
        exact .inl (h.distinct hgroup' entry hentry' _ hmem (String.toList_inj.1 heq))
    · exact absurd hstart (h.unspaced hgroup' hgroup' _ hmem entry hentry')
  tighter {name symbol level j group} hsymbol hlevel hj hgroup text := by
    obtain ⟨level', group', hlevel', hgroup', hmem⟩ := exists_group_of_symbol? hsymbol
    obtain rfl : level = level' := by simpa [hlevel] using hlevel'
    obtain ⟨hlt, rfl⟩ := List.getElem?_eq_some_iff.1 hgroup
    obtain ⟨hlt', rfl⟩ := List.getElem?_eq_some_iff.1 hgroup'
    exact h.no_operator hsymbol hgroup (fun entry hentry =>
      List.pairwise_iff_getElem.1 h.tighter j level hlt hlt' hj entry hentry _ hmem) text
  constructors := h.constructors

theorem separable_builtin : Separable OperatorTable.builtin where
  groups_ne_nil := by decide
  starts {group} hgroup := by
    revert group
    decide
  distinct {group} hgroup := by
    revert group
    decide
  unspaced {group group'} hgroup hgroup' := by
    revert group'
    revert group
    decide
  tighter := by decide
  constructors {name} h := by
    rcases h with rfl | rfl | rfl <;> decide

end Parser

end PipeQuery
