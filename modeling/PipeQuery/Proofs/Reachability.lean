/-
Which added operators can be written between two paths.

Symbols are compared within one group at a time, the longest first, and tighter groups look first.
So the symbol of an added operator is taken for itself unless a tighter group takes its front for
an operator of its own, after which no operand follows.  A path is a call of `get`, so that an
operator for `get` may be refused after it or may swallow its keys.
-/
import PipeQuery.Proofs.CustomOperators
import PipeQuery.Proofs.Soundness
import PipeQuery.Proofs.Stalling

namespace PipeQuery

namespace OperatorTable

variable {table : OperatorTable} {operators : List Operator} {operator : Operator}
  {group : OperatorGroup} {entry entry' : String × String} {symbol : String}

/-- Operators for different new functions, with different new symbols of operator characters. -/
structure Fresh (operators : List Operator) : Prop where
  names : (operators.map (·.name)).Nodup
  symbols : (operators.map (·.symbol)).Nodup
  new {operator : Operator} (h : operator ∈ operators) : builtin.precedence? operator.name = none
  symbol {operator : Operator} (h : operator ∈ operators) : IsSymbol operator.symbol
  unused {operator : Operator} (h : operator ∈ operators) {entry : String × String}
    (hentry : builtin.HasEntry entry) : operator.symbol ≠ entry.2

theorem Fresh.of_forall (hnames : (operators.map (·.name)).Nodup)
    (hsymbols : (operators.map (·.symbol)).Nodup)
    (h : ∀ operator ∈ operators, builtin.precedence? operator.name = none ∧
      operator.symbol.toList ≠ [] ∧ operator.symbol.toList.all isSymbolChar = true ∧
      ∀ group ∈ builtin.groups, ∀ entry ∈ group, operator.symbol ≠ entry.2) :
    Fresh operators where
  names := hnames
  symbols := hsymbols
  new hmem := (h _ hmem).1
  symbol hmem := ⟨(h _ hmem).2.1, List.all_eq_true.1 (h _ hmem).2.2.1⟩
  unused hmem _ hentry := by
    obtain ⟨group, hgroup, hentry⟩ := hentry
    exact (h _ hmem).2.2.2 group hgroup _ hentry

/-- The longest symbol of the group that starts the given one is that of an operator which may
follow a path. -/
def Catches (table : OperatorTable) (group : OperatorGroup) (symbol : String) : Prop :=
  ∃ entry ∈ group, entry.2.toList <+: symbol.toList ∧
    (∀ other ∈ group, other.2.toList <+: symbol.toList → other.2.length ≤ entry.2.length) ∧
    (entry.1 = "get" → table.isVararg "get" = true ∨ table.isLeftAssociative "get" = true)

theorem eq_of_builtin_symbol (h : builtin.HasEntry entry) (h' : builtin.HasEntry entry')
    (heq : entry.2 = entry'.2) : entry = entry' := by
  obtain ⟨group, hgroup, hentry⟩ := h
  obtain ⟨group', hgroup', hentry'⟩ := h'
  have hall : ∀ group ∈ builtin.groups, ∀ entry ∈ group, ∀ group' ∈ builtin.groups,
      ∀ entry' ∈ group', entry.2 = entry'.2 → entry = entry' := by decide
  exact hall group hgroup entry hentry group' hgroup' entry' hentry' heq

section

variable (hextend : builtin.extend operators = .ok table) (hfresh : Fresh operators)

include hextend hfresh

/-- The symbols of the extended table are distinct. -/
theorem eq_of_symbol (h : table.HasEntry entry) (h' : table.HasEntry entry')
    (heq : entry.2 = entry'.2) : entry = entry' := by
  rcases hasEntry_of_extend hextend h with hbuiltin | ⟨operator, hmem, rfl⟩
  · rcases hasEntry_of_extend hextend h' with hbuiltin' | ⟨operator', hmem', rfl⟩
    · exact eq_of_builtin_symbol hbuiltin hbuiltin' heq
    · exact absurd heq.symm (hfresh.unused hmem' hbuiltin)
  · rcases hasEntry_of_extend hextend h' with hbuiltin' | ⟨operator', hmem', rfl⟩
    · exact absurd heq (hfresh.unused hmem hbuiltin')
    · rw [List.inj_on_of_nodup_map hfresh.symbols hmem hmem' heq]

/-- Of symbols that start the same text, the length tells which they are. -/
theorem eq_of_starts (h : table.HasEntry entry) (h' : table.HasEntry entry') {text : List Char}
    (hstart : entry.2.toList <+: text) (hstart' : entry'.2.toList <+: text)
    (hlength : entry.2.length = entry'.2.length) : entry = entry' := by
  have hlists : entry.2.toList.length = entry'.2.toList.length := by
    simpa only [String.length_toList] using hlength
  have hinitial := List.prefix_of_prefix_length_le hstart hstart' hlists.le
  exact eq_of_symbol hextend hfresh h h' (String.toList_inj.1 (hinitial.eq_of_length hlists))

/-- A new function has one symbol. -/
theorem eq_listing_of_name (hmem : operator ∈ operators) (h : table.HasEntry entry)
    (heq : entry.1 = operator.name) : entry = operator.listing := by
  rcases hasEntry_of_extend hextend h with hbuiltin | ⟨operator', hmem', rfl⟩
  · exact absurd heq (ne_of_precedence?_eq_none (hfresh.new hmem) hbuiltin)
  · rw [List.inj_on_of_nodup_map hfresh.names hmem' hmem heq]
    rfl

/-- Every symbol of the extended table has a character, and none but `not in` has a space. -/
theorem symbol_of_extend (h : table.HasEntry entry) :
    entry.2.toList ≠ [] ∧ (' ' ∈ entry.2.toList → entry.2 = "not in") := by
  rcases hasEntry_of_extend hextend h with hbuiltin | ⟨operator, hmem, rfl⟩
  · have husable := isUsable_builtin hbuiltin
    refine ⟨fun hnil => ?_, husable.2.2.1⟩
    have hstart := husable.1
    simp [Parser.isSymbolStart, hnil] at hstart
  · have hsymbol := hfresh.symbol hmem
    refine ⟨hsymbol.1, fun hspace => ?_⟩
    exact absurd (hsymbol.2 _ hspace) (by decide)

/-- What starts a symbol and a blank starts the symbol. -/
theorem start_of_start_append (h : table.HasEntry entry) (hsymbol : IsSymbol symbol)
    {rest : List Char} (hstart : entry.2.toList <+: symbol.toList ++ ' ' :: rest) :
    entry.2.toList <+: symbol.toList := by
  rcases Parser.prefix_append_cons hstart with hstart | hstart
  · exact hstart
  · have hspace := (symbol_of_extend hextend hfresh h).2 (hstart.subset (by simp))
    rw [hspace] at hstart
    have hnot := eq_not_of_append_space hstart
    exact absurd (hsymbol.2 'n' (by simp [hnot])) (by decide)

end

end OperatorTable

namespace Parser

open Grammar
open OperatorTable (IsSymbol isSymbolChar)
open Scan (skipBlanks Ends)

variable {table : OperatorTable} {limit level : Nat} {text rest piece : List Char}

/-! ## No operand starts like a symbol -/

theorem starts_of_isSymbolChar {c : Char} (h : isSymbolChar c = true) :
    Scan.isNameStart c = false ∧ c.isDigit = false ∧ Scan.isBlank c = false ∧
      isCloser c = false ∧ c ∉ ['(', '.', '\x7b', '[', '"', 't', 'f', 'n'] := by
  have hall : ("?~@#&!=<>*+-/%^|".toList.all fun c =>
      !Scan.isNameStart c && !c.isDigit && !Scan.isBlank c && !isCloser c &&
        ['(', '.', '\x7b', '[', '"', 't', 'f', 'n'].all (c != ·)) = true := by decide
  have hc := List.all_eq_true.1 hall c (by simpa [isSymbolChar] using h)
  simpa [and_assoc] using hc

/-- A symbol character starts no number, unless a digit comes after it. -/
theorem numeral?_of_isSymbolChar {c : Char} (hc : isSymbolChar c = true)
    (hrest : Ends Char.isDigit rest) : Scan.numeral? (c :: rest) = none := by
  by_cases hminus : c = '-'
  · subst hminus
    simp [Scan.numeral?, Scan.magnitude?, Scan.whole?_eq_none hrest]
  · exact Scan.numeral?_eq_none (ends_cons (starts_of_isSymbolChar hc).2.1 rest)
      (by simpa using hminus)

/-- No operand starts with a symbol character, unless a digit comes after it. -/
theorem fails_primary_of_isSymbolChar {expression : Production Operand} {c : Char}
    (hc : isSymbolChar c = true) (hrest : Ends Char.isDigit rest) :
    Fails (· = .valueExpected) (primary limit expression) (c :: rest) := by
  obtain ⟨hname, _, hblank, _, hnot⟩ := starts_of_isSymbolChar hc
  simp only [List.mem_cons, List.not_mem_nil, or_false, not_or] at hnot
  obtain ⟨hparenthesis, hpoint, hbrace, hbracket, hquote, hword⟩ := hnot
  have hcall : call? limit expression (c :: rest) = none := call?_eq_none (ends_cons hname rest)
  have hkeyword : Scan.keyword? (c :: rest) = none :=
    Scan.keyword?_eq_none rfl (by simpa using hword)
  have hstring : Scan.string (c :: rest) = .absent := Scan.string_of_head_ne (by simpa using hquote)
  have hliteral : literal (c :: rest) = .error ⟨.valueExpected, c :: rest⟩ := by
    simp [literal, hstring, numeral?_of_isSymbolChar hc hrest, hkeyword]
  apply fails_primary
  rw [skipBlanks_of_ends (ends_cons hblank rest)]
  refine ⟨_, rfl, c :: rest, ?_⟩
  simp [tightest, char?_of_ne hparenthesis, char?_of_ne hpoint, hcall, char?_of_ne hbrace,
    char?_of_ne hbracket, hliteral]

/-! ## Between two paths -/

/-- A path of one key, as an operand. -/
def pathOperand (key : String) : Operand :=
  { query := .get [key], height := 1 }

theorem refuses_path_iff {name key : String} :
    refuses table name (pathOperand key) = false ↔
      (name = "get" → table.isVararg "get" = true ∨ table.isLeftAssociative "get" = true) := by
  have hchain : (pathOperand key).isChain name = ("get" == name) := rfl
  rw [refuses, hchain]
  by_cases hname : name = "get"
  · subst hname
    cases table.isVararg "get" <;> cases table.isLeftAssociative "get" <;> simp
  · simp [hname, Ne.symm hname]

theorem height_join_path {name key key' : String} :
    (Operand.join table name (pathOperand key) (pathOperand key')).height ≤ 2 := by
  unfold Operand.join
  split
  · split
    · exact Nat.le_refl 2
    · exact Nat.le_refl 2
  · exact Nat.le_refl 2

section Climb

variable {operators : List Operator} {operator : Operator} {group : OperatorGroup}
  {expression : Production Operand} {symbol : String}

/-- What follows the first path: the symbol, a blank and the second path. -/
def afterPath (symbol : String) : List Char :=
  symbol.toList ++ ' ' :: ".b".toList

/-- The first path is read up to a rung, and nothing behind it. -/
def Waits (table : OperatorTable) (limit : Nat) (base : Production Operand) (level : Nat)
    (symbol : String) : Prop :=
  ∃ rest, skipBlanks rest = afterPath symbol ∧
    Reads (ladderTo table limit base level) (".a ".toList ++ afterPath symbol) (pathOperand "a")
      rest

theorem exists_afterPath (hsymbol : IsSymbol symbol) :
    ∃ c more, afterPath symbol = c :: more ∧ isSymbolChar c = true := by
  obtain ⟨hne, hchars⟩ := hsymbol
  cases hlist : symbol.toList with
  | nil => exact absurd hlist hne
  | cons c more =>
      exact ⟨c, more ++ ' ' :: ".b".toList, by simp [afterPath, hlist], hchars c (by simp [hlist])⟩

theorem skipBlanks_afterPath (hsymbol : IsSymbol symbol) :
    skipBlanks (afterPath symbol) = afterPath symbol := by
  obtain ⟨c, more, heq, hc⟩ := exists_afterPath hsymbol
  rw [heq]
  exact skipBlanks_of_ends (ends_cons (starts_of_isSymbolChar hc).2.2.1 more)

theorem spelled_pathOperand {key : String} (hkey : isPlainName key = true) :
    Spelled table limit (primary limit expression) 0 ('.' :: key.toList) (pathOperand key) :=
  spelled_path (.last (.name hkey))

theorem waits_zero (hsymbol : IsSymbol symbol) :
    Waits table limit (primary limit expression) 0 symbol := by
  obtain ⟨c, more, heq, hc⟩ := exists_afterPath hsymbol
  obtain ⟨_, _, hblank, _, hne⟩ := starts_of_isSymbolChar hc
  have hspace : Blank [' '] := by simp [Blank, Scan.isBlank]
  have hdelimits : Delimits ([' '] ++ afterPath symbol) := by
    rw [heq]
    exact delimits_append_cons hspace (by simp) hblank (fun h => hne (by simp [h])) more
  refine ⟨[' '] ++ afterPath symbol, ?_, ?_⟩
  · rw [skipBlanks_append hspace, skipBlanks_afterPath hsymbol]
  · cases @spelled_pathOperand table limit expression "a" (by decide) with
    | tight h => exact h blank_nil hdelimits

section Extended

variable (hextend : OperatorTable.builtin.extend operators = .ok table)
  (hfresh : OperatorTable.Fresh operators)

include hextend hfresh

/-- Nothing joins at the end of the text. -/
theorem blocks_nil (level : Nat) : Blocks table level [] := by
  intro j _ group hgroup
  apply operator?_eq_none
  intro entry hentry hstart
  have hlisted : table.HasEntry entry :=
    ⟨group, List.mem_of_getElem? hgroup, List.mem_mergeSort.1 hentry⟩
  exact (OperatorTable.symbol_of_extend hextend hfresh hlisted).1 (List.prefix_nil.1 hstart)

theorem reads_second (hlevel : level ≤ table.size) :
    ∃ rest, skipBlanks rest = [] ∧
      Reads (ladderTo table limit (primary limit expression) level) ".b".toList (pathOperand "b")
        rest := by
  obtain ⟨rest, hrest, hreads⟩ :=
    (@spelled_pathOperand table limit expression "b" (by decide)).reads_ladderTo (Nat.zero_le _)
      hlevel blank_nil closes_nil.delimits (blocks_nil hextend hfresh level)
  exact ⟨rest, hrest, hreads⟩

/-- The symbols of a group that come next are those that start the symbol. -/
theorem start_of_start_afterPath (hsymbol : IsSymbol symbol) (hgroup : group ∈ table.groups)
    {entry : String × String} (hentry : entry ∈ candidates group)
    (hstart : entry.2.toList <+: afterPath symbol) :
    entry ∈ group ∧ entry.2.toList <+: symbol.toList := by
  have hmem := List.mem_mergeSort.1 hentry
  exact ⟨hmem,
    OperatorTable.start_of_start_append hextend hfresh ⟨group, hgroup, hmem⟩ hsymbol hstart⟩

/-- A group either lets the first path wait or catches the front of the symbol with an operator that
may follow it. -/
theorem catches_cases (hsymbol : IsSymbol symbol) (hgroup : group ∈ table.groups) :
    (¬ table.Catches group symbol ∧ ∀ {tighter : Production Operand} {rest : List Char},
      skipBlanks rest = afterPath symbol → Chains table limit (candidates group) tighter
        (pathOperand "a") rest (.ok (pathOperand "a", afterPath symbol))) ∨
    ∃ name front rest, (name, front) ∈ group ∧ front.toList <+: symbol.toList ∧
      afterPath symbol = front.toList ++ rest ∧ table.Catches group symbol ∧
      refuses table name (pathOperand "a") = false ∧
      (∀ other ∈ group, other.2.toList <+: symbol.toList → other.2.length ≤ front.length) ∧
      OperatorAt (candidates group) (afterPath symbol) name (skipBlanks rest) := by
  cases hnext : operator? (candidates group) (afterPath symbol) with
  | none =>
      left
      refine ⟨?_, fun hrest => ?_⟩
      · rintro ⟨entry, hentry, hstart, _⟩
        exact operator?_ne_none (List.mem_mergeSort.2 hentry)
          (hstart.trans (List.prefix_append _ _)) hnext
      · rw [← hrest] at hnext ⊢
        exact .done hnext
  | some found =>
      obtain ⟨name, after⟩ := found
      obtain ⟨front, rest, hentry, htext, hafter, hlongest⟩ :=
        exists_longest_of_operator? (pairwise_candidates group) hnext
      have hfront := start_of_start_afterPath hextend hfresh hsymbol hgroup hentry
        ⟨rest, htext.symm⟩
      have hlongest' : ∀ other ∈ group, other.2.toList <+: symbol.toList →
          other.2.length ≤ front.length := fun other hother hstart =>
        hlongest other (List.mem_mergeSort.2 hother) (hstart.trans (List.prefix_append _ _))
      have hoperator : OperatorAt (candidates group) (afterPath symbol) name (skipBlanks rest) := by
        rw [← hafter]
        exact ⟨after.2, hnext⟩
      cases hrefuses : refuses table name (pathOperand "a") with
      | false =>
          exact .inr ⟨name, front, rest, hfront.1, hfront.2, htext,
            ⟨_, hfront.1, hfront.2, hlongest', refuses_path_iff.1 hrefuses⟩, hrefuses, hlongest',
            hoperator⟩
      | true =>
          left
          refine ⟨?_, fun hrest => ?_⟩
          · rintro ⟨entry, hmem, hstart, hmost, hget⟩
            have hlength :=
              Nat.le_antisymm (hlongest' entry hmem hstart) (hmost _ hfront.1 hfront.2)
            obtain rfl := OperatorTable.eq_of_starts hextend hfresh ⟨group, hgroup, hmem⟩
              ⟨group, hgroup, hfront.1⟩ hstart hfront.2 hlength
            rw [refuses_path_iff.2 hget] at hrefuses
            cases hrefuses
          · rw [← hrest] at hoperator ⊢
            exact .refused hoperator hrefuses

/-- A symbol whose front is taken leaves no operand behind it. -/
theorem fails_of_front (hmem : operator ∈ operators) {name front : String}
    (hgroup : group ∈ table.groups) (hentry : (name, front) ∈ group)
    (hfront : front.toList <+: operator.symbol.toList)
    (htext : afterPath operator.symbol = front.toList ++ rest)
    (hlisted : operator.listing ∉ group) :
    Fails (· = .valueExpected) (primary limit expression) (skipBlanks rest) := by
  have hsymbol := hfresh.symbol hmem
  obtain ⟨more, hmore⟩ := hfront
  have hrest : rest = more ++ ' ' :: ".b".toList := by
    rw [afterPath, ← hmore, List.append_assoc] at htext
    exact (List.append_cancel_left htext).symm
  have hchars : ∀ c ∈ more, isSymbolChar c = true := fun c hc => hsymbol.2 c (by simp [← hmore, hc])
  cases more with
  | nil =>
      have hlisting := OperatorTable.hasEntry_of_mem hextend hfresh.names hmem
      have hsame : operator.symbol = front := String.toList_inj.1 (by simpa using hmore.symm)
      have heq : operator.listing = (name, front) :=
        OperatorTable.eq_of_symbol hextend hfresh hlisting ⟨group, hgroup, hentry⟩ hsame
      exact absurd (heq ▸ hentry) hlisted
  | cons c more =>
      have hc := hchars c List.mem_cons_self
      have hblank := (starts_of_isSymbolChar hc).2.2.1
      rw [hrest, List.cons_append, skipBlanks_of_ends (ends_cons hblank _)]
      apply fails_primary_of_isSymbolChar hc
      cases more with
      | nil => exact ends_cons (by decide) _
      | cons d more =>
          exact ends_cons (starts_of_isSymbolChar (hchars d (by simp))).2.1 _

/-- What one group does with the first path: it lets it wait, or takes the front of the symbol for
another operator and finds no operand, or takes the symbol for itself. -/
theorem waits_step (hmem : operator ∈ operators) (hlimit : 2 ≤ limit)
    (hgroup : table.groups[level]? = some group)
    (h : Waits table limit (primary limit expression) level operator.symbol) :
    (¬ table.Catches group operator.symbol ∧
      Waits table limit (primary limit expression) (level + 1) operator.symbol) ∨
    (table.Catches group operator.symbol ∧ operator.listing ∉ group ∧
      Fails (· = .valueExpected) (ladderTo table limit (primary limit expression) (level + 1))
        (".a ".toList ++ afterPath operator.symbol)) ∨
    (table.Catches group operator.symbol ∧ operator.listing ∈ group ∧
      refuses table operator.name (pathOperand "a") = false ∧
      Reads (ladderTo table limit (primary limit expression) (level + 1))
        (".a ".toList ++ afterPath operator.symbol)
        (.join table operator.name (pathOperand "a") (pathOperand "b")) []) := by
  have hsymbol := hfresh.symbol hmem
  have hsize : level < table.size := (List.getElem?_eq_some_iff.1 hgroup).1
  have hgroup' := List.mem_of_getElem? hgroup
  obtain ⟨rest, hrest, hreads⟩ := h
  rw [ladderTo_succ hgroup, Waits, ladderTo_succ hgroup]
  rcases catches_cases hextend hfresh hsymbol hgroup' with ⟨hcatches, hchains⟩ |
    ⟨name, front, rest', hentry, hfront, htext, hcatches, haccepted, hlongest, hoperator⟩
  · left
    exact ⟨hcatches, _, skipBlanks_afterPath hsymbol, yields_rung hreads (hchains hrest)⟩
  rw [← hrest] at hoperator
  right
  by_cases hlisted : operator.listing ∈ group
  · right
    have hlength := Nat.le_antisymm (hlongest operator.listing hlisted (List.prefix_refl _))
      (by simpa only [String.length_toList, Operator.listing] using hfront.length_le)
    obtain ⟨rfl, rfl⟩ : operator.name = name ∧ operator.symbol = front :=
      Prod.mk.inj (OperatorTable.eq_of_starts hextend hfresh ⟨group, hgroup', hlisted⟩
        ⟨group, hgroup', hentry⟩ (List.prefix_refl _) hfront hlength)
    obtain ⟨rest₂, hrest₂, hright⟩ := reads_second hextend hfresh (Nat.le_of_lt hsize)
    have hafter : skipBlanks rest' = ".b".toList := by
      rw [← List.append_cancel_left htext]
      decide
    rw [hafter] at hoperator
    have hdone := blocks_nil hextend hfresh (level + 1) level (Nat.lt_succ_self level) group hgroup
    have hchains := Chains.step hoperator haccepted hright (height_join_path.trans hlimit)
      (.done (by rw [hrest₂]; exact hdone))
    rw [hrest₂] at hchains
    exact ⟨hcatches, hlisted, haccepted, yields_rung hreads hchains⟩
  · left
    obtain ⟨cause, hcause, hright⟩ :=
      (show Fails (· = .valueExpected) (ladderTo table limit (primary limit expression) 0) _ from
        fails_of_front hextend hfresh hmem hgroup' hentry hfront htext hlisted).climb
          (Nat.zero_le level) (Nat.le_of_lt hsize)
    exact ⟨hcatches, hlisted, cause, hcause,
      yields_rung hreads (.halted hoperator haccepted hright)⟩

/-- While no group catches the symbol, the first path waits. -/
theorem waits_of_not_catches (hmem : operator ∈ operators) (hlimit : 2 ≤ limit)
    (hlevel : level ≤ table.size)
    (h : ∀ group ∈ table.groups.take level, ¬ table.Catches group operator.symbol) :
    Waits table limit (primary limit expression) level operator.symbol := by
  induction level with
  | zero => exact waits_zero (hfresh.symbol hmem)
  | succ level ih =>
      have hgroup : table.groups[level]? = some table.groups[level] :=
        List.getElem?_eq_getElem hlevel
      rw [List.take_add_one, hgroup, Option.toList_some, List.forall_mem_append] at h
      have hcatches := h.2 _ (List.mem_singleton.2 rfl)
      rcases waits_step hextend hfresh hmem hlimit hgroup (ih (Nat.le_of_succ_le hlevel) h.1) with
        ⟨_, hwaits⟩ | ⟨hcaught, _⟩ | ⟨hcaught, _⟩
      · exact hwaits
      · exact absurd hcaught hcatches
      · exact absurd hcaught hcatches

/-- While no group takes the symbol for itself, the first path waits or reading has failed. -/
theorem waits_or_fails (hmem : operator ∈ operators) (hlimit : 2 ≤ limit)
    (hlevel : level ≤ table.size)
    (h : ∀ group ∈ table.groups.take level, operator.listing ∈ group →
      refuses table operator.name (pathOperand "a") = true) :
    Waits table limit (primary limit expression) level operator.symbol ∨
      Fails (· = .valueExpected) (ladderTo table limit (primary limit expression) level)
        (".a ".toList ++ afterPath operator.symbol) := by
  induction level with
  | zero => exact .inl (waits_zero (hfresh.symbol hmem))
  | succ level ih =>
      have hgroup : table.groups[level]? = some table.groups[level] :=
        List.getElem?_eq_getElem hlevel
      rw [List.take_add_one, hgroup, Option.toList_some, List.forall_mem_append] at h
      rcases ih (Nat.le_of_succ_le hlevel) h.1 with hwaits | hfails
      · rcases waits_step hextend hfresh hmem hlimit hgroup hwaits with
          ⟨_, hwaits⟩ | ⟨_, _, hfails⟩ | ⟨_, hlisted, haccepted, _⟩
        · exact .inl hwaits
        · exact .inr hfails
        · rw [h.2 _ (List.mem_singleton.2 rfl) hlisted] at haccepted
          cases haccepted
      · exact .inr (hfails.climb (Nat.le_succ level) hlevel)

/-- Where a tighter group catches the symbol, reading fails. -/
theorem fails_of_catches (hmem : operator ∈ operators) (hlimit : 2 ≤ limit)
    (hgroup : table.groups[level]? = some group)
    (hlisted : ∀ group' ∈ table.groups.take (level + 1), operator.listing ∉ group')
    (hcatches : table.Catches group operator.symbol) :
    Fails (· = .valueExpected) (ladderTo table limit (primary limit expression) table.size)
      (".a ".toList ++ afterPath operator.symbol) := by
  have hsize : level < table.size := (List.getElem?_eq_some_iff.1 hgroup).1
  rw [List.take_add_one, hgroup, Option.toList_some, List.forall_mem_append] at hlisted
  rcases waits_or_fails hextend hfresh hmem hlimit (Nat.le_of_lt hsize)
    fun group' hgroup' hlisted' => absurd hlisted' (hlisted.1 group' hgroup') with hwaits | hfails
  · rcases waits_step hextend hfresh hmem hlimit hgroup hwaits with
      ⟨hnot, _⟩ | ⟨_, _, hfails⟩ | ⟨_, hlisted', _⟩
    · exact absurd hcatches hnot
    · exact hfails.climb hsize (Nat.le_refl table.size)
    · exact absurd hlisted' (hlisted.2 group (List.mem_singleton.2 rfl))
  · exact hfails.climb (Nat.le_of_lt hsize) (Nat.le_refl table.size)

/-- A group that lists the operator reads both paths, if the operator may follow the first. -/
theorem reads_of_waits (hmem : operator ∈ operators) (hlimit : 2 ≤ limit)
    (hgroup : table.groups[level]? = some group) (hlisted : operator.listing ∈ group)
    (haccepted : refuses table operator.name (pathOperand "a") = false)
    (hwaits : Waits table limit (primary limit expression) level operator.symbol) :
    ∃ rest, skipBlanks rest = [] ∧
      Reads (ladderTo table limit (primary limit expression) table.size)
        (".a ".toList ++ afterPath operator.symbol)
        (.join table operator.name (pathOperand "a") (pathOperand "b")) rest := by
  have hsize : level < table.size := (List.getElem?_eq_some_iff.1 hgroup).1
  have hcatches : table.Catches group operator.symbol := by
    refine ⟨operator.listing, hlisted, List.prefix_refl _, ?_, refuses_path_iff.1 haccepted⟩
    intro other _ hstart
    simpa only [String.length_toList, Operator.listing] using hstart.length_le
  rcases waits_step hextend hfresh hmem hlimit hgroup hwaits with
    ⟨hnot, _⟩ | ⟨_, hnot, _⟩ | ⟨_, _, _, hreads⟩
  · exact absurd hcatches hnot
  · exact absurd hlisted hnot
  · exact hreads.climb hsize (Nat.le_refl table.size) fun j _ =>
      blocks_nil hextend hfresh table.size j

/-! ## The whole text -/

variable (hmem : operator ∈ operators)

include hmem

/-- The tightest group that names the function is the first that has its symbol. -/
theorem exists_level_of_mem :
    ∃ level group, table.precedence? operator.name = some level ∧
      table.groups[level]? = some group ∧ operator.listing ∈ group ∧
      ∀ group' ∈ table.groups.take level, operator.listing ∉ group' := by
  obtain ⟨group, hgroup, hlisted⟩ := OperatorTable.hasEntry_of_mem hextend hfresh.names hmem
  obtain ⟨symbol, hsymbol⟩ := exists_symbol?_of_mem hgroup hlisted
  obtain ⟨level, group', hlevel, hgroup', hentry⟩ := exists_group_of_symbol? hsymbol
  have heq := OperatorTable.eq_listing_of_name hextend hfresh hmem
    ⟨group', List.mem_of_getElem? hgroup', hentry⟩ rfl
  refine ⟨level, group', hlevel, hgroup', heq ▸ hentry, fun other hother hlisted' => ?_⟩
  obtain ⟨j, hj, rfl⟩ := List.mem_take_iff_getElem.1 hother
  obtain ⟨_, _, hfirst⟩ := List.findIdx?_eq_some_iff_getElem.1 hlevel
  refine hfirst j (by omega) (List.any_eq_true.2 ⟨operator.listing, hlisted', ?_⟩)
  simp [Operator.listing]

end Extended

/-- The text of an operator between two paths. -/
theorem toList_between (symbol : String) :
    (".a " ++ symbol ++ " .b").toList = ".a ".toList ++ afterPath symbol := by
  simp [afterPath, String.toList_append]

theorem parse_of_reads_between {operand : Operand} {rest : List Char}
    (h : Reads
      (ladderTo table (limit + 1) (primary (limit + 1) (Parser.expression table (limit + 1) limit))
        table.size) (".a ".toList ++ afterPath symbol) operand rest)
    (hrest : skipBlanks rest = []) :
    parse table (limit + 1) (".a " ++ symbol ++ " .b") = .ok operand.query := by
  rw [ladderTo_size] at h
  obtain ⟨_, h⟩ := h
  exact @parse_of_expression table (limit + 1) _ _ _ (toList_between symbol) h hrest

/-- The text holds what its paths are joined to, if no tighter group catches the symbol. -/
theorem parse_of_not_catches (hextend : OperatorTable.builtin.extend operators = .ok table)
    (hfresh : OperatorTable.Fresh operators) (hmem : operator ∈ operators) (hlimit : 2 ≤ limit + 1)
    (hgroup : table.groups[level]? = some group) (hlisted : operator.listing ∈ group)
    (haccepted : refuses table operator.name (pathOperand "a") = false)
    (hcatches : ∀ group ∈ table.groups.take level, ¬ table.Catches group operator.symbol) :
    parse table (limit + 1) (".a " ++ operator.symbol ++ " .b") =
      .ok (Operand.join table operator.name (pathOperand "a") (pathOperand "b")).query := by
  have hsize : level < table.size := (List.getElem?_eq_some_iff.1 hgroup).1
  have hwaits : Waits table (limit + 1)
      (primary (limit + 1) (Parser.expression table (limit + 1) limit)) level operator.symbol :=
    waits_of_not_catches hextend hfresh hmem hlimit (Nat.le_of_lt hsize) hcatches
  obtain ⟨rest, hrest, hreads⟩ :=
    reads_of_waits hextend hfresh hmem hlimit hgroup hlisted haccepted hwaits
  exact parse_of_reads_between hreads hrest

/-- Where the first path waits to the end, or reading fails, the text holds no query. -/
theorem parse_ne_ok_of_waits (hsymbol : IsSymbol symbol)
    (h : Waits table (limit + 1) (primary (limit + 1) (Parser.expression table (limit + 1) limit))
        table.size symbol ∨
      Fails (· = .valueExpected)
        (ladderTo table (limit + 1)
          (primary (limit + 1) (Parser.expression table (limit + 1) limit)) table.size)
        (".a ".toList ++ afterPath symbol)) (query : Query) :
    parse table (limit + 1) (".a " ++ symbol ++ " .b") ≠ .ok query := by
  have hsnags : Snags (· = .valueExpected) (Parser.expression table (limit + 1) (limit + 1))
      (".a " ++ symbol ++ " .b").toList := by
    rw [toList_between]
    rw [Waits, ladderTo_size] at h
    rcases h with ⟨rest, hrest, hreads⟩ | hfails
    · right
      refine ⟨pathOperand "a", rest, hreads, ?_⟩
      obtain ⟨c, more, heq, hc⟩ := exists_afterPath hsymbol
      obtain ⟨_, _, hblank, hcloser, _⟩ := starts_of_isSymbolChar hc
      rw [hrest, heq]
      exact .of_cons hblank hcloser more
    · exact .inl hfails
  obtain ⟨fault, hfault, _⟩ := parse_of_snags hsnags
  rw [hfault]
  exact nofun

/-- The two paths become the arguments of a call, unless the second is appended to the keys of the
first. -/
theorem query_join_path {name : String} :
    (Operand.join table name (pathOperand "a") (pathOperand "b")).query =
        .call name [.get ["a"], .get ["b"]] ↔
      (name = "get" → table.isVararg "get" = false) := by
  have hjoin : Operand.join table name (pathOperand "a") (pathOperand "b") =
      if ("get" == name) && table.isVararg name then
        { query := .call "get" [.literal (.str "a"), .get ["b"]], height := 2 }
      else .call name [pathOperand "a", pathOperand "b"] := rfl
  rw [hjoin]
  by_cases hname : name = "get"
  · subst hname
    cases hvararg : table.isVararg "get" with
    | false => simp [Operand.call, pathOperand]
    | true => simp [Query.get]
  · simp [hname, Ne.symm hname, Operand.call, pathOperand]

end Climb

end Parser

/-- An added operator can be written between two paths exactly if no tighter group takes the front
of its symbol for an operator that may follow a path, and if one for `get` nests to the left. -/
theorem parse_between_paths_iff {operators : List Operator} {operator : Operator}
    {table : OperatorTable} {limit : Nat}
    (hextend : OperatorTable.builtin.extend operators = .ok table)
    (hfresh : OperatorTable.Fresh operators) (hmem : operator ∈ operators) (hlimit : 2 ≤ limit) :
    parse table limit (".a " ++ operator.symbol ++ " .b") =
        .ok (.call operator.name [.get ["a"], .get ["b"]]) ↔
      (∃ level, table.precedence? operator.name = some level ∧
        ∀ group ∈ table.groups.take level, ¬ table.Catches group operator.symbol) ∧
      (operator.name = "get" →
        table.isLeftAssociative "get" = true ∧ table.isVararg "get" = false) := by
  obtain ⟨budget, rfl⟩ : ∃ budget, limit = budget + 1 := ⟨limit - 1, by omega⟩
  have hsymbol := hfresh.symbol hmem
  obtain ⟨level, group, hlevel, hgroup, hlisted, hfirst⟩ :=
    Parser.exists_level_of_mem hextend hfresh hmem
  constructor
  · intro hparse
    have hcatches : ∀ group ∈ table.groups.take level, ¬ table.Catches group operator.symbol := by
      intro group' hgroup' hcatches
      obtain ⟨j, hj, rfl⟩ := List.mem_take_iff_getElem.1 hgroup'
      have hearlier : ∀ group ∈ table.groups.take (j + 1), operator.listing ∉ group :=
        fun group hgroup => hfirst group ((List.take_sublist_take_left (by omega)).subset hgroup)
      exact Parser.parse_ne_ok_of_waits hsymbol (.inr (Parser.fails_of_catches hextend hfresh hmem
        hlimit (List.getElem?_eq_getElem (by omega)) hearlier hcatches)) _ hparse
    refine ⟨⟨level, hlevel, hcatches⟩, ?_⟩
    cases hrefuses : Parser.refuses table operator.name (Parser.pathOperand "a") with
    | true =>
        exact absurd hparse (Parser.parse_ne_ok_of_waits hsymbol (Parser.waits_or_fails hextend
          hfresh hmem hlimit (Nat.le_refl table.size) fun _ _ _ => hrefuses) _)
    | false =>
        rw [Parser.parse_of_not_catches hextend hfresh hmem hlimit hgroup hlisted hrefuses hcatches]
          at hparse
        have hvararg := Parser.query_join_path.1 (Except.ok.inj hparse)
        intro hget
        have hchained := Parser.refuses_path_iff.1 hrefuses hget
        rw [hvararg hget] at hchained
        exact ⟨hchained.resolve_left (by decide), hvararg hget⟩
  · rintro ⟨⟨level', hlevel', hcatches⟩, hget⟩
    obtain rfl : level = level' := by simpa [hlevel] using hlevel'
    have hrefuses : Parser.refuses table operator.name (Parser.pathOperand "a") = false :=
      Parser.refuses_path_iff.2 fun heq => .inr (hget heq).1
    rw [Parser.parse_of_not_catches hextend hfresh hmem hlimit hgroup hlisted hrefuses hcatches]
    exact congrArg _ (Parser.query_join_path.2 fun heq => (hget heq).2)

/-- An operator of its own group, looser than the pipe, and a member of the additive group. -/
theorem parse_between_paths_default :
    let operators : List Operator :=
      [{ name := "default", symbol := "??", placement := .after "|", leftAssociative := true },
        { name := "join", symbol := "++", placement := .joining "+" }]
    ∃ table, OperatorTable.builtin.extend operators = .ok table ∧
      OperatorTable.Fresh operators ∧ ∀ operator ∈ operators,
        parse table defaultDepth (".a " ++ operator.symbol ++ " .b") =
          .ok (.call operator.name [.get ["a"], .get ["b"]]) := by
  intro operators
  obtain ⟨table, hextend, htable⟩ : ∃ table, OperatorTable.builtin.extend operators = .ok table ∧
      ∀ operator ∈ operators, ∃ level, table.precedence? operator.name = some level ∧
        ∀ group ∈ table.groups.take level, ∀ entry ∈ group,
          ¬ entry.2.toList <+: operator.symbol.toList := by
    refine ⟨_, rfl, ?_⟩
    rw [List.forall_mem_cons, List.forall_mem_singleton]
    exact ⟨⟨8, by decide, by decide⟩, ⟨2, by decide, by decide⟩⟩
  have hfresh : OperatorTable.Fresh operators := .of_forall (by decide) (by decide) (by decide)
  refine ⟨table, hextend, hfresh, fun operator hmem => ?_⟩
  obtain ⟨level, hlevel, htighter⟩ := htable operator hmem
  refine (parse_between_paths_iff hextend hfresh hmem (by decide)).2
    ⟨⟨level, hlevel, ?_⟩, ?_⟩
  · rintro group hgroup ⟨entry, hentry, hstart, _⟩
    exact htighter group hgroup entry hentry hstart
  · have hget : ∀ operator ∈ operators, operator.name ≠ "get" := by decide
    exact fun heq => absurd heq (hget operator hmem)

/-- Operators that cannot be written: the pipe takes the front of `||`, and an operator for `get`
may not follow a path. -/
theorem exists_not_written :
    let operators : List Operator :=
      [{ name := "either", symbol := "||", placement := .after "|" },
        { name := "get", symbol := "~", placement := .joining "==" }]
    ∃ table, OperatorTable.builtin.extend operators = .ok table ∧
      OperatorTable.Fresh operators ∧ ∀ operator ∈ operators, ∀ query,
        parse table defaultDepth (".a " ++ operator.symbol ++ " .b") ≠ .ok query := by
  intro operators
  have hfresh : OperatorTable.Fresh operators := .of_forall (by decide) (by decide) (by decide)
  obtain ⟨table, hextend, ⟨group, hpipe, hlater, hcatches⟩, hget⟩ :
      ∃ table, OperatorTable.builtin.extend operators = .ok table ∧
        (∃ group, table.groups[7]? = some group ∧
          (∀ group' ∈ table.groups.take 8, ("either", "||") ∉ group') ∧
          table.Catches group "||") ∧
        Parser.refuses table "get" (Parser.pathOperand "a") = true := by
    refine ⟨_, rfl, ⟨_, rfl, by decide, ⟨("pipe", "|"), ?_, ?_, ?_, ?_⟩⟩, by decide⟩ <;> decide
  refine ⟨table, hextend, hfresh, ?_⟩
  change ∀ operator ∈ operators, ∀ query,
    parse table (127 + 1) (".a " ++ operator.symbol ++ " .b") ≠ .ok query
  rw [List.forall_mem_cons, List.forall_mem_singleton]
  constructor
  · have hmem : operators[0] ∈ operators := List.getElem_mem _
    exact Parser.parse_ne_ok_of_waits (hfresh.symbol hmem)
      (.inr (Parser.fails_of_catches hextend hfresh hmem (by decide) hpipe hlater hcatches))
  · have hmem : operators[1] ∈ operators := List.getElem_mem _
    exact Parser.parse_ne_ok_of_waits (hfresh.symbol hmem)
      (Parser.waits_or_fails hextend hfresh hmem (by decide) (Nat.le_refl _) fun _ _ _ => hget)

end PipeQuery
