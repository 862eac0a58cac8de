/-
Tables that custom operators extend.

An extended table holds the entries it was extended from and those of the new operators, wherever
they were placed.  With symbols of operator characters that no group and no looser group confuses,
trees of operators come back from their text unchanged.
-/
import PipeQuery.Proofs.Extension
import PipeQuery.Proofs.RoundTrip

namespace PipeQuery

namespace OperatorTable

variable {table : OperatorTable} {operator : Operator} {operators : List Operator}
  {entry : String × String}

/-- The characters of custom symbols. -/
def isSymbolChar (c : Char) : Bool :=
  "?~@#&!=<>*+-/%^|".toList.contains c

/-- A symbol of at least one operator character. -/
def IsSymbol (symbol : String) : Prop :=
  symbol.toList ≠ [] ∧ ∀ c ∈ symbol.toList, isSymbolChar c = true

/-- Custom operators whose names are new and whose symbols are made of operator characters. -/
structure Custom (operators : List Operator) : Prop where
  distinct : (operators.map (·.name)).Nodup
  new {operator : Operator} (h : operator ∈ operators) :
    builtin.precedence? operator.name = none ∧
      operator.name ≠ "get" ∧ operator.name ≠ "array" ∧ operator.name ≠ "object"
  symbol {operator : Operator} (h : operator ∈ operators) : IsSymbol operator.symbol

/-- The symbols of a group are distinct, and no symbol of a tighter group equals or starts one of a
looser group. -/
structure Unambiguous (table : OperatorTable) : Prop where
  distinct : ∀ group ∈ table.groups, ∀ entry ∈ group, ∀ entry' ∈ group,
    entry.2 = entry'.2 → entry = entry'
  tighter : table.groups.Pairwise fun group group' =>
    ∀ entry ∈ group, ∀ entry' ∈ group', ¬ entry.2.toList <+: entry'.2.toList

/-- The symbol starts like no other token, no symbol but `not in` has a space inside, and the name
is none of a path, an array or an object. -/
abbrev IsUsable (entry : String × String) : Prop :=
  Parser.isSymbolStart entry.2 = true ∧ entry.2 ≠ "not" ∧
    (' ' ∈ entry.2.toList → entry.2 = "not in") ∧
    entry.1 ≠ "get" ∧ entry.1 ≠ "array" ∧ entry.1 ≠ "object"

theorem isUsable_builtin (h : builtin.HasEntry entry) : IsUsable entry := by
  obtain ⟨group, hgroup, hentry⟩ := h
  revert entry
  revert group
  decide

theorem isSymbolStart_of_isSymbol {symbol : String} (h : IsSymbol symbol) :
    Parser.isSymbolStart symbol = true := by
  obtain ⟨hne, hchars⟩ := h
  unfold Parser.isSymbolStart
  split
  · rename_i hnil
    exact absurd hnil hne
  · rename_i c more hlist
    have hc := hchars c (by simp [hlist])
    have hall : ("?~@#&!=<>*+-/%^|".toList.all fun c =>
        !Scan.isBlank c && !Parser.isCloser c && c != '(') = true := by decide
    exact List.all_eq_true.1 hall c (by simpa [isSymbolChar] using hc)

theorem isUsable_of_custom (hcustom : Custom operators) (hmem : operator ∈ operators) :
    IsUsable (operator.name, operator.symbol) := by
  have hsymbol := hcustom.symbol hmem
  have hchar (c : Char) (hc : isSymbolChar c = false) : c ∉ operator.symbol.toList := by
    intro hmem'
    simp [hsymbol.2 c hmem'] at hc
  refine ⟨isSymbolStart_of_isSymbol hsymbol, ?_, ?_, (hcustom.new hmem).2⟩
  · intro hnot
    exact hchar 'n' (by decide) (by simp [show operator.symbol = "not" from hnot])
  · exact fun hspace => absurd hspace (hchar ' ' (by decide))

/-- Every entry of a table that extends the builtin one is usable. -/
theorem isUsable_of_extend (h : builtin.extend operators = .ok table) (hcustom : Custom operators)
    (hentry : table.HasEntry entry) : IsUsable entry := by
  rcases hasEntry_of_extend h hentry with hbuiltin | ⟨operator, hmem, rfl⟩
  · exact isUsable_builtin hbuiltin
  · exact isUsable_of_custom hcustom hmem

theorem eq_not_of_append_space {piece : List Char} (h : piece ++ [' '] <+: "not in".toList) :
    piece = "not".toList := by
  obtain ⟨rest, hrest⟩ := h
  rcases piece with _ | ⟨a, _ | ⟨b, _ | ⟨c, _ | ⟨d, _ | ⟨e, _ | ⟨f, more⟩⟩⟩⟩⟩⟩ <;>
    simp_all

theorem separable_of_extend (h : builtin.extend operators = .ok table) (hcustom : Custom operators)
    (hunambiguous : Unambiguous table) : Parser.Separable table where
  groups_ne_nil := groups_ne_nil_of_extend h (by decide)
  starts hgroup entry hentry := (isUsable_of_extend h hcustom ⟨_, hgroup, hentry⟩).1
  distinct hgroup := hunambiguous.distinct _ hgroup
  unspaced hgroup hgroup' entry hentry entry' hentry' hstart := by
    obtain ⟨_, hnot, _⟩ := isUsable_of_extend h hcustom ⟨_, hgroup, hentry⟩
    obtain ⟨_, _, hspace, _⟩ := isUsable_of_extend h hcustom ⟨_, hgroup', hentry'⟩
    rw [hspace (hstart.subset (by simp))] at hstart
    exact hnot (String.toList_inj.1 (eq_not_of_append_space hstart))
  tighter := hunambiguous.tighter
  constructors {name} hname := by
    cases hsymbol : table.symbol? name with
    | none => rfl
    | some symbol =>
        obtain ⟨_, group, _, hgroup, hmem⟩ := Parser.exists_group_of_symbol? hsymbol
        obtain ⟨_, _, _, hget, harray, hobject⟩ :=
          isUsable_of_extend h hcustom ⟨group, List.mem_of_getElem? hgroup, hmem⟩
        rcases hname with rfl | rfl | rfl
        · exact absurd rfl hget
        · exact absurd rfl harray
        · exact absurd rfl hobject

end OperatorTable

namespace Printer

open PipeQuery.Parser (Legible)

variable {table : OperatorTable} {query first : Query} {name : String} {args others : List Query}

/-- Trees of operators over finite scalars and paths. -/
inductive OperatorTree (table : OperatorTable) : Query → Prop
  | literal {value : Value} (h : IsFiniteScalar value) : OperatorTree table (.literal value)
  | path {keys : List String} (hne : keys ≠ []) : OperatorTree table (.get keys)
  | call {name : String} {args : List Query} (hoperator : (table.precedence? name).isSome = true)
      (hlength : args.length = 2 ∨ (2 ≤ args.length ∧ table.isVararg name = true))
      (hargs : ∀ arg ∈ args, OperatorTree table arg) : OperatorTree table (.call name args)

theorem exists_symbol?_of_precedence? (h : (table.precedence? name).isSome = true) :
    ∃ symbol, table.symbol? name = some symbol := by
  obtain ⟨level, hlevel⟩ := Option.isSome_iff_exists.1 h
  obtain ⟨hlt, hcontains, _⟩ := List.findIdx?_eq_some_iff_getElem.1 hlevel
  obtain ⟨⟨head, symbol⟩, hentry, hname⟩ := List.any_eq_true.1 hcontains
  obtain rfl : head = name := by simpa using hname
  exact Parser.exists_symbol?_of_mem (List.getElem_mem hlt) hentry

theorem exists_symbolFor? (hoperator : (table.precedence? name).isSome = true)
    (hlength : args.length = 2 ∨ (2 ≤ args.length ∧ table.isVararg name = true)) :
    ∃ symbol, symbolFor? table name args = some symbol := by
  obtain ⟨symbol, hsymbol⟩ := exists_symbol?_of_precedence? hoperator
  refine ⟨symbol, ?_⟩
  rw [symbolFor?, if_pos, hsymbol]
  rcases hlength with h | ⟨h, hvararg⟩
  · exact .inl h
  · rcases Nat.eq_or_lt_of_le h with heq | hlt
    · exact .inl heq.symm
    · exact .inr ⟨hlt, hvararg⟩

theorem name_ne_of_symbol? (hlegible : Legible table) {symbol : String}
    (h : table.symbol? name = some symbol) : name ≠ "get" ∧ name ≠ "array" ∧ name ≠ "object" := by
  have hne (other : String) (hother : table.symbol? other = none) : name ≠ other := by
    rintro rfl
    simp [hother] at h
  exact ⟨hne _ (hlegible.constructors (.inl rfl)), hne _ (hlegible.constructors (.inr (.inl rfl))),
    hne _ (hlegible.constructors (.inr (.inr rfl)))⟩

/-- A call in a tree of operators is infix, unless it is a path. -/
theorem isInfix_of_operatorTree (hne : name ≠ "get") (h : OperatorTree table query)
    (hquery : query = .call name args) : IsInfix table name args := by
  cases h with
  | literal => simp at hquery
  | path =>
      simp only [Query.get, Query.call.injEq] at hquery
      exact absurd hquery.1.symm hne
  | call hoperator hlength =>
      obtain ⟨rfl, rfl⟩ : _ = name ∧ _ = args := by simpa using hquery
      obtain ⟨symbol, hsymbol⟩ := exists_symbolFor? hoperator hlength
      simp [IsInfix, hsymbol]

/-- A tree of operators restates itself. -/
theorem reading_eq_plain_of_operatorTree (hlegible : Legible table) (h : OperatorTree table query) :
    reading table query = plain query := by
  induction h with
  | literal h => exact reading_finiteScalar h
  | @path keys hne => exact reading_get_eq_plain (pathKeys?_get hne)
  | @call name args hoperator hlength hargs ih =>
      obtain ⟨symbol, hsymbol⟩ := exists_symbolFor? hoperator hlength
      have hname := (name_ne_of_symbol? hlegible (symbol?_of_symbolFor? hsymbol)).1
      have hpath : pathKeys? name args = none := by simp [pathKeys?, hname]
      obtain ⟨first, others, rfl⟩ := exists_cons_of_symbolFor? hsymbol
      have hrestated (arg : Query) (harg : arg ∈ first :: others) : restated table arg = arg :=
        restated_of_eq (ih arg harg)
      have hchain : ¬ Continues table name first := by
        rintro ⟨hchain, hvararg⟩
        have hnests := leftAssociative_of_isChain (Option.isSome_iff_exists.1 hoperator)
          (fun args' heq => isInfix_of_operatorTree hname (hargs first List.mem_cons_self) heq)
          (hrestated first List.mem_cons_self) hchain
        simp [hvararg] at hnests
      rw [reading_joined hpath hsymbol hchain fun arg harg => .of_eq (ih arg harg),
        map_restated_eq hrestated]

theorem writable_of_operatorTree (hlegible : Legible table) (h : OperatorTree table query) :
    Writable table query := by
  induction h with
  | literal h => exact writable_finiteScalar h
  | @path keys hne =>
      refine .call ?_ (fun _ => by decide) ?_
      · intro arg harg
        obtain ⟨key, _, rfl⟩ := List.mem_map.1 harg
        exact @writable_finiteScalar table (.str key) trivial
      · intro first others _ hsymbol
        simp [symbolFor?_eq_none (hlegible.constructors (.inl (rfl : "get" = _)))] at hsymbol
  | @call name args hoperator hlength hargs ih =>
      obtain ⟨symbol, hsymbol⟩ := exists_symbolFor? hoperator hlength
      have hname := (name_ne_of_symbol? hlegible (symbol?_of_symbolFor? hsymbol)).1
      refine .call ih (by simp [hsymbol]) ?_
      rintro first others rfl -
      have htree := hargs first List.mem_cons_self
      exact refuses_eq_false (Option.isSome_iff_exists.1 hoperator)
        (fun args' heq => isInfix_of_operatorTree hname htree heq)
        (restated_of_eq (reading_eq_plain_of_operatorTree hlegible htree))

end Printer

/-- Trees of operators come back from their text under any table that custom operators extend
without ambiguity. -/
theorem parse_print_of_operatorTree {operators : List Operator} {table : OperatorTable}
    {query : Query} {layout : LineLayout} {limit : Nat}
    (hextend : OperatorTable.builtin.extend operators = .ok table)
    (hcustom : OperatorTable.Custom operators) (hunambiguous : OperatorTable.Unambiguous table)
    (hquery : Printer.OperatorTree table query) (hlayout : Grammar.Blank layout.indentation.toList)
    (hlimit : query.height < limit) :
    parse table limit (print table layout query) = .ok query := by
  have hlegible := (OperatorTable.separable_of_extend hextend hcustom hunambiguous).legible
  have hreading := Printer.reading_eq_plain_of_operatorTree hlegible hquery
  have hwritable := Printer.writable_of_operatorTree hlegible hquery
  have hheight : (Printer.reading table query).height < limit := by
    rw [hreading]
    exact hlimit
  have hparse := parse_print hlegible hlayout hwritable hheight
  rw [hparse, hreading]
  rfl

/-- An operator of its own group, looser than the pipe. -/
theorem parse_print_of_operatorTree_default :
    let operators : List Operator :=
      [{ name := "default", symbol := "??", placement := .after "|", leftAssociative := true }]
    let table : OperatorTable :=
      { OperatorTable.builtin with
        groups := OperatorTable.builtin.groups ++ [[("default", "??")]]
        leftAssociative := "default" :: OperatorTable.builtin.leftAssociative }
    let query := Query.call "default" [.call "default" [.get ["a"], .get ["b"]], .literal .null]
    OperatorTable.builtin.extend operators = .ok table ∧ OperatorTable.Custom operators ∧
      OperatorTable.Unambiguous table ∧ Printer.OperatorTree table query ∧
      Grammar.Blank ({} : LineLayout).indentation.toList ∧ query.height < 4 ∧
      parse table 4 (print table {} query) = .ok query := by
  intro operators table query
  have hextend : OperatorTable.builtin.extend operators = .ok table := by rfl
  have hcustom : OperatorTable.Custom operators := by
    refine ⟨by decide, ?_, ?_⟩
    · intro operator hmem
      obtain rfl := List.mem_singleton.1 hmem
      decide
    · intro operator hmem
      obtain rfl := List.mem_singleton.1 hmem
      exact ⟨by decide, List.all_eq_true.1 rfl⟩
  have hunambiguous : OperatorTable.Unambiguous table := ⟨by decide +kernel, by decide +kernel⟩
  have hpath (key : String) : Printer.OperatorTree table (.get [key]) := .path (by simp)
  have hquery : Printer.OperatorTree table query := by
    refine .call (by decide) (.inl rfl) ?_
    have hinner : Printer.OperatorTree table (.call "default" [.get ["a"], .get ["b"]]) := by
      refine .call (by decide) (.inl rfl) ?_
      simpa using ⟨hpath "a", hpath "b"⟩
    simpa using ⟨hinner, .literal trivial⟩
  have hblank : Grammar.Blank ({} : LineLayout).indentation.toList := by
    simp [Grammar.Blank, Scan.isBlank]
  have hheight : query.height < 4 := by simp [query, Query.height, Query.get]
  exact ⟨hextend, hcustom, hunambiguous, hquery, hblank, hheight,
    parse_print_of_operatorTree hextend hcustom hunambiguous hquery hblank hheight⟩

end PipeQuery
