/-
Queries that come back from their text unchanged.
-/
import PipeQuery.Proofs.Restatement

namespace PipeQuery

namespace Printer

open PipeQuery.Parser (Operand Legible joinAll refuses refuses_eq_false_of_isChain)

variable {table : OperatorTable} {layout : LineLayout} {limit : Nat} {name symbol : String}
  {args others : List Query} {first query : Query} {keys : List String}

/-! ## Operands that restate themselves -/

/-- A call that is written with its symbol between its operands. -/
def IsInfix (table : OperatorTable) (name : String) (args : List Query) : Prop :=
  (symbolFor? table name args).isSome = true

theorem map_restated_eq (hargs : ∀ arg ∈ args, restated table arg = arg) :
    args.map (restated table) = args := by
  rw [List.map_congr_left hargs, List.map_id']

/-- An operand that an operator of its own would continue nests to the left: else it stands in
parentheses.  It is infix itself, so that `needsParentheses` sees it. -/
theorem leftAssociative_of_isChain (hlevel : ∃ level, table.precedence? name = some level)
    (hfirst : ∀ args', first = .call name args' → IsInfix table name args')
    (hrestated : restated table first = first)
    (h : (grouped (needsParentheses table name true first) (reading table first)).isChain name =
      true) :
    table.isVararg name = false ∧ table.isLeftAssociative name = true := by
  obtain ⟨level, hlevel⟩ := hlevel
  have hname : first.callName? = some name := by
    rw [← hrestated]
    exact callName?_of_isChain h
  obtain ⟨args', rfl⟩ : ∃ args', first = .call name args' := by
    cases first with
    | call head args' =>
        obtain rfl := Option.some.inj hname
        exact ⟨args', rfl⟩
    | literal value => cases hname
    | mapping entries => cases hname
  exact nestsLeft_of_needsParentheses hlevel (hfirst args' rfl) (not_grouped_of_isChain h)

theorem refuses_eq_false (hlevel : ∃ level, table.precedence? name = some level)
    (hfirst : ∀ args', first = .call name args' → IsInfix table name args')
    (hrestated : restated table first = first) :
    refuses table name (grouped (needsParentheses table name true first) (reading table first)) =
      false :=
  refuses_eq_false_of_isChain fun hchain =>
    (leftAssociative_of_isChain hlevel hfirst hrestated hchain).2

/-! ## Literals and paths -/

theorem scalarText_of_isFiniteScalar {value : Value} (h : IsFiniteScalar value) :
    ScalarText value := by
  cases value with
  | float x => exact exact_of_isFinite h
  | arr items => exact h.elim
  | obj members => exact h.elim
  | _ => trivial

theorem writable_finiteScalar {value : Value} (h : IsFiniteScalar value) :
    Writable table (.literal value) :=
  .literal (.scalar (scalarText_of_isFiniteScalar h))

/-- A text as a literal. -/
def IsText : Query → Prop
  | .literal (.str _) => True
  | _ => False

theorem get_of_mapM_segmentKey? (hargs : ∀ arg ∈ args, IsText arg)
    (h : args.mapM segmentKey? = some keys) :
    (keys.map fun key => Query.literal (.str key)) = args := by
  induction args generalizing keys with
  | nil =>
      obtain rfl : [] = keys := by simpa using h
      rfl
  | cons arg args ih =>
      simp only [List.mapM_cons, Option.bind_eq_bind, Option.bind_eq_some_iff, Option.pure_def,
        Option.some.injEq] at h
      obtain ⟨key, hkey, keys, hkeys, rfl⟩ := h
      have harg := hargs arg List.mem_cons_self
      have hrest := ih (fun arg hmem => hargs arg (List.mem_cons_of_mem _ hmem)) hkeys
      unfold IsText at harg
      split at harg
      · obtain rfl : _ = key := by simpa [segmentKey?] using hkey
        rw [List.map_cons, hrest]
      · exact harg.elim

/-! ## Printable queries -/

/-- A segment of a path: a text, or a whole number that is not negative. -/
def IsSegment : Query → Prop
  | .literal (.str _) => True
  | .literal (.int n) => 0 ≤ n.toInt
  | _ => False

/-- A call that is written infix does not start with a call of the same name in function form. -/
def StartsInfix (table : OperatorTable) (name : String) (args : List Query) : Prop :=
  IsInfix table name args →
    ∀ args' others, args = .call name args' :: others → IsInfix table name args'

/-- Queries that their text with the operators every query has determines: the literals are finite
scalars, names are plain, except that `not in` may stand between two operands, mappings occur in
objects only, the segments of a path are texts, and infix calls start infix. -/
inductive Printable : Query → Prop
  | literal {value : Value} (h : IsFiniteScalar value) : Printable (.literal value)
  | call {name : String} {args : List Query} (hname : isPlainName name = true)
      (hargs : ∀ arg ∈ args, Printable arg)
      (hget : name = "get" → args ≠ [] → (∀ arg ∈ args, IsSegment arg) → ∀ arg ∈ args, IsText arg)
      (hstart : StartsInfix .builtin name args) : Printable (.call name args)
  | notIn {left right : Query} (hleft : Printable left) (hright : Printable right) :
      Printable (.call "not in" [left, right])
  | object {entries : List (String × Query)} (hdistinct : Entries.Distinct entries)
      (hentries : ∀ entry ∈ entries, Printable entry.2) :
      Printable (.call "object" [.mapping entries])

theorem isSegment_of_segmentKey? {query : Query} {key : String} (h : segmentKey? query = some key) :
    IsSegment query := by
  unfold segmentKey? at h
  split at h
  · trivial
  · split at h
    · rename_i hn
      exact hn
    · simp at h
  · simp at h

theorem forall_isSegment_of_pathKeys? (h : pathKeys? name args = some keys) :
    args ≠ [] ∧ ∀ arg ∈ args, IsSegment arg := by
  have hmapM := (mapM_segmentKey?_of_pathKeys? h).2
  constructor
  · rintro rfl
    simp [pathKeys?] at h
  · clear h
    induction args generalizing keys with
    | nil => simp
    | cons arg args ih =>
        simp only [List.mapM_cons, Option.bind_eq_bind, Option.bind_eq_some_iff, Option.pure_def,
          Option.some.injEq] at hmapM
        obtain ⟨key, hkey, keys, hkeys, rfl⟩ := hmapM
        intro arg' hmem
        rcases List.mem_cons.1 hmem with rfl | hmem
        · exact isSegment_of_segmentKey? hkey
        · exact ih hkeys arg' hmem

theorem functionName_of_isPlainName (hname : isPlainName name = true) : name ≠ "not in" := by
  rintro rfl
  exact absurd hname (by decide)

theorem isInfix_notIn_of_printable (h : Printable query) (hquery : query = .call "not in" args) :
    IsInfix .builtin "not in" args := by
  cases h with
  | literal => simp at hquery
  | @call name args' hname =>
      obtain ⟨rfl, rfl⟩ : name = "not in" ∧ args' = args := by simpa using hquery
      exact absurd hname (by decide)
  | @notIn left right =>
      obtain rfl : [left, right] = args := by simpa using hquery
      rfl
  | object => simp at hquery

theorem wellFormed_of_printable (h : Printable query) : query.Everywhere Query.WellFormed := by
  induction h with
  | literal h => exact .literal (.scalar h)
  | call _ _ _ _ ih => exact .call trivial ih
  | notIn _ _ ihleft ihright => exact .call trivial (by simpa using ⟨ihleft, ihright⟩)
  | object hdistinct _ ih => exact .call trivial (by simpa using .mapping hdistinct ih)

/-- A printable query restates itself. -/
theorem restated_of_printable (h : Printable query) : restated .builtin query = query := by
  induction h with
  | literal h => exact restated_of_eq (reading_finiteScalar h)
  | @call name args hname hargs hget hstart ih =>
      have hsame := map_restated_eq ih
      have hshape :=
        restates_of_wellFormed (wellFormed_of_printable (.call hname hargs hget hstart))
      generalize restated .builtin (.call name args) = result at hshape
      cases hshape with
      | @object entries _ hmapping =>
          have hprintable := hargs (.mapping entries) (by simp [hmapping])
          cases hprintable
      | path hkeys =>
          obtain ⟨rfl, hmapM⟩ := mapM_segmentKey?_of_pathKeys? hkeys
          obtain ⟨hne, hsegments⟩ := forall_isSegment_of_pathKeys? hkeys
          rw [Query.get, get_of_mapM_segmentKey? (hget rfl hne hsegments) hmapM]
      | function =>
          rw [hsame, functionName, if_neg (functionName_of_isPlainName hname)]
      | operator => rw [hsame]
      | continued hcall heq _ _ hfunction =>
          have hinner := hstart (by simp [IsInfix, hcall]) _ _ heq
          simp [IsInfix, hfunction] at hinner
  | @notIn left right hleft hright ihleft ihright =>
      have hsame : [left, right].map (restated .builtin) = [left, right] := by
        simp [ihleft, ihright]
      have hshape := restates_of_wellFormed (wellFormed_of_printable (.notIn hleft hright))
      generalize restated .builtin (.call "not in" [left, right]) = result at hshape
      cases hshape with
      | object hname => simp at hname
      | path hkeys => simp [pathKeys?] at hkeys
      | function _ hsymbol => cases hsymbol
      | operator => rw [hsame]
      | continued _ _ _ _ _ hvararg => cases hvararg
  | @object entries hdistinct hentries ih =>
      have hsame : (entries.map fun entry => (entry.1, restated .builtin entry.2)) = entries := by
        rw [List.map_congr_left fun entry hentry => by rw [ih entry hentry], List.map_id']
      have hshape := restates_of_wellFormed (wellFormed_of_printable (.object hdistinct hentries))
      generalize restated .builtin (.call "object" [.mapping entries]) = result at hshape
      cases hshape with
      | object _ heq =>
          obtain rfl : entries = _ := by simpa using heq
          rw [hsame, Query.object]
      | path hkeys => simp [pathKeys?] at hkeys
      | function hobject => exact (hobject ⟨rfl, entries, rfl⟩).elim
      | operator hsymbol => simp [symbolFor?_of_length] at hsymbol
      | continued hcall => simp [symbolFor?_of_length] at hcall

theorem writable_of_printable (h : Printable query) : Writable .builtin query := by
  have hlegible := Parser.separable_builtin.legible
  induction h with
  | literal h => exact writable_finiteScalar h
  | @call name args hname hargs _ hstart ih =>
      refine .call ih (fun _ => ?_) ?_
      · rwa [functionName, if_neg (functionName_of_isPlainName hname)]
      · rintro first others rfl hwritten
        obtain ⟨symbol, hsymbol⟩ := Option.isSome_iff_exists.1 hwritten
        obtain ⟨level, _, hlevel, _⟩ := hlegible.group (symbol?_of_symbolFor? hsymbol)
        have hrestated := restated_of_printable (hargs first List.mem_cons_self)
        apply refuses_eq_false ⟨level, hlevel⟩ _ hrestated
        rintro args' rfl
        exact hstart hwritten args' others rfl
  | @notIn left right hleft hright ihleft ihright =>
      refine .call (by simpa using ⟨ihleft, ihright⟩) (fun hsymbol => by cases hsymbol) ?_
      rintro first others hshape -
      obtain ⟨rfl, rfl⟩ : left = first ∧ [right] = others := by simpa using hshape
      have hlevel : OperatorTable.builtin.precedence? "not in" = some 3 := by decide
      apply refuses_eq_false ⟨3, hlevel⟩ _ (restated_of_printable hleft)
      intro args' heq
      exact isInfix_notIn_of_printable hleft heq
  | @object entries _ _ ih =>
      refine .call (by simpa using .mapping ih) (fun _ => by decide) ?_
      intro first others _ hsymbol
      simp [symbolFor?_of_length] at hsymbol

end Printer

/-- Parsing undoes printing with the operators every query has, in any layout whose indentation is
blank and within any limit above the height of the query. -/
theorem parse_print_of_printable {query : Query} {layout : LineLayout} {limit : Nat}
    (h : Printer.Printable query) (hlayout : Grammar.Blank layout.indentation.toList)
    (hlimit : query.height < limit) :
    parse .builtin limit (print .builtin layout query) = .ok query := by
  have hrestated := Printer.restated_of_printable h
  have hheight : (Printer.reading .builtin query).height < limit := by
    rw [Printer.readsPlain_of_wellFormed (Printer.wellFormed_of_printable h), hrestated]
    exact hlimit
  rw [parse_print Parser.separable_builtin.legible hlayout (Printer.writable_of_printable h)
    hheight]
  exact congrArg Except.ok hrestated

/-- A query with two operators, `.age > 18 and .name not in []` in the text. -/
theorem parse_print_of_printable_comparison :
    let query := Query.call "and"
      [.call "gt" [.get ["age"], .literal (.int 18)],
        .call "not in" [.get ["name"], .call "array" []]]
    Printer.Printable query ∧ Grammar.Blank ({} : LineLayout).indentation.toList ∧
      query.height < 4 ∧ parse .builtin 4 (print .builtin {} query) = .ok query := by
  have hpath (key : String) : Printer.Printable (.get [key]) := by
    refine .call (by decide) ?_ (fun _ _ _ arg harg => ?_) ?_
    · intro arg harg
      obtain rfl := List.mem_singleton.1 harg
      exact .literal trivial
    · obtain rfl := List.mem_singleton.1 harg
      trivial
    · exact fun hsymbol => absurd hsymbol (by simp [Printer.IsInfix, Printer.symbolFor?])
  have harray : Printer.Printable (.call "array" []) :=
    .call (by decide) (by simp) (by simp) (by simp [Printer.StartsInfix])
  have hgt : Printer.Printable (.call "gt" [.get ["age"], .literal (.int 18)]) := by
    refine .call (by decide) ?_ (by simp) ?_
    · simpa using ⟨hpath "age", .literal trivial⟩
    · rintro - args' others hargs
      simp [Query.get] at hargs
  have hquery : Printer.Printable (.call "and"
      [.call "gt" [.get ["age"], .literal (.int 18)],
        .call "not in" [.get ["name"], .call "array" []]]) := by
    refine .call (by decide) ?_ (by simp) ?_
    · simpa using ⟨hgt, .notIn (hpath "name") harray⟩
    · rintro - args' others hargs
      simp at hargs
  have hblank : Grammar.Blank ({} : LineLayout).indentation.toList := by
    simp [Grammar.Blank, Scan.isBlank]
  have hheight : Query.height (.call "and"
      [.call "gt" [.get ["age"], .literal (.int 18)],
        .call "not in" [.get ["name"], .call "array" []]]) < 4 := by
    simp [Query.height, Query.get]
  exact ⟨hquery, hblank, hheight, parse_print_of_printable hquery hblank hheight⟩

end PipeQuery
