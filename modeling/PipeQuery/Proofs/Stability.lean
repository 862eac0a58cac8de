/-
Formatting what was parsed.

The text of a parsed query is read as its restatement, and the restatement is written as the query
is: a path has the same keys, a float beyond the finite ones stands for null, and everything else
restates itself.  The exception is an operator that meets a call of its own in function form: it
takes over the arguments of that call, or may not follow it.
-/
import PipeQuery.Proofs.Parsed
import PipeQuery.Proofs.RoundTrip

namespace PipeQuery

namespace Printer

open PipeQuery.Parser (Operand Legible refuses refuses_eq_false_of_isChain)
open PipeQuery.Query (height_call_le height_lt_of_mem height_lt_of_mem_object height_object_le)

variable {table : OperatorTable} {name symbol : String} {args others : List Query}
  {first query : Query} {keys : List String}

/-! ## Null for floats beyond the finite ones -/

theorem parsed_finite (h : Parsed table query) : Parsed table query.finite := by
  induction h with
  | @literal value h =>
      rw [Query.finite]
      refine .literal ?_
      cases value with
      | float x =>
          rw [Value.finite]
          split <;> trivial
      | arr items => exact h.elim
      | obj members => exact h.elim
      | _ => simp [Value.finite, Value.IsScalar]
  | @call name args hname _ ih =>
      rw [Query.finite]
      refine .call (fun hnone => hname ?_) (List.forall_mem_map.2 ih)
      rwa [symbolFor?_map] at hnone
  | @object entries hdistinct _ ih =>
      rw [Query.finite, List.map_cons, List.map_nil, Query.finite]
      exact .object (distinct_map hdistinct Query.finite) (List.forall_mem_map.2 ih)

theorem isFiniteScalar_finite {value : Value} (h : value.IsScalar) :
    IsFiniteScalar value.finite := by
  cases value with
  | float x =>
      rw [Value.finite]
      split
      · assumption
      · trivial
  | arr items => exact h.elim
  | obj members => exact h.elim
  | _ => simp [Value.finite, IsFiniteScalar]

theorem wellFormed_finite (h : Parsed table query) :
    query.finite.Everywhere Query.WellFormed := by
  induction h with
  | literal h =>
      rw [Query.finite]
      exact .literal (.scalar (isFiniteScalar_finite h))
  | call _ _ ih =>
      rw [Query.finite]
      exact .call trivial (List.forall_mem_map.2 ih)
  | object hdistinct _ ih =>
      rw [Query.finite, List.map_cons, List.map_nil, Query.finite]
      refine .call trivial (List.forall_mem_singleton.2 ?_)
      exact .mapping (distinct_map hdistinct Query.finite) (List.forall_mem_map.2 ih)

/-! ## Operators that meet calls of their own -/

/-- A call that is written infix starts with a call of the same name in function form, and the
operator does not nest to the left: read again, it takes over the arguments of that call or may not
follow it. -/
def MeetsOwn (table : OperatorTable) (query : Query) : Prop :=
  ∃ name inner others, query = .call name (.call name inner :: others) ∧
    IsInfix table name (.call name inner :: others) ∧ ¬ IsInfix table name inner ∧
      (table.isVararg name = true ∨ table.isLeftAssociative name = false)

theorem not_meetsOwn_of_ne (h : ∀ first ∈ args.head?, first.callName? ≠ some name) :
    ¬ MeetsOwn table (.call name args) := by
  rintro ⟨name', inner, others, heq, _⟩
  obtain ⟨rfl, rfl⟩ := Query.call.inj heq
  exact h _ rfl rfl

theorem meetsOwn_finite (h : MeetsOwn table query.finite) : MeetsOwn table query := by
  obtain ⟨name, inner', others', heq, hinfix, hinner, hkind⟩ := h
  cases query with
  | literal value => simp [Query.finite] at heq
  | mapping entries => simp [Query.finite] at heq
  | call head args =>
      rw [Query.finite] at heq
      obtain ⟨rfl, hargs⟩ := Query.call.inj heq
      obtain ⟨first, others, rfl, hfirst, rfl⟩ := List.map_eq_cons_iff.1 hargs
      cases first with
      | literal value => simp [Query.finite] at hfirst
      | mapping entries => simp [Query.finite] at hfirst
      | call head' inner =>
          rw [Query.finite] at hfirst
          obtain ⟨rfl, rfl⟩ := Query.call.inj hfirst
          rw [← hargs, IsInfix, symbolFor?_map] at hinfix
          rw [IsInfix, symbolFor?_map] at hinner
          exact ⟨_, inner, others, rfl, hinfix, hinner, hkind⟩

theorem everywhere_finite (h : query.Everywhere fun query => ¬ MeetsOwn table query) :
    query.finite.Everywhere fun query => ¬ MeetsOwn table query := by
  induction h with
  | literal h =>
      have hhere := fun hmeets => h (meetsOwn_finite hmeets)
      rw [Query.finite] at hhere ⊢
      exact .literal hhere
  | mapping h _ ih =>
      have hhere := fun hmeets => h (meetsOwn_finite hmeets)
      rw [Query.finite] at hhere ⊢
      exact .mapping hhere (List.forall_mem_map.2 ih)
  | call h _ ih =>
      have hhere := fun hmeets => h (meetsOwn_finite hmeets)
      rw [Query.finite] at hhere ⊢
      exact .call hhere (List.forall_mem_map.2 ih)

/-- An operator that meets no call of its own may follow its first operand. -/
theorem refuses_eq_false_of_not_meetsOwn (hlegible : Legible table)
    (hsymbol : symbolFor? table name (first :: others) = some symbol) (hname : name ≠ "notIn")
    (hmeets : ¬ MeetsOwn table (.call name (first :: others))) :
    refuses table name (grouped (needsParentheses table name true first) (reading table first)) =
      false := by
  refine refuses_eq_false_of_isChain fun hchain => ?_
  have hname' := symbol?_of_symbolFor? hsymbol
  obtain ⟨level, _, hlevel, _⟩ := hlegible.group hname'
  obtain ⟨inner, rfl⟩ :=
    exists_call_of_callName? hlegible hname' hname (callName?_of_isChain hchain)
  by_cases hinner : IsInfix table name inner
  · exact (nestsLeft_of_needsParentheses hlevel hinner (not_grouped_of_isChain hchain)).2
  · by_contra hnot
    apply hmeets
    refine ⟨name, inner, others, rfl, ?_, hinner, .inr (by simpa using hnot)⟩
    simp [IsInfix, hsymbol]

theorem writable_of_parsed (h : Parsed .builtin query) (hwell : query.Everywhere Query.WellFormed)
    (hmeets : query.Everywhere fun query => ¬ MeetsOwn .builtin query) :
    Writable .builtin query := by
  induction h with
  | literal h =>
      cases hwell.here with
      | scalar hfinite => exact writable_finiteScalar hfinite
      | arr => exact h.elim
      | obj => exact h.elim
  | @call name args hname hargs ih =>
      refine .call (fun arg harg => ?_) ?_ ?_
      · exact ih arg harg (hwell.of_call arg harg) (hmeets.of_call arg harg)
      · intro hsymbol
        have hplain := hname hsymbol
        rwa [functionName, if_neg (functionName_of_isPlainName hplain)]
      · rintro first others rfl hwritten
        obtain ⟨symbol, hsymbol⟩ := Option.isSome_iff_exists.1 hwritten
        exact refuses_eq_false_of_not_meetsOwn Parser.separable_builtin.legible hsymbol
          (ne_notIn_of_symbol? (symbol?_of_symbolFor? hsymbol)) hmeets.here
  | @object entries _ _ ih =>
      refine .call ?_ (fun _ => by decide) ?_
      · refine List.forall_mem_singleton.2 (.mapping fun entry hentry => ?_)
        exact ih entry hentry (hwell.of_object entry hentry) (hmeets.of_object entry hentry)
      · intro first others _ hsymbol
        simp [symbolFor?_of_length] at hsymbol

/-! ## The restatement of a parsed query -/

theorem restated_literal {value : Value} (hscalar : value.IsScalar) (hwell : value.WellFormed) :
    restated table (.literal value) = .literal value := by
  cases hwell with
  | scalar h => exact restated_of_eq (reading_finiteScalar h)
  | arr => exact hscalar.elim
  | obj => exact hscalar.elim

theorem exists_call_restated (hwell : (Query.call name args).Everywhere Query.WellFormed) :
    ∃ head args', restated .builtin (.call name args) = .call head args' := by
  have hshape := restates_of_wellFormed hwell
  generalize restated .builtin (.call name args) = result at hshape
  cases hshape with
  | object => exact ⟨_, _, rfl⟩
  | path => exact ⟨_, _, rfl⟩
  | function => exact ⟨_, _, rfl⟩
  | operator => exact ⟨_, _, rfl⟩
  | continued => exact ⟨_, _, rfl⟩

theorem segmentKey?_restated (h : Parsed .builtin query)
    (hwell : query.Everywhere Query.WellFormed) :
    segmentKey? (restated .builtin query) = segmentKey? query := by
  cases query with
  | literal value =>
      cases h with
      | literal hscalar => rw [restated_literal hscalar hwell.here]
  | mapping entries => cases h
  | call name args =>
      obtain ⟨head, args', hrestated⟩ := exists_call_restated hwell
      rw [hrestated]
      rfl

theorem pathKeys?_restated (hargs : ∀ arg ∈ args, Parsed .builtin arg)
    (hwell : ∀ arg ∈ args, arg.Everywhere Query.WellFormed) :
    pathKeys? name (args.map (restated .builtin)) = pathKeys? name args := by
  have hkeys : (args.map (restated .builtin)).mapM segmentKey? = args.mapM segmentKey? := by
    induction args with
    | nil => rfl
    | cons arg args ih =>
        have harg :=
          segmentKey?_restated (hargs arg List.mem_cons_self) (hwell arg List.mem_cons_self)
        have hrest := ih (fun arg hmem => hargs arg (List.mem_cons_of_mem _ hmem))
          fun arg hmem => hwell arg (List.mem_cons_of_mem _ hmem)
        simp only [List.map_cons, List.mapM_cons, harg, hrest]
  simp [pathKeys?, hkeys]

theorem not_isObject_restated (hargs : ∀ arg ∈ args, Parsed .builtin arg)
    (hwell : ∀ arg ∈ args, arg.Everywhere Query.WellFormed) :
    ¬ IsObject name (args.map (restated .builtin)) := by
  rintro ⟨_, entries, heq⟩
  obtain ⟨arg, harg, hrestated⟩ := List.mem_map.1 (heq ▸ List.mem_cons_self)
  cases arg with
  | literal value =>
      cases hargs _ harg with
      | literal hscalar =>
          rw [restated_literal hscalar (hwell _ harg).here] at hrestated
          cases hrestated
  | mapping entries => cases hargs _ harg
  | call name args =>
      obtain ⟨head, args', heq'⟩ := exists_call_restated (hwell _ harg)
      rw [heq'] at hrestated
      cases hrestated

/-- A call that is no path restates its arguments and keeps its name. -/
theorem restated_call (h : Parsed .builtin (.call name args)) (hobject : ¬ IsObject name args)
    (hpath : pathKeys? name args = none)
    (hwell : (Query.call name args).Everywhere Query.WellFormed)
    (hmeets : ¬ MeetsOwn .builtin (.call name args)) :
    restated .builtin (.call name args) = .call name (args.map (restated .builtin)) := by
  have hshape := restates_of_wellFormed hwell
  generalize restated .builtin (.call name args) = result at hshape
  cases hshape with
  | object hname hargs => exact absurd ⟨hname, _, hargs⟩ hobject
  | path hkeys =>
      rw [hpath] at hkeys
      cases hkeys
  | function _ hsymbol =>
      cases h with
      | call hname => rw [functionName, if_neg (functionName_of_isPlainName (hname hsymbol))]
      | object => exact absurd ⟨rfl, _, rfl⟩ hobject
  | operator => rfl
  | @continued symbol inner others hcall hargs _ _ hsymbol hvararg =>
      subst hargs
      refine absurd ⟨name, inner, others, rfl, ?_, ?_, .inl hvararg⟩ hmeets
      · simp [IsInfix, hcall]
      · simp [IsInfix, hsymbol]

theorem restated_object {entries : List (String × Query)} (hdistinct : Entries.Distinct entries) :
    restated table (.call "object" [.mapping entries]) =
      .object (entries.map fun entry => (entry.1, restated table entry.2)) := by
  rw [← restated_mapping hdistinct, restated, restated]
  simp only [reading]

/-- Where no operator meets a call of its own, the restatement of a parsed query is written as the
query is. -/
theorem writtenAlike_restated (h : Parsed .builtin query)
    (hwell : query.Everywhere Query.WellFormed)
    (hmeets : query.Everywhere fun query => ¬ MeetsOwn .builtin query) :
    WrittenAlike .builtin (restated .builtin query) query := by
  induction h with
  | literal h =>
      rw [restated_literal h hwell.here]
      exact .refl _
  | @object entries hdistinct _ ih =>
      have hmapping : WrittenAlike .builtin
          (.mapping (entries.map fun entry => (entry.1, restated .builtin entry.2)))
          (.mapping entries) :=
        .mapping fun entry hentry =>
          ih entry hentry (hwell.of_object entry hentry) (hmeets.of_object entry hentry)
      rw [restated_object hdistinct]
      exact hmapping.object
  | @call name args hname hargs ih =>
      have hobject := @not_isObject_of_parsed .builtin name args hargs
      cases hpath : pathKeys? name args with
      | some keys =>
          obtain rfl := (mapM_segmentKey?_of_pathKeys? hpath).1
          have hkeys := pathKeys?_get (ne_nil_of_pathKeys? hpath)
          have hget : ¬ IsObject "get" (keys.map fun key => .literal (.str key)) := by
            rintro ⟨hname, _⟩
            exact absurd hname (by decide)
          have hsymbol (args : List Query) : symbolFor? .builtin "get" args = none :=
            symbolFor?_eq_none (by decide)
          rw [restated_of_eq (reading_get_eq_plain hpath), Query.get]
          refine ⟨fun layout indent parenthesized => ?_, fun parent isFirst => ?_⟩
          · rw [queryText_path hget hkeys, queryText_path hobject hpath]
          · simp only [needsParentheses, hsymbol]
      | none =>
          rw [restated_call (.call hname hargs) hobject hpath hwell hmeets.here]
          refine .call (fun arg harg => ?_) hobject
            (not_isObject_restated hargs hwell.of_call) (pathKeys?_restated hargs hwell.of_call)
          exact ih arg harg (hwell.of_call arg harg) (hmeets.of_call arg harg)

/-- A restatement has no more calls on a path than the query. -/
theorem height_restated_le (h : Parsed .builtin query)
    (hwell : query.Everywhere Query.WellFormed) :
    (restated .builtin query).height ≤ query.height := by
  induction h with
  | literal h => rw [restated_literal h hwell.here]
  | @object entries hdistinct _ ih =>
      rw [restated_object hdistinct]
      have hpos : 0 < (Query.object entries).height :=
        Nat.lt_of_le_of_lt (Nat.zero_le _) (height_lt_of_mem List.mem_cons_self)
      refine height_object_le hpos (List.forall_mem_map.2 fun entry hentry => ?_)
      exact Nat.lt_of_le_of_lt (ih entry hentry (hwell.of_object entry hentry))
        (height_lt_of_mem_object hentry)
  | @call name args hname hargs ih =>
      have hpos : 0 < (Query.call name args).height := by
        rw [Query.height]
        omega
      have hheights : ∀ arg ∈ args.map (restated .builtin),
          arg.height < (Query.call name args).height :=
        List.forall_mem_map.2 fun arg harg =>
          Nat.lt_of_le_of_lt (ih arg harg (hwell.of_call arg harg)) (height_lt_of_mem harg)
      have hshape := restates_of_wellFormed hwell
      generalize restated .builtin (.call name args) = result at hshape
      cases hshape with
      | object hname hargs' =>
          exact absurd ⟨hname, _, hargs'⟩ (not_isObject_of_parsed hargs)
      | path =>
          rw [height_get]
          exact hpos
      | function => exact height_call_le hpos hheights
      | operator => exact height_call_le hpos hheights
      | @continued symbol inner others hcall hargs' _ _ hsymbol hvararg =>
          subst hargs'
          have hinner : restated .builtin (.call name inner) =
              .call name (inner.map (restated .builtin)) := by
            rw [restated_function Parser.separable_builtin.legible
              (symbol?_of_symbolFor? hcall) hsymbol, functionName_of_isVararg hvararg]
          simp only [List.map_cons, List.forall_mem_cons, hinner] at hheights
          refine height_call_le hpos fun arg harg => ?_
          rcases List.mem_append.1 harg with harg | harg
          · exact Nat.lt_trans (height_lt_of_mem harg) hheights.1
          · exact hheights.2 arg harg

/-- The text of a parsed query has room for its brackets and its calls, unless the limit is used up
and an operator that takes any number of arguments is left with one. -/
theorem within_of_parse {text : String} {limit : Nat}
    (hparse : parse .builtin limit text = .ok query)
    (hroom : query.height < limit ∨ NoLone .builtin query) :
    nesting .builtin query.finite < limit ∧ (reading .builtin query.finite).height ≤ limit := by
  have hlegible := Parser.separable_builtin.legible
  have hparsed := parsed_of_parse hlegible hparse
  have hwell := wellFormed_finite hparsed
  rw [nesting_finite, (readsPlain_of_wellFormed hwell).height]
  constructor
  · rcases hroom with hlt | hlone
    · exact Nat.lt_of_le_of_lt (nestsWithin_of_parsed hparsed).1 hlt
    · exact nesting_lt_of_parse hlegible hparse hlone
  · calc
      (restated .builtin query.finite).height ≤ query.finite.height :=
        height_restated_le (parsed_finite hparsed) hwell
      _ = query.height := height_finite query
      _ ≤ limit := height_le_of_parse hparse

end Printer

/-- Formatting is stable: under the operators every query has, the text of a parsed query is parsed
within the same limit, and the query it holds has that very text, in any layout whose indentation is
blank.  No operator of the query may meet a call of its own in function form, and where the query
is as high as the limit, no operator of any number of arguments may be left with one. -/
theorem print_parse_print {text : String} {limit : Nat} {query : Query} {layout : LineLayout}
    (hparse : parse .builtin limit text = .ok query)
    (hlayout : Grammar.Blank layout.indentation.toList)
    (hmeets : query.Everywhere fun query => ¬ Printer.MeetsOwn .builtin query)
    (hroom : query.height < limit ∨ Printer.NoLone .builtin query) :
    ∃ query', parse .builtin limit (print .builtin layout query) = .ok query' ∧
      print .builtin layout query' = print .builtin layout query := by
  have hlegible := Parser.separable_builtin.legible
  have hparsed := Printer.parsed_of_parse hlegible hparse
  have hparsed' := Printer.parsed_finite hparsed
  have hwell := Printer.wellFormed_finite hparsed
  have hmeets' := Printer.everywhere_finite hmeets
  have hfinite := (@Printer.writtenAlike_finite .builtin query).print_eq layout
  have halike := (Printer.writtenAlike_restated hparsed' hwell hmeets').print_eq layout
  refine ⟨Printer.restated .builtin query.finite, ?_, halike.trans hfinite⟩
  rw [← hfinite]
  have hwithin := Printer.within_of_parse hparse hroom
  exact parse_print_within hlegible hlayout (Printer.writable_of_parsed hparsed' hwell hmeets')
    hwithin.1 hwithin.2

/-- An operator in function form, `or(.a, .b)`, is written `.a or .b`. -/
theorem print_parse_print_or :
    let query := Query.call "or" [.get ["a"], .get ["b"]]
    let text := print .builtin {} query
    parse .builtin 2 "or(.a, .b)" = .ok query ∧ Grammar.Blank ({} : LineLayout).indentation.toList ∧
      (query.Everywhere fun query => ¬ Printer.MeetsOwn .builtin query) ∧
        (query.height < 2 ∨ Printer.NoLone .builtin query) ∧
          ∃ query', parse .builtin 2 text = .ok query' ∧ print .builtin {} query' = text := by
  intro query text
  have hlegible := Parser.separable_builtin.legible
  have hpath (key : String) (hkey : isPlainName key = true) :
      Parser.ReadsOperand (Parser.expression .builtin 2 1) ('.' :: key.toList)
        { query := .get [key], height := 1 } :=
    (Parser.spelled_path (.last (.name hkey))).readsOperand hlegible
      (.of_cons (by decide) (by decide) _)
  have hparse : parse .builtin 2 "or(.a, .b)" = .ok query := by
    have hargs : ∀ arg ∈ [('.' :: "a".toList, (⟨.get ["a"], 1, false⟩ : Parser.Operand)),
        ('.' :: "b".toList, ⟨.get ["b"], 1, false⟩)],
          Parser.ReadsOperand (Parser.expression .builtin 2 1) arg.1 arg.2 := by
      simpa using ⟨hpath "a" (by decide), hpath "b" (by decide)⟩
    exact @Parser.parse_of_readsOperand .builtin 2 _ "or(.a, .b)"
      (Parser.readsOperand_call hlegible Grammar.blank_nil Printer.blank_space Grammar.blank_nil
        (show isPlainName "or" = true by decide) _ hargs (by decide))
  have hmeets : query.Everywhere fun query => ¬ Printer.MeetsOwn .builtin query := by
    have hinner (key : String) :
        (Query.get [key]).Everywhere fun query => ¬ Printer.MeetsOwn .builtin query := by
      refine .call (Printer.not_meetsOwn_of_ne (by simp [Query.callName?])) ?_
      exact List.forall_mem_singleton.2 (.literal (by simp [Printer.MeetsOwn]))
    refine .call (Printer.not_meetsOwn_of_ne (by simp [Query.callName?, Query.get])) ?_
    simpa using ⟨hinner "a", hinner "b"⟩
  have hlone : Printer.NoLone .builtin query := by
    have hinner (key : String) : Printer.NoLone .builtin (.get [key]) := by
      refine .call ?_ (List.forall_mem_singleton.2 (.literal (by simp [Printer.IsLone])))
      rintro ⟨name, arg, heq, hvararg⟩
      obtain ⟨rfl, _⟩ := Query.call.inj heq
      exact absurd hvararg (by decide)
    refine .call (by simp [Printer.IsLone]) ?_
    simpa using ⟨hinner "a", hinner "b"⟩
  have hblank : Grammar.Blank ({} : LineLayout).indentation.toList := by
    simp [Grammar.Blank, Scan.isBlank]
  exact ⟨hparse, hblank, hmeets, .inr hlone, print_parse_print hparse hblank hmeets (.inr hlone)⟩

/-- A call in function form inside another of the same name. -/
theorem parse_nestedCall {name : String} (hname : isPlainName name = true) (limit : Nat) :
    parse .builtin (limit + 3) (name ++ "(" ++ name ++ "(true), null)") =
      .ok (.call name [.call name [.literal (.bool true)], .literal .null]) := by
  have hlegible := Parser.separable_builtin.legible
  have hinner := @Parser.readsOperand_call .builtin (limit + 3) _ _ _ (limit + 1) hlegible
    Grammar.blank_nil Printer.blank_space Grammar.blank_nil name hname
    [("true".toList, .constant (.bool true))]
    (List.forall_mem_singleton.2 (Parser.readsOperand_literal hlegible (.bool true)))
    (by simp [Parser.Operand.call, Parser.Operand.tallest, Parser.Operand.constant])
  have houter := @Parser.readsOperand_call .builtin (limit + 3) _ _ _ (limit + 2) hlegible
    Grammar.blank_nil Printer.blank_space Grammar.blank_nil name hname
    [(_, .call name [.constant (.bool true)]), ("null".toList, .constant .null)]
    (List.forall_mem_cons.2 ⟨hinner, List.forall_mem_singleton.2
      (Parser.readsOperand_literal hlegible .null)⟩)
    (by simp [Parser.Operand.call, Parser.Operand.tallest, Parser.Operand.constant])
  refine @Parser.parse_of_readsOperand .builtin (limit + 3)
    (.call name [.call name [.constant (.bool true)], .constant .null])
    (name ++ "(" ++ name ++ "(true), null)") ?_
  convert houter using 1
  · simp [Parser.enclosed, List.intercalate]
  · simp

/-- Where formatting is not stable: `and(and(true), null)` is written `and(true) and null`, and that
text is written `true and null`. -/
theorem exists_print_unstable :
    let query := Query.call "and" [.call "and" [.literal (.bool true)], .literal .null]
    let query' := Query.call "and" [.literal (.bool true), .literal .null]
    parse .builtin defaultDepth "and(and(true), null)" = .ok query ∧
      print .builtin {} query = "and(true) and null" ∧
        parse .builtin defaultDepth "and(true) and null" = .ok query' ∧
          print .builtin {} query' = "true and null" := by
  intro query query'
  have hlegible := Parser.separable_builtin.legible
  have hcall := @Parser.spelled_call .builtin defaultDepth _ _ _
    (Parser.expression .builtin defaultDepth 127) Grammar.blank_nil Printer.blank_space
    Grammar.blank_nil "and" (by decide) [("true".toList, .constant (.bool true))]
    (List.forall_mem_singleton.2 (Parser.readsOperand_literal hlegible (.bool true))) (by decide)
  have hopens : Parser.Opens "and(true)".toList := .of_cons (by decide) (by decide) _
  have hothers : ∀ other ∈ [("null".toList, Parser.Operand.constant .null)], Parser.Opens other.1 ∧
      ∃ level' ≤ 5, Parser.Spelled .builtin defaultDepth
        (Parser.primary defaultDepth (Parser.expression .builtin defaultDepth 127)) level' other.1
          other.2 :=
    List.forall_mem_singleton.2 ⟨Parser.opens_of_literalText .null, 0, by decide,
      Parser.spelled_literal .null⟩
  have hchain := Parser.spelled_infixCall hlegible
    (show OperatorTable.builtin.symbol? "and" = _ from rfl)
    (show OperatorTable.builtin.precedence? "and" = some 5 by decide) Printer.blank_space (by simp)
    ("and(true)".toList, .call "and" [.constant (.bool true)]) _ ⟨0, by decide, hcall⟩ hothers
    (by decide) (by decide) (by decide)
  refine ⟨parse_nestedCall (show isPlainName "and" = true by decide) 125, by decide +kernel, ?_,
    by decide +kernel⟩
  exact @Parser.parse_of_readsOperand .builtin defaultDepth _ "and(true) and null"
    (hchain.readsOperand hlegible (hopens.append _))

end PipeQuery
