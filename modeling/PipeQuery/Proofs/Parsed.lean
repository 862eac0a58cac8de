/-
The queries that texts hold.

A parsed query has scalar literals only, its mappings are those of objects, and a call whose name is
not plain was written with its operator.  Its text opens brackets no deeper than the text it was
parsed from opened brackets or nested calls, unless an operator of any number of arguments was left
with one: that call was written infix, and is printed in function form.
-/
import PipeQuery.Proofs.Alike
import PipeQuery.Proofs.Depth
import PipeQuery.Proofs.Restatement

namespace PipeQuery

namespace Printer

open PipeQuery.Parser (Operand Legible Invariant)
open PipeQuery.Query (height_call_le_iff height_lt_of_mem height_lt_of_mem_object)

variable {table : OperatorTable} {name symbol text : String} {limit budget : Nat}
  {args others : List Query} {first query : Query} {keys : List String}

/-- Queries that the productions build. -/
inductive Parsed (table : OperatorTable) : Query → Prop
  | literal {value : Value} (h : value.IsScalar) : Parsed table (.literal value)
  | call {name : String} {args : List Query}
      (hname : symbolFor? table name args = none → isPlainName name = true)
      (hargs : ∀ arg ∈ args, Parsed table arg) : Parsed table (.call name args)
  | object {entries : List (String × Query)} (hdistinct : Entries.Distinct entries)
      (hentries : ∀ entry ∈ entries, Parsed table entry.2) :
      Parsed table (.call "object" [.mapping entries])

theorem not_isObject_of_parsed (hargs : ∀ arg ∈ args, Parsed table arg) : ¬ IsObject name args := by
  rintro ⟨rfl, entries, rfl⟩
  cases hargs _ List.mem_cons_self

/-- A call of an operator has arguments that are parsed themselves. -/
theorem parsed_args_of_call (hlegible : Legible table) (hsymbol : table.symbol? name = some symbol)
    (h : Parsed table (.call name args)) : ∀ arg ∈ args, Parsed table arg := by
  cases h with
  | call _ hargs => exact hargs
  | object =>
      rw [hlegible.constructors (.inr (.inr rfl))] at hsymbol
      cases hsymbol

/-! ## What the productions build -/

theorem symbolFor?_ne_none (hsymbol : table.symbol? name = some symbol)
    (hlength : args.length = 2 ∨ (2 ≤ args.length ∧ table.isVararg name = true)) :
    symbolFor? table name args ≠ none := by
  rw [symbolFor?, if_pos, hsymbol]
  · simp
  · rcases hlength with h | ⟨h, hvararg⟩
    · exact .inl h
    · rcases Nat.eq_or_lt_of_le h with heq | hlt
      · exact .inl heq.symm
      · exact .inr ⟨hlt, hvararg⟩

/-- What joining two operands makes: a call of both, or the left call with one more argument. -/
theorem join_cases (left right : Operand) :
    (Operand.join table name left right = .call name [left, right]) ∨
      ∃ args, left.query = .call name args ∧ table.isVararg name = true ∧
        Operand.join table name left right =
          { query := .call name (args ++ [right.query])
            height := max left.height (right.height + 1) } := by
  unfold Operand.join
  split
  · rename_i head args hquery
    split
    · rename_i hflat
      obtain ⟨hchain, hvararg⟩ := Bool.and_eq_true_iff.1 hflat
      obtain rfl : head = name := by
        simpa [hquery, Query.callName?] using (Bool.and_eq_true_iff.1 hchain).2
      exact .inr ⟨args, hquery, hvararg, rfl⟩
    · exact .inl rfl
  · exact .inl rfl

theorem parsed_append (hlegible : Legible table) (hsymbol : table.symbol? name = some symbol)
    (hvararg : table.isVararg name = true) (hleft : Parsed table (.call name args))
    (hright : Parsed table query) : Parsed table (.call name (args ++ [query])) := by
  have hargs := parsed_args_of_call hlegible hsymbol hleft
  refine .call (fun hnone => ?_) fun arg harg => ?_
  · cases args with
    | nil =>
        cases hleft with
        | call hname => exact hname (symbolFor?_of_length (by simp))
    | cons first others =>
        refine absurd hnone (symbolFor?_ne_none hsymbol (.inr ⟨?_, hvararg⟩))
        simp
  · rcases List.mem_append.1 harg with harg | harg
    · exact hargs arg harg
    · obtain rfl := List.mem_singleton.1 harg
      exact hright

theorem parsed_join (hlegible : Legible table) (hsymbol : table.symbol? name = some symbol)
    {left right : Operand} (hleft : Parsed table left.query) (hright : Parsed table right.query) :
    Parsed table (Operand.join table name left right).query := by
  rcases @join_cases table name left right with hjoin | ⟨args, hquery, hvararg, hjoin⟩
  · rw [hjoin]
    refine .call (fun hnone => ?_) (by simpa [Operand.call] using ⟨hleft, hright⟩)
    exact absurd hnone (symbolFor?_ne_none hsymbol (.inl rfl))
  · rw [hjoin]
    rw [hquery] at hleft
    exact parsed_append hlegible hsymbol hvararg hleft hright

theorem parsed_get (keys : List String) : Parsed table (.get keys) := by
  refine .call (fun _ => by decide) fun arg harg => ?_
  obtain ⟨key, _, rfl⟩ := List.mem_map.1 harg
  exact @Parsed.literal table (.str key) trivial

theorem parsed_call {operands : List Operand} (hname : isPlainName name = true)
    (h : ∀ operand ∈ operands, Parsed table operand.query) :
    Parsed table (.call name (operands.map (·.query))) := by
  refine .call (fun _ => hname) fun arg harg => ?_
  obtain ⟨operand, hoperand, rfl⟩ := List.mem_map.1 harg
  exact h operand hoperand

theorem parsed_object {entries : List (String × Operand)}
    (h : ∀ entry ∈ entries, Parsed table entry.2.query) :
    Parsed table (Operand.object entries).query := by
  refine .object (Entries.distinct_ofList _) fun entry hentry => ?_
  obtain ⟨source, hsource, rfl⟩ := List.mem_map.1 (Entries.mem_ofList hentry)
  exact h source hsource

/-- Each production builds parsed queries from parsed queries. -/
theorem invariant_parsed (hlegible : Legible table) :
    Invariant table limit fun _ operand => Parsed table operand.query where
  literal h := .literal h
  path _ := parsed_get _
  call hname hargs _ := parsed_call hname hargs
  object hentries _ := parsed_object hentries
  parenthesis h := h
  join hgroup hentry hleft hright _ := by
    obtain ⟨symbol, hsymbol⟩ := Parser.exists_symbol?_of_mem hgroup hentry
    exact parsed_join hlegible hsymbol hleft hright

theorem parsed_of_parse (hlegible : Legible table) (h : parse table limit text = .ok query) :
    Parsed table query := by
  obtain ⟨operand, rfl, hparsed⟩ := (invariant_parsed hlegible).exists_operand_of_parse h
  exact hparsed

/-! ## Brackets and calls -/

/-- Brackets nest no deeper than calls, and less deep where the query is written infix. -/
def NestsWithin (table : OperatorTable) (query : Query) : Prop :=
  nesting table query ≤ query.height ∧
    (0 < levelOf table query → nesting table query < query.height)

theorem NestsWithin.operand {parent : String} {isFirst : Bool} (h : NestsWithin table query) :
    nesting table query + (needsParentheses table parent isFirst query).toNat ≤ query.height := by
  cases hneeds : needsParentheses table parent isFirst query with
  | false => exact h.1
  | true => exact h.2 (levelOf_pos_of_needsParentheses hneeds)

theorem nesting_lt_of_infixCall (hpath : pathKeys? name (first :: others) = none)
    (hsymbol : symbolFor? table name (first :: others) = some symbol)
    (hargs : ∀ arg ∈ first :: others, NestsWithin table arg) :
    nesting table (.call name (first :: others)) < (Query.call name (first :: others)).height := by
  obtain ⟨bound, hbound⟩ : ∃ bound, (Query.call name (first :: others)).height = bound + 1 := by
    rw [Query.height, Nat.add_comm]
    exact ⟨_, rfl⟩
  have hheights := height_call_le_iff.1 (Nat.le_of_eq hbound)
  rw [hbound, Nat.lt_succ_iff, nesting_infixCall_le_iff hpath hsymbol]
  constructor
  · exact Nat.le_trans (hargs first List.mem_cons_self).operand (hheights first List.mem_cons_self)
  · intro other hother
    have hmem := List.mem_cons_of_mem first hother
    exact Nat.le_trans (hargs other hmem).operand (hheights other hmem)

theorem nestsWithin_of_parsed (h : Parsed table query) : NestsWithin table query := by
  induction h with
  | @literal value h =>
      have hzero : (literalReading value).height = 0 := by
        cases value with
        | arr items => exact h.elim
        | obj members => exact h.elim
        | _ => simp [literalReading, Operand.constant]
      simp [NestsWithin, nesting, hzero, levelOf]
  | @object entries _ _ ih =>
      have hle : nesting table (.call "object" [.mapping entries]) ≤
          (Query.call "object" [.mapping entries]).height := by
        rw [nesting, nesting_mapping_le_iff]
        intro entry hentry
        exact Nat.lt_of_le_of_lt (ih entry hentry).1 (height_lt_of_mem_object hentry)
      refine ⟨hle, fun hlevel => ?_⟩
      simp [levelOf, symbolFor?] at hlevel
  | @call name args _ hargs ih =>
      have hobject := @not_isObject_of_parsed table name args hargs
      have hpos : 0 < (Query.call name args).height := by
        rw [Query.height]
        omega
      cases hpath : pathKeys? name args with
      | some keys => simp [NestsWithin, nesting_path hobject hpath, hpos]
      | none =>
          cases hsymbol : symbolFor? table name args with
          | none =>
              refine ⟨?_, fun hlevel => by simp [levelOf, hsymbol] at hlevel⟩
              rw [nesting_function_le_iff hobject hpath hsymbol]
              intro arg harg
              exact Nat.lt_of_le_of_lt (ih arg harg).1 (height_lt_of_mem harg)
          | some symbol =>
              obtain ⟨first, others, rfl⟩ := exists_cons_of_symbolFor? hsymbol
              have hlt := nesting_lt_of_infixCall hpath hsymbol ih
              exact ⟨Nat.le_of_lt hlt, fun _ => hlt⟩

/-! ## Room for brackets -/

/-- One argument of an operator that takes any number: such a call may have been written infix, but
its text is in function form. -/
def IsLone (table : OperatorTable) (query : Query) : Prop :=
  ∃ name arg, query = .call name [arg] ∧ table.isVararg name = true

/-- No operator that takes any number of arguments is left with one. -/
def NoLone (table : OperatorTable) (query : Query) : Prop :=
  query.Everywhere fun query => ¬ IsLone table query

/-- The brackets of the text fit the budget, or there are more calls than brackets. -/
def Fits (table : OperatorTable) (budget : Nat) (query : Query) : Prop :=
  NoLone table query → nesting table query < max budget query.height

theorem fits_call (hargs : ∀ arg ∈ args, Parsed table arg)
    (hfits : ∀ arg ∈ args, Fits table budget arg) :
    Fits table (budget + 1) (.call name args) := by
  intro hlone
  have hobject := @not_isObject_of_parsed table name args hargs
  cases hpath : pathKeys? name args with
  | some keys =>
      rw [nesting_path hobject hpath]
      omega
  | none =>
      cases hsymbol : symbolFor? table name args with
      | none =>
          have hbound : nesting table (.call name args) ≤
              max (budget + 1) (Query.call name args).height - 1 := by
            rw [nesting_function_le_iff hobject hpath hsymbol]
            intro arg harg
            have hinner := hfits arg harg (hlone.of_call arg harg)
            have hheight := @height_lt_of_mem name args arg harg
            omega
          omega
      | some symbol =>
          obtain ⟨first, others, rfl⟩ := exists_cons_of_symbolFor? hsymbol
          have hlt := nesting_lt_of_infixCall hpath hsymbol fun arg harg =>
            nestsWithin_of_parsed (hargs arg harg)
          omega

theorem fits_object {entries : List (String × Query)}
    (hfits : ∀ entry ∈ entries, Fits table budget entry.2) :
    Fits table (budget + 1) (.object entries) := by
  intro hlone
  have hbound : nesting table (.object entries) ≤
      max (budget + 1) (Query.object entries).height - 1 := by
    rw [Query.object, nesting, nesting_mapping_le_iff]
    intro entry hentry
    have hinner := hfits entry hentry (hlone.of_object entry hentry)
    have hheight := @height_lt_of_mem_object entries entry hentry
    rw [Query.object] at hheight
    omega
  omega

/-- What an operator joins has more calls than brackets, unless it is left with one argument. -/
theorem fits_join (hlegible : Legible table) (hsymbol : table.symbol? name = some symbol)
    {left right : Operand} (hleft : Parsed table left.query) (hright : Parsed table right.query) :
    Fits table budget (Operand.join table name left right).query := by
  have hinfix {args : List Query} (hargs : ∀ arg ∈ args, Parsed table arg)
      (hlength : args.length = 2 ∨ (2 ≤ args.length ∧ table.isVararg name = true)) :
      nesting table (.call name args) < max budget (Query.call name args).height := by
    obtain ⟨symbol', hwritten⟩ := Option.ne_none_iff_exists'.1 (symbolFor?_ne_none hsymbol hlength)
    have hpath : pathKeys? name args = none := by
      rw [pathKeys?, if_neg]
      rintro ⟨rfl, _⟩
      rw [hlegible.constructors (.inl rfl)] at hsymbol
      cases hsymbol
    cases args with
    | nil => simp at hlength
    | cons first others =>
        have hlt := nesting_lt_of_infixCall hpath hwritten fun arg harg =>
          nestsWithin_of_parsed (hargs arg harg)
        omega
  intro hlone
  rcases @join_cases table name left right with hjoin | ⟨args, hquery, hvararg, hjoin⟩
  · rw [hjoin]
    exact hinfix (by simpa using ⟨hleft, hright⟩) (.inl rfl)
  · rw [hjoin] at hlone ⊢
    rw [hquery] at hleft
    cases args with
    | nil =>
        exact (hlone.here ⟨name, right.query, rfl, hvararg⟩).elim
    | cons first others =>
        have happend := parsed_append hlegible hsymbol hvararg hleft hright
        refine hinfix (parsed_args_of_call hlegible hsymbol happend) (.inr ⟨?_, hvararg⟩)
        simp

/-- Each production leaves room for the brackets of the text. -/
theorem invariant_fits (hlegible : Legible table) :
    Invariant table limit fun budget operand =>
      Parsed table operand.query ∧ Fits table budget operand.query where
  literal {budget value} h := by
    refine ⟨.literal h, fun _ => ?_⟩
    have hzero := (nestsWithin_of_parsed (@Parsed.literal table value h)).1
    simp only [Query.height] at hzero
    simp only [Operand.constant]
    omega
  path {budget keys} hne := by
    have hobject : ¬ IsObject "get" (keys.map fun key => .literal (.str key)) := by
      rintro ⟨hname, _⟩
      exact absurd hname (by decide)
    refine ⟨parsed_get keys, fun _ => ?_⟩
    rw [Query.get, nesting_path hobject (pathKeys?_get hne)]
    omega
  call hname hargs _ := by
    refine ⟨parsed_call hname fun arg harg => (hargs arg harg).1, ?_⟩
    refine fits_call (fun query hquery => ?_) fun query hquery => ?_
    · obtain ⟨arg, harg, rfl⟩ := List.mem_map.1 hquery
      exact (hargs arg harg).1
    · obtain ⟨arg, harg, rfl⟩ := List.mem_map.1 hquery
      exact (hargs arg harg).2
  object hentries _ := by
    refine ⟨parsed_object fun entry hentry => (hentries entry hentry).1, ?_⟩
    refine fits_object fun entry hentry => ?_
    obtain ⟨source, hsource, rfl⟩ := List.mem_map.1 (Entries.mem_ofList hentry)
    exact (hentries source hsource).2
  parenthesis h := by
    refine ⟨h.1, fun hlone => ?_⟩
    have hfits := h.2 hlone
    simp only
    omega
  join hgroup hentry hleft hright _ := by
    obtain ⟨symbol, hsymbol⟩ := Parser.exists_symbol?_of_mem hgroup hentry
    exact ⟨parsed_join hlegible hsymbol hleft.1 hright.1,
      fits_join hlegible hsymbol hleft.1 hright.1⟩

/-- The text of a parsed query nests brackets less deep than the limit. -/
theorem nesting_lt_of_parse (hlegible : Legible table) (h : parse table limit text = .ok query)
    (hlone : NoLone table query) : nesting table query < limit := by
  obtain ⟨operand, rfl, _, hfits⟩ := (invariant_fits hlegible).exists_operand_of_parse h
  have hlt := hfits hlone
  have hheight := height_le_of_parse h
  omega

end Printer

end PipeQuery
