/-
The query that a text restates.

The text of a query is read as its restatement: literals of containers become the calls that build
them, whole numbers in paths become texts, and an operator takes over the arguments of a call of its
own in function form that it follows.  The reading of a text is bare and as high as its query.
-/
import PipeQuery.Proofs.Legibility
import PipeQuery.Proofs.Readback

namespace PipeQuery

/-! ## Queries that programs can build -/

/-- A literal that is no container and no float beyond the finite ones. -/
def Printer.IsFiniteScalar : Value → Prop
  | .arr _ | .obj _ => False
  | .float x => x.isFinite = true
  | _ => True

/-- Every float inside is finite, and no object has a key twice. -/
inductive Value.WellFormed : Value → Prop
  | scalar {value : Value} (h : Printer.IsFiniteScalar value) : WellFormed value
  | arr {items : List Value} (h : ∀ item ∈ items, WellFormed item) : WellFormed (.arr items)
  | obj {members : List (String × Value)} (hdistinct : Entries.Distinct members)
      (h : ∀ member ∈ members, WellFormed member.2) : WellFormed (.obj members)

namespace Query

/-- A property of a query and of every query inside it. -/
inductive Everywhere (holds : Query → Prop) : Query → Prop
  | literal {value : Value} (h : holds (.literal value)) : Everywhere holds (.literal value)
  | mapping {entries : List (String × Query)} (h : holds (.mapping entries))
      (hentries : ∀ entry ∈ entries, Everywhere holds entry.2) :
      Everywhere holds (.mapping entries)
  | call {name : String} {args : List Query} (h : holds (.call name args))
      (hargs : ∀ arg ∈ args, Everywhere holds arg) : Everywhere holds (.call name args)

section

variable {holds : Query → Prop} {query : Query} {name : String} {args : List Query}
  {entries : List (String × Query)}

theorem Everywhere.here (h : query.Everywhere holds) : holds query := by
  cases h with
  | literal h => exact h
  | mapping h => exact h
  | call h => exact h

theorem Everywhere.of_call (h : (Query.call name args).Everywhere holds) :
    ∀ arg ∈ args, arg.Everywhere holds := by
  cases h with
  | call _ hargs => exact hargs

theorem Everywhere.of_mapping (h : (Query.mapping entries).Everywhere holds) :
    ∀ entry ∈ entries, entry.2.Everywhere holds := by
  cases h with
  | mapping _ hentries => exact hentries

theorem Everywhere.of_object (h : (Query.object entries).Everywhere holds) :
    ∀ entry ∈ entries, entry.2.Everywhere holds :=
  (h.of_call (Query.mapping entries) List.mem_cons_self).of_mapping

/-- What follows from two properties of a query holds wherever both do. -/
theorem Everywhere.combine {holds' result : Query → Prop} (h : query.Everywhere holds)
    (h' : query.Everywhere holds') (hresult : ∀ query, holds query → holds' query → result query) :
    query.Everywhere result := by
  induction h with
  | literal h => exact .literal (hresult _ h h'.here)
  | mapping h _ ih =>
      exact .mapping (hresult _ h h'.here) fun entry hentry =>
        ih entry hentry (h'.of_mapping entry hentry)
  | call h _ ih =>
      exact .call (hresult _ h h'.here) fun arg harg => ih arg harg (h'.of_call arg harg)

end

/-- The literal is well-formed, and the mapping has no key twice. -/
def WellFormed : Query → Prop
  | literal value => value.WellFormed
  | mapping entries => Entries.Distinct entries
  | call _ _ => True

end Query

namespace Printer

open PipeQuery.Parser (Operand Legible joinAll)

variable {table : OperatorTable} {name symbol : String} {first query : Query}
  {args others : List Query} {keys : List String}

/-- The operand that is just the query. -/
def plain (query : Query) : Operand :=
  { query, height := query.height }

/-- What the text of a query is read as, without its height. -/
def restated (table : OperatorTable) (query : Query) : Query :=
  (reading table query).query

/-- The reading of a query is bare and as high as the restatement. -/
def ReadsPlain (table : OperatorTable) (query : Query) : Prop :=
  reading table query = plain (restated table query)

theorem ReadsPlain.of_eq {result : Query} (h : reading table query = plain result) :
    ReadsPlain table query := by
  rw [ReadsPlain, restated, h]
  rfl

theorem restated_of_eq {result : Query} (h : reading table query = plain result) :
    restated table query = result := by
  rw [restated, h]
  rfl

theorem ReadsPlain.height (h : ReadsPlain table query) :
    (reading table query).height = (reading table query).query.height := by
  rw [h]
  rfl

/-- A call of operands as high as their queries is as high as its own. -/
theorem call_eq_plain {operands : List Operand}
    (h : ∀ operand ∈ operands, operand.height = operand.query.height) :
    Operand.call name operands = plain (.call name (operands.map (·.query))) := by
  have hheights : operands.map (·.height) = (operands.map (·.query)).map Query.height := by
    rw [List.map_map]
    exact List.map_congr_left h
  rw [Operand.call, Operand.tallest, hheights, plain, Query.height]

/-- An object of values as high as their queries, under distinct keys, is as high as its own. -/
theorem object_eq_plain {entries : List (String × Operand)} (hdistinct : Entries.Distinct entries)
    (h : ∀ entry ∈ entries, entry.2.height = entry.2.query.height) :
    Operand.object entries =
      plain (.object (entries.map fun entry => (entry.1, entry.2.query))) := by
  have hkeys : Entries.Distinct (entries.map fun entry => (entry.1, entry.2.query)) := by
    simpa [Entries.Distinct, Entries.keys, Function.comp_def] using hdistinct
  have hheights : (entries.map (·.2)).map (·.height) =
      entries.map fun entry => entry.2.query.height := by
    rw [List.map_map]
    exact List.map_congr_left h
  rw [Operand.object, Operand.tallest, hheights, plain, Entries.ofList_of_distinct hkeys]
  simp [Query.object, Query.height, Function.comp_def, Nat.add_comm]

theorem call_map_plain (name : String) (args : List Query) :
    Operand.call name (args.map plain) = plain (.call name args) := by
  simp [Operand.call, Operand.tallest, plain, Query.height, Function.comp_def]

/-! ## Joining operands -/

theorem join_call_of_isVararg (h : table.isVararg name = true) (operands : List Operand)
    (operand : Operand) :
    Operand.join table name (.call name operands) operand = .call name (operands ++ [operand]) := by
  have hchain : Operand.isChain name (.call name operands) = true := by
    simp [Operand.isChain, Operand.call, Query.callName?]
  have hheight : max (1 + Operand.tallest operands) (operand.height + 1) =
      1 + Operand.tallest (operands ++ [operand]) := by
    simp only [Operand.tallest, List.map_append, List.foldl_append, List.map_cons, List.map_nil,
      List.foldl_cons, List.foldl_nil]
    omega
  simp only [Operand.join, Operand.call] at hchain ⊢
  simp [hchain, h, hheight]

theorem join_of_not_chain {left right : Operand}
    (h : (left.isChain name && table.isVararg name) = false) :
    Operand.join table name left right = .call name [left, right] := by
  unfold Operand.join
  split
  · simp [h]
  · rfl

theorem joinAll_call_of_isVararg (h : table.isVararg name = true) (operands others : List Operand) :
    joinAll table name (.call name operands) others = .call name (operands ++ others) := by
  induction others generalizing operands with
  | nil => simp [joinAll]
  | cons other others ih =>
      have hstep := ih (operands ++ [other])
      rw [← join_call_of_isVararg h, List.append_assoc] at hstep
      exact hstep

/-- Where the first operand is no chain of the operator, an infix call has its operands as they
are. -/
theorem joinAll_of_not_chain {first : Operand} {others : List Operand} (hne : others ≠ [])
    (hchain : (first.isChain name && table.isVararg name) = false)
    (hvararg : 2 ≤ others.length → table.isVararg name = true) :
    joinAll table name first others = .call name (first :: others) := by
  obtain ⟨other, others, rfl⟩ := List.exists_cons_of_ne_nil hne
  have hfirst : joinAll table name first (other :: others) =
      joinAll table name (Operand.call name [first, other]) others := by
    rw [← join_of_not_chain hchain]
    rfl
  rw [hfirst]
  cases others with
  | nil => rfl
  | cons next others =>
      exact joinAll_call_of_isVararg (hvararg (by simp)) [first, other] (next :: others)

/-! ## What is restated -/

theorem distinct_map {α β : Type} {entries : List (String × α)} (h : Entries.Distinct entries)
    (f : α → β) : Entries.Distinct (entries.map fun entry => (entry.1, f entry.2)) := by
  simpa [Entries.Distinct, Entries.keys, Function.comp_def] using h

theorem reading_finiteScalar {value : Value} (h : IsFiniteScalar value) :
    reading table (.literal value) = plain (.literal value) := by
  rw [reading]
  cases value with
  | arr items => exact h.elim
  | obj members => exact h.elim
  | _ => rw [literalReading] <;> simp [Operand.constant, plain, Query.height]

theorem reading_array {items : List Value}
    (h : ∀ item ∈ items, ReadsPlain table (.literal item)) :
    reading table (.literal (.arr items)) =
      plain (.call "array" (items.map fun item => restated table (.literal item))) := by
  have hreading : reading table (.literal (.arr items)) =
      .call "array" (items.map fun item => reading table (.literal item)) := by
    simp only [reading, literalReading]
  rw [hreading, call_eq_plain]
  · rw [List.map_map]
    rfl
  · intro operand hoperand
    obtain ⟨item, hitem, rfl⟩ := List.mem_map.1 hoperand
    exact (h item hitem).height

theorem reading_members {members : List (String × Value)} (hdistinct : Entries.Distinct members)
    (h : ∀ member ∈ members, ReadsPlain table (.literal member.2)) :
    reading table (.literal (.obj members)) =
      plain (.object (members.map fun member =>
        (member.1, restated table (.literal member.2)))) := by
  have hreading : reading table (.literal (.obj members)) =
      .object (members.map fun member => (member.1, reading table (.literal member.2))) := by
    simp only [reading, literalReading]
  rw [hreading,
    object_eq_plain (distinct_map hdistinct fun value => reading table (.literal value))]
  · rw [List.map_map]
    rfl
  · intro entry hentry
    obtain ⟨member, hmember, rfl⟩ := List.mem_map.1 hentry
    exact (h member hmember).height

theorem readsPlain_literal {value : Value} (h : value.WellFormed) :
    ReadsPlain table (.literal value) := by
  induction h with
  | scalar h => exact .of_eq (reading_finiteScalar h)
  | arr _ ih => exact .of_eq (reading_array ih)
  | obj hdistinct _ ih => exact .of_eq (reading_members hdistinct ih)

theorem height_get (keys : List String) : (Query.get keys).height = 1 := by
  have hzero : (keys.map fun key => (Query.literal (.str key)).height) = keys.map fun _ => 0 := by
    simp [Query.height]
  have hmax : (keys.map fun _ => 0).foldl max 0 = 0 := by
    have hle : (keys.map fun _ => 0).foldl max 0 ≤ 0 :=
      Parser.foldl_max_le.2 ⟨Nat.le_refl 0, by simp⟩
    omega
  rw [Query.get, Query.height, List.map_map]
  simp only [Function.comp_def, hzero, hmax]

theorem reading_get_eq_plain (hpath : pathKeys? name args = some keys) :
    reading table (.call name args) = plain (.get keys) := by
  have hobject : ¬ IsObject name args := by
    rintro ⟨rfl, _⟩
    simp [pathKeys?] at hpath
  rw [reading_path hobject hpath, plain, height_get]

theorem reading_mapping {entries : List (String × Query)} (hdistinct : Entries.Distinct entries)
    (h : ∀ entry ∈ entries, ReadsPlain table entry.2) :
    reading table (.mapping entries) =
      plain (.object (entries.map fun entry => (entry.1, restated table entry.2))) := by
  rw [reading, object_eq_plain (distinct_map hdistinct _)]
  · rw [List.map_map]
    rfl
  · intro entry hentry
    obtain ⟨source, hsource, rfl⟩ := List.mem_map.1 hentry
    exact (h source hsource).height

theorem restated_mapping {entries : List (String × Query)} (hdistinct : Entries.Distinct entries) :
    restated table (.mapping entries) =
      .object (entries.map fun entry => (entry.1, restated table entry.2)) := by
  rw [restated, reading, Operand.object, List.map_map]
  exact congrArg Query.object (Entries.ofList_of_distinct (distinct_map hdistinct (restated table)))

theorem reading_functionForm (hobject : ¬ IsObject name args) (hpath : pathKeys? name args = none)
    (hsymbol : symbolFor? table name args = none) (hargs : ∀ arg ∈ args, ReadsPlain table arg) :
    reading table (.call name args) =
      plain (.call (functionName name) (args.map (restated table))) := by
  rw [reading_function hobject hpath hsymbol, call_eq_plain]
  · rw [List.map_map]
    rfl
  · intro operand hoperand
    obtain ⟨arg, harg, rfl⟩ := List.mem_map.1 hoperand
    exact (hargs arg harg).height

theorem restated_function (hlegible : Legible table) (hname : table.symbol? name = some symbol)
    (hsymbol : symbolFor? table name args = none) :
    restated table (.call name args) = .call (functionName name) (args.map (restated table)) := by
  have hne (head : String) (hhead : head = "get" ∨ head = "array" ∨ head = "object") :
      name ≠ head := by
    rintro rfl
    rw [hlegible.constructors hhead] at hname
    exact nomatch hname
  have hobject : ¬ IsObject name args := fun h => hne "object" (by simp) h.1
  have hpath : pathKeys? name args = none := by
    rw [pathKeys?, if_neg fun h => hne "get" (by simp) h.1]
  rw [restated, reading_function hobject hpath hsymbol, Operand.call]
  exact congrArg (Query.call _) (List.map_map ..)

/-- The first operand of an infix call is a bare call of its own: the call goes on. -/
def Continues (table : OperatorTable) (name : String) (first : Query) : Prop :=
  (grouped (needsParentheses table name true first) (reading table first)).isChain name = true ∧
    table.isVararg name = true

theorem reading_joined (hpath : pathKeys? name (first :: others) = none)
    (hsymbol : symbolFor? table name (first :: others) = some symbol)
    (hchain : ¬ Continues table name first)
    (hargs : ∀ arg ∈ first :: others, ReadsPlain table arg) :
    reading table (.call name (first :: others)) =
      plain (.call name ((first :: others).map (restated table))) := by
  have hothers := ne_nil_of_symbolFor? hsymbol
  have hjoin := @joinAll_of_not_chain table name
    (grouped (needsParentheses table name true first) (reading table first))
    (others.map fun other =>
      grouped (needsParentheses table name false other) (reading table other))
    (by simpa using hothers) (by simpa [Continues] using hchain)
    (by simpa using isVararg_of_symbolFor? hsymbol)
  rw [reading_infixCall hpath hsymbol, hjoin, call_eq_plain]
  · simp only [List.map_cons, List.map_map, Function.comp_def, query_grouped]
    rfl
  · intro operand hoperand
    rcases List.mem_cons.1 hoperand with rfl | hoperand
    · simpa using (hargs first List.mem_cons_self).height
    · obtain ⟨other, hother, rfl⟩ := List.mem_map.1 hoperand
      simpa using (hargs other (List.mem_cons_of_mem _ hother)).height

theorem callName?_join (left right : Operand) :
    (Operand.join table name left right).query.callName? = some name := by
  unfold Operand.join
  split
  · rename_i head args hquery
    split
    · rename_i hchain
      have hboth : left.parenthesized = false ∧ head = name := by
        simpa [Operand.isChain, hquery, Query.callName?] using (Bool.and_eq_true_iff.1 hchain).1
      exact congrArg some hboth.2
    · rfl
  · rfl

theorem callName?_joinAll (first : Operand) {others : List Operand} (hne : others ≠ []) :
    (joinAll table name first others).query.callName? = some name := by
  rw [joinAll, ← List.dropLast_concat_getLast hne, List.foldl_append]
  exact callName?_join _ _

/-- Only calls of an operator are read as calls of it. -/
theorem exists_call_of_callName? (hlegible : Legible table)
    (hsymbol : table.symbol? name = some symbol) (hname : name ≠ "notIn")
    (h : (reading table query).query.callName? = some name) :
    ∃ args, query = .call name args := by
  have hconstructor {head : String} (hhead : some head = some name)
      (hmember : head = "get" ∨ head = "array" ∨ head = "object") : False := by
    rw [← Option.some.inj hhead, hlegible.constructors hmember] at hsymbol
    exact nomatch hsymbol
  cases query with
  | literal value =>
      rw [reading] at h
      cases value with
      | arr items =>
          rw [literalReading] at h
          exact (hconstructor h (by simp)).elim
      | obj members =>
          rw [literalReading] at h
          exact (hconstructor h (by simp)).elim
      | _ => simp [literalReading, Operand.constant, Query.callName?] at h
  | mapping entries =>
      rw [reading] at h
      exact (hconstructor h (by simp)).elim
  | call head args =>
      by_cases hobject : IsObject head args
      · obtain ⟨rfl, entries, rfl⟩ := hobject
        rw [reading, reading] at h
        exact (hconstructor h (by simp)).elim
      cases hpath : pathKeys? head args with
      | some keys =>
          rw [reading_path hobject hpath] at h
          exact (hconstructor h (by simp)).elim
      | none =>
          cases hwritten : symbolFor? table head args with
          | none =>
              rw [reading_function hobject hpath hwritten] at h
              have hfunction : functionName head = name := Option.some.inj h
              unfold functionName at hfunction
              split at hfunction
              · exact absurd hfunction.symm hname
              · exact ⟨args, by rw [hfunction]⟩
          | some infixSymbol =>
              obtain ⟨first, others, rfl⟩ := exists_cons_of_symbolFor? hwritten
              have hothers := ne_nil_of_symbolFor? hwritten
              rw [reading_infixCall hpath hwritten,
                callName?_joinAll _ (by simpa using hothers)] at h
              obtain rfl := Option.some.inj h
              exact ⟨first :: others, rfl⟩

theorem not_grouped_of_isChain {parenthesized : Bool} {operand : Operand}
    (h : (grouped parenthesized operand).isChain name = true) : parenthesized = false := by
  cases parenthesized with
  | false => rfl
  | true => simp [Operand.isChain, grouped] at h

theorem callName?_of_isChain {parenthesized : Bool} {operand : Operand}
    (h : (grouped parenthesized operand).isChain name = true) :
    operand.query.callName? = some name := by
  have hname := (Bool.and_eq_true_iff.1 h).2
  rw [query_grouped] at hname
  simpa using hname

/-- Infix, the bare call would stand in parentheses unless it nests to the left. -/
theorem nestsLeft_of_needsParentheses {level : Nat} (hlevel : table.precedence? name = some level)
    (hwritten : (symbolFor? table name args).isSome = true)
    (h : needsParentheses table name true (.call name args) = false) :
    table.isVararg name = false ∧ table.isLeftAssociative name = true := by
  simp only [needsParentheses, hwritten, hlevel, Bool.true_and, Bool.or_eq_false_iff,
    beq_self_eq_true, Bool.not_eq_false'] at h
  exact ⟨h.2.2, h.2.1⟩

/-- What an operator continues has at most one argument. -/
theorem exists_functionForm_of_continues (hlegible : Legible table)
    (hsymbol : table.symbol? name = some symbol) (hname : name ≠ "notIn")
    (h : Continues table name first) :
    needsParentheses table name true first = false ∧ ∃ args, first = .call name args ∧
      args.length ≤ 1 ∧ symbolFor? table name args = none := by
  obtain ⟨level, _, hlevel, _⟩ := hlegible.group hsymbol
  obtain ⟨args, rfl⟩ := exists_call_of_callName? hlegible hsymbol hname (callName?_of_isChain h.1)
  have hneeds := not_grouped_of_isChain h.1
  have hwritten : symbolFor? table name args = none := by
    cases hwritten : symbolFor? table name args with
    | none => rfl
    | some _ =>
        have hvararg := (nestsLeft_of_needsParentheses hlevel (by simp [hwritten]) hneeds).1
        rw [h.2] at hvararg
        exact nomatch hvararg
  refine ⟨hneeds, args, rfl, ?_, hwritten⟩
  by_contra hlength
  unfold symbolFor? at hwritten
  rw [if_pos] at hwritten
  · rw [hsymbol] at hwritten
    exact nomatch hwritten
  · have hvararg := h.2
    by_cases htwo : args.length = 2
    · exact .inl htwo
    · exact .inr ⟨by omega, hvararg⟩

/-- The continued call gives its arguments to the call that continues it. -/
theorem reading_continued {inner : List Query} (hlegible : Legible table)
    (hpath : pathKeys? name (.call name inner :: others) = none)
    (hsymbol : symbolFor? table name (.call name inner :: others) = some symbol)
    (hfunction : symbolFor? table name inner = none) (hname : functionName name = name)
    (hneeds : needsParentheses table name true (.call name inner) = false)
    (hvararg : table.isVararg name = true)
    (hargs : ∀ arg ∈ .call name inner :: others, ReadsPlain table arg) :
    reading table (.call name (.call name inner :: others)) =
      plain (.call name (inner.map (restated table) ++ others.map (restated table))) := by
  have hfirst : reading table (.call name inner) =
      plain (.call name (inner.map (restated table))) := by
    rw [hargs _ List.mem_cons_self,
      restated_function hlegible (symbol?_of_symbolFor? hsymbol) hfunction, hname]
  have hreadings : (others.map fun other =>
      grouped (needsParentheses table name false other) (reading table other)) =
        others.map fun other =>
          grouped (needsParentheses table name false other) (plain (restated table other)) :=
    List.map_congr_left fun other hother => by rw [hargs other (List.mem_cons_of_mem _ hother)]
  rw [reading_infixCall hpath hsymbol, hneeds, hfirst, ← call_map_plain, hreadings, grouped,
    if_neg (by simp), joinAll_call_of_isVararg hvararg, call_eq_plain]
  · simp [Function.comp_def, plain]
  · intro operand hoperand
    rcases List.mem_append.1 hoperand with hoperand | hoperand
    · obtain ⟨query, _, rfl⟩ := List.mem_map.1 hoperand
      rfl
    · obtain ⟨other, _, rfl⟩ := List.mem_map.1 hoperand
      simp [plain]

/-! ## The shapes of a restatement -/

/-- What the restatement of a call can be, with the operators every query has. -/
inductive Restates (name : String) (args : List Query) : Query → Prop
  | object {entries : List (String × Query)} (hname : name = "object")
      (hargs : args = [.mapping entries]) (hdistinct : Entries.Distinct entries) :
      Restates name args (.object (entries.map fun entry => (entry.1, restated .builtin entry.2)))
  | path {keys : List String} (h : pathKeys? name args = some keys) :
      Restates name args (.get keys)
  | function (hobject : ¬ IsObject name args) (hsymbol : symbolFor? .builtin name args = none) :
      Restates name args (.call (functionName name) (args.map (restated .builtin)))
  | operator {symbol : String} (hsymbol : symbolFor? .builtin name args = some symbol) :
      Restates name args (.call name (args.map (restated .builtin)))
  | continued {symbol : String} {inner others : List Query}
      (hcall : symbolFor? .builtin name args = some symbol)
      (hargs : args = .call name inner :: others)
      (hinner : inner.length ≤ 1) (hothers : others ≠ [])
      (hsymbol : symbolFor? .builtin name inner = none)
      (hvararg : OperatorTable.builtin.isVararg name = true) :
      Restates name args
        (.call name (inner.map (restated .builtin) ++ others.map (restated .builtin)))

theorem ne_notIn_of_symbol? (h : OperatorTable.builtin.symbol? name = some symbol) :
    name ≠ "notIn" := by
  rintro rfl
  exact nomatch h

theorem functionName_of_isVararg (h : OperatorTable.builtin.isVararg name = true) :
    functionName name = name := by
  rw [functionName, if_neg]
  rintro rfl
  cases h

theorem exists_restates (hargs : ∀ arg ∈ args, ReadsPlain .builtin arg)
    (hentries : ∀ entries, args = [.mapping entries] → Entries.Distinct entries) :
    ∃ result, reading .builtin (.call name args) = plain result ∧ Restates name args result := by
  have hlegible := Parser.separable_builtin.legible
  by_cases hobject : IsObject name args
  · obtain ⟨rfl, entries, rfl⟩ := hobject
    have hdistinct := hentries entries rfl
    refine ⟨_, ?_, .object rfl rfl hdistinct⟩
    rw [reading, hargs (.mapping entries) List.mem_cons_self, restated_mapping hdistinct]
  cases hpath : pathKeys? name args with
  | some keys => exact ⟨_, reading_get_eq_plain hpath, .path hpath⟩
  | none =>
      cases hsymbol : symbolFor? .builtin name args with
      | none =>
          exact ⟨_, reading_functionForm hobject hpath hsymbol hargs, .function hobject hsymbol⟩
      | some symbol =>
          obtain ⟨first, others, rfl⟩ := exists_cons_of_symbolFor? hsymbol
          by_cases hchain : Continues .builtin name first
          · have hname := symbol?_of_symbolFor? hsymbol
            obtain ⟨hneeds, inner, rfl, hinner, hfunction⟩ :=
              exists_functionForm_of_continues hlegible hname (ne_notIn_of_symbol? hname) hchain
            have hothers := ne_nil_of_symbolFor? hsymbol
            refine ⟨_, ?_, .continued hsymbol rfl hinner hothers hfunction hchain.2⟩
            exact reading_continued hlegible hpath hsymbol hfunction
              (functionName_of_isVararg hchain.2) hneeds hchain.2 hargs
          · exact ⟨_, reading_joined hpath hsymbol hchain hargs, .operator hsymbol⟩

theorem distinct_of_everywhere {entries : List (String × Query)}
    (h : (Query.mapping entries).Everywhere Query.WellFormed) : Entries.Distinct entries := by
  cases h with
  | mapping hdistinct => exact hdistinct

/-- The text of a well-formed query is read without parentheses, at the height of what it
restates. -/
theorem readsPlain_of_wellFormed (h : query.Everywhere Query.WellFormed) :
    ReadsPlain .builtin query := by
  induction h with
  | literal h => exact readsPlain_literal h
  | mapping hdistinct _ ih => exact .of_eq (reading_mapping hdistinct ih)
  | @call name args _ hargs ih =>
      have hentries (entries : List (String × Query)) (heq : args = [.mapping entries]) :
          Entries.Distinct entries :=
        distinct_of_everywhere (hargs (.mapping entries) (by simp [heq]))
      obtain ⟨result, hreading, _⟩ := @exists_restates name args ih hentries
      exact .of_eq hreading

theorem restates_of_wellFormed (h : (Query.call name args).Everywhere Query.WellFormed) :
    Restates name args (restated .builtin (.call name args)) := by
  cases h with
  | call _ hargs =>
      have hentries (entries : List (String × Query)) (heq : args = [.mapping entries]) :
          Entries.Distinct entries :=
        distinct_of_everywhere (hargs (.mapping entries) (by simp [heq]))
      obtain ⟨result, hreading, hshape⟩ := @exists_restates name args
        (fun arg harg => readsPlain_of_wellFormed (hargs arg harg)) hentries
      rwa [restated_of_eq hreading]

end Printer

end PipeQuery
