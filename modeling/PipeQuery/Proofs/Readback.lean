/-
Reading back what was printed.

`reading` is what the reader makes of the text of a query.  It differs from the query where one text
serves several trees: containers inside literals come back as the calls that build them, whole
numbers in paths as texts, and a function-form call that an operator of its own continues gives its
arguments to the one flat call.
-/
import PipeQuery.Proofs.Printing

namespace PipeQuery

namespace Printer

open Grammar
open PipeQuery.Parser (Operand Legible Spelled ReadsOperand Opens primary expression joinAll refuses
  enclosed infixTail)

/-- An operand with or without parentheses. -/
def grouped (parenthesized : Bool) (operand : Operand) : Operand :=
  if parenthesized then { operand with parenthesized := true } else operand

@[simp] theorem query_grouped (parenthesized : Bool) (operand : Operand) :
    (grouped parenthesized operand).query = operand.query := by
  cases parenthesized <;> rfl

@[simp] theorem height_grouped (parenthesized : Bool) (operand : Operand) :
    (grouped parenthesized operand).height = operand.height := by
  cases parenthesized <;> rfl

/-- What the text of a literal is read as. -/
def literalReading : Value → Operand
  | .arr items => .call "array" (items.map literalReading)
  | .obj members => .object (members.map fun member => (member.1, literalReading member.2))
  | scalar => .constant scalar
termination_by value => sizeOf value
decreasing_by
  · have := List.sizeOf_lt_of_mem ‹_›
    simp only [Value.arr.sizeOf_spec]
    omega
  · have := Entries.sizeOf_snd_lt ‹_›
    simp only [Value.obj.sizeOf_spec]
    omega

/-- What the text of a query is read as. -/
def reading (table : OperatorTable) : Query → Operand
  | .literal value => literalReading value
  | .mapping entries => .object (entries.map fun entry => (entry.1, reading table entry.2))
  | .call "object" [.mapping entries] => reading table (.mapping entries)
  | .call name [] => .call (functionName name) []
  | .call name (first :: others) =>
    match pathKeys? name (first :: others) with
    | some keys => { query := .get keys, height := 1 }
    | none =>
      if (symbolFor? table name (first :: others)).isSome then
        joinAll table name (grouped (needsParentheses table name true first) (reading table first))
          (others.map fun other =>
            grouped (needsParentheses table name false other) (reading table other))
      else .call (functionName name) (reading table first :: others.map (reading table))
termination_by query => sizeOf query
decreasing_by
  · have := Entries.sizeOf_snd_lt ‹_›
    simp only [Query.mapping.sizeOf_spec]
    omega
  all_goals decreasing_tactic

/-- How far brackets nest in the text of a query, where the text of a container literal counts as
the calls that build it.  An infix operand counts its parentheses, and nothing else. -/
def nesting (table : OperatorTable) : Query → Nat
  | .literal value => (literalReading value).height
  | .mapping entries => (entries.map fun entry => nesting table entry.2 + 1).foldl max 0
  | .call "object" [.mapping entries] => nesting table (.mapping entries)
  | .call _ [] => 0
  | .call name (first :: others) =>
    match pathKeys? name (first :: others) with
    | some _ => 0
    | none =>
      if (symbolFor? table name (first :: others)).isSome then
        (others.map fun other =>
            nesting table other + (needsParentheses table name false other).toNat).foldl max
          (nesting table first + (needsParentheses table name true first).toNat)
      else
        (others.map fun other => nesting table other + 1).foldl max (nesting table first + 1)
termination_by query => sizeOf query
decreasing_by
  · have := Entries.sizeOf_snd_lt ‹_›
    simp only [Query.mapping.sizeOf_spec]
    omega
  all_goals decreasing_tactic

/-- A call that is an object, written with braces. -/
def IsObject (name : String) (args : List Query) : Prop :=
  name = "object" ∧ ∃ entries, args = [.mapping entries]

variable {table : OperatorTable} {layout : LineLayout} {indent name symbol : String}
  {parenthesized : Bool} {args : List Query} {keys : List String} {first : Query}
  {others : List Query}

theorem symbolFor?_of_length (h : args.length ≤ 1) : symbolFor? table name args = none := by
  unfold symbolFor?
  rw [if_neg]
  omega

theorem ne_nil_of_symbolFor? (h : symbolFor? table name (first :: others) = some symbol) :
    others ≠ [] := by
  rintro rfl
  simp [symbolFor?_of_length] at h

theorem exists_cons_of_symbolFor? (h : symbolFor? table name args = some symbol) :
    ∃ first others, args = first :: others := by
  cases args with
  | nil => simp [symbolFor?_of_length] at h
  | cons first others => exact ⟨first, others, rfl⟩

section

variable (hobject : ¬ IsObject name args) (hpath : pathKeys? name args = none)

include hobject

theorem reading_path (hpath : pathKeys? name args = some keys) :
    reading table (.call name args) = { query := .get keys, height := 1 } := by
  rcases args with _ | ⟨first, others⟩
  · simp [pathKeys?] at hpath
  · rw [reading]
    · simp [hpath]
    · rintro entries rfl rfl rfl
      exact hobject ⟨rfl, entries, rfl⟩

theorem queryText_path (hpath : pathKeys? name args = some keys) :
    queryText table layout indent parenthesized (.call name args) =
      String.join (keys.map fun key => "." ++ keyText key) := by
  have htext : pathText? name args =
      some (String.join (keys.map fun key => "." ++ keyText key)) := by
    rw [pathText?_eq, hpath, Option.map_some]
  have hshape {args' : List Query} (h : args = args') (entries : List (String × Query)) :
      name = "object" → args' = [.mapping entries] → False :=
    fun hname hargs => hobject ⟨hname, entries, h.trans hargs⟩
  rcases args with _ | ⟨first, _ | ⟨second, others⟩⟩
  · simp [pathText?] at htext
  · rw [queryText, htext]
    intro entries hname hfirst
    exact hshape rfl entries hname (by rw [hfirst])
  · rw [queryText, htext] <;> simp

include hpath

theorem reading_function (hsymbol : symbolFor? table name args = none) :
    reading table (.call name args) = .call (functionName name) (args.map (reading table)) := by
  rcases args with _ | ⟨first, others⟩
  · rw [reading, List.map_nil]
  · rw [reading]
    · simp [hpath, hsymbol]
    · rintro entries rfl rfl rfl
      exact hobject ⟨rfl, entries, rfl⟩

end

theorem reading_infixCall (hpath : pathKeys? name (first :: others) = none)
    (hsymbol : symbolFor? table name (first :: others) = some symbol) :
    reading table (.call name (first :: others)) =
      joinAll table name (grouped (needsParentheses table name true first) (reading table first))
        (others.map fun other =>
          grouped (needsParentheses table name false other) (reading table other)) := by
  rw [reading]
  · simp [hpath, hsymbol]
  · rintro entries rfl rfl rfl
    exact ne_nil_of_symbolFor? hsymbol rfl

theorem nesting_path (hobject : ¬ IsObject name args) (hpath : pathKeys? name args = some keys) :
    nesting table (.call name args) = 0 := by
  rcases args with _ | ⟨first, others⟩
  · rw [nesting]
  · rw [nesting]
    · simp [hpath]
    · rintro entries rfl rfl rfl
      exact hobject ⟨rfl, entries, rfl⟩

theorem nesting_function_le_iff (hobject : ¬ IsObject name args)
    (hpath : pathKeys? name args = none)
    (hsymbol : symbolFor? table name args = none) {bound : Nat} :
    nesting table (.call name args) ≤ bound ↔ ∀ arg ∈ args, nesting table arg + 1 ≤ bound := by
  rcases args with _ | ⟨first, others⟩
  · simp [nesting]
  · rw [nesting]
    · simp [hpath, hsymbol, Parser.foldl_max_le]
    · rintro entries rfl rfl rfl
      exact hobject ⟨rfl, entries, rfl⟩

theorem nesting_infixCall_le_iff (hpath : pathKeys? name (first :: others) = none)
    (hsymbol : symbolFor? table name (first :: others) = some symbol) {bound : Nat} :
    nesting table (.call name (first :: others)) ≤ bound ↔
      nesting table first + (needsParentheses table name true first).toNat ≤ bound ∧
        ∀ other ∈ others,
          nesting table other + (needsParentheses table name false other).toNat ≤ bound := by
  rw [nesting]
  · simp [hpath, hsymbol, Parser.foldl_max_le]
  · rintro entries rfl rfl rfl
    exact ne_nil_of_symbolFor? hsymbol rfl

theorem nesting_mapping_le_iff {entries : List (String × Query)} {bound : Nat} :
    nesting table (.mapping entries) ≤ bound ↔
      ∀ entry ∈ entries, nesting table entry.2 + 1 ≤ bound := by
  rw [nesting, Parser.foldl_max_le]
  constructor
  · exact fun h entry hentry => h.2 _ (List.mem_map_of_mem hentry)
  · intro h
    refine ⟨Nat.zero_le _, fun height hheight => ?_⟩
    obtain ⟨entry, hentry, rfl⟩ := List.mem_map.1 hheight
    exact h entry hentry

theorem queryText_array :
    queryText table layout indent parenthesized (.call "array" args) =
      arrayText layout indent (args.map (queryText table layout (deeper layout indent) false)) := by
  have htext : pathText? "array" args = none := by simp [pathText?]
  rcases args with _ | ⟨first, _ | ⟨second, others⟩⟩
  · simp [queryText]
  · simp [queryText, htext]
  · simp [queryText, htext]

theorem queryText_infixCall (hpath : pathKeys? name (first :: others) = none)
    (harray : name ≠ "array")
    (hsymbol : symbolFor? table name (first :: others) = some symbol) :
    queryText table layout indent parenthesized (.call name (first :: others)) =
      infixText layout indent symbol parenthesized
        (queryText table layout (deeper layout indent)
            (needsParentheses table name true first) first ::
          others.map fun arg =>
            queryText table layout (deeper layout indent)
              (needsParentheses table name false arg) arg) := by
  have htext : pathText? name (first :: others) = none := by
    rw [pathText?_eq, hpath, Option.map_none]
  have hothers := ne_nil_of_symbolFor? hsymbol
  rw [queryText]
  · simp [htext, harray, hsymbol]
  · exact fun _ _ _ h => hothers h
  · exact hothers

/-- A call in function form, in any layout. -/
theorem listed_queryText_function (hlayout : BlankString layout.indentation)
    (hindent : BlankString indent) (hobject : ¬ IsObject name args)
    (hpath : pathKeys? name args = none) (harray : name ≠ "array")
    (hsymbol : symbolFor? table name args = none) :
    ∃ inner, BlankString inner ∧
      Listed (queryText table layout indent parenthesized (.call name args)).toList
        ((functionName name).toList ++ ['('])
        (args.map fun arg => (queryText table layout inner false arg).toList) ')' := by
  have htext : pathText? name args = none := by rw [pathText?_eq, hpath, Option.map_none]
  rcases args with _ | ⟨first, _ | ⟨second, others⟩⟩
  · refine ⟨indent, hindent, ?_⟩
    rw [queryText, if_neg harray]
    exact listed_functionText hlayout hindent (functionName name) []
  · refine ⟨indent, hindent, [], [], [], blank_nil, blank_nil, blank_nil, ?_⟩
    rw [queryText]
    · simp [htext, harray, enclosed]
    · rintro entries rfl rfl
      exact hobject ⟨rfl, entries, rfl⟩
  · refine ⟨deeper layout indent, blankString_deeper hlayout hindent, ?_⟩
    have hlisted := listed_functionText hlayout hindent (functionName name)
      ((first :: second :: others).map (queryText table layout (deeper layout indent) false))
    rw [queryText]
    · simpa [htext, harray, hsymbol, Function.comp_def] using hlisted
    · simp
    · simp

/-! ## Queries whose text can be read -/

/-- Every float inside is written exactly. -/
inductive WritableValue : Value → Prop
  | scalar {value : Value} (h : ScalarText value) : WritableValue value
  | arr {items : List Value} (h : ∀ item ∈ items, WritableValue item) : WritableValue (.arr items)
  | obj {members : List (String × Value)} (h : ∀ member ∈ members, WritableValue member.2) :
      WritableValue (.obj members)

/-- Calls in function form have plain names, and no operator follows a bare call of its own that it
would not continue. -/
inductive Writable (table : OperatorTable) : Query → Prop
  | literal {value : Value} (h : WritableValue value) : Writable table (.literal value)
  | mapping {entries : List (String × Query)} (h : ∀ entry ∈ entries, Writable table entry.2) :
      Writable table (.mapping entries)
  | call {name : String} {args : List Query} (hargs : ∀ arg ∈ args, Writable table arg)
      (hname : symbolFor? table name args = none → isPlainName (functionName name) = true)
      (haccepted : ∀ first others, args = first :: others →
        (symbolFor? table name args).isSome = true →
          refuses table name
              (grouped (needsParentheses table name true first) (reading table first)) =
            false) :
      Writable table (.call name args)

/-- One more than the place of the group of the operator on top, or zero where there is none. -/
def levelOf (table : OperatorTable) : Query → Nat
  | .call name args =>
    match symbolFor? table name args, table.precedence? name with
    | some _, some level => level + 1
    | _, _ => 0
  | _ => 0

/-- The text of the query is read back in any layout, within a limit. -/
def ReadsBack (table : OperatorTable) (layout : LineLayout) (limit : Nat) (query : Query) : Prop :=
  ∀ ⦃indent : String⦄ ⦃parenthesized : Bool⦄ ⦃budget : Nat⦄, BlankString indent →
    (reading table query).height ≤ limit → nesting table query + parenthesized.toNat ≤ budget →
    (parenthesized = true → 0 < levelOf table query) →
    Opens (queryText table layout indent parenthesized query).toList ∧
      Spelled table limit (primary limit (expression table limit budget))
        (if parenthesized then 0 else levelOf table query)
        (queryText table layout indent parenthesized query).toList
        (grouped parenthesized (reading table query))

variable {limit budget : Nat}

theorem ReadsBack.readsOperand {query : Query} (h : ReadsBack table layout limit query)
    (hlegible : Legible table) (hindent : BlankString indent)
    (hlimit : (reading table query).height ≤ limit) (hbudget : nesting table query + 1 ≤ budget) :
    ReadsOperand (expression table limit budget) (queryText table layout indent false query).toList
      (reading table query) := by
  obtain ⟨budget, rfl⟩ : ∃ inner, budget = inner + 1 :=
    Nat.exists_eq_succ_of_ne_zero (by omega)
  obtain ⟨hopens, hspelled⟩ := @h _ false budget hindent hlimit (Nat.le_of_succ_le_succ hbudget)
    (by simp)
  exact hspelled.readsOperand hlegible hopens

/-- A piece that is no infix call needs to be read at the tightest rung only. -/
theorem readsBack_of_tight {query : Query} (hlevel : levelOf table query = 0)
    (h : ∀ {indent : String} {parenthesized : Bool} {budget : Nat}, BlankString indent →
      (reading table query).height ≤ limit → nesting table query ≤ budget →
      Opens (queryText table layout indent parenthesized query).toList ∧
        Spelled table limit (primary limit (expression table limit budget)) 0
          (queryText table layout indent parenthesized query).toList (reading table query)) :
    ReadsBack table layout limit query := by
  intro indent parenthesized budget hindent hlimit hbudget hparenthesized
  cases parenthesized with
  | true => simp [hlevel] at hparenthesized
  | false => simpa [hlevel, grouped] using h hindent hlimit hbudget

section

variable {α : Type} {text : List Char} (pieces : α → List Char) (operand : α → Operand)

theorem spelled_array {items : List α} (htext : Listed text ['['] (items.map pieces) ']')
    (hlimit : (Operand.call "array" (items.map operand)).height ≤ limit)
    (hitems : ∀ item ∈ items, (operand item).height ≤ limit →
      ReadsOperand (expression table limit budget) (pieces item) (operand item)) :
    Opens text ∧
      Spelled table limit (primary limit (expression table limit budget)) 0 text
        (.call "array" (items.map operand)) := by
  obtain ⟨before, between, after, hbefore, hbetween, hafter, rfl⟩ := htext
  have hspelled := @Parser.spelled_array table limit _ _ _ (expression table limit budget) hbefore
    hbetween hafter (items.map fun item => (pieces item, operand item)) ?_
    (by simpa [Function.comp_def] using hlimit)
  · refine ⟨.of_cons (by decide) (by decide) _, ?_⟩
    simpa [Function.comp_def] using hspelled
  · intro entry hentry
    obtain ⟨item, hitem, rfl⟩ := List.mem_map.1 hentry
    have hheight := @Parser.height_lt_call "array" _ _ (List.mem_map_of_mem (f := operand) hitem)
    exact hitems item hitem (by omega)

theorem spelled_function {items : List α} (hname : isPlainName name = true)
    (htext : Listed text (name.toList ++ ['(']) (items.map pieces) ')')
    (hlimit : (Operand.call name (items.map operand)).height ≤ limit)
    (hitems : ∀ item ∈ items, (operand item).height ≤ limit →
      ReadsOperand (expression table limit budget) (pieces item) (operand item)) :
    Opens text ∧
      Spelled table limit (primary limit (expression table limit budget)) 0 text
        (.call name (items.map operand)) := by
  obtain ⟨before, between, after, hbefore, hbetween, hafter, rfl⟩ := htext
  have hspelled := @Parser.spelled_call table limit _ _ _ (expression table limit budget) hbefore
    hbetween hafter _ hname (items.map fun item => (pieces item, operand item)) ?_
    (by simpa [Function.comp_def] using hlimit)
  · refine ⟨((Parser.opens_of_isPlainName hname).append _).append _, ?_⟩
    simpa [Function.comp_def] using hspelled
  · intro entry hentry
    obtain ⟨item, hitem, rfl⟩ := List.mem_map.1 hentry
    have hheight := @Parser.height_lt_call name _ _ (List.mem_map_of_mem (f := operand) hitem)
    exact hitems item hitem (by omega)

theorem spelled_object {entries : List (String × α)}
    (htext : Listed text ['\x7b'] (entries.map fun entry =>
      Parser.entryText ((keyText entry.1).toList, pieces entry.2)) '\x7d')
    (hlimit : (Operand.object (entries.map fun entry => (entry.1, operand entry.2))).height ≤ limit)
    (hentries : ∀ entry ∈ entries, (operand entry.2).height ≤ limit →
      ReadsOperand (expression table limit budget) (pieces entry.2) (operand entry.2)) :
    Opens text ∧
      Spelled table limit (primary limit (expression table limit budget)) 0 text
        (.object (entries.map fun entry => (entry.1, operand entry.2))) := by
  obtain ⟨before, between, after, hbefore, hbetween, hafter, rfl⟩ := htext
  have hspelled := @Parser.spelled_object table limit _ _ _ (expression table limit budget) hbefore
    hbetween hafter (entries.map fun entry =>
      (((keyText entry.1).toList, pieces entry.2), (entry.1, operand entry.2))) ?_
    (by simpa [Function.comp_def] using hlimit)
  · refine ⟨.of_cons (by decide) (by decide) _, ?_⟩
    simpa [Function.comp_def] using hspelled
  · intro item hitem
    obtain ⟨entry, hentry, rfl⟩ := List.mem_map.1 hitem
    have hheight : (operand entry.2).height < _ := Parser.height_lt_object
      (List.mem_map_of_mem (f := fun entry : String × α => (entry.1, operand entry.2)) hentry)
    exact ⟨keyText_keyText entry.1, hentries entry hentry (by omega)⟩

end

theorem spelled_literalText (hlegible : Legible table) (hlayout : BlankString layout.indentation)
    {value : Value} (h : WritableValue value) :
    ∀ {indent : String} {budget : Nat}, BlankString indent →
      (literalReading value).height ≤ limit → (literalReading value).height ≤ budget →
      Opens (literalText layout indent value).toList ∧
        Spelled table limit (primary limit (expression table limit budget)) 0
          (literalText layout indent value).toList (literalReading value) := by
  induction h with
  | @scalar value h =>
      intro indent budget _ _ _
      have hliteral := literalText_of_scalarText h layout indent
      have hreading : literalReading value = .constant value := by
        cases value with
        | arr items => exact h.elim
        | obj members => exact h.elim
        | _ => rw [literalReading] <;> simp
      rw [hreading]
      exact ⟨Parser.opens_of_literalText hliteral, Parser.spelled_literal hliteral⟩
  | @arr items h ih =>
      intro indent budget hindent hlimit hbudget
      have hdeeper := blankString_deeper hlayout hindent
      have hlisted := listed_arrayText hlayout hindent
        (items.map (literalText layout (deeper layout indent)))
      rw [List.map_map] at hlisted
      rw [literalReading] at hlimit hbudget ⊢
      rw [literalText]
      refine spelled_array _ literalReading hlisted hlimit fun item hitem hlimit' => ?_
      have hheight := @Parser.height_lt_call "array" _ _
        (List.mem_map_of_mem (f := literalReading) hitem)
      obtain ⟨budget, rfl⟩ : ∃ inner, budget = inner + 1 :=
        Nat.exists_eq_succ_of_ne_zero (by omega)
      obtain ⟨hopens, hspelled⟩ := @ih item hitem _ budget hdeeper hlimit' (by omega)
      exact hspelled.readsOperand hlegible hopens
  | @obj members h ih =>
      intro indent budget hindent hlimit hbudget
      have hdeeper := blankString_deeper hlayout hindent
      have hlisted := listed_objectText hlayout hindent
        (members.map fun member =>
          (member.1, literalText layout (deeper layout indent) member.2))
      rw [List.map_map] at hlisted
      rw [literalReading] at hlimit hbudget ⊢
      rw [literalText]
      refine spelled_object
        (fun value => (literalText layout (deeper layout indent) value).toList) literalReading
        hlisted
        hlimit fun member hmember hlimit' => ?_
      have hheight : (literalReading member.2).height < _ := Parser.height_lt_object
        (List.mem_map_of_mem (f := fun member : String × Value =>
          (member.1, literalReading member.2)) hmember)
      obtain ⟨budget, rfl⟩ : ∃ inner, budget = inner + 1 :=
        Nat.exists_eq_succ_of_ne_zero (by omega)
      obtain ⟨hopens, hspelled⟩ := @ih member hmember _ budget hdeeper hlimit' (by omega)
      exact hspelled.readsOperand hlegible hopens

/-! ## Infix calls -/

theorem levelOf_pos_of_needsParentheses {parent : String} {isFirst : Bool} {query : Query}
    (h : needsParentheses table parent isFirst query = true) : 0 < levelOf table query := by
  cases query with
  | call name args =>
      simp only [needsParentheses, Bool.and_eq_true] at h
      obtain ⟨hsymbol, hplace⟩ := h
      obtain ⟨symbol, hsymbol⟩ := Option.isSome_iff_exists.1 hsymbol
      cases hlevel : table.precedence? name with
      | none => cases hparent : table.precedence? parent <;> simp [hlevel, hparent] at hplace
      | some level => simp [levelOf, hsymbol, hlevel]
  | literal value => simp [needsParentheses] at h
  | mapping entries => simp [needsParentheses] at h

/-- An operand without parentheses is no looser than its place allows. -/
theorem levelOf_le_of_not_needsParentheses {parent : String} {isFirst : Bool} {level : Nat}
    {query : Query} (hparent : table.precedence? parent = some level)
    (h : needsParentheses table parent isFirst query = false) :
    levelOf table query ≤ level + isFirst.toNat := by
  cases query with
  | call name args =>
      cases hsymbol : symbolFor? table name args with
      | none => simp [levelOf, hsymbol]
      | some symbol =>
          cases hlevel : table.precedence? name with
          | none => simp [levelOf, hsymbol, hlevel]
          | some inner =>
              simp only [needsParentheses, hsymbol, hparent, hlevel, Option.isSome_some,
                Bool.true_and,
                Bool.or_eq_false_iff, decide_eq_false_iff_not, Nat.not_lt] at h
              obtain ⟨⟨hle, hsame⟩, _⟩ := h
              simp only [levelOf, hsymbol, hlevel]
              cases isFirst with
              | true => simpa using hle
              | false =>
                  have hne : inner ≠ level := by simpa using hsame
                  simp only [Bool.toNat_false]
                  omega
  | literal value => simp [levelOf]
  | mapping entries => simp [levelOf]

theorem spelled_operand {parent : String} {isFirst : Bool} {level : Nat} {query : Query}
    (h : ReadsBack table layout limit query) (hparent : table.precedence? parent = some level)
    (hindent : BlankString indent) (hlimit : (reading table query).height ≤ limit)
    (hbudget : nesting table query + (needsParentheses table parent isFirst query).toNat ≤ budget) :
    Opens (queryText table layout indent
        (needsParentheses table parent isFirst query) query).toList ∧
      ∃ level' ≤ level + isFirst.toNat,
        Spelled table limit (primary limit (expression table limit budget)) level'
          (queryText table layout indent (needsParentheses table parent isFirst query) query).toList
          (grouped (needsParentheses table parent isFirst query) (reading table query)) := by
  obtain ⟨hopens, hspelled⟩ := h hindent hlimit hbudget levelOf_pos_of_needsParentheses
  refine ⟨hopens, _, ?_, hspelled⟩
  cases hneeds : needsParentheses table parent isFirst query with
  | true => exact Nat.zero_le _
  | false => exact levelOf_le_of_not_needsParentheses hparent hneeds

/-- An operand in parentheses is below the call that joins it, not part of it. -/
theorem height_grouped_le_joinAll (operand : Operand) {others : List Operand} (hne : others ≠ []) :
    (grouped parenthesized operand).height + parenthesized.toNat ≤
      (joinAll table name (grouped parenthesized operand) others).height := by
  obtain ⟨other, others, rfl⟩ := List.exists_cons_of_ne_nil hne
  cases parenthesized with
  | false => exact Parser.height_le_joinAll _ _
  | true =>
      have hjoin : (grouped true operand).height + 1 ≤
          (Operand.join table name (grouped true operand) other).height := by
        unfold Operand.join
        split
        · simp [grouped, Operand.isChain, Operand.call, Operand.tallest]
          omega
        · simp [grouped, Operand.call, Operand.tallest]
          omega
      exact Nat.le_trans hjoin (Parser.height_le_joinAll _ others)

theorem symbol?_of_symbolFor? (h : symbolFor? table name args = some symbol) :
    table.symbol? name = some symbol := by
  unfold symbolFor? at h
  split at h
  · exact h
  · simp at h

theorem isVararg_of_symbolFor? (h : symbolFor? table name (first :: others) = some symbol)
    (hlength : 2 ≤ others.length) : table.isVararg name = true := by
  unfold symbolFor? at h
  split at h
  · rename_i hargs
    rcases hargs with htwo | ⟨_, hvararg⟩
    · simp only [List.length_cons] at htwo
      omega
    · exact hvararg
  · simp at h

/-- An operand of an infix call, as it is written and as it is read. -/
def infixOperand (table : OperatorTable) (layout : LineLayout) (indent parent : String)
    (isFirst : Bool) (query : Query) : List Char × Operand :=
  ((queryText table layout indent (needsParentheses table parent isFirst query) query).toList,
    grouped (needsParentheses table parent isFirst query) (reading table query))

/-- The operands of an infix call as they are joined. -/
theorem reading_infixOperands (hpath : pathKeys? name (first :: others) = none)
    (hsymbol : symbolFor? table name (first :: others) = some symbol) :
    reading table (.call name (first :: others)) =
      joinAll table name (infixOperand table layout indent name true first).2
        ((others.map (infixOperand table layout indent name false)).map (·.2)) := by
  rw [reading_infixCall hpath hsymbol, List.map_map]
  rfl

theorem height_first_grouped_le (hpath : pathKeys? name (first :: others) = none)
    (hsymbol : symbolFor? table name (first :: others) = some symbol) :
    (reading table first).height + (needsParentheses table name true first).toNat ≤
      (reading table (.call name (first :: others))).height := by
  have hheight := @height_grouped_le_joinAll table name (needsParentheses table name true first)
    (reading table first)
    (others.map fun other =>
      grouped (needsParentheses table name false other) (reading table other))
    (by simpa using ne_nil_of_symbolFor? hsymbol)
  rwa [← reading_infixCall hpath hsymbol, height_grouped] at hheight

theorem height_other_lt (hpath : pathKeys? name (first :: others) = none)
    (hsymbol : symbolFor? table name (first :: others) = some symbol) {other : Query}
    (hother : other ∈ others) :
    (reading table other).height < (reading table (.call name (first :: others))).height := by
  have hheight := @Parser.height_lt_joinAll table name
    (grouped (needsParentheses table name true first) (reading table first)) _ _
    (List.mem_map_of_mem (f := fun other =>
      grouped (needsParentheses table name false other) (reading table other)) hother)
  rwa [← reading_infixCall hpath hsymbol, height_grouped] at hheight

section

variable {level : Nat} (hlevel : table.precedence? name = some level)
  (hpath : pathKeys? name (first :: others) = none)
  (hsymbol : symbolFor? table name (first :: others) = some symbol) (hindent : BlankString indent)
  (hlimit : (reading table (.call name (first :: others))).height ≤ limit)
  (hbudget : nesting table (.call name (first :: others)) ≤ budget)

include hpath hsymbol hlimit

theorem height_first_le : (reading table first).height ≤ limit := by
  have hheight := height_first_grouped_le hpath hsymbol
  omega

theorem height_other_le {other : Query} (hother : other ∈ others) :
    (reading table other).height ≤ limit :=
  Nat.le_of_lt (Nat.lt_of_lt_of_le (height_other_lt hpath hsymbol hother) hlimit)

include hlevel hindent hbudget

theorem spelled_first (hfirst : ReadsBack table layout limit first) :
    Opens (infixOperand table layout indent name true first).1 ∧
      ∃ level' ≤ level + 1, Spelled table limit
        (primary limit (expression table limit budget)) level'
        (infixOperand table layout indent name true first).1
        (infixOperand table layout indent name true first).2 :=
  spelled_operand hfirst hlevel hindent (height_first_le hpath hsymbol hlimit)
    ((nesting_infixCall_le_iff hpath hsymbol).1 hbudget).1

theorem spelled_other {other : Query} (hother : other ∈ others)
    (h : ReadsBack table layout limit other) :
    Opens (infixOperand table layout indent name false other).1 ∧
      ∃ level' ≤ level, Spelled table limit (primary limit (expression table limit budget)) level'
        (infixOperand table layout indent name false other).1
        (infixOperand table layout indent name false other).2 :=
  @spelled_operand _ _ _ _ _ _ false _ _ h hlevel hindent
    (height_other_le hpath hsymbol hlimit hother)
    (((nesting_infixCall_le_iff hpath hsymbol).1 hbudget).2 other hother)

/-- An infix call without parentheses of its own, at any budget that its operands allow. -/
theorem spelled_infixOperands (hlegible : Legible table)
    (haccepted : refuses table name (infixOperand table layout indent name true first).2 = false)
    (hargs : ∀ arg ∈ first :: others, ReadsBack table layout limit arg) {blanks : List Char}
    (hblanks : Blank blanks) (hne : blanks ≠ []) :
    Opens (infixOperand table layout indent name true first).1 ∧
      Spelled table limit (primary limit (expression table limit budget)) (level + 1)
        ((infixOperand table layout indent name true first).1 ++
          infixTail blanks symbol.toList
            (others.map fun other => (infixOperand table layout indent name false other).1))
        (reading table (.call name (first :: others))) := by
  obtain ⟨hopens, hfirst⟩ := spelled_first hlevel hpath hsymbol hindent hlimit hbudget
    (hargs first List.mem_cons_self)
  refine ⟨hopens, ?_⟩
  rw [@reading_infixOperands _ layout indent _ _ _ _ hpath hsymbol] at hlimit ⊢
  have hspelled := Parser.spelled_infixCall hlegible (symbol?_of_symbolFor? hsymbol) hlevel
    hblanks hne
    (infixOperand table layout indent name true first)
    (others.map (infixOperand table layout indent name false)) hfirst ?_ haccepted ?_ hlimit
  · simpa [Function.comp_def] using hspelled
  · intro operand hoperand
    obtain ⟨other, hother, rfl⟩ := List.mem_map.1 hoperand
    rw [← reading_infixOperands hpath hsymbol] at hlimit
    exact spelled_other hlevel hpath hsymbol hindent hlimit hbudget hother
      (hargs other (List.mem_cons_of_mem _ hother))
  · intro hlength
    exact .inl (isVararg_of_symbolFor? hsymbol (by simpa using hlength))

end

/-- An infix call is its operands with the operator between them, in any layout. -/
theorem exists_infixTail_queryText (hlegible : Legible table)
    (hlayout : BlankString layout.indentation) (hindent : BlankString indent)
    (hpath : pathKeys? name (first :: others) = none)
    (hsymbol : symbolFor? table name (first :: others) = some symbol) (parenthesized : Bool) :
    ∃ inner blanks, BlankString inner ∧ Blank blanks ∧ blanks ≠ [] ∧
      (queryText table layout indent parenthesized (.call name (first :: others))).toList =
        (if parenthesized then ['('] else []) ++
          ((infixOperand table layout inner name true first).1 ++
            infixTail blanks symbol.toList
              (others.map fun other => (infixOperand table layout inner name false other).1)) ++
          (if parenthesized then [')'] else []) := by
  have harray : name ≠ "array" := by
    rintro rfl
    simp [hlegible.constructors (.inr (.inl rfl)), symbolFor?] at hsymbol
  obtain ⟨blanks, hblanks, hne, htext⟩ := exists_infixTail_infixText hlayout hindent symbol
    parenthesized
    (queryText table layout (deeper layout indent) (needsParentheses table name true first) first)
    (others.map fun arg =>
      queryText table layout (deeper layout indent) (needsParentheses table name false arg) arg)
  refine ⟨deeper layout indent, blanks, blankString_deeper hlayout hindent, hblanks, hne, ?_⟩
  rw [queryText_infixCall hpath harray hsymbol, htext, List.map_map]
  rfl

theorem levelOf_infixCall {level : Nat} (hlevel : table.precedence? name = some level)
    (hsymbol : symbolFor? table name args = some symbol) :
    levelOf table (.call name args) = level + 1 := by
  simp [levelOf, hsymbol, hlevel]

theorem readsBack_infixCall (hlegible : Legible table) (hlayout : BlankString layout.indentation)
    (hpath : pathKeys? name (first :: others) = none)
    (hsymbol : symbolFor? table name (first :: others) = some symbol)
    (haccepted : refuses table name
      (grouped (needsParentheses table name true first) (reading table first)) = false)
    (hargs : ∀ arg ∈ first :: others, ReadsBack table layout limit arg) :
    ReadsBack table layout limit (.call name (first :: others)) := by
  obtain ⟨level, group, hlevel, _⟩ := hlegible.group (symbol?_of_symbolFor? hsymbol)
  intro indent parenthesized budget hindent hlimit hbudget _
  obtain ⟨inner, blanks, hinner, hblanks, hne, htext⟩ :=
    exists_infixTail_queryText hlegible hlayout hindent hpath hsymbol parenthesized
  rw [htext, levelOf_infixCall hlevel hsymbol]
  cases parenthesized with
  | false =>
      obtain ⟨hopens, hspelled⟩ := spelled_infixOperands hlevel hpath hsymbol hinner hlimit hbudget
        hlegible haccepted hargs hblanks hne
      simpa using ⟨hopens.append _, hspelled⟩
  | true =>
      obtain ⟨budget, rfl⟩ : ∃ budget', budget = budget' + 1 :=
        Nat.exists_eq_succ_of_ne_zero (by simp only [Bool.toNat_true] at hbudget; omega)
      have hbudget' : nesting table (.call name (first :: others)) ≤ budget := by
        simpa using hbudget
      obtain ⟨hopens, hspelled⟩ := spelled_infixOperands hlevel hpath hsymbol hinner hlimit hbudget'
        hlegible haccepted hargs hblanks hne
      exact ⟨.of_cons (by decide) (by decide) _,
        hspelled.parenthesized hlegible (hopens.append _)⟩

/-! ## Whole queries -/

theorem levelOf_of_symbolFor?_none (h : symbolFor? table name args = none) :
    levelOf table (.call name args) = 0 := by
  simp [levelOf, h]

theorem symbolFor?_eq_none (h : table.symbol? name = none) : symbolFor? table name args = none := by
  simp [symbolFor?, h]

theorem readsBack_path (hlegible : Legible table) (hpath : pathKeys? name args = some keys) :
    ReadsBack table layout limit (.call name args) := by
  obtain rfl := (mapM_segmentKey?_of_pathKeys? hpath).1
  have hobject : ¬ IsObject "get" args := fun h => absurd h.1 (by decide)
  have hsymbol := @symbolFor?_eq_none _ _ args (hlegible.constructors (.inl (rfl : "get" = _)))
  obtain ⟨piece, htext, hpiece⟩ := pathText_join (ne_nil_of_pathKeys? hpath)
  refine readsBack_of_tight (levelOf_of_symbolFor?_none hsymbol) fun _ _ _ => ?_
  rw [queryText_path hobject hpath, reading_path hobject hpath, htext]
  exact ⟨.of_cons (by decide) (by decide) piece, Parser.spelled_path hpiece⟩

theorem readsBack_function (hlegible : Legible table) (hlayout : BlankString layout.indentation)
    (hobject : ¬ IsObject name args) (hpath : pathKeys? name args = none)
    (hsymbol : symbolFor? table name args = none) (hname : isPlainName (functionName name) = true)
    (hargs : ∀ arg ∈ args, ReadsBack table layout limit arg) :
    ReadsBack table layout limit (.call name args) := by
  refine readsBack_of_tight (levelOf_of_symbolFor?_none hsymbol) ?_
  intro indent parenthesized budget hindent hlimit hbudget
  have hbudgets := (nesting_function_le_iff hobject hpath hsymbol).1 hbudget
  rw [reading_function hobject hpath hsymbol] at hlimit ⊢
  by_cases harray : name = "array"
  · subst harray
    have hlisted := listed_arrayText hlayout hindent
      (args.map (queryText table layout (deeper layout indent) false))
    rw [List.map_map] at hlisted
    rw [queryText_array]
    exact spelled_array _ (reading table) hlisted hlimit fun arg harg hlimit =>
      (hargs arg harg).readsOperand hlegible (blankString_deeper hlayout hindent) hlimit
        (hbudgets arg harg)
  · obtain ⟨inner, hinner, hlisted⟩ := @listed_queryText_function table _ _ _
      parenthesized _ hlayout hindent hobject hpath harray hsymbol
    exact spelled_function _ (reading table) hname hlisted hlimit fun arg harg hlimit =>
      (hargs arg harg).readsOperand hlegible hinner hlimit (hbudgets arg harg)

theorem readsBack_mapping (hlegible : Legible table) (hlayout : BlankString layout.indentation)
    {entries : List (String × Query)}
    (hentries : ∀ entry ∈ entries, ReadsBack table layout limit entry.2) :
    ReadsBack table layout limit (.mapping entries) := by
  refine readsBack_of_tight rfl ?_
  intro indent parenthesized budget hindent hlimit hbudget
  have hlisted := listed_objectText hlayout hindent
    (entries.map fun entry =>
      (entry.1, queryText table layout (deeper layout indent) false entry.2))
  rw [List.map_map] at hlisted
  rw [reading] at hlimit ⊢
  rw [queryText]
  exact spelled_object
    (fun query => (queryText table layout (deeper layout indent) false query).toList)
    (reading table)
    hlisted hlimit fun entry hentry hlimit =>
      (hentries entry hentry).readsOperand hlegible (blankString_deeper hlayout hindent) hlimit
        (nesting_mapping_le_iff.1 hbudget entry hentry)

/-- An object constructor is written as its mapping. -/
theorem readsBack_object (hlegible : Legible table) {entries : List (String × Query)}
    (h : ReadsBack table layout limit (.mapping entries)) :
    ReadsBack table layout limit (.call "object" [.mapping entries]) := by
  have hsymbol := @symbolFor?_eq_none _ _ [.mapping entries]
    (hlegible.constructors (.inr (.inr (rfl : "object" = _))))
  refine readsBack_of_tight (levelOf_of_symbolFor?_none hsymbol) fun hindent hlimit hbudget => ?_
  rw [reading] at hlimit ⊢
  rw [nesting] at hbudget
  rw [queryText]
  simpa [levelOf, grouped] using @h _ false _ hindent hlimit hbudget (by simp)

/-- Every writable query is read back, in any layout whose indentation is blank. -/
theorem readsBack_of_writable (hlegible : Legible table) (hlayout : BlankString layout.indentation)
    {query : Query} (h : Writable table query) : ReadsBack table layout limit query := by
  induction h with
  | literal h =>
      refine readsBack_of_tight rfl fun hindent hlimit hbudget => ?_
      rw [reading] at hlimit ⊢
      rw [nesting] at hbudget
      rw [queryText]
      exact spelled_literalText hlegible hlayout h hindent hlimit hbudget
  | mapping _ ih => exact readsBack_mapping hlegible hlayout ih
  | @call name args _ hname haccepted ih =>
      by_cases hobject : IsObject name args
      · obtain ⟨rfl, entries, rfl⟩ := hobject
        exact readsBack_object hlegible (ih _ List.mem_cons_self)
      cases hpath : pathKeys? name args with
      | some keys => exact readsBack_path hlegible hpath
      | none =>
          cases hsymbol : symbolFor? table name args with
          | none =>
              exact readsBack_function hlegible hlayout hobject hpath hsymbol (hname hsymbol) ih
          | some symbol =>
              obtain ⟨first, others, rfl⟩ := exists_cons_of_symbolFor? hsymbol
              exact readsBack_infixCall hlegible hlayout hpath hsymbol
                (haccepted first others rfl (by simp [hsymbol])) ih

/-- Brackets nest no further than the calls they are read as. -/
theorem nesting_le_height {query : Query} (h : Writable table query) :
    nesting table query ≤ (reading table query).height := by
  induction h with
  | literal => rw [nesting, reading]
  | @mapping entries _ ih =>
      rw [nesting_mapping_le_iff, reading]
      intro entry hentry
      have hheight : (reading table entry.2).height < _ := Parser.height_lt_object
        (List.mem_map_of_mem (f := fun entry : String × Query => (entry.1, reading table entry.2))
          hentry)
      exact Nat.lt_of_le_of_lt (ih entry hentry) hheight
  | @call name args _ _ _ ih =>
      by_cases hobject : IsObject name args
      · obtain ⟨rfl, entries, rfl⟩ := hobject
        rw [nesting, reading]
        exact ih _ List.mem_cons_self
      cases hpath : pathKeys? name args with
      | some keys =>
          rw [nesting_path hobject hpath]
          exact Nat.zero_le _
      | none =>
          cases hsymbol : symbolFor? table name args with
          | none =>
              rw [nesting_function_le_iff hobject hpath hsymbol,
                reading_function hobject hpath hsymbol]
              intro arg harg
              exact Nat.lt_of_le_of_lt (ih arg harg)
                (Parser.height_lt_call (List.mem_map_of_mem harg))
          | some symbol =>
              obtain ⟨first, others, rfl⟩ := exists_cons_of_symbolFor? hsymbol
              rw [nesting_infixCall_le_iff hpath hsymbol]
              constructor
              · have hheight := height_first_grouped_le hpath hsymbol
                have hfirst := ih first List.mem_cons_self
                omega
              · intro other hother
                have hheight := height_other_lt hpath hsymbol hother
                have hone := Bool.toNat_le (needsParentheses table name false other)
                have hother' := ih other (List.mem_cons_of_mem _ hother)
                omega

end Printer

/-- Printing a query and parsing the text gives what the reader makes of the query, as long as the
limit allows its brackets and its calls. -/
theorem parse_print_within {table : OperatorTable} {layout : LineLayout} {limit : Nat}
    {query : Query}
    (hlegible : Parser.Legible table) (hlayout : Printer.BlankString layout.indentation)
    (hwritable : Printer.Writable table query) (hnesting : Printer.nesting table query < limit)
    (hlimit : (Printer.reading table query).height ≤ limit) :
    parse table limit (print table layout query) = .ok (Printer.reading table query).query := by
  have hback := @Printer.readsBack_of_writable _ _ limit hlegible hlayout _ hwritable
  exact Parser.parse_of_readsOperand
    (@Printer.ReadsBack.readsOperand _ _ "" _ limit _ hback hlegible Grammar.blank_nil hlimit
      hnesting)

/-- Printing a query and parsing the text gives what the reader makes of the query. -/
theorem parse_print {table : OperatorTable} {layout : LineLayout} {limit : Nat} {query : Query}
    (hlegible : Parser.Legible table) (hlayout : Printer.BlankString layout.indentation)
    (hwritable : Printer.Writable table query)
    (hlimit : (Printer.reading table query).height < limit) :
    parse table limit (print table layout query) = .ok (Printer.reading table query).query := by
  have hnesting := Printer.nesting_le_height hwritable
  exact parse_print_within hlegible hlayout hwritable (by omega) (Nat.le_of_lt hlimit)

end PipeQuery
