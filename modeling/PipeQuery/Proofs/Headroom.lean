/-
Formatting within the nesting limit.

The parentheses that are printed nest no deeper than the calls they stand in, so the text of a
parsed query is read, or is refused for another cause than its depth: where an operator may not
follow what stands before it.  The exception is an operator that takes any number of arguments and
is left with one: it is written in function form, which nests one level deeper than an infix chain.
-/
import PipeQuery.Proofs.Stability
import PipeQuery.Proofs.Stalling

namespace PipeQuery

variable {table : OperatorTable} {layout : LineLayout} {limit : Nat} {query : Query}

namespace Printer

open Grammar
open PipeQuery.Parser (Operand Legible Looser Spelled SnagsOperand Jammed Opens
  ReadsOperand primary expression joinAll refuses infixTail)

variable {budget bound : Nat} {indent name symbol : String} {args before after others : List Query}
  {first arg : Query} {allowed : SyntaxCause → Prop}

/-- Calls in function form have plain names, and every float inside is written exactly. -/
inductive Nameable (table : OperatorTable) : Query → Prop
  | literal {value : Value} (h : WritableValue value) : Nameable table (.literal value)
  | mapping {entries : List (String × Query)} (h : ∀ entry ∈ entries, Nameable table entry.2) :
      Nameable table (.mapping entries)
  | call {name : String} {args : List Query} (hargs : ∀ arg ∈ args, Nameable table arg)
      (hname : symbolFor? table name args = none → isPlainName (functionName name) = true) :
      Nameable table (.call name args)

/-- The reading of the text stalls in any layout, within a limit. -/
def JamsBack (allowed : SyntaxCause → Prop) (table : OperatorTable) (layout : LineLayout)
    (limit : Nat) (query : Query) : Prop :=
  ∀ ⦃indent : String⦄ ⦃parenthesized : Bool⦄ ⦃budget : Nat⦄, BlankString indent →
    (reading table query).height ≤ limit → nesting table query + parenthesized.toNat ≤ budget →
    (parenthesized = true → 0 < levelOf table query) →
    Opens (queryText table layout indent parenthesized query).toList ∧
      Jammed allowed table limit (primary limit (expression table limit budget))
        (if parenthesized then 0 else levelOf table query)
        (queryText table layout indent parenthesized query).toList (reading table query).height

theorem levelOf_le_size (hlegible : Legible table) (query : Query) :
    levelOf table query ≤ table.size := by
  cases query with
  | literal value => exact Nat.zero_le _
  | mapping entries => exact Nat.zero_le _
  | call name args =>
      cases hsymbol : symbolFor? table name args with
      | none => simp [levelOf, hsymbol]
      | some symbol =>
          obtain ⟨level, group, hlevel, hgroup, _⟩ := hlegible.group (symbol?_of_symbolFor? hsymbol)
          simp only [levelOf, hsymbol, hlevel]
          exact (List.getElem?_eq_some_iff.1 hgroup).1

theorem JamsBack.snagsOperand (h : JamsBack allowed table layout limit query)
    (hlegible : Legible table) (hindent : BlankString indent)
    (hlimit : (reading table query).height ≤ limit) (hbudget : nesting table query + 1 ≤ budget) :
    SnagsOperand allowed (expression table limit budget)
      (queryText table layout indent false query).toList := by
  obtain ⟨budget, rfl⟩ : ∃ inner, budget = inner + 1 :=
    Nat.exists_eq_succ_of_ne_zero (by omega)
  obtain ⟨hopens, hjammed⟩ := @h _ false budget hindent hlimit (Nat.le_of_succ_le_succ hbudget)
    (by simp)
  exact hjammed.snagsOperand (levelOf_le_size hlegible query) hopens

theorem jamsBack_of_tight (hlevel : levelOf table query = 0)
    (h : ∀ {indent : String} {parenthesized : Bool} {budget : Nat}, BlankString indent →
      (reading table query).height ≤ limit → nesting table query ≤ budget →
      Opens (queryText table layout indent parenthesized query).toList ∧
        Jammed allowed table limit (primary limit (expression table limit budget)) 0
          (queryText table layout indent parenthesized query).toList (reading table query).height) :
    JamsBack allowed table layout limit query := by
  intro indent parenthesized budget hindent hlimit hbudget hparenthesized
  cases parenthesized with
  | true => simp [hlevel] at hparenthesized
  | false => simpa [hlevel] using h hindent hlimit hbudget

/-- Either all of a list are of one kind, or there is a first that is of the other. -/
theorem forall_or_exists_first {α : Type} {p q : α → Prop} {xs : List α} (h : ∀ x ∈ xs, p x ∨ q x) :
    (∀ x ∈ xs, p x) ∨
      ∃ before x after, xs = before ++ x :: after ∧ (∀ y ∈ before, p y) ∧ q x := by
  induction xs with
  | nil => exact .inl (List.forall_mem_nil _)
  | cons x xs ih =>
      rcases h x List.mem_cons_self with hx | hx
      · rcases ih fun y hy => h y (List.mem_cons_of_mem _ hy) with
          hxs | ⟨before, y, after, rfl, hbefore, hy⟩
        · exact .inl (List.forall_mem_cons.2 ⟨hx, hxs⟩)
        · exact .inr ⟨x :: before, y, after, rfl, List.forall_mem_cons.2 ⟨hx, hbefore⟩, hy⟩
      · exact .inr ⟨[], x, xs, rfl, List.forall_mem_nil _, hx⟩

section

variable {α : Type} {text : List Char} {expression : Parser.Production Operand}
  (pieces : α → List Char) (operand : α → Operand) (hallowed : ∀ c, allowed (.charExpected c))

include hallowed

theorem jammed_array {before after : List α} {item : α}
    (htext : Listed text ['['] ((before ++ item :: after).map pieces) ']')
    (hbefore : ∀ other ∈ before, ReadsOperand expression (pieces other) (operand other))
    (hitem : SnagsOperand allowed expression (pieces item)) (bound : Nat) :
    Opens text ∧ Jammed allowed table limit (primary limit expression) 0 text bound := by
  obtain ⟨left, between, right, hleft, hbetween, hright, rfl⟩ := htext
  refine ⟨.of_cons (by decide) (by decide) _, ?_⟩
  have hjammed := @Parser.jammed_array table limit _ allowed expression _ _ _ hallowed hleft
    hbetween
    hright (after.map pieces) (before.map fun other => (pieces other, operand other))
    (List.forall_mem_map.2 hbefore) hitem bound
  simpa [Function.comp_def] using hjammed

theorem jammed_function {before after : List α} {item : α} (hname : isPlainName name = true)
    (htext : Listed text (name.toList ++ ['(']) ((before ++ item :: after).map pieces) ')')
    (hbefore : ∀ other ∈ before, ReadsOperand expression (pieces other) (operand other))
    (hitem : SnagsOperand allowed expression (pieces item)) (bound : Nat) :
    Opens text ∧ Jammed allowed table limit (primary limit expression) 0 text bound := by
  obtain ⟨left, between, right, hleft, hbetween, hright, rfl⟩ := htext
  refine ⟨((Parser.opens_of_isPlainName hname).append _).append _, ?_⟩
  have hjammed := @Parser.jammed_call table limit _ _ allowed expression _ _ _ hallowed hleft
    hbetween
    hright (after.map pieces) hname (before.map fun other => (pieces other, operand other))
    (List.forall_mem_map.2 hbefore) hitem bound
  simpa [Function.comp_def] using hjammed

theorem jammed_object {before after : List (String × α)} {entry : String × α}
    (htext : Listed text ['\x7b'] ((before ++ entry :: after).map fun entry =>
      Parser.entryText ((keyText entry.1).toList, pieces entry.2)) '\x7d')
    (hbefore : ∀ other ∈ before, ReadsOperand expression (pieces other.2) (operand other.2))
    (hentry : SnagsOperand allowed expression (pieces entry.2)) (bound : Nat) :
    Opens text ∧ Jammed allowed table limit (primary limit expression) 0 text bound := by
  obtain ⟨left, between, right, hleft, hbetween, hright, rfl⟩ := htext
  refine ⟨.of_cons (by decide) (by decide) _, ?_⟩
  have hjammed := @Parser.jammed_object table limit _ _ allowed expression _ _ _ hallowed hleft
    hbetween hright
    (after.map fun entry => Parser.entryText ((keyText entry.1).toList, pieces entry.2))
    (before.map fun entry =>
      (((keyText entry.1).toList, pieces entry.2), (entry.1, operand entry.2))) ?_ _
    (keyText_keyText entry.1) hentry bound
  · simpa [Function.comp_def] using hjammed
  · intro item hitem
    obtain ⟨other, hother, rfl⟩ := List.mem_map.1 hitem
    exact ⟨keyText_keyText other.1, hbefore other hother⟩

end

section

variable (hallowed : ∀ c, allowed (.charExpected c)) (hlegible : Legible table)
  (hlayout : BlankString layout.indentation)

include hallowed hlegible hlayout

theorem jamsBack_function (hobject : ¬ IsObject name (before ++ arg :: after))
    (hpath : pathKeys? name (before ++ arg :: after) = none)
    (hsymbol : symbolFor? table name (before ++ arg :: after) = none)
    (hname : isPlainName (functionName name) = true)
    (hbefore : ∀ other ∈ before, ReadsBack table layout limit other)
    (harg : JamsBack allowed table layout limit arg) :
    JamsBack allowed table layout limit (.call name (before ++ arg :: after)) := by
  refine jamsBack_of_tight (levelOf_of_symbolFor?_none hsymbol) ?_
  intro indent parenthesized budget hindent hlimit hbudget
  have hbudgets := (nesting_function_le_iff hobject hpath hsymbol).1 hbudget
  have hheights : ∀ other ∈ before ++ arg :: after, (reading table other).height ≤ limit := by
    intro other hother
    rw [reading_function hobject hpath hsymbol] at hlimit
    exact Nat.le_of_lt (Nat.lt_of_lt_of_le
      (Parser.height_lt_call (List.mem_map_of_mem hother)) hlimit)
  have hreads {inner : String} (hinner : BlankString inner) (other : Query)
      (hother : other ∈ before) :
      ReadsOperand (expression table limit budget) (queryText table layout inner false other).toList
        (reading table other) :=
    (hbefore other hother).readsOperand hlegible hinner
      (hheights other (List.mem_append_left _ hother))
      (hbudgets other (List.mem_append_left _ hother))
  have hsnags {inner : String} (hinner : BlankString inner) :
      SnagsOperand allowed (expression table limit budget)
        (queryText table layout inner false arg).toList :=
    harg.snagsOperand hlegible hinner (hheights arg (by simp)) (hbudgets arg (by simp))
  by_cases harray : name = "array"
  · subst harray
    have hlisted := listed_arrayText hlayout hindent
      ((before ++ arg :: after).map (queryText table layout (deeper layout indent) false))
    rw [List.map_map] at hlisted
    rw [queryText_array]
    have hinner := blankString_deeper hlayout hindent
    exact jammed_array _ (reading table) hallowed hlisted (hreads hinner) (hsnags hinner) _
  · obtain ⟨inner, hinner, hlisted⟩ := @listed_queryText_function table _ _ _
      parenthesized _ hlayout hindent hobject hpath harray hsymbol
    exact jammed_function _ (reading table) hallowed hname hlisted (hreads hinner) (hsnags hinner) _

theorem jamsBack_mapping {before after : List (String × Query)} {entry : String × Query}
    (hbefore : ∀ other ∈ before, ReadsBack table layout limit other.2)
    (hentry : JamsBack allowed table layout limit entry.2) :
    JamsBack allowed table layout limit (.mapping (before ++ entry :: after)) := by
  refine jamsBack_of_tight rfl ?_
  intro indent parenthesized budget hindent hlimit hbudget
  have hbudgets := nesting_mapping_le_iff.1 hbudget
  have hinner := blankString_deeper hlayout hindent
  have hheights : ∀ other ∈ before ++ entry :: after, (reading table other.2).height ≤ limit := by
    intro other hother
    rw [reading] at hlimit
    have hheight : (reading table other.2).height < _ := Parser.height_lt_object
      (List.mem_map_of_mem (f := fun entry : String × Query => (entry.1, reading table entry.2))
        hother)
    omega
  have hlisted := listed_objectText hlayout hindent
    ((before ++ entry :: after).map fun entry =>
      (entry.1, queryText table layout (deeper layout indent) false entry.2))
  rw [List.map_map] at hlisted
  rw [queryText]
  refine jammed_object
    (fun query => (queryText table layout (deeper layout indent) false query).toList)
    (reading table)
    hallowed hlisted (fun other hother => ?_) ?_ _
  · have hmem := List.mem_append_left (entry :: after) hother
    exact (hbefore other hother).readsOperand hlegible hinner (hheights other hmem)
      (hbudgets other hmem)
  · exact hentry.snagsOperand hlegible hinner (hheights entry (by simp)) (hbudgets entry (by simp))

end

/-! ## Infix calls -/

theorem jammed_operand {parent : String} (isFirst : Bool) {level : Nat}
    (h : JamsBack allowed table layout limit query)
    (hparent : table.precedence? parent = some level)
    (hindent : BlankString indent) (hlimit : (reading table query).height ≤ limit)
    (hbudget : nesting table query + (needsParentheses table parent isFirst query).toNat ≤ budget) :
    Opens (infixOperand table layout indent parent isFirst query).1 ∧
      ∃ level' ≤ level + isFirst.toNat,
        Jammed allowed table limit (primary limit (expression table limit budget)) level'
          (infixOperand table layout indent parent isFirst query).1
          (reading table query).height := by
  obtain ⟨hopens, hjammed⟩ := h hindent hlimit hbudget levelOf_pos_of_needsParentheses
  refine ⟨hopens, _, ?_, hjammed⟩
  cases hneeds : needsParentheses table parent isFirst query with
  | true => exact Nat.zero_le _
  | false => exact levelOf_le_of_not_needsParentheses hparent hneeds

theorem infixTail_append (blanks symbol : List Char) (left right : List (List Char)) :
    infixTail blanks symbol (left ++ right) =
      infixTail blanks symbol left ++ infixTail blanks symbol right := by
  simp [infixTail]

section

variable (hlegible : Legible table) (hlooser : Looser table) {level : Nat}
  (hlevel : table.precedence? name = some level)
  (hpath : pathKeys? name (first :: others) = none)
  (hsymbol : symbolFor? table name (first :: others) = some symbol)
  (hindent : BlankString indent) {blanks : List Char} (hblanks : Blank blanks) (hne : blanks ≠ [])
  (hlimit : (reading table (.call name (first :: others))).height ≤ limit)
  (hbudget : nesting table (.call name (first :: others)) ≤ budget)

include hlegible hlevel hpath hsymbol hindent hlimit hbudget

/-- The first operand stalls. -/
theorem jammed_of_first (hfirst : JamsBack allowed table layout limit first) (tail : List Char) :
    Opens (infixOperand table layout indent name true first).1 ∧
      Jammed allowed table limit (primary limit (expression table limit budget)) (level + 1)
        ((infixOperand table layout indent name true first).1 ++ tail)
        (reading table (.call name (first :: others))).height := by
  obtain ⟨group, hgroup, _⟩ := hlegible.exists_group (symbol?_of_symbolFor? hsymbol) hlevel
  obtain ⟨hopens, level', hle, hjammed⟩ := jammed_operand true hfirst hlevel
    hindent (height_first_le hpath hsymbol hlimit)
    ((nesting_infixCall_le_iff hpath hsymbol).1 hbudget).1
  have hsize : level < table.size := (List.getElem?_eq_some_iff.1 hgroup).1
  have hheight := height_first_le hpath hsymbol (Nat.le_refl _)
  exact ⟨hopens, ((hjammed.climb hle hsize).append tail).mono hheight⟩

include hlooser hblanks hne

/-- The operator may not follow the first operand. -/
theorem jammed_of_refusal (hfirst : ReadsBack table layout limit first)
    (hrefused : refuses table name (infixOperand table layout indent name true first).2 = true) :
    Jammed allowed table limit (primary limit (expression table limit budget)) (level + 1)
      ((infixOperand table layout indent name true first).1 ++
        infixTail blanks symbol.toList
          (others.map fun other => (infixOperand table layout indent name false other).1))
      (reading table (.call name (first :: others))).height := by
  have hspelled := (spelled_first hlevel hpath hsymbol hindent hlimit hbudget hfirst).2
  cases others with
  | nil => exact (ne_nil_of_symbolFor? hsymbol rfl).elim
  | cons other others =>
      have hjammed := @Parser.jammed_of_refused table limit level _ _ _ _ allowed hlegible hlooser
        (symbol?_of_symbolFor? hsymbol) hlevel hblanks hne _ hspelled hrefused
        (infixOperand table layout indent name false other).1
        (others.map fun other => (infixOperand table layout indent name false other).1)
      refine hjammed.mono ?_
      rw [infixOperand, height_grouped]
      exact height_first_le hpath hsymbol (Nat.le_refl _)

omit hlooser

/-- An operand after the first stalls. -/
theorem jammed_of_other (hfirst : ReadsBack table layout limit first)
    (haccepted : refuses table name (infixOperand table layout indent name true first).2 = false)
    (hothers : others = before ++ arg :: after)
    (hbefore : ∀ other ∈ before, ReadsBack table layout limit other)
    (harg : JamsBack allowed table layout limit arg) :
    Jammed allowed table limit (primary limit (expression table limit budget)) (level + 1)
      ((infixOperand table layout indent name true first).1 ++
        infixTail blanks symbol.toList
          (others.map fun other => (infixOperand table layout indent name false other).1))
      (reading table (.call name (first :: others))).height := by
  have hsymbol' := symbol?_of_symbolFor? hsymbol
  let operand (other : Query) := infixOperand table layout indent name false other
  let joined := joinAll table name (infixOperand table layout indent name true first).2
    ((before.map operand).map (·.2))
  have hvararg (hlength : 1 ≤ before.length) : table.isVararg name = true := by
    refine isVararg_of_symbolFor? hsymbol ?_
    simp only [hothers, List.length_append, List.length_cons]
    omega
  have hjoin : (Operand.join table name joined (operand arg).2).height ≤
      (reading table (.call name (first :: others))).height := by
    rw [@reading_infixOperands _ layout indent _ _ _ _ hpath hsymbol, hothers, List.map_append,
      List.map_append, List.map_cons, List.map_cons, joinAll, List.foldl_append, List.foldl_cons]
    exact Parser.height_le_joinAll _ _
  obtain ⟨hopens, hspelled⟩ := spelled_first hlevel hpath hsymbol hindent hlimit hbudget hfirst
  have hleft := Parser.spelled_infixCall hlegible hsymbol' hlevel hblanks hne
    (infixOperand table layout indent name true first) (before.map operand) hspelled ?_ haccepted
    (fun hlength => .inl (hvararg (by simp only [List.length_map] at hlength; omega)))
    (Nat.le_trans Parser.height_left_le_join (Nat.le_trans hjoin hlimit))
  · have hmem : arg ∈ others := by simp [hothers]
    have hright := jammed_operand false harg hlevel hindent
      (height_other_le hpath hsymbol hlimit hmem)
      (((nesting_infixCall_le_iff hpath hsymbol).1 hbudget).2 arg hmem)
    have haccepted' : refuses table name joined = false := by
      cases before with
      | nil => exact haccepted
      | cons other before => simp [refuses, hvararg (by simp)]
    have hjammed := @Parser.jammed_of_operand table limit level _ _ _ _ _ _ allowed hlegible
      hsymbol' hlevel hblanks hne (_, joined) _ ⟨_, Nat.le_refl _, hleft⟩ haccepted' hright.1
      hright.2 ?_ hlimit
      (after.map fun other => (operand other).1)
    · simpa [hothers, infixTail_append, Function.comp_def, operand] using hjammed
    · intro right hheight
      refine Nat.le_trans (Parser.height_join_mono ?_) hjoin
      simpa [operand, infixOperand] using hheight
  · refine List.forall_mem_map.2 fun other hother => ?_
    exact spelled_other hlevel hpath hsymbol hindent hlimit hbudget (by simp [hothers, hother])
      (hbefore other hother)

end

/-- An infix call stalls where its operands do, with or without parentheses around it. -/
theorem jamsBack_infixCall (hallowed : ∀ c, allowed (.charExpected c)) (hlegible : Legible table)
    (hlayout : BlankString layout.indentation) (hpath : pathKeys? name (first :: others) = none)
    (hsymbol : symbolFor? table name (first :: others) = some symbol)
    (h : ∀ {level budget : Nat} {inner : String} {blanks : List Char},
      table.precedence? name = some level → BlankString inner → Blank blanks → blanks ≠ [] →
      (reading table (.call name (first :: others))).height ≤ limit →
      nesting table (.call name (first :: others)) ≤ budget →
      Opens (infixOperand table layout inner name true first).1 ∧
        Jammed allowed table limit (primary limit (expression table limit budget)) (level + 1)
          ((infixOperand table layout inner name true first).1 ++
            infixTail blanks symbol.toList
              (others.map fun other => (infixOperand table layout inner name false other).1))
          (reading table (.call name (first :: others))).height) :
    JamsBack allowed table layout limit (.call name (first :: others)) := by
  obtain ⟨level, group, hlevel, hgroup, _⟩ := hlegible.group (symbol?_of_symbolFor? hsymbol)
  intro indent parenthesized budget hindent hlimit hbudget _
  obtain ⟨inner, blanks, hinner, hblanks, hne, htext⟩ :=
    exists_infixTail_queryText hlegible hlayout hindent hpath hsymbol parenthesized
  rw [htext, levelOf_infixCall hlevel hsymbol]
  cases parenthesized with
  | false =>
      obtain ⟨hopens, hjammed⟩ := h hlevel hinner hblanks hne hlimit hbudget
      simpa using ⟨hopens.append _, hjammed⟩
  | true =>
      obtain ⟨budget, rfl⟩ : ∃ budget', budget = budget' + 1 :=
        Nat.exists_eq_succ_of_ne_zero (by simp only [Bool.toNat_true] at hbudget; omega)
      obtain ⟨hopens, hjammed⟩ := h hlevel hinner hblanks hne hlimit (by simpa using hbudget)
      have hsize : level < table.size := (List.getElem?_eq_some_iff.1 hgroup).1
      have hsnags := hjammed.snagsOperand hsize (hopens.append _)
      exact ⟨.of_cons (by decide) (by decide) _, Parser.jammed_parenthesized hallowed hsnags _⟩

theorem readsBack_or_jamsBack_infixCall (hallowed : ∀ c, allowed (.charExpected c))
    (hlegible : Legible table) (hlooser : Looser table) (hlayout : BlankString layout.indentation)
    (hpath : pathKeys? name (first :: others) = none)
    (hsymbol : symbolFor? table name (first :: others) = some symbol)
    (hfirst : ReadsBack table layout limit first ∨ JamsBack allowed table layout limit first)
    (hothers : ∀ other ∈ others,
      ReadsBack table layout limit other ∨ JamsBack allowed table layout limit other) :
    ReadsBack table layout limit (.call name (first :: others)) ∨
      JamsBack allowed table layout limit (.call name (first :: others)) := by
  rcases hfirst with hfirst | hfirst
  · cases hrefuses : refuses table name
        (grouped (needsParentheses table name true first) (reading table first)) with
    | false =>
        rcases forall_or_exists_first hothers with
          hothers | ⟨before, arg, after, heq, hbefore, harg⟩
        · exact .inl (readsBack_infixCall hlegible hlayout hpath hsymbol hrefuses
            (List.forall_mem_cons.2 ⟨hfirst, hothers⟩))
        · refine .inr (jamsBack_infixCall hallowed hlegible hlayout hpath hsymbol ?_)
          intro level budget inner blanks hlevel hinner hblanks hne hlimit hbudget
          exact ⟨(spelled_first hlevel hpath hsymbol hinner hlimit hbudget hfirst).1,
            jammed_of_other hlegible hlevel hpath hsymbol hinner hblanks hne hlimit hbudget hfirst
              hrefuses heq hbefore harg⟩
    | true =>
        refine .inr (jamsBack_infixCall hallowed hlegible hlayout hpath hsymbol ?_)
        intro level budget inner blanks hlevel hinner hblanks hne hlimit hbudget
        exact ⟨(spelled_first hlevel hpath hsymbol hinner hlimit hbudget hfirst).1,
          jammed_of_refusal hlegible hlooser hlevel hpath hsymbol hinner hblanks hne hlimit hbudget
            hfirst hrefuses⟩
  · refine .inr (jamsBack_infixCall hallowed hlegible hlayout hpath hsymbol ?_)
    intro level budget inner blanks hlevel hinner _ _ hlimit hbudget
    exact jammed_of_first hlegible hlevel hpath hsymbol hinner hlimit hbudget hfirst _

/-! ## Whole queries -/

theorem jamsBack_object (hlegible : Legible table) {entries : List (String × Query)}
    (h : JamsBack allowed table layout limit (.mapping entries)) :
    JamsBack allowed table layout limit (.call "object" [.mapping entries]) := by
  have hsymbol := @symbolFor?_eq_none _ _ [.mapping entries]
    (hlegible.constructors (.inr (.inr (rfl : "object" = _))))
  refine jamsBack_of_tight (levelOf_of_symbolFor?_none hsymbol) fun hindent hlimit hbudget => ?_
  rw [reading] at hlimit ⊢
  rw [nesting] at hbudget
  rw [queryText]
  simpa [levelOf] using @h _ false _ hindent hlimit hbudget (by simp)

/-- The text of a query is read back, or reading it stalls for want of a character. -/
theorem readsBack_or_jamsBack (hallowed : ∀ c, allowed (.charExpected c)) (hlegible : Legible table)
    (hlooser : Looser table) (hlayout : BlankString layout.indentation) (h : Nameable table query) :
    ReadsBack table layout limit query ∨ JamsBack allowed table layout limit query := by
  induction h with
  | literal h => exact .inl (readsBack_of_writable hlegible hlayout (.literal h))
  | @mapping entries _ ih =>
      rcases forall_or_exists_first ih with hreads | ⟨before, entry, after, rfl, hbefore, hentry⟩
      · exact .inl (readsBack_mapping hlegible hlayout hreads)
      · exact .inr (jamsBack_mapping hallowed hlegible hlayout hbefore hentry)
  | @call name args _ hname ih =>
      by_cases hobject : IsObject name args
      · obtain ⟨rfl, entries, rfl⟩ := hobject
        exact (ih _ List.mem_cons_self).imp (readsBack_object hlegible) (jamsBack_object hlegible)
      cases hpath : pathKeys? name args with
      | some keys => exact .inl (readsBack_path hlegible hpath)
      | none =>
          cases hsymbol : symbolFor? table name args with
          | none =>
              have hplain := hname hsymbol
              rcases forall_or_exists_first ih with
                hreads | ⟨before, arg, after, rfl, hbefore, harg⟩
              · exact .inl (readsBack_function hlegible hlayout hobject hpath hsymbol hplain hreads)
              · exact .inr (jamsBack_function hallowed hlegible hlayout hobject hpath hsymbol hplain
                  hbefore harg)
          | some symbol =>
              obtain ⟨first, others, rfl⟩ := exists_cons_of_symbolFor? hsymbol
              obtain ⟨hfirst, hothers⟩ := List.forall_mem_cons.1 ih
              exact readsBack_or_jamsBack_infixCall hallowed hlegible hlooser hlayout hpath hsymbol
                hfirst hothers

theorem nameable_of_parsed (h : Parsed table query) (hwell : query.Everywhere Query.WellFormed) :
    Nameable table query := by
  induction h with
  | literal h =>
      cases hwell.here with
      | scalar hfinite => exact .literal (.scalar (scalarText_of_isFiniteScalar hfinite))
      | arr => exact h.elim
      | obj => exact h.elim
  | @call name args hname hargs ih =>
      refine .call (fun arg harg => ih arg harg (hwell.of_call arg harg)) fun hsymbol => ?_
      have hplain := hname hsymbol
      rwa [functionName, if_neg (functionName_of_isPlainName hplain)]
  | @object entries _ _ ih =>
      refine .call (List.forall_mem_singleton.2 (.mapping fun entry hentry => ?_))
        fun _ => by decide
      exact ih entry hentry (hwell.of_object entry hentry)

end Printer

/-- Where the limit allows its brackets and its calls, the text of a query is read as what the
reader makes of the query, or it is refused for want of a character or for a part left over. -/
theorem parse_print_or_fault (hlegible : Parser.Legible table) (hlooser : Parser.Looser table)
    (hlayout : Printer.BlankString layout.indentation) (hnameable : Printer.Nameable table query)
    (hnesting : Printer.nesting table query < limit)
    (hlimit : (Printer.reading table query).height ≤ limit) :
    parse table limit (print table layout query) = .ok (Printer.reading table query).query ∨
      ∃ fault, parse table limit (print table layout query) = .error fault ∧
        ((∃ c, fault.cause = .charExpected c) ∨ ∃ part, fault.cause = .unexpectedPart part) := by
  have hblank : Printer.BlankString "" := Grammar.blank_nil
  rcases @Printer.readsBack_or_jamsBack _ _ limit _ (fun cause => ∃ c, cause = .charExpected c)
    (fun c => ⟨c, rfl⟩) hlegible hlooser hlayout hnameable with hreads | hjams
  · exact .inl (Parser.parse_of_readsOperand (hreads.readsOperand hlegible hblank hlimit hnesting))
  · have hsnags := (hjams.snagsOperand hlegible hblank hlimit hnesting).snagsItem.snags []
    rw [List.append_nil] at hsnags
    exact .inr (Parser.parse_of_snags hsnags)

/-- A text that is parsed within a limit is formatted within it: the new text is never refused for
its depth, unless the limit is used up and an operator that takes any number of arguments is left
with one. -/
theorem parse_print_ne_tooDeep {text : String} {limit : Nat} {query : Query} {layout : LineLayout}
    (hparse : parse .builtin limit text = .ok query)
    (hlayout : Grammar.Blank layout.indentation.toList)
    (hroom : query.height < limit ∨ Printer.NoLone .builtin query) :
    ∀ fault, parse .builtin limit (print .builtin layout query) = .error fault →
      ∀ depth, fault.cause ≠ .tooDeep depth := by
  have hlegible := Parser.separable_builtin.legible
  have hparsed := Printer.parsed_of_parse hlegible hparse
  have hnameable := Printer.nameable_of_parsed (Printer.parsed_finite hparsed)
    (Printer.wellFormed_finite hparsed)
  obtain ⟨hnesting, hheight⟩ := Printer.within_of_parse hparse hroom
  intro fault hfault depth
  rw [← (@Printer.writtenAlike_finite .builtin query).print_eq layout] at hfault
  rcases parse_print_or_fault hlegible Parser.looser_builtin hlayout hnameable hnesting hheight with
    hparse' | ⟨fault', hfault', hcause⟩
  · rw [hparse'] at hfault
    cases hfault
  · obtain rfl := Except.error.inj (hfault'.symm.trans hfault)
    rcases hcause with ⟨c, hcause⟩ | ⟨part, hcause⟩ <;> simp [hcause]

/-- The text of `eq(eq(true), null)` is refused, because no `==` may follow `eq(true)`, but not for
its depth. -/
theorem parse_print_ne_tooDeep_eq :
    let query := Query.call "eq" [.call "eq" [.literal (.bool true)], .literal .null]
    parse .builtin 3 "eq(eq(true), null)" = .ok query ∧
      Grammar.Blank ({} : LineLayout).indentation.toList ∧
        (query.height < 3 ∨ Printer.NoLone .builtin query) ∧
          ∀ fault, parse .builtin 3 (print .builtin {} query) = .error fault →
            ∀ depth, fault.cause ≠ .tooDeep depth := by
  intro query
  have hparse : parse .builtin 3 "eq(eq(true), null)" = .ok query :=
    parse_nestedCall (show isPlainName "eq" = true by decide) 0
  have hblank : Grammar.Blank ({} : LineLayout).indentation.toList := by
    simp [Grammar.Blank, Scan.isBlank]
  have hroom : query.height < 3 ∨ Printer.NoLone .builtin query :=
    .inl (by simp [query, Query.height])
  exact ⟨hparse, hblank, hroom, parse_print_ne_tooDeep hparse hblank hroom⟩

/-- Where formatting exceeds the limit: `and() and true` is read without an expression inside
another, as one `and` of one argument, and that call is written `and(true)`. -/
theorem exists_print_tooDeep :
    let query := Query.call "and" [.literal (.bool true)]
    parse .builtin 1 "and() and true" = .ok query ∧ print .builtin {} query = "and(true)" ∧
      ∃ fault, parse .builtin 1 "and(true)" = .error fault ∧ fault.cause = .tooDeep 1 := by
  intro query
  have hlegible := Parser.separable_builtin.legible
  have hempty := @Parser.spelled_call .builtin 1 _ _ _ (Parser.expression .builtin 1 0)
    Grammar.blank_nil Printer.blank_space Grammar.blank_nil "and" (by decide) []
    (List.forall_mem_nil _) (by decide)
  have hothers : ∀ other ∈ [("true".toList, Parser.Operand.constant (.bool true))],
      Parser.Opens other.1 ∧ ∃ level' ≤ 5, Parser.Spelled .builtin 1
        (Parser.primary 1 (Parser.expression .builtin 1 0)) level' other.1 other.2 :=
    List.forall_mem_singleton.2 ⟨Parser.opens_of_literalText (.bool true), 0, by decide,
      Parser.spelled_literal (.bool true)⟩
  have hchain := Parser.spelled_infixCall hlegible
    (show OperatorTable.builtin.symbol? "and" = _ from rfl)
    (show OperatorTable.builtin.precedence? "and" = some 5 by decide) Printer.blank_space (by simp)
    ("and()".toList, .call "and" []) _ ⟨0, by decide, hempty⟩ hothers (by decide) (by decide)
    (by decide)
  have hopens : Parser.Opens "and()".toList := .of_cons (by decide) (by decide) _
  have hargument : Parser.Fails (· = .tooDeep 1)
      (Parser.arguments (Parser.expression .builtin 1 0)) "true)".toList :=
    Parser.fails_arguments_of_fails (.of_cons (by decide) (by decide) _) ⟨_, rfl, _, rfl⟩
  have hfails : Parser.Fails (· = .tooDeep 1) (Parser.expression .builtin 1 1)
      "and(true)".toList := by
    apply Parser.fails_expression
    exact @Parser.fails_call 1 "and" "true)".toList _ _ (by decide) hargument
  refine ⟨?_, by decide +kernel, Parser.parse_of_fails hfails⟩
  exact @Parser.parse_of_readsOperand .builtin 1 _ "and() and true"
    (hchain.readsOperand hlegible (hopens.append _))

end PipeQuery
