/-
Layouts of one query.

Two layouts with blank indentation write a query with the same tokens, whatever breaks each of them
puts where: brackets and commas may have blanks beside them, and an operator has some before it.  So
the texts are read as the same query, or neither of them is read.
-/
import PipeQuery.Proofs.RoundTrip
import PipeQuery.Proofs.SameTokens

namespace PipeQuery

namespace Parser

open Grammar
open Scan (skipBlanks)

variable {α : Type} {table : OperatorTable} {phase : Phase} {closing : Char}
  {piece piece' text text' opened rest rest' : List Char}

/-! ## Pieces -/

/-- Two pieces of the same tokens, wherever they stand. -/
def SamePiece (table : OperatorTable) (phase : Phase) (piece piece' : List Char) : Prop :=
  ∀ ⦃opened rest rest' : List Char⦄, Delimits rest → Delimits rest' →
    SameTokens table .next opened (skipBlanks rest) (skipBlanks rest') →
      SameTokens table phase opened (piece ++ rest) (piece' ++ rest')

theorem samePiece_literal {value : Value} (h : LiteralText piece value)
    (h' : LiteralText piece' value) : SamePiece table .operand piece piece' :=
  fun _ _ _ hends hends' hrest => .literal h h' hends hends' hrest

theorem samePiece_path {keys : List String} (h : PathText piece keys) :
    SamePiece table .operand ('.' :: piece) ('.' :: piece) :=
  fun _ _ _ hends hends' hrest => .path h h hends hends' hrest

theorem samePiece_entry {key : List Char} {name : String} (hkey : KeyText key name)
    (hlegible : Legible table) (h : SamePiece table .operand piece piece') :
    SamePiece table .entry (entryText (key, piece)) (entryText (key, piece')) := by
  intro opened rest rest' hends hends' hrest
  have hvalue := h hends hends' hrest
  have hspace : Blank [' '] := Printer.blank_space
  have hentry (piece rest : List Char) :
      entryText (key, piece) ++ rest = key ++ ':' :: ([' '] ++ (piece ++ rest)) := by
    simp [entryText]
  rw [hentry, hentry]
  exact .entry hkey hkey (hvalue.blanks_append hlegible hspace hspace)

/-! ## Lists -/

section Lists

variable {pieces pieces' : α → List Char} {items : List α}
  {opening before between after before' between' after' : List Char} (hlegible : Legible table)
  (hclosing : isCloser closing = true)
  (hitems : ∀ item ∈ items, SamePiece table (.between closing) (pieces item) (pieces' item))
include hlegible hclosing hitems

theorem sameTokens_closed (hbetween : Blank between) (hafter : Blank after)
    (hbetween' : Blank between') (hafter' : Blank after')
    (hrest : SameTokens table .next opened (skipBlanks rest) (skipBlanks rest')) :
    SameTokens table .next (closing :: opened)
      (skipBlanks (closed between after (items.map pieces) closing rest))
      (skipBlanks (closed between' after' (items.map pieces') closing rest')) := by
  induction items with
  | nil =>
      have hclose : SameTokens table .next (closing :: opened) (closing :: rest)
          (closing :: rest') := .close hclosing hrest
      exact hclose.blanks_append hlegible hafter hafter'
  | cons item items ih =>
      have hfirst := hitems item List.mem_cons_self
        (closes_closed hafter hclosing (items.map pieces) rest).delimits
        (closes_closed hafter' hclosing (items.map pieces') rest').delimits
        (ih fun item hitem => hitems item (List.mem_cons_of_mem _ hitem))
      rw [List.map_cons, List.map_cons, closed_cons, closed_cons,
        skipBlanks_of_ends (ends_cons (by decide) _), skipBlanks_of_ends (ends_cons (by decide) _)]
      exact .comma (hfirst.blanks_append hlegible hbetween hbetween')

theorem sameTokens_enclosed (hbefore : Blank before) (hbetween : Blank between)
    (hafter : Blank after) (hbefore' : Blank before') (hbetween' : Blank between')
    (hafter' : Blank after')
    (hrest : SameTokens table .next opened (skipBlanks rest) (skipBlanks rest')) :
    SameTokens table .items (closing :: opened)
      (skipBlanks (enclosed before between after (items.map pieces) closing rest))
      (skipBlanks (enclosed before' between' after' (items.map pieces') closing rest')) := by
  cases items with
  | nil =>
      rw [List.map_nil, List.map_nil, skipBlanks_enclosed_nil hbefore hafter hclosing,
        skipBlanks_enclosed_nil hbefore' hafter' hclosing]
      exact .empty hclosing hrest
  | cons item items =>
      have hfirst := hitems item List.mem_cons_self
        (closes_closed hafter hclosing (items.map pieces) rest).delimits
        (closes_closed hafter' hclosing (items.map pieces') rest').delimits
        (sameTokens_closed hlegible hclosing
          (fun item hitem => hitems item (List.mem_cons_of_mem _ hitem))
          hbetween hafter hbetween' hafter' hrest)
      rw [List.map_cons, List.map_cons, enclosed_cons, enclosed_cons]
      exact .first (hfirst.blanks_append hlegible hbefore hbefore')

/-- Lists of the same items, whatever blanks each of them has. -/
theorem samePiece_listed
    (hopening : ∀ {opened text text' : List Char},
      SameTokens table .items (closing :: opened) (skipBlanks text) (skipBlanks text') →
        SameTokens table .operand opened (opening ++ text) (opening ++ text'))
    (htext : Printer.Listed text opening (items.map pieces) closing)
    (htext' : Printer.Listed text' opening (items.map pieces') closing) :
    SamePiece table .operand text text' := by
  obtain ⟨before, between, after, hbefore, hbetween, hafter, rfl⟩ := htext
  obtain ⟨before', between', after', hbefore', hbetween', hafter', rfl⟩ := htext'
  intro opened rest rest' _ _ hrest
  rw [List.append_assoc, List.append_assoc, enclosed_append, enclosed_append]
  exact hopening (sameTokens_enclosed hlegible hclosing hitems hbefore hbetween hafter hbefore'
    hbetween' hafter' hrest)

end Lists

/-! ## Operators -/

section Operators

variable {pieces pieces' : α → List Char} {items : List α} {blanks blanks' : List Char}
  {name symbol : String} (hlegible : Legible table) (hsymbol : table.symbol? name = some symbol)
include hlegible hsymbol

theorem delimits_infixTail (hblanks : Blank blanks) (hne : blanks ≠ [])
    (pieces : List (List Char)) (hends : Delimits rest) :
    Delimits (infixTail blanks symbol.toList pieces ++ rest) := by
  cases pieces with
  | nil => exact hends
  | cons piece pieces =>
      obtain ⟨c, more, hlist, hblank, hc⟩ := hlegible.opens hsymbol
      rw [infixTail_cons, hlist]
      exact delimits_append_cons hblanks hne hblank hc _

variable (hblanks : Blank blanks) (hne : blanks ≠ []) (hblanks' : Blank blanks')
  (hne' : blanks' ≠ [])
  (hitems : ∀ item ∈ items, SamePiece table .operand (pieces item) (pieces' item))
include hblanks hne hblanks' hne' hitems

theorem sameTokens_infixTail (hends : Delimits rest) (hends' : Delimits rest')
    (hrest : SameTokens table .next opened (skipBlanks rest) (skipBlanks rest')) :
    SameTokens table .next opened
      (skipBlanks (infixTail blanks symbol.toList (items.map pieces) ++ rest))
      (skipBlanks (infixTail blanks' symbol.toList (items.map pieces') ++ rest')) := by
  induction items with
  | nil => exact hrest
  | cons item items ih =>
      have hoperand := hitems item List.mem_cons_self
        (delimits_infixTail hlegible hsymbol hblanks hne (items.map pieces) hends)
        (delimits_infixTail hlegible hsymbol hblanks' hne' (items.map pieces') hends')
        (ih fun item hitem => hitems item (List.mem_cons_of_mem _ hitem))
      have hoperator :=
        SameTokens.operator hsymbol (hoperand.blanks_append hlegible blank_nil blank_nil)
      rw [List.map_cons, List.map_cons, infixTail_cons, infixTail_cons]
      exact hoperator.blanks_append hlegible hblanks hblanks'

/-- Operands with the same operator between them, whatever blanks stand before it. -/
theorem samePiece_infix (hfirst : SamePiece table .operand piece piece') :
    SamePiece table .operand (piece ++ infixTail blanks symbol.toList (items.map pieces))
      (piece' ++ infixTail blanks' symbol.toList (items.map pieces')) := by
  intro opened rest rest' hends hends' hrest
  have htail := sameTokens_infixTail hlegible hsymbol hblanks hne hblanks' hne' hitems hends hends'
    hrest
  rw [List.append_assoc, List.append_assoc]
  exact hfirst (delimits_infixTail hlegible hsymbol hblanks hne _ hends)
    (delimits_infixTail hlegible hsymbol hblanks' hne' _ hends') htail

end Operators

theorem samePiece_parenthesis (hlegible : Legible table)
    (h : SamePiece table .operand piece piece') :
    SamePiece table .operand ('(' :: piece ++ [')']) ('(' :: piece' ++ [')']) := by
  intro opened rest rest' _ _ hrest
  have hcloses (rest : List Char) : Closes (')' :: rest) :=
    @closes_append_cons [] ')' blank_nil (by decide) rest
  have hskip (rest : List Char) : skipBlanks (')' :: rest) = ')' :: rest :=
    skipBlanks_of_ends (ends_cons (by decide) rest)
  have hclose : SameTokens table .next (')' :: opened) (skipBlanks (')' :: rest))
      (skipBlanks (')' :: rest')) := by
    rw [hskip, hskip]
    exact .close (by decide) hrest
  have hinner := h (hcloses rest).delimits (hcloses rest').delimits hclose
  have hparenthesis := SameTokens.parenthesis (hinner.blanks_append hlegible blank_nil blank_nil)
  simpa using hparenthesis

end Parser

/-- The call has a plain name, or it is `not in`. -/
def Query.NamedPlainly : Query → Prop
  | call name _ => isPlainName name = true ∨ name = "not in"
  | _ => True

namespace Printer

open Grammar
open PipeQuery.Parser (Legible Looser SamePiece samePiece_listed samePiece_entry samePiece_literal
  samePiece_path)

variable {table : OperatorTable} {layout layout' : LineLayout} {indent indent' : String}

/-! ## Literals -/

/-- The text of a literal that is no container is a literal in every layout. -/
theorem exists_literalText {value : Value} (harr : ∀ items, value ≠ .arr items)
    (hobj : ∀ members, value ≠ .obj members) :
    ∃ value', ∀ layout indent, LiteralText (literalText layout indent value).toList value' := by
  cases value with
  | arr items => exact absurd rfl (harr items)
  | obj members => exact absurd rfl (hobj members)
  | float x =>
      cases hfinite : x.isFinite with
      | true =>
          have hscalar : ScalarText (.float x) := exact_of_isFinite hfinite
          exact ⟨_, literalText_of_scalarText hscalar⟩
      | false =>
          refine ⟨.null, fun layout indent => ?_⟩
          have htext : literalText layout indent (.float x) = "null" := by
            simp [literalText, Value.render, Value.toJson, Json.write, Json.writeAt, hfinite]
          rw [htext]
          exact .null
  | null | bool | int | str =>
      exact ⟨_, literalText_of_scalarText trivial⟩

variable (hlegible : Legible table) (hlayout : BlankString layout.indentation)
  (hlayout' : BlankString layout'.indentation)
include hlegible hlayout hlayout'

theorem samePiece_literalText (value : Value) :
    ∀ {indent indent' : String}, BlankString indent → BlankString indent' →
      SamePiece table .operand (literalText layout indent value).toList
        (literalText layout' indent' value).toList := by
  induction value using literalReading.induct with
  | case1 items ih =>
      intro indent indent' hindent hindent'
      have hlisted := listed_arrayText hlayout hindent
        (items.map (literalText layout (deeper layout indent)))
      have hlisted' := listed_arrayText hlayout' hindent'
        (items.map (literalText layout' (deeper layout' indent')))
      rw [List.map_map] at hlisted hlisted'
      rw [literalText, literalText]
      refine samePiece_listed hlegible (by decide) (fun item hitem => ?_) (.array ·) hlisted
        hlisted'
      exact ih item hitem (blankString_deeper hlayout hindent)
        (blankString_deeper hlayout' hindent')
  | case2 members ih =>
      intro indent indent' hindent hindent'
      have hlisted := listed_objectText hlayout hindent
        (members.map fun member => (member.1, literalText layout (deeper layout indent) member.2))
      have hlisted' := listed_objectText hlayout' hindent'
        (members.map fun member =>
          (member.1, literalText layout' (deeper layout' indent') member.2))
      rw [List.map_map] at hlisted hlisted'
      rw [literalText, literalText]
      refine samePiece_listed hlegible (by decide) (fun member hmember => ?_) (.object ·) hlisted
        hlisted'
      exact samePiece_entry (keyText_keyText member.1) hlegible (ih member hmember
        (blankString_deeper hlayout hindent) (blankString_deeper hlayout' hindent'))
  | case3 value harr hobj =>
      intro indent indent' _ _
      obtain ⟨value', hvalue'⟩ := exists_literalText harr hobj
      exact samePiece_literal (hvalue' layout indent) (hvalue' layout' indent')

/-! ## Queries -/

omit hlegible hlayout hlayout' in
theorem isPlainName_functionName {name : String} {args : List Query}
    (h : (Query.call name args).NamedPlainly) : isPlainName (functionName name) = true := by
  rcases h with hname | rfl
  · rwa [functionName, if_neg (functionName_of_isPlainName hname)]
  · decide

section

variable {name symbol : String} {args : List Query} (hindent : BlankString indent)
  (hindent' : BlankString indent')
include hindent hindent'

theorem samePiece_function (hobject : ¬ IsObject name args) (hpath : pathKeys? name args = none)
    (hsymbol : symbolFor? table name args = none) (hname : isPlainName (functionName name) = true)
    (parenthesized : Bool)
    (hargs : ∀ arg ∈ args, ∀ {inner inner' : String}, BlankString inner → BlankString inner' →
      SamePiece table .operand (queryText table layout inner false arg).toList
        (queryText table layout' inner' false arg).toList) :
    SamePiece table .operand (queryText table layout indent parenthesized (.call name args)).toList
      (queryText table layout' indent' parenthesized (.call name args)).toList := by
  by_cases harray : name = "array"
  · subst harray
    have hlisted := listed_arrayText hlayout hindent
      (args.map (queryText table layout (deeper layout indent) false))
    have hlisted' := listed_arrayText hlayout' hindent'
      (args.map (queryText table layout' (deeper layout' indent') false))
    rw [List.map_map] at hlisted hlisted'
    rw [queryText_array, queryText_array]
    refine samePiece_listed hlegible (by decide) (fun arg harg => ?_) (.array ·) hlisted hlisted'
    exact hargs arg harg (blankString_deeper hlayout hindent) (blankString_deeper hlayout' hindent')
  · obtain ⟨inner, hinner, hlisted⟩ := @listed_queryText_function table _ _ _
      parenthesized _ hlayout hindent hobject hpath harray hsymbol
    obtain ⟨inner', hinner', hlisted'⟩ := @listed_queryText_function table _ _ _
      parenthesized _ hlayout' hindent' hobject hpath harray hsymbol
    refine samePiece_listed hlegible (show Parser.isCloser ')' = true by decide)
      (fun arg harg => hargs arg harg hinner hinner') (fun {opened text text'} h => ?_) hlisted
      hlisted'
    rw [List.append_assoc, List.append_assoc]
    exact .call hname h

theorem samePiece_infixCall {first : Query} {others : List Query}
    (hpath : pathKeys? name (first :: others) = none)
    (hsymbol : symbolFor? table name (first :: others) = some symbol) (parenthesized : Bool)
    (hargs : ∀ arg ∈ first :: others, ∀ {inner inner' : String} (parenthesized : Bool),
      BlankString inner → BlankString inner' →
        SamePiece table .operand (queryText table layout inner parenthesized arg).toList
          (queryText table layout' inner' parenthesized arg).toList) :
    SamePiece table .operand
      (queryText table layout indent parenthesized (.call name (first :: others))).toList
      (queryText table layout' indent' parenthesized (.call name (first :: others))).toList := by
  obtain ⟨inner, blanks, hinner, hblanks, hne, htext⟩ :=
    exists_infixTail_queryText hlegible hlayout hindent hpath hsymbol parenthesized
  obtain ⟨inner', blanks', hinner', hblanks', hne', htext'⟩ :=
    exists_infixTail_queryText hlegible hlayout' hindent' hpath hsymbol parenthesized
  have hoperand (isFirst : Bool) {arg : Query} (harg : arg ∈ first :: others) :
      SamePiece table .operand (infixOperand table layout inner name isFirst arg).1
        (infixOperand table layout' inner' name isFirst arg).1 :=
    hargs arg harg _ hinner hinner'
  have hinfix := Parser.samePiece_infix hlegible (symbol?_of_symbolFor? hsymbol) hblanks hne
    hblanks' hne' (fun other hother => hoperand false (List.mem_cons_of_mem first hother))
    (hoperand true List.mem_cons_self)
  rw [htext, htext']
  cases parenthesized with
  | false => simpa using hinfix
  | true => exact Parser.samePiece_parenthesis hlegible hinfix

end

/-- The texts of a query in two layouts have the same tokens. -/
theorem samePiece_queryText {query : Query} (h : query.Everywhere Query.NamedPlainly) :
    ∀ {indent indent' : String} (parenthesized : Bool), BlankString indent → BlankString indent' →
      SamePiece table .operand (queryText table layout indent parenthesized query).toList
        (queryText table layout' indent' parenthesized query).toList := by
  induction h with
  | @literal value =>
      intro indent indent' _ hindent hindent'
      rw [queryText, queryText]
      exact samePiece_literalText hlegible hlayout hlayout' value hindent hindent'
  | @mapping entries _ _ ih =>
      intro indent indent' _ hindent hindent'
      have hlisted := listed_objectText hlayout hindent (entries.map fun entry =>
        (entry.1, queryText table layout (deeper layout indent) false entry.2))
      have hlisted' := listed_objectText hlayout' hindent' (entries.map fun entry =>
        (entry.1, queryText table layout' (deeper layout' indent') false entry.2))
      rw [List.map_map] at hlisted hlisted'
      rw [queryText, queryText]
      refine samePiece_listed hlegible (by decide) (fun entry hentry => ?_) (.object ·) hlisted
        hlisted'
      exact samePiece_entry (keyText_keyText entry.1) hlegible (ih entry hentry false
        (blankString_deeper hlayout hindent) (blankString_deeper hlayout' hindent'))
  | @call name args h _ ih =>
      intro indent indent' parenthesized hindent hindent'
      by_cases hobject : IsObject name args
      · obtain ⟨rfl, entries, rfl⟩ := hobject
        have hmapping (layout : LineLayout) (indent : String) :
            queryText table layout indent parenthesized (.call "object" [.mapping entries]) =
              queryText table layout indent false (.mapping entries) := by
          simp only [queryText]
        rw [hmapping, hmapping]
        exact ih _ List.mem_cons_self false hindent hindent'
      cases hpath : pathKeys? name args with
      | some keys =>
          obtain ⟨piece, htext, hpiece⟩ := pathText_join (ne_nil_of_pathKeys? hpath)
          rw [queryText_path hobject hpath, queryText_path hobject hpath, htext]
          exact samePiece_path hpiece
      | none =>
          cases hsymbol : symbolFor? table name args with
          | none =>
              exact samePiece_function hlegible hlayout hlayout' hindent hindent' hobject hpath
                hsymbol (isPlainName_functionName h) parenthesized
                (fun arg harg => ih arg harg false)
          | some symbol =>
              obtain ⟨first, others, rfl⟩ := exists_cons_of_symbolFor? hsymbol
              exact samePiece_infixCall hlegible hlayout hlayout' hindent hindent' hpath hsymbol
                parenthesized ih

end Printer

/-- Layouts with blank indentation write texts of the same tokens. -/
theorem sameTokens_print {table : OperatorTable} {layout layout' : LineLayout} {query : Query}
    (hlegible : Parser.Legible table) (hlayout : Printer.BlankString layout.indentation)
    (hlayout' : Printer.BlankString layout'.indentation)
    (hnames : query.Everywhere Query.NamedPlainly) :
    Parser.SameTokens table .operand [] (Scan.skipBlanks (print table layout query).toList)
      (Scan.skipBlanks (print table layout' query).toList) := by
  have hblank : Printer.BlankString "" := Grammar.blank_nil
  have hpiece := Printer.samePiece_queryText hlegible hlayout hlayout' hnames false hblank hblank
  have hsame := hpiece Parser.closes_nil.delimits Parser.closes_nil.delimits .done
  rw [List.append_nil, List.append_nil] at hsame
  exact hsame.blanks_append hlegible Grammar.blank_nil Grammar.blank_nil

/-- A layout with blank indentation decides neither whether the text of a query is read nor as which
query. -/
theorem parse_print_layouts {layout layout' : LineLayout} {limit : Nat} {query : Query}
    (hlayout : Grammar.Blank layout.indentation.toList)
    (hlayout' : Grammar.Blank layout'.indentation.toList)
    (hnames : query.Everywhere Query.NamedPlainly) :
    (∃ result, parse .builtin limit (print .builtin layout query) = .ok result ∧
      parse .builtin limit (print .builtin layout' query) = .ok result) ∨
    ∃ fault fault', parse .builtin limit (print .builtin layout query) = .error fault ∧
      parse .builtin limit (print .builtin layout' query) = .error fault' := by
  have hlegible := Parser.separable_builtin.legible
  have hsame := sameTokens_print hlegible hlayout hlayout' hnames
  cases hparse : parse .builtin limit (print .builtin layout query) with
  | ok result =>
      have hparse' := Parser.parse_of_sameTokens hlegible Parser.looser_builtin hsame hparse
      exact .inl ⟨result, rfl, hparse'⟩
  | error fault =>
      cases hparse' : parse .builtin limit (print .builtin layout' query) with
      | error fault' => exact .inr ⟨fault, fault', rfl, rfl⟩
      | ok result =>
          have hback :=
            Parser.parse_of_sameTokens hlegible Parser.looser_builtin hsame.symm hparse'
          cases hparse.symm.trans hback

/-- `.a not in [true, null]` in one line, and in one line for each item. -/
theorem parse_print_layouts_notIn :
    let query := Query.call "not in" [.get ["a"], .array [.literal (.bool true), .literal .null]]
    let narrow : LineLayout := { indentation := "\t", maxLength := 0 }
    print .builtin {} query = ".a not in [true, null]" ∧
      print .builtin narrow query = ".a\n\tnot in [\n\t\ttrue,\n\t\tnull\n\t]" ∧
      Grammar.Blank ({} : LineLayout).indentation.toList ∧
      Grammar.Blank narrow.indentation.toList ∧ query.Everywhere Query.NamedPlainly ∧
      ((∃ result, parse .builtin 3 (print .builtin {} query) = .ok result ∧
        parse .builtin 3 (print .builtin narrow query) = .ok result) ∨
      ∃ fault fault', parse .builtin 3 (print .builtin {} query) = .error fault ∧
        parse .builtin 3 (print .builtin narrow query) = .error fault') := by
  intro query narrow
  have hblank : Grammar.Blank ({} : LineLayout).indentation.toList := by
    simp [Grammar.Blank, Scan.isBlank]
  have hblank' : Grammar.Blank narrow.indentation.toList := by
    simp [narrow, Grammar.Blank, Scan.isBlank]
  have hpath : (Query.get ["a"]).Everywhere Query.NamedPlainly :=
    .call (.inl (by decide)) (List.forall_mem_singleton.2 (.literal trivial))
  have harray : (Query.array [.literal (.bool true), .literal .null]).Everywhere
      Query.NamedPlainly :=
    .call (.inl (by decide))
      (List.forall_mem_cons.2 ⟨.literal trivial, List.forall_mem_singleton.2 (.literal trivial)⟩)
  have hnames : query.Everywhere Query.NamedPlainly :=
    .call (.inr rfl) (List.forall_mem_cons.2 ⟨hpath, List.forall_mem_singleton.2 harray⟩)
  exact ⟨by decide +kernel, by decide +kernel, hblank, hblank', hnames,
    parse_print_layouts hblank hblank' hnames⟩

end PipeQuery
