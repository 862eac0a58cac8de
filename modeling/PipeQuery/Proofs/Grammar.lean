/-
The grammar of query texts, for any table of operators.

`Expression table level bare text query` says that `text` is a way to write `query` as an operand
of the first `level` groups of the table, and whether it does so without parentheses of its own.
The text starts and ends with a token; blanks stand between tokens only where a rule says so.
-/
import PipeQuery.Parser
import PipeQuery.Proofs.Lexeme
import PipeQuery.Proofs.StringLiteral

namespace PipeQuery

namespace Grammar

open Scan (Whole NumeralText keywordText)

/-- Blanks, or nothing. -/
def Blank (text : List Char) : Prop :=
  ∀ c ∈ text, Scan.isBlank c = true

theorem blank_nil : Blank [] := by
  intro c hc
  cases hc

theorem Blank.append {before after : List Char} (hbefore : Blank before) (hafter : Blank after) :
    Blank (before ++ after) := by
  intro c hc
  rcases List.mem_append.1 hc with hc | hc
  · exact hbefore c hc
  · exact hafter c hc

/-- A literal as written, and the value it denotes. -/
inductive LiteralText : List Char → Value → Prop
  | string {text : List Char} {s : String} (h : StringLiteral text s) : LiteralText text (.str s)
  | number {text : List Char} {numeral : Numeral} (h : NumeralText numeral text) :
      LiteralText text (.ofNumeral numeral)
  | bool (b : Bool) : LiteralText (keywordText (some b)) (.bool b)
  | null : LiteralText (keywordText none) .null

/-- A key of a path or an object as written. -/
inductive KeyText : List Char → String → Prop
  | quoted {text : List Char} {key : String} (h : StringLiteral text key) : KeyText text key
  | name {key : String} (h : isPlainName key = true) : KeyText key.toList key
  | whole {digits : List Char} (h : Whole digits) : KeyText digits (String.ofList digits)

/-- The keys of a path with points between them. -/
inductive PathText : List Char → List String → Prop
  | last {text : List Char} {key : String} (h : KeyText text key) : PathText text [key]
  | step {text rest : List Char} {key : String} {keys : List String} (h : KeyText text key)
      (hrest : PathText rest keys) : PathText (text ++ '.' :: rest) (key :: keys)

/-- What an infix use of `name` makes of its operands.  A bare call of the same name on the left
gives its arguments to the one flat call of a vararg operator, is an operand of an operator that is
left-associative, and does not occur otherwise. -/
inductive Joins (table : OperatorTable) (name : String) (bare : Bool) : Query → Query → Query → Prop
  | nested {left right : Query}
      (h : bare = true → left.callName? = some name →
        table.isVararg name = false ∧ table.isLeftAssociative name = true) :
      Joins table name bare left right (.call name [left, right])
  | flat {args : List Query} {right : Query} (hbare : bare = true)
      (hvararg : table.isVararg name = true) :
      Joins table name bare (.call name args) right (.call name (args ++ [right]))

mutual

/-- Ways to write a query. -/
inductive Expression (table : OperatorTable) : Nat → Bool → List Char → Query → Prop
  | literal {text : List Char} {value : Value} (h : LiteralText text value) :
      Expression table 0 true text (.literal value)
  | path {text : List Char} {keys : List String} (h : PathText text keys) :
      Expression table 0 true ('.' :: text) (.get keys)
  | call {name : String} {blanks text : List Char} {args : List Query}
      (hname : isPlainName name = true) (hblanks : Blank blanks)
      (hargs : Operands table text args) :
      Expression table 0 true (name.toList ++ blanks ++ '(' :: text ++ [')']) (.call name args)
  | object {text : List Char} {entries : List (String × Query)} (h : Members table text entries) :
      Expression table 0 true ('{' :: text ++ ['}']) (.object (.ofList entries))
  | array {text : List Char} {items : List Query} (h : Operands table text items) :
      Expression table 0 true ('[' :: text ++ [']']) (.array items)
  | parentheses {before text after : List Char} {bare : Bool} {query : Query}
      (hbefore : Blank before) (h : Expression table table.size bare text query)
      (hafter : Blank after) :
      Expression table 0 false ('(' :: before ++ text ++ after ++ [')']) query
  | looser {level level' : Nat} {bare : Bool} {text : List Char} {query : Query}
      (h : Expression table level bare text query) (hlevel : level ≤ level') :
      Expression table level' bare text query
  | infixed {level : Nat} {group : OperatorGroup} {name symbol : String} {bare bare' : Bool}
      {left before after right : List Char} {leftQuery rightQuery query : Query}
      (hgroup : table.groups[level]? = some group) (hsymbol : (name, symbol) ∈ group)
      (hleft : Expression table (level + 1) bare left leftQuery) (hbefore : Blank before)
      (hafter : Blank after) (hright : Expression table level bare' right rightQuery)
      (hjoin : Joins table name bare leftQuery rightQuery query) :
      Expression table (level + 1) true (left ++ before ++ symbol.toList ++ after ++ right) query

/-- Operands with commas between them, or none. -/
inductive Operands (table : OperatorTable) : List Char → List Query → Prop
  | none {blanks : List Char} (h : Blank blanks) : Operands table blanks []
  | last {before text after : List Char} {bare : Bool} {query : Query} (hbefore : Blank before)
      (h : Expression table table.size bare text query) (hafter : Blank after) :
      Operands table (before ++ text ++ after) [query]
  | cons {before text after rest : List Char} {bare : Bool} {query next : Query}
      {queries : List Query} (hbefore : Blank before)
      (h : Expression table table.size bare text query) (hafter : Blank after)
      (hrest : Operands table rest (next :: queries)) :
      Operands table (before ++ text ++ after ++ ',' :: rest) (query :: next :: queries)

/-- Keys and values with commas between them, or none. -/
inductive Members (table : OperatorTable) : List Char → List (String × Query) → Prop
  | none {blanks : List Char} (h : Blank blanks) : Members table blanks []
  | last {before keyText colon colon' text after : List Char} {key : String} {bare : Bool}
      {query : Query} (hbefore : Blank before) (hkey : KeyText keyText key) (hcolon : Blank colon)
      (hcolon' : Blank colon') (h : Expression table table.size bare text query)
      (hafter : Blank after) :
      Members table (before ++ keyText ++ colon ++ ':' :: colon' ++ text ++ after) [(key, query)]
  | cons {before keyText colon colon' text after rest : List Char} {key : String} {bare : Bool}
      {query : Query} {next : String × Query} {entries : List (String × Query)}
      (hbefore : Blank before) (hkey : KeyText keyText key) (hcolon : Blank colon)
      (hcolon' : Blank colon') (h : Expression table table.size bare text query)
      (hafter : Blank after) (hrest : Members table rest (next :: entries)) :
      Members table (before ++ keyText ++ colon ++ ':' :: colon' ++ text ++ after ++ ',' :: rest)
        ((key, query) :: next :: entries)

end

section

variable {table : OperatorTable} {blanks piece : List Char}

theorem Operands.blanks_append {queries : List Query} (hblanks : Blank blanks)
    (h : Operands table piece queries) : Operands table (blanks ++ piece) queries := by
  cases h with
  | none h => exact .none (hblanks.append h)
  | last hbefore h hafter => simpa using Operands.last (hblanks.append hbefore) h hafter
  | cons hbefore h hafter hrest =>
      simpa using Operands.cons (hblanks.append hbefore) h hafter hrest

theorem Members.blanks_append {entries : List (String × Query)} (hblanks : Blank blanks)
    (h : Members table piece entries) : Members table (blanks ++ piece) entries := by
  cases h with
  | none h => exact .none (hblanks.append h)
  | last hbefore hkey hcolon hcolon' h hafter =>
      simpa using Members.last (hblanks.append hbefore) hkey hcolon hcolon' h hafter
  | cons hbefore hkey hcolon hcolon' h hafter hrest =>
      simpa using Members.cons (hblanks.append hbefore) hkey hcolon hcolon' h hafter hrest

end

/-- A whole text: an expression with blanks around it, and nothing else. -/
def Text (table : OperatorTable) (text : List Char) (query : Query) : Prop :=
  ∃ before body after bare, text = before ++ body ++ after ∧ Blank before ∧ Blank after ∧
    Expression table table.size bare body query

end Grammar

end PipeQuery
