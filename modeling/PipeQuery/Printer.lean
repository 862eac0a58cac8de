/-
Writing queries as text.

The text is canonical: operators stand between their operands with only the parentheses a reader
needs, paths are written with points, and a list is broken over several lines only where its
one-line form would be too long.
-/
import PipeQuery.Operators
import PipeQuery.Query
import PipeQuery.Scan

namespace PipeQuery

/-- How lines are broken. -/
structure LineLayout where
  /-- One level of indentation. -/
  indentation : String := "  "
  /-- The longest text of a list that stays in one line, in characters. -/
  maxLength : Nat := 40
  deriving DecidableEq, Repr

namespace Printer

/-- What stands before, between and after items. -/
structure Brackets where
  opening : String
  separator : String
  closing : String

def Brackets.around (brackets : Brackets) (items : List String) : String :=
  brackets.opening ++ brackets.separator.intercalate items ++ brackets.closing

/-- One line if it is short enough, else the broken form. -/
def fit (layout : LineLayout) (items : List String) (line broken : Brackets) : String :=
  if items.isEmpty || (line.around items).length ≤ layout.maxLength then line.around items
  else broken.around items

/-- One level further in. -/
def deeper (layout : LineLayout) (indent : String) : String :=
  indent ++ layout.indentation

/-- A list whose broken form has one item a line. -/
def listed (layout : LineLayout) (indent : String) (line : Brackets) (opening closing : String)
    (items : List String) : String :=
  let inner := deeper layout indent
  fit layout items line ⟨opening ++ "\n" ++ inner, ",\n" ++ inner, "\n" ++ indent ++ closing⟩

/-- An array of items already written. -/
def arrayText (layout : LineLayout) (indent : String) (items : List String) : String :=
  listed layout indent ⟨"[", ", ", "]"⟩ "[" "]" items

/-- A key as it stands in paths and objects. -/
def keyText (key : String) : String :=
  if isPlainName key || isIndexText key then key else quote key

/-- An object of values already written. -/
def objectText (layout : LineLayout) (indent : String) (entries : List (String × String)) :
    String :=
  if entries.isEmpty then "\x7b\x7d"
  else
    listed layout indent ⟨"\x7b ", ", ", " \x7d"⟩ "\x7b" "\x7d"
      (entries.map fun (key, value) => keyText key ++ ": " ++ value)

/-- A literal; containers take the form that builds them. -/
def literalText (layout : LineLayout) (indent : String) : Value → String
  | .arr items => arrayText layout indent (items.map (literalText layout (deeper layout indent)))
  | .obj members =>
    objectText layout indent (members.map fun member =>
      (member.1, literalText layout (deeper layout indent) member.2))
  | scalar => scalar.render false
termination_by value => sizeOf value
decreasing_by
  · have := List.sizeOf_lt_of_mem ‹_›
    simp only [Value.arr.sizeOf_spec]
    omega
  · have := Entries.sizeOf_snd_lt ‹_›
    simp only [Value.obj.sizeOf_spec]
    omega

/-- A segment with its point: a text, or a whole number that is not negative. -/
def segmentText? : Query → Option String
  | .literal (.str key) => some ("." ++ keyText key)
  | .literal (.int n) => if 0 ≤ n.toInt then some ("." ++ keyText (integerText n.toInt)) else none
  | _ => none

/-- The path of a `get` call, where it has one. -/
def pathText? (name : String) (args : List Query) : Option String :=
  if name = "get" ∧ args ≠ [] then (args.mapM segmentText?).map String.join else none

/-- The symbol to write a call with: it has two arguments, or more for an operator that takes
more. -/
def symbolFor? (table : OperatorTable) (name : String) (args : List Query) : Option String :=
  if args.length = 2 ∨ (2 < args.length ∧ table.isVararg name) then table.symbol? name else none

/-- Whether an operand of `parent` needs parentheses: it is looser, or as tight and not first, or
the same operator where a chain would be read otherwise. -/
def needsParentheses (table : OperatorTable) (parent : String) (isFirst : Bool) : Query → Bool
  | .call name args =>
    (symbolFor? table name args).isSome &&
      match table.precedence? parent, table.precedence? name with
      | some outer, some inner =>
        decide (outer < inner) || (inner == outer && !isFirst) ||
          (name == parent && (!table.isLeftAssociative parent || table.isVararg parent))
      | _, _ => false
  | _ => false

/-- The name of a call in function form. -/
def functionName (name : String) : String :=
  if name = "not in" then "notIn" else name

/-- A call in function form over arguments already written. -/
def functionText (layout : LineLayout) (indent name : String) (args : List String) : String :=
  listed layout indent ⟨name ++ "(", ", ", ")"⟩ (name ++ "(") ")" args

/-- Operands already written, with their operator between them. -/
def infixText (layout : LineLayout) (indent symbol : String) (parenthesized : Bool)
    (operands : List String) : String :=
  let opening := if parenthesized then "(" else ""
  let closing := if parenthesized then ")" else ""
  fit layout operands ⟨opening, " " ++ symbol ++ " ", closing⟩
    ⟨opening, "\n" ++ deeper layout indent ++ symbol ++ " ", closing⟩

/-- The text of a query at an indentation; `parenthesized` puts an infix call in parentheses. -/
def queryText (table : OperatorTable) (layout : LineLayout) (indent : String)
    (parenthesized : Bool) : Query → String
  | .literal value => literalText layout indent value
  | .mapping entries =>
    objectText layout indent (entries.map fun entry =>
      (entry.1, queryText table layout (deeper layout indent) false entry.2))
  | .call "object" [.mapping entries] =>
    queryText table layout indent false (.mapping entries)
  | .call name [] =>
    if name = "array" then arrayText layout indent []
    else functionText layout indent (functionName name) []
  | .call name [arg] =>
    match pathText? name [arg] with
    | some path => path
    | none =>
      if name = "array" then
        arrayText layout indent [queryText table layout (deeper layout indent) false arg]
      else functionName name ++ "(" ++ queryText table layout indent false arg ++ ")"
  | .call name (first :: others) =>
    let inner := deeper layout indent
    match pathText? name (first :: others) with
    | some path => path
    | none =>
      if name = "array" then
        arrayText layout indent
          (queryText table layout inner false first ::
            others.map (queryText table layout inner false))
      else
        match symbolFor? table name (first :: others) with
        | some symbol =>
          infixText layout indent symbol parenthesized
            (queryText table layout inner (needsParentheses table name true first) first ::
              others.map fun arg =>
                queryText table layout inner (needsParentheses table name false arg) arg)
        | none =>
          functionText layout indent (functionName name)
            (queryText table layout inner false first ::
              others.map (queryText table layout inner false))
termination_by query => sizeOf query
decreasing_by
  · have := Entries.sizeOf_snd_lt ‹_›
    simp only [Query.mapping.sizeOf_spec]
    omega
  all_goals decreasing_tactic

end Printer

/-- The text of a query. -/
def print (table : OperatorTable) (layout : LineLayout) (query : Query) : String :=
  Printer.queryText table layout "" false query

/-- The text of a query with the operators every query has. -/
def Query.text (query : Query) : String :=
  print .builtin {} query

end PipeQuery
