/-
JSON documents: the tree, and its text in one line or indented.
-/
import PipeQuery.Entries
import PipeQuery.Json.Quoted
import PipeQuery.Number.FloatText

namespace PipeQuery

/-- A JSON document.  Integers and floats are kept apart; members keep their order. -/
inductive Json where
  | null
  | bool (b : Bool)
  | int (n : Int)
  | float (x : Float)
  | str (s : String)
  | arr (items : List Json)
  | obj (members : List (String × Json))
  deriving Inhabited

namespace Json

/-- How a document is written: what strings escape, and whether lines are broken. -/
structure Layout where
  escapes : EscapeStyle
  indented : Bool

namespace Layout

/-- A new line at a depth, two spaces a level. -/
def newline (depth : Nat) : String :=
  String.ofList ('\n' :: List.replicate (2 * depth) ' ')

/-- Items between brackets, one a line when indented; nothing stands between empty brackets. -/
def bracketed (layout : Layout) (depth : Nat) (opening closing : String)
    (items : List String) : String :=
  if items.isEmpty then opening ++ closing
  else if layout.indented then
    opening ++ newline (depth + 1) ++ ("," ++ newline (depth + 1)).intercalate items ++
      newline depth ++ closing
  else opening ++ ",".intercalate items ++ closing

/-- What stands between a key and its value. -/
def colon (layout : Layout) : String :=
  if layout.indented then ": " else ":"

end Layout

/-- The text of a document at a depth of indentation. -/
def writeAt (layout : Layout) (depth : Nat) : Json → String
  | null => "null"
  | bool b => if b then "true" else "false"
  | int n => integerText n
  | float x => if x.isFinite then floatText x else "null"
  | str s => Quoted.literal layout.escapes s
  | arr items => layout.bracketed depth "[" "]" (items.map (writeAt layout (depth + 1)))
  | obj members =>
    layout.bracketed depth "\x7b" "\x7d" (members.map fun member =>
      Quoted.literal layout.escapes member.1 ++ layout.colon ++
        writeAt layout (depth + 1) member.2)
termination_by json => sizeOf json
decreasing_by
  · have := List.sizeOf_lt_of_mem ‹_›
    simp only [arr.sizeOf_spec]
    omega
  · have := Entries.sizeOf_snd_lt ‹_›
    simp only [obj.sizeOf_spec]
    omega

/-- The text of a document. -/
def write (layout : Layout) (json : Json) : String :=
  json.writeAt layout 0

/-- The one-line text that programs exchange. -/
def text (json : Json) : String :=
  json.write ⟨.interchange, false⟩

/-- The indented text of the same form. -/
def indentedText (json : Json) : String :=
  json.write ⟨.interchange, true⟩

end Json

end PipeQuery
