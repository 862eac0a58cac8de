/-
The values that flow through a query: JSON values whose integers have 64 bits and whose floats may
be infinite or no number.
-/
import PipeQuery.Json

namespace PipeQuery

/-- A value.  Integers and floats are one type to the language and two to the library. -/
inductive Value where
  | null
  | bool (b : Bool)
  | int (n : Int64)
  | float (x : Float)
  | str (s : String)
  | arr (items : List Value)
  | obj (members : List (String × Value))
  deriving Inhabited

/-- The nearest double to an integer of 64 bits. -/
def integerFloat (n : Int64) : Float :=
  Float.ofInt n.toInt

namespace Value

/-- The number of a numeral: a 64-bit integer where one is written, a float otherwise. -/
def ofNumeral (numeral : Numeral) : Value :=
  if numeral.isIntegral && fitsInt64 numeral.toInt then int (.ofInt numeral.toInt)
  else float numeral.toFloat

/-- The value of a document; integers beyond 64 bits with sign become floats. -/
def ofJson : Json → Value
  | .null => null
  | .bool b => bool b
  | .int n => if fitsInt64 n then int (.ofInt n) else float (Float.ofInt n)
  | .float x => float x
  | .str s => str s
  | .arr items => arr (items.map ofJson)
  | .obj members => obj (members.map fun member => (member.1, ofJson member.2))
termination_by json => sizeOf json
decreasing_by
  · have := List.sizeOf_lt_of_mem ‹_›
    simp only [Json.arr.sizeOf_spec]
    omega
  · have := Entries.sizeOf_snd_lt ‹_›
    simp only [Json.obj.sizeOf_spec]
    omega

/-- The document of a value; a float that is not finite has none and becomes null. -/
def toJson : Value → Json
  | null => .null
  | bool b => .bool b
  | int n => .int n.toInt
  | float x => if x.isFinite then .float x else .null
  | str s => .str s
  | arr items => .arr (items.map toJson)
  | obj members => .obj (members.map fun member => (member.1, toJson member.2))
termination_by value => sizeOf value
decreasing_by
  · have := List.sizeOf_lt_of_mem ‹_›
    simp only [arr.sizeOf_spec]
    omega
  · have := Entries.sizeOf_snd_lt ‹_›
    simp only [obj.sizeOf_spec]
    omega

/-- The text of a result, in one line or indented. -/
def render (indented : Bool) (value : Value) : String :=
  value.toJson.write ⟨.result, indented⟩

/-- Only `false`, `null` and the zeros are false. -/
def isTrue : Value → Bool
  | null => false
  | bool b => b
  | int n => n != 0
  | float x => x != 0
  | _ => true

def isNumber : Value → Bool
  | int _ | float _ => true
  | _ => false

/-- A number as a double. -/
def asFloat? : Value → Option Float
  | int n => some (integerFloat n)
  | float x => some x
  | _ => none

/-- A whole number as an integer; beyond 64 bits it is the nearest that has them. -/
def asInt? : Value → Option Int64
  | int n => some n
  | float x =>
    let b := Binary.ofFloat x
    if b.isWhole then b.truncate?.map Int64.ofIntClamp else none
  | _ => none

/-- A value as text: strings as they are, containers as their one-line JSON. -/
def asText : Value → String
  | str s => s
  | int n => integerText n.toInt
  | float x => floatText x
  | bool b => if b then "true" else "false"
  | null => "null"
  | container => container.render false

def typeName : Value → String
  | null => "null"
  | bool _ => "boolean"
  | int _ | float _ => "number"
  | str _ => "string"
  | arr _ => "array"
  | obj _ => "object"

mutual

/-- Equality of the language: numbers by value, an integer and a float through the nearest double;
arrays item by item; objects as maps, whatever the order of their keys. -/
def equal : Value → Value → Bool
  | null, null => true
  | bool a, bool b => a == b
  | int a, int b => a == b
  | float a, float b => a == b
  | int a, float b => integerFloat a == b
  | float a, int b => a == integerFloat b
  | str a, str b => a == b
  | arr as, arr bs => equalItems as bs
  | obj as, obj bs => as.length == bs.length && equalMembers as bs
  | _, _ => false

def equalItems : List Value → List Value → Bool
  | [], [] => true
  | a :: as, b :: bs => equal a b && equalItems as bs
  | _, _ => false

/-- Every key of the first has an equal value in the second. -/
def equalMembers : List (String × Value) → List (String × Value) → Bool
  | [], _ => true
  | (key, a) :: as, bs =>
    (match bs.lookup key with
      | some b => equal a b
      | none => false) && equalMembers as bs

end

instance : BEq Value := ⟨equal⟩

end Value

end PipeQuery
