/-
Paths into a document: keys of objects and indices of arrays, walked from the outside in.
-/
import PipeQuery.Fault
import PipeQuery.Scan

namespace PipeQuery

/-- One step of a path. -/
inductive Segment where
  /-- A key; on an array, its index if the key is a whole number. -/
  | field (name : String)
  /-- An index, counted from the end if negative; on an object, its decimal key. -/
  | index (n : Int64)
  deriving DecidableEq

namespace Segment

/-- The key a segment names on an object. -/
def key : Segment → String
  | field name => name
  | index n => integerText n.toInt

/-- The index a segment names on an array. -/
def index? : Segment → Option Int
  | index n => some n.toInt
  | field name =>
    let n := digitsValue name.toList
    if isIndexText name && fitsInt64 n then some n else none

/-- The entry a segment names in one container. -/
def lookup? (segment : Segment) : Value → Option Value
  | .obj members => members.lookup segment.key
  | .arr items =>
    match segment.index? with
    | none => none
    | some n =>
      if 0 ≤ n then items[n.toNat]?
      else if n.natAbs ≤ items.length then items[items.length - n.natAbs]?
      else none
  | _ => none

end Segment

/-- Segments, walked from the first to the last. -/
abbrev Path := List Segment

namespace Path

/-- The segment of a literal string or integer. -/
def segment (function : String) : Query → Except ReferenceFault Segment
  | .literal (.str name) => .ok (.field name)
  | .literal (.int n) => .ok (.index n)
  | other => .error (.invalidArgument function (.segmentExpected other))

/-- The path of the arguments of a `get` call. -/
def ofArgs (function : String) (args : List Query) : Except ReferenceFault Path :=
  args.mapM (segment function)

/-- The path of a `get` call that is itself an argument of `function`. -/
def ofQuery (function : String) : Query → Except ReferenceFault Path
  | .call "get" args => ofArgs function args
  | other => .error (.invalidArgument function (.pathExpected other))

def lastKey? (path : Path) : Option String :=
  path.getLast?.map Segment.key

/-- The value at the path, if every step of it is there. -/
def lookup? (path : Path) (value : Value) : Option Value :=
  path.foldlM (fun current segment => segment.lookup? current) value

/-- The value at the path, or null. -/
def get (path : Path) (value : Value) : Value :=
  (path.lookup? value).getD .null

/-- Whether every step is there; a null at the end counts. -/
def isPresent (path : Path) (value : Value) : Bool :=
  (path.lookup? value).isSome

end Path

end PipeQuery
