/-
Query trees, and the JSON form in which programs exchange them.

A call is a list that starts with the name of its function, a mapping is an object, and every other
document stands for itself.  Containers inside a literal are written as the calls that build them,
so data is never mistaken for a call.
-/
import PipeQuery.Value

namespace PipeQuery

/-- A query.  A mapping means something only as the one argument of `object`. -/
inductive Query where
  | literal (value : Value)
  | call (name : String) (args : List Query)
  | mapping (entries : List (String × Query))
  deriving Inhabited

/-- Why a document is no query. -/
inductive QueryFault where
  | emptyCall
  | nameExpected (got : Json)

namespace QueryFault

def message : QueryFault → String
  | emptyCall => "an empty list is not a function call"
  | nameExpected got => "a function call must start with a function name, got " ++ got.text

end QueryFault

namespace Query

/-- The property path through these keys. -/
def get (keys : List String) : Query :=
  call "get" (keys.map fun key => literal (.str key))

/-- The constructor of an object. -/
def object (entries : Entries Query) : Query :=
  call "object" [mapping entries]

/-- The constructor of an array. -/
def array (items : List Query) : Query :=
  call "array" items

def callName? : Query → Option String
  | call name _ => some name
  | _ => none

/-- Calls on the longest path down from the root. -/
def height : Query → Nat
  | literal _ => 0
  | call _ args => 1 + (args.map height).foldl max 0
  | mapping entries => (entries.map fun entry => height entry.2).foldl max 0
decreasing_by
  · have := List.sizeOf_lt_of_mem ‹_›
    simp only [call.sizeOf_spec]
    omega
  · have := Entries.sizeOf_snd_lt ‹_›
    simp only [mapping.sizeOf_spec]
    omega

mutual

/-- Equality of queries: literals by the equality of the language, mappings as maps. -/
def equal : Query → Query → Bool
  | literal a, literal b => a == b
  | call f as, call g bs => f == g && equalArgs as bs
  | mapping as, mapping bs => as.length == bs.length && equalEntries as bs
  | _, _ => false

def equalArgs : List Query → List Query → Bool
  | [], [] => true
  | a :: as, b :: bs => equal a b && equalArgs as bs
  | _, _ => false

def equalEntries : List (String × Query) → List (String × Query) → Bool
  | [], _ => true
  | (key, a) :: as, bs =>
    (match bs.lookup key with
      | some b => equal a b
      | none => false) && equalEntries as bs

end

instance : BEq Query := ⟨equal⟩

/-- The JSON form of a literal. -/
def literalToJson : Value → Json
  | .arr items => .arr (.str "array" :: items.map literalToJson)
  | .obj members =>
    .arr [.str "object", .obj (members.map fun member => (member.1, literalToJson member.2))]
  | scalar => scalar.toJson
termination_by value => sizeOf value
decreasing_by
  · have := List.sizeOf_lt_of_mem ‹_›
    simp only [Value.arr.sizeOf_spec]
    omega
  · have := Entries.sizeOf_snd_lt ‹_›
    simp only [Value.obj.sizeOf_spec]
    omega

/-- The JSON form of a query. -/
def toJson : Query → Json
  | literal value => literalToJson value
  | call name args => .arr (.str name :: args.map toJson)
  | mapping entries => .obj (entries.map fun entry => (entry.1, toJson entry.2))
termination_by query => sizeOf query
decreasing_by
  · have := List.sizeOf_lt_of_mem ‹_›
    simp only [call.sizeOf_spec]
    omega
  · have := Entries.sizeOf_snd_lt ‹_›
    simp only [mapping.sizeOf_spec]
    omega

/-- The query of a document. -/
def ofJson : Json → Except QueryFault Query
  | .arr [] => .error .emptyCall
  | .arr (.str name :: args) => do return call name (← args.mapM ofJson)
  | .arr (head :: _) => .error (.nameExpected head)
  | .obj members => do
    return mapping (← members.mapM fun member => do return (member.1, ← ofJson member.2))
  | scalar => .ok (literal (.ofJson scalar))
termination_by json => sizeOf json
decreasing_by
  · have := List.sizeOf_lt_of_mem ‹_›
    simp only [Json.arr.sizeOf_spec, List.cons.sizeOf_spec]
    omega
  · have := Entries.sizeOf_snd_lt ‹_›
    simp only [Json.obj.sizeOf_spec]
    omega

end Query

end PipeQuery
