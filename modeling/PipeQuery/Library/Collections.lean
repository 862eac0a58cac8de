/-
Arrays and objects, item by item.
-/
import PipeQuery.Function
import PipeQuery.Value.Order

namespace PipeQuery

namespace Collections

/-- The items for which a program gives something true. -/
def filter (predicate : Program) (items : List Value) : Except RuntimeFault Value := do
  let kept ← items.filterM fun item => do return (← predicate item).isTrue
  return .arr kept

def map (program : Program) (items : List Value) : Except RuntimeFault Value := do
  return .arr (← items.mapM program)

/-- An object from the results of a program on key and value of each member. -/
def mapMembers (program : Program) (members : Entries Value) : Except RuntimeFault Value := do
  let results ← members.mapM fun (key, value) => do
    match ← program (.obj [("key", .str key), ("value", value)]) with
    | .obj result =>
      return (((result.lookup "key").map Value.asText).getD "null",
        (result.lookup "value").getD .null)
    | _ => throw .objectExpected
  return .obj (Entries.ofList results)

def mapKeys (program : Program) (members : Entries Value) : Except RuntimeFault Value := do
  let results ← members.mapM fun (key, value) => do
    return ((← program (.str key)).asText, value)
  return .obj (Entries.ofList results)

def mapValues (program : Program) (members : Entries Value) : Except RuntimeFault Value := do
  return .obj (← members.mapM fun (key, value) => do return (key, ← program value))

/-- Items by their keys, equal keys staying in order in both directions. -/
def sortBy (descending : Bool) (keyed : List (Value × Value)) : List Value :=
  let inOrder (a b : Value × Value) : Bool :=
    if descending then (b.1.sortCompare a.1).isLE else (a.1.sortCompare b.1).isLE
  (keyed.mergeSort inOrder).map (·.2)

/-- Whether `sort` goes down, as its second argument says. -/
def descending? : Value → Except ReferenceFault Bool
  | .str "asc" => .ok false
  | .str "desc" => .ok true
  | other => .error (.invalidArgument "sort" (.directionExpected other))

def sort (getter : Option Program) (descending : Bool) (items : List Value) :
    Except RuntimeFault Value := do
  let keys ← match getter with
    | some getter => items.mapM getter
    | none => pure items
  return .arr (sortBy descending (keys.zip items))

/-- Items with the texts of their keys. -/
def keyed (getter : Program) (items : List Value) : Except RuntimeFault (List (String × Value)) :=
  items.mapM fun item => do return ((← getter item).asText, item)

/-- The items of each key, keys in order of first appearance. -/
def groups (pairs : List (String × Value)) : Entries (List Value) :=
  let add (groups : Entries (List Value)) (pair : String × Value) : Entries (List Value) :=
    Entries.update pair.1 (fun old => old.getD [] ++ [pair.2]) groups
  pairs.foldl add []

/-- The first item of each key. -/
def firsts (pairs : List (String × Value)) : Entries Value :=
  pairs.foldl (fun firsts (key, item) => Entries.update key (fun old => old.getD item) firsts) []

/-- One level of arrays inside the array is opened. -/
def flatten (items : List Value) : List Value :=
  items.flatMap fun
    | .arr inner => inner
    | item => [item]

/-- The items that equal none before them. -/
def distinct (items : List Value) : List Value :=
  items.foldl (fun kept item => if kept.any (· == item) then kept else kept ++ [item]) []

/-- The items of an array, the members of an object, the characters of a string. -/
def size : Value → Value
  | .arr items => .int (.ofInt items.length)
  | .obj members => .int (.ofInt members.length)
  | .str s => .int (.ofInt s.length)
  | _ => .null

/-- The count of `limit`; below zero it is none. -/
def count (arg : Query) : Except ReferenceFault Nat := do
  match (← literalArgument "limit" arg).asInt? with
  | some n => return n.toInt.toNat
  | none => .error (.invalidArgument "limit" .integerExpected)

end Collections

namespace Library

open Collections

/-- Functions on the items of arrays and the members of objects. -/
def collections : Registry :=
  [ ("filter", .overQuery "filter" fun program => onArray (filter program)),
    ("map", .overQuery "map" fun program => onArray (map program)),
    ("mapObject", .overQuery "mapObject" fun program => onObject (mapMembers program)),
    ("mapKeys", .overQuery "mapKeys" fun program => onObject (mapKeys program)),
    ("mapValues", .overQuery "mapValues" fun program => onObject (mapValues program)),
    ("sort", .higherOrder fun args compile => do
      (Arity.between 0 2).check "sort" args.length
      let getter ← args.head?.mapM compile
      let descending ← match args[1]? with
        | some arg => literalArgument "sort" arg >>= descending?
        | none => pure false
      return onArray (sort getter descending)),
    ("reverse", .nullary "reverse" (onArray fun items => .ok (.arr items.reverse))),
    ("groupBy", .overQuery "groupBy" fun getter => onArray fun items => do
      return .obj ((groups (← keyed getter items)).map fun (key, members) => (key, .arr members))),
    ("keyBy", .overQuery "keyBy" fun getter => onArray fun items => do
      return .obj (firsts (← keyed getter items))),
    ("flatten", .nullary "flatten" (onArray fun items => .ok (.arr (flatten items)))),
    ("uniq", .nullary "uniq" (onArray fun items => .ok (.arr (distinct items)))),
    ("uniqBy", .overQuery "uniqBy" fun getter => onArray fun items => do
      return .arr (firsts (← keyed getter items)).values),
    ("limit", .higherOrder fun args _ =>
      match args with
      | [arg] => do
        let count ← count arg
        return onArray fun items => .ok (.arr (items.take count))
      | _ => .error (.invalidArgument "limit" (.wrongCount (.exactly 1) args.length))),
    ("size", .nullary "size" fun data => .ok (size data)),
    ("keys", .nullary "keys" (onObject fun members =>
      .ok (.arr (members.keys.map .str)))),
    ("values", .nullary "values" (onObject fun members => .ok (.arr members.values))) ]

end Library

end PipeQuery
