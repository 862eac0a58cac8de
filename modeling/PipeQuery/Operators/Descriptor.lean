/-
Operators as documents: an object with `name`, `op`, one of `at`, `before` and `after`, and two
optional flags, or a list of the same in that order.
-/
import PipeQuery.Json
import PipeQuery.Operators

namespace PipeQuery

/-- A descriptor before its placement is settled. -/
structure Descriptor where
  name : String
  symbol : String
  joining : Option String
  before : Option String
  after : Option String
  vararg : Bool
  leftAssociative : Bool
  deriving DecidableEq, Repr

namespace Descriptor

private def text? : Json → Option String
  | .str s => some s
  | _ => none

/-- A text, or null for none. -/
private def anchor? : Json → Option (Option String)
  | .str s => some (some s)
  | .null => some none
  | _ => none

private def flag? : Json → Option Bool
  | .bool b => some b
  | _ => none

/-- Everything that may be a key. -/
def keys : List String :=
  ["name", "op", "symbol", "at", "before", "after", "vararg", "left_associative",
    "leftAssociative"]

/-- The member under one of two spellings, of which only one may occur. -/
private def either? (members : Entries Json) (first second : String) : Option (Option Json) :=
  match members.lookup first, members.lookup second with
  | some _, some _ => none
  | some json, none | none, some json => some (some json)
  | none, none => some none

def ofMembers? (members : Entries Json) : Option Descriptor := do
  guard ((Entries.keys members).all keys.contains)
  let flagOf (json : Option Json) : Option Bool := (json.map flag?).getD (some false)
  let anchorOf (key : String) : Option (Option String) :=
    ((members.lookup key).map anchor?).getD (some none)
  return {
    name := ← (← members.lookup "name") |> text?
    symbol := ← (← (← either? members "op" "symbol")) |> text?
    joining := ← anchorOf "at"
    before := ← anchorOf "before"
    after := ← anchorOf "after"
    vararg := ← flagOf (members.lookup "vararg")
    leftAssociative := ← flagOf (← either? members "left_associative" "leftAssociative") }

/-- The two flags at the end may be left out. -/
def ofItems? : List Json → Option Descriptor
  | name :: symbol :: joining :: before :: after :: flags => do
    let (vararg, leftAssociative) ← match flags with
      | [] => some (false, false)
      | [vararg] => do some (← flag? vararg, false)
      | [vararg, leftAssociative] => do some (← flag? vararg, ← flag? leftAssociative)
      | _ => none
    return {
      name := ← text? name
      symbol := ← text? symbol
      joining := ← anchor? joining
      before := ← anchor? before
      after := ← anchor? after
      vararg, leftAssociative }
  | _ => none

def ofJson? : Json → Option Descriptor
  | .obj members => ofMembers? members
  | .arr items => ofItems? items
  | _ => none

/-- The operator described, if exactly one anchor is given. -/
def toOperator (descriptor : Descriptor) : Except OperatorFault Operator :=
  let place (placement : Placement) : Operator :=
    { name := descriptor.name, symbol := descriptor.symbol, placement,
      vararg := descriptor.vararg, leftAssociative := descriptor.leftAssociative }
  match descriptor.joining, descriptor.before, descriptor.after with
  | some anchor, none, none => .ok (place (.joining anchor))
  | none, some anchor, none => .ok (place (.before anchor))
  | none, none, some anchor => .ok (place (.after anchor))
  | _, _, _ => .error (.placementExpected descriptor.name)

end Descriptor

namespace Operator

def ofJson (json : Json) : Except OperatorFault Operator :=
  match Descriptor.ofJson? json with
  | some descriptor => descriptor.toOperator
  | none => .error .malformed

/-- Operators from a list of descriptors; the first bad one is reported. -/
def listOfJson : Json → Except OperatorFault (List Operator)
  | .arr items => items.mapM ofJson
  | _ => .error .listExpected

end Operator

end PipeQuery
