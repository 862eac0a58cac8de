/-
Truth, comparison and choice.
-/
import PipeQuery.Function
import PipeQuery.Value.Order

namespace PipeQuery

namespace Logic

/-- The first argument that is not true, or the last. -/
def all (args : List Value) : Value :=
  (args.find? fun value => !value.isTrue).getD (args.getLast?.getD .null)

/-- The first argument that is true, or the last. -/
def any (args : List Value) : Value :=
  (args.find? Value.isTrue).getD (args.getLast?.getD .null)

/-- Whether an array has an item equal to `value`; anything else contains nothing. -/
def isMember (value candidates : Value) : Bool :=
  match candidates with
  | .arr items => items.any (· == value)
  | _ => false

/-- A function of two values that answers yes or no. -/
def relation (holds : Value → Value → Bool) : Function :=
  .binary fun a b => .bool (holds a b)

def greater (a b : Value) : Bool := a.compareSameType b == some .gt

def less (a b : Value) : Bool := a.compareSameType b == some .lt

/-- One of two programs, as a condition decides. -/
def choose (condition yes no : Program) : Program := fun data => do
  if (← condition data).isTrue then yes data else no data

end Logic

namespace Library

open Logic

/-- Functions that decide. -/
def logic : Registry :=
  [ ("and", .variadic all),
    ("or", .variadic any),
    ("not", .unary fun a => .bool !a.isTrue),
    ("eq", relation fun a b => a == b),
    ("ne", relation fun a b => a != b),
    ("gt", relation greater),
    ("gte", relation fun a b => greater a b || a == b),
    ("lt", relation less),
    ("lte", relation fun a b => less a b || a == b),
    ("if", .higherOrder fun args compile =>
      match args with
      | [condition, yes, no] => do
        return choose (← compile condition) (← compile yes) (← compile no)
      | _ => .error (.invalidArgument "if" (.wrongCount (.exactly 3) args.length))),
    ("in", relation isMember),
    ("not in", relation fun a b => !isMember a b),
    ("notIn", relation fun a b => !isMember a b) ]

end Library

end PipeQuery
