/-
Functions, and the registry in which calls find them.

A value function works on its arguments, all evaluated against the same document before it starts.
A higher-order function sees the argument queries and says what is to be compiled and on what it
is run.
-/
import PipeQuery.Fault

namespace PipeQuery

/-- A compiled query: a document in, a result out. -/
abbrev Program := Value → Except RuntimeFault Value

/-- What compiles the queries inside a call. -/
abbrev Compiler := Query → Except ReferenceFault Program

/-- A named operation. -/
inductive Function where
  | value (arity : Arity) (call : List Value → Except RuntimeFault Value)
  | higherOrder (build : List Query → Compiler → Except ReferenceFault Program)

/-- Functions by name. -/
abbrev Registry := Entries Function

/-- Refuses a number of arguments that a function does not take. -/
def Arity.check (arity : Arity) (function : String) (count : Nat) : Except ReferenceFault Unit :=
  if arity.accepts count then .ok ()
  else .error (.invalidArgument function (.wrongCount arity count))

/-- A call read an argument that it does not have. -/
def RuntimeFault.noArgument (position : Nat) : RuntimeFault :=
  .custom ("no argument at position " ++ integerText position)

/-- The argument at a position, which the arity of the function vouches for. -/
def argument (args : List Value) (position : Nat) : Except RuntimeFault Value :=
  match args[position]? with
  | some value => .ok value
  | none => .error (.noArgument position)

namespace Function

/-- The program of a call. -/
def build (function : Function) (name : String) (args : List Query) (compile : Compiler) :
    Except ReferenceFault Program :=
  match function with
  | value arity call => do
    arity.check name args.length
    let programs ← args.mapM compile
    return fun data => do
      let values ← programs.mapM fun program => program data
      call values
  | higherOrder build => build args compile

/-- A function of one value. -/
def unary (f : Value → Value) : Function :=
  value (.exactly 1) fun args => do return f (← argument args 0)

/-- A function of two values. -/
def binary (f : Value → Value → Value) : Function :=
  value (.exactly 2) fun args => do return f (← argument args 0) (← argument args 1)

/-- A function of any number of values. -/
def variadic (f : List Value → Value) : Function :=
  value .any fun args => .ok (f args)

/-- A function without arguments, of the document it is called on. -/
def nullary (name : String) (program : Program) : Function :=
  higherOrder fun args _ => do
    (Arity.exactly 0).check name args.length
    return program

/-- A function with one query to compile. -/
def overQuery (name : String) (program : Program → Program) : Function :=
  higherOrder fun args compile =>
    match args with
    | [arg] => do return program (← compile arg)
    | _ => .error (.invalidArgument name (.wrongCount (.exactly 1) args.length))

end Function

/-- The value of an argument that must be written as a literal. -/
def literalArgument (function : String) : Query → Except ReferenceFault Value
  | .literal value => .ok value
  | other => .error (.invalidArgument function (.literalExpected other))

/-- A program on the items of an array. -/
def onArray (transform : List Value → Except RuntimeFault Value) : Program
  | .arr items => transform items
  | _ => .error .arrayExpected

/-- A program on the members of an object. -/
def onObject (transform : Entries Value → Except RuntimeFault Value) : Program
  | .obj members => transform members
  | _ => .error .objectExpected

end PipeQuery
