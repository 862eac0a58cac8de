/-
How many arguments a function takes.
-/
import PipeQuery.Number.Numeral

namespace PipeQuery

/-- Accepted argument counts; without `max` there is no upper bound. -/
structure Arity where
  min : Nat
  max : Option Nat
  deriving DecidableEq, Repr

namespace Arity

def any : Arity := ⟨0, none⟩

def exactly (n : Nat) : Arity := ⟨n, some n⟩

def between (min max : Nat) : Arity := ⟨min, some max⟩

/-- Whether a call may have `count` arguments. -/
def accepts (arity : Arity) (count : Nat) : Bool :=
  arity.min ≤ count && (match arity.max with
    | none => true
    | some max => count ≤ max)

/-- The counts in words. -/
def describe (arity : Arity) : String :=
  match arity.max with
  | some max =>
    if max = arity.min then integerText max
    else integerText arity.min ++ " to " ++ integerText max
  | none => "at least " ++ integerText arity.min

end Arity

end PipeQuery
