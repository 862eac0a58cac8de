/-
The order of values: exact within a type, by rank between types.
-/
import PipeQuery.Value

namespace PipeQuery

/-- The order of two doubles; a number and no number have none. -/
def compareFloats (x y : Float) : Option Ordering :=
  if x < y then some .lt else if x == y then some .eq else if y < x then some .gt else none

/-- The order of an integer and a double, without rounding the integer.  A double among the integers
of 64 bits is compared by its integer part and then by the sign of the rest. -/
def compareIntFloat (n : Int64) (x : Float) : Option Ordering :=
  if x.isNaN then none
  -- The bounds `2 ^ 63` and `-2 ^ 63` are doubles themselves.
  else if 9223372036854775808 ≤ x then some .lt
  else if x < -9223372036854775808 then some .gt
  else
    match compare n.toInt (floatTruncate x).toModel.toInt64.toInt with
    | .eq => compareFloats 0 (floatFraction x)
    | order => some order

namespace Value

/-- Booleans, then numbers, then strings, then everything else. -/
def sortRank : Value → Nat
  | bool _ => 0
  | int _ | float _ => 1
  | str _ => 2
  | _ => 3

/-- The order of two values of one sortable type; integers and floats compare exactly. -/
def compareSameType : Value → Value → Option Ordering
  | bool a, bool b => some (compare a b)
  | str a, str b => some (compare a b)
  | int a, int b => some (compare a.toInt b.toInt)
  | float a, float b => compareFloats a b
  | int a, float b => compareIntFloat a b
  | float a, int b => (compareIntFloat b a).map Ordering.swap
  | _, _ => none

def isNaN : Value → Bool
  | float x => x.isNaN
  | _ => false

/-- The total order of `sort`, `min` and `max`.  Among numbers the one that is none comes last;
null, arrays and objects are all alike. -/
def sortCompare (a b : Value) : Ordering :=
  if a.sortRank ≠ b.sortRank then compare a.sortRank b.sortRank
  else
    match a.isNaN, b.isNaN with
    | true, true => .eq
    | true, false => .gt
    | false, true => .lt
    | false, false => (a.compareSameType b).getD .eq

end Value

end PipeQuery
