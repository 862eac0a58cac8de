/-
One value from the items of an array.
-/
import PipeQuery.Library.Arithmetic
import PipeQuery.Value.Order

namespace PipeQuery

namespace Aggregates

/-- The sum of numbers; null once an item is no number. -/
def sum (items : List Value) : Value :=
  items.foldl (fun total item => if item.isNumber then Arithmetic.add total item else .null)
    (.int 0)

/-- The product of numbers; null without items or with one that is no number. -/
def product : List Value → Value
  | [] => .null
  | first :: rest =>
    rest.foldl (Arithmetic.apply .multiply) (if first.isNumber then first else .null)

/-- The sum over the count. -/
def average (items : List Value) : Value :=
  if items.isEmpty then .null
  else Arithmetic.apply .divide (sum items) (.int (.ofInt items.length))

/-- The first of the least items. -/
def least : List Value → Value
  | [] => .null
  | first :: rest =>
    rest.foldl (fun best item => if item.sortCompare best == .lt then item else best) first

/-- The last of the greatest items. -/
def greatest : List Value → Value
  | [] => .null
  | first :: rest =>
    rest.foldl (fun best item => if item.sortCompare best == .lt then best else item) first

end Aggregates

namespace Library

open Aggregates

/-- Functions of a whole array. -/
def aggregates : Registry :=
  [("sum", sum), ("prod", product), ("average", average), ("min", least), ("max", greatest)].map
    fun (name, aggregate) =>
      (name, .nullary name (onArray fun items => .ok (aggregate items)))

end Library

end PipeQuery
