/-
Powers of whole numbers, the built-in ones whatever other powers are in scope.
-/
namespace PipeQuery.Power

scoped instance natural : Pow Nat Nat := instPowNat

scoped instance integral : Pow Int Nat := instPowNat

end PipeQuery.Power
