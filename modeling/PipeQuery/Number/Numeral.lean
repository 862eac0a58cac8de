/-
Decimal numerals taken apart, and the numbers they denote.
-/
import PipeQuery.Number.Binary

namespace PipeQuery

open scoped Power

/-- A numeral as written: sign, digits before and after the point, power of ten. -/
structure Numeral where
  negative : Bool
  whole : List Char
  fraction : List Char
  exponent : Option Int
  deriving DecidableEq, Repr

/-- The decimal digits of `n`. -/
def decimal (n : Nat) : List Char :=
  Nat.toDigits 10 n

/-- The number a list of digits denotes. -/
def digitsValue (digits : List Char) : Nat :=
  Nat.ofDigitChars 10 digits 0

@[simp] theorem digitsValue_decimal (n : Nat) : digitsValue (decimal n) = n :=
  Nat.ofDigitChars_toDigits (by decide) (by decide)

/-- The decimal text of an integer. -/
def integerText (n : Int) : String :=
  String.ofList (if n < 0 then '-' :: decimal n.natAbs else decimal n.natAbs)

/-- Whether an integer is one of 64 bits. -/
def fitsInt64 (n : Int) : Bool :=
  decide (-2 ^ (63 : Nat) ≤ n ∧ n < 2 ^ (63 : Nat))

@[simp] theorem fitsInt64_toInt (n : Int64) : fitsInt64 n.toInt = true :=
  decide_eq_true ⟨n.le_toInt, n.toInt_lt⟩

namespace Numeral

/-- Neither a fraction nor a power of ten is written. -/
def isIntegral (numeral : Numeral) : Bool :=
  numeral.fraction.isEmpty && numeral.exponent.isNone

/-- The integer of an integral numeral. -/
def toInt (numeral : Numeral) : Int :=
  Binary.signed numeral.negative (digitsValue numeral.whole)

/-- The nearest double, infinite where the number exceeds them all. -/
def toFloat (numeral : Numeral) : Float :=
  let digits := digitsValue (numeral.whole ++ numeral.fraction)
  let power := numeral.exponent.getD 0 - numeral.fraction.length
  let magnitude := Float.ofScientific digits (decide (power < 0)) power.natAbs
  if numeral.negative then -magnitude else magnitude

end Numeral

end PipeQuery
