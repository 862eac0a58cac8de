/-
Arithmetic on values.

Two integers give an integer where the exact result is one of 64 bits; two floats give a float; an
integer and a float are worked out in decimal, and a whole result is an integer again.  What is not
a number, or divides by zero, gives null.
-/
import PipeQuery.Function
import PipeQuery.Number.Scaled

namespace PipeQuery

open scoped Power

/-- The operations with a symbol between two numbers. -/
inductive Operation where
  | add
  | subtract
  | multiply
  | divide
  | modulo
  deriving DecidableEq, Repr

namespace Arithmetic

/-- The exact result on two integers, where it is an integer and worked out as one.  The divisor is
not zero.  The remainder gets the sign of the divisor, and its quotient must have 64 bits. -/
def whole? (operation : Operation) (a b : Int) : Option Int :=
  match operation with
  | .add => some (a + b)
  | .subtract => some (a - b)
  | .multiply => some (a * b)
  | .divide => if a.tmod b = 0 then some (a.tdiv b) else none
  | .modulo =>
    if fitsInt64 (a.tdiv b) then
      let r := a.tmod b
      some (if r != 0 && decide (r < 0) != decide (b < 0) then r + b else r)
    else none

/-- The operations of which the right operand divides. -/
def divides : Operation → Bool
  | .divide | .modulo => true
  | _ => false

def onFloats (operation : Operation) (a b : Float) : Value :=
  if divides operation && b == 0 then .null
  else
    .float <| match operation with
      | .add => a + b
      | .subtract => a - b
      | .multiply => a * b
      | .divide => a / b
      | .modulo =>
        let r := floatRemainder a b
        if r != 0 && decide (r < 0) != decide (b < 0) then r + b else r

def onIntegers (operation : Operation) (a b : Int64) : Value :=
  if divides operation && b == 0 then .null
  else
    match (whole? operation a.toInt b.toInt).filter fitsInt64 with
    | some n => .int (.ofInt n)
    | none => onFloats operation (integerFloat a) (integerFloat b)

/-- The decimal number of a value, where it is in range. -/
def scaled? : Value → Option Scaled
  | .int n => some (.ofInt n.toInt)
  | .float x => Scaled.ofFloat? x
  | _ => none

/-- A whole result is an integer if it has 64 bits; any other is a float. -/
def ofScaled (x : Scaled) : Value :=
  match x.toInt64? with
  | some n => if x.isWhole then .int n else .float x.toFloat
  | none => .float x.toFloat

/-- The decimal result, where there is one; the divisor is not zero. -/
def onScaled? (operation : Operation) (x y : Scaled) : Option Scaled :=
  match operation with
  | .add => x.add? y
  | .subtract => x.sub? y
  | .multiply => x.mul? y
  | .divide => x.div? y
  | .modulo =>
    let r := x.rem y
    if !r.isZero && r.isNegative != y.isNegative then r.add? y else some r

/-- An integer and a float; outside the decimal range both count as floats. -/
def onMixed (operation : Operation) (a b : Value) : Value :=
  let asFloats : Value :=
    match a.asFloat?, b.asFloat? with
    | some x, some y => onFloats operation x y
    | _, _ => .null
  match scaled? a, scaled? b with
  | some x, some y =>
    if divides operation && y.isZero then .null
    else
      match onScaled? operation x y with
      | some result => ofScaled result
      | none => asFloats
  | _, _ => asFloats

/-- An operation on two values. -/
def apply (operation : Operation) : Value → Value → Value
  | .int a, .int b => onIntegers operation a b
  | .float a, .float b => onFloats operation a b
  | .int a, .float b => onMixed operation (.int a) (.float b)
  | .float a, .int b => onMixed operation (.float a) (.int b)
  | _, _ => .null

/-- The sum of numbers, or the concatenation when either side is a string. -/
def add (a b : Value) : Value :=
  match a, b with
  | .str _, _ | _, .str _ => .str (a.asText ++ b.asText)
  | _, _ => apply .add a b

/-- The exact power.  The powers of `0`, `1` and `-1` depend on zero and parity alone. -/
def integerPower? (base : Int) (exponent : Nat) : Option Int :=
  if base.natAbs ≤ 1 then some (base ^ min exponent (2 - exponent % 2))
  else if exponent < 64 then some (base ^ exponent)
  else none

/-- The exact power, where the exponent has 32 bits and the power 64. -/
def checkedPower? (base exponent : Int) : Option Int :=
  if 0 ≤ exponent ∧ exponent < 2 ^ (32 : Nat) then
    (integerPower? base exponent.toNat).filter fitsInt64
  else none

/-- Powers; the exact power of integers where it has 64 bits, else that of doubles, null where it
is not finite. -/
def power (base exponent : Value) : Value :=
  let asFloats : Value :=
    match base.asFloat?, exponent.asFloat? with
    | some x, some y =>
      let result := Float.pow x y
      if result.isFinite then .float result else .null
    | _, _ => .null
  match base, exponent with
  | .int b, .int e =>
    match checkedPower? b.toInt e.toInt with
    | some n => .int (.ofInt n)
    | none => asFloats
  | _, _ => asFloats

def absolute : Value → Value
  | .int n =>
    if fitsInt64 n.toInt.natAbs then .int (.ofInt n.toInt.natAbs)
    else .float (integerFloat n).abs
  | .float x => .float x.abs
  | _ => .null

/-- Rounds to `10 ^ -places`, a half going away from zero.  To a unit that has not 64 bits
everything is zero. -/
def roundScaled? (x : Scaled) (places : Int) : Option Scaled :=
  if 0 ≤ places then some (x.roundTo (min places.toNat Scaled.maxScale))
  else
    match checkedPower? 10 places.natAbs with
    | some unit => do
      let quotient ← x.div? (.ofInt unit)
      (quotient.roundTo 0).mul? (.ofInt unit)
    | none => some .zero

/-- Rounding.  Integers stay integers; a float becomes one unless digits are asked for.  What is
outside the decimal range stays as it is. -/
def round (value : Value) (digits : Option Int) : Value :=
  let places := digits.getD 0
  let rounded (isFloat : Bool) : Value :=
    match (scaled? value).bind (roundScaled? · places) with
    | none => value
    | some result =>
      match result.toInt64? with
      | some n => if isFloat && digits.isSome then .float result.toFloat else .int n
      | none => .float result.toFloat
  match value with
  | .int _ => if 0 ≤ places then value else rounded false
  | .float _ => rounded true
  | _ => .null

end Arithmetic

namespace Library

open Arithmetic

/-- Arithmetic functions. -/
def arithmetic : Registry :=
  [ ("add", .binary add),
    ("subtract", .binary (apply .subtract)),
    ("multiply", .binary (apply .multiply)),
    ("divide", .binary (apply .divide)),
    ("mod", .binary (apply .modulo)),
    ("pow", .binary power),
    ("abs", .unary absolute),
    ("round", .value (.between 1 2) fun args => do
      match args[1]? with
      | none => return round (← argument args 0) none
      | some digits =>
        match digits.asInt? with
        | none => return .null
        | some digits => return round (← argument args 0) (some digits.toInt)) ]

end Library

end PipeQuery
