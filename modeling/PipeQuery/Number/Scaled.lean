/-
Decimal numbers `coefficient / 10 ^ scale` of at most 96 bits and 28 places.

Sums, products and quotients are taken exactly and then rounded, a tie to the even neighbour, to as
many places as fit; a result that fits at no scale is an overflow.  Doubles come in with about
fifteen digits, so that `0.1` is a tenth, and go out through their whole and fractional parts.
-/
import PipeQuery.Number.Numeral

namespace PipeQuery

open scoped Power

/-- Where a number halfway between two neighbours goes. -/
inductive Tie where
  | toEven
  | awayFromZero
  deriving DecidableEq, Repr

/-- The natural number nearest to `num / den`. -/
def roundQuotient (tie : Tie) (num den : Nat) : Nat :=
  let q := num / den
  let r := num % den
  if 2 * r < den then q
  else if den < 2 * r then q + 1
  else
    match tie with
    | .toEven => q + q % 2
    | .awayFromZero => q + 1

/-- A decimal number. -/
structure Scaled where
  coefficient : Int
  scale : Nat
  deriving DecidableEq, Repr

namespace Scaled

/-- Coefficients stay below this in magnitude. -/
def bound : Nat := 2 ^ (96 : Nat)

/-- The most places there are. -/
def maxScale : Nat := 28

def zero : Scaled := ⟨0, 0⟩

def ofInt (n : Int) : Scaled := ⟨n, 0⟩

def isZero (x : Scaled) : Bool := x.coefficient == 0

def isNegative (x : Scaled) : Bool := x.coefficient < 0

/-- Whether the number is an integer. -/
def isWhole (x : Scaled) : Bool := x.coefficient.natAbs % 10 ^ x.scale == 0

/-- The integer part, toward zero. -/
def truncate (x : Scaled) : Int := x.coefficient.tdiv (10 ^ x.scale)

/-- The integer part, if it has at most 64 bits. -/
def toInt64? (x : Scaled) : Option Int64 :=
  if fitsInt64 x.truncate then some (.ofInt x.truncate) else none

/-- The coefficient at a scale that is not smaller. -/
def coefficientAt (x : Scaled) (scale : Nat) : Int :=
  x.coefficient * 10 ^ (scale - x.scale)

/-- `num / den` with as many places as fit, at most `scale`. -/
def fit? (num : Int) (den : Nat) (scale : Nat) : Option Scaled :=
  let m := roundQuotient .toEven (num.natAbs * 10 ^ scale) den
  if m < bound then some ⟨Binary.signed (decide (num < 0)) m, scale⟩
  else
    match scale with
    | 0 => none
    | scale + 1 => fit? num den scale

def add? (x y : Scaled) : Option Scaled :=
  let scale := max x.scale y.scale
  fit? (x.coefficientAt scale + y.coefficientAt scale) (10 ^ scale) scale

def neg (x : Scaled) : Scaled := ⟨-x.coefficient, x.scale⟩

def sub? (x y : Scaled) : Option Scaled :=
  x.add? y.neg

def mul? (x y : Scaled) : Option Scaled :=
  let scale := x.scale + y.scale
  fit? (x.coefficient * y.coefficient) (10 ^ scale) (min maxScale scale)

/-- Drops places that hold nothing. -/
def trimmed (coefficient : Int) : (scale : Nat) → Scaled
  | 0 => ⟨coefficient, 0⟩
  | scale + 1 =>
    if coefficient % 10 = 0 then trimmed (coefficient / 10) scale else ⟨coefficient, scale + 1⟩

/-- The quotient by a number that is not zero. -/
def div? (x y : Scaled) : Option Scaled :=
  let num := x.coefficient * 10 ^ y.scale * y.coefficient.sign
  let den := y.coefficient.natAbs * 10 ^ x.scale
  (fit? num den maxScale).map fun q => trimmed q.coefficient q.scale

/-- The remainder of truncating division by a number that is not zero; it has the sign of `x`. -/
def rem (x y : Scaled) : Scaled :=
  let scale := max x.scale y.scale
  ⟨(x.coefficientAt scale).tmod (y.coefficientAt scale), scale⟩

/-- The nearest number of at most `places` places, a half going away from zero. -/
def roundTo (x : Scaled) (places : Nat) : Scaled :=
  if x.scale ≤ places then x
  else
    let m := roundQuotient .awayFromZero x.coefficient.natAbs (10 ^ (x.scale - places))
    ⟨Binary.signed x.isNegative m, places⟩

/-- A float rounded to a whole number, a half going away from zero. -/
private def roundFloat (x : Float) : Float :=
  match Binary.ofFloat x with
  | .finite negative m q =>
    if 0 ≤ q then x
    else
      let n := Float.ofNat (roundQuotient .awayFromZero m (2 ^ (-q).toNat))
      if negative then -n else n
  | _ => x

/-- The double of a decimal number: the whole part and the fraction as doubles, their sum rounded
once more to the places there are. -/
def toFloat (x : Scaled) : Float :=
  let m := x.coefficient.natAbs
  let unit := 10 ^ x.scale
  let magnitude :=
    if x.scale = 0 then Float.ofNat m
    else
      let whole := Float.ofNat (m / unit)
      let fraction := Float.ofNat (m % unit) / Float.ofNat unit
      if fraction == 0 then whole
      else roundFloat ((whole + fraction) * Float.ofNat unit) / Float.ofNat unit
  if x.isNegative then -magnitude else magnitude

/-! ## From doubles

A double `b * 2 ^ e` is the same as `b * 10 ^ e * 5 ^ (-e)` and its powers of five are worked into
`b`, which keeps as many bits as it can. -/

/-- Takes in `fives` factors of five; a factor that does not fit costs a bit. -/
def takeFives : (fives b : Nat) → (tens : Int) → Nat × Int
  | 0, b, tens => (b, tens)
  | fives + 1, b, tens =>
    if b % 2 = 0 then takeFives fives (b / 2) (tens + 1)
    else if 5 * b < bound then takeFives fives (5 * b) tens
    else takeFives fives (b / 2) (tens + 1)

/-- Takes out `fives` factors of five. -/
def dropFives? : (fives b : Nat) → (tens : Int) → Option (Nat × Int)
  | 0, b, tens => some (b, tens)
  | fives + 1, b, tens =>
    if b < 2 ^ (95 : Nat) then dropFives? fives (2 * b) (tens - 1)
    else if (fives + 1 : Int) < 2 * tens then none
    else dropFives? fives (b / 5) tens

/-- Takes in factors of ten. -/
def takeTens? : (tens b : Nat) → Option Nat
  | 0, b => some b
  | tens + 1, b => if 10 * b < bound then takeTens? tens (10 * b) else none

/-- The quotient by ten, a remainder from five on rounding up. -/
private def dropDigit (b : Nat) : Nat :=
  if 5 ≤ b % 10 then b / 10 + 1 else b / 10

/-- Drops `surplus` of `places` digits after the point; nothing may be left. -/
def dropPlaces : (surplus b places : Nat) → Nat × Nat
  | 0, b, places => (b, places)
  | surplus + 1, b, places =>
    if b / 10 = 0 then (0, 0) else dropPlaces surplus (dropDigit b) (places - 1)

/-- Drops digits after the point until the number has no more than 52 bits. -/
def dropBits : (b places : Nat) → Nat × Nat
  | b, 0 => (b, 0)
  | b, places + 1 => if 2 ^ (52 : Nat) ≤ b then dropBits (dropDigit b) places else (b, places + 1)

/-- The decimal number of a double, if it is finite and in range. -/
def ofFloat? (x : Float) : Option Scaled :=
  match Binary.ofFloat x with
  | .finite negative m q =>
    if m = 0 then some zero
    else
      let shifted :=
        if q ≤ 0 then some (takeFives (-q).toNat m q) else dropFives? q.toNat m q
      match shifted with
      | none => none
      | some (b, tens) =>
        let placed :=
          if 0 ≤ tens then (takeTens? tens.toNat b).map (·, 0)
          else some (dropPlaces ((-tens).toNat - maxScale) b (-tens).toNat)
        placed.map fun (b, places) =>
          let (b, places) := dropBits b places
          trimmed (Binary.signed negative b) places
  | _ => none

end Scaled

end PipeQuery
