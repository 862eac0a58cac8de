/-
A double-precision float taken apart into what it denotes: a sign and a magnitude `m * 2 ^ q`,
an infinity, or no number at all.  Truncation and remainders are exact on this form; only `toFloat`
rounds.
-/
import PipeQuery.Number.Power

namespace PipeQuery

open scoped Power
open Float.Model (UnpackedFloat)

/-- What a double denotes.  Both zeros are finite with significand `0`. -/
inductive Binary where
  | undefined
  | infinite (negative : Bool)
  | finite (negative : Bool) (significand : Nat) (exponent : Int)
  deriving DecidableEq, Repr

namespace Binary

/-- `n` or `-n`. -/
def signed (negative : Bool) (n : Nat) : Int :=
  if negative then -(n : Int) else n

private def isNegative : UnpackedFloat.Sign → Bool
  | .negative => true
  | .positive => false

private def signOf (negative : Bool) : UnpackedFloat.Sign :=
  if negative then .negative else .positive

def ofFloat (x : Float) : Binary :=
  match x.toModel.unpack with
  | .notANumber => undefined
  | .infinity sign => infinite (isNegative sign)
  | .zero sign => finite (isNegative sign) 0 0
  | .finite sign m q _ => finite (isNegative sign) m q

private def unpacked : Binary → UnpackedFloat
  | undefined => .notANumber
  | infinite negative => .infinity (signOf negative)
  | finite negative m q =>
    if m = 0 then .zero (signOf negative) else .round .binary64 (signOf negative) m q

/-- The nearest double, a tie going to the even significand. -/
def toFloat (b : Binary) : Float :=
  .ofModel (.pack b.unpacked)

/-- The integer part, toward zero. -/
def truncate? : Binary → Option Int
  | finite negative m q =>
    if 0 ≤ q then some (signed negative (m * 2 ^ q.toNat))
    else some (signed negative (m / 2 ^ (-q).toNat))
  | _ => none

/-- Whether the number denoted is an integer. -/
def isWhole : Binary → Bool
  | finite _ m q => decide (0 ≤ q) || m % 2 ^ (-q).toNat == 0
  | _ => false

/-- The exact remainder of truncating division, with the sign of the dividend. -/
def remainder : Binary → Binary → Binary
  | undefined, _ => undefined
  | _, undefined => undefined
  | infinite _, _ => undefined
  | finite negative m q, infinite _ => finite negative m q
  | finite negative m q, finite _ n p =>
    let unit := min q p
    let scaled := m * 2 ^ (q - unit).toNat
    let divisor := n * 2 ^ (p - unit).toNat
    if divisor = 0 then undefined else finite negative (scaled % divisor) unit

end Binary

/-- The remainder of `x` by `y`, exact and with the sign of `x`. -/
def floatRemainder (x y : Float) : Float :=
  ((Binary.ofFloat x).remainder (Binary.ofFloat y)).toFloat

/-- The integer part of `x`, toward zero.  What is not finite stays as it is. -/
def floatTruncate (x : Float) : Float :=
  match Binary.ofFloat x with
  | .finite negative m q =>
    if 0 ≤ q then x else (Binary.finite negative (m / 2 ^ (-q).toNat) 0).toFloat
  | _ => x

/-- What `x` has after its point, with the sign of `x`. -/
def floatFraction (x : Float) : Float :=
  x - floatTruncate x

end PipeQuery
