/-
The fewest decimal digits that read back as a given double.

A double `m * 2 ^ q` is the nearest one to every real in an interval around it, whose ends belong
to it when `m` is even.  On the decimal grid of step `10 ^ k` only the two neighbours of the value
can be in that interval first, so grids are tried from coarse to fine and the first with a hit
wins; of two hits the nearer, of two equally near the even one.
-/
import PipeQuery.Number.Numeral

namespace PipeQuery.Shortest

open scoped Power

/-- A positive number `m * 2 ^ q` of doubles, as `top / bottom` times a quarter of its unit. -/
structure Rounding where
  /-- The reals that read back lie from `low` to `high`, the number itself being `middle`. -/
  low : Nat
  middle : Nat
  high : Nat
  /-- Whether the two ends read back as well. -/
  closed : Bool
  /-- The three above count quarters of `2 ^ exponent`. -/
  exponent : Int

/-- Just above a power of two the doubles below are twice as dense. -/
def rounding (m : Nat) (q : Int) : Rounding where
  low := if m = 2 ^ (52 : Nat) ∧ -1074 < q then 4 * m - 1 else 4 * m - 2
  middle := 4 * m
  high := 4 * m + 2
  closed := m % 2 == 0
  exponent := q - 2

namespace Rounding

/-- Numerator that turns quarters into multiples of `10 ^ k`, over `divisor`. -/
def factor (r : Rounding) (k : Int) : Nat :=
  2 ^ r.exponent.toNat * 10 ^ (-k).toNat

def divisor (r : Rounding) (k : Int) : Nat :=
  2 ^ (-r.exponent).toNat * 10 ^ k.toNat

/-- Whether `n * 10 ^ k` reads back as the number. -/
def holds (r : Rounding) (k : Int) (n : Nat) : Bool :=
  let point := n * r.divisor k
  let low := r.low * r.factor k
  let high := r.high * r.factor k
  if r.closed then decide (low ≤ point ∧ point ≤ high) else decide (low < point ∧ point < high)

/-- The multiple of `10 ^ k` to print, where one of the two neighbours reads back. -/
def hit? (r : Rounding) (k : Int) : Option Nat :=
  let value := r.middle * r.factor k
  let below := value / r.divisor k
  let above := below + 1
  match r.holds k below, r.holds k above with
  | true, true =>
    let left := value - below * r.divisor k
    let right := above * r.divisor k - value
    if left < right then some below
    else if right < left then some above
    else if below % 2 = 0 then some below else some above
  | true, false => some below
  | false, true => some above
  | false, false => none

end Rounding

/-- The power of ten of the leading digit of `m * 2 ^ q`. -/
def leading (m : Nat) (q : Int) : Int :=
  let top := m * 2 ^ q.toNat
  let bottom := 2 ^ (-q).toNat
  if bottom ≤ top then (decimal (top / bottom)).length - 1
  else -((decimal ((bottom + top - 1) / top - 1)).length : Int)

/-- Significant digits, the first of them at `10 ^ exponent`. -/
structure Digits where
  digits : List Char
  exponent : Int
  deriving DecidableEq, Repr

def Digits.ofMultiple (n : Nat) (k : Int) : Digits :=
  let digits := decimal n
  let kept := (digits.reverse.dropWhile (· == '0')).reverse
  { digits := kept, exponent := k + digits.length - 1 }

/-- The shortest digits of a positive double; seventeen always suffice. -/
def digits (m : Nat) (q : Int) : Digits :=
  let r := rounding m q
  let first := leading m q
  let hit := (List.range 17).findSome? fun (place : Nat) =>
    let k := first - place
    (r.hit? k).map (Digits.ofMultiple · k)
  hit.getD (.ofMultiple (m * 2 ^ q.toNat / 2 ^ (-q).toNat) 0)

end PipeQuery.Shortest
