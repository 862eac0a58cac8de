/-
Sets of characters: ranges of code points in ascending order, with a gap between any two.

A set is written in hexadecimal: `41-5A` from one code point to another, `100-12E/2` every second
one of them, `AA` one alone.
-/
import PipeQuery.Text.Split

namespace PipeQuery

/-- The code points from `first` to `last`. -/
structure CharRange where
  first : Nat
  last : Nat
  deriving DecidableEq, Repr

namespace CharRange

def contains (range : CharRange) (n : Nat) : Bool :=
  range.first ≤ n && n ≤ range.last

/-- The code point of the next character; surrogates are none. -/
def after (n : Nat) : Nat :=
  if n = 0xD7FF then 0xE000 else n + 1

/-- The code point of the character before. -/
def before (n : Nat) : Nat :=
  if n = 0xE000 then 0xD7FF else n - 1

/-- The range with two ends, whichever of them comes first. -/
def between (a b : Nat) : CharRange :=
  ⟨min a b, max a b⟩

/-- What two ranges have in common. -/
def inter? (a b : CharRange) : Option CharRange :=
  let first := max a.first b.first
  let last := min a.last b.last
  if first ≤ last then some ⟨first, last⟩ else none

/-- What is left of a range without another. -/
def minus (a b : CharRange) : List CharRange :=
  if (a.inter? b).isNone then [a]
  else
    (if a.first < b.first then [⟨a.first, before b.first⟩] else []) ++
      (if b.last < a.last then [⟨after b.last, a.last⟩] else [])

/-- Whether some range contains a code point. -/
def anyContains (ranges : List CharRange) (n : Nat) : Bool :=
  ranges.any (·.contains n)

/-- Ranges in ascending order of their starts, those that touch made one; `current` is the first. -/
def join (current : CharRange) : List CharRange → List CharRange
  | [] => [current]
  | next :: rest =>
    if next.first ≤ current.last + 1 then
      join ⟨current.first, max current.last next.last⟩ rest
    else current :: join next rest

/-- What lies between ranges and after them, the first of which comes after `last`. -/
def gaps (last : Nat) : List CharRange → List CharRange
  | [] => if last < 0x10FFFF then [⟨after last, 0x10FFFF⟩] else []
  | range :: rest => between (after last) (before range.first) :: gaps range.last rest

end CharRange

/-- A hexadecimal number. -/
def hexValue (digits : List Char) : Nat :=
  digits.foldl (fun n c => n * 16 + (Quoted.hexDigit? c).getD 0) 0

/-- The hexadecimal numbers of a text, whatever stands between them. -/
def hexNumbers (text : List Char) : List Nat :=
  (pieces (fun c => (Quoted.hexDigit? c).isNone) text).map hexValue

/-- A set of characters. -/
structure CharSet where
  ranges : List CharRange
  deriving DecidableEq, Repr

namespace CharSet

/-- Whether a character is in the set. -/
def contains (set : CharSet) (c : Char) : Bool :=
  CharRange.anyContains set.ranges c.toNat

/-- The set that some ranges cover, in whatever order they come. -/
def ofRanges (ranges : List CharRange) : CharSet :=
  match ranges.mergeSort (·.first ≤ ·.first) with
  | [] => ⟨[]⟩
  | range :: rest => ⟨CharRange.join range rest⟩

def empty : CharSet :=
  ⟨[]⟩

/-- All characters. -/
def full : CharSet :=
  ⟨[⟨0, 0x10FFFF⟩]⟩

def range (first last : Nat) : CharSet :=
  ⟨[⟨first, last⟩]⟩

def single (c : Char) : CharSet :=
  range c.toNat c.toNat

def union (a b : CharSet) : CharSet :=
  ofRanges (a.ranges ++ b.ranges)

def inter (a b : CharSet) : CharSet :=
  ⟨a.ranges.flatMap fun range => b.ranges.filterMap range.inter?⟩

/-- What is in the first set and not in the second. -/
def diff (a b : CharSet) : CharSet :=
  ⟨a.ranges.flatMap fun range =>
    (b.ranges.filter fun other => (range.inter? other).isSome).foldl
      (fun parts other => parts.flatMap (·.minus other)) [range]⟩

/-- What is in one of the sets and not in the other. -/
def symmDiff (a b : CharSet) : CharSet :=
  (a.union b).diff (a.inter b)

/-- What lies before, between and after the ranges.  Where nothing but surrogates lies between two
of them, their ends there count as the gap. -/
def compl (set : CharSet) : CharSet :=
  match set.ranges with
  | [] => full
  | range :: rest =>
    let start : List CharRange :=
      if 0 < range.first then [⟨0, CharRange.before range.first⟩] else []
    ⟨start ++ CharRange.gaps range.last rest⟩

/-- The union of several sets. -/
def unions (sets : List CharSet) : CharSet :=
  ofRanges (sets.flatMap CharSet.ranges)

/-- The ranges that an entry writes. -/
def entryRanges (entry : List Char) : List CharRange :=
  match hexNumbers entry with
  | [n] => [⟨n, n⟩]
  | [first, last] => [⟨first, last⟩]
  | first :: last :: step :: _ =>
    (List.range ((last - first) / step + 1)).map fun i => ⟨first + i * step, first + i * step⟩
  | [] => []

/-- The set that a text writes, its entries between blanks or line ends. -/
def ofText (text : String) : CharSet :=
  ofRanges ((pieces (fun c => c == ' ' || c == '\n') text.toList).flatMap entryRanges)

end CharSet

end PipeQuery
