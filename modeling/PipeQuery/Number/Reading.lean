/-
Reading a float from a whole text, more freely than in a document: a sign of either kind, a point
without digits on one side, and names for what is not finite.
-/
import PipeQuery.Number.Numeral

namespace PipeQuery

/-- An optional sign. -/
private def splitSign : List Char → Bool × List Char
  | '-' :: rest => (true, rest)
  | '+' :: rest => (false, rest)
  | text => (false, text)

/-- The power of ten that a text holds, which may be none. -/
private def power? : List Char → Option (Option Int)
  | [] => some none
  | e :: rest =>
    if e = 'e' ∨ e = 'E' then
      let (negative, digits) := splitSign rest
      if digits ≠ [] ∧ digits.all Char.isDigit then
        some (some (Binary.signed negative (digitsValue digits)))
      else none
    else none

/-- A numeral without sign that fills the text; it has at least one digit before its power. -/
private def freeNumeral? (negative : Bool) (text : List Char) : Option Numeral :=
  let whole := text.takeWhile Char.isDigit
  let (fraction, rest) := match text.dropWhile Char.isDigit with
    | '.' :: rest => (rest.takeWhile Char.isDigit, rest.dropWhile Char.isDigit)
    | rest => ([], rest)
  if whole.isEmpty && fraction.isEmpty then none
  else (power? rest).map (⟨negative, whole, fraction, ·⟩)

/-- The float a text holds. -/
def floatOfText? (text : List Char) : Option Float :=
  let (negative, body) := splitSign text
  let name := String.ofList (body.map Char.toLower)
  let named? : Option Float :=
    if name = "inf" ∨ name = "infinity" then some (1 / 0)
    else if name = "nan" then some (0 / 0)
    else none
  match named? with
  | some x => some (if negative then -x else x)
  | none => (freeNumeral? negative body).map Numeral.toFloat

end PipeQuery
