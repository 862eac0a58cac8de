/-
The text of a float: shortest digits, written in place near one and with a power of ten elsewhere.
-/
import PipeQuery.Number.Shortest

namespace PipeQuery

/-- Which leading powers of ten are written in place, and how the numbers that are none look. -/
structure FloatStyle where
  lowest : Int
  highest : Int
  undefined : String
  infinite : String

namespace FloatStyle

/-- Documents write `0.00001` to `1000000000000000.0` in place. -/
def document : FloatStyle where
  lowest := -5
  highest := 15
  undefined := "NaN"
  infinite := "inf"

/-- Digits in place; there is always a fraction. -/
def plain (digits : List Char) (exponent : Int) : List Char :=
  if exponent < 0 then
    '0' :: '.' :: List.replicate (-exponent - 1).toNat '0' ++ digits
  else
    let size := exponent.toNat + 1
    let whole := (digits ++ List.replicate (size - digits.length) '0').take size
    match digits.drop size with
    | [] => whole ++ ['.', '0']
    | fraction => whole ++ '.' :: fraction

/-- One digit before the point, and no point without a fraction. -/
def scientific (digits : List Char) (exponent : Int) : List Char :=
  let sign := if exponent < 0 then '-' else '+'
  let power := 'e' :: sign :: decimal exponent.natAbs
  match digits with
  | first :: second :: more => first :: '.' :: second :: more ++ power
  | _ => digits ++ power

/-- The text of `x`. -/
def text (style : FloatStyle) (x : Float) : String :=
  let minus (negative : Bool) := if negative then "-" else ""
  match Binary.ofFloat x with
  | .undefined => style.undefined
  | .infinite negative => minus negative ++ style.infinite
  | .finite negative m q =>
    if m = 0 then minus negative ++ "0.0"
    else
      let shortest := Shortest.digits m q
      let body :=
        if style.lowest ≤ shortest.exponent ∧ shortest.exponent ≤ style.highest then
          plain shortest.digits shortest.exponent
        else
          scientific shortest.digits shortest.exponent
      minus negative ++ String.ofList body

end FloatStyle

/-- The text of a float, as documents write it. -/
def floatText (x : Float) : String :=
  FloatStyle.document.text x

end PipeQuery
