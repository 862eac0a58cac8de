/-
Scanners: each takes one complete piece from the front of a text, or nothing at all.

A piece that is taken is never empty, and `Taken` carries that fact, so whoever repeats a scanner
has a measure that falls.
-/
import PipeQuery.Json.Quoted
import PipeQuery.Number.Numeral

namespace PipeQuery

universe u v

/-- A value taken from the front of `text`, and what is left of the text. -/
structure Taken (α : Type u) (text : List Char) where
  value : α
  rest : List Char
  shorter : rest.length < text.length

namespace Taken

variable {α : Type u} {β : Type v} {text : List Char}

def map (f : α → β) (taken : Taken α text) : Taken β text :=
  ⟨f taken.value, taken.rest, taken.shorter⟩

/-- What was taken from a text counts as taken from any longer one. -/
def widen {longer : List Char} (taken : Taken α text) (h : text.length ≤ longer.length) :
    Taken α longer :=
  ⟨taken.value, taken.rest, Nat.lt_of_lt_of_le taken.shorter h⟩

end Taken

namespace Scan

/-- The four characters that may stand between tokens. -/
def isBlank (c : Char) : Bool :=
  c == ' ' || c == '\n' || c == '\t' || c == '\r'

def skipBlanks (text : List Char) : List Char :=
  text.dropWhile isBlank

theorem length_dropWhile_le (p : Char → Bool) (text : List Char) :
    (text.dropWhile p).length ≤ text.length :=
  (List.dropWhile_sublist p).length_le

theorem length_skipBlanks_le (text : List Char) :
    (skipBlanks text).length ≤ text.length :=
  length_dropWhile_le isBlank text

/-- A letter, an underscore or a dollar sign. -/
def isNameStart (c : Char) : Bool :=
  c.isAlpha || c == '_' || c == '$'

def isNameChar (c : Char) : Bool :=
  c.isAlphanum || c == '_' || c == '$'

/-- An unquoted name. -/
def name? : (text : List Char) → Option (Taken String text)
  | [] => none
  | c :: rest =>
    if isNameStart c then
      some ⟨String.ofList (c :: rest.takeWhile isNameChar), rest.dropWhile isNameChar,
        Nat.lt_succ_of_le (length_dropWhile_le _ _)⟩
    else none

/-- A whole number without sign and without leading zeros. -/
def whole? : (text : List Char) → Option (Taken (List Char) text)
  | [] => none
  | c :: rest =>
    if c = '0' then some ⟨['0'], rest, Nat.lt_succ_self _⟩
    else if c.isDigit then
      some ⟨c :: rest.takeWhile Char.isDigit, rest.dropWhile Char.isDigit,
        Nat.lt_succ_of_le (length_dropWhile_le _ _)⟩
    else none

/-- A point and the digits after it; a point without digits is left alone. -/
def fraction : List Char → List Char × List Char
  | '.' :: d :: rest =>
    if d.isDigit then (d :: rest.takeWhile Char.isDigit, rest.dropWhile Char.isDigit)
    else ([], '.' :: d :: rest)
  | text => ([], text)

/-- The sign of a power of ten, if one is written. -/
def sign : List Char → Bool × List Char
  | '-' :: rest => (true, rest)
  | '+' :: rest => (false, rest)
  | text => (false, text)

/-- The letter `e`, a sign and digits; without digits all is left alone. -/
def exponent : List Char → Option Int × List Char
  | [] => (none, [])
  | e :: rest =>
    if e = 'e' ∨ e = 'E' then
      let (negative, digits) := sign rest
      match digits.takeWhile Char.isDigit with
      | [] => (none, e :: rest)
      | power => (some (Binary.signed negative (digitsValue power)), digits.dropWhile Char.isDigit)
    else (none, e :: rest)

theorem length_fraction_le (text : List Char) : (fraction text).2.length ≤ text.length := by
  fun_cases fraction text with
  | case1 d rest h =>
    have := length_dropWhile_le Char.isDigit rest
    simp only [List.length_cons]
    omega
  | case2 => exact Nat.le_refl _
  | case3 => exact Nat.le_refl _

theorem length_sign_le (text : List Char) : (sign text).2.length ≤ text.length := by
  fun_cases sign text <;> simp

theorem length_exponent_le (text : List Char) : (exponent text).2.length ≤ text.length := by
  fun_cases exponent text with
  | case1 => exact Nat.le_refl _
  | case2 e rest he negative digits hs hd => exact Nat.le_refl _
  | case3 e rest he negative digits hs hd =>
    have h₁ := length_sign_le rest
    have h₂ := length_dropWhile_le Char.isDigit digits
    simp only [hs] at h₁
    simp only [List.length_cons]
    omega
  | case4 => exact Nat.le_refl _

/-- A numeral without sign. -/
def magnitude? (negative : Bool) (text : List Char) : Option (Taken Numeral text) :=
  (whole? text).map fun whole =>
    let fraction' := fraction whole.rest
    let exponent' := exponent fraction'.2
    ⟨⟨negative, whole.value, fraction'.1, exponent'.1⟩, exponent'.2, by
      have h₁ := length_fraction_le whole.rest
      have h₂ := length_exponent_le fraction'.2
      have h₃ := whole.shorter
      exact Nat.lt_of_le_of_lt (Nat.le_trans h₂ h₁) h₃⟩

/-- The longest numeral `-?(0|[1-9][0-9]*)(\.[0-9]+)?([eE][+-]?[0-9]+)?` at the front. -/
def numeral? : (text : List Char) → Option (Taken Numeral text)
  | '-' :: rest => (magnitude? true rest).map (·.widen (Nat.le_succ _))
  | text => magnitude? false text

/-- One of the words `true`, `false` and `null`, the last as no Boolean; what follows the word does
not matter. -/
def keyword? : (text : List Char) → Option (Taken (Option Bool) text)
  | 't' :: 'r' :: 'u' :: 'e' :: rest => some ⟨some true, rest, by simp; omega⟩
  | 'f' :: 'a' :: 'l' :: 's' :: 'e' :: rest => some ⟨some false, rest, by simp; omega⟩
  | 'n' :: 'u' :: 'l' :: 'l' :: rest => some ⟨none, rest, by simp; omega⟩
  | _ => none

/-- What a scanner for string literals can find. -/
inductive StringScan (text : List Char) where
  /-- No quote, or one that nothing closes. -/
  | absent
  /-- The quotes match, but what stands between them is no text. -/
  | malformed
  | found (taken : Taken String text)

/-- A string literal. -/
def string : (text : List Char) → StringScan text
  | '"' :: rest =>
    match h : Quoted.split? rest with
    | none => .absent
    | some (body, after) =>
      match Quoted.decode? body with
      | none => .malformed
      | some chars =>
        .found ⟨String.ofList chars, after, Nat.lt_succ_of_lt (Quoted.split?_length h)⟩
  | _ => .absent

/-- Takes `c` if it is next. -/
def char? (c : Char) : (text : List Char) → Option (Taken Unit text)
  | [] => none
  | d :: rest => if d = c then some ⟨(), rest, Nat.lt_succ_self _⟩ else none

/-- The text after `piece`, if the text starts with it; `piece` may be empty. -/
def dropPiece? : (piece text : List Char) → Option (List Char)
  | [], text => some text
  | _ :: _, [] => none
  | c :: piece, d :: text => if c = d then dropPiece? piece text else none

theorem dropPiece?_eq_some_iff {piece text rest : List Char} :
    dropPiece? piece text = some rest ↔ text = piece ++ rest := by
  fun_induction dropPiece? piece text with
  | case1 text => simp [eq_comm]
  | case2 => simp
  | case3 piece d text ih => simpa using ih
  | case4 c piece d text h => simp [Ne.symm h]

theorem length_dropPiece?_le {piece text rest : List Char}
    (h : dropPiece? piece text = some rest) : rest.length ≤ text.length := by
  rw [dropPiece?_eq_some_iff.1 h]
  simp

end Scan

/-- Whether a text can stand as a name without quotes. -/
def isPlainName (text : String) : Bool :=
  match text.toList with
  | [] => false
  | c :: rest => Scan.isNameStart c && rest.all Scan.isNameChar

/-- Whether a text is a whole number without leading zeros, and so one that `Scan.whole?` reads
back unchanged. -/
def isIndexText (text : String) : Bool :=
  match text.toList with
  | [] => false
  | ['0'] => true
  | c :: rest => c != '0' && c.isDigit && rest.all Char.isDigit

end PipeQuery
