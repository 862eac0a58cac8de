/-
Reading JSON documents, strictly: nothing but one value and blanks around it, no more than a
hundred and twenty-seven containers open at once, no number beyond the doubles.
-/
import PipeQuery.Json
import PipeQuery.Scan

namespace PipeQuery.Json

open scoped Power
open Scan (skipBlanks length_skipBlanks_le)

/-- A way to take a document from the front of a text. -/
abbrev Reader := (text : List Char) → Option (Taken Json text)

/-- The number of a numeral.  An integer has at most 64 bits and is not minus zero; everything else
is a float, which must be finite. -/
def ofNumeral? (numeral : Numeral) : Option Json :=
  let n := numeral.toInt
  let minusZero := numeral.negative && n == 0
  if numeral.isIntegral && !minusZero && decide (-2 ^ (63 : Nat) ≤ n ∧ n < 2 ^ (64 : Nat)) then
    some (.int n)
  else if numeral.toFloat.isFinite then some (.float numeral.toFloat)
  else none

/-- A keyword, a number or a string. -/
def scalar? (text : List Char) : Option (Taken Json text) :=
  match Scan.keyword? text with
  | some word => some (word.map fun | some b => .bool b | none => .null)
  | none =>
    match Scan.numeral? text with
    | some numeral => (ofNumeral? numeral.value).map fun json => numeral.map fun _ => json
    | none =>
      match Scan.string text with
      | .found taken => some (taken.map .str)
      | _ => none

/-- Reads after blanks. -/
def spaced (reader : Reader) : Reader := fun text =>
  (reader (skipBlanks text)).map (·.widen (length_skipBlanks_le text))

/-- Takes a character after blanks. -/
def mark? (c : Char) (text : List Char) : Option (Taken Unit text) :=
  (Scan.char? c (skipBlanks text)).map (·.widen (length_skipBlanks_le text))

/-- Items up to a closing bracket, of which there is at least one. -/
def items? (element : Reader) (text : List Char) : Option (Taken (List Json) text) :=
  match spaced element text with
  | none => none
  | some first =>
    match mark? ']' first.rest with
    | some closing => some ⟨[first.value], closing.rest, Nat.lt_trans closing.shorter first.shorter⟩
    | none =>
      match mark? ',' first.rest with
      | none => none
      | some comma =>
        have : comma.rest.length < text.length := Nat.lt_trans comma.shorter first.shorter
        (items? element comma.rest).map fun more =>
          ⟨first.value :: more.value, more.rest, Nat.lt_trans more.shorter this⟩
termination_by text.length

/-- A key, a colon and a value. -/
def member? (element : Reader) (text : List Char) : Option (Taken (String × Json) text) :=
  match Scan.string (skipBlanks text) with
  | .found key =>
    match mark? ':' key.rest with
    | none => none
    | some colon =>
      (spaced element colon.rest).map fun value =>
        ⟨(key.value, value.value), value.rest, by
          have h₁ := value.shorter
          have h₂ := colon.shorter
          have h₃ := key.shorter
          have h₄ := length_skipBlanks_le text
          omega⟩
  | _ => none

/-- Members up to a closing brace, of which there is at least one. -/
def members? (element : Reader) (text : List Char) :
    Option (Taken (List (String × Json)) text) :=
  match member? element text with
  | none => none
  | some first =>
    match mark? '}' first.rest with
    | some closing => some ⟨[first.value], closing.rest, Nat.lt_trans closing.shorter first.shorter⟩
    | none =>
      match mark? ',' first.rest with
      | none => none
      | some comma =>
        have : comma.rest.length < text.length := Nat.lt_trans comma.shorter first.shorter
        (members? element comma.rest).map fun more =>
          ⟨first.value :: more.value, more.rest, Nat.lt_trans more.shorter this⟩
termination_by text.length

/-- An array or an object over a reader for what it contains. -/
def container? (element : Reader) : Reader
  | '[' :: rest =>
    match mark? ']' rest with
    | some closing => some ⟨.arr [], closing.rest, Nat.lt_succ_of_lt closing.shorter⟩
    | none =>
      (items? element rest).map fun items =>
        ⟨.arr items.value, items.rest, Nat.lt_succ_of_lt items.shorter⟩
  | '{' :: rest =>
    match mark? '}' rest with
    | some closing => some ⟨.obj [], closing.rest, Nat.lt_succ_of_lt closing.shorter⟩
    | none =>
      (members? element rest).map fun members =>
        ⟨.obj (Entries.ofList members.value), members.rest, Nat.lt_succ_of_lt members.shorter⟩
  | _ => none

/-- A document that opens at most `nesting` containers inside each other. -/
def reader : (nesting : Nat) → Reader
  | 0 => scalar?
  | nesting + 1 => fun text => scalar? text <|> container? (reader nesting) text

/-- Containers that may be open at once. -/
def maxNesting : Nat := 127

/-- The document a text holds. -/
def read? (text : String) : Option Json :=
  match spaced (reader maxNesting) text.toList with
  | none => none
  | some taken => if skipBlanks taken.rest = [] then some taken.value else none

end PipeQuery.Json
