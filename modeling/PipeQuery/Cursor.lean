/-
A position in a text, moved by scanners.

A scanner that finds its piece moves the cursor behind it; one that finds nothing leaves the cursor
where it is.  A cursor may be set anywhere, also beyond the end, where nothing is left to read.
-/
import PipeQuery.Fault
import PipeQuery.Scan

namespace PipeQuery

universe u

/-- A text and an offset in its characters. -/
structure Cursor where
  source : List Char
  position : Nat
  deriving DecidableEq, Repr

namespace Cursor

variable {α : Type u}

def ofText (text : String) : Cursor :=
  ⟨text.toList, 0⟩

/-- What is left to read. -/
def rest (cursor : Cursor) : List Char :=
  cursor.source.drop cursor.position

def atEnd (cursor : Cursor) : Bool :=
  cursor.source.length ≤ cursor.position

def current? (cursor : Cursor) : Option Char :=
  cursor.source[cursor.position]?

def moveTo (cursor : Cursor) (position : Nat) : Cursor :=
  { cursor with position }

/-- Moves forward to where `rest` is all that is left. -/
def leave (cursor : Cursor) (rest : List Char) : Cursor :=
  cursor.moveTo (cursor.position + (cursor.rest.length - rest.length))

theorem leave_of_append {cursor : Cursor} {piece rest : List Char}
    (h : cursor.rest = piece ++ rest) :
    cursor.leave rest = cursor.moveTo (cursor.position + piece.length) := by
  rw [leave, h, List.length_append, Nat.add_sub_cancel]

theorem rest_moveTo_of_append {cursor : Cursor} {piece rest : List Char}
    (h : cursor.rest = piece ++ rest) :
    (cursor.moveTo (cursor.position + piece.length)).rest = rest := by
  rw [Cursor.rest, moveTo, ← List.drop_drop, ← Cursor.rest, h, List.drop_left]

def skipBlanks (cursor : Cursor) : Cursor :=
  cursor.leave (Scan.skipBlanks cursor.rest)

/-- Runs a scanner. -/
def take (scanner : (text : List Char) → Option (Taken α text)) (cursor : Cursor) :
    Option α × Cursor :=
  match scanner cursor.rest with
  | some taken => (some taken.value, cursor.leave taken.rest)
  | none => (none, cursor)

/-- Takes a string literal, if one is next.  Matching quotes around what is no text are a fault. -/
def takeString (cursor : Cursor) : Except SyntaxCause (Option String) × Cursor :=
  match Scan.string cursor.rest with
  | .found taken => (.ok (some taken.value), cursor.leave taken.rest)
  | .malformed => (.error .invalidString, cursor)
  | .absent => (.ok none, cursor)

def startsWith (piece : String) (cursor : Cursor) : Bool :=
  (Scan.dropPiece? piece.toList cursor.rest).isSome

/-- Takes a piece if it is next. -/
def eat (piece : String) (cursor : Cursor) : Bool × Cursor :=
  match Scan.dropPiece? piece.toList cursor.rest with
  | some rest => (true, cursor.leave rest)
  | none => (false, cursor)

end Cursor

end PipeQuery
