/-
Cutting a text: at characters of a kind, at every occurrence of a separator, or at two offsets.
-/
import PipeQuery.Scan

namespace PipeQuery

/-- The longest pieces of a text without characters that separate; none of them is empty. -/
def pieces (separates : Char → Bool) (text : List Char) : List (List Char) :=
  match h : text.dropWhile separates with
  | [] => []
  | c :: rest =>
    have shorter : (rest.dropWhile (!separates ·)).length < text.length := by
      have h₁ := (List.dropWhile_sublist separates (l := text)).length_le
      have h₂ := (List.dropWhile_sublist (fun c => !separates c) (l := rest)).length_le
      rw [h, List.length_cons] at h₁
      exact Nat.lt_of_le_of_lt h₂ h₁
    (c :: rest.takeWhile (!separates ·)) :: pieces separates (rest.dropWhile (!separates ·))
termination_by text.length

/-- Puts a character in front of the first part. -/
private def consFirst (c : Char) : List (List Char) → List (List Char)
  | [] => [[c]]
  | part :: parts => (c :: part) :: parts

/-- The parts of a text between the occurrences of a separator that starts with `first`, found from
left to right. -/
def splitAt (first : Char) (more : List Char) (text : List Char) : List (List Char) :=
  match h : Scan.dropPiece? (first :: more) text with
  | some rest =>
    have shorter : rest.length < text.length := by
      rw [Scan.dropPiece?_eq_some_iff.1 h, List.cons_append, List.length_cons, List.length_append]
      omega
    [] :: splitAt first more rest
  | none =>
    match text with
    | [] => [[]]
    | c :: rest => consFirst c (splitAt first more rest)
termination_by text.length

/-- The characters from offset `start` to offset `stop`.  A negative `start` is the beginning, a
negative `stop` counts from the end, and without one there is no end. -/
def slice (text : List Char) (start : Int) (stop : Option Int) : List Char :=
  let size := text.length
  let clamp (n : Int) : Nat := min n.toNat size
  let first := clamp start
  let last := match stop with
    | none => size
    | some n => clamp (if n < 0 then size + n else n)
  (text.take last).drop first

end PipeQuery
