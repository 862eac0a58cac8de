/-
Patterns as trees, and the texts they match.

A tree moves sets of positions: from where a match may have got to, to where it may get from there.
Which of several matches comes first does not matter, so positions are kept without repeats, and a
repetition stops as soon as it reaches nothing new.
-/
import PipeQuery.Unicode.CharSet

namespace PipeQuery

namespace Pattern

/-- A place at the edge of a word, or away from it. -/
inductive Edge where
  | boundary
  | interior
  | start
  | stop
  /-- Not after a word character. -/
  | startHalf
  /-- Not before a word character. -/
  | stopHalf
  deriving DecidableEq, Repr

/-- What a position can be asked, which takes no character. -/
inductive Look where
  | textStart
  | textEnd
  /-- After a line feed; with `crlf` a carriage return ends lines too, and the two together once. -/
  | lineStart (crlf : Bool)
  | lineEnd (crlf : Bool)
  | word (edge : Edge) (letters : CharSet)
  deriving DecidableEq, Repr

/-- Whether it holds between two characters, one or both of which the text may not have. -/
def Look.holds (look : Look) (before after : Option Char) : Bool :=
  match look with
  | textStart => before.isNone
  | textEnd => after.isNone
  | lineStart false => before.all (· == '\n')
  | lineStart true => before.all fun c => c == '\n' || (c == '\r' && after != some '\n')
  | lineEnd false => after.all (· == '\n')
  | lineEnd true => after.all fun c => c == '\r' || (c == '\n' && before != some '\r')
  | word edge letters =>
    let left := before.any letters.contains
    let right := after.any letters.contains
    match edge with
    | .boundary => left != right
    | .interior => left == right
    | .start => !left && right
    | .stop => left && !right
    | .startHalf => !left
    | .stopHalf => !right

/-- A pattern.  In a row and among alternatives, what comes second stands for all the rest. -/
inductive Node where
  /-- Matches the empty text. -/
  | empty
  | literal (text : List Char)
  /-- A character of a set; without Unicode the set is one of bytes. -/
  | chars (set : CharSet) (unicode : Bool)
  | look (question : Look)
  /-- A group that is counted, by its number. -/
  | group (number : Nat) (node : Node)
  | seq (first rest : Node)
  | choice (first rest : Node)
  /-- At least `least` times, and without `most` any number of times; a greedy one prefers more. -/
  | repetition (node : Node) (least : Nat) (most : Option Nat) (greedy : Bool)
  deriving DecidableEq, Repr

/-- The candidates that are not seen yet, each once. -/
def fresh (seen : List Nat) : List Nat → List Nat
  | [] => []
  | i :: rest => if seen.contains i then fresh seen rest else i :: fresh (i :: seen) rest

/-- What `step` yields when it is taken `count` times. -/
def times (step : List Nat → List Nat) : (count : Nat) → List Nat → List Nat
  | 0, starts => starts
  | count + 1, starts => times step count (step starts)

/-- Adds to `seen` what at most `count` steps reach from the frontier. -/
def upTo (step : List Nat → List Nat) : (count : Nat) → (frontier seen : List Nat) → List Nat
  | 0, _, seen => seen
  | count + 1, frontier, seen =>
    match fresh seen (step frontier) with
    | [] => seen
    | new => upTo step count new (new ++ seen)

namespace Node

/-- Whether a text has the characters from position `i` on. -/
def continuesWith (text : Array Char) (i : Nat) : List Char → Bool
  | [] => true
  | c :: rest => text[i]? == some c && continuesWith text (i + 1) rest

/-- Where matches that start at `starts` end.  More rounds than the text has positions reach nothing
that fewer do not, for a round that takes no character can be left out or taken again. -/
def ends (text : Array Char) : Node → (starts : List Nat) → List Nat
  | empty, starts => starts
  | literal piece, starts =>
    (starts.filter (continuesWith text · piece)).map (· + piece.length)
  | chars set _, starts =>
    starts.filterMap fun i => if text[i]?.any set.contains then some (i + 1) else none
  | look question, starts =>
    starts.filter fun i => question.holds (if i = 0 then none else text[i - 1]?) text[i]?
  | group _ node, starts => node.ends text starts
  | seq first rest, starts => rest.ends text (first.ends text starts)
  | choice first rest, starts => fresh [] (first.ends text starts ++ rest.ends text starts)
  | repetition node least most _, starts =>
    let rounds := text.size + 1
    let reached := times (node.ends text) (min least rounds) starts
    let further := match most with
      | none => rounds
      | some most => min (most - least) rounds
    upTo (node.ends text) further reached reached

/-- Whether a match starts where the text does. -/
def matchesStart (node : Node) (text : String) : Bool :=
  !(node.ends text.toList.toArray [0]).isEmpty

end Node

end Pattern

end PipeQuery
