/-
Patterns put together from parts, in one shape for all ways of writing them.

A row holds no empty part, no row, and no two texts side by side.  Alternatives hold no
alternatives, are one set if all of them are single characters or all are sets, and do not all begin
with the same part of a row.
-/
import PipeQuery.Pattern.Node
import PipeQuery.Unicode.Encoding

namespace PipeQuery

namespace Pattern

namespace Node

/-! ## Lengths -/

/-- The fewest bytes of a match, if there can be one. -/
def minSize : Node → Option Nat
  | empty | look _ => some 0
  | literal text => some (text.map fun c => encodedSize c.toNat).sum
  | chars set _ => set.ranges.head?.map fun range => encodedSize range.first
  | group _ node => node.minSize
  | seq first rest => return (← first.minSize) + (← rest.minSize)
  | choice first rest => return min (← first.minSize) (← rest.minSize)
  | repetition node least _ _ => return (← node.minSize) * least

/-- The most bytes of a match, if there can be one and matches are bounded. -/
def maxSize : Node → Option Nat
  | empty | look _ => some 0
  | literal text => some (text.map fun c => encodedSize c.toNat).sum
  | chars set _ => set.ranges.getLast?.map fun range => encodedSize range.last
  | group _ node => node.maxSize
  | seq first rest => return (← first.maxSize) + (← rest.maxSize)
  | choice first rest => return max (← first.maxSize) (← rest.maxSize)
  | repetition node _ most _ => return (← node.maxSize) * (← most)

/-! ## Rows -/

/-- A character of a set; a single one is a text. -/
def oneOf (set : CharSet) (unicode : Bool) : Node :=
  match set.ranges with
  | [] => chars .empty false
  | [range] => if range.first = range.last then literal [.ofNat range.first] else chars set unicode
  | _ => chars set unicode

/-- The parts of a row; any other pattern is a part alone, and the empty one has none. -/
def parts : Node → List Node
  | empty => []
  | seq first rest => first :: rest.parts
  | node => [node]

/-- Puts a part before others; texts side by side become one. -/
def prepend (node : Node) (nodes : List Node) : List Node :=
  match node, nodes with
  | literal text, literal more :: rest => literal (text ++ more) :: rest
  | node, nodes => node :: nodes

/-- Patterns in a row. -/
def row (nodes : List Node) : Node :=
  match ((nodes.flatMap parts).foldr prepend []).reverse with
  | [] => empty
  | last :: before => before.foldl (fun rest node => seq node rest) last

/-- A pattern a number of times.  What matches the empty text alone does so once or not at all. -/
def repeated (node : Node) (least : Nat) (most : Option Nat) (greedy : Bool) : Node :=
  let once := node.maxSize == some 0
  let least := if once then min least 1 else least
  let most := if once then some ((most.map (min · 1)).getD 1) else most
  if least = 0 ∧ most = some 0 then empty
  else if least = 1 ∧ most = some 1 then node
  else repetition node least most greedy

/-! ## Alternatives -/

/-- The alternatives of a pattern; one that is no choice is alone. -/
def branches : Node → List Node
  | choice first rest => first :: rest.branches
  | node => [node]

/-- The one character of a text that has no more. -/
def character? : Node → Option Char
  | literal [c] => some c
  | _ => none

def set? : Node → Option CharSet
  | chars set _ => some set
  | _ => none

/-- The set of alternatives that all are single characters, or all are sets. -/
def union? (nodes : List Node) : Option CharSet :=
  match nodes.mapM character? with
  | some characters => some (.unions (characters.map .single))
  | none => (nodes.mapM set?).map .unions

def isRow : Node → Bool
  | seq _ _ => true
  | _ => false

/-- What two lists both begin with. -/
def common : List Node → List Node → List Node
  | a :: as, b :: bs => if a = b then a :: common as bs else []
  | _, _ => []

/-- The parts with which every one of several rows begins. -/
def shared : List Node → List Node
  | [] => []
  | first :: rest =>
    if (first :: rest).all isRow then
      rest.foldl (fun parts node => common parts node.parts) first.parts
    else []

/-- How many patterns make up this one. -/
def count : Node → Nat
  | group _ node | repetition node _ _ _ => node.count + 1
  | seq first rest | choice first rest => first.count + rest.count + 1
  | _ => 1

/-- Alternatives.  What all of them begin with stands before the choice between their ends; `fuel`
bounds how often that can happen. -/
def chooseWithin (fuel : Nat) (nodes : List Node) : Node :=
  let nodes := nodes.flatMap branches
  match nodes.reverse with
  | [] => oneOf .empty false
  | [node] => node
  | last :: before =>
    match union? nodes, fuel, shared nodes with
    | some set, _, _ => oneOf set true
    | none, fuel + 1, first :: more =>
      let ends := nodes.map fun node => row (node.parts.drop (more.length + 1))
      row (first :: more ++ [chooseWithin fuel ends])
    | none, _, _ => before.foldl (fun rest node => choice node rest) last

/-- One of several patterns. -/
def alternatives (nodes : List Node) : Node :=
  chooseWithin ((nodes.map count).foldl (· + ·) 0) nodes

/-! ## Anchors -/

/-- Whether every match starts where the text does. -/
def startsText : Node → Bool
  | look .textStart => true
  | group _ node => node.startsText
  | seq first rest => first.startsText || (first.maxSize == some 0 && rest.startsText)
  | choice first rest => first.startsText && rest.startsText
  | repetition node least _ _ => 0 < least && node.startsText
  | _ => false

/-- Whether every match ends where the text does. -/
def endsText : Node → Bool
  | look .textEnd => true
  | group _ node => node.endsText
  | seq first rest => rest.endsText || (rest.maxSize == some 0 && first.endsText)
  | choice first rest => first.endsText && rest.endsText
  | repetition node least _ _ => 0 < least && node.endsText
  | _ => false

end Node

end Pattern

end PipeQuery
