/-
The size of the machines that recognise a pattern.

A machine reads bytes.  It has a state for each byte of a text, for each place that is looked at,
for each fork, and for each row of bytes that a set of characters needs; a repetition holds a copy
of its pattern for every time.  One machine reads forward and one backward.  States of a set that go
on alike are shared as far as a small table remembers them, so the order of building counts.

Building stops when a machine would become larger than is allowed.
-/
import PipeQuery.Number.Power
import PipeQuery.Pattern.Shape
import Std.Data.HashMap

namespace PipeQuery

open scoped Power

namespace Pattern

/-- How much of a machine is built. -/
structure Machine where
  states : Nat
  /-- The bytes of edges, for those states that may have many. -/
  edges : Nat
  deriving DecidableEq, Repr

namespace Machine

def empty : Machine :=
  ⟨0, 0⟩

/-- The bytes of a machine; a state takes 32. -/
def size (machine : Machine) : Nat :=
  32 * machine.states + machine.edges

/-- The most bytes of a machine. -/
def maxSize : Nat :=
  10 * 2 ^ (20 : Nat)

end Machine

/-- Goes on with a machine, unless it becomes too large. -/
abbrev Building := StateT Machine Option

namespace Building

/-- Gives edges of so many bytes to states that are there. -/
def grow (edges : Nat) : Building Unit := fun machine =>
  let machine := { machine with edges := machine.edges + edges }
  if machine.size ≤ Machine.maxSize then some ((), machine) else none

/-- Adds a state with edges of so many bytes; its number is yielded. -/
def add (edges : Nat) : Building Nat := fun machine =>
  match grow edges { machine with states := machine.states + 1 } with
  | some ((), larger) => some (machine.states, larger)
  | none => none

/-- Which way a machine reads. -/
inductive Direction where
  | forward
  | backward
  deriving DecidableEq, Repr

/-- How a part of a machine ends: in a state with one edge, or in a fork, whose every edge takes
four bytes. -/
inductive Exit where
  | plain
  | fork
  deriving DecidableEq, Repr

/-- Goes on from the end of a part. -/
def link : Exit → Building Unit
  | .plain => pure ()
  | .fork => grow 4

/-- States in a row. -/
def chain : (count : Nat) → Building Exit
  | 0 => return .plain
  | count + 1 => do
    let _ ← add 0
    chain count

/-- Copies of a part in a row. -/
def copies (part : Building Exit) : (count : Nat) → Building Exit
  | 0 => chain 1
  | 1 => part
  | count + 2 => do
    link (← part)
    copies part (count + 1)

/-- Copies of a part that may be left out, after something that ends in `exit`. -/
def optional (part : Building Exit) (exit : Exit) : (count : Nat) → Building Exit
  | 0 => do
    link exit
    return .plain
  | count + 1 => do
    let _ ← add 8
    link exit
    optional part (← part) count

/-! ## Sets of characters -/

/-- A table of states by what they are for; what falls on a taken place replaces what was there. -/
abbrev Remembering (κ : Type) := StateT (Std.HashMap UInt64 (κ × Nat)) Building

/-- A number for a row of numbers, below `places`. -/
def place (places : UInt64) (numbers : List Nat) : UInt64 :=
  numbers.foldl (fun h n => (h ^^^ n.toUInt64) * 1099511628211) 14695981039346656037 % places

/-- The state for a key, remembered or new. -/
def remember {κ : Type} [BEq κ] (place : UInt64) (key : κ) (edges : Nat) : Remembering κ Nat := do
  let new : Remembering κ Nat := do
    let state ← add edges
    modify (·.insert place (key, state))
    return state
  match (← get)[place]? with
  | some (other, state) => if other == key then return state else new
  | none => new

/-- An edge for some bytes to a state. -/
structure Transition where
  bytes : ByteRange
  target : Nat
  deriving DecidableEq, Repr

/-- A state that is not finished: its edges, the last first, and the bytes whose edge goes on to a
state that is not finished either. -/
structure Open where
  edges : List Transition
  bytes : ByteRange
  deriving Repr

/-- Finishes states that follow one another; the last edge leads to `target`. -/
def close (target : Nat) : List Open → Remembering (List Transition) Nat
  | [] => return target
  | state :: rest => do
    let next ← close target rest
    let edges := (⟨state.bytes, next⟩ :: state.edges).reverse
    let key := edges.flatMap fun edge => [edge.bytes.first, edge.bytes.last, edge.target]
    remember (place 10000 key) edges (8 * edges.length)

/-- Adds a row of bytes to unfinished states, as far as possible along the row before it. -/
def insert (target : Nat) : List Open → List ByteRange → Remembering (List Transition) (List Open)
  | state :: rest, bytes :: more => do
    if state.bytes = bytes then return state :: (← insert target rest more)
    else
      let next ← close target rest
      return ⟨⟨state.bytes, next⟩ :: state.edges, bytes⟩ :: more.map (⟨[], ·⟩)
  | _, bytes => return bytes.map (⟨[], ·⟩)

/-- The part of a forward machine for rows of bytes. -/
def forwardRows (rows : List (List ByteRange)) : Building Exit := do
  let target ← add 0
  let build : Remembering (List Transition) Nat := do
    let states ← rows.foldlM (insert target) []
    close target states
  let _ ← build.run ∅
  return .plain

/-- The part of a backward machine for rows of bytes. -/
def backwardRows (rows : List (List ByteRange)) : Building Exit := do
  let _ ← add 0
  let target ← add 0
  let build : Remembering (Nat × ByteRange) Unit := rows.forM fun row => do
    let _ ← row.foldlM (fun state bytes =>
      remember (place 1000 [state, bytes.first, bytes.last]) (state, bytes) 0) target
    grow 4
  let _ ← build.run ∅
  return .plain

/-- The part for a set: with ASCII alone one state decides. -/
def set (direction : Direction) (set : CharSet) : Building Exit := do
  if set.isAscii then
    let _ ← add 0
    let _ ← add (8 * set.ranges.length)
    return .plain
  else
    match direction with
    | .forward => forwardRows set.encodings
    | .backward => backwardRows set.encodings

/-! ## Texts as alternatives -/

/-- The bytes of a text as a machine reads them. -/
def textBytes (direction : Direction) (text : List Char) : List Nat :=
  let bytes := text.flatMap fun c => encode c.toNat
  match direction with
  | .forward => bytes
  | .backward => bytes.reverse

/-- The runs of texts between empty ones. -/
def runs (texts : List (List Nat)) : List (List (List Nat)) :=
  texts.foldr (fun text runs =>
    match text, runs with
    | [], runs => [] :: runs
    | text, [] => [[text]]
    | text, run :: runs => (text :: run) :: runs) [[]]

/-- The part for alternatives that are texts, each read byte by byte; those of a run that begin with
the same byte share its state. -/
def tree : (depth : Nat) → List (List Nat) → Building Unit
  | 0, _ => pure ()
  | depth + 1, texts => do
    let texts := match texts with
      | [] :: rest => [] :: rest.dropWhile List.isEmpty
      | texts => texts
    let runs := runs texts
    let full := runs.filter (!·.isEmpty)
    full.forM fun run => do
      let heads := (run.filterMap List.head?).eraseDups
      let _ ← add (if heads.length = 1 then 0 else 8 * heads.length)
      heads.forM fun head => do
        let tails := (run.filter (·.head? == some head)).map List.tail
        if tails.any (!·.isEmpty) then tree depth tails
    let _ ← add (4 * (runs.length - 1 + full.length))

/-! ## Patterns -/

def text? : Node → Option (List Char)
  | .literal text => some text
  | _ => none

/-- Joins an alternative to others, of which so many come before it.  The second one brings the
states in which they part and meet. -/
def join (before : Nat) (exit : Exit) : Building Unit := do
  grow 4
  link exit
  if before = 1 then
    let _ ← add 0
    let _ ← add 0

/-- A part any number of times; `filled` tells that it takes at least one byte. -/
def any (part : Building Exit) (filled : Bool) : Building Exit := do
  if filled then
    let _ ← add 4
    link (← part)
    return .fork
  else
    link (← part)
    let _ ← add 8
    let _ ← add 8
    chain 1

/-- The part for a pattern; `before` counts the alternatives of which it is the rest. -/
def pattern (direction : Direction) : Node → (before : Nat) → Building Exit
  | .empty, _ | .look _, _ => chain 1
  | .literal text, _ => chain (textBytes direction text).length
  | .chars characters _, _ => set direction characters
  | .group _ node, _ =>
    match direction with
    | .forward => do
      let _ ← add 0
      link (← pattern direction node 0)
      chain 1
    | .backward => pattern direction node 0
  | .seq first rest, _ =>
    match direction with
    | .forward => do
      link (← pattern direction first 0)
      pattern direction rest 0
    | .backward => do
      link (← pattern direction rest 0)
      pattern direction first 0
  | .choice first rest, before => do
    match if before = 0 then (first :: rest.branches).mapM text? else none with
    | some texts =>
      let _ ← add 0
      let texts := texts.map (textBytes direction)
      tree ((texts.map List.length).foldl max 0 + 1) texts
      return .plain
    | none =>
      join before (← pattern direction first 0)
      let exit ← pattern direction rest (before + 1)
      if rest.branches.length = 1 then join (before + 1) exit
      return .plain
  | .repetition node least most _, _ => do
    let part := pattern direction node 0
    match least, most with
    | 0, some 1 =>
      let _ ← add 8
      link (← part)
      chain 1
    | 0, none => any part (node.minSize.any (0 < ·))
    | 1, none =>
      link (← part)
      let _ ← add 4
      return .fork
    | least + 2, none =>
      link (← copies part (least + 1))
      link (← part)
      let _ ← add 4
      return .fork
    | least, some most =>
      let exit ← copies part least
      if least = most then return exit
      else
        let _ ← add 0
        optional part exit (most - least)

/-- A whole machine.  One that may start anywhere first takes any bytes. -/
def whole (direction : Direction) (node : Node) : Building Unit := do
  let anchored := match direction with
    | .forward => node.startsText
    | .backward => node.endsText
  if anchored then
    let _ ← add 0
  else
    let _ ← add 8
    let _ ← add 0
    let _ ← add 8
  link (← pattern direction (.group 0 node) 0)
  let _ ← add 0

end Building

/-- Whether neither machine of a pattern becomes too large. -/
def Node.fits (node : Node) : Bool :=
  ((Building.whole .forward node).run .empty).isSome &&
    ((Building.whole .backward node).run .empty).isSome

end Pattern

end PipeQuery
