/-
The recursive descent over a cursor, with nothing said about why it ends.

Productions move one cursor forward, and set it back where what they took is not theirs.  Loops and
recursions ask for a further call, and calls inside each other are counted only: a run that needs
more of them than it is given has no result, so that it ends is a statement about the descent and no
part of its definition.  The state also records each time that the cursor is set back, which nothing
reads.
-/
import PipeQuery.Cursor
import PipeQuery.Parser

namespace PipeQuery

namespace Descent

open PipeQuery.Parser (Operand candidates)

variable {α : Type}

/-- The cursor set back by a production that started at `start`. -/
structure Rollback where
  start : Nat
  source : Nat
  target : Nat
  deriving DecidableEq, Repr

/-- A cursor, and how it was set back so far. -/
structure State where
  cursor : Cursor
  rollbacks : List Rollback := []
  deriving DecidableEq, Repr

/-- What moves the cursor and gives a result or a fault; `none` if it has not ended. -/
abbrev Action := ExceptT SyntaxCause (StateT State Option)

def unended : Action α := fun _ => none

def look (view : Cursor → α) : Action α :=
  return view (← get).cursor

def move (step : Cursor → α × Cursor) : Action α :=
  modifyGet fun state => ((step state.cursor).1, { state with cursor := (step state.cursor).2 })

/-- Sets the cursor to a position, on behalf of a production that started at `start`. -/
def rollback (start target : Nat) : Action Unit :=
  modify fun state =>
    ⟨state.cursor.moveTo target, state.rollbacks ++ [⟨start, state.cursor.position, target⟩]⟩

/-! ## Tokens -/

def position : Action Nat :=
  look Cursor.position

def isNext (c : Char) : Action Bool :=
  look fun cursor => cursor.current? == some c

/-- Whether nothing comes next, or the character that closes a list. -/
def isOver (closing : Char) : Action Bool :=
  look fun cursor => cursor.atEnd || cursor.current? == some closing

def skipBlanks : Action Unit :=
  move fun cursor => ((), cursor.skipBlanks)

def take (scanner : (text : List Char) → Option (Taken α text)) : Action (Option α) :=
  move (Cursor.take scanner)

def eat (c : Char) : Action Bool :=
  return (← take (Scan.char? c)).isSome

def expect (c : Char) : Action Unit := do
  if ← eat c then return ()
  else throw (.charExpected c)

def string? : Action (Option String) := do
  match ← move Cursor.takeString with
  | .ok found => return found
  | .error cause => throw cause

/-- The first operator whose symbol is next, taken with the blanks after it. -/
def operator? : OperatorGroup → Action (Option String)
  | [] => return none
  | (name, symbol) :: more => do
    if ← move (Cursor.eat symbol) then
      skipBlanks
      return some name
    else operator? more

def key (expected : SyntaxCause) : Action String := do
  match ← string? with
  | some text => return text
  | none =>
    match ← take Scan.name? with
    | some name => return name
    | none =>
      match ← take Scan.whole? with
      | some digits => return String.ofList digits
      | none => throw expected

def bounded (limit : Nat) (operand : Operand) : Action Operand :=
  if limit < operand.height then throw (.tooDeep limit)
  else return operand

/-! ## Productions -/

/-- What a production can ask for: an expression, the operands of one rung of operators, or one more
turn of a loop that has taken something. -/
inductive Call : Type → Type where
  | expression (budget : Nat) : Call Operand
  | rung (budget level : Nat) : Call Operand
  | chain (budget level start : Nat) (left : Operand) : Call Operand
  | keys (taken : List String) : Call (List String)
  | arguments (budget : Nat) (taken : List Operand) : Call (List Operand)
  | entries (budget : Nat) (first : Bool) (taken : List (String × Operand)) :
    Call (List (String × Operand))
  | items (budget : Nat) (first : Bool) (taken : List Operand) : Call (List Operand)

/-- An answer to every call. -/
abbrev Calls := ⦃α : Type⦄ → Call α → Action α

/-- Takes a closing bracket, behind which a list is complete, or goes on with the list. -/
def closeOr (closing : Char) (taken : α) (more : Action α) : Action α := do
  if ← isOver closing then
    expect closing
    return taken
  else more

/-- What separates an item of a bracketed list from the one before it. -/
def separator (first : Bool) : Action Unit := do
  if first then return ()
  else
    expect ','
    skipBlanks

def literal : Action Operand := do
  let constant (value : Value) : Operand := { query := .literal value, height := 0 }
  match ← string? with
  | some text => return constant (.str text)
  | none =>
    match ← take Scan.numeral? with
    | some numeral => return constant (.ofNumeral numeral)
    | none =>
      match ← take Scan.keyword? with
      | some (some b) => return constant (.bool b)
      | some none => return constant .null
      | none => throw .valueExpected

section Productions

variable (table : OperatorTable) (limit : Nat) (ask : Calls) (budget : Nat)

/-- The keys of a property path behind those that are taken. -/
def keys (taken : List String) : Action (List String) := do
  if ← eat '.' then
    let next ← key .propertyExpected
    ask (.keys (taken ++ [next]))
  else return taken

/-- The items of an array behind those that are taken, and the closing bracket. -/
def items (first : Bool) (taken : List Operand) : Action (List Operand) :=
  closeOr ']' taken do
    separator first
    let next ← ask (.expression budget)
    ask (.items budget false (taken ++ [next]))

def array : Action Operand := do
  if ← eat '[' then
    skipBlanks
    let taken ← ask (.items budget true [])
    bounded limit (.call "array" taken)
  else literal

def entry : Action (String × Operand) := do
  let name ← key .keyExpected
  skipBlanks
  expect ':'
  let value ← ask (.expression budget)
  return (name, value)

/-- The entries of an object behind those that are taken, and the closing brace. -/
def entries (first : Bool) (taken : List (String × Operand)) : Action (List (String × Operand)) :=
  closeOr '}' taken do
    separator first
    let next ← entry ask budget
    ask (.entries budget false (taken ++ [next]))

def object : Action Operand := do
  if ← eat '{' then
    skipBlanks
    let taken ← ask (.entries budget true [])
    bounded limit (.object taken)
  else array limit ask budget

/-- The arguments of a call behind those that are taken, and the closing parenthesis. -/
def moreArguments (taken : List Operand) : Action (List Operand) :=
  closeOr ')' taken do
    skipBlanks
    expect ','
    let next ← ask (.expression budget)
    ask (.arguments budget (taken ++ [next]))

def arguments : Action (List Operand) := do
  if ← isNext ')' then ask (.arguments budget [])
  else
    let first ← ask (.expression budget)
    ask (.arguments budget [first])

/-- No call: a name is given back. -/
def stray (start : Nat) : Action Operand := do
  rollback start start
  object limit ask budget

def call : Action Operand := do
  let start ← position
  match ← take Scan.name? with
  | some name =>
    skipBlanks
    if ← eat '(' then
      skipBlanks
      let args ← arguments ask budget
      bounded limit (.call name args)
    else stray limit ask budget start
  | none => stray limit ask budget start

def property : Action Operand := do
  if ← isNext '.' then
    let path ← ask (.keys [])
    return { query := .get path, height := 1 }
  else call limit ask budget

def parenthesis : Action Operand := do
  skipBlanks
  if ← eat '(' then
    let inner ← ask (.expression budget)
    expect ')'
    return { inner with parenthesized := true }
  else property limit ask budget

/-- The operators of a group after `left`.  One that must not be chained is given back. -/
def chain (level start : Nat) (left : Operand) : Action Operand := do
  skipBlanks
  let here ← position
  match ← operator? (candidates (table.groups.getD level [])) with
  | none => return left
  | some name =>
    if left.isChain name && !table.isVararg name && !table.isLeftAssociative name then
      rollback start here
      return left
    else
      let right ← ask (.rung budget level)
      let joined ← bounded limit (.join table name left right)
      ask (.chain budget level start joined)

/-- An expression of operators from the first `level` groups. -/
def rung : (level : Nat) → Action Operand
  | 0 => parenthesis limit ask budget
  | level + 1 => do
    let start ← position
    let left ← ask (.rung budget level)
    ask (.chain budget level start left)

/-- An expression, with `budget` expressions allowed inside each other. -/
def expression : (budget : Nat) → Action Operand
  | 0 => throw (.tooDeep limit)
  | budget + 1 => ask (.rung budget table.size)

/-- The answer to a call, made of answers to further calls. -/
def answer : Call α → Action α
  | .expression budget => expression table limit ask budget
  | .rung budget level => rung limit ask budget level
  | .chain budget level start left => chain table limit ask budget level start left
  | .keys taken => keys ask taken
  | .arguments budget taken => moreArguments ask budget taken
  | .entries budget first taken => entries ask budget first taken
  | .items budget first taken => items ask budget first taken

/-- The answer to a call where at most `fuel` calls may be inside each other. -/
def run : (fuel : Nat) → Calls
  | 0, _, _ => unended
  | fuel + 1, _, call => answer table limit (run fuel) call

/-- A whole text. -/
def query : Action Query := do
  let operand ← ask (.expression limit)
  skipBlanks
  let rest ← look Cursor.rest
  if rest.isEmpty then return operand.query
  else throw (.unexpectedPart (String.ofList rest))

end Productions

/-- The productions that give an operand. -/
inductive Rule (table : OperatorTable) where
  | expression
  | rung (level : Nat) (h : level ≤ table.size)
  | parenthesis
  | property
  | call
  | object
  | array
  | literal

def Rule.run {table : OperatorTable} (limit budget : Nat) (rule : Rule table) (fuel : Nat) :
    Action Operand :=
  let ask := Descent.run table limit fuel
  match rule with
  | expression => ask (.expression budget)
  | rung level _ => ask (.rung budget level)
  | parenthesis => Descent.parenthesis limit ask budget
  | property => Descent.property limit ask budget
  | call => Descent.call limit ask budget
  | object => Descent.object limit ask budget
  | array => Descent.array limit ask budget
  | literal => Descent.literal

/-- The query a text holds, unless that needs more calls inside each other. -/
def parse? (table : OperatorTable) (limit fuel : Nat) (text : String) :
    Option (Except SyntaxFault Query) :=
  (query limit (run table limit fuel) { cursor := Cursor.ofText text }).map fun (result, state) =>
    result.mapError fun cause => ⟨cause, state.cursor.position, text⟩

end Descent

end PipeQuery
