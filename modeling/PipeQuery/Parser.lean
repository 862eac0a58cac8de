/-
Reading queries from text.

An expression is a ladder with one rung per operator group, tightest first, over a primary: a
parenthesised expression, a property path, a call, an object, an array or a literal.  Productions
take from the front of the text and say what is left, or stop at a place for a cause.  The nesting
budget falls with every expression inside an expression; every repetition falls with the text.
-/
import PipeQuery.Fault
import PipeQuery.Scan

namespace PipeQuery

namespace Parser

open Scan (skipBlanks length_skipBlanks_le)

universe u

/-- A cause, and the text from the place on where reading stopped. -/
structure Stop where
  cause : SyntaxCause
  rest : List Char

/-- The fault of stopping inside `text`. -/
def Stop.toFault (stop : Stop) (text : String) : SyntaxFault :=
  ⟨stop.cause, text.toList.length - stop.rest.length, text⟩

/-- A tree, and what the operators around it need to know. -/
structure Operand where
  query : Query
  /-- At least the calls on any path of the tree. -/
  height : Nat
  /-- Written in parentheses as a whole, which keeps operators from joining it. -/
  parenthesized : Bool := false

namespace Operand

/-- The greatest height among `operands`. -/
def tallest (operands : List Operand) : Nat :=
  (operands.map (·.height)).foldl max 0

/-- A call, one level above its arguments. -/
def call (name : String) (args : List Operand) : Operand :=
  { query := .call name (args.map (·.query)), height := 1 + tallest args }

/-- An object constructor; of values at one key the last counts, but all count for the height. -/
def object (entries : List (String × Operand)) : Operand :=
  { query := .object (.ofList (entries.map fun entry => (entry.1, entry.2.query)))
    height := tallest (entries.map (·.2)) + 1 }

/-- Whether `name` continues a chain of itself: the left operand is its own call, bare. -/
def isChain (name : String) (left : Operand) : Bool :=
  !left.parenthesized && left.query.callName? == some name

/-- What an infix use of `name` makes of its operands. -/
def join (table : OperatorTable) (name : String) (left right : Operand) : Operand :=
  match left.query with
  | .call head args =>
    if left.isChain name && table.isVararg name then
      { query := .call head (args ++ [right.query])
        height := max left.height (right.height + 1) }
    else call name [left, right]
  | _ => call name [left, right]

end Operand

/-- A way to take something from the front of a text. -/
abbrev Production (α : Type) := (text : List Char) → Except Stop (Taken α text)

/-- Takes `c`, which must be next. -/
def expect (c : Char) : Production Unit := fun text =>
  match Scan.char? c text with
  | some taken => .ok taken
  | none => .error ⟨.charExpected c, text⟩

/-- Refuses a tree of more calls than the limit. -/
def bounded (limit : Nat) {text : List Char} (taken : Taken Operand text) :
    Except Stop (Taken Operand text) :=
  if limit < taken.value.height then .error ⟨.tooDeep limit, taken.rest⟩ else .ok taken

/-- A quoted key, a name, or a whole number kept as its digits. -/
def key (expected : SyntaxCause) : Production String := fun text =>
  match Scan.string text with
  | .found taken => .ok taken
  | .malformed => .error ⟨.invalidString, text⟩
  | .absent =>
    match Scan.name? text with
    | some taken => .ok taken
    | none =>
      match Scan.whole? text with
      | some taken => .ok (taken.map String.ofList)
      | none => .error ⟨expected, text⟩

/-- The keys of a property path, after its first point. -/
def segments (text : List Char) : Except Stop (Taken (List String) text) :=
  match key .propertyExpected text with
  | .error stop => .error stop
  | .ok first =>
    match Scan.char? '.' first.rest with
    | none => .ok ⟨[first.value], first.rest, first.shorter⟩
    | some point =>
      have shorter : point.rest.length < text.length := Nat.lt_trans point.shorter first.shorter
      match segments point.rest with
      | .error stop => .error stop
      | .ok more =>
        .ok ⟨first.value :: more.value, more.rest, Nat.lt_trans more.shorter shorter⟩
termination_by text.length

/-- A string, a number or a keyword. -/
def literal : Production Operand := fun text =>
  let constant (value : Value) : Operand := { query := .literal value, height := 0 }
  match Scan.string text with
  | .found taken => .ok (taken.map fun s => constant (.str s))
  | .malformed => .error ⟨.invalidString, text⟩
  | .absent =>
    match Scan.numeral? text with
    | some taken => .ok (taken.map fun numeral => constant (.ofNumeral numeral))
    | none =>
      match Scan.keyword? text with
      | some taken =>
        .ok (taken.map fun
          | some b => constant (.bool b)
          | none => constant .null)
      | none => .error ⟨.valueExpected, text⟩

section Nested

variable (limit : Nat) (expression : Production Operand)

/-- The arguments of a call after its first, and the closing parenthesis. -/
def moreArguments (text : List Char) : Except Stop (Taken (List Operand) text) :=
  if text.isEmpty then .error ⟨.charExpected ')', text⟩
  else
    match Scan.char? ')' text with
    | some closing => .ok ⟨[], closing.rest, closing.shorter⟩
    | none =>
      match expect ',' (skipBlanks text) with
      | .error stop => .error stop
      | .ok comma =>
        match expression comma.rest with
        | .error stop => .error stop
        | .ok arg =>
          have shorter : arg.rest.length < text.length :=
            Nat.lt_of_lt_of_le (Nat.lt_trans arg.shorter comma.shorter) (length_skipBlanks_le text)
          match moreArguments arg.rest with
          | .error stop => .error stop
          | .ok more => .ok ⟨arg.value :: more.value, more.rest, Nat.lt_trans more.shorter shorter⟩
termination_by text.length

/-- The arguments of a call, and the closing parenthesis. -/
def arguments : Production (List Operand) := fun text =>
  match Scan.char? ')' text with
  | some closing => .ok ⟨[], closing.rest, closing.shorter⟩
  | none =>
    match expression text with
    | .error stop => .error stop
    | .ok arg =>
      match moreArguments expression arg.rest with
      | .error stop => .error stop
      | .ok more => .ok ⟨arg.value :: more.value, more.rest, Nat.lt_trans more.shorter arg.shorter⟩

/-- A call, if a name and a parenthesis are next. -/
def call? (text : List Char) : Option (Except Stop (Taken Operand text)) :=
  match Scan.name? text with
  | none => none
  | some name =>
    match Scan.char? '(' (skipBlanks name.rest) with
    | none => none
    | some opening => some <|
      match arguments expression (skipBlanks opening.rest) with
      | .error stop => .error stop
      | .ok args =>
        bounded limit ⟨.call name.value args.value, args.rest, by
          have h₁ := args.shorter
          have h₂ := length_skipBlanks_le opening.rest
          have h₃ := opening.shorter
          have h₄ := length_skipBlanks_le name.rest
          have h₅ := name.shorter
          omega⟩

/-- A key, a colon and a value. -/
def entry : Production (String × Operand) := fun text =>
  match key .keyExpected text with
  | .error stop => .error stop
  | .ok name =>
    match expect ':' (skipBlanks name.rest) with
    | .error stop => .error stop
    | .ok colon =>
      match expression colon.rest with
      | .error stop => .error stop
      | .ok value =>
        .ok ⟨(name.value, value.value), value.rest, by
          have h₁ := value.shorter
          have h₂ := colon.shorter
          have h₃ := length_skipBlanks_le name.rest
          have h₄ := name.shorter
          omega⟩

/-- What follows an item of a bracketed list: the closing bracket, or a comma and more items. -/
def moreItems {α : Type} (closing : Char) (item : Production α) (text : List Char) :
    Except Stop (Taken (List α) text) :=
  if text.isEmpty then .error ⟨.charExpected closing, text⟩
  else
    match Scan.char? closing text with
    | some last => .ok ⟨[], last.rest, last.shorter⟩
    | none =>
      match expect ',' text with
      | .error stop => .error stop
      | .ok comma =>
        match item (skipBlanks comma.rest) with
        | .error stop => .error stop
        | .ok first =>
          have shorter : first.rest.length < text.length :=
            Nat.lt_trans (Nat.lt_of_lt_of_le first.shorter (length_skipBlanks_le comma.rest))
              comma.shorter
          match moreItems closing item first.rest with
          | .error stop => .error stop
          | .ok more =>
            .ok ⟨first.value :: more.value, more.rest, Nat.lt_trans more.shorter shorter⟩
termination_by text.length

/-- Items up to a closing bracket. -/
def items {α : Type} (closing : Char) (item : Production α) : Production (List α) := fun text =>
  if text.isEmpty then .error ⟨.charExpected closing, text⟩
  else
    match Scan.char? closing text with
    | some last => .ok ⟨[], last.rest, last.shorter⟩
    | none =>
      match item text with
      | .error stop => .error stop
      | .ok first =>
        match moreItems closing item first.rest with
        | .error stop => .error stop
        | .ok more =>
          .ok ⟨first.value :: more.value, more.rest, Nat.lt_trans more.shorter first.shorter⟩

/-- An object, after its opening brace. -/
def object : Production Operand := fun text =>
  match items '}' (entry expression) (skipBlanks text) with
  | .error stop => .error stop
  | .ok entries =>
    bounded limit ((entries.map Operand.object).widen (length_skipBlanks_le text))

/-- An array, after its opening bracket. -/
def array : Production Operand := fun text =>
  match items ']' expression (skipBlanks text) with
  | .error stop => .error stop
  | .ok operands =>
    bounded limit ((operands.map (Operand.call "array")).widen (length_skipBlanks_le text))

/-- A parenthesised expression, after its opening parenthesis. -/
def parenthesis : Production Operand := fun text =>
  match expression text with
  | .error stop => .error stop
  | .ok inner =>
    match expect ')' inner.rest with
    | .error stop => .error stop
    | .ok closing =>
      .ok ⟨{ inner.value with parenthesized := true }, closing.rest,
        Nat.lt_trans closing.shorter inner.shorter⟩

/-- A property path, after its first point. -/
def path : Production Operand := fun text =>
  match segments text with
  | .error stop => .error stop
  | .ok keys => .ok (keys.map fun keys => { query := .get keys, height := 1 })

/-- The tightest expression, with no blanks before it. -/
def tightest : Production Operand := fun text =>
  match Scan.char? '(' text with
  | some opening =>
    (parenthesis expression opening.rest).map (·.widen (Nat.le_of_lt opening.shorter))
  | none =>
    match Scan.char? '.' text with
    | some point => (path point.rest).map (·.widen (Nat.le_of_lt point.shorter))
    | none =>
      match call? limit expression text with
      | some result => result
      | none =>
        match Scan.char? '{' text with
        | some opening =>
          (object limit expression opening.rest).map (·.widen (Nat.le_of_lt opening.shorter))
        | none =>
          match Scan.char? '[' text with
          | some opening =>
            (array limit expression opening.rest).map (·.widen (Nat.le_of_lt opening.shorter))
          | none => literal text

/-- The tightest expression after blanks. -/
def primary : Production Operand := fun text =>
  (tightest limit expression (skipBlanks text)).map (·.widen (length_skipBlanks_le text))

end Nested

/-- The operators of a group, the longest symbols first, so that no symbol hides a longer one. -/
def candidates (group : OperatorGroup) : OperatorGroup :=
  group.mergeSort fun a b => b.2.length ≤ a.2.length

/-- The first operator whose symbol is next, and the text after the symbol and blanks. -/
def operator? (operators : OperatorGroup) (text : List Char) :
    Option (String × { rest : List Char // rest.length ≤ text.length }) :=
  operators.findSome? fun (name, symbol) =>
    match h : Scan.dropPiece? symbol.toList text with
    | none => none
    | some rest =>
      some (name, ⟨skipBlanks rest,
        Nat.le_trans (length_skipBlanks_le rest) (Scan.length_dropPiece?_le h)⟩)

section Ladder

variable (table : OperatorTable) (limit : Nat) (operators : OperatorGroup)
  (tighter : Production Operand)

/-- Joins what follows to `left`, as long as an operator of the group comes next.  An operator that
must not be chained is left where it is. -/
def chain {text : List Char} (left : Taken Operand text) : Except Stop (Taken Operand text) :=
  let here := skipBlanks left.rest
  let finished : Taken Operand text :=
    ⟨left.value, here, Nat.lt_of_le_of_lt (length_skipBlanks_le left.rest) left.shorter⟩
  match operator? operators here with
  | none => .ok finished
  | some (name, after) =>
    if left.value.isChain name && !table.isVararg name && !table.isLeftAssociative name then
      .ok finished
    else
      match tighter after.val with
      | .error stop => .error stop
      | .ok right =>
        have shorter : right.rest.length < left.rest.length :=
          Nat.lt_of_lt_of_le right.shorter
            (Nat.le_trans after.property (length_skipBlanks_le left.rest))
        let joined := Operand.join table name left.value right.value
        if limit < joined.height then .error ⟨.tooDeep limit, right.rest⟩
        else chain ⟨joined, right.rest, Nat.lt_trans shorter left.shorter⟩
termination_by left.rest.length

/-- One rung: operands of the tighter rungs, joined by operators of the group. -/
def rung : Production Operand := fun text =>
  match tighter text with
  | .error stop => .error stop
  | .ok left => chain table limit operators tighter left

end Ladder

/-- A production at the loosest rung, over a primary. -/
def ladder (table : OperatorTable) (limit : Nat) (base : Production Operand) :
    Production Operand :=
  table.groups.foldl (fun tighter group => rung table limit (candidates group) tighter) base

/-- An expression, with `budget` further expressions allowed inside each other. -/
def expression (table : OperatorTable) (limit : Nat) : (budget : Nat) → Production Operand
  | 0 => fun text => .error ⟨.tooDeep limit, text⟩
  | budget + 1 => ladder table limit (primary limit (expression table limit budget))

end Parser

/-- Nesting allowed by default, of expressions as of calls. -/
def defaultDepth : Nat := 128

/-- The query a text holds. -/
def parse (table : OperatorTable) (limit : Nat) (text : String) : Except SyntaxFault Query :=
  match Parser.expression table limit limit text.toList with
  | .error stop => .error (stop.toFault text)
  | .ok taken =>
    match Scan.skipBlanks taken.rest with
    | [] => .ok taken.value.query
    | rest => .error (Parser.Stop.toFault ⟨.unexpectedPart (String.ofList rest), rest⟩ text)

end PipeQuery
