/-
Classes in brackets: characters, ranges and other classes, taken together or combined by
intersection `&&`, difference `--` and symmetric difference `~~`.

Open brackets are kept on a stack; every move takes at least one character, so reading ends.
-/
import PipeQuery.Pattern.Escape

namespace PipeQuery

namespace Pattern

open Reading

/-- A set, and how deeply the class is nested that writes it. -/
structure Item where
  set : CharSet
  height : Nat := 0
  deriving Repr

inductive SetOperation where
  | intersection
  | difference
  | symmetricDifference
  deriving DecidableEq, Repr

def SetOperation.apply : SetOperation → CharSet → CharSet → CharSet
  | intersection => .inter
  | difference => .diff
  | symmetricDifference => .symmDiff

/-- A bracket that is still open. -/
structure Bracket where
  negated : Bool := false
  /-- What the current operand has so far, the last item first. -/
  items : List Item := []
  /-- The operation whose second operand is being read, and its first. -/
  pending : Option (SetOperation × Item) := none
  /-- Nothing but hyphens has been read, which there are characters. -/
  atStart : Bool := true
  deriving Repr

namespace Bracket

/-- The items of an operand taken together; several are nested in one. -/
def joined (items : List Item) : Item :=
  let height := (items.map Item.height).foldl max 0
  ⟨.unions (items.map Item.set), if 1 < items.length then 1 + height else height⟩

def push (bracket : Bracket) (item : Item) (atStart : Bool := false) : Bracket :=
  { bracket with items := item :: bracket.items, atStart }

/-- Everything read so far. -/
def operand (options : Options) (bracket : Bracket) : Item :=
  let right := joined bracket.items
  match bracket.pending with
  | none => right
  | some (operation, left) =>
    ⟨operation.apply (options.foldCase left.set) (options.foldCase right.set),
      1 + max left.height right.height⟩

/-- Goes on with the second operand of an operation. -/
def operate (options : Options) (bracket : Bracket) (operation : SetOperation) : Bracket :=
  { bracket with
    items := [], pending := some (operation, bracket.operand options), atStart := false }

/-- The class of a bracket, closed. -/
def close? (options : Options) (bracket : Bracket) : Option Item := do
  let inside := bracket.operand options
  let set ← options.negate? bracket.negated (options.foldCase inside.set)
  return ⟨set, 1 + inside.height⟩

end Bracket

/-- The classes that have a name between colons; all of them are of ASCII. -/
def namedClass? (name : List Char) : Option CharSet :=
  let table : List (String × String) :=
    [("alnum", "30-39 41-5A 61-7A"), ("alpha", "41-5A 61-7A"), ("ascii", "0-7F"),
      ("blank", "9 20"), ("cntrl", "0-1F 7F"), ("digit", "30-39"), ("graph", "21-7E"),
      ("lower", "61-7A"), ("print", "20-7E"), ("punct", "21-2F 3A-40 5B-60 7B-7E"),
      ("space", "9-D 20"), ("upper", "41-5A"), ("word", "30-39 41-5A 5F 61-7A"),
      ("xdigit", "30-39 41-46 61-66")]
  (table.lookup (String.ofList name)).map .ofText

/-- A named class after its opening bracket: whether it is negated, its set, and the text after
it. -/
def splitNamed? : List Char → Option (Bool × CharSet × List Char)
  | ':' :: text =>
    let (negated, text) := match text with
      | '^' :: text => (true, text)
      | text => (false, text)
    match text.dropWhile (· != ':') with
    | ':' :: ']' :: rest => (namedClass? (text.takeWhile (· != ':'))).map (negated, ·, rest)
    | _ => none
  | _ => none

/-- What may come next inside a bracket. -/
inductive Move where
  | item (item : Item)
  /-- A hyphen at the start. -/
  | hyphen
  | opening (bracket : Bracket)
  | operation (operation : SetOperation)
  | closing

/-- A single character or a class. -/
def element (options : Options) : Reading Atom := do
  let c ← next
  if c = '\\' then escape options else return .literal c false

/-- A character that may stand in a class; without Unicode only those of ASCII may. -/
def member? (options : Options) : Atom → Option Char
  | .literal c _ => if options.unicode || c.toNat < 0x80 then some c else none
  | _ => none

/-- Whether a hyphen before this text makes a range: not at the end of the class, nor doubled.
Blanks, and the hash that starts a comment, are looked past. -/
def rangeFollows (options : Options) (text : List Char) : Bool :=
  let ahead := if options.verbose then
      match text.dropWhile isSpace with
      | '#' :: rest => rest.dropWhile isSpace
      | rest => rest
    else text
  match ahead with
  | ']' :: _ | '-' :: _ => false
  | _ => true

/-- A character, a range or a class. -/
def range (options : Options) : Reading Item := do
  let first ← element options
  blanks options
  match ← get with
  | '-' :: rest =>
    if rangeFollows options rest then
      set (options.skip rest)
      let last ← element options
      let first ← member? options first
      let last ← member? options last
      guard (first ≤ last)
      return ⟨.range first.toNat last.toNat, 0⟩
  | _ => pure ()
  match first with
  | .chars set => return ⟨set, 0⟩
  | atom => return ⟨.single (← member? options atom), 0⟩

/-- An opening bracket, and a caret after it. -/
def opening (options : Options) : Reading Bracket := do
  blanks options
  let negated ← eat '^'
  if negated then blanks options
  return { negated }

/-- The next move inside a bracket. -/
def move (options : Options) (bracket : Bracket) : Reading Move := do
  blanks options
  match ← get with
  | '[' :: rest =>
    match splitNamed? rest with
    | some (negated, named, rest) =>
      let named ← options.negate? negated (options.foldCase named)
      set rest
      return .item ⟨named, 0⟩
    | none =>
      set rest
      return .opening (← opening options)
  | ']' :: rest =>
    set rest
    if bracket.atStart && bracket.items.isEmpty then return .item ⟨.single ']', 0⟩
    else return .closing
  | '-' :: rest =>
    if bracket.atStart then
      set rest
      return .hyphen
    else if ← continuesWith ['-', '-'] then return .operation .difference
    else return .item (← range options)
  | _ =>
    if ← continuesWith ['&', '&'] then return .operation .intersection
    else if ← continuesWith ['~', '~'] then return .operation .symmetricDifference
    else return .item (← range options)
where
  /-- Takes a piece if it is next. -/
  continuesWith (piece : List Char) : Reading Bool := fun text =>
    match Scan.dropPiece? piece text with
    | some rest => some (true, rest)
    | none => some (false, text)

/-- The rest of a class whose brackets are open, and the text after it. -/
def members? (options : Options) (outer : List Bracket) (inner : Bracket) (text : List Char) :
    Option (Item × List Char) :=
  match move options inner text with
  | none => none
  | some (move, rest) =>
    if _ : rest.length < text.length then
      match move with
      | .item item => members? options outer (inner.push item) rest
      | .hyphen => members? options outer (inner.push ⟨.single '-', 0⟩ true) rest
      | .opening bracket => members? options (inner :: outer) bracket rest
      | .operation operation => members? options outer (inner.operate options operation) rest
      | .closing =>
        match inner.close? options, outer with
        | none, _ => none
        | some item, [] => some (item, rest)
        | some item, next :: outer => members? options outer (next.push item) rest
    else none
termination_by text.length

/-- A class, after its first bracket. -/
def bracketed (options : Options) : Reading Item := do
  members? options [] (← opening options)

end Pattern

end PipeQuery
