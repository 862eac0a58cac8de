/-
What a backslash introduces in a pattern, and the settings on which its meaning depends.
-/
import PipeQuery.Pattern.Node
import PipeQuery.Unicode.Folding
import PipeQuery.Unicode.PropertyName

namespace PipeQuery

namespace Pattern

/-- How a pattern is read and what its parts mean. -/
structure Options where
  ignoreCase : Bool := false
  /-- Lines, and not only the text, have a start and an end. -/
  multiLine : Bool := false
  /-- The dot is also a line end. -/
  dotAll : Bool := false
  /-- White space and comments stand between the parts of a pattern. -/
  verbose : Bool := false
  /-- Classes go beyond ASCII. -/
  unicode : Bool := true
  /-- A carriage return is a line end too. -/
  crlf : Bool := false
  /-- Repetitions prefer fewer, and those that are marked prefer more. -/
  swapGreed : Bool := false
  deriving DecidableEq, Repr

/-- Takes something from the front of a text, or finds that the text is no pattern. -/
abbrev Reading := StateT (List Char) Option

/-- The text without white space and comments at its front; a comment runs from a hash to the end
of its line. -/
def skipComments (text : List Char) : List Char :=
  match h : text.dropWhile isSpace with
  | '#' :: rest =>
    have shorter : (rest.dropWhile (· != '\n')).length < text.length := by
      have h₁ := (List.dropWhile_sublist isSpace (l := text)).length_le
      have h₂ := (List.dropWhile_sublist (fun c => c != '\n') (l := rest)).length_le
      rw [h, List.length_cons] at h₁
      exact Nat.lt_of_le_of_lt h₂ h₁
    skipComments (rest.dropWhile (· != '\n'))
  | rest => rest
termination_by text.length

theorem length_skipComments_le (text : List Char) : (skipComments text).length ≤ text.length := by
  fun_induction skipComments text with
  | case1 text rest h shorter ih => omega
  | case2 text => exact (List.dropWhile_sublist isSpace).length_le

/-- The text from its first character that counts. -/
def Options.skip (options : Options) (text : List Char) : List Char :=
  if options.verbose then skipComments text else text

theorem Options.length_skip_le (options : Options) (text : List Char) :
    (options.skip text).length ≤ text.length := by
  unfold Options.skip
  split
  · exact length_skipComments_le text
  · exact Nat.le_refl _

namespace Reading

/-- The next character. -/
def next : Reading Char
  | [] => none
  | c :: rest => some (c, rest)

/-- Takes `c` if it is next. -/
def eat (c : Char) : Reading Bool
  | [] => some (false, [])
  | d :: rest => some (if d = c then (true, rest) else (false, d :: rest))

/-- Whether the text goes on with a character of some kind. -/
def continues (p : Char → Bool) : Reading Bool := fun text =>
  some (text.head?.any p, text)

def blanks (options : Options) : Reading Unit :=
  modify options.skip

/-- What stands before the next closing brace, blanks left out, and what follows the brace. -/
def splitBrace? (options : Options) (text : List Char) : Option (List Char × List Char) :=
  match h : options.skip text with
  | [] => none
  | c :: rest =>
    have shorter : rest.length < text.length := by
      have := options.length_skip_le text
      rw [h, List.length_cons] at this
      exact this
    if c = '\x7d' then some ([], rest)
    else (splitBrace? options rest).map fun (before, after) => (c :: before, after)
termination_by text.length

def toBrace (options : Options) : Reading (List Char) :=
  splitBrace? options

/-- The character with a number. -/
def character? (n : Nat) : Option Char :=
  if n < 0xD800 ∨ (0xDFFF < n ∧ n < 0x110000) then some (.ofNat n) else none

/-- A number of so many hexadecimal digits, blanks after each. -/
def hexNumber (options : Options) : (digits : Nat) → (value : Nat) → Reading Nat
  | 0, value => pure value
  | digits + 1, value => do
    let digit ← Quoted.hexDigit? (← next)
    blanks options
    hexNumber options digits (value * 16 + digit)

end Reading

open Reading

/-- What an escape stands for. -/
inductive Atom where
  /-- A character; `byte` tells that it is written by two hexadecimal digits, which without Unicode
  name a byte. -/
  | literal (c : Char) (byte : Bool)
  | chars (set : CharSet)
  | look (question : Look)
  deriving Repr

/-- A character by its number, in a fixed count of digits or between braces. -/
def numbered (options : Options) (digits : Nat) : Reading Atom := do
  blanks options
  if ← eat '\x7b' then
    let text ← toBrace options
    guard (!text.isEmpty && text.all fun c => (Quoted.hexDigit? c).isSome)
    let c ← character? (hexValue text)
    blanks options
    return .literal c false
  else
    let c ← character? (← hexNumber options digits 0)
    return .literal c (digits == 2)

/-- The set together with what differs from it only in case, where case is ignored. -/
def Options.foldCase (options : Options) (set : CharSet) : CharSet :=
  if !options.ignoreCase then set
  else if options.unicode then set.anyCase
  else set.asciiCase

/-- The complement; without Unicode a set must not leave ASCII. -/
def Options.negate? (options : Options) (negated : Bool) (set : CharSet) : Option CharSet :=
  if !negated then some set
  else if options.unicode then some set.compl
  else none

/-- The text before and after the first occurrence of a piece. -/
def cut? (piece : List Char) : List Char → Option (List Char × List Char)
  | [] => none
  | c :: rest =>
    match Scan.dropPiece? piece (c :: rest) with
    | some after => some ([], after)
    | none => (cut? piece rest).map fun (before, after) => (c :: before, after)

/-- The characters that a property is about, and whether those are meant that do not have it. -/
def property? (description : List Char) : Option (CharSet × Bool) :=
  let named (parts : List Char × List Char) : Option CharSet :=
    Property.ofValue? (String.ofList parts.1) (String.ofList parts.2)
  match cut? ['!', '='] description with
  | some parts => (named parts).map (·, true)
  | none =>
    let set? := match cut? [':'] description <|> cut? ['='] description with
      | some parts => named parts
      | none => Property.ofName? (String.ofList description)
    set?.map (·, false)

/-- A property, one letter long or between braces. -/
def property (options : Options) (negated : Bool) : Reading Atom := do
  blanks options
  let c ← next
  let description ← if c = '\x7b' then toBrace options else pure [c]
  guard (options.unicode && c != '\\')
  if c ≠ '\x7b' then blanks options
  let (set, differs) ← property? description
  return .chars (← options.negate? (negated != differs) (options.foldCase set))

/-- Letters, digits and the underscore of ASCII. -/
def asciiWord : CharSet :=
  ⟨[⟨0x30, 0x39⟩, ⟨0x41, 0x5A⟩, ⟨0x5F, 0x5F⟩, ⟨0x61, 0x7A⟩]⟩

namespace Options

def digits (options : Options) : CharSet :=
  if options.unicode then Property.decimalDigit else .range 0x30 0x39

def spaces (options : Options) : CharSet :=
  if options.unicode then whiteSpace else ⟨[⟨0x9, 0xD⟩, ⟨0x20, 0x20⟩]⟩

def letters (options : Options) : CharSet :=
  if options.unicode then Property.word else asciiWord

end Options

/-- A class of one letter; the capital is its complement. -/
def class? (options : Options) (letter : Char) : Option Atom :=
  let set? := match letter.toLower with
    | 'd' => some options.digits
    | 's' => some options.spaces
    | 'w' => some options.letters
    | _ => none
  set?.bind fun set => (options.negate? letter.isUpper set).map .chars

/-- The edge that a name between braces stands for. -/
def edge? (name : List Char) : Option Edge :=
  match String.ofList name with
  | "start" => some .start
  | "end" => some .stop
  | "start-half" => some .startHalf
  | "end-half" => some .stopHalf
  | _ => none

/-- The edge of a word, with its name if a brace and a letter or hyphen follow. -/
def boundary (options : Options) : Reading Edge := fun text =>
  match text with
  | '\x7b' :: rest =>
    match options.skip rest with
    | [] => none
    | c :: _ =>
      if c.isAlpha || c == '-' then do
        let (name, after) ← splitBrace? options rest
        return (← edge? name, after)
      else some (.boundary, text)
  | _ => some (.boundary, text)

/-- The character that a letter after a backslash names. -/
def named? : Char → Option Char
  | 'a' => some '\x07'
  | 'f' => some '\x0c'
  | 'n' => some '\n'
  | 'r' => some '\r'
  | 't' => some '\t'
  | 'v' => some '\x0b'
  | _ => none

/-- Whether a backslash before the character means the character itself. -/
def isEscapable (c : Char) : Bool :=
  c.toNat < 0x80 && !c.isAlphanum && c != '<' && c != '>'

/-- What follows a backslash. -/
def escape (options : Options) : Reading Atom := do
  let c ← next
  let word (edge : Edge) : Atom := .look (.word edge options.letters)
  match c with
  | 'x' => numbered options 2
  | 'u' => numbered options 4
  | 'U' => numbered options 8
  | 'p' => property options false
  | 'P' => property options true
  | 'A' => return .look .textStart
  | 'z' => return .look .textEnd
  | 'b' => return word (← boundary options)
  | 'B' => return word .interior
  | '<' => return word .start
  | '>' => return word .stop
  | _ =>
    if isEscapable c then return .literal c false
    else
      match named? c with
      | some named => return .literal named false
      | none => class? options c

end Pattern

end PipeQuery
