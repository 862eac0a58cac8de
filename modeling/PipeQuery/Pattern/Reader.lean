/-
Reading patterns from text.

Tokens are read under the options in force; open groups are kept on a stack.  Every token takes at
least one character, so reading ends.
-/
import PipeQuery.Pattern.Bracket
import PipeQuery.Pattern.Machine

namespace PipeQuery

open scoped Power

namespace Pattern

open Reading

/-- Whether a group is counted; only then it may have a name. -/
inductive GroupKind where
  | plain
  | counted (name : Option String)
  deriving DecidableEq, Repr

/-- A part of a pattern. -/
inductive Token where
  | node (node : Node) (height : Nat)
  /-- How often what stands before it is to match. -/
  | count (least : Nat) (most : Option Nat) (greedy : Bool)
  | bar
  /-- A group with options of its own. -/
  | opening (options : Options) (kind : GroupKind)
  | closing
  /-- Options for the rest of the group. -/
  | options (options : Options)

/-- A decimal number below 2^32 with blanks around it, or no digit at all. -/
def decimal (options : Options) : Reading (Option Nat) := do
  modify (List.dropWhile isSpace)
  let digits ← fun text => some (split text)
  modify (List.dropWhile isSpace)
  if digits.isEmpty then return none
  let n := digitsValue digits
  guard (n < 2 ^ (32 : Nat))
  return some n
where
  /-- Digits with blanks after each. -/
  split (text : List Char) : List Char × List Char :=
    match text with
    | [] => ([], [])
    | c :: rest =>
      if c.isDigit then
        let (digits, after) := split (options.skip rest)
        (c :: digits, after)
      else ([], c :: rest)
  termination_by text.length
  decreasing_by exact Nat.lt_succ_of_le (options.length_skip_le rest)

/-- Takes the mark after a repetition, and tells whether it prefers more. -/
def greed (options : Options) : Reading Bool := do
  return (← eat '?') == options.swapGreed

/-- A repetition, with the mark that may follow. -/
def repetition (options : Options) (least : Nat) (most : Option Nat) : Reading Token := do
  return .count least most (← greed options)

/-- The fewest and the most times between braces, after the first brace. -/
def counts (options : Options) : Reading (Nat × Option Nat) := do
  blanks options
  let least ← decimal options
  match ← next with
  | '\x7d' =>
    let n ← least
    return (n, some n)
  | ',' =>
    blanks options
    let least ← least
    if ← eat '\x7d' then return (least, none)
    let most ← ← decimal options
    guard ((← next) == '\x7d' && least ≤ most)
    return (least, some most)
  | _ => failure

/-- Switches one option. -/
def switch? (options : Options) (on : Bool) : Char → Option Options
  | 'i' => some { options with ignoreCase := on }
  | 'm' => some { options with multiLine := on }
  | 's' => some { options with dotAll := on }
  | 'x' => some { options with verbose := on }
  | 'u' => some { options with unicode := on }
  | 'R' => some { options with crlf := on }
  | 'U' => some { options with swapGreed := on }
  | _ => none

/-- The options after letters that switch some on and, after a hyphen, others off; none of the
letters may be repeated. -/
def switchAll? (options : Options) (letters : List Char) : Option Options := do
  guard (letters.Nodup && letters.getLast? != some '-')
  let on ← (letters.takeWhile (· != '-')).foldlM (switch? · true) options
  ((letters.dropWhile (· != '-')).drop 1).foldlM (switch? · false) on

/-- Whether a character may stand in the name of a group. -/
def isNameChar (first : Bool) (c : Char) : Bool :=
  c == '_' || Property.alphabetic.contains c ||
    (!first && (c == '.' || c == '[' || c == ']' || number.contains c))
where
  number : CharSet := Category.sets [.nd, .nl, .no]

/-- The name of a group, after its opening angle. -/
def groupName : Reading String := do
  let text ← get
  let name := text.takeWhile (· != '>')
  set (text.dropWhile (· != '>'))
  guard ((← next) == '>')
  match name with
  | [] => failure
  | c :: rest =>
    guard (isNameChar true c && rest.all (isNameChar false))
    return String.ofList name

/-- What follows an opening parenthesis, up to the body of the group. -/
def groupHead (options : Options) : Reading Token := do
  blanks options
  match ← get with
  | '?' :: '=' :: _ | '?' :: '!' :: _ | '?' :: '<' :: '=' :: _ | '?' :: '<' :: '!' :: _ => failure
  | '?' :: 'P' :: '<' :: rest | '?' :: '<' :: rest =>
    set rest
    return .opening options (.counted (some (← groupName)))
  | '?' :: rest =>
    let isLetter (c : Char) : Bool := c != ':' && c != ')'
    let letters := rest.takeWhile isLetter
    set (rest.dropWhile isLetter)
    let switched ← switchAll? options letters
    if (← next) == ':' then return .opening switched .plain
    guard (!letters.isEmpty)
    return .options switched
  | _ => return .opening options (.counted none)

/-- The node of an escape or a character. -/
def node? (options : Options) : Atom → Option Node
  | .literal c byte =>
    if byte && !options.unicode && 0x80 ≤ c.toNat then none
    else some (.oneOf (options.foldCase (.single c)) options.unicode)
  | .chars set => some (.oneOf set options.unicode)
  | .look question => some (.look question)

/-- The characters that the dot matches. -/
def dot? (options : Options) : Option CharSet :=
  let lineEnds : CharSet :=
    if options.dotAll then .empty
    else if options.crlf then (CharSet.single '\n').union (.single '\r')
    else .single '\n'
  options.negate? true lineEnds

/-- The next part of a pattern. -/
def token (options : Options) : Reading Token := do
  let leaf (node : Node) : Token := .node node 0
  match ← next with
  | '(' => groupHead options
  | ')' => return .closing
  | '|' => return .bar
  | '[' =>
    let item ← bracketed options
    return .node (.oneOf item.set options.unicode) item.height
  | '?' => repetition options 0 (some 1)
  | '*' => repetition options 0 none
  | '+' => repetition options 1 none
  | '\x7b' =>
    let (least, most) ← counts options
    blanks options
    repetition options least most
  | '\\' => do
    let atom ← escape options
    return leaf (← node? options atom)
  | '.' => do
    let set ← dot? options
    return leaf (.oneOf set options.unicode)
  | '^' => return leaf (.look (if options.multiLine then .lineStart options.crlf else .textStart))
  | '$' => return leaf (.look (if options.multiLine then .lineEnd options.crlf else .textEnd))
  | c => do
    let node ← node? options (.literal c false)
    return leaf node

/-- A node, and how deeply the pattern is nested that writes it. -/
structure Part where
  node : Node
  height : Nat := 0
  /-- Options that stand in a row can not be repeated. -/
  repeatable : Bool := true
  deriving Repr

namespace Part

/-- Parts in a row, the last first. -/
def row : List Part → Part
  | [] => ⟨.empty, 0, false⟩
  | [part] => part
  | parts =>
    ⟨.row (parts.reverse.map Part.node), 1 + (parts.map Part.height).foldl max 0, true⟩

/-- Alternatives, the last first. -/
def alternatives : List Part → Part
  | [] => ⟨.empty, 0, true⟩
  | [part] => part
  | parts =>
    ⟨.alternatives (parts.reverse.map Part.node), 1 + (parts.map Part.height).foldl max 0, true⟩

end Part

/-- A group that is still open. -/
structure Group where
  options : Options
  /-- Its number, if it is counted. -/
  number : Option Nat := none
  /-- Finished alternatives, the last first. -/
  branches : List Part := []
  /-- The current alternative, its last part first. -/
  parts : List Part := []

namespace Group

def push (group : Group) (part : Part) : Group :=
  { group with parts := part :: group.parts }

/-- Starts another alternative. -/
def branch (group : Group) : Group :=
  { group with branches := .row group.parts :: group.branches, parts := [] }

/-- Everything in the group. -/
def body (group : Group) : Part :=
  .alternatives (.row group.parts :: group.branches)

/-- The group as a part of what it stands in. -/
def close (group : Group) : Part :=
  let body := group.body
  let node := match group.number with
    | some number => .group number body.node
    | none => body.node
  ⟨node, 1 + body.height, true⟩

/-- Repeats the last part. -/
def repeat? (group : Group) (least : Nat) (most : Option Nat) (greedy : Bool) : Option Group :=
  match group.parts with
  | [] => none
  | part :: parts =>
    if part.repeatable then
      let repeated : Part := ⟨.repeated part.node least most greedy, 1 + part.height, true⟩
      some { group with parts := repeated :: parts }
    else none

end Group

/-- The groups so far that are counted. -/
structure Groups where
  number : Nat := 0
  names : List String := []

/-- Counts one more group, unless one of its name came before. -/
def Groups.count? (groups : Groups) : Option String → Option Groups
  | none => some { groups with number := groups.number + 1 }
  | some name =>
    if groups.names.contains name then none
    else some ⟨groups.number + 1, name :: groups.names⟩

/-- The rest of a pattern whose groups are open. -/
def parts? (outer : List Group) (inner : Group) (groups : Groups) (text : List Char) :
    Option Part :=
  match inner.options.skip text with
  | [] => if outer.isEmpty then some inner.body else none
  | text' =>
    match token inner.options text' with
    | none => none
    | some (token, rest) =>
      if _ : rest.length < text.length then
        match token with
        | .node node height => parts? outer (inner.push ⟨node, height, true⟩) groups rest
        | .count least most greedy =>
          match inner.repeat? least most greedy with
          | none => none
          | some repeated => parts? outer repeated groups rest
        | .bar => parts? outer inner.branch groups rest
        | .options options =>
          parts? outer { inner.push ⟨.empty, 0, false⟩ with options } groups rest
        | .opening options .plain => parts? (inner :: outer) { options } groups rest
        | .opening options (.counted name) =>
          match groups.count? name with
          | none => none
          | some groups =>
            parts? (inner :: outer) { options, number := some groups.number } groups rest
        | .closing =>
          match outer with
          | [] => none
          | next :: outer => parts? outer (next.push inner.close) groups rest
      else none
termination_by text.length

/-- The deepest nesting of a pattern. -/
def maxHeight : Nat := 250

end Pattern

/-- A regular expression. -/
structure Pattern where
  node : Pattern.Node
  deriving Repr

namespace Pattern

/-- The pattern that a text describes, if it is one and neither too deep nor too large. -/
def ofText? (options : Options) (text : String) : Option Pattern := do
  let part ← parts? [] { options } {} text.toList
  guard (part.height ≤ maxHeight && part.node.fits)
  return ⟨part.node⟩

/-- Whether a match starts where the text does. -/
def matchesStart (pattern : Pattern) (text : String) : Bool :=
  pattern.node.matchesStart text

end Pattern

end PipeQuery
