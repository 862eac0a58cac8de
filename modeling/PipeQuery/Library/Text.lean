/-
Functions on strings, and between strings and other values.
-/
import PipeQuery.Function
import PipeQuery.Number.Reading
import PipeQuery.Pattern.Reader
import PipeQuery.Text.Space
import PipeQuery.Text.Split

namespace PipeQuery

namespace TextFunctions

/-- What stands between the items of `join`. -/
def separator : Value → Except ReferenceFault String
  | .str separator => .ok separator
  | other => .error (.invalidArgument "join" (.separatorExpected other))

def join (separator : String) (items : List Value) : Value :=
  .str (separator.intercalate (items.map Value.asText))

/-- The parts of a string: its words, its characters, or what a separator leaves. -/
def split (text separator : Value) : Value :=
  let strings (parts : List (List Char)) : Value :=
    .arr (parts.map fun part => .str (String.ofList part))
  match text, separator with
  | .str text, .null => strings (words text.toList)
  | .str text, .str separator =>
    match separator.toList with
    | [] => strings (text.toList.map fun c => [c])
    | first :: more => strings (splitAt first more text.toList)
  | _, _ => .null

/-- The characters of a string between two offsets; null for anything that is no offset. -/
def substring (text start stop : Value) : Value :=
  match text, start.asInt? with
  | .str text, some start =>
    let cut (stop : Option Int64) : Value :=
      .str (String.ofList
        (slice text.toList start.toInt (stop.map Int64.toInt)))
    match stop with
    | .null => cut none
    | stop =>
      match stop.asInt? with
      | some stop => cut (some stop)
      | none => .null
  | _, _ => .null

/-- A number as a float; truth counts as one, and a string as the number it holds. -/
def number (value : Value) : Value :=
  let read? : Option Float :=
    match value with
    | .int n => some (integerFloat n)
    | .float x => some x
    | .bool b => some (if b then 1 else 0)
    | .str text => floatOfText? (trimSpace text.toList)
    | _ => none
  match read? with
  | some x => if x.isFinite then .float x else .null
  | none => .null

/-- The options that the letters of `flags` switch, in either case. -/
def options (flags : String) : Except ReferenceFault Pattern.Options :=
  flags.toList.foldlM (fun options flag =>
    match flag.toLower with
    | 'i' => .ok { options with ignoreCase := true }
    | 'm' => .ok { options with multiLine := true }
    | 's' => .ok { options with dotAll := true }
    | 'x' => .ok { options with verbose := true }
    | 'u' => .ok { options with unicode := true }
    | 'a' => .ok { options with unicode := false }
    | other => .error (.invalidArgument "regex" (.unknownFlag other))) {}

/-- The text of a literal pattern. -/
def patternText : Value → Except ReferenceFault String
  | .str text => .ok text
  | other => .error (.invalidArgument "regex" (.patternExpected other))

/-- The text of literal flags. -/
def flagsText : Value → Except ReferenceFault String
  | .str text => .ok text
  | other => .error (.invalidArgument "regex" (.flagsExpected other))

/-- The pattern that a text and flags describe. -/
def pattern (text flags : String) : Except ReferenceFault Pattern := do
  match Pattern.ofText? (← options flags) text with
  | some pattern => return pattern
  | none => .error (.invalidArgument "regex" .malformedPattern)

/-- Whether a string starts with a match. -/
def matching (pattern : Pattern) (getter : Program) : Program := fun data => do
  match ← getter data with
  | .str text => return .bool (pattern.matchesStart text)
  | _ => return .bool false

end TextFunctions

namespace Library

open TextFunctions

/-- Functions on strings. -/
def text : Registry :=
  [ ("join", .higherOrder fun args _ => do
      (Arity.between 0 1).check "join" args.length
      let separator ← match args.head? with
        | some arg => literalArgument "join" arg >>= separator
        | none => pure ""
      return onArray fun items => .ok (join separator items)),
    ("split", .value (.between 1 2) fun args => do
      return split (← argument args 0) (args[1]?.getD .null)),
    ("substring", .value (.between 2 3) fun args => do
      return substring (← argument args 0) (← argument args 1) (args[2]?.getD .null)),
    ("regex", .higherOrder fun args compile => do
      (Arity.between 2 3).check "regex" args.length
      match args with
      | getter :: source :: flags =>
        let getter ← compile getter
        let source ← literalArgument "regex" source >>= patternText
        let flags ← match flags with
          | [] => pure ""
          | flags :: _ => literalArgument "regex" flags >>= flagsText
        return matching (← pattern source flags) getter
      | _ => .error (.invalidArgument "regex" (.wrongCount (.between 2 3) args.length))),
    ("string", .unary fun a => .str a.asText),
    ("number", .unary number) ]

end Library

end PipeQuery
