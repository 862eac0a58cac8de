/-
The words of a command line: options, flags and operands.

A word that starts with a dash is an option or a flag, a single dash is an operand, and after two
dashes every word is an operand.  Flags of one letter may share a dash.  An option takes the rest
of its word or else the next word, which must not look like an option itself.
-/
namespace PipeQuery

/-- What may be given by name. -/
structure Switch where
  /-- The name after two dashes. -/
  long : String
  /-- The letter after one dash. -/
  short : Option Char := none
  /-- An option comes with a value, a flag without. -/
  takesValue : Bool := false
  deriving DecidableEq, Repr

/-- Words sorted out. -/
structure Arguments where
  operands : List String := []
  /-- What was given by name, each name once; a flag has the empty value. -/
  given : List (String × String) := []
  deriving DecidableEq, Repr

namespace Arguments

/-- The value of an option. -/
def value? (arguments : Arguments) (long : String) : Option String :=
  arguments.given.lookup long

/-- Whether a flag is set. -/
def has (arguments : Arguments) (long : String) : Bool :=
  (arguments.value? long).isSome

/-- Records a switch, which must be new. -/
def give? (switch : Switch) (value : String) (arguments : Arguments) : Option Arguments :=
  if arguments.has switch.long then none
  else some { arguments with given := (switch.long, value) :: arguments.given }

/-- What one word of a command line is. -/
inductive Word where
  | operand (text : String)
  /-- Two dashes and no more. -/
  | endOfSwitches
  | long (name : String) (attached : Option String)
  | short (letters : List Char)
  deriving DecidableEq, Repr

def Word.ofText (text : String) : Word :=
  match text.toList with
  | ['-', '-'] => .endOfSwitches
  | '-' :: '-' :: rest =>
    let attached := match rest.dropWhile (· != '=') with
      | [] => none
      | _ :: value => some (String.ofList value)
    .long (String.ofList (rest.takeWhile (· != '='))) attached
  | '-' :: c :: letters => .short (c :: letters)
  | _ => .operand text

/-- The rest of a word as the value of its option; an equals sign before it does not count. -/
def attachedValue? : List Char → Option String
  | [] => none
  | '=' :: value => some (String.ofList value)
  | value => some (String.ofList value)

/-- Gives the flags of a word of letters.  An option among them ends the word: with its value, or
to be given one. -/
def giveLetters? (switches : List Switch) :
    List Char → Arguments → Option (Arguments × Option Switch)
  | [], arguments => some (arguments, none)
  | c :: rest, arguments =>
    match switches.find? (·.short == some c) with
    | none => none
    | some switch =>
      if switch.takesValue then
        match attachedValue? rest with
        | some value => (arguments.give? switch value).map fun given => (given, none)
        | none => some (arguments, some switch)
      else
        match arguments.give? switch "" with
        | some given => giveLetters? switches rest given
        | none => none

/-- Gives the switch of a word that starts with two dashes, or says which option awaits a value. -/
def giveLong? (switches : List Switch) (name : String) (attached : Option String)
    (arguments : Arguments) : Option (Arguments × Option Switch) :=
  match switches.find? (·.long == name), attached with
  | none, _ => none
  | some switch, some value =>
    if switch.takesValue then (arguments.give? switch value).map fun given => (given, none)
    else none
  | some switch, none =>
    if switch.takesValue then some (arguments, some switch)
    else (arguments.give? switch "").map fun given => (given, none)

/-- Sorts words until `stop` says that an operand is the last of them; with the words after it.
Such an operand is not recognised behind two dashes, where nothing can follow it. -/
def readUntil? (switches : List Switch) (stop : String → Bool) :
    (awaiting : Option Switch) → Arguments → List String → Option (Arguments × List String)
  | some _, _, [] => none
  | none, arguments, [] => some (arguments, [])
  | some switch, arguments, word :: words =>
    match Word.ofText word with
    | .operand text =>
      match arguments.give? switch text with
      | some given => readUntil? switches stop none given words
      | none => none
    | _ => none
  | none, arguments, word :: words =>
    match Word.ofText word with
    | .operand text =>
      let longer := { arguments with operands := arguments.operands ++ [text] }
      if stop text then some (longer, words) else readUntil? switches stop none longer words
    | .endOfSwitches =>
      if words.any stop then none
      else some ({ arguments with operands := arguments.operands ++ words }, [])
    | .long name attached =>
      match giveLong? switches name attached arguments with
      | some (given, awaiting) => readUntil? switches stop awaiting given words
      | none => none
    | .short letters =>
      match giveLetters? switches letters arguments with
      | some (given, awaiting) => readUntil? switches stop awaiting given words
      | none => none

/-- Sorts all words. -/
def read? (switches : List Switch) (words : List String) : Option Arguments :=
  (readUntil? switches (fun _ => false) none {} words).map (·.1)

end Arguments

end PipeQuery
