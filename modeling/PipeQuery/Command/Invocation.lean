/-
Invocations: what the words of a command line ask for, and what is printed for it.
-/
import PipeQuery.Command.Arguments
import PipeQuery.Command.Manual

namespace PipeQuery

open scoped Power

/-- What is asked for. -/
inductive Task where
  | check (source : Command.Source) (queryOnly : Bool) (input : Option String) (indented : Bool)
  | parse (text : String) (indented : Bool)
  | format (source : Command.Source) (layout : LineLayout)
  | overview
  | manual (topic : String)
  | version
  deriving DecidableEq, Repr

/-- A task, and the operators to be added for it. -/
structure Invocation where
  task : Task
  operators : Option String := none
  deriving DecidableEq, Repr

namespace Invocation

/-- The option every task has. -/
def operatorsOption : Switch :=
  { long := "operators", takesValue := true }

def versionFlag : Switch :=
  { long := "version", short := some 'V' }

def jsonFlag : Switch :=
  { long := "ast" }

def indentFlag : Switch :=
  { long := "pretty", short := some 'p' }

/-- The only operand there is. -/
def operand? (arguments : Arguments) : Option String :=
  match arguments.operands with
  | [text] => some text
  | _ => none

/-- A count in decimal digits, as large as 64 bits allow. -/
def count? (text : String) : Option Nat :=
  let digits := match text.toList with
    | '+' :: digits => digits
    | digits => digits
  if digits.isEmpty || !digits.all Char.isDigit then none
  else
    let n := digitsValue digits
    if n < 2 ^ (64 : Nat) then some n else none

/-- The query that the operand is. -/
def source? (arguments : Arguments) : Option Command.Source := do
  return ⟨← operand? arguments, if arguments.has "ast" then .json else .text⟩

def check? (arguments : Arguments) : Option Task := do
  return .check (← source? arguments) (arguments.has "syntax-only") (arguments.value? "input")
    (arguments.has "pretty")

def parse? (arguments : Arguments) : Option Task := do
  return .parse (← operand? arguments) (arguments.has "pretty")

def format? (arguments : Arguments) : Option Task := do
  let source ← source? arguments
  let standard : LineLayout := {}
  let maxLength ← match arguments.value? "max-line-length" with
    | none => some standard.maxLength
    | some text => count? text
  return .format source
    { indentation := (arguments.value? "indent").getD standard.indentation, maxLength }

def overview? (arguments : Arguments) : Option Task :=
  if arguments.operands.isEmpty then some .overview else none

def manual? (arguments : Arguments) : Option Task := do
  return .manual (← operand? arguments)

/-- The switches of each command besides the common option, and how its arguments are read. -/
def command? : String → Option (List Switch × (Arguments → Option Task))
  | "check" =>
    some ([jsonFlag, { long := "input", short := some 'i', takesValue := true }, indentFlag,
      { long := "syntax-only" }], check?)
  | "parse" => some ([indentFlag], parse?)
  | "format" =>
    some ([jsonFlag, { long := "indent", takesValue := true },
      { long := "max-line-length", takesValue := true }], format?)
  | "docs" => some ([], overview?)
  | "doc" => some ([], manual?)
  | _ => none

/-- The invocation of a command line, if it is one.  The common option may stand before the command
as well as after it, where it counts more. -/
def read? (words : List String) : Option Invocation := do
  let (common, words) ←
    Arguments.readUntil? [operatorsOption, versionFlag] (fun _ => true) none {} words
  if common.has "version" then return { task := .version }
  let (switches, task?) ← command? (← operand? common)
  let arguments ← Arguments.read? (operatorsOption :: switches) words
  return { task := ← task? arguments
           operators := arguments.value? "operators" <|> common.value? "operators" }

/-- Whether the answer depends on the standard input. -/
def readsInput (invocation : Invocation) : Bool :=
  match invocation.task with
  | .check _ queryOnly input _ => !queryOnly && input.isNone
  | _ => false

/-- What a task prints. -/
def respond (dialect : Dialect) (standardInput : Option String) :
    Task → Except CommandFault String
  | .check source queryOnly input indented => do
    match ← Command.check dialect source queryOnly (input <|> standardInput) with
    | .valid => return "Query is valid\n"
    | .result value => return value.render indented ++ "\n"
  | .parse text indented => do
    let json ← Command.toJson dialect text
    return (if indented then json.indentedText else json.text) ++ "\n"
  | .format source layout => do
    return (← Command.format dialect layout source) ++ "\n"
  | .overview => .ok Manual.overviewPage
  | .manual topic => Manual.page topic
  | .version => .ok "jsonquery 0.2.0\n"

/-- What an invocation prints. -/
def run (invocation : Invocation) (standardInput : Option String) :
    Except CommandFault String := do
  let operators ← Command.readOperators invocation.operators
  respond { operators } standardInput invocation.task

end Invocation

end PipeQuery
