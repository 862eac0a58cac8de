/-
What can go wrong with a query: its text, its references, its run.
-/
import PipeQuery.Arity
import PipeQuery.Operators
import PipeQuery.Query

namespace PipeQuery

/-- Why a text is no query. -/
inductive SyntaxCause where
  | valueExpected
  | propertyExpected
  | keyExpected
  | charExpected (c : Char)
  | invalidString
  | unexpectedPart (rest : String)
  | tooDeep (limit : Nat)
  deriving DecidableEq, Repr

def SyntaxCause.message : SyntaxCause → String
  | valueExpected => "Value expected"
  | propertyExpected => "Property expected"
  | keyExpected => "Key expected"
  | charExpected c => "Character '" ++ c.toString ++ "' expected"
  | invalidString => "Invalid string"
  | unexpectedPart rest => "Unexpected part '" ++ rest ++ "'"
  | tooDeep limit => "Nesting deeper than " ++ integerText limit ++ " levels"

/-- A cause, the text it is about, and the number of characters before the place. -/
structure SyntaxFault where
  cause : SyntaxCause
  position : Nat
  text : String
  deriving DecidableEq, Repr

def SyntaxFault.message (fault : SyntaxFault) : String :=
  fault.cause.message ++ " (pos: " ++ integerText fault.position ++ ")"

/-- Whether a result is a given fault can be decided, whatever the results are. -/
instance decidableEqError {ε α : Type} [DecidableEq ε] (result : Except ε α) (fault : ε) :
    Decidable (result = .error fault) :=
  match result with
  | .ok _ => isFalse nofun
  | .error found =>
    if h : found = fault then isTrue (congrArg _ h) else isFalse fun heq => h (Except.error.inj heq)

/-- What is wrong with the arguments of a call. -/
inductive ArgumentFault where
  | wrongCount (arity : Arity) (count : Nat)
  | literalExpected (got : Query)
  | segmentExpected (got : Query)
  | pathExpected (got : Query)
  | emptyPath
  | mappingExpected (got : Query)
  | directionExpected (got : Value)
  | integerExpected
  | separatorExpected (got : Value)
  | patternExpected (got : Value)
  | flagsExpected (got : Value)
  | unknownFlag (flag : Char)
  | malformedPattern

def ArgumentFault.message : ArgumentFault → String
  | wrongCount arity count =>
    "expected " ++ arity.describe ++ " arguments, got " ++ integerText count
  | literalExpected got => "a literal value expected, got " ++ got.toJson.text
  | segmentExpected got =>
    "path segments must be string or integer literals, got " ++ got.toJson.text
  | pathExpected got => "a property path like .name expected, got " ++ got.toJson.text
  | emptyPath => "an empty path has no key to pick"
  | mappingExpected got => "a mapping of keys to queries expected, got " ++ got.toJson.text
  | directionExpected got => "direction must be \"asc\" or \"desc\", got " ++ got.asText
  | integerExpected => "an integer count expected"
  | separatorExpected got => "separator must be a string, got " ++ got.asText
  | patternExpected got => "pattern must be a string, got " ++ got.asText
  | flagsExpected got => "flags must be a string, got " ++ got.asText
  | unknownFlag flag => "unknown flag '" ++ flag.toString ++ "'"
  | malformedPattern => "the pattern cannot be read"

/-- Why a query or its operators cannot be resolved. -/
inductive ReferenceFault where
  | unknownFunction (name : String)
  | mappingNotAllowed
  | invalidArgument (function : String) (fault : ArgumentFault)
  | operators (fault : OperatorFault)
  | invalidQuery (fault : QueryFault)
  | tooDeep (limit : Nat)

def ReferenceFault.message : ReferenceFault → String
  | unknownFunction name => "Unknown function \"" ++ name ++ "\""
  | mappingNotAllowed =>
    "Function notation [\"object\", \x7b...\x7d] expected but got a mapping"
  | invalidArgument function fault =>
    "Invalid arguments for \"" ++ function ++ "\": " ++ fault.message
  | operators fault => fault.message
  | invalidQuery fault => "Invalid query: " ++ fault.message
  | tooDeep limit => "Query nested deeper than " ++ integerText limit ++ " levels"

/-- Why a run has no result. -/
inductive RuntimeFault where
  | arrayExpected
  | objectExpected
  /-- Only functions added to the library raise these, and reads of arguments that are not there. -/
  | custom (message : String)
  deriving DecidableEq, Repr

def RuntimeFault.message : RuntimeFault → String
  | arrayExpected => "Array expected"
  | objectExpected => "Object expected"
  | custom message => message

/-- Any of the three. -/
inductive Fault where
  | parsing (fault : SyntaxFault)
  | reference (fault : ReferenceFault)
  | runtime (fault : RuntimeFault)

def Fault.message : Fault → String
  | parsing fault => "Syntax error: " ++ fault.message
  | reference fault => "Reference error: " ++ fault.message
  | runtime fault => "Runtime error: " ++ fault.message

end PipeQuery
