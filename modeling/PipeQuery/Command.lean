/-
What the command line does with queries: check them against a document, print their JSON form, and
print them as canonical text.
-/
import PipeQuery.Dialect
import PipeQuery.Json.Reader
import PipeQuery.Operators.Descriptor

namespace PipeQuery

/-- Why a command has nothing to print. -/
inductive CommandFault where
  | query (fault : Fault)
  | malformedJson
  | inputExpected
  | unknownTopic (name : String)

def CommandFault.message : CommandFault → String
  | query fault => fault.message
  | malformedJson => "Invalid JSON"
  | inputExpected => "No input provided. Use --input or pipe JSON to stdin."
  | unknownTopic name =>
    "Unknown category: '" ++ name ++ "'\nRun 'jsonquery docs' to see available categories."

namespace Command

/-- A JSON text. -/
def readJson (text : String) : Except CommandFault Json :=
  match Json.read? text with
  | some json => .ok json
  | none => .error .malformedJson

/-- A document to run queries on. -/
def readDocument (text : String) : Except CommandFault Value := do
  return .ofJson (← readJson text)

/-- The operators that a JSON text describes; without a text there are none. -/
def readOperators : Option String → Except CommandFault (List Operator)
  | none => .ok []
  | some text => do
    (Operator.listOfJson (← readJson text)).mapError fun fault =>
      .query (.reference (.operators fault))

/-- How a query is written. -/
inductive Form where
  | text
  | json
  deriving DecidableEq, Repr

/-- A query as it is given. -/
structure Source where
  text : String
  form : Form := .text
  deriving DecidableEq, Repr

/-- The query of a source. -/
def Source.read (dialect : Dialect) (source : Source) : Except CommandFault Query :=
  match source.form with
  | .text => (dialect.parse source.text).mapError .query
  | .json => do
    (Query.ofJson (← readJson source.text)).mapError fun fault =>
      .query (.reference (.invalidQuery fault))

/-- What a check found. -/
inductive Verdict where
  /-- The query can be resolved; it was not run. -/
  | valid
  | result (value : Value)

/-- Resolves a query, and runs it on the input unless only the query is in question. -/
def check (dialect : Dialect) (source : Source) (queryOnly : Bool) (input : Option String) :
    Except CommandFault Verdict := do
  let query ← source.read dialect
  let program ← (dialect.compile query).mapError .query
  if queryOnly then return .valid
  match input with
  | none => throw .inputExpected
  | some text =>
    let data ← readDocument text
    let value ← (program data).mapError fun fault => .query (.runtime fault)
    return .result value

/-- The JSON form of a query text. -/
def toJson (dialect : Dialect) (text : String) : Except CommandFault Json := do
  return (← Source.read dialect ⟨text, .text⟩).toJson

/-- The canonical text of a query. -/
def format (dialect : Dialect) (layout : LineLayout) (source : Source) :
    Except CommandFault String := do
  let query ← source.read dialect
  (dialect.print layout query).mapError .query

end Command

end PipeQuery
