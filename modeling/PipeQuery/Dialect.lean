/-
The query language with additions: more functions, more operators, another nesting limit.

From text to result in four steps, each of which can stop with a fault: read the query, resolve its
calls, run it on a document, and, the other way round, print it.
-/
import PipeQuery.Compile
import PipeQuery.Library
import PipeQuery.Parser
import PipeQuery.Printer

namespace PipeQuery

/-- What is added to the language. -/
structure Dialect where
  /-- Added to the library; a name that is already there gets the new meaning. -/
  functions : Registry := []
  /-- Added to the operators every query has, one after the other. -/
  operators : List Operator := []
  /-- How deeply expressions, and calls, may be nested. -/
  maxDepth : Nat := defaultDepth

namespace Dialect

/-- All operators of the dialect, if each can be placed. -/
def table (dialect : Dialect) : Except Fault OperatorTable :=
  (OperatorTable.builtin.extend dialect.operators).mapError fun fault =>
    .reference (.operators fault)

/-- All functions of the dialect. -/
def registry (dialect : Dialect) : Registry :=
  Entries.merge Library.builtin dialect.functions

/-- The query a text holds. -/
def parse (dialect : Dialect) (text : String) : Except Fault Query := do
  let table ← dialect.table
  (PipeQuery.parse table dialect.maxDepth text).mapError .parsing

/-- The program of a query. -/
def compile (dialect : Dialect) (query : Query) : Except Fault Program :=
  (PipeQuery.compile dialect.registry dialect.maxDepth query).mapError .reference

/-- The text of a query. -/
def print (dialect : Dialect) (layout : LineLayout) (query : Query) : Except Fault String := do
  let table ← dialect.table
  return PipeQuery.print table layout query

/-- The result of a query on a document. -/
def evaluate (dialect : Dialect) (query : Query) (data : Value) : Except Fault Value := do
  let program ← dialect.compile query
  (program data).mapError .runtime

/-- The result of the query a text holds. -/
def evaluateText (dialect : Dialect) (text : String) (data : Value) : Except Fault Value := do
  dialect.evaluate (← dialect.parse text) data

end Dialect

end PipeQuery
