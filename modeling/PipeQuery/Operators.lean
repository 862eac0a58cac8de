/-
Infix operators by tightness.

A table is a list of groups, tightest first; a group names functions and the symbols that call
them.  Operators are added beside a symbol the table already has: into its groups, or as a group of
their own next to it.
-/
import PipeQuery.Entries

namespace PipeQuery

/-- Operators of one tightness: the symbol of each function. -/
abbrev OperatorGroup := Entries String

/-- Where an operator goes, relative to a symbol of the table. -/
inductive Placement where
  /-- Into every group that has the symbol. -/
  | joining (anchor : String)
  /-- A group of its own, just tighter than the first that has the symbol. -/
  | before (anchor : String)
  /-- A group of its own, just looser than the first that has the symbol. -/
  | after (anchor : String)
  deriving DecidableEq, Repr

def Placement.anchor : Placement → String
  | joining anchor | before anchor | after anchor => anchor

/-- An infix symbol for a function. -/
structure Operator where
  name : String
  symbol : String
  placement : Placement
  /-- Repeated use makes one call of many arguments. -/
  vararg : Bool := false
  /-- Repeated use nests to the left; otherwise it is refused. -/
  leftAssociative : Bool := false
  deriving DecidableEq, Repr

/-- Why operators cannot be read or added. -/
inductive OperatorFault where
  | listExpected
  | malformed
  | placementExpected (name : String)
  | unknownAnchor (name anchor : String)
  deriving DecidableEq, Repr

namespace OperatorFault

def message : OperatorFault → String
  | listExpected => "Invalid custom operators: a list of operator descriptors expected"
  | malformed => "Invalid custom operator: a descriptor of another shape expected"
  | placementExpected name =>
    "Invalid custom operator: operator \"" ++ name ++
      "\" needs exactly one of \"at\", \"before\" or \"after\""
  | unknownAnchor name anchor =>
    "Invalid custom operator \"" ++ name ++ "\": no operator group contains '" ++ anchor ++ "'"

end OperatorFault

/-- Groups from tightest to loosest, and how repeated use of a function's symbol is read. -/
structure OperatorTable where
  groups : List OperatorGroup
  vararg : List String
  leftAssociative : List String
  deriving DecidableEq, Repr

namespace OperatorTable

/-- The operators every query has. -/
def builtin : OperatorTable where
  groups :=
    [ [("pow", "^")],
      [("multiply", "*"), ("divide", "/"), ("mod", "%")],
      [("add", "+"), ("subtract", "-")],
      [("gt", ">"), ("gte", ">="), ("lt", "<"), ("lte", "<="), ("in", "in"),
        ("not in", "not in")],
      [("eq", "=="), ("ne", "!=")],
      [("and", "and")],
      [("or", "or")],
      [("pipe", "|")] ]
  vararg := ["pipe", "and", "or"]
  leftAssociative := ["pipe", "and", "or", "multiply", "divide", "mod", "add", "subtract"]

def size (table : OperatorTable) : Nat :=
  table.groups.length

def isVararg (table : OperatorTable) (name : String) : Bool :=
  table.vararg.contains name

def isLeftAssociative (table : OperatorTable) (name : String) : Bool :=
  table.leftAssociative.contains name

/-- The place of the tightest group that names the function. -/
def precedence? (table : OperatorTable) (name : String) : Option Nat :=
  table.groups.findIdx? (Entries.contains name)

/-- The symbol of a function, from the tightest group that names it. -/
def symbol? (table : OperatorTable) (name : String) : Option String :=
  (table.groups.find? (Entries.contains name)).bind (List.lookup name)

/-- Whether a group has the symbol. -/
def hasSymbol (symbol : String) (group : OperatorGroup) : Bool :=
  (Entries.values group).contains symbol

/-- Adds one operator. -/
def add (table : OperatorTable) (operator : Operator) : Except OperatorFault OperatorTable :=
  let anchor := operator.placement.anchor
  match table.groups.findIdx? (hasSymbol anchor) with
  | none => .error (.unknownAnchor operator.name anchor)
  | some index =>
    let alone : OperatorGroup := [(operator.name, operator.symbol)]
    .ok {
      groups := match operator.placement with
        | .joining _ => table.groups.map fun group =>
          if hasSymbol anchor group then Entries.insert operator.name operator.symbol group
          else group
        | .before _ => table.groups.insertIdx index alone
        | .after _ => table.groups.insertIdx (index + 1) alone
      vararg := if operator.vararg then operator.name :: table.vararg else table.vararg
      leftAssociative :=
        if operator.leftAssociative then operator.name :: table.leftAssociative
        else table.leftAssociative }

/-- Adds operators one after the other. -/
def extend (table : OperatorTable) (operators : List Operator) :
    Except OperatorFault OperatorTable :=
  operators.foldlM add table

/-- The same groups as maps and the same sets of names. -/
def sameAs (a b : OperatorTable) : Bool :=
  a.groups.length == b.groups.length &&
    (a.groups.zip b.groups).all (fun (g, h) => g.length == h.length &&
      g.all fun (name, symbol) => h.lookup name == some symbol) &&
    sameNames a.vararg b.vararg && sameNames a.leftAssociative b.leftAssociative
where
  sameNames (xs ys : List String) : Bool := xs.all ys.contains && ys.all xs.contains

end OperatorTable

end PipeQuery
