/-
The manual: an overview and one page for each topic.
-/
import PipeQuery.Command

namespace PipeQuery

namespace Manual

/-- The topics, and the language in a few lines. -/
def overviewPage : String :=
"JSONQUERY DOCUMENTATION

JSON Query is a small language for querying and transforming JSON documents.
A query is a pipeline of property paths, function calls and operators that
runs against one input document.

DOCUMENTATION CATEGORIES

  syntax            Paths, literals, objects, arrays and function calls
  operators         Infix operators, precedence and custom operators
  functions         The builtin function library

QUICK REFERENCE

  .name             Property of the input
  .a.b.0            Nested path, integer keys index arrays
  f(x, y)           Function call
  \x7b k: .x \x7d         Object constructor
  [.x, 1]           Array constructor
  a | b             Pipe: run b on the output of a

Run 'jsonquery doc <category>' for detailed documentation.
"

/-- Paths, literals, calls and the JSON form. -/
def languagePage : String :=
"SYNTAX - Paths, Literals and Calls

PROPERTY PATHS

  .name                     Property \"name\" of the input
  .address.city             Nested property
  .\"first name\"             Quoted property (any JSON string)
  .items.0                  Integer key: array index, or key \"0\" on objects
  get()                     The input itself

A missing property gives null.

LITERALS

  \"text\"                    JSON string, with JSON escapes
  42   -1.5   2e3           JSON numbers
  true  false  null         Keywords

FUNCTION CALLS

  sort(.age, \"desc\")        Name followed by arguments in parentheses
  sum()                     Calls without arguments still need ()

Arguments are queries themselves. Functions such as filter and map run their
argument against each array item instead of the input.

OBJECTS AND ARRAYS

  \x7b name: .name, n: 1 \x7d     Keys are names, quoted strings or integers
  [.a, .b, 3]               Items are any queries

JSON FORM

Every query has an equivalent JSON form, used by --ast:

  .a.b                      [\"get\", \"a\", \"b\"]
  .age > 18                 [\"gt\", [\"get\", \"age\"], 18]
  \x7b n: .x \x7d                 [\"object\", \x7b \"n\": [\"get\", \"x\"] \x7d]
  [1, .x]                   [\"array\", 1, [\"get\", \"x\"]]
"

/-- Infix operators, and how to add some. -/
def operatorsPage : String :=
"OPERATORS - Infix Notation

Each operator is sugar for a two-argument function call. From tightest to
loosest binding:

  ^                         pow
  *   /   %                 multiply  divide  mod
  +   -                     add  subtract
  >  >=  <  <=  in  not in  gt  gte  lt  lte  in  \"not in\"
  ==  !=                    eq  ne
  and                       and
  or                        or
  |                         pipe

ASSOCIATIVITY

  1 - 2 - 3                 (1 - 2) - 3, for * / % + - and | and or
  .a | .b | .c              one pipe call with three arguments (| and or)
  1 == 2 == 3               rejected, write (1 == 2) == 3
  2 ^ 3 ^ 2                 rejected, write 2 ^ (3 ^ 2)

CUSTOM OPERATORS

Pass --operators with a JSON list of descriptors. Each one names the function
it calls, its symbol, and exactly one anchor symbol:

  at       join the anchor's group (same precedence)
  before   new group binding tighter than the anchor's group
  after    new group binding looser than the anchor's group

  [\x7b \"name\": \"coalesce\", \"op\": \"??\", \"after\": \"|\" \x7d]

Optional \"vararg\" and \"left_associative\" flags allow chaining.
"

/-- The library. -/
def functionsPage : String :=
"FUNCTIONS - Builtin Library

ACCESS

  get(path...)              Value at a path, null when missing
  pick(.a, .b.c)            Object with the last segment of each path as key
  object(\x7b k: q \x7d)          Object constructor
  array(q...)               Array constructor
  pipe(q...)                Run each query on the output of the previous one
  exists(.a)                Whether the path is present

ARRAYS (input must be an array)

  filter(.age > 18)         Items for which the predicate is truthy
  map(.name)                Apply a query to every item
  sort(.age, \"desc\")        Stable sort, \"asc\" by default
  reverse()                 Items in reverse order
  groupBy(.city)            Object of arrays keyed by the query result
  keyBy(.id)                Object keyed by the query result, first item wins
  flatten()                 Flatten one level
  uniq()                    Distinct items, first occurrence kept
  uniqBy(.id)               Distinct by key
  limit(10)                 First n items
  size()                    Length of an array, object or string
  join(\", \")                Concatenate item strings

OBJECTS (input must be an object)

  keys()  values()          Keys or values in order
  mapObject(\x7b key: .value, value: .key \x7d)
  mapKeys(q)  mapValues(q)  Transform keys or values

AGGREGATES

  sum()  prod()  average()  min()  max()

LOGIC AND COMPARISON

  and(a, b...)  or(a, b...) Deciding operand, all operands evaluated
  not(a)                    Negation
  eq ne gt gte lt lte       Comparisons, only between values of one type
  if(cond, then, else)      Conditional
  in(v, [..])  notIn(v, [..])

ARITHMETIC

  add subtract multiply divide mod pow abs round(v, digits?)

TEXT

  split(text, sep?)         Split on whitespace or a separator
  substring(text, start, end?)
  regex(text, \"pattern\", \"flags\"?)
  string(v)  number(v)      Conversions
"

/-- What a page of the manual is about. -/
inductive Topic where
  | language
  | operators
  | functions
  deriving DecidableEq, Repr

namespace Topic

/-- A topic by one of its names, in any case. -/
def ofName? (name : String) : Option Topic :=
  match String.ofList (name.toList.map Char.toLower) with
  | "syntax" => some language
  | "operators" | "ops" => some operators
  | "functions" | "function" | "fns" => some functions
  | _ => none

def page : Topic → String
  | language => languagePage
  | operators => operatorsPage
  | functions => functionsPage

end Topic

/-- The page of a named topic. -/
def page (name : String) : Except CommandFault String :=
  match Topic.ofName? name with
  | some topic => .ok topic.page
  | none => .error (.unknownTopic name)

end Manual

end PipeQuery
