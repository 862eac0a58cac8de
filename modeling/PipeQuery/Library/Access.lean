/-
Functions that reach into a document, build new ones and chain queries.
-/
import PipeQuery.Function
import PipeQuery.Path

namespace PipeQuery

namespace Access

/-- Each path of `pick` with the key it is stored at. -/
def pickedPath (arg : Query) : Except ReferenceFault (String × Path) := do
  let path ← Path.ofQuery "pick" arg
  match path.lastKey? with
  | some key => return (key, path)
  | none => .error (.invalidArgument "pick" .emptyPath)

/-- The object of the values at some paths. -/
def pick (paths : List (String × Path)) (value : Value) : Value :=
  .obj (Entries.ofList (paths.map fun (key, path) => (key, path.get value)))

/-- The object of the results of some programs. -/
def objectOf (programs : List (String × Program)) : Program := fun data => do
  let members ← programs.mapM fun (key, program) => do return (key, ← program data)
  return .obj (Entries.ofList members)

/-- The array of the results of some programs. -/
def arrayOf (programs : List Program) : Program := fun data => do
  return .arr (← programs.mapM fun program => program data)

/-- Each program on the result of the one before it. -/
def pipe (programs : List Program) : Program := fun data =>
  programs.foldlM (fun value program => program value) data

end Access

namespace Library

open Access

/-- Functions on paths, constructors and the pipe. -/
def access : Registry :=
  [ ("get", .higherOrder fun args _ => do
      let path ← Path.ofArgs "get" args
      return fun data => .ok (path.get data)),
    ("pick", .higherOrder fun args _ => do
      let paths ← args.mapM pickedPath
      return fun
        | .arr items => .ok (.arr (items.map (pick paths)))
        | item => .ok (pick paths item)),
    ("object", .higherOrder fun args compile =>
      match args with
      | [.mapping entries] => do
        let programs ← entries.mapM fun (key, query) => do return (key, ← compile query)
        return objectOf programs
      | [other] => .error (.invalidArgument "object" (.mappingExpected other))
      | _ => .error (.invalidArgument "object" (.wrongCount (.exactly 1) args.length))),
    ("array", .higherOrder fun args compile => do return arrayOf (← args.mapM compile)),
    ("pipe", .higherOrder fun args compile => do return pipe (← args.mapM compile)),
    ("exists", .higherOrder fun args _ =>
      match args with
      | [arg] => do
        let path ← Path.ofQuery "exists" arg
        return fun data => .ok (.bool (path.isPresent data))
      | _ => .error (.invalidArgument "exists" (.wrongCount (.exactly 1) args.length))) ]

end Library

end PipeQuery
