/-
The command line: prints what the invocation asks for, or says why it cannot.
-/
import PipeQuery.Command.Invocation

open PipeQuery

def main (words : List String) : IO UInt32 := do
  match Invocation.read? words with
  | none =>
    (← IO.getStderr).putStrLn "Usage: jsonquery [--operators LIST] check|parse|format|docs|doc ..."
    return 2
  | some invocation =>
    let input ← if invocation.readsInput then some <$> (← IO.getStdin).readToEnd else pure none
    match invocation.run input with
    | .ok text =>
      (← IO.getStdout).putStr text
      return 0
    | .error fault =>
      (← IO.getStderr).putStrLn fault.message
      return 1
