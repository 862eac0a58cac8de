/-
Resolving queries against a registry, once, into programs that run on any document.
-/
import PipeQuery.Function

namespace PipeQuery

/-- The program of a query in which at most `budget` calls are nested; `limit` is the budget that a
refusal names. -/
def compileWithin (registry : Registry) (limit : Nat) : (budget : Nat) → Compiler
  | _, .literal value => .ok fun _ => .ok value
  | 0, .call _ _ => .error (.tooDeep limit)
  | budget + 1, .call name args =>
    match registry.lookup name with
    | none => .error (.unknownFunction name)
    | some function => function.build name args (compileWithin registry limit budget)
  | _, .mapping _ => .error .mappingNotAllowed

/-- The program of a query. -/
def compile (registry : Registry) (limit : Nat) (query : Query) :
    Except ReferenceFault Program :=
  compileWithin registry limit limit query

end PipeQuery
