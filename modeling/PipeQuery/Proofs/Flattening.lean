/-
Chains written as one call.

An argument of `and`, `or` or `pipe` that is a call of the same function may give its own arguments
in its place.  The law holds of lists of values, is carried from there to lists of programs, and
from these to queries, where the inner call costs a level of nesting and nothing else.
-/
import PipeQuery.Proofs.Depth
import PipeQuery.Proofs.Limits

namespace PipeQuery

/-! ## Splicing a list into a list -/

/-- A result of some elements stands for them wherever it is one of the elements itself. -/
def Splices {α : Type} (combine : List α → α) : Prop :=
  ∀ before first others after,
    combine (before ++ combine (first :: others) :: after) =
      combine (before ++ (first :: others) ++ after)

/-- The first value that decides, or the last. -/
theorem splices_find? (decides : Value → Bool) :
    Splices fun args => (args.find? decides).getD (args.getLast?.getD .null) := by
  intro before first others after
  dsimp only
  cases hfound : (first :: others).find? decides with
  | some value =>
      have hvalue : decides value = true := List.find?_some hfound
      simp only [List.find?_append, List.find?_cons, hfound, hvalue, Option.getD_some,
        Option.or_some, Option.some_or]
  | none =>
      -- without a deciding value among them the inner values give their last, which is no decision
      obtain ⟨last, hlast⟩ : ∃ last, (first :: others).getLast? = some last :=
        ⟨_, List.getLast?_eq_some_getLast (List.cons_ne_nil _ _)⟩
      have hmem : last ∈ first :: others := List.mem_of_getLast? hlast
      have hundecided : decides last = false := by simpa using List.find?_eq_none.1 hfound last hmem
      rw [hlast, Option.getD_none, Option.getD_some, List.append_assoc, List.find?_append,
        List.find?_append, List.find?_append, hfound, List.find?_cons_of_neg (by simp [hundecided]),
        Option.none_or, List.getLast?_append, List.getLast?_append, List.getLast?_append, hlast,
        List.getLast?_cons]
      cases after.getLast? <;> rfl

theorem splices_all : Splices Logic.all :=
  splices_find? fun value => !value.isTrue

theorem splices_any : Splices Logic.any :=
  splices_find? Value.isTrue

/-- The results of the programs stand in the order of the programs, so the first of them to fail is
the same on both sides. -/
theorem splices_afterAll {f : List Value → Value} (h : Splices f) : Splices (afterAll f) := by
  intro before first others after
  funext data
  simp only [afterAll, List.mapM_append, List.mapM_cons, bind_assoc, pure_bind]
  refine congrArg _ (funext fun earlier => congrArg _ (funext fun value => congrArg _ (funext
    fun values => congrArg _ (funext fun later => ?_))))
  rw [h]

theorem splices_pipe : Splices Access.pipe := by
  intro before first others after
  funext data
  simp only [Access.pipe, List.foldlM_append, List.foldlM_cons, bind_assoc]

/-! ## Compiling the spliced call -/

section Calls

variable {limit budget : Nat} {name : String} {combine : List Program → Program}

/-- A call compiles all its arguments and combines their programs. -/
def Combines (name : String) (combine : List Program → Program) : Prop :=
  ∃ function, Library.builtin.lookup name = some function ∧
    ∀ args compile, function.build name args compile = combine <$> args.mapM compile

theorem combines_and : Combines "and" (afterAll Logic.all) :=
  ⟨_, rfl, fun _ _ => rfl⟩

theorem combines_or : Combines "or" (afterAll Logic.any) :=
  ⟨_, rfl, fun _ _ => rfl⟩

theorem combines_pipe : Combines "pipe" Access.pipe :=
  ⟨_, rfl, fun _ _ => rfl⟩

theorem Combines.compileWithin_call (h : Combines name combine) (args : List Query) :
    compileWithin Library.builtin limit (budget + 1) (.call name args) =
      combine <$> args.mapM (compileWithin Library.builtin limit budget) := by
  obtain ⟨function, hlookup, hbuild⟩ := h
  rw [compileWithin, hlookup]
  exact hbuild _ _

/-- The program of the inner call, one level higher. -/
theorem Combines.retains_call (h : Combines name combine) (args : List Query) :
    Retains ReferenceFault.IsTooDeep (compileWithin Library.builtin limit budget (.call name args))
      (combine <$> args.mapM (compileWithin Library.builtin limit budget)) := by
  cases budget with
  | zero => exact .refused ⟨limit, rfl⟩
  | succ budget =>
      rw [h.compileWithin_call]
      refine Retains.map (.mapM fun arg _ => ?_) combine
      exact retains_compileWithin (Nat.le_succ budget) arg

/-- The inner elements are combined first, and the result with the others. -/
theorem Splices.map_mapM (h : Splices combine) {compile : Compiler} (before : List Query)
    (first : Query) (others after : List Query) :
    combine <$> (before ++ (first :: others) ++ after).mapM compile = (do
      let earlier ← before.mapM compile
      let program ← combine <$> (first :: others).mapM compile
      let later ← after.mapM compile
      return combine (earlier ++ program :: later)) := by
  simp only [List.mapM_append, List.mapM_cons, map_eq_pure_bind, bind_assoc, pure_bind, h _ _ _ _]

/-- The nested call is refused for its nesting, or it is compiled to what the call with the inner
arguments in their place is compiled to. -/
theorem Combines.retains_splice (h : Combines name combine) (hsplices : Splices combine)
    (before : List Query) (first : Query) (others after : List Query) :
    Retains ReferenceFault.IsTooDeep
      (compileWithin Library.builtin limit (budget + 1)
        (.call name (before ++ .call name (first :: others) :: after)))
      (compileWithin Library.builtin limit (budget + 1)
        (.call name (before ++ (first :: others) ++ after))) := by
  have hnested (call : Query) (compile : Compiler) :
      combine <$> (before ++ call :: after).mapM compile = (do
        let earlier ← before.mapM compile
        let program ← compile call
        let later ← after.mapM compile
        return combine (earlier ++ program :: later)) := by
    simp only [List.mapM_append, List.mapM_cons, map_eq_pure_bind, bind_assoc, pure_bind]
  rw [h.compileWithin_call, h.compileWithin_call, hsplices.map_mapM, hnested]
  refine Retains.bind (.same _) fun earlier => ?_
  exact (h.retains_call _).bind fun program => .same _

end Calls

/-- An argument of `and`, `or` or `pipe` that is a call of the same function, and not an empty one,
may give its arguments in its place: where the limit has room for the nested call, either both calls
are compiled, and to the same program, which on every document has the same value or the same fault,
or both are refused, and for the same reason. -/
theorem compile_flatten {limit : Nat} {name : String} (hname : name ∈ ["and", "or", "pipe"])
    {before inner after : List Query} (hinner : inner ≠ [])
    (hlimit : (Query.call name (before ++ .call name inner :: after)).height ≤ limit) :
    compile Library.builtin limit (.call name (before ++ .call name inner :: after)) =
      compile Library.builtin limit (.call name (before ++ inner ++ after)) := by
  obtain ⟨combine, hcombines, hsplices⟩ :
      ∃ combine, Combines name combine ∧ Splices combine := by
    simp only [List.mem_cons, List.not_mem_nil, or_false] at hname
    rcases hname with rfl | rfl | rfl
    · exact ⟨_, combines_and, splices_afterAll splices_all⟩
    · exact ⟨_, combines_or, splices_afterAll splices_any⟩
    · exact ⟨_, combines_pipe, splices_pipe⟩
  obtain ⟨first, others, rfl⟩ := List.exists_cons_of_ne_nil hinner
  obtain ⟨budget, rfl, _⟩ := Query.exists_budget_of_height hlimit
  refine ((hcombines.retains_splice hsplices before first others after).eq_of_not_refusal ?_).symm
  rintro fault hfault ⟨depth, rfl⟩
  exact shallow_compileWithin hlimit depth hfault

/-- A pipe inside a pipe, within a limit that has room for just that. -/
theorem compile_flatten_pipe :
    let nested := Query.call "pipe"
      [.get ["a"], .call "pipe" [.call "keys" [], .call "sort" []], .call "reverse" []]
    let flat := Query.call "pipe"
      [.get ["a"], .call "keys" [], .call "sort" [], .call "reverse" []]
    nested.height ≤ 3 ∧ (∃ program, compile Library.builtin 3 nested = .ok program) ∧
      compile Library.builtin 3 nested = compile Library.builtin 3 flat := by
  intro nested flat
  have hheight : nested.height ≤ 3 := by simp [nested, Query.get, Query.height]
  refine ⟨hheight, ⟨_, rfl⟩, ?_⟩
  exact @compile_flatten 3 "pipe" (by simp) [.get ["a"]] [.call "keys" [], .call "sort" []]
    [.call "reverse" []] (List.cons_ne_nil _ _) hheight

end PipeQuery
