/-
The functions behind the operators, and how calls are resolved.

Most operators take two operands, and their functions two arguments.  The functions of those that
take any number may take over the arguments of a call of their own.
-/
import PipeQuery.Compile
import PipeQuery.Printer
import PipeQuery.Proofs.Regularity

namespace PipeQuery

/-! ## Operators of any number of arguments -/

section Chains

variable {name : String} {programs : List Program} {program : Program}

/-- A function of the results of programs. -/
def afterAll (f : List Value → Value) (programs : List Program) : Program := fun data => do
  let values ← programs.mapM fun program => program data
  return f values

/-- The program of a call made from those of its arguments: that of one argument is its own, and
among others the empty call makes no difference, save for `and`. -/
structure Chained (name : String) (combine : List Program → Program) : Prop where
  build {args : List Query} {compile : Compiler} {program : Program} {function : Function}
    (h : Library.builtin.lookup name = some function) :
    function.build name args compile = .ok program ↔
      ∃ programs, args.mapM compile = .ok programs ∧ combine programs = program
  single (program : Program) : combine [program] = program
  empty (hname : name ≠ "and") {programs : List Program} (hne : programs ≠ []) :
    combine (combine [] :: programs) = combine programs

theorem build_variadic {f : List Value → Value} {args : List Query} {compile : Compiler} :
    (Function.variadic f).build name args compile = .ok program ↔
      ∃ programs, args.mapM compile = .ok programs ∧ afterAll f programs = program := by
  have hcheck : Arity.any.check name args.length = .ok () := by
    simp [Arity.check, Arity.accepts, Arity.any]
  constructor
  · intro h
    obtain ⟨_, _, h⟩ := ok_of_bind h
    obtain ⟨programs, hprograms, h⟩ := ok_of_bind h
    exact ⟨programs, hprograms, Except.ok.inj h⟩
  · rintro ⟨programs, hprograms, rfl⟩
    exact bind_ok hcheck (bind_ok hprograms rfl)

theorem afterAll_single {f : List Value → Value} (hf : ∀ value, f [value] = value) :
    afterAll f [program] = program := by
  funext data
  simp only [afterAll, List.mapM_cons, List.mapM_nil, pure_bind, bind_assoc, hf, bind_pure]

theorem afterAll_empty {f : List Value → Value}
    (hf : ∀ value values, f (f [] :: value :: values) = f (value :: values)) (hne : programs ≠ []) :
    afterAll f (afterAll f [] :: programs) = afterAll f programs := by
  obtain ⟨first, programs, rfl⟩ := List.exists_cons_of_ne_nil hne
  funext data
  have hempty : afterAll f [] data = .ok (f []) := rfl
  simp only [afterAll, List.mapM_cons, List.mapM_nil, pure_bind, bind_assoc, hf]

theorem chained_and : Chained "and" (afterAll Logic.all) where
  build h := by
    obtain rfl := Option.some.inj h
    exact build_variadic
  single program := afterAll_single fun value => by cases h : value.isTrue <;> simp [Logic.all, h]
  empty hname := absurd rfl hname

theorem chained_or : Chained "or" (afterAll Logic.any) where
  build h := by
    obtain rfl := Option.some.inj h
    exact build_variadic
  single program := afterAll_single fun value => by cases h : value.isTrue <;> simp [Logic.any, h]
  empty _ _ hne := afterAll_empty (fun value values => by simp [Logic.any, Value.isTrue]) hne

theorem chained_pipe : Chained "pipe" Access.pipe where
  build h := by
    obtain rfl := Option.some.inj h
    constructor
    · intro h
      obtain ⟨programs, hprograms, h⟩ := ok_of_bind h
      exact ⟨programs, hprograms, Except.ok.inj h⟩
    · rintro ⟨programs, hprograms, rfl⟩
      exact bind_ok hprograms rfl
  single program := by
    funext data
    simp [Access.pipe]
  empty _ _ _ := by
    funext data
    simp [Access.pipe]

theorem exists_chained (h : OperatorTable.builtin.isVararg name = true) :
    ∃ combine, Chained name combine := by
  have hname : name = "pipe" ∨ name = "and" ∨ name = "or" := by
    simpa [OperatorTable.isVararg, OperatorTable.builtin] using h
  rcases hname with rfl | rfl | rfl
  · exact ⟨_, chained_pipe⟩
  · exact ⟨_, chained_and⟩
  · exact ⟨_, chained_or⟩

/-- A call may take over the arguments of a call of its own that it starts with, unless that is the
empty call of `and`. -/
theorem Chained.flatten {combine : List Program → Program} (h : Chained name combine)
    {inner : List Program} (hinner : inner.length ≤ 1) (hne : programs ≠ [])
    (hempty : inner = [] → name ≠ "and") :
    combine (inner ++ programs) = combine (combine inner :: programs) := by
  rcases inner with _ | ⟨program, _ | ⟨second, rest⟩⟩
  · rw [h.empty (hempty rfl) hne, List.nil_append]
  · rw [h.single, List.singleton_append]
  · simp at hinner

end Chains

/-! ## Resolving calls -/

section Calls

variable {registry : Registry} {limit budget : Nat} {name symbol : String} {args : List Query}
  {function : Function} {program : Program}

theorem compileWithin_literal (value : Value) :
    compileWithin registry limit budget (.literal value) = .ok fun _ => .ok value := by
  cases budget <;> rfl

theorem compileWithin_call (hlookup : registry.lookup name = some function)
    (h : function.build name args (compileWithin registry limit budget) = .ok program) :
    compileWithin registry limit (budget + 1) (.call name args) = .ok program := by
  rw [compileWithin, hlookup]
  exact h

theorem exists_function_of_compileWithin
    (h : compileWithin registry limit budget (.call name args) = .ok program) :
    ∃ inner function, budget = inner + 1 ∧ registry.lookup name = some function ∧
      function.build name args (compileWithin registry limit inner) = .ok program := by
  cases budget with
  | zero => exact nomatch h
  | succ inner =>
      rw [compileWithin] at h
      cases hlookup : registry.lookup name with
      | none =>
          rw [hlookup] at h
          exact nomatch h
      | some function =>
          rw [hlookup] at h
          exact ⟨inner, function, rfl, rfl, h⟩

theorem not_compileWithin_mapping {entries : List (String × Query)} :
    compileWithin registry limit budget (.mapping entries) ≠ .ok program := by
  cases budget <;> exact nofun

/-- A function of exactly two values. -/
def Function.isBinary : Function → Bool
  | .value arity _ => arity == .exactly 2
  | _ => false

namespace Library

/-- The operators that do not take any number of operands take two. -/
theorem binary_operators :
    builtin.all (fun entry => (OperatorTable.builtin.symbol? entry.1).isNone ||
      OperatorTable.builtin.isVararg entry.1 || entry.2.isBinary) = true := by
  decide +kernel

theorem plain_names :
    builtin.all (fun entry => isPlainName (Printer.functionName entry.1)) = true := by
  decide +kernel

theorem isPlainName_of_lookup (h : builtin.lookup name = some function) :
    isPlainName (Printer.functionName name) = true :=
  List.all_eq_true.1 plain_names _ (Entries.mem_of_lookup h)

theorem length_of_operator (h : builtin.lookup name = some function)
    (hsymbol : OperatorTable.builtin.symbol? name = some symbol)
    (hvararg : OperatorTable.builtin.isVararg name = false) {compile : Compiler}
    (hbuild : function.build name args compile = .ok program) : args.length = 2 := by
  have hbinary : function.isBinary = true := by
    simpa [hsymbol, hvararg] using List.all_eq_true.1 binary_operators _ (Entries.mem_of_lookup h)
  cases function with
  | value arity call =>
      obtain rfl : arity = .exactly 2 := by simpa [Function.isBinary] using hbinary
      obtain ⟨_, hcheck, _⟩ := ok_of_bind hbuild
      unfold Arity.check at hcheck
      split at hcheck
      · rename_i haccepts
        simp only [Arity.accepts, Arity.exactly, Bool.and_eq_true, decide_eq_true_eq] at haccepts
        exact Nat.le_antisymm haccepts.2 (of_decide_eq_true haccepts.1)
      · cases hcheck
  | higherOrder build => cases hbinary

end Library

end Calls

end PipeQuery
