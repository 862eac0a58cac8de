/-
Raising the limit of nesting.

A higher limit takes away refusals of nesting and changes nothing else.  No production and no
function goes on after such a refusal, so a result is a refusal or the result under the higher
limit, and every node keeps that.
-/
import Mathlib.Data.Nat.Init
import PipeQuery.Parser
import PipeQuery.Proofs.Resolution

namespace PipeQuery

/-! ## Results that differ in refusals alone -/

section Retains

variable {ε α β : Type} {refusal : ε → Prop}

/-- The first result is a refusal, or both are the same. -/
inductive Retains (refusal : ε → Prop) : Except ε α → Except ε α → Prop
  | refused {fault : ε} {result : Except ε α} (h : refusal fault) :
      Retains refusal (.error fault) result
  | same (result : Except ε α) : Retains refusal result result

namespace Retains

/-- What goes on with one of two results: they are a refusal, the same fault or the same value. -/
@[elab_as_elim]
theorem elim {x x' : Except ε α} {motive : Except ε α → Except ε α → Prop}
    (h : Retains refusal x x')
    (refused : ∀ fault result, refusal fault → motive (.error fault) result)
    (error : ∀ fault, motive (.error fault) (.error fault)) (ok : ∀ a, motive (.ok a) (.ok a)) :
    motive x x' := by
  cases h with
  | refused h => exact refused _ _ h
  | same =>
      cases x with
      | error fault => exact error fault
      | ok a => exact ok a

theorem bind {x x' : Except ε α} {f f' : α → Except ε β} (h : Retains refusal x x')
    (hf : ∀ a, Retains refusal (f a) (f' a)) : Retains refusal (x.bind f) (x'.bind f') := by
  cases h with
  | refused h => exact .refused h
  | same =>
      cases x with
      | error fault => exact .same _
      | ok a => exact hf a

theorem map {x x' : Except ε α} (h : Retains refusal x x') (f : α → β) :
    Retains refusal (x.map f) (x'.map f) := by
  cases h with
  | refused h => exact .refused h
  | same => exact .same _

theorem mapM {f f' : α → Except ε β} {xs : List α} (h : ∀ x ∈ xs, Retains refusal (f x) (f' x)) :
    Retains refusal (xs.mapM f) (xs.mapM f') := by
  induction xs with
  | nil => exact .same _
  | cons x xs ih =>
      rw [List.mapM_cons, List.mapM_cons]
      have htail := ih fun x hx => h x (List.mem_cons_of_mem _ hx)
      exact (h x List.mem_cons_self).bind fun _ => htail.bind fun _ => .same _

theorem eq_of_not_refusal {x x' : Except ε α} (h : Retains refusal x x')
    (hx : ∀ fault, x = .error fault → ¬ refusal fault) : x' = x := by
  cases h with
  | refused h => exact absurd h (hx _ rfl)
  | same => rfl

end Retains

end Retains

/-! ## Parsing -/

namespace Parser

open Scan (skipBlanks)

variable {α : Type}

/-- Reading stopped at the limit of nesting. -/
def Stop.IsTooDeep (stop : Stop) : Prop :=
  ∃ limit, stop.cause = .tooDeep limit

/-- On every text, the first production refuses the nesting or both do the same. -/
def RetainedBy (production production' : Production α) : Prop :=
  ∀ text, Retains Stop.IsTooDeep (production text) (production' text)

variable {limit limit' : Nat} {expression expression' : Production Operand}

section Nested

variable (h : RetainedBy expression expression')
include h

theorem retains_moreArguments :
    RetainedBy (moreArguments expression) (moreArguments expression') := by
  intro text
  induction hlength : text.length using Nat.strong_induction_on generalizing text with
  | h length ih =>
      unfold moreArguments
      split
      · exact .same _
      split
      · exact .same _
      split
      · exact .same _
      · rename_i comma _
        refine (h comma.rest).elim (fun _ _ => .refused) (fun _ => .same _) fun arg => ?_
        have hshorter : arg.rest.length < length := by
          have := arg.shorter
          have := comma.shorter
          have := Scan.length_skipBlanks_le text
          omega
        dsimp only
        exact (ih _ hshorter _ rfl).elim (fun _ _ => .refused) (fun _ => .same _) fun _ => .same _

theorem retains_arguments : RetainedBy (arguments expression) (arguments expression') := by
  intro text
  unfold arguments
  split
  · exact .same _
  · refine (h text).elim (fun _ _ => .refused) (fun _ => .same _) fun arg => ?_
    dsimp only
    exact (retains_moreArguments h arg.rest).elim (fun _ _ => .refused) (fun _ => .same _)
      fun _ => .same _

theorem retains_entry : RetainedBy (entry expression) (entry expression') := by
  intro text
  unfold entry
  split
  · exact .same _
  split
  · exact .same _
  · rename_i colon _
    exact (h colon.rest).elim (fun _ _ => .refused) (fun _ => .same _) fun _ => .same _

omit h in
theorem retains_moreItems {closing : Char} {item item' : Production α} (h : RetainedBy item item') :
    RetainedBy (moreItems closing item) (moreItems closing item') := by
  intro text
  induction hlength : text.length using Nat.strong_induction_on generalizing text with
  | h length ih =>
      unfold moreItems
      split
      · exact .same _
      split
      · exact .same _
      split
      · exact .same _
      · rename_i comma _
        refine (h (skipBlanks comma.rest)).elim (fun _ _ => .refused) (fun _ => .same _)
          fun first => ?_
        have hshorter : first.rest.length < length := by
          have := first.shorter
          have := comma.shorter
          have := Scan.length_skipBlanks_le comma.rest
          omega
        dsimp only
        exact (ih _ hshorter _ rfl).elim (fun _ _ => .refused) (fun _ => .same _) fun _ => .same _

omit h in
theorem retains_items {closing : Char} {item item' : Production α} (h : RetainedBy item item') :
    RetainedBy (items closing item) (items closing item') := by
  intro text
  unfold items
  split
  · exact .same _
  split
  · exact .same _
  · refine (h text).elim (fun _ _ => .refused) (fun _ => .same _) fun first => ?_
    dsimp only
    exact (retains_moreItems h first.rest).elim (fun _ _ => .refused) (fun _ => .same _)
      fun _ => .same _

theorem retains_parenthesis : RetainedBy (parenthesis expression) (parenthesis expression') := by
  intro text
  unfold parenthesis
  exact (h text).elim (fun _ _ => .refused) (fun _ => .same _) fun _ => .same _

omit h in
/-- The first check of a limit that a tree fails is a refusal. -/
theorem retains_bounded (hlimit : limit ≤ limit') {text : List Char} (taken : Taken Operand text) :
    Retains Stop.IsTooDeep (bounded limit taken) (bounded limit' taken) := by
  unfold bounded
  by_cases hheight : limit < taken.value.height
  · rw [if_pos hheight]
    exact .refused ⟨limit, rfl⟩
  · rw [if_neg hheight, if_neg (by omega)]
    exact .same _

variable (hlimit : limit ≤ limit')
include hlimit

theorem retains_object : RetainedBy (object limit expression) (object limit' expression') := by
  intro text
  unfold object
  refine (retains_items (retains_entry h) (skipBlanks text)).elim (fun _ _ => .refused)
    (fun _ => .same _) fun entries => ?_
  exact retains_bounded hlimit _

theorem retains_array : RetainedBy (array limit expression) (array limit' expression') := by
  intro text
  unfold array
  refine (retains_items h (skipBlanks text)).elim (fun _ _ => .refused) (fun _ => .same _)
    fun operands => ?_
  exact retains_bounded hlimit _

/-- Whether a call is next does not depend on the limit. -/
theorem retains_call? (text : List Char) :
    (call? limit expression text = none ∧ call? limit' expression' text = none) ∨
      ∃ x x', call? limit expression text = some x ∧ call? limit' expression' text = some x' ∧
        Retains Stop.IsTooDeep x x' := by
  unfold call?
  cases Scan.name? text with
  | none => exact .inl ⟨rfl, rfl⟩
  | some name =>
      dsimp only
      cases Scan.char? '(' (skipBlanks name.rest) with
      | none => exact .inl ⟨rfl, rfl⟩
      | some opening =>
          refine .inr ⟨_, _, rfl, rfl, ?_⟩
          refine (retains_arguments h (skipBlanks opening.rest)).elim (fun _ _ => .refused)
            (fun _ => .same _) fun args => ?_
          exact retains_bounded hlimit _

theorem retains_tightest :
    RetainedBy (tightest limit expression) (tightest limit' expression') := by
  intro text
  unfold tightest
  split
  · exact (retains_parenthesis h _).map _
  split
  · exact .same _
  rcases retains_call? h hlimit text with ⟨hcall, hcall'⟩ | ⟨x, x', hcall, hcall', hx⟩
  · simp only [hcall, hcall']
    split
    · exact (retains_object h hlimit _).map _
    split
    · exact (retains_array h hlimit _).map _
    · exact .same _
  · simp only [hcall, hcall']
    exact hx

theorem retains_primary : RetainedBy (primary limit expression) (primary limit' expression') :=
  fun text => (retains_tightest h hlimit (skipBlanks text)).map _

end Nested

section Ladder

variable {table : OperatorTable} {operators : OperatorGroup} {tighter tighter' : Production Operand}

theorem retains_chain (h : RetainedBy tighter tighter') (hlimit : limit ≤ limit') {text : List Char}
    (left : Taken Operand text) :
    Retains Stop.IsTooDeep (chain table limit operators tighter left)
      (chain table limit' operators tighter' left) := by
  induction hlength : left.rest.length using Nat.strong_induction_on generalizing left with
  | h length ih =>
      rw [chain, chain]
      dsimp only
      split
      · exact .same _
      split
      · exact .same _
      · rename_i name after _ _
        refine (h after.val).elim (fun _ _ => .refused) (fun _ => .same _) fun right => ?_
        have hshorter : right.rest.length < length := by
          have := right.shorter
          have := after.property
          have := Scan.length_skipBlanks_le left.rest
          omega
        dsimp only
        by_cases hheight : limit < (Operand.join table name left.value right.value).height
        · rw [if_pos hheight]
          exact .refused ⟨limit, rfl⟩
        · rw [if_neg hheight, if_neg (by omega)]
          exact ih _ hshorter _ rfl

theorem retains_rung (h : RetainedBy tighter tighter') (hlimit : limit ≤ limit') :
    RetainedBy (rung table limit operators tighter) (rung table limit' operators tighter') := by
  intro text
  unfold rung
  exact (h text).elim (fun _ _ => .refused) (fun _ => .same _) fun left =>
    retains_chain h hlimit left

theorem retains_foldl_rung (groups : List OperatorGroup) (h : RetainedBy tighter tighter')
    (hlimit : limit ≤ limit') :
    RetainedBy
      (groups.foldl (fun tighter group => rung table limit (candidates group) tighter) tighter)
      (groups.foldl (fun tighter group => rung table limit' (candidates group) tighter)
        tighter') := by
  induction groups generalizing tighter tighter' with
  | nil => exact h
  | cons group groups ih => exact ih (retains_rung h hlimit)

end Ladder

/-- A higher limit and a higher budget retain what an expression is read as. -/
theorem retains_expression {table : OperatorTable} {budget budget' : Nat} (hlimit : limit ≤ limit')
    (hbudget : budget ≤ budget') :
    RetainedBy (Parser.expression table limit budget) (Parser.expression table limit' budget') := by
  induction budget generalizing budget' with
  | zero => exact fun _ => .refused ⟨limit, rfl⟩
  | succ budget ih =>
      obtain ⟨budget', rfl⟩ := Nat.exists_eq_succ_of_ne_zero (Nat.ne_zero_of_lt hbudget)
      have hinner := ih (Nat.le_of_succ_le_succ hbudget)
      exact retains_foldl_rung _ (retains_primary hinner hlimit) hlimit

end Parser

/-- A text that is not refused for its nesting is read the same under a higher limit. -/
theorem parse_eq_of_le {table : OperatorTable} {limit limit' : Nat} {text : String}
    (hlimit : limit ≤ limit')
    (h : ∀ fault, parse table limit text = .error fault → ∀ n, fault.cause ≠ .tooDeep n) :
    parse table limit' text = parse table limit text := by
  have hexpression : Parser.expression table limit' limit' text.toList =
      Parser.expression table limit limit text.toList := by
    refine (Parser.retains_expression hlimit hlimit text.toList).eq_of_not_refusal ?_
    rintro stop hstop ⟨n, hcause⟩
    have hparse : parse table limit text = .error (stop.toFault text) := by
      rw [parse, hstop]
    exact h _ hparse n hcause
  rw [parse, parse, hexpression]

/-! ## Compiling -/

/-- The nesting of a query is refused. -/
def ReferenceFault.IsTooDeep (fault : ReferenceFault) : Prop :=
  ∃ limit, fault = .tooDeep limit

/-- Compilers of which the second retains what the first gives make programs of a call of which the
second retains the first. -/
def Function.Retaining (name : String) (function : Function) : Prop :=
  ∀ ⦃args : List Query⦄ ⦃compile compile' : Compiler⦄,
    (∀ query, Retains ReferenceFault.IsTooDeep (compile query) (compile' query)) →
      Retains ReferenceFault.IsTooDeep (function.build name args compile)
        (function.build name args compile')

namespace Function

variable {name : String}

theorem Retaining.value (arity : Arity) (call : List Value → Except RuntimeFault Value) :
    Retaining name (.value arity call) := by
  intro args compile compile' h
  exact Retains.bind (.same _) fun _ => Retains.bind (.mapM fun arg _ => h arg) fun _ => .same _

/-- A function that compiles nothing. -/
theorem Retaining.constant (build : List Query → Except ReferenceFault Program) :
    Retaining name (.higherOrder fun args _ => build args) := by
  intro args compile compile' _
  exact .same _

theorem Retaining.nullary (program : Program) : Retaining name (.nullary name program) :=
  .constant _

theorem Retaining.overQuery (program : Program → Program) :
    Retaining name (.overQuery name program) := by
  intro args compile compile' h
  rcases args with _ | ⟨arg, _ | ⟨second, others⟩⟩
  · exact .same _
  · exact (h arg).bind fun _ => .same _
  · exact .same _

theorem Retaining.combining (combine : List Program → Program) :
    Retaining name
      (.higherOrder fun args compile => do return combine (← args.mapM compile)) := by
  intro args compile compile' h
  exact Retains.bind (.mapM fun arg _ => h arg) fun _ => .same _

end Function

open PipeQuery.Function (Retaining)

namespace Library

theorem retaining_access : ∀ entry ∈ access, Retaining entry.1 entry.2 := by
  simp only [access, List.forall_mem_cons]
  refine ⟨.constant _, .constant _, ?object, .combining _, .combining _, .constant _, by simp⟩
  intro args compile compile' h
  rcases args with _ | ⟨(value | ⟨name, args⟩ | entries), _ | ⟨second, others⟩⟩
  case cons.mapping.nil =>
    refine Retains.bind (.mapM fun entry _ => ?_) fun _ => .same _
    exact (h entry.2).bind fun _ => .same _
  all_goals exact .same _

theorem retaining_collections : ∀ entry ∈ collections, Retaining entry.1 entry.2 := by
  simp only [collections, List.forall_mem_cons]
  refine ⟨.overQuery _, .overQuery _, .overQuery _, .overQuery _, .overQuery _, ?sort,
    .nullary _, .overQuery _, .overQuery _, .nullary _, .nullary _, .overQuery _, .constant _,
    .nullary _, .nullary _, .nullary _, by simp⟩
  intro args compile compile' h
  refine Retains.bind (.same _) fun _ => ?_
  cases args with
  | nil => exact .same _
  | cons arg others => exact ((h arg).map some).bind fun _ => .same _

theorem retaining_aggregates : ∀ entry ∈ aggregates, Retaining entry.1 entry.2 := by
  intro entry hentry
  obtain ⟨⟨name, aggregate⟩, _, rfl⟩ := List.mem_map.1 hentry
  exact .nullary _

theorem retaining_logic : ∀ entry ∈ logic, Retaining entry.1 entry.2 := by
  simp only [logic, List.forall_mem_cons]
  refine ⟨.value _ _, .value _ _, .value _ _, .value _ _, .value _ _, .value _ _, .value _ _,
    .value _ _, .value _ _, ?choice, .value _ _, .value _ _, .value _ _, by simp⟩
  intro args compile compile' h
  rcases args with _ | ⟨condition, _ | ⟨yes, _ | ⟨no, _ | ⟨next, others⟩⟩⟩⟩
  case cons.cons.cons.nil =>
    exact (h condition).bind fun _ => (h yes).bind fun _ => (h no).bind fun _ => .same _
  all_goals exact .same _

theorem retaining_arithmetic : ∀ entry ∈ arithmetic, Retaining entry.1 entry.2 := by
  simp only [arithmetic, List.forall_mem_cons]
  exact ⟨.value _ _, .value _ _, .value _ _, .value _ _, .value _ _, .value _ _, .value _ _,
    .value _ _, by simp⟩

theorem retaining_text : ∀ entry ∈ text, Retaining entry.1 entry.2 := by
  simp only [text, List.forall_mem_cons]
  refine ⟨.constant _, .value _ _, .value _ _, ?regex, .value _ _, .value _ _, by simp⟩
  intro args compile compile' h
  refine Retains.bind (.same _) fun _ => ?_
  rcases args with _ | ⟨getter, _ | ⟨source, flags⟩⟩
  · exact .same _
  · exact .same _
  · exact (h getter).bind fun _ => .same _

theorem retaining_of_lookup {name : String} {function : Function}
    (h : builtin.lookup name = some function) : Retaining name function :=
  forall_of_lookup retaining_access retaining_collections retaining_aggregates retaining_logic
    retaining_arithmetic retaining_text h

end Library

/-- A higher budget retains the program of a query. -/
theorem retains_compileWithin {limit limit' budget budget' : Nat} (hbudget : budget ≤ budget')
    (query : Query) :
    Retains ReferenceFault.IsTooDeep (compileWithin Library.builtin limit budget query)
      (compileWithin Library.builtin limit' budget' query) := by
  induction budget generalizing budget' query with
  | zero =>
      cases query with
      | call name args => exact .refused ⟨limit, rfl⟩
      | literal value =>
          rw [compileWithin_literal, compileWithin_literal]
          exact .same _
      | mapping entries => cases budget' <;> exact .same _
  | succ budget ih =>
      obtain ⟨budget', rfl⟩ := Nat.exists_eq_succ_of_ne_zero (Nat.ne_zero_of_lt hbudget)
      cases query with
      | literal value => exact .same _
      | mapping entries => exact .same _
      | call name args =>
          rw [compileWithin, compileWithin]
          split
          · exact .same _
          · rename_i function hlookup
            exact Library.retaining_of_lookup hlookup fun query =>
              ih (Nat.le_of_succ_le_succ hbudget) query

/-- Raising the limit takes away refusals of nesting and changes nothing else: a text that is not
refused for its nesting is read as before, with the same fault at the same place if it is no query,
and a query that is not refused for its nesting has the program it had, or the fault. -/
theorem parse_and_compile_of_le {limit limit' : Nat} (hlimit : limit ≤ limit') :
    (∀ table text,
      (∀ fault, parse table limit text = .error fault → ∀ n, fault.cause ≠ .tooDeep n) →
        parse table limit' text = parse table limit text) ∧
      ∀ query, (∀ n, compile Library.builtin limit query ≠ .error (.tooDeep n)) →
        compile Library.builtin limit' query = compile Library.builtin limit query := by
  refine ⟨fun table text => parse_eq_of_le hlimit, fun query h => ?_⟩
  refine (retains_compileWithin hlimit query).eq_of_not_refusal ?_
  rintro fault hfault ⟨n, rfl⟩
  exact h n hfault

/-- A path raised to nothing, and an array that is compiled. -/
theorem parse_and_compile_of_le_array :
    let fault : SyntaxFault := ⟨.valueExpected, 5, ".a ^ "⟩
    let query := Query.call "array" [.literal (.bool true)]
    parse .builtin 2 ".a ^ " = .error fault ∧ parse .builtin 128 ".a ^ " = .error fault ∧
      ∃ program, compile Library.builtin 2 query = .ok program ∧
        compile Library.builtin 128 query = .ok program := by
  intro fault query
  have hfault : parse .builtin 2 ".a ^ " = .error fault := by decide +kernel
  obtain ⟨program, hprogram⟩ : ∃ program, compile Library.builtin 2 query = .ok program := ⟨_, rfl⟩
  obtain ⟨hparse, hcompile⟩ := parse_and_compile_of_le (show 2 ≤ 128 by decide)
  refine ⟨hfault, ?_, program, hprogram, ?_⟩
  · rw [hparse _ _ fun found hfound n => ?_, hfault]
    obtain rfl := Except.error.inj (hfault.symm.trans hfound)
    exact nofun
  · rw [hcompile _ fun n => ?_, hprogram]
    rw [hprogram]
    exact nofun

end PipeQuery
