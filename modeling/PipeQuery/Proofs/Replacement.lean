/-
Replacing the arguments of a call.

A call keeps its program when each argument is replaced by a query that stands for it: one with the
same program, with the same value where it is a scalar literal, and with a path to the same place
where it is a path.
-/
import Mathlib.Data.List.Forall2
import PipeQuery.Library

namespace PipeQuery

/-! ## Results -/

section Results

variable {α β γ ε : Type} {replace : α → β}

theorem ok_of_bind {x : Except ε α} {f : α → Except ε β} {b : β} (h : x >>= f = .ok b) :
    ∃ a, x = .ok a ∧ f a = .ok b := by
  cases x with
  | error e => exact nomatch h
  | ok a => exact ⟨a, rfl, h⟩

theorem bind_ok {x : Except ε α} {f : α → Except ε β} {a : α} {b : β} (hx : x = .ok a)
    (hf : f a = .ok b) : x >>= f = .ok b := by
  rw [hx]
  exact hf

theorem ok_of_map {x : Except ε α} {f : α → β} {b : β} (h : f <$> x = .ok b) :
    ∃ a, x = .ok a ∧ f a = b := by
  cases x with
  | error e => exact nomatch h
  | ok a => exact ⟨a, rfl, Except.ok.inj h⟩

theorem ok_of_mapError {ε' : Type} {x : Except ε α} {f : ε → ε'} {a : α}
    (h : x.mapError f = .ok a) : x = .ok a := by
  cases x with
  | error e => exact nomatch h
  | ok b => exact congrArg Except.ok (Except.ok.inj h)

theorem mapM_some_ok {f : α → Except ε β} {a : α} {b : β} (h : f a = .ok b) :
    (some a).mapM f = .ok (some b) := by
  rw [Option.mapM_some, h]
  rfl

theorem mapM_ok_cons {f : α → Except ε β} {x : α} {xs : List α} {ys : List β}
    (h : (x :: xs).mapM f = .ok ys) :
    ∃ y rest, f x = .ok y ∧ xs.mapM f = .ok rest ∧ ys = y :: rest := by
  rw [List.mapM_cons] at h
  obtain ⟨y, hy, h⟩ := ok_of_bind h
  obtain ⟨rest, hrest, h⟩ := ok_of_bind h
  obtain rfl : y :: rest = ys := Except.ok.inj h
  exact ⟨y, rest, hy, hrest, rfl⟩

theorem mapM_cons_ok {f : α → Except ε β} {x : α} {xs : List α} {y : β} {ys : List β}
    (hx : f x = .ok y) (hxs : xs.mapM f = .ok ys) : (x :: xs).mapM f = .ok (y :: ys) := by
  rw [List.mapM_cons, hx, hxs]
  rfl

theorem mapM_append_ok {f : α → Except ε β} {xs xs' : List α} {ys ys' : List β}
    (h : xs.mapM f = .ok ys) (h' : xs'.mapM f = .ok ys') :
    (xs ++ xs').mapM f = .ok (ys ++ ys') := by
  rw [List.mapM_append, h, h']
  rfl

theorem length_of_mapM_ok {f : α → Except ε β} {xs : List α} {ys : List β}
    (h : xs.mapM f = .ok ys) : ys.length = xs.length := by
  induction xs generalizing ys with
  | nil =>
    obtain rfl : [] = ys := Except.ok.inj h
    rfl
  | cons x xs ih =>
    obtain ⟨y, rest, _, hrest, rfl⟩ := mapM_ok_cons h
    rw [List.length_cons, List.length_cons, ih hrest]

theorem mapM_map_ok {f : α → β} {g : β → Except ε γ} {result : α → γ} {xs : List α}
    (h : ∀ x ∈ xs, g (f x) = .ok (result x)) : (xs.map f).mapM g = .ok (xs.map result) := by
  induction xs with
  | nil => rfl
  | cons x xs ih =>
    have hhead := h x List.mem_cons_self
    have htail := ih fun x hx => h x (List.mem_cons_of_mem _ hx)
    exact mapM_cons_ok hhead htail

/-- Related items stay related when the relation is weakened on the members of the lists. -/
theorem forall₂_imp_of_mem {R S : α → β → Prop} {xs : List α} {ys : List β}
    (h : List.Forall₂ R xs ys) (himp : ∀ x ∈ xs, ∀ y ∈ ys, R x y → S x y) :
    List.Forall₂ S xs ys := by
  refine List.forall₂_iff_zip.2 ⟨h.length_eq, fun {x y} hmem => ?_⟩
  obtain ⟨hx, hy⟩ := List.of_mem_zip hmem
  exact himp x hx y hy (List.forall₂_zip h hmem)

/-- Items that have the results of others, one by one, have their results together. -/
theorem mapM_forall₂ {f : α → Except ε γ} {g : β → Except ε γ} {xs : List α} {xs' : List β}
    {ys : List γ} (hitems : List.Forall₂ (fun x x' => ∀ y, f x = .ok y → g x' = .ok y) xs xs')
    (h : xs.mapM f = .ok ys) : xs'.mapM g = .ok ys := by
  induction hitems generalizing ys with
  | nil => exact h
  | cons hitem _ ih =>
    obtain ⟨y, rest, hy, hrest, rfl⟩ := mapM_ok_cons h
    exact mapM_cons_ok (hitem y hy) (ih hrest)

/-- Replaced items with the same results have the same results together. -/
theorem mapM_replace {f : α → Except ε γ} {g : β → Except ε γ} {xs : List α} {ys : List γ}
    (hitems : ∀ x ∈ xs, ∀ y, f x = .ok y → g (replace x) = .ok y) (h : xs.mapM f = .ok ys) :
    (xs.map replace).mapM g = .ok ys :=
  mapM_forall₂ (List.forall₂_map_right_iff.2 (List.forall₂_same.2 hitems)) h

theorem ok_of_mem_of_mapM {f : α → Except ε β} {xs : List α} {ys : List β}
    (h : xs.mapM f = .ok ys) : ∀ x ∈ xs, ∃ y, f x = .ok y := by
  induction xs generalizing ys with
  | nil =>
    intro x hx
    exact nomatch hx
  | cons head xs ih =>
    obtain ⟨y, rest, hy, hrest, rfl⟩ := mapM_ok_cons h
    intro x hx
    rcases List.mem_cons.1 hx with rfl | hx
    · exact ⟨y, hy⟩
    · exact ih hrest x hx

/-- Results from which the items come back give back the list. -/
theorem map_of_mapM_ok {f : α → Except ε β} {g : β → α} {xs : List α} {ys : List β}
    (hback : ∀ x ∈ xs, ∀ y, f x = .ok y → g y = x) (h : xs.mapM f = .ok ys) : ys.map g = xs := by
  induction xs generalizing ys with
  | nil =>
    obtain rfl : [] = ys := Except.ok.inj h
    rfl
  | cons x xs ih =>
    obtain ⟨y, rest, hy, hrest, rfl⟩ := mapM_ok_cons h
    have htail := ih (fun x hx => hback x (List.mem_cons_of_mem _ hx)) hrest
    rw [List.map_cons, hback x List.mem_cons_self y hy, htail]

theorem map_eq_self_iff {f : α → α} {xs : List α} : xs.map f = xs ↔ ∀ x ∈ xs, f x = x := by
  have h := @List.map_eq_map_iff _ _ f xs id
  rwa [List.map_id] at h

end Results

/-! ## Standing for one another -/

/-- Neither an array nor an object. -/
def Value.IsScalar : Value → Prop
  | .arr _ | .obj _ => False
  | _ => True

/-- Paths to the same place with the same last key. -/
structure Path.Alike (path path' : Path) : Prop where
  lookup : path.lookup? = path'.lookup?
  lastKey : path.lastKey? = path'.lastKey?

/-- As an argument of a call, `new` gives what `old` gives. -/
structure StandsFor (compile compile' : Compiler) (old new : Query) : Prop where
  program {program : Program} (h : compile old = .ok program) : compile' new = .ok program
  literal {value : Value} (hscalar : value.IsScalar) (h : old = .literal value) :
    new = .literal value
  path {function : String} {path : Path} (h : Path.ofQuery function old = .ok path) :
    ∃ path', Path.ofQuery function new = .ok path' ∧ path.Alike path'

/-- What an argument of a call can be. -/
inductive Admitted (compile : Compiler) (arg : Query) : Prop
  | program {program : Program} (h : compile arg = .ok program)
  | literal {value : Value} (h : arg = .literal value)
  | path {function : String} {path : Path} (h : Path.ofQuery function arg = .ok path)
  | mapping {entries : List (String × Query)} (h : arg = .mapping entries)
      (hentries : ∀ entry ∈ entries, ∃ program, compile entry.2 = .ok program)

/-- Arguments that stand for those of a call make the same program of it. -/
def Function.Respects (name : String) (function : Function) : Prop :=
  ∀ ⦃args args' : List Query⦄ ⦃compile compile' : Compiler⦄ ⦃program : Program⦄,
    List.Forall₂ (StandsFor compile compile') args args' →
    function.build name args compile = .ok program →
    function.build name args' compile' = .ok program

/-- A call that has a program has arguments of one of the four kinds. -/
def Function.Admits (name : String) (function : Function) : Prop :=
  ∀ ⦃args : List Query⦄ ⦃compile : Compiler⦄ ⦃program : Program⦄,
    function.build name args compile = .ok program → ∀ arg ∈ args, Admitted compile arg

structure Function.Regular (name : String) (function : Function) : Prop where
  respects : function.Respects name
  admits : function.Admits name

variable {compile compile' : Compiler} {args args' : List Query} {name : String}

theorem mapM_compile_of_standsFor {programs : List Program}
    (hargs : List.Forall₂ (StandsFor compile compile') args args')
    (h : args.mapM compile = .ok programs) : args'.mapM compile' = .ok programs :=
  mapM_forall₂ (hargs.imp fun _ _ hstands _ => hstands.program) h

theorem admitted_of_mapM {programs : List Program} (h : args.mapM compile = .ok programs) :
    ∀ arg ∈ args, Admitted compile arg := by
  intro arg harg
  obtain ⟨program, hprogram⟩ := ok_of_mem_of_mapM h arg harg
  exact .program hprogram

namespace Function

theorem Regular.value (arity : Arity) (call : List Value → Except RuntimeFault Value) :
    Regular name (.value arity call) := by
  constructor
  · intro args args' compile compile' program hargs h
    obtain ⟨_, hcheck, h⟩ := ok_of_bind h
    obtain ⟨programs, hprograms, h⟩ := ok_of_bind h
    have hreplaced := mapM_compile_of_standsFor hargs hprograms
    rw [hargs.length_eq] at hcheck
    exact bind_ok hcheck (bind_ok hreplaced h)
  · intro args compile program h
    obtain ⟨_, _, h⟩ := ok_of_bind h
    obtain ⟨programs, hprograms, _⟩ := ok_of_bind h
    exact admitted_of_mapM hprograms

theorem eq_nil_of_check (h : (Arity.exactly 0).check name args.length = .ok ()) : args = [] := by
  cases args with
  | nil => rfl
  | cons arg args => simp [Arity.check, Arity.accepts, Arity.exactly] at h

theorem Regular.nullary (program : Program) : Regular name (.nullary name program) := by
  constructor
  · intro args args' compile compile' program hargs h
    obtain ⟨_, hcheck, _⟩ := ok_of_bind h
    obtain rfl := eq_nil_of_check hcheck
    obtain rfl := List.forall₂_nil_left_iff.1 hargs
    exact h
  · intro args compile program h arg harg
    obtain ⟨_, hcheck, _⟩ := ok_of_bind h
    obtain rfl := eq_nil_of_check hcheck
    exact nomatch harg

theorem Regular.overQuery (program : Program → Program) :
    Regular name (.overQuery name program) := by
  constructor
  · intro args args' compile compile' result hargs h
    rcases hargs with _ | ⟨harg, _ | ⟨_, _⟩⟩
    · exact nomatch h
    · obtain ⟨inner, hinner, h⟩ := ok_of_bind h
      exact bind_ok (harg.program hinner) h
    · exact nomatch h
  · intro args compile result h arg' harg
    rcases args with _ | ⟨arg, _ | ⟨second, others⟩⟩
    · exact nomatch h
    · obtain ⟨inner, hinner, _⟩ := ok_of_bind h
      obtain rfl := List.mem_singleton.1 harg
      exact .program hinner
    · exact nomatch h

end Function

end PipeQuery
