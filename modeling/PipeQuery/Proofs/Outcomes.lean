/-
What a run can end with.

The functions of the library turn a value of the wrong kind into null or false, and those that ask
for a container refuse anything else.  So the faults of a run are kept by every node of a query:
what is allowed to the queries inside a call is all that the call can end with, apart from the
refusals of its own function.
-/
import PipeQuery.Proofs.Resolution
import PipeQuery.Proofs.Depth
import PipeQuery.Proofs.Restatement

namespace PipeQuery

/-! ## Allowed faults -/

section EndsWithin

variable {α β : Type} {allowed : RuntimeFault → Prop}

/-- A result is a value or an allowed fault. -/
def EndsWithin (allowed : RuntimeFault → Prop) (result : Except RuntimeFault α) : Prop :=
  ∀ fault, result = .error fault → allowed fault

theorem EndsWithin.ok (a : α) : EndsWithin allowed (.ok a) := by
  intro fault h
  cases h

theorem EndsWithin.error {fault : RuntimeFault} (h : allowed fault) :
    EndsWithin allowed (.error fault : Except RuntimeFault α) := by
  intro other heq
  rwa [← Except.error.inj heq]

theorem EndsWithin.bind {x : Except RuntimeFault α} {f : α → Except RuntimeFault β}
    (hx : EndsWithin allowed x) (hf : ∀ a, x = .ok a → EndsWithin allowed (f a)) :
    EndsWithin allowed (x >>= f) := by
  cases x with
  | error fault => exact .error (hx fault rfl)
  | ok a => exact hf a rfl

theorem EndsWithin.mapM {f : α → Except RuntimeFault β} {xs : List α}
    (h : ∀ x ∈ xs, EndsWithin allowed (f x)) : EndsWithin allowed (xs.mapM f) := by
  induction xs with
  | nil => exact .ok _
  | cons x xs ih =>
      rw [List.mapM_cons]
      refine (h x List.mem_cons_self).bind fun y _ => ?_
      exact (ih fun x hx => h x (List.mem_cons_of_mem _ hx)).bind fun _ _ => .ok _

theorem EndsWithin.foldlM {f : β → α → Except RuntimeFault β} {xs : List α}
    (h : ∀ x ∈ xs, ∀ b, EndsWithin allowed (f b x)) (b : β) :
    EndsWithin allowed (xs.foldlM f b) := by
  induction xs generalizing b with
  | nil => exact .ok _
  | cons x xs ih =>
      rw [List.foldlM_cons]
      refine (h x List.mem_cons_self b).bind fun next _ => ?_
      exact ih (fun x hx => h x (List.mem_cons_of_mem _ hx)) next

theorem EndsWithin.filterM {f : α → Except RuntimeFault Bool} {xs : List α}
    (h : ∀ x, EndsWithin allowed (f x)) : EndsWithin allowed (xs.filterM f) := by
  -- the kept items are gathered in reverse, from any that were kept before
  have haux (kept : List α) : EndsWithin allowed (xs.filterAuxM f kept) := by
    induction xs generalizing kept with
    | nil => exact .ok _
    | cons x xs ih => exact (h x).bind fun _ _ => ih _
  exact (haux []).bind fun _ _ => .ok _

/-- No allowed fault is left: the result is a value. -/
theorem EndsWithin.exists_ok {result : Except RuntimeFault α}
    (h : EndsWithin (fun _ => False) result) : ∃ a, result = .ok a := by
  cases result with
  | error fault => exact (h fault rfl).elim
  | ok a => exact ⟨a, rfl⟩

theorem mem_of_mapM_ok {ε : Type} {f : α → Except ε β} {xs : List α} {ys : List β}
    (h : xs.mapM f = .ok ys) : ∀ y ∈ ys, ∃ x ∈ xs, f x = .ok y := by
  induction xs generalizing ys with
  | nil =>
      obtain rfl : [] = ys := Except.ok.inj h
      simp
  | cons x xs ih =>
      obtain ⟨first, rest, hfirst, hrest, rfl⟩ := mapM_ok_cons h
      intro y hy
      rcases List.mem_cons.1 hy with rfl | hy
      · exact ⟨x, List.mem_cons_self, hfirst⟩
      · obtain ⟨source, hsource, heq⟩ := ih hrest y hy
        exact ⟨source, List.mem_cons_of_mem _ hsource, heq⟩

end EndsWithin

/-- Every run of a program ends within the allowed faults. -/
def Program.EndsWithin (allowed : RuntimeFault → Prop) (program : Program) : Prop :=
  ∀ data, PipeQuery.EndsWithin allowed (program data)

/-! ## The functions that ask for a container -/

/-- The functions of the library that take an array or an object and refuse anything else. -/
def Library.ofContainers : List String :=
  ["filter", "map", "sort", "reverse", "groupBy", "keyBy", "flatten", "join", "uniq", "uniqBy",
    "limit", "sum", "prod", "average", "min", "max", "mapObject", "mapKeys", "mapValues", "keys",
    "values"]

/-- The query is no call of a function that asks for a container. -/
def Query.Lenient : Query → Prop
  | call name _ => name ∉ Library.ofContainers
  | literal _ | mapping _ => True

/-- The refusals of anything but a container are allowed, or the function makes none. -/
def Admissible (allowed : RuntimeFault → Prop) (name : String) : Prop :=
  name ∈ Library.ofContainers → allowed .arrayExpected ∧ allowed .objectExpected

/-- A call of the function ends within the allowed faults where the queries inside it do. -/
def Function.KeepsWithin (allowed : RuntimeFault → Prop) (name : String) (function : Function) :
    Prop :=
  ∀ ⦃args : List Query⦄ ⦃compile : Compiler⦄ ⦃program : Program⦄,
    (∀ query, Query.Inside args query →
      ∀ inner, compile query = .ok inner → Program.EndsWithin allowed inner) →
    function.build name args compile = .ok program → Program.EndsWithin allowed program

/-- The function on values gives a value for every number of arguments of its arity. -/
def Arity.Answers (arity : Arity) (call : List Value → Except RuntimeFault Value) : Prop :=
  ∀ args : List Value, arity.accepts args.length = true → ∃ value, call args = .ok value

section Programs

variable {allowed : RuntimeFault → Prop} {program : Program} {programs : List Program}
  {args : List Query} {compile : Compiler}

theorem endsWithin_onArray {transform : List Value → Except RuntimeFault Value}
    (h : allowed .arrayExpected) (htransform : ∀ items, EndsWithin allowed (transform items)) :
    Program.EndsWithin allowed (onArray transform) := by
  intro data
  cases data with
  | arr items => exact htransform items
  | _ => exact .error h

theorem endsWithin_onObject {transform : Entries Value → Except RuntimeFault Value}
    (h : allowed .objectExpected) (htransform : ∀ members, EndsWithin allowed (transform members)) :
    Program.EndsWithin allowed (onObject transform) := by
  intro data
  cases data with
  | obj members => exact htransform members
  | _ => exact .error h

/-- The programs of the arguments of a call. -/
theorem endsWithin_of_mapM
    (h : ∀ query, Query.Inside args query →
      ∀ inner, compile query = .ok inner → Program.EndsWithin allowed inner)
    (hprograms : args.mapM compile = .ok programs) :
    ∀ program ∈ programs, Program.EndsWithin allowed program := by
  intro program hmem
  obtain ⟨arg, harg, hprogram⟩ := mem_of_mapM_ok hprograms program hmem
  exact h arg (.inl harg) program hprogram

end Programs

/-! ## Functions of values -/

section Values

variable {args : List Value}

theorem argument_eq {position : Nat} (h : position < args.length) :
    argument args position = .ok args[position] := by
  rw [argument, List.getElem?_eq_getElem h]

theorem accepts_exactly {n count : Nat} (h : (Arity.exactly n).accepts count = true) :
    count = n := by
  simp only [Arity.accepts, Arity.exactly, Bool.and_eq_true, decide_eq_true_eq] at h
  exact Nat.le_antisymm h.2 (of_decide_eq_true h.1)

theorem accepts_between {min max count : Nat} (h : (Arity.between min max).accepts count = true) :
    min ≤ count := by
  simp only [Arity.accepts, Arity.between, Bool.and_eq_true, decide_eq_true_eq] at h
  exact of_decide_eq_true h.1

theorem answers_unary (f : Value → Value) :
    (Arity.exactly 1).Answers fun args => do return f (← argument args 0) := by
  intro args h
  have hfirst : 0 < args.length := by
    rw [accepts_exactly h]
    decide
  exact ⟨_, bind_ok (argument_eq hfirst) rfl⟩

theorem answers_binary (f : Value → Value → Value) :
    (Arity.exactly 2).Answers fun args => do
      return f (← argument args 0) (← argument args 1) := by
  intro args h
  have hsecond : 1 < args.length := by
    rw [accepts_exactly h]
    decide
  exact ⟨_, bind_ok (argument_eq (Nat.lt_of_succ_lt hsecond)) (bind_ok (argument_eq hsecond) rfl)⟩

end Values

namespace Function

variable {allowed : RuntimeFault → Prop} {name : String}

theorem KeepsWithin.value {arity : Arity} {call : List Value → Except RuntimeFault Value}
    (h : arity.Answers call) : KeepsWithin allowed name (.value arity call) := by
  intro args compile program hinside hbuild data
  obtain ⟨_, hcheck, hbuild⟩ := ok_of_bind hbuild
  obtain ⟨programs, hprograms, hbuild⟩ := ok_of_bind hbuild
  obtain rfl := Except.ok.inj hbuild
  have haccepts : arity.accepts args.length = true := by
    unfold Arity.check at hcheck
    split at hcheck
    · assumption
    · cases hcheck
  have hvalues : EndsWithin allowed (programs.mapM fun program => program data) :=
    .mapM fun inner hmem => endsWithin_of_mapM hinside hprograms inner hmem data
  refine hvalues.bind fun values hok => ?_
  -- there are as many values as arguments, so the arity that was checked vouches for every read
  rw [← length_of_mapM_ok hprograms, ← length_of_mapM_ok hok] at haccepts
  obtain ⟨value, hvalue⟩ := h values haccepts
  rw [hvalue]
  exact .ok value

theorem KeepsWithin.unary (f : Value → Value) : KeepsWithin allowed name (.unary f) :=
  .value (answers_unary f)

theorem KeepsWithin.binary (f : Value → Value → Value) : KeepsWithin allowed name (.binary f) :=
  .value (answers_binary f)

theorem KeepsWithin.variadic (f : List Value → Value) : KeepsWithin allowed name (.variadic f) :=
  .value fun _ _ => ⟨_, rfl⟩

theorem KeepsWithin.nullary {program : Program} (h : program.EndsWithin allowed) :
    KeepsWithin allowed name (.nullary name program) := by
  intro args compile built _ hbuild
  obtain ⟨_, _, hbuild⟩ := ok_of_bind hbuild
  obtain rfl := Except.ok.inj hbuild
  exact h

theorem KeepsWithin.overQuery {program : Program → Program}
    (h : ∀ inner, Program.EndsWithin allowed inner → Program.EndsWithin allowed (program inner)) :
    KeepsWithin allowed name (.overQuery name program) := by
  intro args compile built hinside hbuild
  rcases args with _ | ⟨arg, _ | ⟨second, others⟩⟩
  · cases hbuild
  · obtain ⟨inner, hinner, hbuild⟩ := ok_of_bind hbuild
    obtain rfl := Except.ok.inj hbuild
    exact h inner (hinside arg (.inl List.mem_cons_self) inner hinner)
  · cases hbuild

/-- A function of the items of an array with the texts that a query gives for them. -/
theorem KeepsWithin.keyed {gather : List (String × Value) → Value} (h : allowed .arrayExpected) :
    KeepsWithin allowed name (.overQuery name fun getter => onArray fun items => do
      return gather (← Collections.keyed getter items)) := by
  refine .overQuery fun inner hinner => endsWithin_onArray h fun items => ?_
  have hkeyed : EndsWithin allowed (Collections.keyed inner items) :=
    .mapM fun item _ => (hinner item).bind fun _ _ => .ok _
  exact hkeyed.bind fun _ _ => .ok _

theorem KeepsWithin.combining {combine : List Program → Program}
    (h : ∀ programs : List Program, (∀ program ∈ programs, Program.EndsWithin allowed program) →
      Program.EndsWithin allowed (combine programs)) :
    KeepsWithin allowed name
      (.higherOrder fun args compile => do return combine (← args.mapM compile)) := by
  intro args compile built hinside hbuild
  obtain ⟨programs, hprograms, hbuild⟩ := ok_of_bind hbuild
  obtain rfl := Except.ok.inj hbuild
  exact h programs (endsWithin_of_mapM hinside hprograms)

end Function

open PipeQuery.Function (KeepsWithin)

namespace Library

variable {allowed : RuntimeFault → Prop}

section Bodies

variable {function : Function}

theorem keepsWithin_object (h : builtin.lookup "object" = some function) :
    KeepsWithin allowed "object" function := by
  obtain rfl := Option.some.inj h
  intro args compile program hinside hbuild data
  rcases args with _ | ⟨(value | ⟨name, args⟩ | entries), _ | ⟨second, others⟩⟩
  case cons.mapping.nil =>
    obtain ⟨programs, hprograms, hbuild⟩ := ok_of_bind hbuild
    obtain rfl := Except.ok.inj hbuild
    refine EndsWithin.bind (.mapM fun member hmember => ?_) fun _ _ => .ok _
    obtain ⟨entry, hentry, hprogram⟩ := mem_of_mapM_ok hprograms member hmember
    obtain ⟨inner, hinner, heq⟩ := ok_of_bind hprogram
    obtain rfl := Except.ok.inj heq
    have hinsideEntry : Query.Inside [.mapping entries] entry.2 :=
      .inr ⟨entries, List.mem_cons_self, entry, hentry, rfl⟩
    exact (hinside entry.2 hinsideEntry inner hinner data).bind fun _ _ => .ok _
  all_goals cases hbuild

theorem keepsWithin_if (h : builtin.lookup "if" = some function) :
    KeepsWithin allowed "if" function := by
  obtain rfl := Option.some.inj h
  intro args compile program hinside hbuild data
  rcases args with _ | ⟨condition, _ | ⟨yes, _ | ⟨no, _ | ⟨next, others⟩⟩⟩⟩
  case cons.cons.cons.nil =>
    obtain ⟨decider, hdecider, hbuild⟩ := ok_of_bind hbuild
    obtain ⟨first, hfirst, hbuild⟩ := ok_of_bind hbuild
    obtain ⟨second, hsecond, hbuild⟩ := ok_of_bind hbuild
    obtain rfl := Except.ok.inj hbuild
    refine (hinside condition (.inl (by simp)) decider hdecider data).bind fun value _ => ?_
    by_cases hvalue : value.isTrue = true
    · rw [if_pos hvalue]
      exact hinside yes (.inl (by simp)) first hfirst data
    · rw [if_neg hvalue]
      exact hinside no (.inl (by simp)) second hsecond data
  all_goals cases hbuild

theorem keepsWithin_sort (h : builtin.lookup "sort" = some function)
    (hallowed : allowed .arrayExpected) : KeepsWithin allowed "sort" function := by
  obtain rfl := Option.some.inj h
  intro args compile program hinside hbuild
  obtain ⟨_, _, hbuild⟩ := ok_of_bind hbuild
  obtain ⟨getter, hgetter, hbuild⟩ := ok_of_bind hbuild
  obtain ⟨descending, rfl⟩ :
      ∃ descending, onArray (Collections.sort getter descending) = program := by
    split at hbuild
    all_goals
      obtain ⟨descending, _, hbuild⟩ := ok_of_bind hbuild
      exact ⟨descending, Except.ok.inj hbuild⟩
  refine endsWithin_onArray hallowed fun items => ?_
  cases args with
  | nil =>
      obtain rfl := Except.ok.inj hgetter
      exact .ok _
  | cons arg others =>
      obtain ⟨inner, hinner, rfl⟩ := ok_of_map hgetter
      have hitems : EndsWithin allowed (items.mapM inner) :=
        .mapM fun item _ => hinside arg (.inl List.mem_cons_self) inner hinner item
      exact hitems.bind fun _ _ => .ok _

theorem keepsWithin_limit (h : builtin.lookup "limit" = some function)
    (hallowed : allowed .arrayExpected) : KeepsWithin allowed "limit" function := by
  obtain rfl := Option.some.inj h
  intro args compile program _ hbuild
  rcases args with _ | ⟨arg, _ | ⟨second, others⟩⟩
  · cases hbuild
  · obtain ⟨count, _, hbuild⟩ := ok_of_bind hbuild
    obtain rfl := Except.ok.inj hbuild
    exact endsWithin_onArray hallowed fun _ => .ok _
  · cases hbuild

theorem keepsWithin_join (h : builtin.lookup "join" = some function)
    (hallowed : allowed .arrayExpected) : KeepsWithin allowed "join" function := by
  obtain rfl := Option.some.inj h
  intro args compile program _ hbuild
  obtain ⟨_, _, hbuild⟩ := ok_of_bind hbuild
  obtain ⟨separator, rfl⟩ : ∃ separator,
      (onArray fun items => .ok (TextFunctions.join separator items)) = program := by
    split at hbuild
    all_goals
      obtain ⟨separator, _, hbuild⟩ := ok_of_bind hbuild
      exact ⟨separator, Except.ok.inj hbuild⟩
  exact endsWithin_onArray hallowed fun _ => .ok _

theorem keepsWithin_regex (h : builtin.lookup "regex" = some function) :
    KeepsWithin allowed "regex" function := by
  obtain rfl := Option.some.inj h
  intro args compile program hinside hbuild data
  obtain ⟨_, _, hbuild⟩ := ok_of_bind hbuild
  rcases args with _ | ⟨getter, _ | ⟨source, flags⟩⟩
  · cases hbuild
  · cases hbuild
  · obtain ⟨inner, hinner, hbuild⟩ := ok_of_bind hbuild
    obtain ⟨_, _, hbuild⟩ := ok_of_bind hbuild
    obtain ⟨pattern, rfl⟩ : ∃ pattern, TextFunctions.matching pattern inner = program := by
      split at hbuild
      all_goals
        obtain ⟨_, _, hbuild⟩ := ok_of_bind hbuild
        obtain ⟨pattern, _, hbuild⟩ := ok_of_bind hbuild
        exact ⟨pattern, Except.ok.inj hbuild⟩
    refine (hinside getter (.inl List.mem_cons_self) inner hinner data).bind fun value _ => ?_
    cases value with
    | _ => exact .ok _

end Bodies

theorem keepsWithin_access : ∀ entry ∈ access, KeepsWithin allowed entry.1 entry.2 := by
  simp only [access, List.forall_mem_cons]
  refine ⟨?get, ?pick, keepsWithin_object rfl, .combining ?array, .combining ?pipe, ?present,
    by simp⟩
  case get =>
    intro args compile program _ hbuild data
    obtain ⟨path, _, hbuild⟩ := ok_of_bind hbuild
    obtain rfl := Except.ok.inj hbuild
    exact .ok _
  case pick =>
    intro args compile program _ hbuild data
    obtain ⟨paths, _, hbuild⟩ := ok_of_bind hbuild
    obtain rfl := Except.ok.inj hbuild
    cases data with
    | _ => exact .ok _
  case array =>
    intro programs h data
    exact EndsWithin.bind (.mapM fun program hmem => h program hmem data) fun _ _ => .ok _
  case pipe =>
    intro programs h data
    exact .foldlM (fun program hmem value => h program hmem value) data
  case present =>
    intro args compile program _ hbuild data
    rcases args with _ | ⟨arg, _ | ⟨second, others⟩⟩
    · cases hbuild
    · obtain ⟨path, _, hbuild⟩ := ok_of_bind hbuild
      obtain rfl := Except.ok.inj hbuild
      exact .ok _
    · cases hbuild

theorem keepsWithin_logic : ∀ entry ∈ logic, KeepsWithin allowed entry.1 entry.2 := by
  simp only [logic, List.forall_mem_cons]
  exact ⟨.variadic _, .variadic _, .unary _, .binary _, .binary _, .binary _, .binary _,
    .binary _, .binary _, keepsWithin_if rfl, .binary _, .binary _, .binary _, by simp⟩

theorem keepsWithin_arithmetic : ∀ entry ∈ arithmetic, KeepsWithin allowed entry.1 entry.2 := by
  simp only [arithmetic, List.forall_mem_cons]
  refine ⟨.binary _, .binary _, .binary _, .binary _, .binary _, .binary _, .unary _,
    .value ?round, by simp⟩
  intro args h
  have hfirst := argument_eq (Nat.lt_of_lt_of_le Nat.zero_lt_one (accepts_between h))
  beta_reduce
  split
  · exact ⟨_, bind_ok hfirst rfl⟩
  · split
    · exact ⟨_, rfl⟩
    · exact ⟨_, bind_ok hfirst rfl⟩

theorem keepsWithin_aggregates : ∀ entry ∈ aggregates, Admissible allowed entry.1 →
    KeepsWithin allowed entry.1 entry.2 := by
  intro entry hentry h
  obtain ⟨⟨name, aggregate⟩, hmem, rfl⟩ := List.mem_map.1 hentry
  have hname : name ∈ ofContainers := by
    have hall : ∀ entry ∈ aggregates, entry.1 ∈ ofContainers := by decide
    exact hall _ hentry
  exact .nullary (endsWithin_onArray (h hname).1 fun _ => .ok _)

theorem keepsWithin_collections : ∀ entry ∈ collections, Admissible allowed entry.1 →
    KeepsWithin allowed entry.1 entry.2 := by
  simp only [collections, List.forall_mem_cons]
  refine ⟨?filter, ?map, ?mapObject, ?mapKeys, ?mapValues,
    fun h => keepsWithin_sort rfl (h (by decide)).1, ?reverse, ?groupBy, ?keyBy, ?flatten, ?uniq,
    ?uniqBy, fun h => keepsWithin_limit rfl (h (by decide)).1, ?size, ?keys, ?values, by simp⟩
  case filter =>
    intro h
    refine .overQuery fun inner hinner => endsWithin_onArray (h (by decide)).1 fun items => ?_
    refine EndsWithin.bind (.filterM fun item => ?_) fun _ _ => .ok _
    exact (hinner item).bind fun _ _ => .ok _
  case map =>
    intro h
    refine .overQuery fun inner hinner => endsWithin_onArray (h (by decide)).1 fun items => ?_
    exact EndsWithin.bind (.mapM fun item _ => hinner item) fun _ _ => .ok _
  case mapObject =>
    intro h
    have hallowed := (h (by decide)).2
    refine .overQuery fun inner hinner => endsWithin_onObject hallowed fun members => ?_
    refine EndsWithin.bind (.mapM fun member _ => ?_) fun _ _ => .ok _
    refine (hinner _).bind fun result _ => ?_
    cases result with
    | obj found => exact .ok _
    | _ => exact .error hallowed
  case mapKeys =>
    intro h
    refine .overQuery fun inner hinner => endsWithin_onObject (h (by decide)).2 fun members => ?_
    refine EndsWithin.bind (.mapM fun member _ => ?_) fun _ _ => .ok _
    exact (hinner _).bind fun _ _ => .ok _
  case mapValues =>
    intro h
    refine .overQuery fun inner hinner => endsWithin_onObject (h (by decide)).2 fun members => ?_
    refine EndsWithin.bind (.mapM fun member _ => ?_) fun _ _ => .ok _
    exact (hinner _).bind fun _ _ => .ok _
  case groupBy => exact fun h => .keyed (h (by decide)).1
  case keyBy => exact fun h => .keyed (h (by decide)).1
  case uniqBy => exact fun h => .keyed (h (by decide)).1
  case reverse => exact fun h => .nullary (endsWithin_onArray (h (by decide)).1 fun _ => .ok _)
  case flatten => exact fun h => .nullary (endsWithin_onArray (h (by decide)).1 fun _ => .ok _)
  case uniq => exact fun h => .nullary (endsWithin_onArray (h (by decide)).1 fun _ => .ok _)
  case size => exact fun _ => .nullary fun _ => .ok _
  case keys => exact fun h => .nullary (endsWithin_onObject (h (by decide)).2 fun _ => .ok _)
  case values => exact fun h => .nullary (endsWithin_onObject (h (by decide)).2 fun _ => .ok _)

theorem keepsWithin_text : ∀ entry ∈ text, Admissible allowed entry.1 →
    KeepsWithin allowed entry.1 entry.2 := by
  simp only [text, List.forall_mem_cons]
  refine ⟨fun h => keepsWithin_join rfl (h (by decide)).1, fun _ => .value ?split,
    fun _ => .value ?substring, fun _ => keepsWithin_regex rfl, fun _ => .unary _,
    fun _ => .unary _,
    by simp⟩
  case split =>
    intro args h
    have hfirst := argument_eq (Nat.lt_of_lt_of_le Nat.zero_lt_one (accepts_between h))
    exact ⟨_, bind_ok hfirst rfl⟩
  case substring =>
    intro args h
    have hsecond : 1 < args.length := accepts_between h
    have hfirst := argument_eq (Nat.lt_of_succ_lt hsecond)
    exact ⟨_, bind_ok hfirst (bind_ok (argument_eq hsecond) rfl)⟩

theorem keepsWithin_of_lookup {name : String} {function : Function}
    (h : builtin.lookup name = some function) (hname : Admissible allowed name) :
    KeepsWithin allowed name function := by
  refine @forall_of_lookup
    (fun name function => Admissible allowed name → KeepsWithin allowed name function)
    ?_ keepsWithin_collections keepsWithin_aggregates ?_ ?_ keepsWithin_text _ _ h hname
  · exact fun entry hentry _ => keepsWithin_access entry hentry
  · exact fun entry hentry _ => keepsWithin_logic entry hentry
  · exact fun entry hentry _ => keepsWithin_arithmetic entry hentry

end Library

/-! ## Compiled queries -/

section Compiled

variable {allowed : RuntimeFault → Prop} {limit budget : Nat} {query : Query} {program : Program}

/-- What holds everywhere in a call holds everywhere inside it. -/
theorem Query.Everywhere.of_inside {holds : Query → Prop} {name : String} {args : List Query}
    (h : (Query.call name args).Everywhere holds) (hinside : Query.Inside args query) :
    query.Everywhere holds := by
  rcases hinside with hmem | ⟨entries, hmem, entry, hentry, rfl⟩
  · exact h.of_call query hmem
  · exact (h.of_call _ hmem).of_mapping entry hentry

/-- A run ends within the faults that allow the refusals of anything but a container, or in which no
call makes such a refusal: the queries inside a call are compiled with a smaller budget. -/
theorem endsWithin_of_compileWithin
    (hallowed : (allowed .arrayExpected ∧ allowed .objectExpected) ∨ query.Everywhere Query.Lenient)
    (h : compileWithin Library.builtin limit budget query = .ok program) :
    program.EndsWithin allowed := by
  induction budget generalizing query program with
  | zero =>
      cases query with
      | literal value =>
          obtain rfl := Except.ok.inj h
          exact fun _ => .ok _
      | mapping entries => cases h
      | call name args => cases h
  | succ budget ih =>
      cases query with
      | literal value =>
          obtain rfl := Except.ok.inj h
          exact fun _ => .ok _
      | mapping entries => cases h
      | call name args =>
          obtain ⟨inner, function, hbudget, hlookup, hbuild⟩ := exists_function_of_compileWithin h
          obtain rfl := Nat.succ.inj hbudget
          have hname : Admissible allowed name := fun hmem =>
            hallowed.resolve_right fun hlenient => hlenient.here hmem
          have hinside (query : Query) (hinside : Query.Inside args query) (program : Program)
              (hprogram : compileWithin Library.builtin limit budget query = .ok program) :
              program.EndsWithin allowed :=
            ih (hallowed.imp_right fun hlenient => hlenient.of_inside hinside) hprogram
          exact Library.keepsWithin_of_lookup hlookup hname hinside hbuild

/-- A query of the library that is compiled reads no argument that a call does not have, and fails
on nothing but a value that is no array or no object; without a call of a function that asks for
either, it has a value on every document. -/
theorem outcome_of_compile (h : compile Library.builtin limit query = .ok program) (data : Value) :
    ((∃ value, program data = .ok value) ∨ program data = .error .arrayExpected ∨
      program data = .error .objectExpected) ∧
      (∀ position, program data ≠ .error (.noArgument position)) ∧
        (∀ message, program data ≠ .error (.custom message)) ∧
          (query.Everywhere Query.Lenient → ∃ value, program data = .ok value) := by
  have hrefusals : EndsWithin (fun fault => fault = .arrayExpected ∨ fault = .objectExpected)
      (program data) :=
    endsWithin_of_compileWithin (.inl ⟨.inl rfl, .inr rfl⟩) h data
  have hcustom (message : String) : program data ≠ .error (.custom message) := by
    intro hfault
    rcases hrefusals _ hfault with heq | heq
    · cases heq
    · cases heq
  refine ⟨?_, fun position => hcustom _, hcustom, fun hlenient => ?_⟩
  · cases hresult : program data with
    | ok value => exact .inl ⟨value, rfl⟩
    | error fault =>
        rcases hrefusals fault hresult with rfl | rfl
        · exact .inr (.inl rfl)
        · exact .inr (.inr rfl)
  · have hnone : program.EndsWithin fun _ => False :=
      endsWithin_of_compileWithin (.inr hlenient) h
    exact (hnone data).exists_ok

/-- `substring` of a text reads two arguments, and `reverse` takes nothing but arrays. -/
theorem outcome_of_compile_substring :
    let query := Query.call "substring" [.call "get" [], .literal (.int 1)]
    query.Everywhere Query.Lenient ∧
      ∃ program, compile Library.builtin 2 query = .ok program ∧
        (∃ value, program (.str "text") = .ok value) ∧ (∃ value, program .null = .ok value) ∧
          ∃ reversed, compile Library.builtin 1 (.call "reverse" []) = .ok reversed ∧
            reversed .null = .error .arrayExpected ∧
              ∀ position, reversed .null ≠ .error (.noArgument position) := by
  intro query
  have hlenient : query.Everywhere Query.Lenient := by
    refine .call (by simp [Query.Lenient, Library.ofContainers]) ?_
    simp only [List.forall_mem_cons]
    have hget : (Query.call "get" []).Everywhere Query.Lenient :=
      .call (by simp [Query.Lenient, Library.ofContainers]) (List.forall_mem_nil _)
    exact ⟨hget, .literal trivial, List.forall_mem_nil _⟩
  obtain ⟨program, hprogram⟩ : ∃ program, compile Library.builtin 2 query = .ok program := ⟨_, rfl⟩
  obtain ⟨reversed, hreversed⟩ :
      ∃ program, compile Library.builtin 1 (.call "reverse" []) = .ok program := ⟨_, rfl⟩
  have hrefused : reversed .null = .error .arrayExpected := by
    rw [← Except.ok.inj hreversed]
    rfl
  exact ⟨hlenient, program, hprogram, (outcome_of_compile hprogram _).2.2.2 hlenient,
    (outcome_of_compile hprogram _).2.2.2 hlenient, reversed, hreversed, hrefused,
    (outcome_of_compile hreversed _).2.1⟩

end Compiled

end PipeQuery
