/-
The functions of the library and their arguments.

Every function but `object` is regular, whether it takes programs, literals or paths; `object` alone
looks into a mapping.
-/
import PipeQuery.Proofs.Replacement

namespace PipeQuery

/-! ## Literal arguments -/

section Literals

variable {compile compile' : Compiler} {arg new : Query} {function : String} {α : Type}
  {read : Value → Except ReferenceFault α} {result : α}

/-- Nothing is read from a container. -/
def ReadsScalars (read : Value → Except ReferenceFault α) : Prop :=
  ∀ ⦃value : Value⦄ ⦃result : α⦄, read value = .ok result → value.IsScalar

theorem exists_literal_of_bind (h : literalArgument function arg >>= read = .ok result) :
    ∃ value, arg = .literal value ∧ read value = .ok result := by
  obtain ⟨value, hvalue, h⟩ := ok_of_bind h
  cases arg with
  | literal other =>
      obtain rfl : other = value := Except.ok.inj hvalue
      exact ⟨other, rfl, h⟩
  | call name args => exact nomatch hvalue
  | mapping entries => exact nomatch hvalue

theorem admitted_of_bind (h : literalArgument function arg >>= read = .ok result) :
    Admitted compile arg := by
  obtain ⟨value, hvalue, _⟩ := exists_literal_of_bind h
  exact .literal hvalue

theorem StandsFor.bind_literal (hstands : StandsFor compile compile' arg new)
    (hread : ReadsScalars read) (h : literalArgument function arg >>= read = .ok result) :
    literalArgument function new >>= read = .ok result := by
  obtain ⟨value, hvalue, hresult⟩ := exists_literal_of_bind h
  rw [hstands.literal (hread hresult) hvalue]
  exact hresult

theorem ReadsScalars.of_refused (harr : ∀ items, ∃ fault, read (.arr items) = .error fault)
    (hobj : ∀ members, ∃ fault, read (.obj members) = .error fault) : ReadsScalars read := by
  intro value result h
  cases value with
  | arr items =>
      obtain ⟨fault, hfault⟩ := harr items
      rw [hfault] at h
      exact nomatch h
  | obj members =>
      obtain ⟨fault, hfault⟩ := hobj members
      rw [hfault] at h
      exact nomatch h
  | _ => trivial

theorem readsScalars_descending? : ReadsScalars Collections.descending? :=
  .of_refused (fun _ => ⟨_, rfl⟩) fun _ => ⟨_, rfl⟩

theorem readsScalars_separator : ReadsScalars TextFunctions.separator :=
  .of_refused (fun _ => ⟨_, rfl⟩) fun _ => ⟨_, rfl⟩

theorem readsScalars_patternText : ReadsScalars TextFunctions.patternText :=
  .of_refused (fun _ => ⟨_, rfl⟩) fun _ => ⟨_, rfl⟩

theorem readsScalars_flagsText : ReadsScalars TextFunctions.flagsText :=
  .of_refused (fun _ => ⟨_, rfl⟩) fun _ => ⟨_, rfl⟩

theorem readsScalars_count : ReadsScalars fun value =>
    (match value.asInt? with
      | some n => .ok n.toInt.toNat
      | none => .error (.invalidArgument "limit" .integerExpected) : Except ReferenceFault Nat) :=
  .of_refused (fun _ => ⟨_, rfl⟩) fun _ => ⟨_, rfl⟩

/-- No argument comes after as many as a function takes. -/
theorem eq_nil_of_check_between {min : Nat} (taken others : List Query)
    (h : (Arity.between min taken.length).check function (taken ++ others).length = .ok ()) :
    others = [] := by
  unfold Arity.check at h
  split at h
  · rename_i haccepts
    simp only [Arity.accepts, Arity.between, Bool.and_eq_true, decide_eq_true_eq] at haccepts
    have hle : taken.length + others.length ≤ taken.length := by
      rw [← List.length_append]
      exact haccepts.2
    exact List.eq_nil_of_length_eq_zero (by omega)
  · cases h

end Literals

/-! ## Paths as arguments -/

section Paths

variable {compile compile' : Compiler} {args args' : List Query} {arg new : Query}
  {function : String} {path path' : Path}

theorem exists_literal_of_segment {segment : Segment}
    (h : Path.segment function arg = .ok segment) :
    ∃ value, value.IsScalar ∧ arg = .literal value := by
  unfold Path.segment at h
  split at h
  · exact ⟨.str _, trivial, rfl⟩
  · exact ⟨.int _, trivial, rfl⟩
  · exact nomatch h

theorem StandsFor.segment {segment : Segment} (hstands : StandsFor compile compile' arg new)
    (h : Path.segment function arg = .ok segment) : Path.segment function new = .ok segment := by
  obtain ⟨value, hscalar, hvalue⟩ := exists_literal_of_segment h
  rw [hstands.literal hscalar hvalue, ← hvalue]
  exact h

theorem ofArgs_of_standsFor (hargs : List.Forall₂ (StandsFor compile compile') args args')
    (h : Path.ofArgs function args = .ok path) : Path.ofArgs function args' = .ok path :=
  mapM_forall₂ (hargs.imp fun _ _ hstands _ => hstands.segment) h

theorem Path.Alike.get (h : path.Alike path') : path.get = path'.get := by
  funext value
  rw [Path.get, Path.get, h.lookup]

theorem Path.Alike.isPresent (h : path.Alike path') : path.isPresent = path'.isPresent := by
  funext value
  rw [Path.isPresent, Path.isPresent, h.lookup]

/-- The keys of a `pick` with what is found at their paths. -/
def getters (paths : List (String × Path)) : List (String × (Value → Value)) :=
  paths.map fun entry => (entry.1, entry.2.get)

theorem pick_eq_of_getters {paths paths' : List (String × Path)}
    (h : getters paths = getters paths') : Access.pick paths = Access.pick paths' := by
  have hpick (paths : List (String × Path)) (value : Value) : Access.pick paths value =
      .obj (Entries.ofList ((getters paths).map fun entry => (entry.1, entry.2 value))) := by
    simp [Access.pick, getters, Function.comp_def]
  funext value
  rw [hpick, hpick, h]

theorem ofQuery_of_pickedPath {key : String} (h : Access.pickedPath arg = .ok (key, path)) :
    Path.ofQuery "pick" arg = .ok path ∧ path.lastKey? = some key := by
  obtain ⟨path', hpath, h⟩ := ok_of_bind h
  cases hkey : path'.lastKey? with
  | none =>
      rw [hkey] at h
      exact nomatch h
  | some key' =>
      rw [hkey] at h
      obtain ⟨rfl, rfl⟩ : key' = key ∧ path' = path := by simpa using Except.ok.inj h
      exact ⟨hpath, hkey⟩

theorem pickedPath_of_ofQuery {key : String} (h : Path.ofQuery "pick" arg = .ok path)
    (hkey : path.lastKey? = some key) : Access.pickedPath arg = .ok (key, path) := by
  refine bind_ok h ?_
  rw [hkey]
  rfl

theorem mapM_pickedPath_of_standsFor {paths : List (String × Path)}
    (hargs : List.Forall₂ (StandsFor compile compile') args args')
    (h : args.mapM Access.pickedPath = .ok paths) :
    ∃ paths', args'.mapM Access.pickedPath = .ok paths' ∧ getters paths' = getters paths := by
  induction hargs generalizing paths with
  | nil => exact ⟨paths, h, rfl⟩
  | cons hstands _ ih =>
      obtain ⟨⟨key, path⟩, rest, harg, hrest, rfl⟩ := mapM_ok_cons h
      obtain ⟨hpath, hkey⟩ := ofQuery_of_pickedPath harg
      obtain ⟨path', hpath', halike⟩ := hstands.path hpath
      obtain ⟨rest', hrest', hgetters⟩ := ih hrest
      rw [halike.lastKey] at hkey
      refine ⟨(key, path') :: rest', mapM_cons_ok (pickedPath_of_ofQuery hpath' hkey) hrest', ?_⟩
      have hhead : path'.get = path.get := halike.get.symm
      simpa [getters, hhead] using hgetters

end Paths

/-! ## Functions with bodies of their own -/

namespace Function

variable {name : String}

/-- A function that combines the programs of all its arguments. -/
theorem Regular.combining (combine : List Program → Program) :
    Regular name (.higherOrder fun args compile => do return combine (← args.mapM compile)) := by
  constructor
  · intro args args' compile compile' program hargs h
    obtain ⟨programs, hprograms, h⟩ := ok_of_bind h
    have hreplaced := mapM_compile_of_standsFor hargs hprograms
    exact bind_ok hreplaced h
  · intro args compile program h
    obtain ⟨programs, hprograms, _⟩ := ok_of_bind h
    exact admitted_of_mapM hprograms

end Function

open PipeQuery.Function (Regular)

namespace Library

section Bodies

variable {function : Function}

theorem regular_get (h : builtin.lookup "get" = some function) : Regular "get" function := by
  obtain rfl := Option.some.inj h
  constructor
  case respects =>
    intro args args' compile compile' program hargs h
    obtain ⟨path, hpath, h⟩ := ok_of_bind h
    exact bind_ok (ofArgs_of_standsFor hargs hpath) h
  case admits =>
    intro args compile program h arg harg
    obtain ⟨path, hpath, _⟩ := ok_of_bind h
    obtain ⟨segment, hsegment⟩ := ok_of_mem_of_mapM hpath arg harg
    obtain ⟨value, _, hvalue⟩ := exists_literal_of_segment hsegment
    exact .literal hvalue

theorem regular_pick (h : builtin.lookup "pick" = some function) : Regular "pick" function := by
  obtain rfl := Option.some.inj h
  constructor
  case respects =>
    intro args args' compile compile' program hargs h
    obtain ⟨paths, hpaths, h⟩ := ok_of_bind h
    obtain ⟨paths', hpaths', hgetters⟩ := mapM_pickedPath_of_standsFor hargs hpaths
    have hpick := pick_eq_of_getters hgetters
    refine bind_ok hpaths' ?_
    rw [hpick]
    exact h
  case admits =>
    intro args compile program h arg harg
    obtain ⟨paths, hpaths, _⟩ := ok_of_bind h
    obtain ⟨⟨key, path⟩, hpicked⟩ := ok_of_mem_of_mapM hpaths arg harg
    exact .path (ofQuery_of_pickedPath hpicked).1

theorem regular_exists (h : builtin.lookup "exists" = some function) :
    Regular "exists" function := by
  obtain rfl := Option.some.inj h
  constructor
  case respects =>
    intro args args' compile compile' program hargs h
    rcases hargs with _ | ⟨harg, _ | ⟨_, _⟩⟩
    · exact nomatch h
    · obtain ⟨path, hpath, h⟩ := ok_of_bind h
      obtain ⟨path', hpath', halike⟩ := harg.path hpath
      refine bind_ok hpath' ?_
      rw [← halike.isPresent]
      exact h
    · exact nomatch h
  case admits =>
    intro args compile program h arg harg
    rcases args with _ | ⟨first, _ | ⟨second, others⟩⟩
    · exact nomatch h
    · obtain ⟨path, hpath, _⟩ := ok_of_bind h
      obtain rfl := List.mem_singleton.1 harg
      exact .path hpath
    · exact nomatch h

theorem regular_if (h : builtin.lookup "if" = some function) : Regular "if" function := by
  obtain rfl := Option.some.inj h
  constructor
  case respects =>
    intro args args' compile compile' program hargs h
    rcases hargs with _ | ⟨hcondition, _ | ⟨hyes, _ | ⟨hno, _ | ⟨_, _⟩⟩⟩⟩
    case cons.cons.cons.nil =>
      obtain ⟨decides, hdecides, h⟩ := ok_of_bind h
      obtain ⟨positive, hpositive, h⟩ := ok_of_bind h
      obtain ⟨negative, hnegative, h⟩ := ok_of_bind h
      exact bind_ok (hcondition.program hdecides)
        (bind_ok (hyes.program hpositive) (bind_ok (hno.program hnegative) h))
    all_goals exact nomatch h
  case admits =>
    intro args compile program h
    rcases args with _ | ⟨condition, _ | ⟨yes, _ | ⟨no, _ | ⟨next, others⟩⟩⟩⟩
    case cons.cons.cons.nil =>
      obtain ⟨decides, hdecides, h⟩ := ok_of_bind h
      obtain ⟨positive, hpositive, h⟩ := ok_of_bind h
      obtain ⟨negative, hnegative, h⟩ := ok_of_bind h
      intro arg harg
      simp only [List.mem_cons, List.not_mem_nil, or_false] at harg
      rcases harg with rfl | rfl | rfl
      · exact .program hdecides
      · exact .program hpositive
      · exact .program hnegative
    all_goals exact nomatch h

theorem regular_sort (h : builtin.lookup "sort" = some function) : Regular "sort" function := by
  obtain rfl := Option.some.inj h
  constructor
  case respects =>
    intro args args' compile compile' program hargs h
    have hlength := hargs.length_eq
    rcases hargs with _ | ⟨hgetter', _ | ⟨hdirection', hothers⟩⟩
    · exact h
    · obtain ⟨_, hcheck, h⟩ := ok_of_bind h
      obtain ⟨_, hgetter, h⟩ := ok_of_bind h
      obtain ⟨inner, hinner, rfl⟩ := ok_of_map hgetter
      exact bind_ok hcheck (bind_ok (mapM_some_ok (hgetter'.program hinner)) h)
    · obtain ⟨_, hcheck, h⟩ := ok_of_bind h
      obtain ⟨_, hgetter, h⟩ := ok_of_bind h
      obtain ⟨inner, hinner, rfl⟩ := ok_of_map hgetter
      obtain ⟨descending, hdescending, h⟩ := ok_of_bind h
      have hdirection := hdirection'.bind_literal readsScalars_descending? hdescending
      rw [hlength] at hcheck
      exact bind_ok hcheck
        (bind_ok (mapM_some_ok (hgetter'.program hinner)) (bind_ok hdirection h))
  case admits =>
    intro args compile program h arg harg
    rcases args with _ | ⟨getter, _ | ⟨direction, others⟩⟩
    · exact nomatch harg
    · obtain ⟨_, _, h⟩ := ok_of_bind h
      obtain ⟨_, hgetter, _⟩ := ok_of_bind h
      obtain ⟨inner, hinner, _⟩ := ok_of_map hgetter
      obtain rfl := List.mem_singleton.1 harg
      exact .program hinner
    · obtain ⟨_, hcheck, h⟩ := ok_of_bind h
      obtain ⟨_, hgetter, h⟩ := ok_of_bind h
      obtain ⟨inner, hinner, _⟩ := ok_of_map hgetter
      obtain ⟨descending, hdescending, _⟩ := ok_of_bind h
      obtain rfl := eq_nil_of_check_between [getter, direction] others hcheck
      rcases List.mem_cons.1 harg with rfl | harg
      · exact .program hinner
      · obtain rfl := List.mem_singleton.1 harg
        exact admitted_of_bind hdescending

theorem regular_limit (h : builtin.lookup "limit" = some function) : Regular "limit" function := by
  obtain rfl := Option.some.inj h
  constructor
  case respects =>
    intro args args' compile compile' program hargs h
    rcases hargs with _ | ⟨hlimit, _ | ⟨_, _⟩⟩
    · exact nomatch h
    · obtain ⟨count, hcount, h⟩ := ok_of_bind h
      exact bind_ok (hlimit.bind_literal readsScalars_count hcount) h
    · exact nomatch h
  case admits =>
    intro args compile program h arg harg
    rcases args with _ | ⟨limit, _ | ⟨second, others⟩⟩
    · exact nomatch h
    · obtain ⟨count, hcount, _⟩ := ok_of_bind h
      obtain rfl := List.mem_singleton.1 harg
      exact admitted_of_bind hcount
    · exact nomatch h

theorem regular_join (h : builtin.lookup "join" = some function) : Regular "join" function := by
  obtain rfl := Option.some.inj h
  constructor
  case respects =>
    intro args args' compile compile' program hargs h
    have hlength := hargs.length_eq
    rcases hargs with _ | ⟨hseparator, _⟩
    · exact h
    · obtain ⟨_, hcheck, h⟩ := ok_of_bind h
      obtain ⟨text, htext, h⟩ := ok_of_bind h
      rw [hlength] at hcheck
      exact bind_ok hcheck (bind_ok (hseparator.bind_literal readsScalars_separator htext) h)
  case admits =>
    intro args compile program h arg harg
    rcases args with _ | ⟨separator, others⟩
    · exact nomatch harg
    · obtain ⟨_, hcheck, h⟩ := ok_of_bind h
      obtain ⟨text, htext, _⟩ := ok_of_bind h
      obtain rfl := eq_nil_of_check_between [separator] others hcheck
      obtain rfl := List.mem_singleton.1 harg
      exact admitted_of_bind htext

theorem regular_regex (h : builtin.lookup "regex" = some function) : Regular "regex" function := by
  obtain rfl := Option.some.inj h
  constructor
  case respects =>
    intro args args' compile compile' program hargs h
    have hlength := hargs.length_eq
    obtain ⟨_, hcheck, h⟩ := ok_of_bind h
    rcases hargs with _ | ⟨hgetter, _ | ⟨hsource, hflags'⟩⟩
    · exact nomatch h
    · exact nomatch hcheck
    · obtain ⟨inner, hinner, h⟩ := ok_of_bind h
      obtain ⟨pattern, hpattern, h⟩ := ok_of_bind h
      have hinner' := hgetter.program hinner
      have hpattern' := hsource.bind_literal readsScalars_patternText hpattern
      rw [hlength] at hcheck
      rcases hflags' with _ | ⟨hflag, _⟩
      · exact bind_ok hcheck (bind_ok hinner' (bind_ok hpattern' h))
      · obtain ⟨flags, hflags, h⟩ := ok_of_bind h
        have hflags' := hflag.bind_literal readsScalars_flagsText hflags
        exact bind_ok hcheck (bind_ok hinner' (bind_ok hpattern' (bind_ok hflags' h)))
  case admits =>
    intro args compile program h arg harg
    obtain ⟨_, hcheck, h⟩ := ok_of_bind h
    rcases args with _ | ⟨getter, _ | ⟨source, flags⟩⟩
    · exact nomatch h
    · exact nomatch hcheck
    · obtain ⟨inner, hinner, h⟩ := ok_of_bind h
      obtain ⟨pattern, hpattern, h⟩ := ok_of_bind h
      rcases List.mem_cons.1 harg with rfl | harg
      · exact .program hinner
      rcases List.mem_cons.1 harg with rfl | harg
      · exact admitted_of_bind hpattern
      rcases flags with _ | ⟨flag, others⟩
      · exact nomatch harg
      · obtain ⟨flags, hflags, _⟩ := ok_of_bind h
        obtain rfl := eq_nil_of_check_between [getter, source, flag] others hcheck
        obtain rfl := List.mem_singleton.1 harg
        exact admitted_of_bind hflags

end Bodies

/-! ## The groups of functions -/

/-- `object` looks into its mapping; every other function here is regular. -/
theorem regular_access : ∀ entry ∈ access, entry.1 ≠ "object" → Regular entry.1 entry.2 := by
  simp only [access, List.forall_mem_cons]
  exact ⟨fun _ => regular_get rfl, fun _ => regular_pick rfl, fun h => absurd rfl h,
    fun _ => .combining _, fun _ => .combining _, fun _ => regular_exists rfl, by simp⟩

theorem regular_logic : ∀ entry ∈ logic, Regular entry.1 entry.2 := by
  simp only [logic, List.forall_mem_cons]
  exact ⟨.value _ _, .value _ _, .value _ _, .value _ _, .value _ _, .value _ _, .value _ _,
    .value _ _, .value _ _, regular_if rfl, .value _ _, .value _ _, .value _ _, by simp⟩

theorem regular_arithmetic : ∀ entry ∈ arithmetic, Regular entry.1 entry.2 := by
  simp only [arithmetic, List.forall_mem_cons]
  exact ⟨.value _ _, .value _ _, .value _ _, .value _ _, .value _ _, .value _ _, .value _ _,
    .value _ _, by simp⟩

theorem regular_aggregates : ∀ entry ∈ aggregates, Regular entry.1 entry.2 := by
  intro entry hentry
  obtain ⟨⟨name, aggregate⟩, _, rfl⟩ := List.mem_map.1 hentry
  exact .nullary _

theorem regular_collections : ∀ entry ∈ collections, Regular entry.1 entry.2 := by
  simp only [collections, List.forall_mem_cons]
  exact ⟨.overQuery _, .overQuery _, .overQuery _, .overQuery _, .overQuery _, regular_sort rfl,
    .nullary _, .overQuery _, .overQuery _, .nullary _, .nullary _, .overQuery _,
    regular_limit rfl, .nullary _, .nullary _, .nullary _, by simp⟩

theorem regular_text : ∀ entry ∈ text, Regular entry.1 entry.2 := by
  simp only [text, List.forall_mem_cons]
  exact ⟨regular_join rfl, .value _ _, .value _ _, regular_regex rfl, .value _ _, .value _ _,
    by simp⟩

variable {name : String} {function : Function}

theorem regular_of_lookup (h : builtin.lookup name = some function) (hname : name ≠ "object") :
    Regular name function := by
  refine @forall_of_lookup (fun name function => name ≠ "object" → Regular name function)
    regular_access ?_ ?_ ?_ ?_ ?_ _ _ h hname
  · exact fun entry hentry _ => regular_collections entry hentry
  · exact fun entry hentry _ => regular_aggregates entry hentry
  · exact fun entry hentry _ => regular_logic entry hentry
  · exact fun entry hentry _ => regular_arithmetic entry hentry
  · exact fun entry hentry _ => regular_text entry hentry

/-- The members of a mapping with their programs. -/
def compileEntries (compile : Compiler) (entries : List (String × Query)) :
    Except ReferenceFault (List (String × Program)) :=
  entries.mapM fun entry => do return (entry.1, ← compile entry.2)

theorem build_object (h : builtin.lookup "object" = some function) {compile : Compiler}
    {args : List Query} {program : Program} :
    function.build "object" args compile = .ok program ↔
      ∃ entries programs, args = [.mapping entries] ∧
        compileEntries compile entries = .ok programs ∧ Access.objectOf programs = program := by
  obtain rfl := Option.some.inj h
  constructor
  · intro h
    rcases args with _ | ⟨(value | ⟨name, args⟩ | entries), _ | ⟨second, others⟩⟩
    case cons.mapping.nil =>
      obtain ⟨programs, hprograms, h⟩ := ok_of_bind h
      exact ⟨entries, programs, rfl, hprograms, Except.ok.inj h⟩
    all_goals exact nomatch h
  · rintro ⟨entries, programs, rfl, hprograms, rfl⟩
    exact bind_ok hprograms rfl

theorem admits_of_lookup (h : builtin.lookup name = some function) : function.Admits name := by
  by_cases hname : name = "object"
  · subst hname
    intro args compile program hbuild arg harg
    obtain ⟨entries, programs, rfl, hprograms, _⟩ := (build_object h).1 hbuild
    obtain rfl := List.mem_singleton.1 harg
    refine .mapping rfl fun entry hentry => ?_
    obtain ⟨_, hresult⟩ := ok_of_mem_of_mapM hprograms entry hentry
    obtain ⟨program, hprogram, _⟩ := ok_of_bind hresult
    exact ⟨program, hprogram⟩
  · exact (regular_of_lookup h hname).admits

end Library

end PipeQuery
