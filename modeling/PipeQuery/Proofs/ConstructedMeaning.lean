/-
The meaning of queries that build their containers.

A query and the query that builds its containers have the same programs, within any limit that the
heights of both allow.  No function tells a literal container from the call that builds it: the
arguments that are read as literals are read as scalars, and paths are calls of `get`.
-/
import PipeQuery.Proofs.Construction
import PipeQuery.Proofs.Meaning

namespace PipeQuery

open PipeQuery.Query (exists_budget_of_height exists_budget_of_object)

/-- Each of the queries can be an argument of a call in the place of the other: they have the same
programs, within any limits that their heights allow, and are the same scalar or the same path. -/
structure Interchangeable (query query' : Query) : Prop where
  program {limit limit' budget budget' : Nat} {program : Program} (hheight : query.height ≤ budget)
    (hheight' : query'.height ≤ budget') :
    compileWithin Library.builtin limit budget query = .ok program ↔
      compileWithin Library.builtin limit' budget' query' = .ok program
  literal {value : Value} (hscalar : value.IsScalar) :
    query = .literal value ↔ query' = .literal value
  path {function : String} {path : Path} :
    Path.ofQuery function query = .ok path ↔ Path.ofQuery function query' = .ok path

namespace Interchangeable

variable {query query' : Query} {args args' : List Query} {name function : String}
  {entries entries' : List (String × Query)} {limit limit' budget budget' : Nat}
  {program : Program} {path : Path}

theorem symm (h : Interchangeable query query') : Interchangeable query' query where
  program hheight hheight' := (h.program hheight' hheight).symm
  literal hscalar := (h.literal hscalar).symm
  path := h.path.symm

theorem standsFor (h : Interchangeable query query') (hheight : query.height ≤ budget)
    (hheight' : query'.height ≤ budget') :
    StandsFor (compileWithin Library.builtin limit budget)
      (compileWithin Library.builtin limit' budget') query query' where
  program hprogram := (h.program hheight hheight').1 hprogram
  literal hscalar hliteral := (h.literal hscalar).1 hliteral
  path hpath := ⟨_, h.path.1 hpath, .refl _⟩

theorem standsFor_args (hargs : List.Forall₂ Interchangeable args args')
    (hheights : ∀ arg ∈ args, arg.height ≤ budget)
    (hheights' : ∀ arg ∈ args', arg.height ≤ budget') :
    List.Forall₂ (StandsFor (compileWithin Library.builtin limit budget)
      (compileWithin Library.builtin limit' budget')) args args' :=
  forall₂_imp_of_mem hargs fun arg harg arg' harg' hsame =>
    hsame.standsFor (hheights arg harg) (hheights' arg' harg')

/-! ## Calls -/

theorem compile_call (hobject : ¬ Printer.IsObject name args)
    (hargs : List.Forall₂ Interchangeable args args')
    (hheight : (Query.call name args).height ≤ budget)
    (hheight' : (Query.call name args').height ≤ budget')
    (h : compileWithin Library.builtin limit budget (.call name args) = .ok program) :
    compileWithin Library.builtin limit' budget' (.call name args') = .ok program := by
  obtain ⟨inner, rfl, hheights⟩ := exists_budget_of_height hheight
  obtain ⟨inner', rfl, hheights'⟩ := exists_budget_of_height hheight'
  obtain ⟨_, _, hbudget, hlookup, hbuild⟩ := exists_function_of_compileWithin h
  obtain rfl := Nat.succ.inj hbudget
  have hname := Printer.ne_object_of_build hlookup hobject hbuild
  apply compileWithin_call hlookup
  refine (Library.regular_of_lookup hlookup hname).respects ?_ hbuild
  exact standsFor_args hargs hheights hheights'

theorem ofQuery_call (hargs : List.Forall₂ Interchangeable args args')
    (h : Path.ofQuery function (.call name args) = .ok path) :
    Path.ofQuery function (.call name args') = .ok path := by
  obtain ⟨_, hget, hpath⟩ := exists_args_of_ofQuery h
  obtain ⟨rfl, rfl⟩ := Query.call.inj hget
  refine mapM_forall₂ (hargs.imp fun arg arg' hsame segment hsegment => ?_) hpath
  obtain ⟨value, hscalar, rfl⟩ := exists_literal_of_segment hsegment
  rwa [(hsame.literal hscalar).1 rfl]

theorem symm_args (hargs : List.Forall₂ Interchangeable args args') :
    List.Forall₂ Interchangeable args' args :=
  (hargs.imp fun _ _ hsame => hsame.symm).flip

/-- Calls that build no object are interchangeable where their arguments are. -/
theorem call (hobject : ¬ Printer.IsObject name args) (hobject' : ¬ Printer.IsObject name args')
    (hargs : List.Forall₂ Interchangeable args args') :
    Interchangeable (.call name args) (.call name args') where
  program hheight hheight' := ⟨compile_call hobject hargs hheight hheight',
    compile_call hobject' (symm_args hargs) hheight' hheight⟩
  literal _ := by simp
  path := ⟨ofQuery_call hargs, ofQuery_call (symm_args hargs)⟩

/-! ## Mappings and objects -/

/-- The entries have the same key, and values that are interchangeable. -/
structure Entry (entry entry' : String × Query) : Prop where
  key : entry.1 = entry'.1
  value : Interchangeable entry.2 entry'.2

/-- No mapping is a program, a scalar or a path. -/
theorem mapping (entries entries' : List (String × Query)) :
    Interchangeable (.mapping entries) (.mapping entries') where
  program _ _ := iff_of_false not_compileWithin_mapping not_compileWithin_mapping
  literal _ := by simp
  path := by simp [Path.ofQuery]

theorem compileEntries_of_entries {programs : List (String × Program)}
    (hentries : List.Forall₂ Entry entries entries')
    (hheights : ∀ entry ∈ entries, entry.2.height ≤ budget)
    (hheights' : ∀ entry ∈ entries', entry.2.height ≤ budget')
    (h : Library.compileEntries (compileWithin Library.builtin limit budget) entries =
      .ok programs) :
    Library.compileEntries (compileWithin Library.builtin limit' budget') entries' =
      .ok programs := by
  refine mapM_forall₂ (forall₂_imp_of_mem hentries ?_) h
  intro entry hentry entry' hentry' hsame member hmember
  obtain ⟨value, hvalue, hmember⟩ := ok_of_bind hmember
  have hvalue' : compileWithin Library.builtin limit' budget' entry'.2 = .ok value :=
    (hsame.value.program (hheights entry hentry) (hheights' entry' hentry')).1 hvalue
  rw [hsame.key] at hmember
  exact bind_ok hvalue' hmember

theorem compile_object (hentries : List.Forall₂ Entry entries entries')
    (hheight : (Query.object entries).height ≤ budget)
    (hheight' : (Query.object entries').height ≤ budget')
    (h : compileWithin Library.builtin limit budget (.object entries) = .ok program) :
    compileWithin Library.builtin limit' budget' (.object entries') = .ok program := by
  obtain ⟨inner, rfl, hheights⟩ := exists_budget_of_object hheight
  obtain ⟨inner', rfl, hheights'⟩ := exists_budget_of_object hheight'
  obtain ⟨_, _, hbudget, hlookup, hbuild⟩ := exists_function_of_compileWithin h
  obtain rfl := Nat.succ.inj hbudget
  obtain ⟨_, programs, heq, hprograms, hprogram⟩ := (Library.build_object hlookup).1 hbuild
  obtain rfl := Query.mapping.inj (List.singleton_inj.1 heq)
  apply compileWithin_call hlookup
  refine (Library.build_object hlookup).2 ⟨_, programs, rfl, ?_, hprogram⟩
  exact compileEntries_of_entries hentries hheights hheights' hprograms

theorem not_ofQuery_call (hname : name ≠ "get") :
    Path.ofQuery function (.call name args) ≠ .ok path := by
  intro h
  obtain ⟨_, hget, _⟩ := exists_args_of_ofQuery h
  exact hname (Query.call.inj hget).1

/-- Objects are interchangeable where their values are. -/
theorem object (hentries : List.Forall₂ Entry entries entries') :
    Interchangeable (.object entries) (.object entries') where
  program hheight hheight' := ⟨compile_object hentries hheight hheight',
    compile_object (hentries.imp fun _ _ h => ⟨h.key.symm, h.value.symm⟩).flip hheight' hheight⟩
  literal _ := by simp [Query.object]
  path := iff_of_false (not_ofQuery_call (by decide)) (not_ofQuery_call (by decide))

/-! ## Literals -/

theorem literal_refl (value : Value) : Interchangeable (.literal value) (.literal value) where
  program _ _ := by rw [compileWithin_literal, compileWithin_literal]
  literal _ := .rfl
  path := .rfl

end Interchangeable

namespace Query

open Printer (compile_restated_literal constantly restated)

variable {value : Value} {query : Query}

theorem construction_eq_restated (h : value.WellFormed) :
    value.construction = restated .builtin (.literal value) := by
  induction h with
  | @scalar value h =>
      rw [Printer.restated_of_eq (Printer.reading_finiteScalar h)]
      exact construction_eq_literal_iff.2 h
  | @arr items hitems ih =>
      rw [Printer.restated_of_eq (Printer.reading_array fun item hitem =>
        Printer.readsPlain_literal (hitems item hitem)), Value.construction, List.map_congr_left ih]
      rfl
  | @obj members hdistinct hmembers ih =>
      rw [Printer.restated_of_eq (Printer.reading_members hdistinct fun member hmember =>
        Printer.readsPlain_literal (hmembers member hmember)), Value.construction]
      exact congrArg object (List.map_congr_left fun member hmember =>
        congrArg (Prod.mk member.1) (ih member hmember))

/-- A literal always gives what its construction gives. -/
theorem interchangeable_construction (h : value.WellFormed) :
    Interchangeable (.literal value) value.construction := by
  have hcompile {limit limit' budget budget' : Nat} {program : Program}
      (hheight : value.construction.height ≤ budget') :
      compileWithin Library.builtin limit budget (.literal value) = .ok program ↔
        compileWithin Library.builtin limit' budget' value.construction = .ok program := by
    rw [construction_eq_restated h] at hheight ⊢
    rw [compileWithin_literal, compile_restated_literal h hheight]
    exact .rfl
  cases h with
  | scalar h =>
      rw [construction_eq_literal_iff.2 h]
      exact .literal_refl value
  | arr | obj =>
      rw [Value.construction] at hcompile ⊢
      refine ⟨fun _ hheight' => hcompile hheight', fun hscalar => iff_of_false ?_ ?_,
        iff_of_false ?_ (Interchangeable.not_ofQuery_call (by decide))⟩
      · intro heq
        obtain rfl := literal.inj heq
        exact hscalar
      · simp [array, object]
      · simp [Path.ofQuery]

theorem isObject_constructed {name : String} {args : List Query}
    (h : Printer.IsObject name (args.map constructed)) : Printer.IsObject name args := by
  obtain ⟨rfl, entries, hargs⟩ := h
  rcases args with _ | ⟨(value | ⟨name, args⟩ | entries), _ | ⟨second, others⟩⟩
  case cons.mapping.nil => exact ⟨rfl, entries, rfl⟩
  case cons.literal.nil =>
    cases value <;> simp [constructed, Value.construction, array, object] at hargs
  all_goals simp [constructed] at hargs

/-- Everywhere in a query, what builds the containers can take the place of what it builds. -/
theorem interchangeable_constructed (hwell : query.Everywhere WellFormed) :
    Interchangeable query query.constructed := by
  -- A mapping is no program, so what `object` needs of its entries is carried along.
  have hentries : Interchangeable query query.constructed ∧
      ∀ entries, query = mapping entries →
        ∀ entry ∈ entries, Interchangeable entry.2 entry.2.constructed := by
    induction hwell with
    | literal hvalue =>
        rw [constructed]
        exact ⟨interchangeable_construction hvalue, by simp⟩
    | @mapping entries _ _ ih =>
        rw [constructed]
        refine ⟨.mapping _ _, fun entries' heq entry hentry => ?_⟩
        obtain rfl := mapping.inj heq
        exact (ih entry hentry).1
    | @call name args _ _ ih =>
        refine ⟨?_, by simp⟩
        rw [constructed]
        by_cases hobject : Printer.IsObject name args
        · obtain ⟨rfl, entries, rfl⟩ := hobject
          have hmembers := (ih (mapping entries) List.mem_cons_self).2 entries rfl
          rw [List.map_cons, List.map_nil, constructed]
          exact .object (List.forall₂_map_right_iff.2 (List.forall₂_same.2 fun entry hentry =>
            ⟨rfl, hmembers entry hentry⟩))
        · refine .call hobject (fun h => hobject (isObject_constructed h)) ?_
          exact List.forall₂_map_right_iff.2 (List.forall₂_same.2 fun arg harg => (ih arg harg).1)
  exact hentries.1

/-- A well-formed query is read from its JSON form as a query with the same programs, within any
limit that the heights of both allow. -/
theorem compile_ofJson_toJson (hwell : query.Everywhere WellFormed) :
    ∃ query', ofJson query.toJson = .ok query' ∧
      ∀ limit, query.height ≤ limit → query'.height ≤ limit → ∀ program,
        compile Library.builtin limit query = .ok program ↔
          compile Library.builtin limit query' = .ok program :=
  ⟨query.constructed, ofJson_toJson_eq_constructed query, fun _ hheight hheight' _ =>
    (interchangeable_constructed hwell).program hheight hheight'⟩

/-- Membership in a list of records: each record is built by a call of its own. -/
theorem compile_ofJson_toJson_in :
    let records : Value := .arr [.obj [("a", .int 1)], .null]
    let query := call "in" [get ["a"], literal records]
    query.Everywhere WellFormed ∧
      ∃ query', ofJson query.toJson = .ok query' ∧ query.height = 2 ∧ query'.height = 3 ∧
        ∃ program, compile Library.builtin 3 query = .ok program ∧
          compile Library.builtin 3 query' = .ok program := by
  intro records query
  have hrecord : Value.WellFormed (.obj [("a", .int 1)]) :=
    .obj (List.nodup_singleton "a") (List.forall_mem_singleton.2 (.scalar trivial))
  have hrecords : records.WellFormed := by
    refine .arr (List.forall_mem_cons.2 ⟨hrecord, ?_⟩)
    exact List.forall_mem_singleton.2 (.scalar trivial)
  have hpath : (get ["a"]).Everywhere WellFormed :=
    .call trivial (List.forall_mem_singleton.2 (.literal (.scalar trivial)))
  have hwell : query.Everywhere WellFormed := by
    refine .call trivial (List.forall_mem_cons.2 ⟨hpath, ?_⟩)
    exact List.forall_mem_singleton.2 (.literal hrecords)
  obtain ⟨query', hread, hsame⟩ := compile_ofJson_toJson hwell
  obtain rfl : query.constructed = query' :=
    Except.ok.inj ((ofJson_toJson_eq_constructed query).symm.trans hread)
  have hheight : query.height = 2 := by simp [query, get, height]
  have hheight' : query.constructed.height = 3 := by
    simp [query, records, get, array, object, constructed, Value.construction, Value.finite, height]
  obtain ⟨program, hprogram⟩ : ∃ program, compile Library.builtin 3 query = .ok program := ⟨_, rfl⟩
  refine ⟨hwell, _, hread, hheight, hheight', program, hprogram, ?_⟩
  exact (hsame 3 (by omega) (by omega) program).1 hprogram

end Query

end PipeQuery
