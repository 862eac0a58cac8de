/-
The meaning of a printed query.

A restatement has the program of its query: a path leads to the same place whether its steps are
whole numbers or texts, a container is what the calls that build it give, and an operator gives the
same when it takes over the arguments of a call of its own.  The exception is `and`: the empty call
gives null, which makes any `and` null, but the `and` that takes over its arguments takes over
nothing.
-/
import PipeQuery.Proofs.Resolution
import PipeQuery.Proofs.Restatement

namespace PipeQuery

/-! ## Paths -/

section Paths

variable {function : String} {arg : Query} {args : List Query} {path path' : Path}
  {segment segment' : Segment} {key : String} {keys : List String}

theorem Segment.lookup?_congr (hkey : segment.key = segment'.key)
    (hindex : segment.index? = segment'.index?) : segment.lookup? = segment'.lookup? := by
  funext value
  cases value with
  | obj members => rw [Segment.lookup?, Segment.lookup?, hkey]
  | arr items => rw [Segment.lookup?, Segment.lookup?, hindex]
  | _ => rfl

/-- A whole number as a key is the index it writes. -/
theorem index?_integerText {n : Int64} (h : 0 ≤ n.toInt) :
    (Segment.field (integerText n.toInt)).index? = some n.toInt := by
  have htext : (integerText n.toInt).toList = decimal n.toInt.natAbs := by
    have hnegative : ¬ n.toInt < 0 := by omega
    simp [integerText, hnegative]
  have hvalue : (digitsValue (integerText n.toInt).toList : Int) = n.toInt := by
    rw [htext, digitsValue_decimal]
    omega
  have hindex : isIndexText (integerText n.toInt) = true := by
    rw [Scan.isIndexText_iff, htext]
    exact Scan.whole_decimal _
  have hfits := fitsInt64_toInt n
  simp only [Segment.index?, hvalue, hindex, hfits, Bool.and_self, if_true]

theorem exists_args_of_ofQuery (h : Path.ofQuery function arg = .ok path) :
    ∃ args, arg = .call "get" args ∧ Path.ofArgs function args = .ok path := by
  unfold Path.ofQuery at h
  split at h
  · exact ⟨_, rfl, h⟩
  · exact nomatch h

theorem alike_of_segmentKey? (h : Path.segment function arg = .ok segment)
    (hkey : Printer.segmentKey? arg = some key) :
    segment.lookup? = (Segment.field key).lookup? ∧ segment.key = key := by
  unfold Printer.segmentKey? at hkey
  split at hkey
  · obtain rfl := Option.some.inj hkey
    obtain rfl := Except.ok.inj h
    exact ⟨rfl, rfl⟩
  · split at hkey
    · rename_i hn
      obtain rfl := Option.some.inj hkey
      obtain rfl := Except.ok.inj h
      exact ⟨Segment.lookup?_congr rfl (index?_integerText hn).symm, rfl⟩
    · exact nomatch hkey
  · exact nomatch hkey

theorem Path.Alike.refl (path : Path) : path.Alike path :=
  ⟨rfl, rfl⟩

/-- The keys of a path lead to the same place as its segments. -/
theorem alike_of_keys (h : Path.ofArgs function args = .ok path)
    (hkeys : args.mapM Printer.segmentKey? = some keys) : path.Alike (keys.map .field) := by
  have hsteps : (∀ value, path.lookup? value = Path.lookup? (keys.map .field) value) ∧
      path.map Segment.key = keys := by
    induction args generalizing path keys with
    | nil =>
        obtain rfl : [] = path := Except.ok.inj h
        obtain rfl : [] = keys := Option.some.inj hkeys
        exact ⟨fun _ => rfl, rfl⟩
    | cons arg args ih =>
        obtain ⟨segment, rest, hsegment, hrest, rfl⟩ := mapM_ok_cons h
        simp only [List.mapM_cons, Option.bind_eq_bind, Option.bind_eq_some_iff, Option.pure_def,
          Option.some.injEq] at hkeys
        obtain ⟨key, hkey, keys, hkeys, rfl⟩ := hkeys
        obtain ⟨hlookup, hname⟩ := alike_of_segmentKey? hsegment hkey
        obtain ⟨hlookups, hnames⟩ := ih hrest hkeys
        constructor
        · intro value
          simp only [Path.lookup?, List.foldlM_cons, List.map_cons] at hlookups ⊢
          rw [hlookup]
          cases (Segment.field key).lookup? value with
          | none => rfl
          | some next => exact hlookups next
        · rw [List.map_cons, hname, hnames]
  constructor
  · funext value
    exact hsteps.1 value
  · rw [Path.lastKey?, Path.lastKey?, ← List.getLast?_map, ← List.getLast?_map, hsteps.2,
      List.map_map]
    simp [Function.comp_def, Segment.key]

theorem ofArgs_keys (function : String) (keys : List String) :
    Path.ofArgs function (keys.map fun key => .literal (.str key)) = .ok (keys.map .field) := by
  induction keys with
  | nil => rfl
  | cons key keys ih => exact mapM_cons_ok rfl ih

end Paths

/-! ## Queries that can be written -/

namespace Printer

open PipeQuery.Parser (refuses)
open PipeQuery.Query (exists_budget_of_height exists_budget_of_object height_call_le_iff)

variable {limit budget : Nat} {name symbol : String} {query first : Query}
  {args others : List Query} {program : Program}

theorem writableValue_of_wellFormed {value : Value} (h : value.WellFormed) :
    WritableValue value := by
  induction h with
  | @scalar value h =>
      apply WritableValue.scalar
      cases value with
      | float x => exact exact_of_isFinite h
      | arr items => exact h.elim
      | obj members => exact h.elim
      | _ => trivial
  | arr _ ih => exact .arr ih
  | obj _ _ ih => exact .obj ih

/-- A call that compiles with an operator that takes two operands is written infix. -/
theorem isSome_symbolFor?_of_compile
    (h : compileWithin Library.builtin limit budget (.call name args) = .ok program)
    (hsymbol : OperatorTable.builtin.symbol? name = some symbol)
    (hvararg : OperatorTable.builtin.isVararg name = false) :
    (symbolFor? .builtin name args).isSome = true := by
  obtain ⟨inner, function, _, hlookup, hbuild⟩ := exists_function_of_compileWithin h
  have hlength := Library.length_of_operator hlookup hsymbol hvararg hbuild
  simp [symbolFor?, hlength, hsymbol]

/-- No operator refuses to follow an operand that compiles. -/
theorem refuses_eq_false_of_admitted
    (h : Admitted (compileWithin Library.builtin limit budget) first)
    (hsymbol : OperatorTable.builtin.symbol? name = some symbol) :
    refuses .builtin name
      (grouped (needsParentheses .builtin name true first) (reading .builtin first)) = false := by
  have hlegible := Parser.separable_builtin.legible
  obtain ⟨level, _, hlevel, _⟩ := hlegible.group hsymbol
  by_contra hrefuses
  obtain ⟨hchain, hvararg, hassociative⟩ : (grouped (needsParentheses .builtin name true first)
      (reading .builtin first)).isChain name = true ∧ OperatorTable.builtin.isVararg name = false ∧
        OperatorTable.builtin.isLeftAssociative name = false := by
    simpa [refuses] using hrefuses
  obtain ⟨args, rfl⟩ := exists_call_of_callName? hlegible hsymbol (ne_notIn_of_symbol? hsymbol)
    (callName?_of_isChain hchain)
  have hneeds := not_grouped_of_isChain hchain
  cases h with
  | program hprogram =>
      have hwritten := isSome_symbolFor?_of_compile hprogram hsymbol hvararg
      have hnests := (nestsLeft_of_needsParentheses hlevel hwritten hneeds).2
      rw [hassociative] at hnests
      cases hnests
  | literal hvalue => cases hvalue
  | path hpath =>
      obtain ⟨_, hget, _⟩ := exists_args_of_ofQuery hpath
      obtain rfl : name = "get" := (Query.call.inj hget).1
      cases hsymbol
  | mapping hmapping => cases hmapping

/-- What compiles as a call or as an argument can be written. -/
theorem writable_of_admitted (hwell : query.Everywhere Query.WellFormed)
    (h : Admitted (compileWithin Library.builtin limit budget) query) :
    Writable .builtin query := by
  induction hwell generalizing budget with
  | literal hvalue => exact .literal (writableValue_of_wellFormed hvalue)
  | mapping _ _ ih =>
      cases h with
      | program hprogram => exact absurd hprogram not_compileWithin_mapping
      | literal hvalue => exact nomatch hvalue
      | path hpath => exact nomatch hpath
      | mapping hmapping hentries =>
          obtain rfl := Query.mapping.inj hmapping
          apply Writable.mapping
          intro entry hentry
          obtain ⟨program, hprogram⟩ := hentries entry hentry
          exact ih entry hentry (.program hprogram)
  | @call name args _ _ ih =>
      cases h with
      | program hprogram =>
          obtain ⟨inner, function, _, hlookup, hbuild⟩ := exists_function_of_compileWithin hprogram
          have hadmitted := Library.admits_of_lookup hlookup hbuild
          refine .call (fun arg harg => ih arg harg (hadmitted arg harg))
            (fun _ => Library.isPlainName_of_lookup hlookup) ?_
          rintro first others rfl hwritten
          obtain ⟨symbol, hsymbol⟩ := Option.isSome_iff_exists.1 hwritten
          exact refuses_eq_false_of_admitted (hadmitted first List.mem_cons_self)
            (symbol?_of_symbolFor? hsymbol)
      | literal hvalue => exact nomatch hvalue
      | path hpath =>
          obtain ⟨_, hget, hargs⟩ := exists_args_of_ofQuery hpath
          obtain ⟨rfl, rfl⟩ := Query.call.inj hget
          refine .call (fun arg harg => ?_) (fun _ => by decide) fun first others _ hwritten => ?_
          · obtain ⟨segment, hsegment⟩ := ok_of_mem_of_mapM hargs arg harg
            obtain ⟨value, _, hvalue⟩ := exists_literal_of_segment hsegment
            exact @ih arg harg 0 (.literal hvalue)
          · rw [symbolFor?_eq_none rfl] at hwritten
            exact nomatch hwritten
      | mapping hmapping => exact nomatch hmapping

/-! ## Restatements of literals -/

variable {limit' budget' : Nat} {arg : Query}

/-- Always the same value. -/
def constantly (value : Value) : Program := fun _ => .ok value

theorem arrayOf_constantly (items : List Value) :
    Access.arrayOf (items.map constantly) = constantly (.arr items) := by
  funext data
  have hitems : (items.map constantly).mapM (fun program => program data) = .ok items := by
    have h := @mapM_map_ok _ _ _ _ constantly (fun program => program data) id items fun _ _ => rfl
    rwa [List.map_id] at h
  exact bind_ok hitems rfl

theorem objectOf_constantly {members : List (String × Value)} (h : Entries.Distinct members) :
    Access.objectOf (members.map fun member => (member.1, constantly member.2)) =
      constantly (.obj members) := by
  funext data
  have hmembers : (members.map fun member => (member.1, constantly member.2)).mapM
      (fun entry => do return (entry.1, ← entry.2 data)) = Except.ok members := by
    have h := @mapM_map_ok _ _ _ _ (fun member => (member.1, constantly member.2))
      (fun entry => do return (entry.1, ← entry.2 data)) id members fun _ _ => rfl
    rwa [List.map_id] at h
  refine bind_ok hmembers ?_
  rw [Entries.ofList_of_distinct h]
  rfl

theorem compile_restated_literal {value : Value} (h : value.WellFormed)
    (hheight : (restated .builtin (.literal value)).height ≤ budget') :
    compileWithin Library.builtin limit' budget' (restated .builtin (.literal value)) =
      .ok (constantly value) := by
  induction h generalizing budget' with
  | scalar h =>
      rw [restated_of_eq (reading_finiteScalar h)]
      exact compileWithin_literal _
  | @arr items hitems ih =>
      rw [restated_of_eq (reading_array fun item hitem => readsPlain_literal (hitems item hitem))]
        at hheight ⊢
      obtain ⟨inner, rfl, hheights⟩ := exists_budget_of_height hheight
      refine compileWithin_call rfl ?_
      have hprograms := @mapM_map_ok _ _ _ _ (fun item => restated .builtin (.literal item))
        (compileWithin Library.builtin limit' inner) constantly items fun item hitem =>
          ih item hitem (hheights _ (List.mem_map_of_mem hitem))
      refine bind_ok hprograms ?_
      rw [arrayOf_constantly]
      rfl
  | @obj members hdistinct hmembers ih =>
      rw [restated_of_eq (reading_members hdistinct fun member hmember =>
        readsPlain_literal (hmembers member hmember))] at hheight ⊢
      obtain ⟨inner, rfl, hheights⟩ := exists_budget_of_object hheight
      have hprograms : Library.compileEntries (compileWithin Library.builtin limit' inner)
          (members.map fun member => (member.1, restated .builtin (.literal member.2))) =
            .ok (members.map fun member => (member.1, constantly member.2)) := by
        refine mapM_map_ok fun member hmember => ?_
        exact bind_ok (ih member hmember (hheights _ (List.mem_map_of_mem hmember))) rfl
      exact compileWithin_call rfl
        ((Library.build_object rfl).2 ⟨_, _, rfl, hprograms, objectOf_constantly hdistinct⟩)

/-! ## Restatements of calls -/

/-- What replaces the query has its program, within any limits that its height allows. -/
def KeptBy (replace : Query → Query) (query : Query) : Prop :=
  ∀ ⦃limit budget : Nat⦄ ⦃program : Program⦄,
    compileWithin Library.builtin limit budget query = .ok program →
    ∀ ⦃limit' budget' : Nat⦄, (replace query).height ≤ budget' →
      compileWithin Library.builtin limit' budget' (replace query) = .ok program

/-- The restatement has the program of the query. -/
abbrev Kept (query : Query) : Prop :=
  KeptBy (restated .builtin) query

theorem kept_literal {value : Value} (h : value.WellFormed) : Kept (.literal value) := by
  intro limit budget program hprogram limit' budget' hheight
  obtain rfl : constantly value = program := by
    rw [compileWithin_literal] at hprogram
    exact Except.ok.inj hprogram
  exact compile_restated_literal h hheight

theorem restated_scalar {value : Value} (h : value.WellFormed) (hscalar : value.IsScalar) :
    restated .builtin (.literal value) = .literal value := by
  cases h with
  | scalar h => exact restated_of_eq (reading_finiteScalar h)
  | arr => exact hscalar.elim
  | obj => exact hscalar.elim

theorem wellFormed_of_everywhere {value : Value}
    (h : (Query.literal value).Everywhere Query.WellFormed) : value.WellFormed := by
  cases h with
  | literal h => exact h

/-- The segments of a path that is no list of keys stay as they are. -/
theorem map_restated_of_ofArgs {function : String} {path : Path}
    (hargs : ∀ arg ∈ args, arg.Everywhere Query.WellFormed)
    (h : Path.ofArgs function args = .ok path) :
    args.map (restated .builtin) = args := by
  have hsame : ∀ arg ∈ args, restated .builtin arg = arg := by
    intro arg harg
    obtain ⟨segment, hsegment⟩ := ok_of_mem_of_mapM h arg harg
    obtain ⟨value, hscalar, rfl⟩ := exists_literal_of_segment hsegment
    exact restated_scalar (wellFormed_of_everywhere (hargs _ harg)) hscalar
  rw [List.map_congr_left hsame, List.map_id']

/-- The restatement of a path leads to the same place. -/
theorem exists_alike_restated {function : String} {path : Path}
    (hwell : query.Everywhere Query.WellFormed) (h : Path.ofQuery function query = .ok path) :
    ∃ path', Path.ofQuery function (restated .builtin query) = .ok path' ∧ path.Alike path' := by
  obtain ⟨args, rfl, hpath⟩ := exists_args_of_ofQuery h
  cases hkeys : pathKeys? "get" args with
  | some keys =>
      have hmapM := (mapM_segmentKey?_of_pathKeys? hkeys).2
      rw [restated_of_eq (reading_get_eq_plain hkeys)]
      exact ⟨_, ofArgs_keys function keys, alike_of_keys hpath hmapM⟩
  | none =>
      have hobject : ¬ IsObject "get" args := fun h => absurd h.1 (by decide)
      have hsymbol : symbolFor? .builtin "get" args = none := symbolFor?_eq_none rfl
      have hargs : ∀ arg ∈ args, arg.Everywhere Query.WellFormed := by
        cases hwell with
        | call _ hargs => exact hargs
      have hreading := reading_functionForm hobject hkeys hsymbol fun arg harg =>
        readsPlain_of_wellFormed (hargs arg harg)
      rw [restated_of_eq hreading, map_restated_of_ofArgs hargs hpath]
      exact ⟨path, hpath, .refl path⟩

theorem standsFor_restated (hwell : arg.Everywhere Query.WellFormed) (hkept : Kept arg)
    (hheight : (restated .builtin arg).height ≤ budget') :
    StandsFor (compileWithin Library.builtin limit budget)
      (compileWithin Library.builtin limit' budget') arg (restated .builtin arg) where
  program h := hkept h hheight
  literal hscalar h := by
    subst h
    exact restated_scalar (wellFormed_of_everywhere hwell) hscalar
  path h := exists_alike_restated hwell h

variable {function : Function} {replace : Query → Query}

/-- A regular function makes the same program of arguments that stand for its own. -/
theorem compile_replaced_args (hlookup : Library.builtin.lookup name = some function)
    (hobject : name ≠ "object")
    (hstands : ∀ arg ∈ args, ∀ inner, (replace arg).height ≤ inner →
      StandsFor (compileWithin Library.builtin limit budget)
        (compileWithin Library.builtin limit' inner) arg (replace arg))
    (hbuild : function.build name args (compileWithin Library.builtin limit budget) = .ok program)
    (hheight : (Query.call name (args.map replace)).height ≤ budget') :
    compileWithin Library.builtin limit' budget' (.call name (args.map replace)) = .ok program := by
  obtain ⟨inner, rfl, hheights⟩ := exists_budget_of_height hheight
  apply compileWithin_call hlookup
  refine (Library.regular_of_lookup hlookup hobject).respects ?_ hbuild
  refine List.forall₂_map_right_iff.2 (List.forall₂_same.2 fun arg harg => ?_)
  exact hstands arg harg inner (hheights _ (List.mem_map_of_mem harg))

theorem compile_replaced_object {entries : List (String × Query)}
    (hlookup : Library.builtin.lookup "object" = some function)
    (hkept : ∀ entry ∈ entries, KeptBy replace entry.2)
    (hbuild : function.build "object" [.mapping entries]
      (compileWithin Library.builtin limit budget) = .ok program)
    (hheight :
      (Query.object (entries.map fun entry => (entry.1, replace entry.2))).height ≤ budget') :
    compileWithin Library.builtin limit' budget'
      (.object (entries.map fun entry => (entry.1, replace entry.2))) = .ok program := by
  obtain ⟨inner, rfl, hheights⟩ := exists_budget_of_object hheight
  obtain ⟨entries', programs, hentries, hprograms, hprogram⟩ :=
    (Library.build_object hlookup).1 hbuild
  obtain rfl : entries = entries' := by simpa using hentries
  apply compileWithin_call hlookup
  refine (Library.build_object hlookup).2 ⟨_, programs, rfl, ?_, hprogram⟩
  apply mapM_replace _ hprograms
  intro entry hentry member hmember
  obtain ⟨entryProgram, hentryProgram, hmember⟩ := ok_of_bind hmember
  have hreplaced :
      compileWithin Library.builtin limit' inner (replace entry.2) = .ok entryProgram :=
    hkept entry hentry hentryProgram (hheights _ (List.mem_map_of_mem hentry))
  exact bind_ok hreplaced hmember

/-- A path of keys leads to the place of the call it restates. -/
theorem compile_restated_path {keys : List String} (hkeys : pathKeys? name args = some keys)
    (h : compileWithin Library.builtin limit budget (.call name args) = .ok program)
    (hheight : (Query.get keys).height ≤ budget') :
    compileWithin Library.builtin limit' budget' (.get keys) = .ok program := by
  obtain ⟨rfl, hmapM⟩ := mapM_segmentKey?_of_pathKeys? hkeys
  obtain ⟨inner, rfl, _⟩ := exists_budget_of_height hheight
  obtain ⟨_, function, _, hlookup, hbuild⟩ := exists_function_of_compileWithin h
  obtain rfl := Option.some.inj hlookup
  obtain ⟨path, hpath, hbuild⟩ := ok_of_bind hbuild
  apply compileWithin_call rfl
  refine bind_ok (ofArgs_keys "get" keys) ?_
  rw [← (alike_of_keys hpath hmapM).get]
  exact hbuild

theorem exists_symbol_of_isVararg (h : OperatorTable.builtin.isVararg name = true) :
    ∃ symbol, OperatorTable.builtin.symbol? name = some symbol := by
  have hname : name = "pipe" ∨ name = "and" ∨ name = "or" := by
    simpa [OperatorTable.isVararg, OperatorTable.builtin] using h
  rcases hname with rfl | rfl | rfl
  · exact ⟨"|", rfl⟩
  · exact ⟨"and", rfl⟩
  · exact ⟨"or", rfl⟩

/-- An operator that takes over the arguments of a call of its own makes the same program. -/
theorem compile_restated_continued {inner : List Query}
    (hkept : ∀ arg ∈ .call name inner :: others, Kept arg) (hinner : inner.length ≤ 1)
    (hothers : others ≠ []) (hsymbol : symbolFor? .builtin name inner = none)
    (hvararg : OperatorTable.builtin.isVararg name = true) (hempty : inner = [] → name ≠ "and")
    (h : compileWithin Library.builtin limit budget (.call name (.call name inner :: others)) =
      .ok program)
    (hheight : (Query.call name (inner.map (restated .builtin) ++
      others.map (restated .builtin))).height ≤ budget') :
    compileWithin Library.builtin limit' budget'
      (.call name (inner.map (restated .builtin) ++ others.map (restated .builtin))) =
        .ok program := by
  obtain ⟨combine, hchained⟩ := exists_chained hvararg
  obtain ⟨budget', rfl, hheights⟩ := exists_budget_of_height hheight
  obtain ⟨budget, function, _, hlookup, hbuild⟩ := exists_function_of_compileWithin h
  obtain ⟨programs, hprograms, rfl⟩ := (hchained.build hlookup).1 hbuild
  obtain ⟨first, rest, hfirst, hrest, rfl⟩ := mapM_ok_cons hprograms
  have hreplaced : (others.map (restated .builtin)).mapM
      (compileWithin Library.builtin limit' budget') = .ok rest := by
    apply mapM_replace _ hrest
    intro other hother program hprogram
    exact hkept other (List.mem_cons_of_mem _ hother) hprogram
      (hheights _ (List.mem_append_right _ (List.mem_map_of_mem hother)))
  -- The program of the call that is taken over comes from its restatement one level up.
  obtain ⟨symbol, hname⟩ := exists_symbol_of_isVararg hvararg
  have hrestated : restated .builtin (.call name inner) =
      .call name (inner.map (restated .builtin)) := by
    rw [restated_function Parser.separable_builtin.legible hname hsymbol,
      functionName_of_isVararg hvararg]
  have hcall : compileWithin Library.builtin limit' (budget' + 1)
      (.call name (inner.map (restated .builtin))) = .ok first := by
    rw [← hrestated]
    apply hkept _ List.mem_cons_self hfirst
    rw [hrestated, height_call_le_iff]
    intro arg harg
    exact hheights arg (List.mem_append_left _ harg)
  obtain ⟨_, function', hbudget, hlookup', hbuild'⟩ := exists_function_of_compileWithin hcall
  obtain rfl := Nat.succ.inj hbudget
  obtain ⟨taken, htaken, rfl⟩ := (hchained.build hlookup').1 hbuild'
  have hlength : taken.length ≤ 1 := by
    rw [length_of_mapM_ok htaken, List.length_map]
    exact hinner
  have hrest_ne : rest ≠ [] := by
    intro hnil
    have hzero := length_of_mapM_ok hrest
    rw [hnil] at hzero
    exact hothers (List.length_eq_zero_iff.1 hzero.symm)
  have hand (hnil : taken = []) : name ≠ "and" := by
    apply hempty
    have hzero := length_of_mapM_ok htaken
    rw [hnil, List.length_map] at hzero
    exact List.length_eq_zero_iff.1 hzero.symm
  apply compileWithin_call hlookup
  refine (hchained.build hlookup).2 ⟨taken ++ rest, mapM_append_ok htaken hreplaced, ?_⟩
  exact hchained.flatten hlength hrest_ne hand

/-- An `and` of several operands that starts with the empty `and`.  The empty call gives null, but
in the text its operands, which are none, become those of the call. -/
def LosesEmptyAnd (query : Query) : Prop :=
  ∃ others, others ≠ [] ∧ query = .call "and" (.call "and" [] :: others)

theorem functionName_of_compile
    (h : compileWithin Library.builtin limit budget (.call name args) = .ok program)
    (hsymbol : symbolFor? .builtin name args = none) : functionName name = name := by
  rw [functionName, if_neg]
  rintro rfl
  have hwritten := @isSome_symbolFor?_of_compile _ _ _ "not in" _ _ h rfl rfl
  rw [hsymbol] at hwritten
  cases hwritten

theorem ne_object_of_build (hlookup : Library.builtin.lookup name = some function)
    (hobject : ¬ IsObject name args)
    (hbuild : function.build name args (compileWithin Library.builtin limit budget) = .ok program) :
    name ≠ "object" := by
  rintro rfl
  obtain ⟨entries, _, hargs, _⟩ := (Library.build_object hlookup).1 hbuild
  exact hobject ⟨rfl, entries, hargs⟩

/-- The restatement of a well-formed query has its program, where no empty `and` is lost. -/
theorem kept_of_wellFormed (hwell : query.Everywhere Query.WellFormed)
    (hand : query.Everywhere fun query => ¬ LosesEmptyAnd query) : Kept query := by
  have hentries : Kept query ∧
      ∀ entries, query = .mapping entries → ∀ entry ∈ entries, Kept entry.2 := by
    induction hwell with
    | literal hvalue => exact ⟨kept_literal hvalue, nofun⟩
    | mapping _ _ ih =>
        cases hand with
        | mapping _ hands =>
            constructor
            · intro limit budget program h
              exact absurd h not_compileWithin_mapping
            · intro entries' heq entry hentry
              obtain rfl := Query.mapping.inj heq
              exact (ih entry hentry (hands entry hentry)).1
    | @call name args hroot hargs ih =>
        cases hand with
        | call hloses hands =>
            have hkept (arg : Query) (harg : arg ∈ args) : Kept arg :=
              (ih arg harg (hands arg harg)).1
            have hstands (limit budget limit' : Nat) (arg : Query) (harg : arg ∈ args)
                (inner : Nat) :=
              @standsFor_restated limit budget limit' inner arg (hargs arg harg) (hkept arg harg)
            refine ⟨?_, nofun⟩
            intro limit budget program h limit' budget' hheight
            have hshape := restates_of_wellFormed (.call hroot hargs)
            obtain ⟨inner, function, hbudget, hlookup, hbuild⟩ := exists_function_of_compileWithin h
            generalize restated .builtin (.call name args) = result at hshape hheight ⊢
            cases hshape with
            | @object entries hname hmapping =>
                subst hname hmapping
                have hmembers := (ih (.mapping entries) List.mem_cons_self
                  (hands _ List.mem_cons_self)).2 entries rfl
                exact compile_replaced_object hlookup hmembers hbuild hheight
            | path hkeys => exact compile_restated_path hkeys h hheight
            | function hobject hsymbol =>
                have hname := functionName_of_compile h hsymbol
                rw [hname] at hheight ⊢
                exact compile_replaced_args hlookup (ne_object_of_build hlookup hobject hbuild)
                  (hstands _ _ _) hbuild hheight
            | operator hsymbol =>
                have hname : name ≠ "object" := by
                  rintro rfl
                  exact nomatch symbol?_of_symbolFor? hsymbol
                exact compile_replaced_args hlookup hname (hstands _ _ _) hbuild hheight
            | @continued _ inner others _ heq hinner hothers hsymbol hvararg =>
                subst heq
                apply compile_restated_continued hkept hinner hothers hsymbol hvararg _ h hheight
                rintro rfl rfl
                exact hloses ⟨others, hothers, rfl⟩
  exact hentries.1

/-- A query has the same program within all limits that its height allows. -/
theorem kept_id (hwell : query.Everywhere Query.WellFormed) : KeptBy id query := by
  have hentries : KeptBy id query ∧
      ∀ entries, query = .mapping entries → ∀ entry ∈ entries, KeptBy id entry.2 := by
    induction hwell with
    | literal _ =>
        refine ⟨?_, nofun⟩
        intro limit budget program h limit' budget' _
        rw [id, compileWithin_literal]
        rwa [compileWithin_literal] at h
    | mapping _ _ ih =>
        constructor
        · intro limit budget program h
          exact absurd h not_compileWithin_mapping
        · intro entries' heq entry hentry
          obtain rfl := Query.mapping.inj heq
          exact (ih entry hentry).1
    | @call name args _ _ ih =>
        refine ⟨?_, nofun⟩
        intro limit budget program h limit' budget' hheight
        obtain ⟨inner, function, hbudget, hlookup, hbuild⟩ := exists_function_of_compileWithin h
        by_cases hobject : IsObject name args
        · obtain ⟨rfl, entries, rfl⟩ := hobject
          have hmembers := (ih (.mapping entries) List.mem_cons_self).2 entries rfl
          have hobject :=
            @compile_replaced_object _ _ _ limit' budget' _ id _ hlookup hmembers hbuild
          simp only [id, Prod.mk.eta, List.map_id'] at hobject
          exact hobject hheight
        · have hargs := @compile_replaced_args _ _ name args _ limit' budget' _ id hlookup
            (ne_object_of_build hlookup hobject hbuild)
            (fun arg harg inner hinner => ⟨fun h => (ih arg harg).1 h hinner, fun _ h => h,
              fun h => ⟨_, h, .refl _⟩⟩) hbuild
          rw [List.map_id] at hargs
          exact hargs hheight
  exact hentries.1

/-! ## The lost empty call -/

theorem readsPlain_emptyAnd : ReadsPlain .builtin (.call "and" []) :=
  readsPlain_of_wellFormed (.call trivial (by simp))

theorem restated_losing (hne : others ≠ [])
    (hothers : ∀ other ∈ others, other.Everywhere Query.WellFormed) :
    restated .builtin (.call "and" (.call "and" [] :: others)) =
      .call "and" (others.map (restated .builtin)) := by
  have hsymbol : symbolFor? .builtin "and" (.call "and" [] :: others) = some "and" := by
    obtain ⟨other, others, rfl⟩ := List.exists_cons_of_ne_nil hne
    rw [symbolFor?, if_pos]
    · rfl
    · cases others with
      | nil => exact .inl rfl
      | cons next others => exact .inr ⟨by simp, rfl⟩
  have hargs : ∀ arg ∈ .call "and" [] :: others, ReadsPlain .builtin arg := by
    intro arg harg
    rcases List.mem_cons.1 harg with rfl | harg
    · exact readsPlain_emptyAnd
    · exact readsPlain_of_wellFormed (hothers arg harg)
  exact restated_of_eq
    (reading_continued Parser.separable_builtin.legible rfl hsymbol rfl rfl rfl rfl hargs)

/-- With the empty call in front, every result becomes null. -/
theorem all_emptyAnd (programs : List Program) (data : Value) :
    afterAll Logic.all (afterAll Logic.all [] :: programs) data =
      (afterAll Logic.all programs data).map fun _ => .null := by
  cases hvalues : programs.mapM fun program => program data with
  | error fault =>
      simp only [afterAll, List.mapM_cons, hvalues]
      rfl
  | ok values =>
      simp only [afterAll, List.mapM_cons, hvalues]
      rfl

end Printer

/-- A well-formed query that compiles has a text that is read as its restatement. -/
theorem parse_print_restated {query : Query} {layout : LineLayout} {limit limit' : Nat}
    {program : Program} (hwell : query.Everywhere Query.WellFormed)
    (hcompile : compile Library.builtin limit query = .ok program)
    (hlayout : Grammar.Blank layout.indentation.toList)
    (hheight : (Printer.restated .builtin query).height < limit') :
    parse .builtin limit' (print .builtin layout query) =
      .ok (Printer.restated .builtin query) := by
  have hwritable := Printer.writable_of_admitted hwell (.program hcompile)
  have hreading : (Printer.reading .builtin query).height < limit' := by
    rw [Printer.readsPlain_of_wellFormed hwell]
    exact hheight
  exact parse_print Parser.separable_builtin.legible hlayout hwritable hreading

/-- Printing keeps the meaning of queries: a well-formed query that compiles has a text, in any
layout whose indentation is blank, that is read as a query with the same program, unless an `and`
inside it loses an empty `and` in front.  The limit is to be above the heights of both queries. -/
theorem compile_parse_print {query : Query} {limit : Nat} {program : Program}
    (hwell : query.Everywhere Query.WellFormed)
    (hand : query.Everywhere fun query => ¬ Printer.LosesEmptyAnd query)
    (hcompile : compile Library.builtin limit query = .ok program) :
    ∃ query', ∀ limit' (layout : LineLayout), query.height < limit' → query'.height < limit' →
      Grammar.Blank layout.indentation.toList →
        parse .builtin limit' (print .builtin layout query) = .ok query' ∧
          compile Library.builtin limit' query = .ok program ∧
            compile Library.builtin limit' query' = .ok program := by
  refine ⟨Printer.restated .builtin query, fun limit' layout hheight hheight' hlayout => ?_⟩
  refine ⟨parse_print_restated hwell hcompile hlayout hheight', ?_, ?_⟩
  · exact Printer.kept_id hwell hcompile (Nat.le_of_lt hheight)
  · exact Printer.kept_of_wellFormed hwell hand hcompile (Nat.le_of_lt hheight')

/-- A query with an empty call of an operator in front, `or() or .a` in the text, which is read as
`or(.a)`. -/
theorem compile_parse_print_or :
    let query := Query.call "or" [.call "or" [], .get ["a"]]
    ∃ program, compile Library.builtin 3 query = .ok program ∧ query.Everywhere Query.WellFormed ∧
      (query.Everywhere fun query => ¬ Printer.LosesEmptyAnd query) ∧
      ∃ query', ∀ limit' (layout : LineLayout), query.height < limit' → query'.height < limit' →
        Grammar.Blank layout.indentation.toList →
        parse .builtin limit' (print .builtin layout query) = .ok query' ∧
          compile Library.builtin limit' query = .ok program ∧
            compile Library.builtin limit' query' = .ok program := by
  intro query
  have hor : (Query.call "or" []).Everywhere Query.WellFormed := .call trivial (by simp)
  have hpath : (Query.get ["a"]).Everywhere Query.WellFormed := by
    refine .call trivial fun arg harg => ?_
    obtain rfl := List.mem_singleton.1 harg
    exact .literal (.scalar trivial)
  have hwell : query.Everywhere Query.WellFormed := by
    refine .call trivial ?_
    simpa using ⟨hor, hpath⟩
  have hand : query.Everywhere fun query => ¬ Printer.LosesEmptyAnd query := by
    have hne {query : Query} (h : query.callName? ≠ some "and") :
        ¬ Printer.LosesEmptyAnd query := by
      rintro ⟨_, _, rfl⟩
      exact h rfl
    refine .call (hne (by decide)) ?_
    simp only [List.forall_mem_cons]
    refine ⟨.call (hne (by decide)) (by simp), .call (hne (by decide)) fun arg harg => ?_, by simp⟩
    obtain rfl := List.mem_singleton.1 harg
    exact .literal (hne (by decide))
  have hcompile : compile Library.builtin 3 query = .ok _ := rfl
  exact ⟨_, hcompile, hwell, hand, compile_parse_print hwell hand hcompile⟩

/-- Where the meaning is lost: the text of an `and` that starts with the empty `and` is read as the
call without it, and where that has a result, the call itself gives null. -/
theorem compile_parse_print_emptyAnd {others : List Query} {limit : Nat} {program : Program}
    (hne : others ≠ []) (hwell : ∀ other ∈ others, other.Everywhere Query.WellFormed)
    (hand : ∀ other ∈ others, other.Everywhere fun query => ¬ Printer.LosesEmptyAnd query)
    (hcompile : compile Library.builtin limit (.call "and" (.call "and" [] :: others)) =
      .ok program) :
    ∃ query' program', (∀ data, program data = (program' data).map fun _ => .null) ∧
      ∀ limit' (layout : LineLayout), query'.height < limit' →
        Grammar.Blank layout.indentation.toList →
          parse .builtin limit' (print .builtin layout (.call "and" (.call "and" [] :: others))) =
            .ok query' ∧ compile Library.builtin limit' query' = .ok program' := by
  have hargs : ∀ arg ∈ .call "and" [] :: others, arg.Everywhere Query.WellFormed := by
    intro arg harg
    rcases List.mem_cons.1 harg with rfl | harg
    · exact .call trivial (by simp)
    · exact hwell arg harg
  have hrestated := Printer.restated_losing hne hwell
  obtain ⟨inner, function, _, hlookup, hbuild⟩ := exists_function_of_compileWithin hcompile
  obtain ⟨programs, hprograms, rfl⟩ := (chained_and.build hlookup).1 hbuild
  obtain ⟨first, rest, hfirst, hrest, rfl⟩ := mapM_ok_cons hprograms
  obtain ⟨_, function', _, hlookup', hbuild'⟩ := exists_function_of_compileWithin hfirst
  obtain ⟨nothing, hnothing, rfl⟩ := (chained_and.build hlookup').1 hbuild'
  obtain rfl : [] = nothing := Except.ok.inj hnothing
  refine ⟨.call "and" (others.map (Printer.restated .builtin)), afterAll Logic.all rest,
    Printer.all_emptyAnd rest, fun limit' layout hheight hlayout => ?_⟩
  have hparse := parse_print_restated (.call trivial hargs) hcompile hlayout
    (by rw [hrestated]; exact hheight)
  refine ⟨by rw [hparse, hrestated], ?_⟩
  obtain ⟨inner', rfl, hheights⟩ := Query.exists_budget_of_height (Nat.le_of_lt hheight)
  apply compileWithin_call hlookup
  refine (chained_and.build hlookup).2 ⟨rest, ?_, rfl⟩
  apply mapM_replace _ hrest
  intro other hother program hprogram
  exact Printer.kept_of_wellFormed (hwell other hother) (hand other hother) hprogram
    (hheights _ (List.mem_map_of_mem hother))

/-- The call `and(and(), true)` gives null, and its text `and() and true` is read as a call that
gives true. -/
theorem exists_parse_print_changed :
    let query := Query.call "and" [.call "and" [], .literal (.bool true)]
    let query' := Query.call "and" [.literal (.bool true)]
    query.Everywhere Query.WellFormed ∧ parse .builtin 3 (print .builtin {} query) = .ok query' ∧
      ∃ program program', compile Library.builtin 3 query = .ok program ∧
        compile Library.builtin 3 query' = .ok program' ∧
          program .null = .ok .null ∧ program' .null = .ok (.bool true) := by
  intro query query'
  have hliteral : (Query.literal (.bool true)).Everywhere Query.WellFormed :=
    .literal (.scalar trivial)
  have hwell : query.Everywhere Query.WellFormed := by
    refine .call trivial ?_
    simpa using ⟨.call trivial (by simp), hliteral⟩
  have hrestated : Printer.restated .builtin query = query' := by
    have hsame := Printer.restated_scalar (Printer.wellFormed_of_everywhere hliteral) trivial
    have hlosing := @Printer.restated_losing [.literal (.bool true)] (by simp)
      (by simpa using hliteral)
    rw [List.map_singleton, hsame] at hlosing
    exact hlosing
  have hcompile : compile Library.builtin 3 query = .ok _ := rfl
  have hcompile' : compile Library.builtin 3 query' = .ok _ := rfl
  have hblank : Grammar.Blank ({} : LineLayout).indentation.toList := by
    simp [Grammar.Blank, Scan.isBlank]
  have hheight : (Printer.restated .builtin query).height < 3 := by
    rw [hrestated]
    simp [query', Query.height]
  have hparse := parse_print_restated hwell hcompile hblank hheight
  rw [hrestated] at hparse
  exact ⟨hwell, hparse, _, _, hcompile, hcompile', rfl, rfl⟩

end PipeQuery
