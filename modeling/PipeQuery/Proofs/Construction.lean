/-
Queries that build their containers.

The JSON form of a query has no place for a container inside a literal, nor for a float beyond the
finite ones: it holds the call that builds the container, and null.  The query built that way is the
one the form is read as, and a document that is read as a query is the form of this query.
-/
import PipeQuery.Proofs.Alike
import PipeQuery.Proofs.Replacement
import PipeQuery.Proofs.Restatement

namespace PipeQuery

/-- The query that builds a value from scalars, with null in the place of every float beyond the
finite ones. -/
def Value.construction : Value → Query
  | .arr items => .array (items.map construction)
  | .obj members => .object (members.map fun member => (member.1, construction member.2))
  | scalar => .literal scalar.finite
termination_by value => sizeOf value
decreasing_by
  · have := List.sizeOf_lt_of_mem ‹_›
    simp only [Value.arr.sizeOf_spec]
    omega
  · have := Entries.sizeOf_snd_lt ‹_›
    simp only [Value.obj.sizeOf_spec]
    omega

/-- The query in which every literal is replaced by the construction of its value. -/
def Query.constructed : Query → Query
  | .literal value => value.construction
  | .call name args => .call name (args.map constructed)
  | .mapping entries => .mapping (entries.map fun entry => (entry.1, constructed entry.2))
termination_by query => sizeOf query
decreasing_by
  · have := List.sizeOf_lt_of_mem ‹_›
    simp only [Query.call.sizeOf_spec]
    omega
  · have := Entries.sizeOf_snd_lt ‹_›
    simp only [Query.mapping.sizeOf_spec]
    omega

/-- Integers have 64 bits with a sign, and floats are finite: the numbers that values have. -/
inductive Json.Signed : Json → Prop
  | null : Signed .null
  | bool (b : Bool) : Signed (.bool b)
  | int {n : Int} (h : fitsInt64 n = true) : Signed (.int n)
  | float {x : Float} (h : x.isFinite = true) : Signed (.float x)
  | str (s : String) : Signed (.str s)
  | arr {items : List Json} (h : ∀ item ∈ items, Signed item) : Signed (.arr items)
  | obj {members : List (String × Json)} (h : ∀ member ∈ members, Signed member.2) :
      Signed (.obj members)

namespace Query

variable {query : Query} {json : Json}

/-- The query is no container literal and no float beyond the finite ones. -/
def Plain : Query → Prop
  | literal value => Printer.IsFiniteScalar value
  | _ => True

/-! ## From queries to documents and back -/

theorem toJson_literal_of_isScalar {value : Value} (h : value.IsScalar) :
    (literal value).toJson = value.toJson := by
  rw [toJson]
  cases value with
  | arr items => exact h.elim
  | obj members => exact h.elim
  | _ => simp [literalToJson]

theorem ofJson_literal {value : Value} (h : value.IsScalar) :
    ofJson value.toJson = .ok (literal value.finite) := by
  cases value with
  | int n =>
      have hfits := fitsInt64_toInt n
      simp [Value.toJson, ofJson, Value.ofJson, Value.finite, hfits]
  | float x =>
      rw [Value.toJson, Value.finite]
      split
      · simp [ofJson, Value.ofJson]
      · simp [ofJson, Value.ofJson]
  | arr items => exact h.elim
  | obj members => exact h.elim
  | _ => simp [Value.toJson, ofJson, Value.ofJson, Value.finite]

theorem construction_of_isScalar {value : Value} (h : value.IsScalar) :
    value.construction = literal value.finite := by
  rw [Value.construction]
  · rintro items rfl
    exact h
  · rintro members rfl
    exact h

/-- The entries of a mapping are read one by one, each under its key. -/
theorem ofJson_obj_map {α : Type} {form : α → Json} {result : α → Query}
    {members : List (String × α)}
    (h : ∀ member ∈ members, ofJson (form member.2) = .ok (result member.2)) :
    ofJson (.obj (members.map fun member => (member.1, form member.2))) =
      .ok (mapping (members.map fun member => (member.1, result member.2))) := by
  have hmembers : (members.map fun member => (member.1, form member.2)).mapM
        (fun member => do return (member.1, ← ofJson member.2)) =
      .ok (members.map fun member => (member.1, result member.2)) :=
    mapM_map_ok fun member hmember => by
      rw [h member hmember]
      rfl
  rw [ofJson, hmembers]
  rfl

theorem ofJson_call_map {α : Type} {form : α → Json} {result : α → Query} {name : String}
    {args : List α} (h : ∀ arg ∈ args, ofJson (form arg) = .ok (result arg)) :
    ofJson (.arr (.str name :: args.map form)) = .ok (call name (args.map result)) := by
  rw [ofJson, mapM_map_ok h]
  rfl

theorem ofJson_literalToJson (value : Value) :
    ofJson (literalToJson value) = .ok value.construction := by
  induction value using Value.construction.induct with
  | case1 items ih =>
      rw [literalToJson, Value.construction]
      exact ofJson_call_map ih
  | case2 members ih =>
      rw [literalToJson, Value.construction, ofJson, List.mapM_cons, ofJson_obj_map ih]
      rfl
  | case3 value harr hobj =>
      have hscalar : value.IsScalar := by
        cases value with
        | arr items => exact harr items rfl
        | obj members => exact hobj members rfl
        | _ => trivial
      have hform : literalToJson value = value.toJson := by
        rw [← toJson_literal_of_isScalar hscalar, toJson]
      rw [hform, ofJson_literal hscalar, construction_of_isScalar hscalar]

/-- The JSON form of a query is read as the query that builds its containers. -/
theorem ofJson_toJson_eq_constructed (query : Query) :
    ofJson query.toJson = .ok query.constructed := by
  induction query using constructed.induct with
  | case1 value => rw [toJson, constructed, ofJson_literalToJson]
  | case2 name args ih =>
      rw [toJson, constructed]
      exact ofJson_call_map ih
  | case3 entries ih =>
      rw [toJson, constructed]
      exact ofJson_obj_map ih

/-! ## Queries that build all their containers -/

theorem construction_eq_literal_iff {value : Value} :
    value.construction = literal value ↔ (literal value).Plain := by
  rcases value with _ | _ | _ | x | _ | items | members
  case float =>
    by_cases hfinite : x.isFinite = true
    · simp [Value.construction, Value.finite, Plain, Printer.IsFiniteScalar, hfinite]
    · simp [Value.construction, Value.finite, Plain, Printer.IsFiniteScalar, hfinite]
  all_goals
    simp [Value.construction, Value.finite, array, object, Plain, Printer.IsFiniteScalar]

/-- A query builds all its containers if and only if none of its literals is a container or a float
beyond the finite ones. -/
theorem constructed_eq_self_iff (query : Query) :
    query.constructed = query ↔ query.Everywhere Plain := by
  induction query using constructed.induct with
  | case1 value =>
      rw [constructed, construction_eq_literal_iff]
      exact ⟨.literal, Everywhere.here⟩
  | case2 name args ih =>
      rw [constructed, call.injEq, and_iff_right rfl, map_eq_self_iff]
      constructor
      · exact fun hargs => .call trivial fun arg harg => (ih arg harg).1 (hargs arg harg)
      · exact fun hplain arg harg => (ih arg harg).2 (hplain.of_call arg harg)
  | case3 entries ih =>
      have hself : mapping (entries.map fun entry => (entry.1, entry.2.constructed)) =
          mapping entries ↔ ∀ entry ∈ entries, entry.2.constructed = entry.2 := by
        rw [mapping.injEq, map_eq_self_iff]
        exact forall₂_congr fun entry _ => by rw [Prod.ext_iff, and_iff_right rfl]
      rw [constructed, hself]
      constructor
      · intro hentries
        exact .mapping trivial fun entry hentry => (ih entry hentry).1 (hentries entry hentry)
      · exact fun hplain entry hentry => (ih entry hentry).2 (hplain.of_mapping entry hentry)

/-! ## From documents to queries and back -/

theorem toJson_of_ofJson_scalar {scalar : Json} (hjson : scalar.Signed)
    (harr : ∀ items, scalar ≠ .arr items) (hobj : ∀ members, scalar ≠ .obj members)
    (h : ofJson scalar = .ok query) : query.toJson = scalar := by
  cases hjson with
  | arr => exact absurd rfl (harr _)
  | obj => exact absurd rfl (hobj _)
  | @int n hfits =>
      have hrange : -2 ^ 63 ≤ n ∧ n < 2 ^ 63 := by simpa [fitsInt64] using hfits
      have hvalue : (Int64.ofInt n).toInt = n := Int64.toInt_ofInt_of_le hrange.1 hrange.2
      obtain rfl : literal (.int (.ofInt n)) = query := by
        simpa [ofJson, Value.ofJson, hfits] using h
      simp [toJson, literalToJson, Value.toJson, hvalue]
  | @float x hfinite =>
      obtain rfl : literal (.float x) = query := by simpa [ofJson, Value.ofJson] using h
      simp [toJson, literalToJson, Value.toJson, hfinite]
  | _ =>
      simp only [ofJson, Value.ofJson, Except.ok.injEq] at h
      simp [← h, toJson, literalToJson, Value.toJson]

theorem entries_of_ofJson_obj {members : List (String × Json)}
    (h : ofJson (.obj members) = .ok query) :
    ∃ entries, query = mapping entries ∧
      members.mapM (fun member => do return (member.1, ← ofJson member.2)) = .ok entries := by
  rw [ofJson] at h
  obtain ⟨entries, hentries, h⟩ := ok_of_bind h
  exact ⟨entries, (Except.ok.inj h).symm, hentries⟩

theorem call_of_ofJson_arr {items : List Json} (h : ofJson (.arr items) = .ok query) :
    ∃ name forms args, items = .str name :: forms ∧ query = call name args ∧
      forms.mapM ofJson = .ok args := by
  rcases items with _ | ⟨head, forms⟩
  · simp [ofJson] at h
  · cases head with
    | str name =>
        rw [ofJson] at h
        obtain ⟨args, hargs, h⟩ := ok_of_bind h
        exact ⟨name, forms, args, rfl, (Except.ok.inj h).symm, hargs⟩
    | _ => simp [ofJson] at h

/-- A document that is read as a query is the JSON form of this query. -/
theorem toJson_of_ofJson (hjson : json.Signed) (h : ofJson json = .ok query) :
    query.toJson = json := by
  induction hjson generalizing query with
  | @arr items hitems ih =>
      obtain ⟨name, forms, args, rfl, rfl, hargs⟩ := call_of_ofJson_arr h
      have hforms : args.map toJson = forms := by
        refine map_of_mapM_ok (fun form hform arg harg => ?_) hargs
        exact ih form (List.mem_cons_of_mem _ hform) harg
      rw [toJson, hforms]
  | @obj members hmembers ih =>
      obtain ⟨entries, rfl, hentries⟩ := entries_of_ofJson_obj h
      have hforms : entries.map (fun entry => (entry.1, entry.2.toJson)) = members := by
        refine map_of_mapM_ok (fun member hmember entry hentry => ?_) hentries
        obtain ⟨value, hvalue, hentry⟩ := ok_of_bind hentry
        obtain rfl := Except.ok.inj hentry
        rw [ih member hmember hvalue]
      rw [toJson, hforms]
  | null => exact toJson_of_ofJson_scalar .null (by simp) (by simp) h
  | bool b => exact toJson_of_ofJson_scalar (.bool b) (by simp) (by simp) h
  | int hfits => exact toJson_of_ofJson_scalar (.int hfits) (by simp) (by simp) h
  | float hfinite => exact toJson_of_ofJson_scalar (.float hfinite) (by simp) (by simp) h
  | str s => exact toJson_of_ofJson_scalar (.str s) (by simp) (by simp) h

/-- The JSON form of a query is read as the query that builds its containers, which is the same
where the query is plain, and a document that is read as a query is the JSON form of it. -/
theorem ofJson_toJson_and_back :
    (∀ query : Query, ofJson query.toJson = .ok query.constructed ∧
      (query.constructed = query ↔ query.Everywhere Plain)) ∧
      ∀ (json : Json) (query : Query), json.Signed → ofJson json = .ok query →
        query.toJson = json :=
  ⟨fun query => ⟨ofJson_toJson_eq_constructed query, constructed_eq_self_iff query⟩,
    fun _ _ hjson h => toJson_of_ofJson hjson h⟩

/-- A mapping inside a container that is a literal, and a document that is a call with numbers of
both kinds. -/
theorem ofJson_toJson_and_back_sort :
    let nested := Query.literal (.arr [.obj [("a", .null)]])
    let document := Json.arr [.str "sort", .arr [.str "get", .str "age"], .int 1, .float 1.5]
    ofJson nested.toJson = .ok (array [object [("a", literal .null)]]) ∧
      ∃ query, document.Signed ∧ ofJson document = .ok query ∧ query.toJson = document := by
  intro nested document
  have hnested : nested.constructed = array [object [("a", literal .null)]] := by
    simp [nested, constructed, Value.construction, Value.finite]
  have hfinite : Float.isFinite 1.5 = true := by decide +kernel
  have hdocument : document.Signed := by
    refine .arr ?_
    simp only [List.forall_mem_cons, List.not_mem_nil, false_imp_iff, implies_true, and_true]
    refine ⟨.str _, .arr ?_, .int (by decide), .float hfinite⟩
    simpa using And.intro (Json.Signed.str "get") (Json.Signed.str "age")
  have hread : ofJson document =
      .ok (call "sort" [get ["age"], literal (.int 1), literal (.float 1.5)]) := by
    have hfits : fitsInt64 1 = true := by decide
    simp [document, ofJson, Value.ofJson, hfits, get, Bind.bind, Except.bind, pure, Except.pure]
  refine ⟨?_, _, hdocument, hread, ofJson_toJson_and_back.2 _ _ hdocument hread⟩
  rw [(ofJson_toJson_and_back.1 nested).1, hnested]

end Query

end PipeQuery
