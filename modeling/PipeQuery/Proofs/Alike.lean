/-
Queries that are written alike.

The text of a call depends on the texts of its arguments, on the parentheses they need and on the
keys it leads along, so a call may have its arguments replaced by others that are written alike.  A
float beyond the finite ones is written as null is.
-/
import PipeQuery.Proofs.Readback

namespace PipeQuery

/-- The value with null in the place of every float beyond the finite ones. -/
def Value.finite : Value → Value
  | .float x => if x.isFinite then .float x else .null
  | .arr items => .arr (items.map finite)
  | .obj members => .obj (members.map fun member => (member.1, finite member.2))
  | other => other
termination_by value => sizeOf value
decreasing_by
  · have := List.sizeOf_lt_of_mem ‹_›
    simp only [Value.arr.sizeOf_spec]
    omega
  · have := Entries.sizeOf_snd_lt ‹_›
    simp only [Value.obj.sizeOf_spec]
    omega

/-- The query with null in the place of every float beyond the finite ones. -/
def Query.finite : Query → Query
  | .literal value => .literal value.finite
  | .call name args => .call name (args.map finite)
  | .mapping entries => .mapping (entries.map fun entry => (entry.1, finite entry.2))
termination_by query => sizeOf query
decreasing_by
  · have := List.sizeOf_lt_of_mem ‹_›
    simp only [Query.call.sizeOf_spec]
    omega
  · have := Entries.sizeOf_snd_lt ‹_›
    simp only [Query.mapping.sizeOf_spec]
    omega

namespace Printer

open PipeQuery.Parser (Operand)

variable {table : OperatorTable} {layout : LineLayout} {indent name symbol : String}
  {parenthesized : Bool} {query query' first second : Query} {args others : List Query}
  {replace : Query → Query}

/-- The queries have the same text in every place and every layout. -/
structure WrittenAlike (table : OperatorTable) (query query' : Query) : Prop where
  text (layout : LineLayout) (indent : String) (parenthesized : Bool) :
    queryText table layout indent parenthesized query =
      queryText table layout indent parenthesized query'
  parentheses (parent : String) (isFirst : Bool) :
    needsParentheses table parent isFirst query = needsParentheses table parent isFirst query'

theorem WrittenAlike.refl (query : Query) : WrittenAlike table query query :=
  ⟨fun _ _ _ => rfl, fun _ _ => rfl⟩

theorem WrittenAlike.print_eq (h : WrittenAlike table query query') (layout : LineLayout) :
    print table layout query = print table layout query' :=
  h.text layout "" false

/-! ## Calls -/

theorem queryText_single (hobject : ¬ IsObject name [first]) (hpath : pathKeys? name [first] = none)
    (harray : name ≠ "array") :
    queryText table layout indent parenthesized (.call name [first]) =
      functionName name ++ "(" ++ queryText table layout indent false first ++ ")" := by
  have htext : pathText? name [first] = none := by rw [pathText?_eq, hpath, Option.map_none]
  rw [queryText]
  · simp [htext, harray]
  · rintro entries rfl rfl
    exact hobject ⟨rfl, entries, rfl⟩

theorem queryText_functionForm (hpath : pathKeys? name (first :: second :: others) = none)
    (harray : name ≠ "array") (hsymbol : symbolFor? table name (first :: second :: others) = none) :
    queryText table layout indent parenthesized (.call name (first :: second :: others)) =
      functionText layout indent (functionName name)
        ((first :: second :: others).map
          (queryText table layout (deeper layout indent) false)) := by
  have htext : pathText? name (first :: second :: others) = none := by
    rw [pathText?_eq, hpath, Option.map_none]
  rw [queryText]
  · simp [htext, harray, hsymbol]
  · simp
  · simp

theorem symbolFor?_map (name : String) (args : List Query) (replace : Query → Query) :
    symbolFor? table name (args.map replace) = symbolFor? table name args := by
  simp [symbolFor?]

/-- An infix call with operands in the place of others that are written alike. -/
theorem queryText_infixCall_map
    (hargs : ∀ arg ∈ first :: others, WrittenAlike table (replace arg) arg)
    (hpath : pathKeys? name (first :: others) = none)
    (hpath' : pathKeys? name ((first :: others).map replace) = none) (harray : name ≠ "array")
    (hsymbol : symbolFor? table name (first :: others) = some symbol) :
    queryText table layout indent parenthesized (.call name ((first :: others).map replace)) =
      queryText table layout indent parenthesized (.call name (first :: others)) := by
  have hsymbol' := (@symbolFor?_map table name (first :: others) replace).trans hsymbol
  have hoperand (isFirst : Bool) (arg : Query) (harg : arg ∈ first :: others) :
      queryText table layout (deeper layout indent)
          (needsParentheses table name isFirst (replace arg)) (replace arg) =
        queryText table layout (deeper layout indent)
          (needsParentheses table name isFirst arg) arg := by
    rw [(hargs arg harg).parentheses, (hargs arg harg).text]
  rw [queryText_infixCall hpath harray hsymbol, List.map_cons,
    queryText_infixCall hpath' harray hsymbol', hoperand true first List.mem_cons_self,
    List.map_map]
  congr 2
  exact List.map_congr_left fun arg harg => hoperand false arg (List.mem_cons_of_mem _ harg)

/-- A call with arguments in the place of others that are written alike. -/
theorem WrittenAlike.call (hargs : ∀ arg ∈ args, WrittenAlike table (replace arg) arg)
    (hobject : ¬ IsObject name args) (hobject' : ¬ IsObject name (args.map replace))
    (hpath : pathKeys? name (args.map replace) = pathKeys? name args) :
    WrittenAlike table (.call name (args.map replace)) (.call name args) := by
  refine ⟨fun layout indent parenthesized => ?_, fun parent isFirst => ?_⟩
  · have htexts (indent : String) :
        (args.map replace).map (queryText table layout indent false) =
          args.map (queryText table layout indent false) := by
      rw [List.map_map]
      exact List.map_congr_left fun arg harg => (hargs arg harg).text layout indent false
    cases hkeys : pathKeys? name args with
    | some keys =>
        rw [queryText_path hobject hkeys, queryText_path hobject' (hpath.trans hkeys)]
    | none =>
        have hkeys' := hpath.trans hkeys
        by_cases harray : name = "array"
        · subst harray
          rw [queryText_array, queryText_array, htexts]
        rcases args with _ | ⟨first, _ | ⟨second, others⟩⟩
        · rfl
        · have hfirst := (hargs first List.mem_cons_self).text layout indent false
          rw [queryText_single hobject hkeys harray]
          simp only [List.map_cons, List.map_nil] at hobject' hkeys' ⊢
          rw [queryText_single hobject' hkeys' harray, hfirst]
        · have hsymbol' := @symbolFor?_map table name (first :: second :: others) replace
          cases hsymbol : symbolFor? table name (first :: second :: others) with
          | none =>
              rw [hsymbol] at hsymbol'
              have htexts' := htexts (deeper layout indent)
              rw [queryText_functionForm hkeys harray hsymbol, ← htexts']
              exact queryText_functionForm hkeys' harray hsymbol'
          | some symbol =>
              exact queryText_infixCall_map hargs hkeys hkeys' harray hsymbol
  · simp only [needsParentheses, symbolFor?_map]

/-- An object with values in the place of others that are written alike. -/
theorem WrittenAlike.mapping {entries : List (String × Query)}
    (hentries : ∀ entry ∈ entries, WrittenAlike table (replace entry.2) entry.2) :
    WrittenAlike table (.mapping (entries.map fun entry => (entry.1, replace entry.2)))
      (.mapping entries) := by
  refine ⟨fun layout indent parenthesized => ?_, fun _ _ => rfl⟩
  rw [queryText, queryText, List.map_map]
  congr 1
  exact List.map_congr_left fun entry hentry =>
    congrArg (Prod.mk entry.1) ((hentries entry hentry).text layout (deeper layout indent) false)

/-- An object is written as its mapping. -/
theorem WrittenAlike.object {entries entries' : List (String × Query)}
    (h : WrittenAlike table (.mapping entries) (.mapping entries')) :
    WrittenAlike table (.call "object" [.mapping entries])
      (.call "object" [.mapping entries']) := by
  refine ⟨fun layout indent parenthesized => ?_, fun parent isFirst => ?_⟩
  · have hbraces (entries : List (String × Query)) :
        queryText table layout indent parenthesized (.call "object" [.mapping entries]) =
          queryText table layout indent false (.mapping entries) := by
      simp only [queryText]
    rw [hbraces, hbraces, h.text]
  · simp only [needsParentheses, symbolFor?, List.length_cons, List.length_nil]

/-! ## Floats beyond the finite ones -/

theorem literalText_finite (value : Value) :
    ∀ (layout : LineLayout) (indent : String),
      literalText layout indent value.finite = literalText layout indent value := by
  induction value using Value.finite.induct with
  | case1 x hfinite =>
      intro layout indent
      rw [Value.finite, if_pos hfinite]
  | case2 x hfinite =>
      intro layout indent
      rw [Value.finite, if_neg hfinite]
      simp [literalText, Value.render, Value.toJson, Json.write, Json.writeAt, hfinite]
  | case3 items ih =>
      intro layout indent
      rw [Value.finite, literalText, literalText, List.map_map]
      congr 1
      exact List.map_congr_left fun item hitem => ih item hitem layout (deeper layout indent)
  | case4 members ih =>
      intro layout indent
      rw [Value.finite, literalText, literalText, List.map_map]
      congr 1
      exact List.map_congr_left fun member hmember =>
        congrArg (Prod.mk member.1) (ih member hmember layout (deeper layout indent))
  | case5 value hfloat harr hobj =>
      intro layout indent
      rw [Value.finite] <;> assumption

theorem segmentKey?_finite (query : Query) : segmentKey? query.finite = segmentKey? query := by
  rcases query with (_ | _ | _ | x | _ | _ | _) | _ | _
  case literal.float =>
    rw [Query.finite, Value.finite]
    split <;> rfl
  all_goals simp [Query.finite, Value.finite, segmentKey?]

theorem pathKeys?_finite (name : String) (args : List Query) :
    pathKeys? name (args.map Query.finite) = pathKeys? name args := by
  have hkeys : (args.map Query.finite).mapM segmentKey? = args.mapM segmentKey? := by
    induction args with
    | nil => rfl
    | cons arg args ih => simp only [List.map_cons, List.mapM_cons, segmentKey?_finite, ih]
  simp [pathKeys?, hkeys]

theorem isObject_finite (h : IsObject name (args.map Query.finite)) : IsObject name args := by
  obtain ⟨rfl, entries, hargs⟩ := h
  rcases args with _ | ⟨first, _ | ⟨second, others⟩⟩
  · simp at hargs
  · cases first with
    | mapping entries => exact ⟨rfl, entries, rfl⟩
    | literal value => simp [Query.finite] at hargs
    | call name args => simp [Query.finite] at hargs
  · simp at hargs

/-- A float beyond the finite ones is written as null is. -/
theorem writtenAlike_finite (query : Query) : WrittenAlike table query.finite query := by
  induction query using Query.finite.induct with
  | case1 value =>
      refine ⟨fun layout indent parenthesized => ?_, fun _ _ => ?_⟩
      · rw [Query.finite, queryText, queryText, literalText_finite]
      · rw [Query.finite, needsParentheses, needsParentheses]
        all_goals simp
  | case2 name args ih =>
      by_cases hobject : IsObject name args
      · obtain ⟨rfl, entries, rfl⟩ := hobject
        have hmapping := ih (.mapping entries) List.mem_cons_self
        rw [Query.finite] at hmapping
        rw [Query.finite, List.map_cons, List.map_nil, Query.finite]
        exact hmapping.object
      · rw [Query.finite]
        exact .call ih hobject (fun h => hobject (isObject_finite h)) (pathKeys?_finite name args)
  | case3 entries ih =>
      rw [Query.finite]
      exact .mapping ih

/-! ## What the finite form keeps -/

theorem height_literalReading_finite (value : Value) :
    (literalReading value.finite).height = (literalReading value).height := by
  induction value using Value.finite.induct with
  | case1 x hfinite => rw [Value.finite, if_pos hfinite]
  | case2 x hfinite =>
      rw [Value.finite, if_neg hfinite]
      simp [literalReading, Operand.constant]
  | case3 items ih =>
      have hheights : ((items.map Value.finite).map literalReading).map (·.height) =
          (items.map literalReading).map (·.height) := by
        simp only [List.map_map]
        exact List.map_congr_left ih
      rw [Value.finite, literalReading, literalReading]
      simp only [Operand.call, Operand.tallest, hheights]
  | case4 members ih =>
      have hheights : ((members.map fun member => (member.1, member.2.finite)).map
            fun member => (literalReading member.2).height) =
          members.map fun member => (literalReading member.2).height := by
        rw [List.map_map]
        exact List.map_congr_left ih
      rw [Value.finite, literalReading, literalReading]
      simp only [Operand.object, Operand.tallest, List.map_map, Function.comp_def] at hheights ⊢
      rw [hheights]
  | case5 value hfloat harr hobj => rw [Value.finite] <;> assumption

theorem height_finite (query : Query) : query.finite.height = query.height := by
  induction query using Query.finite.induct with
  | case1 value => simp only [Query.finite, Query.height]
  | case2 name args ih =>
      have hheights : (args.map Query.finite).map Query.height = args.map Query.height := by
        rw [List.map_map]
        exact List.map_congr_left ih
      rw [Query.finite, Query.height, Query.height, hheights]
  | case3 entries ih =>
      have hheights : (entries.map fun entry => (entry.1, entry.2.finite)).map
            (fun entry => entry.2.height) = entries.map fun entry => entry.2.height := by
        rw [List.map_map]
        exact List.map_congr_left ih
      rw [Query.finite, Query.height, Query.height, hheights]

theorem nesting_finite (query : Query) : nesting table query.finite = nesting table query := by
  induction query using Query.finite.induct with
  | case1 value => rw [Query.finite, nesting, nesting, height_literalReading_finite]
  | case3 entries ih =>
      refine eq_of_forall_ge_iff fun bound => ?_
      rw [Query.finite, nesting_mapping_le_iff, nesting_mapping_le_iff, List.forall_mem_map]
      exact forall₂_congr fun entry hentry => by rw [ih entry hentry]
  | case2 name args ih =>
      by_cases hobject : IsObject name args
      · obtain ⟨rfl, entries, rfl⟩ := hobject
        have hmapping := ih (.mapping entries) List.mem_cons_self
        have hbraces (entries : List (String × Query)) :
            nesting table (.call "object" [.mapping entries]) =
              nesting table (.mapping entries) := by
          simp only [nesting]
        rw [Query.finite] at hmapping
        rw [Query.finite, List.map_cons, List.map_nil, Query.finite, hbraces, hbraces, hmapping]
      have hobject' : ¬ IsObject name (args.map Query.finite) :=
        fun h => hobject (isObject_finite h)
      have hkeys := pathKeys?_finite name args
      have hsymbols := @symbolFor?_map table name args Query.finite
      rw [Query.finite]
      cases hpath : pathKeys? name args with
      | some keys => rw [nesting_path hobject hpath, nesting_path hobject' (hkeys.trans hpath)]
      | none =>
          refine eq_of_forall_ge_iff fun bound => ?_
          cases hsymbol : symbolFor? table name args with
          | none =>
              rw [nesting_function_le_iff hobject hpath hsymbol,
                nesting_function_le_iff hobject' (hkeys.trans hpath) (hsymbols.trans hsymbol),
                List.forall_mem_map]
              exact forall₂_congr fun arg harg => by rw [ih arg harg]
          | some symbol =>
              obtain ⟨first, others, rfl⟩ := exists_cons_of_symbolFor? hsymbol
              have hparentheses (isFirst : Bool) (arg : Query) :=
                (@writtenAlike_finite table arg).parentheses name isFirst
              rw [nesting_infixCall_le_iff hpath hsymbol, List.map_cons,
                nesting_infixCall_le_iff (hkeys.trans hpath) (hsymbols.trans hsymbol),
                ih first List.mem_cons_self, hparentheses, List.forall_mem_map]
              refine and_congr_right fun _ => forall₂_congr fun other hother => ?_
              rw [ih other (List.mem_cons_of_mem _ hother), hparentheses]

end Printer

end PipeQuery
