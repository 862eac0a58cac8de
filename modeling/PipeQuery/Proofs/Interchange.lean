/-
The two forms in which a query is given.

A query that was read from its text has literals that are no containers and mappings without a key
twice, so its JSON form stands for it, with null in the place of every float beyond the finite ones.
The form is read back as long as it opens no more containers than a document may.
-/
import PipeQuery.Command
import PipeQuery.Proofs.Construction
import PipeQuery.Proofs.Parsed
import PipeQuery.Proofs.Rendered

namespace PipeQuery

open Printer (join_cases)
open PipeQuery.Parser (Operand Invariant)

namespace Query

variable {table : OperatorTable} {text name : String} {limit : Nat} {args : List Query}
  {query : Query} {entries : List (String × Query)}

/-- The literal is no container, and the mapping has no key twice. -/
def Flat : Query → Prop
  | literal value => value.IsScalar
  | mapping entries => Entries.Distinct entries
  | call _ _ => True

/-- The query is no float beyond the finite ones. -/
def FiniteNumber (query : Query) : Prop :=
  ∀ ⦃x : Float⦄, query = .literal (.float x) → x.isFinite = true

/-! ## What the productions build -/

theorem flat_call (h : ∀ arg ∈ args, arg.Everywhere Flat) : (call name args).Everywhere Flat :=
  .call trivial h

theorem flat_join {left right : Operand} (hleft : left.query.Everywhere Flat)
    (hright : right.query.Everywhere Flat) :
    (Operand.join table name left right).query.Everywhere Flat := by
  rcases @join_cases table name left right with hjoin | ⟨args, hquery, _, hjoin⟩
  · rw [hjoin]
    exact flat_call (by simpa using ⟨hleft, hright⟩)
  · rw [hquery] at hleft
    rw [hjoin]
    refine flat_call fun arg harg => ?_
    rcases List.mem_append.1 harg with harg | harg
    · exact hleft.of_call arg harg
    · obtain rfl := List.mem_singleton.1 harg
      exact hright

theorem flat_object {entries : List (String × Operand)}
    (h : ∀ entry ∈ entries, entry.2.query.Everywhere Flat) :
    (Operand.object entries).query.Everywhere Flat := by
  refine flat_call (List.forall_mem_singleton.2 (.mapping (Entries.distinct_ofList _) ?_))
  intro entry hentry
  obtain ⟨source, hsource, rfl⟩ := List.mem_map.1 (Entries.mem_ofList hentry)
  exact h source hsource

theorem invariant_flat (table : OperatorTable) (limit : Nat) :
    Invariant table limit fun _ operand => operand.query.Everywhere Flat where
  literal h := .literal h
  path _ := flat_call (List.forall_mem_map.2 fun key _ =>
    @Everywhere.literal Flat (.str key) trivial)
  call _ hargs _ := flat_call (List.forall_mem_map.2 hargs)
  object hentries _ := flat_object hentries
  parenthesis h := h
  join _ _ hleft hright _ := flat_join hleft hright

theorem flat_of_parse (h : parse table limit text = .ok query) : query.Everywhere Flat := by
  obtain ⟨operand, rfl, hflat⟩ := (invariant_flat table limit).exists_operand_of_parse h
  exact hflat

/-! ## The JSON form -/

/-- A flat query builds no containers of its own. -/
theorem constructed_eq_finite (h : query.Everywhere Flat) : query.constructed = query.finite := by
  induction h with
  | literal h => rw [constructed, construction_of_isScalar h, finite]
  | @mapping entries _ _ ih =>
      have hentries : (entries.map fun entry => (entry.1, entry.2.constructed)) =
          entries.map fun entry => (entry.1, entry.2.finite) :=
        List.map_congr_left fun entry hentry => congrArg (Prod.mk entry.1) (ih entry hentry)
      rw [constructed, finite, hentries]
  | call _ _ ih => rw [constructed, finite, List.map_congr_left ih]

/-- The JSON form of a flat query stands for it, but for floats that have no such form. -/
theorem ofJson_toJson (h : query.Everywhere Flat) : ofJson query.toJson = .ok query.finite := by
  rw [ofJson_toJson_eq_constructed, constructed_eq_finite h]

theorem readable_toJson (h : query.Everywhere Flat) : query.toJson.Readable := by
  induction h with
  | literal h =>
      rw [toJson_literal_of_isScalar h]
      exact Value.readable_toJson_of_isScalar h
  | mapping hdistinct _ ih =>
      rw [toJson]
      exact .obj (Printer.distinct_map hdistinct toJson) (List.forall_mem_map.2 ih)
  | call _ _ ih =>
      rw [toJson]
      exact .arr (List.forall_mem_cons.2 ⟨.str _, List.forall_mem_map.2 ih⟩)

/-! ## Floats beyond the finite ones -/

theorem plain_iff_finiteNumber (h : query.Flat) : query.Plain ↔ query.FiniteNumber := by
  cases query with
  | literal value =>
      cases value with
      | arr items => exact h.elim
      | obj members => exact h.elim
      | _ => simp [Plain, Printer.IsFiniteScalar, FiniteNumber]
  | _ => simp [Plain, FiniteNumber]

/-- A flat query is its own finite form if and only if its numbers are finite. -/
theorem finite_eq_iff (h : query.Everywhere Flat) :
    query.finite = query ↔ query.Everywhere FiniteNumber := by
  rw [← constructed_eq_finite h, constructed_eq_self_iff]
  constructor
  · exact fun hplain => h.combine hplain fun _ hflat => (plain_iff_finiteNumber hflat).1
  · exact fun hnumbers => h.combine hnumbers fun _ hflat => (plain_iff_finiteNumber hflat).2

end Query

namespace Command

variable {dialect : Dialect} {text : String} {query : Query}

theorem exists_parse_of_read (h : Source.read dialect ⟨text, .text⟩ = .ok query) :
    ∃ table, PipeQuery.parse table dialect.maxDepth text = .ok query := by
  obtain ⟨table, _, hparse⟩ := ok_of_bind (ok_of_mapError h)
  exact ⟨table, ok_of_mapError hparse⟩

theorem read_of_parse (h : PipeQuery.parse .builtin defaultDepth text = .ok query) :
    Source.read {} ⟨text, .text⟩ = .ok query := by
  have htable : Dialect.table {} = .ok .builtin := rfl
  simp only [Source.read, Dialect.parse, htable, Bind.bind, Except.bind, h, Except.mapError]

theorem read_numeral {piece : List Char} {numeral : Numeral} (h : Scan.NumeralText numeral piece) :
    Source.read {} ⟨String.ofList piece, .text⟩ = .ok (.literal (.ofNumeral numeral)) := by
  refine read_of_parse (@Parser.parse_of_readsOperand .builtin defaultDepth
    (.constant (.ofNumeral numeral)) _ ?_)
  rw [String.toList_ofList]
  exact Parser.readsOperand_literal Parser.separable_builtin.legible (.number h)

/-- The JSON form of a query that was read as text gives the query again, with null in the place of
every float beyond the finite ones, unless it opens too many containers. -/
theorem read_text_toJson (h : Source.read dialect ⟨text, .text⟩ = .ok query) :
    Source.read dialect ⟨query.toJson.text, .json⟩ =
      if query.toJson.depth ≤ Json.maxNesting then .ok query.finite else .error .malformedJson := by
  obtain ⟨table, hparse⟩ := exists_parse_of_read h
  have hflat := Query.flat_of_parse hparse
  have hread : Json.read? query.toJson.text = _ :=
    Json.read?_write_eq EscapeStyle.faithful_interchange (Query.readable_toJson hflat)
  have hquery := Query.ofJson_toJson hflat
  by_cases hdepth : query.toJson.depth ≤ Json.maxNesting
  · rw [if_pos hdepth] at hread ⊢
    simp only [Source.read, readJson, hread, Bind.bind, Except.bind, hquery, Except.mapError]
  · rw [if_neg hdepth] at hread ⊢
    simp only [Source.read, readJson, hread, Bind.bind, Except.bind]

theorem toJson_of_read (h : Source.read dialect ⟨text, .text⟩ = .ok query) :
    toJson dialect text = .ok query.toJson := by
  simp [toJson, h, Bind.bind, Except.bind, pure, Except.pure]

/-- A query that was read as text is read again from its JSON form if and only if its numbers are
finite and the form opens no more containers than a document may. -/
theorem read_toJson_iff (h : Source.read dialect ⟨text, .text⟩ = .ok query) :
    ∃ json, toJson dialect text = .ok json ∧
      (Source.read dialect ⟨json.text, .json⟩ = .ok query ↔
        query.Everywhere Query.FiniteNumber ∧ json.depth ≤ Json.maxNesting) := by
  obtain ⟨table, hparse⟩ := exists_parse_of_read h
  refine ⟨query.toJson, toJson_of_read h, ?_⟩
  rw [read_text_toJson h, ← Query.finite_eq_iff (Query.flat_of_parse hparse)]
  by_cases hdepth : query.toJson.depth ≤ Json.maxNesting
  · simp [hdepth]
  · simp [hdepth]

/-- `{a: [1.5]}` is read again from its JSON form, which opens three containers. -/
theorem read_toJson_object :
    ∃ x : Float,
      let query := Query.object [("a", .array [.literal (.float x)])]
      Source.read {} ⟨"\x7ba: [1.5]\x7d", .text⟩ = .ok query ∧
        ∃ json, toJson {} "\x7ba: [1.5]\x7d" = .ok json ∧ json.depth = 3 ∧
          Source.read {} ⟨json.text, .json⟩ = .ok query := by
  let numeral : Numeral := ⟨false, ['1'], ['5'], none⟩
  let query := Query.object [("a", .array [.literal (.float numeral.toFloat)])]
  have hnumeral : Scan.NumeralText numeral ['1', '.', '5'] :=
    .intro (.digits (by decide) (by decide) (by simp)) (.digits (by simp) (by simp)) .absent
  have hlegible := Parser.separable_builtin.legible
  have hitem := @Parser.readsOperand_literal .builtin defaultDepth _ 125 hlegible _
    (.number hnumeral)
  have harray := Parser.readsOperand_array hlegible Grammar.blank_nil Grammar.blank_nil
    Grammar.blank_nil [(_, _)] (List.forall_mem_singleton.2 hitem) (by decide)
  have hkey : Grammar.KeyText "a".toList "a" := .name (by decide)
  have hspelled := @Parser.spelled_object .builtin defaultDepth _ _ _ _ Grammar.blank_nil
    Grammar.blank_nil Grammar.blank_nil [(("a".toList, _), "a", _)]
    (List.forall_mem_singleton.2 ⟨hkey, harray⟩) (by decide)
  have hobject := hspelled.readsOperand hlegible (.of_cons (by decide) (by decide) _)
  have hread : Source.read {} ⟨"\x7ba: [1.5]\x7d", .text⟩ = .ok query :=
    read_of_parse (@Parser.parse_of_readsOperand .builtin defaultDepth _ "\x7ba: [1.5]\x7d" hobject)
  have hfinite : numeral.toFloat.isFinite = true := by decide +kernel
  have hnumbers : query.Everywhere Query.FiniteNumber := by
    refine .call (by simp [Query.FiniteNumber]) (List.forall_mem_singleton.2 ?_)
    refine .mapping (by simp [Query.FiniteNumber]) (List.forall_mem_singleton.2 ?_)
    refine .call (by simp [Query.FiniteNumber]) (List.forall_mem_singleton.2 (.literal ?_))
    simpa [Query.FiniteNumber] using hfinite
  obtain ⟨json, hjson, hiff⟩ := read_toJson_iff hread
  obtain rfl := Except.ok.inj ((toJson_of_read hread).symm.trans hjson)
  have hdepth : query.toJson.depth = 3 := by
    simp [query, Query.object, Query.array, Query.toJson, Query.literalToJson, Value.toJson,
      Json.depth, hfinite]
  refine ⟨numeral.toFloat, hread, _, hjson, hdepth, hiff.2 ⟨hnumbers, ?_⟩⟩
  simp [hdepth, Json.maxNesting]

/-! ## Arrays inside each other -/

/-- An empty array inside so many others. -/
def nestedArray : Nat → Query
  | 0 => .array []
  | n + 1 => .array [nestedArray n]

/-- Its text. -/
def nestedBrackets : Nat → List Char
  | 0 => ['[', ']']
  | n + 1 => '[' :: nestedBrackets n ++ [']']

theorem depth_toJson_nestedArray (n : Nat) : (nestedArray n).toJson.depth = n + 1 := by
  induction n with
  | zero => simp [nestedArray, Query.array, Query.toJson, Json.depth]
  | succ n ih => simp [nestedArray, Query.array, Query.toJson, Json.depth, ih]

theorem readsOperand_nestedBrackets {table : OperatorTable} (hlegible : Parser.Legible table)
    {limit n budget : Nat} (hbudget : n < budget) (hlimit : n < limit) :
    Parser.ReadsOperand (Parser.expression table limit budget) (nestedBrackets n)
      { query := nestedArray n, height := n + 1 } := by
  induction n generalizing budget with
  | zero =>
      obtain ⟨budget, rfl⟩ := Nat.exists_eq_succ_of_ne_zero (Nat.ne_of_gt hbudget)
      exact Parser.readsOperand_array hlegible Grammar.blank_nil Grammar.blank_nil
        Grammar.blank_nil [] (List.forall_mem_nil _) hlimit
  | succ n ih =>
      obtain ⟨budget, rfl⟩ := Nat.exists_eq_succ_of_ne_zero (Nat.ne_zero_of_lt hbudget)
      have hinner := ih (Nat.lt_of_succ_lt_succ hbudget) (Nat.lt_of_succ_lt hlimit)
      have harray := Parser.readsOperand_array hlegible Grammar.blank_nil Grammar.blank_nil
        Grammar.blank_nil [(_, _)] (List.forall_mem_singleton.2 hinner)
        (by simpa [Operand.call, Operand.tallest, Nat.add_comm 1] using Nat.succ_le_of_lt hlimit)
      simpa [Parser.enclosed, nestedBrackets, nestedArray, Operand.call, Operand.tallest,
        Query.array, Nat.add_comm 1] using harray

theorem read_nestedBrackets {n : Nat} (h : n < defaultDepth) :
    Source.read {} ⟨String.ofList (nestedBrackets n), .text⟩ = .ok (nestedArray n) := by
  refine read_of_parse (@Parser.parse_of_readsOperand .builtin defaultDepth
    { query := nestedArray n, height := n + 1 } _ ?_)
  rw [String.toList_ofList]
  exact readsOperand_nestedBrackets Parser.separable_builtin.legible h h

/-- Where the JSON form of a text is not read as the same query: a number beyond the doubles is
written `null`, and of the arrays that may stand inside each other one is more than a document may
open. -/
theorem exists_read_toJson_ne :
    (∃ x : Float, x.isFinite = false ∧
      Source.read {} ⟨"1e400", .text⟩ = .ok (.literal (.float x)) ∧
        toJson {} "1e400" = .ok .null ∧
          Source.read {} ⟨Json.text .null, .json⟩ = .ok (.literal .null)) ∧
      ∃ json, Source.read {} ⟨String.ofList (nestedBrackets 127), .text⟩ = .ok (nestedArray 127) ∧
        toJson {} (String.ofList (nestedBrackets 127)) = .ok json ∧
          Source.read {} ⟨json.text, .json⟩ = .error .malformedJson := by
  constructor
  · let numeral : Numeral := ⟨false, ['1'], [], some 400⟩
    have hinfinite : numeral.toFloat.isFinite = false := by decide +kernel
    have hpower : Scan.Exponent (some 400) ['e', '4', '0', '0'] :=
      @Scan.Exponent.power 'e' false [] ['4', '0', '0'] (.inl rfl) .absent (by simp) (by simp)
    have hnumeral : Scan.NumeralText numeral ['1', 'e', '4', '0', '0'] :=
      .intro (.digits (by decide) (by decide) (by simp)) .absent hpower
    have hread : Source.read {} ⟨"1e400", .text⟩ = .ok (.literal (.float numeral.toFloat)) :=
      read_numeral hnumeral
    have hjson : (Query.literal (.float numeral.toFloat)).toJson = .null := by
      simp [Query.toJson, Query.literalToJson, Value.toJson, hinfinite]
    have htoJson := toJson_of_read hread
    have hback := read_text_toJson hread
    have hfinite : (Query.literal (.float numeral.toFloat)).finite = .literal .null := by
      simp [Query.finite, Value.finite, hinfinite]
    rw [hjson] at htoJson
    rw [hjson, hfinite, if_pos (by simp [Json.depth])] at hback
    exact ⟨_, hinfinite, hread, htoJson, hback⟩
  · have hread := read_nestedBrackets (show 127 < defaultDepth by decide)
    have hback := read_text_toJson hread
    rw [depth_toJson_nestedArray, if_neg (by decide)] at hback
    exact ⟨_, hread, toJson_of_read hread, hback⟩

end Command

end PipeQuery
