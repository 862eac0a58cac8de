/-
Results that are written and read again.

The text of a value is that of its document, which tells integers from floats, keeps the order of
the members and reads the escapes of strings back.  It is the value again as long as its floats are
finite and it opens no more containers than a document may.
-/
import PipeQuery.Command
import PipeQuery.Proofs.Documents
import PipeQuery.Proofs.Replacement
import PipeQuery.Proofs.Restatement

namespace PipeQuery

/-- How many containers are open at once. -/
def Value.depth : Value → Nat
  | .arr items => (items.map depth).foldl max 0 + 1
  | .obj members => (members.map fun member => depth member.2).foldl max 0 + 1
  | _ => 0
termination_by value => sizeOf value
decreasing_by
  · have := List.sizeOf_lt_of_mem ‹_›
    simp only [Value.arr.sizeOf_spec]
    omega
  · have := Entries.sizeOf_snd_lt ‹_›
    simp only [Value.obj.sizeOf_spec]
    omega

namespace Value

variable {value : Value}

theorem depth_toJson (value : Value) : value.toJson.depth = value.depth := by
  induction value using depth.induct with
  | case1 items ih =>
      have hdepths : (items.map toJson).map Json.depth = items.map depth := by
        rw [List.map_map]
        exact List.map_congr_left ih
      rw [toJson, Json.depth, depth, hdepths]
  | case2 members ih =>
      have hdepths : (members.map fun member => (member.1, member.2.toJson)).map
            (fun member => member.2.depth) = members.map fun member => member.2.depth := by
        rw [List.map_map]
        exact List.map_congr_left ih
      rw [toJson, Json.depth, depth, hdepths]
  | case3 value harr hobj =>
      cases value with
      | arr items => exact absurd rfl (harr items)
      | obj members => exact absurd rfl (hobj members)
      | float x =>
          rw [toJson, depth]
          · split <;> simp [Json.depth]
          · exact harr
          · exact hobj
      | _ => simp [toJson, Json.depth, depth]

/-! ## Documents of values -/

theorem readable_toJson_of_isScalar (h : value.IsScalar) : value.toJson.Readable := by
  cases value with
  | null => simpa [toJson] using Json.Readable.null
  | bool b => simpa [toJson] using Json.Readable.bool b
  | int n =>
      have hlower := n.le_toInt
      have hupper := n.toInt_lt
      rw [toJson]
      exact .int ⟨hlower, by omega⟩
  | float x =>
      rw [toJson]
      split
      · rename_i hfinite
        exact .float hfinite
      · exact .null
  | str s => simpa [toJson] using Json.Readable.str s
  | arr items => exact h.elim
  | obj members => exact h.elim

theorem readable_toJson (h : value.WellFormed) : value.toJson.Readable := by
  induction h with
  | @scalar value h =>
      apply readable_toJson_of_isScalar
      cases value with
      | arr items => exact h.elim
      | obj members => exact h.elim
      | _ => trivial
  | arr _ ih =>
      rw [toJson]
      exact .arr (List.forall_mem_map.2 ih)
  | obj hdistinct _ ih =>
      rw [toJson]
      exact .obj (Printer.distinct_map hdistinct toJson) (List.forall_mem_map.2 ih)

/-- The document of a value keeps all of it. -/
theorem ofJson_toJson_eq (h : value.WellFormed) : ofJson value.toJson = value := by
  induction h with
  | @scalar value h =>
      cases value with
      | int n =>
          have hfits := fitsInt64_toInt n
          simp [toJson, ofJson, hfits]
      | float x =>
          have hfinite : x.isFinite = true := h
          simp [toJson, ofJson, hfinite]
      | arr items => exact h.elim
      | obj members => exact h.elim
      | _ => simp [toJson, ofJson]
  | @arr items _ ih =>
      rw [toJson, ofJson, List.map_map]
      exact congrArg arr (map_eq_self_iff.2 ih)
  | @obj members _ _ ih =>
      rw [toJson, ofJson, List.map_map]
      exact congrArg obj (map_eq_self_iff.2 fun member hmember => Prod.ext rfl (ih member hmember))

end Value

namespace Command

/-- A value is read from its own text, in one line or indented, unless it opens too many
containers. -/
theorem readDocument_render {value : Value} (hwell : value.WellFormed) (indented : Bool) :
    readDocument (value.render indented) =
      if value.depth ≤ Json.maxNesting then .ok value else .error .malformedJson := by
  have hread : Json.read? (value.render indented) = _ :=
    Json.read?_write_eq EscapeStyle.faithful_result (Value.readable_toJson hwell)
  rw [Value.depth_toJson] at hread
  rw [readDocument, readJson, hread]
  by_cases hdepth : value.depth ≤ Json.maxNesting
  · rw [if_pos hdepth, if_pos hdepth]
    exact congrArg Except.ok (Value.ofJson_toJson_eq hwell)
  · rw [if_neg hdepth, if_neg hdepth]
    rfl

/-- The least integer, the float zero with its sign, a float with an exponent, containers with
nothing in them, and a key of a quote, a new line and a control character. -/
theorem readDocument_render_extremes :
    let value := Value.obj [("\"\n\u0085", .arr [.int (.ofInt (-2 ^ 63)), .float (-0.0),
      .float 1e21, .arr [], .obj []])]
    value.WellFormed ∧ value.depth = 3 ∧ readDocument (value.render false) = .ok value ∧
      readDocument (value.render true) = .ok value := by
  intro value
  have hzero : Float.isFinite (-0.0) = true := by decide +kernel
  have hlarge : Float.isFinite 1e21 = true := by decide +kernel
  have hwell : value.WellFormed := by
    refine .obj (List.nodup_singleton _) (List.forall_mem_singleton.2 (.arr ?_))
    simp only [List.forall_mem_cons]
    exact ⟨.scalar trivial, .scalar hzero, .scalar hlarge, .arr (List.forall_mem_nil _),
      .obj List.nodup_nil (List.forall_mem_nil _), List.forall_mem_nil _⟩
  have hdepth : value.depth = 3 := by simp [value, Value.depth]
  have hread (indented : Bool) : readDocument (value.render indented) = .ok value := by
    rw [readDocument_render hwell, hdepth, if_pos (by decide)]
  exact ⟨hwell, hdepth, hread false, hread true⟩

end Command

end PipeQuery
