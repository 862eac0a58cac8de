/-
Steps of a path that may be written either way.

An index that is not negative and its decimal text are one step: they name the same key of an object
and the same place of an array, and they are printed alike.  Conversely a text is an index only if
it is the decimal text of one.
-/
import PipeQuery.Proofs.Meaning

namespace PipeQuery

namespace Segment

variable {segment segment' : Segment}

/-- The same step, or the decimal text of an index that is not negative. -/
inductive Respells : Segment → Segment → Prop
  | same (segment : Segment) : Respells segment segment
  | decimal {n : Int64} (h : 0 ≤ n.toInt) : Respells (.index n) (.field (integerText n.toInt))

/-- The argument of `get` for a segment. -/
def toQuery : Segment → Query
  | field name => .literal (.str name)
  | index n => .literal (.int n)

theorem Respells.key_eq (h : Respells segment segment') : segment'.key = segment.key := by
  cases h <;> rfl

theorem Respells.lookup?_eq (h : Respells segment segment') :
    segment'.lookup? = segment.lookup? := by
  cases h with
  | same => rfl
  | decimal hn => exact lookup?_congr rfl (index?_integerText hn)

theorem Respells.segmentKey?_eq (h : Respells segment segment') :
    Printer.segmentKey? segment'.toQuery = Printer.segmentKey? segment.toQuery := by
  cases h with
  | same => rfl
  | decimal hn => simp [toQuery, Printer.segmentKey?, hn]

/-- A text as an index: it is the decimal text of one that has 64 bits. -/
theorem index?_field (name : String) :
    (∃ n : Nat, name = integerText n ∧
        (field name).index? = if fitsInt64 n then some (n : Int) else none) ∨
      (∀ n : Nat, name ≠ integerText n) ∧ (field name).index? = none := by
  by_cases h : isIndexText name = true
  · left
    have hwhole := Scan.isIndexText_iff.1 h
    refine ⟨digitsValue name.toList, ?_, ?_⟩
    · have hnegative : ¬ (digitsValue name.toList : Int) < 0 := by omega
      rw [integerText, if_neg hnegative, Int.natAbs_natCast, Scan.decimal_digitsValue hwhole,
        String.ofList_toList]
    · simp [index?, h]
  · right
    refine ⟨?_, by simp [index?, h]⟩
    rintro n rfl
    apply h
    have hnegative : ¬ (n : Int) < 0 := by omega
    rw [Scan.isIndexText_iff, integerText, if_neg hnegative, String.toList_ofList]
    exact Scan.whole_decimal _

end Segment

namespace Path

variable {path path' : Path}

/-- A path as it is written with points; one with an index that counts from the end is not. -/
def text? (path : Path) : Option String :=
  Printer.pathText? "get" (path.map Segment.toQuery)

theorem alike_of_respells (h : List.Forall₂ Segment.Respells path path') : path'.Alike path := by
  constructor
  · funext value
    induction h generalizing value with
    | nil => rfl
    | cons hsegment _ ih =>
        simp only [Path.lookup?, List.foldlM_cons] at ih ⊢
        rw [hsegment.lookup?_eq]
        exact bind_congr ih
  · have hkeys : path'.map Segment.key = path.map Segment.key := by
      induction h with
      | nil => rfl
      | cons hsegment _ ih => rw [List.map_cons, List.map_cons, hsegment.key_eq, ih]
    rw [Path.lastKey?, Path.lastKey?, ← List.getLast?_map, ← List.getLast?_map, hkeys]

theorem pathKeys?_of_respells (h : List.Forall₂ Segment.Respells path path') :
    Printer.pathKeys? "get" (path'.map Segment.toQuery) =
      Printer.pathKeys? "get" (path.map Segment.toQuery) := by
  have hkeys : (path'.map Segment.toQuery).mapM Printer.segmentKey? =
      (path.map Segment.toQuery).mapM Printer.segmentKey? := by
    induction h with
    | nil => rfl
    | cons hsegment _ ih =>
        rw [List.map_cons, List.map_cons, List.mapM_cons, List.mapM_cons, hsegment.segmentKey?_eq,
          ih]
  have hnil : path'.map Segment.toQuery = [] ↔ path.map Segment.toQuery = [] := by
    cases h <;> simp
  rw [Printer.pathKeys?, Printer.pathKeys?, hkeys]
  simp only [ne_eq, hnil]

theorem text?_of_respells (h : List.Forall₂ Segment.Respells path path') :
    path'.text? = path.text? := by
  rw [text?, text?, Printer.pathText?_eq, Printer.pathText?_eq, pathKeys?_of_respells h]

theorem isSome_mapM_segmentKey? (path : Path) :
    ((path.map Segment.toQuery).mapM Printer.segmentKey?).isSome ↔
      ∀ n, Segment.index n ∈ path → 0 ≤ n.toInt := by
  induction path with
  | nil => simp
  | cons segment path ih =>
      rw [List.map_cons, List.mapM_cons]
      cases segment with
      | field name => simpa [Segment.toQuery, Printer.segmentKey?, Option.isSome_bind] using ih
      | index n =>
          by_cases hn : 0 ≤ n.toInt
          · simpa [Segment.toQuery, Printer.segmentKey?, hn, Option.isSome_bind] using ih
          · simp [Segment.toQuery, Printer.segmentKey?, hn]

theorem isSome_text? (path : Path) :
    path.text?.isSome ↔ path ≠ [] ∧ ∀ n, Segment.index n ∈ path → 0 ≤ n.toInt := by
  rw [text?, Printer.pathText?_eq, Option.isSome_map, Printer.pathKeys?, ← isSome_mapM_segmentKey?]
  by_cases hnil : path = [] <;> simp [hnil]

/-- A call of `get` is written as its path where the path has a text. -/
theorem print_get {text : String} (h : path.text? = some text) (table : OperatorTable)
    (layout : LineLayout) : print table layout (.call "get" (path.map Segment.toQuery)) = text := by
  rw [text?, Printer.pathText?_eq] at h
  obtain ⟨keys, hkeys, rfl⟩ := Option.map_eq_some_iff.1 h
  exact Printer.queryText_path (by simp [Printer.IsObject]) hkeys

end Path

/-- The place of an array that a text names: that of the number it is the decimal text of, if the
number has 64 bits. -/
theorem Segment.lookup?_field_arr (name : String) (items : List Value) :
    (∃ n : Nat, name = integerText n ∧
        (Segment.field name).lookup? (.arr items) = if n < 2 ^ 63 then items[n]? else none) ∨
      (∀ n : Nat, name ≠ integerText n) ∧ (Segment.field name).lookup? (.arr items) = none := by
  rcases index?_field name with ⟨n, hname, hindex⟩ | ⟨hname, hindex⟩
  · refine .inl ⟨n, hname, ?_⟩
    have hfits : fitsInt64 n = decide (n < 2 ^ 63) := by
      rw [fitsInt64]
      congr 1
      apply propext
      omega
    rw [lookup?, hindex, hfits]
    by_cases hn : n < 2 ^ 63
    · simp only [hn, decide_true, if_true, Int.natCast_nonneg, Int.toNat_natCast]
    · simp only [hn, decide_false, Bool.false_eq_true, if_false]
  · refine .inr ⟨hname, ?_⟩
    rw [lookup?, hindex]

/-- A path leads to the same place, ends at the same key and is written with the same text,
whichever of its indices that are not negative are replaced by their decimal texts.  It has a text
unless it is empty or counts from the end of an array.  On an array a text is used as an index only
if it is the decimal text of a number, and then as this number; one that has more than 64 bits finds
nothing. -/
theorem path_respelled {path path' : Path} (h : List.Forall₂ Segment.Respells path path') :
    (∀ value, path'.lookup? value = path.lookup? value ∧ path'.get value = path.get value ∧
        path'.isPresent value = path.isPresent value) ∧
      path'.lastKey? = path.lastKey? ∧
      path'.text? = path.text? ∧
      (path.text?.isSome ↔ path ≠ [] ∧ ∀ n, Segment.index n ∈ path → 0 ≤ n.toInt) ∧
      (∀ text, path.text? = some text → ∀ table layout,
        print table layout (.call "get" (path.map Segment.toQuery)) = text ∧
          print table layout (.call "get" (path'.map Segment.toQuery)) = text) ∧
      ∀ (name : String) (items : List Value),
        (∃ n : Nat, name = integerText n ∧
            (Segment.field name).lookup? (.arr items) = if n < 2 ^ 63 then items[n]? else none) ∨
          (∀ n : Nat, name ≠ integerText n) ∧ (Segment.field name).lookup? (.arr items) = none := by
  have halike := Path.alike_of_respells h
  have htext := Path.text?_of_respells h
  refine ⟨fun value => ⟨?_, ?_, ?_⟩, halike.lastKey, htext, path.isSome_text?, ?_,
    Segment.lookup?_field_arr⟩
  · rw [halike.lookup]
  · rw [halike.get]
  · rw [halike.isPresent]
  · intro text hpath table layout
    exact ⟨Path.print_get hpath table layout, Path.print_get (htext.trans hpath) table layout⟩

/-- An index and its text in a path that goes on with a key that needs quotes. -/
theorem path_respelled_quoted :
    let path : Path := [.index 1, .field "a b"]
    let path' : Path := [.field "1", .field "a b"]
    let value : Value := .arr [.null, .obj [("a b", .bool true)]]
    List.Forall₂ Segment.Respells path path' ∧
      (path'.lookup? value = path.lookup? value ∧ path.lookup? value = some (.bool true)) ∧
      path'.text? = path.text? ∧ path.text? = some ".1.\"a b\"" := by
  intro path path' value
  have h : List.Forall₂ Segment.Respells path path' :=
    .cons (.decimal (by decide)) (.cons (.same _) .nil)
  obtain ⟨hlookup, _, htext, _⟩ := path_respelled h
  exact ⟨h, ⟨(hlookup value).1, by rfl⟩, htext, by decide +kernel⟩

end PipeQuery
