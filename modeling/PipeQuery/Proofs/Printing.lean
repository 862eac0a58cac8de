/-
What printed texts are made of: the pieces between brackets or operators, whatever the layout, and
the literals and keys that need no layout.
-/
import PipeQuery.Printer
import PipeQuery.Proofs.FloatText
import PipeQuery.Proofs.Spelling

namespace PipeQuery

namespace Printer

open Grammar
open PipeQuery.Parser (enclosed infixTail)

variable {layout : LineLayout} {indent opening closing : String} {items : List String}
  {line broken : Brackets}

/-- Nothing but blanks in a string. -/
abbrev BlankString (text : String) : Prop :=
  Blank text.toList

theorem blank_space : Blank [' '] := by
  intro c hc
  simp [List.mem_singleton.1 hc, Scan.isBlank]

theorem blank_newline : Blank ['\n'] := by
  intro c hc
  simp [List.mem_singleton.1 hc, Scan.isBlank]

theorem blankString_deeper (hlayout : BlankString layout.indentation)
    (hindent : BlankString indent) :
    BlankString (deeper layout indent) := by
  rw [deeper, BlankString, String.toList_append]
  exact hindent.append hlayout

/-- The brackets are one character each way, and only blanks stand beside them and after commas. -/
def Brackets.Spaced (brackets : Brackets) (opening : List Char) (closing : Char) : Prop :=
  ∃ before between after, Blank before ∧ Blank between ∧ Blank after ∧
    brackets.opening.toList = opening ++ before ∧ brackets.separator.toList = ',' :: between ∧
    brackets.closing.toList = after ++ [closing]

/-- A list of pieces between brackets, in any layout. -/
def Listed (text opening : List Char) (pieces : List (List Char)) (closing : Char) : Prop :=
  ∃ before between after, Blank before ∧ Blank between ∧ Blank after ∧
    text = opening ++ enclosed before between after pieces closing []

theorem Brackets.Spaced.listed {brackets : Brackets} {opening : List Char} {closing : Char}
    (h : brackets.Spaced opening closing) (items : List String) :
    Listed (brackets.around items).toList opening (items.map String.toList) closing := by
  obtain ⟨before, between, after, hbefore, hbetween, hafter, hopening, hseparator, hclosing⟩ := h
  refine ⟨before, between, after, hbefore, hbetween, hafter, ?_⟩
  simp [Brackets.around, hopening, hseparator, hclosing, enclosed, String.toList_intercalate]

theorem fit_eq (layout : LineLayout) (items : List String) (line broken : Brackets) :
    fit layout items line broken = line.around items ∨
      fit layout items line broken = broken.around items := by
  unfold fit
  split
  · exact .inl rfl
  · exact .inr rfl

theorem listed_listed {c : Char} (hlayout : BlankString layout.indentation)
    (hindent : BlankString indent) (hclosing : closing.toList = [c])
    (hline : line.Spaced opening.toList c) (items : List String) :
    Listed (listed layout indent line opening closing items).toList opening.toList
      (items.map String.toList) c := by
  have hinner := blankString_deeper hlayout hindent
  have hbroken : Brackets.Spaced ⟨opening ++ "\n" ++ deeper layout indent,
      ",\n" ++ deeper layout indent, "\n" ++ indent ++ closing⟩ opening.toList c := by
    refine ⟨'\n' :: (deeper layout indent).toList, '\n' :: (deeper layout indent).toList,
      '\n' :: indent.toList, blank_newline.append hinner, blank_newline.append hinner,
      blank_newline.append hindent, ?_, ?_, ?_⟩
    · simp
    · simp
    · simp [hclosing]
  rcases fit_eq layout items line ⟨opening ++ "\n" ++ deeper layout indent,
    ",\n" ++ deeper layout indent, "\n" ++ indent ++ closing⟩ with h | h
  · rw [listed, h]
    exact hline.listed items
  · rw [listed, h]
    exact hbroken.listed items

theorem listed_arrayText (hlayout : BlankString layout.indentation) (hindent : BlankString indent)
    (items : List String) :
    Listed (arrayText layout indent items).toList ['['] (items.map String.toList) ']' :=
  listed_listed hlayout hindent rfl
    ⟨[], [' '], [], blank_nil, blank_space, blank_nil, rfl, rfl, rfl⟩ items

theorem listed_functionText (hlayout : BlankString layout.indentation)
    (hindent : BlankString indent) (name : String) (args : List String) :
    Listed (functionText layout indent name args).toList (name.toList ++ ['('])
      (args.map String.toList) ')' := by
  have h := @listed_listed _ _ (name ++ "(") _ ⟨name ++ "(", ", ", ")"⟩ _ hlayout hindent
    (show (")" : String).toList = [')'] from rfl)
    ⟨[], [' '], [], blank_nil, blank_space, blank_nil, by simp, by simp, by simp⟩ args
  simpa [functionText] using h

theorem listed_objectText (hlayout : BlankString layout.indentation)
    (hindent : BlankString indent) (entries : List (String × String)) :
    Listed (objectText layout indent entries).toList ['\x7b']
      (entries.map fun entry => Parser.entryText ((keyText entry.1).toList, entry.2.toList))
      '\x7d' := by
  unfold objectText
  split
  · rename_i hempty
    obtain rfl : entries = [] := by simpa using hempty
    exact ⟨[], [], [], blank_nil, blank_nil, blank_nil, rfl⟩
  · have h := @listed_listed _ _ "\x7b" _ ⟨"\x7b ", ", ", " \x7d"⟩ _ hlayout hindent
      (show ("\x7d" : String).toList = ['\x7d'] from rfl)
      ⟨[' '], [' '], [' '], blank_space, blank_space, blank_space, rfl, rfl, rfl⟩
      (entries.map fun entry => keyText entry.1 ++ ": " ++ entry.2)
    simpa [Parser.entryText, Function.comp_def] using h

theorem toList_around_operands {blanks : List Char} {symbol : String} (parenthesized : Bool)
    {separator : String} (hseparator : separator.toList = blanks ++ (symbol.toList ++ [' ']))
    (first : String) (others : List String) :
    (Brackets.around ⟨if parenthesized then "(" else "", separator,
      if parenthesized then ")" else ""⟩ (first :: others)).toList =
      (if parenthesized then ['('] else []) ++
        (first.toList ++ infixTail blanks symbol.toList (others.map String.toList)) ++
        (if parenthesized then [')'] else []) := by
  have htail : separator.toList.intercalate ((first :: others).map String.toList) =
      first.toList ++ infixTail blanks symbol.toList (others.map String.toList) := by
    rw [List.map_cons, Parser.intercalate_cons, hseparator, infixTail]
    simp
  rw [Brackets.around, String.toList_append, String.toList_append, String.toList_intercalate, htail]
  cases parenthesized <;> simp

/-- Operands with an operator between them, in parentheses or not, in any layout. -/
theorem exists_infixTail_infixText (hlayout : BlankString layout.indentation)
    (hindent : BlankString indent) (symbol : String) (parenthesized : Bool) (first : String)
    (others : List String) :
    ∃ blanks, Blank blanks ∧ blanks ≠ [] ∧
      (infixText layout indent symbol parenthesized (first :: others)).toList =
        (if parenthesized then ['('] else []) ++
          (first.toList ++ infixTail blanks symbol.toList (others.map String.toList)) ++
          (if parenthesized then [')'] else []) := by
  have hinner := blankString_deeper hlayout hindent
  unfold infixText
  rcases fit_eq layout (first :: others)
    ⟨if parenthesized then "(" else "", " " ++ symbol ++ " ", if parenthesized then ")" else ""⟩
    ⟨if parenthesized then "(" else "", "\n" ++ deeper layout indent ++ symbol ++ " ",
      if parenthesized then ")" else ""⟩ with h | h
  · refine ⟨[' '], blank_space, by simp, ?_⟩
    simp only [h]
    exact toList_around_operands parenthesized (by simp) first others
  · refine ⟨'\n' :: (deeper layout indent).toList, blank_newline.append hinner, by simp, ?_⟩
    simp only [h]
    exact toList_around_operands parenthesized (by simp) first others

/-! ## Keys and literals -/

theorem keyText_keyText (key : String) : KeyText (keyText key).toList key := by
  unfold keyText
  split
  · rename_i h
    by_cases hname : isPlainName key = true
    · exact .name hname
    · have hindex : isIndexText key = true := by simpa [hname] using h
      have hwhole := KeyText.whole (Scan.isIndexText_iff.1 hindex)
      rwa [String.ofList_toList] at hwhole
  · exact .quoted (Quoted.stringLiteral_literal EscapeStyle.faithful_result key)

/-- The numeral of an integer. -/
theorem exists_numeral_integerText (n : Int) :
    ∃ numeral, Scan.NumeralText numeral (integerText n).toList ∧ numeral.isIntegral = true ∧
      numeral.toInt = n ∧ numeral.negative = decide (n < 0) := by
  have hnumeral := @Scan.NumeralText.intro (decide (n < 0)) _ _ _ _ _ (Scan.whole_decimal n.natAbs)
    .absent .absent
  refine ⟨⟨decide (n < 0), decimal n.natAbs, [], none⟩, ?_, rfl, ?_, rfl⟩
  · rw [integerText, String.toList_ofList]
    by_cases hn : n < 0
    · simpa [hn] using hnumeral
    · simpa [hn] using hnumeral
  · simp only [Numeral.toInt, Binary.signed, digitsValue_decimal, decide_eq_true_eq]
    omega

theorem literalText_integerText (n : Int64) :
    LiteralText (integerText n.toInt).toList (.int n) := by
  obtain ⟨numeral, hnumeral, hintegral, hvalue, _⟩ := exists_numeral_integerText n.toInt
  have hfits := fitsInt64_toInt n
  have hliteral := LiteralText.number hnumeral
  rwa [Value.ofNumeral, hintegral, hvalue, hfits, Bool.true_and, if_pos rfl, Int64.ofInt_toInt]
    at hliteral

/-- The value is no container, and if it is a float its text is exact. -/
def ScalarText : Value → Prop
  | .arr _ | .obj _ => False
  | .float x => Exact x
  | _ => True

theorem literalText_of_scalarText {value : Value} (h : ScalarText value) (layout : LineLayout)
    (indent : String) : LiteralText (literalText layout indent value).toList value := by
  cases value with
  | null =>
      have htext : literalText layout indent .null = "null" := by
        simp [literalText, Value.render, Value.toJson, Json.write, Json.writeAt]
      rw [htext]
      exact .null
  | bool b =>
      have htext : literalText layout indent (.bool b) = if b then "true" else "false" := by
        simp [literalText, Value.render, Value.toJson, Json.write, Json.writeAt]
      rw [htext]
      cases b with
      | false => exact .bool false
      | true => exact .bool true
  | int n =>
      have htext : literalText layout indent (.int n) = integerText n.toInt := by
        simp [literalText, Value.render, Value.toJson, Json.write, Json.writeAt]
      rw [htext]
      exact literalText_integerText n
  | float x =>
      obtain ⟨hfinite, numeral, hnumeral, hvalue⟩ := h
      have htext : literalText layout indent (.float x) = floatText x := by
        simp [literalText, Value.render, Value.toJson, Json.write, Json.writeAt, hfinite]
      rw [htext, ← hvalue]
      exact .number hnumeral
  | str s =>
      have htext : literalText layout indent (.str s) = quote s := by
        simp [literalText, Value.render, Value.toJson, Json.write, Json.writeAt, quote]
      rw [htext]
      exact .string (Quoted.stringLiteral_literal EscapeStyle.faithful_result s)
  | arr items => exact h.elim
  | obj members => exact h.elim

/-! ## Paths -/

/-- The key of a segment. -/
def segmentKey? : Query → Option String
  | .literal (.str key) => some key
  | .literal (.int n) => if 0 ≤ n.toInt then some (integerText n.toInt) else none
  | _ => none

/-- The keys of a call that is written as a path. -/
def pathKeys? (name : String) (args : List Query) : Option (List String) :=
  if name = "get" ∧ args ≠ [] then args.mapM segmentKey? else none

theorem mapM_segmentKey?_of_pathKeys? {name : String} {args : List Query} {keys : List String}
    (h : pathKeys? name args = some keys) : name = "get" ∧ args.mapM segmentKey? = some keys := by
  unfold pathKeys? at h
  split at h
  · rename_i hname
    exact ⟨hname.1, h⟩
  · simp at h

theorem segmentText?_eq (query : Query) :
    segmentText? query = (segmentKey? query).map fun key => "." ++ keyText key := by
  rcases query with (_ | b | n | x | key | items | members) | _ | _
  case literal.int =>
    by_cases hn : 0 ≤ n.toInt <;> simp [segmentText?, segmentKey?, hn]
  all_goals rfl

theorem mapM_segmentText? (args : List Query) :
    args.mapM segmentText? =
      (args.mapM segmentKey?).map fun keys => keys.map fun key => "." ++ keyText key := by
  induction args with
  | nil => rfl
  | cons arg args ih =>
      rw [List.mapM_cons, List.mapM_cons, segmentText?_eq, ih]
      cases segmentKey? arg with
      | none => rfl
      | some key => cases args.mapM segmentKey? <;> rfl

theorem pathText?_eq (name : String) (args : List Query) :
    pathText? name args =
      (pathKeys? name args).map fun keys =>
        String.join (keys.map fun key => "." ++ keyText key) := by
  unfold pathText? pathKeys?
  split
  · rw [mapM_segmentText?]
    cases args.mapM segmentKey? <;> rfl
  · rfl

theorem length_of_mapM_eq_some {α β : Type} {f : α → Option β} {xs : List α} {ys : List β}
    (h : xs.mapM f = some ys) : ys.length = xs.length := by
  induction xs generalizing ys with
  | nil =>
      obtain rfl : [] = ys := by simpa using h
      rfl
  | cons x xs ih =>
      simp only [List.mapM_cons, Option.bind_eq_bind, Option.bind_eq_some_iff, Option.pure_def,
        Option.some.injEq] at h
      obtain ⟨y, _, ys, hys, rfl⟩ := h
      simp [ih hys]

theorem ne_nil_of_pathKeys? {name : String} {args : List Query} {keys : List String}
    (h : pathKeys? name args = some keys) : keys ≠ [] := by
  unfold pathKeys? at h
  split at h
  · rename_i hname
    have hlength := length_of_mapM_eq_some h
    rintro rfl
    exact hname.2 (List.length_eq_zero_iff.1 hlength.symm)
  · simp at h

theorem pathKeys?_get {keys : List String} (hne : keys ≠ []) :
    pathKeys? "get" (keys.map fun key => .literal (.str key)) = some keys := by
  have hkeys : (keys.map fun key => Query.literal (.str key)).mapM segmentKey? = some keys := by
    clear hne
    induction keys with
    | nil => rfl
    | cons key keys ih =>
        rw [List.map_cons, List.mapM_cons, ih]
        rfl
  rw [pathKeys?, if_pos ⟨rfl, by simpa using hne⟩, hkeys]

/-- A path is written with a point before each key. -/
theorem pathText_join {keys : List String} (hne : keys ≠ []) :
    ∃ piece, (String.join (keys.map fun key => "." ++ keyText key)).toList = '.' :: piece ∧
      PathText piece keys := by
  induction keys with
  | nil => exact absurd rfl hne
  | cons key keys ih =>
      cases keys with
      | nil => exact ⟨(keyText key).toList, by simp [String.join], .last (keyText_keyText key)⟩
      | cons next keys =>
          obtain ⟨piece, hpiece, hpath⟩ := ih (by simp)
          refine ⟨(keyText key).toList ++ '.' :: piece, ?_, .step (keyText_keyText key) hpath⟩
          rw [← hpiece, List.map_cons]
          simp

end Printer

end PipeQuery
