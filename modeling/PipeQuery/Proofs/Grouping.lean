/-
Parentheses around operands.

The text of a query is brackets around the texts of its parts, and weighs what the query weighs.
Without the parentheses around one operand it weighs one less, which is less than any text of the
query does: what it is read as, if it is read, is another query.
-/
import PipeQuery.Proofs.CustomOperators
import PipeQuery.Proofs.Layouts
import PipeQuery.Proofs.LineBreaks
import PipeQuery.Proofs.Parsed
import PipeQuery.Proofs.Weight

namespace PipeQuery

namespace Printer

open Grammar
open PipeQuery.Parser (Legible Weighs Smooth FlatSymbols smooth_of_blank)

/-! ## Parts -/

/-- A query as it stands in the text of another: behind a key or behind nothing, at an indentation,
and in parentheses or not. -/
structure Part where
  label : String
  indent : String
  parenthesized : Bool
  query : Query

def Part.text (table : OperatorTable) (layout : LineLayout) (part : Part) : String :=
  part.label ++ queryText table layout part.indent part.parenthesized part.query

/-- Parts between brackets. -/
structure Frame where
  brackets : Brackets
  parts : List Part

/-- What stands before the part that follows `earlier`. -/
def Brackets.before (brackets : Brackets) (earlier : List String) : String :=
  brackets.opening ++ String.join (earlier.map (· ++ brackets.separator))

/-- What stands after the part that `later` follow. -/
def Brackets.after (brackets : Brackets) (later : List String) : String :=
  String.join (later.map (brackets.separator ++ ·)) ++ brackets.closing

/-- The brackets that `fit` chooses. -/
def fitted (layout : LineLayout) (items : List String) (line broken : Brackets) : Brackets :=
  if items.isEmpty || (line.around items).length ≤ layout.maxLength then line else broken

/-- Parts with commas between them. -/
def listFrame (table : OperatorTable) (layout : LineLayout) (indent : String) (line : Brackets)
    (opening closing : String) (parts : List Part) : Frame :=
  { brackets := fitted layout (parts.map (Part.text table layout)) line
      (itemBrackets opening closing layout indent)
    parts := parts }

/-- Parts with an operator between them. -/
def infixFrame (table : OperatorTable) (layout : LineLayout) (indent symbol : String)
    (parenthesized : Bool) (parts : List Part) : Frame :=
  let opening := if parenthesized then "(" else ""
  let closing := if parenthesized then ")" else ""
  { brackets := fitted layout (parts.map (Part.text table layout))
      ⟨opening, " " ++ symbol ++ " ", closing⟩
      ⟨opening, "\n" ++ deeper layout indent ++ symbol ++ " ", closing⟩
    parts := parts }

/-- The operands of an infix call. -/
def operandParts (table : OperatorTable) (indent name : String) : List Query → List Part
  | [] => []
  | first :: others =>
    ⟨"", indent, needsParentheses table name true first, first⟩ ::
      others.map fun other => ⟨"", indent, needsParentheses table name false other, other⟩

def itemParts (indent : String) (items : List Query) : List Part :=
  items.map fun item => ⟨"", indent, false, item⟩

def entryParts (indent : String) (entries : List (String × Query)) : List Part :=
  entries.map fun entry => ⟨keyText entry.1 ++ ": ", indent, false, entry.2⟩

def objectFrame (table : OperatorTable) (layout : LineLayout) (indent : String)
    (entries : List (String × Query)) : Frame :=
  listFrame table layout indent ⟨"\x7b ", ", ", " \x7d"⟩ "\x7b" "\x7d"
    (entryParts (deeper layout indent) entries)

/-- The parts of the text of a query, for each way to write one that has parts. -/
inductive Framed (table : OperatorTable) (layout : LineLayout) (indent : String)
    (parenthesized : Bool) : Query → Frame → Prop
  | mapping {entries : List (String × Query)} (hne : entries ≠ []) :
      Framed table layout indent parenthesized (.mapping entries)
        (objectFrame table layout indent entries)
  | object {entries : List (String × Query)} (hne : entries ≠ []) :
      Framed table layout indent parenthesized (.call "object" [.mapping entries])
        (objectFrame table layout indent entries)
  | array {items : List Query} :
      Framed table layout indent parenthesized (.call "array" items)
        (listFrame table layout indent ⟨"[", ", ", "]"⟩ "[" "]"
          (itemParts (deeper layout indent) items))
  | infixed {name symbol : String} {args : List Query} (hpath : pathKeys? name args = none)
      (harray : name ≠ "array") (hsymbol : symbolFor? table name args = some symbol) :
      Framed table layout indent parenthesized (.call name args)
        (infixFrame table layout indent symbol parenthesized
          (operandParts table (deeper layout indent) name args))
  | single {name : String} {arg : Query} (hobject : ¬ IsObject name [arg])
      (hpath : pathKeys? name [arg] = none) (harray : name ≠ "array") :
      Framed table layout indent parenthesized (.call name [arg])
        ⟨⟨functionName name ++ "(", "", ")"⟩, itemParts indent [arg]⟩
  | function {name : String} {args : List Query} (hpath : pathKeys? name args = none)
      (harray : name ≠ "array") (hsymbol : symbolFor? table name args = none)
      (hlength : args.length ≠ 1) :
      Framed table layout indent parenthesized (.call name args)
        (listFrame table layout indent ⟨functionName name ++ "(", ", ", ")"⟩
          (functionName name ++ "(") ")" (itemParts (deeper layout indent) args))

/-- The text of a query has an operand in parentheses, with `before` before them, `inner` in them
and `after` after them. -/
inductive Encloses (table : OperatorTable) (layout : LineLayout) :
    (indent : String) → (parenthesized : Bool) → Query → (before inner after : String) → Prop
  | operand {indent inner : String} {parenthesized : Bool} {query : Query} {frame : Frame}
      {earlier later : List Part} {part : Part}
      (hframe : Framed table layout indent parenthesized query frame)
      (hparts : frame.parts = earlier ++ part :: later) (hpart : part.parenthesized = true)
      (htext : part.text table layout = "(" ++ inner ++ ")") :
      Encloses table layout indent parenthesized query
        (frame.brackets.before (earlier.map (Part.text table layout))) inner
        (frame.brackets.after (later.map (Part.text table layout)))
  | inside {indent before inner after : String} {parenthesized : Bool} {query : Query}
      {frame : Frame} {earlier later : List Part} {part : Part}
      (hframe : Framed table layout indent parenthesized query frame)
      (hparts : frame.parts = earlier ++ part :: later)
      (h : Encloses table layout part.indent part.parenthesized part.query before inner after) :
      Encloses table layout indent parenthesized query
        (frame.brackets.before (earlier.map (Part.text table layout)) ++ part.label ++ before) inner
        (after ++ frame.brackets.after (later.map (Part.text table layout)))

variable {table : OperatorTable} {layout : LineLayout} {indent name symbol : String}
  {parenthesized : Bool} {query : Query} {args : List Query} {frame : Frame} {brackets : Brackets}

/-! ## The text of a frame -/

theorem fit_eq_around (layout : LineLayout) (items : List String) (line broken : Brackets) :
    fit layout items line broken = (fitted layout items line broken).around items := by
  unfold fit fitted
  split <;> rfl

theorem Brackets.around_append_cons (brackets : Brackets) (earlier later : List String)
    (item : String) :
    brackets.around (earlier ++ item :: later) =
      brackets.before earlier ++ item ++ brackets.after later := by
  have hlater (item : String) : brackets.separator.intercalate (item :: later) =
      item ++ String.join (later.map (brackets.separator ++ ·)) := by
    induction later generalizing item with
    | nil => simp
    | cons next later ih =>
        rw [String.intercalate_cons_cons, ih]
        simp [String.append_assoc]
  have hearlier : brackets.separator.intercalate (earlier ++ item :: later) =
      String.join (earlier.map (· ++ brackets.separator)) ++
        (item ++ String.join (later.map (brackets.separator ++ ·))) := by
    induction earlier with
    | nil => simpa using hlater item
    | cons first earlier ih =>
        rw [List.cons_append, String.intercalate_cons_of_ne_nil (by simp), ih]
        simp [String.append_assoc]
  simp only [around, before, after, hearlier, String.append_assoc]

theorem text_itemParts (indent : String) (items : List Query) :
    (itemParts indent items).map (Part.text table layout) =
      items.map (queryText table layout indent false) := by
  simp [itemParts, Part.text, Function.comp_def]

theorem text_listFrame (line : Brackets) (opening closing : String) (parts : List Part) :
    listed layout indent line opening closing (parts.map (Part.text table layout)) =
      (listFrame table layout indent line opening closing parts).brackets.around
        (parts.map (Part.text table layout)) :=
  fit_eq_around _ _ _ _

theorem text_objectFrame {entries : List (String × Query)} (hne : entries ≠ []) :
    queryText table layout indent parenthesized (.mapping entries) =
      (objectFrame table layout indent entries).brackets.around
        ((objectFrame table layout indent entries).parts.map (Part.text table layout)) := by
  have htexts : (entryParts (deeper layout indent) entries).map (Part.text table layout) =
      entries.map fun entry => keyText entry.1 ++ ": " ++
        queryText table layout (deeper layout indent) false entry.2 := by
    simp [entryParts, Part.text, Function.comp_def]
  have hempty : entries.isEmpty = false := by simpa using hne
  have hframe := @text_listFrame table layout indent ⟨"\x7b ", ", ", " \x7d"⟩ "\x7b" "\x7d"
    (entryParts (deeper layout indent) entries)
  rw [htexts] at hframe
  rw [queryText, objectText, List.isEmpty_map, hempty, List.map_map]
  simpa [objectFrame, listFrame, htexts, Function.comp_def] using hframe

theorem text_infixFrame {first : Query} {others : List Query}
    (hpath : pathKeys? name (first :: others) = none) (harray : name ≠ "array")
    (hsymbol : symbolFor? table name (first :: others) = some symbol) :
    queryText table layout indent parenthesized (.call name (first :: others)) =
      (infixFrame table layout indent symbol parenthesized
        (operandParts table (deeper layout indent) name (first :: others))).brackets.around
        ((operandParts table (deeper layout indent) name (first :: others)).map
          (Part.text table layout)) := by
  have htexts : (operandParts table (deeper layout indent) name (first :: others)).map
      (Part.text table layout) =
        queryText table layout (deeper layout indent) (needsParentheses table name true first)
            first ::
          others.map fun other => queryText table layout (deeper layout indent)
            (needsParentheses table name false other) other := by
    simp [operandParts, Part.text, Function.comp_def]
  rw [queryText_infixCall hpath harray hsymbol, ← htexts]
  exact fit_eq_around _ _ _ _

/-- The text of a query is its parts between brackets. -/
theorem Framed.text_eq (h : Framed table layout indent parenthesized query frame) :
    queryText table layout indent parenthesized query =
      frame.brackets.around (frame.parts.map (Part.text table layout)) := by
  cases h with
  | mapping hne => exact text_objectFrame hne
  | object hne =>
      rw [queryText]
      exact text_objectFrame hne
  | array =>
      rw [queryText_array, ← text_itemParts]
      exact text_listFrame _ _ _ _
  | infixed hpath harray hsymbol =>
      obtain ⟨first, others, rfl⟩ := exists_cons_of_symbolFor? hsymbol
      exact text_infixFrame hpath harray hsymbol
  | single hobject hpath harray =>
      rw [queryText_single hobject hpath harray]
      simp [itemParts, Part.text, Brackets.around]
  | @function name args hpath harray hsymbol hlength =>
      have htext : queryText table layout indent parenthesized (.call name args) =
          functionText layout indent (functionName name)
            (args.map (queryText table layout (deeper layout indent) false)) := by
        rcases args with _ | ⟨first, _ | ⟨second, others⟩⟩
        · simp [queryText, harray]
        · exact absurd rfl hlength
        · exact queryText_functionForm hpath harray hsymbol
      rw [htext, ← text_itemParts]
      exact text_listFrame _ _ _ _

/-- The text with an operand in parentheses, as it is before, in and after them. -/
theorem Encloses.text_eq {before inner after : String}
    (h : Encloses table layout indent parenthesized query before inner after) :
    queryText table layout indent parenthesized query = before ++ "(" ++ inner ++ ")" ++ after := by
  induction h with
  | operand hframe hparts hpart htext =>
      rw [hframe.text_eq, hparts, List.map_append, List.map_cons, Brackets.around_append_cons,
        htext]
      simp only [String.append_assoc]
  | inside hframe hparts _ ih =>
      rw [hframe.text_eq, hparts, List.map_append, List.map_cons, Brackets.around_append_cons,
        Part.text, ih]
      simp only [String.append_assoc]

/-! ## Weights of parts -/

def Part.weight (table : OperatorTable) (part : Part) : Nat :=
  Printer.weight table part.query + part.parenthesized.toNat

/-- A part whose query is read from a text, behind a label that has no weight, and in parentheses
only if it has an operator. -/
structure Part.Proper (table : OperatorTable) (part : Part) : Prop where
  parsed : Parsed table part.query
  label : Smooth part.label.toList
  indent : BlankString part.indent
  operator : part.parenthesized = true → 0 < levelOf table part.query

/-- The weights of the brackets before the parts and between them; after them there is none. -/
structure Brackets.Weigh (brackets : Brackets) (opening separator : Nat) : Prop where
  opening : Weighs brackets.opening.toList opening
  separator : Weighs brackets.separator.toList separator
  closing : Weighs brackets.closing.toList 0

variable {opening separator : Nat} {parts earlier later : List Part}

theorem weighs_join {α : Type} {write : α → String} {count : α → Nat} {items : List α}
    (h : ∀ item ∈ items, Weighs (write item).toList (count item)) :
    Weighs (String.join (items.map write)).toList (items.map count).sum := by
  induction items with
  | nil => exact (smooth_of_blank blank_nil).weighs
  | cons item items ih =>
      have hitem := h item List.mem_cons_self
      have hitems := ih fun item hitem => h item (List.mem_cons_of_mem _ hitem)
      simpa using hitem.append hitems

theorem Brackets.Weigh.before (h : brackets.Weigh opening separator)
    (hearlier : ∀ part ∈ earlier, Weighs (part.text table layout).toList (part.weight table)) :
    Weighs (brackets.before (earlier.map (Part.text table layout))).toList
      (opening + (earlier.map fun part => part.weight table + separator).sum) := by
  rw [Brackets.before, String.toList_append, List.map_map]
  refine h.opening.append (weighs_join fun part hpart => ?_)
  rw [Function.comp_apply, String.toList_append]
  exact (hearlier part hpart).append h.separator

theorem Brackets.Weigh.after (h : brackets.Weigh opening separator)
    (hlater : ∀ part ∈ later, Weighs (part.text table layout).toList (part.weight table)) :
    Weighs (brackets.after (later.map (Part.text table layout))).toList
      (later.map fun part => part.weight table + separator).sum := by
  rw [Brackets.after, String.toList_append, List.map_map]
  refine (weighs_join fun part hpart => ?_).append h.closing
  rw [Function.comp_apply, String.toList_append, Nat.add_comm]
  exact h.separator.append (hlater part hpart)

theorem Brackets.Weigh.around (h : brackets.Weigh opening separator)
    (hparts : ∀ part ∈ parts, Weighs (part.text table layout).toList (part.weight table)) :
    Weighs (brackets.around (parts.map (Part.text table layout))).toList
      (opening + ((parts.map fun part => part.weight table + separator).sum - separator)) := by
  cases parts with
  | nil => simpa [Brackets.around] using h.opening.append h.closing
  | cons part parts =>
      have hafter := h.after fun part hpart => hparts part (List.mem_cons_of_mem _ hpart)
      have htext := (h.opening.append (hparts part List.mem_cons_self)).append hafter
      have haround := brackets.around_append_cons [] (parts.map (Part.text table layout))
        (part.text table layout)
      simp only [List.nil_append] at haround
      rw [List.map_cons, haround, List.map_cons, List.sum_cons]
      simp only [Brackets.before, List.map_nil, String.join_nil, String.append_empty,
        String.toList_append]
      convert htext using 1
      omega

theorem fitted_eq (layout : LineLayout) (items : List String) (line broken : Brackets) :
    fitted layout items line broken = line ∨ fitted layout items line broken = broken :=
  ite_eq_or_eq _ line broken

theorem fitted_weigh {line broken : Brackets} (items : List String)
    (hline : line.Weigh opening separator) (hbroken : broken.Weigh opening separator) :
    (fitted layout items line broken).Weigh opening separator := by
  rcases fitted_eq layout items line broken with h | h
  · rwa [h]
  · rwa [h]

theorem sum_weight_operandParts (name : String) (args : List Query) :
    ((operandParts table indent name args).map fun part => part.weight table + 0).sum =
      (args.map (weight table)).sum + groupings table name args := by
  cases args with
  | nil => rfl
  | cons first others =>
      have hothers : (others.map fun other =>
          weight table other + (needsParentheses table name false other).toNat).sum =
            (others.map (weight table)).sum +
              (others.map fun other => (needsParentheses table name false other).toNat).sum :=
        List.sum_map_add
      simp only [operandParts, Part.weight, List.map_cons, List.map_map, Function.comp_def,
        List.sum_cons, Nat.add_zero, groupings, hothers]
      omega

theorem sum_weight_itemParts (args : List Query) :
    ((itemParts indent args).map fun part => part.weight table + separator).sum =
      (args.map fun arg => weight table arg + separator).sum := by
  simp [itemParts, Part.weight, Function.comp_def]

theorem weigh_call (hname : isPlainName name = true) :
    Brackets.Weigh ⟨functionName name ++ "(", "", ")"⟩ 1 0 := by
  have hparenthesis : Weighs ("(" : String).toList 1 := ⟨_, rfl, rfl⟩
  have hempty : Weighs ("" : String).toList 0 := ⟨_, rfl, rfl⟩
  have hclosing : Weighs (")" : String).toList 0 := ⟨_, rfl, rfl⟩
  refine ⟨?_, hempty, hclosing⟩
  rw [functionName, if_neg (functionName_of_isPlainName hname), String.toList_append]
  simpa using (Parser.smooth_isPlainName hname).weighs.append hparenthesis

section

variable (hlayout : BlankString layout.indentation) (hindent : BlankString indent)
include hlayout hindent

theorem weigh_listFrame {line : Brackets} {opening closing : String} {weight : Nat}
    (hline : line.Weigh weight 2) (hopening : Weighs opening.toList weight)
    (hclosing : Weighs closing.toList 0) (parts : List Part) :
    (listFrame table layout indent line opening closing parts).brackets.Weigh weight 2 := by
  have hinner := smooth_of_blank (blankString_deeper hlayout hindent)
  have hnewline := smooth_of_blank blank_newline
  have hcomma : Weighs (",\n" : String).toList 2 := ⟨_, rfl, rfl⟩
  refine fitted_weigh _ hline ⟨?_, ?_, ?_⟩
  · simpa [itemBrackets] using hopening.append (hnewline.append hinner).weighs
  · simpa [itemBrackets] using hcomma.append hinner.weighs
  · simpa [itemBrackets] using (hnewline.append (smooth_of_blank hindent)).weighs.append hclosing

theorem weigh_objectFrame (entries : List (String × Query)) :
    (objectFrame table layout indent entries).brackets.Weigh 0 2 := by
  have hline : Brackets.Weigh ⟨"\x7b ", ", ", " \x7d"⟩ 0 2 :=
    ⟨⟨_, rfl, rfl⟩, ⟨_, rfl, rfl⟩, ⟨_, rfl, rfl⟩⟩
  have hopening : Weighs ("\x7b" : String).toList 0 := ⟨_, rfl, rfl⟩
  have hclosing : Weighs ("\x7d" : String).toList 0 := ⟨_, rfl, rfl⟩
  exact weigh_listFrame hlayout hindent hline hopening hclosing _

theorem weigh_arrayFrame (parts : List Part) :
    (listFrame table layout indent ⟨"[", ", ", "]"⟩ "[" "]" parts).brackets.Weigh 0 2 := by
  have hline : Brackets.Weigh ⟨"[", ", ", "]"⟩ 0 2 :=
    ⟨⟨_, rfl, rfl⟩, ⟨_, rfl, rfl⟩, ⟨_, rfl, rfl⟩⟩
  exact weigh_listFrame hlayout hindent hline hline.opening hline.closing parts

theorem weigh_functionFrame (hname : isPlainName name = true) (parts : List Part) :
    (listFrame table layout indent ⟨functionName name ++ "(", ", ", ")"⟩ (functionName name ++ "(")
      ")" parts).brackets.Weigh 1 2 := by
  have hcall := weigh_call hname
  have hcomma : Weighs (", " : String).toList 2 := ⟨_, rfl, rfl⟩
  have hline : Brackets.Weigh ⟨functionName name ++ "(", ", ", ")"⟩ 1 2 :=
    ⟨hcall.opening, hcomma, hcall.closing⟩
  exact weigh_listFrame hlayout hindent hline hline.opening hline.closing parts

theorem weigh_infixFrame (hsymbol : Smooth symbol.toList) (parenthesized : Bool)
    (parts : List Part) :
    (infixFrame table layout indent symbol parenthesized parts).brackets.Weigh
      parenthesized.toNat 0 := by
  have hspace := smooth_of_blank blank_space
  have hinner := smooth_of_blank (blankString_deeper hlayout hindent)
  have hnewline := smooth_of_blank blank_newline
  have hopening :
      Weighs (if parenthesized then "(" else "" : String).toList parenthesized.toNat := by
    cases parenthesized
    · exact ⟨_, rfl, rfl⟩
    · exact ⟨_, rfl, rfl⟩
  have hclosing : Weighs (if parenthesized then ")" else "" : String).toList 0 := by
    cases parenthesized
    · exact ⟨_, rfl, rfl⟩
    · exact ⟨_, rfl, rfl⟩
  refine fitted_weigh _ ⟨hopening, ?_, hclosing⟩ ⟨hopening, ?_, hclosing⟩
  · simpa using (hspace.append (hsymbol.append hspace)).weighs
  · simpa using (hnewline.append (hinner.append (hsymbol.append hspace))).weighs

end

/-! ## Texts of parsed queries -/

theorem Framed.eq_objectFrame {entries : List (String × Query)}
    (h : Framed table layout indent parenthesized (.call "object" [.mapping entries]) frame) :
    frame = objectFrame table layout indent entries := by
  generalize hquery : Query.call "object" [.mapping entries] = query at h
  cases h with
  | mapping => cases hquery
  | object =>
      cases hquery
      rfl
  | array => simp at hquery
  | infixed _ _ hsymbol =>
      cases hquery
      exact absurd ⟨rfl, entries, rfl⟩ (not_isObject_of_symbolFor? hsymbol)
  | single hobject =>
      cases hquery
      exact absurd ⟨rfl, entries, rfl⟩ hobject
  | function _ _ _ hlength =>
      cases hquery
      exact absurd rfl hlength

/-- A parsed query has parts, or it is a literal, a path or an object without entries. -/
theorem exists_framed (hlegible : Legible table) (h : Parsed table query) :
    (Weighs (queryText table layout indent parenthesized query).toList 0 ∧ weight table query = 0 ∧
        levelOf table query = 0) ∨
      ∃ frame, Framed table layout indent parenthesized query frame := by
  cases h with
  | @literal value h =>
      obtain ⟨value', hvalue'⟩ := @exists_literalText value
        (by rintro items rfl; exact h) (by rintro members rfl; exact h)
      refine .inl ⟨?_, by simp [weight], rfl⟩
      rw [queryText]
      exact (Parser.smooth_literalText (hvalue' layout indent)).weighs
  | @object entries =>
      by_cases hne : entries = []
      · subst hne
        have hbraces : Weighs ("\x7b\x7d" : String).toList 0 := ⟨_, rfl, rfl⟩
        refine .inl ⟨?_, by simp [weight_object, weight_mapping],
          levelOf_constructor hlegible (.inr (.inr rfl))⟩
        simpa [queryText, objectText] using hbraces
      · exact .inr ⟨_, .object hne⟩
  | @call name args _ hargs =>
      have hobject := @not_isObject_of_parsed table name args hargs
      cases hpath : pathKeys? name args with
      | some keys =>
          obtain ⟨piece, htext, hpiece⟩ := pathText_join (ne_nil_of_pathKeys? hpath)
          have hname := (mapM_segmentKey?_of_pathKeys? hpath).1
          refine .inl ⟨?_, weight_path hobject hpath, levelOf_constructor hlegible (.inl hname)⟩
          rw [queryText_path hobject hpath, htext]
          exact (Parser.smooth_point.append (Parser.smooth_pathText hpiece)).weighs
      | none =>
          by_cases harray : name = "array"
          · subst harray
            exact .inr ⟨_, .array⟩
          cases hsymbol : symbolFor? table name args with
          | some symbol => exact .inr ⟨_, .infixed hpath harray hsymbol⟩
          | none =>
              by_cases hlength : args.length = 1
              · obtain ⟨arg, rfl⟩ := List.length_eq_one_iff.1 hlength
                exact .inr ⟨_, .single hobject hpath harray⟩
              · exact .inr ⟨_, .function hpath harray hsymbol hlength⟩

section

variable (hlayout : BlankString layout.indentation) (hindent : BlankString indent)
include hlayout hindent

/-- The parts of a parsed query are parsed, and lower than it. -/
theorem Framed.proper (h : Framed table layout indent parenthesized query frame)
    (hparsed : Parsed table query) :
    ∀ part ∈ frame.parts, part.Proper table ∧ part.query.height < query.height := by
  have hinner := blankString_deeper hlayout hindent
  have hblank : Smooth ("" : String).toList := smooth_of_blank Grammar.blank_nil
  have hitems {name : String} {args : List Query} {indent : String} (hindent : BlankString indent)
      (hargs : ∀ arg ∈ args, Parsed table arg) :
      ∀ part ∈ itemParts indent args,
        part.Proper table ∧ part.query.height < (Query.call name args).height := by
    intro part hpart
    obtain ⟨arg, harg, rfl⟩ := List.mem_map.1 hpart
    exact ⟨⟨hargs arg harg, hblank, hindent, nofun⟩, Query.height_lt_of_mem harg⟩
  cases hparsed with
  | literal => cases h
  | @object entries _ hentries =>
      obtain rfl := h.eq_objectFrame
      intro part hpart
      obtain ⟨entry, hentry, rfl⟩ := List.mem_map.1 hpart
      refine ⟨⟨hentries entry hentry, ?_, hinner, nofun⟩, Query.height_lt_of_mem_object hentry⟩
      have hlabel := Parser.smooth_label blank_nil (keyText_keyText entry.1) blank_nil blank_space
      simpa using hlabel
  | @call name args _ hargs =>
      cases h with
      | object => exact absurd ⟨rfl, _, rfl⟩ (not_isObject_of_parsed hargs)
      | array => exact hitems hinner hargs
      | infixed _ _ hsymbol =>
          obtain ⟨first, others, rfl⟩ := exists_cons_of_symbolFor? hsymbol
          have hoperand (isFirst : Bool) (arg : Query) (harg : arg ∈ first :: others) :
              Part.Proper table
                  ⟨"", deeper layout indent, needsParentheses table name isFirst arg, arg⟩ ∧
                arg.height < (Query.call name (first :: others)).height :=
            ⟨⟨hargs arg harg, hblank, hinner, levelOf_pos_of_needsParentheses⟩,
              Query.height_lt_of_mem harg⟩
          refine List.forall_mem_cons.2 ⟨hoperand true first List.mem_cons_self, ?_⟩
          rw [List.forall_mem_map]
          exact fun other hother => hoperand false other (List.mem_cons_of_mem _ hother)
      | single => exact hitems hindent hargs
      | function => exact hitems hinner hargs

/-- A parsed query weighs what its brackets and parts weigh. -/
theorem Framed.exists_weigh (hlegible : Legible table) (hflat : FlatSymbols table)
    (h : Framed table layout indent parenthesized query frame) (hparsed : Parsed table query)
    (hoperator : parenthesized = true → 0 < levelOf table query) :
    ∃ opening separator, frame.brackets.Weigh opening separator ∧
      weight table query + parenthesized.toNat = opening +
        ((frame.parts.map fun part => part.weight table + separator).sum - separator) := by
  have hflag (hlevel : levelOf table query = 0) : parenthesized = false := by
    cases parenthesized with
    | false => rfl
    | true => exact absurd hlevel (Nat.ne_of_gt (hoperator rfl))
  cases h with
  | mapping => cases hparsed
  | @object entries =>
      obtain rfl := hflag (levelOf_constructor hlegible (.inr (.inr rfl)))
      refine ⟨0, 2, weigh_objectFrame hlayout hindent entries, ?_⟩
      rw [weight_object, weight_mapping]
      simp [objectFrame, listFrame, entryParts, Part.weight, Function.comp_def]
  | @array items =>
      obtain rfl := hflag (levelOf_constructor hlegible (.inr (.inl rfl)))
      refine ⟨0, 2, weigh_arrayFrame hlayout hindent _, ?_⟩
      rw [weight_array hlegible]
      simp only [listFrame, sum_weight_itemParts, Bool.toNat_false, Nat.add_zero, Nat.zero_add]
  | @infixed name symbol args hpath harray hsymbol =>
      obtain ⟨level, group, hlevel, hgroup, hmem⟩ :=
        Parser.exists_group_of_symbol? (symbol?_of_symbolFor? hsymbol)
      refine ⟨_, 0, weigh_infixFrame hlayout hindent (hflat.smooth hgroup hmem) _ _, ?_⟩
      rw [weight_infixCall hpath hsymbol]
      simp only [infixFrame, sum_weight_operandParts]
      omega
  | @single name arg hobject hpath harray =>
      have hsymbol : symbolFor? table name [arg] = none := symbolFor?_of_length (by simp)
      obtain rfl := hflag (by simp [levelOf, hsymbol])
      cases hparsed with
      | object => exact absurd ⟨rfl, _, rfl⟩ hobject
      | call hname =>
          refine ⟨1, 0, weigh_call (hname hsymbol), ?_⟩
          rw [weight_function hobject hpath hsymbol, if_neg harray, sum_weight_itemParts]
          simp
  | @function name args hpath harray hsymbol hlength =>
      obtain rfl := hflag (by simp [levelOf, hsymbol])
      cases hparsed with
      | object => exact absurd rfl hlength
      | call hname hargs =>
          refine ⟨1, 2, weigh_functionFrame hlayout hindent (hname hsymbol) _, ?_⟩
          rw [weight_function (not_isObject_of_parsed hargs) hpath hsymbol, if_neg harray]
          simp only [listFrame, sum_weight_itemParts, Bool.toNat_false, Nat.add_zero]

end

section

variable (hlegible : Legible table) (hflat : FlatSymbols table)
  (hlayout : BlankString layout.indentation)
include hlegible hflat hlayout

/-- The text of a part weighs what its query does, and one more in parentheses. -/
theorem Part.Proper.weighs {part : Part} (h : part.Proper table) :
    Weighs (part.text table layout).toList (part.weight table) := by
  induction hheight : part.query.height using Nat.strong_induction_on generalizing part with
  | _ height ih =>
      subst hheight
      have htext : Weighs (queryText table layout part.indent part.parenthesized part.query).toList
          (part.weight table) := by
        rcases @exists_framed table layout part.indent part.parenthesized _ hlegible h.parsed with
          ⟨hweighs, hweight, hlevel⟩ | ⟨frame, hframe⟩
        · have hflag : part.parenthesized = false := by
            cases hflag : part.parenthesized with
            | false => rfl
            | true => exact absurd hlevel (Nat.ne_of_gt (h.operator hflag))
          simpa [Part.weight, hweight, hflag] using hweighs
        · obtain ⟨opening, separator, hbrackets, hweight⟩ :=
            hframe.exists_weigh hlayout h.indent hlegible hflat h.parsed h.operator
          rw [hframe.text_eq, Part.weight, hweight]
          refine hbrackets.around fun inner hinner => ?_
          obtain ⟨hproper, hlt⟩ := hframe.proper hlayout h.indent h.parsed inner hinner
          exact ih _ hlt hproper rfl
      rw [Part.text, String.toList_append]
      simpa using h.label.weighs.append htext

/-- A part is proper, and what stands before and after it has a weight. -/
theorem Framed.exists_weighs_sides {part : Part}
    (h : Framed table layout indent parenthesized query frame)
    (hparts : frame.parts = earlier ++ part :: later) (hparsed : Parsed table query)
    (hindent : BlankString indent) (hoperator : parenthesized = true → 0 < levelOf table query) :
    part.Proper table ∧
      (∃ n, Weighs (frame.brackets.before (earlier.map (Part.text table layout))).toList n) ∧
        ∃ n, Weighs (frame.brackets.after (later.map (Part.text table layout))).toList n := by
  have hproper (part : Part) (hpart : part ∈ frame.parts) : part.Proper table :=
    (h.proper hlayout hindent hparsed part hpart).1
  rw [hparts] at hproper
  obtain ⟨opening, separator, hbrackets, -⟩ :=
    h.exists_weigh hlayout hindent hlegible hflat hparsed hoperator
  refine ⟨hproper part (by simp), ⟨_, hbrackets.before fun part hpart => ?_⟩,
    _, hbrackets.after fun part hpart => ?_⟩
  · exact (hproper part (List.mem_append_left _ hpart)).weighs hlegible hflat hlayout
  · exact (hproper part (by simp [hpart])).weighs hlegible hflat hlayout

/-- What stands around and between the parentheses of an operand has a weight each. -/
theorem Encloses.exists_weighs {before inner after : String}
    (h : Encloses table layout indent parenthesized query before inner after)
    (hparsed : Parsed table query) (hindent : BlankString indent)
    (hoperator : parenthesized = true → 0 < levelOf table query) :
    ∃ a b c, Weighs before.toList a ∧ Weighs inner.toList b ∧ Weighs after.toList c := by
  induction h with
  | operand hframe hparts hpart htext =>
      obtain ⟨hproper, ⟨a, ha⟩, c, hc⟩ :=
        hframe.exists_weighs_sides hlegible hflat hlayout hparts hparsed hindent hoperator
      have hoperand := hproper.weighs hlegible hflat hlayout
      rw [htext] at hoperand
      obtain ⟨b, -, hb⟩ := Parser.exists_weighs_of_parentheses (by simpa using hoperand)
      exact ⟨a, b, c, ha, hb, hc⟩
  | inside hframe hparts _ ih =>
      obtain ⟨hproper, ⟨a, ha⟩, c, hc⟩ :=
        hframe.exists_weighs_sides hlegible hflat hlayout hparts hparsed hindent hoperator
      obtain ⟨a', b, c', ha', hb, hc'⟩ := ih hproper.parsed hproper.indent hproper.operator
      refine ⟨a + 0 + a', b, c' + c, ?_, hb, ?_⟩
      · rw [String.toList_append, String.toList_append]
        exact (ha.append hproper.label.weighs).append ha'
      · rw [String.toList_append]
        exact hc'.append hc

end

/-! ## Operands in parentheses -/

theorem exists_infixFrame_parenthesized (parts : List Part) :
    ∃ separator, (infixFrame table layout indent symbol true parts).brackets =
      ⟨"(", separator, ")"⟩ := by
  have hfitted := fitted_eq layout (parts.map (Part.text table layout))
    ⟨"(", " " ++ symbol ++ " ", ")"⟩ ⟨"(", "\n" ++ deeper layout indent ++ symbol ++ " ", ")"⟩
  rcases hfitted with h | h
  · exact ⟨_, h⟩
  · exact ⟨_, h⟩

theorem exists_text_parenthesized (hlegible : Legible table) (h : 0 < levelOf table query) :
    ∃ inner, queryText table layout indent true query = "(" ++ inner ++ ")" := by
  cases query with
  | literal value => simp [levelOf] at h
  | mapping entries => simp [levelOf] at h
  | call name args =>
      cases hsymbol : symbolFor? table name args with
      | none => simp [levelOf, hsymbol] at h
      | some symbol =>
          obtain ⟨-, hpath, harray⟩ :=
            @shape_of_symbol? table name symbol args hlegible (symbol?_of_symbolFor? hsymbol)
          have hframe : Framed table layout indent true (.call name args) _ :=
            .infixed hpath harray hsymbol
          obtain ⟨separator, hbrackets⟩ := @exists_infixFrame_parenthesized table layout indent
            symbol (operandParts table (deeper layout indent) name args)
          rw [hframe.text_eq, hbrackets]
          exact ⟨_, rfl⟩

/-- Every operand that is written in parentheses has a text with them, and one around them. -/
theorem Framed.exists_encloses (hlegible : Legible table)
    (h : Framed table layout indent parenthesized query frame) {part : Part}
    (hpart : part ∈ frame.parts) (hflag : part.parenthesized = true) :
    ∃ before inner after, Encloses table layout indent parenthesized query before inner after := by
  have htext : ∃ inner, part.text table layout = "(" ++ inner ++ ")" := by
    cases h with
    | mapping | object =>
        obtain ⟨entry, -, rfl⟩ := List.mem_map.1 hpart
        cases hflag
    | array | single | function =>
        obtain ⟨arg, -, rfl⟩ := List.mem_map.1 hpart
        cases hflag
    | @infixed name symbol args =>
        have hoperand (isFirst : Bool) (arg : Query)
            (hneeds : needsParentheses table name isFirst arg = true) :
            ∃ inner, Part.text table layout
              ⟨"", deeper layout indent, needsParentheses table name isFirst arg, arg⟩ =
                "(" ++ inner ++ ")" := by
          obtain ⟨inner, hinner⟩ := @exists_text_parenthesized table layout (deeper layout indent)
            arg hlegible (levelOf_pos_of_needsParentheses hneeds)
          exact ⟨inner, by simpa [Part.text, hneeds] using hinner⟩
        cases args with
        | nil => cases hpart
        | cons first others =>
            rcases List.mem_cons.1 hpart with rfl | hother
            · exact hoperand true first hflag
            · obtain ⟨other, -, rfl⟩ := List.mem_map.1 hother
              exact hoperand false other hflag
  obtain ⟨inner, htext⟩ := htext
  obtain ⟨earlier, later, hparts⟩ := List.append_of_mem hpart
  exact ⟨_, _, _, .operand h hparts hflag htext⟩

end Printer

/-- The parentheses around an operand are needed: the text without them is refused or is read as
another query. -/
theorem parse_without_parentheses_ne {layout : LineLayout} {limit : Nat} {query : Query}
    {before inner after : String} (hlayout : Grammar.Blank layout.indentation.toList)
    (hparse : parse .builtin limit (print .builtin layout query) = .ok query)
    (hencloses : Printer.Encloses .builtin layout "" false query before inner after) :
    print .builtin layout query = before ++ "(" ++ inner ++ ")" ++ after ∧
      ∀ limit', parse .builtin limit' (before ++ inner ++ after) ≠ .ok query := by
  have hlegible := Parser.separable_builtin.legible
  have hparsed := Printer.parsed_of_parse hlegible hparse
  have htext : print .builtin layout query = before ++ "(" ++ inner ++ ")" ++ after :=
    hencloses.text_eq
  refine ⟨htext, fun limit' hwithout => ?_⟩
  -- The text of the query weighs what the query does, and the parentheses are one of that.
  have hpart : Printer.Part.Proper .builtin ⟨"", "", false, query⟩ :=
    ⟨hparsed, Parser.smooth_of_blank Grammar.blank_nil, Grammar.blank_nil, nofun⟩
  have hwhole : Parser.Weighs (print .builtin layout query).toList
      (Printer.weight .builtin query) := by
    simpa [Printer.Part.text, Printer.Part.weight, print] using
      hpart.weighs hlegible Parser.flatSymbols_builtin hlayout
  obtain ⟨a, b, c, hbefore, hinner, hafter⟩ := hencloses.exists_weighs hlegible
    Parser.flatSymbols_builtin hlayout hparsed Grammar.blank_nil nofun
  have hpieces := (hbefore.append (Parser.weighs_parentheses hinner)).append hafter
  have hweight : a + (b + 1) + c = Printer.weight .builtin query := by
    rw [htext] at hwhole
    exact hpieces.unique (by simpa using hwhole)
  obtain ⟨n, hn, hle⟩ := weight_le_of_parse hwithout
  have hshort : a + b + c = n :=
    ((hbefore.append hinner).append hafter).unique (by simpa using hn)
  omega

/-- `.a * (true + .b) - null`, where the sum in parentheses is an operand of an operand. -/
theorem parse_without_parentheses_ne_product :
    let sum := Query.call "add" [.literal (.bool true), .get ["b"]]
    let query := Query.call "subtract" [.call "multiply" [.get ["a"], sum], .literal .null]
    Grammar.Blank ({} : LineLayout).indentation.toList ∧
      parse .builtin 5 (print .builtin {} query) = .ok query ∧
        Printer.Encloses .builtin {} "" false query ".a * " "true + .b" " - null" ∧
          print .builtin {} query = ".a * (true + .b) - null" ∧
            ∀ limit, parse .builtin limit ".a * true + .b - null" ≠ .ok query := by
  intro sum query
  have hlegible := Parser.separable_builtin.legible
  have hblank : Grammar.Blank ({} : LineLayout).indentation.toList := by
    simp [Grammar.Blank, Scan.isBlank]
  have hparse : parse .builtin 5 (print .builtin {} query) = .ok query := by
    have hsum : Printer.OperatorTree .builtin sum :=
      .call (by decide) (.inl rfl) (by simpa using ⟨.literal trivial, .path (by simp)⟩)
    have hproduct : Printer.OperatorTree .builtin (.call "multiply" [.get ["a"], sum]) :=
      .call (by decide) (.inl rfl) (by simpa using ⟨.path (by simp), hsum⟩)
    have hquery : Printer.OperatorTree .builtin query :=
      .call (by decide) (.inl rfl) (by simpa using ⟨hproduct, .literal trivial⟩)
    have hreading := Printer.reading_eq_plain_of_operatorTree hlegible hquery
    have hwritable := Printer.writable_of_operatorTree hlegible hquery
    have hheight : (Printer.reading .builtin query).height < 5 := by
      rw [hreading]
      simp [query, sum, Printer.plain, Query.height, Query.get]
    rw [parse_print hlegible hblank hwritable hheight, hreading]
    rfl
  have hproduct := @Printer.Encloses.operand .builtin {} (Printer.deeper {} "") "true + .b" false
    (.call "multiply" [.get ["a"], sum]) _ [⟨"", _, _, .get ["a"]⟩] []
    ⟨"", _, Printer.needsParentheses .builtin "multiply" false sum, sum⟩
    (.infixed rfl (by decide) rfl) rfl (by decide) (by decide +kernel)
  have hwhole := @Printer.Encloses.inside .builtin {} "" _ _ _ false query _ []
    [⟨"", _, _, .literal .null⟩]
    ⟨"", _, Printer.needsParentheses .builtin "subtract" true _, .call "multiply" [.get ["a"], sum]⟩
    (.infixed rfl (by decide) rfl) rfl hproduct
  have hencloses : Printer.Encloses .builtin {} "" false query ".a * " "true + .b" " - null" := by
    convert hwhole using 1
    · decide +kernel
    · decide +kernel
  exact ⟨hblank, hparse, hencloses, parse_without_parentheses_ne hblank hparse hencloses⟩

end PipeQuery
