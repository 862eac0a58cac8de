/-
Where lines are broken.  A list is judged by the text its pieces have already, broken or not, but a
piece that is broken is never shorter than in one line, so the whole is broken exactly where its
one-line form is too long.
-/
import PipeQuery.Proofs.Alike

namespace PipeQuery

namespace Printer

variable {table : OperatorTable} {layout : LineLayout} {indent name symbol text text' : String}
  {parenthesized : Bool} {args others : List Query} {first query : Query}

/-! ## Pieces between brackets -/

/-- The second brackets are nowhere shorter than the first. -/
structure Brackets.Widens (line broken : Brackets) : Prop where
  opening : line.opening.length ≤ broken.opening.length
  separator : line.separator.length ≤ broken.separator.length
  closing : line.closing.length ≤ broken.closing.length

theorem length_intercalate_le {separator separator' : String} {items items' : List String}
    (hseparator : separator.length ≤ separator'.length)
    (hitems : List.Forall₂ (fun item item' => item.length ≤ item'.length) items items') :
    (separator.intercalate items).length ≤ (separator'.intercalate items').length := by
  induction hitems with
  | nil => simp
  | cons hitem hitems ih =>
      cases hitems with
      | nil => simpa using hitem
      | cons hnext hitems =>
          simp only [String.intercalate_cons_cons, String.length_append] at ih ⊢
          omega

theorem length_le_intercalate {item separator : String} {items : List String}
    (hitem : item ∈ items) :
    item.length ≤ (separator.intercalate items).length := by
  induction items with
  | nil => cases hitem
  | cons head items ih =>
      cases items with
      | nil =>
          obtain rfl := List.mem_singleton.1 hitem
          simp
      | cons next items =>
          simp only [String.intercalate_cons_cons, String.length_append]
          rcases List.mem_cons.1 hitem with rfl | hitem
          · omega
          · have hlength := ih hitem
            omega

theorem Brackets.length_le_around (brackets : Brackets) {item : String} {items : List String}
    (hitem : item ∈ items) : item.length ≤ (brackets.around items).length := by
  have hlength := @length_le_intercalate _ brackets.separator _ hitem
  simp only [Brackets.around, String.length_append]
  omega

/-- Two texts in two parts each are equal only part by part, if no part of the one is longer. -/
theorem append_inj_of_length_le {front front' back back' : String}
    (h : front ++ back = front' ++ back') (hfront : front.length ≤ front'.length)
    (hback : back.length ≤ back'.length) :
    front = front' ∧ back = back' := by
  have hlength : front.length = front'.length := by
    have := congrArg String.length h
    simp only [String.length_append] at this
    omega
  have hlist := List.append_inj (by simpa using congrArg String.toList h) hlength
  exact ⟨String.toList_injective hlist.1, String.toList_injective hlist.2⟩

section

variable {line broken : Brackets} {items lines : List String}
  (hwidens : line.Widens broken)
  (hitems : List.Forall₂ (fun line item => line.length ≤ item.length) lines items)

include hwidens hitems

theorem length_around_le : (line.around lines).length ≤ (broken.around items).length := by
  have hinner := length_intercalate_le hwidens.separator hitems
  have hopening := hwidens.opening
  have hclosing := hwidens.closing
  simp only [Brackets.around, String.length_append]
  omega

/-- Different brackets show, a separator from the second item on. -/
theorem around_ne (hdiffers : line.opening ≠ broken.opening ∨
    2 ≤ lines.length ∧ line.separator ≠ broken.separator) :
    broken.around items ≠ line.around lines := by
  intro heq
  have hinner := length_intercalate_le hwidens.separator hitems
  simp only [Brackets.around, String.append_assoc] at heq
  obtain ⟨hopening, hrest⟩ := append_inj_of_length_le heq.symm hwidens.opening (by
    have hclosing := hwidens.closing
    simp only [String.length_append]
    omega)
  obtain ⟨hintercalate, -⟩ := append_inj_of_length_le hrest hinner hwidens.closing
  rcases hdiffers with hne | ⟨htwo, hne⟩
  · exact hne hopening
  · cases hitems with
    | nil => simp at htwo
    | cons hfirst hothers =>
        cases hothers with
        | nil => simp at htwo
        | cons hsecond hothers =>
            have htail := length_intercalate_le hwidens.separator (.cons hsecond hothers)
            simp only [String.intercalate_cons_cons, String.append_assoc] at hintercalate
            obtain ⟨-, hrest⟩ := append_inj_of_length_le hintercalate hfirst (by
              have hseparator := hwidens.separator
              simp only [String.length_append]
              omega)
            exact hne (append_inj_of_length_le hrest hwidens.separator htail).1

end

/-! ## Texts with a one-line form -/

/-- A way to write a text, in each layout and at each indentation, has `line` as its one-line form:
that is the text where it is short enough, and no other text is shorter. -/
structure OneLine (write : LineLayout → String → String) (line : String) : Prop where
  eq_line : ∀ layout indent, line.length ≤ layout.maxLength → write layout indent = line
  length_le : ∀ layout indent, line.length ≤ (write layout indent).length

/-- The one-line form is not written where it is too long. -/
def Breaks (write : LineLayout → String → String) (line : String) : Prop :=
  ∀ layout indent, layout.maxLength < line.length → write layout indent ≠ line

variable {write : LineLayout → String → String} {line : String}

theorem OneLine.const (text : String) : OneLine (fun _ _ => text) text :=
  ⟨fun _ _ _ => rfl, fun _ _ => le_refl _⟩

theorem OneLine.surround (before after : String) (h : OneLine write line) :
    OneLine (fun layout indent => before ++ write layout indent ++ after)
      (before ++ line ++ after) := by
  refine ⟨fun layout indent hfits => ?_, fun layout indent => ?_⟩
  · have hline : line.length ≤ layout.maxLength := by
      simp only [String.length_append] at hfits
      omega
    simp only [h.eq_line layout indent hline]
  · have hlength := h.length_le layout indent
    simp only [String.length_append]
    omega

section

variable {brackets : Brackets} {broken : LineLayout → String → Brackets}
  {writers : List (LineLayout → String → String)} {lines : List String}

/-- A list over pieces that are written one level further in. -/
def writeList (brackets : Brackets) (broken : LineLayout → String → Brackets)
    (writers : List (LineLayout → String → String)) (layout : LineLayout) (indent : String) :
    String :=
  fit layout (writers.map fun write => write layout (deeper layout indent)) brackets
    (broken layout indent)

variable (hwriters : List.Forall₂ OneLine writers lines)
  (hwidens : ∀ layout indent, brackets.Widens (broken layout indent))

include hwriters

theorem lengths_le (layout : LineLayout) (indent : String) :
    List.Forall₂ (fun line item => line.length ≤ item.length) lines
      (writers.map fun write => write layout indent) :=
  List.forall₂_map_right_iff.2 (hwriters.flip.imp fun _ _ h => h.length_le layout indent)

theorem map_writers_eq (layout : LineLayout) (indent : String)
    (hfits : ∀ line ∈ lines, line.length ≤ layout.maxLength) :
    (writers.map fun write => write layout indent) = lines := by
  induction hwriters with
  | nil => rfl
  | cons hwriter _ ih =>
      rw [List.map_cons, hwriter.eq_line layout indent (hfits _ List.mem_cons_self),
        ih fun line hline => hfits line (List.mem_cons_of_mem _ hline)]

include hwidens

theorem oneLine_writeList :
    OneLine (writeList brackets broken writers) (brackets.around lines) := by
  refine ⟨fun layout indent hfits => ?_, fun layout indent => ?_⟩
  · have hlines := map_writers_eq hwriters layout (deeper layout indent)
      fun line hline => (brackets.length_le_around hline).trans hfits
    rw [writeList, hlines, fit, if_pos (by simp [hfits])]
  · have hlengths := lengths_le hwriters layout (deeper layout indent)
    unfold writeList
    rcases fit_eq layout (writers.map fun write => write layout (deeper layout indent)) brackets
      (broken layout indent) with h | h
    · rw [h]
      exact length_around_le ⟨le_refl _, le_refl _, le_refl _⟩ hlengths
    · rw [h]
      exact length_around_le (hwidens layout indent) hlengths

/-- The pieces as they are written make the list longer still, so that the broken form is taken. -/
theorem breaks_writeList (hne : writers ≠ []) (hdiffers : ∀ layout indent,
    brackets.opening ≠ (broken layout indent).opening ∨
      2 ≤ writers.length ∧ brackets.separator ≠ (broken layout indent).separator) :
    Breaks (writeList brackets broken writers) (brackets.around lines) := by
  intro layout indent hlong
  have hlengths := lengths_le hwriters layout (deeper layout indent)
  have hitems : layout.maxLength <
      (brackets.around (writers.map fun write => write layout (deeper layout indent))).length :=
    hlong.trans_le (length_around_le ⟨le_refl _, le_refl _, le_refl _⟩ hlengths)
  rw [writeList, fit, if_neg (by simpa [hne] using hitems)]
  exact around_ne (hwidens layout indent) hlengths (hwriters.length_eq ▸ hdiffers layout indent)

end

/-! ## Arrays, objects and calls -/

/-- There is a one-line form, and where it is too long it is not written, if the text may break. -/
def HasLine (write : LineLayout → String → String) (mayBreak : Prop) : Prop :=
  ∃ line, OneLine write line ∧ (mayBreak → Breaks write line)

theorem HasLine.const (text : String) {mayBreak : Prop} (h : ¬ mayBreak) :
    HasLine (fun _ _ => text) mayBreak :=
  ⟨text, .const text, fun hbreak => absurd hbreak h⟩

theorem HasLine.imp {mayBreak mayBreak' : Prop} (h : HasLine write mayBreak)
    (himp : mayBreak' → mayBreak) : HasLine write mayBreak' := by
  obtain ⟨line, hline, hbreaks⟩ := h
  exact ⟨line, hline, fun hbreak => hbreaks (himp hbreak)⟩

/-- What stands between texts that are not broken themselves is no list. -/
theorem HasLine.surround (before after : String) {mayBreak : Prop} (h : HasLine write mayBreak) :
    HasLine (fun layout indent => before ++ write layout indent ++ after) False := by
  obtain ⟨line, hline, -⟩ := h
  exact ⟨before ++ line ++ after, hline.surround before after, False.elim⟩

theorem exists_lines {writers : List (LineLayout → String → String)}
    (h : ∀ write ∈ writers, ∃ mayBreak, HasLine write mayBreak) :
    ∃ lines, List.Forall₂ OneLine writers lines := by
  induction writers with
  | nil => exact ⟨[], .nil⟩
  | cons write writers ih =>
      obtain ⟨_, line, hline, -⟩ := h write List.mem_cons_self
      obtain ⟨lines, hlines⟩ := ih fun write hwrite => h write (List.mem_cons_of_mem _ hwrite)
      exact ⟨line :: lines, .cons hline hlines⟩

theorem hasLine_writeList {brackets : Brackets} {broken : LineLayout → String → Brackets}
    {writers : List (LineLayout → String → String)}
    (hwriters : ∀ write ∈ writers, ∃ mayBreak, HasLine write mayBreak)
    (hwidens : ∀ layout indent, brackets.Widens (broken layout indent))
    (hdiffers : writers ≠ [] → ∀ layout indent,
      brackets.opening ≠ (broken layout indent).opening ∨
        2 ≤ writers.length ∧ brackets.separator ≠ (broken layout indent).separator) :
    HasLine (writeList brackets broken writers) (writers ≠ []) := by
  obtain ⟨lines, hlines⟩ := exists_lines hwriters
  exact ⟨brackets.around lines, oneLine_writeList hlines hwidens,
    fun hne => breaks_writeList hlines hwidens hne (hdiffers hne)⟩

/-- The brackets of a list that is broken to one item a line. -/
def itemBrackets (opening closing : String) (layout : LineLayout) (indent : String) : Brackets :=
  ⟨opening ++ "\n" ++ deeper layout indent, ",\n" ++ deeper layout indent,
    "\n" ++ indent ++ closing⟩

/-- The opening bracket shows whether a list with one item a line is broken. -/
theorem hasLine_listed {opening closing opening' closing' : String}
    {writers : List (LineLayout → String → String)}
    (hwriters : ∀ write ∈ writers, ∃ mayBreak, HasLine write mayBreak)
    (hopening : opening.length ≤ opening'.length + 1)
    (hclosing : closing.length ≤ closing'.length + 1)
    (hne : ∀ inner, opening ≠ opening' ++ "\n" ++ inner) :
    HasLine (writeList ⟨opening, ", ", closing⟩ (itemBrackets opening' closing') writers)
      (writers ≠ []) := by
  refine hasLine_writeList hwriters (fun layout indent => ⟨?_, ?_, ?_⟩)
    fun _ layout indent => .inl (hne _)
  · have hnewline : ("\n" : String).length = 1 := rfl
    simp only [itemBrackets, String.length_append]
    omega
  · have hcomma : (", " : String).length = 2 := rfl
    have hbroken : (",\n" : String).length = 2 := rfl
    simp only [itemBrackets, String.length_append]
    omega
  · have hnewline : ("\n" : String).length = 1 := rfl
    simp only [itemBrackets, String.length_append]
    omega

variable {α : Type} {write : α → LineLayout → String → String} {items : List α}

theorem ne_append_newline (opening inner : String) : opening ≠ opening ++ "\n" ++ inner := by
  intro heq
  have hlength := congrArg String.length heq
  have hnewline : ("\n" : String).length = 1 := rfl
  simp only [String.length_append] at hlength
  omega

theorem hasLine_arrayText (h : ∀ item ∈ items, ∃ mayBreak, HasLine (write item) mayBreak) :
    HasLine (fun layout indent =>
      arrayText layout indent (items.map fun item => write item layout (deeper layout indent)))
      (items ≠ []) := by
  have hlist := @hasLine_listed "[" "]" "[" "]" (items.map write) (List.forall_mem_map.2 h)
    (by simp) (by simp) (ne_append_newline "[")
  convert hlist using 1
  · funext layout indent
    simp [arrayText, listed, writeList, itemBrackets, Function.comp_def]
  · simp

theorem hasLine_functionText (name : String)
    (h : ∀ item ∈ items, ∃ mayBreak, HasLine (write item) mayBreak) :
    HasLine (fun layout indent =>
      functionText layout indent name
        (items.map fun item => write item layout (deeper layout indent)))
      (items ≠ []) := by
  have hlist := @hasLine_listed (name ++ "(") ")" (name ++ "(") ")" (items.map write)
    (List.forall_mem_map.2 h) (by simp) (by simp) (ne_append_newline (name ++ "("))
  convert hlist using 1
  · funext layout indent
    simp [functionText, listed, writeList, itemBrackets, Function.comp_def]
  · simp

theorem hasLine_objectText {key : α → String}
    (h : ∀ item ∈ items, ∃ mayBreak, HasLine (write item) mayBreak) :
    HasLine (fun layout indent =>
      objectText layout indent
        (items.map fun item => (key item, write item layout (deeper layout indent))))
      (items ≠ []) := by
  by_cases hempty : items = []
  · subst hempty
    exact .const "\x7b\x7d" (by simp)
  · have hentries : ∀ item ∈ items, ∃ mayBreak, HasLine (fun layout indent =>
        keyText (key item) ++ ": " ++ write item layout indent ++ "") mayBreak := by
      intro item hitem
      obtain ⟨mayBreak, hline⟩ := h item hitem
      exact ⟨False, hline.surround (keyText (key item) ++ ": ") ""⟩
    have hlist := @hasLine_listed "\x7b " " \x7d" "\x7b" "\x7d"
      (items.map fun item layout indent =>
        keyText (key item) ++ ": " ++ write item layout indent ++ "")
      (List.forall_mem_map.2 hentries) (by decide) (by decide) fun inner heq => by
        simpa using congrArg String.toList heq
    convert hlist using 1
    · funext layout indent
      simp [objectText, hempty, listed, writeList, itemBrackets, Function.comp_def]
    · simp

theorem hasLine_infixText {first : LineLayout → String → String}
    {others : List (LineLayout → String → String)} (symbol : String) (parenthesized : Bool)
    (hfirst : ∃ mayBreak, HasLine first mayBreak)
    (hothers : ∀ other ∈ others, ∃ mayBreak, HasLine other mayBreak) (hne : others ≠ []) :
    HasLine (fun layout indent =>
      infixText layout indent symbol parenthesized (first layout (deeper layout indent) ::
        others.map fun write => write layout (deeper layout indent))) True := by
  have hlist := @hasLine_writeList
    ⟨if parenthesized then "(" else "", " " ++ symbol ++ " ", if parenthesized then ")" else ""⟩
    (fun layout indent => ⟨if parenthesized then "(" else "",
      "\n" ++ deeper layout indent ++ symbol ++ " ", if parenthesized then ")" else ""⟩)
    (first :: others) (List.forall_mem_cons.2 ⟨hfirst, hothers⟩)
    (fun layout indent => ⟨le_refl _, ?_, le_refl _⟩) fun _ layout indent => .inr ⟨?_, ?_⟩
  · exact hlist.imp fun _ => by simp
  · have hspace : (" " : String).length = 1 := rfl
    have hnewline : ("\n" : String).length = 1 := rfl
    simp only [String.length_append]
    omega
  · have hlength := List.length_pos_iff.2 hne
    simp only [List.length_cons]
    omega
  · intro heq
    simpa using congrArg String.toList heq

/-! ## Queries -/

/-- The query is written as a list that can be broken: an array or an object with something in it,
or a call of two or more arguments in either form. -/
def MayBreak : Query → Prop
  | .literal (.arr items) => items ≠ []
  | .literal (.obj members) => members ≠ []
  | .literal _ => False
  | .mapping entries => entries ≠ []
  | .call name args =>
    (∃ entries, name = "object" ∧ args = [.mapping entries] ∧ entries ≠ []) ∨
      (name = "array" ∧ args ≠ []) ∨ (pathText? name args = none ∧ 2 ≤ args.length)

theorem hasLine_literalText (value : Value) :
    HasLine (fun layout indent => literalText layout indent value) (MayBreak (.literal value)) := by
  induction value using literalReading.induct with
  | case1 items ih =>
      simp only [literalText]
      exact hasLine_arrayText fun item hitem => ⟨_, ih item hitem⟩
  | case2 members ih =>
      simp only [literalText]
      exact hasLine_objectText fun member hmember => ⟨_, ih member hmember⟩
  | case3 value harr hobj =>
      have hscalar (layout : LineLayout) (indent : String) :
          literalText layout indent value = value.render false := by
        rw [literalText]
        · exact harr
        · exact hobj
      simp only [hscalar]
      refine .const _ fun hbreak => ?_
      unfold MayBreak at hbreak
      split at hbreak
      · rename_i items heq
        exact harr items (Query.literal.inj heq)
      · rename_i members heq
        exact hobj members (Query.literal.inj heq)
      · exact hbreak
      all_goals contradiction

theorem hasLine_call (hobject : ¬ IsObject name args) (parenthesized : Bool)
    (hargs : ∀ arg ∈ args, ∀ parenthesized, ∃ mayBreak,
      HasLine (fun layout indent => queryText table layout indent parenthesized arg) mayBreak) :
    HasLine (fun layout indent => queryText table layout indent parenthesized (.call name args))
      (MayBreak (.call name args)) := by
  by_cases harray : name = "array"
  · subst harray
    simp only [queryText_array]
    refine (hasLine_arrayText fun arg harg => hargs arg harg false).imp ?_
    rintro (⟨entries, hname, -⟩ | ⟨-, hne⟩ | ⟨-, hmany⟩)
    · exact absurd hname (by decide)
    · exact hne
    · exact fun hnil => by simp [hnil] at hmany
  cases hpath : pathKeys? name args with
  | some keys =>
      simp only [queryText_path hobject hpath]
      refine .const _ ?_
      rintro (⟨entries, hname, hargs, -⟩ | ⟨hname, -⟩ | ⟨hnone, -⟩)
      · exact hobject ⟨hname, entries, hargs⟩
      · exact harray hname
      · simp [pathText?_eq, hpath] at hnone
  | none =>
      cases hsymbol : symbolFor? table name args with
      | some symbol =>
          obtain ⟨first, others, rfl⟩ := exists_cons_of_symbolFor? hsymbol
          simp only [queryText_infixCall hpath harray hsymbol]
          have hinfix := @hasLine_infixText
            (fun layout indent =>
              queryText table layout indent (needsParentheses table name true first) first)
            (others.map fun other layout indent =>
              queryText table layout indent (needsParentheses table name false other) other)
            symbol parenthesized (hargs first List.mem_cons_self _)
            (List.forall_mem_map.2 fun other hother =>
              hargs other (List.mem_cons_of_mem _ hother) _)
            (by simpa using ne_nil_of_symbolFor? hsymbol)
          simpa [Function.comp_def] using hinfix.imp fun _ => trivial
      | none =>
          have hsingle (hshort : args.length ≤ 1) : ¬ MayBreak (.call name args) := by
            rintro (⟨entries, hname, hargs, -⟩ | ⟨hname, -⟩ | ⟨-, hmany⟩)
            · exact hobject ⟨hname, entries, hargs⟩
            · exact harray hname
            · omega
          rcases args with _ | ⟨first, _ | ⟨second, others⟩⟩
          · simp only [queryText, if_neg harray, functionText, listed, fit]
            exact .const _ (hsingle (by simp))
          · obtain ⟨mayBreak, harg⟩ := hargs first List.mem_cons_self false
            simp only [queryText_single hobject hpath harray]
            exact (harg.surround (functionName name ++ "(") ")").imp (hsingle (by simp))
          · simp only [queryText_functionForm hpath harray hsymbol]
            exact (hasLine_functionText (functionName name) fun arg harg =>
              hargs arg harg false).imp fun _ => by simp

theorem hasLine_queryText (query : Query) :
    ∀ parenthesized,
      HasLine (fun layout indent => queryText table layout indent parenthesized query)
        (MayBreak query) := by
  induction query using Query.finite.induct with
  | case1 value =>
      intro parenthesized
      simpa only [queryText] using hasLine_literalText value
  | case2 name args ih =>
      intro parenthesized
      by_cases hobject : IsObject name args
      · obtain ⟨rfl, entries, rfl⟩ := hobject
        have hmapping := ih (.mapping entries) List.mem_cons_self false
        simp only [queryText] at hmapping ⊢
        refine hmapping.imp ?_
        rintro (⟨entries', -, hentries, hne⟩ | ⟨hname, -⟩ | ⟨-, hmany⟩)
        · cases hentries
          exact hne
        · exact absurd hname (by decide)
        · simp at hmany
      · exact hasLine_call hobject parenthesized fun arg harg parenthesized =>
          ⟨_, ih arg harg parenthesized⟩
  | case3 entries ih =>
      intro parenthesized
      simp only [queryText]
      exact hasLine_objectText fun entry hentry => ⟨_, ih entry hentry false⟩

end Printer

/-- The text of a query is its one-line form wherever that is no longer than the limit, and where it
is longer the text of a list is broken. -/
theorem print_breaks_lines (table : OperatorTable) (layout : LineLayout) (query : Query) :
    ∃ line : String,
      (∃ enough, ∀ maxLength ≥ enough, print table { layout with maxLength } query = line) ∧
      (line.length ≤ layout.maxLength → print table layout query = line) ∧
      (layout.maxLength < line.length → Printer.MayBreak query →
        print table layout query ≠ line) := by
  obtain ⟨line, hline, hbreaks⟩ := @Printer.hasLine_queryText table query false
  refine ⟨line, ⟨line.length, fun maxLength hlength => ?_⟩, ?_, ?_⟩
  · exact hline.eq_line { layout with maxLength } "" hlength
  · exact hline.eq_line layout ""
  · exact fun hlong hmay => hbreaks hmay layout "" hlong

end PipeQuery
