/-
Documents that are written and read back.

A reader gives documents of a kind: their integers have 64 bits, their floats are finite, their
keys are distinct, and no more than so many containers are open at once.  Exactly these are read
back from their text, whatever the text escapes and wherever its lines are broken.
-/
import PipeQuery.Json.Reader
import PipeQuery.Proofs.Heights
import PipeQuery.Proofs.Printing

namespace PipeQuery

namespace EscapeStyle

theorem faithful_interchange : interchange.Faithful where
  named {c letter} h := by
    have hnamed : ∀ entry ∈ interchange.named, Quoted.named? entry.2 = some entry.1 := by decide
    obtain ⟨before, after, heq, _⟩ := List.lookup_eq_some_iff.1 h
    exact hnamed (c, letter) (by simp [heq])
  quote := by decide
  backslash := by decide
  control h := by simp [interchange, h]
  numbered {c} h := by
    simp only [interchange, decide_eq_true_eq, UInt32.lt_iff_toNat_lt] at h
    have : c.toNat = c.val.toNat := rfl
    simp at h
    omega

end EscapeStyle

namespace Json

open Grammar
open Scan (skipBlanks Ends isNumeralChar)
open PipeQuery.Parser (Opens enclosed closed)
open scoped Power

variable {α : Type} {text rest piece before between after blanks : List Char} {nesting : Nat}
  {json : Json} {element : Reader}

/-- How many containers are open at once. -/
def depth : Json → Nat
  | arr items => (items.map depth).foldl max 0 + 1
  | obj members => (members.map fun member => depth member.2).foldl max 0 + 1
  | _ => 0
termination_by json => sizeOf json
decreasing_by
  · have := List.sizeOf_lt_of_mem ‹_›
    simp only [arr.sizeOf_spec]
    omega
  · have := Entries.sizeOf_snd_lt ‹_›
    simp only [obj.sizeOf_spec]
    omega

theorem depth_arr_le_iff {items : List Json} :
    depth (.arr items) ≤ nesting + 1 ↔ ∀ item ∈ items, item.depth ≤ nesting := by
  rw [depth, Nat.succ_le_succ_iff, Parser.foldl_max_le, List.forall_mem_map]
  exact and_iff_right (Nat.zero_le nesting)

theorem depth_obj_le_iff {members : List (String × Json)} :
    depth (.obj members) ≤ nesting + 1 ↔ ∀ member ∈ members, member.2.depth ≤ nesting := by
  rw [depth, Nat.succ_le_succ_iff, Parser.foldl_max_le, List.forall_mem_map]
  exact and_iff_right (Nat.zero_le nesting)

/-- Integers have 64 bits, with a sign or without, floats are finite, and keys are distinct. -/
inductive Readable : Json → Prop
  | null : Readable .null
  | bool (b : Bool) : Readable (.bool b)
  | int {n : Int} (h : -2 ^ (63 : Nat) ≤ n ∧ n < 2 ^ (64 : Nat)) : Readable (.int n)
  | float {x : Float} (h : x.isFinite = true) : Readable (.float x)
  | str (s : String) : Readable (.str s)
  | arr {items : List Json} (h : ∀ item ∈ items, Readable item) : Readable (.arr items)
  | obj {members : List (String × Json)} (hdistinct : Entries.Distinct members)
      (h : ∀ member ∈ members, Readable member.2) : Readable (.obj members)

/-! ## Scalars -/

/-- The result is `value`, and `rest` is left of the text. -/
def Takes (result : Option (Taken α text)) (value : α) (rest : List Char) : Prop :=
  ∃ shorter, result = some ⟨value, rest, shorter⟩

theorem takes_keyword (word : Option Bool) (rest : List Char) :
    Takes (scalar? (Scan.keywordText word ++ rest))
      (match word with | some b => .bool b | none => .null) rest := by
  obtain ⟨shorter, hword⟩ := Scan.keyword?_append word rest
  exact ⟨shorter, by cases word <;> simp [scalar?, hword, Taken.map]⟩

theorem takes_numeral {numeral : Numeral} (h : Scan.NumeralText numeral piece)
    (hjson : ofNumeral? numeral = some json) (hrest : Ends isNumeralChar rest) :
    Takes (scalar? (piece ++ rest)) json rest := by
  obtain ⟨c, more, hlist, hc⟩ := Parser.exists_head_of_numeralText h
  have hword : c ∉ ['t', 'f', 'n'] := by
    rintro hmem
    rcases hc with rfl | hc
    · exact absurd hmem (by decide)
    · simp only [List.mem_cons, List.not_mem_nil, or_false] at hmem
      rcases hmem with rfl | rfl | rfl <;> exact absurd hc (by decide)
  have hkeyword := Scan.keyword?_eq_none (congrArg (· ++ rest) hlist) hword
  obtain ⟨shorter, hnumeral⟩ := Scan.numeral?_append h hrest
  exact ⟨shorter, by simp [scalar?, hkeyword, hnumeral, hjson, Taken.map]⟩

theorem takes_string {s : String} (h : StringLiteral piece s) (rest : List Char) :
    Takes (scalar? (piece ++ rest)) (.str s) rest := by
  obtain ⟨shorter, hstring⟩ := Scan.string_append h rest
  obtain ⟨body, rfl, _⟩ := h
  have hkeyword := @Scan.keyword?_eq_none _ ('"' :: body ++ ['"'] ++ rest) _ rfl (by decide)
  have hnumeral : Scan.numeral? ('"' :: body ++ ['"'] ++ rest) = none :=
    Scan.numeral?_eq_none (Parser.ends_cons (by decide) _) (by simp)
  exact ⟨shorter, by simp only [scalar?, hkeyword, hnumeral, hstring, Taken.map]⟩

theorem scalar?_eq_none_of_bracket {c : Char} (h : c = '[' ∨ c = '\x7b') (rest : List Char) :
    scalar? (c :: rest) = none := by
  have hkeyword := @Scan.keyword?_eq_none rest (c :: rest) c rfl
    (by rcases h with rfl | rfl <;> decide)
  have hnumeral : Scan.numeral? (c :: rest) = none := by
    apply Scan.numeral?_eq_none (Parser.ends_cons (by rcases h with rfl | rfl <;> decide) rest)
    rcases h with rfl | rfl <;> simp
  have hstring : Scan.string (c :: rest) = .absent := by
    apply Scan.string_of_head_ne
    rcases h with rfl | rfl <;> simp
  simp only [scalar?, hkeyword, hnumeral, hstring]

theorem ofNumeral?_of_integral {numeral : Numeral} (hintegral : numeral.isIntegral = true)
    (hsign : (numeral.negative && numeral.toInt == 0) = false)
    (h : -2 ^ (63 : Nat) ≤ numeral.toInt ∧ numeral.toInt < 2 ^ (64 : Nat)) :
    ofNumeral? numeral = some (.int numeral.toInt) := by
  simp only [ofNumeral?, hintegral, hsign, decide_eq_true h, Bool.not_false, Bool.and_self, if_true]

theorem ofNumeral?_of_real {numeral : Numeral} (hreal : numeral.isIntegral = false)
    (h : numeral.toFloat.isFinite = true) : ofNumeral? numeral = some (.float numeral.toFloat) := by
  simp only [ofNumeral?, hreal, h, Bool.false_and, Bool.false_eq_true, if_false, if_true]

/-! ## Containers -/

/-- The document is read from the piece, where nothing goes on with a number. -/
structure TakesPiece (element : Reader) (piece : List Char) (json : Json) : Prop where
  opens : Opens piece
  takes {rest : List Char} (hrest : Ends isNumeralChar rest) :
    Takes (element (piece ++ rest)) json rest

theorem takes_spaced (hblanks : Blank blanks) (hopens : Opens text)
    (h : Takes (element text) json rest) : Takes (spaced element (blanks ++ text)) json rest := by
  rw [← hopens.skipBlanks hblanks] at h
  obtain ⟨shorter, h⟩ := h
  have hle := Scan.length_skipBlanks_le (blanks ++ text)
  exact ⟨Nat.lt_of_lt_of_le shorter hle, by simp [spaced, h, Taken.widen]⟩

theorem takes_mark {c : Char} (hblanks : Blank blanks) (hc : Scan.isBlank c = false)
    (rest : List Char) : Takes (mark? c (blanks ++ c :: rest)) () rest := by
  have hskip : skipBlanks (blanks ++ c :: rest) = c :: rest := by
    rw [Parser.skipBlanks_append hblanks, Parser.skipBlanks_of_ends (Parser.ends_cons hc rest)]
  have hchar : Takes (Scan.char? c (skipBlanks (blanks ++ c :: rest))) () rest := by
    rw [hskip]
    exact ⟨Nat.lt_succ_self _, Parser.char?_cons c rest⟩
  obtain ⟨_, hchar⟩ := hchar
  exact ⟨by simp only [List.length_append, List.length_cons]; omega,
    by simp [mark?, hchar, Taken.widen]⟩

theorem mark?_eq_none {c d : Char} (hd : Scan.isBlank d = false) (hne : d ≠ c) :
    mark? c (d :: rest) = none := by
  have hskip : Scan.char? c (skipBlanks (d :: rest)) = none := by
    rw [Parser.skipBlanks_of_ends (Parser.ends_cons hd rest)]
    exact Parser.char?_of_ne hne rest
  simp [mark?, hskip]

theorem mark?_of_opens {c : Char} (hblanks : Blank blanks) (hopens : Opens text)
    (hc : Parser.isCloser c = true) : mark? c (blanks ++ text) = none := by
  have hskip : Scan.char? c (skipBlanks (blanks ++ text)) = none := by
    rw [hopens.skipBlanks hblanks]
    exact hopens.char?_eq_none hc
  simp [mark?, hskip]

theorem ends_isNumeralChar_closed {closing : Char} (hafter : Blank after)
    (hclosing : Parser.isCloser closing = true) (pieces : List (List Char)) (rest : List Char) :
    Ends isNumeralChar (closed between after pieces closing rest) :=
  (Parser.closes_closed hafter hclosing pieces rest).delimits.ends_isNumeralChar

/-! ## Lists -/

section Lists

variable {closing : Char} {entry : (text : List Char) → Option (Taken α text)} {value : α}
  {values : List α} {middle tail : List Char}

/-- Entries up to a closing character, of which there is at least one. -/
def listed? (closing : Char) (entry : (text : List Char) → Option (Taken α text))
    (text : List Char) : Option (Taken (List α) text) :=
  match entry text with
  | none => none
  | some first =>
    match mark? closing first.rest with
    | some mark => some ⟨[first.value], mark.rest, Nat.lt_trans mark.shorter first.shorter⟩
    | none =>
      match mark? ',' first.rest with
      | none => none
      | some comma =>
        have : comma.rest.length < text.length := Nat.lt_trans comma.shorter first.shorter
        (listed? closing entry comma.rest).map fun more =>
          ⟨first.value :: more.value, more.rest, Nat.lt_trans more.shorter this⟩
termination_by text.length

theorem items?_eq (element : Reader) (text : List Char) :
    items? element text = listed? ']' (spaced element) text := by
  fun_induction items? element text with
  | case1 text hfirst => simp [listed?, hfirst]
  | case2 text first hfirst mark hmark => simp [listed?, hfirst, hmark]
  | case3 text first hfirst hmark hcomma => simp [listed?, hfirst, hmark, hcomma]
  | case4 text first hfirst hmark comma hcomma _ ih =>
      rw [listed?, hfirst]
      simp only [hmark, hcomma, ih]

theorem members?_eq (element : Reader) (text : List Char) :
    members? element text = listed? '\x7d' (member? element) text := by
  fun_induction members? element text with
  | case1 text hfirst => simp [listed?, hfirst]
  | case2 text first hfirst mark hmark => simp [listed?, hfirst, hmark]
  | case3 text first hfirst hmark hcomma => simp [listed?, hfirst, hmark, hcomma]
  | case4 text first hfirst hmark comma hcomma _ ih =>
      rw [listed?, hfirst]
      simp only [hmark, hcomma, ih]

theorem takes_listed_last (hfirst : Takes (entry text) value middle)
    (hclosing : Takes (mark? closing middle) () rest) :
    Takes (listed? closing entry text) [value] rest := by
  obtain ⟨hshorter, hfirst⟩ := hfirst
  obtain ⟨hshorter', hclosing⟩ := hclosing
  refine ⟨Nat.lt_trans hshorter' hshorter, ?_⟩
  rw [listed?]
  simp [hfirst, hclosing]

theorem takes_listed_cons (hfirst : Takes (entry text) value middle)
    (hclosing : mark? closing middle = none) (hcomma : Takes (mark? ',' middle) () tail)
    (hmore : Takes (listed? closing entry tail) values rest) :
    Takes (listed? closing entry text) (value :: values) rest := by
  obtain ⟨hshorter, hfirst⟩ := hfirst
  obtain ⟨hshorter', hcomma⟩ := hcomma
  obtain ⟨hshorter'', hmore⟩ := hmore
  refine ⟨by omega, ?_⟩
  rw [listed?]
  simp [hfirst, hclosing, hcomma, hmore]

/-- The entry is taken from the piece behind blanks, where nothing goes on with a number. -/
structure TakesEntry (entry : (text : List Char) → Option (Taken α text)) (piece : List Char)
    (value : α) : Prop where
  opens : Opens piece
  takes {before rest : List Char} (hbefore : Blank before) (hrest : Ends isNumeralChar rest) :
    Takes (entry (before ++ (piece ++ rest))) value rest

/-- The entries of a list are taken one by one. -/
theorem takes_listed (hbefore : Blank before) (hbetween : Blank between) (hafter : Blank after)
    (hclosing : Parser.isCloser closing = true) (hcomma : ',' ≠ closing)
    {pieceOf : α → List Char} {first : α} {others : List α}
    (hentries : ∀ value ∈ first :: others, TakesEntry entry (pieceOf value) value)
    (rest : List Char) :
    Takes
      (listed? closing entry
        (before ++ (pieceOf first ++ closed between after (others.map pieceOf) closing rest)))
      (first :: others) rest := by
  have htakes := (hentries first List.mem_cons_self).takes hbefore
    (@ends_isNumeralChar_closed between _ _ hafter hclosing (others.map pieceOf) rest)
  induction others generalizing first before with
  | nil =>
      have hblank := Parser.blank_of_isCloser hclosing
      exact takes_listed_last htakes (takes_mark hafter hblank rest)
  | cons other others ih =>
      have hmem : ∀ value ∈ other :: others, TakesEntry entry (pieceOf value) value :=
        fun value hvalue => hentries value (List.mem_cons_of_mem _ hvalue)
      have hmore := ih hbetween hmem ((hmem other List.mem_cons_self).takes hbetween
        (@ends_isNumeralChar_closed between _ _ hafter hclosing _ rest))
      rw [List.map_cons, Parser.closed_cons] at htakes ⊢
      exact takes_listed_cons htakes (mark?_eq_none (by decide) hcomma)
        (takes_mark blank_nil (by decide) _) hmore

end Lists

theorem TakesPiece.entry (h : TakesPiece element piece json) :
    TakesEntry (spaced element) piece json where
  opens := h.opens
  takes {_ rest} hbefore hrest := takes_spaced hbefore (h.opens.append rest) (h.takes hrest)

theorem opens_of_stringLiteral {key : List Char} {name : String} (hkey : StringLiteral key name) :
    Opens key := by
  obtain ⟨body, rfl, _⟩ := hkey
  exact .of_cons (by decide) (by decide) _

theorem takesEntry_member {key : List Char} {name : String} (hkey : StringLiteral key name)
    (hblanks : Blank blanks) (hpiece : TakesPiece element piece json) :
    TakesEntry (member? element) (key ++ ':' :: (blanks ++ piece)) (name, json) where
  opens := (opens_of_stringLiteral hkey).append _
  takes {before rest} hbefore hrest := by
    let value := blanks ++ (piece ++ rest)
    have htext : key ++ ':' :: (blanks ++ piece) ++ rest = key ++ ':' :: value := by simp [value]
    have hskip : skipBlanks (before ++ (key ++ ':' :: value)) = key ++ ':' :: value :=
      ((opens_of_stringLiteral hkey).append _).skipBlanks hbefore
    have hstring : ∃ shorter, Scan.string (skipBlanks (before ++ (key ++ ':' :: value))) =
        .found ⟨name, ':' :: value, shorter⟩ := by
      rw [hskip]
      exact Scan.string_append hkey (':' :: value)
    obtain ⟨hshorter, hstring⟩ := hstring
    obtain ⟨hshorter', hcolon⟩ := @takes_mark [] ':' blank_nil (by decide) value
    obtain ⟨hshorter'', hvalue⟩ := takes_spaced hblanks (hpiece.opens.append rest)
      (hpiece.takes hrest)
    have hle := Scan.length_skipBlanks_le (before ++ (key ++ ':' :: value))
    simp only [List.nil_append] at hcolon hshorter'
    have hlength : rest.length < value.length := hshorter''
    rw [htext]
    refine ⟨by omega, ?_⟩
    rw [member?, hstring]
    simp only [hcolon, value, hvalue, Option.map_some]

section Containers

variable (hbefore : Blank before) (hbetween : Blank between) (hafter : Blank after)

include hbefore hbetween hafter

theorem takes_array {pieceOf : Json → List Char} {items : List Json}
    (hitems : ∀ item ∈ items, TakesPiece element (pieceOf item) item) (rest : List Char) :
    Takes
      (container? element ('[' :: enclosed before between after (items.map pieceOf) ']' rest))
      (.arr items) rest := by
  have hcloser : Parser.isCloser ']' = true := by decide
  cases items with
  | nil =>
      obtain ⟨hshorter, hmark⟩ := @takes_mark (before ++ after) ']' (hbefore.append hafter)
        (by decide) rest
      rw [List.map_nil, Parser.enclosed_nil]
      exact ⟨Nat.lt_succ_of_lt hshorter, by simp [container?, hmark]⟩
  | cons first others =>
      have hopens := (hitems first List.mem_cons_self).opens
      have hmark := mark?_of_opens hbefore
        (hopens.append (closed between after (others.map pieceOf) ']' rest)) hcloser
      obtain ⟨hshorter, htakes⟩ := takes_listed hbefore hbetween hafter hcloser (by decide)
        (fun item hitem => (hitems item hitem).entry) rest
      rw [List.map_cons, Parser.enclosed_cons]
      exact ⟨Nat.lt_succ_of_lt hshorter, by simp [container?, hmark, items?_eq, htakes]⟩

theorem takes_object {pieceOf : String × Json → List Char} {members : List (String × Json)}
    (hdistinct : Entries.Distinct members)
    (hmembers : ∀ member ∈ members, TakesEntry (member? element) (pieceOf member) member)
    (rest : List Char) :
    Takes
      (container? element
        ('\x7b' :: enclosed before between after (members.map pieceOf) '\x7d' rest))
      (.obj members) rest := by
  have hcloser : Parser.isCloser '\x7d' = true := by decide
  cases members with
  | nil =>
      obtain ⟨hshorter, hmark⟩ := @takes_mark (before ++ after) '\x7d' (hbefore.append hafter)
        (by decide) rest
      rw [List.map_nil, Parser.enclosed_nil]
      exact ⟨Nat.lt_succ_of_lt hshorter, by simp [container?, hmark]⟩
  | cons first others =>
      have hopens := (hmembers first List.mem_cons_self).opens
      have hmark := mark?_of_opens hbefore
        (hopens.append (closed between after (others.map pieceOf) '\x7d' rest)) hcloser
      obtain ⟨hshorter, htakes⟩ := takes_listed hbefore hbetween hafter hcloser (by decide)
        hmembers rest
      have hlist := Entries.ofList_of_distinct hdistinct
      rw [List.map_cons, Parser.enclosed_cons]
      exact ⟨Nat.lt_succ_of_lt hshorter, by simp [container?, hmark, members?_eq, htakes, hlist]⟩

end Containers

/-! ## Whole documents -/

theorem takes_reader_of_scalar (h : Takes (scalar? text) json rest) (nesting : Nat) :
    Takes (reader nesting text) json rest := by
  obtain ⟨shorter, h⟩ := h
  cases nesting with
  | zero => exact ⟨shorter, h⟩
  | succ nesting => exact ⟨shorter, by simp [reader, h]⟩

theorem takes_reader_of_container (hscalar : scalar? text = none)
    (h : Takes (container? (reader nesting) text) json rest) :
    Takes (reader (nesting + 1) text) json rest := by
  obtain ⟨shorter, h⟩ := h
  exact ⟨shorter, by simp [reader, hscalar, h]⟩

theorem blank_newline (indent : Nat) : Blank (Layout.newline indent).toList := by
  intro c hc
  simp only [Layout.newline, String.toList_ofList, List.mem_cons, List.mem_replicate] at hc
  rcases hc with rfl | ⟨_, rfl⟩ <;> decide

/-- Items are bracketed alike in either layout, up to blanks. -/
theorem listed_bracketed {c : Char} {opening closing : String} (layout : Layout) (indent : Nat)
    (hclosing : closing.toList = [c]) (items : List String) :
    Printer.Listed (layout.bracketed indent opening closing items).toList opening.toList
      (items.map String.toList) c := by
  have hinner := blank_newline (indent + 1)
  unfold Layout.bracketed
  split
  · rename_i hempty
    obtain rfl : items = [] := by simpa using hempty
    exact ⟨[], [], [], blank_nil, blank_nil, blank_nil, by simp [enclosed, hclosing]⟩
  · split
    · exact ⟨_, _, _, hinner, hinner, blank_newline indent,
        by simp [enclosed, hclosing, String.toList_intercalate]⟩
    · exact ⟨[], [], [], blank_nil, blank_nil, blank_nil,
        by simp [enclosed, hclosing, String.toList_intercalate]⟩

theorem colon_toList (layout : Layout) :
    ∃ blanks, Blank blanks ∧ layout.colon.toList = ':' :: blanks := by
  unfold Layout.colon
  split
  · exact ⟨[' '], Printer.blank_space, rfl⟩
  · exact ⟨[], blank_nil, rfl⟩

theorem takesPiece_of_scalar {value : Value} (h : LiteralText piece value)
    (htakes : ∀ {rest : List Char}, Ends isNumeralChar rest →
      Takes (scalar? (piece ++ rest)) json rest)
    (nesting : Nat) : TakesPiece (reader nesting) piece json where
  opens := Parser.opens_of_literalText h
  takes hrest := takes_reader_of_scalar (htakes hrest) nesting

theorem takesPiece_int {n : Int} (h : -2 ^ (63 : Nat) ≤ n ∧ n < 2 ^ (64 : Nat)) (nesting : Nat) :
    TakesPiece (reader nesting) (integerText n).toList (.int n) := by
  obtain ⟨numeral, hnumeral, hintegral, rfl, hsign⟩ := Printer.exists_numeral_integerText n
  have hjson : ofNumeral? numeral = some (.int numeral.toInt) := by
    refine ofNumeral?_of_integral hintegral ?_ h
    rw [hsign, Bool.and_eq_false_iff, decide_eq_false_iff_not, beq_eq_false_iff_ne]
    omega
  exact takesPiece_of_scalar (.number hnumeral) (takes_numeral hnumeral hjson) nesting

theorem takesPiece_float {x : Float} (h : x.isFinite = true) (nesting : Nat) :
    TakesPiece (reader nesting) (floatText x).toList (.float x) := by
  obtain ⟨_, numeral, hnumeral, hreal, hvalue⟩ := exactReal_of_isFinite h
  have hjson : ofNumeral? numeral = some (.float x) := by
    rw [← hvalue] at h ⊢
    exact ofNumeral?_of_real hreal h
  exact takesPiece_of_scalar (.number hnumeral) (takes_numeral hnumeral hjson) nesting

theorem takesPiece_arr {layout : Layout} {indent : Nat} {items : List Json}
    (h : ∀ item ∈ items,
      TakesPiece (reader nesting) (writeAt layout (indent + 1) item).toList item) :
    TakesPiece (reader (nesting + 1)) (writeAt layout indent (.arr items)).toList (.arr items) := by
  obtain ⟨before, between, after, hbefore, hbetween, hafter, htext⟩ :=
    @listed_bracketed ']' "[" "]" layout indent rfl (items.map (writeAt layout (indent + 1)))
  have hopening : ("[" : String).toList = ['['] := rfl
  rw [writeAt, htext, hopening, List.singleton_append, List.map_map]
  refine ⟨.of_cons (by decide) (by decide) _, fun {rest} _ => ?_⟩
  rw [List.cons_append, Parser.enclosed_append, List.nil_append]
  exact takes_reader_of_container (scalar?_eq_none_of_bracket (.inl rfl) _)
    (takes_array hbefore hbetween hafter h rest)

theorem takesPiece_obj {layout : Layout} (hescapes : layout.escapes.Faithful) {indent : Nat}
    {members : List (String × Json)} (hdistinct : Entries.Distinct members)
    (h : ∀ member ∈ members,
      TakesPiece (reader nesting) (writeAt layout (indent + 1) member.2).toList member.2) :
    TakesPiece (reader (nesting + 1)) (writeAt layout indent (.obj members)).toList
      (.obj members) := by
  obtain ⟨blanks, hblanks, hcolon⟩ := colon_toList layout
  let memberText : String × Json → String := fun member =>
    Quoted.literal layout.escapes member.1 ++ layout.colon ++ writeAt layout (indent + 1) member.2
  have hmembers : ∀ member ∈ members,
      TakesEntry (member? (reader nesting)) (memberText member).toList member := by
    intro member hmember
    have hmember := takesEntry_member (Quoted.stringLiteral_literal hescapes member.1) hblanks
      (h member hmember)
    simpa [memberText, hcolon] using hmember
  obtain ⟨before, between, after, hbefore, hbetween, hafter, htext⟩ :=
    @listed_bracketed '\x7d' "\x7b" "\x7d" layout indent rfl (members.map memberText)
  have hopening : ("\x7b" : String).toList = ['\x7b'] := rfl
  rw [writeAt, htext, hopening, List.singleton_append, List.map_map]
  refine ⟨.of_cons (by decide) (by decide) _, fun {rest} _ => ?_⟩
  rw [List.cons_append, Parser.enclosed_append, List.nil_append]
  exact takes_reader_of_container (scalar?_eq_none_of_bracket (.inr rfl) _)
    (takes_object hbefore hbetween hafter hdistinct hmembers rest)

/-- A readable document is read back from its text, within the containers it opens. -/
theorem takesPiece_writeAt {layout : Layout} (hescapes : layout.escapes.Faithful)
    (h : Readable json) :
    ∀ {nesting indent : Nat}, json.depth ≤ nesting →
      TakesPiece (reader nesting) (writeAt layout indent json).toList json := by
  induction h with
  | null =>
      intro nesting indent _
      rw [writeAt]
      exact takesPiece_of_scalar .null (fun _ => takes_keyword none _) nesting
  | bool b =>
      intro nesting indent _
      rw [writeAt]
      cases b with
      | true =>
          exact takesPiece_of_scalar (.bool true) (fun _ => takes_keyword (some true) _) nesting
      | false =>
          exact takesPiece_of_scalar (.bool false) (fun _ => takes_keyword (some false) _) nesting
  | int h =>
      intro nesting indent _
      rw [writeAt]
      exact takesPiece_int h nesting
  | float h =>
      intro nesting indent _
      rw [writeAt, if_pos h]
      exact takesPiece_float h nesting
  | str s =>
      intro nesting indent _
      have hliteral := Quoted.stringLiteral_literal hescapes s
      rw [writeAt]
      exact takesPiece_of_scalar (.string hliteral) (fun _ => takes_string hliteral _) nesting
  | @arr items _ ih =>
      intro nesting indent hdepth
      cases nesting with
      | zero => simp [depth] at hdepth
      | succ nesting =>
          have hdepths := depth_arr_le_iff.1 hdepth
          exact takesPiece_arr fun item hitem => ih item hitem (hdepths item hitem)
  | @obj members hdistinct _ ih =>
      intro nesting indent hdepth
      cases nesting with
      | zero => simp [depth] at hdepth
      | succ nesting =>
          have hdepths := depth_obj_le_iff.1 hdepth
          exact takesPiece_obj hescapes hdistinct fun member hmember =>
            ih member hmember (hdepths member hmember)

theorem takes_write {layout : Layout} (hescapes : layout.escapes.Faithful) (h : Readable json)
    (hdepth : json.depth ≤ nesting) :
    Takes (spaced (reader nesting) (json.write layout).toList) json [] := by
  have hpiece := @takesPiece_writeAt json layout hescapes h nesting 0 hdepth
  have htakes := takes_spaced blank_nil (hpiece.opens.append [])
    (hpiece.takes (Parser.ends_nil isNumeralChar))
  rwa [List.append_nil, List.nil_append] at htakes

/-- A document that a reader can give is read back from its text. -/
theorem read?_write {layout : Layout} (hescapes : layout.escapes.Faithful) (h : Readable json)
    (hdepth : json.depth ≤ maxNesting) : read? (json.write layout) = some json := by
  obtain ⟨_, htakes⟩ := takes_write hescapes h hdepth
  simp [read?, htakes, skipBlanks]

/-! ## What a reader gives -/

/-- The document is readable and opens no more containers than allowed. -/
def Within (nesting : Nat) (json : Json) : Prop :=
  Readable json ∧ json.depth ≤ nesting

/-- Whatever is taken has the property. -/
def Gives (entry : (text : List Char) → Option (Taken α text)) (P : α → Prop) : Prop :=
  ∀ ⦃text : List Char⦄ ⦃taken : Taken α text⦄, entry text = some taken → P taken.value

variable {P : Json → Prop}

theorem readable_of_ofNumeral? {numeral : Numeral} (h : ofNumeral? numeral = some json) :
    Readable json ∧ json.depth = 0 := by
  unfold ofNumeral? at h
  simp only at h
  split at h
  · rename_i hint
    simp only [Bool.and_eq_true, decide_eq_true_eq] at hint
    obtain rfl := Option.some.inj h
    exact ⟨.int hint.2, by rw [depth] <;> simp⟩
  · split at h
    · rename_i hfinite
      obtain rfl := Option.some.inj h
      exact ⟨.float hfinite, by rw [depth] <;> simp⟩
    · simp at h

theorem gives_scalar? : Gives scalar? fun json => Readable json ∧ json.depth = 0 := by
  intro text taken h
  unfold scalar? at h
  split at h
  · rename_i word _
    obtain rfl := Option.some.inj h
    obtain ⟨word, _, _⟩ := word
    cases word with
    | none => exact ⟨.null, by simp [Taken.map, depth]⟩
    | some b => exact ⟨.bool b, by simp [Taken.map, depth]⟩
  split at h
  · obtain ⟨json, hjson, rfl⟩ := Option.map_eq_some_iff.1 h
    exact readable_of_ofNumeral? hjson
  split at h
  · obtain rfl := Option.some.inj h
    exact ⟨.str _, by simp [Taken.map, depth]⟩
  · simp at h

theorem gives_spaced (helement : Gives element P) : Gives (spaced element) P := by
  intro text taken h
  obtain ⟨found, hfound, rfl⟩ := Option.map_eq_some_iff.1 h
  have hvalue := helement hfound
  exact hvalue

theorem gives_member? (helement : Gives element P) :
    Gives (member? element) fun member => P member.2 := by
  intro text taken h
  unfold member? at h
  split at h
  · split at h
    · simp at h
    · obtain ⟨value, hvalue, rfl⟩ := Option.map_eq_some_iff.1 h
      exact gives_spaced helement hvalue
  · simp at h

theorem gives_listed? {closing : Char} {entry : (text : List Char) → Option (Taken α text)}
    {Q : α → Prop} (hentry : Gives entry Q) :
    Gives (listed? closing entry) fun values => ∀ value ∈ values, Q value := by
  intro text taken h
  fun_induction listed? closing entry text with
  | case1 => simp at h
  | case2 text first hfirst mark hmark =>
      obtain rfl := Option.some.inj h
      exact List.forall_mem_singleton.2 (hentry hfirst)
  | case3 => simp at h
  | case4 text first hfirst hmark comma hcomma _ ih =>
      obtain ⟨more, hmore, rfl⟩ := Option.map_eq_some_iff.1 h
      exact List.forall_mem_cons.2 ⟨hentry hfirst, ih hmore⟩

theorem within_arr {items : List Json} (h : ∀ item ∈ items, Within nesting item) :
    Within (nesting + 1) (.arr items) :=
  ⟨.arr fun item hitem => (h item hitem).1, depth_arr_le_iff.2 fun item hitem => (h item hitem).2⟩

theorem within_obj {members : List (String × Json)} (hdistinct : Entries.Distinct members)
    (h : ∀ member ∈ members, Within nesting member.2) : Within (nesting + 1) (.obj members) :=
  ⟨.obj hdistinct fun member hmember => (h member hmember).1,
    depth_obj_le_iff.2 fun member hmember => (h member hmember).2⟩

theorem gives_container? (helement : Gives element (Within nesting)) :
    Gives (container? element) (Within (nesting + 1)) := by
  intro text taken h
  unfold container? at h
  split at h
  · split at h
    · obtain rfl := Option.some.inj h
      exact within_arr (by simp)
    · obtain ⟨items, hitems, rfl⟩ := Option.map_eq_some_iff.1 h
      rw [items?_eq] at hitems
      exact within_arr (gives_listed? (gives_spaced helement) hitems)
  · split at h
    · obtain rfl := Option.some.inj h
      exact within_obj List.nodup_nil (by simp)
    · obtain ⟨members, hmembers, rfl⟩ := Option.map_eq_some_iff.1 h
      rw [members?_eq] at hmembers
      have hmember := gives_listed? (gives_member? helement) hmembers
      exact within_obj (Entries.distinct_ofList _) fun member hmem =>
        hmember member (Entries.mem_ofList hmem)
  · simp at h

theorem gives_reader (nesting : Nat) : Gives (reader nesting) (Within nesting) := by
  induction nesting with
  | zero => exact fun text taken h => (gives_scalar? h).imp_right Nat.le_of_eq
  | succ nesting ih =>
      intro text taken h
      rcases (Option.orElse_eq_some _ _ _).1 h with hscalar | ⟨_, hcontainer⟩
      · exact (gives_scalar? hscalar).imp_right fun hdepth =>
          Nat.le_trans (Nat.le_of_eq hdepth) (Nat.zero_le _)
      · exact gives_container? ih hcontainer

/-- What is read can be read again. -/
theorem within_of_read? {text : String} (h : read? text = some json) : Within maxNesting json := by
  unfold read? at h
  split at h
  · simp at h
  · rename_i taken htaken
    split at h
    · obtain rfl := Option.some.inj h
      exact gives_spaced (gives_reader maxNesting) htaken
    · simp at h

/-! ## More containers -/

/-- Whatever one takes, the other takes alike. -/
def Extends (entry entry' : (text : List Char) → Option (Taken α text)) : Prop :=
  ∀ ⦃text : List Char⦄ ⦃taken : Taken α text⦄, entry text = some taken → entry' text = some taken

theorem extends_listed? {closing : Char} {entry entry' : (text : List Char) → Option (Taken α text)}
    (hextends : Extends entry entry') :
    Extends (listed? closing entry) (listed? closing entry') := by
  intro text taken h
  fun_induction listed? closing entry text with
  | case1 => simp at h
  | case2 text first hfirst mark hmark =>
      rw [listed?, hextends hfirst]
      simpa only [hmark] using h
  | case3 => simp at h
  | case4 text first hfirst hmark comma hcomma _ ih =>
      obtain ⟨more, hmore, rfl⟩ := Option.map_eq_some_iff.1 h
      rw [listed?, hextends hfirst]
      simp only [hmark, hcomma, ih hmore, Option.map_some]

section Extends

variable {element' : Reader} (hextends : Extends element element')

include hextends

theorem extends_spaced : Extends (spaced element) (spaced element') := by
  intro text taken h
  obtain ⟨found, hfound, rfl⟩ := Option.map_eq_some_iff.1 h
  simp [spaced, hextends hfound]

theorem extends_member? : Extends (member? element) (member? element') := by
  intro text taken h
  unfold member? at h ⊢
  split at h
  · split at h
    · simp at h
    · obtain ⟨value, hvalue, rfl⟩ := Option.map_eq_some_iff.1 h
      simp only [extends_spaced hextends hvalue, Option.map_some]
  · simp at h

theorem extends_container? : Extends (container? element) (container? element') := by
  have hitems := @extends_listed? _ ']' _ _ (extends_spaced hextends)
  have hmembers := @extends_listed? _ '\x7d' _ _ (extends_member? hextends)
  intro text taken h
  unfold container? at h ⊢
  split at h
  · split at h
    · exact h
    · obtain ⟨items, hread, rfl⟩ := Option.map_eq_some_iff.1 h
      rw [items?_eq] at hread
      simp only [items?_eq, hitems hread, Option.map_some]
  · split at h
    · exact h
    · obtain ⟨members, hread, rfl⟩ := Option.map_eq_some_iff.1 h
      rw [members?_eq] at hread
      simp only [members?_eq, hmembers hread, Option.map_some]
  · simp at h

end Extends

theorem extends_reader_succ (nesting : Nat) : Extends (reader nesting) (reader (nesting + 1)) := by
  induction nesting with
  | zero =>
      intro text taken h
      exact (Option.orElse_eq_some _ _ _).2 (.inl h)
  | succ nesting ih =>
      intro text taken h
      refine (Option.orElse_eq_some _ _ _).2 ?_
      rcases (Option.orElse_eq_some _ _ _).1 h with hscalar | ⟨hscalar, hcontainer⟩
      · exact .inl hscalar
      · exact .inr ⟨hscalar, extends_container? ih hcontainer⟩

/-- A reader that may open more containers takes what it took. -/
theorem extends_reader {nesting' : Nat} (h : nesting ≤ nesting') :
    Extends (reader nesting) (reader nesting') := by
  induction h with
  | refl => exact fun text taken htaken => htaken
  | step _ ih => exact fun text taken htaken => extends_reader_succ _ (ih htaken)

/-- The text of a readable document is read as this document, or not at all. -/
theorem eq_of_read?_write {layout : Layout} (hescapes : layout.escapes.Faithful) (h : Readable json)
    {json' : Json} (hread : read? (json.write layout) = some json') : json' = json := by
  unfold read? at hread
  split at hread
  · simp at hread
  rename_i taken htaken
  split at hread
  · obtain ⟨_, htakes⟩ := takes_write hescapes h (Nat.le_max_left json.depth maxNesting)
    have htaken := extends_spaced (extends_reader (Nat.le_max_right json.depth maxNesting)) htaken
    obtain rfl := Option.some.inj (htakes.symm.trans htaken)
    exact (Option.some.inj hread).symm
  · simp at hread

/-- Whether a readable document is read back depends on the containers it opens. -/
theorem read?_write_eq {layout : Layout} (hescapes : layout.escapes.Faithful) (h : Readable json) :
    read? (json.write layout) = if json.depth ≤ maxNesting then some json else none := by
  split
  · rename_i hdepth
    exact read?_write hescapes h hdepth
  · rename_i hdepth
    refine Option.eq_none_iff_forall_ne_some.2 fun json' hread => hdepth ?_
    obtain rfl := eq_of_read?_write hescapes h hread
    exact (within_of_read? hread).2

end Json

end PipeQuery
