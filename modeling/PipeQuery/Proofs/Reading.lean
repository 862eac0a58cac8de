/-
What the productions take from the front of a text that starts with a known piece.

`Reads production text value rest` forgets only the proof that the text got shorter.  A piece is
read whole when what follows it delimits it, so each lemma asks for that and nothing else about the
rest.
-/
import PipeQuery.Parser
import PipeQuery.Proofs.Grammar

namespace PipeQuery

namespace Parser

open Grammar
open Scan (skipBlanks Ends)

variable {α : Type} {text rest piece blanks : List Char} {limit : Nat}

/-- The production takes `value` from the front of `text` and leaves `rest`. -/
def Reads (production : Production α) (text : List Char) (value : α) (rest : List Char) : Prop :=
  ∃ shorter, production text = .ok ⟨value, rest, shorter⟩

/-! ## Blanks and what follows a piece -/

theorem skipBlanks_append (hblanks : Blank blanks) (text : List Char) :
    skipBlanks (blanks ++ text) = skipBlanks text :=
  List.dropWhile_append_of_pos hblanks

theorem skipBlanks_of_ends (h : Ends Scan.isBlank text) : skipBlanks text = text :=
  Scan.dropWhile_append_ends (List.forall_mem_nil _) h

theorem skipBlanks_skipBlanks (text : List Char) : skipBlanks (skipBlanks text) = skipBlanks text :=
  skipBlanks_of_ends (Scan.ends_dropWhile Scan.isBlank text)

theorem ends_cons {kind : Char → Bool} {c : Char} (h : kind c = false) (rest : List Char) :
    Ends kind (c :: rest) := by
  intro d hd
  obtain rfl : c = d := by simpa using hd
  exact h

theorem ends_nil (kind : Char → Bool) : Ends kind [] := by
  intro c hc
  simp at hc

/-- The characters that close a list or part its items. -/
def isCloser (c : Char) : Bool :=
  c == ',' || c == ')' || c == ']' || c == '\x7d'

/-- Nothing comes after the blanks, or a character that ends every expression. -/
def Closes (rest : List Char) : Prop :=
  Ends (fun c => !isCloser c) (skipBlanks rest)

/-- A token before `rest` ends there, and is no name of a call. -/
def Delimits (rest : List Char) : Prop :=
  Ends (fun c => !(Scan.isBlank c || isCloser c)) rest ∧ Ends (· == '(') (skipBlanks rest)

theorem closes_nil : Closes [] :=
  ends_nil _

theorem closes_append_cons {c : Char} (hblanks : Blank blanks) (hc : isCloser c = true)
    (rest : List Char) : Closes (blanks ++ c :: rest) := by
  have hblank : Scan.isBlank c = false := by
    revert hc
    simp only [isCloser, Bool.or_eq_true, beq_iff_eq]
    rintro (((rfl | rfl) | rfl) | rfl) <;> decide
  rw [Closes, skipBlanks_append hblanks, skipBlanks_of_ends (ends_cons hblank rest)]
  exact ends_cons (by simpa using hc) rest

theorem Closes.delimits (h : Closes rest) : Delimits rest := by
  constructor
  · intro c hc
    cases rest with
    | nil => simp at hc
    | cons d more =>
        obtain rfl : d = c := by simpa using hc
        by_cases hd : Scan.isBlank d = true
        · simp [hd]
        · rw [Closes, skipBlanks_of_ends (ends_cons (by simpa using hd) more)] at h
          have hcloser := h d rfl
          simp only [Bool.not_eq_false'] at hcloser
          simp [hcloser]
  · intro c hc
    have hcloser := h c hc
    simp only [Bool.not_eq_false'] at hcloser
    simp only [beq_eq_false_iff_ne]
    rintro rfl
    exact absurd hcloser (by decide)

/-- Blanks and a token that is no parenthesis. -/
theorem delimits_append_cons {c : Char} (hblanks : Blank blanks) (hne : blanks ≠ [])
    (hblank : Scan.isBlank c = false) (hc : c ≠ '(') (rest : List Char) :
    Delimits (blanks ++ c :: rest) := by
  constructor
  · cases blanks with
    | nil => exact absurd rfl hne
    | cons b more => exact ends_cons (by simp [hblanks b (by simp)]) _
  · rw [skipBlanks_append hblanks, skipBlanks_of_ends (ends_cons hblank rest)]
    exact ends_cons (by simpa using hc) rest

/-- No character that ends a token belongs to `kind`. -/
theorem Delimits.ends {kind : Char → Bool}
    (hkind : ∀ c, Scan.isBlank c = true ∨ isCloser c = true → kind c = false)
    (h : Delimits rest) : Ends kind rest := by
  intro c hc
  have hdelimiter := h.1 c hc
  simp only [Bool.not_eq_false', Bool.or_eq_true] at hdelimiter
  exact hkind c hdelimiter

theorem delimiter_cases {c : Char} (h : Scan.isBlank c = true ∨ isCloser c = true) :
    c = ' ' ∨ c = '\n' ∨ c = '\t' ∨ c = '\r' ∨ c = ',' ∨ c = ')' ∨ c = ']' ∨ c = '\x7d' := by
  simpa [Scan.isBlank, isCloser, or_assoc] using h

theorem Delimits.ends_isNameChar (h : Delimits rest) : Ends Scan.isNameChar rest := by
  refine h.ends fun c hc => ?_
  rcases delimiter_cases hc with rfl | rfl | rfl | rfl | rfl | rfl | rfl | rfl <;> decide

theorem Delimits.ends_isNumeralChar (h : Delimits rest) : Ends Scan.isNumeralChar rest := by
  refine h.ends fun c hc => ?_
  rcases delimiter_cases hc with rfl | rfl | rfl | rfl | rfl | rfl | rfl | rfl <;> decide

theorem Delimits.head?_ne_point (h : Delimits rest) : rest.head? ≠ some '.' := by
  intro hc
  have hpoint := @Delimits.ends _ (· == '.') (fun c hc => by
    rcases delimiter_cases hc with rfl | rfl | rfl | rfl | rfl | rfl | rfl | rfl <;> decide) h '.'
    hc
  simp at hpoint

/-! ## Single characters -/

@[simp] theorem char?_cons (c : Char) (rest : List Char) :
    Scan.char? c (c :: rest) = some ⟨(), rest, Nat.lt_succ_self _⟩ := by
  simp [Scan.char?]

theorem char?_of_ne {c d : Char} (h : d ≠ c) (rest : List Char) :
    Scan.char? c (d :: rest) = none := by
  simp [Scan.char?, h]

theorem char?_of_head_ne {c : Char} (h : text.head? ≠ some c) : Scan.char? c text = none := by
  cases text with
  | nil => rfl
  | cons d rest => exact char?_of_ne (by simpa using h) rest

theorem reads_expect (c : Char) (rest : List Char) : Reads (expect c) (c :: rest) () rest :=
  ⟨Nat.lt_succ_self _, by simp [expect]⟩

/-- A character that is not blank is found where blanks are skipped before it. -/
theorem reads_expect_skipBlanks {c : Char} (h : Scan.isBlank c = false) (rest : List Char) :
    Reads (expect c) (skipBlanks (c :: rest)) () rest := by
  rw [skipBlanks_of_ends (ends_cons h _)]
  exact reads_expect c rest

/-! ## Keys, paths and literals -/

theorem ends_isDigit_of_ends_isNameChar (h : Ends Scan.isNameChar rest) :
    Ends Char.isDigit rest := by
  intro c hc
  have hname := h c hc
  simp only [Scan.isNameChar, Char.isAlphanum, Bool.or_eq_false_iff] at hname
  exact hname.1.1.2

theorem head?_append_of_cons {c : Char} {more : List Char} (h : piece = c :: more)
    (rest : List Char) : (piece ++ rest).head? = some c := by
  simp [h]

theorem isNameStart_of_isDigit {c : Char} (h : c.isDigit = true) : Scan.isNameStart c = false := by
  have hne (d : Char) (hd : d.isDigit = false) : c ≠ d := by
    rintro rfl
    simp [hd] at h
  have hbounds : 48 ≤ c.val.toNat ∧ c.val.toNat ≤ 57 := by
    simpa [Char.isDigit, UInt32.le_iff_toNat_le] using h
  have halpha : c.isAlpha = false := by
    have h₁ : 'A'.val.toNat = 65 := rfl
    have h₂ : 'a'.val.toNat = 97 := rfl
    change (decide ('A'.val ≤ c.val ∧ c.val ≤ 'Z'.val) ||
      decide ('a'.val ≤ c.val) && decide (c.val ≤ 'z'.val)) = false
    simp only [Bool.or_eq_false_iff, Bool.and_eq_false_iff, decide_eq_false_iff_not,
      UInt32.le_iff_toNat_le]
    omega
  simp [Scan.isNameStart, halpha, hne '_' (by decide), hne '$' (by decide)]

theorem exists_head_of_whole {digits : List Char} (h : Scan.Whole digits) :
    ∃ c more, digits = c :: more ∧ c.isDigit = true := by
  cases h with
  | zero => exact ⟨'0', [], rfl, by decide⟩
  | digits _ hc _ => exact ⟨_, _, rfl, hc⟩

theorem exists_head_of_numeralText {numeral : Numeral} (h : Scan.NumeralText numeral piece) :
    ∃ c more, piece = c :: more ∧ (c = '-' ∨ c.isDigit = true) := by
  cases h with
  | @intro negative whole fraction fractionText exponentText exponent hwhole =>
      cases negative with
      | true => exact ⟨'-', _, rfl, .inl rfl⟩
      | false =>
          obtain ⟨c, more, rfl, hc⟩ := exists_head_of_whole hwhole
          exact ⟨c, _, rfl, .inr hc⟩

theorem ne_of_isDigit {c d : Char} (h : c.isDigit = true) (hd : d.isDigit = false) : c ≠ d := by
  rintro rfl
  simp [hd] at h

theorem ne_of_isNameStart {c d : Char} (h : Scan.isNameStart c = true)
    (hd : Scan.isNameStart d = false) : c ≠ d := by
  rintro rfl
  simp [hd] at h

theorem reads_key {cause : SyntaxCause} {name : String} (hpiece : KeyText piece name)
    (hrest : Ends Scan.isNameChar rest) : Reads (key cause) (piece ++ rest) name rest := by
  cases hpiece with
  | quoted h =>
      obtain ⟨shorter, hstring⟩ := Scan.string_append h rest
      exact ⟨shorter, by simp [key, hstring]⟩
  | name h =>
      obtain ⟨shorter, hname⟩ := Scan.name?_append h hrest
      obtain ⟨c, more, hlist, hc, _⟩ := Scan.isPlainName_iff.1 h
      have hquote : (name.toList ++ rest).head? ≠ some '"' := by
        rw [head?_append_of_cons hlist]
        simpa using ne_of_isNameStart hc (by decide)
      exact ⟨shorter, by rw [key, Scan.string_of_head_ne hquote, hname]⟩
  | whole h =>
      obtain ⟨shorter, hwhole⟩ := Scan.whole?_append h (ends_isDigit_of_ends_isNameChar hrest)
      obtain ⟨c, more, hlist, hc⟩ := exists_head_of_whole h
      have hhead := head?_append_of_cons hlist rest
      have hquote : (piece ++ rest).head? ≠ some '"' := by
        rw [hhead]
        simpa using ne_of_isDigit hc (by decide)
      have hname : Scan.name? (piece ++ rest) = none := by
        refine Scan.name?_eq_none fun d hd => ?_
        obtain rfl : c = d := by simpa [hhead] using hd
        exact isNameStart_of_isDigit hc
      refine ⟨shorter, ?_⟩
      rw [key, Scan.string_of_head_ne hquote, hname, hwhole]
      rfl

theorem reads_segments {keys : List String} (hpiece : PathText piece keys)
    (hrest : Ends Scan.isNameChar rest) (hpoint : rest.head? ≠ some '.') :
    Reads segments (piece ++ rest) keys rest := by
  induction hpiece with
  | last h =>
      obtain ⟨shorter, hkey⟩ := @reads_key _ _ .propertyExpected _ h hrest
      refine ⟨shorter, ?_⟩
      rw [segments, hkey]
      simp [char?_of_head_ne hpoint]
  | @step text following name keys h hfollowing ih =>
      have hends : Ends Scan.isNameChar ('.' :: (following ++ rest)) := ends_cons (by decide) _
      obtain ⟨_, hkey⟩ := @reads_key _ _ .propertyExpected _ h hends
      obtain ⟨_, hsegments⟩ := ih
      have heq : text ++ '.' :: following ++ rest = text ++ '.' :: (following ++ rest) := by simp
      rw [heq]
      refine ⟨by simp; omega, ?_⟩
      rw [segments, hkey]
      simp [hsegments]

/-- The operand of a literal. -/
def Operand.constant (value : Value) : Operand :=
  { query := .literal value, height := 0 }

theorem head?_keywordText (word : Option Bool) (rest : List Char) :
    ∃ c, (Scan.keywordText word ++ rest).head? = some c ∧ Scan.isNameStart c = true := by
  rcases word with _ | _ | _
  · exact ⟨'n', rfl, by decide⟩
  · exact ⟨'f', rfl, by decide⟩
  · exact ⟨'t', rfl, by decide⟩

theorem reads_keyword (word : Option Bool) (rest : List Char) :
    Reads literal (Scan.keywordText word ++ rest)
      (.constant (match word with | some b => .bool b | none => .null)) rest := by
  obtain ⟨shorter, hkeyword⟩ := Scan.keyword?_append word rest
  obtain ⟨c, hhead, hc⟩ := head?_keywordText word rest
  have hquote : (Scan.keywordText word ++ rest).head? ≠ some '"' := by
    rw [hhead]
    simpa using ne_of_isNameStart hc (by decide)
  have hnumeral : Scan.numeral? (Scan.keywordText word ++ rest) = none := by
    refine Scan.numeral?_eq_none (fun d hd => ?_) (by
      rw [hhead]
      simpa using ne_of_isNameStart hc (by decide))
    obtain rfl : c = d := by simpa [hhead] using hd
    cases hdigit : c.isDigit with
    | false => rfl
    | true => simp [isNameStart_of_isDigit hdigit] at hc
  refine ⟨shorter, ?_⟩
  rcases word with _ | _ <;>
    simp [literal, Scan.string_of_head_ne hquote, hnumeral, hkeyword, Taken.map, Operand.constant]

theorem reads_literal {value : Value} (hpiece : LiteralText piece value)
    (hrest : Ends Scan.isNumeralChar rest) :
    Reads literal (piece ++ rest) (.constant value) rest := by
  cases hpiece with
  | string h =>
      obtain ⟨shorter, hstring⟩ := Scan.string_append h rest
      exact ⟨shorter, by simp [literal, hstring, Taken.map, Operand.constant]⟩
  | number h =>
      obtain ⟨shorter, hnumeral⟩ := Scan.numeral?_append h hrest
      obtain ⟨c, more, hlist, hc⟩ := exists_head_of_numeralText h
      have hquote : (piece ++ rest).head? ≠ some '"' := by
        rw [head?_append_of_cons hlist]
        rintro ⟨⟩
        rcases hc with hc | hc <;> simp at hc
      refine ⟨shorter, ?_⟩
      simp [literal, Scan.string_of_head_ne hquote, hnumeral, Taken.map, Operand.constant]
  | bool b => exact reads_keyword (some b) rest
  | null => exact reads_keyword none rest

/-! ## Lists -/

/-- A piece that starts with a token which closes nothing. -/
def Opens (piece : List Char) : Prop :=
  ∃ c more, piece = c :: more ∧ Scan.isBlank c = false ∧ isCloser c = false

/-- The item is read from the piece, and the blanks after it are passed. -/
structure ReadsItem (item : Production α) (piece : List Char) (value : α) : Prop where
  opens : Opens piece
  reads {rest : List Char} (hrest : Closes rest) :
    Reads item (piece ++ rest) value (skipBlanks rest)

/-- The operand is read from the piece, and the blanks around it are passed. -/
structure ReadsOperand (expression : Production Operand) (piece : List Char) (operand : Operand) :
    Prop where
  opens : Opens piece
  reads {before rest : List Char} (hbefore : Blank before) (hrest : Closes rest) :
    Reads expression (before ++ piece ++ rest) operand (skipBlanks rest)

theorem ReadsOperand.readsItem {expression : Production Operand} {operand : Operand}
    (h : ReadsOperand expression piece operand) : ReadsItem expression piece operand where
  opens := h.opens
  reads hrest := h.reads blank_nil hrest

theorem Opens.append (h : Opens piece) (rest : List Char) : Opens (piece ++ rest) := by
  obtain ⟨c, more, rfl, hblank, hcloser⟩ := h
  exact ⟨c, more ++ rest, rfl, hblank, hcloser⟩

theorem Opens.skipBlanks (h : Opens piece) (hblanks : Blank blanks) :
    skipBlanks (blanks ++ piece) = piece := by
  obtain ⟨c, more, rfl, hblank, _⟩ := h
  rw [skipBlanks_append hblanks, skipBlanks_of_ends (ends_cons hblank more)]

theorem Opens.char?_eq_none {c : Char} (h : Opens piece) (hc : isCloser c = true) :
    Scan.char? c piece = none := by
  obtain ⟨d, more, rfl, _, hcloser⟩ := h
  refine char?_of_ne ?_ more
  rintro rfl
  simp [hc] at hcloser

/-- The pieces after the first of a list, each after a comma and blanks. -/
def following (between : List Char) (pieces : List (List Char)) : List Char :=
  pieces.flatMap fun piece => ',' :: (between ++ piece)

theorem intercalate_cons (separator piece : List Char) (pieces : List (List Char)) :
    separator.intercalate (piece :: pieces) =
      piece ++ pieces.flatMap fun piece => separator ++ piece := by
  induction pieces generalizing piece with
  | nil => simp [List.intercalate]
  | cons next pieces ih =>
      have hstep : separator.intercalate (piece :: next :: pieces) =
          piece ++ (separator ++ separator.intercalate (next :: pieces)) := by
        simp [List.intercalate, List.intersperse]
      rw [hstep, ih]
      simp

variable {between after : List Char} {closing : Char}

theorem blank_of_isCloser {c : Char} (h : isCloser c = true) : Scan.isBlank c = false := by
  cases hblank : Scan.isBlank c with
  | false => rfl
  | true =>
      rcases delimiter_cases (.inr h) with rfl | rfl | rfl | rfl | rfl | rfl | rfl | rfl <;>
        revert h hblank <;> decide

theorem skipBlanks_append_closing (hafter : Blank after) (hclosing : isCloser closing = true)
    (rest : List Char) : skipBlanks (after ++ closing :: rest) = closing :: rest := by
  rw [skipBlanks_append hafter, skipBlanks_of_ends (ends_cons (blank_of_isCloser hclosing) rest)]

theorem reads_moreItems_nil (item : Production α) (closing : Char) (rest : List Char) :
    Reads (moreItems closing item) (closing :: rest) [] rest := by
  refine ⟨by simp, ?_⟩
  rw [moreItems]
  simp

theorem reads_moreItems_cons {item : Production α} {value : α} {values : List α}
    {rest' : List Char} (hcomma : closing ≠ ',') (hfirst : Reads item (skipBlanks text) value rest)
    (hmore : Reads (moreItems closing item) rest values rest') :
    Reads (moreItems closing item) (',' :: text) (value :: values) rest' := by
  obtain ⟨hshorter, hfirst⟩ := hfirst
  obtain ⟨hshorter', hmore⟩ := hmore
  obtain ⟨_, hexpect⟩ := reads_expect ',' text
  have hle := Scan.length_skipBlanks_le text
  refine ⟨by simp only [List.length_cons]; omega, ?_⟩
  rw [moreItems]
  simp [char?_of_ne hcomma.symm, hexpect, hfirst, hmore]

/-- A list of pieces with their commas, up to the closing character. -/
def closed (between after : List Char) (pieces : List (List Char)) (closing : Char)
    (rest : List Char) : List Char :=
  following between pieces ++ after ++ closing :: rest

theorem closed_cons (pieces : List (List Char)) (rest : List Char) :
    closed between after (piece :: pieces) closing rest =
      ',' :: (between ++ (piece ++ closed between after pieces closing rest)) := by
  simp [closed, following]

theorem closes_closed (hafter : Blank after) (hclosing : isCloser closing = true)
    (pieces : List (List Char)) (rest : List Char) :
    Closes (closed between after pieces closing rest) := by
  cases pieces with
  | nil => exact closes_append_cons hafter hclosing rest
  | cons piece pieces =>
      rw [closed_cons]
      exact closes_append_cons (c := ',') blank_nil (by decide) _

theorem reads_moreItems {item : Production α} (hbetween : Blank between) (hafter : Blank after)
    (hclosing : isCloser closing = true) (hcomma : closing ≠ ',') (items : List (List Char × α))
    (hitems : ∀ entry ∈ items, ReadsItem item entry.1 entry.2) (rest : List Char) :
    Reads (moreItems closing item)
      (skipBlanks (closed between after (items.map (·.1)) closing rest)) (items.map (·.2))
      rest := by
  induction items with
  | nil =>
      have hskip : skipBlanks (closed between after [] closing rest) = closing :: rest :=
        skipBlanks_append_closing hafter hclosing rest
      rw [List.map_nil, hskip]
      exact reads_moreItems_nil item closing rest
  | cons entry items ih =>
      have hentry := hitems entry List.mem_cons_self
      have hmore := ih fun entry hmem => hitems entry (List.mem_cons_of_mem _ hmem)
      have hfirst := hentry.reads (@closes_closed between _ _ hafter hclosing
        (items.map (·.1)) rest)
      rw [List.map_cons, closed_cons, skipBlanks_of_ends (ends_cons (by decide) _)]
      refine reads_moreItems_cons hcomma ?_ hmore
      rw [(hentry.opens.append _).skipBlanks hbetween]
      exact hfirst

variable {before : List Char}

/-- A list of pieces as it stands after its opening character, up to the closing one. -/
def enclosed (before between after : List Char) (pieces : List (List Char)) (closing : Char)
    (rest : List Char) : List Char :=
  before ++ (',' :: between).intercalate pieces ++ after ++ closing :: rest

theorem enclosed_nil (rest : List Char) :
    enclosed before between after [] closing rest = before ++ after ++ closing :: rest := by
  simp [enclosed]

theorem skipBlanks_enclosed_nil (hbefore : Blank before) (hafter : Blank after)
    (hclosing : isCloser closing = true) (rest : List Char) :
    skipBlanks (enclosed before between after [] closing rest) = closing :: rest := by
  rw [enclosed_nil, List.append_assoc, skipBlanks_append hbefore,
    skipBlanks_append_closing hafter hclosing]

theorem enclosed_cons (pieces : List (List Char)) (rest : List Char) :
    enclosed before between after (piece :: pieces) closing rest =
      before ++ (piece ++ closed between after pieces closing rest) := by
  simp [enclosed, intercalate_cons, closed, following]

theorem skipBlanks_enclosed_cons (hbefore : Blank before) (hopens : Opens piece)
    (pieces : List (List Char)) (rest : List Char) :
    skipBlanks (enclosed before between after (piece :: pieces) closing rest) =
      piece ++ closed between after pieces closing rest := by
  rw [enclosed_cons, (hopens.append _).skipBlanks hbefore]

theorem reads_items_nil (item : Production α) (closing : Char) (rest : List Char) :
    Reads (items closing item) (closing :: rest) [] rest := by
  refine ⟨by simp, ?_⟩
  rw [items]
  simp

theorem reads_items_cons {item : Production α} {value : α} {values : List α} {rest' : List Char}
    (hopens : Opens text) (hclosing : isCloser closing = true) (hfirst : Reads item text value rest)
    (hmore : Reads (moreItems closing item) rest values rest') :
    Reads (items closing item) text (value :: values) rest' := by
  obtain ⟨hshorter, hfirst⟩ := hfirst
  obtain ⟨hshorter', hmore⟩ := hmore
  have hchar := hopens.char?_eq_none hclosing
  obtain ⟨c, more, rfl, _⟩ := hopens
  refine ⟨Nat.lt_trans hshorter' hshorter, ?_⟩
  rw [items]
  simp [hchar, hfirst, hmore]

/-- A bracketed list is read item by item. -/
theorem reads_items {item : Production α} (hbefore : Blank before) (hbetween : Blank between)
    (hafter : Blank after) (hclosing : isCloser closing = true) (hcomma : closing ≠ ',')
    (entries : List (List Char × α)) (hentries : ∀ entry ∈ entries, ReadsItem item entry.1 entry.2)
    (rest : List Char) :
    Reads (items closing item)
      (skipBlanks (enclosed before between after (entries.map (·.1)) closing rest))
      (entries.map (·.2)) rest := by
  cases entries with
  | nil =>
      rw [List.map_nil, skipBlanks_enclosed_nil hbefore hafter hclosing]
      exact reads_items_nil item closing rest
  | cons entry entries =>
      have hentry := hentries entry List.mem_cons_self
      have hmore := reads_moreItems hbetween hafter hclosing hcomma entries
        (fun entry hmem => hentries entry (List.mem_cons_of_mem _ hmem)) rest
      have hfirst := hentry.reads (@closes_closed between _ _ hafter hclosing
        (entries.map (·.1)) rest)
      rw [List.map_cons, skipBlanks_enclosed_cons hbefore hentry.opens]
      exact reads_items_cons (hentry.opens.append _) hclosing hfirst hmore

variable {expression : Production Operand}

theorem reads_moreArguments_nil (expression : Production Operand) (rest : List Char) :
    Reads (moreArguments expression) (')' :: rest) [] rest := by
  refine ⟨by simp, ?_⟩
  rw [moreArguments]
  simp

theorem reads_moreArguments_of_comma {arg : Operand} {args : List Operand}
    {after mid : List Char} (hclosing : Scan.char? ')' text = none)
    (hcomma : skipBlanks text = ',' :: after) (harg : Reads expression after arg mid)
    (hothers : Reads (moreArguments expression) mid args rest) :
    Reads (moreArguments expression) text (arg :: args) rest := by
  have hexpect : Reads (expect ',') (skipBlanks text) () after := by
    rw [hcomma]
    exact reads_expect ',' after
  have hne : text ≠ [] := by
    rintro rfl
    cases hcomma
  have hskip := Scan.length_skipBlanks_le text
  rw [hcomma, List.length_cons] at hskip
  obtain ⟨_, hexpect⟩ := hexpect
  obtain ⟨hshorter, harg⟩ := harg
  obtain ⟨hshorter', hothers⟩ := hothers
  refine ⟨by omega, ?_⟩
  rw [moreArguments]
  simp [hne, hclosing, hexpect, harg, hothers]

theorem reads_moreArguments_cons {arg : Operand} {args : List Operand} {rest' : List Char}
    (hfirst : Reads expression text arg rest)
    (hmore : Reads (moreArguments expression) rest args rest') :
    Reads (moreArguments expression) (',' :: text) (arg :: args) rest' :=
  reads_moreArguments_of_comma (char?_of_ne (by decide) text)
    (skipBlanks_of_ends (ends_cons (by decide) text)) hfirst hmore

theorem reads_moreArguments (hbetween : Blank between) (hafter : Blank after)
    (args : List (List Char × Operand))
    (hargs : ∀ arg ∈ args, ReadsOperand expression arg.1 arg.2) (rest : List Char) :
    Reads (moreArguments expression)
      (skipBlanks (closed between after (args.map (·.1)) ')' rest)) (args.map (·.2)) rest := by
  induction args with
  | nil =>
      have hskip : skipBlanks (closed between after [] ')' rest) = ')' :: rest :=
        skipBlanks_append_closing hafter (by decide) rest
      rw [List.map_nil, hskip]
      exact reads_moreArguments_nil expression rest
  | cons arg args ih =>
      have harg := hargs arg List.mem_cons_self
      have hmore := ih fun arg hmem => hargs arg (List.mem_cons_of_mem _ hmem)
      have hfirst := harg.reads hbetween (@closes_closed between _ ')' hafter
        (by decide) (args.map (·.1)) rest)
      rw [List.map_cons, closed_cons, skipBlanks_of_ends (ends_cons (by decide) _)]
      refine reads_moreArguments_cons ?_ hmore
      simpa using hfirst

/-- The arguments of a call are read one by one. -/
theorem reads_arguments (hbefore : Blank before) (hbetween : Blank between) (hafter : Blank after)
    (args : List (List Char × Operand))
    (hargs : ∀ arg ∈ args, ReadsOperand expression arg.1 arg.2) (rest : List Char) :
    Reads (arguments expression)
      (skipBlanks (enclosed before between after (args.map (·.1)) ')' rest)) (args.map (·.2))
      rest := by
  cases args with
  | nil =>
      rw [List.map_nil, skipBlanks_enclosed_nil hbefore hafter (by decide)]
      exact ⟨by simp, by simp [arguments]⟩
  | cons arg args =>
      have harg := hargs arg List.mem_cons_self
      obtain ⟨hshorter', hmore⟩ := reads_moreArguments hbetween hafter args
        (fun arg hmem => hargs arg (List.mem_cons_of_mem _ hmem)) rest
      obtain ⟨hshorter, hfirst⟩ := harg.reads blank_nil (@closes_closed between _ ')'
        hafter (by decide) (args.map (·.1)) rest)
      have hopens := harg.opens.append (closed between after (args.map (·.1)) ')' rest)
      have hchar := hopens.char?_eq_none
        (c := ')') (by decide)
      rw [List.map_cons, skipBlanks_enclosed_cons hbefore harg.opens]
      simp only [List.nil_append] at hfirst hshorter
      refine ⟨Nat.lt_trans hshorter' hshorter, ?_⟩
      simp [arguments, hchar, hfirst, hmore]

theorem reads_entry_of_value {name : String} {operand : Operand} {mid after : List Char}
    (hkey : Reads (key .keyExpected) text name mid) (hcolon : skipBlanks mid = ':' :: after)
    (hvalue : Reads expression after operand rest) :
    Reads (entry expression) text (name, operand) rest := by
  have hskip := Scan.length_skipBlanks_le mid
  rw [hcolon, List.length_cons] at hskip
  have hexpect : Reads (expect ':') (skipBlanks mid) () after := by
    rw [hcolon]
    exact reads_expect ':' after
  obtain ⟨hshorter, hkey⟩ := hkey
  obtain ⟨_, hexpect⟩ := hexpect
  obtain ⟨hshorter', hvalue⟩ := hvalue
  exact ⟨by omega, by simp only [entry, hkey, hexpect, hvalue]⟩

/-- A key, a colon and a value are read as an entry. -/
theorem reads_entry {keyText : List Char} {name : String} {operand : Operand}
    (hkey : KeyText keyText name) (hblanks : Blank blanks)
    (hoperand : ReadsOperand expression piece operand) (hrest : Closes rest) :
    Reads (entry expression) (keyText ++ ':' :: (blanks ++ piece ++ rest)) (name, operand)
      (skipBlanks rest) :=
  reads_entry_of_value (reads_key hkey (ends_cons (by decide) _))
    (skipBlanks_of_ends (ends_cons (by decide) _)) (hoperand.reads hblanks hrest)

/-! ## The tightest expression -/

theorem reads_path {keys : List String} (h : PathText piece keys) (hrest : Delimits rest) :
    Reads (tightest limit expression) ('.' :: piece ++ rest) { query := .get keys, height := 1 }
      rest := by
  obtain ⟨hshorter, hsegments⟩ := reads_segments h hrest.ends_isNameChar hrest.head?_ne_point
  refine ⟨Nat.lt_succ_of_lt hshorter, ?_⟩
  simp [tightest, char?_of_ne (show '.' ≠ '(' by decide), path, hsegments, Except.map, Taken.map,
    Taken.widen]

theorem reads_parenthesis {operand : Operand} (h : Reads expression text operand (')' :: rest)) :
    Reads (tightest limit expression) ('(' :: text) { operand with parenthesized := true }
      rest := by
  obtain ⟨hshorter, hoperand⟩ := h
  obtain ⟨_, hclosing⟩ := reads_expect ')' rest
  refine ⟨by simp only [List.length_cons] at hshorter ⊢; omega, ?_⟩
  simp [tightest, parenthesis, hoperand, hclosing, Except.map, Taken.widen]

/-- A name ends before the parenthesis of a call and the blanks there. -/
theorem ends_isNameChar_opening (hblanks : Blank blanks) (text : List Char) :
    Ends Scan.isNameChar (blanks ++ '(' :: text) := by
  cases blanks with
  | nil => exact ends_cons (by decide) text
  | cons b more =>
      refine ends_cons ?_ _
      rcases delimiter_cases (.inl (hblanks b List.mem_cons_self)) with
        rfl | rfl | rfl | rfl | rfl | rfl | rfl | rfl <;> decide

theorem char?_name_eq_none {name : String} (hname : isPlainName name = true) {d : Char}
    (hd : Scan.isNameStart d = false) (text : List Char) :
    Scan.char? d (name.toList ++ text) = none := by
  obtain ⟨c, more, hlist, hc, _⟩ := Scan.isPlainName_iff.1 hname
  refine char?_of_head_ne ?_
  rw [head?_append_of_cons hlist text]
  simpa using ne_of_isNameStart hc hd

theorem char?_opening (hblanks : Blank blanks) (text : List Char) :
    ∃ shorter, Scan.char? '(' (skipBlanks (blanks ++ '(' :: text)) = some ⟨(), text, shorter⟩ := by
  rw [skipBlanks_append hblanks, skipBlanks_of_ends (ends_cons (by decide) _)]
  exact ⟨_, char?_cons '(' text⟩

theorem reads_call {name : String} {args : List Operand} (hname : isPlainName name = true)
    (hblanks : Blank blanks) (hargs : Reads (arguments expression) (skipBlanks text) args rest)
    (hlimit : (Operand.call name args).height ≤ limit) :
    Reads (tightest limit expression) (name.toList ++ (blanks ++ '(' :: text)) (.call name args)
      rest := by
  obtain ⟨hshorter, hargs⟩ := hargs
  obtain ⟨_, hname'⟩ := Scan.name?_append hname (ends_isNameChar_opening hblanks text)
  have hnot (d : Char) (hd : Scan.isNameStart d = false) :
      Scan.char? d (name.toList ++ (blanks ++ '(' :: text)) = none := char?_name_eq_none hname hd _
  obtain ⟨_, hopening⟩ := char?_opening hblanks text
  have hle := Scan.length_skipBlanks_le text
  refine ⟨by simp only [List.length_append, List.length_cons]; omega, ?_⟩
  simp [tightest, hnot '(' (by decide), hnot '.' (by decide), call?, hname', hopening, hargs,
    bounded, Nat.not_lt.2 hlimit]

theorem call?_eq_none (h : ∀ c, text.head? = some c → Scan.isNameStart c = false) :
    call? limit expression text = none := by
  simp [call?, Scan.name?_eq_none h]

theorem reads_object {entries : List (String × Operand)}
    (hentries : Reads (items '\x7d' (entry expression)) (skipBlanks text) entries rest)
    (hlimit : (Operand.object entries).height ≤ limit) :
    Reads (tightest limit expression) ('\x7b' :: text) (.object entries) rest := by
  obtain ⟨hshorter, hentries⟩ := hentries
  have hcall : call? limit expression ('\x7b' :: text) = none :=
    call?_eq_none (ends_cons (by decide) text)
  have hle := Scan.length_skipBlanks_le text
  refine ⟨by simp only [List.length_cons]; omega, ?_⟩
  simp [tightest, char?_of_ne (show '\x7b' ≠ '(' by decide),
    char?_of_ne (show '\x7b' ≠ '.' by decide), hcall, object, hentries, bounded, Taken.map,
    Taken.widen, Nat.not_lt.2 hlimit, Except.map]

theorem reads_array {operands : List Operand}
    (hoperands : Reads (items ']' expression) (skipBlanks text) operands rest)
    (hlimit : (Operand.call "array" operands).height ≤ limit) :
    Reads (tightest limit expression) ('[' :: text) (.call "array" operands) rest := by
  obtain ⟨hshorter, hoperands⟩ := hoperands
  have hcall : call? limit expression ('[' :: text) = none :=
    call?_eq_none (ends_cons (by decide) text)
  have hle := Scan.length_skipBlanks_le text
  refine ⟨by simp only [List.length_cons]; omega, ?_⟩
  simp [tightest, char?_of_ne (show '[' ≠ '(' by decide), char?_of_ne (show '[' ≠ '.' by decide),
    char?_of_ne (show '[' ≠ '\x7b' by decide), hcall, array, hoperands, bounded, Taken.map,
    Taken.widen, Nat.not_lt.2 hlimit, Except.map]

/-- No literal starts like another expression, except that a keyword is a name. -/
theorem exists_head_of_literalText {value : Value} (h : LiteralText piece value) :
    ∃ c more, piece = c :: more ∧
      (c = '"' ∨ c = '-' ∨ c.isDigit = true ∨ c = 't' ∨ c = 'f' ∨ c = 'n') := by
  cases h with
  | string h =>
      obtain ⟨body, rfl, _⟩ := h
      exact ⟨'"', _, rfl, .inl rfl⟩
  | number h =>
      obtain ⟨c, more, rfl, hc⟩ := exists_head_of_numeralText h
      exact ⟨c, more, rfl, .inr (hc.imp_right .inl)⟩
  | bool b => cases b with
    | false => exact ⟨'f', _, rfl, by simp⟩
    | true => exact ⟨'t', _, rfl, by simp⟩
  | null => exact ⟨'n', _, rfl, by simp⟩

theorem ne_of_literal_head {c d : Char}
    (h : c = '"' ∨ c = '-' ∨ c.isDigit = true ∨ c = 't' ∨ c = 'f' ∨ c = 'n')
    (hd : d ∉ ['"', '-', 't', 'f', 'n']) (hdigit : d.isDigit = false) : c ≠ d := by
  rintro rfl
  simp only [List.mem_cons, List.not_mem_nil, or_false, not_or] at hd
  simp [hd, hdigit] at h

theorem isPlainName_keywordText (word : Option Bool) :
    isPlainName (String.ofList (Scan.keywordText word)) = true := by
  rcases word with _ | _ | _ <;> decide

theorem call?_keyword (word : Option Bool) (hrest : Delimits rest) :
    call? limit expression (Scan.keywordText word ++ rest) = none := by
  have hname := Scan.name?_append (isPlainName_keywordText word) hrest.ends_isNameChar
  rw [String.toList_ofList] at hname
  obtain ⟨_, hname⟩ := hname
  have hopening : Scan.char? '(' (skipBlanks rest) = none := by
    refine char?_of_head_ne fun hc => ?_
    simpa using hrest.2 '(' hc
  simp [call?, hname, hopening]

theorem call?_literal {value : Value} (h : LiteralText piece value) (hrest : Delimits rest) :
    call? limit expression (piece ++ rest) = none := by
  cases h with
  | string h =>
      obtain ⟨body, rfl, _⟩ := h
      exact call?_eq_none (ends_cons (by decide) _)
  | number h =>
      obtain ⟨c, more, rfl, hc⟩ := exists_head_of_numeralText h
      refine call?_eq_none (@ends_cons Scan.isNameStart _ ?_ _)
      rcases hc with rfl | hc
      · decide
      · exact isNameStart_of_isDigit hc
  | bool b => exact call?_keyword (some b) hrest
  | null => exact call?_keyword none hrest

/-- A literal is read before a token that is no parenthesis: a keyword there would be a call. -/
theorem reads_tightest_literal {value : Value} (hpiece : LiteralText piece value)
    (hrest : Delimits rest) :
    Reads (tightest limit expression) (piece ++ rest) (.constant value) rest := by
  obtain ⟨shorter, hliteral⟩ := reads_literal hpiece hrest.ends_isNumeralChar
  obtain ⟨c, more, hlist, hc⟩ := exists_head_of_literalText hpiece
  have hnot (d : Char) (hd : d ∉ ['"', '-', 't', 'f', 'n']) (hdigit : d.isDigit = false) :
      Scan.char? d (piece ++ rest) = none := by
    refine char?_of_head_ne ?_
    rw [head?_append_of_cons hlist]
    simpa using ne_of_literal_head hc hd hdigit
  have hcall := @call?_literal _ _ limit expression _ hpiece hrest
  refine ⟨shorter, ?_⟩
  simp [tightest, hnot '(' (by decide) (by decide), hnot '.' (by decide) (by decide), hcall,
    hnot '\x7b' (by decide) (by decide), hnot '[' (by decide) (by decide), hliteral]

/-- A piece is read after blanks as it is without them. -/
theorem reads_primary {operand : Operand} (hblanks : Blank blanks)
    (h : Reads (tightest limit expression) text operand rest) (hopens : Opens text) :
    Reads (primary limit expression) (blanks ++ text) operand rest := by
  have hskip : Reads (tightest limit expression) (skipBlanks (blanks ++ text)) operand rest := by
    rw [hopens.skipBlanks hblanks]
    exact h
  obtain ⟨shorter, htightest⟩ := hskip
  have hle := Scan.length_skipBlanks_le (blanks ++ text)
  exact ⟨by omega, by simp [primary, htightest, Except.map, Taken.widen]⟩

end Parser

end PipeQuery
