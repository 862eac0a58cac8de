/-
Reading a text that goes on.

What is read from a text is read from it with more behind, if a closing character or a comma stands
between what was read and what is new: no token and no operator reaches across such a character, so
the scanners stop where they stopped before.  Inside brackets the closing one is there.
-/
import PipeQuery.Proofs.Truncation

namespace PipeQuery

namespace Parser

open Scan (skipBlanks Ends Finds)

variable {α : Type} {text rest more piece : List Char} {kind : Char → Bool}

/-! ## Guards -/

/-- A character that ends every expression stands in `rest`, or is the first of `more`. -/
def Guards (rest more : List Char) : Prop :=
  ∃ c, isCloser c = true ∧ (c ∈ rest ∨ more.head? = some c)

theorem Guards.of_mem {c : Char} (hc : isCloser c = true) (hmem : c ∈ rest) : Guards rest more :=
  ⟨c, hc, .inl hmem⟩

theorem Guards.of_head {c : Char} (hc : isCloser c = true) (rest more : List Char) :
    Guards rest (c :: more) :=
  ⟨c, hc, .inr rfl⟩

theorem Guards.of_suffix (h : Guards rest more) (hsuffix : rest <:+ text) : Guards text more := by
  obtain ⟨c, hc, hmem | hhead⟩ := h
  · exact ⟨c, hc, .inl (hsuffix.subset hmem)⟩
  · exact ⟨c, hc, .inr hhead⟩

theorem Guards.of_append (h : Guards (piece ++ rest) more)
    (hpiece : ∀ c ∈ piece, isCloser c = false) : Guards rest more := by
  obtain ⟨c, hc, hmem | hhead⟩ := h
  · rcases List.mem_append.1 hmem with hmem | hmem
    · rw [hpiece c hmem] at hc
      cases hc
    · exact ⟨c, hc, .inl hmem⟩
  · exact ⟨c, hc, .inr hhead⟩

theorem Guards.of_cons {c : Char} (h : Guards (c :: rest) more) (hc : isCloser c = false) :
    Guards rest more :=
  @Guards.of_append rest more [c] h (by simpa using hc)

theorem Guards.head? (h : Guards [] more) : ∃ c others, isCloser c = true ∧ more = c :: others := by
  obtain ⟨c, hc, hmem | hhead⟩ := h
  · cases hmem
  · obtain ⟨others, rfl⟩ := List.head?_eq_some_iff.1 hhead
    exact ⟨c, others, hc, rfl⟩

/-- No character that ends every expression belongs to `kind`. -/
def Inner (kind : Char → Bool) : Prop :=
  ∀ c, isCloser c = true → kind c = false

theorem Inner.isCloser_eq_false (h : Inner kind) {c : Char} (hc : kind c = true) :
    isCloser c = false := by
  cases hcloser : isCloser c with
  | false => rfl
  | true =>
      rw [h c hcloser] at hc
      cases hc

theorem inner_isBlank : Inner Scan.isBlank :=
  fun _ => blank_of_isCloser

theorem inner_isNameStart : Inner Scan.isNameStart := by
  intro c hc
  rcases delimiter_cases (.inr hc) with rfl | rfl | rfl | rfl | rfl | rfl | rfl | rfl <;> decide

theorem inner_isNameChar : Inner Scan.isNameChar := by
  intro c hc
  rcases delimiter_cases (.inr hc) with rfl | rfl | rfl | rfl | rfl | rfl | rfl | rfl <;> decide

theorem inner_isDigit : Inner Char.isDigit := by
  intro c hc
  rcases delimiter_cases (.inr hc) with rfl | rfl | rfl | rfl | rfl | rfl | rfl | rfl <;> decide

theorem Guards.ends_append (h : Guards rest more) (hkind : Inner kind) (hends : Ends kind rest) :
    Ends kind (rest ++ more) := by
  cases rest with
  | nil =>
      obtain ⟨c, others, hc, rfl⟩ := h.head?
      exact ends_cons (hkind c hc) others
  | cons c others => exact fun d hd => hends d hd

theorem Guards.head?_append_ne {c : Char} (h : Guards rest more) (hc : isCloser c = false)
    (hhead : rest.head? ≠ some c) : (rest ++ more).head? ≠ some c := by
  cases rest with
  | nil =>
      obtain ⟨d, others, hd, rfl⟩ := h.head?
      rintro ⟨⟩
      rw [hc] at hd
      cases hd
  | cons d others => exact hhead

/-- What `kind` takes ends before the guard. -/
theorem Guards.span_append (h : Guards text more) (hkind : Inner kind) :
    (text ++ more).takeWhile kind = text.takeWhile kind ∧
      (text ++ more).dropWhile kind = text.dropWhile kind ++ more := by
  induction text with
  | nil =>
      obtain ⟨c, others, hc, rfl⟩ := h.head?
      simp [hkind c hc]
  | cons c text ih =>
      cases hc : kind c with
      | false => simp [hc]
      | true =>
          obtain ⟨htake, hdrop⟩ := ih (h.of_cons (hkind.isCloser_eq_false hc))
          simp [hc, htake, hdrop]

theorem Guards.dropWhile (h : Guards text more) (hkind : Inner kind) :
    Guards (text.dropWhile kind) more := by
  rw [← List.takeWhile_append_dropWhile (p := kind) (l := text)] at h
  exact h.of_append fun c hc => hkind.isCloser_eq_false (Scan.forall_mem_takeWhile kind text c hc)

theorem Guards.skipBlanks_append (h : Guards text more) :
    skipBlanks (text ++ more) = skipBlanks text ++ more :=
  (h.span_append inner_isBlank).2

theorem Guards.skipBlanks_append_of_skipped (h : Guards (skipBlanks text) more) :
    skipBlanks (text ++ more) = skipBlanks text ++ more :=
  (h.of_suffix (List.dropWhile_suffix _)).skipBlanks_append

/-- What starts a text that goes on, and has no such character itself, starts the text. -/
theorem Guards.prefix_of_append (h : Guards text more) (hpiece : ∀ c ∈ piece, isCloser c = false)
    (hstart : piece <+: text ++ more) : piece <+: text := by
  rcases List.prefix_or_prefix_of_prefix hstart (List.prefix_append text more) with
    hshort | ⟨tail, rfl⟩
  · exact hshort
  · cases tail with
    | nil => simp
    | cons d tail =>
        obtain ⟨c, hc, hmem | hhead⟩ := h
        · rw [hpiece c (List.mem_append_left _ hmem)] at hc
          cases hc
        · obtain ⟨others, rfl⟩ := List.head?_eq_some_iff.1 hhead
          obtain ⟨rfl, _⟩ : d = c ∧ tail <+: others := by simpa using hstart
          rw [hpiece d (by simp)] at hc
          cases hc

theorem isCloser_of_isPlainName {name : String} (h : isPlainName name = true) :
    ∀ c ∈ name.toList, isCloser c = false := by
  obtain ⟨c, others, hlist, hc, hothers⟩ := Scan.isPlainName_iff.1 h
  rw [hlist, List.forall_mem_cons]
  exact ⟨inner_isNameStart.isCloser_eq_false hc,
    fun d hd => inner_isNameChar.isCloser_eq_false (hothers d hd)⟩

/-! ## Scanners -/

theorem finds_name?_append {name : String} (h : Finds Scan.name? text name rest)
    (hguards : Guards rest more) : Finds Scan.name? (text ++ more) name (rest ++ more) := by
  obtain ⟨_, h⟩ := h
  have hends : Ends Scan.isNameChar rest := Scan.ends_of_name? h
  obtain ⟨rfl, hname⟩ : text = name.toList ++ rest ∧ isPlainName name = true :=
    Scan.isPlainName_of_name? h
  rw [List.append_assoc]
  exact Scan.name?_append hname (hguards.ends_append inner_isNameChar hends)

theorem Guards.name?_eq_none (h : Guards text more) (hname : Scan.name? text = none) :
    Scan.name? (text ++ more) = none := by
  cases text with
  | nil =>
      obtain ⟨c, others, hc, rfl⟩ := h.head?
      exact Scan.name?_eq_none (ends_cons (inner_isNameStart c hc) others)
  | cons c others =>
      by_cases hc : Scan.isNameStart c = true
      · simp [Scan.name?, hc] at hname
      · simp [Scan.name?, hc]

theorem finds_whole?_append {digits : List Char} (h : Finds Scan.whole? text digits rest)
    (hguards : Guards rest more) : Finds Scan.whole? (text ++ more) digits (rest ++ more) := by
  obtain ⟨_, h⟩ := h
  obtain ⟨rfl, hdigits⟩ : text = digits ++ rest ∧ Scan.Whole digits := Scan.whole_of_whole? h
  rw [List.append_assoc]
  cases hdigits with
  | zero => exact ⟨by simp, by simp [Scan.whole?]⟩
  | @digits c others hzero hc hothers =>
      have hends : Ends Char.isDigit rest := by
        simp only [List.cons_append, Scan.whole?, hzero, hc, if_true, if_false, Option.some.injEq,
          Taken.mk.injEq] at h
        rw [← h.2]
        exact Scan.ends_dropWhile Char.isDigit _
      exact Scan.whole?_append (.digits hzero hc hothers) (hguards.ends_append inner_isDigit hends)

theorem Guards.fraction_append (h : Guards text more) :
    Scan.fraction (text ++ more) = ((Scan.fraction text).1, (Scan.fraction text).2 ++ more) := by
  rcases text with _ | ⟨c, _ | ⟨d, others⟩⟩
  · obtain ⟨c, others, hc, rfl⟩ := h.head?
    have hpoint := ne_of_isCloser (show isCloser '.' = false by decide) hc
    simp [Scan.fraction, hpoint.symm]
  · by_cases hpoint : c = '.'
    · subst hpoint
      obtain ⟨d, others, hd, rfl⟩ := (h.of_cons (by decide)).head?
      simp [Scan.fraction, inner_isDigit d hd]
    · simp [Scan.fraction, hpoint]
  · by_cases hpoint : c = '.'
    · subst hpoint
      cases hd : d.isDigit with
      | false => simp [Scan.fraction, hd]
      | true =>
          have hothers := (h.of_cons (by decide)).of_cons (inner_isDigit.isCloser_eq_false hd)
          obtain ⟨htake, hdrop⟩ := hothers.span_append inner_isDigit
          simp [Scan.fraction, hd, htake, hdrop]
    · simp [Scan.fraction, hpoint]

theorem Guards.sign_append (h : Guards text more) :
    Scan.sign (text ++ more) = ((Scan.sign text).1, (Scan.sign text).2 ++ more) := by
  cases text with
  | nil =>
      obtain ⟨c, others, hc, rfl⟩ := h.head?
      have hminus := ne_of_isCloser (show isCloser '-' = false by decide) hc
      have hplus := ne_of_isCloser (show isCloser '+' = false by decide) hc
      simp [Scan.sign, hminus.symm, hplus.symm]
  | cons c others => exact Scan.sign_append_of_ne_nil (by simp)

theorem Guards.sign (h : Guards text more) : Guards (Scan.sign text).2 more := by
  fun_cases Scan.sign text with
  | case1 others => exact h.of_cons (by decide)
  | case2 others => exact h.of_cons (by decide)
  | case3 => exact h

theorem Guards.exponent_append (h : Guards text more) :
    Scan.exponent (text ++ more) = ((Scan.exponent text).1, (Scan.exponent text).2 ++ more) := by
  cases text with
  | nil =>
      obtain ⟨c, others, hc, rfl⟩ := h.head?
      have hlower := ne_of_isCloser (show isCloser 'e' = false by decide) hc
      have hupper := ne_of_isCloser (show isCloser 'E' = false by decide) hc
      simp [Scan.exponent, hlower.symm, hupper.symm]
  | cons e others =>
      by_cases he : e = 'e' ∨ e = 'E'
      · have hinner : isCloser e = false := by rcases he with rfl | rfl <;> decide
        have hothers := h.of_cons hinner
        obtain ⟨htake, hdrop⟩ := hothers.sign.span_append inner_isDigit
        simp only [List.cons_append, Scan.exponent, he, if_true, hothers.sign_append, htake, hdrop]
        cases (Scan.sign others).2.takeWhile Char.isDigit <;> rfl
      · simp [Scan.exponent, he]

theorem finds_magnitude?_append {negative : Bool} {numeral : Numeral}
    (h : Finds (Scan.magnitude? negative) text numeral rest) (hguards : Guards rest more) :
    Finds (Scan.magnitude? negative) (text ++ more) numeral (rest ++ more) := by
  obtain ⟨hshorter, h⟩ := h
  obtain ⟨whole, hwhole, heq⟩ := Option.map_eq_some_iff.1 h
  simp only [Taken.mk.injEq] at heq
  obtain ⟨rfl, rfl⟩ := heq
  obtain ⟨written, hafter, _⟩ := Scan.fraction_of_fraction whole.rest
  obtain ⟨written', hafter', _⟩ := Scan.exponent_of_exponent (Scan.fraction whole.rest).2
  have hexponent : Guards (Scan.fraction whole.rest).2 more := by
    rw [hafter']
    exact hguards.of_suffix (List.suffix_append _ _)
  have hfraction : Guards whole.rest more := by
    rw [hafter]
    exact hexponent.of_suffix (List.suffix_append _ _)
  have hfound : Finds Scan.whole? text whole.value whole.rest := ⟨whole.shorter, hwhole⟩
  obtain ⟨_, hwhole'⟩ := finds_whole?_append hfound hfraction
  refine ⟨by simpa using hshorter, ?_⟩
  simp only [Scan.magnitude?, hwhole', Option.map_some, hfraction.fraction_append,
    hexponent.exponent_append]

theorem finds_numeral?_append {numeral : Numeral} (h : Finds Scan.numeral? text numeral rest)
    (hguards : Guards rest more) :
    Finds Scan.numeral? (text ++ more) numeral (rest ++ more) := by
  obtain ⟨hshorter, h⟩ := h
  cases text with
  | nil => cases hshorter
  | cons c others =>
      by_cases hminus : c = '-'
      · subst hminus
        obtain ⟨taken, htaken, heq⟩ := Option.map_eq_some_iff.1 h
        simp only [Taken.widen, Taken.mk.injEq] at heq
        obtain ⟨rfl, rfl⟩ := heq
        have hfound : Finds (Scan.magnitude? true) others taken.value taken.rest :=
          ⟨taken.shorter, htaken⟩
        obtain ⟨hshorter', hfound⟩ := finds_magnitude?_append hfound hguards
        have hminus : Finds Scan.numeral? ('-' :: (others ++ more)) taken.value
            (taken.rest ++ more) := by
          refine ⟨Nat.lt_succ_of_lt hshorter', ?_⟩
          rw [Scan.numeral?_minus, hfound]
          rfl
        exact hminus
      · have hhead (text : List Char) : (c :: text).head? ≠ some '-' := by simpa using hminus
        rw [Scan.numeral?_of_head_ne (hhead others)] at h
        rw [List.cons_append, Finds, Scan.numeral?_of_head_ne (hhead _)]
        exact finds_magnitude?_append ⟨hshorter, h⟩ hguards

theorem string_append_of_found {value : String} {shorter : rest.length < text.length}
    (h : Scan.string text = .found ⟨value, rest, shorter⟩) :
    ∃ shorter, Scan.string (text ++ more) = .found ⟨value, rest ++ more, shorter⟩ := by
  obtain ⟨literal, rfl, hliteral⟩ :
      ∃ literal, text = literal ++ rest ∧ StringLiteral literal value :=
    Scan.stringLiteral_of_string h
  rw [List.append_assoc]
  exact Scan.string_append hliteral (rest ++ more)

/-- A text that does not start with a quote does not with more behind it. -/
theorem string_append_eq_absent {c : Char} {others : List Char} (hc : c ≠ '"') :
    Scan.string (c :: others ++ more) = .absent :=
  Scan.string_of_head_ne (by simpa using hc)

/-! ## Tokens -/

/-- What the production takes, it takes from a text that goes on behind a guard. -/
def Carries (production : Production α) : Prop :=
  ∀ ⦃text rest more : List Char⦄ ⦃value : α⦄, Reads production text value rest →
    Guards rest more → Reads production (text ++ more) value (rest ++ more)

theorem carries_key (expected : SyntaxCause) : Carries (key expected) := by
  intro text rest more value hreads hguards
  obtain ⟨c, others, rfl⟩ := List.exists_cons_of_length_pos (Nat.zero_lt_of_lt hreads.1)
  refine reads_key_iff.2 ?_
  cases reads_key_iff.1 hreads with
  | quoted h =>
      obtain ⟨_, hfound⟩ := @string_append_of_found _ _ more _ _ h
      exact .quoted hfound
  | name _ h =>
      have hquote : c ≠ '"' := by
        rintro rfl
        simp [Scan.name?, show Scan.isNameStart '"' = false by decide] at h
      obtain ⟨_, hname⟩ := finds_name?_append ⟨_, h⟩ hguards
      exact .name (string_append_eq_absent hquote) hname
  | @whole digits _ _ _ hname h =>
      have hquote : c ≠ '"' := by
        rintro rfl
        simp [Scan.whole?, show Char.isDigit '"' = false by decide] at h
      have hname' : Scan.name? (c :: others ++ more) = none :=
        (hguards.of_suffix ⟨digits, (Scan.whole_of_whole? h).1.symm⟩).name?_eq_none hname
      obtain ⟨_, hwhole⟩ := finds_whole?_append ⟨_, h⟩ hguards
      exact .whole (string_append_eq_absent hquote) hname' hwhole

theorem carries_segments : Carries segments := by
  intro text
  induction hlength : text.length using Nat.strong_induction_on generalizing text with
  | h length ih =>
      intro rest more names hreads hguards
      rcases reads_segments_cases hreads with
        ⟨name, rfl, hname, hpoint⟩ | ⟨name, after, others, rfl, hname, hothers⟩
      · refine reads_segments_last (carries_key _ hname hguards) ?_
        refine char?_of_head_ne (hguards.head?_append_ne (by decide) ?_)
        rintro hhead
        obtain ⟨others, rfl⟩ := List.head?_eq_some_iff.1 hhead
        simp at hpoint
      · have hafter := hguards.of_suffix (stays_segments.suffix hothers)
        have hpoint := hafter.of_suffix (List.suffix_cons '.' after)
        have hshorter := hname.1
        rw [List.length_cons] at hshorter
        exact reads_segments_cons (carries_key _ hname hpoint)
          (ih after.length (by omega) rfl hothers hguards)

theorem carries_path : Carries path := by
  intro text rest more operand hreads hguards
  obtain ⟨keys, rfl, hkeys⟩ := exists_of_reads_path hreads
  obtain ⟨hshorter, hkeys⟩ := carries_segments hkeys hguards
  exact ⟨hshorter, by simp only [path, hkeys, Taken.map]⟩

theorem carries_literal : Carries literal := by
  intro text rest more operand hreads hguards
  obtain ⟨c, others, rfl⟩ := List.exists_cons_of_length_pos (Nat.zero_lt_of_lt hreads.1)
  obtain ⟨value, rfl, hvalue⟩ := reads_literal_iff.1 hreads
  cases hvalue with
  | string h =>
      obtain ⟨_, hfound⟩ := @string_append_of_found _ _ more _ _ h
      exact reads_literal_iff.2 ⟨_, rfl, .string hfound⟩
  | number _ h =>
      have hquote : c ≠ '"' := by
        rintro rfl
        have hdigit : Ends Char.isDigit ('"' :: others) := ends_cons (by decide) others
        simp [Scan.numeral?_eq_none hdigit (by simp)] at h
      obtain ⟨_, hnumeral⟩ := finds_numeral?_append ⟨_, h⟩ hguards
      exact reads_literal_iff.2 ⟨_, rfl, .number (string_append_eq_absent hquote) hnumeral⟩
  | @bool b _ _ _ _ h =>
      rw [Scan.eq_append_of_keyword? h, List.append_assoc]
      exact reads_keyword (some b) (rest ++ more)
  | null _ _ h =>
      rw [Scan.eq_append_of_keyword? h, List.append_assoc]
      exact reads_keyword none (rest ++ more)

/-! ## Brackets -/

/-- What the production takes, it takes from any text that goes on. -/
def CarriesAlways (production : Production α) : Prop :=
  ∀ ⦃text rest : List Char⦄ ⦃value : α⦄, Reads production text value rest →
    ∀ more, Reads production (text ++ more) value (rest ++ more)

theorem char?_append_eq_none {c : Char} (h : Scan.char? c text = none) (hne : text ≠ []) :
    Scan.char? c (text ++ more) = none := by
  obtain ⟨d, others, rfl⟩ := List.exists_cons_of_ne_nil hne
  by_cases hd : d = c
  · simp [Scan.char?, hd] at h
  · simp [Scan.char?, hd]

theorem Reads.ne_nil {production : Production α} {value : α}
    (h : Reads production text value rest) :
    text ≠ [] := by
  rintro rfl
  cases h.1

section Items

variable {item : Production α} {closing : Char} (hclosing : isCloser closing = true)
  (hcomma : closing ≠ ',') (hstays : Stays item) (hcarries : Carries item)

include hclosing in
/-- The bracket that closes a list guards what is before it. -/
theorem guards_of_reads_moreItems {values : List α}
    (h : Reads (moreItems closing item) text values rest) (more : List Char) :
    Guards text more := by
  rcases reads_moreItems_cases h with ⟨rfl, _⟩ | ⟨after, _, _, _, rfl, _⟩
  · exact .of_mem hclosing List.mem_cons_self
  · exact .of_mem (show isCloser ',' = true by decide) List.mem_cons_self

include hstays in
theorem guards_of_reads_items {values : List α} (hclosing : isCloser closing = true)
    (h : Reads (items closing item) text values rest) (more : List Char) : Guards text more := by
  rcases reads_items_cases h with ⟨rfl, _⟩ | ⟨first, mid, others, _, _, hfirst, hothers⟩
  · exact .of_mem hclosing List.mem_cons_self
  · exact (guards_of_reads_moreItems hclosing hothers more).of_suffix (hstays.suffix hfirst)

include hclosing hcomma hstays hcarries

theorem carries_moreItems : CarriesAlways (moreItems closing item) := by
  intro text
  induction hlength : text.length using Nat.strong_induction_on generalizing text with
  | h length ih =>
      intro rest values hreads more
      rcases reads_moreItems_cases hreads with
        ⟨rfl, rfl⟩ | ⟨after, first, mid, others, rfl, _, rfl, hfirst, hothers⟩
      · exact reads_moreItems_nil item closing (rest ++ more)
      · have hmid := guards_of_reads_moreItems hclosing hothers more
        have hskip := Scan.length_skipBlanks_le after
        have hshorter := hfirst.1
        rw [List.length_cons] at hlength
        have hafter : Guards after more :=
          hmid.of_suffix ((hstays.suffix hfirst).trans (List.dropWhile_suffix _))
        have hfirst' : Reads item (skipBlanks (after ++ more)) first (mid ++ more) := by
          rw [hafter.skipBlanks_append]
          exact hcarries hfirst hmid
        exact reads_moreItems_cons hcomma hfirst' (ih mid.length (by omega) rfl hothers more)

theorem carries_items : CarriesAlways (items closing item) := by
  intro text rest values hreads more
  rcases reads_items_cases hreads with
    ⟨rfl, rfl⟩ | ⟨first, mid, others, habsent, rfl, hfirst, hothers⟩
  · exact reads_items_nil item closing (rest ++ more)
  · have hmid := guards_of_reads_moreItems hclosing hothers more
    exact reads_items_of_ne (char?_append_eq_none habsent hfirst.ne_nil) (hcarries hfirst hmid)
      (carries_moreItems hclosing hcomma hstays hcarries hothers more)

end Items

section Nested

variable {limit : Nat} {expression : Production Operand} {operand : Operand}

theorem guards_of_reads_moreArguments {args : List Operand}
    (h : Reads (moreArguments expression) text args rest) (more : List Char) :
    Guards text more := by
  rcases reads_moreArguments_cases h with ⟨rfl, _⟩ | ⟨after, _, _, _, _, htext, _⟩
  · exact .of_mem (show isCloser ')' = true by decide) List.mem_cons_self
  · have hcomma : Guards (skipBlanks text) more := by
      rw [htext]
      exact .of_mem (show isCloser ',' = true by decide) List.mem_cons_self
    exact hcomma.of_suffix (List.dropWhile_suffix _)

variable (hstays : Stays expression) (hcarries : Carries expression)

include hstays in
theorem guards_of_reads_arguments {args : List Operand}
    (h : Reads (arguments expression) text args rest) (more : List Char) : Guards text more := by
  rcases reads_arguments_cases h with ⟨rfl, _⟩ | ⟨arg, mid, others, _, _, harg, hothers⟩
  · exact .of_mem (show isCloser ')' = true by decide) List.mem_cons_self
  · exact (guards_of_reads_moreArguments hothers more).of_suffix (hstays.suffix harg)

include hcarries

theorem carries_moreArguments : CarriesAlways (moreArguments expression) := by
  intro text
  induction hlength : text.length using Nat.strong_induction_on generalizing text with
  | h length ih =>
      intro rest args hreads more
      have htext := guards_of_reads_moreArguments hreads more
      rcases reads_moreArguments_cases hreads with
        ⟨rfl, rfl⟩ | ⟨after, arg, mid, others, habsent, hcomma, rfl, harg, hothers⟩
      · exact reads_moreArguments_nil expression (rest ++ more)
      · have hmid := guards_of_reads_moreArguments hothers more
        have hskip := Scan.length_skipBlanks_le text
        have hshorter := harg.1
        rw [hcomma, List.length_cons] at hskip
        refine reads_moreArguments_of_comma (char?_append_eq_none habsent hreads.ne_nil) ?_
          (hcarries harg hmid) (ih mid.length (by omega) rfl hothers more)
        rw [htext.skipBlanks_append, hcomma, List.cons_append]

theorem carries_arguments : CarriesAlways (arguments expression) := by
  intro text rest args hreads more
  rcases reads_arguments_cases hreads with
    ⟨rfl, rfl⟩ | ⟨arg, mid, others, habsent, rfl, harg, hothers⟩
  · exact reads_arguments_nil expression (rest ++ more)
  · exact reads_arguments_cons (char?_append_eq_none habsent hreads.ne_nil)
      (hcarries harg (guards_of_reads_moreArguments hothers more))
      (carries_moreArguments hcarries hothers more)

include hstays

theorem carries_entry : Carries (entry expression) := by
  rintro text rest more ⟨name, operand⟩ hreads hguards
  obtain ⟨mid, after, hkey, hcolon, hvalue⟩ := exists_of_reads_entry hreads
  have hafter := hguards.of_suffix (hstays.suffix hvalue)
  have hmid : Guards mid more := by
    have hskip := hafter.of_suffix (List.suffix_cons ':' after)
    rw [← hcolon] at hskip
    exact hskip.of_suffix (List.dropWhile_suffix _)
  refine reads_entry_of_value (carries_key _ hkey hmid) ?_ (hcarries hvalue hguards)
  rw [hmid.skipBlanks_append, hcolon, List.cons_append]

/-! ## The tightest expression -/

omit hstays in
theorem carries_tightest_parenthesis
    (h : Reads (tightest limit expression) ('(' :: text) operand rest) (more : List Char) :
    Reads (tightest limit expression) ('(' :: text ++ more) operand (rest ++ more) := by
  obtain ⟨inner, rfl, hinner⟩ := exists_of_reads_parenthesis (reads_of_tightest_parenthesis h)
  exact reads_parenthesis
    (hcarries hinner (.of_mem (show isCloser ')' = true by decide) List.mem_cons_self))

theorem carries_tightest_object
    (h : Reads (tightest limit expression) ('\x7b' :: text) operand rest) (more : List Char) :
    Reads (tightest limit expression) ('\x7b' :: text ++ more) operand (rest ++ more) := by
  obtain ⟨entries, rfl, hlimit, hentries⟩ := exists_of_reads_object (reads_of_tightest_object h)
  have hitems : CarriesAlways (items '\x7d' (entry expression)) :=
    carries_items (by decide) (by decide) (stays_entry hstays) (carries_entry hstays hcarries)
  have hguards := guards_of_reads_items (stays_entry hstays) (by decide) hentries more
  refine reads_object ?_ hlimit
  rw [List.append_eq, hguards.skipBlanks_append_of_skipped]
  exact hitems hentries more

theorem carries_tightest_array
    (h : Reads (tightest limit expression) ('[' :: text) operand rest) (more : List Char) :
    Reads (tightest limit expression) ('[' :: text ++ more) operand (rest ++ more) := by
  obtain ⟨operands, rfl, hlimit, hoperands⟩ := exists_of_reads_array (reads_of_tightest_array h)
  have hitems : CarriesAlways (items ']' expression) :=
    carries_items (by decide) (by decide) hstays hcarries
  have hguards := guards_of_reads_items hstays (by decide) hoperands more
  refine reads_array ?_ hlimit
  rw [List.append_eq, hguards.skipBlanks_append_of_skipped]
  exact hitems hoperands more

omit hstays hcarries in
/-- Where no call is next in a text, none is with more behind a guard. -/
theorem Guards.call?_eq_none (hguards : Guards text more)
    (h : call? limit expression text = none) :
    call? limit expression (text ++ more) = none := by
  unfold call?
  cases hname : Scan.name? text with
  | none => rw [hguards.name?_eq_none hname]
  | some name =>
      obtain ⟨value, left, hleft⟩ := name
      obtain ⟨htext, hplain⟩ : text = value.toList ++ left ∧ isPlainName value = true :=
        Scan.isPlainName_of_name? hname
      rw [htext] at hguards
      have hleft := hguards.of_append (isCloser_of_isPlainName hplain)
      obtain ⟨_, hname'⟩ := finds_name?_append ⟨_, hname⟩ hleft
      have hopening : Scan.char? '(' (skipBlanks left) = none := by
        cases hchar : Scan.char? '(' (skipBlanks left) with
        | none => rfl
        | some opening => simp [call?, hname, hchar] at h
      have hopening' : Scan.char? '(' (skipBlanks (left ++ more)) = none := by
        rw [hleft.skipBlanks_append]
        refine char?_of_head_ne ((hleft.dropWhile inner_isBlank).head?_append_ne (by decide) ?_)
        intro hhead
        obtain ⟨others, hothers⟩ := List.head?_eq_some_iff.1 hhead
        have hskip : skipBlanks left = '(' :: others := hothers
        rw [hskip, char?_cons] at hopening
        cases hopening
      simp only [hname', hopening']

theorem carries_tightest_call {name : String} (hname : isPlainName name = true) {blanks : List Char}
    (hblanks : Grammar.Blank blanks)
    (h : Reads (tightest limit expression) (name.toList ++ (blanks ++ '(' :: text)) operand rest)
    (more : List Char) :
    Reads (tightest limit expression) (name.toList ++ (blanks ++ '(' :: text) ++ more) operand
      (rest ++ more) := by
  obtain ⟨args, rfl, hlimit, hargs⟩ := exists_of_reads_call hname hblanks h
  have hguards := guards_of_reads_arguments hstays hargs more
  have hargs' := carries_arguments hcarries hargs more
  rw [← hguards.skipBlanks_append_of_skipped] at hargs'
  simpa using reads_call hname hblanks hargs' hlimit

theorem carries_tightest : Carries (tightest limit expression) := by
  intro text rest more operand hreads hguards
  have htext : Guards text more := hguards.of_suffix ((stays_tightest hstays).suffix hreads)
  obtain ⟨c, text, rfl⟩ := List.exists_cons_of_ne_nil hreads.ne_nil
  by_cases hparenthesis : c = '('
  · subst hparenthesis
    exact carries_tightest_parenthesis hcarries hreads more
  by_cases hpoint : c = '.'
  · subst hpoint
    exact reads_tightest_point.2 (carries_path (reads_tightest_point.1 hreads) hguards)
  by_cases hbrace : c = '\x7b'
  · subst hbrace
    exact carries_tightest_object hstays hcarries hreads more
  by_cases hbracket : c = '['
  · subst hbracket
    exact carries_tightest_array hstays hcarries hreads more
  have htightest (text : List Char) : tightest limit expression (c :: text) =
      (call? limit expression (c :: text)).getD (literal (c :: text)) := by
    simp only [tightest, char?_of_ne hparenthesis, char?_of_ne hpoint, char?_of_ne hbrace,
      char?_of_ne hbracket]
    cases call? limit expression (c :: text) <;> rfl
  obtain ⟨hshorter, h⟩ := id hreads
  rw [htightest] at h
  cases hcall : call? limit expression (c :: text) with
  | some result =>
      rw [hcall] at h
      obtain rfl : result = .ok ⟨operand, rest, hshorter⟩ := h
      obtain ⟨name, after, _, hname, hopening, _⟩ := exists_of_call? hcall
      obtain ⟨hwhole, hplain⟩ := Scan.isPlainName_of_name? hname
      obtain ⟨blanks, hrest, hblanks⟩ := exists_blank_skipBlanks name.rest
      rw [hopening] at hrest
      rw [hwhole, hrest] at hreads ⊢
      exact carries_tightest_call hstays hcarries hplain hblanks hreads more
  | none =>
      rw [hcall] at h
      obtain ⟨hshorter', hliteral⟩ := @carries_literal _ rest more operand ⟨_, h⟩ hguards
      have hcall' : call? limit expression (c :: (text ++ more)) = none :=
        htext.call?_eq_none hcall
      exact ⟨hshorter', (htightest (text ++ more)).trans (by rw [hcall']; exact hliteral)⟩

theorem carries_primary : Carries (primary limit expression) := by
  intro text rest more operand hreads hguards
  have htightest := reads_primary_iff.1 hreads
  have hskipped := hguards.of_suffix ((stays_tightest hstays).suffix htightest)
  refine reads_primary_iff.2 ?_
  rw [hskipped.skipBlanks_append_of_skipped]
  exact carries_tightest hstays hcarries htightest hguards

end Nested

/-! ## Operators -/

section Operators

variable {operators : OperatorGroup} {name : String} {after : List Char}

/-- No symbol has a character that ends every expression. -/
def Unclosed (operators : OperatorGroup) : Prop :=
  ∀ entry ∈ operators, ∀ c ∈ entry.2.toList, isCloser c = false

theorem Guards.operator?_eq_none (hguards : Guards text more) (hunclosed : Unclosed operators)
    (h : operator? operators text = none) : operator? operators (text ++ more) = none := by
  refine Parser.operator?_eq_none fun entry hentry hstart => ?_
  exact operator?_ne_none hentry (hguards.prefix_of_append (hunclosed entry hentry) hstart) h

theorem Guards.operatorAt_append (hguards : Guards text more) (hunclosed : Unclosed operators)
    (h : OperatorAt operators text name after) :
    OperatorAt operators (text ++ more) name (after ++ more) := by
  induction operators with
  | nil =>
      obtain ⟨_, h⟩ := h
      cases h
  | cons entry operators ih =>
      obtain ⟨name', symbol⟩ := entry
      have hsymbol := hunclosed _ List.mem_cons_self
      by_cases hstart : symbol.toList <+: text
      · obtain ⟨rest, rfl⟩ := hstart
        obtain ⟨_, hoperator⟩ := h
        obtain ⟨_, hoperator'⟩ := @operatorAt_cons_of_append operators name' symbol rest
        obtain ⟨rfl, rfl⟩ : name' = name ∧ skipBlanks rest = after := by
          simpa using hoperator'.symm.trans hoperator
        rw [← (hguards.of_append hsymbol).skipBlanks_append, List.append_assoc]
        exact operatorAt_cons_of_append name' symbol (rest ++ more)
      · have hstart' : ¬ symbol.toList <+: text ++ more :=
          fun hstart' => hstart (hguards.prefix_of_append hsymbol hstart')
        rw [OperatorAt, operator?_cons_of_not_start hstart] at h
        rw [OperatorAt, operator?_cons_of_not_start hstart']
        exact ih (fun entry hentry => hunclosed entry (List.mem_cons_of_mem _ hentry)) h

end Operators

/-! ## The ladder -/

section Ladder

variable {table : OperatorTable} {limit level : Nat} {operators : OperatorGroup}
  {tighter base : Production Operand} {operand result : Operand} {last : List Char}

theorem Chains.suffix {outcome : Outcome Operand} (hstays : Stays tighter)
    (h : Chains table limit operators tighter operand rest outcome)
    (hok : outcome = .ok (result, last)) : last <:+ rest := by
  induction h with
  | done _ | refused _ _ =>
      obtain ⟨_, rfl⟩ : _ ∧ skipBlanks _ = last := by simpa using hok
      exact List.dropWhile_suffix _
  | halted _ _ _ => cases hok
  | @step left right rest after rest' name outcome hoperator haccepted hright hlimit _ ih =>
      obtain ⟨hafter, hoperator⟩ := hoperator
      obtain ⟨symbol, blanks, _, htext, _⟩ := exists_symbol_of_operator? hoperator
      have hsuffix : after <:+ skipBlanks rest := by
        rw [htext, ← List.append_assoc]
        exact List.suffix_append _ _
      exact (ih hok).trans ((hstays.suffix hright).trans
        (hsuffix.trans (List.dropWhile_suffix _)))

section

variable (hunclosed : Unclosed operators) (hstays : Stays tighter) (hcarries : Carries tighter)
include hunclosed hstays hcarries

theorem chains_append {outcome : Outcome Operand}
    (h : Chains table limit operators tighter operand rest outcome)
    (hok : outcome = .ok (result, last)) (hguards : Guards last more) :
    Chains table limit operators tighter operand (rest ++ more) (.ok (result, last ++ more)) := by
  induction h with
  | @done operand rest hnone =>
      obtain ⟨rfl, rfl⟩ : operand = result ∧ skipBlanks rest = last := by simpa using hok
      rw [← hguards.skipBlanks_append_of_skipped]
      refine .done ?_
      rw [hguards.skipBlanks_append_of_skipped]
      exact hguards.operator?_eq_none hunclosed hnone
  | @refused operand rest after name hoperator hrefused =>
      obtain ⟨rfl, rfl⟩ : operand = result ∧ skipBlanks rest = last := by simpa using hok
      have hoperator' := hguards.operatorAt_append hunclosed hoperator
      rw [← hguards.skipBlanks_append_of_skipped] at hoperator' ⊢
      exact .refused hoperator' hrefused
  | halted _ _ _ => cases hok
  | @step left right rest after rest' name outcome hoperator haccepted hright hlimit hchains ih =>
      have hrest' : Guards rest' more := hguards.of_suffix (hchains.suffix hstays hok)
      have hskipped : Guards (skipBlanks rest) more := by
        have hafter := hrest'.of_suffix (hstays.suffix hright)
        obtain ⟨_, hnext⟩ := hoperator
        obtain ⟨symbol, blanks, _, htext, _⟩ := exists_symbol_of_operator? hnext
        rw [htext, ← List.append_assoc]
        exact hafter.of_suffix (List.suffix_append _ _)
      refine .step ?_ haccepted (hcarries hright hrest') hlimit (ih hok)
      rw [hskipped.skipBlanks_append_of_skipped]
      exact hskipped.operatorAt_append hunclosed hoperator

theorem carries_rung : Carries (rung table limit operators tighter) := by
  intro text rest more operand h hguards
  obtain ⟨left, mid, hleft, hchains⟩ := exists_of_reads_rung h
  have hmid : Guards mid more := hguards.of_suffix (hchains.suffix hstays rfl)
  exact yields_rung (hcarries hleft hmid)
    (chains_append hunclosed hstays hcarries hchains rfl hguards)

end

variable (hunclosed : ∀ group ∈ table.groups, Unclosed group)
include hunclosed

theorem carries_ladderTo (hstays : Stays base) (hcarries : Carries base)
    (hlevel : level ≤ table.size) :
    Carries (ladderTo table limit base level) := by
  induction level with
  | zero => exact hcarries
  | succ level ih =>
      have hgroup : table.groups[level]? = some table.groups[level] :=
        List.getElem?_eq_getElem hlevel
      rw [ladderTo_succ hgroup]
      refine carries_rung (fun entry hentry => ?_) (stays_foldl_rung _ hstays)
        (ih (Nat.le_of_lt hlevel))
      exact hunclosed _ (List.mem_of_getElem? hgroup) entry (List.mem_mergeSort.1 hentry)

/-- What an expression takes, it takes from a text that goes on behind a guard. -/
theorem carries_expression (limit budget : Nat) : Carries (expression table limit budget) := by
  induction budget with
  | zero =>
      rintro text rest more operand ⟨_, h⟩
      cases h
  | succ budget ih =>
      have hstays := stays_expression table limit budget
      have hladder := @carries_ladderTo _ limit _ _ hunclosed (@stays_primary limit _ hstays)
        (carries_primary hstays ih) (Nat.le_refl table.size)
      rwa [ladderTo_size] at hladder

end Ladder

theorem unclosed_builtin : ∀ group ∈ OperatorTable.builtin.groups, Unclosed group := by
  have hnone : ∀ group ∈ OperatorTable.builtin.groups, ∀ entry ∈ group,
      entry.2.toList.any isCloser = false := by decide
  intro group hgroup entry hentry c hc
  exact Bool.eq_false_iff.2 (List.any_eq_false.1 (hnone group hgroup entry hentry) c hc)

end Parser

end PipeQuery
