/-
Scanners on a text that is cut short.

A scanner looks at what follows the piece that it takes only to see where the piece ends.  So what
it takes from a text before a cut it takes from the text up to the cut alone.
-/
import PipeQuery.Proofs.Lexeme
import PipeQuery.Proofs.StringLiteral

namespace PipeQuery

namespace Scan

variable {α : Type} {kind : Char → Bool} {text rest piece more digits : List Char}

/-- The scanner takes the value from the text and leaves the rest. -/
def Finds (scan : (text : List Char) → Option (Taken α text)) (text : List Char) (value : α)
    (rest : List Char) : Prop :=
  ∃ shorter, scan text = some ⟨value, rest, shorter⟩

theorem eq_append_of_append (h : text ++ more = piece ++ (rest ++ more)) :
    text = piece ++ rest := by
  rw [← List.append_assoc] at h
  exact List.append_cancel_right h

/-- What takes something and leaves all that was cut off has a text before the cut. -/
theorem exists_cons_of_shorter (h : (rest ++ more).length < (text ++ more).length) :
    ∃ c others, text = c :: others := by
  refine List.exists_cons_of_ne_nil ?_
  rintro rfl
  simp only [List.length_append, List.length_nil] at h
  omega

theorem Ends.of_append (h : Ends kind (rest ++ more)) : Ends kind rest := by
  intro c hc
  obtain ⟨others, rfl⟩ := List.head?_eq_some_iff.1 hc
  exact h c rfl

theorem takeWhile_of_append (h : (text ++ more).dropWhile kind = rest ++ more) :
    text.takeWhile kind = (text ++ more).takeWhile kind ∧ text.dropWhile kind = rest := by
  have hends := ends_dropWhile kind (text ++ more)
  have hall := forall_mem_takeWhile kind (text ++ more)
  have hsplit := List.takeWhile_append_dropWhile (p := kind) (l := text ++ more)
  rw [h] at hends hsplit
  have htext := eq_append_of_append hsplit.symm
  generalize (text ++ more).takeWhile kind = piece at hall htext
  subst htext
  exact ⟨takeWhile_append_ends hall hends.of_append, dropWhile_append_ends hall hends.of_append⟩

/-! ## Names and whole numbers -/

theorem ends_of_name? {taken : Taken String text} (h : name? text = some taken) :
    Ends isNameChar taken.rest := by
  cases text with
  | nil => cases h
  | cons c others =>
      by_cases hc : isNameStart c = true
      · simp only [name?, hc, if_true, Option.some.injEq] at h
        subst h
        exact ends_dropWhile isNameChar _
      · simp [name?, hc] at h

theorem finds_name? {name : String} (h : Finds name? (text ++ more) name (rest ++ more)) :
    Finds name? text name rest := by
  obtain ⟨_, h⟩ := h
  obtain ⟨htext, hname⟩ := isPlainName_of_name? h
  have hends : Ends isNameChar (rest ++ more) := ends_of_name? h
  rw [eq_append_of_append htext]
  exact name?_append hname hends.of_append

theorem finds_whole? (h : Finds whole? (text ++ more) digits (rest ++ more)) :
    Finds whole? text digits rest := by
  obtain ⟨hshorter, h⟩ := h
  obtain ⟨htext, hdigits⟩ : text ++ more = digits ++ (rest ++ more) ∧ Whole digits :=
    whole_of_whole? h
  obtain rfl := eq_append_of_append htext
  cases hdigits with
  | zero => exact ⟨by simp, by simp [whole?]⟩
  | @digits c others hzero hc hothers =>
      have hends : Ends Char.isDigit (rest ++ more) := by
        simp only [List.cons_append, whole?, hzero, hc, if_true, if_false, Option.some.injEq,
          Taken.mk.injEq] at h
        rw [← h.2]
        exact ends_dropWhile Char.isDigit _
      exact whole?_append (.digits hzero hc hothers) hends.of_append

/-! ## Numerals -/

theorem fraction_of_append (h : fraction (text ++ more) = (digits, rest ++ more)) :
    fraction text = (digits, rest) := by
  obtain ⟨written, htext, hwritten⟩ := fraction_of_fraction (text ++ more)
  rw [h] at htext hwritten
  obtain rfl := eq_append_of_append htext
  cases hwritten with
  | absent =>
      -- the digits that stand before the cut would have been taken
      rw [List.nil_append] at h ⊢
      fun_cases fraction rest with
      | case1 d others hd => simp [fraction, hd] at h
      | case2 => rfl
      | case3 => rfl
  | digits hne hdigits =>
      obtain ⟨d, others, rfl⟩ := List.exists_cons_of_ne_nil hne
      have hd := hdigits d List.mem_cons_self
      simp only [List.cons_append, fraction, hd, if_true, Prod.mk.injEq, List.cons.injEq,
        true_and] at h ⊢
      obtain ⟨htake, hdrop⟩ := takeWhile_of_append h.2
      exact ⟨htake.trans h.1, hdrop⟩

theorem sign_append_of_ne_nil (h : text ≠ []) :
    sign (text ++ more) = ((sign text).1, (sign text).2 ++ more) := by
  obtain ⟨c, others, rfl⟩ := List.exists_cons_of_ne_nil h
  by_cases hminus : c = '-'
  · subst hminus
    rfl
  by_cases hplus : c = '+'
  · subst hplus
    rfl
  · simp [sign, hminus, hplus]

theorem exponent_of_append {power : Option Int}
    (h : exponent (text ++ more) = (power, rest ++ more)) : exponent text = (power, rest) := by
  obtain ⟨written, htext, hwritten⟩ := exponent_of_exponent (text ++ more)
  rw [h] at htext hwritten
  obtain rfl := eq_append_of_append htext
  cases hwritten with
  | absent =>
      rw [List.nil_append] at h ⊢
      fun_cases exponent rest with
      | case1 => rfl
      | case2 => rfl
      | case3 e others he negative digits hsign hne =>
          -- the power that stands before the cut would have been taken
          cases digits with
          | nil => simp at hne
          | cons d digits =>
              cases hd : d.isDigit with
              | false => simp [hd] at hne
              | true =>
                  have hothers : others ≠ [] := by
                    rintro rfl
                    simp [sign] at hsign
                  have hfull := @sign_append_of_ne_nil _ more hothers
                  simp [exponent, he, hfull, hsign, hd] at h
      | case4 => rfl
  | @power e negative written digits he hsign hne hdigits =>
      obtain ⟨d, others, rfl⟩ := List.exists_cons_of_ne_nil hne
      have hd := hdigits d List.mem_cons_self
      have hfull := sign_append hsign hd (others ++ (rest ++ more))
      have hcut := sign_append hsign hd (others ++ rest)
      simp only [List.cons_append, List.append_assoc, exponent, he, if_true, hfull, hcut, hd,
        List.takeWhile_cons_of_pos, List.dropWhile_cons_of_pos, Prod.mk.injEq,
        Option.some.injEq] at h ⊢
      rw [← List.append_assoc] at h
      obtain ⟨htake, hdrop⟩ := takeWhile_of_append h.2
      rw [htake, hdrop]
      exact ⟨h.1, rfl⟩

theorem finds_magnitude? {negative : Bool} {numeral : Numeral}
    (h : Finds (magnitude? negative) (text ++ more) numeral (rest ++ more)) :
    Finds (magnitude? negative) text numeral rest := by
  obtain ⟨hshorter, h⟩ := h
  obtain ⟨whole, hwhole, heq⟩ := Option.map_eq_some_iff.1 h
  simp only [Taken.mk.injEq] at heq
  obtain ⟨rfl, hrest⟩ := heq
  obtain ⟨written, hafter, _⟩ := fraction_of_fraction whole.rest
  obtain ⟨written', hafter', _⟩ := exponent_of_exponent (fraction whole.rest).2
  rw [hrest, ← List.append_assoc] at hafter'
  rw [hafter', ← List.append_assoc] at hafter
  have hfraction : fraction (written ++ (written' ++ rest) ++ more) =
      ((fraction whole.rest).1, written' ++ rest ++ more) := by
    rw [← hafter, ← hafter']
  have hexponent : exponent (written' ++ rest ++ more) =
      ((exponent (fraction whole.rest).2).1, rest ++ more) := by
    rw [← hafter', ← hrest]
  have hfound : Finds whole? (text ++ more) whole.value
      (written ++ (written' ++ rest) ++ more) := by
    rw [← hafter]
    exact ⟨whole.shorter, hwhole⟩
  obtain ⟨hshorter, hfound⟩ := finds_whole? hfound
  have hlength : rest.length < text.length := by
    simp only [List.length_append] at hshorter
    omega
  refine ⟨hlength, ?_⟩
  simp only [magnitude?, hfound, Option.map_some, fraction_of_append hfraction,
    exponent_of_append hexponent]

theorem finds_numeral? {numeral : Numeral}
    (h : Finds numeral? (text ++ more) numeral (rest ++ more)) :
    Finds numeral? text numeral rest := by
  obtain ⟨hshorter, h⟩ := h
  obtain ⟨c, others, rfl⟩ := exists_cons_of_shorter hshorter
  by_cases hminus : c = '-'
  · subst hminus
    obtain ⟨taken, htaken, heq⟩ := Option.map_eq_some_iff.1 h
    simp only [Taken.widen, Taken.mk.injEq] at heq
    obtain ⟨rfl, hrest⟩ := heq
    have hfound : Finds (magnitude? true) (others ++ more) taken.value (rest ++ more) := by
      rw [← hrest]
      exact ⟨taken.shorter, htaken⟩
    obtain ⟨hshorter', hfound⟩ := finds_magnitude? hfound
    refine ⟨Nat.lt_succ_of_lt hshorter', ?_⟩
    rw [numeral?_minus, hfound]
    rfl
  · have hhead (text : List Char) : (c :: text).head? ≠ some '-' := by simpa using hminus
    have hfound : magnitude? false (c :: others ++ more) = some ⟨numeral, rest ++ more, hshorter⟩ :=
      (numeral?_of_head_ne (hhead _)).symm.trans h
    rw [Finds, numeral?_of_head_ne (hhead _)]
    exact finds_magnitude? ⟨hshorter, hfound⟩

/-! ## Keywords and strings -/

theorem finds_keyword? {word : Option Bool}
    (h : Finds keyword? (text ++ more) word (rest ++ more)) : Finds keyword? text word rest := by
  obtain ⟨_, h⟩ := h
  rw [eq_append_of_append (eq_append_of_keyword? h)]
  exact keyword?_append word rest

theorem string_of_append {value : String} {shorter : (rest ++ more).length < (text ++ more).length}
    (h : string (text ++ more) = .found ⟨value, rest ++ more, shorter⟩) :
    ∃ shorter, string text = .found ⟨value, rest, shorter⟩ := by
  obtain ⟨literal, htext, hliteral⟩ := stringLiteral_of_string h
  rw [eq_append_of_append htext]
  exact string_append hliteral rest

/-! ## What is not there before the cut either -/

theorem name?_eq_none_of_append (h : name? (text ++ more) = none) : name? text = none := by
  cases text with
  | nil => rfl
  | cons c others =>
      by_cases hc : isNameStart c = true
      · simp [name?, hc] at h
      · simp [name?, hc]

theorem whole?_eq_none_of_append (h : whole? (text ++ more) = none) : whole? text = none := by
  cases text with
  | nil => rfl
  | cons c others =>
      by_cases hzero : c = '0'
      · simp [whole?, hzero] at h
      · by_cases hc : c.isDigit = true
        · simp [whole?, hzero, hc] at h
        · simp [whole?, hzero, hc]

theorem numeral?_eq_none_of_append (h : numeral? (text ++ more) = none) : numeral? text = none := by
  cases text with
  | nil => rfl
  | cons c others =>
      by_cases hminus : c = '-'
      · subst hminus
        have hnone := Option.map_eq_none_iff.1 (Option.map_eq_none_iff.1 h)
        rw [numeral?_minus, magnitude?, whole?_eq_none_of_append hnone]
        rfl
      · have hhead (text : List Char) : (c :: text).head? ≠ some '-' := by simpa using hminus
        have hnone := Option.map_eq_none_iff.1 ((numeral?_of_head_ne (hhead _)).symm.trans h)
        rw [numeral?_of_head_ne (hhead _), magnitude?, whole?_eq_none_of_append hnone]
        rfl

end Scan

theorem Quoted.split?_append_more {text body after : List Char} (more : List Char)
    (h : split? text = some (body, after)) :
    split? (text ++ more) = some (body, after ++ more) := by
  obtain ⟨rfl, hbody⟩ := enclosed_of_split? h
  rw [List.append_assoc]
  exact hbody.split?_append (after ++ more)

namespace Scan

variable {text more : List Char}

/-- Quotes that match before a cut match in the whole text. -/
theorem string_eq_absent_of_append (h : string (text ++ more) = .absent) :
    string text = .absent := by
  unfold string
  split
  · rename_i rest
    split
    · rfl
    · rename_i body after hsplit
      have hfull := Quoted.split?_append_more more hsplit
      rw [List.cons_append, string] at h
      split at h
      · rename_i hnone
        rw [hfull] at hnone
        cases hnone
      · split at h
        · cases h
        · cases h
  · rfl

end Scan

end PipeQuery
