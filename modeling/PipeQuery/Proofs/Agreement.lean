/-
Two readers for the same text whose results agree.

Their expressions give the same values and the same refusals, apart from where a refusal of nesting
is placed.  Every production over such expressions then agrees as well, and what is left of the text
is always an end of the whole text.
-/
import Mathlib.Data.Nat.Init
import PipeQuery.Proofs.Soundness

namespace PipeQuery

open Scan (skipBlanks)

/-- The same value, with the blanks after it taken as well. -/
def Taken.trim {α : Type} {text : List Char} (taken : Taken α text) : Taken α text :=
  ⟨taken.value, skipBlanks taken.rest,
    Nat.lt_of_le_of_lt (Scan.length_skipBlanks_le taken.rest) taken.shorter⟩

namespace Parser

variable {α β : Type} {limit : Nat} {whole text text' : List Char} {late loose : Prop}

/-! ## Results that agree -/

/-- The same place, or the place behind the blanks for a refusal of nesting. -/
inductive Displaced (limit : Nat) (whole : List Char) (late : Prop) : Stop → Stop → Prop
  | same (stop : Stop) : Displaced limit whole late stop stop
  | late {rest : List Char} (hlate : late) (hrest : rest <:+ whole) :
      Displaced limit whole late ⟨.tooDeep limit, rest⟩ ⟨.tooDeep limit, skipBlanks rest⟩

/-- Results of two readers for the same text inside `whole`.  They differ at most in where a
refusal of nesting is placed and, if `loose`, in whether the blanks after the value are taken. -/
inductive Agrees (limit : Nat) (whole : List Char) (late loose : Prop) :
    Except Stop (Taken α text) → Except Stop (Taken α text) → Prop
  | ok {taken : Taken α text} (hrest : taken.rest <:+ whole) :
      Agrees limit whole late loose (.ok taken) (.ok taken)
  | trimmed {taken : Taken α text} (hloose : loose) (hrest : taken.rest <:+ whole) :
      Agrees limit whole late loose (.ok taken) (.ok taken.trim)
  | error {stop stop' : Stop} (h : Displaced limit whole late stop stop') :
      Agrees limit whole late loose (.error stop) (.error stop')

namespace Agrees

variable {x x' : Except Stop (Taken α text)}

theorem of_eq (h : ∀ taken, x = .ok taken → taken.rest <:+ whole) :
    Agrees limit whole late loose x x := by
  cases x with
  | error stop => exact .error (.same stop)
  | ok taken => exact .ok (h taken rfl)

theorem strict_cases (h : Agrees limit whole late False x x') :
    (∃ stop stop', x = .error stop ∧ x' = .error stop' ∧ Displaced limit whole late stop stop') ∨
      ∃ taken, x = .ok taken ∧ x' = .ok taken ∧ taken.rest <:+ whole := by
  cases h with
  | ok hrest => exact .inr ⟨_, rfl, rfl, hrest⟩
  | trimmed hloose => exact hloose.elim
  | error h => exact .inl ⟨_, _, rfl, rfl, h⟩

theorem exists_of_error {stop : Stop} (h : Agrees limit whole late loose (.error stop) x') :
    ∃ stop', x' = .error stop' ∧ Displaced limit whole late stop stop' := by
  cases h with
  | error h => exact ⟨_, rfl, h⟩

theorem exists_of_ok {taken : Taken α text} (h : Agrees limit whole late loose (.ok taken) x') :
    taken.rest <:+ whole ∧ ∃ taken', x' = .ok taken' ∧ taken'.value = taken.value ∧
      (taken'.rest = taken.rest ∨ loose ∧ taken'.rest = skipBlanks taken.rest) := by
  cases h with
  | ok hrest => exact ⟨hrest, _, rfl, rfl, .inl rfl⟩
  | trimmed hloose hrest => exact ⟨hrest, _, rfl, rfl, .inr ⟨hloose, rfl⟩⟩

theorem map {f : Taken α text → Taken β text'} (h : Agrees limit whole late False x x')
    (hf : ∀ taken, (f taken).rest = taken.rest) :
    Agrees limit whole late loose (x.map f) (x'.map f) := by
  cases h with
  | ok hrest => exact .ok ((hf _).symm ▸ hrest)
  | trimmed hloose => exact hloose.elim
  | error h => exact .error h

theorem loosen (h : Agrees limit whole late False x x') : Agrees limit whole late loose x x' := by
  cases h with
  | ok hrest => exact .ok hrest
  | trimmed hloose => exact hloose.elim
  | error h => exact .error h

end Agrees

/-- Productions that agree on every text inside `whole`. -/
def Agree (limit : Nat) (whole : List Char) (late loose : Prop) (p p' : Production α) : Prop :=
  ∀ ⦃text : List Char⦄, text <:+ whole → Agrees limit whole late loose (p text) (p' text)

theorem skipBlanks_suffix (text : List Char) : skipBlanks text <:+ text :=
  List.dropWhile_suffix _

theorem suffix_of_char? {c : Char} {taken : Taken Unit text} (h : Scan.char? c text = some taken)
    (htext : text <:+ whole) : taken.rest <:+ whole := by
  rw [eq_cons_of_char? h] at htext
  exact (List.suffix_cons _ _).trans htext

theorem suffix_of_expect {c : Char} {taken : Taken Unit text} (h : expect c text = .ok taken)
    (htext : text <:+ whole) : taken.rest <:+ whole := by
  rw [eq_cons_of_expect h] at htext
  exact (List.suffix_cons _ _).trans htext

theorem suffix_of_sound {production : Production α} {Written : List Char → α → Prop}
    (hsound : Sound production Written) {taken : Taken α text} (h : production text = .ok taken)
    (htext : text <:+ whole) : taken.rest <:+ whole := by
  obtain ⟨piece, heq, _⟩ := hsound h
  rw [heq] at htext
  exact (List.suffix_append _ _).trans htext

theorem agree_of_sound {production : Production α} {Written : List Char → α → Prop}
    (hsound : Sound production Written) : Agree limit whole late loose production production :=
  fun _ htext => .of_eq fun _ h => suffix_of_sound hsound h htext

/-! ## Productions over an expression -/

section Nested

variable {expression expression' : Production Operand}

theorem agree_moreArguments (h : Agree limit whole late False expression expression') :
    Agree limit whole late False (moreArguments expression) (moreArguments expression') := by
  intro text
  induction hlength : text.length using Nat.strong_induction_on generalizing text with
  | h length ih =>
      intro htext
      unfold moreArguments
      split
      · exact .error (.same _)
      cases hclosing : Scan.char? ')' text with
      | some closing => exact .ok (suffix_of_char? hclosing htext)
      | none =>
          cases hcomma : expect ',' (skipBlanks text) with
          | error stop => exact .error (.same stop)
          | ok comma =>
              have hrest := suffix_of_expect hcomma ((skipBlanks_suffix text).trans htext)
              rcases (h hrest).strict_cases with
                ⟨stop, stop', harg, harg', hstop⟩ | ⟨arg, harg, harg', hrest⟩
              · simp only [harg, harg']
                exact .error hstop
              · have hshorter : arg.rest.length < length := by
                  have := arg.shorter
                  have := comma.shorter
                  have := Scan.length_skipBlanks_le text
                  omega
                rcases (ih _ hshorter rfl hrest).strict_cases with
                  ⟨stop, stop', hmore, hmore', hstop⟩ | ⟨more, hmore, hmore', hrest⟩
                · simp only [harg, harg', hmore, hmore']
                  exact .error hstop
                · simp only [harg, harg', hmore, hmore']
                  exact .ok hrest

theorem agree_arguments (h : Agree limit whole late False expression expression') :
    Agree limit whole late False (arguments expression) (arguments expression') := by
  intro text htext
  unfold arguments
  cases hclosing : Scan.char? ')' text with
  | some closing => exact .ok (suffix_of_char? hclosing htext)
  | none =>
      rcases (h htext).strict_cases with
        ⟨stop, stop', harg, harg', hstop⟩ | ⟨arg, harg, harg', hrest⟩
      · simp only [harg, harg']
        exact .error hstop
      rcases (agree_moreArguments h hrest).strict_cases with
        ⟨stop, stop', hmore, hmore', hstop⟩ | ⟨more, hmore, hmore', hrest⟩
      · simp only [harg, harg', hmore, hmore']
        exact .error hstop
      · simp only [harg, harg', hmore, hmore']
        exact .ok hrest

theorem agree_entry (h : Agree limit whole late False expression expression') :
    Agree limit whole late False (entry expression) (entry expression') := by
  intro text htext
  unfold entry
  cases hname : key .keyExpected text with
  | error stop => exact .error (.same stop)
  | ok name =>
      have hrest := suffix_of_sound (sound_key _) hname htext
      cases hcolon : expect ':' (skipBlanks name.rest) with
      | error stop =>
          simp only [hcolon]
          exact .error (.same stop)
      | ok colon =>
          have hrest := suffix_of_expect hcolon ((skipBlanks_suffix _).trans hrest)
          rcases (h hrest).strict_cases with
            ⟨stop, stop', hvalue, hvalue', hstop⟩ | ⟨value, hvalue, hvalue', hrest⟩
          · simp only [hcolon, hvalue, hvalue']
            exact .error hstop
          · simp only [hcolon, hvalue, hvalue']
            exact .ok hrest

section Lists

variable (closing : Char) {item item' : Production α}

theorem agree_moreItems (h : Agree limit whole late False item item') :
    Agree limit whole late False (moreItems closing item) (moreItems closing item') := by
  intro text
  induction hlength : text.length using Nat.strong_induction_on generalizing text with
  | h length ih =>
      intro htext
      unfold moreItems
      split
      · exact .error (.same _)
      cases hlast : Scan.char? closing text with
      | some last => exact .ok (suffix_of_char? hlast htext)
      | none =>
          cases hcomma : expect ',' text with
          | error stop => exact .error (.same stop)
          | ok comma =>
              have hrest := (skipBlanks_suffix _).trans (suffix_of_expect hcomma htext)
              rcases (h hrest).strict_cases with
                ⟨stop, stop', hfirst, hfirst', hstop⟩ | ⟨first, hfirst, hfirst', hrest⟩
              · simp only [hfirst, hfirst']
                exact .error hstop
              have hshorter : first.rest.length < length := by
                have := first.shorter
                have := comma.shorter
                have := Scan.length_skipBlanks_le comma.rest
                omega
              rcases (ih _ hshorter rfl hrest).strict_cases with
                ⟨stop, stop', hmore, hmore', hstop⟩ | ⟨more, hmore, hmore', hrest⟩
              · simp only [hfirst, hfirst', hmore, hmore']
                exact .error hstop
              · simp only [hfirst, hfirst', hmore, hmore']
                exact .ok hrest

theorem agree_items (h : Agree limit whole late False item item') :
    Agree limit whole late False (items closing item) (items closing item') := by
  intro text htext
  unfold items
  split
  · exact .error (.same _)
  cases hlast : Scan.char? closing text with
  | some last => exact .ok (suffix_of_char? hlast htext)
  | none =>
      rcases (h htext).strict_cases with
        ⟨stop, stop', hfirst, hfirst', hstop⟩ | ⟨first, hfirst, hfirst', hrest⟩
      · simp only [hfirst, hfirst']
        exact .error hstop
      rcases (agree_moreItems closing h hrest).strict_cases with
        ⟨stop, stop', hmore, hmore', hstop⟩ | ⟨more, hmore, hmore', hrest⟩
      · simp only [hfirst, hfirst', hmore, hmore']
        exact .error hstop
      · simp only [hfirst, hfirst', hmore, hmore']
        exact .ok hrest

end Lists

theorem agrees_bounded {taken : Taken Operand text} (hrest : taken.rest <:+ whole) :
    Agrees limit whole late loose (bounded limit taken) (bounded limit taken) :=
  .of_eq fun _ h => eq_of_bounded h ▸ hrest

theorem agree_object (h : Agree limit whole late False expression expression') :
    Agree limit whole late False (object limit expression) (object limit expression') := by
  intro text htext
  unfold object
  rcases (agree_items '}' (agree_entry h) ((skipBlanks_suffix text).trans htext)).strict_cases with
    ⟨stop, stop', hentries, hentries', hstop⟩ | ⟨entries, hentries, hentries', hrest⟩
  · simp only [hentries, hentries']
    exact .error hstop
  · simp only [hentries, hentries']
    exact agrees_bounded hrest

theorem agree_array (h : Agree limit whole late False expression expression') :
    Agree limit whole late False (array limit expression) (array limit expression') := by
  intro text htext
  unfold array
  rcases (agree_items ']' h ((skipBlanks_suffix text).trans htext)).strict_cases with
    ⟨stop, stop', hoperands, hoperands', hstop⟩ | ⟨operands, hoperands, hoperands', hrest⟩
  · simp only [hoperands, hoperands']
    exact .error hstop
  · simp only [hoperands, hoperands']
    exact agrees_bounded hrest

theorem agree_parenthesis (h : Agree limit whole late False expression expression') :
    Agree limit whole late False (parenthesis expression) (parenthesis expression') := by
  intro text htext
  unfold parenthesis
  rcases (h htext).strict_cases with
    ⟨stop, stop', hinner, hinner', hstop⟩ | ⟨inner, hinner, hinner', hrest⟩
  · simp only [hinner, hinner']
    exact .error hstop
  cases hclosing : expect ')' inner.rest with
  | error stop =>
      simp only [hinner, hinner', hclosing]
      exact .error (.same stop)
  | ok closing =>
      simp only [hinner, hinner', hclosing]
      exact .ok (suffix_of_expect hclosing hrest)

/-- Both readers see a call, or neither does. -/
theorem agrees_of_call? (h : Agree limit whole late False expression expression')
    (htext : text <:+ whole) :
    (call? limit expression text = none ∧ call? limit expression' text = none) ∨
      ∃ x x', call? limit expression text = some x ∧ call? limit expression' text = some x' ∧
        Agrees limit whole late False x x' := by
  unfold call?
  cases hname : Scan.name? text with
  | none => simp
  | some name =>
      have hrest : name.rest <:+ whole := by
        rw [(Scan.isPlainName_of_name? hname).1] at htext
        exact (List.suffix_append _ _).trans htext
      cases hopening : Scan.char? '(' (skipBlanks name.rest) with
      | none => simp [hopening]
      | some opening =>
          have hrest := suffix_of_char? hopening ((skipBlanks_suffix _).trans hrest)
          right
          simp only [hopening]
          refine ⟨_, _, rfl, rfl, ?_⟩
          have hrest := (skipBlanks_suffix opening.rest).trans hrest
          rcases (agree_arguments h hrest).strict_cases with
            ⟨stop, stop', hargs, hargs', hstop⟩ | ⟨args, hargs, hargs', hrest⟩
          · simp only [hargs, hargs']
            exact .error hstop
          · simp only [hargs, hargs']
            exact agrees_bounded hrest

theorem agree_tightest (h : Agree limit whole late False expression expression') :
    Agree limit whole late False (tightest limit expression) (tightest limit expression') := by
  intro text htext
  unfold tightest
  cases hparenthesis : Scan.char? '(' text with
  | some opening =>
      exact (agree_parenthesis h (suffix_of_char? hparenthesis htext)).map fun _ => rfl
  | none =>
  cases hpoint : Scan.char? '.' text with
  | some point =>
      exact (agree_of_sound (@sound_path .builtin) (suffix_of_char? hpoint htext)).map fun _ => rfl
  | none =>
  rcases agrees_of_call? h htext with ⟨hcall, hcall'⟩ | ⟨x, x', hcall, hcall', hx⟩
  · simp only [hcall, hcall']
    cases hbrace : Scan.char? '{' text with
    | some opening => exact (agree_object h (suffix_of_char? hbrace htext)).map fun _ => rfl
    | none =>
    cases hbracket : Scan.char? '[' text with
    | some opening => exact (agree_array h (suffix_of_char? hbracket htext)).map fun _ => rfl
    | none => exact agree_of_sound (@sound_literal .builtin) htext
  · simp only [hcall, hcall']
    exact hx

theorem agree_primary (h : Agree limit whole late False expression expression') :
    Agree limit whole late False (primary limit expression) (primary limit expression') := by
  intro text htext
  exact (agree_tightest h ((skipBlanks_suffix text).trans htext)).map fun _ => rfl

end Nested

end Parser

end PipeQuery
