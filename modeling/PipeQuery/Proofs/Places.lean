/-
The places where reading stops.

Every production stops inside the text that it is given, and where it asks for a character another
one stands, or none.  Only the end of a whole text is found to have a part too much.
-/
import PipeQuery.Proofs.Conservativity

namespace PipeQuery

namespace Parser

open Scan (skipBlanks)

variable {α β : Type} {limit : Nat} {whole text text' : List Char}

/-! ## Results inside a text -/

/-- A place inside `whole` at which no character stands that was asked for. -/
structure Stop.Placed (whole : List Char) (stop : Stop) : Prop where
  suffix : stop.rest <:+ whole
  missing {c : Char} (h : stop.cause = .charExpected c) : stop.rest.head? ≠ some c
  not_part (rest : String) : stop.cause ≠ .unexpectedPart rest

/-- What is left of the text, or the place where reading stopped, is inside `whole`. -/
inductive StaysIn (whole : List Char) : Except Stop (Taken α text) → Prop
  | ok {taken : Taken α text} (hrest : taken.rest <:+ whole) : StaysIn whole (.ok taken)
  | error {stop : Stop} (h : stop.Placed whole) : StaysIn whole (.error stop)

namespace StaysIn

variable {result : Except Stop (Taken α text)}

/-- What goes on with a result: it is a place or a value. -/
@[elab_as_elim]
theorem elim {motive : Except Stop (Taken α text) → Prop} (h : StaysIn whole result)
    (error : ∀ stop, stop.Placed whole → motive (.error stop))
    (ok : ∀ taken, taken.rest <:+ whole → motive (.ok taken)) : motive result := by
  cases h with
  | ok hrest => exact ok _ hrest
  | error h => exact error _ h

theorem map {f : Taken α text → Taken β text'} (h : StaysIn whole result)
    (hf : ∀ taken, (f taken).rest = taken.rest) : StaysIn whole (result.map f) := by
  cases h with
  | ok hrest => exact .ok ((hf _).symm ▸ hrest)
  | error h => exact .error h

theorem suffix {taken : Taken α text} (h : StaysIn whole (.ok taken)) : taken.rest <:+ whole := by
  cases h with
  | ok hrest => exact hrest

theorem placed {stop : Stop} (h : StaysIn whole (.error stop : Except Stop (Taken α text))) :
    stop.Placed whole := by
  cases h with
  | error h => exact h

end StaysIn

/-- On every text inside `whole`, the production stays inside. -/
def Stays (production : Production α) : Prop :=
  ∀ ⦃whole text : List Char⦄, text <:+ whole → StaysIn whole (production text)

/-- A cause that asks for no character and is no part too much. -/
def Bare : SyntaxCause → Prop
  | .charExpected _ | .unexpectedPart _ => False
  | _ => True

theorem placed_of_bare {cause : SyntaxCause} (hcause : Bare cause) (htext : text <:+ whole) :
    Stop.Placed whole ⟨cause, text⟩ where
  suffix := htext
  missing h := by
    obtain rfl := h
    exact hcause.elim
  not_part rest h := by
    obtain rfl := h
    exact hcause

theorem placed_of_missing {c : Char} (hhead : text.head? ≠ some c) (htext : text <:+ whole) :
    Stop.Placed whole ⟨.charExpected c, text⟩ where
  suffix := htext
  missing h := by
    obtain rfl := SyntaxCause.charExpected.inj h
    exact hhead
  not_part rest h := by cases h

theorem placed_of_expect {c : Char} {stop : Stop} (h : expect c text = .error stop)
    (htext : text <:+ whole) : stop.Placed whole := by
  unfold expect at h
  split at h
  · cases h
  · rename_i hnone
    obtain rfl := Except.error.inj h
    refine placed_of_missing (fun hhead => ?_) htext
    obtain ⟨rest, rfl⟩ := List.head?_eq_some_iff.1 hhead
    rw [char?_cons] at hnone
    cases hnone

/-- The text ended where a character was asked for. -/
theorem placed_of_isEmpty {c : Char} (h : text.isEmpty = true) (htext : text <:+ whole) :
    Stop.Placed whole ⟨.charExpected c, text⟩ :=
  placed_of_missing (by simp [List.isEmpty_iff.1 h]) htext

/-! ## Tokens -/

theorem stays_key {expected : SyntaxCause} (h : Bare expected) : Stays (key expected) := by
  intro whole text htext
  cases hkey : key expected text with
  | ok taken => exact .ok (suffix_of_sound (sound_key expected) hkey htext)
  | error stop =>
      refine .error ?_
      unfold key at hkey
      split at hkey
      · cases hkey
      · obtain rfl := Except.error.inj hkey
        exact placed_of_bare trivial htext
      · split at hkey
        · cases hkey
        · split at hkey
          · cases hkey
          · obtain rfl := Except.error.inj hkey
            exact placed_of_bare h htext

theorem stays_segments : Stays segments := by
  intro whole text
  induction hlength : text.length using Nat.strong_induction_on generalizing text with
  | h length ih =>
      intro htext
      unfold segments
      refine (stays_key (show Bare .propertyExpected from trivial) htext).elim (fun _ => .error)
        fun first hfirst => ?_
      dsimp only
      split
      · exact .ok hfirst
      · rename_i point hpoint
        have hshorter : point.rest.length < length := by
          have := point.shorter
          have := first.shorter
          omega
        refine (ih _ hshorter rfl (suffix_of_char? hpoint hfirst)).elim (fun _ => .error)
          fun _ hrest => ?_
        exact .ok hrest

theorem stays_literal : Stays literal := by
  intro whole text htext
  cases hliteral : literal text with
  | ok taken => exact .ok (suffix_of_sound (@sound_literal .builtin) hliteral htext)
  | error stop =>
      refine .error ?_
      unfold literal at hliteral
      split at hliteral
      · cases hliteral
      · obtain rfl := Except.error.inj hliteral
        exact placed_of_bare trivial htext
      · split at hliteral
        · cases hliteral
        · split at hliteral
          · cases hliteral
          · obtain rfl := Except.error.inj hliteral
            exact placed_of_bare trivial htext

/-! ## Productions over an expression -/

section Nested

variable {expression : Production Operand} (h : Stays expression)
include h

theorem stays_moreArguments : Stays (moreArguments expression) := by
  intro whole text
  induction hlength : text.length using Nat.strong_induction_on generalizing text with
  | h length ih =>
      intro htext
      unfold moreArguments
      split
      · exact .error (placed_of_isEmpty ‹_› htext)
      split
      · rename_i closing hclosing
        exact .ok (suffix_of_char? hclosing htext)
      have hblanks := (skipBlanks_suffix text).trans htext
      split
      · exact .error (placed_of_expect ‹_› hblanks)
      · rename_i comma hcomma
        refine (h (suffix_of_expect hcomma hblanks)).elim (fun _ => .error) fun arg harg => ?_
        have hshorter : arg.rest.length < length := by
          have := arg.shorter
          have := comma.shorter
          have := Scan.length_skipBlanks_le text
          omega
        dsimp only
        exact (ih _ hshorter rfl harg).elim (fun _ => .error) fun _ hrest => .ok hrest

theorem stays_arguments : Stays (arguments expression) := by
  intro whole text htext
  unfold arguments
  split
  · rename_i closing hclosing
    exact .ok (suffix_of_char? hclosing htext)
  · refine (h htext).elim (fun _ => .error) fun arg harg => ?_
    dsimp only
    exact (stays_moreArguments h harg).elim (fun _ => .error) fun _ hrest => .ok hrest

theorem stays_entry : Stays (entry expression) := by
  intro whole text htext
  unfold entry
  refine (stays_key (show Bare .keyExpected from trivial) htext).elim (fun _ => .error)
    fun name hname => ?_
  dsimp only
  have hblanks := (skipBlanks_suffix name.rest).trans hname
  split
  · exact .error (placed_of_expect ‹_› hblanks)
  · rename_i colon hcolon
    exact (h (suffix_of_expect hcolon hblanks)).elim (fun _ => .error) fun _ hrest => .ok hrest

omit h in
theorem stays_moreItems {closing : Char} {item : Production α} (h : Stays item) :
    Stays (moreItems closing item) := by
  intro whole text
  induction hlength : text.length using Nat.strong_induction_on generalizing text with
  | h length ih =>
      intro htext
      unfold moreItems
      split
      · exact .error (placed_of_isEmpty ‹_› htext)
      split
      · rename_i last hlast
        exact .ok (suffix_of_char? hlast htext)
      split
      · exact .error (placed_of_expect ‹_› htext)
      · rename_i comma hcomma
        have hblanks := (skipBlanks_suffix comma.rest).trans (suffix_of_expect hcomma htext)
        refine (h hblanks).elim (fun _ => .error) fun first hfirst => ?_
        have hshorter : first.rest.length < length := by
          have := first.shorter
          have := comma.shorter
          have := Scan.length_skipBlanks_le comma.rest
          omega
        dsimp only
        exact (ih _ hshorter rfl hfirst).elim (fun _ => .error) fun _ hrest => .ok hrest

omit h in
theorem stays_items {closing : Char} {item : Production α} (h : Stays item) :
    Stays (items closing item) := by
  intro whole text htext
  unfold items
  split
  · exact .error (placed_of_isEmpty ‹_› htext)
  split
  · rename_i last hlast
    exact .ok (suffix_of_char? hlast htext)
  · refine (h htext).elim (fun _ => .error) fun first hfirst => ?_
    dsimp only
    exact (stays_moreItems h hfirst).elim (fun _ => .error) fun _ hrest => .ok hrest

omit h in
theorem staysIn_bounded {taken : Taken Operand text} (hrest : taken.rest <:+ whole) :
    StaysIn whole (bounded limit taken) := by
  unfold bounded
  split
  · exact .error (placed_of_bare trivial hrest)
  · exact .ok hrest

theorem stays_object : Stays (object limit expression) := by
  intro whole text htext
  unfold object
  refine (stays_items (stays_entry h) ((skipBlanks_suffix text).trans htext)).elim (fun _ => .error)
    fun entries hentries => ?_
  exact staysIn_bounded hentries

theorem stays_array : Stays (array limit expression) := by
  intro whole text htext
  unfold array
  refine (stays_items h ((skipBlanks_suffix text).trans htext)).elim (fun _ => .error)
    fun operands hoperands => ?_
  exact staysIn_bounded hoperands

theorem stays_parenthesis : Stays (parenthesis expression) := by
  intro whole text htext
  unfold parenthesis
  refine (h htext).elim (fun _ => .error) fun inner hinner => ?_
  dsimp only
  split
  · exact .error (placed_of_expect ‹_› hinner)
  · rename_i closing hclosing
    exact .ok (suffix_of_expect hclosing hinner)

omit h in
theorem stays_path : Stays path := by
  intro whole text htext
  unfold path
  exact (stays_segments htext).elim (fun _ => .error) fun _ hrest => .ok hrest

theorem staysIn_of_call? {result : Except Stop (Taken Operand text)}
    (hcall : call? limit expression text = some result) (htext : text <:+ whole) :
    StaysIn whole result := by
  unfold call? at hcall
  split at hcall
  · cases hcall
  · rename_i name hname
    have hrest : name.rest <:+ whole := by
      rw [(Scan.isPlainName_of_name? hname).1] at htext
      exact (List.suffix_append _ _).trans htext
    split at hcall
    · cases hcall
    · rename_i opening hopening
      have hinside := suffix_of_char? hopening ((skipBlanks_suffix _).trans hrest)
      obtain rfl := Option.some.inj hcall
      refine (stays_arguments h ((skipBlanks_suffix opening.rest).trans hinside)).elim
        (fun _ => .error) fun args hargs => ?_
      exact staysIn_bounded hargs

theorem stays_tightest : Stays (tightest limit expression) := by
  intro whole text htext
  unfold tightest
  split
  · rename_i opening hopening
    exact (stays_parenthesis h (suffix_of_char? hopening htext)).map fun _ => rfl
  split
  · rename_i point hpoint
    exact (stays_path (suffix_of_char? hpoint htext)).map fun _ => rfl
  split
  · rename_i result hresult
    exact staysIn_of_call? h hresult htext
  split
  · rename_i opening hopening
    exact (stays_object h (suffix_of_char? hopening htext)).map fun _ => rfl
  split
  · rename_i opening hopening
    exact (stays_array h (suffix_of_char? hopening htext)).map fun _ => rfl
  · exact stays_literal htext

theorem stays_primary : Stays (primary limit expression) :=
  fun _ text htext => (stays_tightest h ((skipBlanks_suffix text).trans htext)).map fun _ => rfl

end Nested

/-! ## The ladder -/

section Ladder

variable {table : OperatorTable} {operators : OperatorGroup} {tighter : Production Operand}

theorem staysIn_chain (h : Stays tighter) {left : Taken Operand text}
    (hleft : left.rest <:+ whole) :
    StaysIn whole (chain table limit operators tighter left) := by
  induction hlength : left.rest.length using Nat.strong_induction_on generalizing left with
  | h length ih =>
      have hblanks := (skipBlanks_suffix left.rest).trans hleft
      rw [chain]
      dsimp only
      split
      · exact .ok hblanks
      split
      · exact .ok hblanks
      · rename_i name after hoperator _
        have hafter := (suffix_of_operator? hblanks hoperator).1
        refine (h hafter).elim (fun _ => .error) fun right hright => ?_
        have hshorter : right.rest.length < length := by
          have := right.shorter
          have := after.property
          have := Scan.length_skipBlanks_le left.rest
          omega
        dsimp only
        split
        · exact .error (placed_of_bare trivial hright)
        · exact ih _ hshorter hright rfl

theorem stays_rung (h : Stays tighter) : Stays (rung table limit operators tighter) := by
  intro whole text htext
  unfold rung
  exact (h htext).elim (fun _ => .error) fun _ hleft => staysIn_chain h hleft

theorem stays_foldl_rung (groups : List OperatorGroup) (h : Stays tighter) :
    Stays
      (groups.foldl (fun tighter group => rung table limit (candidates group) tighter)
        tighter) := by
  induction groups generalizing tighter with
  | nil => exact h
  | cons group groups ih => exact ih (stays_rung h)

end Ladder

/-- An expression leaves an end of the text, or stops inside it where no character stands that was
asked for. -/
theorem stays_expression (table : OperatorTable) (limit budget : Nat) :
    Stays (expression table limit budget) := by
  induction budget with
  | zero => exact fun _ _ htext => .error (placed_of_bare trivial htext)
  | succ budget ih => exact stays_foldl_rung _ (stays_primary ih)

end Parser

end PipeQuery
