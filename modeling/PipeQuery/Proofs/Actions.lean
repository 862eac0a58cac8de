/-
What the actions of the descent do, from anywhere in a text.

An action that performs a production ends where the production leaves the text, with its value or
for its cause, and sets the cursor back no further than to the start of the production that does
so.  Performing goes through sequences of actions, so what is said of each token holds of whatever
is made of tokens.
-/
import PipeQuery.Proofs.Descent
import PipeQuery.Proofs.Places

namespace PipeQuery

namespace Descent

open PipeQuery.Parser (Operand Production Stop skipBlanks_suffix)

variable {α β : Type} {source origin rest mid left text longer : List Char} {enough enough' : Nat}

/-! ## Places in a text -/

/-- The cursor of `source` where `rest` is left. -/
def place (source rest : List Char) : Cursor :=
  ⟨source, source.length - rest.length⟩

theorem rest_place (h : rest <:+ source) : (place source rest).rest = rest := by
  obtain ⟨piece, rfl⟩ := h
  simp [place, Cursor.rest]

theorem leave_place (h : rest <:+ source) (hleft : left.length ≤ rest.length) :
    (place source rest).leave left = place source left := by
  have hlength := h.length_le
  rw [Cursor.leave, rest_place h]
  simp only [place, Cursor.moveTo, Cursor.mk.injEq, true_and]
  omega

theorem current?_place (h : rest <:+ source) : (place source rest).current? = rest.head? := by
  obtain ⟨piece, rfl⟩ := h
  cases rest <;> simp [place, Cursor.current?]

theorem atEnd_place (h : rest <:+ source) : (place source rest).atEnd = rest.isEmpty := by
  have hlength := h.length_le
  cases rest with
  | nil => simp [place, Cursor.atEnd]
  | cons c rest =>
      simp only [List.length_cons] at hlength
      refine decide_eq_false ?_
      simp only [place, List.length_cons]
      omega

/-- A step back inside a text of the given size, by a production that started at `start` or later
and not behind where it started. -/
structure Rollback.Sound (size start : Nat) (rollback : Rollback) : Prop where
  inside : rollback.source ≤ size
  back : rollback.target ≤ rollback.source
  own : rollback.start ≤ rollback.target
  nested : start ≤ rollback.start

theorem Rollback.Sound.mono {size start start' : Nat} {rollback : Rollback}
    (h : rollback.Sound size start) (hle : start' ≤ start) : rollback.Sound size start' :=
  { h with nested := Nat.le_trans hle h.nested }

/-! ## What actions perform -/

/-- From where `rest` is left the action ends with `result` where `left` is left, if `enough` calls
may be inside each other, and goes back soundly for a production that started where `origin` was
left.  An action may depend on the number of calls. -/
def Performs (source origin : List Char) (enough : Nat) (action : Nat → Action α)
    (rest : List Char) (result : Except SyntaxCause α) (left : List Char) : Prop :=
  origin <:+ source → rest <:+ origin → left <:+ origin ∧
    ∀ log, ∃ more, (∀ r ∈ more, r.Sound source.length (place source origin).position) ∧
      ∀ fuel, enough ≤ fuel →
        action fuel ⟨place source rest, log⟩ = some (result, ⟨place source left, log ++ more⟩)

namespace Performs

variable {action : Nat → Action α} {f : Nat → α → Action β} {result : Except SyntaxCause α}
  {result' : Except SyntaxCause β} {x : α} {cause : SyntaxCause}

theorem of_run {token : Action α} (hleft : left <:+ origin)
    (hrun : ∀ log, token ⟨place source rest, log⟩ = some (result, ⟨place source left, log⟩)) :
    Performs source origin enough (fun _ => token) rest result left :=
  fun _ _ => ⟨hleft, fun log =>
    ⟨[], by simp, fun _ _ => by simpa only [List.append_nil] using hrun log⟩⟩

/-- Where the action starts lies inside the text, and behind the start of its production. -/
theorem inside (h : origin <:+ source → rest <:+ origin →
    Performs source origin enough action rest result left) :
    Performs source origin enough action rest result left :=
  fun horigin hrest => h horigin hrest horigin hrest

theorem mono (h : Performs source origin enough action rest result left)
    (hle : enough ≤ enough') : Performs source origin enough' action rest result left := by
  intro horigin hrest
  obtain ⟨hleft, hrun⟩ := h horigin hrest
  refine ⟨hleft, fun log => ?_⟩
  obtain ⟨more, hmore, heq⟩ := hrun log
  exact ⟨more, hmore, fun fuel hfuel => heq fuel (Nat.le_trans hle hfuel)⟩

/-- Inside one more call. -/
theorem succ (h : Performs source origin enough (fun fuel => action (fuel + 1)) rest result left) :
    Performs source origin (enough + 1) action rest result left := by
  intro horigin hrest
  obtain ⟨hleft, hrun⟩ := h horigin hrest
  refine ⟨hleft, fun log => ?_⟩
  obtain ⟨more, hmore, heq⟩ := hrun log
  refine ⟨more, hmore, fun fuel hfuel => ?_⟩
  obtain ⟨fuel, rfl⟩ := Nat.exists_eq_add_of_le' (Nat.le_trans (Nat.le_add_left 1 enough) hfuel)
  exact heq fuel (Nat.le_of_succ_le_succ hfuel)

theorem pure (x : α) : Performs source origin enough (fun _ => pure x) rest (.ok x) rest :=
  inside fun _ hrest => of_run hrest fun _ => rfl

theorem throw (cause : SyntaxCause) :
    Performs source origin enough (fun _ => (throw cause : Action α)) rest (.error cause) rest :=
  inside fun _ hrest => of_run hrest fun _ => rfl

theorem bind (h : Performs source origin enough action rest (.ok x) mid)
    (hf : Performs source origin enough (fun fuel => f fuel x) mid result' left) :
    Performs source origin enough (fun fuel => action fuel >>= f fuel) rest result' left := by
  intro horigin hrest
  obtain ⟨hmid, hrun⟩ := h horigin hrest
  obtain ⟨hleft, hrun'⟩ := hf horigin hmid
  refine ⟨hleft, fun log => ?_⟩
  obtain ⟨more, hmore, heq⟩ := hrun log
  obtain ⟨more', hmore', heq'⟩ := hrun' (log ++ more)
  refine ⟨more ++ more', List.forall_mem_append.2 ⟨hmore, hmore'⟩, fun fuel hfuel => ?_⟩
  rw [← List.append_assoc, ← heq' fuel hfuel]
  simp only [Bind.bind, ExceptT.bind, ExceptT.mk, StateT.bind, ExceptT.bindCont, heq fuel hfuel,
    Option.bind_some]

theorem bind_error (h : Performs source origin enough action rest (.error cause) left) :
    Performs source origin enough (fun fuel => action fuel >>= f fuel) rest (.error cause)
      left := by
  intro horigin hrest
  obtain ⟨hleft, hrun⟩ := h horigin hrest
  refine ⟨hleft, fun log => ?_⟩
  obtain ⟨more, hmore, heq⟩ := hrun log
  refine ⟨more, hmore, fun fuel hfuel => ?_⟩
  simp only [Bind.bind, ExceptT.bind, ExceptT.mk, StateT.bind, ExceptT.bindCont, heq fuel hfuel,
    Option.bind_some]
  rfl

/-- A production inside another one. -/
theorem within (h : Performs source rest enough action rest result left) :
    Performs source origin enough action rest result left := by
  intro horigin hrest
  obtain ⟨hleft, hrun⟩ := h (hrest.trans horigin) (List.suffix_refl rest)
  refine ⟨hleft.trans hrest, fun log => ?_⟩
  obtain ⟨more, hmore, heq⟩ := hrun log
  have hlength := hrest.length_le
  exact ⟨more, fun r hr => (hmore r hr).mono (by simp only [place]; omega), heq⟩

theorem look {view : Cursor → α} (hview : rest <:+ source → view (place source rest) = x) :
    Performs source origin enough (fun _ => look view) rest (.ok x) rest := by
  refine inside fun horigin hrest => of_run hrest fun log => ?_
  rw [← hview (hrest.trans horigin)]
  rfl

theorem position :
    Performs source origin enough (fun _ => position) rest (.ok (place source rest).position)
      rest :=
  look fun _ => rfl

theorem move {step : Cursor → α × Cursor} (hleft : left <:+ rest)
    (hstep : rest <:+ source → step (place source rest) = (x, place source left)) :
    Performs source origin enough (fun _ => move step) rest (.ok x) left := by
  refine inside fun horigin hrest => of_run (hleft.trans hrest) fun log => ?_
  have heq := hstep (hrest.trans horigin)
  change some (Except.ok (step (place source rest)).1,
    (⟨(step (place source rest)).2, log⟩ : State)) = _
  rw [heq]

/-- Back to where `left` was left, no further than to the start of the production. -/
theorem rollback (hleft : left <:+ origin) (hrest : rest <:+ left) :
    Performs source origin enough
      (fun _ => rollback (place source origin).position (place source left).position) rest (.ok ())
      left := by
  intro horigin _
  have horiginLength := horigin.length_le
  have hleftLength := hleft.length_le
  have hrestLength := hrest.length_le
  refine ⟨hleft, fun log => ⟨[⟨_, (place source rest).position, _⟩], ?_, fun _ _ => rfl⟩⟩
  simp only [List.mem_singleton, forall_eq]
  constructor <;> simp only [place] <;> omega

end Performs

/-! ## Tokens -/

theorem head?_beq (c : Char) (text : List Char) :
    (text.head? == some c) = (Scan.char? c text).isSome := by
  cases text with
  | nil => rfl
  | cons d text => by_cases h : d = c <;> simp [Scan.char?, h]

theorem performs_isNext {c : Char} {taken : Taken Unit rest} (h : Scan.char? c rest = some taken) :
    Performs source origin enough (fun _ => isNext c) rest (.ok true) rest :=
  .look fun hsource => by rw [current?_place hsource, head?_beq, h, Option.isSome_some]

theorem performs_isNext_none {c : Char} (h : Scan.char? c rest = none) :
    Performs source origin enough (fun _ => isNext c) rest (.ok false) rest :=
  .look fun hsource => by rw [current?_place hsource, head?_beq, h, Option.isSome_none]

theorem performs_isOver {closing : Char} {ended : Bool}
    (h : (rest.isEmpty || (Scan.char? closing rest).isSome) = ended) :
    Performs source origin enough (fun _ => isOver closing) rest (.ok ended) rest :=
  .look fun hsource => by rw [atEnd_place hsource, current?_place hsource, head?_beq, h]

theorem performs_skipBlanks :
    Performs source origin enough (fun _ => skipBlanks) rest (.ok ()) (Scan.skipBlanks rest) :=
  .move (skipBlanks_suffix rest) fun hsource => by
    rw [Cursor.skipBlanks, rest_place hsource, leave_place hsource (Scan.length_skipBlanks_le rest)]

section Take

variable {scanner : (text : List Char) → Option (Taken α text)} {cursor : Cursor}

theorem take_of_some (hrest : cursor.rest = text) {taken : Taken α text}
    (h : scanner text = some taken) :
    cursor.take scanner = (some taken.value, cursor.leave taken.rest) := by
  subst hrest
  simp only [Cursor.take, h]

theorem take_of_none (hrest : cursor.rest = text) (h : scanner text = none) :
    cursor.take scanner = (none, cursor) := by
  subst hrest
  simp only [Cursor.take, h]

theorem takeString_of_found (hrest : cursor.rest = text) {taken : Taken String text}
    (h : Scan.string text = .found taken) :
    cursor.takeString = (.ok (some taken.value), cursor.leave taken.rest) := by
  subst hrest
  simp only [Cursor.takeString, h]

theorem takeString_of_malformed (hrest : cursor.rest = text) (h : Scan.string text = .malformed) :
    cursor.takeString = (.error .invalidString, cursor) := by
  subst hrest
  simp only [Cursor.takeString, h]

theorem takeString_of_absent (hrest : cursor.rest = text) (h : Scan.string text = .absent) :
    cursor.takeString = (.ok none, cursor) := by
  subst hrest
  simp only [Cursor.takeString, h]

theorem performs_take {taken : Taken α rest} (h : scanner rest = some taken) {piece : List Char}
    (hpiece : rest = piece ++ taken.rest) :
    Performs source origin enough (fun _ => take scanner) rest (.ok (some taken.value))
      taken.rest :=
  .move ⟨piece, hpiece.symm⟩ fun hsource => by
    rw [take_of_some (rest_place hsource) h, leave_place hsource (Nat.le_of_lt taken.shorter)]

theorem performs_take_none (h : scanner rest = none) :
    Performs source origin enough (fun _ => take scanner) rest (.ok none) rest :=
  .move (List.suffix_refl rest) fun hsource => take_of_none (rest_place hsource) h

end Take

theorem performs_eat {c : Char} {taken : Taken Unit rest} (h : Scan.char? c rest = some taken) :
    Performs source origin enough (fun _ => eat c) rest (.ok true) taken.rest :=
  have hpiece : rest = [c] ++ taken.rest := Parser.eq_cons_of_char? h
  .bind (performs_take h hpiece) (.pure true)

theorem performs_eat_none {c : Char} (h : Scan.char? c rest = none) :
    Performs source origin enough (fun _ => eat c) rest (.ok false) rest :=
  .bind (performs_take_none h) (.pure false)

theorem performs_string {taken : Taken String rest} (h : Scan.string rest = .found taken) :
    Performs source origin enough (fun _ => string?) rest (.ok (some taken.value)) taken.rest := by
  obtain ⟨literal, heq, -⟩ := Scan.stringLiteral_of_string h
  have hsuffix : taken.rest <:+ rest := ⟨literal, heq.symm⟩
  have hmove : Performs source origin enough (fun _ => move Cursor.takeString) rest
      (.ok (.ok (some taken.value))) taken.rest :=
    .move hsuffix fun hsource => by
      rw [takeString_of_found (rest_place hsource) h, leave_place hsource hsuffix.length_le]
  exact hmove.bind (.pure (some taken.value))

theorem performs_string_malformed (h : Scan.string rest = .malformed) :
    Performs source origin enough (fun _ => string?) rest (.error .invalidString) rest :=
  have hmove : Performs source origin enough (fun _ => move Cursor.takeString) rest
      (.ok (.error .invalidString)) rest :=
    .move (List.suffix_refl rest) fun hsource => takeString_of_malformed (rest_place hsource) h
  hmove.bind (.throw .invalidString)

theorem performs_string_absent (h : Scan.string rest = .absent) :
    Performs source origin enough (fun _ => string?) rest (.ok none) rest :=
  have hmove : Performs source origin enough (fun _ => move Cursor.takeString) rest
      (.ok (.ok none)) rest :=
    .move (List.suffix_refl rest) fun hsource => takeString_of_absent (rest_place hsource) h
  hmove.bind (.pure none)

/-! ## What follows a production -/

/-- From where `rest` is left the action performs what a production has taken from a text. -/
def Carries (source origin : List Char) (enough : Nat) (action : Nat → Action α)
    (rest : List Char) :
    Except Stop (Taken α text) → Prop
  | .ok taken => Performs source origin enough action rest (.ok taken.value) taken.rest
  | .error stop => Performs source origin enough action rest (.error stop.cause) stop.rest

namespace Carries

variable {action : Nat → Action α} {outcome : Except Stop (Taken α text)}

/-- What goes on behind an action: it has stopped, or it has a value. -/
@[elab_as_elim]
theorem elim {motive : Except Stop (Taken α text) → Prop}
    (h : Carries source origin enough action rest outcome)
    (error : ∀ stop, Performs source origin enough action rest (.error stop.cause) stop.rest →
      motive (.error stop))
    (ok : ∀ taken, Performs source origin enough action rest (.ok taken.value) taken.rest →
      motive (.ok taken)) : motive outcome := by
  cases outcome with
  | error stop => exact error stop h
  | ok taken => exact ok taken h

/-- What goes on behind an action whose value is made from the one that was taken. -/
@[elab_as_elim]
theorem elim_map {action : Nat → Action β} {f : α → β} {motive : Except Stop (Taken α text) → Prop}
    (h : Carries source origin enough action rest (outcome.map (·.map f)))
    (error : ∀ stop, Performs source origin enough action rest (.error stop.cause) stop.rest →
      motive (.error stop))
    (ok : ∀ taken, Performs source origin enough action rest (.ok (f taken.value)) taken.rest →
      motive (.ok taken)) : motive outcome := by
  cases outcome with
  | error stop => exact error stop h
  | ok taken => exact ok taken h

/-- Behind an action that has a value, what goes on with the value. -/
theorem bind {first : Nat → Action β} {x : β} {f : Nat → β → Action α}
    (h : Performs source origin enough first rest (.ok x) mid)
    (hf : Carries source origin enough (fun fuel => f fuel x) mid outcome) :
    Carries source origin enough (fun fuel => first fuel >>= f fuel) rest outcome := by
  cases outcome with
  | error stop => exact Performs.bind h hf
  | ok taken => exact Performs.bind h hf

theorem succ (h : Carries source origin enough (fun fuel => action (fuel + 1)) rest outcome) :
    Carries source origin (enough + 1) action rest outcome := by
  cases outcome with
  | error stop => exact Performs.succ h
  | ok taken => exact Performs.succ h

theorem inside (h : origin <:+ source → rest <:+ origin →
    Carries source origin enough action rest outcome) :
    Carries source origin enough action rest outcome := by
  cases outcome with
  | error stop => exact Performs.inside h
  | ok taken => exact Performs.inside h

theorem mono (h : Carries source origin enough action rest outcome) (hle : enough ≤ enough') :
    Carries source origin enough' action rest outcome := by
  cases outcome with
  | error stop => exact Performs.mono h hle
  | ok taken => exact Performs.mono h hle

theorem within (h : Carries source rest enough action rest outcome) :
    Carries source origin enough action rest outcome := by
  cases outcome with
  | error stop => exact Performs.within h
  | ok taken => exact Performs.within h

theorem widen (h : Carries source origin enough action rest outcome)
    (hlength : text.length ≤ longer.length) :
    Carries source origin enough action rest (outcome.map (·.widen hlength)) := by
  cases outcome with
  | error stop => exact h
  | ok taken => exact h

end Carries

/-- An action that performs a production wherever it starts, with calls enough for the length of the
text. -/
def Follows (enough : Nat → Nat) (action : Nat → Action α) (production : Production α) : Prop :=
  ∀ source text, Carries source text (enough source.length) action text (production text)

theorem Follows.mono {enough enough' : Nat → Nat} {action : Nat → Action α}
    {production : Production α} (h : Follows enough action production)
    (hle : ∀ length, enough length ≤ enough' length) : Follows enough' action production :=
  fun source text => (h source text).mono (hle source.length)

theorem Follows.within {enough : Nat → Nat} {action : Nat → Action α} {production : Production α}
    (h : Follows enough action production) (source origin text : List Char) :
    Carries source origin (enough source.length) action text (production text) :=
  (h source text).within

theorem performs_expect {c : Char} {taken : Taken Unit rest} (h : Scan.char? c rest = some taken) :
    Performs source origin enough (fun _ => expect c) rest (.ok ()) taken.rest :=
  .bind (performs_eat h) (.pure ())

theorem performs_expect_none {c : Char} (h : Scan.char? c rest = none) :
    Performs source origin enough (fun _ => expect c) rest (.error (.charExpected c)) rest :=
  .bind (performs_eat_none h) (.throw (.charExpected c))

theorem carries_expect (c : Char) (source origin text : List Char) :
    Carries source origin enough (fun _ => expect c) text (Parser.expect c text) := by
  unfold Parser.expect
  split
  · exact performs_expect ‹_›
  · exact performs_expect_none ‹_›

theorem carries_key (expected : SyntaxCause) (source origin text : List Char) :
    Carries source origin enough (fun _ => key expected) text (Parser.key expected text) := by
  unfold Parser.key
  split
  · exact (performs_string ‹_›).bind (.pure _)
  · exact (performs_string_malformed ‹_›).bind_error
  refine .bind (performs_string_absent ‹_›) ?_
  dsimp only
  split
  · rename_i name hname
    exact (performs_take hname (Scan.isPlainName_of_name? hname).1).bind (.pure _)
  refine .bind (performs_take_none ‹_›) ?_
  dsimp only
  split
  · rename_i digits hdigits
    exact (performs_take hdigits (Scan.whole_of_whole? hdigits).1).bind (.pure _)
  · exact (performs_take_none ‹_›).bind (.throw _)

theorem carries_literal (source origin text : List Char) :
    Carries source origin enough (fun _ => literal) text (Parser.literal text) := by
  unfold Parser.literal
  dsimp only
  split
  · exact (performs_string ‹_›).bind (.pure _)
  · exact (performs_string_malformed ‹_›).bind_error
  refine .bind (performs_string_absent ‹_›) ?_
  dsimp only
  split
  · rename_i numeral hnumeral
    obtain ⟨written, hwritten, -⟩ := Scan.numeralText_of_numeral? hnumeral
    exact (performs_take hnumeral hwritten).bind (.pure _)
  refine .bind (performs_take_none ‹_›) ?_
  dsimp only
  split
  · rename_i word hword
    obtain ⟨word, rest, shorter⟩ := word
    refine (performs_take hword (Scan.eq_append_of_keyword? hword)).bind ?_
    cases word <;> exact .pure _
  · exact (performs_take_none ‹_›).bind (.throw _)

theorem performs_bounded {limit : Nat} {operand : Operand} (h : ¬ limit < operand.height) :
    Performs source origin enough (fun _ => bounded limit operand) rest (.ok operand) rest := by
  rw [bounded, if_neg h]
  exact .pure operand

theorem performs_bounded_error {limit : Nat} {operand : Operand} (h : limit < operand.height) :
    Performs source origin enough (fun _ => bounded limit operand) rest (.error (.tooDeep limit))
      rest := by
  rw [bounded, if_pos h]
  exact .throw (.tooDeep limit)

theorem carries_bounded (limit : Nat) (taken : Taken Operand text) :
    Carries source origin enough (fun _ => bounded limit taken.value) taken.rest
      (Parser.bounded limit taken) := by
  unfold Parser.bounded
  split
  · exact performs_bounded_error ‹_›
  · exact performs_bounded ‹_›

end Descent

end PipeQuery
