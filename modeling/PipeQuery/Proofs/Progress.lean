/-
The descent ends, and every production that succeeds has moved the cursor forward.

Each production of the descent performs the one that takes from a text.  Loops end because what
they repeat takes something, whatever the symbols of the table are: an operator may be empty, the
operand behind it is not.
-/
import PipeQuery.Proofs.Actions
import PipeQuery.Proofs.Legibility

namespace PipeQuery

namespace Parser

/-! ## The base productions one behind another -/

section Tails

variable (limit : Nat) (expression : Production Operand)

theorem length_rest_le {text : List Char} (opening : Taken Unit text) :
    opening.rest.length ≤ text.length :=
  Nat.le_of_lt opening.shorter

/-- An array or a literal. -/
def fromArray : Production Operand := fun text =>
  match Scan.char? '[' text with
  | some opening =>
    (array limit expression opening.rest).map (·.widen (length_rest_le opening))
  | none => literal text

/-- An object, or what comes behind objects. -/
def fromObject : Production Operand := fun text =>
  match Scan.char? '{' text with
  | some opening =>
    (object limit expression opening.rest).map (·.widen (length_rest_le opening))
  | none => fromArray limit expression text

/-- A call, or what comes behind calls. -/
def fromCall : Production Operand := fun text =>
  match call? limit expression text with
  | some result => result
  | none => fromObject limit expression text

/-- A property path, or what comes behind paths. -/
def fromProperty : Production Operand := fun text =>
  match Scan.char? '.' text with
  | some point => (path point.rest).map (·.widen (length_rest_le point))
  | none => fromCall limit expression text

theorem tightest_eq : tightest limit expression = fun text =>
    match Scan.char? '(' text with
    | some opening =>
      (parenthesis expression opening.rest).map (·.widen (length_rest_le opening))
    | none => fromProperty limit expression text := rfl

end Tails

end Parser

namespace Descent

open PipeQuery.Parser (Operand Production Stop)

variable {α : Type} {source origin rest mid left text : List Char} {enough : Nat}

/-! ## Lists -/

section CloseOr

variable {closing : Char} {taken : α} {more : Nat → Action α}

theorem performs_closeOr_empty (h : rest.isEmpty = true) :
    Performs source origin enough (fun fuel => closeOr closing taken (more fuel)) rest
      (.error (.charExpected closing)) rest := by
  have hnone : Scan.char? closing rest = none := by
    rw [List.isEmpty_iff.1 h]
    rfl
  exact (performs_isOver (by rw [h, Bool.true_or])).bind (performs_expect_none hnone).bind_error

theorem performs_closeOr_closing {last : Taken Unit rest}
    (h : Scan.char? closing rest = some last) :
    Performs source origin enough (fun fuel => closeOr closing taken (more fuel)) rest (.ok taken)
      last.rest :=
  (performs_isOver (by rw [h, Option.isSome_some, Bool.or_true])).bind
    ((performs_expect h).bind (.pure taken))

theorem carries_closeOr {outcome : Except Stop (Taken α text)} (hne : ¬ rest.isEmpty = true)
    (h : Scan.char? closing rest = none) (hmore : Carries source origin enough more rest outcome) :
    Carries source origin enough (fun fuel => closeOr closing taken (more fuel)) rest outcome :=
  have hover : Performs source origin enough (fun _ => isOver closing) rest (.ok false) rest :=
    performs_isOver (by simpa [h] using hne)
  .bind hover hmore

end CloseOr

section Items

variable {closing : Char} {item : Nat → Action α} {model : Production α}
  {loop : Nat → Bool → List α → Action (List α)}

/-- A loop that takes items up to a closing bracket, separated from one another. -/
def Repeats (closing : Char) (item : Nat → Action α)
    (loop : Nat → Bool → List α → Action (List α)) : Prop :=
  ∀ fuel first taken, loop (fuel + 1) first taken = closeOr closing taken do
    separator first
    let next ← item fuel
    loop fuel false (taken ++ [next])

theorem performs_separator
    (h : Performs source origin enough (fun _ => expect ',') rest (.ok ()) mid) :
    Performs source origin enough (fun _ => separator false) rest (.ok ()) (Scan.skipBlanks mid) :=
  h.bind performs_skipBlanks

theorem performs_separator_error {cause : SyntaxCause}
    (h : Performs source origin enough (fun _ => expect ',') rest (.error cause) left) :
    Performs source origin enough (fun _ => separator false) rest (.error cause) left :=
  h.bind_error

variable {enough : Nat → Nat} (hloop : Repeats closing item loop)
  (hitem : Follows enough item model)
include hloop hitem

/-- The items behind those that are taken. -/
theorem carries_moreItems (taken : List α) (source origin text : List Char) :
    Carries source origin (enough source.length + text.length + 1)
      (fun fuel => loop fuel false taken) text
      ((Parser.moreItems closing model text).map (·.map (taken ++ ·))) := by
  induction hlength : text.length using Nat.strong_induction_on generalizing taken text with
  | h length ih =>
      refine .succ ?_
      simp only [hloop _]
      unfold Parser.moreItems
      split
      · exact performs_closeOr_empty ‹_›
      split
      · rw [Except.map, Taken.map, List.append_nil]
        exact performs_closeOr_closing ‹_›
      refine carries_closeOr ‹_› ‹_› ?_
      refine (carries_expect ',' source origin text).elim
        (fun _ hstop => (performs_separator_error hstop).bind_error) fun comma hcomma => ?_
      refine .bind (performs_separator hcomma) ?_
      dsimp only
      refine ((hitem.within source origin _).mono (Nat.le_add_right _ _)).elim
        (fun _ => .bind_error) fun first hfirst => ?_
      refine .bind hfirst ?_
      have hshorter : first.rest.length < length := by
        have := first.shorter
        have := comma.shorter
        have := Scan.length_skipBlanks_le comma.rest
        omega
      dsimp only
      refine ((ih _ hshorter (taken ++ [first.value]) first.rest rfl).mono (by omega)).elim_map
        (fun _ => id) fun more hmore => ?_
      simpa [Carries, Except.map, Taken.map] using hmore

theorem follows_items :
    Follows (fun length => enough length + length + 1) (fun fuel => loop fuel true [])
      (Parser.items closing model) := by
  refine fun source text => .succ (.inside fun hsource _ => ?_)
  simp only [hloop _]
  unfold Parser.items
  split
  · exact performs_closeOr_empty ‹_›
  split
  · exact performs_closeOr_closing ‹_›
  refine carries_closeOr ‹_› ‹_› (.bind (.pure ()) ?_)
  refine ((hitem source text).mono (Nat.le_add_right _ _)).elim (fun _ => .bind_error)
    fun first hfirst => ?_
  refine .bind hfirst ?_
  have hshorter : first.rest.length < source.length :=
    Nat.lt_of_lt_of_le first.shorter hsource.length_le
  dsimp only
  exact ((carries_moreItems hloop hitem [first.value] source text first.rest).mono
    (by omega)).elim_map (fun _ => id) fun _ => id

end Items

/-! ## Productions over an expression -/

section Nested

variable {table : OperatorTable} {limit budget : Nat}

/-- Keys and points behind a point, taken behind other keys. -/
theorem carries_keys (taken : List String) (source origin text : List Char) :
    Carries source origin text.length
      (fun fuel => key .propertyExpected >>= fun next =>
        run table limit fuel (.keys (taken ++ [next]))) text
      ((Parser.segments text).map (·.map (taken ++ ·))) := by
  induction hlength : text.length using Nat.strong_induction_on generalizing taken text with
  | h length ih =>
      unfold Parser.segments
      refine (carries_key .propertyExpected source origin text).elim (fun _ => .bind_error)
        fun first hfirst => ?_
      have hfirstShorter := first.shorter
      refine .bind hfirst (.mono (.succ ?_) (show first.rest.length + 1 ≤ length by omega))
      dsimp only [run, answer, keys]
      split
      · exact (performs_eat_none ‹_›).bind (.pure _)
      · rename_i point hpoint
        have hpointShorter := point.shorter
        refine .bind (performs_eat hpoint) ?_
        refine ((ih _ (by omega) (taken ++ [first.value]) point.rest rfl).mono (by omega)).elim_map
          (fun _ => id) fun more hmore => ?_
        simpa [Carries, Except.map, Taken.map] using hmore

theorem carries_path {point : Taken Unit text} (hpoint : Scan.char? '.' text = some point) :
    Carries source origin text.length (fun fuel => run table limit fuel (.keys [])) text
      (Parser.segments point.rest) := by
  refine .mono (.succ (.bind (performs_eat hpoint) ?_)) point.shorter
  exact (carries_keys [] source origin point.rest).elim_map (fun _ => id) fun _ => id

theorem repeats_entries :
    Repeats '}' (fun fuel => entry (run table limit fuel) budget)
      (fun fuel first taken => run table limit fuel (.entries budget first taken)) :=
  fun _ _ _ => rfl

theorem repeats_items :
    Repeats ']' (fun fuel => run table limit fuel (.expression budget))
      (fun fuel first taken => run table limit fuel (.items budget first taken)) :=
  fun _ _ _ => rfl

variable {enough : Nat → Nat} {inner : Production Operand}
  (hexpression : Follows enough (fun fuel => run table limit fuel (.expression budget)) inner)
include hexpression

/-- The arguments behind those that are taken. -/
theorem carries_moreArguments (taken : List Operand) (source origin text : List Char) :
    Carries source origin (enough source.length + text.length + 1)
      (fun fuel => run table limit fuel (.arguments budget taken)) text
      ((Parser.moreArguments inner text).map (·.map (taken ++ ·))) := by
  induction hlength : text.length using Nat.strong_induction_on generalizing taken text with
  | h length ih =>
      refine .succ ?_
      dsimp only [run, answer, moreArguments]
      unfold Parser.moreArguments
      split
      · exact performs_closeOr_empty ‹_›
      split
      · rw [Except.map, Taken.map, List.append_nil]
        exact performs_closeOr_closing ‹_›
      refine carries_closeOr ‹_› ‹_› (.bind performs_skipBlanks ?_)
      refine (carries_expect ',' source origin _).elim (fun _ => .bind_error)
        fun comma hcomma => ?_
      refine .bind hcomma ?_
      dsimp only
      refine ((hexpression.within source origin _).mono (Nat.le_add_right _ _)).elim
        (fun _ => .bind_error) fun arg harg => ?_
      refine .bind harg ?_
      have hshorter : arg.rest.length < length := by
        have := arg.shorter
        have := comma.shorter
        have := Scan.length_skipBlanks_le text
        omega
      dsimp only
      refine ((ih _ hshorter (taken ++ [arg.value]) arg.rest rfl).mono (by omega)).elim_map
        (fun _ => id) fun more hmore => ?_
      simpa [Carries, Except.map, Taken.map] using hmore

theorem follows_arguments :
    Follows (fun length => enough length + length + 1)
      (fun fuel => arguments (run table limit fuel) budget) (Parser.arguments inner) := by
  refine fun source text => .inside fun hsource _ => ?_
  unfold arguments Parser.arguments
  dsimp only
  split
  · rename_i closing hclosing
    exact (performs_isNext hclosing).bind (.succ (performs_closeOr_closing hclosing))
  refine .bind (performs_isNext_none ‹_›) ?_
  refine ((hexpression source text).mono (by omega)).elim (fun _ => .bind_error)
    fun arg harg => ?_
  refine .bind harg ?_
  have hshorter : arg.rest.length < source.length :=
    Nat.lt_of_lt_of_le arg.shorter hsource.length_le
  dsimp only
  exact ((carries_moreArguments hexpression [arg.value] source text arg.rest).mono
    (by omega)).elim_map (fun _ => id) fun _ => id

theorem follows_entry :
    Follows enough (fun fuel => entry (run table limit fuel) budget) (Parser.entry inner) := by
  intro source text
  unfold entry Parser.entry
  refine (carries_key .keyExpected source text text).elim (fun _ => .bind_error)
    fun name hname => ?_
  refine .bind hname (.bind performs_skipBlanks ?_)
  dsimp only
  refine (carries_expect ':' source text _).elim (fun _ => .bind_error) fun colon hcolon => ?_
  refine .bind hcolon ?_
  dsimp only
  exact (hexpression.within source text _).elim (fun _ => .bind_error)
    fun value hvalue => hvalue.bind (.pure _)

/-! ## The base productions -/

theorem follows_array :
    Follows (fun length => enough length + length + 1)
      (fun fuel => array limit (run table limit fuel) budget) (Parser.fromArray limit inner) := by
  intro source text
  unfold array Parser.fromArray
  split
  · rename_i opening hopening
    refine .bind (performs_eat hopening) (.bind performs_skipBlanks ?_)
    refine .widen ?_ _
    unfold Parser.array
    refine ((follows_items repeats_items hexpression).within source text _).elim
      (fun _ => .bind_error) fun taken htaken => ?_
    exact .bind htaken (carries_bounded limit _)
  · exact .bind (performs_eat_none ‹_›) (carries_literal source text text)

theorem follows_object :
    Follows (fun length => enough length + length + 1)
      (fun fuel => object limit (run table limit fuel) budget) (Parser.fromObject limit inner) := by
  intro source text
  unfold object Parser.fromObject
  split
  · rename_i opening hopening
    refine .bind (performs_eat hopening) (.bind performs_skipBlanks ?_)
    refine .widen ?_ _
    unfold Parser.object
    refine ((follows_items repeats_entries (follows_entry hexpression)).within source text _).elim
      (fun _ => .bind_error) fun taken htaken => ?_
    exact .bind htaken (carries_bounded limit _)
  · exact .bind (performs_eat_none ‹_›) (follows_array hexpression source text)

/-- Back at the start, whatever name was taken. -/
theorem carries_stray :
    Carries source text (enough source.length + source.length + 1)
      (fun fuel => stray limit (run table limit fuel) budget (place source text).position) rest
      (Parser.fromObject limit inner text) :=
  .bind (.inside fun _ hrest => .rollback (List.suffix_refl text) hrest)
    (follows_object hexpression source text)

theorem follows_call :
    Follows (fun length => enough length + length + 1)
      (fun fuel => call limit (run table limit fuel) budget) (Parser.fromCall limit inner) := by
  intro source text
  unfold call Parser.fromCall Parser.call?
  refine .bind .position ?_
  cases hname : Scan.name? text with
  | none => exact .bind (performs_take_none hname) (carries_stray hexpression)
  | some name =>
      refine .bind (performs_take hname (Scan.isPlainName_of_name? hname).1) ?_
      refine .bind performs_skipBlanks ?_
      dsimp only
      cases hopening : Scan.char? '(' (Scan.skipBlanks name.rest) with
      | none => exact .bind (performs_eat_none hopening) (carries_stray hexpression)
      | some opening =>
          refine .bind (performs_eat hopening) (.bind performs_skipBlanks ?_)
          dsimp only
          refine ((follows_arguments hexpression).within source text _).elim
            (fun _ => .bind_error) fun args hargs => ?_
          exact .bind hargs (carries_bounded limit _)

theorem follows_property :
    Follows (fun length => enough length + length + 1)
      (fun fuel => property limit (run table limit fuel) budget)
      (Parser.fromProperty limit inner) := by
  refine fun source text => .inside fun hsource _ => ?_
  unfold property Parser.fromProperty
  dsimp only
  split
  · rename_i point hpoint
    have hlength := hsource.length_le
    refine .bind (performs_isNext hpoint) (.widen ?_ _)
    unfold Parser.path
    exact ((carries_path hpoint).mono (by omega)).elim (fun _ => .bind_error) fun taken htaken =>
      htaken.bind (.pure _)
  · exact .bind (performs_isNext_none ‹_›) (follows_call hexpression source text)

theorem follows_parenthesis :
    Follows (fun length => enough length + length + 1)
      (fun fuel => parenthesis limit (run table limit fuel) budget)
      (Parser.primary limit inner) := by
  intro source text
  unfold parenthesis Parser.primary
  dsimp only
  refine .bind performs_skipBlanks (.widen ?_ _)
  rw [Parser.tightest_eq]
  dsimp only
  split
  · rename_i opening hopening
    refine .bind (performs_eat hopening) (.widen ?_ _)
    unfold Parser.parenthesis
    dsimp only
    refine ((hexpression.within source text _).mono (by omega)).elim (fun _ => .bind_error)
      fun value hvalue => ?_
    refine .bind hvalue ?_
    dsimp only
    exact (carries_expect ')' source text _).elim (fun _ => .bind_error)
      fun closing hclosing => hclosing.bind (.pure _)
  · exact .bind (performs_eat_none ‹_›) ((follows_property hexpression).within source text _)

end Nested

/-! ## Operators -/

theorem performs_symbol {symbol : String} (h : rest = symbol.toList ++ left) :
    Performs source origin enough (fun _ => move (Cursor.eat symbol)) rest (.ok true) left :=
  have hsuffix : left <:+ rest := ⟨symbol.toList, h.symm⟩
  .move hsuffix fun hsource => by
    rw [Cursor.eat, rest_place hsource, Scan.dropPiece?_eq_some_iff.2 h]
    dsimp only
    rw [leave_place hsource hsuffix.length_le]

theorem performs_symbol_none {symbol : String} (h : ¬ symbol.toList <+: rest) :
    Performs source origin enough (fun _ => move (Cursor.eat symbol)) rest (.ok false) rest :=
  .move (List.suffix_refl rest) fun hsource => by
    rw [Cursor.eat, rest_place hsource, Parser.dropPiece?_eq_none_iff.2 h]

theorem performs_operator? (operators : OperatorGroup) (source origin rest : List Char)
    (enough : Nat) :
    Performs source origin enough (fun _ => operator? operators) rest
      (.ok ((Parser.operator? operators rest).map (·.1)))
      (((Parser.operator? operators rest).map (·.2.val)).getD rest) := by
  induction operators with
  | nil => exact .pure none
  | cons entry operators ih =>
      obtain ⟨name, symbol⟩ := entry
      by_cases hstart : symbol.toList <+: rest
      · obtain ⟨after, rfl⟩ := hstart
        have hat : Parser.OperatorAt ((name, symbol) :: operators) (symbol.toList ++ after) name
            (Scan.skipBlanks after) := Parser.operatorAt_cons_of_append name symbol after
        obtain ⟨_, hnext⟩ := hat
        rw [hnext]
        exact (performs_symbol rfl).bind (performs_skipBlanks.bind (.pure (some name)))
      · rw [Parser.operator?_cons_of_not_start hstart]
        exact (performs_symbol_none hstart).bind ih

section Ladder

variable {table : OperatorTable} {limit budget level : Nat} {group : OperatorGroup}
  {enough : Nat → Nat}

/-- The operators behind an operand of a production that started at `origin`. -/
theorem carries_chain {tighter : Production Operand} (hgroup : table.groups[level]? = some group)
    (htighter : Follows enough (fun fuel => run table limit fuel (.rung budget level)) tighter)
    (source origin : List Char) (left : Taken Operand text) :
    Carries source origin (enough source.length + left.rest.length + 1)
      (fun fuel =>
        run table limit fuel (.chain budget level (place source origin).position left.value))
      left.rest (Parser.chain table limit (Parser.candidates group) tighter left) := by
  induction hlength : left.rest.length using Nat.strong_induction_on generalizing left with
  | h length ih =>
      refine .succ ?_
      dsimp only [run, answer, chain]
      rw [List.getD_eq_getElem?_getD, hgroup, Option.getD_some, Parser.chain]
      refine .bind performs_skipBlanks (.bind .position ?_)
      have hsymbol := performs_operator? (Parser.candidates group) source origin
        (Scan.skipBlanks left.rest) (enough source.length + length)
      dsimp only
      split
      · rename_i hnone
        rw [hnone] at hsymbol
        exact hsymbol.bind (.pure left.value)
      rename_i name after hnext
      rw [hnext] at hsymbol
      split
      · -- The operator is given back where it was taken, behind the operand on its left.
        rename_i hrefused
        have hafter := (Parser.suffix_of_operator? (List.suffix_refl _) hnext).1
        refine Performs.inside fun _ hhere => hsymbol.bind ?_
        simp only [Option.map_some, hrefused, if_true]
        exact (Performs.rollback hhere hafter).bind (.pure left.value)
      · rename_i hallowed
        refine .bind hsymbol ?_
        simp only [Option.map_some, hallowed]
        refine ((htighter.within source origin _).mono (Nat.le_add_right _ _)).elim
          (fun _ => .bind_error) fun right hright => ?_
        refine .bind hright ?_
        dsimp only
        split
        · exact (performs_bounded_error ‹_›).bind_error
        · -- The symbol may be empty: it is the operand behind it that shortens the text.
          have hshorter : right.rest.length < length := by
            have := right.shorter
            have := after.property
            have := Scan.length_skipBlanks_le left.rest
            omega
          exact .bind (performs_bounded ‹_›) ((ih _ hshorter _ rfl).mono (by omega))

theorem follows_rung {base : Production Operand}
    (hbase : Follows enough (fun fuel => parenthesis limit (run table limit fuel) budget) base)
    (hle : level ≤ table.size) :
    Follows (fun length => enough length + 1 + level * (length + 2))
      (fun fuel => run table limit fuel (.rung budget level))
      (Parser.ladderTo table limit base level) := by
  induction level with
  | zero =>
      intro source text
      dsimp only
      rw [Nat.zero_mul]
      exact .succ (hbase source text)
  | succ level ih =>
      refine fun source text => .inside fun hsource _ => ?_
      have hgroup : table.groups[level]? = some table.groups[level] := List.getElem?_eq_getElem hle
      have htighter := ih (Nat.le_of_lt hle)
      have hcalls : enough source.length + 1 + (level + 1) * (source.length + 2) =
          enough source.length + 1 + level * (source.length + 2) + source.length + 1 + 1 := by
        rw [Nat.succ_mul]
        omega
      dsimp only
      rw [hcalls]
      refine .succ (.bind .position ?_)
      rw [Parser.ladderTo_succ hgroup]
      unfold Parser.rung
      refine ((htighter source text).mono (by dsimp only; omega)).elim (fun _ => .bind_error)
        fun left hleft => ?_
      have hshorter : left.rest.length < source.length :=
        Nat.lt_of_lt_of_le left.shorter hsource.length_le
      exact .bind hleft ((carries_chain hgroup htighter source text left).mono (by omega))

end Ladder

/-- As many calls inside each other as an expression may need. -/
def enoughCalls (table : OperatorTable) (budget length : Nat) : Nat :=
  budget * ((table.size + 1) * (length + 2) + 1) + 1

theorem enoughCalls_succ (table : OperatorTable) (budget length : Nat) :
    enoughCalls table (budget + 1) length =
      enoughCalls table budget length + length + 1 + 1 + table.size * (length + 2) + 1 := by
  simp only [enoughCalls, Nat.succ_mul]
  omega

theorem follows_expression (table : OperatorTable) (limit budget : Nat) :
    Follows (enoughCalls table budget) (fun fuel => run table limit fuel (.expression budget))
      (Parser.expression table limit budget) := by
  -- Loops fall with the text, expressions inside each other with the budget.
  induction budget with
  | zero => exact fun source text => .mono (.succ (Performs.throw _)) (Nat.le_add_left 1 _)
  | succ budget ih =>
      intro source text
      rw [Parser.expression, ← Parser.ladderTo_size, enoughCalls_succ]
      exact .succ (follows_rung (follows_parenthesis ih) (Nat.le_refl table.size) source text)

/-! ## Progress -/

/-- What a production of the descent takes from a text. -/
def Rule.production {table : OperatorTable} (limit budget : Nat) :
    Rule table → Production Operand
  | expression => Parser.expression table limit budget
  | rung level _ =>
    Parser.ladderTo table limit (Parser.primary limit (Parser.expression table limit budget)) level
  | parenthesis => Parser.primary limit (Parser.expression table limit budget)
  | property => Parser.fromProperty limit (Parser.expression table limit budget)
  | call => Parser.fromCall limit (Parser.expression table limit budget)
  | object => Parser.fromObject limit (Parser.expression table limit budget)
  | array => Parser.fromArray limit (Parser.expression table limit budget)
  | literal => Parser.literal

theorem follows_rule {table : OperatorTable} (limit budget : Nat) (rule : Rule table) :
    Follows (enoughCalls table (budget + 1)) (rule.run limit budget)
      (rule.production limit budget) := by
  have hexpression := follows_expression table limit budget
  have hle (length : Nat) :
      enoughCalls table budget length + length + 1 ≤ enoughCalls table (budget + 1) length := by
    rw [enoughCalls_succ]
    omega
  cases rule with
  | expression =>
      refine hexpression.mono fun length => ?_
      rw [enoughCalls_succ]
      omega
  | rung level h =>
      refine (follows_rung (follows_parenthesis hexpression) h).mono fun length => ?_
      have hlevel := Nat.mul_le_mul_right (length + 2) h
      rw [enoughCalls_succ]
      omega
  | parenthesis => exact (follows_parenthesis hexpression).mono hle
  | property => exact (follows_property hexpression).mono hle
  | call => exact (follows_call hexpression).mono hle
  | object => exact (follows_object hexpression).mono hle
  | array => exact (follows_array hexpression).mono hle
  | literal => exact fun source text => carries_literal source text text

/-- How a run ends that started at `start` of `source`: inside the text, behind its start if it has
a value, and no production has set the cursor back to before its own start. -/
structure Advances (source : List Char) (start : Nat) (outcome : Except SyntaxCause α × State) :
    Prop where
  source_eq : outcome.2.cursor.source = source
  inside : outcome.2.cursor.position ≤ source.length
  forward {value : α} (h : outcome.1 = .ok value) : start < outcome.2.cursor.position
  rollbacks : ∀ r ∈ outcome.2.rollbacks, r.Sound source.length start

/-- From every position in every text the action ends and advances, if so many calls may be inside
each other as are enough for the length of the text, or more. -/
def Progresses (enough : Nat → Nat) (action : Nat → Action α) : Prop :=
  ∀ source start, start ≤ source.length →
    ∃ outcome : Except SyntaxCause α × State, Advances source start outcome ∧
      ∀ fuel, enough source.length ≤ fuel →
        action fuel { cursor := ⟨source, start⟩ } = some outcome

theorem place_drop {start : Nat} (h : start ≤ source.length) :
    place source (source.drop start) = ⟨source, start⟩ := by
  simp only [place, List.length_drop, Cursor.mk.injEq, true_and]
  omega

theorem Performs.advances {action : Nat → Action α} {result : Except SyntaxCause α} {start : Nat}
    (h : Performs source (source.drop start) enough action (source.drop start) result left)
    (hstart : start ≤ source.length)
    (hforward : ∀ value, result = .ok value → left.length < (source.drop start).length) :
    ∃ outcome, Advances source start outcome ∧
      ∀ fuel, enough ≤ fuel → action fuel { cursor := ⟨source, start⟩ } = some outcome := by
  obtain ⟨hleft, hrun⟩ := h (List.drop_suffix start source) (List.suffix_refl _)
  obtain ⟨more, hmore, hends⟩ := hrun []
  rw [place_drop hstart] at hmore hends
  refine ⟨(result, ⟨place source left, more⟩), ⟨rfl, Nat.sub_le _ _, fun hvalue => ?_, hmore⟩,
    hends⟩
  have hshorter := hforward _ hvalue
  rw [List.length_drop] at hshorter
  change start < source.length - left.length
  omega

theorem Follows.progresses {enough : Nat → Nat} {action : Nat → Action α}
    {production : Production α} (h : Follows enough action production) :
    Progresses enough action := by
  intro source start hstart
  have hcarries := h source (source.drop start)
  cases hproduction : production (source.drop start) with
  | error stop =>
      rw [hproduction] at hcarries
      exact Performs.advances hcarries hstart nofun
  | ok taken =>
      rw [hproduction] at hcarries
      exact Performs.advances hcarries hstart fun _ _ => taken.shorter

/-! ## Whole texts -/

section Whole

variable {table : OperatorTable} {limit fuel : Nat} {text : String}

theorem parse?_of_performs {result : Except SyntaxCause Query}
    (h : Performs text.toList text.toList enough (fun fuel => query limit (run table limit fuel))
      text.toList result left) (hfuel : enough ≤ fuel) :
    parse? table limit fuel text =
      some (result.mapError fun cause => ⟨cause, text.toList.length - left.length, text⟩) := by
  obtain ⟨_, hrun⟩ := h (List.suffix_refl _) (List.suffix_refl _)
  obtain ⟨more, _, hends⟩ := hrun []
  have hquery : query limit (run table limit fuel) ⟨place text.toList text.toList, []⟩ =
      some (result, ⟨place text.toList left, [] ++ more⟩) := hends fuel hfuel
  have hstart : Cursor.ofText text = place text.toList text.toList := by
    simp [Cursor.ofText, place]
  rw [parse?, hstart, hquery]
  rfl

/-- A text is read as `parse` reads it. -/
theorem parse?_eq (h : enoughCalls table limit text.length ≤ fuel) :
    parse? table limit fuel text = some (parse table limit text) := by
  have hcarries := follows_expression table limit limit text.toList text.toList
  have hfuel : enoughCalls table limit text.toList.length ≤ fuel := by rwa [String.length_toList]
  unfold parse
  cases hexpression : Parser.expression table limit limit text.toList with
  | error stop =>
      rw [hexpression] at hcarries
      exact parse?_of_performs (Performs.bind_error hcarries) hfuel
  | ok taken =>
      rw [hexpression] at hcarries
      let enough := enoughCalls table limit text.toList.length
      have hblanks : Performs text.toList text.toList enough (fun _ => skipBlanks) taken.rest
          (.ok ()) (Scan.skipBlanks taken.rest) := performs_skipBlanks
      have hrest : Performs text.toList text.toList enough (fun _ => look Cursor.rest)
          (Scan.skipBlanks taken.rest) (.ok (Scan.skipBlanks taken.rest))
          (Scan.skipBlanks taken.rest) := .look rest_place
      dsimp only
      cases hleft : Scan.skipBlanks taken.rest with
      | nil =>
          rw [hleft] at hblanks hrest
          exact parse?_of_performs
            (Performs.bind hcarries (hblanks.bind (hrest.bind (.pure taken.value.query)))) hfuel
      | cons c rest =>
          rw [hleft] at hblanks hrest
          exact parse?_of_performs
            (Performs.bind hcarries (hblanks.bind (hrest.bind (.throw (.unexpectedPart _))))) hfuel

end Whole

/-! ## All productions -/

/-- Whatever the symbols of a table are, every production ends from everywhere in every text, with
calls inside each other of a number that grows with the budget, the groups of the table and the
text.  If it succeeds, it leaves the cursor strictly behind where it started and inside the text,
and no production sets the cursor back to before its own start.  What the descent reads of a whole
text is what `parse` does. -/
theorem descent_progresses (table : OperatorTable) (limit : Nat) :
    (∀ (rule : Rule table) (budget : Nat),
        Progresses (enoughCalls table (budget + 1)) (rule.run limit budget)) ∧
      (∀ expected, Progresses (fun _ => 0) fun _ => key expected) ∧
      ∀ (text : String) (fuel : Nat), enoughCalls table limit text.length ≤ fuel →
        parse? table limit fuel text = some (parse table limit text) := by
  refine ⟨fun rule budget => (follows_rule limit budget rule).progresses, fun expected => ?_,
    fun text fuel => parse?_eq⟩
  have hkey : Follows (fun _ => 0) (fun _ => key expected) (Parser.key expected) :=
    fun source text => carries_key expected source text text
  exact hkey.progresses

/-- An operator without a symbol is taken between two operands, and given back behind them. -/
theorem descent_progresses_empty_symbol :
    let table : OperatorTable := ⟨[[("beside", "")]], [], []⟩
    (∃ outcome, Advances "true null".toList 0 outcome ∧
        ∀ fuel, 70 ≤ fuel →
          run table 2 fuel (.expression 2) { cursor := Cursor.ofText "true null" } = some outcome) ∧
      enoughCalls table 2 "true null".length ≤ 70 ∧
        parse? table 2 70 "true null" = some (parse table 2 "true null") ∧
          (parse table 2 "true null").toOption.bind Query.callName? = some "beside" := by
  intro table
  obtain ⟨hrules, -, hparse⟩ := descent_progresses table 2
  have henough : enoughCalls table 2 "true null".length ≤ 70 := by decide
  have hread := hparse "true null" 70 henough
  have hname : (parse? table 2 70 "true null").bind (fun result =>
      result.toOption.bind Query.callName?) = some "beside" := by decide +kernel
  rw [hread] at hname
  exact ⟨hrules .expression 2 "true null".toList 0 (Nat.zero_le _), henough, hread, hname⟩

example : (run ⟨[[("beside", "")]], [], []⟩ 2 9 (.expression 2)
    { cursor := Cursor.ofText "true null" }).map (·.2.rollbacks) =
      some [⟨0, 5, 0⟩, ⟨5, 9, 5⟩, ⟨0, 9, 9⟩] := by decide +kernel

end Descent

end PipeQuery
