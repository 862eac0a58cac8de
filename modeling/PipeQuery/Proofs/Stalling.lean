/-
Where reading stalls: at an operator that may not follow the operand before it.

No looser operator takes the text from there and nothing that encloses the operand goes on, so the
text around it fails for want of a closing character, and never for its depth.  `Jammed` describes
a piece with such an operator inside, as `Spelled` describes one that is read whole.
-/
import PipeQuery.Proofs.Legibility
import PipeQuery.Proofs.Spelling

namespace PipeQuery

namespace Parser

open Grammar
open Scan (skipBlanks Ends)

variable {α : Type} {table : OperatorTable} {limit level level' k bound budget : Nat}
  {group : OperatorGroup} {tighter base : Production Operand} {name symbol : String}
  {text rest piece blanks : List Char} {pieces : List (List Char)} {allowed : SyntaxCause → Prop}

/-- Reading stops for an allowed cause. -/
def Fails (allowed : SyntaxCause → Prop) (production : Production α) (text : List Char) : Prop :=
  ∃ cause, allowed cause ∧ Yields production text (.error cause)

/-- Reading stops, or takes a value where neither a list nor parentheses can go on. -/
def Snags (allowed : SyntaxCause → Prop) (production : Production α) (text : List Char) : Prop :=
  Fails allowed production text ∨
    ∃ value rest, Reads production text value rest ∧ Opens (skipBlanks rest)

/-- A token comes next that closes nothing, and that no operator from a level on starts with. -/
structure Dead (table : OperatorTable) (level : Nat) (rest : List Char) : Prop where
  opens : Opens (skipBlanks rest)
  operator {j : Nat} {group : OperatorGroup} (hj : level ≤ j)
      (hgroup : table.groups[j]? = some group) :
    operator? (candidates group) (skipBlanks rest) = none

theorem Dead.climb (h : Dead table level rest) (hle : level ≤ k) :
    Dead table k (skipBlanks rest) where
  opens := by
    rw [skipBlanks_skipBlanks]
    exact h.opens
  operator hj hgroup := by
    rw [skipBlanks_skipBlanks]
    exact h.operator (Nat.le_trans hle hj) hgroup

/-- Reading stops, or takes an operand within a bound where no operator goes on either. -/
def Stalls (allowed : SyntaxCause → Prop) (table : OperatorTable) (level bound : Nat)
    (production : Production Operand) (text : List Char) : Prop :=
  Fails allowed production text ∨
    ∃ operand rest, Reads production text operand rest ∧ operand.height ≤ bound ∧
      Dead table level rest

theorem Stalls.snags {production : Production Operand}
    (h : Stalls allowed table level bound production text) : Snags allowed production text :=
  h.imp_right fun ⟨operand, rest, hreads, _, hdead⟩ => ⟨operand, rest, hreads, hdead.opens⟩

/-- A piece whose reading stalls at a rung, whatever follows it. -/
def Jammed (allowed : SyntaxCause → Prop) (table : OperatorTable) (limit : Nat)
    (base : Production Operand) (level : Nat) (piece : List Char) (bound : Nat) : Prop :=
  ∀ ⦃before rest : List Char⦄, Blank before →
    Stalls allowed table level bound (ladderTo table limit base level) (before ++ piece ++ rest)

theorem Jammed.append (h : Jammed allowed table limit base level piece bound) (more : List Char) :
    Jammed allowed table limit base level (piece ++ more) bound := by
  intro before rest hbefore
  have hstalls := @h before (more ++ rest) hbefore
  simpa using hstalls

theorem Jammed.mono (h : Jammed allowed table limit base level piece bound) {bound' : Nat}
    (hle : bound ≤ bound') : Jammed allowed table limit base level piece bound' := by
  intro before rest hbefore
  refine (h hbefore).imp_right ?_
  rintro ⟨operand, rest', hreads, hheight, hdead⟩
  exact ⟨operand, rest', hreads, Nat.le_trans hheight hle, hdead⟩

/-! ## The ladder -/

theorem yields_rung_of_error {cause : SyntaxCause} {operators : OperatorGroup}
    (h : Yields tighter text (.error cause)) :
    Yields (rung table limit operators tighter) text (.error cause) := by
  obtain ⟨rest, h⟩ := h
  exact ⟨rest, by simp [rung, h]⟩

theorem Fails.climb (h : Fails allowed (ladderTo table limit base level) text) (hle : level ≤ k)
    (hsize : k ≤ table.size) : Fails allowed (ladderTo table limit base k) text := by
  induction hle with
  | refl => exact h
  | step hle ih =>
      obtain ⟨cause, hcause, hyields⟩ := ih (Nat.le_of_lt hsize)
      rw [ladderTo_succ (List.getElem?_eq_getElem hsize)]
      exact ⟨cause, hcause, yields_rung_of_error hyields⟩

/-- What stalls at one rung stalls at every looser one. -/
theorem Stalls.climb (h : Stalls allowed table level bound (ladderTo table limit base level) text)
    (hle : level ≤ k) (hsize : k ≤ table.size) :
    Stalls allowed table k bound (ladderTo table limit base k) text := by
  induction hle with
  | refl => exact h
  | @step k hle ih =>
      have hgroup : table.groups[k]? = some table.groups[k] := List.getElem?_eq_getElem hsize
      rw [ladderTo_succ hgroup]
      rcases ih (Nat.le_of_lt hsize) with
        ⟨cause, hcause, hyields⟩ | ⟨operand, rest, hreads, hheight, hdead⟩
      · exact .inl ⟨cause, hcause, yields_rung_of_error hyields⟩
      · have hnone := hdead.operator (Nat.le_refl k) hgroup
        exact .inr ⟨operand, skipBlanks rest, yields_rung hreads (.done hnone), hheight,
          hdead.climb (Nat.le_succ k)⟩

theorem Jammed.climb (h : Jammed allowed table limit base level piece bound) (hle : level ≤ k)
    (hsize : k ≤ table.size) : Jammed allowed table limit base k piece bound :=
  fun _ _ hbefore => (h hbefore).climb hle hsize

/-- No operator is taken for one of a tighter group. -/
def Looser (table : OperatorTable) : Prop :=
  ∀ ⦃name symbol : String⦄ ⦃level j : Nat⦄ ⦃group : OperatorGroup⦄,
    table.symbol? name = some symbol →
    table.precedence? name = some level → level < j → table.groups[j]? = some group →
      ∀ text, operator? (candidates group) (symbol.toList ++ ' ' :: text) = none

theorem looser_of_separable (h : Separable table)
    (hlooser : table.groups.Pairwise fun group group' =>
      ∀ entry ∈ group, ∀ entry' ∈ group', ¬ entry'.2.toList <+: entry.2.toList) : Looser table := by
  intro name symbol level j group hsymbol hlevel hj hgroup text
  obtain ⟨level', group', hlevel', hgroup', hmem⟩ := exists_group_of_symbol? hsymbol
  obtain rfl : level = level' := by simpa [hlevel] using hlevel'
  obtain ⟨hlt, rfl⟩ := List.getElem?_eq_some_iff.1 hgroup
  obtain ⟨hlt', rfl⟩ := List.getElem?_eq_some_iff.1 hgroup'
  exact h.no_operator hsymbol hgroup (fun entry hentry =>
    List.pairwise_iff_getElem.1 hlooser level j hlt' hlt hj _ hmem entry hentry) text

theorem looser_builtin : Looser .builtin :=
  looser_of_separable separable_builtin (by decide)

/-! ## Infix calls -/

theorem height_join_mono {left right right' : Operand} (h : right.height ≤ right'.height) :
    (Operand.join table name left right).height ≤ (Operand.join table name left right').height := by
  unfold Operand.join
  split
  · split
    · simp only
      omega
    · simp [Operand.call, Operand.tallest]
      omega
  · simp [Operand.call, Operand.tallest]
    omega

theorem Legible.opens_symbol (hlegible : Legible table) (hsymbol : table.symbol? name = some symbol)
    (text : List Char) : Opens (symbol.toList ++ ' ' :: text) := by
  obtain ⟨c, more, hlist, hblank, _⟩ := hlegible.opens hsymbol
  obtain ⟨level, group, _, hgroup, hoperator⟩ := hlegible.group hsymbol
  refine ⟨c, more ++ ' ' :: text, by rw [hlist, List.cons_append], hblank, ?_⟩
  refine Bool.eq_false_iff.2 fun hcloser => ?_
  have hcloses : Closes (symbol.toList ++ ' ' :: text) := by
    rw [hlist]
    exact closes_append_cons (c := c) blank_nil hcloser _
  have hnone := hlegible.closes (List.mem_of_getElem? hgroup) hcloses
  obtain ⟨_, hsome⟩ := hoperator text
  rw [hlist, List.cons_append, skipBlanks_of_ends (ends_cons hblank _), ← List.cons_append, ← hlist,
    hsome] at hnone
  cases hnone

section

variable (hlegible : Legible table) (hlooser : Looser table)
  (hsymbol : table.symbol? name = some symbol) (hlevel : table.precedence? name = some level)

include hlegible hlooser hsymbol hlevel

theorem dead_symbol (hrest : skipBlanks rest = symbol.toList ++ ' ' :: text) :
    Dead table (level + 1) (skipBlanks rest) where
  opens := by
    rw [skipBlanks_skipBlanks, hrest]
    exact hlegible.opens_symbol hsymbol text
  operator hj hgroup := by
    rw [skipBlanks_skipBlanks, hrest]
    exact hlooser hsymbol hlevel hj hgroup text

variable (hblanks : Blank blanks) (hne : blanks ≠ [])

include hblanks hne

/-- An operator after an operand that it may not follow. -/
theorem jammed_of_refused {left : List Char × Operand}
    (hleft : ∃ level' ≤ level + 1, Spelled table limit base level' left.1 left.2)
    (hrefused : refuses table name left.2 = true) (piece : List Char) (pieces : List (List Char)) :
    Jammed allowed table limit base (level + 1)
      (left.1 ++ infixTail blanks symbol.toList (piece :: pieces)) left.2.height := by
  obtain ⟨group, hgroup, hoperator⟩ := hlegible.exists_group hsymbol hlevel
  obtain ⟨level', hle, hspelled⟩ := hleft
  intro before rest hbefore
  let tail := piece ++ (infixTail blanks symbol.toList pieces ++ rest)
  obtain ⟨hdelimits, hblocks, hskip⟩ := hlegible.before_operator hsymbol hlevel hblanks hne tail
  have hoperator' := hoperator tail
  rw [← hskip] at hoperator'
  have hyields := hspelled.yields_chain hgroup hle hbefore hdelimits hblocks
    (.refused hoperator' hrefused)
  have hdead := dead_symbol hlegible hlooser hsymbol hlevel hskip
  rw [← List.append_assoc, List.append_assoc, infixTail_cons]
  exact .inr ⟨left.2, _, hyields, Nat.le_refl _, hdead⟩

omit hlooser

/-- An operand that stalls after one that is read. -/
theorem jammed_of_operand {left : List Char × Operand} {bound' : Nat}
    (hleft : ∃ level' ≤ level + 1, Spelled table limit base level' left.1 left.2)
    (haccepted : refuses table name left.2 = false) (hopens : Opens piece)
    (hjammed : ∃ level' ≤ level, Jammed allowed table limit base level' piece bound)
    (hbound : ∀ right : Operand, right.height ≤ bound →
      (Operand.join table name left.2 right).height ≤ bound')
    (hlimit : bound' ≤ limit) (pieces : List (List Char)) :
    Jammed allowed table limit base (level + 1)
      (left.1 ++ infixTail blanks symbol.toList (piece :: pieces)) bound' := by
  obtain ⟨group, hgroup, hoperator⟩ := hlegible.exists_group hsymbol hlevel
  have hsize : level < table.size := (List.getElem?_eq_some_iff.1 hgroup).1
  obtain ⟨level', hle, hspelled⟩ := hleft
  obtain ⟨inner, hinner, hjammed⟩ := hjammed
  intro before rest hbefore
  let tail := infixTail blanks symbol.toList pieces ++ rest
  obtain ⟨hdelimits, hblocks, hskip⟩ :=
    hlegible.before_operator hsymbol hlevel hblanks hne (piece ++ tail)
  have hoperator' := hoperator (piece ++ tail)
  have hafter : skipBlanks (piece ++ tail) = piece ++ tail :=
    (hopens.append tail).skipBlanks blank_nil
  rw [← hskip, hafter] at hoperator'
  rw [← List.append_assoc, List.append_assoc, infixTail_cons]
  rcases (@hjammed [] tail blank_nil).climb hinner (Nat.le_of_lt hsize) with
    ⟨cause, hcause, hright⟩ | ⟨right, rest', hright, hheight, hdead⟩
  · have hyields := hspelled.yields_chain hgroup hle hbefore hdelimits hblocks
      (.halted hoperator' haccepted hright)
    exact .inl ⟨cause, hcause, hyields⟩
  · have hjoin := hbound right hheight
    have hyields := hspelled.yields_chain hgroup hle hbefore hdelimits hblocks
      (.step hoperator' haccepted hright (Nat.le_trans hjoin hlimit)
        (.done (hdead.operator (Nat.le_refl level) hgroup)))
    exact .inr ⟨_, _, hyields, hjoin, hdead.climb (Nat.le_succ level)⟩

end

/-! ## Brackets -/

variable {expression : Production Operand} {closing : Char} {between after : List Char}

theorem exists_cons_of_opens (h : Opens (skipBlanks rest)) :
    ∃ c more, rest = c :: more ∧ isCloser c = false := by
  cases rest with
  | nil =>
      obtain ⟨c, more, hnil, _⟩ := h
      simp [skipBlanks] at hnil
  | cons c more =>
      refine ⟨c, more, rfl, ?_⟩
      cases hblank : Scan.isBlank c with
      | true =>
          refine Bool.eq_false_iff.2 fun hcloser => ?_
          rw [blank_of_isCloser hcloser] at hblank
          cases hblank
      | false =>
          rw [skipBlanks_of_ends (ends_cons hblank more)] at h
          obtain ⟨_, _, hcons, _, hcloser⟩ := h
          obtain ⟨rfl, rfl⟩ := List.cons.inj hcons
          exact hcloser

theorem expect_eq_error {c d : Char} (h : d ≠ c) (rest : List Char) :
    expect c (d :: rest) = .error ⟨.charExpected c, d :: rest⟩ := by
  simp [expect, char?_of_ne h]

theorem ne_of_isCloser {c d : Char} (hc : isCloser c = false) (hd : isCloser d = true) : c ≠ d := by
  rintro rfl
  rw [hc] at hd
  cases hd

/-- Reading the item snags in the piece, whatever follows it. -/
structure SnagsItem (allowed : SyntaxCause → Prop) (item : Production α) (piece : List Char) :
    Prop where
  opens : Opens piece
  snags (rest : List Char) : Snags allowed item (piece ++ rest)

/-- Reading the operand snags in the piece, whatever follows it and after any blanks. -/
structure SnagsOperand (allowed : SyntaxCause → Prop) (expression : Production Operand)
    (piece : List Char) : Prop where
  opens : Opens piece
  snags {before : List Char} (hbefore : Blank before) (rest : List Char) :
    Snags allowed expression (before ++ piece ++ rest)

theorem SnagsOperand.snagsItem (h : SnagsOperand allowed expression piece) :
    SnagsItem allowed expression piece where
  opens := h.opens
  snags rest := h.snags blank_nil rest

section Items

variable {item : Production α} {value : α} {before : List Char}

theorem fails_moreItems_cons (hcomma : closing ≠ ',')
    (hfirst : Reads item (skipBlanks text) value rest)
    (hmore : Fails allowed (moreItems closing item) rest) :
    Fails allowed (moreItems closing item) (',' :: text) := by
  obtain ⟨_, hfirst⟩ := hfirst
  obtain ⟨cause, hcause, rest', hmore⟩ := hmore
  obtain ⟨_, hexpect⟩ := reads_expect ',' text
  refine ⟨cause, hcause, rest', ?_⟩
  rw [moreItems]
  simp [char?_of_ne hcomma.symm, hexpect, hfirst, hmore]

theorem fails_moreItems_of_fails (hcomma : closing ≠ ',')
    (h : Fails allowed item (skipBlanks text)) :
    Fails allowed (moreItems closing item) (',' :: text) := by
  obtain ⟨cause, hcause, rest', h⟩ := h
  obtain ⟨_, hexpect⟩ := reads_expect ',' text
  refine ⟨cause, hcause, rest', ?_⟩
  rw [moreItems]
  simp [char?_of_ne hcomma.symm, hexpect, h]

theorem fails_items_cons (hopens : Opens text) (hclosing : isCloser closing = true)
    (hfirst : Reads item text value rest) (hmore : Fails allowed (moreItems closing item) rest) :
    Fails allowed (items closing item) text := by
  obtain ⟨_, hfirst⟩ := hfirst
  obtain ⟨cause, hcause, rest', hmore⟩ := hmore
  have hchar := hopens.char?_eq_none hclosing
  obtain ⟨c, more, rfl, _⟩ := hopens
  refine ⟨cause, hcause, rest', ?_⟩
  rw [items]
  simp [hchar, hfirst, hmore]

theorem fails_items_of_fails (hopens : Opens text) (hclosing : isCloser closing = true)
    (h : Fails allowed item text) : Fails allowed (items closing item) text := by
  obtain ⟨cause, hcause, rest', h⟩ := h
  have hchar := hopens.char?_eq_none hclosing
  obtain ⟨c, more, rfl, _⟩ := hopens
  refine ⟨cause, hcause, rest', ?_⟩
  rw [items]
  simp [hchar, h]

variable (hallowed : ∀ c, allowed (.charExpected c)) (hclosing : isCloser closing = true)

include hallowed hclosing

/-- A list does not go on where neither a comma nor its closing character comes next. -/
theorem fails_moreItems_of_opens (item : Production α) (h : Opens (skipBlanks rest)) :
    Fails allowed (moreItems closing item) rest := by
  obtain ⟨c, more, rfl, hc⟩ := exists_cons_of_opens h
  have hcomma : c ≠ ',' := ne_of_isCloser hc (by decide)
  refine ⟨_, hallowed ',', c :: more, ?_⟩
  rw [moreItems]
  simp [char?_of_ne (ne_of_isCloser hc hclosing), expect_eq_error hcomma]

variable (hbefore : Blank before) (hbetween : Blank between) (hafter : Blank after)
  (hcomma : closing ≠ ',') (hpiece : SnagsItem allowed item piece)

include hbetween hafter hcomma hpiece

theorem fails_moreItems (entries : List (List Char × α))
    (hentries : ∀ entry ∈ entries, ReadsItem item entry.1 entry.2) (pieces : List (List Char))
    (rest : List Char) :
    Fails allowed (moreItems closing item)
      (skipBlanks (closed between after (entries.map (·.1) ++ piece :: pieces) closing rest)) := by
  induction entries with
  | nil =>
      let tail := closed between after pieces closing rest
      have hskip : skipBlanks (between ++ (piece ++ tail)) = piece ++ tail :=
        (hpiece.opens.append tail).skipBlanks hbetween
      rw [List.map_nil, List.nil_append, closed_cons, skipBlanks_of_ends (ends_cons (by decide) _)]
      rcases hpiece.snags tail with hfails | ⟨value, rest', hreads, hrest⟩
      · apply fails_moreItems_of_fails hcomma
        rwa [hskip]
      · rw [← hskip] at hreads
        exact fails_moreItems_cons hcomma hreads
          (fails_moreItems_of_opens hallowed hclosing item hrest)
  | cons entry entries ih =>
      have hentry := hentries entry List.mem_cons_self
      have hmore := ih fun entry hmem => hentries entry (List.mem_cons_of_mem _ hmem)
      have hfirst := hentry.reads (@closes_closed between _ _ hafter hclosing
        (entries.map (·.1) ++ piece :: pieces) rest)
      rw [List.map_cons, List.cons_append, closed_cons,
        skipBlanks_of_ends (ends_cons (by decide) _)]
      refine @fails_moreItems_cons _ _ _ _ _ _ entry.2 hcomma ?_ hmore
      rw [(hentry.opens.append _).skipBlanks hbetween]
      exact hfirst

include hbefore

/-- A bracketed list stops at an item that snags. -/
theorem fails_items (entries : List (List Char × α))
    (hentries : ∀ entry ∈ entries, ReadsItem item entry.1 entry.2) (pieces : List (List Char))
    (rest : List Char) :
    Fails allowed (items closing item)
      (skipBlanks (enclosed before between after (entries.map (·.1) ++ piece :: pieces) closing
        rest)) := by
  cases entries with
  | nil =>
      let tail := closed between after pieces closing rest
      have hopens := hpiece.opens.append tail
      rw [List.map_nil, List.nil_append, skipBlanks_enclosed_cons hbefore hpiece.opens]
      rcases hpiece.snags tail with hfails | ⟨value, rest', hreads, hrest⟩
      · exact fails_items_of_fails hopens hclosing hfails
      · exact fails_items_cons hopens hclosing hreads
          (fails_moreItems_of_opens hallowed hclosing item hrest)
  | cons entry entries =>
      have hentry := hentries entry List.mem_cons_self
      have hmore := fails_moreItems hallowed hclosing hbetween hafter hcomma hpiece entries
        (fun entry hmem => hentries entry (List.mem_cons_of_mem _ hmem)) pieces rest
      have hfirst := hentry.reads (@closes_closed between _ _ hafter hclosing
        (entries.map (·.1) ++ piece :: pieces) rest)
      rw [List.map_cons, List.cons_append, skipBlanks_enclosed_cons hbefore hentry.opens]
      exact fails_items_cons (hentry.opens.append _) hclosing hfirst hmore

end Items

section Arguments

variable {arg : Operand} {before : List Char}

theorem fails_moreArguments_cons (hfirst : Reads expression text arg rest)
    (hmore : Fails allowed (moreArguments expression) rest) :
    Fails allowed (moreArguments expression) (',' :: text) := by
  obtain ⟨_, hfirst⟩ := hfirst
  obtain ⟨cause, hcause, rest', hmore⟩ := hmore
  obtain ⟨_, hcomma⟩ := reads_expect_skipBlanks (c := ',') (by decide) text
  refine ⟨cause, hcause, rest', ?_⟩
  rw [moreArguments]
  simp [char?_of_ne (show ',' ≠ ')' by decide), hcomma, hfirst, hmore]

theorem fails_moreArguments_of_fails (h : Fails allowed expression text) :
    Fails allowed (moreArguments expression) (',' :: text) := by
  obtain ⟨cause, hcause, rest', h⟩ := h
  obtain ⟨_, hcomma⟩ := reads_expect_skipBlanks (c := ',') (by decide) text
  refine ⟨cause, hcause, rest', ?_⟩
  rw [moreArguments]
  simp [char?_of_ne (show ',' ≠ ')' by decide), hcomma, h]

theorem fails_arguments_cons (hopens : Opens text) (hfirst : Reads expression text arg rest)
    (hmore : Fails allowed (moreArguments expression) rest) :
    Fails allowed (arguments expression) text := by
  obtain ⟨_, hfirst⟩ := hfirst
  obtain ⟨cause, hcause, rest', hmore⟩ := hmore
  have hchar := hopens.char?_eq_none (c := ')') (by decide)
  exact ⟨cause, hcause, rest', by simp [arguments, hchar, hfirst, hmore]⟩

theorem fails_arguments_of_fails (hopens : Opens text) (h : Fails allowed expression text) :
    Fails allowed (arguments expression) text := by
  obtain ⟨cause, hcause, rest', h⟩ := h
  have hchar := hopens.char?_eq_none (c := ')') (by decide)
  exact ⟨cause, hcause, rest', by simp [arguments, hchar, h]⟩

variable (hallowed : ∀ c, allowed (.charExpected c))

include hallowed

theorem fails_moreArguments_of_opens (expression : Production Operand)
    (h : Opens (skipBlanks rest)) :
    Fails allowed (moreArguments expression) rest := by
  obtain ⟨c, more, rfl, hc⟩ := exists_cons_of_opens h
  obtain ⟨d, more', hlist, _, hd⟩ := h
  have hparenthesis : c ≠ ')' := ne_of_isCloser hc (by decide)
  have hcomma : d ≠ ',' := ne_of_isCloser hd (by decide)
  have hexpect : expect ',' (skipBlanks (c :: more)) = .error ⟨.charExpected ',', d :: more'⟩ := by
    rw [hlist]
    exact expect_eq_error hcomma more'
  refine ⟨_, hallowed ',', d :: more', ?_⟩
  rw [moreArguments]
  simp [char?_of_ne hparenthesis, hexpect]

variable (hbefore : Blank before) (hbetween : Blank between) (hafter : Blank after)
  (hpiece : SnagsOperand allowed expression piece)

include hbetween hafter hpiece

theorem fails_moreArguments (args : List (List Char × Operand))
    (hargs : ∀ arg ∈ args, ReadsOperand expression arg.1 arg.2) (pieces : List (List Char))
    (rest : List Char) :
    Fails allowed (moreArguments expression)
      (skipBlanks (closed between after (args.map (·.1) ++ piece :: pieces) ')' rest)) := by
  induction args with
  | nil =>
      rw [List.map_nil, List.nil_append, closed_cons, skipBlanks_of_ends (ends_cons (by decide) _),
        ← List.append_assoc]
      rcases hpiece.snags hbetween (closed between after pieces ')' rest) with
        hfails | ⟨value, rest', hreads, hrest⟩
      · exact fails_moreArguments_of_fails hfails
      · exact fails_moreArguments_cons hreads
          (fails_moreArguments_of_opens hallowed expression hrest)
  | cons arg args ih =>
      have harg := hargs arg List.mem_cons_self
      have hmore := ih fun arg hmem => hargs arg (List.mem_cons_of_mem _ hmem)
      have hfirst := harg.reads hbetween (@closes_closed between _ ')' hafter (by decide)
        (args.map (·.1) ++ piece :: pieces) rest)
      rw [List.map_cons, List.cons_append, closed_cons,
        skipBlanks_of_ends (ends_cons (by decide) _),
        ← List.append_assoc]
      exact fails_moreArguments_cons hfirst hmore

include hbefore

/-- The arguments of a call stop at one that snags. -/
theorem fails_arguments (args : List (List Char × Operand))
    (hargs : ∀ arg ∈ args, ReadsOperand expression arg.1 arg.2) (pieces : List (List Char))
    (rest : List Char) :
    Fails allowed (arguments expression)
      (skipBlanks (enclosed before between after (args.map (·.1) ++ piece :: pieces) ')'
        rest)) := by
  cases args with
  | nil =>
      let tail := closed between after pieces ')' rest
      have hopens := hpiece.opens.append tail
      rw [List.map_nil, List.nil_append, skipBlanks_enclosed_cons hbefore hpiece.opens]
      rcases hpiece.snagsItem.snags tail with hfails | ⟨value, rest', hreads, hrest⟩
      · exact fails_arguments_of_fails hopens hfails
      · exact fails_arguments_cons hopens hreads
          (fails_moreArguments_of_opens hallowed expression hrest)
  | cons arg args =>
      have harg := hargs arg List.mem_cons_self
      have hmore := fails_moreArguments hallowed hbetween hafter hpiece args
        (fun arg hmem => hargs arg (List.mem_cons_of_mem _ hmem)) pieces rest
      have hfirst := harg.readsItem.reads (@closes_closed between _ ')' hafter (by decide)
        (args.map (·.1) ++ piece :: pieces) rest)
      rw [List.map_cons, List.cons_append, skipBlanks_enclosed_cons hbefore harg.opens]
      exact fails_arguments_cons (harg.opens.append _) hfirst hmore

end Arguments

/-- An entry snags where its value does. -/
theorem snagsItem_entry {key : List Char} (hkey : KeyText key name)
    (h : SnagsOperand allowed expression piece) :
    SnagsItem allowed (entry expression) (entryText (key, piece)) where
  opens := (opens_of_keyText hkey).append _
  snags rest := by
    have hblank : Blank [' '] := by
      intro c hc
      simp [List.mem_singleton.1 hc, Scan.isBlank]
    let text := [' '] ++ piece ++ rest
    have htext : entryText (key, piece) ++ rest = key ++ ':' :: text := by
      simp [entryText, text]
    obtain ⟨hshorter, hkey⟩ :=
      @reads_key _ _ .keyExpected _ hkey (ends_cons (c := ':') (by decide) text)
    obtain ⟨hshorter', hcolon⟩ := reads_expect_skipBlanks (c := ':') (by decide) text
    rw [htext]
    rcases h.snags hblank rest with ⟨cause, hcause, rest', hfails⟩ | ⟨value, rest', hreads, hrest⟩
    · exact .inl ⟨cause, hcause, rest', by simp only [entry, hkey, hcolon, text, hfails]⟩
    · obtain ⟨hshorter'', hreads⟩ := hreads
      refine .inr ⟨(name, value), rest', ⟨?_, ?_⟩, hrest⟩
      · simp only [List.length_cons] at hshorter
        exact Nat.lt_trans hshorter'' (Nat.lt_of_succ_lt hshorter)
      · simp only [entry, hkey, hcolon, text, hreads]

/-! ## The tightest expression -/

theorem fails_parenthesis (h : Fails allowed (parenthesis expression) text) :
    Fails allowed (tightest limit expression) ('(' :: text) := by
  obtain ⟨cause, hcause, rest', h⟩ := h
  exact ⟨cause, hcause, rest', by simp [tightest, h, Except.map]⟩

theorem fails_call (hname : isPlainName name = true)
    (h : Fails allowed (arguments expression) (skipBlanks text)) :
    Fails allowed (tightest limit expression) (name.toList ++ '(' :: text) := by
  obtain ⟨cause, hcause, rest', h⟩ := h
  obtain ⟨_, hname'⟩ := Scan.name?_append hname (ends_cons (by decide) text : Ends _ ('(' :: text))
  obtain ⟨c, more, hlist, hc, _⟩ := Scan.isPlainName_iff.1 hname
  have hhead := head?_append_of_cons hlist ('(' :: text)
  have hnot (d : Char) (hd : Scan.isNameStart d = false) :
      Scan.char? d (name.toList ++ '(' :: text) = none := by
    refine char?_of_head_ne ?_
    rw [hhead]
    simpa using ne_of_isNameStart hc hd
  have hopening : ∃ shorter, Scan.char? '(' (skipBlanks ('(' :: text)) =
      some ⟨(), text, shorter⟩ := by
    rw [skipBlanks_of_ends (ends_cons (by decide) _)]
    exact ⟨_, char?_cons '(' text⟩
  obtain ⟨_, hopening⟩ := hopening
  refine ⟨cause, hcause, rest', ?_⟩
  simp [tightest, hnot '(' (by decide), hnot '.' (by decide), call?, hname', hopening, h]

theorem fails_object (h : Fails allowed (items '\x7d' (entry expression)) (skipBlanks text)) :
    Fails allowed (tightest limit expression) ('\x7b' :: text) := by
  obtain ⟨cause, hcause, rest', h⟩ := h
  have hcall : call? limit expression ('\x7b' :: text) = none :=
    call?_eq_none (ends_cons (by decide) text)
  refine ⟨cause, hcause, rest', ?_⟩
  simp [tightest, char?_of_ne (show '\x7b' ≠ '(' by decide),
    char?_of_ne (show '\x7b' ≠ '.' by decide), hcall, object, h, Except.map]

theorem fails_array (h : Fails allowed (items ']' expression) (skipBlanks text)) :
    Fails allowed (tightest limit expression) ('[' :: text) := by
  obtain ⟨cause, hcause, rest', h⟩ := h
  have hcall : call? limit expression ('[' :: text) = none :=
    call?_eq_none (ends_cons (by decide) text)
  refine ⟨cause, hcause, rest', ?_⟩
  simp [tightest, char?_of_ne (show '[' ≠ '(' by decide), char?_of_ne (show '[' ≠ '.' by decide),
    char?_of_ne (show '[' ≠ '\x7b' by decide), hcall, array, h, Except.map]

theorem fails_primary (h : Fails allowed (tightest limit expression) (skipBlanks text)) :
    Fails allowed (primary limit expression) text := by
  obtain ⟨cause, hcause, rest', h⟩ := h
  exact ⟨cause, hcause, rest', by simp [primary, h, Except.map]⟩

/-- What fails at the tightest rung fails as an expression. -/
theorem fails_expression
    (h : Fails allowed (tightest limit (Parser.expression table limit budget)) (skipBlanks text)) :
    Fails allowed (Parser.expression table limit (budget + 1)) text := by
  have hladder : Fails allowed
      (ladderTo table limit (primary limit (Parser.expression table limit budget)) 0) text :=
    fails_primary h
  have hclimb := hladder.climb (Nat.zero_le _) (Nat.le_refl _)
  rwa [ladderTo_size] at hclimb

/-- Brackets whose reading fails are jammed at the tightest rung. -/
theorem jammed_of_fails (hopens : Opens piece)
    (h : ∀ rest, Fails allowed (tightest limit expression) (piece ++ rest)) (bound : Nat) :
    Jammed allowed table limit (primary limit expression) 0 piece bound := by
  intro before rest hbefore
  refine .inl (fails_primary ?_)
  rw [List.append_assoc, (hopens.append rest).skipBlanks hbefore]
  exact h rest

/-- A jammed piece where an expression is read. -/
theorem Jammed.snagsOperand
    (h : Jammed allowed table limit (primary limit (Parser.expression table limit budget)) level
      piece bound)
    (hsize : level ≤ table.size) (hopens : Opens piece) :
    SnagsOperand allowed (Parser.expression table limit (budget + 1)) piece where
  opens := hopens
  snags {before} hbefore rest := by
    have hclimb := h.climb hsize (Nat.le_refl _)
    have hstalls := @hclimb before rest hbefore
    rw [ladderTo_size] at hstalls
    exact hstalls.snags

theorem jammed_parenthesized (hallowed : ∀ c, allowed (.charExpected c))
    (h : SnagsOperand allowed expression piece) (bound : Nat) :
    Jammed allowed table limit (primary limit expression) 0 ('(' :: piece ++ [')']) bound := by
  have hopens : Opens ('(' :: piece ++ [')']) := .of_cons (by decide) (by decide) _
  refine jammed_of_fails hopens (fun rest => ?_) bound
  rw [List.append_assoc, List.cons_append, List.singleton_append]
  apply fails_parenthesis
  rcases h.snagsItem.snags (')' :: rest) with
    ⟨cause, hcause, rest', hfails⟩ | ⟨value, rest', ⟨_, hreads⟩, hrest⟩
  · exact ⟨cause, hcause, rest', by simp [parenthesis, hfails]⟩
  · obtain ⟨c, more, rfl, hc⟩ := exists_cons_of_opens hrest
    have hparenthesis : c ≠ ')' := ne_of_isCloser hc (by decide)
    exact ⟨_, hallowed ')', c :: more, by simp [parenthesis, hreads, expect_eq_error hparenthesis]⟩

section Lists

variable {before : List Char} (hallowed : ∀ c, allowed (.charExpected c)) (hbefore : Blank before)
  (hbetween : Blank between) (hafter : Blank after) (pieces : List (List Char))

include hallowed hbefore hbetween hafter

theorem jammed_call (hname : isPlainName name = true) (args : List (List Char × Operand))
    (hargs : ∀ arg ∈ args, ReadsOperand expression arg.1 arg.2)
    (hpiece : SnagsOperand allowed expression piece) (bound : Nat) :
    Jammed allowed table limit (primary limit expression) 0
      (name.toList ++ '(' ::
        enclosed before between after (args.map (·.1) ++ piece :: pieces) ')' [])
      bound := by
  refine jammed_of_fails ((opens_of_isPlainName hname).append _) (fun rest => ?_) bound
  rw [List.append_assoc, List.cons_append, enclosed_append, List.nil_append]
  exact fails_call hname
    (fails_arguments hallowed hbefore hbetween hafter hpiece args hargs pieces rest)

theorem jammed_array (items : List (List Char × Operand))
    (hitems : ∀ item ∈ items, ReadsOperand expression item.1 item.2)
    (hpiece : SnagsOperand allowed expression piece) (bound : Nat) :
    Jammed allowed table limit (primary limit expression) 0
      ('[' :: enclosed before between after (items.map (·.1) ++ piece :: pieces) ']' []) bound := by
  refine jammed_of_fails (.of_cons (by decide) (by decide) _) (fun rest => ?_) bound
  rw [List.cons_append, enclosed_append, List.nil_append]
  exact fails_array (fails_items hallowed (by decide) hbefore hbetween hafter (by decide)
    hpiece.snagsItem items (fun item hitem => (hitems item hitem).readsItem) pieces rest)

theorem jammed_object (entries : List ((List Char × List Char) × String × Operand))
    (hentries : ∀ entry ∈ entries, KeyText entry.1.1 entry.2.1 ∧
      ReadsOperand expression entry.1.2 entry.2.2)
    {key : List Char} (hkey : KeyText key name) (hpiece : SnagsOperand allowed expression piece)
    (bound : Nat) :
    Jammed allowed table limit (primary limit expression) 0
      ('\x7b' :: enclosed before between after
        ((entries.map fun entry => entryText entry.1) ++ entryText (key, piece) :: pieces) '\x7d'
        [])
      bound := by
  refine jammed_of_fails (.of_cons (by decide) (by decide) _) (fun rest => ?_) bound
  rw [List.cons_append, enclosed_append, List.nil_append]
  have hfails := @fails_items _ _ allowed '\x7d' _ _ (entry expression) before hallowed (by decide)
    hbefore hbetween hafter (by decide) (snagsItem_entry hkey hpiece)
    (entries.map fun entry => (entryText entry.1, entry.2)) ?_ pieces rest
  · apply fails_object
    simpa [Function.comp_def] using hfails
  · intro item hitem
    obtain ⟨entry, hentry, rfl⟩ := List.mem_map.1 hitem
    exact readsItem_entry (hentries entry hentry).1 (hentries entry hentry).2

end Lists

/-! ## Whole texts -/

theorem parse_of_fails {text : String}
    (h : Fails allowed (Parser.expression table limit limit) text.toList) :
    ∃ fault, parse table limit text = .error fault ∧ allowed fault.cause := by
  obtain ⟨cause, hcause, rest, hfails⟩ := h
  exact ⟨Stop.toFault ⟨cause, rest⟩ text, by simp [parse, hfails], hcause⟩

/-- A text whose reading snags holds no query, for an allowed cause or for a part left over. -/
theorem parse_of_snags {text : String}
    (h : Snags allowed (Parser.expression table limit limit) text.toList) :
    ∃ fault, parse table limit text = .error fault ∧
      (allowed fault.cause ∨ ∃ part, fault.cause = .unexpectedPart part) := by
  rcases h with hfails | ⟨operand, rest, ⟨_, hreads⟩, c, more, hrest, _⟩
  · obtain ⟨fault, hfault, hcause⟩ := parse_of_fails hfails
    exact ⟨fault, hfault, .inl hcause⟩
  · let part := String.ofList (c :: more)
    refine ⟨Stop.toFault ⟨.unexpectedPart part, c :: more⟩ text, ?_, .inr ⟨part, rfl⟩⟩
    simp [parse, hreads, hrest, part]

end Parser

end PipeQuery
