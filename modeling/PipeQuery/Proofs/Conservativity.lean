/-
Added operators whose symbols a text does not have.

Under the extended table the text is read as before: a group of new operators joins nothing, and new
members of a group never come next.  The two readers go through ladders of different heights over
the same text, so their results are compared rung by rung: a group of its own only skips blanks,
which every rung does.  Only the primary expression leaves the blanks after it, so that a new group
below the tightest one moves the place where a call of that group is refused for its nesting.
-/
import PipeQuery.Proofs.Agreement
import PipeQuery.Proofs.Extension
import PipeQuery.Proofs.Legibility

namespace PipeQuery

open Scan (skipBlanks)

namespace Parser

variable {α : Type} {limit : Nat} {whole text text' : List Char} {late loose : Prop}

/-! ## Rungs -/

section Rungs

variable {table table' : OperatorTable} {operators operators' : OperatorGroup}
  {p p' : Production Operand}

/-- No blanks are left after what is taken. -/
def Trimmed (p : Production α) : Prop :=
  ∀ ⦃text : List Char⦄ ⦃taken : Taken α text⦄, p text = .ok taken →
    skipBlanks taken.rest = taken.rest

theorem trimmed_chain {left taken : Taken Operand text}
    (h : chain table limit operators p left = .ok taken) : skipBlanks taken.rest = taken.rest := by
  fun_induction chain table limit operators p left with
  | case1 left here finished | case2 left here finished =>
      simp only [Except.ok.injEq] at h
      subst h
      exact skipBlanks_skipBlanks left.rest
  | case3 => simp at h
  | case4 => simp at h
  | case5 left here name after hsome haccepted right hright hshorter joined hheight ih => exact ih h

theorem trimmed_rung : Trimmed (rung table limit operators p) := by
  intro text taken h
  unfold rung at h
  split at h
  · simp at h
  · exact trimmed_chain h

theorem chain_of_none {left : Taken Operand text}
    (h : operator? operators (skipBlanks left.rest) = none) :
    chain table limit operators p left = .ok left.trim := by
  rw [chain]
  simp [h, Taken.trim]

section Next

variable {left : Taken Operand text} {name : String} {after : List Char}

theorem chain_of_refused (hnext : OperatorAt operators (skipBlanks left.rest) name after)
    (hrefused : refuses table name left.value = true) :
    chain table limit operators p left = .ok left.trim := by
  obtain ⟨_, hnext⟩ := hnext
  rw [refuses] at hrefused
  rw [chain]
  simp [hnext, hrefused, Taken.trim]

theorem chain_of_stop (hnext : OperatorAt operators (skipBlanks left.rest) name after)
    (haccepted : refuses table name left.value = false) {stop : Stop}
    (hright : p after = .error stop) : chain table limit operators p left = .error stop := by
  obtain ⟨_, hnext⟩ := hnext
  rw [refuses] at haccepted
  rw [chain]
  simp [hnext, haccepted, hright]

theorem chain_of_operand (hnext : OperatorAt operators (skipBlanks left.rest) name after)
    (haccepted : refuses table name left.value = false) {right : Taken Operand after}
    (hright : p after = .ok right) :
    ∃ hshorter : right.rest.length < text.length,
      chain table limit operators p left =
        if limit < (Operand.join table name left.value right.value).height then
          .error ⟨.tooDeep limit, right.rest⟩
        else chain table limit operators p
          (⟨Operand.join table name left.value right.value, right.rest, hshorter⟩ :
            Taken Operand text) := by
  obtain ⟨hle, hnext⟩ := hnext
  have hshorter : right.rest.length < text.length := by
    have := right.shorter
    have := Scan.length_skipBlanks_le left.rest
    have := left.shorter
    omega
  refine ⟨hshorter, ?_⟩
  rw [refuses] at haccepted
  rw [chain]
  simp [hnext, haccepted, hright]

end Next

/-- A rung whose operators do not come next only skips blanks. -/
theorem agree_rung_of_none
    (hnone : ∀ text, text <:+ whole → operator? operators text = none)
    (hblanks : loose ∨ Trimmed p) (h : Agree limit whole late loose p p') :
    Agree limit whole late loose p (rung table limit operators p') := by
  intro text htext
  have hresults := h htext
  have htrimmed (taken : Taken Operand text) (htaken : p text = .ok taken) :
      loose ∨ taken.trim = taken := by
    refine hblanks.imp_right fun htrimmed => ?_
    have hrest := htrimmed htaken
    obtain ⟨value, rest, shorter⟩ := taken
    simpa [Taken.trim] using hrest
  unfold rung
  generalize p text = x, p' text = x' at hresults htrimmed ⊢
  cases hresults with
  | @ok taken hrest =>
      simp only
      rw [chain_of_none (hnone _ ((skipBlanks_suffix _).trans hrest))]
      rcases htrimmed taken rfl with hloose | heq
      · exact .trimmed hloose hrest
      · rw [heq]
        exact .ok hrest
  | @trimmed taken hloose hrest =>
      simp only
      rw [chain_of_none (hnone _ ((skipBlanks_suffix _).trans ((skipBlanks_suffix _).trans hrest)))]
      have htwice : taken.trim.trim = taken.trim := by simp [Taken.trim, skipBlanks_skipBlanks]
      rw [htwice]
      exact .trimmed hloose hrest
  | error hstop => exact .error hstop

/-- The two tables take the same operators of a group and chain them alike. -/
structure Alike (table table' : OperatorTable) (whole : List Char)
    (operators operators' : OperatorGroup) : Prop where
  next : ∀ text, text <:+ whole → operator? operators' text = operator? operators text
  vararg : ∀ entry ∈ operators, table'.isVararg entry.1 = table.isVararg entry.1
  leftAssociative :
    ∀ entry ∈ operators, table'.isLeftAssociative entry.1 = table.isLeftAssociative entry.1

theorem trim_congr {left left' : Taken α text} (hvalue : left'.value = left.value)
    (hskip : skipBlanks left'.rest = skipBlanks left.rest) : left'.trim = left.trim := by
  unfold Taken.trim
  simp only [hvalue, hskip]

/-- What follows the operator that comes next stands inside the whole text, as its symbol does. -/
theorem suffix_of_operator? {name : String}
    {after : { rest : List Char // rest.length ≤ text.length }} (htext : text <:+ whole)
    (hnext : operator? operators text = some (name, after)) :
    after.val <:+ whole ∧ ∃ symbol, (name, symbol) ∈ operators ∧ symbol.toList <:+: whole := by
  obtain ⟨symbol, blanks, hentry, heq, _⟩ := exists_symbol_of_operator? hnext
  refine ⟨?_, symbol, hentry, ?_⟩
  · refine List.IsSuffix.trans ⟨symbol.toList ++ blanks, ?_⟩ htext
    simp [← heq]
  · exact List.IsInfix.trans ⟨[], blanks ++ after.val, by simp [← heq]⟩ htext.isInfix

/-- The operator that comes next under one table comes next under the other, may follow the same
operands and joins them alike. -/
theorem Alike.of_operator? (h : Alike table table' whole operators operators')
    {left left' : Taken Operand text} (hvalue : left'.value = left.value)
    (hskip : skipBlanks left'.rest = skipBlanks left.rest) (hrest : left.rest <:+ whole)
    {name : String} {after : { rest : List Char // rest.length ≤ (skipBlanks left.rest).length }}
    (hnext : operator? operators (skipBlanks left.rest) = some (name, after)) :
    OperatorAt operators' (skipBlanks left'.rest) name after.val ∧
      refuses table' name left'.value = refuses table name left.value ∧
      ∀ right, Operand.join table' name left'.value right =
        Operand.join table name left.value right := by
  have hhere := (skipBlanks_suffix left.rest).trans hrest
  obtain ⟨_, symbol, hentry, _⟩ := suffix_of_operator? hhere hnext
  have hvararg := h.vararg _ hentry
  refine ⟨?_, ?_, ?_⟩
  · have hnext' : OperatorAt operators (skipBlanks left.rest) name after.val := ⟨after.2, hnext⟩
    rw [OperatorAt, ← h.next _ hhere] at hnext'
    rw [hskip]
    exact hnext'
  · simp only [refuses, hvalue, hvararg, h.leftAssociative _ hentry]
  · intro right
    unfold Operand.join
    rw [hvalue, hvararg]

/-- Chains agree while the operators of the group do. -/
theorem agrees_chain (halike : Alike table table' whole operators operators')
    (hlate : loose → ∀ entry ∈ operators, entry.2.toList <:+: whole → late)
    (h : Agree limit whole late loose p p') (left left' : Taken Operand text)
    (hvalue : left'.value = left.value) (hskip : skipBlanks left'.rest = skipBlanks left.rest)
    (hrest : left.rest <:+ whole) :
    Agrees limit whole late False (chain table limit operators p left)
      (chain table' limit operators' p' left') := by
  have hhere := (skipBlanks_suffix left.rest).trans hrest
  fun_induction chain table limit operators p left generalizing left' with
  | case1 left here finished hnone =>
      have hnone' : operator? operators' (skipBlanks left'.rest) = none := by
        rw [hskip, halike.next _ hhere, hnone]
      rw [chain_of_none hnone', trim_congr hvalue hskip]
      exact .ok hhere
  | case2 left here finished name after hsome hrefused =>
      obtain ⟨hnext, hrefuses, _⟩ := halike.of_operator? hvalue hskip hrest hsome
      rw [chain_of_refused hnext (hrefuses.trans hrefused), trim_congr hvalue hskip]
      exact .ok hhere
  | case3 left here name after hsome haccepted stop hright =>
      obtain ⟨hnext, hrefuses, _⟩ := halike.of_operator? hvalue hskip hrest hsome
      have hagrees := h (suffix_of_operator? hhere hsome).1
      rw [hright] at hagrees
      obtain ⟨stop', hright', hstop⟩ := hagrees.exists_of_error
      rw [chain_of_stop hnext (hrefuses.trans (Bool.eq_false_iff.2 haccepted)) hright']
      exact .error hstop
  | case4 left here name after hsome haccepted right hright hshorter joined hheight =>
      obtain ⟨hnext, hrefuses, hjoin⟩ := halike.of_operator? hvalue hskip hrest hsome
      obtain ⟨hafter, symbol, hentry, hsymbol⟩ := suffix_of_operator? hhere hsome
      have hagrees := h hafter
      rw [hright] at hagrees
      obtain ⟨hrest', right', hright', hvalue', hsame⟩ := hagrees.exists_of_ok
      obtain ⟨_, hchain⟩ :=
        chain_of_operand hnext (hrefuses.trans (Bool.eq_false_iff.2 haccepted)) hright'
      rw [hchain, hjoin, hvalue', if_pos hheight]
      rcases hsame with hsame | ⟨hloose, hsame⟩
      · rw [hsame]
        exact .error (.same _)
      · rw [hsame]
        exact .error (.late (hlate hloose _ hentry hsymbol) hrest')
  | case5 left here name after hsome haccepted right hright hshorter joined hheight ih =>
      obtain ⟨hnext, hrefuses, hjoin⟩ := halike.of_operator? hvalue hskip hrest hsome
      have hagrees := h (suffix_of_operator? hhere hsome).1
      rw [hright] at hagrees
      obtain ⟨hrest', right', hright', hvalue', hsame⟩ := hagrees.exists_of_ok
      obtain ⟨_, hchain⟩ :=
        chain_of_operand hnext (hrefuses.trans (Bool.eq_false_iff.2 haccepted)) hright'
      have hjoined : Operand.join table' name left'.value right'.value = joined := by
        rw [hjoin, hvalue']
      have hskip' : skipBlanks right'.rest = skipBlanks right.rest := by
        rcases hsame with hsame | ⟨_, hsame⟩
        · rw [hsame]
        · rw [hsame, skipBlanks_skipBlanks]
      rw [hchain, if_neg (by rwa [hjoined])]
      exact ih _ hjoined hskip' hrest' ((skipBlanks_suffix _).trans hrest')

theorem agree_rung (halike : Alike table table' whole operators operators')
    (hlate : loose → ∀ entry ∈ operators, entry.2.toList <:+: whole → late)
    (h : Agree limit whole late loose p p') :
    Agree limit whole late False (rung table limit operators p)
      (rung table' limit operators' p') := by
  intro text htext
  have hagrees := h htext
  unfold rung
  generalize p text = x, p' text = x' at hagrees
  cases hagrees with
  | @ok taken hrest => exact agrees_chain halike hlate h taken taken rfl rfl hrest
  | @trimmed taken _ hrest =>
      exact agrees_chain halike hlate h taken taken.trim rfl (skipBlanks_skipBlanks _) hrest
  | error hstop => exact .error hstop

end Rungs

/-! ## Ladders -/

section Ladders

open OperatorTable (Widened)

variable {table table' : OperatorTable} {new : String × String → Prop} {group extra : OperatorGroup}
  {groups groups' : List OperatorGroup} {p p' : Production Operand}

/-- The symbols of a group are distinct, and both tables chain its functions alike. -/
structure ChainsAlike (table table' : OperatorTable) (group : OperatorGroup) : Prop where
  distinct : ∀ entry ∈ group, ∀ entry' ∈ group, entry.2 = entry'.2 → entry = entry'
  vararg : ∀ entry ∈ group, table'.isVararg entry.1 = table.isVararg entry.1
  leftAssociative :
    ∀ entry ∈ group, table'.isLeftAssociative entry.1 = table.isLeftAssociative entry.1

/-- What stands nowhere in the whole text does not come next. -/
theorem not_start_of_not_infix {piece : List Char} (h : ¬ piece <:+: whole)
    (htext : text <:+ whole) : ¬ piece <+: text :=
  fun hstart => h (hstart.isInfix.trans htext.isInfix)

theorem ChainsAlike.alike (h : ChainsAlike table table' group)
    (hextra : ∀ entry ∈ extra, ¬ entry.2.toList <:+: whole) :
    Alike table table' whole (candidates group) (candidates (group ++ extra)) where
  next _ htext := operator?_candidates_append h.distinct
    fun entry hentry => not_start_of_not_infix (hextra entry hentry) htext
  vararg entry hentry := h.vararg entry (List.mem_mergeSort.1 hentry)
  leftAssociative entry hentry := h.leftAssociative entry (List.mem_mergeSort.1 hentry)

variable (hnew : ∀ entry, new entry → ¬ entry.2.toList <:+: whole)

include hnew

/-- A group of new operators only skips blanks. -/
theorem agree_rung_of_new (hgroup : ∀ entry ∈ group, new entry) (hblanks : loose ∨ Trimmed p)
    (h : Agree limit whole late loose p p') :
    Agree limit whole late loose p (rung table' limit (candidates group) p') := by
  refine agree_rung_of_none (fun text htext => ?_) hblanks h
  refine operator?_eq_none fun entry hentry => ?_
  exact not_start_of_not_infix (hnew entry (hgroup entry (List.mem_mergeSort.1 hentry))) htext

/-- A group with new members at its end takes what it took before. -/
theorem agree_rung_of_kept (hgroup : ChainsAlike table table' group)
    (hextra : ∀ entry ∈ extra, new entry)
    (hlate : loose → ∀ entry ∈ group, entry.2.toList <:+: whole → late)
    (h : Agree limit whole late loose p p') :
    Agree limit whole late False (rung table limit (candidates group) p)
      (rung table' limit (candidates (group ++ extra)) p') := by
  have halike := hgroup.alike fun entry hentry => hnew entry (hextra entry hentry)
  refine agree_rung halike (fun hloose entry hentry => ?_) h
  exact hlate hloose entry (List.mem_mergeSort.1 hentry)

/-- Above rungs that leave no blanks, a ladder that is widened agrees with the old one. -/
theorem agree_foldl_rung (h : Widened new groups groups')
    (hgroups : ∀ group ∈ groups, ChainsAlike table table' group) (htrimmed : Trimmed p)
    (hp : Agree limit whole late False p p') :
    Agree limit whole late False
      (groups.foldl (fun tighter group => rung table limit (candidates group) tighter) p)
      (groups'.foldl (fun tighter group => rung table' limit (candidates group) tighter) p') := by
  induction h generalizing p p' with
  | nil => exact hp
  | added hgroup _ ih =>
      exact ih hgroups htrimmed (agree_rung_of_new hnew hgroup (.inr htrimmed) hp)
  | kept hextra _ ih =>
      obtain ⟨hfirst, hgroups⟩ := List.forall_mem_cons.1 hgroups
      exact ih hgroups trimmed_rung (agree_rung_of_kept hnew hfirst hextra False.elim hp)

/-- Above a production that may leave blanks, it agrees with the old one up to the first old rung,
which may place refusals of nesting behind them. -/
theorem agree_foldl_rung_of_loose (h : Widened new (group :: groups) groups') (hloose : loose)
    (hgroups : ∀ group' ∈ group :: groups, ChainsAlike table table' group')
    (hlate : ∀ entry ∈ group, entry.2.toList <:+: whole → late)
    (hp : Agree limit whole late loose p p') :
    Agree limit whole late False
      ((group :: groups).foldl (fun tighter group => rung table limit (candidates group) tighter) p)
      (groups'.foldl (fun tighter group => rung table' limit (candidates group) tighter) p') := by
  generalize hold : group :: groups = old at h hgroups ⊢
  induction h generalizing p p' with
  | nil => simp at hold
  | added hgroup _ ih => exact ih (agree_rung_of_new hnew hgroup (.inl hloose) hp) hold hgroups
  | kept hextra h _ =>
      obtain ⟨rfl, rfl⟩ := List.cons.inj hold
      obtain ⟨hfirst, hgroups⟩ := List.forall_mem_cons.1 hgroups
      rw [List.foldl_cons, List.foldl_cons]
      exact agree_foldl_rung hnew h hgroups trimmed_rung
        (agree_rung_of_kept hnew hfirst hextra (fun _ => hlate) hp)

/-- The two ladders agree; where the new one starts with a group of its own, refusals of nesting by
the tightest old group may be placed behind the blanks. -/
theorem agree_foldl_rung_of_widened (h : Widened new (group :: groups) groups')
    (hgroups : ∀ group' ∈ group :: groups, ChainsAlike table table' group')
    (hloose : (∃ first ∈ groups'.head?, ∀ entry ∈ first, new entry) → loose)
    (hlate : loose → ∀ entry ∈ group, entry.2.toList <:+: whole → late)
    (hp : Agree limit whole late False p p') :
    Agree limit whole late False
      ((group :: groups).foldl (fun tighter group => rung table limit (candidates group) tighter) p)
      (groups'.foldl (fun tighter group => rung table' limit (candidates group) tighter) p') := by
  cases h with
  | added hgroup h =>
      have hloose := hloose ⟨_, rfl, hgroup⟩
      exact agree_foldl_rung_of_loose hnew (.added hgroup h) hloose hgroups (hlate hloose)
        fun _ htext => (hp htext).loosen
  | kept hextra h =>
      obtain ⟨hfirst, hgroups⟩ := List.forall_mem_cons.1 hgroups
      rw [List.foldl_cons, List.foldl_cons]
      exact agree_foldl_rung hnew h hgroups trimmed_rung
        (agree_rung_of_kept hnew hfirst hextra False.elim hp)

end Ladders

/-! ## Expressions -/

section Extended

variable {operators : List Operator} {table : OperatorTable}
  (hname : ∀ operator ∈ operators, OperatorTable.builtin.precedence? operator.name = none)

include hname

theorem chainsAlike_of_extend (hextend : OperatorTable.builtin.extend operators = .ok table) :
    ∀ group ∈ OperatorTable.builtin.groups, ChainsAlike .builtin table group := by
  intro group hgroup
  have hkept (entry : String × String) (hentry : entry ∈ group) :
      table.isVararg entry.1 = OperatorTable.builtin.isVararg entry.1 ∧
        table.isLeftAssociative entry.1 = OperatorTable.builtin.isLeftAssociative entry.1 := by
    apply OperatorTable.isVararg_of_extend hextend
    intro operator hmem
    exact (OperatorTable.ne_of_precedence?_eq_none (hname operator hmem)
      ⟨group, hgroup, hentry⟩).symm
  exact {
    distinct := separable_builtin.distinct hgroup
    vararg := fun entry hentry => (hkept entry hentry).1
    leftAssociative := fun entry hentry => (hkept entry hentry).2 }

/-- A group of new operators at the front is not the one of `^`. -/
theorem precedence?_pow_ne_zero
    (h : ∃ first ∈ table.groups.head?, ∀ entry ∈ first, ∃ operator ∈ operators,
      entry = operator.listing) : table.precedence? "pow" ≠ some 0 := by
  obtain ⟨first, hfirst, hnew⟩ := h
  obtain ⟨groups, hgroups⟩ := List.head?_eq_some_iff.1 hfirst
  intro hzero
  obtain ⟨_, hpow, _⟩ := List.findIdx?_eq_some_iff_getElem.1 hzero
  simp only [hgroups, List.getElem_cons_zero] at hpow
  obtain ⟨entry, hentry, heq⟩ := List.any_eq_true.1 hpow
  obtain ⟨operator, hmem, rfl⟩ := hnew entry hentry
  have hpow : operator.name = "pow" := by simpa [Operator.listing] using heq
  have hnone := hname operator hmem
  rw [hpow] at hnone
  exact absurd hnone (by decide)

theorem agree_expression (hextend : OperatorTable.builtin.extend operators = .ok table)
    (hsymbol : ∀ operator ∈ operators, ¬ operator.symbol.toList <:+: whole) (budget : Nat) :
    Agree limit whole (table.precedence? "pow" ≠ some 0 ∧ '^' ∈ whole) False
      (expression .builtin limit budget) (expression table limit budget) := by
  induction budget with
  | zero => exact fun _ _ => .error (.same _)
  | succ budget ih =>
      have hnew : ∀ entry, (∃ operator ∈ operators, entry = operator.listing) →
          ¬ entry.2.toList <:+: whole := by
        rintro entry ⟨operator, hmem, rfl⟩
        exact hsymbol operator hmem
      refine agree_foldl_rung_of_widened hnew (OperatorTable.widened_of_extend hextend hname)
        (chainsAlike_of_extend hname hextend) (precedence?_pow_ne_zero hname) ?_
        (agree_primary ih)
      intro hloose entry hentry hinfix
      obtain rfl := List.mem_singleton.1 hentry
      exact ⟨hloose, hinfix.subset (by simp)⟩

end Extended

end Parser

/-- A text without the symbols of added operators for new functions is read as without them.  Only a
refusal of nesting may be placed behind the blanks at its place, and only for a text with `^` where
an added group is tighter than that of `^`. -/
theorem parse_of_extend {operators : List Operator} {table : OperatorTable} {limit : Nat}
    {text : String} (hextend : OperatorTable.builtin.extend operators = .ok table)
    (hname : ∀ operator ∈ operators, OperatorTable.builtin.precedence? operator.name = none)
    (hsymbol : ∀ operator ∈ operators, ¬ operator.symbol.toList <:+: text.toList) :
    parse table limit text = parse .builtin limit text ∨
      ((table.precedence? "pow" ≠ some 0 ∧ '^' ∈ text.toList) ∧
        ∃ before blanks after, text.toList = before ++ blanks ++ after ∧ Grammar.Blank blanks ∧
          skipBlanks after = after ∧
          parse .builtin limit text = .error ⟨.tooDeep limit, before.length, text⟩ ∧
          parse table limit text = .error ⟨.tooDeep limit, (before ++ blanks).length, text⟩) := by
  unfold parse
  rcases (Parser.agree_expression hname hextend hsymbol limit
    (List.suffix_refl text.toList)).strict_cases with
      ⟨stop, stop', hbuiltin, htable, hstop⟩ | ⟨taken, hbuiltin, htable, _⟩
  · rw [hbuiltin, htable]
    cases hstop with
    | same => exact .inl rfl
    | @late rest hlate hrest =>
        obtain ⟨before, htext⟩ := hrest
        obtain ⟨blanks, hrest, hblank⟩ := Parser.exists_blank_skipBlanks rest
        have hsplit : text.toList = before ++ blanks ++ skipBlanks rest := by
          rw [List.append_assoc, ← hrest, htext]
        have hposition : text.toList.length - rest.length = before.length := by
          rw [← htext, List.length_append, Nat.add_sub_cancel]
        have hposition' :
            text.toList.length - (skipBlanks rest).length = (before ++ blanks).length := by
          rw [hsplit, List.length_append, Nat.add_sub_cancel]
        refine .inr ⟨hlate, before, blanks, skipBlanks rest, hsplit, hblank,
          Parser.skipBlanks_skipBlanks rest, ?_, ?_⟩
        · simp only [Parser.Stop.toFault, hposition]
        · simp only [Parser.Stop.toFault, hposition']
  · rw [hbuiltin, htable]
    exact .inl rfl

/-- A member of the additive group and a group tighter than that of `^`, for a text without `^`. -/
theorem parse_of_extend_negate :
    let operators : List Operator :=
      [{ name := "join", symbol := "++", placement := .joining "+" },
        { name := "negate", symbol := "~", placement := .before "^" }]
    let text := ".a + .b | join(.c, negate(.d))"
    ∃ table, OperatorTable.builtin.extend operators = .ok table ∧
      (∀ operator ∈ operators, OperatorTable.builtin.precedence? operator.name = none) ∧
      (∀ operator ∈ operators, ¬ operator.symbol.toList <:+: text.toList) ∧
      parse table 8 text = parse .builtin 8 text := by
  intro operators text
  obtain ⟨table, hextend⟩ : ∃ table, OperatorTable.builtin.extend operators = .ok table :=
    ⟨_, rfl⟩
  have hname : ∀ operator ∈ operators,
      OperatorTable.builtin.precedence? operator.name = none := by decide
  have hsymbol : ∀ operator ∈ operators, ¬ operator.symbol.toList <:+: text.toList := by
    decide +kernel
  refine ⟨table, hextend, hname, hsymbol, ?_⟩
  rcases parse_of_extend hextend hname hsymbol with heq | ⟨⟨_, hpow⟩, _⟩
  · exact heq
  · exact absurd hpow (by decide +kernel)

/-- Where the place of a refusal moves: `.a^1` has two levels, which is found before the blank
after it, or behind the blank if a tighter group has looked for its operators there. -/
theorem exists_fault_displaced :
    let operators : List Operator := [{ name := "either", symbol := "#", placement := .before "^" }]
    ∃ table, OperatorTable.builtin.extend operators = .ok table ∧
      (∀ operator ∈ operators, OperatorTable.builtin.precedence? operator.name = none ∧
        operator.symbol ≠ "" ∧ ¬ operator.symbol.toList <:+: ".a^1 ".toList) ∧
      parse .builtin 1 ".a^1 " = .error ⟨.tooDeep 1, 4, ".a^1 "⟩ ∧
      parse table 1 ".a^1 " = .error ⟨.tooDeep 1, 5, ".a^1 "⟩ := by
  intro operators
  refine ⟨_, rfl, by decide, by decide +kernel, by decide +kernel⟩

end PipeQuery
