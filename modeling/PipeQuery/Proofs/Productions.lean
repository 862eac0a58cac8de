/-
What holds of every operand that the productions build.

A property of operands may depend on the budget of the expression they were taken by.  `Invariant`
asks that each way to build an operand preserves it: operands inside brackets have one level less,
those beside an operator the same level.  Every expression then has the property.
-/
import PipeQuery.Proofs.Replacement
import PipeQuery.Proofs.Soundness

namespace PipeQuery

theorem Value.isScalar_ofNumeral (numeral : Numeral) : (Value.ofNumeral numeral).IsScalar := by
  unfold Value.ofNumeral
  split
  · trivial
  · trivial

namespace Parser

variable {α : Type} {table : OperatorTable} {limit budget : Nat} {text : List Char}

/-- Whatever is taken has the property. -/
def Gives (production : Production α) (P : α → Prop) : Prop :=
  ∀ ⦃text : List Char⦄ ⦃taken : Taken α text⦄, production text = .ok taken → P taken.value

/-- A property of operands, by the budget they were taken with, that every production preserves. -/
structure Invariant (table : OperatorTable) (limit : Nat) (Holds : Nat → Operand → Prop) :
    Prop where
  literal {budget : Nat} {value : Value} (h : value.IsScalar) :
    Holds (budget + 1) (.constant value)
  path {budget : Nat} {keys : List String} (hne : keys ≠ []) :
    Holds (budget + 1) { query := .get keys, height := 1 }
  call {budget : Nat} {name : String} {args : List Operand} (hname : isPlainName name = true)
    (hargs : ∀ arg ∈ args, Holds budget arg) (hlimit : (Operand.call name args).height ≤ limit) :
    Holds (budget + 1) (.call name args)
  object {budget : Nat} {entries : List (String × Operand)}
    (hentries : ∀ entry ∈ entries, Holds budget entry.2)
    (hlimit : (Operand.object entries).height ≤ limit) : Holds (budget + 1) (.object entries)
  parenthesis {budget : Nat} {operand : Operand} (h : Holds budget operand) :
    Holds (budget + 1) { operand with parenthesized := true }
  join {budget : Nat} {group : OperatorGroup} {name symbol : String} {left right : Operand}
    (hgroup : group ∈ table.groups) (hentry : (name, symbol) ∈ group)
    (hleft : Holds (budget + 1) left) (hright : Holds (budget + 1) right)
    (hlimit : (Operand.join table name left right).height ≤ limit) :
    Holds (budget + 1) (.join table name left right)

/-! ## Literals, paths and lists -/

theorem gives_of_reads {production : Production α} {P : α → Prop}
    (h : ∀ ⦃text rest value⦄, Reads production text value rest → P value) : Gives production P :=
  fun _ _ hok => h (reads_of_ok hok)

theorem Gives.of_reads {production : Production α} {P : α → Prop} (h : Gives production P)
    {rest : List Char} {value : α} (hreads : Reads production text value rest) : P value := by
  obtain ⟨_, hreads⟩ := hreads
  exact h hreads

theorem ReadsLiteral.isScalar {value : Value} {rest : List Char}
    (h : ReadsLiteral text value rest) : value.IsScalar := by
  cases h with
  | number => exact Value.isScalar_ofNumeral _
  | _ => trivial

theorem ne_nil_of_pathText {piece : List Char} {keys : List String}
    (h : Grammar.PathText piece keys) : keys ≠ [] := by
  cases h with
  | last => simp
  | step => simp

section Lists

variable {P : α → Prop} {closing : Char} {item : Production α}

theorem gives_moreItems (hitem : Gives item P) :
    Gives (moreItems closing item) fun values => ∀ value ∈ values, P value := by
  intro text
  fun_induction moreItems closing item text with
  | case1 => simp
  | case2 =>
      intro taken h
      simp only [Except.ok.injEq] at h
      subst h
      simp
  | case3 => simp
  | case4 => simp
  | case5 => simp
  | case6 text _ _ comma _ first hfirst _ more hmore ih =>
      intro taken h
      simp only [Except.ok.injEq] at h
      subst h
      exact List.forall_mem_cons.2 ⟨hitem hfirst, ih hmore⟩

theorem gives_items (hitem : Gives item P) :
    Gives (items closing item) fun values => ∀ value ∈ values, P value := by
  refine gives_of_reads fun text rest values hreads => ?_
  rcases reads_items_cases hreads with ⟨_, rfl⟩ | ⟨first, mid, others, _, rfl, hfirst, hothers⟩
  · exact List.forall_mem_nil _
  · exact List.forall_mem_cons.2
      ⟨hitem.of_reads hfirst, (gives_moreItems hitem).of_reads hothers⟩

end Lists

section Nested

variable {P : Operand → Prop} {expression : Production Operand}

theorem gives_moreArguments (hexpression : Gives expression P) :
    Gives (moreArguments expression) fun args => ∀ arg ∈ args, P arg := by
  intro text
  fun_induction moreArguments expression text with
  | case1 => simp
  | case2 =>
      intro taken h
      simp only [Except.ok.injEq] at h
      subst h
      simp
  | case3 => simp
  | case4 => simp
  | case5 => simp
  | case6 text _ _ comma _ arg harg _ more hmore ih =>
      intro taken h
      simp only [Except.ok.injEq] at h
      subst h
      exact List.forall_mem_cons.2 ⟨hexpression harg, ih hmore⟩

theorem gives_arguments (hexpression : Gives expression P) :
    Gives (arguments expression) fun args => ∀ arg ∈ args, P arg := by
  refine gives_of_reads fun text rest args hreads => ?_
  rcases reads_arguments_cases hreads with ⟨_, rfl⟩ | ⟨arg, mid, others, _, rfl, harg, hothers⟩
  · exact List.forall_mem_nil _
  · exact List.forall_mem_cons.2
      ⟨hexpression.of_reads harg, (gives_moreArguments hexpression).of_reads hothers⟩

theorem gives_entry (hexpression : Gives expression P) :
    Gives (entry expression) fun entry => P entry.2 := by
  refine gives_of_reads fun text rest member hreads => ?_
  obtain ⟨_, _, _, _, hvalue⟩ := exists_of_reads_entry hreads
  exact hexpression.of_reads hvalue

end Nested

/-! ## The ladder -/

variable {Holds : Nat → Operand → Prop} {expression base tighter : Production Operand}

theorem Invariant.gives_tightest (hinvariant : Invariant table limit Holds)
    (hexpression : Gives expression (Holds budget)) :
    Gives (tightest limit expression) (Holds (budget + 1)) := by
  refine gives_of_reads fun text rest operand hreads => ?_
  cases readsTightest_of_reads hreads with
  | parenthesis h =>
      obtain ⟨inner, rfl, hinner⟩ := exists_of_reads_parenthesis h
      exact hinvariant.parenthesis (hexpression.of_reads hinner)
  | path h =>
      obtain ⟨keys, rfl, hkeys⟩ := exists_of_reads_path h
      obtain ⟨_, _, hpath⟩ := sound_segments.of_reads hkeys
      exact hinvariant.path (ne_nil_of_pathText hpath)
  | call hname _ hlimit hargs =>
      exact hinvariant.call hname ((gives_arguments hexpression).of_reads hargs) hlimit
  | object h =>
      obtain ⟨entries, rfl, hlimit, hentries⟩ := exists_of_reads_object h
      exact hinvariant.object ((gives_items (gives_entry hexpression)).of_reads hentries) hlimit
  | array h =>
      obtain ⟨items, rfl, hlimit, hitems⟩ := exists_of_reads_array h
      exact hinvariant.call (by decide) ((gives_items hexpression).of_reads hitems) hlimit
  | literal h =>
      obtain ⟨value, rfl, hvalue⟩ := reads_literal_iff.1 h
      exact hinvariant.literal hvalue.isScalar

theorem Invariant.gives_primary (hinvariant : Invariant table limit Holds)
    (hexpression : Gives expression (Holds budget)) :
    Gives (primary limit expression) (Holds (budget + 1)) :=
  gives_of_reads fun _ _ _ hreads =>
    (hinvariant.gives_tightest hexpression).of_reads (reads_primary_iff.1 hreads)

variable {group : OperatorGroup}

/-- The invariant of a chain is that of its left operand. -/
theorem Invariant.holds_of_chain (hinvariant : Invariant table limit Holds)
    (hgroup : group ∈ table.groups) (htighter : Gives tighter (Holds (budget + 1)))
    {left operand : Operand} {mid rest : List Char} (hleft : Holds (budget + 1) left)
    (h : Chains table limit (candidates group) tighter left mid (.ok (operand, rest))) :
    Holds (budget + 1) operand := by
  generalize houtcome : (Except.ok (operand, rest) : Outcome Operand) = outcome at h
  induction h with
  | done =>
      obtain ⟨rfl, -⟩ := Prod.mk.inj (Except.ok.inj houtcome)
      exact hleft
  | refused =>
      obtain ⟨rfl, -⟩ := Prod.mk.inj (Except.ok.inj houtcome)
      exact hleft
  | halted => cases houtcome
  | step hoperator _ hright hlimit _ ih =>
      obtain ⟨_, hoperator⟩ := hoperator
      obtain ⟨symbol, _, hmem, _⟩ := exists_symbol_of_operator? hoperator
      refine ih ?_ houtcome
      exact hinvariant.join hgroup (List.mem_mergeSort.1 hmem) hleft (htighter.of_reads hright)
        hlimit

theorem Invariant.gives_rung (hinvariant : Invariant table limit Holds)
    (hgroup : group ∈ table.groups) (htighter : Gives tighter (Holds (budget + 1))) :
    Gives (rung table limit (candidates group) tighter) (Holds (budget + 1)) := by
  refine gives_of_reads fun text rest operand hreads => ?_
  obtain ⟨left, mid, hleft, hchains⟩ := exists_of_reads_rung hreads
  exact hinvariant.holds_of_chain hgroup htighter (htighter.of_reads hleft) hchains

theorem Invariant.gives_ladder (hinvariant : Invariant table limit Holds)
    (hbase : Gives base (Holds (budget + 1))) :
    Gives (ladder table limit base) (Holds (budget + 1)) := by
  have hrungs : ∀ groups : List OperatorGroup, (∀ group ∈ groups, group ∈ table.groups) →
      ∀ base, Gives base (Holds (budget + 1)) →
        Gives (groups.foldl (fun tighter group => rung table limit (candidates group) tighter) base)
          (Holds (budget + 1)) := by
    intro groups
    induction groups with
    | nil => exact fun _ base hbase => hbase
    | cons group groups ih =>
        intro hgroups base hbase
        refine ih (fun group hgroup => hgroups group (List.mem_cons_of_mem _ hgroup)) _ ?_
        exact hinvariant.gives_rung (hgroups group List.mem_cons_self) hbase
  exact hrungs table.groups (fun _ hgroup => hgroup) base hbase

/-- What every production preserves holds of every expression. -/
theorem Invariant.gives_expression (hinvariant : Invariant table limit Holds) (budget : Nat) :
    Gives (Parser.expression table limit budget) (Holds budget) := by
  induction budget with
  | zero =>
      intro text taken h
      simp [Parser.expression] at h
  | succ budget ih => exact hinvariant.gives_ladder (hinvariant.gives_primary ih)

/-- What every production preserves holds of the query that a text holds. -/
theorem Invariant.exists_operand_of_parse (hinvariant : Invariant table limit Holds)
    {text : String} {query : Query} (h : parse table limit text = .ok query) :
    ∃ operand : Operand, operand.query = query ∧ Holds limit operand := by
  obtain ⟨operand, _, hreads, _, hquery⟩ := parse_eq_ok_iff.1 h
  exact ⟨operand, hquery, (hinvariant.gives_expression limit).of_reads hreads⟩

/-- Nothing is parsed where no expression is allowed. -/
theorem limit_pos_of_parse {text : String} {query : Query}
    (h : parse table limit text = .ok query) :
    0 < limit := by
  cases limit with
  | zero => simp [parse, expression] at h
  | succ limit => exact Nat.succ_pos limit

end Parser

end PipeQuery
