/-
Climbing the ladder of operator groups over a text that starts with a known operand.

An operand is read at its own rung and passed up through the looser ones, as long as none of their
operators comes next.  `Spelled` describes a piece by that rung, so that a chain of operators is
built from the readings of its operands.
-/
import PipeQuery.Proofs.Reading

namespace PipeQuery

namespace Parser

open Grammar
open Scan (skipBlanks Ends)

variable {α : Type} {table : OperatorTable} {limit level k : Nat} {operators group : OperatorGroup}
  {tighter base : Production Operand} {text rest rest' piece before : List Char}
  {left right operand : Operand} {name : String}

/-- The operator `name` comes next, and `after` follows it and its blanks. -/
def OperatorAt (operators : OperatorGroup) (text : List Char) (name : String)
    (after : List Char) : Prop :=
  ∃ h, operator? operators text = some (name, ⟨after, h⟩)

/-- Whether `name` may not follow `left`, which is its own call. -/
def refuses (table : OperatorTable) (name : String) (left : Operand) : Bool :=
  left.isChain name && !table.isVararg name && !table.isLeftAssociative name

theorem refuses_eq_false_of_isChain
    (h : left.isChain name = true → table.isLeftAssociative name = true) :
    refuses table name left = false := by
  rw [refuses]
  cases hchain : left.isChain name with
  | false => rfl
  | true => simp [h hchain]

/-- A value and what is left of the text, or the cause for which reading stops. -/
abbrev Outcome (α : Type) := Except SyntaxCause (α × List Char)

/-- The result of a production, without where in the text it stopped for a cause. -/
def HasOutcome (result : Except Stop (Taken α text)) : Outcome α → Prop
  | .ok (value, rest) => ∃ shorter, result = .ok ⟨value, rest, shorter⟩
  | .error cause => ∃ rest, result = .error ⟨cause, rest⟩

/-- What the production makes of the text. -/
abbrev Yields (production : Production α) (text : List Char) (outcome : Outcome α) : Prop :=
  HasOutcome (production text) outcome

/-- Uses of operators after `left`, up to a place where none comes next or where the one that does
may not follow, or up to an operand that cannot be read. -/
inductive Chains (table : OperatorTable) (limit : Nat) (operators : OperatorGroup)
    (tighter : Production Operand) : Operand → List Char → Outcome Operand → Prop
  | done {left : Operand} {rest : List Char} (h : operator? operators (skipBlanks rest) = none) :
      Chains table limit operators tighter left rest (.ok (left, skipBlanks rest))
  | refused {left : Operand} {rest after : List Char} {name : String}
      (hoperator : OperatorAt operators (skipBlanks rest) name after)
      (hrefused : refuses table name left = true) :
      Chains table limit operators tighter left rest (.ok (left, skipBlanks rest))
  | halted {left : Operand} {rest after : List Char} {name : String} {cause : SyntaxCause}
      (hoperator : OperatorAt operators (skipBlanks rest) name after)
      (haccepted : refuses table name left = false) (hright : Yields tighter after (.error cause)) :
      Chains table limit operators tighter left rest (.error cause)
  | step {left right : Operand} {rest after rest' : List Char} {name : String}
      {outcome : Outcome Operand} (hoperator : OperatorAt operators (skipBlanks rest) name after)
      (haccepted : refuses table name left = false) (hright : Reads tighter after right rest')
      (hlimit : (Operand.join table name left right).height ≤ limit)
      (hmore : Chains table limit operators tighter (Operand.join table name left right) rest'
        outcome) :
      Chains table limit operators tighter left rest outcome

variable {outcome : Outcome Operand}

theorem yields_chain (h : Chains table limit operators tighter left rest outcome)
    (hshorter : rest.length < text.length) :
    HasOutcome (chain table limit operators tighter (⟨left, rest, hshorter⟩ : Taken Operand text))
      outcome := by
  induction h with
  | @done left rest hnone =>
      refine ⟨Nat.lt_of_le_of_lt (Scan.length_skipBlanks_le rest) hshorter, ?_⟩
      rw [chain]
      simp [hnone]
  | @refused left rest after name hoperator hrefused =>
      obtain ⟨hafter, hoperator⟩ := hoperator
      refine ⟨Nat.lt_of_le_of_lt (Scan.length_skipBlanks_le rest) hshorter, ?_⟩
      rw [chain]
      simp only [refuses] at hrefused
      simp [hoperator, hrefused]
  | @halted left rest after name cause hoperator haccepted hright =>
      obtain ⟨hafter, hoperator⟩ := hoperator
      obtain ⟨rest', hright⟩ := hright
      refine ⟨rest', ?_⟩
      rw [chain]
      simp only [refuses] at haccepted
      simp [hoperator, haccepted, hright]
  | @step left right rest after rest' name outcome hoperator haccepted hright hlimit _ ih =>
      obtain ⟨hafter, hoperator⟩ := hoperator
      obtain ⟨hright', hright⟩ := hright
      have hle := Scan.length_skipBlanks_le rest
      have hmore := ih (by omega)
      rw [chain]
      simp only [refuses] at haccepted
      simpa [hoperator, haccepted, hright, Nat.not_lt.2 hlimit] using hmore

theorem yields_rung (htighter : Reads tighter text left rest)
    (h : Chains table limit operators tighter left rest outcome) :
    Yields (rung table limit operators tighter) text outcome := by
  obtain ⟨hshorter, htighter⟩ := htighter
  have hchain := yields_chain h hshorter
  rcases outcome with cause | ⟨result, rest'⟩
  · obtain ⟨rest', hchain⟩ := hchain
    exact ⟨rest', by simp [rung, htighter, hchain]⟩
  · obtain ⟨hshorter', hchain⟩ := hchain
    exact ⟨hshorter', by simp [rung, htighter, hchain]⟩

/-- Blanks before a chain do not matter. -/
theorem Chains.of_skipBlanks (h : Chains table limit operators tighter left rest outcome)
    {text : List Char} (htext : skipBlanks text = skipBlanks rest) :
    Chains table limit operators tighter left text outcome := by
  cases h with
  | done hnone =>
      rw [← htext] at hnone ⊢
      exact .done hnone
  | refused hoperator hrefused =>
      rw [← htext] at hoperator ⊢
      exact .refused hoperator hrefused
  | halted hoperator haccepted hright =>
      rw [← htext] at hoperator
      exact .halted hoperator haccepted hright
  | step hoperator haccepted hright hlimit hmore =>
      rw [← htext] at hoperator
      exact .step hoperator haccepted hright hlimit hmore

/-! ## Rungs -/

/-- The ladder up to a level. -/
def ladderTo (table : OperatorTable) (limit : Nat) (base : Production Operand) (level : Nat) :
    Production Operand :=
  (table.groups.take level).foldl
    (fun tighter group => rung table limit (candidates group) tighter) base

theorem ladderTo_succ (h : table.groups[level]? = some group) :
    ladderTo table limit base (level + 1) =
      rung table limit (candidates group) (ladderTo table limit base level) := by
  rw [ladderTo, ladderTo, List.take_add_one, h]
  simp

theorem ladderTo_size : ladderTo table limit base table.size = ladder table limit base := by
  simp [ladderTo, ladder, OperatorTable.size]

/-- No operator of the first `level` groups comes next. -/
def Blocks (table : OperatorTable) (level : Nat) (rest : List Char) : Prop :=
  ∀ j < level, ∀ group, table.groups[j]? = some group →
    operator? (candidates group) (skipBlanks rest) = none

theorem Blocks.mono (h : Blocks table level rest) {level' : Nat} (hle : level' ≤ level) :
    Blocks table level' rest :=
  fun j hj => h j (Nat.lt_of_lt_of_le hj hle)

theorem Blocks.of_skipBlanks (h : Blocks table level rest)
    (htext : skipBlanks text = skipBlanks rest) : Blocks table level text := by
  intro j hj group hgroup
  rw [htext]
  exact h j hj group hgroup

/-- What is read at one rung is read at every looser one, if no operator of the groups between
comes next. -/
theorem Reads.climb {level' : Nat} (h : Reads (ladderTo table limit base level) text operand rest)
    (hle : level ≤ level') (hsize : level' ≤ table.size)
    (hnone : ∀ j, level ≤ j → j < level' → ∀ group, table.groups[j]? = some group →
      operator? (candidates group) (skipBlanks rest) = none) :
    ∃ rest', skipBlanks rest' = skipBlanks rest ∧
      Reads (ladderTo table limit base level') text operand rest' := by
  induction hle with
  | refl => exact ⟨rest, rfl, h⟩
  | @step k hle ih =>
      obtain ⟨rest', hrest', hreads⟩ := ih (Nat.le_of_lt hsize) fun j hj hlt =>
        hnone j hj (Nat.lt_succ_of_lt hlt)
      have hgroup : table.groups[k]? = some table.groups[k] := List.getElem?_eq_getElem hsize
      have hdone := hnone k hle (Nat.lt_succ_self k) _ hgroup
      rw [← hrest'] at hdone
      refine ⟨skipBlanks rest', by rw [skipBlanks_skipBlanks, hrest'], ?_⟩
      rw [ladderTo_succ hgroup]
      exact yields_rung hreads (.done hdone)

/-! ## Pieces and their rungs -/

/-- `piece` is read as `operand` at a rung: by the production under the ladder, or together with
any chain of its group that follows it. -/
inductive Spelled (table : OperatorTable) (limit : Nat) (base : Production Operand) :
    Nat → List Char → Operand → Prop
  | tight {piece : List Char} {operand : Operand}
      (h : ∀ {before rest : List Char}, Blank before → Delimits rest →
        Reads base (before ++ piece ++ rest) operand rest) :
      Spelled table limit base 0 piece operand
  | chained {level : Nat} {group : OperatorGroup} {piece : List Char} {operand : Operand}
      (hgroup : table.groups[level]? = some group)
      (h : ∀ {before rest : List Char} {outcome : Outcome Operand}, Blank before → Delimits rest →
        Blocks table level rest →
        Chains table limit (candidates group) (ladderTo table limit base level) operand rest
          outcome →
        Yields (ladderTo table limit base (level + 1)) (before ++ piece ++ rest) outcome) :
      Spelled table limit base (level + 1) piece operand

/-- A spelled operand and what a chain of its own group or a looser one makes of it. -/
theorem Spelled.yields_chain (h : Spelled table limit base level piece operand)
    (hgroup : table.groups[k]? = some group) (hlevel : level ≤ k + 1) (hbefore : Blank before)
    (hrest : Delimits rest) (hblocks : Blocks table k rest)
    (hchains : Chains table limit (candidates group) (ladderTo table limit base k) operand rest
      outcome) :
    Yields (ladderTo table limit base (k + 1)) (before ++ piece ++ rest) outcome := by
  have hsize : k < table.size := (List.getElem?_eq_some_iff.1 hgroup).1
  have hclimb {level' : Nat} {rest₀ : List Char} (hle : level' ≤ k)
      (hskip : skipBlanks rest₀ = skipBlanks rest)
      (hreads : Reads (ladderTo table limit base level') (before ++ piece ++ rest) operand rest₀) :
      Yields (ladderTo table limit base (k + 1)) (before ++ piece ++ rest) outcome := by
    obtain ⟨rest₁, hrest₁, hreads₁⟩ := hreads.climb hle (Nat.le_of_lt hsize)
      fun j _ => (hblocks.of_skipBlanks hskip) j
    rw [ladderTo_succ hgroup]
    exact yields_rung hreads₁ (hchains.of_skipBlanks (hrest₁.trans hskip))
  cases h with
  | tight h => exact hclimb (Nat.zero_le k) rfl (h hbefore hrest)
  | @chained level group' _ _ hgroup' h =>
      rcases Nat.lt_or_ge level k with hlt | hge
      · have hdone := hblocks level hlt group' hgroup'
        exact hclimb hlt (skipBlanks_skipBlanks rest)
          (h hbefore hrest (hblocks.mono (Nat.le_of_lt hlt)) (.done hdone))
      · obtain rfl : level = k := by omega
        obtain rfl : group' = group := by simpa [hgroup] using hgroup'.symm
        exact h hbefore hrest hblocks hchains

/-- A spelled operand where no operator up to a looser rung follows. -/
theorem Spelled.reads_ladderTo (h : Spelled table limit base level piece operand)
    (hlevel : level ≤ k) (hsize : k ≤ table.size) (hbefore : Blank before) (hrest : Delimits rest)
    (hblocks : Blocks table k rest) :
    ∃ rest', skipBlanks rest' = skipBlanks rest ∧
      Reads (ladderTo table limit base k) (before ++ piece ++ rest) operand rest' := by
  cases h with
  | tight h =>
      exact @Reads.climb _ _ 0 _ _ _ _ _ (h hbefore hrest) (Nat.zero_le k) hsize
        fun j _ => hblocks j
  | @chained level group _ _ hgroup h =>
      have hdone := hblocks level hlevel group hgroup
      have hreads : Reads (ladderTo table limit base (level + 1)) (before ++ piece ++ rest) operand
          (skipBlanks rest) := h hbefore hrest (hblocks.mono (Nat.le_of_lt hlevel)) (.done hdone)
      obtain ⟨rest', hrest', hreads'⟩ := hreads.climb hlevel hsize
        fun j _ => (hblocks.of_skipBlanks (skipBlanks_skipBlanks rest)) j
      exact ⟨rest', hrest'.trans (skipBlanks_skipBlanks rest), hreads'⟩

theorem Spelled.level_le (h : Spelled table limit base level piece operand) :
    level ≤ table.size := by
  cases h with
  | tight => exact Nat.zero_le _
  | chained hgroup => exact (List.getElem?_eq_some_iff.1 hgroup).1

/-! ## Tables whose symbols can be told apart -/

/-- No symbol starts like anything else that may follow an operand, and a symbol between blanks is
taken by the group of its function and by none before it. -/
structure Legible (table : OperatorTable) : Prop where
  groups_ne_nil : table.groups ≠ []
  closes {group : OperatorGroup} {rest : List Char} (hgroup : group ∈ table.groups)
    (hrest : Closes rest) : operator? (candidates group) (skipBlanks rest) = none
  opens {name symbol : String} (h : table.symbol? name = some symbol) :
    ∃ c more, symbol.toList = c :: more ∧ Scan.isBlank c = false ∧ c ≠ '('
  group {name symbol : String} (h : table.symbol? name = some symbol) :
    ∃ level group, table.precedence? name = some level ∧ table.groups[level]? = some group ∧
      ∀ text, OperatorAt (candidates group) (symbol.toList ++ ' ' :: text) name (skipBlanks text)
  tighter {name symbol : String} {level j : Nat} {group : OperatorGroup}
    (h : table.symbol? name = some symbol) (hlevel : table.precedence? name = some level)
    (hj : j < level) (hgroup : table.groups[j]? = some group) (text : List Char) :
    operator? (candidates group) (symbol.toList ++ ' ' :: text) = none
  constructors {name : String} (h : name = "get" ∨ name = "array" ∨ name = "object") :
    table.symbol? name = none

variable {budget : Nat}

theorem Legible.blocks (hlegible : Legible table) (hrest : Closes rest) (level : Nat) :
    Blocks table level rest :=
  fun _ _ _ hgroup => hlegible.closes (List.mem_of_getElem? hgroup) hrest

/-- A spelled operand is a whole expression where something closes it. -/
theorem Spelled.readsOperand (hlegible : Legible table)
    (h : Spelled table limit (primary limit (expression table limit budget)) level piece operand)
    (hopens : Opens piece) : ReadsOperand (expression table limit (budget + 1)) piece operand where
  opens := hopens
  reads {before rest} hbefore hrest := by
    obtain ⟨k, hsize⟩ : ∃ k, table.size = k + 1 :=
      Nat.exists_eq_succ_of_ne_zero (by simpa [OperatorTable.size] using hlegible.groups_ne_nil)
    have hk : k < table.groups.length := by
      rw [← OperatorTable.size]
      omega
    have hgroup : table.groups[k]? = some table.groups[k] := List.getElem?_eq_getElem hk
    have hdone := hlegible.closes (List.mem_of_getElem? hgroup) hrest
    have hreads := h.yields_chain hgroup (hsize ▸ h.level_le) hbefore hrest.delimits
      (hlegible.blocks hrest k) (.done hdone)
    rw [← hsize, ladderTo_size] at hreads
    exact hreads

/-- Parentheses make any expression a primary one. -/
theorem Spelled.parenthesized (hlegible : Legible table)
    (h : Spelled table limit (primary limit (expression table limit budget)) level piece operand)
    (hopens : Opens piece) :
    Spelled table limit (primary limit (expression table limit (budget + 1))) 0
      ('(' :: piece ++ [')']) { operand with parenthesized := true } := by
  refine .tight fun {before rest} hbefore _ => ?_
  have hclosing : Closes (')' :: rest) := closes_append_cons (c := ')') blank_nil (by decide) rest
  have hinner := (h.readsOperand hlegible hopens).reads blank_nil hclosing
  rw [List.nil_append, skipBlanks_of_ends (ends_cons (by decide) rest)] at hinner
  have hreads := @reads_primary _ _ _ limit _ _ hbefore (reads_parenthesis hinner)
    ⟨'(', _, rfl, by decide, by decide⟩
  simpa using hreads

/-! ## Infix calls -/

theorem height_left_le_join : left.height ≤ (Operand.join table name left right).height := by
  unfold Operand.join
  split
  · split
    · exact Nat.le_max_left _ _
    · simp [Operand.call, Operand.tallest]
      omega
  · simp [Operand.call, Operand.tallest]
    omega

theorem height_right_lt_join : right.height < (Operand.join table name left right).height := by
  unfold Operand.join
  split
  · split
    · exact Nat.le_max_right _ _
    · simp [Operand.call, Operand.tallest]
      omega
  · simp [Operand.call, Operand.tallest]
    omega

/-- The operands of an infix call after its first, each joined to those before it. -/
def joinAll (table : OperatorTable) (name : String) (first : Operand) (others : List Operand) :
    Operand :=
  others.foldl (Operand.join table name) first

theorem height_le_joinAll (first : Operand) (others : List Operand) :
    first.height ≤ (joinAll table name first others).height := by
  induction others generalizing first with
  | nil => exact Nat.le_refl _
  | cons other others ih =>
      exact Nat.le_trans height_left_le_join (ih (Operand.join table name first other))

theorem height_lt_joinAll (first : Operand) {other : Operand} {others : List Operand}
    (h : other ∈ others) : other.height < (joinAll table name first others).height := by
  induction others generalizing first with
  | nil => simp at h
  | cons head others ih =>
      rcases List.mem_cons.1 h with rfl | hmem
      · exact Nat.lt_of_lt_of_le height_right_lt_join (height_le_joinAll _ others)
      · exact ih (Operand.join table name first head) hmem

/-- Pieces after a first, each behind an operator with blanks before it and one after it. -/
def infixTail (blanks symbol : List Char) (pieces : List (List Char)) : List Char :=
  pieces.flatMap fun piece => blanks ++ (symbol ++ ' ' :: piece)

theorem infixTail_cons (blanks symbol : List Char) (pieces : List (List Char)) :
    infixTail blanks symbol (piece :: pieces) ++ rest =
      blanks ++ (symbol ++ ' ' :: (piece ++ (infixTail blanks symbol pieces ++ rest))) := by
  simp [infixTail]

variable {symbol : String} {blanks : List Char}

/-- The group of an operator takes its symbol. -/
theorem Legible.exists_group (hlegible : Legible table) (hsymbol : table.symbol? name = some symbol)
    (hlevel : table.precedence? name = some level) :
    ∃ group, table.groups[level]? = some group ∧
      ∀ text, OperatorAt (candidates group) (symbol.toList ++ ' ' :: text) name
        (skipBlanks text) := by
  obtain ⟨level₁, group, hlevel₁, hgroup, hoperator⟩ := hlegible.group hsymbol
  obtain rfl : level = level₁ := by simpa [hlevel] using hlevel₁
  exact ⟨group, hgroup, hoperator⟩

/-- What stands before an operator ends there, and no tighter operator comes next. -/
theorem Legible.before_operator (hlegible : Legible table)
    (hsymbol : table.symbol? name = some symbol)
    (hlevel : table.precedence? name = some level) (hblanks : Blank blanks) (hne : blanks ≠ [])
    (text : List Char) :
    Delimits (blanks ++ (symbol.toList ++ ' ' :: text)) ∧
      Blocks table level (blanks ++ (symbol.toList ++ ' ' :: text)) ∧
      skipBlanks (blanks ++ (symbol.toList ++ ' ' :: text)) = symbol.toList ++ ' ' :: text := by
  obtain ⟨c, more, hlist, hc, hparenthesis⟩ := hlegible.opens hsymbol
  have hskip : skipBlanks (blanks ++ (symbol.toList ++ ' ' :: text)) =
      symbol.toList ++ ' ' :: text := by
    rw [skipBlanks_append hblanks, hlist]
    exact skipBlanks_of_ends (ends_cons hc _)
  refine ⟨?_, ?_, hskip⟩
  · rw [hlist]
    exact delimits_append_cons hblanks hne hc hparenthesis _
  · intro j hj group hgroup
    rw [hskip]
    exact hlegible.tighter hsymbol hlevel hj hgroup text

theorem Legible.before_infixTail (hlegible : Legible table)
    (hsymbol : table.symbol? name = some symbol) (hlevel : table.precedence? name = some level)
    (hblanks : Blank blanks) (hne : blanks ≠ []) (hrest : Delimits rest)
    (hblocks : Blocks table level rest) (pieces : List (List Char)) :
    Delimits (infixTail blanks symbol.toList pieces ++ rest) ∧
      Blocks table level (infixTail blanks symbol.toList pieces ++ rest) := by
  cases pieces with
  | nil => exact ⟨hrest, hblocks⟩
  | cons piece pieces =>
      rw [infixTail_cons]
      obtain ⟨hdelimits, hblocks', _⟩ := hlegible.before_operator hsymbol hlevel hblanks hne
        (piece ++ (infixTail blanks symbol.toList pieces ++ rest))
      exact ⟨hdelimits, hblocks'⟩

/-- The operands after the first are joined to it one by one. -/
theorem chains_infixTail (hlegible : Legible table) (hsymbol : table.symbol? name = some symbol)
    (hlevel : table.precedence? name = some level) (hgroup : table.groups[level]? = some group)
    (hblanks : Blank blanks) (hne : blanks ≠ []) (others : List (List Char × Operand))
    (hothers : ∀ other ∈ others, Opens other.1 ∧
      ∃ level' ≤ level, Spelled table limit base level' other.1 other.2)
    (haccepted : others ≠ [] → refuses table name left = false)
    (hrepeats : 2 ≤ others.length →
      table.isVararg name = true ∨ table.isLeftAssociative name = true)
    (hlimit : (joinAll table name left (others.map (·.2))).height ≤ limit)
    (hrest : Delimits rest) (hblocks : Blocks table level rest)
    (h : Chains table limit (candidates group) (ladderTo table limit base level)
      (joinAll table name left (others.map (·.2))) rest outcome) :
    Chains table limit (candidates group) (ladderTo table limit base level) left
      (infixTail blanks symbol.toList (others.map (·.1)) ++ rest) outcome := by
  induction others generalizing left with
  | nil => exact h
  | cons other others ih =>
      obtain ⟨piece, operand⟩ := other
      obtain ⟨hopens, level', hle, hspelled⟩ := hothers _ List.mem_cons_self
      have hmore : Chains table limit (candidates group) (ladderTo table limit base level)
          (Operand.join table name left operand)
          (infixTail blanks symbol.toList (others.map (·.1)) ++ rest) outcome := by
        refine ih (fun other hmem => hothers other (List.mem_cons_of_mem _ hmem)) ?_ ?_ hlimit h
        · intro hothers
          have hrepeats := hrepeats (by
            have := List.length_pos_iff.2 hothers
            simp only [List.length_cons]
            omega)
          rcases hrepeats with h | h <;> simp [refuses, h]
        · intro hlength
          exact hrepeats (by simp only [List.length_cons]; omega)
      obtain ⟨hdelimits, hblocks'⟩ := hlegible.before_infixTail hsymbol hlevel hblanks hne hrest
        hblocks (others.map (·.1))
      rw [List.map_cons, infixTail_cons]
      generalize infixTail blanks symbol.toList (others.map (·.1)) ++ rest = tail at *
      obtain ⟨_, _, hskip⟩ :=
        hlegible.before_operator hsymbol hlevel hblanks hne (piece ++ tail)
      obtain ⟨group', hgroup', hoperator⟩ := hlegible.exists_group hsymbol hlevel
      obtain rfl : group = group' := by simpa [hgroup] using hgroup'
      have hoperator' := hoperator (piece ++ tail)
      have hafter : skipBlanks (piece ++ tail) = piece ++ tail :=
        (hopens.append tail).skipBlanks blank_nil
      rw [← hskip, hafter] at hoperator'
      obtain ⟨rest₁, hrest₁, hright⟩ := hspelled.reads_ladderTo hle
        (Nat.le_of_lt (List.getElem?_eq_some_iff.1 hgroup).1) blank_nil hdelimits hblocks'
      exact .step hoperator' (haccepted (by simp)) hright
        (Nat.le_trans (height_le_joinAll _ _) hlimit) (hmore.of_skipBlanks hrest₁)

/-- An infix call is spelled at the rung of its group. -/
theorem spelled_infixCall (hlegible : Legible table) (hsymbol : table.symbol? name = some symbol)
    (hlevel : table.precedence? name = some level) (hblanks : Blank blanks) (hne : blanks ≠ [])
    (first : List Char × Operand) (others : List (List Char × Operand))
    (hfirst : ∃ level' ≤ level + 1, Spelled table limit base level' first.1 first.2)
    (hothers : ∀ other ∈ others, Opens other.1 ∧
      ∃ level' ≤ level, Spelled table limit base level' other.1 other.2)
    (haccepted : refuses table name first.2 = false)
    (hrepeats : 2 ≤ others.length →
      table.isVararg name = true ∨ table.isLeftAssociative name = true)
    (hlimit : (joinAll table name first.2 (others.map (·.2))).height ≤ limit) :
    Spelled table limit base (level + 1)
      (first.1 ++ infixTail blanks symbol.toList (others.map (·.1)))
      (joinAll table name first.2 (others.map (·.2))) := by
  obtain ⟨group, hgroup, _⟩ := hlegible.exists_group hsymbol hlevel
  refine .chained hgroup fun {before rest outcome} hbefore hrest hblocks hchains => ?_
  obtain ⟨level', hle, hspelled⟩ := hfirst
  have htail := chains_infixTail hlegible hsymbol hlevel hgroup hblanks hne others hothers
    (fun _ => haccepted) hrepeats hlimit hrest hblocks hchains
  have hnext :=
    hlegible.before_infixTail hsymbol hlevel hblanks hne hrest hblocks (others.map (·.1))
  have hyields := hspelled.yields_chain hgroup hle hbefore hnext.1 hnext.2 htail
  simpa using hyields

end Parser

end PipeQuery
