/-
Texts of the same tokens.

Two texts have the same tokens when they differ in the blanks between tokens only, and in how keys
and literals are spelled.  What is read from the one is read from the other: every production is
followed from text to text, and the brackets that are open tell which token may come next.
-/
import Mathlib.Data.Nat.Init
import PipeQuery.Proofs.Inversion
import PipeQuery.Proofs.Stalling

namespace PipeQuery

namespace Parser

open Grammar
open Scan (skipBlanks Ends)

/-- What may come next in a text. -/
inductive Phase where
  | operand
  /-- A key and its value. -/
  | entry
  /-- The items of a list, or the end of it where there are none. -/
  | items
  /-- What follows an operand. -/
  | next

/-- What stands between brackets, by the one that closes them. -/
def Phase.between : Char → Phase
  | '\x7d' => .entry
  | _ => .operand

/-- Two texts of the same tokens from where `phase` comes next, inside brackets that the characters
of `opened` close. -/
inductive SameTokens (table : OperatorTable) : Phase → List Char → List Char → List Char → Prop
  | literal {opened piece piece' rest rest' : List Char} {value : Value}
      (h : LiteralText piece value) (h' : LiteralText piece' value) (hends : Delimits rest)
      (hends' : Delimits rest')
      (hrest : SameTokens table .next opened (skipBlanks rest) (skipBlanks rest')) :
      SameTokens table .operand opened (piece ++ rest) (piece' ++ rest')
  | path {opened piece piece' rest rest' : List Char} {keys : List String}
      (h : PathText piece keys) (h' : PathText piece' keys) (hends : Delimits rest)
      (hends' : Delimits rest')
      (hrest : SameTokens table .next opened (skipBlanks rest) (skipBlanks rest')) :
      SameTokens table .operand opened ('.' :: piece ++ rest) ('.' :: piece' ++ rest')
  | parenthesis {opened text text' : List Char}
      (h : SameTokens table .operand (')' :: opened) (skipBlanks text) (skipBlanks text')) :
      SameTokens table .operand opened ('(' :: text) ('(' :: text')
  | array {opened text text' : List Char}
      (h : SameTokens table .items (']' :: opened) (skipBlanks text) (skipBlanks text')) :
      SameTokens table .operand opened ('[' :: text) ('[' :: text')
  | object {opened text text' : List Char}
      (h : SameTokens table .items ('\x7d' :: opened) (skipBlanks text) (skipBlanks text')) :
      SameTokens table .operand opened ('\x7b' :: text) ('\x7b' :: text')
  | call {opened text text' : List Char} {name : String} (hname : isPlainName name = true)
      (h : SameTokens table .items (')' :: opened) (skipBlanks text) (skipBlanks text')) :
      SameTokens table .operand opened (name.toList ++ '(' :: text) (name.toList ++ '(' :: text')
  | entry {opened piece piece' text text' : List Char} {key : String} (h : KeyText piece key)
      (h' : KeyText piece' key)
      (hvalue : SameTokens table .operand opened (skipBlanks text) (skipBlanks text')) :
      SameTokens table .entry opened (piece ++ ':' :: text) (piece' ++ ':' :: text')
  | empty {opened rest rest' : List Char} {closing : Char} (hclosing : isCloser closing = true)
      (hrest : SameTokens table .next opened (skipBlanks rest) (skipBlanks rest')) :
      SameTokens table .items (closing :: opened) (closing :: rest) (closing :: rest')
  | first {opened text text' : List Char} {closing : Char}
      (h : SameTokens table (.between closing) (closing :: opened) text text') :
      SameTokens table .items (closing :: opened) text text'
  | close {opened rest rest' : List Char} {closing : Char} (hclosing : isCloser closing = true)
      (hrest : SameTokens table .next opened (skipBlanks rest) (skipBlanks rest')) :
      SameTokens table .next (closing :: opened) (closing :: rest) (closing :: rest')
  | comma {opened text text' : List Char} {closing : Char}
      (h : SameTokens table (.between closing) (closing :: opened) (skipBlanks text)
        (skipBlanks text')) :
      SameTokens table .next (closing :: opened) (',' :: text) (',' :: text')
  | operator {opened text text' : List Char} {name symbol : String}
      (hsymbol : table.symbol? name = some symbol)
      (h : SameTokens table .operand opened (skipBlanks text) (skipBlanks text')) :
      SameTokens table .next opened (symbol.toList ++ ' ' :: text) (symbol.toList ++ ' ' :: text')
  | done : SameTokens table .next [] [] []

variable {α : Type} {table : OperatorTable} {limit : Nat} {phase : Phase} {closing : Char}
  {text text' rest opened : List Char}

namespace SameTokens

theorem symm (h : SameTokens table phase opened text text') :
    SameTokens table phase opened text' text := by
  induction h with
  | literal h h' hends hends' _ ih => exact .literal h' h hends' hends ih
  | path h h' hends hends' _ ih => exact .path h' h hends' hends ih
  | parenthesis _ ih => exact .parenthesis ih
  | array _ ih => exact .array ih
  | object _ ih => exact .object ih
  | call hname _ ih => exact .call hname ih
  | entry h h' _ ih => exact .entry h' h ih
  | empty hclosing _ ih => exact .empty hclosing ih
  | first _ ih => exact .first ih
  | close hclosing _ ih => exact .close hclosing ih
  | comma _ ih => exact .comma ih
  | operator hsymbol _ ih => exact .operator hsymbol ih
  | done => exact .done

/-- Where an operand or an entry comes next, no bracket closes. -/
theorem opens (hphase : phase = .operand ∨ phase = .entry)
    (h : SameTokens table phase opened text text') : Opens text := by
  cases h with
  | literal h => exact (opens_of_literalText h).append _
  | path => exact .of_cons (by decide) (by decide) _
  | parenthesis => exact .of_cons (by decide) (by decide) _
  | array => exact .of_cons (by decide) (by decide) _
  | object => exact .of_cons (by decide) (by decide) _
  | call hname => exact (opens_of_isPlainName hname).append _
  | entry h => exact (opens_of_keyText h).append _
  | empty | first | close | comma | operator | done => rcases hphase with h | h <;> cases h

theorem opens_between
    (h : SameTokens table (.between closing) opened text text') : Opens text := by
  refine h.opens ?_
  unfold Phase.between
  split
  · exact .inr rfl
  · exact .inl rfl

/-- A text of tokens starts with one. -/
theorem skipBlanks_eq (hlegible : Legible table) (h : SameTokens table phase opened text text') :
    skipBlanks text = text := by
  have hcloser {c : Char} (hc : isCloser c = true) (rest : List Char) :
      skipBlanks (c :: rest) = c :: rest :=
    skipBlanks_of_ends (ends_cons (blank_of_isCloser hc) rest)
  cases h with
  | literal h => exact ((opens_of_literalText h).append _).skipBlanks_eq
  | path | parenthesis | array | object => exact skipBlanks_of_ends (ends_cons (by decide) _)
  | call hname => exact ((opens_of_isPlainName hname).append _).skipBlanks_eq
  | entry h => exact ((opens_of_keyText h).append _).skipBlanks_eq
  | empty hclosing => exact hcloser hclosing _
  | first h => exact h.opens_between.skipBlanks_eq
  | close hclosing => exact hcloser hclosing _
  | comma => exact hcloser (by decide) _
  | operator hsymbol => exact (hlegible.opens_symbol hsymbol _).skipBlanks_eq
  | done => rfl

/-- Blanks before the next token make no difference. -/
theorem blanks_append (hlegible : Legible table) (h : SameTokens table phase opened text text')
    {blanks blanks' : List Char} (hblanks : Blank blanks) (hblanks' : Blank blanks') :
    SameTokens table phase opened (skipBlanks (blanks ++ text))
      (skipBlanks (blanks' ++ text')) := by
  rw [skipBlanks_append hblanks, skipBlanks_append hblanks', h.skipBlanks_eq hlegible,
    h.symm.skipBlanks_eq hlegible]
  exact h

/-- A bracket that closes the last open one does so in the other text. -/
theorem exists_of_close (hlegible : Legible table) (hclosing : isCloser closing = true)
    (hcomma : closing ≠ ',')
    (h : SameTokens table .next (closing :: opened) (closing :: rest) text') :
    ∃ rest', text' = closing :: rest' ∧
      SameTokens table .next opened (skipBlanks rest) (skipBlanks rest') := by
  generalize htext : closing :: rest = text at h
  cases h with
  | close _ hrest =>
      obtain ⟨_, rfl⟩ := List.cons.inj htext
      exact ⟨_, rfl, hrest⟩
  | comma => exact absurd (List.cons.inj htext).1 hcomma
  | operator hsymbol =>
      have hopens := hlegible.opens_symbol hsymbol
      refine absurd ?_ (@not_opens_cons rest _ hclosing)
      rw [htext]
      exact hopens _

theorem eq_nil (h : SameTokens table .next opened [] text) : text = [] := by
  generalize hnil : [] = text' at h
  cases h with
  | close | comma => cases hnil
  | operator => simp at hnil
  | done => rfl

end SameTokens

/-! ## Following a production -/

/-- What the production takes from a text, up to the brackets that it closes, it takes from every
text of the same tokens, and what is left has the same tokens. -/
def Follows (table : OperatorTable) (phase : Phase) (closed : List Char)
    (production : Production α) : Prop :=
  ∀ ⦃opened text text' rest : List Char⦄ ⦃value : α⦄,
    SameTokens table phase (closed ++ opened) text text' → Reads production text value rest →
      ∃ rest', Reads production text' value rest' ∧
        SameTokens table .next opened (skipBlanks rest) (skipBlanks rest')

/-- The production follows an operand, with blanks before it or not. -/
def FollowsOperand (table : OperatorTable) (production : Production Operand) : Prop :=
  ∀ ⦃opened text text' rest : List Char⦄ ⦃operand : Operand⦄,
    SameTokens table .operand opened (skipBlanks text) (skipBlanks text') →
      Reads production text operand rest →
        ∃ rest', Reads production text' operand rest' ∧
          SameTokens table .next opened (skipBlanks rest) (skipBlanks rest')

/-- The production passes the blanks behind what it takes. -/
def Tidy (production : Production α) : Prop :=
  ∀ ⦃text rest : List Char⦄ ⦃value : α⦄, Reads production text value rest → skipBlanks rest = rest

theorem FollowsOperand.follows {production : Production Operand} (hlegible : Legible table)
    (h : FollowsOperand table production) : Follows table .operand [] production := by
  intro opened text text' rest operand hsame hreads
  refine h ?_ hreads
  rw [hsame.skipBlanks_eq hlegible, hsame.symm.skipBlanks_eq hlegible]
  exact hsame

section Lists

variable {item : Production α} (hlegible : Legible table) (hclosing : isCloser closing = true)
  (hcomma : closing ≠ ',') (hitem : Follows table (.between closing) [] item) (htidy : Tidy item)
include hlegible hclosing hcomma hitem htidy

theorem follows_moreItems : Follows table .next [closing] (moreItems closing item) := by
  intro opened text
  induction hlength : text.length using Nat.strong_induction_on generalizing text with
  | h length ih =>
      intro text' rest values hsame hreads
      cases hsame with
      | close _ hrest =>
          obtain ⟨rfl, rfl⟩ := hreads.unique (reads_moreItems_nil item closing _)
          exact ⟨_, reads_moreItems_nil item closing _, hrest⟩
      | @comma _ after after' _ h =>
          rcases reads_moreItems_cases hreads with ⟨htext, _⟩ |
            ⟨_, first, mid, others, htext, _, rfl, hfirst, hothers⟩
          · exact absurd (List.cons.inj htext).1.symm hcomma
          obtain ⟨_, rfl⟩ := List.cons.inj htext
          obtain ⟨mid', hfirst', hmid⟩ := hitem h hfirst
          rw [htidy hfirst, htidy hfirst'] at hmid
          have hshorter : mid.length < length := by
            have := hfirst.1
            have := Scan.length_skipBlanks_le after
            simp only [List.length_cons] at hlength
            omega
          obtain ⟨rest', hothers', hrest⟩ := ih _ hshorter rfl hmid hothers
          exact ⟨rest', reads_moreItems_cons hcomma hfirst' hothers', hrest⟩
      | operator hsymbol h =>
          refine absurd ?_ (not_opens_of_reads_moreItems hclosing hreads)
          have hopens := hlegible.opens_symbol hsymbol
          rw [(hopens _).skipBlanks_eq]
          exact hopens _

theorem follows_items : Follows table .items [closing] (items closing item) := by
  intro opened text text' rest values hsame hreads
  cases hsame with
  | empty _ hrest =>
      obtain ⟨rfl, rfl⟩ := hreads.unique (reads_items_nil item closing _)
      exact ⟨_, reads_items_nil item closing _, hrest⟩
  | first h =>
      rcases reads_items_cases hreads with ⟨rfl, _⟩ |
        ⟨first, mid, others, _, rfl, hfirst, hothers⟩
      · exact absurd h.opens_between (not_opens_cons hclosing)
      obtain ⟨mid', hfirst', hmid⟩ := hitem h hfirst
      rw [htidy hfirst, htidy hfirst'] at hmid
      obtain ⟨rest', hothers', hrest⟩ :=
        follows_moreItems hlegible hclosing hcomma hitem htidy hmid hothers
      exact ⟨rest', reads_items_cons h.symm.opens_between hclosing hfirst' hothers', hrest⟩

end Lists

section Nested

variable {expression : Production Operand} (hlegible : Legible table)
  (hfollows : FollowsOperand table expression) (htidy : Tidy expression)
include hlegible hfollows htidy

theorem follows_moreArguments : Follows table .next [')'] (moreArguments expression) := by
  intro opened text
  induction hlength : text.length using Nat.strong_induction_on generalizing text with
  | h length ih =>
      intro text' rest values hsame hreads
      cases hsame with
      | close _ hrest =>
          obtain ⟨rfl, rfl⟩ := hreads.unique (reads_moreArguments_nil expression _)
          exact ⟨_, reads_moreArguments_nil expression _, hrest⟩
      | @comma _ after after' _ h =>
          rcases reads_moreArguments_cases hreads with ⟨htext, _⟩ |
            ⟨_, arg, mid, others, _, htext, rfl, harg, hothers⟩
          · cases htext
          rw [skipBlanks_of_ends (ends_cons (by decide) after)] at htext
          obtain ⟨_, rfl⟩ := List.cons.inj htext
          obtain ⟨mid', harg', hmid⟩ := hfollows h harg
          rw [htidy harg, htidy harg'] at hmid
          have hshorter : mid.length < length := by
            have := harg.1
            simp only [List.length_cons] at hlength
            omega
          obtain ⟨rest', hothers', hrest⟩ := ih _ hshorter rfl hmid hothers
          exact ⟨rest', reads_moreArguments_cons harg' hothers', hrest⟩
      | operator hsymbol h =>
          refine absurd ?_ (not_opens_of_reads_moreArguments hreads)
          have hopens := hlegible.opens_symbol hsymbol
          rw [(hopens _).skipBlanks_eq]
          exact hopens _

theorem follows_arguments : Follows table .items [')'] (arguments expression) := by
  intro opened text text' rest values hsame hreads
  cases hsame with
  | empty _ hrest =>
      obtain ⟨rfl, rfl⟩ := hreads.unique (reads_arguments_nil expression _)
      exact ⟨_, reads_arguments_nil expression _, hrest⟩
  | first h =>
      rcases reads_arguments_cases hreads with ⟨rfl, _⟩ | ⟨arg, mid, others, _, rfl, harg, hothers⟩
      · exact absurd h.opens_between (not_opens_cons (by decide))
      obtain ⟨mid', harg', hmid⟩ := hfollows.follows hlegible h harg
      rw [htidy harg, htidy harg'] at hmid
      obtain ⟨rest', hothers', hrest⟩ := follows_moreArguments hlegible hfollows htidy hmid hothers
      have hclosing := h.symm.opens_between.char?_eq_none (show isCloser ')' = true by decide)
      exact ⟨rest', reads_arguments_cons hclosing harg' hothers', hrest⟩

omit hlegible htidy in
theorem follows_entry : Follows table .entry [] (entry expression) := by
  rintro opened text text' rest ⟨name, operand⟩ hsame hreads
  cases hsame with
  | @entry _ piece piece' after after' key h h' hvalue =>
      obtain ⟨mid, after₀, hkey, hcolon, hvalue'⟩ := exists_of_reads_entry hreads
      have hends : Ends Scan.isNameChar (':' :: after) := ends_cons (by decide) _
      obtain ⟨rfl, rfl⟩ := hkey.unique (reads_key h hends)
      rw [skipBlanks_of_ends (ends_cons (by decide) after)] at hcolon
      obtain ⟨_, rfl⟩ := List.cons.inj hcolon
      obtain ⟨rest', hvalue', hrest⟩ := hfollows hvalue hvalue'
      have hends' : Ends Scan.isNameChar (':' :: after') := ends_cons (by decide) _
      have hcolon' := skipBlanks_of_ends (ends_cons (c := ':') (by decide) after')
      exact ⟨rest', reads_entry_of_value (reads_key h' hends') hcolon' hvalue', hrest⟩

omit hlegible hfollows in
theorem tidy_entry : Tidy (entry expression) := by
  rintro text rest ⟨name, operand⟩ hreads
  obtain ⟨_, _, _, _, hvalue⟩ := exists_of_reads_entry hreads
  exact htidy hvalue

theorem follows_tightest : Follows table .operand [] (tightest limit expression) := by
  intro opened text text' rest operand hsame hreads
  cases hsame with
  | literal h h' hends hends' hrest =>
      obtain ⟨rfl, rfl⟩ := hreads.unique (reads_tightest_literal h hends)
      exact ⟨_, reads_tightest_literal h' hends', hrest⟩
  | path h h' hends hends' hrest =>
      obtain ⟨rfl, rfl⟩ := hreads.unique (reads_path h hends)
      exact ⟨_, reads_path h' hends', hrest⟩
  | @parenthesis _ after after' h =>
      obtain ⟨inner, rfl, hinner⟩ :=
        exists_of_reads_parenthesis (reads_of_tightest_parenthesis hreads)
      obtain ⟨mid', hinner', hmid⟩ := hfollows h hinner
      rw [htidy hinner, htidy hinner'] at hmid
      obtain ⟨rest', rfl, hrest⟩ := hmid.exists_of_close hlegible (by decide) (by decide)
      exact ⟨rest', reads_parenthesis hinner', hrest⟩
  | @array _ after after' h =>
      obtain ⟨operands, rfl, hlimit, hitems⟩ :=
        exists_of_reads_array (reads_of_tightest_array hreads)
      obtain ⟨rest', hitems', hrest⟩ := @follows_items _ _ ']' _ hlegible (by decide) (by decide)
        (hfollows.follows hlegible) htidy _ _ _ _ _ h hitems
      exact ⟨rest', reads_array hitems' hlimit, hrest⟩
  | @object _ after after' h =>
      obtain ⟨entries, rfl, hlimit, hitems⟩ :=
        exists_of_reads_object (reads_of_tightest_object hreads)
      obtain ⟨rest', hitems', hrest⟩ := @follows_items _ _ '\x7d' _ hlegible (by decide) (by decide)
        (follows_entry hfollows) (tidy_entry htidy) _ _ _ _ _ h hitems
      exact ⟨rest', reads_object hitems' hlimit, hrest⟩
  | @call _ after after' name hname h =>
      obtain ⟨args, rfl, hlimit, hargs⟩ := exists_of_reads_call hname blank_nil hreads
      obtain ⟨rest', hargs', hrest⟩ := follows_arguments hlegible hfollows htidy h hargs
      exact ⟨rest', reads_call hname blank_nil hargs' hlimit, hrest⟩

theorem followsOperand_primary : FollowsOperand table (primary limit expression) := by
  intro opened text text' rest operand hsame hreads
  obtain ⟨rest', hreads', hrest⟩ :=
    follows_tightest hlegible hfollows htidy hsame (reads_primary_iff.1 hreads)
  exact ⟨rest', reads_primary_iff.2 hreads', hrest⟩

end Nested

/-! ## The ladder -/

section Ladder

variable {operators group : OperatorGroup} {tighter base : Production Operand} {level : Nat}
  {operand result : Operand} {last : List Char}

theorem operator?_of_sameTokens (hlegible : Legible table) (hlooser : Looser table)
    (hgroup : table.groups[level]? = some group)
    (h : SameTokens table .next opened text text') :
    (operator? (candidates group) text = none ∧ operator? (candidates group) text' = none) ∨
      ∃ name after after', OperatorAt (candidates group) text name after ∧
        OperatorAt (candidates group) text' name after' ∧
          SameTokens table .operand opened after after' := by
  have hmem := List.mem_of_getElem? hgroup
  have hcloser {c : Char} (hc : isCloser c = true) (rest : List Char) :
      operator? (candidates group) (c :: rest) = none := by
    have hnone := hlegible.closes hmem (@closes_append_cons [] c blank_nil hc rest)
    rwa [List.nil_append, skipBlanks_of_ends (ends_cons (blank_of_isCloser hc) rest)] at hnone
  cases h with
  | close hclosing => exact .inl ⟨hcloser hclosing _, hcloser hclosing _⟩
  | comma => exact .inl ⟨hcloser (by decide) _, hcloser (by decide) _⟩
  | done => exact .inl ⟨hlegible.closes hmem closes_nil, hlegible.closes hmem closes_nil⟩
  | @operator _ after after' name symbol hsymbol h =>
      obtain ⟨own, group', hown, hgroup', hoperator⟩ := hlegible.group hsymbol
      rcases Nat.lt_trichotomy level own with hlt | rfl | hgt
      · exact .inl ⟨hlegible.tighter hsymbol hown hlt hgroup _,
          hlegible.tighter hsymbol hown hlt hgroup _⟩
      · obtain rfl : group = group' := by simpa [hgroup] using hgroup'
        exact .inr ⟨name, _, _, hoperator after, hoperator after', h⟩
      · exact .inl ⟨hlooser hsymbol hown hgt hgroup _, hlooser hsymbol hown hgt hgroup _⟩

/-- An operator that comes next in a text comes next in every text of the same tokens. -/
theorem SameTokens.operatorAt (hlegible : Legible table) (hlooser : Looser table)
    (hgroup : table.groups[level]? = some group)
    (h : SameTokens table .next opened text text') {name : String} {after : List Char}
    (hoperator : OperatorAt (candidates group) text name after) :
    ∃ after', OperatorAt (candidates group) text' name after' ∧
      SameTokens table .operand opened after after' := by
  obtain ⟨_, hoperator⟩ := hoperator
  rcases operator?_of_sameTokens hlegible hlooser hgroup h with
    ⟨hnone, _⟩ | ⟨name', found, after', ⟨_, hfound⟩, hoperator', hsame⟩
  · cases hnone.symm.trans hoperator
  · obtain ⟨rfl, rfl⟩ : name' = name ∧ found = after := by simpa using hfound.symm.trans hoperator
    exact ⟨after', hoperator', hsame⟩

section

variable (hlegible : Legible table) (hlooser : Looser table)
  (hgroup : table.groups[level]? = some group) (hfollows : FollowsOperand table tighter)
include hlegible hlooser hgroup hfollows

theorem chains_of_sameTokens {outcome : Outcome Operand}
    (h : Chains table limit (candidates group) tighter operand rest outcome)
    (hok : outcome = .ok (result, last)) {rest' : List Char}
    (hsame : SameTokens table .next opened (skipBlanks rest) (skipBlanks rest')) :
    ∃ last', Chains table limit (candidates group) tighter operand rest' (.ok (result, last')) ∧
      SameTokens table .next opened last last' := by
  induction h generalizing rest' with
  | @done operand rest hnone =>
      obtain ⟨rfl, rfl⟩ : operand = result ∧ skipBlanks rest = last := by simpa using hok
      rcases operator?_of_sameTokens hlegible hlooser hgroup hsame with
        ⟨_, hnone'⟩ | ⟨_, _, _, ⟨_, hoperator⟩, _⟩
      · exact ⟨_, .done hnone', hsame⟩
      · cases hnone.symm.trans hoperator
  | @refused operand rest after name hoperator hrefused =>
      obtain ⟨rfl, rfl⟩ : operand = result ∧ skipBlanks rest = last := by simpa using hok
      obtain ⟨_, hoperator', _⟩ := hsame.operatorAt hlegible hlooser hgroup hoperator
      exact ⟨_, .refused hoperator' hrefused, hsame⟩
  | halted => cases hok
  | step hoperator haccepted hright hlimit _ ih =>
      obtain ⟨_, hoperator', hafter⟩ := hsame.operatorAt hlegible hlooser hgroup hoperator
      obtain ⟨_, hright', hmid⟩ := hfollows.follows hlegible hafter hright
      obtain ⟨last', hmore, hlast⟩ := ih hok hmid
      exact ⟨last', .step hoperator' haccepted hright' hlimit hmore, hlast⟩

theorem followsOperand_rung :
    FollowsOperand table (rung table limit (candidates group) tighter) := by
  intro opened text text' rest operand hsame hreads
  obtain ⟨left, mid, hleft, hchains⟩ := exists_of_reads_rung hreads
  obtain ⟨mid', hleft', hmid⟩ := hfollows hsame hleft
  obtain ⟨last', hchains', hlast⟩ :=
    chains_of_sameTokens hlegible hlooser hgroup hfollows hchains rfl hmid
  refine ⟨last', yields_rung hleft' hchains', ?_⟩
  rw [hlast.skipBlanks_eq hlegible, hlast.symm.skipBlanks_eq hlegible]
  exact hlast

end

theorem Chains.skipBlanks_eq {outcome : Outcome Operand}
    (h : Chains table limit operators tighter operand rest outcome)
    (hok : outcome = .ok (result, last)) : skipBlanks last = last := by
  induction h with
  | done =>
      obtain ⟨_, rfl⟩ : _ ∧ skipBlanks _ = last := by simpa using hok
      exact skipBlanks_skipBlanks _
  | refused =>
      obtain ⟨_, rfl⟩ : _ ∧ skipBlanks _ = last := by simpa using hok
      exact skipBlanks_skipBlanks _
  | halted => cases hok
  | step _ _ _ _ _ ih => exact ih hok

theorem tidy_rung : Tidy (rung table limit operators tighter) := by
  intro text rest operand hreads
  obtain ⟨_, _, _, hchains⟩ := exists_of_reads_rung hreads
  exact hchains.skipBlanks_eq rfl

theorem tidy_expression (hlegible : Legible table) (limit budget : Nat) :
    Tidy (expression table limit budget) := by
  cases budget with
  | zero =>
      rintro text rest operand ⟨_, h⟩
      cases h
  | succ budget =>
      obtain ⟨level, hsize⟩ : ∃ level, table.size = level + 1 :=
        Nat.exists_eq_succ_of_ne_zero (by simpa [OperatorTable.size] using hlegible.groups_ne_nil)
      have hlevel : level < table.groups.length := by
        rw [← OperatorTable.size]
        omega
      intro text rest operand hreads
      rw [expression, ← ladderTo_size, hsize,
        ladderTo_succ (List.getElem?_eq_getElem hlevel)] at hreads
      exact tidy_rung hreads

variable (hlegible : Legible table) (hlooser : Looser table)
include hlegible hlooser

theorem followsOperand_ladderTo (hbase : FollowsOperand table base) {level : Nat}
    (hlevel : level ≤ table.size) : FollowsOperand table (ladderTo table limit base level) := by
  induction level with
  | zero => exact hbase
  | succ level ih =>
      have hgroup : table.groups[level]? = some table.groups[level] :=
        List.getElem?_eq_getElem hlevel
      rw [ladderTo_succ hgroup]
      exact followsOperand_rung hlegible hlooser hgroup (ih (Nat.le_of_lt hlevel))

/-- What an expression takes from a text it takes from every text of the same tokens. -/
theorem followsOperand_expression (limit budget : Nat) :
    FollowsOperand table (expression table limit budget) := by
  induction budget with
  | zero =>
      rintro opened text text' rest operand _ ⟨_, h⟩
      cases h
  | succ budget ih =>
      have hprimary : FollowsOperand table (primary limit (expression table limit budget)) :=
        followsOperand_primary hlegible ih (tidy_expression hlegible limit budget)
      rw [expression, ← ladderTo_size]
      exact followsOperand_ladderTo hlegible hlooser hprimary (Nat.le_refl _)

/-- A text holds the query that every text of the same tokens holds. -/
theorem parse_of_sameTokens {text text' : String}
    (hsame : SameTokens table .operand [] (skipBlanks text.toList) (skipBlanks text'.toList))
    {query : Query} (hparse : parse table limit text = .ok query) :
    parse table limit text' = .ok query := by
  obtain ⟨operand, rest, hreads, hend, hquery⟩ := parse_eq_ok_iff.1 hparse
  obtain ⟨rest', hreads', hrest⟩ :=
    followsOperand_expression hlegible hlooser limit limit hsame hreads
  rw [hend] at hrest
  exact parse_eq_ok_iff.2 ⟨operand, rest', hreads', hrest.eq_nil, hquery⟩

end Ladder

end Parser

end PipeQuery
