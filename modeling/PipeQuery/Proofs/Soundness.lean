/-
What the parser accepts is in the grammar.

Each production is judged by the piece of text it takes: the piece is written as the grammar says,
and the rest follows it.  Blanks around a piece belong to the piece, since some productions skip
them before it and others after it.
-/
import PipeQuery.Proofs.Inversion

namespace PipeQuery

namespace Parser

open Grammar
open Scan (skipBlanks)

universe u

variable {α : Type} {table : OperatorTable} {limit level : Nat} {text rest piece : List Char}

/-! ## Blanks -/

/-- A piece with blanks around it. -/
def Padded (Written : List Char → α → Prop) (piece : List Char) (value : α) : Prop :=
  ∃ before body after, piece = before ++ body ++ after ∧ Blank before ∧ Blank after ∧
    Written body value

namespace Padded

variable {Written : List Char → α → Prop} {value : α} {blanks : List Char}

theorem of_written (h : Written piece value) : Padded Written piece value :=
  ⟨[], piece, [], by simp, blank_nil, blank_nil, h⟩

theorem blanks_append (hblanks : Blank blanks) (h : Padded Written piece value) :
    Padded Written (blanks ++ piece) value := by
  obtain ⟨before, body, after, rfl, hbefore, hafter, hbody⟩ := h
  exact ⟨blanks ++ before, body, after, by simp, hblanks.append hbefore, hafter, hbody⟩

theorem append_blanks (h : Padded Written piece value) (hblanks : Blank blanks) :
    Padded Written (piece ++ blanks) value := by
  obtain ⟨before, body, after, rfl, hbefore, hafter, hbody⟩ := h
  exact ⟨before, body, after ++ blanks, by simp, hbefore, hafter.append hblanks, hbody⟩

end Padded

/-- Whatever is taken was written as the relation says. -/
def Sound (production : Production α) (Written : List Char → α → Prop) : Prop :=
  ∀ ⦃text : List Char⦄ ⦃taken : Taken α text⦄, production text = .ok taken →
    ∃ piece, text = piece ++ taken.rest ∧ Written piece taken.value

theorem sound_of_reads {production : Production α} {Written : List Char → α → Prop}
    (h : ∀ ⦃text rest value⦄, Reads production text value rest →
      ∃ piece, text = piece ++ rest ∧ Written piece value) : Sound production Written :=
  fun _ _ hok => h (reads_of_ok hok)

theorem Sound.of_reads {production : Production α} {Written : List Char → α → Prop} {value : α}
    (h : Sound production Written) (hreads : Reads production text value rest) :
    ∃ piece, text = piece ++ rest ∧ Written piece value := by
  obtain ⟨_, hreads⟩ := hreads
  exact h hreads

/-- An operand as written, and whether it shows its operator. -/
def Written (table : OperatorTable) (level : Nat) (body : List Char) (operand : Operand) : Prop :=
  Expression table level (!operand.parenthesized) body operand.query

/-! ## Keys and literals -/

theorem sound_key (expected : SyntaxCause) : Sound (key expected) KeyText := by
  refine sound_of_reads fun text rest name hreads => ?_
  cases reads_key_iff.1 hreads with
  | quoted h =>
      obtain ⟨literal, htext, hliteral⟩ := Scan.stringLiteral_of_string h
      exact ⟨literal, htext, .quoted hliteral⟩
  | name _ h =>
      obtain ⟨htext, hname⟩ := Scan.isPlainName_of_name? h
      exact ⟨_, htext, .name hname⟩
  | whole _ _ h =>
      obtain ⟨htext, hwhole⟩ := Scan.whole_of_whole? h
      exact ⟨_, htext, .whole hwhole⟩

theorem sound_segments : Sound segments PathText := by
  intro text
  induction text using segments.induct with
  | case1 text stop hstop =>
      intro taken h
      rw [segments, hstop] at h
      simp at h
  | case2 text first hfirst hpoint =>
      intro taken h
      obtain ⟨literal, htext, hkey⟩ := sound_key _ hfirst
      rw [segments, hfirst] at h
      simp only [hpoint, Except.ok.injEq] at h
      subst h
      exact ⟨literal, htext, .last hkey⟩
  | case3 text first hfirst point hpoint hshorter stop hstop ih =>
      intro taken h
      rw [segments, hfirst] at h
      simp [hpoint, hstop] at h
  | case4 text first hfirst point hpoint hshorter more hmore ih =>
      intro taken h
      obtain ⟨literal, htext, hkey⟩ := sound_key _ hfirst
      have hrest := eq_cons_of_char? hpoint
      obtain ⟨following, hfollowing, hkeys⟩ := ih hmore
      rw [segments, hfirst] at h
      simp only [hpoint, hmore, Except.ok.injEq] at h
      subst h
      refine ⟨literal ++ '.' :: following, ?_, .step hkey hkeys⟩
      calc
        text = literal ++ '.' :: point.rest := by rw [← hrest, ← htext]
        _ = literal ++ '.' :: following ++ more.rest := by simp [← hfollowing]

theorem ReadsLiteral.exists_literalText {value : Value} (h : ReadsLiteral text value rest) :
    ∃ piece, text = piece ++ rest ∧ LiteralText piece value := by
  cases h with
  | string h =>
      obtain ⟨piece, htext, hliteral⟩ := Scan.stringLiteral_of_string h
      exact ⟨piece, htext, .string hliteral⟩
  | number _ h =>
      obtain ⟨piece, htext, hnumeral⟩ := Scan.numeralText_of_numeral? h
      exact ⟨piece, htext, .number hnumeral⟩
  | bool _ _ h => exact ⟨_, Scan.eq_append_of_keyword? h, .bool _⟩
  | null _ _ h => exact ⟨_, Scan.eq_append_of_keyword? h, .null⟩

theorem sound_literal : Sound literal (Written table 0) := by
  refine sound_of_reads fun text rest operand hreads => ?_
  obtain ⟨value, rfl, hvalue⟩ := reads_literal_iff.1 hreads
  obtain ⟨piece, htext, hliteral⟩ := hvalue.exists_literalText
  exact ⟨piece, htext, .literal hliteral⟩

/-! ## Lists -/

/-- Pieces with commas between them, or blanks for an empty list. -/
structure Listing (Written : List Char → α → Prop) (Listed : List Char → List α → Prop) : Prop where
  none {blanks : List Char} (h : Blank blanks) : Listed blanks []
  last {piece : List Char} {value : α} (h : Padded Written piece value) : Listed piece [value]
  cons {piece rest : List Char} {value next : α} {values : List α} (h : Padded Written piece value)
    (hrest : Listed rest (next :: values)) :
    Listed (piece ++ ',' :: rest) (value :: next :: values)

/-- What follows the first piece of a list: nothing, or a comma and a list that is not empty. -/
def Continues (Listed : List Char → List α → Prop) (piece : List Char) (values : List α) : Prop :=
  (piece = [] ∧ values = []) ∨
    ∃ blanks rest next more, piece = blanks ++ ',' :: rest ∧ Blank blanks ∧
      values = next :: more ∧ Listed rest values

variable {Written' : List Char → α → Prop} {Listed : List Char → List α → Prop}

theorem Listing.first (hlisted : Listing Written' Listed) {value : α} {values : List α}
    (hfirst : Padded Written' piece value) (hrest : Continues Listed rest values) :
    Listed (piece ++ rest) (value :: values) := by
  rcases hrest with ⟨rfl, rfl⟩ | ⟨blanks, following, next, more, rfl, hblanks, rfl, hfollowing⟩
  · simpa using hlisted.last hfirst
  · have hcons := hlisted.cons (hfirst.append_blanks hblanks) hfollowing
    simpa using hcons

theorem Listing.continues (hlisted : Listing Written' Listed) {value : α} {values : List α}
    {blanks : List Char} (hblanks : Blank blanks) (hfirst : Padded Written' piece value)
    (hrest : Continues Listed rest values) :
    Continues Listed (blanks ++ ',' :: (piece ++ rest)) (value :: values) :=
  .inr ⟨blanks, piece ++ rest, value, values, rfl, hblanks, rfl, hlisted.first hfirst hrest⟩

theorem sound_moreItems {closing : Char} {item : Production α}
    (hitem : Sound item (Padded Written'))
    (hlisted : Listing Written' Listed) :
    Sound (moreItems closing item)
      fun piece values => ∃ body, piece = body ++ [closing] ∧ Continues Listed body values := by
  intro text
  fun_induction moreItems closing item text with
  | case1 => simp
  | case2 text hne last hlast =>
      intro taken h
      simp only [Except.ok.injEq] at h
      subst h
      refine ⟨[closing], ?_, [], rfl, .inl ⟨rfl, rfl⟩⟩
      exact eq_cons_of_char? hlast
  | case3 => simp
  | case4 => simp
  | case5 => simp
  | case6 text hne hlast comma hcomma first hfirst hshorter more hmore ih =>
      intro taken h
      simp only [Except.ok.injEq] at h
      subst h
      have htext := eq_cons_of_expect hcomma
      obtain ⟨blanks, hblanks, hblank⟩ := exists_blank_skipBlanks comma.rest
      obtain ⟨written, hwritten, hvalue⟩ := hitem hfirst
      obtain ⟨_, hafter, body, rfl, hbody⟩ := ih hmore
      have hcontinues := hlisted.continues blank_nil (hvalue.blanks_append hblank) hbody
      refine ⟨_, ?_, _, rfl, hcontinues⟩
      calc
        text = ',' :: (blanks ++ (written ++ first.rest)) := by rw [← hwritten, ← hblanks, ← htext]
        _ = ',' :: (blanks ++ written ++ body) ++ [closing] ++ more.rest := by simp [hafter]

theorem sound_items {closing : Char} {item : Production α} (hitem : Sound item (Padded Written'))
    (hlisted : Listing Written' Listed) :
    Sound (items closing item)
      fun piece values => ∃ body, piece = body ++ [closing] ∧ Listed body values := by
  refine sound_of_reads fun text rest values hreads => ?_
  rcases reads_items_cases hreads with
    ⟨rfl, rfl⟩ | ⟨first, mid, others, _, rfl, hfirst, hothers⟩
  · exact ⟨[closing], rfl, [], rfl, hlisted.none blank_nil⟩
  · obtain ⟨written, hwritten, hvalue⟩ := hitem.of_reads hfirst
    obtain ⟨_, hafter, body, rfl, hbody⟩ := (sound_moreItems hitem hlisted).of_reads hothers
    refine ⟨written ++ (body ++ [closing]), ?_, written ++ body, by simp,
      hlisted.first hvalue hbody⟩
    rw [List.append_assoc, ← hafter, ← hwritten]

/-! ## Expressions inside expressions -/

theorem listing_operands :
    Listing (Written table table.size)
      fun piece (operands : List Operand) => Operands table piece (operands.map (·.query)) where
  none h := .none h
  last h := by
    obtain ⟨before, body, after, rfl, hbefore, hafter, hbody⟩ := h
    exact .last hbefore hbody hafter
  cons h hrest := by
    obtain ⟨before, body, after, rfl, hbefore, hafter, hbody⟩ := h
    exact .cons hbefore hbody hafter hrest

/-- A key and its value as written. -/
def WrittenEntry (table : OperatorTable) (piece : List Char) (entry : String × Operand) : Prop :=
  ∃ keyText colon colon' body, piece = keyText ++ colon ++ ':' :: colon' ++ body ∧
    KeyText keyText entry.1 ∧ Blank colon ∧ Blank colon' ∧ Written table table.size body entry.2

theorem listing_members :
    Listing (WrittenEntry table)
      fun piece (entries : List (String × Operand)) =>
        Members table piece (entries.map fun entry => (entry.1, entry.2.query)) where
  none h := .none h
  last h := by
    obtain ⟨before, _, after, rfl, hbefore, hafter, keyText, colon, colon', body, rfl, hkey, hcolon,
      hcolon', hbody⟩ := h
    have hlast := Members.last hbefore hkey hcolon hcolon' hbody hafter
    simpa using hlast
  cons h hrest := by
    obtain ⟨before, _, after, rfl, hbefore, hafter, keyText, colon, colon', body, rfl, hkey, hcolon,
      hcolon', hbody⟩ := h
    have hcons := Members.cons hbefore hkey hcolon hcolon' hbody hafter hrest
    simpa using hcons

variable {expression : Production Operand}

theorem sound_moreArguments (hexpression : Sound expression (Padded (Written table table.size))) :
    Sound (moreArguments expression) fun piece operands => ∃ body, piece = body ++ [')'] ∧
      Continues
        (fun piece (operands : List Operand) => Operands table piece (operands.map (·.query)))
        body operands := by
  intro text
  fun_induction moreArguments expression text with
  | case1 => simp
  | case2 text hne closing hclosing =>
      intro taken h
      simp only [Except.ok.injEq] at h
      subst h
      refine ⟨[')'], ?_, [], rfl, .inl ⟨rfl, rfl⟩⟩
      exact eq_cons_of_char? hclosing
  | case3 => simp
  | case4 => simp
  | case5 => simp
  | case6 text hne hclosing comma hcomma arg harg hshorter more hmore ih =>
      intro taken h
      simp only [Except.ok.injEq] at h
      subst h
      obtain ⟨blanks, hblanks, hblank⟩ := exists_blank_skipBlanks text
      have htext := eq_cons_of_expect hcomma
      obtain ⟨written, hwritten, hvalue⟩ := hexpression harg
      obtain ⟨_, hafter, body, rfl, hbody⟩ := ih hmore
      refine ⟨_, ?_, _, rfl, listing_operands.continues hblank hvalue hbody⟩
      calc
        text = blanks ++ ',' :: (written ++ arg.rest) := by rw [← hwritten, ← htext, ← hblanks]
        _ = blanks ++ ',' :: (written ++ body) ++ [')'] ++ more.rest := by simp [hafter]

theorem sound_arguments (hexpression : Sound expression (Padded (Written table table.size))) :
    Sound (arguments expression) fun piece operands => ∃ body, piece = body ++ [')'] ∧
      Operands table body (operands.map (·.query)) := by
  refine sound_of_reads fun text rest args hreads => ?_
  rcases reads_arguments_cases hreads with
    ⟨rfl, rfl⟩ | ⟨arg, mid, others, _, rfl, harg, hothers⟩
  · exact ⟨[')'], rfl, [], rfl, .none blank_nil⟩
  · obtain ⟨written, hwritten, hvalue⟩ := hexpression.of_reads harg
    obtain ⟨_, hafter, body, rfl, hbody⟩ := (sound_moreArguments hexpression).of_reads hothers
    refine ⟨written ++ (body ++ [')']), ?_, written ++ body, by simp,
      listing_operands.first hvalue hbody⟩
    rw [List.append_assoc, ← hafter, ← hwritten]

theorem sound_entry (hexpression : Sound expression (Padded (Written table table.size))) :
    Sound (entry expression) (Padded (WrittenEntry table)) := by
  refine sound_of_reads fun text rest member hreads => ?_
  obtain ⟨mid, after, hname, hcolon, hvalue⟩ := exists_of_reads_entry hreads
  obtain ⟨keyText, hkeyText, hkey⟩ := (sound_key _).of_reads hname
  obtain ⟨blanks, hblanks, hblank⟩ := exists_blank_skipBlanks mid
  obtain ⟨_, hwritten, before, body, after', rfl, hbefore, hblank', hbody⟩ :=
    hexpression.of_reads hvalue
  refine ⟨keyText ++ blanks ++ ':' :: before ++ body ++ after', ?_, [], _, after', rfl, blank_nil,
    hblank', keyText, blanks, before, body, rfl, hkey, hblank, hbefore, hbody⟩
  calc
    text = keyText ++ (blanks ++ ':' :: (before ++ body ++ after' ++ rest)) := by
      rw [← hwritten, ← hcolon, ← hblanks, ← hkeyText]
    _ = keyText ++ blanks ++ ':' :: before ++ body ++ after' ++ rest := by simp

theorem sound_object (hexpression : Sound expression (Padded (Written table table.size))) :
    Sound (object limit expression)
      fun piece operand => Written table 0 ('\x7b' :: piece) operand := by
  refine sound_of_reads fun text rest operand hreads => ?_
  obtain ⟨entries, rfl, _, hentries⟩ := exists_of_reads_object hreads
  obtain ⟨blanks, hblanks, hblank⟩ := exists_blank_skipBlanks text
  obtain ⟨_, hrest, body, rfl, hbody⟩ :=
    (sound_items (sound_entry hexpression) listing_members).of_reads hentries
  refine ⟨blanks ++ body ++ ['\x7d'], ?_, .object (hbody.blanks_append hblank)⟩
  rw [List.append_assoc, List.append_assoc, ← List.append_assoc body, ← hrest, ← hblanks]

theorem sound_array (hexpression : Sound expression (Padded (Written table table.size))) :
    Sound (array limit expression) fun piece operand => Written table 0 ('[' :: piece) operand := by
  refine sound_of_reads fun text rest operand hreads => ?_
  obtain ⟨operands, rfl, _, hoperands⟩ := exists_of_reads_array hreads
  obtain ⟨blanks, hblanks, hblank⟩ := exists_blank_skipBlanks text
  obtain ⟨_, hrest, body, rfl, hbody⟩ :=
    (sound_items hexpression listing_operands).of_reads hoperands
  refine ⟨blanks ++ body ++ [']'], ?_, .array (hbody.blanks_append hblank)⟩
  rw [List.append_assoc, List.append_assoc, ← List.append_assoc body, ← hrest, ← hblanks]

theorem sound_parenthesis (hexpression : Sound expression (Padded (Written table table.size))) :
    Sound (parenthesis expression) fun piece operand => Written table 0 ('(' :: piece) operand := by
  refine sound_of_reads fun text rest operand hreads => ?_
  obtain ⟨inner, rfl, hinner⟩ := exists_of_reads_parenthesis hreads
  obtain ⟨_, rfl, before, body, after, rfl, hbefore, hafter, hbody⟩ := hexpression.of_reads hinner
  exact ⟨before ++ body ++ after ++ [')'], by simp, .parentheses hbefore hbody hafter⟩

theorem sound_path :
    Sound path fun piece operand => Written table 0 ('.' :: piece) operand := by
  refine sound_of_reads fun text rest operand hreads => ?_
  obtain ⟨keys, rfl, hkeys⟩ := exists_of_reads_path hreads
  obtain ⟨piece, htext, hpath⟩ := sound_segments.of_reads hkeys
  exact ⟨piece, htext, .path hpath⟩

/-- A production after its first character, seen from before it. -/
theorem written_of_reads {c : Char} {production : Production Operand} {operand : Operand}
    (hsound : Sound production fun piece operand => Written table 0 (c :: piece) operand)
    (hreads : Reads production text operand rest) :
    ∃ piece, c :: text = piece ++ rest ∧ Written table 0 piece operand := by
  obtain ⟨piece, rfl, hwritten⟩ := hsound.of_reads hreads
  exact ⟨c :: piece, rfl, hwritten⟩

theorem sound_tightest (hexpression : Sound expression (Padded (Written table table.size))) :
    Sound (tightest limit expression) (Written table 0) := by
  refine sound_of_reads fun text rest operand hreads => ?_
  cases readsTightest_of_reads hreads with
  | parenthesis h => exact written_of_reads (sound_parenthesis hexpression) h
  | path h => exact written_of_reads sound_path h
  | @call name blanks text _ args hname hblanks _ hargs =>
      obtain ⟨blanks', htext, hblanks'⟩ := exists_blank_skipBlanks text
      obtain ⟨_, hrest, body, rfl, hbody⟩ := (sound_arguments hexpression).of_reads hargs
      refine ⟨name.toList ++ blanks ++ '(' :: (blanks' ++ body) ++ [')'], ?_,
        .call hname hblanks (hbody.blanks_append hblanks')⟩
      rw [htext, hrest]
      simp
  | object h => exact written_of_reads (sound_object hexpression) h
  | array h => exact written_of_reads (sound_array hexpression) h
  | literal h => exact sound_literal.of_reads h

theorem sound_primary (hexpression : Sound expression (Padded (Written table table.size))) :
    Sound (primary limit expression) (Padded (Written table 0)) := by
  refine sound_of_reads fun text rest operand hreads => ?_
  obtain ⟨blanks, hblanks, hblank⟩ := exists_blank_skipBlanks text
  obtain ⟨piece, hpiece, hwritten⟩ :=
    (sound_tightest hexpression).of_reads (reads_primary_iff.1 hreads)
  refine ⟨blanks ++ piece, ?_, (Padded.of_written hwritten).blanks_append hblank⟩
  rw [List.append_assoc, ← hpiece, ← hblanks]

/-! ## Operators -/

theorem exists_symbol_of_operator? {operators : OperatorGroup} {name : String}
    {after : { rest : List Char // rest.length ≤ text.length }}
    (h : operator? operators text = some (name, after)) :
    ∃ symbol blanks, (name, symbol) ∈ operators ∧ text = symbol.toList ++ (blanks ++ after.val) ∧
      Blank blanks := by
  obtain ⟨⟨name', symbol⟩, hmem, hfound⟩ := List.exists_of_findSome?_eq_some h
  simp only at hfound
  split at hfound
  · simp at hfound
  · rename_i rest hrest
    obtain ⟨rfl, rfl⟩ : name' = name ∧ _ = after := by simpa using hfound
    obtain ⟨blanks, hblanks, hblank⟩ := exists_blank_skipBlanks rest
    refine ⟨symbol, blanks, hmem, ?_, hblank⟩
    rw [← hblanks]
    exact Scan.dropPiece?_eq_some_iff.1 hrest

theorem joins_join {name : String} {left right : Operand}
    (h : (left.isChain name && !table.isVararg name && !table.isLeftAssociative name) = false) :
    Joins table name (!left.parenthesized) left.query right.query
      (Operand.join table name left right).query := by
  have hnested : (left.isChain name && table.isVararg name) = false →
      Joins table name (!left.parenthesized) left.query right.query
        (.call name [left.query, right.query]) := by
    intro hflat
    refine .nested fun hbare hname => ?_
    have hchain : left.isChain name = true := by simp [Operand.isChain, hname, hbare]
    simp only [hchain, Bool.true_and] at h hflat
    simpa [hflat] using h
  unfold Operand.join
  split
  · rename_i head args hquery
    split
    · rename_i hflat
      obtain ⟨hchain, hvararg⟩ := Bool.and_eq_true_iff.1 hflat
      obtain ⟨hbare, hname⟩ := Bool.and_eq_true_iff.1 hchain
      obtain rfl : head = name := by simpa [hquery, Query.callName?] using hname
      rw [hquery]
      exact .flat hbare hvararg
    · rename_i hflat
      simpa [Operand.call] using hnested (by simpa using hflat)
  · rename_i hquery
    refine hnested ?_
    cases hleft : left.query with
    | call head args => exact absurd hleft (hquery head args)
    | literal value => simp [Operand.isChain, hleft, Query.callName?]
    | mapping entries => simp [Operand.isChain, hleft, Query.callName?]

theorem not_parenthesized_join {name : String} {left right : Operand} :
    (Operand.join table name left right).parenthesized = false := by
  unfold Operand.join
  split
  · split <;> rfl
  · rfl

variable {group : OperatorGroup} {tighter : Production Operand}

/-- One more use of an operator of the group. -/
theorem written_join (hgroup : table.groups[level]? = some group) {name symbol : String}
    (hsymbol : (name, symbol) ∈ group) {left right : Operand} {blanks after : List Char}
    (hleft : Padded (Written table (level + 1)) piece left) (hblanks : Blank blanks)
    (hafter : Blank after) (hright : Padded (Written table level) rest right)
    (h : (left.isChain name && !table.isVararg name && !table.isLeftAssociative name) = false) :
    Padded (Written table (level + 1)) (piece ++ blanks ++ symbol.toList ++ after ++ rest)
      (Operand.join table name left right) := by
  obtain ⟨before, body, between, rfl, hbefore, hbetween, hbody⟩ := hleft
  obtain ⟨before', body', after', rfl, hbefore', hafter', hbody'⟩ := hright
  refine ⟨before, body ++ (between ++ blanks) ++ symbol.toList ++ (after ++ before') ++ body',
    after',
    by simp, hbefore, hafter', ?_⟩
  rw [Written, not_parenthesized_join]
  exact .infixed hgroup hsymbol hbody (hbetween.append hblanks) (hafter.append hbefore') hbody'
    (joins_join h)

theorem exists_piece_skipBlanks {Written : List Char → α → Prop} {value : α}
    (h : ∃ piece, text = piece ++ rest ∧ Padded Written piece value) :
    ∃ piece, text = piece ++ skipBlanks rest ∧ Padded Written piece value := by
  obtain ⟨piece, htext, hwritten⟩ := h
  obtain ⟨blanks, hblanks, hblank⟩ := exists_blank_skipBlanks rest
  refine ⟨piece ++ blanks, ?_, hwritten.append_blanks hblank⟩
  rw [List.append_assoc, ← hblanks, ← htext]

/-- The invariant of a chain: what stands before the place reached is the left operand. -/
theorem sound_chain (hgroup : table.groups[level]? = some group)
    (htighter : Sound tighter (Padded (Written table level))) {left operand : Operand}
    {mid : List Char}
    (hleft : ∃ piece, text = piece ++ mid ∧ Padded (Written table (level + 1)) piece left)
    (h : Chains table limit (candidates group) tighter left mid (.ok (operand, rest))) :
    ∃ piece, text = piece ++ rest ∧ Padded (Written table (level + 1)) piece operand := by
  generalize houtcome : (Except.ok (operand, rest) : Outcome Operand) = outcome at h
  induction h with
  | done =>
      obtain ⟨rfl, rfl⟩ := Prod.mk.inj (Except.ok.inj houtcome)
      exact exists_piece_skipBlanks hleft
  | refused =>
      obtain ⟨rfl, rfl⟩ := Prod.mk.inj (Except.ok.inj houtcome)
      exact exists_piece_skipBlanks hleft
  | halted => cases houtcome
  | @step left right mid after mid' name outcome hoperator haccepted hright _ _ ih =>
      refine ih ?_ houtcome
      obtain ⟨_, hoperator⟩ := hoperator
      obtain ⟨piece, htext, hwritten⟩ := hleft
      obtain ⟨blanks, hblanks, hblank⟩ := exists_blank_skipBlanks mid
      obtain ⟨symbol, blanks', hmem, hhere, hblank'⟩ := exists_symbol_of_operator? hoperator
      obtain ⟨piece', hpiece', hwritten'⟩ := htighter.of_reads hright
      refine ⟨piece ++ blanks ++ symbol.toList ++ blanks' ++ piece', ?_,
        written_join hgroup (List.mem_mergeSort.1 hmem) hwritten hblank hblank' hwritten'
          haccepted⟩
      calc
        text = piece ++ (blanks ++ skipBlanks mid) := by rw [← hblanks, ← htext]
        _ = piece ++ (blanks ++ (symbol.toList ++ (blanks' ++ (piece' ++ mid')))) := by
          rw [← hpiece', hhere]
        _ = piece ++ blanks ++ symbol.toList ++ blanks' ++ piece' ++ mid' := by simp

theorem sound_rung (hgroup : table.groups[level]? = some group)
    (htighter : Sound tighter (Padded (Written table level))) :
    Sound (rung table limit (candidates group) tighter) (Padded (Written table (level + 1))) := by
  refine sound_of_reads fun text rest operand hreads => ?_
  obtain ⟨left, mid, hleft, hchains⟩ := exists_of_reads_rung hreads
  obtain ⟨piece, htext, before, body, after, hpiece, hbefore, hafter, hbody⟩ :=
    htighter.of_reads hleft
  exact sound_chain hgroup htighter
    ⟨piece, htext, before, body, after, hpiece, hbefore, hafter, hbody.looser (Nat.le_succ level)⟩
    hchains

/-- The rungs are climbed from the tightest group on: `done` groups are below. -/
theorem sound_foldl_rung (done groups : List OperatorGroup)
    (hgroups : table.groups = done ++ groups)
    {base : Production Operand} (hbase : Sound base (Padded (Written table done.length))) :
    Sound (groups.foldl (fun tighter group => rung table limit (candidates group) tighter) base)
      (Padded (Written table table.size)) := by
  induction groups generalizing done base with
  | nil => simpa [OperatorTable.size, hgroups] using hbase
  | cons group groups ih =>
      have hgroup : table.groups[done.length]? = some group := by simp [hgroups]
      refine ih (done ++ [group]) (by simp [hgroups]) ?_
      rw [List.length_append]
      exact sound_rung hgroup hbase

theorem sound_ladder {base : Production Operand} (hbase : Sound base (Padded (Written table 0))) :
    Sound (ladder table limit base) (Padded (Written table table.size)) :=
  sound_foldl_rung [] table.groups rfl hbase

theorem sound_expression (budget : Nat) :
    Sound (Parser.expression table limit budget) (Padded (Written table table.size)) := by
  induction budget with
  | zero =>
      intro text taken h
      simp [Parser.expression] at h
  | succ budget ih => exact sound_ladder (sound_primary ih)

end Parser

/-- A text that the parser accepts is written as the grammar says, with nothing left over. -/
theorem text_of_parse {table : OperatorTable} {limit : Nat} {text : String} {query : Query}
    (h : parse table limit text = .ok query) : Grammar.Text table text.toList query := by
  unfold parse at h
  split at h
  · simp at h
  · rename_i taken htaken
    split at h
    · rename_i hend
      obtain ⟨blanks, hblanks, hblank⟩ := Parser.exists_blank_skipBlanks taken.rest
      obtain ⟨_, htext, before, body, after, rfl, hbefore, hafter, hbody⟩ :=
        Parser.sound_expression limit htaken
      simp only [Except.ok.injEq] at h
      subst h
      refine ⟨before, body, after ++ blanks, _, ?_, hbefore, hafter.append hblank, hbody⟩
      calc
        text.toList = before ++ body ++ after ++ (blanks ++ []) := by
          rw [← hend, ← hblanks, ← htext]
        _ = before ++ body ++ (after ++ blanks) := by simp
    · simp at h

theorem parse_of_expression {table : OperatorTable} {limit : Nat} {text : String}
    {chars : List Char} {taken : Taken Parser.Operand chars} (htext : text.toList = chars)
    (h : Parser.expression table limit limit chars = .ok taken)
    (hend : Scan.skipBlanks taken.rest = []) : parse table limit text = .ok taken.value.query := by
  subst htext
  simp only [parse, h, hend]

/-- A literal, a symbol and a path. -/
theorem text_of_parse_sum :
    let table : OperatorTable := ⟨[[("add", "+")]], ["add"], []⟩
    let query := Query.call "add" [.literal (.bool true), .get ["a"]]
    parse table 2 "true + .a" = .ok query ∧ Grammar.Text table "true + .a".toList query := by
  intro table query
  have hparse : parse table 2 "true + .a" = .ok query := by
    refine @parse_of_expression _ _ _ ['t', 'r', 'u', 'e', ' ', '+', ' ', '.', 'a']
      ⟨⟨query, 2, false⟩, [], by decide⟩ rfl ?_ rfl
    with_unfolding_all rfl
  exact ⟨hparse, text_of_parse hparse⟩

end PipeQuery
