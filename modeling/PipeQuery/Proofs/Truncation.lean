/-
Reading a text that is cut short.

What is read from a text before a cut is read from the text up to the cut alone, as nothing behind
the cut is looked at for anything but where a piece ends.  The exception is an operator that may not
follow its operand and stands across the cut; but no bracket goes on after one.
-/
import PipeQuery.Proofs.LexemePrefix
import PipeQuery.Proofs.Places
import PipeQuery.Proofs.Inversion
import PipeQuery.Proofs.Stalling

namespace PipeQuery

namespace Parser

open Scan (skipBlanks Ends Finds eq_append_of_append exists_cons_of_shorter)

variable {α : Type} {table : OperatorTable} {limit level budget : Nat}
  {text rest more : List Char}

/-! ## Cuts -/

/-- What the production takes before a cut, it takes from the text up to the cut. -/
def Cuts (more : List Char) (production : Production α) : Prop :=
  ∀ ⦃text rest : List Char⦄ ⦃value : α⦄,
    Reads production (text ++ more) value (rest ++ more) → Reads production text value rest

/-- What the production takes before a cut, it takes from the text up to the cut, unless it stops
before the cut where no operator goes on. -/
def CutsOrStalls (table : OperatorTable) (level : Nat) (more : List Char)
    (production : Production α) : Prop :=
  ∀ ⦃text rest : List Char⦄ ⦃value : α⦄,
    Reads production (text ++ more) value (rest ++ more) →
      Reads production text value rest ∨ skipBlanks rest ≠ [] ∧ Dead table level (rest ++ more)

theorem Reads.length_le_of_append {production : Production α} {value : α}
    (h : Reads production text value (rest ++ more)) : more.length ≤ text.length := by
  have hshorter := h.1
  rw [List.length_append] at hshorter
  omega

theorem lt_of_append (h : (rest ++ more).length < (text ++ more).length) :
    rest.length < text.length := by
  simp only [List.length_append] at h
  omega

/-- What is left before a cut has all behind the cut at its end. -/
theorem exists_append_of_suffix {left : List Char} (h : left <:+ text ++ more)
    (hlength : more.length ≤ left.length) : ∃ rest, left = rest ++ more := by
  obtain ⟨rest, hrest⟩ := List.suffix_of_suffix_length_le (List.suffix_append text more) h hlength
  exact ⟨rest, hrest.symm⟩

theorem Stays.suffix {production : Production α} (h : Stays production) {value : α}
    (hreads : Reads production text value rest) : rest <:+ text := by
  obtain ⟨_, hreads⟩ := hreads
  have hstays := h (List.suffix_refl text)
  rw [hreads] at hstays
  exact hstays.suffix

section Split

variable {whole left : List Char} (hwhole : whole = text ++ more)
  (hlength : more.length ≤ left.length)
include hwhole hlength

theorem Cuts.split {production : Production α} (hcuts : Cuts more production)
    (hstays : Stays production) {value : α} (h : Reads production whole value left) :
    ∃ rest, left = rest ++ more ∧ Reads production text value rest := by
  subst hwhole
  obtain ⟨rest, rfl⟩ := exists_append_of_suffix (hstays.suffix h) hlength
  exact ⟨rest, rfl, hcuts h⟩

theorem CutsOrStalls.split {production : Production α}
    (hcuts : CutsOrStalls table level more production) (hstays : Stays production)
    {value : α} (h : Reads production whole value left) :
    ∃ rest, left = rest ++ more ∧
      (Reads production text value rest ∨ skipBlanks rest ≠ [] ∧ Dead table level left) := by
  subst hwhole
  obtain ⟨rest, rfl⟩ := exists_append_of_suffix (hstays.suffix h) hlength
  exact ⟨rest, rfl, hcuts h⟩

omit hlength in
theorem char?_eq_none_of_append {c : Char} (h : Scan.char? c whole = none) :
    Scan.char? c text = none := by
  subst hwhole
  cases text with
  | nil => rfl
  | cons d others =>
      by_cases hd : d = c
      · simp [Scan.char?, hd] at h
      · simp [Scan.char?, hd]

theorem eq_cons_of_append {c : Char} (h : whole = c :: left) :
    ∃ rest, left = rest ++ more ∧ text = c :: rest := by
  have hsuffix : left <:+ text ++ more := by
    rw [← hwhole, h]
    exact List.suffix_cons c left
  obtain ⟨rest, rfl⟩ := exists_append_of_suffix hsuffix hlength
  exact ⟨rest, rfl, @eq_append_of_append text rest [c] more (hwhole.symm.trans h)⟩

end Split

theorem skipBlanks_append_more (hmore : Ends Scan.isBlank more) (text : List Char) :
    skipBlanks (text ++ more) = skipBlanks text ++ more := by
  induction text with
  | nil => exact skipBlanks_of_ends hmore
  | cons c others ih =>
      cases hc : Scan.isBlank c with
      | true => simpa [skipBlanks, hc] using ih
      | false => simp [skipBlanks, hc]

/-! ## Tokens -/

theorem cuts_key (expected : SyntaxCause) : Cuts more (key expected) := by
  intro text rest value hreads
  refine reads_key_iff.2 ?_
  cases reads_key_iff.1 hreads with
  | quoted h =>
      obtain ⟨_, hfound⟩ := Scan.string_of_append h
      exact .quoted hfound
  | name habsent h =>
      obtain ⟨_, hname⟩ := Scan.finds_name? ⟨_, h⟩
      exact .name (Scan.string_eq_absent_of_append habsent) hname
  | whole habsent hname h =>
      obtain ⟨_, hwhole⟩ := Scan.finds_whole? ⟨_, h⟩
      exact .whole (Scan.string_eq_absent_of_append habsent) (Scan.name?_eq_none_of_append hname)
        hwhole

theorem cuts_segments : Cuts more segments := by
  intro text
  induction hlength : text.length using Nat.strong_induction_on generalizing text with
  | h length ih =>
      intro rest names hreads
      rcases reads_segments_cases hreads with
        ⟨name, rfl, hname, hpoint⟩ | ⟨name, after, others, rfl, hname, hothers⟩
      · exact reads_segments_last (cuts_key _ hname) (char?_eq_none_of_append rfl hpoint)
      · have hlong := hothers.length_le_of_append
        obtain ⟨mid, hmid, hname⟩ := (cuts_key _).split rfl (Nat.le_succ_of_le hlong)
          (stays_key (show Bare .propertyExpected from trivial)) hname
        obtain ⟨after, rfl, rfl⟩ := eq_cons_of_append hmid hlong rfl
        refine reads_segments_cons hname (ih after.length ?_ rfl hothers)
        have hshorter := hname.1
        rw [List.length_cons] at hshorter
        omega

theorem cuts_literal : Cuts more literal := by
  intro text rest operand hreads
  obtain ⟨value, rfl, hvalue⟩ := reads_literal_iff.1 hreads
  refine reads_literal_iff.2 ⟨value, rfl, ?_⟩
  cases hvalue with
  | string h =>
      obtain ⟨_, hfound⟩ := Scan.string_of_append h
      exact .string hfound
  | number habsent h =>
      obtain ⟨_, hnumeral⟩ := Scan.finds_numeral? ⟨_, h⟩
      exact .number (Scan.string_eq_absent_of_append habsent) hnumeral
  | bool habsent hnumeral h =>
      obtain ⟨_, hkeyword⟩ := Scan.finds_keyword? ⟨_, h⟩
      exact .bool (Scan.string_eq_absent_of_append habsent)
        (Scan.numeral?_eq_none_of_append hnumeral) hkeyword
  | null habsent hnumeral h =>
      obtain ⟨_, hkeyword⟩ := Scan.finds_keyword? ⟨_, h⟩
      exact .null (Scan.string_eq_absent_of_append habsent)
        (Scan.numeral?_eq_none_of_append hnumeral) hkeyword

theorem cuts_path : Cuts more path := by
  rintro text rest operand hreads
  obtain ⟨keys, rfl, hkeys⟩ := exists_of_reads_path hreads
  obtain ⟨hshorter, hkeys⟩ := cuts_segments hkeys
  exact ⟨hshorter, by simp only [path, hkeys, Taken.map]⟩

/-! ## Brackets -/

section Items

variable {item : Production α} {closing : Char} (hmore : Ends Scan.isBlank more)
  (hclosing : isCloser closing = true) (hcomma : closing ≠ ',') (hstays : Stays item)
  (hcuts : CutsOrStalls table level more item)
include hmore hclosing hcomma hstays hcuts

theorem cuts_moreItems : Cuts more (moreItems closing item) := by
  intro text
  induction hlength : text.length using Nat.strong_induction_on generalizing text with
  | h length ih =>
      intro rest values hreads
      rcases reads_moreItems_cases hreads with
        ⟨htext, rfl⟩ | ⟨after, first, mid, others, htext, _, rfl, hfirst, hothers⟩
      · obtain rfl := @eq_append_of_append text rest [closing] more htext
        exact reads_moreItems_nil item closing rest
      · have hlong := hothers.length_le_of_append
        have hskip := Scan.length_skipBlanks_le after
        obtain ⟨after, rfl, rfl⟩ := eq_cons_of_append rfl (by have := hfirst.1; omega) htext
        obtain ⟨mid, rfl, hfirst⟩ :=
          hcuts.split (skipBlanks_append_more hmore after) hlong hstays hfirst
        rcases hfirst with hfirst | ⟨_, hdead⟩
        · refine reads_moreItems_cons hcomma hfirst (ih mid.length ?_ rfl hothers)
          have := hfirst.1
          have := Scan.length_skipBlanks_le after
          simp only [List.length_cons] at hlength
          omega
        · exact absurd hdead.opens (not_opens_of_reads_moreItems hclosing hothers)

theorem cuts_items : Cuts more (items closing item) := by
  intro text rest values hreads
  rcases reads_items_cases hreads with
    ⟨htext, rfl⟩ | ⟨first, mid, others, habsent, rfl, hfirst, hothers⟩
  · obtain rfl := @eq_append_of_append text rest [closing] more htext
    exact reads_items_nil item closing rest
  · obtain ⟨mid, rfl, hfirst⟩ := hcuts.split rfl hothers.length_le_of_append hstays hfirst
    rcases hfirst with hfirst | ⟨_, hdead⟩
    · have hothers := cuts_moreItems hmore hclosing hcomma hstays hcuts hothers
      exact reads_items_of_ne (char?_eq_none_of_append rfl habsent) hfirst hothers
    · exact absurd hdead.opens (not_opens_of_reads_moreItems hclosing hothers)

end Items

section Nested

variable {expression : Production Operand} (hmore : Ends Scan.isBlank more)
  (hstays : Stays expression) (hcuts : CutsOrStalls table level more expression)
include hmore hstays hcuts

theorem cuts_moreArguments : Cuts more (moreArguments expression) := by
  intro text
  induction hlength : text.length using Nat.strong_induction_on generalizing text with
  | h length ih =>
      intro rest values hreads
      rcases reads_moreArguments_cases hreads with
        ⟨htext, rfl⟩ | ⟨after, arg, mid, others, habsent, htext, rfl, harg, hothers⟩
      · obtain rfl := @eq_append_of_append text rest [')'] more htext
        exact reads_moreArguments_nil expression rest
      · have hlong := hothers.length_le_of_append
        obtain ⟨after, rfl, hblanks⟩ := eq_cons_of_append (skipBlanks_append_more hmore text)
          (by have := harg.1; omega) htext
        obtain ⟨mid, rfl, harg⟩ := hcuts.split rfl hlong hstays harg
        rcases harg with harg | ⟨_, hdead⟩
        · refine reads_moreArguments_of_comma (char?_eq_none_of_append rfl habsent) hblanks harg
            (ih mid.length ?_ rfl hothers)
          have := harg.1
          have hskip := Scan.length_skipBlanks_le text
          rw [hblanks, List.length_cons] at hskip
          omega
        · exact absurd hdead.opens (not_opens_of_reads_moreArguments hothers)

theorem cuts_arguments : Cuts more (arguments expression) := by
  intro text rest values hreads
  rcases reads_arguments_cases hreads with
    ⟨htext, rfl⟩ | ⟨arg, mid, others, habsent, rfl, harg, hothers⟩
  · obtain rfl := @eq_append_of_append text rest [')'] more htext
    exact reads_arguments_nil expression rest
  · obtain ⟨mid, rfl, harg⟩ := hcuts.split rfl hothers.length_le_of_append hstays harg
    rcases harg with harg | ⟨_, hdead⟩
    · exact reads_arguments_cons (char?_eq_none_of_append rfl habsent) harg
        (cuts_moreArguments hmore hstays hcuts hothers)
    · exact absurd hdead.opens (not_opens_of_reads_moreArguments hothers)

omit hstays in
theorem cuts_entry : CutsOrStalls table level more (entry expression) := by
  rintro text rest ⟨name, operand⟩ hreads
  obtain ⟨mid, after, hkey, hcolon, hvalue⟩ := exists_of_reads_entry hreads
  have hlong := hvalue.length_le_of_append
  have hskip := Scan.length_skipBlanks_le mid
  have hvalue' := hvalue.1
  rw [hcolon, List.length_cons] at hskip
  obtain ⟨mid, rfl, hkey'⟩ :=
    (cuts_key _).split rfl (by omega) (stays_key (show Bare .keyExpected from trivial)) hkey
  obtain ⟨after, rfl, hcolon'⟩ :=
    eq_cons_of_append (skipBlanks_append_more hmore mid) (by omega) hcolon
  exact (hcuts hvalue).imp_left fun hvalue => reads_entry_of_value hkey' hcolon' hvalue

/-! ## The tightest expression -/

omit hmore hstays in
theorem cuts_tightest_parenthesis
    (h : Reads (tightest limit expression) ('(' :: (text ++ more)) operand (rest ++ more)) :
    Reads (tightest limit expression) ('(' :: text) operand rest := by
  obtain ⟨inner, rfl, hinner⟩ := exists_of_reads_parenthesis (reads_of_tightest_parenthesis h)
  rcases @hcuts text (')' :: rest) inner hinner with hinner | ⟨_, hdead⟩
  · exact reads_parenthesis hinner
  · exact absurd hdead.opens (not_opens_skipBlanks_cons (by decide))

theorem cuts_tightest_object
    (h : Reads (tightest limit expression) ('\x7b' :: (text ++ more)) operand (rest ++ more)) :
    Reads (tightest limit expression) ('\x7b' :: text) operand rest := by
  obtain ⟨entries, rfl, hlimit, hentries⟩ := exists_of_reads_object (reads_of_tightest_object h)
  have hitems := @cuts_items _ _ _ _ _ '\x7d' hmore (by decide) (by decide) (stays_entry hstays)
    (cuts_entry hmore hcuts)
  rw [skipBlanks_append_more hmore] at hentries
  exact reads_object (hitems hentries) hlimit

theorem cuts_tightest_array
    (h : Reads (tightest limit expression) ('[' :: (text ++ more)) operand (rest ++ more)) :
    Reads (tightest limit expression) ('[' :: text) operand rest := by
  obtain ⟨operands, rfl, hlimit, hoperands⟩ := exists_of_reads_array (reads_of_tightest_array h)
  have hitems := @cuts_items _ _ _ _ _ ']' hmore (by decide) (by decide) hstays hcuts
  rw [skipBlanks_append_more hmore] at hoperands
  exact reads_array (hitems hoperands) hlimit

omit hstays hcuts in
/-- Where no call is next in a text, none is before a cut. -/
theorem call?_eq_none_of_append (h : call? limit expression (text ++ more) = none) :
    call? limit expression text = none := by
  unfold call?
  cases hname : Scan.name? text with
  | none => rfl
  | some name =>
      obtain ⟨value, left, hleft⟩ := name
      obtain ⟨htext, hplain⟩ : text = value.toList ++ left ∧ isPlainName value = true :=
        Scan.isPlainName_of_name? hname
      have hends : Ends Scan.isNameChar left := Scan.ends_of_name? hname
      dsimp only
      cases left with
      | nil => rfl
      | cons c others =>
          have hends' : Ends Scan.isNameChar (c :: others ++ more) := fun d hd => hends d hd
          have hfull : Finds Scan.name? (text ++ more) value (c :: others ++ more) := by
            rw [htext, List.append_assoc]
            exact Scan.name?_append hplain hends'
          obtain ⟨_, hfull⟩ := hfull
          simp only [call?, hfull] at h
          split at h
          · rename_i hnone
            simp only [char?_eq_none_of_append (skipBlanks_append_more hmore _) hnone]
          · cases h

theorem cuts_call? {taken : Taken Operand (text ++ more)}
    (h : call? limit expression (text ++ more) = some (.ok taken))
    (hrest : taken.rest = rest ++ more) :
    ∃ shorter, call? limit expression text = some (.ok ⟨taken.value, rest, shorter⟩) := by
  obtain ⟨⟨name, mid, hmid⟩, after, args, hname, hopening, hvalue, hlimit, hargs⟩ :=
    exists_of_call? h
  rw [hrest] at hargs
  have hlong := hargs.length_le_of_append
  have hargs' := hargs.1
  have hskip := Scan.length_skipBlanks_le after
  have hskip' := Scan.length_skipBlanks_le mid
  dsimp only at hopening hvalue hlimit
  rw [hopening, List.length_cons] at hskip'
  have hsuffix : mid <:+ text ++ more := by
    rw [(Scan.isPlainName_of_name? hname).1]
    exact List.suffix_append _ _
  obtain ⟨mid, rfl⟩ := exists_append_of_suffix hsuffix (by omega)
  obtain ⟨after, rfl, hopening'⟩ :=
    eq_cons_of_append (skipBlanks_append_more hmore mid) (by omega) hopening
  obtain ⟨_, hname'⟩ := Scan.finds_name? ⟨_, hname⟩
  rw [skipBlanks_append_more hmore] at hargs
  obtain ⟨_, hargs⟩ := cuts_arguments hmore hstays hcuts hargs
  have hfound : ∃ shorter, Scan.char? '(' (skipBlanks mid) = some ⟨(), after, shorter⟩ := by
    rw [hopening']
    exact ⟨_, char?_cons '(' after⟩
  obtain ⟨_, hfound⟩ := hfound
  have hshorter := taken.shorter
  rw [hrest] at hshorter
  exact ⟨lt_of_append hshorter, by
    simp [call?, hname', hfound, hargs, hvalue, bounded, Nat.not_lt.2 hlimit]⟩

theorem cuts_tightest : Cuts more (tightest limit expression) := by
  intro text rest operand hreads
  obtain ⟨c, text, rfl⟩ := exists_cons_of_shorter hreads.1
  by_cases hparenthesis : c = '('
  · subst hparenthesis
    exact cuts_tightest_parenthesis hcuts hreads
  by_cases hpoint : c = '.'
  · subst hpoint
    exact reads_tightest_point.2 (cuts_path (reads_tightest_point.1 hreads))
  by_cases hbrace : c = '\x7b'
  · subst hbrace
    exact cuts_tightest_object hmore hstays hcuts hreads
  by_cases hbracket : c = '['
  · subst hbracket
    exact cuts_tightest_array hmore hstays hcuts hreads
  have htightest (text : List Char) : tightest limit expression (c :: text) =
      (call? limit expression (c :: text)).getD (literal (c :: text)) := by
    simp only [tightest, char?_of_ne hparenthesis, char?_of_ne hpoint, char?_of_ne hbrace,
      char?_of_ne hbracket]
    cases call? limit expression (c :: text) <;> rfl
  obtain ⟨hshorter, h⟩ := hreads
  replace h := (htightest (text ++ more)).symm.trans h
  cases hcall : call? limit expression (c :: (text ++ more)) with
  | some result =>
      rw [hcall] at h
      obtain rfl : result = .ok ⟨operand, rest ++ more, hshorter⟩ := h
      have hcut := @cuts_call? _ limit _ (c :: text) rest _ _ hmore hstays hcuts _ hcall rfl
      obtain ⟨_, hcall⟩ := hcut
      exact ⟨lt_of_append hshorter, by rw [htightest, hcall]; rfl⟩
  | none =>
      rw [hcall] at h
      obtain ⟨hshorter, hliteral⟩ := @cuts_literal more (c :: text) rest operand ⟨_, h⟩
      exact ⟨hshorter, by rw [htightest, call?_eq_none_of_append hmore hcall, ← hliteral]; rfl⟩

theorem cuts_primary : Cuts more (primary limit expression) := by
  intro text rest operand hreads
  have htightest := reads_primary_iff.1 hreads
  rw [skipBlanks_append_more hmore] at htightest
  exact reads_primary_iff.2 (cuts_tightest hmore hstays hcuts htightest)

end Nested

/-! ## Operators -/

section Operators

variable {operators group : OperatorGroup} {name : String} {whole left after last : List Char}

theorem operator?_eq_none_of_append (h : operator? operators (text ++ more) = none) :
    operator? operators text = none := by
  refine operator?_eq_none fun entry hentry hstart => ?_
  exact operator?_ne_none hentry (hstart.trans (List.prefix_append text more)) h

/-- The operator that comes next before a cut comes next in the text up to the cut: no symbol before
it in the list starts the text. -/
theorem operatorAt_of_append (hmore : Ends Scan.isBlank more)
    (h : OperatorAt operators (text ++ more) name after) (hlength : more.length ≤ after.length) :
    ∃ rest, after = rest ++ more ∧ OperatorAt operators text name rest := by
  induction operators with
  | nil =>
      obtain ⟨_, h⟩ := h
      cases h
  | cons entry operators ih =>
      obtain ⟨name', symbol⟩ := entry
      by_cases hstart : symbol.toList <+: text ++ more
      · obtain ⟨rest, hrest⟩ := hstart
        rw [← hrest] at h
        obtain ⟨_, hoperator⟩ := h
        obtain ⟨_, hoperator'⟩ := @operatorAt_cons_of_append operators name' symbol rest
        obtain ⟨rfl, rfl⟩ : name' = name ∧ skipBlanks rest = after := by
          simpa using hoperator'.symm.trans hoperator
        have hsuffix : rest <:+ text ++ more := ⟨symbol.toList, hrest⟩
        have hskip := Scan.length_skipBlanks_le rest
        obtain ⟨rest, rfl⟩ := exists_append_of_suffix hsuffix (by omega)
        obtain rfl := eq_append_of_append hrest.symm
        exact ⟨_, skipBlanks_append_more hmore rest, operatorAt_cons_of_append name' symbol rest⟩
      · have hcut : ¬ symbol.toList <+: text :=
          fun hcut => hstart (hcut.trans (List.prefix_append text more))
        rw [OperatorAt, operator?_cons_of_not_start hstart] at h
        obtain ⟨rest, hrest, hoperator⟩ := ih h
        refine ⟨rest, hrest, ?_⟩
        rwa [OperatorAt, operator?_cons_of_not_start hcut]

/-- No symbol of a group starts one of a tighter group. -/
def Unstarted (table : OperatorTable) : Prop :=
  table.groups.Pairwise fun group group' =>
    ∀ entry ∈ group, ∀ entry' ∈ group', ¬ entry'.2.toList <+: entry.2.toList

theorem unstarted_builtin : Unstarted .builtin := by
  unfold Unstarted
  decide

/-- Where an operator of a group comes next, none of a looser group does. -/
theorem dead_of_operatorAt (hseparable : Separable table) (hunstarted : Unstarted table)
    (hgroup : table.groups[level]? = some group)
    (h : OperatorAt (candidates group) (skipBlanks rest) name after) :
    Dead table (level + 1) (skipBlanks rest) := by
  obtain ⟨_, h⟩ := h
  obtain ⟨symbol, blanks, hmem, htext, _⟩ := exists_symbol_of_operator? h
  have hmem' := List.mem_mergeSort.1 hmem
  have hstarts := hseparable.starts (List.mem_of_getElem? hgroup) _ hmem'
  obtain ⟨c, others, hlist, hblank, hcloser⟩ : ∃ c others, symbol.toList = c :: others ∧
      Scan.isBlank c = false ∧ isCloser c = false := by
    unfold isSymbolStart at hstarts
    split at hstarts
    · cases hstarts
    · rename_i c others hlist
      simp only [Bool.and_eq_true, Bool.not_eq_true'] at hstarts
      exact ⟨c, others, hlist, hstarts.1.1, hstarts.1.2⟩
  refine ⟨?_, fun {j looser} hj hlooser => ?_⟩
  · rw [skipBlanks_skipBlanks, htext, hlist]
    exact ⟨c, _, List.cons_append .., hblank, hcloser⟩
  · rw [skipBlanks_skipBlanks, htext]
    refine operator?_eq_none fun entry hentry hstart => ?_
    have hentry' := List.mem_mergeSort.1 hentry
    obtain ⟨hlt, rfl⟩ := List.getElem?_eq_some_iff.1 hgroup
    obtain ⟨hlt', rfl⟩ := List.getElem?_eq_some_iff.1 hlooser
    rcases List.prefix_or_prefix_of_prefix hstart (List.prefix_append _ _) with hstart | hstart
    · exact List.pairwise_iff_getElem.1 hunstarted level j hlt hlt' hj _ hmem' entry hentry' hstart
    · exact List.pairwise_iff_getElem.1 hseparable.tighter level j hlt hlt' hj _ hmem' entry hentry'
        hstart

end Operators

/-! ## The ladder -/

section Ladder

variable {operators group : OperatorGroup} {tighter base : Production Operand}
  {operand result : Operand} {last : List Char}

theorem Chains.length_le {outcome : Outcome Operand}
    (h : Chains table limit operators tighter operand rest outcome)
    (hok : outcome = .ok (result, last)) : last.length ≤ rest.length := by
  induction h with
  | done _ =>
      obtain ⟨_, rfl⟩ : _ ∧ skipBlanks _ = last := by simpa using hok
      exact Scan.length_skipBlanks_le _
  | refused _ _ =>
      obtain ⟨_, rfl⟩ : _ ∧ skipBlanks _ = last := by simpa using hok
      exact Scan.length_skipBlanks_le _
  | halted _ _ _ => cases hok
  | @step left right rest after rest' name outcome hoperator haccepted hright hlimit _ ih =>
      obtain ⟨hafter, _⟩ := hoperator
      obtain ⟨hshorter, _⟩ := hright
      have hskip := Scan.length_skipBlanks_le rest
      have hmore := ih hok
      omega

theorem Chains.eq_of_none {outcome : Outcome Operand}
    (h : Chains table limit operators tighter operand rest outcome)
    (hnone : operator? operators (skipBlanks rest) = none) :
    outcome = .ok (operand, skipBlanks rest) := by
  cases h with
  | done _ => rfl
  | refused _ _ => rfl
  | halted hoperator _ _ =>
      obtain ⟨_, hoperator⟩ := hoperator
      cases hnone.symm.trans hoperator
  | step hoperator _ _ _ _ =>
      obtain ⟨_, hoperator⟩ := hoperator
      cases hnone.symm.trans hoperator

/-- No chain goes on where no operator does. -/
theorem stalls_of_dead (hgroup : table.groups[level]? = some group)
    (hmore : Ends Scan.isBlank more)
    (h : Chains table limit (candidates group) tighter operand (rest ++ more)
      (.ok (result, last ++ more)))
    (hrest : skipBlanks rest ≠ []) (hdead : Dead table level (rest ++ more)) :
    skipBlanks last ≠ [] ∧ Dead table (level + 1) (last ++ more) := by
  have hclimb := hdead.climb (Nat.le_succ level)
  have hend := h.eq_of_none (hdead.operator (Nat.le_refl level) hgroup)
  rw [skipBlanks_append_more hmore] at hclimb hend
  obtain ⟨_, hlast⟩ : result = operand ∧ last ++ more = skipBlanks rest ++ more := by
    simpa using hend
  obtain rfl := List.append_cancel_right hlast
  rw [skipBlanks_skipBlanks]
  exact ⟨hrest, hclimb⟩

section

variable (hseparable : Separable table) (hunstarted : Unstarted table)
  (hgroup : table.groups[level]? = some group) (hmore : Ends Scan.isBlank more)
  (hstays : Stays tighter) (hcuts : CutsOrStalls table level more tighter)
include hseparable hunstarted hgroup hmore hstays hcuts

/-- The uses of operators before a cut are those in the text up to the cut, or there is one that
may not follow its operand. -/
theorem chains_of_append {outcome : Outcome Operand}
    (h : Chains table limit (candidates group) tighter operand (rest ++ more) outcome)
    (hok : outcome = .ok (result, last ++ more)) :
    Chains table limit (candidates group) tighter operand rest (.ok (result, last)) ∨
      skipBlanks last ≠ [] ∧ Dead table (level + 1) (last ++ more) := by
  generalize hwhole : rest ++ more = whole at h
  induction h generalizing rest with
  | @done operand whole hnone =>
      subst hwhole
      rw [skipBlanks_append_more hmore] at hnone hok
      obtain ⟨rfl, hlast⟩ : operand = result ∧ skipBlanks rest ++ more = last ++ more := by
        simpa using hok
      obtain rfl := List.append_cancel_right hlast
      exact .inl (.done (operator?_eq_none_of_append hnone))
  | @refused operand whole after name hoperator hrefused =>
      subst hwhole
      have hdead := dead_of_operatorAt hseparable hunstarted hgroup hoperator
      rw [skipBlanks_append_more hmore] at hdead hok
      obtain ⟨rfl, hlast⟩ : operand = result ∧ skipBlanks rest ++ more = last ++ more := by
        simpa using hok
      obtain rfl := List.append_cancel_right hlast
      by_cases hrest : skipBlanks rest = []
      · -- nothing is left before the cut, so no symbol is either
        refine .inl (.done (operator?_eq_none fun entry hentry hstart => ?_))
        rw [hrest, List.prefix_nil] at hstart
        have hstarts := hseparable.starts (List.mem_of_getElem? hgroup) _
          (List.mem_mergeSort.1 hentry)
        simp [isSymbolStart, hstart] at hstarts
      · rw [skipBlanks_skipBlanks]
        exact .inr ⟨hrest, hdead⟩
  | halted _ _ _ => cases hok
  | @step operand right whole after left name outcome hoperator haccepted hright hlimit hchains
      ih =>
      subst hwhole
      have hlong : more.length ≤ left.length := by
        have hlength := hchains.length_le hok
        rw [List.length_append] at hlength
        omega
      rw [skipBlanks_append_more hmore] at hoperator
      have hlong' : more.length ≤ after.length := Nat.le_trans hlong (Nat.le_of_lt hright.1)
      obtain ⟨after, rfl, hcut⟩ := operatorAt_of_append hmore hoperator hlong'
      obtain ⟨left, rfl, hreads⟩ := hcuts.split rfl hlong hstays hright
      rcases hreads with hreads | ⟨hleft, hdead⟩
      · exact (ih hok rfl).imp_left fun hchains =>
          .step hcut haccepted hreads hlimit hchains
      · exact .inr (stalls_of_dead hgroup hmore (hok ▸ hchains) hleft hdead)

theorem cutsOrStalls_rung :
    CutsOrStalls table (level + 1) more (rung table limit (candidates group) tighter) := by
  intro text rest operand h
  obtain ⟨left, mid, hleft, hchains⟩ := exists_of_reads_rung h
  have hlong := hchains.length_le rfl
  rw [List.length_append] at hlong
  obtain ⟨mid, rfl, hleft⟩ := hcuts.split rfl (by omega) hstays hleft
  rcases hleft with hleft | ⟨hne, hdead⟩
  · exact (chains_of_append hseparable hunstarted hgroup hmore hstays hcuts hchains rfl).imp_left
      (yields_rung hleft)
  · exact .inr (stalls_of_dead hgroup hmore hchains hne hdead)

end

variable (hseparable : Separable table) (hunstarted : Unstarted table)
  (hmore : Ends Scan.isBlank more)
include hseparable hunstarted hmore

theorem cutsOrStalls_ladderTo (hstays : Stays base) (hcuts : Cuts more base) {level : Nat}
    (hlevel : level ≤ table.size) :
    CutsOrStalls table level more (ladderTo table limit base level) := by
  induction level with
  | zero => exact fun _ _ _ h => .inl (hcuts h)
  | succ level ih =>
      have hgroup : table.groups[level]? = some table.groups[level] :=
        List.getElem?_eq_getElem hlevel
      rw [ladderTo_succ hgroup]
      exact cutsOrStalls_rung hseparable hunstarted hgroup hmore (stays_foldl_rung _ hstays)
        (ih (Nat.le_of_lt hlevel))

/-- What an expression takes before a cut, it takes from the text up to the cut, unless an operator
that may not follow stands before the cut. -/
theorem cutsOrStalls_expression (limit budget : Nat) :
    CutsOrStalls table table.size more (expression table limit budget) := by
  induction budget with
  | zero =>
      rintro text rest operand ⟨_, h⟩
      cases h
  | succ budget ih =>
      have hstays := stays_expression table limit budget
      have hladder := @cutsOrStalls_ladderTo _ limit _ _ hseparable hunstarted hmore
        (@stays_primary limit _ hstays) (cuts_primary hmore hstays ih) _ (Nat.le_refl table.size)
      rwa [ladderTo_size] at hladder

end Ladder

end Parser

end PipeQuery
