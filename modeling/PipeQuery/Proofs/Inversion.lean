/-
Readings taken apart.

One lemma for each production says what was read, and from where, when the production took a value.
What goes on with a reading never opens the production again.
-/
import PipeQuery.Proofs.Ladder

namespace PipeQuery

namespace Parser

open Scan (skipBlanks)

variable {α : Type} {limit : Nat} {text rest : List Char}

theorem reads_of_ok {production : Production α} {taken : Taken α text}
    (h : production text = .ok taken) : Reads production text taken.value taken.rest :=
  ⟨taken.shorter, h⟩

theorem Reads.eq_ok {production : Production α} {value : α}
    (h : Reads production text value rest) :
    ∃ taken, production text = .ok taken ∧ taken.value = value ∧ taken.rest = rest := by
  obtain ⟨_, h⟩ := h
  exact ⟨_, h, rfl, rfl⟩

/-- A production takes one thing from a text. -/
theorem Reads.unique {production : Production α} {value value' : α} {rest' : List Char}
    (h : Reads production text value rest) (h' : Reads production text value' rest') :
    value = value' ∧ rest = rest' := by
  obtain ⟨_, h⟩ := h
  obtain ⟨_, h'⟩ := h'
  simpa using h.symm.trans h'

theorem reads_of_widen {production : Production α} {longer : List Char}
    {hle : text.length ≤ longer.length} {taken : Taken α longer}
    (h : (production text).map (·.widen hle) = .ok taken) :
    Reads production text taken.value taken.rest := by
  cases hproduction : production text with
  | error stop =>
      rw [hproduction] at h
      cases h
  | ok inner =>
      rw [hproduction] at h
      obtain rfl := Except.ok.inj h
      exact reads_of_ok hproduction

theorem Opens.skipBlanks_eq (h : Opens text) : Scan.skipBlanks text = text :=
  h.skipBlanks Grammar.blank_nil

theorem not_opens_cons {c : Char} (h : isCloser c = true) : ¬ Opens (c :: rest) := by
  rintro ⟨_, _, hcons, _, hcloser⟩
  obtain ⟨rfl, _⟩ := List.cons.inj hcons
  rw [h] at hcloser
  cases hcloser

theorem not_opens_skipBlanks_cons {c : Char} (h : isCloser c = true) :
    ¬ Opens (skipBlanks (c :: rest)) := by
  rw [skipBlanks_of_ends (ends_cons (blank_of_isCloser h) rest)]
  exact not_opens_cons h

/-! ## Single characters, limits and tokens -/

theorem exists_blank_skipBlanks (text : List Char) :
    ∃ blanks, text = blanks ++ skipBlanks text ∧ Grammar.Blank blanks :=
  ⟨text.takeWhile Scan.isBlank, List.takeWhile_append_dropWhile.symm,
    Scan.forall_mem_takeWhile Scan.isBlank text⟩

theorem eq_cons_of_char? {c : Char} {taken : Taken Unit text}
    (h : Scan.char? c text = some taken) : text = c :: taken.rest := by
  cases text with
  | nil => simp [Scan.char?] at h
  | cons d more =>
      by_cases hd : d = c
      · simp only [Scan.char?, hd, if_true, Option.some.injEq] at h
        subst h
        rw [hd]
      · simp [Scan.char?, hd] at h

theorem eq_cons_of_expect {c : Char} {taken : Taken Unit text} (h : expect c text = .ok taken) :
    text = c :: taken.rest := by
  unfold expect at h
  split at h
  · rename_i found hfound
    obtain rfl : found = taken := by simpa using h
    exact eq_cons_of_char? hfound
  · simp at h

theorem eq_of_bounded {taken taken' : Taken Operand text} (h : bounded limit taken = .ok taken') :
    taken = taken' := by
  unfold bounded at h
  split at h
  · simp at h
  · simpa using h

theorem height_le_of_bounded {taken taken' : Taken Operand text}
    (h : bounded limit taken = .ok taken') : taken.value.height ≤ limit := by
  unfold bounded at h
  split at h
  · simp at h
  · rename_i hlimit
    exact Nat.not_lt.1 hlimit

/-- A key, by the scanner that found it. -/
inductive ReadsKey (text : List Char) : String → List Char → Prop
  | quoted {name : String} {rest : List Char} {shorter : rest.length < text.length}
      (h : Scan.string text = .found ⟨name, rest, shorter⟩) : ReadsKey text name rest
  | name {name : String} {rest : List Char} {shorter : rest.length < text.length}
      (habsent : Scan.string text = .absent) (h : Scan.name? text = some ⟨name, rest, shorter⟩) :
      ReadsKey text name rest
  | whole {digits rest : List Char} {shorter : rest.length < text.length}
      (habsent : Scan.string text = .absent) (hname : Scan.name? text = none)
      (h : Scan.whole? text = some ⟨digits, rest, shorter⟩) :
      ReadsKey text (String.ofList digits) rest

theorem reads_key_iff {expected : SyntaxCause} {name : String} :
    Reads (key expected) text name rest ↔ ReadsKey text name rest := by
  constructor
  · rintro ⟨shorter, h⟩
    unfold key at h
    split at h
    · rename_i hfound
      obtain rfl := Except.ok.inj h
      exact .quoted hfound
    · cases h
    rename_i habsent
    split at h
    · rename_i hname
      obtain rfl := Except.ok.inj h
      exact .name habsent hname
    rename_i hname
    split at h
    · rename_i taken hwhole
      obtain ⟨digits, left, hleft⟩ := taken
      obtain ⟨rfl, rfl⟩ : String.ofList digits = name ∧ left = rest := by simpa [Taken.map] using h
      exact .whole habsent hname hwhole
    · cases h
  · intro h
    cases h with
    | @quoted _ _ shorter h => exact ⟨shorter, by simp only [key, h]⟩
    | @name _ _ shorter habsent h => exact ⟨shorter, by simp only [key, habsent, h]⟩
    | @whole _ _ shorter habsent hname h =>
        exact ⟨shorter, by simp only [key, habsent, hname, h, Taken.map]⟩

/-- A literal, by the scanner that found it. -/
inductive ReadsLiteral (text : List Char) : Value → List Char → Prop
  | string {s : String} {rest : List Char} {shorter : rest.length < text.length}
      (h : Scan.string text = .found ⟨s, rest, shorter⟩) : ReadsLiteral text (.str s) rest
  | number {numeral : Numeral} {rest : List Char} {shorter : rest.length < text.length}
      (habsent : Scan.string text = .absent)
      (h : Scan.numeral? text = some ⟨numeral, rest, shorter⟩) :
      ReadsLiteral text (.ofNumeral numeral) rest
  | bool {b : Bool} {rest : List Char} {shorter : rest.length < text.length}
      (habsent : Scan.string text = .absent) (hnumeral : Scan.numeral? text = none)
      (h : Scan.keyword? text = some ⟨some b, rest, shorter⟩) : ReadsLiteral text (.bool b) rest
  | null {rest : List Char} {shorter : rest.length < text.length}
      (habsent : Scan.string text = .absent) (hnumeral : Scan.numeral? text = none)
      (h : Scan.keyword? text = some ⟨none, rest, shorter⟩) : ReadsLiteral text .null rest

theorem reads_literal_iff {operand : Operand} :
    Reads literal text operand rest ↔
      ∃ value, operand = .constant value ∧ ReadsLiteral text value rest := by
  constructor
  · rintro ⟨shorter, h⟩
    unfold literal at h
    split at h
    · rename_i hfound
      obtain ⟨rfl, rfl, _⟩ := Taken.mk.inj (Except.ok.inj h)
      exact ⟨_, rfl, .string hfound⟩
    · cases h
    rename_i habsent
    split at h
    · rename_i hnumeral
      obtain ⟨rfl, rfl, _⟩ := Taken.mk.inj (Except.ok.inj h)
      exact ⟨_, rfl, .number habsent hnumeral⟩
    rename_i hnumeral
    split at h
    · rename_i taken hkeyword
      obtain ⟨word, left, hleft⟩ := taken
      obtain ⟨rfl, rfl, _⟩ := Taken.mk.inj (Except.ok.inj h)
      cases word with
      | none => exact ⟨_, rfl, .null habsent hnumeral hkeyword⟩
      | some b => exact ⟨_, rfl, .bool habsent hnumeral hkeyword⟩
    · cases h
  · rintro ⟨value, rfl, h⟩
    cases h with
    | @string _ _ shorter h =>
        exact ⟨shorter, by simp only [literal, h, Taken.map, Operand.constant]⟩
    | @number _ _ shorter habsent h =>
        exact ⟨shorter, by simp only [literal, habsent, h, Taken.map, Operand.constant]⟩
    | @bool _ _ shorter habsent hnumeral h | @null _ shorter habsent hnumeral h =>
        exact ⟨shorter, by simp only [literal, habsent, hnumeral, h, Taken.map, Operand.constant]⟩

/-! ## Paths -/

theorem reads_segments_cases {names : List String} (hreads : Reads segments text names rest) :
    (∃ name, names = [name] ∧ Reads (key .propertyExpected) text name rest ∧
        Scan.char? '.' rest = none) ∨
      ∃ name after others, names = name :: others ∧
        Reads (key .propertyExpected) text name ('.' :: after) ∧
          Reads segments after others rest := by
  obtain ⟨taken, h, rfl, rfl⟩ := hreads.eq_ok
  unfold segments at h
  split at h
  · cases h
  rename_i first hfirst
  have hname := reads_of_ok hfirst
  split at h
  · rename_i hpoint
    obtain rfl := Except.ok.inj h
    exact .inl ⟨first.value, rfl, hname, hpoint⟩
  rename_i point hpoint
  split at h
  · cases h
  rename_i others hothers
  obtain rfl := Except.ok.inj h
  rw [eq_cons_of_char? hpoint] at hname
  exact .inr ⟨first.value, point.rest, others.value, rfl, hname, reads_of_ok hothers⟩

theorem reads_segments_last {name : String} (hname : Reads (key .propertyExpected) text name rest)
    (hpoint : Scan.char? '.' rest = none) : Reads segments text [name] rest := by
  obtain ⟨hshorter, hname⟩ := hname
  refine ⟨hshorter, ?_⟩
  rw [segments]
  simp only [hname, hpoint]

theorem reads_segments_cons {name : String} {after : List Char} {names : List String}
    (hname : Reads (key .propertyExpected) text name ('.' :: after))
    (hothers : Reads segments after names rest) : Reads segments text (name :: names) rest := by
  obtain ⟨hshorter, hname⟩ := hname
  obtain ⟨hshorter', hothers⟩ := hothers
  rw [List.length_cons] at hshorter
  refine ⟨by omega, ?_⟩
  rw [segments]
  simp [hname, hothers]

/-! ## Lists -/

section Lists

variable {closing : Char} {item : Production α} {values : List α}

theorem reads_moreItems_cases (hreads : Reads (moreItems closing item) text values rest) :
    (text = closing :: rest ∧ values = []) ∨
      ∃ after first mid others, text = ',' :: after ∧ closing ≠ ',' ∧ values = first :: others ∧
        Reads item (skipBlanks after) first mid ∧
          Reads (moreItems closing item) mid others rest := by
  obtain ⟨taken, h, rfl, rfl⟩ := hreads.eq_ok
  unfold moreItems at h
  split at h
  · cases h
  split at h
  · rename_i last hlast
    obtain rfl := Except.ok.inj h
    exact .inl ⟨eq_cons_of_char? hlast, rfl⟩
  rename_i hlast
  split at h
  · cases h
  rename_i comma hcomma
  split at h
  · cases h
  rename_i first hfirst
  dsimp only at h
  split at h
  · cases h
  rename_i others hothers
  obtain rfl := Except.ok.inj h
  have htext := eq_cons_of_expect hcomma
  refine .inr ⟨comma.rest, first.value, first.rest, others.value, htext, ?_, rfl,
    reads_of_ok hfirst, reads_of_ok hothers⟩
  rintro rfl
  rw [htext, char?_cons] at hlast
  cases hlast

/-- Items go on with a bracket or a comma. -/
theorem not_opens_of_reads_moreItems (hclosing : isCloser closing = true)
    (h : Reads (moreItems closing item) text values rest) : ¬ Opens (skipBlanks text) := by
  rcases reads_moreItems_cases h with ⟨rfl, _⟩ | ⟨_, _, _, _, rfl, _⟩
  · exact not_opens_skipBlanks_cons hclosing
  · exact not_opens_skipBlanks_cons (by decide)

theorem reads_items_cases (hreads : Reads (items closing item) text values rest) :
    (text = closing :: rest ∧ values = []) ∨
      ∃ first mid others, Scan.char? closing text = none ∧ values = first :: others ∧
        Reads item text first mid ∧ Reads (moreItems closing item) mid others rest := by
  obtain ⟨taken, h, rfl, rfl⟩ := hreads.eq_ok
  unfold items at h
  split at h
  · cases h
  split at h
  · rename_i last hlast
    obtain rfl := Except.ok.inj h
    exact .inl ⟨eq_cons_of_char? hlast, rfl⟩
  rename_i hlast
  split at h
  · cases h
  rename_i first hfirst
  split at h
  · cases h
  rename_i others hothers
  obtain rfl := Except.ok.inj h
  exact .inr ⟨_, _, _, hlast, rfl, reads_of_ok hfirst, reads_of_ok hothers⟩

theorem reads_items_of_ne {value : α} {mid : List Char}
    (hclosing : Scan.char? closing text = none) (hfirst : Reads item text value mid)
    (hothers : Reads (moreItems closing item) mid values rest) :
    Reads (items closing item) text (value :: values) rest := by
  have hne : text ≠ [] := by
    rintro rfl
    cases hfirst.1
  obtain ⟨hshorter, hfirst⟩ := hfirst
  obtain ⟨hshorter', hothers⟩ := hothers
  exact ⟨Nat.lt_trans hshorter' hshorter, by simp [items, hne, hclosing, hfirst, hothers]⟩

end Lists

section Nested

variable {expression : Production Operand} {operand : Operand} {args : List Operand}

theorem reads_moreArguments_cases (hreads : Reads (moreArguments expression) text args rest) :
    (text = ')' :: rest ∧ args = []) ∨
      ∃ after arg mid others, Scan.char? ')' text = none ∧ skipBlanks text = ',' :: after ∧
        args = arg :: others ∧ Reads expression after arg mid ∧
          Reads (moreArguments expression) mid others rest := by
  obtain ⟨taken, h, rfl, rfl⟩ := hreads.eq_ok
  unfold moreArguments at h
  split at h
  · cases h
  split at h
  · rename_i closing hclosing
    obtain rfl := Except.ok.inj h
    exact .inl ⟨eq_cons_of_char? hclosing, rfl⟩
  rename_i hclosing
  split at h
  · cases h
  rename_i comma hcomma
  split at h
  · cases h
  rename_i arg harg
  dsimp only at h
  split at h
  · cases h
  rename_i others hothers
  obtain rfl := Except.ok.inj h
  exact .inr ⟨_, _, _, _, hclosing, eq_cons_of_expect hcomma, rfl, reads_of_ok harg,
    reads_of_ok hothers⟩

theorem not_opens_of_reads_moreArguments (h : Reads (moreArguments expression) text args rest) :
    ¬ Opens (skipBlanks text) := by
  rcases reads_moreArguments_cases h with ⟨rfl, _⟩ | ⟨_, _, _, _, _, htext, _⟩
  · exact not_opens_skipBlanks_cons (by decide)
  · rw [← skipBlanks_skipBlanks, htext]
    exact not_opens_skipBlanks_cons (by decide)

theorem reads_arguments_cases (hreads : Reads (arguments expression) text args rest) :
    (text = ')' :: rest ∧ args = []) ∨
      ∃ arg mid others, Scan.char? ')' text = none ∧ args = arg :: others ∧
        Reads expression text arg mid ∧ Reads (moreArguments expression) mid others rest := by
  obtain ⟨taken, h, rfl, rfl⟩ := hreads.eq_ok
  unfold arguments at h
  split at h
  · rename_i closing hclosing
    obtain rfl := Except.ok.inj h
    exact .inl ⟨eq_cons_of_char? hclosing, rfl⟩
  rename_i hclosing
  split at h
  · cases h
  rename_i arg harg
  split at h
  · cases h
  rename_i others hothers
  obtain rfl := Except.ok.inj h
  exact .inr ⟨_, _, _, hclosing, rfl, reads_of_ok harg, reads_of_ok hothers⟩

theorem reads_arguments_nil (expression : Production Operand) (rest : List Char) :
    Reads (arguments expression) (')' :: rest) [] rest :=
  ⟨by simp, by simp [arguments]⟩

theorem reads_arguments_cons {arg : Operand} {mid : List Char}
    (hclosing : Scan.char? ')' text = none) (harg : Reads expression text arg mid)
    (hothers : Reads (moreArguments expression) mid args rest) :
    Reads (arguments expression) text (arg :: args) rest := by
  obtain ⟨hshorter, harg⟩ := harg
  obtain ⟨hshorter', hothers⟩ := hothers
  exact ⟨Nat.lt_trans hshorter' hshorter, by simp only [arguments, hclosing, harg, hothers]⟩

theorem exists_of_reads_entry {name : String}
    (hreads : Reads (entry expression) text (name, operand) rest) :
    ∃ mid after, Reads (key .keyExpected) text name mid ∧ skipBlanks mid = ':' :: after ∧
      Reads expression after operand rest := by
  obtain ⟨taken, h, hvalue, rfl⟩ := hreads.eq_ok
  unfold entry at h
  split at h
  · cases h
  rename_i found hfound
  split at h
  · cases h
  rename_i colon hcolon
  split at h
  · cases h
  rename_i value hexpression
  obtain rfl := Except.ok.inj h
  obtain ⟨rfl, rfl⟩ := Prod.mk.inj hvalue
  exact ⟨_, _, reads_of_ok hfound, eq_cons_of_expect hcolon, reads_of_ok hexpression⟩

theorem exists_of_reads_parenthesis (hreads : Reads (parenthesis expression) text operand rest) :
    ∃ inner : Operand, operand = { inner with parenthesized := true } ∧
      Reads expression text inner (')' :: rest) := by
  obtain ⟨taken, h, rfl, rfl⟩ := hreads.eq_ok
  unfold parenthesis at h
  split at h
  · cases h
  rename_i inner hinner
  split at h
  · cases h
  rename_i closing hclosing
  obtain rfl := Except.ok.inj h
  refine ⟨inner.value, rfl, ?_⟩
  rw [← eq_cons_of_expect hclosing]
  exact reads_of_ok hinner

theorem exists_of_reads_path (hreads : Reads path text operand rest) :
    ∃ keys, operand = { query := .get keys, height := 1 } ∧ Reads segments text keys rest := by
  obtain ⟨taken, h, rfl, rfl⟩ := hreads.eq_ok
  unfold path at h
  split at h
  · cases h
  rename_i keys hkeys
  obtain rfl := Except.ok.inj h
  exact ⟨keys.value, rfl, reads_of_ok hkeys⟩

theorem exists_of_reads_object (hreads : Reads (object limit expression) text operand rest) :
    ∃ entries, operand = .object entries ∧ (Operand.object entries).height ≤ limit ∧
      Reads (items '\x7d' (entry expression)) (skipBlanks text) entries rest := by
  obtain ⟨taken, h, rfl, rfl⟩ := hreads.eq_ok
  unfold object at h
  split at h
  · cases h
  rename_i entries hentries
  have hlimit := height_le_of_bounded h
  obtain rfl := eq_of_bounded h
  exact ⟨entries.value, rfl, hlimit, reads_of_ok hentries⟩

theorem exists_of_reads_array (hreads : Reads (array limit expression) text operand rest) :
    ∃ operands, operand = .call "array" operands ∧ (Operand.call "array" operands).height ≤ limit ∧
      Reads (items ']' expression) (skipBlanks text) operands rest := by
  obtain ⟨taken, h, rfl, rfl⟩ := hreads.eq_ok
  unfold array at h
  split at h
  · cases h
  rename_i operands hoperands
  have hlimit := height_le_of_bounded h
  obtain rfl := eq_of_bounded h
  exact ⟨operands.value, rfl, hlimit, reads_of_ok hoperands⟩

theorem exists_of_call? {taken : Taken Operand text}
    (h : call? limit expression text = some (.ok taken)) :
    ∃ (name : Taken String text) (after : List Char) (args : List Operand),
      Scan.name? text = some name ∧ skipBlanks name.rest = '(' :: after ∧
        taken.value = .call name.value args ∧ (Operand.call name.value args).height ≤ limit ∧
          Reads (arguments expression) (skipBlanks after) args taken.rest := by
  unfold call? at h
  split at h
  · cases h
  rename_i name hname
  split at h
  · cases h
  rename_i opening hopening
  have h := Option.some.inj h
  split at h
  · cases h
  rename_i args hargs
  have hlimit := height_le_of_bounded h
  obtain rfl := eq_of_bounded h
  exact ⟨name, opening.rest, args.value, hname, eq_cons_of_char? hopening, rfl, hlimit,
    reads_of_ok hargs⟩

/-! ## The tightest expression, by its first character -/

/-- The tightest expression, by the production that it was read by. -/
inductive ReadsTightest (limit : Nat) (expression : Production Operand) :
    List Char → Operand → List Char → Prop
  | parenthesis {text rest : List Char} {operand : Operand}
      (h : Reads (parenthesis expression) text operand rest) :
      ReadsTightest limit expression ('(' :: text) operand rest
  | path {text rest : List Char} {operand : Operand} (h : Reads path text operand rest) :
      ReadsTightest limit expression ('.' :: text) operand rest
  | call {name : String} {blanks text rest : List Char} {args : List Operand}
      (hname : isPlainName name = true) (hblanks : Grammar.Blank blanks)
      (hlimit : (Operand.call name args).height ≤ limit)
      (hargs : Reads (arguments expression) (skipBlanks text) args rest) :
      ReadsTightest limit expression (name.toList ++ blanks ++ '(' :: text) (.call name args) rest
  | object {text rest : List Char} {operand : Operand}
      (h : Reads (object limit expression) text operand rest) :
      ReadsTightest limit expression ('\x7b' :: text) operand rest
  | array {text rest : List Char} {operand : Operand}
      (h : Reads (array limit expression) text operand rest) :
      ReadsTightest limit expression ('[' :: text) operand rest
  | literal {text rest : List Char} {operand : Operand} (h : Reads literal text operand rest) :
      ReadsTightest limit expression text operand rest

theorem readsTightest_of_reads (hreads : Reads (tightest limit expression) text operand rest) :
    ReadsTightest limit expression text operand rest := by
  obtain ⟨shorter, h⟩ := hreads
  unfold tightest at h
  split at h
  · rename_i opening hopening
    rw [eq_cons_of_char? hopening]
    exact .parenthesis (reads_of_widen h)
  split at h
  · rename_i point hpoint
    rw [eq_cons_of_char? hpoint]
    exact .path (reads_of_widen h)
  split at h
  · rename_i hcall
    subst h
    obtain ⟨name, after, args, hname, hopening, (hvalue : operand = _), hlimit, hargs⟩ :=
      exists_of_call? hcall
    obtain ⟨htext, hplain⟩ := Scan.isPlainName_of_name? hname
    obtain ⟨blanks, hblanks, hblank⟩ := exists_blank_skipBlanks name.rest
    have hfront : text = name.value.toList ++ blanks ++ '(' :: after := by
      rw [List.append_assoc, ← hopening, ← hblanks, ← htext]
    rw [hfront, hvalue]
    exact .call hplain hblank hlimit hargs
  split at h
  · rename_i opening hopening
    rw [eq_cons_of_char? hopening]
    exact .object (reads_of_widen h)
  split at h
  · rename_i opening hopening
    rw [eq_cons_of_char? hopening]
    exact .array (reads_of_widen h)
  exact .literal (reads_of_ok h)

theorem reads_of_tightest_parenthesis
    (hreads : Reads (tightest limit expression) ('(' :: text) operand rest) :
    Reads (parenthesis expression) text operand rest := by
  obtain ⟨taken, h, rfl, rfl⟩ := hreads.eq_ok
  have hwiden : (parenthesis expression text).map (·.widen (Nat.le_succ _)) = .ok taken := by
    simpa [tightest] using h
  exact reads_of_widen hwiden

theorem reads_tightest_point :
    Reads (tightest limit expression) ('.' :: text) operand rest ↔
      Reads path text operand rest := by
  constructor
  · intro hreads
    obtain ⟨taken, h, rfl, rfl⟩ := hreads.eq_ok
    have hwiden : (path text).map (·.widen (Nat.le_succ _)) = .ok taken := by
      simpa [tightest, char?_of_ne (show '.' ≠ '(' by decide)] using h
    exact reads_of_widen hwiden
  · rintro ⟨hshorter, hpath⟩
    refine ⟨Nat.lt_succ_of_lt hshorter, ?_⟩
    simp [tightest, char?_of_ne (show '.' ≠ '(' by decide), hpath, Except.map, Taken.widen]

theorem reads_of_tightest_object
    (hreads : Reads (tightest limit expression) ('\x7b' :: text) operand rest) :
    Reads (object limit expression) text operand rest := by
  obtain ⟨taken, h, rfl, rfl⟩ := hreads.eq_ok
  have hcall : call? limit expression ('\x7b' :: text) = none :=
    call?_eq_none (ends_cons (by decide) text)
  have hwiden : (object limit expression text).map (·.widen (Nat.le_succ _)) = .ok taken := by
    simpa [tightest, char?_of_ne (show '\x7b' ≠ '(' by decide),
      char?_of_ne (show '\x7b' ≠ '.' by decide), hcall] using h
  exact reads_of_widen hwiden

theorem reads_of_tightest_array
    (hreads : Reads (tightest limit expression) ('[' :: text) operand rest) :
    Reads (array limit expression) text operand rest := by
  obtain ⟨taken, h, rfl, rfl⟩ := hreads.eq_ok
  have hcall : call? limit expression ('[' :: text) = none :=
    call?_eq_none (ends_cons (by decide) text)
  have hwiden : (array limit expression text).map (·.widen (Nat.le_succ _)) = .ok taken := by
    simpa [tightest, char?_of_ne (show '[' ≠ '(' by decide), char?_of_ne (show '[' ≠ '.' by decide),
      char?_of_ne (show '[' ≠ '\x7b' by decide), hcall] using h
  exact reads_of_widen hwiden

theorem exists_of_reads_call {name : String} (hname : isPlainName name = true)
    {blanks : List Char} (hblanks : Grammar.Blank blanks)
    (hreads : Reads (tightest limit expression) (name.toList ++ (blanks ++ '(' :: text)) operand
      rest) :
    ∃ args, operand = .call name args ∧ (Operand.call name args).height ≤ limit ∧
      Reads (arguments expression) (skipBlanks text) args rest := by
  obtain ⟨taken, h, rfl, rfl⟩ := hreads.eq_ok
  obtain ⟨_, hname'⟩ := Scan.name?_append hname (ends_isNameChar_opening hblanks text)
  have hnot (d : Char) (hd : Scan.isNameStart d = false) :
      Scan.char? d (name.toList ++ (blanks ++ '(' :: text)) = none := char?_name_eq_none hname hd _
  rw [tightest, hnot '(' (by decide), hnot '.' (by decide)] at h
  dsimp only at h
  split at h
  · rename_i hcall
    subst h
    obtain ⟨name', after, args, hfound, hopening, hvalue, hlimit, hargs⟩ := exists_of_call? hcall
    obtain rfl := Option.some.inj (hname'.symm.trans hfound)
    dsimp only at hopening
    rw [skipBlanks_append hblanks, skipBlanks_of_ends (ends_cons (by decide) text)] at hopening
    obtain ⟨_, rfl⟩ := List.cons.inj hopening
    exact ⟨args, hvalue, hlimit, hargs⟩
  · rename_i hcall
    obtain ⟨_, hopening⟩ := char?_opening hblanks text
    simp [call?, hname', hopening] at hcall

/-- Blanks before a primary do not matter. -/
theorem reads_primary_iff :
    Reads (primary limit expression) text operand rest ↔
      Reads (tightest limit expression) (skipBlanks text) operand rest := by
  constructor
  · intro hreads
    obtain ⟨taken, h, rfl, rfl⟩ := hreads.eq_ok
    exact reads_of_widen h
  · rintro ⟨hshorter, htightest⟩
    have hle := Scan.length_skipBlanks_le text
    exact ⟨by omega, by simp [primary, htightest, Except.map, Taken.widen]⟩

end Nested

/-! ## Chains -/

section Chains

variable {table : OperatorTable} {operators : OperatorGroup} {tighter : Production Operand}
  {operand : Operand}

theorem chains_of_ok {left taken : Taken Operand text}
    (h : chain table limit operators tighter left = .ok taken) :
    Chains table limit operators tighter left.value left.rest (.ok (taken.value, taken.rest)) := by
  fun_induction chain table limit operators tighter left with
  | case1 left here finished hnone =>
      obtain rfl := Except.ok.inj h
      exact .done hnone
  | case2 left here finished name after hoperator hrefused =>
      obtain rfl := Except.ok.inj h
      exact .refused ⟨after.property, hoperator⟩ hrefused
  | case3 => cases h
  | case4 => cases h
  | case5 left here name after hoperator haccepted right hright hshorter joined hheight ih =>
      exact .step ⟨after.property, hoperator⟩ (Bool.eq_false_iff.2 haccepted) (reads_of_ok hright)
        (Nat.not_lt.1 hheight) (ih h)

theorem exists_of_reads_rung
    (hreads : Reads (rung table limit operators tighter) text operand rest) :
    ∃ left mid, Reads tighter text left mid ∧
      Chains table limit operators tighter left mid (.ok (operand, rest)) := by
  obtain ⟨taken, h, rfl, rfl⟩ := hreads.eq_ok
  unfold rung at h
  split at h
  · cases h
  rename_i left hleft
  exact ⟨left.value, left.rest, reads_of_ok hleft, chains_of_ok h⟩

end Chains

/-! ## Whole texts -/

theorem parse_eq_ok_iff {table : OperatorTable} {text : String} {query : Query} :
    parse table limit text = .ok query ↔
      ∃ operand rest, Reads (expression table limit limit) text.toList operand rest ∧
        skipBlanks rest = [] ∧ operand.query = query := by
  constructor
  · intro h
    unfold parse at h
    split at h
    · cases h
    rename_i taken htaken
    split at h
    · rename_i hend
      exact ⟨_, _, reads_of_ok htaken, hend, Except.ok.inj h⟩
    · cases h
  · rintro ⟨operand, rest, ⟨_, hreads⟩, hend, rfl⟩
    simp only [parse, hreads, hend]

end Parser

end PipeQuery
