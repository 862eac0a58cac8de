/-
Characters outside string literals, and brackets that match.

What brackets and commas say is read off the characters outside string literals.  Tokens have no
bracket among them; whatever the grammar writes leaves as many brackets open as it found and touches
none of them, so two pieces that start at one place of a text and are both written by the grammar
end apart only where nothing closes between them.
-/
import Mathlib.Tactic.SplitIfs
import PipeQuery.Proofs.Continuation

namespace PipeQuery

namespace Parser

open Grammar

/-- Whether a place of a text is in a string literal. -/
inductive Quoting where
  | outside
  | inside
  /-- Inside, after a backslash. -/
  | escaped
  deriving DecidableEq

/-- The characters of a text that stand outside string literals, and where the text ends. -/
def outer : Quoting → List Char → List Char × Quoting
  | quoting, [] => ([], quoting)
  | .outside, c :: text =>
    if c = '"' then outer .inside text
    else (c :: (outer .outside text).1, (outer .outside text).2)
  | .inside, c :: text =>
    outer (if c = '\\' then .escaped else if c = '"' then .outside else .inside) text
  | .escaped, _ :: text => outer .inside text

/-- The text cuts no string literal, and `chars` stand outside them. -/
def Outer (text chars : List Char) : Prop :=
  outer .outside text = (chars, .outside)

/-- The number of open brackets after a character; none after a bracket that closes nothing, and
none after a comma outside all brackets, where these are not allowed. -/
def nestStep (commas : Bool) (depth : Nat) (c : Char) : Option Nat :=
  if c = '(' ∨ c = '[' ∨ c = '\x7b' then some (depth + 1)
  else if c = ',' then if depth = 0 ∧ commas = false then none else some depth
  else if isCloser c then if depth = 0 then none else some (depth - 1)
  else some depth

/-- The number of open brackets after a text. -/
def nest (commas : Bool) (depth : Nat) (chars : List Char) : Option Nat :=
  chars.foldlM (nestStep commas) depth

/-- No bracket of the text is open at its end, and none is closed that was open before. -/
def Balanced (commas : Bool) (text : List Char) : Prop :=
  ∃ chars, Outer text chars ∧ nest commas 0 chars = some 0

variable {commas commas' : Bool} {text text' chars chars' : List Char} {depth depth' : Nat}

/-! ## Characters outside string literals -/

theorem outer_append (quoting : Quoting) (text text' : List Char) :
    outer quoting (text ++ text') =
      ((outer quoting text).1 ++ (outer (outer quoting text).2 text').1,
        (outer (outer quoting text).2 text').2) := by
  induction text generalizing quoting with
  | nil => rfl
  | cons c text ih =>
      cases quoting with
      | outside =>
          by_cases hc : c = '"'
          · simp only [List.cons_append, outer, hc, if_true, ih]
          · simp only [List.cons_append, outer, hc, if_false, ih]
      | inside => simp only [List.cons_append, outer, ih]
      | escaped => simp only [List.cons_append, outer, ih]

theorem outer_nil : Outer [] [] :=
  rfl

theorem Outer.append (h : Outer text chars) (h' : Outer text' chars') :
    Outer (text ++ text') (chars ++ chars') := by
  rw [Outer, outer_append, h, h']

theorem Outer.exists_of_append (h : Outer text chars) {whole : List Char}
    (hwhole : Outer (text ++ text') whole) :
    ∃ chars', Outer text' chars' ∧ whole = chars ++ chars' := by
  rw [Outer, outer_append, h, Prod.mk.injEq] at hwhole
  exact ⟨_, Prod.ext rfl hwhole.2, hwhole.1.symm⟩

/-- A last character that is no quote ends no string literal. -/
theorem Outer.exists_of_concat {c : Char} (hc : c ≠ '"') (h : Outer (text ++ [c]) chars) :
    ∃ chars', Outer text chars' ∧ chars = chars' ++ [c] := by
  rw [Outer, outer_append, Prod.mk.injEq] at h
  obtain ⟨hchars, hend⟩ := h
  cases hquoting : (outer .outside text).2 with
  | outside =>
      refine ⟨(outer .outside text).1, Prod.ext rfl hquoting, ?_⟩
      rw [← hchars, hquoting]
      simp [outer, hc]
  | inside =>
      rw [hquoting] at hend
      by_cases hescape : c = '\\' <;> simp [outer, hc, hescape] at hend
  | escaped =>
      rw [hquoting] at hend
      simp [outer] at hend

theorem outer_of_ne (h : ∀ c ∈ text, c ≠ '"') : Outer text text := by
  induction text with
  | nil => exact outer_nil
  | cons c text ih =>
      have hrest := ih fun d hd => h d (List.mem_cons_of_mem c hd)
      rw [Outer, outer, if_neg (h c List.mem_cons_self), hrest]

theorem outer_inside_of_split? {body after : List Char}
    (h : Quoted.split? text = some (body, after)) : outer .inside body = ([], .inside) := by
  fun_induction Quoted.split? text generalizing body after with
  | case1 => cases h
  | case2 rest =>
      obtain ⟨rfl, -⟩ : [] = body ∧ rest = after := by simpa using h
      rfl
  | case3 c rest ih =>
      obtain ⟨⟨inner, left⟩, hsplit, heq⟩ := Option.map_eq_some_iff.1 h
      obtain ⟨rfl, -⟩ : '\\' :: c :: inner = body ∧ left = after := by simpa using heq
      rw [outer, if_pos rfl, outer]
      exact ih hsplit
  | case4 c rest hquote hescaped ih =>
      obtain ⟨⟨inner, left⟩, hsplit, heq⟩ := Option.map_eq_some_iff.1 h
      obtain ⟨rfl, -⟩ : c :: inner = body ∧ left = after := by simpa using heq
      have hbackslash : c ≠ '\\' := by
        rintro rfl
        cases rest with
        | nil => simp [Quoted.split?] at hsplit
        | cons d others => exact hescaped d others rfl rfl
      have hquote : c ≠ '"' := hquote
      rw [outer, if_neg hbackslash, if_neg hquote]
      exact ih hsplit

theorem outer_stringLiteral {value : String} (h : StringLiteral text value) : Outer text [] := by
  obtain ⟨body, rfl, hbody⟩ := h
  have hinside := outer_inside_of_split? (Quoted.split?_append hbody [])
  rw [List.cons_append, Outer, outer, if_pos rfl, outer_append, hinside]
  rfl

/-! ## Tokens -/

/-- A character that is no bracket, no quote and no comma. -/
def isFlat (c : Char) : Bool :=
  c != '"' && c != '(' && c != '[' && c != '\x7b' && !isCloser c

/-- A text that has nothing but such characters outside string literals. -/
def Smooth (text : List Char) : Prop :=
  ∃ chars, Outer text chars ∧ ∀ c ∈ chars, isFlat c = true

theorem Smooth.append (h : Smooth text) (h' : Smooth text') : Smooth (text ++ text') := by
  obtain ⟨chars, hchars, hflat⟩ := h
  obtain ⟨chars', hchars', hflat'⟩ := h'
  refine ⟨chars ++ chars', hchars.append hchars', fun c hc => ?_⟩
  exact (List.mem_append.1 hc).elim (hflat c) (hflat' c)

theorem smooth_of_isFlat (h : ∀ c ∈ text, isFlat c = true) : Smooth text := by
  refine ⟨text, outer_of_ne fun c hc => ?_, h⟩
  rintro rfl
  exact absurd (h _ hc) (by decide)

/-- A character of a kind that no bracket, no quote and no comma is of. -/
theorem isFlat_of_kind {kind : Char → Bool} {c : Char} (hc : kind c = true)
    (hkind : (['"', '(', '[', '\x7b', ',', ')', ']', '\x7d'].all fun d => !kind d) = true) :
    isFlat c = true := by
  have hne (d : Char) (hd : d ∈ ['"', '(', '[', '\x7b', ',', ')', ']', '\x7d']) : c ≠ d := by
    rintro rfl
    have hnot := List.all_eq_true.1 hkind c hd
    simp [hc] at hnot
  simp only [isFlat, isCloser, Bool.and_eq_true, bne_iff_ne, Bool.not_eq_true',
    Bool.or_eq_false_iff, beq_eq_false_iff_ne]
  simp [hne]

theorem smooth_of_blank (h : Blank text) : Smooth text :=
  smooth_of_isFlat fun c hc => isFlat_of_kind (h c hc) (by decide)

theorem smooth_digits {digits : List Char} (h : ∀ c ∈ digits, c.isDigit = true) : Smooth digits :=
  smooth_of_isFlat fun c hc => isFlat_of_kind (h c hc) (by decide)

theorem smooth_stringLiteral {value : String} (h : StringLiteral text value) : Smooth text :=
  ⟨[], outer_stringLiteral h, by simp⟩

theorem smooth_isPlainName {name : String} (h : isPlainName name = true) : Smooth name.toList := by
  obtain ⟨c, others, hlist, hc, hothers⟩ := Scan.isPlainName_iff.1 h
  rw [hlist]
  refine smooth_of_isFlat (List.forall_mem_cons.2 ⟨isFlat_of_kind hc (by decide), ?_⟩)
  exact fun d hd => isFlat_of_kind (hothers d hd) (by decide)

theorem smooth_point : Smooth ['.'] :=
  smooth_of_isFlat (List.forall_mem_singleton.2 (by decide))

theorem smooth_numeralText {numeral : Numeral} (h : Scan.NumeralText numeral text) :
    Smooth text := by
  obtain ⟨hwhole, hfraction, hexponent⟩ := h
  rename_i negative whole fraction fractionText exponentText exponent
  have hnil : Smooth [] := ⟨[], outer_nil, by simp⟩
  have hminus : Smooth ['-'] := smooth_of_isFlat (List.forall_mem_singleton.2 (by decide))
  have hsign : Smooth (if negative then ['-'] else []) := by
    cases negative with
    | false => exact hnil
    | true => exact hminus
  have hfraction' : Smooth fractionText := by
    cases hfraction with
    | absent => exact hnil
    | digits _ hdigits => exact smooth_point.append (smooth_digits hdigits)
  have hexponent' : Smooth exponentText := by
    cases hexponent with
    | absent => exact hnil
    | @power e negative sign digits he hsign _ hdigits =>
        have hletter : Smooth [e] := by
          refine smooth_of_isFlat (List.forall_mem_singleton.2 ?_)
          rcases he with rfl | rfl <;> decide
        have hsign' : Smooth sign := by
          cases hsign with
          | absent => exact hnil
          | minus => exact hminus
          | plus => exact smooth_of_isFlat (List.forall_mem_singleton.2 (by decide))
        exact (hletter.append hsign').append (smooth_digits hdigits)
  exact hsign.append (((smooth_digits hwhole.forall_isDigit).append hfraction').append hexponent')

theorem smooth_keyword (word : Option Bool) : Smooth (Scan.keywordText word) := by
  have h := smooth_isPlainName (isPlainName_keywordText word)
  rwa [String.toList_ofList] at h

theorem smooth_literalText {value : Value} (h : LiteralText text value) : Smooth text := by
  cases h with
  | string h => exact smooth_stringLiteral h
  | number h => exact smooth_numeralText h
  | bool b => exact smooth_keyword (some b)
  | null => exact smooth_keyword none

theorem smooth_keyText {key : String} (h : KeyText text key) : Smooth text := by
  cases h with
  | quoted h => exact smooth_stringLiteral h
  | name h => exact smooth_isPlainName h
  | whole h => exact smooth_digits h.forall_isDigit

theorem smooth_pathText {keys : List String} (h : PathText text keys) : Smooth text := by
  induction h with
  | last h => exact smooth_keyText h
  | step h _ ih => exact (smooth_keyText h).append (smooth_point.append ih)

/-- A key and its colon. -/
theorem smooth_label {before keyText colon colon' : List Char} {key : String}
    (hbefore : Blank before)
    (hkey : KeyText keyText key) (hcolon : Blank colon) (hcolon' : Blank colon') :
    Smooth (before ++ keyText ++ colon ++ ':' :: colon') := by
  have hpoints : Smooth [':'] := smooth_of_isFlat (List.forall_mem_singleton.2 (by decide))
  have hpiece := (((smooth_of_blank hbefore).append (smooth_keyText hkey)).append
    (smooth_of_blank hcolon)).append (hpoints.append (smooth_of_blank hcolon'))
  exact hpiece

/-! ## Balanced texts -/

theorem nest_append (commas : Bool) (depth : Nat) (chars chars' : List Char) :
    nest commas depth (chars ++ chars') = (nest commas depth chars).bind (nest commas · chars') :=
  List.foldlM_append

theorem nest_trans {depth'' : Nat} (h : nest commas depth chars = some depth')
    (h' : nest commas depth' chars' = some depth'') :
    nest commas depth (chars ++ chars') = some depth'' := by
  rw [nest_append, h, Option.bind_some, h']

theorem nestStep_lift (k : Nat) (hcommas : commas = true → 0 < k ∨ commas' = true) {c : Char}
    (h : nestStep commas depth c = some depth') :
    nestStep commas' (depth + k) c = some (depth' + k) := by
  unfold nestStep at h ⊢
  split_ifs at h ⊢ <;> simp_all <;> omega

/-- Inside more brackets a text nests as it does alone. -/
theorem nest_lift (k : Nat) (hcommas : commas = true → 0 < k ∨ commas' = true)
    (h : nest commas depth chars = some depth') :
    nest commas' (depth + k) chars = some (depth' + k) := by
  induction chars generalizing depth with
  | nil =>
      obtain rfl : depth = depth' := by simpa [nest] using h
      rfl
  | cons c chars ih =>
      obtain ⟨mid, hstep, hrest⟩ := Option.bind_eq_some_iff.1 h
      exact Option.bind_eq_some_iff.2 ⟨_, nestStep_lift k hcommas hstep, ih hrest⟩

theorem Balanced.append (h : Balanced commas text) (h' : Balanced commas text') :
    Balanced commas (text ++ text') := by
  obtain ⟨chars, hchars, hnest⟩ := h
  obtain ⟨chars', hchars', hnest'⟩ := h'
  exact ⟨chars ++ chars', hchars.append hchars', nest_trans hnest hnest'⟩

theorem Balanced.allow (h : Balanced false text) : Balanced true text := by
  obtain ⟨chars, hchars, hnest⟩ := h
  exact ⟨chars, hchars, @nest_lift false true _ _ _ 0 nofun hnest⟩

theorem nest_of_isFlat (h : ∀ c ∈ chars, isFlat c = true) :
    nest commas depth chars = some depth := by
  induction chars with
  | nil => rfl
  | cons c chars ih =>
      have hc := h c List.mem_cons_self
      simp only [isFlat, Bool.and_eq_true, bne_iff_ne, Bool.not_eq_true'] at hc
      obtain ⟨⟨⟨⟨_, hparenthesis⟩, hbracket⟩, hbrace⟩, hcloser⟩ := hc
      have hcomma : c ≠ ',' := ne_of_isCloser hcloser (by decide)
      have hstep : nestStep commas depth c = some depth := by
        simp [nestStep, hparenthesis, hbracket, hbrace, hcloser, hcomma]
      exact Option.bind_eq_some_iff.2
        ⟨depth, hstep, ih fun d hd => h d (List.mem_cons_of_mem c hd)⟩

theorem Smooth.balanced (h : Smooth text) : Balanced commas text := by
  obtain ⟨chars, hchars, hflat⟩ := h
  exact ⟨chars, hchars, nest_of_isFlat hflat⟩

theorem balanced_comma : Balanced true [','] :=
  ⟨[','], rfl, rfl⟩

/-- Brackets around a balanced text; commas are allowed inside. -/
theorem balanced_enclosed {opening closing : Char}
    (hopening : opening = '(' ∨ opening = '[' ∨ opening = '\x7b')
    (hclosing : closing = ')' ∨ closing = ']' ∨ closing = '\x7d') (h : Balanced true text) :
    Balanced commas (opening :: text ++ [closing]) := by
  obtain ⟨chars, hchars, hnest⟩ := h
  have hopen : Outer [opening] [opening] ∧ nest commas 0 [opening] = some 1 := by
    rcases hopening with rfl | rfl | rfl <;> exact ⟨rfl, rfl⟩
  have hclose : Outer [closing] [closing] ∧ nest commas 1 [closing] = some 0 := by
    rcases hclosing with rfl | rfl | rfl <;> exact ⟨rfl, rfl⟩
  have hinside := @nest_lift true commas _ _ _ 1 (fun _ => .inl Nat.one_pos) hnest
  exact ⟨[opening] ++ chars ++ [closing], (hopen.1.append hchars).append hclose.1,
    nest_trans (nest_trans hopen.2 hinside) hclose.2⟩

/-! ## Expressions -/

/-- No symbol of an operator of the table has a bracket, a quote or a comma. -/
def FlatSymbols (table : OperatorTable) : Prop :=
  ∀ group ∈ table.groups, ∀ entry ∈ group, ∀ c ∈ entry.2.toList, isFlat c = true

variable {table : OperatorTable}

theorem FlatSymbols.smooth (hflat : FlatSymbols table) {group : OperatorGroup} {level : Nat}
    {name symbol : String} (hgroup : table.groups[level]? = some group)
    (hsymbol : (name, symbol) ∈ group) : Smooth symbol.toList :=
  smooth_of_isFlat (hflat group (List.mem_of_getElem? hgroup) _ hsymbol)

mutual

theorem balanced_expression (hflat : FlatSymbols table) {level : Nat} {bare : Bool} {query : Query}
    {text : List Char} : Expression table level bare text query → Balanced false text
  | .literal h => (smooth_literalText h).balanced
  | .path h => (smooth_point.append (smooth_pathText h)).balanced
  | .call hname hblanks hargs => by
      have hinner := balanced_operands hflat hargs
      have hlist := @balanced_enclosed false _ '(' ')' (.inl rfl) (.inl rfl) hinner
      have hopening := (smooth_isPlainName hname).append (smooth_of_blank hblanks)
      simpa using hopening.balanced.append hlist
  | .object h => balanced_enclosed (.inr (.inr rfl)) (.inr (.inr rfl)) (balanced_members hflat h)
  | .array h => balanced_enclosed (.inr (.inl rfl)) (.inr (.inl rfl)) (balanced_operands hflat h)
  | .parentheses hbefore h hafter => by
      have hinner :=
        ((smooth_of_blank hbefore).balanced.append (balanced_expression hflat h)).append
        (smooth_of_blank hafter).balanced
      simpa using @balanced_enclosed false _ '(' ')' (.inl rfl) (.inl rfl) hinner.allow
  | .looser h _ => balanced_expression hflat h
  | .infixed hgroup hsymbol hleft hbefore hafter hright _ =>
      ((((balanced_expression hflat hleft).append (smooth_of_blank hbefore).balanced).append
        (hflat.smooth hgroup hsymbol).balanced).append (smooth_of_blank hafter).balanced).append
          (balanced_expression hflat hright)

theorem balanced_operands (hflat : FlatSymbols table) {queries : List Query} {text : List Char} :
    Operands table text queries → Balanced true text
  | .none h => (smooth_of_blank h).balanced
  | .last hbefore h hafter =>
      ((smooth_of_blank hbefore).balanced.append (balanced_expression hflat h).allow).append
        (smooth_of_blank hafter).balanced
  | .cons hbefore h hafter hrest =>
      (((smooth_of_blank hbefore).balanced.append (balanced_expression hflat h).allow).append
        (smooth_of_blank hafter).balanced).append
          (balanced_comma.append (balanced_operands hflat hrest))

theorem balanced_members (hflat : FlatSymbols table) {entries : List (String × Query)}
    {text : List Char} : Members table text entries → Balanced true text
  | .none h => (smooth_of_blank h).balanced
  | .last hbefore hkey hcolon hcolon' h hafter =>
      ((smooth_label hbefore hkey hcolon hcolon').balanced.append
        (balanced_expression hflat h).allow).append (smooth_of_blank hafter).balanced
  | .cons hbefore hkey hcolon hcolon' h hafter hrest =>
      (((smooth_label hbefore hkey hcolon hcolon').balanced.append
        (balanced_expression hflat h).allow).append (smooth_of_blank hafter).balanced).append
          (balanced_comma.append (balanced_members hflat hrest))

end

theorem flatSymbols_builtin : FlatSymbols .builtin := by
  have hall : ∀ group ∈ OperatorTable.builtin.groups, ∀ entry ∈ group,
      entry.2.toList.all isFlat = true := by decide
  exact fun group hgroup entry hentry => List.all_eq_true.1 (hall group hgroup entry hentry)

end Parser

end PipeQuery
