/-
Names, whole numbers, numerals and keywords as a grammar, and the scanners for them.

A scanner takes a lexeme and leaves the rest; it takes all of a lexeme when what follows does not
continue it.
-/
import PipeQuery.Scan

namespace PipeQuery

namespace Scan

/-- A text that starts with no character of a kind. -/
def Ends (kind : Char → Bool) (rest : List Char) : Prop :=
  ∀ c, rest.head? = some c → kind c = false

variable {kind : Char → Bool} {piece rest : List Char}

theorem takeWhile_append_ends (hpiece : ∀ c ∈ piece, kind c = true) (hrest : Ends kind rest) :
    (piece ++ rest).takeWhile kind = piece := by
  rw [List.takeWhile_append_of_pos hpiece]
  cases rest with
  | nil => simp
  | cons c more => simp [hrest c rfl]

theorem dropWhile_append_ends (hpiece : ∀ c ∈ piece, kind c = true) (hrest : Ends kind rest) :
    (piece ++ rest).dropWhile kind = rest := by
  rw [List.dropWhile_append_of_pos hpiece]
  cases rest with
  | nil => rfl
  | cons c more => simp [hrest c rfl]

theorem ends_dropWhile (kind : Char → Bool) (text : List Char) :
    Ends kind (text.dropWhile kind) := by
  intro c hc
  have hne : text.dropWhile kind ≠ [] := by
    intro hnil
    simp [hnil] at hc
  have hhead := List.head_dropWhile_not kind hne
  rw [List.head?_eq_some_head hne, Option.some.injEq] at hc
  rwa [hc] at hhead

theorem forall_mem_takeWhile (kind : Char → Bool) (text : List Char) :
    ∀ c ∈ text.takeWhile kind, kind c = true := by
  intro c hc
  have hall := List.all_takeWhile (p := kind) (l := text)
  rw [List.all_eq_true] at hall
  exact hall c hc

/-! ## Names -/

theorem isPlainName_iff {name : String} :
    isPlainName name = true ↔
      ∃ c more, name.toList = c :: more ∧ isNameStart c = true ∧
        ∀ d ∈ more, isNameChar d = true := by
  unfold isPlainName
  cases h : name.toList with
  | nil => simp
  | cons c more =>
      simp only [Bool.and_eq_true, List.all_eq_true]
      constructor
      · exact fun hname => ⟨c, more, rfl, hname⟩
      · rintro ⟨c', more', heq, hname⟩
        obtain ⟨rfl, rfl⟩ := List.cons.inj heq
        exact hname

theorem name?_append {name : String} (hname : isPlainName name = true)
    (hrest : Ends isNameChar rest) :
    ∃ shorter, name? (name.toList ++ rest) = some ⟨name, rest, shorter⟩ := by
  obtain ⟨c, more, hlist, hc, hmore⟩ := isPlainName_iff.1 hname
  rw [hlist, List.cons_append]
  refine ⟨by simp only [List.length_append, List.length_cons]; omega, ?_⟩
  simp only [name?, hc, if_true, takeWhile_append_ends hmore hrest,
    dropWhile_append_ends hmore hrest, ← hlist, String.ofList_toList]

theorem isPlainName_of_name? {text : List Char} {taken : Taken String text}
    (h : name? text = some taken) :
    text = taken.value.toList ++ taken.rest ∧ isPlainName taken.value = true := by
  cases text with
  | nil => simp [name?] at h
  | cons c more =>
      by_cases hc : isNameStart c = true
      · simp only [name?, hc, if_true, Option.some.injEq] at h
        subst h
        refine ⟨by simp, isPlainName_iff.2 ⟨c, more.takeWhile isNameChar, by simp, hc, ?_⟩⟩
        exact forall_mem_takeWhile isNameChar more
      · simp [name?, hc] at h

theorem name?_eq_none {text : List Char} (h : ∀ c, text.head? = some c → isNameStart c = false) :
    name? text = none := by
  cases text with
  | nil => rfl
  | cons c more => simp [name?, h c rfl]

/-! ## Whole numbers -/

/-- The digits of a whole number without leading zeros. -/
inductive Whole : List Char → Prop
  | zero : Whole ['0']
  | digits {c : Char} {more : List Char} (hzero : c ≠ '0') (hc : c.isDigit = true)
      (hmore : ∀ d ∈ more, d.isDigit = true) : Whole (c :: more)

theorem isIndexText_iff {text : String} : isIndexText text = true ↔ Whole text.toList := by
  unfold isIndexText
  constructor
  · intro h
    split at h
    · simp at h
    · rename_i heq
      rw [heq]
      exact .zero
    · rename_i c more _ heq
      simp only [Bool.and_eq_true, bne_iff_ne, List.all_eq_true] at h
      rw [heq]
      exact .digits h.1.1 h.1.2 h.2
  · intro h
    generalize text.toList = digits at h
    cases h with
    | zero => rfl
    | digits hzero hc hmore =>
        split
        · contradiction
        · rfl
        · rename_i heq
          obtain ⟨rfl, rfl⟩ := List.cons.inj heq
          simp only [Bool.and_eq_true, bne_iff_ne, List.all_eq_true]
          exact ⟨⟨hzero, hc⟩, hmore⟩

theorem Whole.forall_isDigit {digits : List Char} (h : Whole digits) :
    ∀ c ∈ digits, c.isDigit = true := by
  cases h with
  | zero => simp
  | digits _ hc hmore =>
      intro d hd
      rcases List.mem_cons.1 hd with rfl | hd
      · exact hc
      · exact hmore d hd

theorem Whole.ne_nil {digits : List Char} (h : Whole digits) : digits ≠ [] := by
  cases h <;> simp

theorem whole?_append {digits : List Char} (h : Whole digits) (hrest : Ends Char.isDigit rest) :
    ∃ shorter, whole? (digits ++ rest) = some ⟨digits, rest, shorter⟩ := by
  cases h with
  | zero => exact ⟨by simp, by simp [whole?]⟩
  | digits hzero hc hmore =>
      refine ⟨by simp only [List.length_append, List.length_cons]; omega, ?_⟩
      simp only [List.cons_append, whole?, hzero, hc, if_true, if_false,
        takeWhile_append_ends hmore hrest, dropWhile_append_ends hmore hrest]

theorem whole_of_whole? {text : List Char} {taken : Taken (List Char) text}
    (h : whole? text = some taken) : text = taken.value ++ taken.rest ∧ Whole taken.value := by
  cases text with
  | nil => simp [whole?] at h
  | cons c more =>
      by_cases hzero : c = '0'
      · simp only [whole?, hzero, if_true, Option.some.injEq] at h
        subst h
        exact ⟨by simp [hzero], .zero⟩
      · by_cases hc : c.isDigit = true
        · simp only [whole?, hzero, hc, if_true, if_false, Option.some.injEq] at h
          subst h
          exact ⟨by simp, .digits hzero hc (forall_mem_takeWhile _ _)⟩
        · simp [whole?, hzero, hc] at h

theorem whole?_eq_none {text : List Char} (h : Ends Char.isDigit text) : whole? text = none := by
  cases text with
  | nil => rfl
  | cons c more =>
      have hc := h c rfl
      have hzero : c ≠ '0' := by
        rintro rfl
        simp at hc
      simp [whole?, hzero, hc]

theorem whole_decimal (n : Nat) : Whole (decimal n) := by
  induction n using Nat.strongRecOn with
  | ind n ih =>
      by_cases hn : n < 10
      · rw [decimal, Nat.toDigits_of_lt_base hn]
        by_cases hzero : n = 0
        · subst hzero
          exact .zero
        · exact .digits (by simpa using hzero) (by simpa using hn) (by simp)
      · have hstep := Nat.toDigits_of_base_le (b := 10) (n := n) (by decide) (by omega)
        rw [decimal, hstep]
        have hlast : (n % 10).digitChar.isDigit = true := by simp; omega
        have hfirst := ih (n / 10) (by omega)
        rw [decimal] at hfirst
        generalize hdigits : Nat.toDigits 10 (n / 10) = digits at hfirst
        cases hfirst with
        | zero =>
            have hvalue := congrArg (Nat.ofDigitChars 10 · 0) hdigits
            simp only [Nat.ofDigitChars_toDigits (b := 10) (by decide) (by decide)] at hvalue
            have : n / 10 = 0 := by simpa [Nat.ofDigitChars] using hvalue
            omega
        | digits hzero hc hmore =>
            refine .digits hzero hc ?_
            intro d hd
            rcases List.mem_append.1 hd with hd | hd
            · exact hmore d hd
            · obtain rfl := List.mem_singleton.1 hd
              exact hlast

theorem exists_digitChar {c : Char} (h : c.isDigit = true) : ∃ n < 10, c = n.digitChar := by
  have hcode : '0'.toNat = 48 ∧ '9'.toNat = 57 := by decide
  have hbound := Char.isDigit_iff_toNat.1 h
  have hlt : c.toNat - '0'.toNat < 10 := by omega
  have hvalue := Nat.toNat_digitChar_of_lt_ten hlt
  exact ⟨c.toNat - '0'.toNat, hlt, Char.toNat_inj.1 (by omega)⟩

/-- Digits behind the text of a positive number stay as they are. -/
theorem toDigits_ofDigitChars {digits : List Char} (hdigits : ∀ c ∈ digits, c.isDigit = true)
    {n : Nat} (hpos : 0 < n) :
    Nat.toDigits 10 (Nat.ofDigitChars 10 digits n) = Nat.toDigits 10 n ++ digits := by
  induction digits generalizing n with
  | nil => simp
  | cons c more ih =>
      obtain ⟨d, hd, rfl⟩ := exists_digitChar (hdigits c List.mem_cons_self)
      have hmore : ∀ e ∈ more, e.isDigit = true := fun e he => hdigits e (List.mem_cons_of_mem _ he)
      rw [Nat.ofDigitChars_cons_digitChar_of_lt_ten hd, ih hmore (by omega),
        ← Nat.toDigits_append_toDigits (by decide) hpos hd, Nat.toDigits_of_lt_base hd,
        List.append_assoc, List.singleton_append]

/-- A whole number without leading zeros is the decimal text of its value. -/
theorem decimal_digitsValue {digits : List Char} (h : Whole digits) :
    decimal (digitsValue digits) = digits := by
  cases h with
  | zero => rfl
  | @digits c more hzero hc hmore =>
      obtain ⟨d, hd, rfl⟩ := exists_digitChar hc
      have hpos : 0 < d := Nat.pos_of_ne_zero fun h => hzero (Nat.digitChar_eq_zero.2 h)
      rw [decimal, digitsValue, Nat.ofDigitChars_cons_digitChar_of_lt_ten hd, Nat.mul_zero,
        Nat.zero_add, toDigits_ofDigitChars hmore hpos, Nat.toDigits_of_lt_base hd,
        List.singleton_append]

/-! ## Numerals -/

/-- The digits after a point, and how they are written. -/
inductive Fraction : List Char → List Char → Prop
  | absent : Fraction [] []
  | digits {digits : List Char} (hne : digits ≠ []) (hdigits : ∀ c ∈ digits, c.isDigit = true) :
      Fraction digits ('.' :: digits)

/-- The sign of a power of ten, and how it may be written. -/
inductive Sign : Bool → List Char → Prop
  | absent : Sign false []
  | plus : Sign false ['+']
  | minus : Sign true ['-']

/-- A power of ten, and how it may be written. -/
inductive Exponent : Option Int → List Char → Prop
  | absent : Exponent none []
  | power {e : Char} {negative : Bool} {sign digits : List Char} (he : e = 'e' ∨ e = 'E')
      (hsign : Sign negative sign) (hne : digits ≠ []) (hdigits : ∀ c ∈ digits, c.isDigit = true) :
      Exponent (some (Binary.signed negative (digitsValue digits))) (e :: sign ++ digits)

/-- A numeral and its text `-?(0|[1-9][0-9]*)(\.[0-9]+)?([eE][+-]?[0-9]+)?`. -/
inductive NumeralText : Numeral → List Char → Prop
  | intro {negative : Bool} {whole fraction fractionText exponentText : List Char}
      {exponent : Option Int} (hwhole : Whole whole) (hfraction : Fraction fraction fractionText)
      (hexponent : Exponent exponent exponentText) :
      NumeralText ⟨negative, whole, fraction, exponent⟩
        ((if negative then ['-'] else []) ++ (whole ++ fractionText ++ exponentText))

/-- The characters that may continue the digits of a numeral. -/
def isFractionChar (c : Char) : Bool :=
  c.isDigit || c == '.'

/-- The characters that may continue a numeral. -/
def isNumeralChar (c : Char) : Bool :=
  isFractionChar c || c == 'e' || c == 'E'

theorem ends_isDigit (h : Ends isFractionChar rest) : Ends Char.isDigit rest := by
  intro c hc
  have hkind := h c hc
  simp only [isFractionChar, Bool.or_eq_false_iff] at hkind
  exact hkind.1

theorem ends_isFractionChar (h : Ends isNumeralChar rest) : Ends isFractionChar rest := by
  intro c hc
  have hkind := h c hc
  simp only [isNumeralChar, Bool.or_eq_false_iff] at hkind
  exact hkind.1.1

theorem Fraction.ends_isDigit {digits written : List Char} (h : Fraction digits written)
    (hrest : Ends isFractionChar rest) : Ends Char.isDigit (written ++ rest) := by
  cases h with
  | absent => exact Scan.ends_isDigit hrest
  | digits =>
      intro c hc
      obtain rfl : '.' = c := by simpa using hc
      rfl

theorem Exponent.ends_isFractionChar {power : Option Int} {written : List Char}
    (h : Exponent power written) (hrest : Ends isNumeralChar rest) :
    Ends isFractionChar (written ++ rest) := by
  cases h with
  | absent => exact Scan.ends_isFractionChar hrest
  | @power e negative sign digits he hsign hne hdigits =>
      intro c hc
      obtain rfl : e = c := by simpa using hc
      rcases he with rfl | rfl <;> rfl

theorem fraction_of_fraction (text : List Char) :
    ∃ written, text = written ++ (fraction text).2 ∧ Fraction (fraction text).1 written := by
  fun_cases fraction text with
  | case1 d rest hd =>
      refine ⟨'.' :: (d :: rest.takeWhile Char.isDigit), by simp, .digits (by simp) ?_⟩
      intro c hc
      rcases List.mem_cons.1 hc with rfl | hc
      · exact hd
      · exact forall_mem_takeWhile _ _ c hc
  | case2 => exact ⟨[], rfl, .absent⟩
  | case3 => exact ⟨[], rfl, .absent⟩

theorem fraction_append {digits written : List Char} (h : Fraction digits written)
    (hrest : Ends isFractionChar rest) : fraction (written ++ rest) = (digits, rest) := by
  cases h with
  | absent =>
      rw [List.nil_append, fraction.eq_def]
      split
      · simp [isFractionChar, Ends] at hrest
      · rfl
  | digits hne hdigits =>
      cases digits with
      | nil => contradiction
      | cons d more =>
          have hd := hdigits d (by simp)
          have hmore : ∀ c ∈ more, c.isDigit = true := fun c hc => hdigits c (by simp [hc])
          simp only [List.cons_append, fraction, hd, if_true,
            takeWhile_append_ends hmore (ends_isDigit hrest),
            dropWhile_append_ends hmore (ends_isDigit hrest)]

theorem sign_of_sign (text : List Char) :
    ∃ written, text = written ++ (sign text).2 ∧ Sign (sign text).1 written := by
  fun_cases sign text with
  | case1 => exact ⟨['-'], rfl, .minus⟩
  | case2 => exact ⟨['+'], rfl, .plus⟩
  | case3 => exact ⟨[], rfl, .absent⟩

theorem sign_append {negative : Bool} {written : List Char} {d : Char} (h : Sign negative written)
    (hd : d.isDigit = true) (more : List Char) :
    sign (written ++ d :: more) = (negative, d :: more) := by
  cases h with
  | absent =>
      rw [List.nil_append, sign.eq_def]
      split
      · simp_all
      · simp_all
      · rfl
  | plus => rfl
  | minus => rfl

theorem exponent_of_exponent (text : List Char) :
    ∃ written, text = written ++ (exponent text).2 ∧ Exponent (exponent text).1 written := by
  fun_cases exponent text with
  | case1 => exact ⟨[], rfl, .absent⟩
  | case2 => exact ⟨[], rfl, .absent⟩
  | case3 e rest he negative digits hsign hne =>
      obtain ⟨written, hwritten, hs⟩ := sign_of_sign rest
      rw [hsign] at hwritten hs
      refine ⟨e :: written ++ digits.takeWhile Char.isDigit, ?_, ?_⟩
      · rw [List.append_assoc, List.takeWhile_append_dropWhile, List.cons_append, ← hwritten]
      · exact .power he hs hne (forall_mem_takeWhile _ _)
  | case4 => exact ⟨[], rfl, .absent⟩

theorem exponent_append {power : Option Int} {written : List Char} (h : Exponent power written)
    (hrest : Ends isNumeralChar rest) : exponent (written ++ rest) = (power, rest) := by
  have hdigit : Ends Char.isDigit rest := ends_isDigit (ends_isFractionChar hrest)
  cases h with
  | absent =>
      cases rest with
      | nil => rfl
      | cons c more =>
          have := hrest c rfl
          simp only [isNumeralChar, Bool.or_eq_false_iff, beq_eq_false_iff_ne] at this
          simp [exponent, this.1.2, this.2]
  | @power e negative written digits he hsign hne hdigits =>
      cases digits with
      | nil => contradiction
      | cons d more =>
          have hsplit := sign_append hsign (hdigits d (by simp)) (more ++ rest)
          have htake := takeWhile_append_ends hdigits hdigit
          have hdrop := dropWhile_append_ends hdigits hdigit
          simp only [List.cons_append] at htake hdrop
          simp only [List.cons_append, List.append_assoc, exponent, he, if_true, hsplit, htake,
            hdrop]

theorem numeralText_of_magnitude? {negative : Bool} {text : List Char} {taken : Taken Numeral text}
    (h : magnitude? negative text = some taken) :
    ∃ written, text = written ++ taken.rest ∧
      NumeralText taken.value ((if negative then ['-'] else []) ++ written) := by
  obtain ⟨whole, hwhole, rfl⟩ := Option.map_eq_some_iff.1 h
  obtain ⟨htext, hdigits⟩ := whole_of_whole? hwhole
  obtain ⟨fractionText, hfraction, hfractionText⟩ := fraction_of_fraction whole.rest
  obtain ⟨exponentText, hexponent, hexponentText⟩ :=
    exponent_of_exponent (fraction whole.rest).2
  refine ⟨whole.value ++ fractionText ++ exponentText, ?_,
    .intro hdigits hfractionText hexponentText⟩
  simp only [List.append_assoc]
  rw [← hexponent, ← hfraction, ← htext]

theorem numeralText_of_numeral? {text : List Char} {taken : Taken Numeral text}
    (h : numeral? text = some taken) :
    ∃ written, text = written ++ taken.rest ∧ NumeralText taken.value written := by
  unfold numeral? at h
  split at h
  · obtain ⟨unsigned, hunsigned, rfl⟩ := Option.map_eq_some_iff.1 h
    obtain ⟨written, hwritten, hnumeral⟩ := numeralText_of_magnitude? hunsigned
    exact ⟨'-' :: written, by simp [Taken.widen, ← hwritten], by simpa [Taken.widen] using hnumeral⟩
  · obtain ⟨written, hwritten, hnumeral⟩ := numeralText_of_magnitude? h
    exact ⟨written, hwritten, by simpa using hnumeral⟩

theorem magnitude?_append {whole fraction fractionText exponentText : List Char}
    {exponent : Option Int} (negative : Bool) (hwhole : Whole whole)
    (hfraction : Fraction fraction fractionText) (hexponent : Exponent exponent exponentText)
    (hrest : Ends isNumeralChar rest) :
    ∃ shorter, magnitude? negative (whole ++ (fractionText ++ (exponentText ++ rest))) =
      some ⟨⟨negative, whole, fraction, exponent⟩, rest, shorter⟩ := by
  have hafter := hexponent.ends_isFractionChar hrest
  obtain ⟨hshorter, htaken⟩ := whole?_append hwhole (hfraction.ends_isDigit hafter)
  refine ⟨Nat.lt_of_le_of_lt ?_ hshorter, ?_⟩
  · simp only [List.length_append]
    omega
  · simp only [magnitude?, htaken, Option.map_some, fraction_append hfraction hafter,
      exponent_append hexponent hrest]

theorem numeral?_minus (text : List Char) :
    numeral? ('-' :: text) = (magnitude? true text).map (·.widen (Nat.le_succ _)) := rfl

theorem numeral?_of_head_ne {text : List Char} (h : text.head? ≠ some '-') :
    numeral? text = magnitude? false text := by
  unfold numeral?
  split
  · simp at h
  · rfl

theorem Whole.head?_ne_minus {whole : List Char} (h : Whole whole) (more : List Char) :
    (whole ++ more).head? ≠ some '-' := by
  cases h with
  | zero => simp
  | digits _ hc _ =>
      simp only [List.cons_append, List.head?_cons, ne_eq, Option.some.injEq]
      rintro rfl
      simp at hc

/-- A numeral is read as its magnitude is, behind the sign if there is one. -/
theorem numeral?_of_magnitude? {negative : Bool} {text : List Char} (hhead : text.head? ≠ some '-')
    {taken : Taken Numeral text} (h : magnitude? negative text = some taken) :
    ∃ shorter, numeral? ((if negative then ['-'] else []) ++ text) =
      some ⟨taken.value, taken.rest, shorter⟩ := by
  cases negative with
  | true =>
      refine ⟨Nat.lt_succ_of_lt taken.shorter, ?_⟩
      show numeral? ('-' :: text) = _
      rw [numeral?_minus, h]
      rfl
  | false =>
      refine ⟨taken.shorter, ?_⟩
      show numeral? text = _
      rw [numeral?_of_head_ne hhead, h]
      rfl

/-- A numeral that nothing continues is read in full. -/
theorem numeral?_append {numeral : Numeral} {written : List Char}
    (h : NumeralText numeral written) (hrest : Ends isNumeralChar rest) :
    ∃ shorter, numeral? (written ++ rest) = some ⟨numeral, rest, shorter⟩ := by
  cases h with
  | @intro negative whole fraction fractionText exponentText exponent hwhole hfraction hexponent =>
      obtain ⟨_, hmagnitude⟩ := magnitude?_append negative hwhole hfraction hexponent hrest
      have hsplit : (if negative then ['-'] else []) ++ (whole ++ fractionText ++ exponentText) ++
          rest = (if negative then ['-'] else []) ++
            (whole ++ (fractionText ++ (exponentText ++ rest))) := by
        simp only [List.append_assoc]
      rw [hsplit]
      exact numeral?_of_magnitude? (hwhole.head?_ne_minus _) hmagnitude

theorem numeral?_eq_none {text : List Char} (hdigit : Ends Char.isDigit text)
    (hminus : text.head? ≠ some '-') : numeral? text = none := by
  rw [numeral?_of_head_ne hminus, magnitude?, whole?_eq_none hdigit]
  rfl

/-! ## Keywords -/

/-- The word for a Boolean, and the one for null. -/
def keywordText : Option Bool → List Char
  | some true => ['t', 'r', 'u', 'e']
  | some false => ['f', 'a', 'l', 's', 'e']
  | none => ['n', 'u', 'l', 'l']

theorem keyword?_append (word : Option Bool) (rest : List Char) :
    ∃ shorter, keyword? (keywordText word ++ rest) = some ⟨word, rest, shorter⟩ := by
  rcases word with _ | _ | _ <;> exact ⟨by simp [keywordText]; omega, rfl⟩

theorem eq_append_of_keyword? {text : List Char} {taken : Taken (Option Bool) text}
    (h : keyword? text = some taken) : text = keywordText taken.value ++ taken.rest := by
  unfold keyword? at h
  split at h <;> simp at h <;> subst h <;> rfl

theorem keyword?_eq_none {text : List Char} {c : Char} (hlist : text = c :: rest)
    (hc : c ∉ ['t', 'f', 'n']) : keyword? text = none := by
  refine Option.eq_none_iff_forall_ne_some.2 fun taken htaken => hc ?_
  have htext := hlist.symm.trans (eq_append_of_keyword? htaken)
  generalize taken.value = word at htext
  rcases word with _ | _ | _ <;> simp [(List.cons.inj htext).1]

end Scan

end PipeQuery
