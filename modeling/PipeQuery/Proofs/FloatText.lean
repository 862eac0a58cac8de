/-
The text of a finite float reads back as the float.
-/
import PipeQuery.Value
import PipeQuery.Proofs.Scientific
import PipeQuery.Proofs.ShortestDigits

namespace PipeQuery

open Double (Canonical RoundsTo)
open Shortest (Significant)
open Scan (Whole Fraction Exponent NumeralText)

/-! ## Numerals without sign -/

/-- The text is a numeral with a fraction or a power of ten, and it denotes `v`. -/
structure Magnitude (text : List Char) (v : ℚ) (whole fraction : List Char)
    (exponent : Option Int) :
    Prop where
  text : ∃ fractionText exponentText, Whole whole ∧ Fraction fraction fractionText ∧
    Exponent exponent exponentText ∧ text = whole ++ fractionText ++ exponentText
  real : (fraction.isEmpty && exponent.isNone) = false
  value : (digitsValue (whole ++ fraction) * 10 ^ (exponent.getD 0 - fraction.length) : ℚ) = v

/-- What significant digits denote, the first of them at `10 ^ exponent`. -/
def decimalValue (digits : List Char) (exponent : Int) : ℚ :=
  digitsValue digits * 10 ^ (exponent + 1 - digits.length)

theorem digitsValue_append_zeros (digits : List Char) (zeros : Nat) :
    digitsValue (digits ++ List.replicate zeros '0') = digitsValue digits * 10 ^ zeros := by
  rw [digitsValue, Nat.ofDigitChars_append, Nat.ofDigitChars_replicate_zero, digitsValue, mul_comm]

theorem digitsValue_zeros_append (zeros : Nat) (digits : List Char) :
    digitsValue (List.replicate zeros '0' ++ digits) = digitsValue digits := by
  rw [digitsValue, Nat.ofDigitChars_append, Nat.ofDigitChars_replicate_zero, mul_zero, digitsValue]

theorem Shortest.Significant.whole {digits : List Char} (h : Significant digits) :
    Whole digits := by
  cases h with
  | intro hzero hc hmore => exact .digits hzero hc hmore

theorem exponentText_scientific (exponent : Int) :
    Exponent (some exponent)
      ('e' :: (if exponent < 0 then '-' else '+') :: decimal exponent.natAbs) := by
  have hdigits := (Scan.whole_decimal exponent.natAbs).forall_isDigit
  have hne := (Scan.whole_decimal exponent.natAbs).ne_nil
  have hvalue := digitsValue_decimal exponent.natAbs
  by_cases hneg : exponent < 0
  · have hsigned : exponent = Binary.signed true (digitsValue (decimal exponent.natAbs)) := by
      rw [hvalue, Binary.signed]
      simp only [if_true]
      omega
    rw [if_pos hneg]
    conv => arg 1; rw [hsigned]
    exact .power (.inl rfl) .minus hne hdigits
  · have hsigned : exponent = Binary.signed false (digitsValue (decimal exponent.natAbs)) := by
      rw [hvalue, Binary.signed]
      simp only [Bool.false_eq_true, if_false]
      omega
    rw [if_neg hneg]
    conv => arg 1; rw [hsigned]
    exact .power (.inl rfl) .plus hne hdigits

theorem magnitude_scientific {digits : List Char} (h : Significant digits) (exponent : Int) :
    ∃ whole fraction power, Magnitude (FloatStyle.scientific digits exponent)
      (decimalValue digits exponent) whole fraction power := by
  have hexponent := exponentText_scientific exponent
  cases h with
  | @intro c more hzero hc hmore =>
    refine ⟨[c], more, some exponent, ⟨?_, by simp, ?_⟩⟩
    · cases more with
      | nil => exact ⟨[], _, .digits hzero hc (by simp), .absent, hexponent, rfl⟩
      | cons d rest =>
        exact ⟨_, _, .digits hzero hc (by simp), .digits (by simp) hmore, hexponent, by
          simp [FloatStyle.scientific]⟩
    · rw [decimalValue, List.singleton_append, Option.getD_some, List.length_cons]
      congr 2
      push_cast
      ring

theorem Whole.append {digits more : List Char} (h : Significant digits)
    (hmore : ∀ d ∈ more, d.isDigit = true) : Whole (digits ++ more) := by
  cases h with
  | intro hzero hc hrest =>
    refine .digits hzero hc fun d hd => ?_
    rcases List.mem_append.1 hd with hd | hd
    · exact hrest d hd
    · exact hmore d hd

theorem isDigit_of_mem_zeros {zeros : Nat} {c : Char} (h : c ∈ List.replicate zeros '0') :
    c.isDigit = true := by
  rw [(List.mem_replicate.1 h).2]
  rfl

/-- Below one: zeros after the point, and then the digits. -/
theorem magnitude_below_one {digits : List Char} (h : Significant digits) {exponent : Int}
    (hneg : exponent < 0) :
    Magnitude ('0' :: '.' :: List.replicate (-exponent - 1).toNat '0' ++ digits)
      (decimalValue digits exponent) ['0'] (List.replicate (-exponent - 1).toNat '0' ++ digits)
      none := by
  have hne := h.whole.ne_nil
  refine ⟨⟨_, [], .zero, .digits (by simp [hne]) ?_, .absent, by simp⟩, by simp [hne], ?_⟩
  · intro c hc
    rcases List.mem_append.1 hc with hc | hc
    · exact isDigit_of_mem_zeros hc
    · exact h.whole.forall_isDigit c hc
  · have hvalue : digitsValue (['0'] ++ (List.replicate (-exponent - 1).toNat '0' ++ digits)) =
        digitsValue digits :=
      digitsValue_zeros_append ((-exponent - 1).toNat + 1) digits
    rw [hvalue, decimalValue, Option.getD_none, List.length_append, List.length_replicate]
    congr 2
    push_cast
    omega

/-- An integer: zeros after the digits, and one more after the point. -/
theorem magnitude_integer {digits : List Char} (h : Significant digits) (zeros : Nat) :
    Magnitude (digits ++ List.replicate zeros '0' ++ ['.', '0'])
      (decimalValue digits (digits.length + zeros - 1)) (digits ++ List.replicate zeros '0') ['0']
      none := by
  refine ⟨⟨['.', '0'], [], Whole.append h fun d hd => isDigit_of_mem_zeros hd,
    .digits (by simp) (by simp), .absent, by simp⟩, rfl, ?_⟩
  have hvalue : digitsValue (digits ++ List.replicate zeros '0' ++ ['0']) =
      digitsValue digits * 10 ^ (zeros + 1) := by
    have hzeros : digits ++ List.replicate zeros '0' ++ ['0'] =
        digits ++ List.replicate (zeros + 1) '0' := by
      rw [List.append_assoc, ← List.replicate_succ']
    rw [hzeros, digitsValue_append_zeros]
  have hexponent : ((digits.length : Int) + zeros - 1 + 1 - digits.length) = zeros := by omega
  rw [hvalue, decimalValue, hexponent, zpow_natCast, Nat.cast_mul, pow_succ]
  simp
  ring

/-- Digits on both sides of the point. -/
theorem magnitude_split {whole fraction : List Char} (h : Significant whole)
    (hne : fraction ≠ []) (hfraction : ∀ d ∈ fraction, d.isDigit = true) :
    Magnitude (whole ++ '.' :: fraction) (decimalValue (whole ++ fraction) (whole.length - 1))
      whole fraction none := by
  refine ⟨⟨_, [], h.whole, .digits hne hfraction, .absent, by simp⟩, by simp [hne], ?_⟩
  rw [decimalValue, Option.getD_none, List.length_append]
  congr 2
  push_cast
  ring

theorem Shortest.Significant.take {digits : List Char} (h : Significant digits) (size : Nat) :
    Significant (digits.take (size + 1)) := by
  cases h with
  | intro hzero hc hmore => exact .intro hzero hc fun d hd => hmore d (List.mem_of_mem_take hd)

theorem magnitude_plain {digits : List Char} (h : Significant digits) (exponent : Int) :
    ∃ whole fraction power, Magnitude (FloatStyle.plain digits exponent)
      (decimalValue digits exponent) whole fraction power := by
  by_cases hneg : exponent < 0
  · rw [FloatStyle.plain, if_pos hneg]
    exact ⟨_, _, _, magnitude_below_one h hneg⟩
  · rw [FloatStyle.plain, if_neg hneg]
    simp only
    generalize hsize : exponent.toNat + 1 = size
    by_cases hlong : digits.length ≤ size
    · have hwhole : (digits ++ List.replicate (size - digits.length) '0').take size =
          digits ++ List.replicate (size - digits.length) '0' := by
        refine List.take_of_length_le ?_
        rw [List.length_append, List.length_replicate]
        omega
      have hexponent : exponent = digits.length + (size - digits.length : Nat) - 1 := by omega
      have hmagnitude := magnitude_integer h (size - digits.length)
      rw [List.drop_of_length_le hlong, hwhole]
      rw [← hexponent] at hmagnitude
      exact ⟨_, _, _, hmagnitude⟩
    · have hwhole : (digits ++ List.replicate (size - digits.length) '0').take size =
          digits.take size := by
        rw [Nat.sub_eq_zero_of_le (by omega), List.replicate_zero, List.append_nil]
      have hexponent : exponent = (digits.take size).length - 1 := by
        rw [List.length_take]
        omega
      have hne : digits.drop size ≠ [] := by
        rw [Ne, List.drop_eq_nil_iff]
        exact hlong
      have htake : Significant (digits.take size) := by
        rw [← hsize]
        exact h.take _
      have hmagnitude := magnitude_split htake hne fun d hd =>
        h.whole.forall_isDigit d (List.mem_of_mem_drop hd)
      rw [← hexponent, List.take_append_drop] at hmagnitude
      rw [hwhole]
      split
      · rename_i hdrop
        exact absurd hdrop hne
      · exact ⟨_, _, _, hmagnitude⟩

/-! ## Finite floats -/

/-- The text of the float is a numeral for exactly this float. -/
def Exact (x : Float) : Prop :=
  x.isFinite = true ∧
    ∃ numeral, NumeralText numeral (floatText x).toList ∧ Value.ofNumeral numeral = .float x

theorem ofNumeral_of_real {numeral : Numeral} (h : numeral.isIntegral = false) :
    Value.ofNumeral numeral = .float numeral.toFloat := by
  rw [Value.ofNumeral, h, Bool.false_and, if_neg Bool.false_ne_true]

theorem neg_pack {m : Nat} {q : Int} (h : Canonical m q) :
    -Float.ofModel (.pack (.finite .positive m q h.pos)) =
      .ofModel (.pack (.finite .negative m q h.pos)) := by
  show Float.ofModel (.pack (Float.Model.unpack _).neg) = _
  rw [Double.unpack_pack h]
  rfl

/-- A numeral in the rounding interval of a double is read as this double. -/
theorem toFloat_of_magnitude {m : Nat} {q : Int} (hcanonical : Canonical m q)
    {text whole fraction : List Char} {v : ℚ} {exponent : Option Int}
    (h : Magnitude text v whole fraction exponent) (hv : RoundsTo m q v) (negative : Bool) :
    Numeral.toFloat ⟨negative, whole, fraction, exponent⟩ =
      .ofModel (.pack
        (.finite (if negative then .negative else .positive) m q hcanonical.pos)) := by
  rw [← h.value] at hv
  rw [Numeral.toFloat, Double.ofScientific_eq hcanonical hv]
  cases negative with
  | false => rfl
  | true => exact neg_pack hcanonical

/-- The text of a positive double before its sign. -/
def magnitudeText (m : Nat) (q : Int) : List Char :=
  let shortest := Shortest.digits m q
  if FloatStyle.document.lowest ≤ shortest.exponent ∧
      shortest.exponent ≤ FloatStyle.document.highest then
    FloatStyle.plain shortest.digits shortest.exponent
  else
    FloatStyle.scientific shortest.digits shortest.exponent

theorem exists_magnitude {m : Nat} {q : Int} (hcanonical : Canonical m q) :
    ∃ v whole fraction exponent, RoundsTo m q v ∧
      Magnitude (magnitudeText m q) v whole fraction exponent := by
  obtain ⟨hdigits, hrounds⟩ := Shortest.digits_spec hcanonical
  unfold magnitudeText
  simp only
  split
  · obtain ⟨whole, fraction, exponent, hmagnitude⟩ := magnitude_plain hdigits _
    exact ⟨_, whole, fraction, exponent, hrounds, hmagnitude⟩
  · obtain ⟨whole, fraction, exponent, hmagnitude⟩ := magnitude_scientific hdigits _
    exact ⟨_, whole, fraction, exponent, hrounds, hmagnitude⟩

theorem floatText_eq {x : Float} {negative : Bool} {m : Nat} {q : Int}
    (h : Binary.ofFloat x = .finite negative m q) (hm : m ≠ 0) :
    (floatText x).toList = (if negative then ['-'] else []) ++ magnitudeText m q := by
  rw [floatText, FloatStyle.text]
  simp only [h, if_neg hm, String.toList_append, String.toList_ofList]
  cases negative <;> rfl

theorem floatText_zero {x : Float} {negative : Bool} {q : Int}
    (h : Binary.ofFloat x = .finite negative 0 q) :
    (floatText x).toList = (if negative then ['-'] else []) ++ ['0', '.', '0'] := by
  rw [floatText, FloatStyle.text]
  simp only [h, if_true, String.toList_append]
  cases negative <;> rfl

theorem eq_pack_unpack {x : Float} (h : x.isFinite = true) :
    x = .ofModel (.pack x.toModel.unpack) :=
  congrArg Float.ofModel (Double.eq_of_bits (Double.unpacked_of_isFinite h).pack_eq.symm)

/-- The sign of a double, as the model of doubles has it. -/
def signOf (negative : Bool) : Float.Model.UnpackedFloat.Sign :=
  if negative then .negative else .positive

theorem exists_signOf (sign : Float.Model.UnpackedFloat.Sign) :
    ∃ negative, sign = signOf negative := by
  cases sign with
  | negative => exact ⟨true, rfl⟩
  | positive => exact ⟨false, rfl⟩

theorem ofFloat_pack {m : Nat} {q : Int} (h : Canonical m q) (negative : Bool) :
    Binary.ofFloat (.ofModel (.pack (.finite (signOf negative) m q h.pos))) =
      .finite negative m q := by
  rw [Binary.ofFloat, Double.unpack_pack h]
  cases negative <;> rfl

/-- The text of the float is a numeral with a fraction or a power of ten, for exactly this float. -/
def ExactReal (x : Float) : Prop :=
  x.isFinite = true ∧
    ∃ numeral, NumeralText numeral (floatText x).toList ∧ numeral.isIntegral = false ∧
      numeral.toFloat = x

theorem exactReal_zero (negative : Bool) :
    ExactReal (.ofModel (.pack (.zero (signOf negative)))) := by
  refine ⟨by cases negative <;> rfl, ⟨negative, ['0'], ['0'], none⟩, ?_, rfl, ?_⟩
  · have hbinary : Binary.ofFloat (.ofModel (.pack (.zero (signOf negative)))) =
        .finite negative 0 0 := by cases negative <;> rfl
    rw [floatText_zero hbinary]
    exact .intro .zero (.digits (by simp) (by simp)) .absent
  · cases negative <;> rfl

theorem exactReal_finite {m : Nat} {q : Int} (h : Canonical m q) (negative : Bool) :
    ExactReal (.ofModel (.pack (.finite (signOf negative) m q h.pos))) := by
  obtain ⟨v, whole, fraction, exponent, hrounds, hmagnitude⟩ := exists_magnitude h
  obtain ⟨fractionText, exponentText, hwhole, hfraction, hexponent, htext⟩ := hmagnitude.text
  refine ⟨?_, ⟨negative, whole, fraction, exponent⟩, ?_, hmagnitude.real, ?_⟩
  · show (Float.Model.unpack _).isFinite = true
    rw [Double.unpack_pack h]
    rfl
  · rw [floatText_eq (ofFloat_pack h negative) h.pos.ne', htext]
    exact .intro hwhole hfraction hexponent
  · rw [toFloat_of_magnitude h hmagnitude hrounds]
    rfl

/-- A finite float is written as a numeral with a fraction or a power of ten, which is read as the
same float. -/
theorem exactReal_of_isFinite {x : Float} (h : x.isFinite = true) : ExactReal x := by
  have hunpacked := Double.unpacked_of_isFinite h
  have hx := eq_pack_unpack h
  unfold Float.Model.unpack at hx
  generalize Float.Model.UnpackedFloat.unpack Float.Model.Format.binary64
    x.toModel.toBits.toBitVec = unpacked at hunpacked hx
  subst hx
  cases unpacked with
  | notANumber => exact nomatch hunpacked
  | infinity sign => exact nomatch hunpacked
  | zero sign =>
    obtain ⟨negative, rfl⟩ := exists_signOf sign
    exact exactReal_zero negative
  | finite sign m q hpos =>
    obtain ⟨negative, rfl⟩ := exists_signOf sign
    exact exactReal_finite hunpacked.canonical negative

/-- Writing a finite float and reading the text gives the same float. -/
theorem exact_of_isFinite {x : Float} (h : x.isFinite = true) : Exact x := by
  obtain ⟨hfinite, numeral, hnumeral, hreal, hvalue⟩ := exactReal_of_isFinite h
  exact ⟨hfinite, numeral, hnumeral, by rw [ofNumeral_of_real hreal, hvalue]⟩

end PipeQuery
