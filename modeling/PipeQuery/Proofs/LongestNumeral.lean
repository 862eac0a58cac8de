/-
A cursor takes the longest numeral, and its number is the one that the text denotes.

Whatever numeral stands at the front of a text, each part of the scanner is through with it: it has
read exactly the same part, or it has gone further than the numeral does, which it can only by
taking digits behind its last part.
-/
import PipeQuery.Cursor
import PipeQuery.Proofs.IntegerArithmetic
import PipeQuery.Proofs.NearestDouble

namespace PipeQuery

namespace Scan

variable {whole fractionDigits fractionText exponentText tail text : List Char} {power : Option Int}

/-! ## The parts of a numeral -/

/-- What is left is the next part of a numeral with a text behind it, or no more than this text. -/
def Reaches (left part tail : List Char) : Prop :=
  left = part ++ tail ∨ left.length ≤ tail.length

theorem Fraction.eq_nil_or (h : Fraction fractionDigits fractionText) (more : List Char) :
    fractionText = [] ∨ Ends Char.isDigit (fractionText ++ more) := by
  cases h with
  | absent => exact .inl rfl
  | digits hne hdigits =>
      right
      intro c hc
      obtain rfl : '.' = c := by simpa using hc
      rfl

theorem Exponent.eq_nil_or (h : Exponent power exponentText) (more : List Char) :
    exponentText = [] ∨ Ends isFractionChar (exponentText ++ more) := by
  cases h with
  | absent => exact .inl rfl
  | @power e negative sign digits he hsign hne hdigits =>
      right
      intro c hc
      obtain rfl : e = c := by simpa using hc
      rcases he with rfl | rfl <;> rfl

/-- Digits behind a part are taken if it is the last one. -/
theorem reaches_dropWhile (h : text = [] ∨ Ends Char.isDigit (text ++ tail)) :
    Reaches ((text ++ tail).dropWhile Char.isDigit) text tail := by
  rcases h with rfl | hends
  · exact .inr (length_dropWhile_le _ _)
  · have hdrop := dropWhile_append_ends (List.forall_mem_nil _) hends
    exact .inl hdrop

theorem reaches_whole (h : Whole whole) (hnext : text = [] ∨ Ends Char.isDigit (text ++ tail)) :
    ∃ taken, whole? (whole ++ (text ++ tail)) = some taken ∧ Reaches taken.rest text tail := by
  cases h with
  | zero => exact ⟨_, rfl, .inl rfl⟩
  | @digits c more hzero hc hmore =>
      have htaken : whole? (c :: (more ++ (text ++ tail))) = some
          ⟨c :: (more ++ (text ++ tail)).takeWhile Char.isDigit,
            (more ++ (text ++ tail)).dropWhile Char.isDigit,
            Nat.lt_succ_of_le (length_dropWhile_le _ _)⟩ := by
        rw [whole?, if_neg hzero, if_pos hc]
      refine ⟨_, htaken, ?_⟩
      dsimp only
      rw [List.dropWhile_append_of_pos hmore]
      exact reaches_dropWhile hnext

theorem reaches_fraction (h : Fraction fractionDigits fractionText)
    (hnext : text = [] ∨ Ends isFractionChar (text ++ tail)) {left : List Char}
    (hleft : Reaches left (fractionText ++ text) tail) :
    Reaches (fraction left).2 text tail := by
  rcases hleft with rfl | hshort
  · cases h with
    | absent =>
        rcases hnext with rfl | hends
        · exact .inr (length_fraction_le _)
        · exact .inl (congrArg Prod.snd (fraction_append .absent hends))
    | digits hne hdigits =>
        obtain ⟨d, more, rfl⟩ := List.exists_cons_of_ne_nil hne
        have hd : d.isDigit = true := hdigits d List.mem_cons_self
        have hmore : ∀ c ∈ more, c.isDigit = true := fun c hc =>
          hdigits c (List.mem_cons_of_mem _ hc)
        simp only [List.cons_append, List.append_assoc, fraction, hd, if_true,
          List.dropWhile_append_of_pos hmore]
        exact reaches_dropWhile (hnext.imp_right ends_isDigit)
  · exact .inr (Nat.le_trans (length_fraction_le left) hshort)

theorem length_exponent_le_of_reaches (h : Exponent power exponentText) {left : List Char}
    (hleft : Reaches left exponentText tail) : (exponent left).2.length ≤ tail.length := by
  rcases hleft with rfl | hshort
  · cases h with
    | absent => exact length_exponent_le _
    | @power e negative sign digits he hsign hne hdigits =>
        obtain ⟨d, more, rfl⟩ := List.exists_cons_of_ne_nil hne
        have hd : d.isDigit = true := hdigits d List.mem_cons_self
        have hmore : ∀ c ∈ more, c.isDigit = true := fun c hc =>
          hdigits c (List.mem_cons_of_mem _ hc)
        simp only [List.cons_append, List.append_assoc, exponent, he, if_true,
          sign_append hsign hd, List.takeWhile_cons_of_pos hd, List.dropWhile_cons_of_pos hd,
          List.dropWhile_append_of_pos hmore]
        exact length_dropWhile_le _ _
  · exact Nat.le_trans (length_exponent_le left) hshort

/-! ## The longest numeral -/

/-- A numeral at the front is read, or a longer one. -/
theorem exists_magnitude?_append (negative : Bool) (hwhole : Whole whole)
    (hfraction : Fraction fractionDigits fractionText) (hexponent : Exponent power exponentText)
    (tail : List Char) :
    ∃ taken, magnitude? negative (whole ++ (fractionText ++ exponentText ++ tail)) = some taken ∧
      taken.rest.length ≤ tail.length := by
  have hnext : fractionText ++ exponentText = [] ∨
      Ends Char.isDigit (fractionText ++ exponentText ++ tail) := by
    rw [List.append_assoc]
    rcases hfraction.eq_nil_or (exponentText ++ tail) with rfl | hends
    · exact (hexponent.eq_nil_or tail).imp_right ends_isDigit
    · exact .inr hends
  obtain ⟨digits, hdigits, hreached⟩ := reaches_whole hwhole hnext
  have hafter := reaches_fraction hfraction (hexponent.eq_nil_or tail) hreached
  have hrest := length_exponent_le_of_reaches hexponent hafter
  unfold magnitude?
  rw [hdigits]
  exact ⟨_, rfl, hrest⟩

theorem exists_numeral?_append {numeral : Numeral} {written : List Char}
    (h : NumeralText numeral written) (tail : List Char) :
    ∃ taken, numeral? (written ++ tail) = some taken ∧ taken.rest.length ≤ tail.length := by
  cases h with
  | @intro negative whole fraction fractionText exponentText exponent hwhole hfraction hexponent =>
      obtain ⟨taken, htaken, hrest⟩ :=
        exists_magnitude?_append negative hwhole hfraction hexponent tail
      obtain ⟨_, hread⟩ := numeral?_of_magnitude? (hwhole.head?_ne_minus _) htaken
      have hsplit : (if negative then ['-'] else []) ++ (whole ++ fractionText ++ exponentText) ++
          tail = (if negative then ['-'] else []) ++
            (whole ++ (fractionText ++ exponentText ++ tail)) := by
        simp only [List.append_assoc]
      rw [hsplit]
      exact ⟨_, hread, hrest⟩

/-- The scanner reads the longest numeral at the front of a text, and nothing where there is
none. -/
theorem numeral?_longest (text : List Char) :
    (∃ taken written, numeral? text = some taken ∧ text = written ++ taken.rest ∧
      NumeralText taken.value written ∧
        ∀ numeral shorter, NumeralText numeral shorter → shorter <+: text →
          shorter.length ≤ written.length) ∨
      numeral? text = none ∧
        ∀ numeral written, NumeralText numeral written → ¬ written <+: text := by
  have hlongest {numeral : Numeral} {shorter : List Char} (h : NumeralText numeral shorter)
      (hfront : shorter <+: text) :
      ∃ taken, numeral? text = some taken ∧ taken.rest.length + shorter.length ≤ text.length := by
    obtain ⟨tail, rfl⟩ := hfront
    obtain ⟨taken, htaken, hrest⟩ := exists_numeral?_append h tail
    refine ⟨taken, htaken, ?_⟩
    rw [List.length_append]
    omega
  cases hscan : numeral? text with
  | none =>
      refine .inr ⟨rfl, fun numeral written h hfront => ?_⟩
      obtain ⟨taken, htaken, _⟩ := hlongest h hfront
      exact nomatch hscan.symm.trans htaken
  | some taken =>
      obtain ⟨written, htext, hwritten⟩ := numeralText_of_numeral? hscan
      refine .inl ⟨taken, written, rfl, htext, hwritten, fun numeral shorter h hfront => ?_⟩
      obtain ⟨other, hother, hlength⟩ := hlongest h hfront
      obtain rfl := Option.some.inj (hscan.symm.trans hother)
      have hsum := congrArg List.length htext
      rw [List.length_append] at hsum
      omega

end Scan

/-- The number is an integer where the numeral has neither a fraction nor a power of ten and its
integer has 64 bits, and otherwise the nearest double. -/
inductive Numeral.Reads (numeral : Numeral) : Value → Prop
  | int {n : Int64} (hintegral : numeral.isIntegral = true)
      (hvalue : (n.toInt : ℚ) = numeral.value) :
      Reads numeral (.int n)
  | float {x : Float}
      (hreal : numeral.isIntegral = true → ∀ n : Int64, (n.toInt : ℚ) ≠ numeral.value)
      (hx : NearestDouble numeral.value numeral.negative (Binary.ofFloat x)) :
      Reads numeral (.float x)

theorem Numeral.value_fits {numeral : Numeral} (hintegral : numeral.isIntegral = true) {n : Int64}
    (h : (n.toInt : ℚ) = numeral.value) : fitsInt64 numeral.toInt = true := by
  rw [Numeral.value_of_isIntegral hintegral] at h
  rw [← Int.cast_injective h, fitsInt64_toInt]

theorem Numeral.reads_ofNumeral (numeral : Numeral) : numeral.Reads (Value.ofNumeral numeral) := by
  rw [Value.ofNumeral]
  by_cases hint : (numeral.isIntegral && fitsInt64 numeral.toInt) = true
  · rw [if_pos hint]
    rw [Bool.and_eq_true] at hint
    refine .int hint.1 ?_
    rw [toInt_ofInt_of_fits hint.2, Numeral.value_of_isIntegral hint.1]
  · rw [if_neg hint]
    refine .float (fun hintegral n hn => hint ?_) (nearestDouble_toFloat numeral)
    rw [hintegral, Numeral.value_fits hintegral hn]
    rfl

/-- A cursor takes the longest numeral that stands where it is, goes behind it, and its number is
the one that the numeral denotes: an integer where neither a fraction nor a power of ten is written
and it has 64 bits, and otherwise the nearest double.  Where no numeral stands it takes nothing and
stays. -/
theorem take_longest_numeral (cursor : Cursor) :
    ((∃ numeral written, Scan.NumeralText numeral written ∧ written <+: cursor.rest) →
      ∃ numeral written, Scan.NumeralText numeral written ∧ written <+: cursor.rest ∧
        (∀ other shorter, Scan.NumeralText other shorter → shorter <+: cursor.rest →
          shorter.length ≤ written.length) ∧
        cursor.take Scan.numeral? =
          (some numeral, cursor.moveTo (cursor.position + written.length)) ∧
        numeral.Reads (Value.ofNumeral numeral)) ∧
      ((∀ numeral written, Scan.NumeralText numeral written → ¬ written <+: cursor.rest) →
        cursor.take Scan.numeral? = (none, cursor)) := by
  rcases Scan.numeral?_longest cursor.rest with
    ⟨taken, written, hscan, htext, hwritten, hlongest⟩ | ⟨hscan, hnone⟩
  · have hfront : written <+: cursor.rest := ⟨taken.rest, htext.symm⟩
    refine ⟨fun _ => ⟨taken.value, written, hwritten, hfront, hlongest, ?_,
      taken.value.reads_ofNumeral⟩, fun h => absurd hfront (h _ _ hwritten)⟩
    have hlength : cursor.rest.length - taken.rest.length = written.length := by
      have hsum := congrArg List.length htext
      rw [List.length_append] at hsum
      omega
    rw [Cursor.take, hscan]
    dsimp only
    rw [Cursor.leave, hlength]
  · refine ⟨?_, fun _ => ?_⟩
    · rintro ⟨numeral, written, h, hfront⟩
      exact absurd hfront (hnone numeral written h)
    · rw [Cursor.take, hscan]

/-- A number with a power of ten that has no digits behind it, and the end of the text. -/
theorem take_longest_numeral_dangling :
    let cursor : Cursor := ⟨['a', '-', '0', '.', '5', 'e', '+'], 1⟩
    (∃ numeral written, Scan.NumeralText numeral written ∧ written <+: cursor.rest ∧
      (∀ other shorter, Scan.NumeralText other shorter → shorter <+: cursor.rest →
        shorter.length ≤ written.length) ∧
      cursor.take Scan.numeral? = (some numeral, cursor.moveTo (1 + written.length)) ∧
      numeral.Reads (Value.ofNumeral numeral)) ∧
      cursor.take Scan.numeral? = (some ⟨true, ['0'], ['5'], none⟩, cursor.moveTo 5) ∧
        (cursor.moveTo 7).take Scan.numeral? = (none, cursor.moveTo 7) := by
  intro cursor
  have hshort : Scan.NumeralText ⟨true, ['0'], [], none⟩ ['-', '0'] :=
    .intro .zero .absent .absent
  refine ⟨(take_longest_numeral cursor).1 ⟨_, _, hshort, by decide⟩, by decide +kernel, ?_⟩
  refine (take_longest_numeral (cursor.moveTo 7)).2 fun numeral written h hfront => ?_
  obtain rfl : written = [] := List.prefix_nil.1 hfront
  obtain ⟨taken, htaken, _⟩ := Scan.exists_numeral?_append h []
  exact nomatch htaken

end PipeQuery
