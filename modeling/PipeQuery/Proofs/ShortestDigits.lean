/-
The shortest digits of a double are a decimal fraction in its rounding interval.

On the seventeenth grid the neighbours of a double are so close that the nearer one reads back, so
the search never ends without a hit.
-/
import PipeQuery.Number.Shortest
import PipeQuery.Proofs.Lexeme
import PipeQuery.Proofs.Rounding

namespace PipeQuery.Shortest

open Double (Canonical RoundsTo two_zpow_pos two_zpow_eq_quarters)

theorem ten_zpow_pos (k : Int) : (0 : ℚ) < 10 ^ k :=
  zpow_pos (by norm_num) k

/-! ## Hits -/

theorem zpow_toNat {base : ℚ} (h : base ≠ 0) (z : Int) :
    base ^ z.toNat = base ^ z * base ^ (-z).toNat := by
  rw [mul_comm, ← zpow_natCast, ← zpow_natCast, ← zpow_add₀ h]
  congr 1
  omega

namespace Rounding

variable (r : Rounding) (k : Int)

theorem divisor_pos : (0 : ℚ) < r.divisor k := by
  rw [divisor]
  positivity

theorem factor_eq : (r.factor k : ℚ) = 2 ^ r.exponent / 10 ^ k * r.divisor k := by
  have hten := (ten_zpow_pos k).ne'
  rw [factor, divisor, Nat.cast_mul, Nat.cast_mul, Nat.cast_pow, Nat.cast_pow, Nat.cast_pow,
    Nat.cast_pow, Nat.cast_ofNat, Nat.cast_ofNat, zpow_toNat two_ne_zero,
    zpow_toNat (by norm_num : (10 : ℚ) ≠ 0) k]
  field_simp

variable {r k}

/-- Comparing with a number of quarters. -/
theorem le_mul_divisor_iff {a n : Nat} :
    a * r.factor k ≤ n * r.divisor k ↔ (a * 2 ^ r.exponent : ℚ) ≤ n * 10 ^ k := by
  have hcast : a * r.factor k ≤ n * r.divisor k ↔
      (a * r.factor k : ℚ) ≤ n * r.divisor k := by exact_mod_cast Iff.rfl
  rw [hcast, factor_eq, ← mul_assoc, mul_le_mul_iff_left₀ (r.divisor_pos k), ← mul_div_assoc,
    div_le_iff₀ (ten_zpow_pos k)]

theorem mul_divisor_le_iff {a n : Nat} :
    n * r.divisor k ≤ a * r.factor k ↔ (n * 10 ^ k : ℚ) ≤ a * 2 ^ r.exponent := by
  have hcast : n * r.divisor k ≤ a * r.factor k ↔
      (n * r.divisor k : ℚ) ≤ a * r.factor k := by exact_mod_cast Iff.rfl
  rw [hcast, factor_eq, ← mul_assoc, mul_le_mul_iff_left₀ (r.divisor_pos k), ← mul_div_assoc,
    le_div_iff₀ (ten_zpow_pos k)]

theorem holds_of_lt {n : Nat} (hlow : (r.low * 2 ^ r.exponent : ℚ) < n * 10 ^ k)
    (hhigh : (n * 10 ^ k : ℚ) < r.high * 2 ^ r.exponent) : r.holds k n = true := by
  have hlow' : r.low * r.factor k < n * r.divisor k := by
    rw [← Nat.not_le, mul_divisor_le_iff, not_le]
    exact hlow
  have hhigh' : n * r.divisor k < r.high * r.factor k := by
    rw [← Nat.not_le, le_mul_divisor_iff, not_le]
    exact hhigh
  rw [holds]
  split
  · exact decide_eq_true ⟨hlow'.le, hhigh'.le⟩
  · exact decide_eq_true ⟨hlow', hhigh'⟩

/-- A hit holds. -/
theorem holds_of_hit? {n : Nat} (h : r.hit? k = some n) : r.holds k n = true := by
  simp only [hit?] at h
  split at h
  · rename_i hbelow habove
    split at h
    · obtain rfl := Option.some.inj h
      exact hbelow
    · split at h
      · obtain rfl := Option.some.inj h
        exact habove
      · split at h
        · obtain rfl := Option.some.inj h
          exact hbelow
        · obtain rfl := Option.some.inj h
          exact habove
  · rename_i hbelow _
    obtain rfl := Option.some.inj h
    exact hbelow
  · rename_i _ habove
    obtain rfl := Option.some.inj h
    exact habove
  · exact nomatch h

end Rounding

theorem cast_high_rounding (m : Nat) (q : Int) :
    (((rounding m q).high : Nat) : ℚ) = 4 * (m : ℚ) + 2 := by simp [rounding]

theorem cast_low_rounding {m : Nat} (hpos : 0 < m) (q : Int) :
    (((rounding m q).low : Nat) : ℚ) =
      4 * (m : ℚ) - if m = 2 ^ 52 ∧ -1074 < q then 1 else 2 := by
  simp only [rounding]
  split
  · rw [Nat.cast_sub (by omega), Nat.cast_mul, Nat.cast_ofNat, Nat.cast_one]
  · rw [Nat.cast_sub (by omega), Nat.cast_mul, Nat.cast_ofNat, Nat.cast_ofNat]

theorem roundsTo_of_holds {m : Nat} {q k : Int} {n : Nat} (hcanonical : Canonical m q)
    (h : (rounding m q).holds k n = true) : RoundsTo m q (n * 10 ^ k) := by
  have hunit := two_zpow_pos (q - 2)
  have hhigh := cast_high_rounding m q
  have hlow : 4 * (m : ℚ) - 2 ≤ ((rounding m q).low : Nat) := by
    rw [cast_low_rounding hcanonical.pos]
    split <;> linarith
  have hdenser : m = 2 ^ 52 → -1074 < q → 4 * (m : ℚ) - 1 = ((rounding m q).low : Nat) := by
    intro hm hq
    rw [cast_low_rounding hcanonical.pos, if_pos ⟨hm, hq⟩]
  have hexponent : (rounding m q).exponent = q - 2 := rfl
  have hweak : (rounding m q).low * (rounding m q).factor k ≤ n * (rounding m q).divisor k ∧
      n * (rounding m q).divisor k ≤ (rounding m q).high * (rounding m q).factor k := by
    rw [Rounding.holds] at h
    split at h
    · exact of_decide_eq_true h
    · have hstrict := of_decide_eq_true h
      exact ⟨hstrict.1.le, hstrict.2.le⟩
  rw [Rounding.le_mul_divisor_iff, Rounding.mul_divisor_le_iff, hexponent, hhigh] at hweak
  refine ⟨?_, hweak.2, ?_, ?_⟩
  · exact (mul_le_mul_of_nonneg_right hlow hunit.le).trans hweak.1
  · intro hodd
    have hclosed : (rounding m q).closed = false := by simp [rounding, hodd]
    rw [Rounding.holds, hclosed] at h
    have hstrict := of_decide_eq_true h
    rw [← Nat.not_le, ← Nat.not_le, Rounding.le_mul_divisor_iff, Rounding.mul_divisor_le_iff,
      not_le, not_le, hexponent, hhigh] at hstrict
    exact ⟨(mul_le_mul_of_nonneg_right hlow hunit.le).trans_lt hstrict.1, hstrict.2⟩
  · intro hm hq
    rw [hdenser hm hq]
    exact hweak.1

/-! ## The last grid -/

theorem Rounding.exists_hit? {r : Rounding} {k : Int} {below : Nat}
    (hbelow : r.middle * r.factor k / r.divisor k = below)
    (h : r.holds k below = true ∨ r.holds k (below + 1) = true) : ∃ n, r.hit? k = some n := by
  simp only [hit?, hbelow]
  rcases hleft : r.holds k below with _ | _
  · rcases hright : r.holds k (below + 1) with _ | _
    · simp [hleft, hright] at h
    · exact ⟨_, rfl⟩
  · rcases hright : r.holds k (below + 1) with _ | _
    · exact ⟨_, rfl⟩
    · simp only
      split
      · exact ⟨_, rfl⟩
      · split
        · exact ⟨_, rfl⟩
        · split <;> exact ⟨_, rfl⟩

/-- The middle lies between so many units and one more. -/
theorem Rounding.middle_bounds (r : Rounding) (k : Int) {below : Nat}
    (hbelow : r.middle * r.factor k / r.divisor k = below) :
    (below * 10 ^ k : ℚ) ≤ r.middle * 2 ^ r.exponent ∧
      (r.middle * 2 ^ r.exponent : ℚ) < (below + 1 : Nat) * 10 ^ k := by
  have hdivisor : 0 < r.divisor k := by exact_mod_cast r.divisor_pos k
  constructor
  · rw [← Rounding.mul_divisor_le_iff, ← hbelow]
    exact Nat.div_mul_le_self _ _
  · rw [← not_le, ← Rounding.mul_divisor_le_iff, ← hbelow, not_le]
    exact Nat.lt_mul_of_div_lt (Nat.lt_succ_self _) hdivisor

/-- Half a step is less than the distance to either end. -/
theorem half_lt_of_fine {m : Nat} {q k : Int} (hcanonical : Canonical m q)
    (hfine : (10 : ℚ) ^ k * 10 ^ 16 ≤ m * 2 ^ q) :
    (10 : ℚ) ^ k / 2 < 2 * 2 ^ (q - 2) ∧
      (rounding m q).low * 2 ^ (q - 2) < (4 * m : ℚ) * 2 ^ (q - 2) - 10 ^ k / 2 := by
  have hunit := two_zpow_pos (q - 2)
  rw [two_zpow_eq_quarters q] at hfine
  rw [cast_low_rounding hcanonical.pos]
  by_cases hpower : m = 2 ^ 52 ∧ -1074 < q
  · have hm : (m : ℚ) = 2 ^ 52 := by exact_mod_cast hpower.1
    rw [if_pos hpower]
    rw [hm] at hfine ⊢
    norm_num at hfine ⊢
    constructor <;> linarith
  · have hm : (m : ℚ) + 1 ≤ 2 ^ 53 := by exact_mod_cast hcanonical.lt
    have hupper : (m : ℚ) * (4 * 2 ^ (q - 2)) ≤ (2 ^ 53 - 1) * (4 * 2 ^ (q - 2)) :=
      mul_le_mul_of_nonneg_right (by linarith) (by positivity)
    have hstep := hfine.trans hupper
    rw [if_neg hpower]
    norm_num at hstep ⊢
    constructor <;> linarith

/-- A grid with seventeen digits before its unit is fine enough. -/
theorem exists_hit?_of_fine {m : Nat} {q k : Int} (hcanonical : Canonical m q)
    (hfine : (10 : ℚ) ^ k * 10 ^ 16 ≤ m * 2 ^ q) : ∃ n, (rounding m q).hit? k = some n := by
  have hunit := two_zpow_pos (q - 2)
  have hexponent : (rounding m q).exponent = q - 2 := rfl
  have hhigh := cast_high_rounding m q
  have hmiddle : (((rounding m q).middle : Nat) : ℚ) = 4 * m := by simp [rounding]
  have hhalf := half_lt_of_fine hcanonical hfine
  generalize hbelow :
    (rounding m q).middle * (rounding m q).factor k / (rounding m q).divisor k = below
  obtain ⟨hleft, hright⟩ := (rounding m q).middle_bounds k hbelow
  rw [hexponent, hmiddle] at hleft hright
  refine Rounding.exists_hit? hbelow ?_
  rcases le_or_gt ((4 * m * 2 ^ (q - 2) : ℚ) - 10 ^ k / 2) (below * 10 ^ k) with hnear | hfar
  · left
    refine Rounding.holds_of_lt ?_ ?_
    · rw [hexponent]
      linarith
    · rw [hexponent, hhigh]
      linarith
  · right
    push_cast at hright
    refine Rounding.holds_of_lt ?_ ?_
    · rw [hexponent]
      push_cast
      linarith [ten_zpow_pos k]
    · rw [hexponent, hhigh]
      push_cast
      linarith

/-! ## The leading digit -/

theorem lt_ten_pow_length (n : Nat) : n < 10 ^ (decimal n).length :=
  (Nat.length_toDigits_le_iff (by decide) Nat.length_toDigits_pos).1 (le_refl _)

theorem ten_pow_length_le {n : Nat} (hpos : 0 < n) : 10 ^ ((decimal n).length - 1) ≤ n := by
  by_contra hlt
  rcases Nat.eq_zero_or_pos ((decimal n).length - 1) with hzero | hmore
  · rw [hzero] at hlt
    omega
  · have hle := (Nat.length_toDigits_le_iff (by decide) hmore).2 (Nat.lt_of_not_le hlt)
    have hlength : 0 < (decimal n).length := Nat.length_toDigits_pos
    rw [decimal] at *
    omega

theorem ten_zpow_leading_le {m : Nat} {q : Int} (hpos : 0 < m) :
    (10 : ℚ) ^ leading m q ≤ m * 2 ^ q := by
  have hvalue : (m * 2 ^ q : ℚ) = (m * 2 ^ q.toNat : Nat) / (2 ^ (-q).toNat : Nat) := by
    rw [Nat.cast_mul, Nat.cast_pow, Nat.cast_pow, Nat.cast_ofNat,
      zpow_toNat two_ne_zero]
    field_simp
  have htop : 0 < m * 2 ^ q.toNat := Nat.mul_pos hpos (Nat.two_pow_pos _)
  have hbottom : 0 < 2 ^ (-q).toNat := Nat.two_pow_pos _
  rw [hvalue]
  simp only [leading]
  generalize m * 2 ^ q.toNat = top at htop
  generalize 2 ^ (-q).toNat = bottom at hbottom
  have htop' : (0 : ℚ) < top := by exact_mod_cast htop
  have hbottom' : (0 : ℚ) < bottom := by exact_mod_cast hbottom
  rw [le_div_iff₀ hbottom']
  split
  · rename_i hle
    have hquotient : 0 < top / bottom := Nat.div_pos hle hbottom
    have hlength : 0 < (decimal (top / bottom)).length := Nat.length_toDigits_pos
    have hexponent : ((decimal (top / bottom)).length : Int) - 1 =
        ((decimal (top / bottom)).length - 1 : Nat) := by omega
    rw [hexponent, zpow_natCast]
    exact_mod_cast (Nat.mul_le_mul_right _ (ten_pow_length_le hquotient)).trans
      (Nat.div_mul_le_self top bottom)
  · have hlt := lt_ten_pow_length ((bottom + top - 1) / top - 1)
    generalize (decimal ((bottom + top - 1) / top - 1)).length = length at hlt
    have hceiling : (bottom + top - 1) / top ≤ 10 ^ length := by omega
    have hbound : bottom ≤ 10 ^ length * top := by
      have hupper := Nat.lt_mul_of_div_lt (Nat.lt_succ_of_le hceiling) htop
      rw [Nat.succ_mul] at hupper
      omega
    rw [zpow_neg, zpow_natCast, inv_mul_le_iff₀ (by positivity)]
    exact_mod_cast hbound

/-! ## The digits -/

theorem exists_ofMultiple {m : Nat} {q : Int} (hcanonical : Canonical m q) :
    ∃ n k, digits m q = .ofMultiple n k ∧ RoundsTo m q (n * 10 ^ k) := by
  have hfine : (10 : ℚ) ^ (leading m q - (16 : Nat)) * 10 ^ 16 ≤ m * 2 ^ q := by
    rw [← zpow_natCast 10 16, ← zpow_add₀ (by norm_num)]
    simpa using ten_zpow_leading_le (q := q) hcanonical.pos
  obtain ⟨last, hlast⟩ := exists_hit?_of_fine hcanonical hfine
  unfold digits
  simp only
  generalize hfound : (List.range 17).findSome? _ = found
  cases found with
  | none =>
    have hnone := List.findSome?_eq_none_iff.1 hfound 16 (by simp)
    rw [hlast] at hnone
    exact nomatch hnone
  | some digits =>
    obtain ⟨place, -, hplace⟩ := List.exists_of_findSome?_eq_some hfound
    obtain ⟨n, hn, rfl⟩ := Option.map_eq_some_iff.1 hplace
    exact ⟨n, _, rfl, roundsTo_of_holds hcanonical (Rounding.holds_of_hit? hn)⟩

theorem exists_zeros (digits : List Char) :
    ∃ zeros, digits =
      (digits.reverse.dropWhile (· == '0')).reverse ++ List.replicate zeros '0' := by
  refine ⟨(digits.reverse.takeWhile (· == '0')).length, ?_⟩
  have hzeros : digits.reverse.takeWhile (· == '0') =
      List.replicate (digits.reverse.takeWhile (· == '0')).length '0' := by
    refine List.eq_replicate_of_mem fun c hc => ?_
    have hkind := List.all_takeWhile (p := (· == '0')) (l := digits.reverse)
    simpa using List.all_eq_true.1 hkind c hc
  have hsplit := congrArg List.reverse
    (List.takeWhile_append_dropWhile (p := (· == '0')) (l := digits.reverse))
  rw [List.reverse_append, List.reverse_reverse] at hsplit
  rw [← List.reverse_replicate, ← hzeros, hsplit]

/-- Digits of which the first is no zero. -/
inductive Significant : List Char → Prop
  | intro {c : Char} {more : List Char} (hzero : c ≠ '0') (hc : c.isDigit = true)
      (hmore : ∀ d ∈ more, d.isDigit = true) : Significant (c :: more)

/-- The digits denote the multiple. -/
theorem ofMultiple_spec {n : Nat} (hpos : 0 < n) (k : Int) :
    Significant (Digits.ofMultiple n k).digits ∧
      (digitsValue (Digits.ofMultiple n k).digits *
        10 ^ ((Digits.ofMultiple n k).exponent + 1 - (Digits.ofMultiple n k).digits.length) : ℚ) =
        n * 10 ^ k := by
  obtain ⟨zeros, hzeros⟩ := exists_zeros (decimal n)
  simp only [Digits.ofMultiple]
  generalize ((decimal n).reverse.dropWhile (· == '0')).reverse = kept at hzeros
  have hvalue : n = digitsValue kept * 10 ^ zeros := by
    conv => lhs; rw [← digitsValue_decimal n, hzeros]
    rw [digitsValue, digitsValue, Nat.ofDigitChars_append, Nat.ofDigitChars_replicate_zero,
      mul_comm]
  have hkept : digitsValue kept ≠ 0 := by
    intro hzero
    rw [hvalue, hzero, Nat.zero_mul] at hpos
    exact Nat.lt_irrefl 0 hpos
  constructor
  · have hwhole := Scan.whole_decimal n
    rw [hzeros] at hwhole
    cases kept with
    | nil => exact absurd rfl hkept
    | cons c more =>
      rw [List.cons_append] at hwhole
      generalize hrest : more ++ List.replicate zeros '0' = rest at hwhole
      cases hwhole with
      | zero =>
        obtain rfl := (List.append_eq_nil_iff.1 hrest).1
        exact absurd rfl hkept
      | digits hzero hc hmore =>
        refine .intro hzero hc fun d hd => hmore d ?_
        rw [← hrest]
        exact List.mem_append_left _ hd
  · have hlength : ((decimal n).length : Int) = kept.length + zeros := by
      rw [hzeros, List.length_append, List.length_replicate, Nat.cast_add]
    have hexponent : k + ((decimal n).length : Int) - 1 + 1 - kept.length = k + zeros := by omega
    rw [hexponent, zpow_add₀ (by norm_num), zpow_natCast, hvalue]
    push_cast
    ring

/-- The shortest digits of a double denote a number that rounds to it. -/
theorem digits_spec {m : Nat} {q : Int} (hcanonical : Canonical m q) :
    Significant (digits m q).digits ∧
      RoundsTo m q (digitsValue (digits m q).digits *
        10 ^ ((digits m q).exponent + 1 - (digits m q).digits.length)) := by
  obtain ⟨n, k, hdigits, hrounds⟩ := exists_ofMultiple hcanonical
  obtain ⟨hsignificant, hvalue⟩ := ofMultiple_spec (hrounds.coefficient_pos hcanonical) k
  rw [hdigits, hvalue]
  exact ⟨hsignificant, hrounds⟩

end PipeQuery.Shortest
