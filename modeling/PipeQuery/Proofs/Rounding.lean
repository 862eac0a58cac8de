/-
Rounding to the nearest double, as exact arithmetic on rationals.

The bits kept while a significand is shifted say where the number lies between two neighbours, so a
number in the rounding interval of a double rounds to this double.
-/
import Mathlib.Tactic.Linarith
import Mathlib.Tactic.Ring
import Mathlib.Tactic.FieldSimp
import Mathlib.Tactic.Positivity
import Mathlib.Algebra.Order.Field.Power
import Mathlib.Algebra.Order.Field.Rat
import PipeQuery.Proofs.Doubles

namespace PipeQuery.Double

open Float.Model
open Float.Model.UnpackedFloat

/-! ## Residual bits -/

/-- The number `x` is the significand, with a half more where the round bit is set, and less than
another half more, nothing exactly where the sticky bit is not set. -/
def Marks (em : ExtendedMantissa) (x : ℚ) : Prop :=
  ∃ r : ℚ, 0 ≤ r ∧ r < 1 / 2 ∧ (em.stickyBit = true ↔ 0 < r) ∧
    x = em.mantissa + (if em.roundBit then 1 / 2 else 0) + r

/-- The double nearest to `x` in units of its exponent has the significand `m`; a tie is even. -/
structure Nearest (m : Nat) (x : ℚ) : Prop where
  low : 2 * (m : ℚ) - 1 ≤ 2 * x
  high : 2 * x ≤ 2 * (m : ℚ) + 1
  strict : m % 2 = 1 → 2 * (m : ℚ) - 1 < 2 * x ∧ 2 * x < 2 * (m : ℚ) + 1

theorem Marks.shiftRightOne {em : ExtendedMantissa} {x : ℚ} (h : Marks em x) :
    Marks em.shiftRightOne (x / 2) := by
  rcases h with ⟨r, hnonneg, hlt, hsticky, hx⟩
  have hparity : (em.mantissa : ℚ) = 2 * (em.mantissa / 2 : Nat) + (em.mantissa % 2 : Nat) := by
    exact_mod_cast (Nat.div_add_mod em.mantissa 2).symm
  refine ⟨((if em.roundBit then 1 / 2 else 0) + r) / 2, ?_, ?_, ?_, ?_⟩
  · split <;> linarith
  · split <;> linarith
  · cases hround : em.roundBit with
    | false => simp [ExtendedMantissa.shiftRightOne, hround, hsticky]
    | true =>
      simp only [ExtendedMantissa.shiftRightOne, hround, Bool.true_or, if_true, true_iff]
      linarith
  · rcases Nat.mod_two_eq_zero_or_one em.mantissa with hmod | hmod
    · rw [hx, hparity, hmod]
      simp only [ExtendedMantissa.shiftRightOne, hmod]
      norm_num
      ring
    · rw [hx, hparity, hmod]
      simp only [ExtendedMantissa.shiftRightOne, hmod]
      norm_num
      ring

theorem Marks.shiftRight {em : ExtendedMantissa} {x : ℚ} (h : Marks em x) (k : Nat) :
    Marks (em >>> k) (x / 2 ^ k) := by
  induction k with
  | zero =>
    rw [pow_zero, div_one]
    exact h
  | succ k ih =>
    rw [pow_succ, ← div_div]
    exact ih.shiftRightOne

/-- The rounded significand is the nearest one. -/
theorem Marks.nearest {em : ExtendedMantissa} {x : ℚ} (h : Marks em x) :
    Nearest em.roundedMantissa x := by
  rcases h with ⟨r, hnonneg, hlt, hsticky, hx⟩
  rcases em with ⟨a, round, sticky⟩
  simp only at hsticky hx
  cases round with
  | false =>
    simp only [Bool.false_eq_true, if_false] at hx
    have hbounds : 2 * (a : ℚ) - 1 < 2 * x ∧ 2 * x < 2 * (a : ℚ) + 1 := by
      constructor <;> linarith
    cases sticky <;> exact ⟨hbounds.1.le, hbounds.2.le, fun _ => hbounds⟩
  | true =>
    simp only [if_true] at hx
    cases sticky with
    | false =>
      have hzero : r = 0 := le_antisymm (not_lt.1 fun hpos => by simpa using hsticky.2 hpos) hnonneg
      have hround : ExtendedMantissa.roundedMantissa ⟨a, true, false⟩ = a + a % 2 := rfl
      have hparity : ((a % 2 : Nat) : ℚ) ≤ 1 := by exact_mod_cast (by omega : a % 2 ≤ 1)
      have hparity' : (0 : ℚ) ≤ (a % 2 : Nat) := Nat.cast_nonneg _
      rw [hround]
      refine ⟨?_, ?_, fun hodd => absurd hodd (by omega)⟩
      · push_cast
        linarith
      · push_cast
        linarith
    | true =>
      have hpos : 0 < r := hsticky.1 rfl
      have hround : ExtendedMantissa.roundedMantissa ⟨a, true, true⟩ = a + 1 := rfl
      have hbounds : 2 * ((a + 1 : Nat) : ℚ) - 1 < 2 * x ∧ 2 * x < 2 * ((a + 1 : Nat) : ℚ) + 1 := by
        push_cast
        constructor <;> linarith
      rw [hround]
      exact ⟨hbounds.1.le, hbounds.2.le, fun _ => hbounds⟩

theorem Nearest.le {m n : Nat} {x : ℚ} (h : Nearest m x) (h' : Nearest n x) : m ≤ n := by
  have hcast : (m : ℚ) ≤ n + 1 := by linarith [h.low, h'.high]
  have hle : m ≤ n + 1 := by exact_mod_cast hcast
  by_contra hlt
  obtain rfl : m = n + 1 := by omega
  -- between two neighbours there is a tie, of which the odd one is not the nearest
  rcases Nat.mod_two_eq_zero_or_one n with heven | hodd
  · have hstrict := (h.strict (by omega)).1
    have hhigh := h'.high
    push_cast at hstrict
    linarith
  · have hstrict := (h'.strict hodd).2
    have hlow := h.low
    push_cast at hlow
    linarith

theorem Marks.roundedMantissa_eq {em : ExtendedMantissa} {x : ℚ} {m : Nat} (h : Marks em x)
    (hnearest : Nearest m x) : em.roundedMantissa = m :=
  Nat.le_antisymm (h.nearest.le hnearest) (hnearest.le h.nearest)

/-! ## The rounding interval -/

theorem two_zpow_pos (z : Int) : (0 : ℚ) < 2 ^ z :=
  zpow_pos (by norm_num) z

theorem two_zpow_le {y z : Int} (h : y ≤ z) : (2 : ℚ) ^ y ≤ 2 ^ z :=
  zpow_le_zpow_right₀ (by norm_num) h

theorem le_of_two_zpow_lt {y z : Int} (h : (2 : ℚ) ^ y < 2 ^ (z + 1)) : y ≤ z := by
  have hlt : y < z + 1 := (zpow_lt_zpow_iff_right₀ (by norm_num)).1 h
  omega

theorem two_zpow_add (y : Int) (k : Nat) : (2 : ℚ) ^ (y + k) = 2 ^ k * 2 ^ y := by
  rw [zpow_add₀ (by norm_num), zpow_natCast, mul_comm]

theorem two_zpow_eq_quarters (q : Int) : (2 : ℚ) ^ q = 4 * 2 ^ (q - 2) := by
  have hsum : q = q - 2 + (2 : Nat) := by omega
  conv => lhs; rw [hsum, two_zpow_add]
  norm_num

/-- The positive number `v` is in the rounding interval of `m * 2 ^ q`, whose ends belong to it
when `m` is even.  Below a power of two the interval is half as wide. -/
structure RoundsTo (m : Nat) (q : Int) (v : ℚ) : Prop where
  low : (4 * (m : ℚ) - 2) * 2 ^ (q - 2) ≤ v
  high : v ≤ (4 * (m : ℚ) + 2) * 2 ^ (q - 2)
  strict : m % 2 = 1 → (4 * (m : ℚ) - 2) * 2 ^ (q - 2) < v ∧ v < (4 * (m : ℚ) + 2) * 2 ^ (q - 2)
  denser : m = 2 ^ 52 → -1074 < q → (4 * (m : ℚ) - 1) * 2 ^ (q - 2) ≤ v

theorem RoundsTo.pos {m : Nat} {q : Int} {v : ℚ} (h : RoundsTo m q v)
    (hcanonical : Canonical m q) : 0 < v := by
  have hunit := two_zpow_pos (q - 2)
  have hm : (1 : ℚ) ≤ m := by exact_mod_cast hcanonical.pos
  have hpos : 0 < (4 * (m : ℚ) - 2) * 2 ^ (q - 2) := mul_pos (by linarith) hunit
  exact hpos.trans_le h.low

theorem RoundsTo.coefficient_pos {m n : Nat} {q k : Int} (h : RoundsTo m q (n * 10 ^ k))
    (hcanonical : Canonical m q) : 0 < n := by
  rcases Nat.eq_zero_or_pos n with hzero | hpos
  · have hvalue := h.pos hcanonical
    rw [hzero, Nat.cast_zero, zero_mul] at hvalue
    exact absurd hvalue (lt_irrefl 0)
  · exact hpos

/-- The exponent `t` gives `v` 53 bits, or fewer at the bottom. -/
structure Fits (t : Int) (v : ℚ) : Prop where
  lowest : -1074 ≤ t
  lt : v < 2 ^ (t + 53)
  normal : t = -1074 ∨ 2 ^ (t + 52) ≤ v

theorem two_zpow_add_quarters (q : Int) (k : Nat) :
    (2 : ℚ) ^ (q + k) = 2 ^ (k + 2) * 2 ^ (q - 2) := by
  rw [← two_zpow_add]
  congr 1
  omega

theorem RoundsTo.lt_two_zpow {m : Nat} {q : Int} {v : ℚ} (h : RoundsTo m q v)
    (hcanonical : Canonical m q) : v < 2 ^ (q + 53) := by
  have hm : (m : ℚ) + 1 ≤ 2 ^ 53 := by exact_mod_cast hcanonical.lt
  have hexpand : (2 : ℚ) ^ (q + 53) = 2 ^ 55 * 2 ^ (q - 2) := two_zpow_add_quarters q 53
  rw [hexpand]
  refine h.high.trans_lt (mul_lt_mul_of_pos_right ?_ (two_zpow_pos _))
  linarith

/-- Above the lowest exponent the interval reaches at most a quarter below the power of two. -/
theorem RoundsTo.le_of_normal {m : Nat} {q : Int} {v : ℚ} (h : RoundsTo m q v)
    (hlarge : 2 ^ 52 ≤ m) (hq : -1074 < q) : (2 ^ 54 - 1) * 2 ^ (q - 2) ≤ v := by
  rcases Nat.eq_or_lt_of_le hlarge with hpower | hmore
  · have hdenser := h.denser hpower.symm hq
    rw [← hpower] at hdenser
    norm_num at hdenser ⊢
    exact hdenser
  · have hcast : (2 : ℚ) ^ 52 + 1 ≤ m := by exact_mod_cast hmore
    refine le_trans (mul_le_mul_of_nonneg_right ?_ (two_zpow_pos _).le) h.low
    linarith

theorem RoundsTo.eq_of_lt_two_zpow {m : Nat} {q : Int} {v : ℚ} (h : RoundsTo m q v)
    (hlarge : 2 ^ 52 ≤ m) (hbelow : v < 2 ^ (q + 52)) : m = 2 ^ 52 := by
  by_contra hne
  have hmore : 2 ^ 52 + 1 ≤ m := by omega
  have hcast : (2 : ℚ) ^ 52 + 1 ≤ m := by exact_mod_cast hmore
  have hless : (2 ^ 54 : ℚ) * 2 ^ (q - 2) ≤ (4 * (m : ℚ) - 2) * 2 ^ (q - 2) :=
    mul_le_mul_of_nonneg_right (by linarith) (two_zpow_pos _).le
  have hexpand : (2 : ℚ) ^ (q + 52) = 2 ^ 54 * 2 ^ (q - 2) := two_zpow_add_quarters q 52
  rw [hexpand] at hbelow
  linarith [h.low]

/-- A number in the rounding interval has the exponent of the double, but below a power of two. -/
theorem RoundsTo.exponent_eq {m : Nat} {q t : Int} {v : ℚ} (h : RoundsTo m q v)
    (hcanonical : Canonical m q) (hfits : Fits t v) :
    t = q ∨ (t = q - 1 ∧ m = 2 ^ 52 ∧ -1074 < q ∧ v < 2 ^ (q + 52)) := by
  have hle : t ≤ q := by
    rcases hfits.normal with hbottom | hnormal
    · rw [hbottom]
      exact hcanonical.lowest
    · have hexponent : t + 52 ≤ q + 52 := le_of_two_zpow_lt (by
        have hsum : q + 52 + 1 = q + 53 := by omega
        rw [hsum]
        exact hnormal.trans_lt (h.lt_two_zpow hcanonical))
      omega
  rcases eq_or_lt_of_le hle with heq | hlt
  · exact .inl heq
  · right
    have hlowest := hfits.lowest
    have hlarge : 2 ^ 52 ≤ m := hcanonical.normal.resolve_right (by omega)
    have hdense := h.le_of_normal hlarge (by omega)
    have hone : q ≤ t + 1 := by
      by_contra hfar
      have hstep : (2 : ℚ) ^ (t + 53) ≤ 2 ^ 53 * 2 ^ (q - 2) := by
        rw [← two_zpow_add]
        exact two_zpow_le (by omega)
      have hless : (2 ^ 53 : ℚ) * 2 ^ (q - 2) < (2 ^ 54 - 1) * 2 ^ (q - 2) :=
        mul_lt_mul_of_pos_right (by norm_num) (two_zpow_pos _)
      linarith [hfits.lt]
    have hbelow : v < 2 ^ (q + 52) := by
      have hsum : t + 53 = q + 52 := by omega
      rw [← hsum]
      exact hfits.lt
    exact ⟨by omega, h.eq_of_lt_two_zpow hlarge hbelow, by omega, hbelow⟩

/-! ## Shifting and rounding -/

theorem Marks.floor {em : ExtendedMantissa} {x : ℚ} (h : Marks em x) :
    (em.mantissa : ℚ) ≤ x ∧ x < em.mantissa + 1 := by
  rcases h with ⟨r, hnonneg, hlt, -, hx⟩
  cases hround : em.roundBit with
  | false =>
    simp only [hround, Bool.false_eq_true, if_false] at hx
    constructor <;> linarith
  | true =>
    simp only [hround, if_true] at hx
    constructor <;> linarith

@[simp] theorem mantissa_ofMantissaAndAccuracy (n : Nat) (accuracy : Accuracy) :
    (ExtendedMantissa.ofMantissaAndAccuracy n accuracy).mantissa = n := by
  rcases accuracy with _ | order
  · rfl
  · cases order <;> rfl

theorem targetExponent_binary64 (z : Int) :
    Format.binary64.targetExponent z = max (z - 53) (-1074) :=
  rfl

/-- The exponent that rounding aims at. -/
theorem targetExponent_eq (n : Nat) (e : Int) :
    Format.binary64.targetExponent (totalExponent n e) = max (n.log2 + e - 52) (-1074) := by
  rw [targetExponent_binary64, totalExponent]
  omega

/-- The exponent that rounding aims at fits, where the significand has bits enough. -/
theorem fits_of_marks {n : Nat} {e : Int} {accuracy : Accuracy} {v : ℚ}
    (hmarks : Marks (.ofMantissaAndAccuracy n accuracy) (v / 2 ^ e))
    (hbits : 2 ^ 52 ≤ n ∨ e ≤ -1074) :
    Fits (max (n.log2 + e - 52) (-1074)) v := by
  have hunit := two_zpow_pos e
  rcases hmarks.floor with ⟨hle, hlt⟩
  rw [mantissa_ofMantissaAndAccuracy, le_div_iff₀ hunit] at hle
  rw [mantissa_ofMantissaAndAccuracy, div_lt_iff₀ hunit] at hlt
  refine ⟨le_max_right _ _, ?_, ?_⟩
  · have hupper : n + 1 ≤ 2 ^ (n.log2 + 1) := Nat.lt_log2_self
    have hcast : (n : ℚ) + 1 ≤ 2 ^ (n.log2 + 1) := by exact_mod_cast hupper
    have hstep : (2 : ℚ) ^ (e + (n.log2 + 1 : Nat)) ≤ 2 ^ (max (n.log2 + e - 52) (-1074) + 53) :=
      two_zpow_le (by omega)
    rw [two_zpow_add] at hstep
    exact hlt.trans_le ((mul_le_mul_of_nonneg_right hcast hunit.le).trans hstep)
  · rcases Nat.eq_zero_or_pos n with hzero | hpos
    · subst hzero
      have he : e ≤ -1074 := hbits.resolve_left (by norm_num)
      left
      rw [Nat.log2_zero]
      omega
    · rcases le_total ((n.log2 : Int) + e - 52) (-1074) with hbottom | hnormal
      · exact .inl (max_eq_right hbottom)
      · right
        have hlower : 2 ^ n.log2 ≤ n := Nat.log2_self_le (by omega)
        have hcast : (2 : ℚ) ^ n.log2 ≤ n := by exact_mod_cast hlower
        have hsum : max ((n.log2 : Int) + e - 52) (-1074) + 52 = e + (n.log2 : Nat) := by omega
        rw [hsum, two_zpow_add]
        exact (mul_le_mul_of_nonneg_right hcast hunit.le).trans hle

theorem le_log2_of_bits {n : Nat} {e : Int} (hbits : 2 ^ 52 ≤ n ∨ e ≤ -1074) :
    e ≤ max (n.log2 + e - 52) (-1074) := by
  rcases hbits with hlarge | hbottom
  · have hlog : 52 ≤ n.log2 := (Nat.le_log2 (by omega)).2 hlarge
    omega
  · omega

/-- A significand in place is not shifted. -/
theorem shiftToTargetExponent_of_lt {m : Nat} {t : Int} (hlt : m < 2 ^ 53) (ht : -1074 ≤ t) :
    shiftToTargetExponent Format.binary64 m t .exact = (⟨m, false, false⟩, t) := by
  have hlog : m.log2 < 53 := by
    rcases Nat.eq_zero_or_pos m with rfl | hpos
    · decide
    · exact (Nat.log2_lt (by omega)).2 hlt
  have hshift : (max ((m.log2 : Int) + t - 52) (-1074) - t).toNat = 0 := by omega
  simp only [shiftToTargetExponent, shiftToExponent, targetExponent_eq, hshift]
  norm_num
  rfl

/-- A significand that rounding made too long is shifted once. -/
theorem shiftToTargetExponent_carry {t : Int} (h : -1074 ≤ t) :
    shiftToTargetExponent Format.binary64 (2 ^ 53) t .exact = (⟨2 ^ 52, false, false⟩, t + 1) := by
  have hlog : (2 ^ 53 : Nat).log2 = 53 := Nat.log2_two_pow
  have hshift : (max (((53 : Nat) : Int) + t - 52) (-1074) - t).toNat = 1 := by omega
  simp only [shiftToTargetExponent, shiftToExponent, targetExponent_eq, hlog, hshift]
  rfl

theorem RoundsTo.nearest {m : Nat} {q : Int} {v : ℚ} (h : RoundsTo m q v) :
    Nearest m (v / 2 ^ q) := by
  have hunit := two_zpow_pos q
  refine ⟨?_, ?_, fun hodd => ⟨?_, ?_⟩⟩
  · rw [← mul_div_assoc, le_div_iff₀ hunit, two_zpow_eq_quarters q]
    have hlow := h.low
    linarith
  · rw [← mul_div_assoc, div_le_iff₀ hunit, two_zpow_eq_quarters q]
    have hhigh := h.high
    linarith
  · rw [← mul_div_assoc, lt_div_iff₀ hunit, two_zpow_eq_quarters q]
    have hlow := (h.strict hodd).1
    linarith
  · rw [← mul_div_assoc, div_lt_iff₀ hunit, two_zpow_eq_quarters q]
    have hhigh := (h.strict hodd).2
    linarith

/-- Just below a power of two the significand is rounded up to one that is too long. -/
theorem RoundsTo.nearest_carry {q : Int} {v : ℚ} (h : RoundsTo (2 ^ 52) q v) (hq : -1074 < q)
    (hbelow : v < 2 ^ (q + 52)) : Nearest (2 ^ 53) (v / 2 ^ (q - 1)) := by
  have hunit := two_zpow_pos (q - 1)
  have hhalf : (2 : ℚ) ^ (q - 1) = 2 * 2 ^ (q - 2) := by
    have hsum : q - 1 = q - 2 + (1 : Nat) := by omega
    rw [hsum, two_zpow_add]
    norm_num
  have hexpand : (2 : ℚ) ^ (q + 52) = 2 ^ 54 * 2 ^ (q - 2) := two_zpow_add_quarters q 52
  have hlow := h.denser rfl hq
  rw [hexpand] at hbelow
  refine ⟨?_, ?_, fun hodd => absurd hodd (by norm_num)⟩
  · rw [← mul_div_assoc, le_div_iff₀ hunit, hhalf]
    norm_num at hlow ⊢
    linarith
  · rw [← mul_div_assoc, div_le_iff₀ hunit, hhalf]
    norm_num at hbelow ⊢
    have hpos := two_zpow_pos (q - 2)
    linarith

theorem shiftToTargetExponent_roundedMantissa {m : Nat} {q t : Int} {v : ℚ}
    {em : ExtendedMantissa} (hcanonical : Canonical m q) (hv : RoundsTo m q v)
    (hfits : Fits t v) (hmarks : Marks em (v / 2 ^ t)) :
    shiftToTargetExponent Format.binary64 em.roundedMantissa t .exact =
      (⟨m, false, false⟩, q) := by
  rcases hv.exponent_eq hcanonical hfits with heq | ⟨heq, hm, hq, hbelow⟩
  · subst heq
    rw [hmarks.roundedMantissa_eq hv.nearest]
    exact shiftToTargetExponent_of_lt hcanonical.lt hcanonical.lowest
  · subst heq hm
    rw [hmarks.roundedMantissa_eq (hv.nearest_carry hq hbelow),
      shiftToTargetExponent_carry hfits.lowest]
    have hsum : q - 1 + 1 = q := by omega
    rw [hsum]

/-- The first shift aims at an exponent that fits, and the shifted bits still say where the number
lies. -/
theorem exists_shifted {n : Nat} {e : Int} {accuracy : Accuracy} {v : ℚ}
    (hmarks : Marks (.ofMantissaAndAccuracy n accuracy) (v / 2 ^ e))
    (hbits : 2 ^ 52 ≤ n ∨ e ≤ -1074) :
    ∃ em t, Fits t v ∧ Marks em (v / 2 ^ t) ∧
      shiftToTargetExponent Format.binary64 n e accuracy = (em, t) := by
  have hfits := fits_of_marks hmarks hbits
  have hle := le_log2_of_bits hbits
  generalize htarget : max (n.log2 + e - 52) (-1074) = t at hfits hle
  have hsum : t = e + ((t - e).toNat : Int) := by omega
  refine ⟨ExtendedMantissa.ofMantissaAndAccuracy n accuracy >>> (t - e).toNat, t, hfits, ?_, ?_⟩
  · have hdiv : v / 2 ^ t = v / 2 ^ e / 2 ^ (t - e).toNat := by
      rw [div_div, mul_comm, ← two_zpow_add, ← hsum]
    rw [hdiv]
    exact hmarks.shiftRight _
  · simp only [shiftToTargetExponent, shiftToExponent, targetExponent_eq, htarget, ← hsum]

/-- Rounding shifts twice, the second time after the significand has been rounded. -/
theorem roundWithAccuracy_of_shifts {n : Nat} {e t q : Int} {accuracy : Accuracy}
    {em last : ExtendedMantissa} {sign : UnpackedFloat.Sign}
    (hfirst : shiftToTargetExponent Format.binary64 n e accuracy = (em, t))
    (hsecond : shiftToTargetExponent Format.binary64 em.roundedMantissa t .exact = (last, q)) :
    roundWithAccuracy Format.binary64 sign n e accuracy =
      if h : last.mantissa = 0 then .zero sign
      else .finite sign last.mantissa q (Nat.pos_of_ne_zero h) := by
  rw [roundWithAccuracy, hfirst]
  dsimp only
  rw [hsecond]

/-- Rounding gives the double in whose rounding interval the number is. -/
theorem roundWithAccuracy_eq {m : Nat} {q : Int} {n : Nat} {e : Int} {accuracy : Accuracy} {v : ℚ}
    {sign : UnpackedFloat.Sign} (hcanonical : Canonical m q) (hv : RoundsTo m q v)
    (hmarks : Marks (.ofMantissaAndAccuracy n accuracy) (v / 2 ^ e))
    (hbits : 2 ^ 52 ≤ n ∨ e ≤ -1074) :
    roundWithAccuracy Format.binary64 sign n e accuracy =
      .finite sign m q hcanonical.pos := by
  obtain ⟨em, t, hfits, hshifted, hfirst⟩ := exists_shifted hmarks hbits
  have hsecond := shiftToTargetExponent_roundedMantissa hcanonical hv hfits hshifted
  have hne : m ≠ 0 := Nat.pos_iff_ne_zero.1 hcanonical.pos
  rw [roundWithAccuracy_of_shifts hfirst hsecond, dif_neg hne]

end PipeQuery.Double
