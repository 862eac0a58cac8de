/-
Arithmetic on two integers.

Where the exact result is an integer of 64 bits it is worked out as one, and any other result is a
float or null.  Two kinds of results are integers of 64 bits and come as floats all the same: the
remainder of the least integer by -1, whose quotient has no 64 bits, and powers with an exponent
from 2 ^ 32 on.
-/
import Mathlib.Data.Rat.Floor
import Mathlib.Tactic.FieldSimp
import PipeQuery.Library

namespace PipeQuery

open Arithmetic

/-! ## Functions of values and their exact results -/

/-- A function of the library has this value on these arguments. -/
def Library.Gives (name : String) (args : List Value) (value : Value) : Prop :=
  ∃ arity call, builtin.lookup name = some (.value arity call) ∧
    arity.accepts args.length = true ∧ call args = .ok value

/-- The name of the function. -/
def Operation.name : Operation → String
  | .add => "add"
  | .subtract => "subtract"
  | .multiply => "multiply"
  | .divide => "divide"
  | .modulo => "mod"

/-- The exact result.  What remains after a quotient that is rounded down has the sign of the
divisor. -/
def Operation.exact (a b : ℚ) : Operation → ℚ
  | .add => a + b
  | .subtract => a - b
  | .multiply => a * b
  | .divide => a / b
  | .modulo => a - b * ⌊a / b⌋

/-- A function of this name has this exact result on two integers. -/
inductive ExactResult (a b : Int) : String → ℚ → Prop
  | operation (operation : Operation) (h : divides operation = true → b ≠ 0) :
      ExactResult a b operation.name (operation.exact a b)
  | power (h : 0 ≤ b) : ExactResult a b "pow" ((a : ℚ) ^ b)

/-- The result is not worked out as an integer, even if it is one of 64 bits: the remainder of the
least integer by -1, or a power with an exponent of more than 32 bits. -/
def Unattempted (name : String) (a b : Int64) : Prop :=
  name = "mod" ∧ a = Int64.minValue ∧ b = -1 ∨ name = "pow" ∧ 2 ^ 32 ≤ b.toInt

/-- Addition concatenates strings only. -/
theorem Arithmetic.add_eq_apply {a b : Value} (ha : ∀ s, a ≠ .str s) (hb : ∀ s, b ≠ .str s) :
    Arithmetic.add a b = apply .add a b := by
  cases a with
  | str s => exact absurd rfl (ha s)
  | _ =>
      cases b with
      | str t => exact absurd rfl (hb t)
      | _ => rfl

namespace Library

variable {name : String} {args : List Value} {value other : Value}

theorem Gives.unique (h : Gives name args value) (h' : Gives name args other) : value = other := by
  obtain ⟨arity, call, hlookup, _, hvalue⟩ := h
  obtain ⟨arity', call', hlookup', _, hother⟩ := h'
  rw [hlookup] at hlookup'
  obtain ⟨rfl, rfl⟩ := Function.value.inj (Option.some.inj hlookup')
  exact Except.ok.inj (hvalue.symm.trans hother)

theorem gives_operation (operation : Operation) {a b : Value} (ha : a.isNumber = true)
    (hb : b.isNumber = true) : Gives operation.name [a, b] (apply operation a b) := by
  cases operation with
  | add =>
      have hadd : Arithmetic.add a b = apply .add a b := by
        refine add_eq_apply ?_ ?_
        · rintro s rfl
          cases ha
        · rintro s rfl
          cases hb
      rw [← hadd]
      exact ⟨_, _, rfl, rfl, rfl⟩
  | subtract => exact ⟨_, _, rfl, rfl, rfl⟩
  | multiply => exact ⟨_, _, rfl, rfl, rfl⟩
  | divide => exact ⟨_, _, rfl, rfl, rfl⟩
  | modulo => exact ⟨_, _, rfl, rfl, rfl⟩

theorem gives_power (a b : Value) : Gives "pow" [a, b] (power a b) :=
  ⟨_, _, rfl, rfl, rfl⟩

end Library

/-! ## Integers of 64 bits -/

section Integers

variable {n : Int} {a b m : Int64}

theorem fitsInt64_iff : fitsInt64 n = true ↔ -2 ^ 63 ≤ n ∧ n < 2 ^ 63 :=
  decide_eq_true_iff

theorem toInt_ofInt_of_fits (h : fitsInt64 n = true) : (Int64.ofInt n).toInt = n :=
  Int64.toInt_ofInt_of_le (fitsInt64_iff.1 h).1 (fitsInt64_iff.1 h).2

/-- The quotient of two integers of 64 bits has 64 bits, but for that of the least by -1. -/
theorem fitsInt64_tdiv_iff (hb : b ≠ 0) :
    fitsInt64 (a.toInt.tdiv b.toInt) = true ↔ ¬ (a = Int64.minValue ∧ b = -1) := by
  constructor
  · rintro hfits ⟨rfl, rfl⟩
    exact absurd hfits (by decide)
  · intro hne
    have hlow := a.le_toInt
    have hhigh := a.toInt_lt
    have hquotient : (a.toInt.tdiv b.toInt).natAbs = a.toInt.natAbs / b.toInt.natAbs :=
      Int.natAbs_tdiv _ _
    have hzero : b.toInt ≠ 0 := fun h => hb (Int64.toInt_inj.1 h)
    rw [fitsInt64_iff]
    by_cases hunit : b.toInt = -1
    · have hb' : b = -1 := Int64.toInt_inj.1 hunit
      have hleast : a.toInt ≠ -2 ^ 63 := fun h => hne ⟨Int64.toInt_inj.1 h, hb'⟩
      rw [hunit, Int.tdiv_neg, Int.tdiv_one]
      omega
    · by_cases hone : b.toInt = 1
      · rw [hone, Int.tdiv_one]
        exact ⟨hlow, hhigh⟩
      · -- Any other divisor leaves at most half of the magnitude.
        have hhalf : a.toInt.natAbs / b.toInt.natAbs ≤ a.toInt.natAbs / 2 :=
          Nat.div_le_div_left (by omega) (by decide)
        omega

end Integers

/-! ## Exact results -/

section Exact

variable {a b n : Int}

theorem floor_div_eq_fdiv (a b : Int) : ⌊(a / b : ℚ)⌋ = a.fdiv b := by
  have hnonneg (a : Int) (b : Nat) : ⌊(a / (b : Int) : ℚ)⌋ = a.fdiv b := by
    rw [Int.fdiv_eq_ediv_of_nonneg a (Int.natCast_nonneg b)]
    exact_mod_cast Rat.floor_intCast_div_natCast a b
  obtain ⟨k, rfl | rfl⟩ := b.eq_nat_or_neg
  · exact hnonneg a k
  · rw [← Int.neg_fdiv_neg, neg_neg, ← hnonneg]
    push_cast
    rw [div_neg, neg_div]

namespace Operation

theorem exact_add : exact a b .add = n ↔ a + b = n := by
  rw [exact]
  exact_mod_cast Iff.rfl

theorem exact_subtract : exact a b .subtract = n ↔ a - b = n := by
  rw [exact]
  exact_mod_cast Iff.rfl

theorem exact_multiply : exact a b .multiply = n ↔ a * b = n := by
  rw [exact]
  exact_mod_cast Iff.rfl

theorem exact_divide (hb : b ≠ 0) : exact a b .divide = n ↔ a = n * b := by
  rw [exact, div_eq_iff (by exact_mod_cast hb)]
  exact_mod_cast Iff.rfl

theorem exact_modulo : exact a b .modulo = n ↔ a.fmod b = n := by
  rw [exact, floor_div_eq_fdiv, Int.fmod_def]
  exact_mod_cast Iff.rfl

end Operation

/-- The remainder with the sign of the divisor is that with the sign of the dividend, and the
divisor more where the two signs differ. -/
theorem fmod_eq_ite (a b : Int) :
    a.fmod b = if a.tmod b != 0 && decide (a.tmod b < 0) != decide (b < 0) then a.tmod b + b
      else a.tmod b := by
  have hzero : b ∣ a ↔ a.tmod b = 0 := Int.dvd_iff_tmod_eq_zero
  simp only [Bool.and_eq_true, bne_iff_ne, ne_eq, decide_eq_decide]
  rw [Int.fmod_eq_tmod]
  rcases le_or_gt 0 a with ha | ha
  · have hsign := Int.tmod_nonneg b ha
    split_ifs <;> omega
  · have hsign : 0 ≤ -a.tmod b := by
      rw [← Int.neg_tmod]
      exact Int.tmod_nonneg b (by omega)
    split_ifs <;> omega

/-- What is worked out as an integer is the exact result. -/
theorem whole?_eq_some_iff {operation : Operation} (h : divides operation = true → b ≠ 0) :
    whole? operation a b = some n ↔ operation.exact a b = n ∧
      (operation = .modulo → fitsInt64 (a.tdiv b) = true) := by
  cases operation with
  | add => simp [whole?, Operation.exact_add]
  | subtract => simp [whole?, Operation.exact_subtract]
  | multiply => simp [whole?, Operation.exact_multiply]
  | divide =>
      rw [whole?, Operation.exact_divide (h rfl)]
      constructor
      · intro hresult
        split at hresult
        · rename_i hmod
          obtain rfl := Option.some.inj hresult
          exact ⟨(Int.tdiv_mul_cancel (Int.dvd_of_tmod_eq_zero hmod)).symm, nofun⟩
        · cases hresult
      · rintro ⟨rfl, _⟩
        rw [if_pos (Int.mul_tmod_left n b), Int.mul_tdiv_cancel n (h rfl)]
  | modulo =>
      simp only [whole?, ← fmod_eq_ite, Operation.exact_modulo]
      split
      · rename_i hfits
        simp [hfits]
      · rename_i hfits
        simp [hfits]

/-- A float comes of what is not worked out as an integer. -/
theorem onFloats_ne_int {operation : Operation} {x y : Float} {n : Int64} :
    onFloats operation x y ≠ .int n := by
  unfold onFloats
  split
  · exact nofun
  · exact nofun

theorem onIntegers_eq_int_iff {operation : Operation} {a b n : Int64}
    (h : divides operation = true → b ≠ 0) :
    onIntegers operation a b = .int n ↔ operation.exact a.toInt b.toInt = n.toInt ∧
      (operation = .modulo → fitsInt64 (a.toInt.tdiv b.toInt) = true) := by
  have hzero : divides operation = true → b.toInt ≠ 0 :=
    fun hdivides heq => h hdivides (Int64.toInt_inj.1 heq)
  rw [← whole?_eq_some_iff hzero, onIntegers, if_neg (by simpa using h)]
  constructor
  · intro hresult
    split at hresult
    · rename_i m hm
      obtain ⟨hm, hfits⟩ := Option.filter_eq_some_iff.1 hm
      rw [hm, ← Value.int.inj hresult, toInt_ofInt_of_fits hfits]
    · exact absurd hresult onFloats_ne_int
  · intro hresult
    rw [hresult, Option.filter_some, if_pos (fitsInt64_toInt n)]
    simp

end Exact

/-! ## Powers -/

section Powers

variable {base n : Int} {exponent : Nat}

/-- The powers of zero and of the units repeat. -/
theorem pow_min_eq (h : base.natAbs ≤ 1) :
    base ^ min exponent (2 - exponent % 2) = base ^ exponent := by
  have hbase : base = 0 ∨ base = 1 ∨ base = -1 := by omega
  rcases Nat.eq_zero_or_pos exponent with rfl | hpos
  · rfl
  · rcases hbase with rfl | rfl | rfl
    · rw [zero_pow (by omega), zero_pow (by omega)]
    · rw [one_pow, one_pow]
    · rcases Nat.mod_two_eq_zero_or_one exponent with hmod | hmod
      · rw [(Nat.even_iff.2 hmod).neg_one_pow, hmod, min_eq_right (by omega)]
        rfl
      · rw [(Nat.odd_iff.2 hmod).neg_one_pow, hmod, min_eq_right (by omega)]
        rfl

theorem not_fitsInt64_pow (hbase : 2 ≤ base.natAbs) (hexponent : 64 ≤ exponent) :
    fitsInt64 (base ^ exponent) = false := by
  have hlarge : 2 ^ 64 ≤ (base ^ exponent).natAbs := by
    calc 2 ^ 64 ≤ 2 ^ exponent := Nat.pow_le_pow_right (by decide) hexponent
      _ ≤ base.natAbs ^ exponent := Nat.pow_le_pow_left hbase exponent
      _ = (base ^ exponent).natAbs := (Int.natAbs_pow base exponent).symm
  rw [← Bool.not_eq_true, fitsInt64_iff]
  omega

/-- The power is exact, where it has 64 bits. -/
theorem filter_integerPower?_eq_some_iff :
    (integerPower? base exponent).filter fitsInt64 = some n ↔
      base ^ exponent = n ∧ fitsInt64 n = true := by
  rw [Option.filter_eq_some_iff]
  refine and_congr_left fun hfits => ?_
  rw [integerPower?]
  split
  · rename_i hsmall
    rw [Option.some.injEq]
    exact ⟨(pow_min_eq hsmall).symm.trans, (pow_min_eq hsmall).trans⟩
  · rename_i hlarge
    split
    · rw [Option.some.injEq]
    · rename_i hexponent
      have hne : base ^ exponent ≠ n := by
        rintro rfl
        rw [not_fitsInt64_pow (by omega) (by omega)] at hfits
        cases hfits
      simp [hne]

/-- The power is exact, where its exponent has 32 bits and the power 64. -/
theorem checkedPower?_eq_some_iff {exponent : Int} (h : 0 ≤ exponent) :
    checkedPower? base exponent = some n ↔
      base ^ exponent.toNat = n ∧ fitsInt64 n = true ∧ exponent < 2 ^ 32 := by
  rw [checkedPower?]
  split
  · rename_i hrange
    rw [filter_integerPower?_eq_some_iff, and_iff_left hrange.2]
  · rename_i hrange
    simp
    omega

/-- The power of two doubles is a float or null. -/
theorem ite_isFinite_ne_int {x : Float} {n : Int64} :
    (if x.isFinite then Value.float x else .null) ≠ .int n := by
  split
  · exact nofun
  · exact nofun

theorem power_eq_int_iff {a b n : Int64} (h : 0 ≤ b.toInt) :
    power (.int a) (.int b) = .int n ↔ (a.toInt : ℚ) ^ b.toInt = n.toInt ∧ b.toInt < 2 ^ 32 := by
  have hexact : (a.toInt : ℚ) ^ b.toInt = n.toInt ↔ a.toInt ^ b.toInt.toNat = n.toInt := by
    conv => lhs; rw [← Int.toNat_of_nonneg h, zpow_natCast]
    exact_mod_cast Iff.rfl
  rw [hexact]
  simp only [power, Value.asFloat?]
  constructor
  · intro hresult
    split at hresult
    · rename_i m hm
      obtain ⟨hpower, hfits, hexponent⟩ := (checkedPower?_eq_some_iff h).1 hm
      rw [hpower, ← Value.int.inj hresult, toInt_ofInt_of_fits hfits]
      exact ⟨rfl, hexponent⟩
    · exact absurd hresult ite_isFinite_ne_int
  · rintro ⟨hpower, hexponent⟩
    rw [(checkedPower?_eq_some_iff h).2 ⟨hpower, fitsInt64_toInt n, hexponent⟩]
    exact congrArg Value.int (Int64.ofInt_toInt n)

end Powers

/-! ## The functions on integers -/

namespace Library

/-- The functions on two integers have an integer of 64 bits as result if and only if the exact
result is this integer, unless it is not attempted; a zero divisor gives null. -/
theorem gives_int_iff (a b : Int64) :
    (b = 0 → Gives "divide" [.int a, .int b] .null ∧ Gives "mod" [.int a, .int b] .null) ∧
      ∀ name result, ExactResult a.toInt b.toInt name result →
        ∃ value, Gives name [.int a, .int b] value ∧
          ∀ n : Int64, value = .int n ↔ result = n.toInt ∧ ¬ Unattempted name a b := by
  refine ⟨?_, fun name result hexact => ?_⟩
  · rintro rfl
    exact ⟨gives_operation .divide rfl rfl, gives_operation .modulo rfl rfl⟩
  · cases hexact with
    | operation operation h =>
        have hb : divides operation = true → b ≠ 0 := by
          rintro hdivides rfl
          exact h hdivides rfl
        refine ⟨_, gives_operation operation rfl rfl, fun n => ?_⟩
        refine (onIntegers_eq_int_iff hb).trans (and_congr_right fun _ => ?_)
        cases operation with
        | modulo => simp [Unattempted, Operation.name, fitsInt64_tdiv_iff (hb rfl)]
        | _ => simp [Unattempted, Operation.name]
    | power h =>
        refine ⟨_, gives_power _ _, fun n => ?_⟩
        rw [power_eq_int_iff h]
        refine and_congr_right fun _ => ?_
        simp [Unattempted]

/-- The least integer leaves 2 after division by 10, and nothing is divided by zero. -/
theorem gives_int_iff_remainder :
    ExactResult Int64.minValue.toInt (10 : Int64).toInt "mod" 2 ∧
      Gives "mod" [.int Int64.minValue, .int 10] (.int 2) ∧ (0 : Int64) = 0 ∧
        Gives "divide" [.int 1, .int 0] .null := by
  have hexact : ExactResult Int64.minValue.toInt (10 : Int64).toInt "mod" 2 := by
    have hvalue : Operation.exact Int64.minValue.toInt (10 : Int64).toInt .modulo = 2 :=
      Operation.exact_modulo.2 rfl
    rw [← hvalue]
    exact .operation .modulo fun _ => by decide
  obtain ⟨value, hvalue, hiff⟩ := (gives_int_iff Int64.minValue 10).2 _ _ hexact
  have hattempted : ¬ Unattempted "mod" Int64.minValue 10 := by
    rintro (⟨_, _, hb⟩ | ⟨hname, _⟩)
    · revert hb
      decide
    · revert hname
      decide
  obtain rfl : value = .int 2 := (hiff 2).2 ⟨by norm_cast, hattempted⟩
  exact ⟨hexact, hvalue, rfl, ((gives_int_iff 1 0).1 rfl).1⟩

/-- Nothing remains of the least integer divided by -1, and all powers of one are one, but neither
comes as an integer. -/
theorem exists_integer_as_float :
    (ExactResult Int64.minValue.toInt (-1 : Int64).toInt "mod" (0 : Int64).toInt ∧
      ∀ n, ¬ Gives "mod" [.int Int64.minValue, .int (-1)] (.int n)) ∧
      ExactResult (1 : Int64).toInt (4294967296 : Int64).toInt "pow" (1 : Int64).toInt ∧
        ∀ n, ¬ Gives "pow" [.int 1, .int 4294967296] (.int n) := by
  have hdivisor : divides .modulo = true → (-1 : Int64) ≠ 0 := fun _ => by decide
  refine ⟨⟨?_, fun n hgives => ?_⟩, ?_, fun n hgives => ?_⟩
  · have hvalue : Operation.exact Int64.minValue.toInt (-1 : Int64).toInt .modulo =
        (0 : Int64).toInt :=
      Operation.exact_modulo.2 rfl
    rw [← hvalue]
    exact .operation .modulo fun _ => by decide
  · have hint : onIntegers .modulo Int64.minValue (-1) = .int n :=
      (gives_operation .modulo rfl rfl).unique hgives
    have hfits := ((onIntegers_eq_int_iff hdivisor).1 hint).2 rfl
    revert hfits
    decide
  · have hvalue : ((1 : Int64).toInt : ℚ) ^ (4294967296 : Int64).toInt = (1 : Int64).toInt :=
      one_zpow _
    rw [← hvalue]
    exact .power (by decide)
  · have hint : power (.int 1) (.int 4294967296) = .int n := (gives_power _ _).unique hgives
    have hsmall := ((power_eq_int_iff (by decide)).1 hint).2
    revert hsmall
    decide

end Library

end PipeQuery
