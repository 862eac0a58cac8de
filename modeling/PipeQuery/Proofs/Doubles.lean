/-
What the bits of a double hold, and that packing a finite double undoes unpacking it.
-/
import Mathlib.Tactic.NormNum
import PipeQuery.Number.Binary

namespace PipeQuery.Double

open Float.Model
open Float.Model.UnpackedFloat

/-- The significands and exponents of the positive doubles: 53 bits, and fewer only at the
bottom. -/
structure Canonical (m : Nat) (q : Int) : Prop where
  pos : 0 < m
  lt : m < 2 ^ 53
  lowest : -1074 ≤ q
  highest : q ≤ 971
  normal : 2 ^ 52 ≤ m ∨ q = -1074

theorem log2_eq_of_normal {m : Nat} (hlow : 2 ^ 52 ≤ m) (hhigh : m < 2 ^ 53) : m.log2 = 52 := by
  have hne : m ≠ 0 := by omega
  have hupper : m.log2 < 53 := (Nat.log2_lt hne).2 hhigh
  have hlower : 52 ≤ m.log2 := (Nat.le_log2 hne).2 hlow
  omega

theorem log2_lt_of_subnormal {m : Nat} (hpos : 0 < m) (hlt : m < 2 ^ 52) : m.log2 < 52 :=
  (Nat.log2_lt (by omega)).2 hlt

/-- A double is its bits. -/
theorem eq_of_bits {a b : Float.Model} (h : a.toBits.toBitVec = b.toBits.toBitVec) : a = b := by
  obtain ⟨⟨_⟩, _⟩ := a
  obtain ⟨⟨_⟩, _⟩ := b
  cases h
  rfl

/-! ## The three fields -/

section Fields

variable {sign : UnpackedFloat.Sign} {e : BitVec 11} {m : BitVec 52} {b : BitVec 64}

theorem toNat_packComponents :
    (packComponents Format.binary64 sign e m).toNat =
      sign.toBitVec.toNat * 2 ^ 63 + e.toNat * 2 ^ 52 + m.toNat := by
  have happend : packComponents Format.binary64 sign e m = sign.toBitVec ++ e ++ m := rfl
  rw [happend, BitVec.toNat_append, BitVec.toNat_append, ← Nat.shiftLeft_add_eq_or_of_lt m.isLt,
    ← Nat.shiftLeft_add_eq_or_of_lt e.isLt, Nat.shiftLeft_eq, Nat.shiftLeft_eq]
  omega

theorem toNat_unpackMantissa : (@unpackMantissa Format.binary64 b).toNat = b.toNat % 2 ^ 52 := by
  simp [unpackMantissa]

theorem toNat_unpackExponent :
    (@unpackExponent Format.binary64 b).toNat = b.toNat / 2 ^ 52 % 2 ^ 11 := by
  simp [unpackExponent, Nat.shiftRight_eq_div_pow]

theorem toNat_unpackSign : (@unpackSign Format.binary64 b).toNat = b.toNat / 2 ^ 63 := by
  have hlt : b.toNat < 2 ^ 64 := b.isLt
  have hextract : @unpackSign Format.binary64 b = b.extractLsb 63 63 := rfl
  rw [hextract, BitVec.extractLsb_toNat, Nat.shiftRight_eq_div_pow]
  omega

theorem ofBitVec_toBitVec : Sign.ofBitVec sign.toBitVec = sign := by
  cases sign <;> rfl

theorem toBitVec_ofBitVec {b : BitVec 1} : (Sign.ofBitVec b).toBitVec = b := by
  revert b
  decide

theorem ofBitVec_unpackSign_packComponents :
    Sign.ofBitVec (unpackSign (packComponents Format.binary64 sign e m)) = sign := by
  have hsign : unpackSign (packComponents Format.binary64 sign e m) = sign.toBitVec := by
    apply BitVec.eq_of_toNat_eq
    have he : e.toNat < 2 ^ 11 := e.isLt
    have hm : m.toNat < 2 ^ 52 := m.isLt
    rw [toNat_unpackSign, toNat_packComponents]
    omega
  rw [hsign, ofBitVec_toBitVec]

theorem packComponents_unpack :
    packComponents Format.binary64 (Sign.ofBitVec (@unpackSign Format.binary64 b))
      (@unpackExponent Format.binary64 b) (@unpackMantissa Format.binary64 b) = b := by
  apply BitVec.eq_of_toNat_eq
  have hlt : b.toNat < 2 ^ 64 := b.isLt
  rw [toNat_packComponents, toBitVec_ofBitVec, toNat_unpackSign, toNat_unpackExponent,
    toNat_unpackMantissa]
  omega

end Fields

/-! ## Finite doubles -/

theorem toNat_implicit (m : BitVec 52) : (1#1 ++ m).toNat = 2 ^ 52 + m.toNat := by
  rw [BitVec.toNat_append, ← Nat.shiftLeft_add_eq_or_of_lt m.isLt, Nat.shiftLeft_eq]
  rfl

theorem toNat_pos_of_ne_zero {w : Nat} {b : BitVec w} (h : b ≠ 0#w) : 0 < b.toNat :=
  Nat.pos_of_ne_zero fun heq => h (BitVec.eq_of_toNat_eq (heq.trans BitVec.toNat_zero.symm))

theorem toNat_implicit_pos (m : BitVec 52) : 0 < (1#1 ++ m).toNat := by
  rw [toNat_implicit]
  omega

/-- What `unpack` gives for a double that is neither infinite nor no number. -/
inductive Unpacked (b : BitVec 64) : UnpackedFloat → Prop where
  | zero {sign} (hbits : b = packComponents Format.binary64 sign 0#11 0#52) :
      Unpacked b (.zero sign)
  | subnormal {sign} (m : BitVec 52) (hpos : 0 < m.toNat)
      (hbits : b = packComponents Format.binary64 sign 0#11 m) :
      Unpacked b (.finite sign m.toNat (-1074) hpos)
  | normal {sign} (e : BitVec 11) (m : BitVec 52) (hzero : e ≠ 0#11) (hones : e ≠ -1#11)
      (hpos : 0 < (1#1 ++ m).toNat) (hbits : b = packComponents Format.binary64 sign e m) :
      Unpacked b (.finite sign (1#1 ++ m).toNat (e.toNat - 1075) hpos)

/-- Unpacking goes by the fields. -/
theorem unpack_of_fields {b : BitVec 64} {sign : UnpackedFloat.Sign} {e : BitVec 11} {m : BitVec 52}
    (hsign : Sign.ofBitVec (@unpackSign Format.binary64 b) = sign)
    (he : @unpackExponent Format.binary64 b = e) (hm : @unpackMantissa Format.binary64 b = m) :
    unpack Format.binary64 b =
      if e = -1#11 then
        if m = 0#52 then .infinity sign else .notANumber
      else if e = 0#11 then
        if h : m = 0#52 then .zero sign
        else .finite sign m.toNat (e.toNat - 1075 + 1) (toNat_pos_of_ne_zero h)
      else .finite sign (1#1 ++ m).toNat (e.toNat - 1075) (toNat_implicit_pos m) := by
  subst hsign he hm
  rfl

theorem unpacked_of_isFinite {b : BitVec 64} (h : (unpack Format.binary64 b).isFinite = true) :
    Unpacked b (unpack Format.binary64 b) := by
  have hbits := packComponents_unpack (b := b)
  generalize hsign : Sign.ofBitVec (@unpackSign Format.binary64 b) = sign at hbits
  generalize he : @unpackExponent Format.binary64 b = e at hbits
  generalize hm : @unpackMantissa Format.binary64 b = m at hbits
  rw [unpack_of_fields hsign he hm] at h ⊢
  by_cases hones : e = -1#11
  · rw [if_pos hones] at h
    split at h
    · cases h
    · cases h
  · rw [if_neg hones]
    by_cases hzero : e = 0#11
    · subst hzero
      rw [if_pos rfl]
      by_cases hempty : m = 0#52
      · subst hempty
        rw [dif_pos rfl]
        exact .zero hbits.symm
      · rw [dif_neg hempty]
        exact .subnormal m _ hbits.symm
    · rw [if_neg hzero]
      exact .normal e m hzero hones _ hbits.symm

theorem toNat_lt_of_ne_ones {e : BitVec 11} (h : e ≠ -1#11) : e.toNat < 2047 := by
  have hlt : e.toNat < 2048 := e.isLt
  have hne : e.toNat ≠ 2047 := fun heq => h (BitVec.eq_of_toNat_eq (by rw [heq]; rfl))
  omega

theorem Unpacked.canonical {b : BitVec 64} {sign : UnpackedFloat.Sign} {m : Nat} {q : Int}
    {hpos : 0 < m} (h : Unpacked b (.finite sign m q hpos)) : Canonical m q := by
  cases h with
  | subnormal m hpos hbits =>
    have hm : m.toNat < 2 ^ 52 := m.isLt
    exact ⟨hpos, by omega, by decide, by decide, .inr rfl⟩
  | normal e m hzero hones hpos hbits =>
    have hm : m.toNat < 2 ^ 52 := m.isLt
    have hlow := toNat_pos_of_ne_zero hzero
    have hhigh := toNat_lt_of_ne_ones hones
    have himplicit := toNat_implicit m
    exact ⟨hpos, by omega, by omega, by omega, .inl (by omega)⟩

theorem pack_finite {sign : UnpackedFloat.Sign} {m : Nat} {q : Int} {hpos : 0 < m} :
    UnpackedFloat.pack Format.binary64 (.finite sign m q hpos) =
      if 2 ^ 11 ≤ (q + (1023 : Nat) + (52 : Nat)).toNat + 1 then
        packComponents Format.binary64 sign (-1#11) 0#52
      else if m.log2 + 1 = 53 then
        packComponents Format.binary64 sign (.ofNat 11 (q + (1023 : Nat) + (52 : Nat)).toNat)
          (.ofNat 52 m)
      else packComponents Format.binary64 sign 0#11 (.ofNat 52 m) :=
  rfl

theorem pack_normal {sign : UnpackedFloat.Sign} {m : Nat} {q : Int} {hpos : 0 < m}
    (hlow : 2 ^ 52 ≤ m) (hhigh : m < 2 ^ 53) (hmin : -1074 ≤ q) (hmax : q ≤ 971) :
    UnpackedFloat.pack Format.binary64 (.finite sign m q hpos) =
      packComponents Format.binary64 sign (.ofNat 11 (q + 1075).toNat) (.ofNat 52 m) := by
  have hlog : m.log2 + 1 = 53 := by rw [log2_eq_of_normal hlow hhigh]
  have hbias : (q + (1023 : Nat) + (52 : Nat)).toNat = (q + 1075).toNat := by omega
  rw [pack_finite, if_neg (by omega), if_pos hlog, hbias]

theorem pack_subnormal {sign : UnpackedFloat.Sign} {m : Nat} {hpos : 0 < m}
    (hlt : m < 2 ^ 52) :
    UnpackedFloat.pack Format.binary64 (.finite sign m (-1074) hpos) =
      packComponents Format.binary64 sign 0#11 (.ofNat 52 m) := by
  have hlog := log2_lt_of_subnormal hpos hlt
  rw [pack_finite, if_neg (by decide), if_neg (by omega)]

theorem Unpacked.pack_eq {b : BitVec 64} {u : UnpackedFloat} (h : Unpacked b u) :
    UnpackedFloat.pack Format.binary64 u = b := by
  cases h with
  | zero hbits => rw [hbits]; rfl
  | subnormal m hpos hbits =>
    rw [pack_subnormal m.isLt, hbits]
    simp
  | normal e m hzero hones hpos hbits =>
    have hm : m.toNat < 2 ^ 52 := m.isLt
    have hlow := toNat_pos_of_ne_zero hzero
    have hhigh := toNat_lt_of_ne_ones hones
    have himplicit := toNat_implicit m
    have hexponent : ((e.toNat : Int) - 1075 + 1075).toNat = e.toNat := by omega
    have hmantissa : BitVec.ofNat 52 (1#1 ++ m).toNat = m := by
      apply BitVec.eq_of_toNat_eq
      rw [himplicit, BitVec.toNat_ofNat]
      omega
    rw [pack_normal (by omega) (by omega) (by omega) (by omega), hexponent, hmantissa, hbits,
      BitVec.ofNat_toNat]
    rfl

theorem finite_congr {sign : UnpackedFloat.Sign} {m m' : Nat} {q q' : Int} {hpos : 0 < m}
    {hpos' : 0 < m'} (hm : m = m') (hq : q = q') :
    UnpackedFloat.finite sign m q hpos = .finite sign m' q' hpos' := by
  subst hm hq
  rfl

/-- Unpacking undoes packing. -/
theorem unpack_pack {sign : UnpackedFloat.Sign} {m : Nat} {q : Int} {hpos : 0 < m}
    (h : Canonical m q) :
    (Float.Model.pack (.finite sign m q hpos)).unpack = .finite sign m q hpos := by
  have hlt := h.lt
  have hlowest := h.lowest
  have hhighest := h.highest
  show unpack Format.binary64 (UnpackedFloat.pack Format.binary64 (.finite sign m q hpos)) = _
  rcases Nat.lt_or_ge m (2 ^ 52) with hsmall | hlarge
  · have hq : q = -1074 := h.normal.resolve_left (by omega)
    subst hq
    have hne : BitVec.ofNat 52 m ≠ 0#52 := by
      intro heq
      have hzero : m % 2 ^ 52 = 0 := congrArg BitVec.toNat heq
      omega
    have hmantissa : (BitVec.ofNat 52 m).toNat = m := by
      rw [BitVec.toNat_ofNat]
      omega
    rw [pack_subnormal hsmall, unpack_of_fields ofBitVec_unpackSign_packComponents
      unpackExponent_packComponents unpackMantissa_packComponents, if_neg (by decide), if_pos rfl,
      dif_neg hne]
    exact finite_congr hmantissa rfl
  · have hexponent : (BitVec.ofNat 11 (q + 1075).toNat).toNat = (q + 1075).toNat := by
      rw [BitVec.toNat_ofNat]
      omega
    have hones : BitVec.ofNat 11 (q + 1075).toNat ≠ -1#11 := by
      intro heq
      have hmax : (BitVec.ofNat 11 (q + 1075).toNat).toNat = 2047 := congrArg BitVec.toNat heq
      omega
    have hzero : BitVec.ofNat 11 (q + 1075).toNat ≠ 0#11 := by
      intro heq
      have hmin : (BitVec.ofNat 11 (q + 1075).toNat).toNat = 0 := congrArg BitVec.toNat heq
      omega
    have hmantissa : (1#1 ++ BitVec.ofNat 52 m).toNat = m := by
      rw [toNat_implicit, BitVec.toNat_ofNat]
      omega
    rw [pack_normal hlarge hlt hlowest hhighest, unpack_of_fields
      ofBitVec_unpackSign_packComponents unpackExponent_packComponents
      unpackMantissa_packComponents, if_neg hones, if_neg hzero]
    exact finite_congr hmantissa (by omega)

end PipeQuery.Double
