import Lox.Decimal.Shortest
import Mathlib

/-!
# The parts of a float

A finite float has a sign and a magnitude, and the magnitude holds an exponent and a significand
(`Double.magnitude_eq`).  What the operations on floats do to these parts is said here: taking the
bits of a magnitude, changing the sign, the absolute value, the order of two positive floats and
the equality with zero.  A float is determined by its parts (`Double.ofFloat_injective`), so floats
are compared by comparing parts.

The operations are defined on the unpacked form of a float.  `Double.unpacked` gives that form for
the parts of a finite float, and `unpack_of_isFinite` and `ofFloat_pack` say that it is the form
that the operations take apart and put together.
-/

namespace Lox

open Float.Model Float.Model.UnpackedFloat

/-! ### The fields of 64 bits -/

theorem toNat_unpackMantissa (b : BitVec 64) :
    (@unpackMantissa Format.binary64 b).toNat = b.toNat % 2 ^ 52 := by
  simp [unpackMantissa]

theorem toNat_unpackExponent (b : BitVec 64) :
    (@unpackExponent Format.binary64 b).toNat = b.toNat % 2 ^ 63 / 2 ^ 52 := by
  simp [unpackExponent, Nat.shiftRight_eq_div_pow]
  omega

theorem toNat_unpackSign (b : BitVec 64) :
    (@unpackSign Format.binary64 b).toNat = b.toNat / 2 ^ 63 := by
  have hb : b.toNat < 2 ^ 64 := b.isLt
  simp [unpackSign, Nat.shiftRight_eq_div_pow]
  omega

/-- The first bit of a normal significand is not stored. -/
theorem toNat_one_append (m : BitVec 52) : (1#1 ++ m).toNat = 2 ^ 52 + m.toNat := by
  rw [BitVec.toNat_append, ← Nat.shiftLeft_add_eq_or_of_lt m.isLt]
  rfl

namespace Double

/-! ### Exponent and significand -/

/-- A double that is neither infinite nor no number. -/
def IsFinite (x : Double) : Prop := x.magnitude < Decimal.infinityBits

instance (x : Double) : Decidable x.IsFinite := inferInstanceAs (Decidable (_ < _))

/-- A small magnitude is its own significand; a larger one lacks the first bit. -/
theorem subnormal_or_normal (x : Double) :
    x.magnitude < 2 ^ 52 ∧ x.significand = x.magnitude ∧ x.exponent = -1074 ∨
      2 ^ 52 ≤ x.magnitude ∧ x.significand = 2 ^ 52 + x.magnitude % 2 ^ 52 ∧
        x.exponent = (x.magnitude / 2 ^ 52 : Nat) - 1075 := by
  simp only [significand, exponent, Decimal.minExponent, Nat.pow_eq]
  split <;> omega

/-- A magnitude counts `2 ^ 52` for each step of the exponent, and the significand. -/
theorem magnitude_eq (x : Double) :
    (x.magnitude : Int) = (x.exponent + 1074) * 2 ^ 52 + x.significand := by
  have h := x.subnormal_or_normal
  omega

theorem significand_lt (x : Double) : x.significand < 2 ^ 53 := by
  have h := x.subnormal_or_normal
  omega

theorem le_exponent (x : Double) : -1074 ≤ x.exponent := by
  have h := x.subnormal_or_normal
  omega

/-- Only at the least exponent may the first bit of the significand be missing. -/
theorem exponent_or_significand (x : Double) : x.exponent = -1074 ∨ 2 ^ 52 ≤ x.significand := by
  have h := x.subnormal_or_normal
  omega

theorem significand_pos {x : Double} (h : x.magnitude ≠ 0) : 0 < x.significand := by
  have h := x.subnormal_or_normal
  omega

/-! ### The unpacked form -/

def ofBits (bits : Nat) : Double := ⟨Nat.pow 2 63 ≤ bits, bits % Nat.pow 2 63⟩

def bits (x : Double) : Nat := (if x.negative then 2 ^ 63 else 0) + x.magnitude

theorem IsFinite.bits_lt {x : Double} (h : x.IsFinite) : x.bits < 2 ^ 64 := by
  have hfin : x.magnitude < 2047 * 2 ^ 52 := h
  rw [bits]
  split <;> omega

theorem ofBits_bits {x : Double} (h : x.IsFinite) : ofBits x.bits = x := by
  obtain ⟨negative, magnitude⟩ := x
  have hfin : magnitude < 2047 * 2 ^ 52 := h
  rw [ofBits, mk.injEq, Nat.pow_eq]
  cases negative with
  | false =>
    have hbits : bits ⟨false, magnitude⟩ = magnitude := Nat.zero_add magnitude
    rw [hbits]
    exact ⟨decide_eq_false (by omega), by omega⟩
  | true =>
    have hbits : bits ⟨true, magnitude⟩ = 2 ^ 63 + magnitude := rfl
    rw [hbits]
    exact ⟨decide_eq_true (by omega), by omega⟩

def signBit (x : Double) : Sign := if x.negative then .negative else .positive

/-- The unpacked form of the float with finite parts. -/
def unpacked (x : Double) : UnpackedFloat :=
  if h : x.magnitude = 0 then .zero x.signBit
  else .finite x.signBit x.significand x.exponent (significand_pos h)

theorem unpacked_of_eq_zero {x : Double} (h : x.magnitude = 0) : x.unpacked = .zero x.signBit :=
  dif_pos h

theorem unpacked_of_ne_zero {x : Double} (h : x.magnitude ≠ 0) :
    x.unpacked = .finite x.signBit x.significand x.exponent (significand_pos h) :=
  dif_neg h

theorem ofBitVec_unpackSign (b : BitVec 64) :
    Sign.ofBitVec (@unpackSign Format.binary64 b) = (ofBits b.toNat).signBit := by
  have hb : b.toNat < 2 ^ 64 := b.isLt
  have hs := toNat_unpackSign b
  by_cases h : 2 ^ 63 ≤ b.toNat
  · have hne : @unpackSign Format.binary64 b ≠ 0#1 := by
      intro hzero
      rw [hzero, BitVec.toNat_zero] at hs
      omega
    have hnegative : (ofBits b.toNat).negative = true := decide_eq_true h
    rw [Sign.ofBitVec, if_neg hne, signBit, if_pos hnegative]
  · have hzero : @unpackSign Format.binary64 b = 0#1 := by
      rw [← BitVec.toNat_inj, hs, BitVec.toNat_zero]
      omega
    have hnegative : ¬ (ofBits b.toNat).negative = true := by
      rw [Bool.not_eq_true]
      exact decide_eq_false h
    rw [Sign.ofBitVec, if_pos hzero, signBit, if_neg hnegative]

theorem unpackExponent_eq_iff (b : BitVec 64) :
    @unpackExponent Format.binary64 b = -1#11 ↔ ¬ (ofBits b.toNat).IsFinite := by
  have hfin : (ofBits b.toNat).IsFinite ↔ b.toNat % 2 ^ 63 < 2047 * 2 ^ 52 := Iff.rfl
  have hones : (-1#11).toNat = 2047 := rfl
  rw [← BitVec.toNat_inj, toNat_unpackExponent, hones, hfin]
  omega

theorem unpack_of_isFinite {b : BitVec 64} (h : (ofBits b.toNat).IsFinite) :
    UnpackedFloat.unpack Format.binary64 b = (ofBits b.toNat).unpacked := by
  have he := toNat_unpackExponent b
  have hm := toNat_unpackMantissa b
  have hmagnitude : (ofBits b.toNat).magnitude = b.toNat % 2 ^ 63 := rfl
  have hones : @unpackExponent Format.binary64 b ≠ -1#11 := by
    rw [ne_eq, unpackExponent_eq_iff, Decidable.not_not]
    exact h
  unfold UnpackedFloat.unpack
  dsimp only
  rw [ofBitVec_unpackSign, if_neg hones]
  by_cases hzero : @unpackExponent Format.binary64 b = 0#11
  · rw [hzero, BitVec.toNat_zero] at he
    have hsub : (ofBits b.toNat).significand = (ofBits b.toNat).magnitude ∧
        (ofBits b.toNat).exponent = -1074 := by
      have hparts := (ofBits b.toNat).subnormal_or_normal
      omega
    rw [if_pos hzero, hzero]
    by_cases hmant : @unpackMantissa Format.binary64 b = 0#52
    · rw [hmant, BitVec.toNat_zero] at hm
      rw [dif_pos hmant, unpacked_of_eq_zero (by omega)]
    · have hpos : (@unpackMantissa Format.binary64 b).toNat ≠ 0 := by
        rwa [← BitVec.toNat_inj] at hmant
      rw [dif_neg hmant, unpacked_of_ne_zero (by omega)]
      congr 1
      · omega
      · rw [hsub.2]
        rfl
  · have hpos : (@unpackExponent Format.binary64 b).toNat ≠ 0 := by
      rwa [← BitVec.toNat_inj] at hzero
    have hnorm : (ofBits b.toNat).significand = 2 ^ 52 + (ofBits b.toNat).magnitude % 2 ^ 52 ∧
        (ofBits b.toNat).exponent = ((ofBits b.toNat).magnitude / 2 ^ 52 : Nat) - 1075 := by
      have hparts := (ofBits b.toNat).subnormal_or_normal
      omega
    rw [if_neg hzero, unpacked_of_ne_zero (by omega)]
    congr 1
    · rw [toNat_one_append]
      omega
    · rw [he, hnorm.2, hmagnitude]
      rfl

/-! ### Floats -/

theorem ofFloat_pack {x : Double} (h : x.IsFinite) :
    ofFloat ⟨Float.Model.pack x.unpacked⟩ = x := by
  have hbits : (BitVec.ofNat 64 x.bits).toNat = x.bits := by
    rw [BitVec.toNat_ofNat, Nat.mod_eq_of_lt h.bits_lt]
  have hparts : ofBits (BitVec.ofNat 64 x.bits).toNat = x := by rw [hbits, ofBits_bits h]
  have hfin : (ofBits (BitVec.ofNat 64 x.bits).toNat).IsFinite := by rwa [hparts]
  have hnan : ¬ @isNaNBits Format.binary64 (BitVec.ofNat 64 x.bits) = true := by
    intro hnan
    exact (unpackExponent_eq_iff _).mp (of_decide_eq_true hnan).1 hfin
  have hpack : UnpackedFloat.pack Format.binary64 x.unpacked = BitVec.ofNat 64 x.bits := by
    have hunpack := @pack_unpack Format.binary64 (BitVec.ofNat 64 x.bits)
    rw [if_neg hnan, unpack_of_isFinite hfin, hparts] at hunpack
    exact hunpack (by decide)
  have hfloat : ofFloat ⟨Float.Model.pack x.unpacked⟩ =
      ofBits (UnpackedFloat.pack Format.binary64 x.unpacked).toNat := rfl
  rw [hfloat, hpack, hparts]

theorem unpack_toModel {x : Float} (h : (ofFloat x).IsFinite) :
    x.toModel.unpack = (ofFloat x).unpacked :=
  unpack_of_isFinite h

theorem ofFloat_injective {x y : Float} (h : ofFloat x = ofFloat y) : x = y := by
  obtain ⟨hnegative, hmagnitude⟩ := Double.mk.inj h
  rw [decide_eq_decide] at hnegative
  simp only [Nat.pow_eq] at hnegative hmagnitude
  have hlt := x.toBits.toNat_lt
  have hlt' := y.toBits.toNat_lt
  rw [← Float.toBits_inj, ← UInt64.toNat_inj]
  omega

theorem isFinite_iff (x : Float) : x.isFinite = true ↔ (ofFloat x).IsFinite := by
  have hdef : x.isFinite = x.toModel.unpack.isFinite := rfl
  by_cases h : (ofFloat x).IsFinite
  · have hunpacked : (ofFloat x).unpacked.isFinite = true := by
      rw [unpacked]
      split <;> rfl
    rw [hdef, unpack_toModel h]
    exact iff_of_true hunpacked h
  · have hones := (unpackExponent_eq_iff x.toModel.toBits.toBitVec).mpr h
    have hunpacked : x.toModel.unpack.isFinite = false := by
      rw [Float.Model.unpack, UnpackedFloat.unpack]
      dsimp only
      rw [if_pos hones]
      split <;> rfl
    rw [hdef, hunpacked]
    exact iff_of_false Bool.false_ne_true h

theorem ofFloat_ofBits {m : Nat} (h : m < Decimal.infinityBits) :
    ofFloat (Float.ofBits m.toUInt64) = ⟨false, m⟩ := by
  have hfin : IsFinite ⟨false, m⟩ := h
  have hm : bits ⟨false, m⟩ = m := Nat.zero_add m
  have hlt := hfin.bits_lt
  rw [hm] at hlt
  have hbits : m.toUInt64.toBitVec.toNat = m := Nat.mod_eq_of_lt hlt
  have hparts : ofBits m.toUInt64.toBitVec.toNat = ⟨false, m⟩ := by
    rw [hbits, ← ofBits_bits hfin, hm]
  have hunpack : UnpackedFloat.unpack Format.binary64 m.toUInt64.toBitVec =
      unpacked ⟨false, m⟩ := by
    rw [unpack_of_isFinite (by rwa [hparts]), hparts]
  have hfloat : Float.ofBits m.toUInt64 =
      ⟨Float.Model.pack (UnpackedFloat.unpack Format.binary64 m.toUInt64.toBitVec)⟩ := rfl
  rw [hfloat, hunpack, ofFloat_pack hfin]

def neg (x : Double) : Double := { x with negative := !x.negative }

theorem neg_unpacked (x : Double) : x.unpacked.neg = x.neg.unpacked := by
  have hsign : -x.signBit = x.neg.signBit := by
    obtain ⟨negative, magnitude⟩ := x
    cases negative <;> rfl
  by_cases hzero : x.magnitude = 0
  · rw [unpacked_of_eq_zero hzero, @unpacked_of_eq_zero x.neg hzero, UnpackedFloat.neg, hsign]
  · rw [unpacked_of_ne_zero hzero, @unpacked_of_ne_zero x.neg hzero, UnpackedFloat.neg, hsign]
    rfl

theorem ofFloat_neg {x : Float} (h : (ofFloat x).IsFinite) : ofFloat (-x) = (ofFloat x).neg := by
  have hfin : (ofFloat x).neg.IsFinite := h
  have hfloat : -x = ⟨Float.Model.pack x.toModel.unpack.neg⟩ := rfl
  rw [hfloat, unpack_toModel h, neg_unpacked, ofFloat_pack hfin]

def abs (x : Double) : Double := { x with negative := false }

theorem abs_unpacked (x : Double) : x.unpacked.abs = x.abs.unpacked := by
  by_cases hzero : x.magnitude = 0
  · rw [unpacked_of_eq_zero hzero, @unpacked_of_eq_zero x.abs hzero]
    rfl
  · rw [unpacked_of_ne_zero hzero, @unpacked_of_ne_zero x.abs hzero]
    rfl

theorem ofFloat_abs {x : Float} (h : (ofFloat x).IsFinite) : ofFloat x.abs = (ofFloat x).abs := by
  have hfin : (ofFloat x).abs.IsFinite := h
  have hfloat : x.abs = ⟨Float.Model.pack x.toModel.unpack.abs⟩ := rfl
  rw [hfloat, unpack_toModel h, abs_unpacked, ofFloat_pack hfin]

/-! ### Order -/

/-- Exponents first and then significands is the order of magnitudes. -/
theorem compare_magnitude (x y : Double) :
    (compare x.exponent y.exponent).then (compare x.significand y.significand) =
      compare x.magnitude y.magnitude := by
  have hx := x.magnitude_eq
  have hy := y.magnitude_eq
  have hlt := x.significand_lt
  have hlt' := y.significand_lt
  have hleast := x.exponent_or_significand
  have hleast' := y.exponent_or_significand
  have hlow := x.le_exponent
  have hlow' := y.le_exponent
  rcases Int.lt_trichotomy x.exponent y.exponent with h | h | h
  · have hless : x.magnitude < y.magnitude := by omega
    rw [Int.compare_eq_lt.mpr h, Nat.compare_eq_lt.mpr hless, Ordering.lt_then]
  · rw [Int.compare_eq_eq.mpr h, Ordering.eq_then]
    rcases Nat.lt_trichotomy x.significand y.significand with h' | h' | h'
    · rw [Nat.compare_eq_lt.mpr h', Nat.compare_eq_lt.mpr (by omega)]
    · rw [Nat.compare_eq_eq.mpr h', Nat.compare_eq_eq.mpr (by omega)]
    · rw [Nat.compare_eq_gt.mpr h', Nat.compare_eq_gt.mpr (by omega)]
  · have hless : y.magnitude < x.magnitude := by omega
    rw [Int.compare_eq_gt.mpr h, Nat.compare_eq_gt.mpr hless, Ordering.gt_then]

theorem compare_unpacked {x y : Double} (hx : x.negative = false) (hy : y.negative = false) :
    x.unpacked.compare y.unpacked = some (compare x.magnitude y.magnitude) := by
  have hsign : x.signBit = .positive := by
    rw [signBit, hx]
    rfl
  have hsign' : y.signBit = .positive := by
    rw [signBit, hy]
    rfl
  by_cases hzero : x.magnitude = 0
  · rw [unpacked_of_eq_zero hzero, hzero]
    by_cases hzero' : y.magnitude = 0
    · rw [unpacked_of_eq_zero hzero', hzero']
      rfl
    · rw [unpacked_of_ne_zero hzero', hsign', Nat.compare_eq_lt.mpr (Nat.pos_of_ne_zero hzero')]
      rfl
  · rw [unpacked_of_ne_zero hzero, hsign]
    by_cases hzero' : y.magnitude = 0
    · rw [unpacked_of_eq_zero hzero', hzero', Nat.compare_eq_gt.mpr (Nat.pos_of_ne_zero hzero)]
      rfl
    · rw [unpacked_of_ne_zero hzero', hsign', UnpackedFloat.compare, compare_magnitude]

section

variable {x y : Float} (hx : (ofFloat x).IsFinite) (hy : (ofFloat y).IsFinite)
  (hsign : (ofFloat x).negative = false) (hsign' : (ofFloat y).negative = false)

include hx hy hsign hsign'

theorem le_iff : x ≤ y ↔ (ofFloat x).magnitude ≤ (ofFloat y).magnitude := by
  have hdef : x ≤ y ↔ decide (x.toModel.unpack.le y.toModel.unpack = true) = true := Iff.rfl
  rw [hdef, decide_eq_true_iff, unpack_toModel hx, unpack_toModel hy, UnpackedFloat.le,
    compare_unpacked hsign hsign', Option.any_some, Nat.isLE_compare]

theorem lt_iff : x < y ↔ (ofFloat x).magnitude < (ofFloat y).magnitude := by
  have hdef : x < y ↔ decide (x.toModel.unpack.lt y.toModel.unpack = true) = true := Iff.rfl
  rw [hdef, decide_eq_true_iff, unpack_toModel hx, unpack_toModel hy, UnpackedFloat.lt,
    compare_unpacked hsign hsign', beq_iff_eq, Option.some.injEq, Nat.compare_eq_lt]

end

theorem beq_zero_iff {x : Float} (h : (ofFloat x).IsFinite) :
    (x == 0) = true ↔ (ofFloat x).magnitude = 0 := by
  have hparts : ofFloat 0 = ⟨false, 0⟩ := by decide +kernel
  have hunpack : (0 : Float).toModel.unpack = .zero .positive := by
    rw [unpack_toModel (by decide +kernel), hparts]
    rfl
  have hdef : (x == 0) = x.toModel.unpack.beq (0 : Float).toModel.unpack := rfl
  rw [hdef, unpack_toModel h, hunpack, UnpackedFloat.beq]
  by_cases hzero : (ofFloat x).magnitude = 0
  · rw [unpacked_of_eq_zero hzero]
    exact iff_of_true rfl hzero
  · rw [unpacked_of_ne_zero hzero]
    refine iff_of_false ?_ hzero
    cases (ofFloat x).signBit <;> exact Bool.false_ne_true

end Double

end Lox
