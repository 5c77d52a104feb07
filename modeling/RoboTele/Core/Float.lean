import RoboTele.Bytes.BigEndian
import Mathlib.Algebra.Order.Field.Rat
import Mathlib.Data.Nat.Log
import Mathlib.Tactic.FieldSimp
import Mathlib.Tactic.NormNum

/-!
# Singles by their bits

`f32OfBits` is the value of an IEEE 754 single, where it has one.  Most of the
model computes with such values, as exact rationals.  Where the source hands
an `f32` on, hashes it, or compares it with zero, the model keeps its bits
(`F32`): two singles are the same exactly if their bits are.
-/

namespace RoboTele

/-- The value of an IEEE 754 single, `none` for infinities and NaN. -/
def f32OfBits (bits : Nat) : Option ℚ :=
  let sign : ℚ := if bits / 2 ^ 31 % 2 = 1 then -1 else 1
  let exponent := bits / 2 ^ 23 % 256
  let mantissa : Nat := bits % 2 ^ 23
  if exponent = 255 then none
  else if exponent = 0 then some (sign * (mantissa : ℚ) / 2 ^ 149)
  else some (sign * (2 ^ 23 + (mantissa : ℚ)) * 2 ^ exponent / 2 ^ 150)

/-- An `f32` is its bits. -/
structure F32 where
  bits : UInt32
deriving DecidableEq

namespace F32

/-- `0.0`. -/
def zero : F32 := ⟨0⟩

/-- `1.0`. -/
def one : F32 := ⟨0x3F800000⟩

/-- `v.is_finite() && v > 0.0`. -/
def positive (v : F32) : Bool := (f32OfBits v.bits.toNat).any (0 < ·)

/-- `v != 0.0`.  Both zeros are zero, and a NaN is not. -/
def nonzero (v : F32) : Bool := decide (f32OfBits v.bits.toNat ≠ some 0)

/-- `f32::to_le_bytes`. -/
def toLeBytes (v : F32) : List UInt8 := (BigEndian.encode 4 v.bits.toNat).reverse

theorem nonzero_of_positive {v : F32} (h : v.positive = true) : v.nonzero = true := by
  obtain ⟨q, hq, hpos⟩ := Option.any_eq_true .. |>.mp h
  have hne : q ≠ 0 := (of_decide_eq_true hpos).ne'
  simp [nonzero, hq, hne]

/-! ## Whole numbers -/

/-- `n as f32`, exact below `2 ^ 24`. -/
def ofNat (n : Nat) : F32 :=
  if n = 0 then zero
  else
    let e := n.log2
    ⟨UInt32.ofNat ((127 + e) * 2 ^ 23 + (n * 2 ^ (23 - e) - 2 ^ 23))⟩

/-- The mantissa of a whole number with its leading bit. -/
theorem mantissa_bounds {n : Nat} (hzero : n ≠ 0) (h : n < 2 ^ 24) :
    n.log2 ≤ 23 ∧ 2 ^ 23 ≤ n * 2 ^ (23 - n.log2) ∧ n * 2 ^ (23 - n.log2) < 2 ^ 24 := by
  have he : n.log2 ≤ 23 := Nat.lt_succ_iff.mp ((Nat.log2_lt hzero).mpr h)
  have hlo : 2 ^ n.log2 ≤ n := Nat.log2_self_le hzero
  have hhi : n < 2 ^ (n.log2 + 1) := Nat.lt_log2_self
  have hpow : 2 ^ n.log2 * 2 ^ (23 - n.log2) = 2 ^ 23 := by
    rw [← pow_add, Nat.add_sub_cancel' he]
  refine ⟨he, hpow ▸ Nat.mul_le_mul_right _ hlo, ?_⟩
  calc n * 2 ^ (23 - n.log2) < 2 ^ (n.log2 + 1) * 2 ^ (23 - n.log2) :=
        Nat.mul_lt_mul_of_pos_right hhi (Nat.pow_pos (by decide))
    _ = 2 * (2 ^ n.log2 * 2 ^ (23 - n.log2)) := by ring
    _ = 2 ^ 24 := by rw [hpow]; norm_num

theorem toNat_ofNat {n : Nat} (hzero : n ≠ 0) (h : n < 2 ^ 24) :
    (ofNat n).bits.toNat = (127 + n.log2) * 2 ^ 23 + (n * 2 ^ (23 - n.log2) - 2 ^ 23) := by
  obtain ⟨he, hlo, hhi⟩ := mantissa_bounds hzero h
  rw [ofNat, if_neg hzero]
  exact UInt32.toNat_ofNat_of_lt' (show _ < 2 ^ 32 by omega)

/-- The sign of a whole number is clear. -/
theorem toNat_ofNat_lt {n : Nat} (h : n < 2 ^ 24) : (ofNat n).bits.toNat < 2 ^ 31 := by
  by_cases hzero : n = 0
  · subst hzero
    simp [ofNat, zero]
  · obtain ⟨he, hlo, hhi⟩ := mantissa_bounds hzero h
    rw [toNat_ofNat hzero h]
    omega

/-- It is the number. -/
theorem value_ofNat {n : Nat} (h : n < 2 ^ 24) : f32OfBits (ofNat n).bits.toNat = some (n : ℚ) := by
  by_cases hzero : n = 0
  · subst hzero
    simp [ofNat, zero, f32OfBits]
  obtain ⟨he, hlo', hhi'⟩ := mantissa_bounds hzero h
  have hbits := toNat_ofNat hzero h
  rw [hbits]
  generalize hM : n * 2 ^ (23 - n.log2) = M at *
  have hsign : ((127 + n.log2) * 2 ^ 23 + (M - 2 ^ 23)) / 2 ^ 31 % 2 ≠ 1 := by omega
  have hexp : ((127 + n.log2) * 2 ^ 23 + (M - 2 ^ 23)) / 2 ^ 23 % 256 = 127 + n.log2 := by omega
  have hman : ((127 + n.log2) * 2 ^ 23 + (M - 2 ^ 23)) % 2 ^ 23 = M - 2 ^ 23 := by omega
  rw [f32OfBits, if_neg hsign, hexp, hman, if_neg (by omega), if_neg (by omega)]
  refine congrArg some ?_
  have hmantissa : ((M - 2 ^ 23 : Nat) : ℚ) = n * 2 ^ (23 - n.log2) - 2 ^ 23 := by
    rw [Nat.cast_sub hlo', ← hM]
    norm_num
  rw [hmantissa]
  have hsplit : (2 : ℚ) ^ (23 - n.log2) * 2 ^ (127 + n.log2) = 2 ^ 150 := by
    rw [← pow_add, show 23 - n.log2 + (127 + n.log2) = 150 by omega]
  have hvalue : (1 : ℚ) * (2 ^ 23 + ((n : ℚ) * 2 ^ (23 - n.log2) - 2 ^ 23)) * 2 ^ (127 + n.log2) =
      n * (2 ^ (23 - n.log2) * 2 ^ (127 + n.log2)) := by ring
  rw [hvalue, hsplit, mul_div_cancel_right₀]
  positivity

end F32

end RoboTele
