import RoboTele.Bytes.BigEndian
import Mathlib.Algebra.Order.Field.Basic
import Mathlib.Data.Int.Cast.Lemmas
import Mathlib.Algebra.Order.Ring.Cast
import Mathlib.Tactic.Linarith
import Mathlib.Tactic.FieldSimp

/-!
# Fixed-point numbers in fields of bytes

A number is scaled, rounded to a nearest integer and kept within the range of its
field, `quantize`.  Within the range it comes back with half a quantum of error at
most, outside as the nearest end, and what came back once comes back exactly.

An integer stands in its field in two's complement, `encodeSigned`, and fields of one
width stand one after another, `chunkAt`.
-/

namespace FixedPoint

/-! ## Rounding -/

section

variable {K : Type*} [Field K] [LinearOrder K] [IsStrictOrderedRing K]

/-- Every number is rounded to a nearest integer. -/
def RoundsNear (round : K → ℤ) : Prop := ∀ x, |(round x : K) - x| ≤ 1 / 2

/-- The integer that stands for a number. -/
def quantize (round : K → ℤ) (lo hi : ℤ) (scale x : K) : ℤ := max lo (min (round (x * scale)) hi)

variable {round : K → ℤ} {lo hi n : ℤ} {scale x : K}

/-- Rounding passes no integer. -/
theorem RoundsNear.le_round (h : RoundsNear round) (hx : (n : K) ≤ x) : n ≤ round x := by
  by_contra hlt
  have hstep : (round x : K) + 1 ≤ n := by exact_mod_cast Int.lt_iff_add_one_le.mp (not_le.mp hlt)
  have hnear := (abs_le.mp (h x)).1
  linarith

theorem RoundsNear.round_le (h : RoundsNear round) (hx : x ≤ (n : K)) : round x ≤ n := by
  by_contra hlt
  have hstep : (n : K) + 1 ≤ round x := by exact_mod_cast Int.lt_iff_add_one_le.mp (not_le.mp hlt)
  have hnear := (abs_le.mp (h x)).2
  linarith

theorem RoundsNear.round_intCast (h : RoundsNear round) (n : ℤ) : round (n : K) = n :=
  le_antisymm (h.round_le le_rfl) (h.le_round le_rfl)

omit [LinearOrder K] [IsStrictOrderedRing K] in
theorem quantize_mem (round : K → ℤ) (scale x : K) (hle : lo ≤ hi) :
    lo ≤ quantize round lo hi scale x ∧ quantize round lo hi scale x ≤ hi :=
  ⟨le_max_left _ _, max_le hle (min_le_right _ _)⟩

/-- What comes back of a number within the range. -/
theorem abs_quantize_div_sub_le (h : RoundsNear round) (hscale : 0 < scale)
    (hlo : (lo : K) / scale ≤ x) (hhi : x ≤ hi / scale) :
    |(quantize round lo hi scale x : K) / scale - x| ≤ 1 / scale / 2 := by
  have hlo' : lo ≤ round (x * scale) := h.le_round ((div_le_iff₀ hscale).mp hlo)
  have hhi' : round (x * scale) ≤ hi := h.round_le ((le_div_iff₀ hscale).mp hhi)
  rw [quantize, min_eq_left hhi', max_eq_right hlo']
  have herror : (round (x * scale) : K) / scale - x = (round (x * scale) - x * scale) / scale := by
    field_simp
  rw [herror, abs_div, abs_of_pos hscale, div_div, mul_comm scale 2, ← div_div]
  exact div_le_div_of_nonneg_right (h (x * scale)) hscale.le

/-- Beyond an end it is the end. -/
theorem quantize_of_le (h : RoundsNear round) (hscale : 0 < scale) (hle : lo ≤ hi)
    (hx : x ≤ lo / scale) : quantize round lo hi scale x = lo := by
  have hround : round (x * scale) ≤ lo := h.round_le ((le_div_iff₀ hscale).mp hx)
  rw [quantize, min_eq_left (hround.trans hle), max_eq_left hround]

theorem quantize_of_ge (h : RoundsNear round) (hscale : 0 < scale) (hle : lo ≤ hi)
    (hx : hi / scale ≤ x) : quantize round lo hi scale x = hi := by
  have hround : hi ≤ round (x * scale) := h.le_round ((div_le_iff₀ hscale).mp hx)
  rw [quantize, min_eq_right hround, max_eq_right hle]

/-- What came back is kept. -/
theorem quantize_div (h : RoundsNear round) (hscale : 0 < scale) (hlo : lo ≤ n) (hhi : n ≤ hi) :
    quantize round lo hi scale ((n : K) / scale) = n := by
  rw [quantize, div_mul_cancel₀ _ hscale.ne', h.round_intCast, min_eq_left hhi, max_eq_right hlo]

end

/-! ## Signed integers -/

/-- A signed integer in `w` bytes. -/
def encodeSigned (w : ℕ) (n : ℤ) : List UInt8 := BigEndian.encode w (n % (256 ^ w : ℕ)).toNat

/-- The signed integer that a byte string spells. -/
def decodeSigned (bytes : List UInt8) : ℤ :=
  let u := BigEndian.decode bytes
  if 2 * u < 256 ^ bytes.length then u else (u : ℤ) - (256 ^ bytes.length : ℕ)

@[simp] theorem length_encodeSigned (w : ℕ) (n : ℤ) : (encodeSigned w n).length = w :=
  BigEndian.length_encode _ _

theorem decodeSigned_encodeSigned {w : ℕ} {n : ℤ} (hlo : -(256 ^ w : ℕ) ≤ 2 * n)
    (hhi : 2 * n < (256 ^ w : ℕ)) : decodeSigned (encodeSigned w n) = n := by
  have hpos : 0 < 256 ^ w := Nat.pow_pos (by decide)
  have hmod := Int.emod_nonneg n (by omega : ((256 ^ w : ℕ) : ℤ) ≠ 0)
  have hlt := Int.emod_lt_of_pos n (by omega : 0 < ((256 ^ w : ℕ) : ℤ))
  rw [decodeSigned, length_encodeSigned, encodeSigned]
  rw [BigEndian.decode_encode_of_lt (by omega)]
  rcases lt_or_ge n 0 with hneg | hnonneg
  · have heq : n % (256 ^ w : ℕ) = n + (256 ^ w : ℕ) := by
      rw [← Int.add_emod_right, Int.emod_eq_of_lt (by omega) (by omega)]
    rw [heq, if_neg (by omega)]
    omega
  · rw [Int.emod_eq_of_lt hnonneg (by omega), if_pos (by omega)]
    omega

/-! ## Fields of one width -/

/-- The `i`-th chunk of `w` bytes. -/
def chunkAt (w : ℕ) (bytes : List UInt8) (i : ℕ) : List UInt8 := (bytes.drop (w * i)).take w

theorem length_chunkAt {w n i : ℕ} {bytes : List UInt8} (hlen : w * n ≤ bytes.length) (hi : i < n) :
    (chunkAt w bytes i).length = w := by
  have hend : w * (i + 1) ≤ w * n := Nat.mul_le_mul_left w hi
  rw [Nat.mul_succ] at hend
  rw [chunkAt, List.length_take, List.length_drop]
  omega

/-- The fields of a byte string that is written field by field. -/
theorem chunkAt_flatten {w : ℕ} : ∀ {fields : List (List UInt8)}, (∀ f ∈ fields, f.length = w) →
    ∀ {i : ℕ} (hi : i < fields.length), chunkAt w fields.flatten i = fields[i]
  | [], _, _, hi => absurd hi (Nat.not_lt_zero _)
  | f :: fields, hfields, 0, _ => by
      rw [chunkAt, Nat.mul_zero, List.drop_zero, List.flatten_cons]
      exact List.take_left' (hfields f List.mem_cons_self)
  | f :: fields, hfields, i + 1, hi => by
      have hf : f.length = w := hfields f List.mem_cons_self
      have hdrop : (f ++ fields.flatten).drop (w * (i + 1)) = fields.flatten.drop (w * i) := by
        rw [Nat.mul_succ, Nat.add_comm, ← List.drop_drop, List.drop_left' hf]
      rw [chunkAt, List.flatten_cons, hdrop, ← chunkAt, List.getElem_cons_succ]
      exact chunkAt_flatten (fun g hg => hfields g (List.mem_cons_of_mem f hg)) _

end FixedPoint
