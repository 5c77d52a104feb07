import RoboTele.Core.Float
import Mathlib.Algebra.Order.Round
import Mathlib.Data.Int.Log
import Mathlib.Data.Rat.Floor

/-!
# Arithmetic of singles

Products and quotients are the exact ones, rounded to the nearest single, ties to the
even one (`nearest`).  A `NaN` that comes out is the quiet one.

`F32.round` is `f32::round`, halves away from zero, and `F32.toU16` is the saturating
cast.  A single that is rounded, checked against a range of whole numbers and cast is
the nearest whole number of its value (`whole_eq`).
-/

namespace RoboTele

/-- The nearest whole number, the even one of two. -/
def roundHalfEven (x : ℚ) : Nat :=
  let n := ⌊x⌋₊
  if x - n < 1 / 2 then n
  else if 1 / 2 < x - n then n + 1
  else if n % 2 = 0 then n
  else n + 1

namespace F32

/-- The value, if it has one. -/
def value (v : F32) : Option ℚ := f32OfBits v.bits.toNat

/-- The sign bit is set. -/
def isNegative (v : F32) : Bool := decide (v.bits.toNat / 2 ^ 31 % 2 = 1)

/-- All bits of the exponent are set, and some bit of the fraction. -/
def isNaN (v : F32) : Bool := decide (0x7F800000 < v.bits.toNat % 2 ^ 31)

/-- Not a number. -/
def nan : F32 := ⟨0x7FC00000⟩

/-- The bits of `f32::INFINITY`. -/
def infinityBits : Nat := 0x7F800000

/-- A sign before a magnitude. -/
def signed (isNegative : Bool) (bits : Nat) : F32 :=
  ⟨UInt32.ofNat ((if isNegative then 2 ^ 31 else 0) + bits)⟩

/-- The bits of the single that is nearest to a number that is not negative. -/
def nearest (x : ℚ) : Nat :=
  if x = 0 then 0
  else
    let e := max (Int.log 2 x) (-126)
    -- a mantissa that is rounded up to the next power of two carries into the exponent
    min ((e + 126).toNat * 2 ^ 23 + roundHalfEven (x / 2 ^ (e - 23))) infinityBits

/-- `a * b`. -/
def mul (a b : F32) : F32 :=
  let sign := a.isNegative ^^ b.isNegative
  match a.value, b.value with
  | some x, some y => signed sign (nearest |x * y|)
  | _, _ =>
      if a.isNaN ∨ b.isNaN ∨ a.value = some 0 ∨ b.value = some 0 then nan
      else signed sign infinityBits

/-- `a / b`. -/
def div (a b : F32) : F32 :=
  let sign := a.isNegative ^^ b.isNegative
  match a.value, b.value with
  | some x, some y =>
      if y ≠ 0 then signed sign (nearest |x / y|)
      else if x = 0 then nan
      else signed sign infinityBits
  | some _, none => if b.isNaN then nan else signed sign 0
  | none, some _ => if a.isNaN then nan else signed sign infinityBits
  | none, none => nan

/-- `v.round()`.  From `2 ^ 23` on every single is whole. -/
def round (v : F32) : F32 :=
  match v.value with
  | none => v
  | some x => if 2 ^ 23 ≤ |x| then v else signed v.isNegative (ofNat ⌊|x| + 1 / 2⌋₊).bits.toNat

/-- `v as u16`. -/
def toU16 (v : F32) : UInt16 :=
  match v.value with
  | some x => UInt16.ofNat (min ⌊x⌋₊ 65535)
  | none => if v.isNaN ∨ v.isNegative then 0 else 65535

/-- `n as f32` for an `i16`. -/
def ofInt (n : Int) : F32 := signed (decide (n < 0)) (ofNat n.natAbs).bits.toNat

example : (div (ofNat 1) (ofNat 3)).bits = 0x3EAAAAAB := by decide +kernel
example : (mul (ofNat 3) (div (ofNat 1) (ofNat 10))).bits = 0x3E99999A := by decide +kernel
example : (div (ofNat 1) zero).bits = 0x7F800000 := by decide +kernel

/-! ## Signs -/

variable {v : F32} {x : ℚ}

/-- The sign bit agrees with the value's sign. -/
theorem value_sign (h : v.value = some x) :
    (v.isNegative = true → x ≤ 0) ∧ (v.isNegative = false → 0 ≤ x) := by
  have hsign : v.bits.toNat / 2 ^ 31 % 2 = 1 ↔ v.isNegative = true := by
    rw [isNegative, decide_eq_true_eq]
  rw [value, f32OfBits] at h
  cases hneg : v.isNegative with
  | true =>
      refine ⟨fun _ => ?_, fun hpos => absurd hpos.symm Bool.false_ne_true⟩
      rw [if_pos (hsign.mpr hneg)] at h
      split_ifs at h
      · obtain rfl := Option.some.inj h
        rw [neg_one_mul, neg_div]
        exact neg_nonpos.mpr (by positivity)
      · obtain rfl := Option.some.inj h
        rw [neg_one_mul, neg_mul, neg_div]
        exact neg_nonpos.mpr (by positivity)
  | false =>
      refine ⟨fun hset => absurd hset Bool.false_ne_true, fun _ => ?_⟩
      rw [if_neg fun hset => Bool.false_ne_true (hneg.symm.trans (hsign.mp hset))] at h
      split_ifs at h
      · obtain rfl := Option.some.inj h
        positivity
      · obtain rfl := Option.some.inj h
        positivity

/-- Bits without a sign have their own value. -/
theorem value_signed_false {bits : Nat} (h : bits < 2 ^ 31) :
    (signed false bits).value = f32OfBits bits := by
  rw [value, signed, if_neg Bool.false_ne_true, Nat.zero_add,
    UInt32.toNat_ofNat_of_lt' (show bits < 2 ^ 32 by omega)]

/-- Bits with a sign have the opposite one. -/
theorem value_signed_true {bits : Nat} (h : bits < 2 ^ 31) :
    (signed true bits).value = (f32OfBits bits).map Neg.neg := by
  have hexp : (2 ^ 31 + bits) / 2 ^ 23 % 256 = bits / 2 ^ 23 % 256 := by omega
  have hman : (2 ^ 31 + bits) % 2 ^ 23 = bits % 2 ^ 23 := by omega
  rw [value, signed, if_pos rfl, UInt32.toNat_ofNat_of_lt' (show 2 ^ 31 + bits < 2 ^ 32 by omega),
    f32OfBits, f32OfBits, if_pos (show (2 ^ 31 + bits) / 2 ^ 31 % 2 = 1 by omega),
    if_neg (show ¬ bits / 2 ^ 31 % 2 = 1 by omega), hexp, hman]
  split_ifs
  · rfl
  · rw [Option.map_some]
    congr 1
    ring
  · rw [Option.map_some]
    congr 1
    ring

/-! ## Whole numbers -/

/-- NaN and the infinities have no value when rounded. -/
theorem round_of_none (h : v.value = none) : v.round.value = none := by
  rw [round, h]
  exact h

/-- A large value is whole already. -/
theorem round_of_large (h : v.value = some x) (hx : 2 ^ 23 ≤ |x|) : v.round = v := by
  rw [round, h]
  exact if_pos hx

/-- A small value rounds to a whole number that a float can hold. -/
theorem floor_lt_of_small (hx : |x| < 2 ^ 23) : ⌊|x| + 1 / 2⌋₊ < 2 ^ 24 := by
  rw [Nat.floor_lt (by positivity)]
  refine (add_lt_add_left hx _).trans ?_
  norm_num

/-- A small value rounds half away from zero. -/
theorem round_of_small (h : v.value = some x) (hx : |x| < 2 ^ 23) :
    v.round = signed v.isNegative (ofNat ⌊|x| + 1 / 2⌋₊).bits.toNat := by
  rw [round, h]
  exact if_neg (not_le.mpr hx)

/-- A whole number within sixteen bits converts to itself. -/
theorem toU16_of_value {n : Nat} (h : v.value = some (n : ℚ)) (hn : n ≤ 65535) :
    v.toU16.toNat = n := by
  rw [toU16, h]
  dsimp only
  rw [Nat.floor_natCast, min_eq_left hn]
  exact UInt16.toNat_ofNat_of_lt' (show n < 2 ^ 16 by omega)

theorem floor_of_nonpos (hx : x ≤ 0) : ⌊x + 1 / 2⌋₊ = 0 := by
  rw [Nat.floor_eq_zero]
  linarith

/-- The range in which the cast to sixteen bits is exact. -/
def InU16 (x : ℚ) : Bool := 0 < x ∧ x ≤ 65535

/-- A single too large to have a fraction is out of range, and so is its rounding. -/
theorem inU16_of_large (h : v.value = some x) (hx : 2 ^ 23 ≤ |x|) :
    v.round.value.any InU16 = false ∧ ¬ (1 ≤ ⌊x + 1 / 2⌋₊ ∧ ⌊x + 1 / 2⌋₊ ≤ 65535) := by
  rw [round_of_large h hx, h, Option.any_some]
  rcases le_total x 0 with hneg | hpos
  · refine ⟨by simp [InU16, not_lt.mpr hneg], ?_⟩
    rw [floor_of_nonpos hneg]
    omega
  · rw [abs_of_nonneg hpos] at hx
    have hlt : (65535 : ℚ) < x := lt_of_lt_of_le (by norm_num) hx
    have hfloor : 2 ^ 23 ≤ ⌊x + 1 / 2⌋₊ := by
      refine Nat.le_floor ?_
      push_cast
      linarith
    refine ⟨by simp [InU16, not_le.mpr hlt], ?_⟩
    omega

/-- A negative value is no positive whole number, rounded either way. -/
theorem inU16_of_isNegative (h : v.value = some x) (hx : |x| < 2 ^ 23)
    (hsign : v.isNegative = true) :
    v.round.value.any InU16 = false ∧ ¬ (1 ≤ ⌊x + 1 / 2⌋₊ ∧ ⌊x + 1 / 2⌋₊ ≤ 65535) := by
  have hn := floor_lt_of_small hx
  rw [round_of_small h hx, hsign, value_signed_true (toNat_ofNat_lt hn), value_ofNat hn,
    floor_of_nonpos ((value_sign h).1 hsign)]
  refine ⟨by simp [InU16], ?_⟩
  omega

/-- A value that is not negative rounds half up. -/
theorem value_round_of_nonneg (h : v.value = some x) (hx : |x| < 2 ^ 23)
    (hsign : v.isNegative = false) : v.round.value = some (⌊x + 1 / 2⌋₊ : ℚ) := by
  have hn := floor_lt_of_small hx
  have hpos := (value_sign h).2 hsign
  rw [round_of_small h hx, hsign, value_signed_false (toNat_ofNat_lt hn), value_ofNat hn,
    abs_of_nonneg hpos]

/-- The whole numbers within the bounds. -/
theorem inU16_natCast (n : Nat) : InU16 (n : ℚ) = true ↔ 1 ≤ n ∧ n ≤ 65535 := by
  rw [InU16, decide_eq_true_eq]
  exact and_congr Nat.cast_pos (by exact_mod_cast Iff.rfl)

/-- A single that is rounded, checked to be a positive whole number of sixteen bits, and
cast. -/
theorem whole_eq (v : F32) :
    (if v.round.value.any (fun x => 0 < x ∧ x ≤ 65535) then v.round.toU16 else 0).toNat =
      match v.value with
      | none => 0
      | some x => if 1 ≤ ⌊x + 1 / 2⌋₊ ∧ ⌊x + 1 / 2⌋₊ ≤ 65535 then ⌊x + 1 / 2⌋₊ else 0 := by
  change (if v.round.value.any InU16 then v.round.toU16 else 0).toNat = _
  cases hv : v.value with
  | none =>
      rw [round_of_none hv]
      rfl
  | some x =>
      dsimp only
      have hout : v.round.value.any InU16 = false ∧
          ¬ (1 ≤ ⌊x + 1 / 2⌋₊ ∧ ⌊x + 1 / 2⌋₊ ≤ 65535) →
          (if v.round.value.any InU16 then v.round.toU16 else 0).toNat =
            if 1 ≤ ⌊x + 1 / 2⌋₊ ∧ ⌊x + 1 / 2⌋₊ ≤ 65535 then ⌊x + 1 / 2⌋₊ else 0 := by
        rintro ⟨hround, hrange⟩
        rw [hround, if_neg hrange]
        rfl
      rcases le_or_gt (2 ^ 23) |x| with hlarge | hsmall
      · exact hout (inU16_of_large hv hlarge)
      · cases hsign : v.isNegative with
        | true => exact hout (inU16_of_isNegative hv hsmall hsign)
        | false =>
            have hvalue := value_round_of_nonneg hv hsmall hsign
            have hin := inU16_natCast ⌊x + 1 / 2⌋₊
            rw [hvalue, Option.any_some]
            by_cases hrange : 1 ≤ ⌊x + 1 / 2⌋₊ ∧ ⌊x + 1 / 2⌋₊ ≤ 65535
            · rw [if_pos hrange, if_pos (hin.mpr hrange), toU16_of_value hvalue hrange.2]
            · rw [if_neg hrange, if_neg (mt hin.mp hrange)]
              rfl

/-- `0.0 * v` for a positive `v`. -/
theorem zero_mul_of_positive (h : v.positive = true) : mul zero v = zero := by
  obtain ⟨y, hy, hpos⟩ := Option.any_eq_true .. |>.mp h
  have hy' : v.value = some y := hy
  have hsign : v.isNegative = false := by
    by_contra hneg
    have hle := (value_sign hy').1 (Bool.not_eq_false _ ▸ hneg)
    exact absurd (of_decide_eq_true hpos) (not_lt.mpr hle)
  have hzero : zero.value = some 0 := by
    simp [value, zero, f32OfBits]
  rw [mul, hzero, hy', hsign]
  simp [nearest, isNegative, signed, zero]

end F32

end RoboTele
