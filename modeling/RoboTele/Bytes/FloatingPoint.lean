import RoboTele.Bytes.FixedPoint
import Mathlib.Algebra.Order.Floor.Ring
import Mathlib.Data.Int.Log
import Mathlib.Tactic.NormNum
import Mathlib.Tactic.Positivity

/-!
# Floating-point numbers

A floating-point number has a mantissa of `p` bits and an exponent that is not below
`emin`.  A number is rounded to a multiple of the quantum of its exponent (`nearest`),
and no integer that has `p` bits lies between a number and what it is rounded to.

So a quotient of two integers of which the upper one has `p` bits has the same ceiling
before and after it is rounded (`ceil_nearest_div`).  Rounding moves a number that is not
too small by at most one part in `2 ^ p` of it (`abs_nearest_sub_le_mul`).
-/

namespace FloatingPoint

open FixedPoint

variable {K : Type*} [Field K] [LinearOrder K] [IsStrictOrderedRing K] [FloorRing K]

/-- The nearest integer, the even one of two. -/
def tiesEven (x : K) : ℤ :=
  if x - ⌊x⌋ < ⌊x⌋ + 1 - x ∨ x - ⌊x⌋ = ⌊x⌋ + 1 - x ∧ ⌊x⌋ % 2 = 0 then ⌊x⌋ else ⌊x⌋ + 1

theorem roundsNear_tiesEven : RoundsNear (tiesEven : K → ℤ) := by
  intro x
  have hlo := Int.floor_le x
  have hhi := Int.lt_floor_add_one x
  rw [tiesEven, abs_le]
  split_ifs with h
  · rcases h with hlt | ⟨heq, -⟩ <;> constructor <;> linarith
  · have hge : ⌊x⌋ + 1 - x ≤ x - ⌊x⌋ := not_lt.mp fun hlt => h (.inl hlt)
    push_cast
    constructor <;> linarith

/-- The distance of two neighbours about `x`. -/
def quantum (p : Nat) (emin : Int) (x : K) : K :=
  ((2 : Nat) : K) ^ (max (Int.log 2 |x|) emin - p + 1)

/-- The floating-point number that `x` is rounded to. -/
def nearest (p : Nat) (emin : Int) (round : K → ℤ) (x : K) : K :=
  round (x / quantum p emin x) * quantum p emin x

variable {p : Nat} {emin : Int} {round : K → ℤ} {x : K}

omit [IsStrictOrderedRing K] in
theorem quantum_eq (p : Nat) (emin : Int) (x : K) :
    quantum p emin x = 2 ^ (max (Int.log 2 |x|) emin - p + 1) := by
  rw [quantum, Nat.cast_ofNat]

theorem quantum_pos (p : Nat) (emin : Int) (x : K) : 0 < quantum p emin x := by
  rw [quantum_eq]
  exact zpow_pos two_pos _

/-- Half a quantum of error. -/
theorem abs_nearest_sub_le (h : RoundsNear round) (x : K) :
    |nearest p emin round x - x| ≤ quantum p emin x / 2 := by
  have hpos := quantum_pos p emin x
  have hsplit : nearest p emin round x - x =
      (round (x / quantum p emin x) - x / quantum p emin x) * quantum p emin x := by
    rw [nearest, sub_mul, div_mul_cancel₀ _ hpos.ne']
  have hnear := mul_le_mul_of_nonneg_right (h (x / quantum p emin x)) hpos.le
  rw [hsplit, abs_mul, abs_of_pos hpos]
  linarith

/-- Of a number that is not too small the quantum is a small part. -/
theorem quantum_le (hx : (2 : K) ^ emin ≤ x) : quantum p emin x ≤ x * 2 ^ (1 - p : Int) := by
  have hpos : 0 < x := (zpow_pos two_pos emin).trans_le hx
  have hemin : emin ≤ Int.log 2 x :=
    (Int.zpow_le_iff_le_log one_lt_two hpos).mp (by exact_mod_cast hx)
  have hlog : (2 : K) ^ Int.log 2 x ≤ x := by
    exact_mod_cast Int.zpow_log_le_self one_lt_two hpos
  rw [quantum_eq, abs_of_pos hpos, max_eq_left hemin, sub_add, sub_eq_add_neg, neg_sub,
    zpow_add₀ two_ne_zero]
  exact mul_le_mul_of_nonneg_right hlog (zpow_pos two_pos _).le

/-- Zero is a floating-point number. -/
theorem nearest_zero (h : RoundsNear round) : nearest p emin round (0 : K) = 0 := by
  have hround : round (0 : K) = 0 := by exact_mod_cast h.round_intCast 0
  rw [nearest, zero_div, hround, Int.cast_zero, zero_mul]

/-- A number is rounded by at most one part in `2 ^ p` of any bound on it that is not too
small. -/
theorem abs_nearest_sub_le_of_abs_le (h : RoundsNear round) {b : K} (hx : |x| ≤ b)
    (hb : (2 : K) ^ emin ≤ b) : |nearest p emin round x - x| ≤ b * 2 ^ (-p : Int) := by
  rcases eq_or_ne x 0 with rfl | hne
  · rw [nearest_zero h, sub_zero, abs_zero]
    exact mul_nonneg ((zpow_pos two_pos emin).le.trans hb) (zpow_pos two_pos _).le
  · have hlog : (2 : K) ^ max (Int.log 2 |x|) emin ≤ b := by
      rcases le_total (Int.log 2 |x|) emin with hle | hle
      · rw [max_eq_right hle]
        exact hb
      · rw [max_eq_left hle]
        have hself : (2 : K) ^ Int.log 2 |x| ≤ |x| := by
          exact_mod_cast Int.zpow_log_le_self one_lt_two (abs_pos.mpr hne)
        exact hself.trans hx
    have hquantum : quantum p emin x / 2 = 2 ^ max (Int.log 2 |x|) emin * 2 ^ (-p : Int) := by
      rw [quantum_eq, zpow_add_one₀ two_ne_zero, mul_div_cancel_right₀ _ two_ne_zero,
        sub_eq_add_neg, zpow_add₀ two_ne_zero]
    calc |nearest p emin round x - x|
        ≤ quantum p emin x / 2 := abs_nearest_sub_le h x
      _ = 2 ^ max (Int.log 2 |x|) emin * 2 ^ (-p : Int) := hquantum
      _ ≤ b * 2 ^ (-p : Int) := mul_le_mul_of_nonneg_right hlog (zpow_pos two_pos _).le

/-- A number that is not too small is rounded by at most one part in `2 ^ p`. -/
theorem abs_nearest_sub_le_mul (h : RoundsNear round) (hx : (2 : K) ^ emin ≤ x) :
    |nearest p emin round x - x| ≤ x * 2 ^ (-p : Int) :=
  abs_nearest_sub_le_of_abs_le h (abs_of_pos ((zpow_pos two_pos emin).trans_le hx)).le hx

/-- An integer of `p` bits that is not below a number is not below what it is rounded to. -/
theorem nearest_le (h : RoundsNear round) {n : ℤ} (hx : x ≤ n) (hpos : 0 < x)
    (hbits : x < 2 ^ p) (hemin : emin < p) : nearest p emin round x ≤ n := by
  have hlog : Int.log 2 x < p :=
    (Int.lt_zpow_iff_log_lt one_lt_two hpos).mp (by exact_mod_cast hbits)
  obtain ⟨k, hk⟩ : ∃ k : Nat, max (Int.log 2 |x|) emin - p + 1 = -k := by
    refine ⟨(p - 1 - max (Int.log 2 |x|) emin).toNat, ?_⟩
    rw [abs_of_pos hpos]
    omega
  have hquantum : quantum p emin x = (2 ^ k)⁻¹ := by
    rw [quantum_eq, hk, zpow_neg, zpow_natCast]
  have hscaled : x / quantum p emin x ≤ (n * 2 ^ k : ℤ) := by
    rw [hquantum, div_inv_eq_mul]
    push_cast
    exact mul_le_mul_of_nonneg_right hx (by positivity)
  have hround : (round (x / quantum p emin x) : K) ≤ (n * 2 ^ k : ℤ) :=
    Int.cast_le.mpr (h.round_le hscaled)
  calc nearest p emin round x
      ≤ (n * 2 ^ k : ℤ) * quantum p emin x :=
        mul_le_mul_of_nonneg_right hround (quantum_pos p emin x).le
    _ = n := by
        rw [hquantum]
        push_cast
        exact mul_inv_cancel_right₀ (by positivity) _

/-- The ceiling of a quotient is that of the floating-point quotient. -/
theorem ceil_nearest_div (h : RoundsNear round) {a b : Nat} (ha : 0 < a) (hb : 0 < b)
    (hbits : a < 2 ^ p) (hemin : emin < p) (hsmall : (2 : K) ^ emin ≤ (a : K) / b) :
    ⌈nearest p emin round ((a : K) / b)⌉ = ⌈(a : K) / b⌉ := by
  have ha' : (0 : K) < a := Nat.cast_pos.mpr ha
  have hb' : (0 : K) < b := Nat.cast_pos.mpr hb
  have hpos : (0 : K) < a / b := div_pos ha' hb'
  have hle : (a : K) / b ≤ a := div_le_self ha'.le (Nat.one_le_cast.mpr hb)
  have hlt : (a : K) / b < 2 ^ p := hle.trans_lt (by exact_mod_cast hbits)
  refine Int.ceil_eq_iff.mpr ⟨?_, nearest_le h (Int.le_ceil _) hpos hlt hemin⟩
  -- the next integer below is a whole part of `1 / b` away
  have hbelow : (⌈(a : K) / b⌉ - 1 : K) + 1 / b ≤ a / b := by
    have hceil := Int.ceil_lt_add_one ((a : K) / b)
    have hmul : ((⌈(a : K) / b⌉ - 1 : ℤ) : K) * b < a := by
      rw [← lt_div_iff₀ hb']
      push_cast
      linarith
    have hint : (⌈(a : K) / b⌉ - 1) * (b : ℤ) + 1 ≤ a := by
      have hlt : (⌈(a : K) / b⌉ - 1) * (b : ℤ) < a := by exact_mod_cast hmul
      omega
    have hcast : ((⌈(a : K) / b⌉ - 1 : ℤ) : K) * b + 1 ≤ a := by exact_mod_cast hint
    rw [le_div_iff₀ hb', add_mul, one_div_mul_cancel hb'.ne']
    push_cast at hcast
    exact hcast
  have herror : |nearest p emin round ((a : K) / b) - a / b| ≤ quantum p emin ((a : K) / b) / 2 :=
    abs_nearest_sub_le h _
  have hnear := (abs_le.mp herror).1
  have hquantum : quantum p emin ((a : K) / b) / 2 < 1 / b := by
    have hhalf := quantum_le (p := p) hsmall
    have hrat : (a : K) / b * 2 ^ (1 - p : Int) / 2 = a / 2 ^ p / b := by
      rw [zpow_sub₀ two_ne_zero, zpow_one, zpow_natCast]
      field_simp
    have hone : (a : K) / 2 ^ p < 1 := by
      rw [div_lt_one (by positivity)]
      exact_mod_cast hbits
    calc quantum p emin ((a : K) / b) / 2
        ≤ (a : K) / b * 2 ^ (1 - p : Int) / 2 := by linarith
      _ = a / 2 ^ p / b := hrat
      _ < 1 / b := div_lt_div_of_pos_right hone hb'
  linarith

end FloatingPoint
