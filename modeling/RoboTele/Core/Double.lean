import RoboTele.Bytes.FloatingPoint
import RoboTele.Core.Clock
import Mathlib.Data.Rat.Floor
import Mathlib.Tactic.Linarith

/-!
# Durations as doubles

`Duration::as_secs_f64` rounds three times: the whole seconds, the part below a second, and
their sum.  `silenceMs` is that number of seconds times a thousand, rounded once more, and
what the watchdog compares with its threshold.

All four roundings together move a duration by less than one part in `2 ^ 50`
(`abs_silenceMs_sub_le`).  So a duration of another whole number of nanoseconds is never
mistaken for the threshold, and a threshold that its own duration reaches is reached by
exactly the durations that are not shorter (`le_silenceMs_iff`).  Not every threshold is:
1001 ms come out below 1001.
-/

namespace RoboTele

open FloatingPoint

/-- The double nearest to a number. -/
def toF64 (x : ℚ) : ℚ := nearest 53 (-1022) tiesEven x

/-- `Duration::as_secs_f64`, as it is rounded. -/
def asSecsF64 (nanos : Nat) : ℚ :=
  toF64 (toF64 (nanos / 1000000000 : Nat) + toF64 ((nanos % 1000000000 : Nat) / 1000000000))

/-- A duration in milliseconds, `as_secs_f64() * 1000.0`. -/
def silenceMs (nanos : Nat) : ℚ := toF64 (asSecsF64 nanos * 1000)

/-- Of what a timer measures in whole nanoseconds, 1001 ms are less than 1001. -/
example : silenceMs (fromMillis 1001) < 1001 := by decide +kernel

/-! ## The error -/

/-- A number that is zero or no smaller than a nanosecond is rounded by at most one part in
`2 ^ 53`. -/
theorem abs_toF64_sub_le {x : ℚ} (hx : x = 0 ∨ 1 / 2000000000 ≤ x) :
    |toF64 x - x| ≤ x / 2 ^ 53 := by
  rcases hx with rfl | hx
  · rw [toF64, nearest_zero roundsNear_tiesEven, sub_zero, abs_zero, zero_div]
  · have hsmall : (2 : ℚ) ^ (-1022 : Int) ≤ x := by
      refine le_trans ?_ hx
      calc (2 : ℚ) ^ (-1022 : Int) ≤ 2 ^ (-31 : Int) := zpow_le_zpow_right₀ one_le_two (by decide)
        _ ≤ 1 / 2000000000 := by norm_num
    have herror := abs_nearest_sub_le_mul (p := 53) roundsNear_tiesEven hsmall
    calc |toF64 x - x| ≤ x * 2 ^ (-(53 : Nat) : Int) := herror
      _ = x / 2 ^ 53 := by rw [zpow_neg, zpow_natCast, div_eq_mul_inv]

/-- A number of at most `2 ^ 20` is rounded by at most `2 ^ -33`. -/
theorem abs_toF64_sub_le_of_abs_le {x : ℚ} (hx : |x| ≤ 2 ^ 20) : |toF64 x - x| ≤ 1 / 2 ^ 33 := by
  have hsmall : (2 : ℚ) ^ (-1022 : Int) ≤ 2 ^ 20 := by
    calc (2 : ℚ) ^ (-1022 : Int) ≤ 2 ^ (20 : Int) := zpow_le_zpow_right₀ one_le_two (by decide)
      _ = 2 ^ 20 := zpow_natCast 2 20
  have herror := abs_nearest_sub_le_of_abs_le (p := 53) roundsNear_tiesEven hx hsmall
  calc |toF64 x - x| ≤ 2 ^ 20 * 2 ^ (-(53 : Nat) : Int) := herror
    _ = 1 / 2 ^ 33 := by norm_num [zpow_neg]

/-- Whole seconds and the part below a second make the duration. -/
theorem asSecs_eq (nanos : Nat) :
    asSecs nanos = (nanos / 1000000000 : Nat) + ((nanos % 1000000000 : Nat) : ℚ) / 1000000000 := by
  have hsplit : (1000000000 * (nanos / 1000000000 : Nat) + (nanos % 1000000000 : Nat) : ℚ) =
      nanos := by exact_mod_cast Nat.div_add_mod nanos 1000000000
  rw [asSecs, ← hsplit, add_div, mul_div_cancel_left₀ _ (by norm_num)]

/-- The number of seconds is wrong by three parts in `2 ^ 53` and a bit. -/
theorem abs_asSecsF64_sub_le (nanos : Nat) :
    |asSecsF64 nanos - asSecs nanos| ≤ asSecs nanos / 2 ^ 51 := by
  have hwhole : ((nanos / 1000000000 : Nat) : ℚ) = 0 ∨
      1 / 1000000000 ≤ ((nanos / 1000000000 : Nat) : ℚ) := by
    rcases Nat.eq_zero_or_pos (nanos / 1000000000) with hzero | hpos
    · exact .inl (by rw [hzero, Nat.cast_zero])
    · have hone : (1 : ℚ) ≤ (nanos / 1000000000 : Nat) := Nat.one_le_cast.mpr hpos
      exact .inr (by linarith)
  have hpart : ((nanos % 1000000000 : Nat) : ℚ) / 1000000000 = 0 ∨
      1 / 1000000000 ≤ ((nanos % 1000000000 : Nat) : ℚ) / 1000000000 := by
    rcases Nat.eq_zero_or_pos (nanos % 1000000000) with hzero | hpos
    · exact .inl (by rw [hzero, Nat.cast_zero, zero_div])
    · have hone : (1 : ℚ) ≤ (nanos % 1000000000 : Nat) := Nat.one_le_cast.mpr hpos
      exact .inr (by linarith)
  have hhalf : (1 : ℚ) / 2000000000 ≤ 1 / 1000000000 := by norm_num
  obtain ⟨hwholeLo, hwholeHi⟩ := abs_le.mp (abs_toF64_sub_le (hwhole.imp_right hhalf.trans))
  obtain ⟨hpartLo, hpartHi⟩ := abs_le.mp (abs_toF64_sub_le (hpart.imp_right hhalf.trans))
  have hwholePos : (0 : ℚ) ≤ (nanos / 1000000000 : Nat) := Nat.cast_nonneg _
  have hpartPos : (0 : ℚ) ≤ ((nanos % 1000000000 : Nat) : ℚ) / 1000000000 := by positivity
  rw [asSecs_eq, asSecsF64]
  generalize ((nanos / 1000000000 : Nat) : ℚ) = whole at *
  generalize ((nanos % 1000000000 : Nat) : ℚ) / 1000000000 = part at *
  -- the sum of the two doubles is zero or large enough, since one of them is
  have hsum : toF64 whole + toF64 part = 0 ∨ 1 / 2000000000 ≤ toF64 whole + toF64 part := by
    rcases hwhole with hzero | hwhole <;> rcases hpart with hzero' | hpart
    · left
      linarith
    all_goals
      right
      linarith
  obtain ⟨hsumLo, hsumHi⟩ := abs_le.mp (abs_toF64_sub_le hsum)
  rw [abs_le]
  constructor <;> linarith

/-- The watchdog's milliseconds are wrong by less than one part in `2 ^ 50`. -/
theorem abs_silenceMs_sub_le (nanos : Nat) :
    |silenceMs nanos - asSecs nanos * 1000| ≤ asSecs nanos * 1000 / 2 ^ 50 := by
  obtain ⟨hlo, hhi⟩ := abs_le.mp (abs_asSecsF64_sub_le nanos)
  have hms : asSecsF64 nanos * 1000 = 0 ∨ 1 / 2000000000 ≤ asSecsF64 nanos * 1000 := by
    rcases Nat.eq_zero_or_pos nanos with rfl | hpos
    · have hzero : asSecs 0 = 0 := by rw [asSecs, Nat.cast_zero, zero_div]
      rw [hzero] at hlo hhi
      left
      linarith
    · have hone : (1 : ℚ) / 1000000000 ≤ asSecs nanos := by
        rw [asSecs]
        exact div_le_div_of_nonneg_right (Nat.one_le_cast.mpr hpos) (by norm_num)
      right
      linarith
  obtain ⟨hmsLo, hmsHi⟩ := abs_le.mp (abs_toF64_sub_le hms)
  have hpos : 0 ≤ asSecs nanos := by
    rw [asSecs]
    positivity
  rw [silenceMs, abs_le]
  constructor <;> linarith

/-! ## Thresholds that are reached exactly -/

/-- A threshold of `k` nanoseconds that `k` nanoseconds reach is reached by the durations
that are not shorter, and by no other. -/
theorem le_silenceMs_iff {k : Nat} (hk : k < 2 ^ 49) (hreached : asSecs k * 1000 ≤ silenceMs k)
    (nanos : Nat) : asSecs k * 1000 ≤ silenceMs nanos ↔ k ≤ nanos := by
  obtain ⟨hlo, hhi⟩ := abs_le.mp (abs_silenceMs_sub_le nanos)
  have hk' : (k : ℚ) < 2 ^ 49 := by exact_mod_cast hk
  rw [asSecs] at hreached ⊢
  rw [asSecs] at hlo hhi
  constructor
  · intro hle
    by_contra hlt
    have hstep : (nanos : ℚ) + 1 ≤ k := by exact_mod_cast not_le.mp hlt
    linarith
  · intro hle
    rcases hle.eq_or_lt with rfl | hlt
    · exact hreached
    · have hstep : (k : ℚ) + 1 ≤ nanos := by exact_mod_cast hlt
      linarith

end RoboTele
