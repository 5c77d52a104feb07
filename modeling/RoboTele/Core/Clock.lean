import Mathlib.Algebra.Order.Field.Rat
import Mathlib.Order.Monotone.Basic
import Mathlib.Tactic.GCongr
import Mathlib.Tactic.Positivity
import Mathlib.Tactic.Ring

/-!
# Instants, durations and clock readings

An `Instant` is a number of nanoseconds on the monotonic clock, and a duration
is a difference of two.  `Instant::duration_since` never goes below zero, which
is subtraction on `Nat`.  Durations in seconds are exact rationals where the
source computes with `f64`; `Core.Double` has them as they are rounded.

A handler may call `Instant::now()` more than once, and time passes between the
calls.  `Clock` is the sequence of instants its calls return, in call order.
-/

namespace RoboTele

/-- Nanoseconds on the monotonic clock. -/
abbrev Instant := Nat

/-- `Instant::duration_since`, in nanoseconds.  Zero if `earlier` is later. -/
def Instant.durationSince (now earlier : Instant) : Nat := now - earlier

/-- `Duration::as_secs_f64` before it is rounded. -/
def asSecs (nanos : Nat) : ℚ := nanos / 1000000000

theorem asSecs_le_asSecs {a b : Nat} : asSecs a ≤ asSecs b ↔ a ≤ b := by
  rw [asSecs, asSecs, div_le_div_iff_of_pos_right (by norm_num), Nat.cast_le]

theorem asSecs_durationSince {now earlier : Instant} (h : earlier ≤ now) :
    asSecs (now.durationSince earlier) = asSecs now - asSecs earlier := by
  rw [asSecs, asSecs, asSecs, Instant.durationSince, Nat.cast_sub h, sub_div]

/-- `Duration::from_millis`, in nanoseconds. -/
def fromMillis (ms : Nat) : Nat := ms * 1000000

theorem asSecs_fromMillis (ms : Nat) : asSecs (fromMillis ms) * 1000 = ms := by
  rw [asSecs, fromMillis]
  push_cast
  ring

/-- The instants that successive `Instant::now()` calls of one handler return. -/
structure Clock where
  /-- The reading of the `n`-th call. -/
  read : Nat → Instant
  /-- The clock never runs backwards. -/
  mono : Monotone read

/-- A clock that stands still at `t`. -/
def Clock.const (t : Instant) : Clock := ⟨fun _ => t, monotone_const⟩

@[simp] theorem Clock.const_read (t : Instant) (n : Nat) : (Clock.const t).read n = t := rfl

end RoboTele
