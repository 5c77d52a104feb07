import RoboTele.Core.Datagram
import RoboTele.Queues.TokenBucket
import Mathlib.Algebra.Order.Field.Rat
import Mathlib.Algebra.Order.Floor.Semiring
import Mathlib.Data.Rat.Floor

/-!
# The cap on forwarded bytes

A token bucket that refills at the configured rate.  Times are in seconds, and
times and tokens are exact rationals.
-/

namespace RoboTele

open Queues

/-- `f64 as usize`. -/
def toUsize (x : ℚ) : Nat := min ⌊x⌋₊ usizeMax

/-- How much is let through at once after an idle spell, in seconds. -/
def capBurst : ℚ := 50 / 1000

/-- A burst lets at least one datagram through. -/
def capMinBurstBytes : ℚ := 1500

/-- A token bucket of bytes. -/
structure RateCap where
  bytesPerSec : ℚ
  burst : ℚ
  tokens : ℚ
  last : ℚ
deriving DecidableEq

namespace RateCap

/-- A cap of so many megabits a second, or none. -/
def new (mbps now : ℚ) : Option RateCap :=
  if mbps ≤ 0 then none
  else
    let bytesPerSec := mbps * 1000000 / 8
    let burst := max (bytesPerSec * capBurst) capMinBurstBytes
    some { bytesPerSec := bytesPerSec, burst := burst, tokens := burst, last := now }

/-- The tokens of the time since the last refill. -/
def refill (c : RateCap) (now : ℚ) : RateCap :=
  { c with tokens := min (c.tokens + max (now - c.last) 0 * c.bytesPerSec) c.burst, last := now }

/-- Bytes that may be sent now. -/
def available (c : RateCap) (now : ℚ) : RateCap × Nat :=
  let c := c.refill now
  (c, toUsize (max c.tokens 0))

/-- Bytes were sent. -/
def consume (c : RateCap) (n : Nat) : RateCap := { c with tokens := c.tokens - n }

/-! ## The cap as a bucket -/

/-- The cap as a token bucket. -/
def bucket (c : RateCap) : TokenBucket ℚ where
  rate := c.bytesPerSec
  burst := c.burst
  tokens := c.tokens
  last := c.last

@[simp] theorem bucket_refill (c : RateCap) (now : ℚ) :
    (c.refill now).bucket = c.bucket.refill now := rfl

@[simp] theorem bucket_consume (c : RateCap) (n : Nat) :
    (c.consume n).bucket = c.bucket.take n := rfl

/-- A cap has a rate, starts full and has room for a datagram. -/
theorem of_new {mbps now : ℚ} {c : RateCap} (h : new mbps now = some c) :
    0 < c.bytesPerSec ∧ capMinBurstBytes ≤ c.burst ∧ c.tokens = c.burst ∧ c.last = now := by
  rw [new] at h
  split_ifs at h with hmbps
  rw [← Option.some.inj h]
  refine ⟨?_, le_max_right _ _, rfl, rfl⟩
  change 0 < mbps * 1000000 / 8
  linarith

/-- What may be sent is there. -/
theorem available_le {c : RateCap} {now : ℚ} (htokens : 0 ≤ (c.refill now).tokens) :
    ((c.available now).2 : ℚ) ≤ (c.refill now).tokens := by
  have hfloor : (c.available now).2 ≤ ⌊(c.refill now).tokens⌋₊ := by
    rw [available, toUsize, max_eq_left htokens]
    exact Nat.min_le_left _ _
  exact (Nat.cast_le.mpr hfloor).trans (Nat.floor_le htokens)

/-- What is there may be sent. -/
theorem le_available {c : RateCap} {now : ℚ} {n : Nat} (hn : n ≤ usizeMax)
    (htokens : (n : ℚ) ≤ (c.refill now).tokens) : n ≤ (c.available now).2 :=
  le_min (Nat.le_floor (htokens.trans (le_max_left _ _))) hn

end RateCap

end RoboTele
