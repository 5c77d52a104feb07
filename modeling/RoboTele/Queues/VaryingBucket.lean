import RoboTele.Queues.TokenBucket
import Mathlib.Algebra.Order.BigOperators.Group.List

/-!
# Token buckets with a varying rate

The rate changes between refills, and what the bucket holds depends on the rate.
A refill gives what the rate of the moment gives for all of the time since the last
one.

`Ledger` is relative to `Bounds a R`, which says that the rate has been at most `R`
since `a`.  Then what was taken since `a`, with the tokens that are there, is at most
the burst and what a rate of `R` gives.
-/

namespace Queues

/-- A bucket whose rate may change. -/
structure VaryingBucket (K : Type*) where
  rate : K
  tokens : K
  last : K

namespace VaryingBucket

open TokenBucket

variable {K : Type*} [Field K] [LinearOrder K]

/-- The rate of the moment for all of the time since the last refill. -/
def refill (burst : K → K) (b : VaryingBucket K) (now : K) : VaryingBucket K :=
  { b with tokens := min (b.tokens + b.rate * (now - b.last)) (burst b.rate), last := now }

/-- The rate changes. -/
def setRate (b : VaryingBucket K) (rate : K) : VaryingBucket K := { b with rate := rate }

/-- Tokens are spent. -/
def take (b : VaryingBucket K) (n : K) : VaryingBucket K := { b with tokens := b.tokens - n }

/-- What was taken, and how it compares with the rates. -/
structure Ledger (burst : K → K) (b : VaryingBucket K) (log : List (K × K))
    (Bounds : K → K → Prop) : Prop where
  nonneg : 0 ≤ b.tokens
  past : ∀ p ∈ log, p.1 ≤ b.last
  amounts : ∀ p ∈ log, 0 ≤ p.2
  since : ∀ a R, a ≤ b.last → Bounds a R →
    takenSince a log + b.tokens ≤ burst R + R * (b.last - a)

variable {burst : K → K} {b : VaryingBucket K} {log : List (K × K)} {Bounds Bounds' : K → K → Prop}

/-- Fewer bounds, as when one more rate was in force. -/
theorem Ledger.mono (h : Ledger burst b log Bounds)
    (hmono : ∀ a R, a ≤ b.last → Bounds' a R → Bounds a R) : Ledger burst b log Bounds' where
  nonneg := h.nonneg
  past := h.past
  amounts := h.amounts
  since a R ha hR := h.since a R ha (hmono a R ha hR)

theorem Ledger.setRate (h : Ledger burst b log Bounds) (rate : K) :
    Ledger burst (b.setRate rate) log Bounds :=
  ⟨h.nonneg, h.past, h.amounts, h.since⟩

/-- A window that begins after all that was taken. -/
theorem Ledger.takenIn_of_lt (h : Ledger burst b log Bounds) {a : K} (ha : b.last < a) (z : K) :
    takenIn a z log = 0 := by
  have hnone : log.filter (fun p => decide (a ≤ p.1 ∧ p.1 ≤ z)) = [] := by
    rw [List.filter_eq_nil_iff]
    intro p hp hin
    exact absurd (of_decide_eq_true hin).1 (not_le.mpr ((h.past p hp).trans_lt ha))
  rw [takenIn, hnone, List.map_nil, List.sum_nil]

variable [IsStrictOrderedRing K]

/-- A bucket that is full at the least rate. -/
theorem Ledger.new {rate tokens last : K} (hnonneg : 0 ≤ tokens)
    (hBounds : ∀ a R, Bounds a R → 0 ≤ R ∧ tokens ≤ burst R) :
    Ledger burst { rate := rate, tokens := tokens, last := last } [] Bounds where
  nonneg := hnonneg
  past := nofun
  amounts := nofun
  since a R ha hR := by
    obtain ⟨hrate, hfull⟩ := hBounds a R hR
    have hgain : 0 ≤ R * (last - a) := mul_nonneg hrate (sub_nonneg.mpr ha)
    change 0 + tokens ≤ burst R + R * (last - a)
    linarith

theorem Ledger.refill (h : Ledger burst b log Bounds) (hmono : Monotone burst) {now : K}
    (hnow : b.last ≤ now) (hrate : 0 ≤ b.rate) (hburst : 0 ≤ burst b.rate)
    (hBounds : ∀ a R, a ≤ now → Bounds a R → b.rate ≤ R) :
    Ledger burst (b.refill burst now) log Bounds := by
  have hgain : 0 ≤ b.rate * (now - b.last) := mul_nonneg hrate (sub_nonneg.mpr hnow)
  refine ⟨le_min (add_nonneg h.nonneg hgain) hburst, fun p hp => (h.past p hp).trans hnow,
    h.amounts, ?_⟩
  intro a R ha hR
  have hle := hBounds a R ha hR
  change takenSince a log + min (b.tokens + b.rate * (now - b.last)) (burst b.rate) ≤
    burst R + R * (now - a)
  by_cases hlast : a ≤ b.last
  · -- the time since the last refill is inside the window
    have hsince := h.since a R hlast hR
    have hgrow : b.rate * (now - b.last) ≤ R * (now - b.last) :=
      mul_le_mul_of_nonneg_right hle (sub_nonneg.mpr hnow)
    have hmin := min_le_left (b.tokens + b.rate * (now - b.last)) (burst b.rate)
    have hsplit : R * (now - a) = R * (b.last - a) + R * (now - b.last) := by ring
    linarith
  · -- nothing was taken in the window yet
    have hnone : takenSince a log = 0 :=
      takenSince_of_lt fun p hp => (h.past p hp).trans_lt (not_le.mp hlast)
    have hmin := min_le_right (b.tokens + b.rate * (now - b.last)) (burst b.rate)
    have hfull := hmono hle
    have hwindow : 0 ≤ R * (now - a) := mul_nonneg (hrate.trans hle) (sub_nonneg.mpr ha)
    linarith

theorem Ledger.take (h : Ledger burst b log Bounds) {n : K} (hn : 0 ≤ n) (hle : n ≤ b.tokens) :
    Ledger burst (b.take n) (log ++ [(b.last, n)]) Bounds := by
  refine ⟨sub_nonneg.mpr hle, ?_, ?_, ?_⟩
  · intro p hp
    rcases List.mem_append.mp hp with hp | hp
    · exact h.past p hp
    · rw [List.mem_singleton.mp hp]
      exact le_rfl
  · intro p hp
    rcases List.mem_append.mp hp with hp | hp
    · exact h.amounts p hp
    · rw [List.mem_singleton.mp hp]
      exact hn
  · intro a R ha hR
    have hsince := h.since a R ha hR
    change takenSince a (log ++ [(b.last, n)]) + (b.tokens - n) ≤ burst R + R * (b.last - a)
    rw [takenSince_concat, if_pos (show a ≤ b.last from ha)]
    linarith

/-- The bucket holds no more than its burst at a rate that it was not above. -/
theorem Ledger.tokens_le (h : Ledger burst b log Bounds) {R : K} (hR : Bounds b.last R) :
    b.tokens ≤ burst R := by
  have hsince := h.since b.last R le_rfl hR
  have hnonneg : 0 ≤ takenSince b.last log := by
    refine List.sum_nonneg fun n hn => ?_
    obtain ⟨p, hp, rfl⟩ := List.mem_map.mp hn
    exact h.amounts p (List.mem_of_mem_filter hp)
  rw [sub_self, mul_zero, add_zero] at hsince
  linarith

/-- What was taken from a moment on, in a window that ends now or later. -/
theorem Ledger.takenIn_le (h : Ledger burst b log Bounds) {a z R : K} (ha : a ≤ b.last)
    (hz : b.last ≤ z) (hR : Bounds a R) (hrate : 0 ≤ R) :
    takenIn a z log ≤ burst R + R * (z - a) := by
  rw [takenIn_of_le fun p hp => (h.past p hp).trans hz]
  have hsince := h.since a R ha hR
  have hgrow : R * (b.last - a) ≤ R * (z - a) :=
    mul_le_mul_of_nonneg_left (sub_le_sub_right hz a) hrate
  have htokens := h.nonneg
  linarith

end VaryingBucket

end Queues
