import Mathlib.Algebra.BigOperators.Group.List.Basic
import Mathlib.Algebra.Order.Field.Basic
import Mathlib.Tactic.Linarith
import Mathlib.Tactic.Ring

/-!
# Token buckets

A bucket fills at a rate and holds no more than its burst.  Tokens are taken at
the time of the last refill.

`Ledger` follows what was taken, with the times.  It never goes over the tokens
that are there, and in any window it is at most the burst and what the rate gives
for the window.

`Reserved` is about a level that no taking goes into.  From a moment on the
tokens come up to it as fast as the rate gives them, so after a time that the
level takes to fill they are there (`Reserved.le_tokens`).
-/

namespace Queues

/-- Tokens that come at a rate, up to `burst` of them. -/
structure TokenBucket (K : Type*) where
  rate : K
  burst : K
  tokens : K
  last : K

namespace TokenBucket

variable {K : Type*} [Field K] [LinearOrder K]

/-- The tokens of the time since the last refill. -/
def refill (b : TokenBucket K) (now : K) : TokenBucket K :=
  { b with tokens := min (b.tokens + max (now - b.last) 0 * b.rate) b.burst, last := now }

/-- Tokens are spent. -/
def take (b : TokenBucket K) (n : K) : TokenBucket K := { b with tokens := b.tokens - n }

omit [LinearOrder K] in
@[simp] theorem take_zero (b : TokenBucket K) : b.take 0 = b := by
  rw [take, sub_zero]

/-! ## What is taken in a window -/

/-- What was taken from `a` on. -/
def takenSince (a : K) (log : List (K × K)) : K := ((log.filter fun p => a ≤ p.1).map Prod.snd).sum

/-- What was taken from `a` to `z`. -/
def takenIn (a z : K) (log : List (K × K)) : K :=
  ((log.filter fun p => a ≤ p.1 ∧ p.1 ≤ z).map Prod.snd).sum

theorem takenSince_concat (a : K) (log : List (K × K)) (t n : K) :
    takenSince a (log ++ [(t, n)]) = takenSince a log + if a ≤ t then n else 0 := by
  rw [takenSince, List.filter_append, List.map_append, List.sum_append, takenSince]
  by_cases ha : a ≤ t <;> simp [ha]

theorem takenIn_concat (a z : K) (log : List (K × K)) (t n : K) :
    takenIn a z (log ++ [(t, n)]) = takenIn a z log + if a ≤ t ∧ t ≤ z then n else 0 := by
  rw [takenIn, List.filter_append, List.map_append, List.sum_append, takenIn]
  by_cases ht : a ≤ t ∧ t ≤ z <;> simp [ht]

theorem takenSince_of_lt {a : K} {log : List (K × K)} (h : ∀ p ∈ log, p.1 < a) :
    takenSince a log = 0 := by
  have hnone : log.filter (fun p => decide (a ≤ p.1)) = [] := by
    rw [List.filter_eq_nil_iff]
    intro p hp hle
    exact absurd (of_decide_eq_true hle) (not_le.mpr (h p hp))
  rw [takenSince, hnone, List.map_nil, List.sum_nil]

/-- A window that ends after all that was taken. -/
theorem takenIn_of_le {z : K} {log : List (K × K)} (h : ∀ p ∈ log, p.1 ≤ z) (a : K) :
    takenIn a z log = takenSince a log := by
  have hsame : log.filter (fun p => decide (a ≤ p.1 ∧ p.1 ≤ z)) =
      log.filter fun p => decide (a ≤ p.1) := by
    refine List.filter_congr fun p hp => ?_
    rw [decide_eq_decide, and_iff_left (h p hp)]
  rw [takenIn, hsame, takenSince]

/-- What was taken and what is left never exceeds what has come in. -/
structure Ledger (b : TokenBucket K) (log : List (K × K)) : Prop where
  rate : 0 ≤ b.rate
  nonneg : 0 ≤ b.tokens
  full : b.tokens ≤ b.burst
  past : ∀ p ∈ log, p.1 ≤ b.last
  since : ∀ a, takenSince a log + b.tokens ≤ b.burst + b.rate * max (b.last - a) 0
  within : ∀ a z, a ≤ z → takenIn a z log ≤ b.burst + b.rate * (z - a)

variable [IsStrictOrderedRing K] {b : TokenBucket K} {log : List (K × K)}

/-- A full bucket that nothing was taken from. -/
theorem Ledger.new {rate burst last : K} (hrate : 0 ≤ rate) (hburst : 0 ≤ burst) :
    Ledger { rate := rate, burst := burst, tokens := burst, last := last } [] where
  rate := hrate
  nonneg := hburst
  full := le_rfl
  past := nofun
  since a := by
    have hnonneg : 0 ≤ rate * max (last - a) 0 := mul_nonneg hrate (le_max_right _ _)
    change 0 + burst ≤ burst + rate * max (last - a) 0
    linarith
  within a z haz := by
    have hnonneg : 0 ≤ rate * (z - a) := mul_nonneg hrate (sub_nonneg.mpr haz)
    change 0 ≤ burst + rate * (z - a)
    linarith

theorem Ledger.refill (h : Ledger b log) {now : K} (hnow : b.last ≤ now) :
    Ledger (b.refill now) log := by
  have hdt : max (now - b.last) 0 = now - b.last := max_eq_left (sub_nonneg.mpr hnow)
  refine ⟨h.rate, ?_, min_le_right _ _, fun p hp => (h.past p hp).trans hnow, ?_, h.within⟩
  · have hgain : 0 ≤ max (now - b.last) 0 * b.rate := mul_nonneg (le_max_right _ _) h.rate
    exact le_min (add_nonneg h.nonneg hgain) (h.nonneg.trans h.full)
  · intro a
    change takenSince a log + min (b.tokens + max (now - b.last) 0 * b.rate) b.burst ≤
      b.burst + b.rate * max (now - a) 0
    rw [hdt]
    by_cases ha : a ≤ b.last
    · -- what the time since the last refill gives is inside the window
      have hsince := h.since a
      have hgain : b.rate * max (now - a) 0 =
          b.rate * max (b.last - a) 0 + (now - b.last) * b.rate := by
        rw [max_eq_left (sub_nonneg.mpr (ha.trans hnow)), max_eq_left (sub_nonneg.mpr ha)]
        ring
      have hmin := min_le_left (b.tokens + (now - b.last) * b.rate) b.burst
      linarith
    · -- nothing was taken in the window yet
      have hnone : takenSince a log = 0 :=
        takenSince_of_lt fun p hp => (h.past p hp).trans_lt (not_le.mp ha)
      have hgain : 0 ≤ b.rate * max (now - a) 0 := mul_nonneg h.rate (le_max_right _ _)
      have hmin := min_le_right (b.tokens + (now - b.last) * b.rate) b.burst
      linarith

theorem Ledger.take (h : Ledger b log) {n : K} (hn : 0 ≤ n) (hle : n ≤ b.tokens) :
    Ledger (b.take n) (log ++ [(b.last, n)]) := by
  have hsince : ∀ a, takenSince a (log ++ [(b.last, n)]) + (b.tokens - n) ≤
      b.burst + b.rate * max (b.last - a) 0 := by
    intro a
    have hold := h.since a
    rw [takenSince_concat]
    split_ifs <;> linarith
  have hpast : ∀ p ∈ log ++ [(b.last, n)], p.1 ≤ b.last := by
    intro p hp
    rcases List.mem_append.mp hp with hp | hp
    · exact h.past p hp
    · rw [List.mem_singleton.mp hp]
  refine ⟨h.rate, sub_nonneg.mpr hle, (sub_le_self _ hn).trans h.full, hpast, hsince, ?_⟩
  intro a z haz
  by_cases hin : a ≤ b.last ∧ b.last ≤ z
  · rw [takenIn_of_le fun p hp => (hpast p hp).trans hin.2]
    have htaken := hsince a
    rw [max_eq_left (sub_nonneg.mpr hin.1)] at htaken
    have hgrow : b.rate * (b.last - a) ≤ b.rate * (z - a) :=
      mul_le_mul_of_nonneg_left (sub_le_sub_right hin.2 a) h.rate
    change takenSince a (log ++ [(b.last, n)]) ≤ b.burst + b.rate * (z - a)
    linarith
  · rw [takenIn_concat, if_neg hin, add_zero]
    exact h.within a z haz

/-! ## A level nothing is taken from -/

/-- Since a moment the tokens came up to the level, or as far as the rate gave. -/
def Reserved (b : TokenBucket K) (level moment : K) : Prop :=
  min level (b.rate * (b.last - moment)) ≤ b.tokens

variable {level moment : K}

theorem Reserved.of_last_le (hrate : 0 ≤ b.rate) (htokens : 0 ≤ b.tokens)
    (hlast : b.last ≤ moment) : b.Reserved level moment :=
  (min_le_right _ _).trans
    ((mul_nonpos_of_nonneg_of_nonpos hrate (sub_nonpos.mpr hlast)).trans htokens)

theorem Reserved.refill (h : b.Reserved level moment) (hrate : 0 ≤ b.rate)
    (hlevel : level ≤ b.burst) {now : K} (hnow : b.last ≤ now) :
    (b.refill now).Reserved level moment := by
  have hdt : max (now - b.last) 0 = now - b.last := max_eq_left (sub_nonneg.mpr hnow)
  change min level (b.rate * (now - moment)) ≤
    min (b.tokens + max (now - b.last) 0 * b.rate) b.burst
  rw [hdt]
  refine le_min ?_ ((min_le_left _ _).trans hlevel)
  have hgain : 0 ≤ (now - b.last) * b.rate := mul_nonneg (sub_nonneg.mpr hnow) hrate
  rcases min_le_iff.mp h with hfull | hpart
  · exact (min_le_left _ _).trans (by linarith)
  · have hsplit : b.rate * (now - moment) =
        b.rate * (b.last - moment) + (now - b.last) * b.rate := by ring
    exact (min_le_right _ _).trans (by linarith)

omit [IsStrictOrderedRing K] in
/-- Taking leaves the level as it is. -/
theorem Reserved.take (h : b.Reserved level moment) {n : K} (hn : n = 0 ∨ level ≤ b.tokens - n) :
    (b.take n).Reserved level moment := by
  rcases hn with rfl | hn
  · rwa [take_zero]
  · exact (min_le_left _ _).trans hn

/-- Once the level had time to fill, it is full. -/
theorem Reserved.le_tokens (h : b.Reserved level moment) (hrate : 0 < b.rate)
    (hlast : moment + level / b.rate ≤ b.last) : level ≤ b.tokens := by
  have hfilled : level ≤ b.rate * (b.last - moment) := by
    rw [← div_le_iff₀' hrate]
    linarith
  rwa [Reserved, min_eq_left hfilled] at h

end TokenBucket

end Queues
