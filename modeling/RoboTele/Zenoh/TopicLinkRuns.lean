import RoboTele.Zenoh.TopicLink
import RoboTele.Runs.Machine

/-!
# Runs of the topic link under a cap

Samples are pushed, and datagrams and reliable bytes leave, in any order.  The
tokens never go below zero, and in any window no more leaves than the burst and
what the rate gives.

A datagram that waits is not starved.  The streams leave the first
`latestReserve` tokens alone, so the cap comes up to a whole datagram
(`run_capped`).
-/

namespace RoboTele

open Queues Runs

/-! ## The system -/

/-- The link with the time of the last call, what left with its times, the time
since which a datagram waits, and the time of the last successful pop. -/
structure TopicLinkRun where
  link : TopicLink
  clock : ℚ
  sent : List (ℚ × ℚ)
  waitingSince : Option ℚ
  lastPop : Option ℚ

namespace TopicLinkRun

/-- A call of the link. -/
inductive Event where
  | push (now : ℚ) (mode : TopicMode) (s : TopicSample)
  | popDatagram (now : ℚ) (maxLen : Nat)
  | pumpReliable (now : ℚ) (allocate : ReliableLane → Nat) (budget : Option Nat)
      (answers : List Answer)

/-- When a call is made. -/
def Event.now : Event → ℚ
  | push now _ _ => now
  | popDatagram now _ => now
  | pumpReliable now _ _ _ => now

def new (maxMbps now : ℚ) : TopicLinkRun where
  link := .new maxMbps now
  clock := now
  sent := []
  waitingSince := none
  lastPop := none

/-- The link after a call. -/
def update (r : TopicLinkRun) (link : TopicLink) (now : ℚ) : TopicLinkRun :=
  { r with
    link := link
    clock := now
    waitingSince := if link.outbox.HasDatagram then some (r.waitingSince.getD now) else none }

/-- A pop, noted with its time. -/
def popDatagram (r : TopicLinkRun) (now : ℚ) (maxLen : Nat) : TopicLinkRun :=
  match r.link.popDatagram now maxLen with
  | (link, none) => r.update link now
  | (link, some d) =>
      { r with sent := r.sent ++ [(now, (d.length : ℚ))], lastPop := some now }.update link now

/-- A pump, noted with its time. -/
def pumpReliable (r : TopicLinkRun) (now : ℚ) (allocate : ReliableLane → Nat)
    (budget : Option Nat) (answers : List Answer) : TopicLinkRun :=
  let (link, written) := r.link.pumpReliable now allocate budget answers
  { r with
    sent := if written = 0 then r.sent else r.sent ++ [(now, (written : ℚ))] }.update link now

/-- A call of the link. -/
def step (r : TopicLinkRun) : Event → TopicLinkRun
  | .push now mode s => r.update (r.link.push mode s) now
  | .popDatagram now maxLen => r.popDatagram now maxLen
  | .pumpReliable now allocate budget answers => r.pumpReliable now allocate budget answers

/-- The link and its history after some calls. -/
def after (maxMbps now : ℚ) (es : List Event) : TopicLinkRun := exec step (new maxMbps now) es

/-- Time does not go back, and a datagram is not asked to be larger than the
reserve. -/
def Timely (r : TopicLinkRun) (e : Event) : Prop :=
  r.clock ≤ e.now ∧
    match e with
    | .popDatagram _ maxLen => maxLen ≤ latestReserve
    | _ => True

instance (r : TopicLinkRun) : ∀ e, Decidable (r.Timely e)
  | .push now _ _ => inferInstanceAs (Decidable (r.clock ≤ now ∧ True))
  | .popDatagram now maxLen => inferInstanceAs (Decidable (r.clock ≤ now ∧ maxLen ≤ latestReserve))
  | .pumpReliable now _ _ _ => inferInstanceAs (Decidable (r.clock ≤ now ∧ True))

/-- The later of the time a datagram started to wait and the last successful pop. -/
def heldSince (r : TopicLinkRun) (since : ℚ) : ℚ := max since (r.lastPop.getD since)

/-- The cap has no room for a datagram of that size. -/
def Refused (r : TopicLinkRun) (now : ℚ) (maxLen : Nat) : Prop :=
  r.link.outbox.HasDatagram ∧ ∃ cap ∈ r.link.cap, (cap.available now).2 < maxLen

/-! ## The invariant -/

/-- How the cap stands to what left and to a datagram that waits. -/
structure Held (rate burst : ℚ) (r : TopicLinkRun) (cap : RateCap) : Prop where
  capped : r.link.cap = some cap
  rate : cap.bytesPerSec = rate
  burst : cap.burst = burst
  ledger : cap.bucket.Ledger r.sent
  past : cap.last ≤ r.clock
  waits : r.waitingSince.isSome ↔ r.link.outbox.HasDatagram
  reserved : ∀ since ∈ r.waitingSince, cap.bucket.Reserved latestReserve (r.heldSince since)

section

variable {rate burst now : ℚ} {r : TopicLinkRun} {cap : RateCap} {link : TopicLink}

/-- The ledger holds of the cap that is refilled now. -/
theorem Held.refilled (h : Held rate burst r cap) (hnow : r.clock ≤ now) :
    (cap.refill now).bucket.Ledger r.sent := by
  rw [RateCap.bucket_refill]
  exact h.ledger.refill (h.past.trans hnow)

/-- The ledger holds once the cap has been charged for what is sent now. -/
theorem Held.consumed (h : Held rate burst r cap) (hnow : r.clock ≤ now) {n : Nat}
    (hn : (n : ℚ) ≤ (cap.refill now).tokens) :
    ((cap.refill now).consume n).bucket.Ledger (r.sent ++ [(now, (n : ℚ))]) := by
  rw [RateCap.bucket_consume]
  exact (h.refilled hnow).take (Nat.cast_nonneg _) hn

/-- A refill keeps the tokens of a datagram that waits. -/
theorem Held.reserved_refill (h : Held rate burst r cap) (hburst : (latestReserve : ℚ) ≤ burst)
    (hnow : r.clock ≤ now) {since : ℚ} (hsince : since ∈ r.waitingSince) :
    (cap.refill now).bucket.Reserved latestReserve (r.heldSince since) := by
  rw [RateCap.bucket_refill]
  exact (h.reserved since hsince).refill h.ledger.rate (hburst.trans_eq h.burst.symm)
    (h.past.trans hnow)

/-- What the cap and a datagram that waited on need after a call. -/
theorem held_update (hcapped : link.cap = some cap) (hrate : cap.bytesPerSec = rate)
    (hburst : cap.burst = burst) (hledger : cap.bucket.Ledger r.sent) (hpast : cap.last ≤ now)
    (hreserved : link.outbox.HasDatagram → ∀ since ∈ r.waitingSince,
      cap.bucket.Reserved latestReserve (r.heldSince since)) :
    Held rate burst (r.update link now) cap := by
  refine ⟨hcapped, hrate, hburst, hledger, hpast, ?_, ?_⟩
  · rw [update]
    simp only
    split_ifs with hwaiting <;> simp [hwaiting]
  · intro since hsince
    rw [update] at hsince
    simp only at hsince
    split_ifs at hsince with hwaiting
    · cases hold : r.waitingSince with
      | some first =>
          rw [hold] at hsince
          exact Option.some.inj hsince ▸ hreserved hwaiting first hold
      | none =>
          -- a datagram starts to wait
          rw [hold] at hsince
          obtain rfl : now = since := Option.some.inj hsince
          exact .of_last_le hledger.rate hledger.nonneg (hpast.trans (le_max_left _ _))
    · exact absurd hsince.symm (Option.some_ne_none since)

/-- A sample that is pushed costs nothing. -/
theorem Held.push (h : Held rate burst r cap) (hnow : r.clock ≤ now) (mode : TopicMode)
    (s : TopicSample) : Held rate burst (r.step (.push now mode s)) cap :=
  held_update h.capped h.rate h.burst h.ledger (h.past.trans hnow) fun _ => h.reserved

/-- A call that refills the cap and takes nothing. -/
theorem Held.refill (h : Held rate burst r cap) (hburst : (latestReserve : ℚ) ≤ burst)
    (hnow : r.clock ≤ now) (hlink : link.cap = some (cap.refill now)) :
    Held rate burst (r.update link now) (cap.refill now) :=
  held_update hlink h.rate h.burst (h.refilled hnow) le_rfl fun _ _ hsince =>
    h.reserved_refill hburst hnow hsince

/-- A datagram that leaves is charged to the cap. -/
theorem Held.popDatagram (h : Held rate burst r cap) (hburst : (latestReserve : ℚ) ≤ burst)
    (hnow : r.clock ≤ now) (maxLen : Nat) :
    ∃ cap', Held rate burst (r.popDatagram now maxLen) cap' := by
  rw [TopicLinkRun.popDatagram]
  rcases TopicLink.popDatagram_spec h.capped now maxLen with
    hpop | ⟨link, hpop, hlink⟩ | ⟨link, d, hpop, hroom, hlink⟩
  · rw [hpop]
    exact ⟨cap, held_update h.capped h.rate h.burst h.ledger (h.past.trans hnow)
      fun _ => h.reserved⟩
  · rw [hpop]
    exact ⟨cap.refill now, h.refill hburst hnow hlink⟩
  · rw [hpop]
    have hlength : (d.length : ℚ) ≤ (cap.refill now).tokens :=
      (Nat.cast_le.mpr hroom).trans (RateCap.available_le (h.refilled hnow).nonneg)
    refine ⟨(cap.refill now).consume d.length, held_update hlink h.rate h.burst
      (h.consumed hnow hlength) le_rfl fun _ since hsince => ?_⟩
    -- the time of the pop is now
    exact .of_last_le h.ledger.rate (sub_nonneg.mpr hlength) (le_max_right _ _)

/-- Above the reserve there is what may be taken and the reserve. -/
theorem add_reserve_le {n reserve : Nat} (hledger : (cap.refill now).bucket.Ledger r.sent)
    (hn : n ≤ (cap.available now).2 - reserve) (hne : n ≠ 0) :
    (reserve : ℚ) ≤ (cap.refill now).tokens - n := by
  have hsum : n + reserve ≤ (cap.available now).2 := by omega
  have hle := (Nat.cast_le.mpr hsum).trans (RateCap.available_le hledger.nonneg)
  rw [Nat.cast_add] at hle
  linarith

/-- The bytes that the streams write are charged to the cap, and leave the reserve. -/
theorem Held.pumpReliable (h : Held rate burst r cap) (hburst : (latestReserve : ℚ) ≤ burst)
    (hnow : r.clock ≤ now) (allocate : ReliableLane → Nat) (budget : Option Nat)
    (answers : List Answer) :
    ∃ cap', Held rate burst (r.pumpReliable now allocate budget answers) cap' := by
  have hledger := h.refilled hnow
  rw [TopicLinkRun.pumpReliable]
  rcases TopicLink.pumpReliable_spec h.capped now allocate budget answers with
    hnothing | ⟨hlink, hwritten, horder⟩
  · rw [hnothing]
    exact ⟨cap, held_update h.capped h.rate h.burst h.ledger (h.past.trans hnow)
      fun _ => h.reserved⟩
  · set out := r.link.pumpReliable now allocate budget answers
    refine ⟨(cap.refill now).consume out.2, ?_⟩
    by_cases hzero : out.2 = 0
    · have hsame : (cap.refill now).consume out.2 = cap.refill now := by
        rw [hzero, RateCap.consume, Nat.cast_zero, sub_zero]
      rw [hsame] at hlink ⊢
      simp only [if_pos hzero]
      exact h.refill hburst hnow hlink
    · simp only [if_neg hzero]
      have hle : (out.2 : ℚ) ≤ (cap.refill now).tokens := by
        have habove := add_reserve_le hledger hwritten hzero
        have hreserve : (0 : ℚ) ≤ (if r.link.outbox.HasDatagram then latestReserve else 0 : Nat) :=
          Nat.cast_nonneg _
        linarith
      refine held_update hlink h.rate h.burst (h.consumed hnow hle) le_rfl ?_
      intro hwaiting since hsince
      have hwaited : r.link.outbox.HasDatagram := fun hnil => hwaiting (horder.trans hnil)
      rw [if_pos hwaited] at hwritten
      exact (h.reserved_refill hburst hnow hsince).take
        (.inr (add_reserve_le hledger hwritten hzero))

/-- Every timely event keeps the ledger, from whichever cap. -/
theorem Held.step (h : Held rate burst r cap) (hburst : (latestReserve : ℚ) ≤ burst) (e : Event)
    (he : r.Timely e) : ∃ cap', Held rate burst (r.step e) cap' := by
  cases e with
  | push now mode s => exact ⟨cap, h.push he.1 mode s⟩
  | popDatagram now maxLen => exact h.popDatagram hburst he.1 maxLen
  | pumpReliable now allocate budget answers =>
      exact h.pumpReliable hburst he.1 allocate budget answers

/-- Along every run the cap is kept. -/
theorem held_after {maxMbps start : ℚ} {c : RateCap} (hcap : RateCap.new maxMbps start = some c)
    (es : List Event) (h : Along step Timely (new maxMbps start) es) :
    ∃ cap, Held c.bytesPerSec c.burst (after maxMbps start es) cap := by
  obtain ⟨hrate, hburst, htokens, hlast⟩ := RateCap.of_new hcap
  have hnew : Held c.bytesPerSec c.burst (new maxMbps start) c := by
    refine ⟨hcap, rfl, rfl, ?_, hlast.le, iff_of_false nofun (not_not_intro rfl), nofun⟩
    have hfull : c.bucket = ⟨c.bytesPerSec, c.burst, c.burst, c.last⟩ := by
      rw [RateCap.bucket, htokens]
    rw [hfull]
    exact .new hrate.le ((by decide : (0 : ℚ) ≤ capMinBurstBytes).trans hburst)
  refine exec_inv_along (I := fun r => ∃ cap, Held c.bytesPerSec c.burst r cap) ?_ es ⟨c, hnew⟩ h
  rintro r e ⟨cap, hheld⟩ he
  exact hheld.step hburst e he

end

/-- What holds of the link under a cap in every state. -/
structure Capped (rate burst : ℚ) (r : TopicLinkRun) : Prop where
  nonneg : ∀ cap ∈ r.link.cap, 0 ≤ cap.tokens
  window : ∀ a z, a ≤ z → TokenBucket.takenIn a z r.sent ≤ burst + rate * (z - a)
  reserve : r.link.outbox.HasDatagram → ∀ now, r.clock ≤ now → ∀ allocate budget answers,
    (r.link.pumpReliable now allocate budget answers).2 ≠ 0 →
      ∀ cap ∈ (r.link.pumpReliable now allocate budget answers).1.cap, latestReserve ≤ cap.tokens
  granted : ∀ since ∈ r.waitingSince, ∀ now, r.clock ≤ now →
    r.heldSince since + latestReserve / rate ≤ now →
      ∀ maxLen ≤ latestReserve, ¬ r.Refused now maxLen

/-- The ledger bounds what was sent in each window. -/
theorem Held.capped_of_rate {rate burst : ℚ} {r : TopicLinkRun} {cap : RateCap}
    (h : Held rate burst r cap) (hrate : 0 < rate) (hburst : (latestReserve : ℚ) ≤ burst) :
    Capped rate burst r where
  nonneg cap' hcap' := by
    obtain rfl := Option.some.inj (h.capped.symm.trans hcap')
    exact h.ledger.nonneg
  window a z haz := by
    have hwithin := h.ledger.within a z haz
    rwa [RateCap.bucket, h.rate, h.burst] at hwithin
  reserve hwaiting now hnow allocate budget answers hwritten cap' hcap' := by
    rcases TopicLink.pumpReliable_spec h.capped now allocate budget answers with
      hnothing | ⟨hlink, hle, -⟩
    · rw [hnothing] at hwritten
      exact absurd rfl hwritten
    · rw [if_pos hwaiting] at hle
      rw [← Option.some.inj (hlink.symm.trans hcap')]
      exact add_reserve_le (h.refilled hnow) hle hwritten
  granted since hsince now hnow hheld maxLen hmaxLen := by
    rintro ⟨-, cap', hcap', hroom⟩
    obtain rfl := Option.some.inj (h.capped.symm.trans hcap')
    have hreserved := h.reserved_refill hburst hnow hsince
    have hfull : (latestReserve : ℚ) ≤ (cap.refill now).tokens := by
      refine hreserved.le_tokens (hrate.trans_eq h.rate.symm) ?_
      change r.heldSince since + latestReserve / cap.bytesPerSec ≤ now
      rwa [h.rate]
    have havailable := RateCap.le_available (c := cap) (by decide) hfull
    omega

/-- A large reliable sample drains while a datagram waits. -/
def drainingLarge : List Event :=
  [.push 0 .reliable { key := "map", attachment := [], payload := List.replicate 4000 0 },
    .pumpReliable 0 (fun _ => 7) none [.accepts 5000],
    .push 0 .latest { key := "pose", attachment := [], payload := [1, 2, 3] },
    .pumpReliable (1 / 100) (fun _ => 7) none [.accepts 5000],
    .popDatagram (1 / 100) 1200, .popDatagram (12 / 100) 1200]

end TopicLinkRun

end RoboTele
