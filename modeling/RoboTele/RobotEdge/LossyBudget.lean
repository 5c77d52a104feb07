import RoboTele.Queues.VaryingBucket
import RoboTele.RobotEdge.LossyRate
import Mathlib.Order.Bounds.Basic

/-!
# The budget of lossy traffic

Bytes are consumed right after `has_room` or `available` granted them.  Then the
tokens do not go below zero, and what is consumed in any window is at most what the
bucket holds and gives at the largest rate in force during the window
(`withinBudget`).

The controller is a bucket of the library: `bucket` gives its rate in bytes.
-/

namespace RoboTele

open Runs Queues

namespace LossyRateControl

/-- What the bucket holds at a rate in bytes. -/
def burstOf (rate : ℚ) : ℚ := max (rate * asSecs lossyBurst) minBurstBytes

/-- The control as a token bucket of bytes. -/
def bucket (c : LossyRateControl) : VaryingBucket ℚ where
  rate := c.rateBps / 8
  tokens := c.tokens
  last := asSecs c.lastRefill

/-- The cap is within its bounds. -/
def RateOk (c : LossyRateControl) : Prop := minBps ≤ c.rateBps ∧ c.rateBps ≤ maxBps

variable {c : LossyRateControl}

/-- A higher rate has no smaller burst. -/
theorem monotone_burstOf : Monotone burstOf := by
  intro rate rate' h
  have hsecs : 0 ≤ asSecs lossyBurst := by
    rw [asSecs]
    positivity
  exact max_le_max (mul_le_mul_of_nonneg_right h hsecs) le_rfl

theorem minBurstBytes_le_burstOf (rate : ℚ) : minBurstBytes ≤ burstOf rate := le_max_right _ _

/-! ## One call -/

/-- Asking for room refills the bucket. -/
theorem bucket_hasRoom {now : Instant} (hnow : c.lastRefill ≤ now) (bytes : Nat) :
    (c.hasRoom now bytes).1.bucket = c.bucket.refill burstOf (asSecs now) := by
  rw [VaryingBucket.refill, bucket, hasRoom, bucket, asSecs_durationSince hnow]
  rfl

/-- Where there is room, the tokens cover the bytes. -/
theorem le_tokens_of_hasRoom {now : Instant} {bytes : Nat}
    (h : (c.hasRoom now bytes).2 = true) : (bytes : ℚ) ≤ (c.hasRoom now bytes).1.tokens :=
  of_decide_eq_true h

/-- What is available is covered by the tokens. -/
theorem available_le_tokens {now : Instant} (h : 0 ≤ (c.available now).1.tokens) :
    ((c.available now).2 : ℚ) ≤ (c.available now).1.tokens := by
  have hfloor : (c.available now).2 ≤ ⌊(c.available now).1.tokens⌋₊ := by
    rw [← max_eq_left h]
    exact Nat.min_le_left _ _
  exact (Nat.cast_le.mpr hfloor).trans (Nat.floor_le h)

/-- The baseline's update leaves rate and tokens alone. -/
theorem keepBase_fields (c : LossyRateControl) (now : Instant) (srtt : Nat) :
    (c.keepBase now srtt).rateBps = c.rateBps ∧ (c.keepBase now srtt).tokens = c.tokens ∧
      (c.keepBase now srtt).lastRefill = c.lastRefill := by
  rw [keepBase]
  cases c.baseRtt with
  | none => exact ⟨rfl, rfl, rfl⟩
  | some k =>
      dsimp only
      split_ifs <;> exact ⟨rfl, rfl, rfl⟩

/-- An adjustment of the rate leaves the tokens alone. -/
theorem adjust_fields (c : LossyRateControl) (stalled : Bool) (queueDelay : Nat) :
    (c.adjust stalled queueDelay).tokens = c.tokens ∧
      (c.adjust stalled queueDelay).lastRefill = c.lastRefill := by
  rw [adjust]
  split_ifs <;> exact ⟨rfl, rfl⟩

/-- A clamped rate lies within its bounds. -/
theorem rateOk_clampRate (c : LossyRateControl) : c.clampRate.RateOk := by
  refine ⟨le_max_left _ _, max_le ?_ (min_le_left _ _)⟩
  rw [minBps, maxBps]
  norm_num

/-- An update changes only the rate, and keeps it within its bounds. -/
theorem applyUpdate_fields (h : c.RateOk) (u : UpdateCall) :
    (c.applyUpdate u).RateOk ∧ (c.applyUpdate u).tokens = c.tokens ∧
      (c.applyUpdate u).lastRefill = c.lastRefill := by
  obtain ⟨hrate, htokens, hlast⟩ := c.keepBase_fields u.now u.srtt
  rw [applyUpdate, update]
  dsimp only
  split
  · exact ⟨⟨hrate ▸ h.1, hrate ▸ h.2⟩, htokens, hlast⟩
  · refine ⟨rateOk_clampRate _, ?_, ?_⟩
    · exact (adjust_fields _ _ _).1.trans htokens
    · exact (adjust_fields _ _ _).2.trans hlast

end LossyRateControl

/-! ## Runs -/

/-- A call of the controller. -/
inductive BudgetCall where
  | update (u : LossyRateControl.UpdateCall)
  | hasRoom (now : Instant) (bytes : Nat)
  | available (now : Instant)
  | consume (bytes : Nat)

/-- The controller, the time of its last call, the bytes that this call granted if it
was one that grants, and what was consumed with the times. -/
structure BudgetRun where
  ctrl : LossyRateControl
  clock : Instant
  granted : Option Nat
  consumed : List (ℚ × ℚ)

namespace BudgetRun

open LossyRateControl

def new (start : Instant) : BudgetRun where
  ctrl := .new start
  clock := start
  granted := none
  consumed := []

/-- A call of the control. -/
def step (r : BudgetRun) : BudgetCall → BudgetRun
  | .update u => { r with ctrl := r.ctrl.applyUpdate u, clock := u.now, granted := none }
  | .hasRoom now bytes =>
      { r with
        ctrl := (r.ctrl.hasRoom now bytes).1
        clock := now
        granted := if (r.ctrl.hasRoom now bytes).2 then some bytes else none }
  | .available now =>
      { r with
        ctrl := (r.ctrl.available now).1
        clock := now
        granted := some (r.ctrl.available now).2 }
  | .consume bytes =>
      { r with
        ctrl := r.ctrl.consume bytes
        granted := r.granted.map (· - bytes)
        consumed := r.consumed ++ [(asSecs r.clock, (bytes : ℚ))] }

/-- Times do not go back, and only bytes that were just granted are consumed. -/
def Allowed (r : BudgetRun) : BudgetCall → Prop
  | .update u => r.clock ≤ u.now
  | .hasRoom now _ => r.clock ≤ now
  | .available now => r.clock ≤ now
  | .consume bytes => ∃ g ∈ r.granted, bytes ≤ g

instance (r : BudgetRun) : ∀ call, Decidable (r.Allowed call)
  | .update u => inferInstanceAs (Decidable (r.clock ≤ u.now))
  | .hasRoom now _ => inferInstanceAs (Decidable (r.clock ≤ now))
  | .available now => inferInstanceAs (Decidable (r.clock ≤ now))
  | .consume bytes => inferInstanceAs (Decidable (∃ g ∈ r.granted, bytes ≤ g))

/-- The control and its history after some calls. -/
def after (start : Instant) (calls : List BudgetCall) : BudgetRun := exec step (new start) calls

/-- A rate that was in force at some time from `a` to `z`: the one after some of the
calls, no later than `z`, if the next call is not before `a`. -/
def InForce (start : Instant) (calls : List BudgetCall) (a z rate : ℚ) : Prop :=
  ∃ past later, calls = past ++ later ∧ (after start past).ctrl.rateBps = rate ∧
    asSecs (after start past).clock ≤ z ∧
      ∀ call rest, later = call :: rest → a ≤ asSecs (after start (past ++ [call])).clock

/-- A rate that was in force at any time. -/
def Seen (start : Instant) (calls : List BudgetCall) (rate : ℚ) : Prop :=
  ∃ past later, calls = past ++ later ∧ (after start past).ctrl.rateBps = rate

/-- What the controller promises after some calls.  Windows are in seconds, rates in
bits and what is consumed in bytes. -/
structure WithinBudget (start : Instant) (calls : List BudgetCall) : Prop where
  rate : (after start calls).ctrl.RateOk
  nonneg : 0 ≤ (after start calls).ctrl.tokens
  full : ∀ R, IsGreatest {rate | Seen start calls rate} R →
    (after start calls).ctrl.tokens ≤ capacity R
  window : ∀ a z R, a ≤ z → IsGreatest {rate | InForce start calls a z rate} R →
    TokenBucket.takenIn a z (after start calls).consumed ≤ capacity R + R / 8 * (z - a)

/-! ## Rates in force -/

variable {start : Instant} {calls : List BudgetCall} {call : BudgetCall} {a z R : ℚ}

theorem after_concat (start : Instant) (calls : List BudgetCall) (call : BudgetCall) :
    after start (calls ++ [call]) = (after start calls).step call :=
  exec_concat _ _ _ _

/-- Every rate in force since `a` is at most `R`, in bytes. -/
def BoundedSince (start : Instant) (calls : List BudgetCall) (a R : ℚ) : Prop :=
  ∀ past later, calls = past ++ later →
    (∀ call rest, later = call :: rest → a ≤ asSecs (after start (past ++ [call])).clock) →
      (after start past).ctrl.rateBps / 8 ≤ R

/-- A bound on the rates bounds the last one. -/
theorem BoundedSince.last (h : BoundedSince start calls a R) :
    (after start calls).ctrl.rateBps / 8 ≤ R :=
  h calls [] (List.append_nil _).symm nofun

/-- A part of the run that a later call extends. -/
theorem le_clock_of_concat {past later : List BudgetCall}
    (hcall : a ≤ asSecs (after start (calls ++ [call])).clock) (hcalls : calls = past ++ later)
    (hnext : ∀ call rest, later = call :: rest → a ≤ asSecs (after start (past ++ [call])).clock) :
    ∀ call' rest, later ++ [call] = call' :: rest →
      a ≤ asSecs (after start (past ++ [call'])).clock := by
  intro call' rest hsplit
  cases later with
  | nil =>
      obtain ⟨rfl, -⟩ := List.cons.inj hsplit
      rwa [hcalls, List.append_nil] at hcall
  | cons call'' later =>
      obtain ⟨rfl, -⟩ := List.cons.inj hsplit
      exact hnext _ later rfl

/-- A bound over a run holds over its past. -/
theorem BoundedSince.of_concat (h : BoundedSince start (calls ++ [call]) a R)
    (hcall : a ≤ asSecs (after start (calls ++ [call])).clock) : BoundedSince start calls a R := by
  intro past later hcalls hnext
  refine h past (later ++ [call]) ?_ (le_clock_of_concat hcall hcalls hnext)
  rw [hcalls, List.append_assoc]

/-- A rate that was in force stays among those in force. -/
theorem InForce.concat {rate : ℚ} (h : InForce start calls a z rate)
    (hcall : a ≤ asSecs (after start (calls ++ [call])).clock) :
    InForce start (calls ++ [call]) a z rate := by
  obtain ⟨past, later, hcalls, hrate, hpast, hnext⟩ := h
  refine ⟨past, later ++ [call], ?_, hrate, hpast, le_clock_of_concat hcall hcalls hnext⟩
  rw [hcalls, List.append_assoc]

/-! ## One more call -/

/-- What holds of the controller, its clock and its grant, with bounds on the rates so
far. -/
structure Budgeted (r : BudgetRun) (Bounds : ℚ → ℚ → Prop) : Prop where
  rate : r.ctrl.RateOk
  refilled : r.ctrl.lastRefill ≤ r.clock
  granted : ∀ g ∈ r.granted, r.ctrl.lastRefill = r.clock ∧ (g : ℚ) ≤ r.ctrl.tokens
  ledger : VaryingBucket.Ledger burstOf r.ctrl.bucket r.consumed Bounds

variable {r : BudgetRun} {Bounds Bounds' : ℚ → ℚ → Prop}

/-- An allowed call does not set the clock back. -/
theorem clock_le_step (h : r.Allowed call) : r.clock ≤ (r.step call).clock := by
  cases call with
  | update u => exact h
  | hasRoom now bytes => exact h
  | available now => exact h
  | consume bytes => exact le_rfl

/-- A refill at the rate in force. -/
theorem Budgeted.hasRoom (h : r.Budgeted Bounds) {now : Instant} (hnow : r.clock ≤ now)
    (bytes : Nat) (hBounds : ∀ a R, a ≤ asSecs now → Bounds a R → r.ctrl.rateBps / 8 ≤ R) :
    VaryingBucket.Ledger burstOf (r.ctrl.hasRoom now bytes).1.bucket r.consumed Bounds := by
  have hlast := h.refilled.trans hnow
  have hrate : 0 ≤ r.ctrl.rateBps / 8 := by
    have hmin := h.rate.1
    rw [minBps] at hmin
    linarith
  have hburst : 0 ≤ burstOf (r.ctrl.rateBps / 8) := by
    refine le_trans ?_ (minBurstBytes_le_burstOf _)
    rw [minBurstBytes]
    norm_num
  rw [bucket_hasRoom hlast]
  exact h.ledger.refill monotone_burstOf (asSecs_le_asSecs.mpr hlast) hrate hburst hBounds

/-- A call that is allowed, with the bounds that hold after it. -/
theorem Budgeted.step (h : r.Budgeted Bounds) (hallowed : r.Allowed call)
    (hmono : ∀ a R, a ≤ asSecs (r.step call).clock → Bounds' a R →
      Bounds a R ∧ r.ctrl.rateBps / 8 ≤ R) :
    (r.step call).Budgeted Bounds' := by
  have hclock := asSecs_le_asSecs.mpr (h.refilled.trans (clock_le_step hallowed))
  have hledger : VaryingBucket.Ledger burstOf r.ctrl.bucket r.consumed Bounds' :=
    h.ledger.mono fun a R ha hR => (hmono a R (ha.trans hclock) hR).1
  have hbounded : r.Budgeted Bounds' := ⟨h.rate, h.refilled, h.granted, hledger⟩
  cases call with
  | update u =>
      obtain ⟨hrate, htokens, hlast⟩ := applyUpdate_fields h.rate u
      refine ⟨hrate, ?_, nofun, ?_⟩
      · exact hlast.le.trans (h.refilled.trans hallowed)
      · have hbucket : (r.ctrl.applyUpdate u).bucket =
            r.ctrl.bucket.setRate ((r.ctrl.applyUpdate u).rateBps / 8) := by
          rw [bucket, htokens, hlast]
          rfl
        change VaryingBucket.Ledger burstOf (r.ctrl.applyUpdate u).bucket r.consumed Bounds'
        rw [hbucket]
        exact hledger.setRate _
  | hasRoom now bytes =>
      refine ⟨h.rate, le_rfl, fun g hg => ⟨rfl, ?_⟩, ?_⟩
      · change g ∈ (if _ then some bytes else none) at hg
        split_ifs at hg with hroom
        · obtain rfl := Option.some.inj hg
          exact le_tokens_of_hasRoom hroom
        · exact absurd hg (Option.not_mem_none g)
      · exact hbounded.hasRoom hallowed bytes fun a R ha hR => (hmono a R ha hR).2
  | available now =>
      have hroom := hbounded.hasRoom hallowed 0 fun a R ha hR => (hmono a R ha hR).2
      refine ⟨h.rate, le_rfl, fun g hg => ⟨rfl, ?_⟩, hroom⟩
      obtain rfl := Option.some.inj hg
      exact available_le_tokens hroom.nonneg
  | consume bytes =>
      obtain ⟨g, hg, hle⟩ := hallowed
      obtain ⟨hlast, htokens⟩ := h.granted g hg
      have hbytes : (bytes : ℚ) ≤ g := Nat.cast_le.mpr hle
      refine ⟨h.rate, h.refilled, fun g' hg' => ⟨hlast, ?_⟩, ?_⟩
      · change g' ∈ r.granted.map (· - bytes) at hg'
        rw [hg] at hg'
        obtain rfl := Option.some.inj hg'
        rw [Nat.cast_sub hle]
        exact sub_le_sub_right htokens _
      · have htake := hledger.take (Nat.cast_nonneg bytes) (hbytes.trans htokens)
        rwa [show r.ctrl.bucket.last = asSecs r.clock from congrArg asSecs hlast] at htake

/-! ## Every run -/

/-- Every allowed run keeps the ledger, at each bound of its rates. -/
theorem budgeted_after (start : Instant) (calls : List BudgetCall)
    (hallowed : Along step Allowed (new start) calls) :
    (after start calls).Budgeted (BoundedSince start calls) := by
  induction calls using List.reverseRecOn with
  | nil =>
      refine ⟨⟨?_, ?_⟩, le_rfl, nofun, VaryingBucket.Ledger.new ?_ fun a R hR => ?_⟩
      · change minBps ≤ startBps
        rw [minBps, startBps]
        norm_num
      · change startBps ≤ maxBps
        rw [startBps, maxBps]
        norm_num
      · change 0 ≤ minBurstBytes
        rw [minBurstBytes]
        norm_num
      · refine ⟨?_, minBurstBytes_le_burstOf R⟩
        have hstart : startBps / 8 ≤ R := hR.last
        rw [startBps] at hstart
        linarith
  | append_singleton calls call ih =>
      obtain ⟨hcalls, hcall⟩ := (along_concat _ _ _ _ _).mp hallowed
      rw [after_concat]
      refine (ih hcalls).step hcall fun a R ha hR => ?_
      rw [← after_concat] at ha
      have hbefore := hR.of_concat ha
      exact ⟨hbefore, hbefore.last⟩

/-- Nor does a run of allowed calls. -/
theorem clock_le_exec : ∀ {r : BudgetRun} (calls : List BudgetCall),
    Along step Allowed r calls → r.clock ≤ (exec step r calls).clock
  | _, [], _ => le_rfl
  | _, _ :: calls, h => (clock_le_step h.1).trans (clock_le_exec calls h.2)

/-- In a window that the run has not left, the rates in force are those since its
begin. -/
theorem boundedSince_of_inForce (hallowed : Along step Allowed (new start) calls)
    (hz : asSecs (after start calls).clock ≤ z)
    (hR : ∀ rate, InForce start calls a z rate → rate ≤ R) :
    BoundedSince start calls a (R / 8) := by
  intro past later hcalls hnext
  have hclock : (after start past).clock ≤ (after start calls).clock := by
    rw [hcalls, along_append] at hallowed
    rw [hcalls, after, after, exec_append]
    exact clock_le_exec later hallowed.2
  have hle := hR _ ⟨past, later, hcalls, rfl, (asSecs_le_asSecs.mpr hclock).trans hz, hnext⟩
  exact div_le_div_of_nonneg_right hle (by norm_num)

/-- What a window takes, by the highest rate in force. -/
theorem takenIn_le (hallowed : Along step Allowed (new start) calls) (haz : a ≤ z)
    (hnonneg : 0 ≤ R) (hR : ∀ rate, InForce start calls a z rate → rate ≤ R) :
    TokenBucket.takenIn a z (after start calls).consumed ≤ capacity R + R / 8 * (z - a) := by
  have hcapacity : 0 ≤ capacity R + R / 8 * (z - a) := by
    have hburst : minBurstBytes ≤ capacity R := le_max_right _ _
    rw [minBurstBytes] at hburst
    have hgain : 0 ≤ R / 8 * (z - a) :=
      mul_nonneg (div_nonneg hnonneg (by norm_num)) (sub_nonneg.mpr haz)
    linarith
  induction calls using List.reverseRecOn with
  | nil => exact hcapacity
  | append_singleton calls call ih =>
      have hbudget := budgeted_after start (calls ++ [call]) hallowed
      obtain ⟨hcalls, hcall⟩ := (along_concat _ _ _ _ _).mp hallowed
      rcases lt_or_ge (asSecs (after start (calls ++ [call])).clock) a with hbefore | hin
      · -- the window has not begun
        rw [hbudget.ledger.takenIn_of_lt
          ((asSecs_le_asSecs.mpr hbudget.refilled).trans_lt hbefore)]
        exact hcapacity
      have hold := ih hcalls fun rate hrate => hR rate (hrate.concat hin)
      cases call with
      | update u =>
          rw [after_concat]
          exact hold
      | hasRoom now bytes =>
          rw [after_concat]
          exact hold
      | available now =>
          rw [after_concat]
          exact hold
      | consume bytes =>
          obtain ⟨g, hg, -⟩ := hcall
          have hlast := ((budgeted_after start calls hcalls).granted g hg).1
          have hclock : (after start (calls ++ [.consume bytes])).ctrl.bucket.last =
              asSecs (after start (calls ++ [.consume bytes])).clock := by
            rw [after_concat]
            exact congrArg asSecs hlast
          rcases lt_or_ge z (asSecs (after start (calls ++ [.consume bytes])).clock) with hz | hz
          · -- the window is over
            rw [after_concat] at hz ⊢
            refine (TokenBucket.takenIn_concat a z _ _ _).trans_le ?_
            rw [if_neg fun hwindow => absurd hwindow.2 (not_le.mpr hz), add_zero]
            exact hold
          · exact hbudget.ledger.takenIn_le (hclock ▸ hin) (hclock ▸ hz)
              (boundedSince_of_inForce hallowed hz hR) (div_nonneg hnonneg (by norm_num))

/-- Whatever the calls are, the rate stays within its bounds, the tokens do not go
below zero, and no window takes more than the bucket holds and gives at its largest
rate. -/
theorem withinBudget (start : Instant) (calls : List BudgetCall)
    (hallowed : Along step Allowed (new start) calls) : WithinBudget start calls := by
  have hbudget := budgeted_after start calls hallowed
  refine ⟨hbudget.rate, hbudget.ledger.nonneg, fun R hR => ?_, fun a z R haz hR => ?_⟩
  · refine hbudget.ledger.tokens_le (R := R / 8) fun past later hcalls _ => ?_
    exact div_le_div_of_nonneg_right (hR.2 ⟨past, later, hcalls, rfl⟩) (by norm_num)
  · refine takenIn_le hallowed haz ?_ fun rate hrate => hR.2 hrate
    obtain ⟨past, later, rfl, hrate, -⟩ := hR.1
    have hmin := (budgeted_after start past ((along_append _ _ _ _ _).mp hallowed).1).rate.1
    rw [hrate, minBps] at hmin
    linarith

/-- A datagram and a piece of a bulk object, with an update in between. -/
def mixedCalls : List BudgetCall :=
  [.hasRoom (fromMillis 20) 1350, .consume 1200,
    .update
      { now := fromMillis 100, srtt := fromMillis 3, sentBytes := 1200, ackedBytes := 1200 },
    .available (fromMillis 120), .consume 4000]

/-- A run of sends and updates. -/
theorem withinBudget_mixedCalls : WithinBudget 0 mixedCalls :=
  withinBudget 0 mixedCalls (by decide +kernel)

end BudgetRun

end RoboTele
