import RoboTele.Core.Clock
import RoboTele.Core.RateCap
import RoboTele.Queues.WindowMin
import RoboTele.Runs.Machine

/-!
# The cap on lossy traffic

The cap goes down while data waits in queues along the path and up otherwise, at
most once in each `updateInterval`.  How long data waits is the smoothed round trip
time above a baseline, the lowest one of the last `baseRttWindow`.

The baseline is kept as one value with its time.  When it is too old, the current
round trip time takes its place, even if a lower one is still in the window.
`baselinesRight_iff` says that the baseline is right exactly as long as this does
not happen.  Rates and tokens are exact rationals.
-/

namespace RoboTele

open Runs Past

def updateInterval : Nat := fromMillis 100

def targetQueueDelay : Nat := fromMillis 20

def rateDecrease : ℚ := 8 / 10

def increaseBps : ℚ := 250000

def minBps : ℚ := 1000000

def maxBps : ℚ := 50000000

def startBps : ℚ := 4000000

def lossyBurst : Nat := fromMillis 25

def minBurstBytes : ℚ := 4000

def baseRttWindow : Nat := fromMillis 300000

/-- The range and the mean of the rate, for the log. -/
structure RateStats where
  decreases : Nat
  minBps : ℚ
  maxBps : ℚ
  meanBps : ℚ
deriving DecidableEq

/-- The rate of the lossy queue, and what it was last decided by. -/
structure LossyRateControl where
  rateBps : ℚ
  tokens : ℚ
  lastRefill : Instant
  lastUpdate : Instant
  started : Instant
  weightedSum : ℚ
  lastSentBytes : Nat
  lastAckedBytes : Nat
  lastTrace : Instant
  baseRtt : Option (Nat × Instant)
  stats : RateStats
deriving DecidableEq

namespace LossyRateControl

def new (now : Instant) : LossyRateControl where
  rateBps := startBps
  tokens := minBurstBytes
  lastRefill := now
  lastUpdate := now
  started := now
  weightedSum := 0
  lastSentBytes := 0
  lastAckedBytes := 0
  lastTrace := now
  baseRtt := none
  stats := { decreases := 0, minBps := startBps, maxBps := startBps, meanBps := 0 }

/-- `stats`: the counts with the mean up to now. -/
def statsAt (c : LossyRateControl) (now : Instant) : RateStats :=
  let elapsed := asSecs (now.durationSince c.started)
  let sum := c.weightedSum + c.rateBps * asSecs (now.durationSince c.lastUpdate)
  { c.stats with meanBps := if 0 < elapsed then sum / elapsed else c.rateBps }

/-- The baseline that a call of `update` computes. -/
def base (c : LossyRateControl) (now : Instant) (srtt : Nat) : Nat :=
  match c.baseRtt with
  | some (b, at') =>
      if b ≤ srtt ∧ now.durationSince at' < baseRttWindow then b else srtt
  | none => srtt

/-- The baseline that it keeps. -/
def keepBase (c : LossyRateControl) (now : Instant) (srtt : Nat) : LossyRateControl :=
  match c.baseRtt with
  | some (b, at') =>
      if b ≤ srtt ∧ now.durationSince at' < baseRttWindow then c
      else { c with baseRtt := some (srtt, now) }
  | none => { c with baseRtt := some (srtt, now) }

/-- The cap after a cut or a raise. -/
def adjust (c : LossyRateControl) (stalled : Bool) (queueDelay : Nat) : LossyRateControl :=
  if stalled ∨ targetQueueDelay < queueDelay then
    { c with
      rateBps := c.rateBps * rateDecrease
      stats := { c.stats with decreases := c.stats.decreases + 1 } }
  else { c with rateBps := c.rateBps + increaseBps }

/-- The cap within its bounds, and the least and the largest cap. -/
def clampRate (c : LossyRateControl) : LossyRateControl :=
  let rate := max minBps (min maxBps c.rateBps)
  { c with
    rateBps := rate
    stats := { c.stats with minBps := min c.stats.minBps rate, maxBps := max c.stats.maxBps rate } }

/-- `update` from the path's round-trip time, and what was sent and acknowledged. -/
def update (c : LossyRateControl) (now : Instant) (srtt sentBytes ackedBytes : Nat) :
    LossyRateControl :=
  let base := c.base now srtt
  let c := c.keepBase now srtt
  let since := now.durationSince c.lastUpdate
  if since < updateInterval then c
  else
    let stalled := c.lastSentBytes < sentBytes ∧ ackedBytes = c.lastAckedBytes
    let lastTrace :=
      if fromMillis 1000 ≤ now.durationSince c.lastTrace then now else c.lastTrace
    let c :=
      { c with
        weightedSum := c.weightedSum + c.rateBps * asSecs since
        lastUpdate := now
        lastSentBytes := sentBytes
        lastAckedBytes := ackedBytes
        lastTrace := lastTrace }
    (c.adjust stalled (srtt - base)).clampRate

/-- What the bucket holds at a rate. -/
def capacity (rateBps : ℚ) : ℚ := max (rateBps / 8 * asSecs lossyBurst) minBurstBytes

/-- Whether so many bytes may be sent now. -/
def hasRoom (c : LossyRateControl) (now : Instant) (bytes : Nat) : LossyRateControl × Bool :=
  let refill := c.rateBps / 8 * asSecs (now.durationSince c.lastRefill)
  let tokens := min (c.tokens + refill) (capacity c.rateBps)
  ({ c with tokens := tokens, lastRefill := now }, decide ((bytes : ℚ) ≤ tokens))

/-- How many bytes may be sent now. -/
def available (c : LossyRateControl) (now : Instant) : LossyRateControl × Nat :=
  let c := (c.hasRoom now 0).1
  (c, toUsize (max c.tokens 0))

/-- Bytes were sent. -/
def consume (c : LossyRateControl) (bytes : Nat) : LossyRateControl :=
  { c with tokens := c.tokens - bytes }

/-! ## Calls of `update` -/

/-- One call of `update`. -/
structure UpdateCall where
  now : Instant
  srtt : Nat
  sentBytes : Nat
  ackedBytes : Nat

/-- The time and the round-trip time of a call. -/
def UpdateCall.sample (u : UpdateCall) : Nat × Nat := (u.now, u.srtt)

/-- A call of `update`. -/
def applyUpdate (c : LossyRateControl) (u : UpdateCall) : LossyRateControl :=
  c.update u.now u.srtt u.sentBytes u.ackedBytes

/-- The controller after some calls of `update`. -/
def afterUpdates (start : Instant) (us : List UpdateCall) : LossyRateControl :=
  exec applyUpdate (new start) us

/-- Times do not go back. -/
def UpdatesOrdered (us : List UpdateCall) : Prop := us.Pairwise fun u u' => u.now ≤ u'.now

instance (us : List UpdateCall) : Decidable (UpdatesOrdered us) :=
  inferInstanceAs (Decidable (us.Pairwise _))

/-- The lowest round trip time of the window that ends with a call. -/
def lowestInWindow (past : List UpdateCall) (u : UpdateCall) : Nat :=
  ((past.filter fun u' => u.now.durationSince u'.now < baseRttWindow).map UpdateCall.srtt).foldr
    min u.srtt

/-- Each call computes the lowest round trip time of its window. -/
def BaselinesRight (start : Instant) (us : List UpdateCall) : Prop :=
  Always (fun past u => (afterUpdates start past).base u.now u.srtt = lowestInWindow past u) us

/-- A call that finds the kept baseline too old has the lowest round trip time of its
window. -/
def RestartsLowest (start : Instant) (past : List UpdateCall) (u : UpdateCall) : Prop :=
  (∃ k ∈ (afterUpdates start past).baseRtt, baseRttWindow ≤ u.now.durationSince k.2) →
    ∀ u' ∈ past, u.now.durationSince u'.now < baseRttWindow → u.srtt ≤ u'.srtt

/-! ## The baseline as a kept least sample -/

/-- The baseline is kept as the minimum of a window is. -/
theorem base_eq_keep (c : LossyRateControl) (now : Instant) (srtt : Nat) :
    c.base now srtt = (WindowMin.keep baseRttWindow c.baseRtt now srtt).1 := by
  rw [base]
  cases c.baseRtt with
  | none => rfl
  | some k =>
      rw [WindowMin.keep_some]
      by_cases hkeep : k.1 ≤ srtt ∧ now - k.2 < baseRttWindow
      · rw [if_pos hkeep]
        exact if_pos hkeep
      · rw [if_neg hkeep]
        exact if_neg hkeep

/-- An update keeps the minimum of its window. -/
theorem baseRtt_keepBase (c : LossyRateControl) (now : Instant) (srtt : Nat) :
    (c.keepBase now srtt).baseRtt = some (WindowMin.keep baseRttWindow c.baseRtt now srtt) := by
  rw [keepBase]
  cases hbase : c.baseRtt with
  | none => rfl
  | some k =>
      rw [WindowMin.keep_some]
      by_cases hkeep : k.1 ≤ srtt ∧ now - k.2 < baseRttWindow
      · rw [if_pos hkeep]
        exact (congrArg baseRtt (if_pos hkeep)).trans hbase
      · rw [if_neg hkeep]
        exact congrArg baseRtt (if_neg hkeep)

/-- An adjustment of the rate leaves it alone. -/
theorem baseRtt_adjust (c : LossyRateControl) (stalled : Bool) (queueDelay : Nat) :
    (c.adjust stalled queueDelay).baseRtt = c.baseRtt := by
  rw [adjust]
  split_ifs <;> rfl

/-- A call keeps its round trip time or the one kept before, whatever it does to the
cap. -/
theorem baseRtt_applyUpdate (c : LossyRateControl) (u : UpdateCall) :
    (c.applyUpdate u).baseRtt = some (WindowMin.keep baseRttWindow c.baseRtt u.now u.srtt) := by
  rw [← baseRtt_keepBase, applyUpdate, update]
  dsimp only
  split_ifs
  · rfl
  · rw [clampRate, baseRtt_adjust]
  · rw [clampRate, baseRtt_adjust]

/-- After a run it is the minimum that was kept of the run's samples. -/
theorem baseRtt_afterUpdates (start : Instant) (us : List UpdateCall) :
    (afterUpdates start us).baseRtt =
      WindowMin.kept baseRttWindow (us.map UpdateCall.sample) := by
  induction us using List.reverseRecOn with
  | nil => rfl
  | append_singleton us u ih =>
      rw [afterUpdates, exec_concat, ← afterUpdates, baseRtt_applyUpdate, ih, List.map_append,
        List.map_singleton, WindowMin.kept_concat]
      rfl

/-- The lowest RTT of the window is the least of its samples. -/
theorem lowestInWindow_eq_least (past : List UpdateCall) (u : UpdateCall) :
    lowestInWindow past u =
      WindowMin.least baseRttWindow (past.map UpdateCall.sample) u.now u.srtt := by
  rw [lowestInWindow, WindowMin.least, List.filter_map, List.map_map]
  rfl

/-- The baselines of a run are right when every minimum is. -/
theorem baselinesRight_iff_always (start : Instant) (us : List UpdateCall) :
    BaselinesRight start us ↔
      Always (WindowMin.IsRight baseRttWindow) (us.map UpdateCall.sample) := by
  rw [always_map, BaselinesRight]
  refine always_congr fun past u later _ => ?_
  dsimp only
  rw [base_eq_keep, baseRtt_afterUpdates, lowestInWindow_eq_least]
  rfl

/-- A baseline restarts as the minimum of a window does. -/
theorem restartsLowest_iff (start : Instant) (past : List UpdateCall) (u : UpdateCall) :
    RestartsLowest start past u ↔
      WindowMin.RestartsRight baseRttWindow (past.map UpdateCall.sample) u.sample := by
  rw [RestartsLowest, baseRtt_afterUpdates, WindowMin.RestartsRight, WindowMin.Expired,
    List.forall_mem_map]
  rfl

/-- Every baseline is the lowest round trip time of its window exactly if every call
that finds the kept one too old has the lowest. -/
theorem baselinesRight_iff (start : Instant) (us : List UpdateCall) (hordered : UpdatesOrdered us) :
    BaselinesRight start us ↔ Always (RestartsLowest start) us := by
  have hsamples : WindowMin.Ordered (us.map UpdateCall.sample) := List.pairwise_map.mpr hordered
  rw [baselinesRight_iff_always, WindowMin.always_least_iff hsamples, always_map]
  exact always_congr fun past u later _ => (restartsLowest_iff start past u).symm

/-- The low round trip time of the second call is in the window of the third. -/
def congestedAtExpiry : List UpdateCall :=
  [{ now := 0, srtt := fromMillis 2, sentBytes := 0, ackedBytes := 0 },
    { now := fromMillis 200000, srtt := fromMillis 3, sentBytes := 0, ackedBytes := 0 },
    { now := fromMillis 300000, srtt := fromMillis 60, sentBytes := 0, ackedBytes := 0 }]

/-- The characterization at the run that follows. -/
theorem baselinesRight_iff_congestedAtExpiry :
    BaselinesRight 0 congestedAtExpiry ↔ Always (RestartsLowest 0) congestedAtExpiry :=
  baselinesRight_iff 0 congestedAtExpiry (by decide)

/-- A baseline that expires under congestion is replaced by a higher RTT. -/
theorem not_baselinesRight_congestedAtExpiry :
    ¬ ∀ start us, UpdatesOrdered us → BaselinesRight start us := by
  intro h
  have hright := h 0 congestedAtExpiry (by decide) _ _ [] (List.take_append_drop 2 _).symm
  exact absurd hright (by decide +kernel)

end LossyRateControl

end RoboTele
