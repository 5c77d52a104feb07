import Mathlib.Algebra.Order.Field.Rat
import Mathlib.Algebra.Order.Floor.Semiring
import Mathlib.Data.Rat.Floor
import Mathlib.Tactic.FieldSimp
import Mathlib.Tactic.Linarith
import Mathlib.Tactic.Ring

/-!
# Motion reconstruction

A buffer keeps the two newest samples of a field vector and answers what the values
are at a time that lags the clock.  Between the two samples and past the newer one
it follows the line through them; before the older one it holds the older one.

So on evenly paced motion along a line the answer is exact from the older sample on
(`reconstructAt_received`).  A query by the default delay is one and a half periods old, and
a network that is faster than half a period has brought two newer samples by then.  The
answer then stands still until the query has come to the older of them.  `neverStalls_iff`
gives the latencies with which motion never stalls.

Values are exact rationals and capture times are microseconds.
-/

namespace RoboTele

/-- Motion values and the sender's time for them. -/
structure TimestampedSample where
  captureUs : Nat
  values : List ℚ
deriving DecidableEq

/-- The two newest samples. -/
structure MotionBuffer where
  previous : Option TimestampedSample
  latest : Option TimestampedSample
deriving DecidableEq

/-- The way from `a` to `b`, component by component. -/
def lerp (a b : List ℚ) (t : ℚ) : List ℚ := List.zipWith (fun x y => x + (y - x) * t) a b

namespace MotionBuffer

/-- No sample has arrived. -/
def new : MotionBuffer where
  previous := none
  latest := none

/-- The newest sample becomes the previous one. -/
def push (b : MotionBuffer) (sample : TimestampedSample) : MotionBuffer where
  previous := b.latest
  latest := some sample

/-- The one sample there is, unless the query is too far past it. -/
def hold (latest : TimestampedSample) (queryUs maxExtrapolationUs : Nat) : Option (List ℚ) :=
  let aheadUs := queryUs - latest.captureUs
  if latest.captureUs ≤ queryUs ∧ aheadUs ≤ maxExtrapolationUs ∨ queryUs < latest.captureUs then
    some latest.values
  else none

/-- The values on the way from one sample to a later one, and past it. -/
def along (prev latest : TimestampedSample) (queryUs maxExtrapolationUs : Nat) :
    Option (List ℚ) :=
  let span : ℚ := (latest.captureUs - prev.captureUs : Nat)
  if queryUs ≤ latest.captureUs then
    -- a query older than the previous sample holds it
    let t : ℚ := (queryUs - prev.captureUs : Nat) / span
    some (lerp prev.values latest.values (max 0 (min 1 t)))
  else
    let aheadUs := queryUs - latest.captureUs
    if maxExtrapolationUs < aheadUs then none
    else some (lerp prev.values latest.values (1 + aheadUs / span))

/-- The values at a time, between the two samples or along their line. -/
def reconstructAt (b : MotionBuffer) (queryUs maxExtrapolationUs : Nat) : Option (List ℚ) :=
  match b.previous, b.latest with
  | some prev, some latest =>
      if prev.captureUs < latest.captureUs then along prev latest queryUs maxExtrapolationUs
      else hold latest queryUs maxExtrapolationUs
  | none, some latest => hold latest queryUs maxExtrapolationUs
  | _, none => none

end MotionBuffer

/-- One and a half periods, in whole microseconds. -/
def defaultInterpolationDelayUs (controlRateHz : Nat) : Nat :=
  if controlRateHz = 0 then 0 else max (1500000 / controlRateHz) 1

/-! ## Evenly paced motion -/

/-- Samples that are captured at a rate, from a time on in microseconds, with values on
a line over the capture times, and their latencies in the order of the samples. -/
structure PacedMotion where
  rateHz : Nat
  rate_pos : 0 < rateHz
  rate_lt : rateHz < 2 ^ 16
  start : ℚ
  start_nonneg : 0 ≤ start
  line : List (ℚ × ℚ)
  latency : Nat → ℚ
  latency_nonneg : ∀ k, 0 ≤ latency k
  inOrder : Monotone fun k => start + k * (1000000 / rateHz) + latency k

namespace PacedMotion

/-- When the `k`-th sample is captured, in microseconds. -/
def capturedAt (m : PacedMotion) (k : Nat) : ℚ := m.start + k * (1000000 / m.rateHz)

/-- The capture timestamp, in whole microseconds. -/
def captureUs (m : PacedMotion) (k : Nat) : Nat := ⌊m.capturedAt k⌋₊

/-- When the `k`-th sample comes in. -/
def arrivesAt (m : PacedMotion) (k : Nat) : ℚ := m.capturedAt k + m.latency k

/-- The values on the line at a time. -/
def valuesAt (m : PacedMotion) (t : ℚ) : List ℚ := m.line.map fun c => c.1 + c.2 * t

/-- The `k`-th sample. -/
def sample (m : PacedMotion) (k : Nat) : TimestampedSample where
  captureUs := m.captureUs k
  values := m.valuesAt (m.captureUs k)

/-- The buffer once the first `n` samples are in. -/
def received (m : PacedMotion) (n : Nat) : MotionBuffer :=
  ((List.range n).map m.sample).foldl MotionBuffer.push .new

/-- Exactly the first `n` samples are in by now. -/
def Received (m : PacedMotion) (now n : Nat) : Prop := ∀ k, m.arrivesAt k ≤ now ↔ k < n

/-- A query by the default delay is answered with the value at that time, from the first
capture on and up to the allowance past the newest one. -/
def NeverStalls (m : PacedMotion) : Prop :=
  ∀ now n query allowance : Nat, m.Received now n → 2 ≤ n →
    query + defaultInterpolationDelayUs m.rateHz = now →
    m.captureUs 0 ≤ query → query ≤ m.captureUs (n - 1) + allowance →
    (m.received n).reconstructAt query allowance = some (m.valuesAt query)

/-- Nothing moves. -/
def StandsStill (m : PacedMotion) : Prop := ∀ c ∈ m.line, c.2 = 0

/-- Every sample from the third on comes in no earlier than the delay after the capture of
the sample before it, or the next one is in before any query is made: within the same
microsecond, or before the delay has passed since the first capture. -/
def LateEnough (m : PacedMotion) : Prop :=
  ∀ k, 1 ≤ k →
    m.captureUs k + defaultInterpolationDelayUs m.rateHz ≤ ⌈m.arrivesAt (k + 1)⌉₊ ∨
    m.arrivesAt (k + 2) ≤
      (max ⌈m.arrivesAt (k + 1)⌉₊ (m.captureUs 0 + defaultInterpolationDelayUs m.rateHz) : Nat)

variable (m : PacedMotion)

/-! ## The two newest samples -/

/-- Samples are captured one after another. -/
theorem captureUs_lt_succ (k : Nat) : m.captureUs k < m.captureUs (k + 1) := by
  have hrate : (m.rateHz : ℚ) ≤ 1000000 := by
    have hlt := m.rate_lt
    exact_mod_cast (by omega : m.rateHz ≤ 1000000)
  have hperiod : 1 ≤ (1000000 : ℚ) / m.rateHz := by
    rw [le_div_iff₀ (Nat.cast_pos.mpr m.rate_pos), one_mul]
    exact hrate
  have hnonneg : 0 ≤ m.capturedAt k := by
    refine add_nonneg m.start_nonneg (mul_nonneg (Nat.cast_nonneg k) ?_)
    linarith
  have hnext : m.capturedAt k + 1 ≤ m.capturedAt (k + 1) := by
    rw [capturedAt, capturedAt, Nat.cast_add, Nat.cast_one, add_mul, one_mul]
    linarith
  have hfloor := Nat.floor_mono hnext
  rw [Nat.floor_add_one hnonneg] at hfloor
  exact hfloor

/-- Two samples on, the buffer holds the last two. -/
theorem received_add_two (n : Nat) : m.received (n + 2) =
    { previous := some (m.sample n), latest := some (m.sample (n + 1)) } := by
  rw [received, List.range_succ, List.range_succ, List.map_append, List.map_append,
    List.foldl_append, List.foldl_append]
  rfl

/-! ## On the line -/

/-- The way between two values on the line is the line. -/
theorem lerp_valuesAt (p l t : ℚ) :
    lerp (m.valuesAt p) (m.valuesAt l) t = m.valuesAt (p + (l - p) * t) := by
  rw [lerp, valuesAt, valuesAt, valuesAt]
  induction m.line with
  | nil => rfl
  | cons c line ih =>
      rw [List.map_cons, List.map_cons, List.map_cons, List.zipWith_cons_cons, ih]
      refine congrArg (· :: _) ?_
      ring

/-- Two samples on the line. -/
theorem along_eq {prev latest : TimestampedSample} {query allowance : Nat}
    (hprev : prev.values = m.valuesAt prev.captureUs)
    (hlatest : latest.values = m.valuesAt latest.captureUs)
    (hlt : prev.captureUs < latest.captureUs) (hquery : query ≤ latest.captureUs + allowance) :
    MotionBuffer.along prev latest query allowance =
      some (m.valuesAt (max query prev.captureUs : Nat)) := by
  have hspan : ((latest.captureUs - prev.captureUs : Nat) : ℚ) =
      latest.captureUs - prev.captureUs := Nat.cast_sub hlt.le
  have hpos : (0 : ℚ) < latest.captureUs - prev.captureUs := sub_pos.mpr (Nat.cast_lt.mpr hlt)
  rw [MotionBuffer.along]
  dsimp only
  rw [hspan, hprev, hlatest, lerp_valuesAt, lerp_valuesAt]
  rcases le_or_gt query latest.captureUs with hbetween | hlate
  · rw [if_pos hbetween]
    refine congrArg (fun t => some (m.valuesAt t)) ?_
    rcases le_total prev.captureUs query with hlate | hearly
    · -- the query is between the two samples
      rw [max_eq_left hlate, Nat.cast_sub hlate]
      have hle : ((query : ℚ) - prev.captureUs) / (latest.captureUs - prev.captureUs) ≤ 1 := by
        rw [div_le_one hpos]
        exact sub_le_sub_right (Nat.cast_le.mpr hbetween) _
      have hge : 0 ≤ ((query : ℚ) - prev.captureUs) / (latest.captureUs - prev.captureUs) :=
        div_nonneg (sub_nonneg.mpr (Nat.cast_le.mpr hlate)) hpos.le
      rw [min_eq_right hle, max_eq_right hge, mul_div_cancel₀ _ hpos.ne']
      ring
    · -- the query is older than both
      rw [max_eq_right hearly, Nat.sub_eq_zero_of_le hearly, Nat.cast_zero, zero_div,
        min_eq_right zero_le_one, max_self, mul_zero, add_zero]
  · rw [if_neg (Nat.not_le.mpr hlate), if_neg (by omega)]
    refine congrArg (fun t => some (m.valuesAt t)) ?_
    rw [max_eq_left (hlt.le.trans hlate.le), Nat.cast_sub hlate.le, mul_add, mul_one,
      mul_div_cancel₀ _ hpos.ne']
    ring

/-- A query is answered on the line through the last two samples, not before the older one. -/
theorem reconstructAt_received {query allowance n : Nat} (hn : 2 ≤ n)
    (hquery : query ≤ m.captureUs (n - 1) + allowance) :
    (m.received n).reconstructAt query allowance =
      some (m.valuesAt (max query (m.captureUs (n - 2)) : Nat)) := by
  obtain ⟨n, rfl⟩ := Nat.exists_eq_add_of_le' hn
  rw [received_add_two, MotionBuffer.reconstructAt, Nat.add_sub_cancel]
  dsimp only
  rw [if_pos (show (m.sample n).captureUs < (m.sample (n + 1)).captureUs from
    m.captureUs_lt_succ n)]
  exact m.along_eq rfl rfl (m.captureUs_lt_succ n) hquery

/-! ## Stalls -/

theorem captureUs_strictMono : StrictMono m.captureUs :=
  strictMono_nat_of_lt_succ m.captureUs_lt_succ

/-- Motion that has the same values at two times stands still. -/
theorem standsStill_of_valuesAt_eq {s t : ℚ} (hne : s ≠ t) (h : m.valuesAt s = m.valuesAt t) :
    m.StandsStill := by
  intro c hc
  have hvalue : c.1 + c.2 * s = c.1 + c.2 * t := List.map_inj_left.mp h c hc
  have hslope : c.2 * (s - t) = 0 := by linarith
  exact (mul_eq_zero.mp hslope).resolve_right (sub_ne_zero.mpr hne)

theorem valuesAt_of_standsStill (h : m.StandsStill) (s t : ℚ) : m.valuesAt s = m.valuesAt t := by
  refine List.map_inj_left.mpr fun c hc => ?_
  rw [h c hc, zero_mul, zero_mul]

/-- At a moment between two arrivals the samples up to the first of them are in. -/
theorem received_of_between {now k : Nat} (hin : m.arrivesAt k ≤ now)
    (hout : (now : ℚ) < m.arrivesAt (k + 1)) : m.Received now (k + 1) := by
  intro j
  constructor
  · intro hj
    by_contra hge
    have hle : m.arrivesAt (k + 1) ≤ m.arrivesAt j := m.inOrder (not_lt.mp hge)
    exact absurd hj (hout.trans_le hle).not_ge
  · intro hj
    have hle : m.arrivesAt j ≤ m.arrivesAt k := m.inOrder (Nat.lt_succ_iff.mp hj)
    exact hle.trans hin

/-- Samples that come late enough are not in before the query has come to the one before. -/
theorem LateEnough.captureUs_le {m : PacedMotion} (h : m.LateEnough) {now query k : Nat}
    (hreceived : m.Received now (k + 3))
    (hquery : query + defaultInterpolationDelayUs m.rateHz = now)
    (hfirst : m.captureUs 0 ≤ query) : m.captureUs (k + 1) ≤ query := by
  have hin : m.arrivesAt (k + 2) ≤ now := (hreceived (k + 2)).mpr (Nat.lt_succ_self _)
  have hout : ¬ m.arrivesAt (k + 3) ≤ now := fun hin =>
    absurd ((hreceived (k + 3)).mp hin) (lt_irrefl _)
  have hceil : ⌈m.arrivesAt (k + 2)⌉₊ ≤ now := Nat.ceil_le.mpr hin
  rcases h (k + 1) (Nat.succ_le_succ (Nat.zero_le k)) with hlate | hnext
  · have hle : m.captureUs (k + 1) + defaultInterpolationDelayUs m.rateHz ≤ now :=
      hlate.trans hceil
    omega
  · refine absurd (hnext.trans (Nat.cast_le.mpr ?_)) hout
    exact max_le hceil (by omega)

/-- A query that is older than the previous sample gets the value there, which is another one
unless nothing moves. -/
theorem NeverStalls.lateEnough {m : PacedMotion} (h : m.NeverStalls) (hmoves : ¬ m.StandsStill) :
    m.LateEnough := by
  intro k hk
  obtain ⟨k, rfl⟩ := Nat.exists_eq_add_of_le' hk
  refine or_iff_not_imp_right.mpr fun hnext => ?_
  generalize hnow : max ⌈m.arrivesAt (k + 1 + 1)⌉₊
    (m.captureUs 0 + defaultInterpolationDelayUs m.rateHz) = now at hnext
  have hceil : ⌈m.arrivesAt (k + 1 + 1)⌉₊ ≤ now := hnow ▸ le_max_left _ _
  have hstart : m.captureUs 0 + defaultInterpolationDelayUs m.rateHz ≤ now :=
    hnow ▸ le_max_right _ _
  obtain ⟨query, hquery⟩ := Nat.exists_eq_add_of_le' ((Nat.le_add_left _ _).trans hstart)
  have hreceived : m.Received now (k + 1 + 1 + 1) :=
    m.received_of_between (Nat.ceil_le.mp hceil) (not_le.mp hnext)
  have hallowed : query ≤ m.captureUs (k + 1 + 1 + 1 - 1) + query := Nat.le_add_left _ _
  have hanswer := h now (k + 1 + 1 + 1) query query hreceived (by omega) hquery.symm (by omega)
    hallowed
  rw [m.reconstructAt_received (by omega) hallowed] at hanswer
  -- the query has come to the previous sample, or the two values would differ
  have hcome : m.captureUs (k + 1) ≤ query := by
    by_contra hearly
    have hmax : max query (m.captureUs (k + 1 + 1 + 1 - 2)) = m.captureUs (k + 1) :=
      max_eq_right (not_le.mp hearly).le
    rw [hmax] at hanswer
    have hne : (m.captureUs (k + 1) : ℚ) ≠ query := by
      exact_mod_cast (not_le.mp hearly).ne'
    exact hmoves (m.standsStill_of_valuesAt_eq hne (Option.some.inj hanswer))
  have hfirst : m.captureUs 0 < m.captureUs (k + 1) := m.captureUs_strictMono (Nat.succ_pos k)
  have hle : m.captureUs (k + 1) + defaultInterpolationDelayUs m.rateHz ≤
      max ⌈m.arrivesAt (k + 1 + 1)⌉₊ (m.captureUs 0 + defaultInterpolationDelayUs m.rateHz) := by
    rw [hnow]
    omega
  exact (le_max_iff.mp hle).resolve_right (by omega)

/-- Motion never stalls exactly if nothing moves, or the samples come late enough. -/
theorem neverStalls_iff : m.NeverStalls ↔ m.StandsStill ∨ m.LateEnough := by
  constructor
  · intro h
    exact or_iff_not_imp_left.mpr h.lateEnough
  · intro h now n query allowance hreceived hn hquery hfirst hlast
    rw [m.reconstructAt_received hn hlast]
    refine congrArg some ?_
    rcases h with hstill | hlate
    · exact m.valuesAt_of_standsStill hstill _ _
    · obtain ⟨n, rfl⟩ := Nat.exists_eq_add_of_le' hn
      have hcome : m.captureUs n ≤ query := by
        cases n with
        | zero => exact hfirst
        | succ k => exact hlate.captureUs_le hreceived hquery hfirst
      rw [Nat.add_sub_cancel, max_eq_left hcome]

/-- Motion at 100 Hz that arrives at once. -/
def undelayedMotion : PacedMotion where
  rateHz := 100
  rate_pos := by decide
  rate_lt := by decide
  start := 0
  start_nonneg := le_rfl
  line := [(0, 1)]
  latency _ := 0
  latency_nonneg _ := le_rfl
  inOrder k l hkl := by
    norm_num
    exact hkl

theorem received_undelayedMotion : undelayedMotion.Received 21000 3 := by
  intro k
  have harrives : undelayedMotion.arrivesAt k = ((k * 10000 : Nat) : ℚ) := by
    norm_num [arrivesAt, capturedAt, undelayedMotion]
  rw [harrives, Nat.cast_le]
  omega

/-- A millisecond after the third sample arrived, the query is older than the second. -/
theorem not_neverStalls_undelayedMotion : ¬ ∀ m : PacedMotion, m.NeverStalls := by
  intro h
  have hstall := h undelayedMotion 21000 3 6000 0 received_undelayedMotion (by decide) rfl
    (by decide +kernel) (by decide +kernel)
  rw [reconstructAt_received _ (by decide) (by decide +kernel)] at hstall
  exact absurd hstall (by decide +kernel)

end PacedMotion

end RoboTele
