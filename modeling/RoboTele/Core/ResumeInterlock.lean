import Mathlib.Tactic.NormNum
import RoboTele.Core.Safety
import RoboTele.Runs.Machine
import RoboTele.Runs.Past

/-!
# The resume interlock

Tier 4 suspends teleoperation.  Resuming takes "an explicit deadman reset and a
2-second continuous stability window", both of the suspension that they end.
`Interlocked` says so of a sample and the inputs before it.

The window is right in every run: entering a suspension forgets
`stable_since`, and a sample at or above the ceiling does too.  The reset flag
is only forgotten by a resume, so a reset that came before the suspension
counts for it.  The interlock holds in every run in which no suspension begins
with such a reset pending.
-/

namespace RoboTele

open Runs Past

/-- Samples below this count for a resume. -/
def TaskClass.resumeCeiling (taskClass : TaskClass) : ℚ :=
  taskClass.thresholds.tier0Max - resumeHysteresisMs

namespace SafetyStateMachine

/-- The two calls that drive the state machine. -/
inductive Input where
  | rttSample (rttMs : ℚ) (now : Instant)
  | deadmanReset
deriving DecidableEq

/-- One input of the state machine. -/
def step (m : SafetyStateMachine) : Input → SafetyStateMachine
  | .rttSample rttMs now => m.onRttSample rttMs now
  | .deadmanReset => m.requestDeadmanReset

/-- The state machine after a run of inputs. -/
def after (taskClass : TaskClass) (t₀ : Instant) (inputs : List Input) : SafetyStateMachine :=
  exec step (new taskClass t₀) inputs

@[simp] theorem after_concat (taskClass : TaskClass) (t₀ : Instant) (past : List Input)
    (i : Input) : after taskClass t₀ (past ++ [i]) = (after taskClass t₀ past).step i :=
  exec_concat _ _ _ _

/-- The input sets `suspended`. -/
def Suspends (m : SafetyStateMachine) : Input → Prop
  | .rttSample rttMs _ => m.suspended = false ∧ tierForLatency m.taskClass rttMs = 4
  | .deadmanReset => False

instance (m : SafetyStateMachine) : ∀ i, Decidable (m.Suspends i)
  | .rttSample rttMs _ =>
      inferInstanceAs (Decidable (m.suspended = false ∧ tierForLatency m.taskClass rttMs = 4))
  | .deadmanReset => .isFalse id

/-- The input makes a Resume transition. -/
def Resumes (m : SafetyStateMachine) (i : Input) : Prop :=
  ∃ tr, (m.step i).transitions = m.transitions ++ [tr] ∧ tr.trigger = .resume

/-! ## The interlock -/

section

variable (taskClass : TaskClass) (t₀ : Instant)

/-- The sample after `before` suspends, and everything in `during` finds the
machine suspended. -/
structure Suspension (before : List Input) (sample : Input) (during : List Input) : Prop where
  begins : (after taskClass t₀ before).Suspends sample
  lasts : Along step (fun m _ => m.suspended = true) (after taskClass t₀ (before ++ [sample]))
    during

/-- The inputs end in a stretch that starts with a sample at `since` and whose
samples are all below the ceiling. -/
def StableSince (since : Instant) (during : List Input) : Prop :=
  ∃ pre rttMs post, during = pre ++ .rttSample rttMs since :: post ∧
    ∀ r t, Input.rttSample r t ∈ Input.rttSample rttMs since :: post → r < taskClass.resumeCeiling

/-- A sample ends the suspension that the inputs before it are in, after a
deadman reset and a stable window of that suspension. -/
def Interlocked (past : List Input) (i : Input) : Prop :=
  ∃ before sample during, past = before ++ sample :: during ∧
    Suspension taskClass t₀ before sample during ∧ Input.deadmanReset ∈ during ∧
    ∃ rttMs now since, i = .rttSample rttMs now ∧ rttMs < taskClass.resumeCeiling ∧
      StableSince taskClass since during ∧
      resumeStabilityWindowS ≤ asSecs (now.durationSince since)

/-- Every Resume of the run is interlocked. -/
def ResumesInterlocked (inputs : List Input) : Prop :=
  Always (fun past i => (after taskClass t₀ past).Resumes i → Interlocked taskClass t₀ past i)
    inputs

end

/-- A suspension begins with no deadman reset pending. -/
def NoStaleReset (m : SafetyStateMachine) (i : Input) : Prop :=
  m.Suspends i → m.deadmanResetRequested = false

instance (m : SafetyStateMachine) (i : Input) : Decidable (m.NoStaleReset i) :=
  inferInstanceAs (Decidable (_ → _))

/-! ## What an input does -/

@[simp] theorem transition_transitions (m : SafetyStateMachine) (newTier : Nat)
    (trigger : TransitionTrigger) (now : Instant) :
    (m.transition newTier trigger now).transitions =
      m.transitions ++ [{ time := now, oldTier := m.tier, newTier, trigger }] := rfl

/-- The three outcomes of a sample during a suspension. -/
theorem evaluateResume_cases (m : SafetyStateMachine) (rttMs : ℚ) (now : Instant) :
    (m.taskClass.resumeCeiling ≤ rttMs ∧
      m.evaluateResume rttMs now = { m with stableSince := none }) ∨
    (rttMs < m.taskClass.resumeCeiling ∧
      resumeStabilityWindowS ≤ asSecs (now.durationSince (m.stableSince.getD now)) ∧
      m.deadmanResetRequested = true ∧ (m.evaluateResume rttMs now).suspended = false ∧
      (m.evaluateResume rttMs now).taskClass = m.taskClass) ∨
    (rttMs < m.taskClass.resumeCeiling ∧
      m.evaluateResume rttMs now = { m with stableSince := some (m.stableSince.getD now) }) := by
  by_cases hceiling : m.taskClass.resumeCeiling ≤ rttMs
  · exact Or.inl ⟨hceiling, if_pos hceiling⟩
  · have hbelow := not_le.mp hceiling
    right
    by_cases hresume : asSecs (now.durationSince (m.stableSince.getD now)) ≥ resumeStabilityWindowS
        ∧ m.deadmanResetRequested = true
    · have heq : m.evaluateResume rttMs now =
          { m with suspended := false, deadmanResetRequested := false,
                   stableSince := none }.transition 0 .resume now :=
        (if_neg hceiling).trans (if_pos hresume)
      left
      rw [heq]
      exact ⟨hbelow, hresume.1, hresume.2, rfl, rfl⟩
    · right
      exact ⟨hbelow, (if_neg hceiling).trans (if_neg hresume)⟩

/-- A sample outside a suspension suspends at tier 4 and resumes nothing. -/
theorem onRttSample_of_running {m : SafetyStateMachine} (hrunning : m.suspended = false)
    (rttMs : ℚ) (now : Instant) :
    (m.onRttSample rttMs now).taskClass = m.taskClass ∧
      (m.onRttSample rttMs now).suspended = decide (tierForLatency m.taskClass rttMs = 4) ∧
      (m.onRttSample rttMs now).deadmanResetRequested = m.deadmanResetRequested ∧
      (tierForLatency m.taskClass rttMs = 4 → (m.onRttSample rttMs now).stableSince = none) := by
  rw [onRttSample]
  rw [if_neg (by simp [hrunning])]
  dsimp only
  split_ifs with htier hchange hchange
  · exact ⟨rfl, by simp [htier], rfl, fun _ => rfl⟩
  · exact ⟨rfl, by simp [htier], rfl, fun _ => rfl⟩
  · refine ⟨rfl, ?_, rfl, fun h => absurd h htier⟩
    rw [decide_eq_false htier]
    exact hrunning
  · exact ⟨rfl, by rw [decide_eq_false htier, hrunning], rfl, fun h => absurd h htier⟩

/-- Only a sample of a suspension resumes, at the end of a window and with a
reset pending. -/
theorem resumes_cases {m : SafetyStateMachine} {i : Input} (h : m.Resumes i) :
    ∃ rttMs now since, i = .rttSample rttMs now ∧ m.suspended = true ∧
      rttMs < m.taskClass.resumeCeiling ∧ m.deadmanResetRequested = true ∧
      m.stableSince = some since ∧ resumeStabilityWindowS ≤ asSecs (now.durationSince since) := by
  obtain ⟨tr, htransitions, htrigger⟩ := h
  cases i with
  | deadmanReset =>
      have hlength := congrArg List.length htransitions
      simp [step, requestDeadmanReset] at hlength
  | rttSample rttMs now =>
      change (m.onRttSample rttMs now).transitions = _ at htransitions
      cases hsuspended : m.suspended with
      | false =>
          unfold onRttSample at htransitions
          rw [if_neg (by simp [hsuspended])] at htransitions
          dsimp only at htransitions
          split_ifs at htransitions
          · obtain rfl := List.singleton_inj.mp (List.append_cancel_left htransitions)
            cases htrigger
          · simp at htransitions
          · obtain rfl := List.singleton_inj.mp (List.append_cancel_left htransitions)
            cases htrigger
          · simp at htransitions
      | true =>
          rw [onRttSample, if_pos hsuspended] at htransitions
          rcases m.evaluateResume_cases rttMs now with ⟨-, heq⟩ | hresume | ⟨-, heq⟩
          · rw [heq] at htransitions
            simp at htransitions
          · obtain ⟨hbelow, hwindow, hreset, -, -⟩ := hresume
            cases hsince : m.stableSince with
            | none =>
                -- A window that starts at this sample has no length yet.
                rw [hsince, Option.getD_none, Instant.durationSince, Nat.sub_self] at hwindow
                exact absurd hwindow (by simp [asSecs, resumeStabilityWindowS])
            | some since =>
                rw [hsince, Option.getD_some] at hwindow
                exact ⟨rttMs, now, since, rfl, rfl, hbelow, hreset, rfl, hwindow⟩
          · rw [heq] at htransitions
            simp at htransitions

/-! ## What the state machine remembers -/

section

variable {taskClass : TaskClass} {t₀ : Instant}

/-- A suspension goes on while the machine stays suspended. -/
theorem Suspension.concat {before during : List Input} {sample i : Input}
    (h : Suspension taskClass t₀ before sample during)
    (hi : (after taskClass t₀ (before ++ sample :: during)).suspended = true) :
    Suspension taskClass t₀ before sample (during ++ [i]) where
  begins := h.begins
  lasts := by
    rw [along_concat]
    refine ⟨h.lasts, ?_⟩
    have hsplit : before ++ sample :: during = (before ++ [sample]) ++ during := by simp
    rw [hsplit, after, exec_append] at hi
    exact hi

/-- Stability goes on while no sample reaches the ceiling. -/
theorem StableSince.concat {since : Instant} {during : List Input} {i : Input}
    (h : StableSince taskClass since during)
    (hi : ∀ r t, i = .rttSample r t → r < taskClass.resumeCeiling) :
    StableSince taskClass since (during ++ [i]) := by
  obtain ⟨pre, rttMs, post, rfl, hbelow⟩ := h
  refine ⟨pre, rttMs, post ++ [i], by simp, ?_⟩
  intro r t hmem
  rw [← List.cons_append, List.mem_append] at hmem
  rcases hmem with hold | hnew
  · exact hbelow r t hold
  · exact hi r t (List.mem_singleton.mp hnew).symm

/-- Stability starts with a sample below the ceiling. -/
theorem StableSince.start {rttMs : ℚ} {now : Instant} {during : List Input}
    (h : rttMs < taskClass.resumeCeiling) :
    StableSince taskClass now (during ++ [.rttSample rttMs now]) := by
  refine ⟨during, rttMs, [], rfl, ?_⟩
  intro r t hmem
  obtain ⟨rfl, -⟩ := Input.rttSample.inj (List.mem_singleton.mp hmem)
  exact h

variable (taskClass t₀) in
/-- A suspended machine is in a suspension, whose inputs account for its reset
flag and for `stable_since`. -/
structure Tracks (past : List Input) (m : SafetyStateMachine) : Prop where
  state : m = after taskClass t₀ past
  taskClass_eq : m.taskClass = taskClass
  suspension : m.suspended = true → ∃ before sample during, past = before ++ sample :: during ∧
    Suspension taskClass t₀ before sample during ∧
    (m.deadmanResetRequested = true → Input.deadmanReset ∈ during) ∧
    ∀ since, m.stableSince = some since → StableSince taskClass since during

/-- A new machine has no past. -/
theorem Tracks.new : Tracks taskClass t₀ [] (new taskClass t₀) where
  state := rfl
  taskClass_eq := rfl
  suspension h := Bool.noConfusion h

/-- A reset during a suspension counts. -/
theorem Tracks.deadmanReset {past : List Input} {m : SafetyStateMachine}
    (h : Tracks taskClass t₀ past m) :
    Tracks taskClass t₀ (past ++ [.deadmanReset]) m.requestDeadmanReset where
  state := by rw [after_concat, ← h.state]; rfl
  taskClass_eq := h.taskClass_eq
  suspension := by
    intro hsuspended
    obtain ⟨before, sample, during, rfl, hin, -, hsince⟩ := h.suspension hsuspended
    have hin' := hin.concat (i := .deadmanReset) (h.state ▸ hsuspended)
    refine ⟨before, sample, during ++ [.deadmanReset], by simp, hin', ?_, ?_⟩
    · intro _
      exact List.mem_concat_self
    · intro since heq
      exact (hsince since heq).concat (by simp)

/-- A sample outside a suspension may begin one. -/
theorem Tracks.running {past : List Input} {m : SafetyStateMachine} {rttMs : ℚ} {now : Instant}
    (h : Tracks taskClass t₀ past m) (hi : m.NoStaleReset (.rttSample rttMs now))
    (hrunning : m.suspended = false) :
    Tracks taskClass t₀ (past ++ [.rttSample rttMs now]) (m.onRttSample rttMs now) := by
  obtain ⟨hclass, hnext, hreset, hfresh⟩ := onRttSample_of_running hrunning rttMs now
  refine ⟨by rw [after_concat, ← h.state]; rfl, hclass.trans h.taskClass_eq, ?_⟩
  intro hsuspends
  rw [hnext, decide_eq_true_eq] at hsuspends
  have hbegins : m.Suspends (.rttSample rttMs now) := ⟨hrunning, hsuspends⟩
  refine ⟨past, .rttSample rttMs now, [], rfl, ⟨h.state ▸ hbegins, trivial⟩, ?_, ?_⟩
  · intro hpending
    rw [hreset, hi hbegins] at hpending
    exact Bool.noConfusion hpending
  · intro since hsince
    rw [hfresh hsuspends] at hsince
    cases hsince

/-- A sample below the ceiling extends the stable time, or begins it. -/
theorem StableSince.extend {during : List Input} {stableSince : Option Instant} {rttMs : ℚ}
    {now : Instant} (h : ∀ since, stableSince = some since → StableSince taskClass since during)
    (hbelow : rttMs < taskClass.resumeCeiling) :
    StableSince taskClass (stableSince.getD now) (during ++ [.rttSample rttMs now]) := by
  cases stableSince with
  | none => exact .start hbelow
  | some since =>
      refine (h since rfl).concat ?_
      intro r t hsample
      obtain ⟨rfl, -⟩ := Input.rttSample.inj hsample
      exact hbelow

/-- An input that only moves `stable_since` prolongs the suspension. -/
theorem Tracks.prolonged {past : List Input} {m : SafetyStateMachine} {i : Input}
    {stable : Option Instant} (h : Tracks taskClass t₀ past m) (hsuspended : m.suspended = true)
    (heq : m.step i = { m with stableSince := stable })
    (hstable : ∀ during, (∀ since, m.stableSince = some since →
        StableSince taskClass since during) →
      ∀ since, stable = some since → StableSince taskClass since (during ++ [i])) :
    Tracks taskClass t₀ (past ++ [i]) { m with stableSince := stable } where
  state := by rw [after_concat, ← h.state, heq]
  taskClass_eq := h.taskClass_eq
  suspension _ := by
    obtain ⟨before, sample, during, rfl, hin, hreset, hsince⟩ := h.suspension hsuspended
    exact ⟨before, sample, during ++ [i], by simp, hin.concat (h.state ▸ hsuspended),
      fun hpending => List.mem_append_left _ (hreset hpending), hstable during hsince⟩

/-- A sample during a suspension ends it, or adds to its stable time. -/
theorem Tracks.suspended {past : List Input} {m : SafetyStateMachine}
    (h : Tracks taskClass t₀ past m) (hsuspended : m.suspended = true) (rttMs : ℚ)
    (now : Instant) :
    Tracks taskClass t₀ (past ++ [.rttSample rttMs now]) (m.onRttSample rttMs now) := by
  have heval : m.onRttSample rttMs now = m.evaluateResume rttMs now := if_pos hsuspended
  have hclass := h.taskClass_eq
  rcases m.evaluateResume_cases rttMs now with ⟨-, heq⟩ | hresume | ⟨hbelow, heq⟩
  · rw [heval, heq]
    refine h.prolonged hsuspended (heval.trans heq) fun during _ since hnone => ?_
    cases hnone
  · obtain ⟨-, -, -, hresumed, hkept⟩ := hresume
    refine ⟨by rw [after_concat, ← h.state]; rfl, by rw [heval, hkept, hclass], ?_⟩
    intro hstill
    rw [heval, hresumed] at hstill
    exact Bool.noConfusion hstill
  · rw [heval, heq]
    refine h.prolonged hsuspended (heval.trans heq) fun during hsince since hstable => ?_
    obtain rfl := Option.some.inj hstable
    exact .extend hsince (hclass ▸ hbelow)

/-- Every input without a stale reset keeps the machine in step with its past. -/
theorem Tracks.step {past : List Input} {m : SafetyStateMachine} {i : Input}
    (h : Tracks taskClass t₀ past m) (hi : m.NoStaleReset i) :
    Tracks taskClass t₀ (past ++ [i]) (m.step i) := by
  cases i with
  | deadmanReset => exact h.deadmanReset
  | rttSample rttMs now =>
      cases hsuspended : m.suspended with
      | false => exact h.running hi hsuspended
      | true => exact h.suspended hsuspended rttMs now

/-- The input that a tracked machine resumes on ends an interlocked
suspension. -/
theorem Tracks.interlocked {past : List Input} {m : SafetyStateMachine} {i : Input}
    (h : Tracks taskClass t₀ past m) (hi : m.Resumes i) : Interlocked taskClass t₀ past i := by
  obtain ⟨rttMs, now, since, rfl, hsuspended, hbelow, hpending, hsince, hwindow⟩ :=
    resumes_cases hi
  obtain ⟨before, sample, during, hpast, hin, hreset, hstable⟩ := h.suspension hsuspended
  rw [h.taskClass_eq] at hbelow
  exact ⟨before, sample, during, hpast, hin, hreset hpending, rttMs, now, since, rfl, hbelow,
    hstable since hsince, hwindow⟩

end

/-! ## The rule -/

/-- In every run in which no suspension begins with a reset pending, every
Resume is interlocked. -/
theorem resumesInterlocked_of_noStaleReset (taskClass : TaskClass) (t₀ : Instant)
    (inputs : List Input) (hfresh : Along step NoStaleReset (new taskClass t₀) inputs) :
    ResumesInterlocked taskClass t₀ inputs := by
  intro past i rest hsplit hresumes
  subst hsplit
  rw [along_append, along_cons] at hfresh
  have htracks (is : List Input) (his : Along step NoStaleReset (new taskClass t₀) is) :
      Tracks taskClass t₀ is (after taskClass t₀ is) := by
    induction is using List.reverseRecOn with
    | nil => exact .new
    | append_singleton is j ih =>
        rw [along_concat] at his
        rw [after_concat]
        exact (ih his.1).step his.2
  exact (htracks past hfresh.1).interlocked hresumes

/-- A suspension of Class D with a reset of its own, resumed after 2.1 s. -/
theorem resumesInterlocked_of_noStaleReset_handshake :
    ResumesInterlocked .d 0
      [.rttSample 600 0, .deadmanReset, .rttSample 10 (fromMillis 100),
        .rttSample 10 (fromMillis 2200)] :=
  resumesInterlocked_of_noStaleReset .d 0 _ (by decide +kernel)

/-- The reset comes first, and the suspension after it still resumes. -/
def staleResetRun : List Input :=
  [.deadmanReset, .rttSample 600 0, .rttSample 10 (fromMillis 100),
    .rttSample 10 (fromMillis 2200)]

/-- A reset from before the suspension counts for it. -/
theorem resumesInterlocked_fails_for_staleReset : ¬ ResumesInterlocked .d 0 staleResetRun := by
  intro h
  have hresumes : (after .d 0 staleResetRun.dropLast).Resumes
      (.rttSample 10 (fromMillis 2200)) :=
    ⟨{ time := fromMillis 2200, oldTier := 4, newTier := 0, trigger := .resume }, by
      decide +kernel, rfl⟩
  obtain ⟨before, sample, during, hpast, hin, hreset, -⟩ :=
    h staleResetRun.dropLast _ [] rfl hresumes
  cases before with
  | nil =>
      obtain ⟨rfl, -⟩ := List.cons.inj hpast
      exact hin.begins
  | cons first before =>
      -- Nothing after the first input is a reset.
      obtain ⟨-, htail⟩ := List.cons.inj hpast
      have hmem : Input.deadmanReset ∈ staleResetRun.dropLast.tail := by
        rw [show staleResetRun.dropLast.tail = before ++ sample :: during from htail]
        exact List.mem_append_right _ (List.mem_cons_of_mem _ hreset)
      simp [staleResetRun] at hmem

/-! ## Samples alone -/

/-- The last tier begins where the third one ends. -/
theorem tierForLatency_eq_four_iff (taskClass : TaskClass) (rttMs : ℚ) :
    tierForLatency taskClass rttMs = 4 ↔ taskClass.thresholds.tier3Max ≤ rttMs := by
  have hordered : taskClass.thresholds.tier0Max ≤ taskClass.thresholds.tier3Max ∧
      taskClass.thresholds.tier1Max ≤ taskClass.thresholds.tier3Max ∧
      taskClass.thresholds.tier2Max ≤ taskClass.thresholds.tier3Max := by
    cases taskClass <;> norm_num [TaskClass.thresholds]
  obtain ⟨h0, h1, h2⟩ := hordered
  unfold tierForLatency
  dsimp only
  split_ifs with hlt0 hlt1 hlt2 hlt3
  · exact iff_of_false (by decide) (not_le.mpr (hlt0.trans_le h0))
  · exact iff_of_false (by decide) (not_le.mpr (hlt1.trans_le h1))
  · exact iff_of_false (by decide) (not_le.mpr (hlt2.trans_le h2))
  · exact iff_of_false (by decide) (not_le.mpr hlt3)
  · exact iff_of_true rfl (not_lt.mp hlt3)

/-- The fields a sample changes, when no reset is pending. -/
theorem onRttSample_of_no_reset {m : SafetyStateMachine} (hreset : m.deadmanResetRequested = false)
    (rttMs : ℚ) (now : Instant) :
    (m.onRttSample rttMs now).taskClass = m.taskClass ∧
      (m.onRttSample rttMs now).deadmanResetRequested = false ∧
      (m.onRttSample rttMs now).suspended =
        (m.suspended || decide (m.taskClass.thresholds.tier3Max ≤ rttMs)) := by
  cases hsuspended : m.suspended with
  | false =>
      obtain ⟨hclass, hnext, hkept, -⟩ := onRttSample_of_running hsuspended rttMs now
      refine ⟨hclass, hkept.trans hreset, ?_⟩
      rw [hnext, Bool.false_or, decide_eq_decide, tierForLatency_eq_four_iff]
  | true =>
      have heval : m.onRttSample rttMs now = m.evaluateResume rttMs now := if_pos hsuspended
      rw [heval]
      rcases m.evaluateResume_cases rttMs now with ⟨-, heq⟩ | ⟨-, -, hpending, -⟩ | ⟨-, heq⟩
      · simp [heq, hreset, hsuspended]
      · rw [hreset] at hpending
        exact Bool.noConfusion hpending
      · simp [heq, hreset, hsuspended]

/-- Without a deadman reset a suspension has no end: the machine is suspended
from the first sample of tier 4 on. -/
theorem suspended_after_samples (taskClass : TaskClass) (t₀ : Instant)
    (samples : List (ℚ × Instant)) :
    (after taskClass t₀ (samples.map fun x => .rttSample x.1 x.2)).suspended = true ↔
      ∃ x ∈ samples, taskClass.thresholds.tier3Max ≤ x.1 := by
  have hafter : ∀ l : List (ℚ × Instant),
      let m := after taskClass t₀ (l.map fun x => .rttSample x.1 x.2)
      m.taskClass = taskClass ∧ m.deadmanResetRequested = false ∧
        (m.suspended = true ↔ ∃ x ∈ l, taskClass.thresholds.tier3Max ≤ x.1) := by
    intro l
    induction l using List.reverseRecOn with
    | nil => exact ⟨rfl, rfl, by simp [after, new]⟩
    | append_singleton l x ih =>
        obtain ⟨hclass, hreset, hsuspended⟩ := ih
        obtain ⟨hclass', hreset', hsuspended'⟩ := onRttSample_of_no_reset hreset x.1 x.2
        rw [List.map_append, List.map_singleton, after_concat]
        refine ⟨hclass'.trans hclass, hreset', ?_⟩
        change (SafetyStateMachine.onRttSample _ _ _).suspended = true ↔ _
        rw [hsuspended', hclass, Bool.or_eq_true, hsuspended, decide_eq_true_iff]
        simp [or_and_right, exists_or]
  exact (hafter samples).2.2

end SafetyStateMachine

end RoboTele
