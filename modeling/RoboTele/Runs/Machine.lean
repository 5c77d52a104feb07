import Mathlib.Data.List.Basic
import Mathlib.Data.List.Induction
import Mathlib.Logic.Basic

/-!
# Runs of a deterministic machine

A machine is a step function from a state and an event to a state.  `exec`
folds it over a list of events.  Eight rules carry every induction over runs.

* `exec_inv`: what one step keeps, a run keeps.
* `exec_inv_of_forall`: the same for runs of some of the events.
* `exec_inv_along`: the same under a condition that each step of the run meets
  at the state it starts from (`Along`).
* `along_of_inv`: what each step of such a run satisfies besides.
* `along_congr`: two conditions that agree on the states of an invariant agree
  along every run.
* `along_comap`: a condition on what is read off the states, as one on the run of that.
* `along_iff_exec`: a property of the last state as a condition on the steps.
* `every_past_iff_along`: the same for a property of every state and the events
  before it.
-/

namespace Runs

variable {σ ε : Type*}

/-- The state after a list of events. -/
def exec (step : σ → ε → σ) (s : σ) (es : List ε) : σ := es.foldl step s

@[simp] theorem exec_nil (step : σ → ε → σ) (s : σ) : exec step s [] = s := rfl

@[simp] theorem exec_cons (step : σ → ε → σ) (s : σ) (e : ε) (es : List ε) :
    exec step s (e :: es) = exec step (step s e) es := rfl

/-- A run in two parts. -/
theorem exec_append (step : σ → ε → σ) (s : σ) (es fs : List ε) :
    exec step s (es ++ fs) = exec step (exec step s es) fs := by
  simp only [exec, List.foldl_append]

@[simp] theorem exec_concat (step : σ → ε → σ) (s : σ) (es : List ε) (e : ε) :
    exec step s (es ++ [e]) = step (exec step s es) e := by
  rw [exec_append, exec_cons, exec_nil]

/-- What every step keeps, a run keeps. -/
theorem exec_inv {step : σ → ε → σ} {I : σ → Prop} (hstep : ∀ s e, I s → I (step s e)) :
    ∀ {s : σ} (es : List ε), I s → I (exec step s es)
  | _, [], hs => hs
  | s, e :: es, hs => exec_inv hstep es (hstep s e hs)

/-- What every step of some events keeps, a run of these events keeps. -/
theorem exec_inv_of_forall {step : σ → ε → σ} {I : σ → Prop} {P : ε → Prop}
    (hstep : ∀ s e, I s → P e → I (step s e)) :
    ∀ {s : σ} (es : List ε), I s → (∀ e ∈ es, P e) → I (exec step s es)
  | _, [], hs, _ => hs
  | s, e :: es, hs, h =>
      exec_inv_of_forall hstep es (hstep s e hs (h e List.mem_cons_self))
        fun x hx => h x (List.mem_cons_of_mem e hx)

/-! ## Conditions on the steps of a run -/

/-- Every step of the run satisfies `P`, a condition on the state it starts
from and its event. -/
def Along (step : σ → ε → σ) (P : σ → ε → Prop) : σ → List ε → Prop
  | _, [] => True
  | s, e :: es => P s e ∧ Along step P (step s e) es

instance decidableAlong (step : σ → ε → σ) (P : σ → ε → Prop) [∀ s e, Decidable (P s e)] :
    ∀ (s : σ) (es : List ε), Decidable (Along step P s es)
  | _, [] => .isTrue trivial
  | s, e :: es =>
      have := decidableAlong step P (step s e) es
      inferInstanceAs (Decidable (P s e ∧ Along step P (step s e) es))

@[simp] theorem along_nil (step : σ → ε → σ) (P : σ → ε → Prop) (s : σ) :
    Along step P s [] := trivial

@[simp] theorem along_cons (step : σ → ε → σ) (P : σ → ε → Prop) (s : σ) (e : ε) (es : List ε) :
    Along step P s (e :: es) ↔ P s e ∧ Along step P (step s e) es := Iff.rfl

/-- What holds along a run holds along both parts. -/
theorem along_append (step : σ → ε → σ) (P : σ → ε → Prop) :
    ∀ (s : σ) (es fs : List ε),
      Along step P s (es ++ fs) ↔ Along step P s es ∧ Along step P (exec step s es) fs
  | s, [], fs => by simp
  | s, e :: es, fs => by
      rw [List.cons_append, along_cons, along_cons, along_append step P (step s e) es fs,
        exec_cons, and_assoc]

/-- What holds along a longer run holds along its past and of its last event. -/
theorem along_concat (step : σ → ε → σ) (P : σ → ε → Prop) (s : σ) (es : List ε) (e : ε) :
    Along step P s (es ++ [e]) ↔ Along step P s es ∧ P (exec step s es) e := by
  rw [along_append, along_cons]
  simp

/-- A condition on the events themselves holds along the run too. -/
theorem along_and_forall {step : σ → ε → σ} {P : σ → ε → Prop} {Q : ε → Prop} :
    ∀ {s : σ} (es : List ε), Along step P s es → (∀ e ∈ es, Q e) →
      Along step (fun s e => P s e ∧ Q e) s es
  | _, [], _, _ => trivial
  | _, e :: es, h, hQ =>
      ⟨⟨h.1, hQ e List.mem_cons_self⟩,
        along_and_forall es h.2 fun x hx => hQ x (List.mem_cons_of_mem e hx)⟩

/-- What every step keeps under a condition, a run that meets the condition
keeps. -/
theorem exec_inv_along {step : σ → ε → σ} {I : σ → Prop} {P : σ → ε → Prop}
    (hstep : ∀ s e, I s → P s e → I (step s e)) :
    ∀ {s : σ} (es : List ε), I s → Along step P s es → I (exec step s es)
  | _, [], hs, _ => hs
  | s, e :: es, hs, h => exec_inv_along hstep es (hstep s e hs h.1) h.2

/-- A condition whose runs keep an invariant, and what it gives at each state of
the invariant. -/
theorem along_of_inv {step : σ → ε → σ} {I : σ → Prop} {P Q : σ → ε → Prop}
    (hstep : ∀ s e, I s → P s e → I (step s e)) (hPQ : ∀ s e, I s → P s e → Q s e) :
    ∀ {s : σ} (es : List ε), I s → Along step P s es → Along step Q s es
  | _, [], _, _ => trivial
  | s, e :: es, hs, h => ⟨hPQ s e hs h.1, along_of_inv hstep hPQ es (hstep s e hs h.1) h.2⟩

/-- Two conditions that agree wherever an invariant holds agree along every
run from a state of the invariant. -/
theorem along_congr {step : σ → ε → σ} {I : σ → Prop} {P Q : σ → ε → Prop}
    (hstep : ∀ s e, I s → I (step s e)) (hPQ : ∀ s e, I s → (P s e ↔ Q s e)) :
    ∀ {s : σ} (es : List ε), I s → (Along step P s es ↔ Along step Q s es)
  | _, [], _ => Iff.rfl
  | s, e :: es, hs => by
      rw [along_cons, along_cons, hPQ s e hs, along_congr hstep hPQ es (hstep s e hs)]

/-- A condition on what is read off the states of a run is one on the run of that. -/
theorem along_comap {τ : Type*} {step : σ → ε → σ} {step' : τ → ε → τ} {f : σ → τ}
    (hstep : ∀ s e, f (step s e) = step' (f s) e) {P : τ → ε → Prop} :
    ∀ {s : σ} (es : List ε),
      Along step (fun s e => P (f s) e) s es ↔ Along step' P (f s) es
  | _, [] => Iff.rfl
  | s, e :: es => by
      rw [along_cons, along_cons, along_comap hstep es, hstep]

/-- What a step breaks for good exactly if it does not meet the condition, a run
breaks exactly if one of its steps does not. -/
theorem along_iff_exec {step : σ → ε → σ} {I G : σ → Prop} {P : σ → ε → Prop}
    (hstep : ∀ s e, I s → I (step s e)) (hG : ∀ s e, I s → (G (step s e) ↔ G s ∧ P s e)) :
    ∀ {s : σ} (es : List ε), I s → (G (exec step s es) ↔ G s ∧ Along step P s es)
  | _, [], _ => (and_iff_left trivial).symm
  | s, e :: es, hs => by
      rw [exec_cons, along_iff_exec hstep hG es (hstep s e hs), hG s e hs, along_cons, and_assoc]

/-- A property of every part of a run is one of the run before its last event and of
the whole run. -/
theorem every_past_concat {P : List ε → Prop} {es : List ε} {e : ε} :
    (∀ past later, es ++ [e] = past ++ later → P past) ↔
      (∀ past later, es = past ++ later → P past) ∧ P (es ++ [e]) := by
  constructor
  · intro h
    refine ⟨fun past later hes => h past (later ++ [e]) ?_, h _ [] (List.append_nil _).symm⟩
    rw [hes, List.append_assoc]
  · rintro ⟨hes, hlast⟩ past later hsplit
    rcases List.eq_nil_or_concat' later with rfl | ⟨later', e', rfl⟩
    · rw [List.append_nil] at hsplit
      exact hsplit ▸ hlast
    · rw [← List.append_assoc] at hsplit
      exact hes past later' (List.append_inj' hsplit rfl).1

/-- What the next step keeps exactly if it meets the condition holds all along the runs
that meet the condition, and along no other. -/
theorem every_past_iff_along {step : σ → ε → σ} {s : σ} {P : List ε → Prop} {C : σ → ε → Prop}
    (hnil : P []) (hstep : ∀ es e, P es → (P (es ++ [e]) ↔ C (exec step s es) e))
    (es : List ε) : (∀ past later, es = past ++ later → P past) ↔ Along step C s es := by
  induction es using List.reverseRecOn with
  | nil =>
      refine iff_of_true ?_ trivial
      intro past later hes
      rw [(List.append_eq_nil_iff.mp hes.symm).1]
      exact hnil
  | append_singleton es e ih =>
      rw [every_past_concat, along_concat, ih]
      refine and_congr_right fun halong => hstep es e ?_
      exact ih.mpr halong es [] (List.append_nil es).symm

/-! ## Observations of a run -/

variable {ω : Type*}

/-- What `obs` sees of each step, in order. -/
def trace (step : σ → ε → σ) (obs : σ → ε → Option ω) : σ → List ε → List ω
  | _, [] => []
  | s, e :: es => (obs s e).toList ++ trace step obs (step s e) es

@[simp] theorem trace_nil (step : σ → ε → σ) (obs : σ → ε → Option ω) (s : σ) :
    trace step obs s [] = [] := rfl

/-- What is observed of a run, in two parts. -/
theorem trace_append (step : σ → ε → σ) (obs : σ → ε → Option ω) :
    ∀ (s : σ) (es fs : List ε),
      trace step obs s (es ++ fs) = trace step obs s es ++ trace step obs (exec step s es) fs
  | _, [], _ => rfl
  | s, e :: es, fs => by
      rw [List.cons_append, trace, trace, trace_append step obs (step s e) es fs, exec_cons,
        List.append_assoc]

theorem trace_concat (step : σ → ε → σ) (obs : σ → ε → Option ω) (s : σ) (es : List ε) (e : ε) :
    trace step obs s (es ++ [e]) = trace step obs s es ++ (obs (exec step s es) e).toList := by
  rw [trace_append, trace, trace_nil, List.append_nil]

end Runs
