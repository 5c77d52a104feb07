import RoboTele.Runs.Past
import Mathlib.Order.MinMax

/-!
# The least sample of a window, kept with its time

Samples come in with times that do not go back.  One of them is kept with its
time: a smaller one takes its place, and so does the next one once it is as old as
the window.

The kept sample is the least of the window for as long as it is kept, if it was the
least when it took its place.  So it is wrong only from a sample on that takes the
place of one that is too old, while a smaller one is still in the window
(`always_least_iff`).
-/

namespace WindowMin

open Past

variable {α : Type*} [LinearOrder α] {window now : ℕ} {x : α} {past samples : List (ℕ × α)}

/-- The kept sample and its time, with a new sample. -/
def keep (window : ℕ) (kept : Option (α × ℕ)) (now : ℕ) (x : α) : α × ℕ :=
  match kept with
  | some (b, at') => if b ≤ x ∧ now - at' < window then (b, at') else (x, now)
  | none => (x, now)

theorem keep_some (k : α × ℕ) :
    keep window (some k) now x = if k.1 ≤ x ∧ now - k.2 < window then k else (x, now) := rfl

/-- The sample kept of a list, the last one the newest. -/
def kept (window : ℕ) (samples : List (ℕ × α)) : Option (α × ℕ) :=
  samples.foldl (fun k p => some (keep window k p.1 p.2)) none

/-- The least sample of the window that ends with this one. -/
def least (window : ℕ) (past : List (ℕ × α)) (now : ℕ) (x : α) : α :=
  ((past.filter fun p => now - p.1 < window).map Prod.snd).foldr min x

/-- The kept sample is too old. -/
def Expired (window : ℕ) (past : List (ℕ × α)) (now : ℕ) : Prop :=
  ∃ k ∈ kept window past, window ≤ now - k.2

/-- The sample kept with this one is the least of the window. -/
def IsRight (window : ℕ) (past : List (ℕ × α)) (p : ℕ × α) : Prop :=
  (keep window (kept window past) p.1 p.2).1 = least window past p.1 p.2

/-- A sample that takes the place of one that is too old is the least of the window. -/
def RestartsRight (window : ℕ) (past : List (ℕ × α)) (p : ℕ × α) : Prop :=
  Expired window past p.1 → ∀ q ∈ past, p.1 - q.1 < window → p.2 ≤ q.2

/-- Times do not go back. -/
def Ordered (samples : List (ℕ × α)) : Prop := samples.Pairwise fun p q => p.1 ≤ q.1

theorem kept_concat (past : List (ℕ × α)) (p : ℕ × α) :
    kept window (past ++ [p]) = some (keep window (kept window past) p.1 p.2) := by
  rw [kept, List.foldl_concat, kept]

/-! ## The least sample -/

theorem le_foldr_min_iff {b : α} : ∀ {l : List α}, b ≤ l.foldr min x ↔ b ≤ x ∧ ∀ y ∈ l, b ≤ y
  | [] => (and_iff_left nofun).symm
  | y :: l => by
      rw [List.foldr_cons, le_min_iff, le_foldr_min_iff, List.forall_mem_cons]
      exact and_left_comm

theorem le_least_iff {b : α} :
    b ≤ least window past now x ↔ b ≤ x ∧ ∀ q ∈ past, now - q.1 < window → b ≤ q.2 := by
  rw [least, le_foldr_min_iff]
  refine and_congr_right fun _ => ?_
  constructor
  · intro h q hq hnow
    exact h q.2 (List.mem_map_of_mem (List.mem_filter.mpr ⟨hq, decide_eq_true hnow⟩))
  · intro h y hy
    obtain ⟨q, hq, rfl⟩ := List.mem_map.mp hy
    obtain ⟨hq, hnow⟩ := List.mem_filter.mp hq
    exact h q hq (of_decide_eq_true hnow)

/-- A sample of the window, or the new one, is the least if none is smaller. -/
theorem eq_least_iff {b : α} (hmem : b = x ∨ ∃ q ∈ past, now - q.1 < window ∧ b = q.2) :
    b = least window past now x ↔ b ≤ x ∧ ∀ q ∈ past, now - q.1 < window → b ≤ q.2 := by
  rw [← le_least_iff]
  refine ⟨le_of_eq, fun hle => le_antisymm hle ?_⟩
  obtain ⟨hx, hpast⟩ := le_least_iff.mp (le_refl (least window past now x))
  rcases hmem with rfl | ⟨q, hq, hnow, rfl⟩
  · exact hx
  · exact hpast q hq hnow

/-! ## The kept sample -/

/-- The kept sample came in, and was the least of the window when it took its place. -/
structure Keeps (window : ℕ) (past : List (ℕ × α)) (k : α × ℕ) : Prop where
  mem : (k.2, k.1) ∈ past
  le : ∀ q ∈ past, k.2 - q.1 < window → k.1 ≤ q.2

theorem kept_eq_none_iff : kept window past = none ↔ past = [] := by
  rcases List.eq_nil_or_concat past with rfl | ⟨past, p, rfl⟩
  · exact iff_of_true rfl rfl
  · rw [List.concat_eq_append, kept_concat]
    exact iff_of_false (Option.some_ne_none _) (by simp)

/-- With a good sample kept, the next one is right exactly if it restarts right. -/
theorem isRight_iff {p : ℕ × α} (hordered : ∀ q ∈ past, q.1 ≤ p.1)
    (h : ∀ k ∈ kept window past, Keeps window past k) :
    IsRight window past p ↔ RestartsRight window past p := by
  obtain ⟨now, x⟩ := p
  rw [IsRight, RestartsRight, Expired]
  cases hkept : kept window past with
  | none =>
      obtain rfl := kept_eq_none_iff.mp hkept
      exact iff_of_true rfl fun _ q hq => absurd hq List.not_mem_nil
  | some k =>
      obtain ⟨hmem, hle⟩ := h k hkept
      have htime : k.2 ≤ now := hordered _ hmem
      have hexpired : (∃ k' ∈ some k, window ≤ now - k'.2) ↔ window ≤ now - k.2 := by simp
      rw [hexpired, keep_some]
      have hwindow : now - k.2 < window → ∀ q ∈ past, now - q.1 < window → k.1 ≤ q.2 :=
        fun _ q hq hnow => hle q hq (lt_of_le_of_lt (Nat.sub_le_sub_right htime _) hnow)
      by_cases hnew : now - k.2 < window
      · refine iff_of_true ?_ fun hold => absurd hnew (Nat.not_lt.mpr hold)
        by_cases hb : k.1 ≤ x
        · rw [if_pos ⟨hb, hnew⟩]
          exact (eq_least_iff (.inr ⟨_, hmem, hnew, rfl⟩)).mpr ⟨hb, hwindow hnew⟩
        · rw [if_neg fun hand => hb hand.1]
          refine (eq_least_iff (.inl rfl)).mpr ⟨le_refl x, fun q hq hnow => ?_⟩
          exact (not_le.mp hb).le.trans (hwindow hnew q hq hnow)
      · rw [if_neg fun hand => hnew hand.2, eq_least_iff (.inl rfl), and_iff_right (le_refl x)]
        exact (imp_iff_right (Nat.not_lt.mp hnew)).symm

/-- What is kept with a right sample is good. -/
theorem IsRight.keeps {p : ℕ × α} (hright : IsRight window past p)
    (h : ∀ k ∈ kept window past, Keeps window past k) :
    Keeps window (past ++ [p]) (keep window (kept window past) p.1 p.2) := by
  obtain ⟨now, x⟩ := p
  have hnew (hfst : keep window (kept window past) now x = (x, now)) :
      Keeps window (past ++ [(now, x)]) (x, now) := by
    rw [IsRight, hfst] at hright
    refine ⟨List.mem_append_right _ (List.mem_singleton_self _), fun q hq hnow => ?_⟩
    rcases List.mem_append.mp hq with hq | hq
    · exact ((eq_least_iff (.inl rfl)).mp hright).2 q hq hnow
    · rw [List.mem_singleton.mp hq]
  cases hkept : kept window past with
  | none =>
      rw [hkept] at hnew
      exact hnew rfl
  | some k =>
      rw [hkept] at hnew
      by_cases hstays : k.1 ≤ x ∧ now - k.2 < window
      · obtain ⟨hmem, hle⟩ := h k hkept
        rw [keep_some, if_pos hstays]
        refine ⟨List.mem_append_left _ hmem, fun q hq hnow => ?_⟩
        rcases List.mem_append.mp hq with hq | hq
        · exact hle q hq hnow
        · rw [List.mem_singleton.mp hq]
          exact hstays.1
      · have hfst : keep window (some k) now x = (x, now) := if_neg hstays
        rw [hfst]
        exact hnew hfst

theorem keeps_of_always : ∀ {samples : List (ℕ × α)},
    Always (IsRight window) samples → ∀ k ∈ kept window samples, Keeps window samples k := by
  intro samples
  induction samples using List.reverseRecOn with
  | nil => exact fun _ k hk => absurd hk (Option.not_mem_none k)
  | append_singleton past p ih =>
      intro h k hk
      obtain ⟨hpast, hright⟩ := (always_concat _ _ _).mp h
      rw [kept_concat] at hk
      obtain rfl := Option.some.inj hk
      exact hright.keeps (ih hpast)

/-- Every sample is kept right exactly if every restart is. -/
theorem always_least_iff (hordered : Ordered samples) :
    Always (IsRight window) samples ↔ Always (RestartsRight window) samples := by
  refine always_congr_of_past fun past p later hsamples hpast => ?_
  refine isRight_iff (fun q hq => ?_) (keeps_of_always hpast)
  rw [hsamples, Ordered, List.pairwise_append] at hordered
  exact hordered.2.2 q hq p List.mem_cons_self

end WindowMin
