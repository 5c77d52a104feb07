import Mathlib.Data.List.Basic
import Mathlib.Data.List.Induction

/-!
# Past-time predicates on logs

A log is a list that grows at its end.  The predicates here look back from an
entry to the entries before it, and each one comes with the rule that says how
it changes when the log grows by one entry.

* `Always Q`: every entry satisfies `Q` against its own past.
* `Since p c`: some entry satisfied `p` against its past, and no entry after it
  satisfies `c`.
* `Pending p c`: the same for a `c` that looks at the past too.
* `latest f`: the last value `f` reads off the log.
-/

namespace Past

variable {α β : Type*}

/-- A log one entry longer splits at its last entry or inside the old log. -/
theorem concat_eq_append_cons {l pre post : List α} {x y : α}
    (h : l ++ [y] = pre ++ x :: post) :
    (post = [] ∧ pre = l ∧ x = y) ∨ ∃ post', post = post' ++ [y] ∧ l = pre ++ x :: post' := by
  rcases List.eq_nil_or_concat post with hnil | ⟨post', z, hpost⟩
  · subst hnil
    obtain ⟨h1, h2⟩ := List.append_inj' h rfl
    exact Or.inl ⟨rfl, h1.symm, (List.cons.inj h2).1.symm⟩
  · subst hpost
    rw [List.concat_eq_append, ← List.cons_append, ← List.append_assoc] at h
    obtain ⟨h1, h2⟩ := List.append_inj' h rfl
    obtain rfl := (List.cons.inj h2).1
    exact Or.inr ⟨post', List.concat_eq_append, h1⟩

/-! ## Always -/

/-- Every entry satisfies `Q` against the entries before it. -/
def Always (Q : List α → α → Prop) (l : List α) : Prop :=
  ∀ pre x post, l = pre ++ x :: post → Q pre x

@[simp] theorem always_nil (Q : List α → α → Prop) : Always Q [] := by
  intro pre x post h
  simp at h

@[simp] theorem always_concat (Q : List α → α → Prop) (l : List α) (y : α) :
    Always Q (l ++ [y]) ↔ Always Q l ∧ Q l y := by
  constructor
  · intro h
    refine ⟨?_, h l y [] rfl⟩
    intro pre x post hl
    exact h pre x (post ++ [y]) (by rw [hl, List.append_assoc, List.cons_append])
  · rintro ⟨h, hy⟩ pre x post hl
    rcases concat_eq_append_cons hl with ⟨-, rfl, rfl⟩ | ⟨post', -, hl'⟩
    · exact hy
    · exact h pre x post' hl'

/-- A log that grows by entries on which `Q` holds whatever their past. -/
theorem Always.append {Q : List α → α → Prop} {l m : List α} (h : Always Q l)
    (hm : ∀ pre, ∀ x ∈ m, Q pre x) : Always Q (l ++ m) := by
  induction m using List.reverseRecOn with
  | nil => rwa [List.append_nil]
  | append_singleton m y ih =>
      rw [← List.append_assoc, always_concat]
      exact ⟨ih fun pre x hx => hm pre x (List.mem_append_left _ hx), hm _ y (by simp)⟩

theorem Always.of_append {Q : List α → α → Prop} {l m : List α} (h : Always Q (l ++ m)) :
    Always Q l := by
  intro pre x post hl
  exact h pre x (post ++ m) (by rw [hl, List.append_assoc, List.cons_append])

/-- Two conditions that agree at every entry of a log. -/
theorem always_congr {Q R : List α → α → Prop} {l : List α}
    (h : Always (fun past x => (Q past x ↔ R past x)) l) : Always Q l ↔ Always R l := by
  constructor
  · intro hQ pre x post hl
    exact (h pre x post hl).mp (hQ pre x post hl)
  · intro hR pre x post hl
    exact (h pre x post hl).mpr (hR pre x post hl)

/-- The same where the conditions agree after entries that all met the first one. -/
theorem always_congr_of_past {Q R : List α → α → Prop} {l : List α}
    (h : ∀ past x later, l = past ++ x :: later → Always Q past → (Q past x ↔ R past x)) :
    Always Q l ↔ Always R l := by
  induction l using List.reverseRecOn with
  | nil => exact iff_of_true (always_nil Q) (always_nil R)
  | append_singleton l x ih =>
      have hl := ih fun past y later hl => h past y (later ++ [x]) (by
        rw [hl, List.append_assoc, List.cons_append])
      rw [always_concat, always_concat, ← hl]
      exact and_congr_right fun hQ => h l x [] rfl hQ

theorem Always.imp {Q R : List α → α → Prop} {l : List α} (h : Always Q l)
    (hQR : ∀ past x, Q past x → R past x) : Always R l :=
  fun pre x post hl => hQR pre x (h pre x post hl)

/-- A condition on what is read off a log. -/
theorem always_map {f : α → β} {Q : List β → β → Prop} {l : List α} :
    Always Q (l.map f) ↔ Always (fun past x => Q (past.map f) (f x)) l := by
  induction l using List.reverseRecOn with
  | nil => exact iff_of_true (always_nil Q) (always_nil _)
  | append_singleton l x ih =>
      rw [List.map_append, List.map_singleton, always_concat, always_concat, ih]

/-- `Always` by position. -/
theorem always_iff_get {Q : List α → α → Prop} {l : List α} :
    Always Q l ↔ ∀ i : Fin l.length, Q (l.take i) (l.get i) := by
  constructor
  · intro h i
    refine h _ _ (l.drop (i + 1)) ?_
    rw [List.get_eq_getElem, ← List.drop_eq_getElem_cons i.isLt, List.take_append_drop]
  · intro h pre x post hl
    subst hl
    have hx := h ⟨pre.length, by simp⟩
    simpa using hx

instance {Q : List α → α → Prop} [∀ past x, Decidable (Q past x)] (l : List α) :
    Decidable (Always Q l) :=
  decidable_of_iff _ always_iff_get.symm

/-! ## Since -/

/-- Some entry satisfied `p` against its past, and no later entry satisfies
`c`. -/
def Since (p : List α → α → Prop) (c : α → Prop) (l : List α) : Prop :=
  ∃ pre x post, l = pre ++ x :: post ∧ p pre x ∧ ∀ y ∈ post, ¬ c y

@[simp] theorem since_nil (p : List α → α → Prop) (c : α → Prop) : ¬ Since p c [] := by
  rintro ⟨pre, x, post, h, -⟩
  simp at h

@[simp] theorem since_concat (p : List α → α → Prop) (c : α → Prop) (l : List α) (y : α) :
    Since p c (l ++ [y]) ↔ p l y ∨ (Since p c l ∧ ¬ c y) := by
  constructor
  · rintro ⟨pre, x, post, hl, hp, hc⟩
    rcases concat_eq_append_cons hl with ⟨-, rfl, rfl⟩ | ⟨post', rfl, hl'⟩
    · exact Or.inl hp
    · exact Or.inr ⟨⟨pre, x, post', hl', hp, fun z hz => hc z (List.mem_append_left _ hz)⟩,
        hc y (by simp)⟩
  · rintro (hp | ⟨⟨pre, x, post, hl, hp, hc⟩, hy⟩)
    · exact ⟨l, y, [], rfl, hp, by simp⟩
    · refine ⟨pre, x, post ++ [y], by rw [hl, List.append_assoc, List.cons_append], hp, ?_⟩
      intro z hz
      rcases List.mem_append.mp hz with hz | hz
      · exact hc z hz
      · rw [List.mem_singleton.mp hz]
        exact hy

/-- `Since` by position. -/
theorem since_iff_get {p : List α → α → Prop} {c : α → Prop} {l : List α} :
    Since p c l ↔
      ∃ i : Fin l.length, p (l.take i) (l.get i) ∧ ∀ y ∈ l.drop (i + 1), ¬ c y := by
  constructor
  · rintro ⟨pre, x, post, rfl, hp, hc⟩
    exact ⟨⟨pre.length, by simp⟩, by simpa using hp, by simpa using hc⟩
  · rintro ⟨i, hp, hc⟩
    refine ⟨_, _, _, ?_, hp, hc⟩
    rw [List.get_eq_getElem, ← List.drop_eq_getElem_cons i.isLt, List.take_append_drop]

instance {p : List α → α → Prop} {c : α → Prop} [∀ past x, Decidable (p past x)]
    [DecidablePred c] (l : List α) : Decidable (Since p c l) :=
  decidable_of_iff _ since_iff_get.symm

theorem since_or (p q : List α → α → Prop) (c : α → Prop) (l : List α) :
    Since (fun pre x => p pre x ∨ q pre x) c l ↔ Since p c l ∨ Since q c l := by
  constructor
  · rintro ⟨pre, x, post, hl, hp | hq, hc⟩
    · exact Or.inl ⟨pre, x, post, hl, hp, hc⟩
    · exact Or.inr ⟨pre, x, post, hl, hq, hc⟩
  · rintro (⟨pre, x, post, hl, hp, hc⟩ | ⟨pre, x, post, hl, hq, hc⟩)
    · exact ⟨pre, x, post, hl, Or.inl hp, hc⟩
    · exact ⟨pre, x, post, hl, Or.inr hq, hc⟩

/-! ## Pending -/

/-- Some entry satisfied `p` against its past, and no later entry satisfies `c`
against its own. -/
def Pending (p c : List α → α → Prop) (l : List α) : Prop :=
  ∃ pre x post, l = pre ++ x :: post ∧ p pre x ∧
    ∀ mid y rest, post = mid ++ y :: rest → ¬ c (pre ++ x :: mid) y

@[simp] theorem pending_nil (p c : List α → α → Prop) : ¬ Pending p c [] := by
  rintro ⟨pre, x, post, h, -⟩
  simp at h

@[simp] theorem pending_concat (p c : List α → α → Prop) (l : List α) (y : α) :
    Pending p c (l ++ [y]) ↔ p l y ∨ (Pending p c l ∧ ¬ c l y) := by
  constructor
  · rintro ⟨pre, x, post, hl, hp, hc⟩
    rcases concat_eq_append_cons hl with ⟨-, rfl, rfl⟩ | ⟨post', rfl, rfl⟩
    · exact Or.inl hp
    · refine Or.inr ⟨⟨pre, x, post', rfl, hp, ?_⟩, hc post' y [] rfl⟩
      intro mid z rest hpost
      exact hc mid z (rest ++ [y]) (by rw [hpost, List.append_assoc, List.cons_append])
  · rintro (hp | ⟨⟨pre, x, post, rfl, hp, hc⟩, hy⟩)
    · exact ⟨l, y, [], rfl, hp, by simp⟩
    · refine ⟨pre, x, post ++ [y], by rw [List.append_assoc, List.cons_append], hp, ?_⟩
      intro mid z rest hpost
      rcases concat_eq_append_cons hpost with ⟨-, rfl, rfl⟩ | ⟨rest', -, hpost'⟩
      · exact hy
      · exact hc mid z rest' hpost'

/-! ## Latest -/

/-- The last value `f` reads off the log. -/
def latest (f : α → Option β) (l : List α) : Option β := (l.filterMap f).getLast?

@[simp] theorem latest_nil (f : α → Option β) : latest f [] = none := rfl

@[simp] theorem latest_append (f : α → Option β) (l m : List α) :
    latest f (l ++ m) = (latest f m).or (latest f l) := by
  simp only [latest, List.filterMap_append, List.getLast?_append]

@[simp] theorem latest_singleton (f : α → Option β) (x : α) : latest f [x] = f x := by
  cases h : f x <;> simp [latest, h]

theorem latest_eq_none_iff {f : α → Option β} {l : List α} :
    latest f l = none ↔ ∀ x ∈ l, f x = none := by
  simp [latest]

end Past
