import Mathlib.Data.List.Basic
import Mathlib.Data.List.Induction
import Mathlib.Order.Basic
import Mathlib.Order.Defs.LinearOrder
import Mathlib.Data.Nat.Basic

/-!
# Lines that are served in order

A line of keys changes with every event: keys leave it at the front, or one that
is not in it joins at the end (`Moves`).  Then the line is always in the order in
which its keys started to wait (`inOrder_of_moves`).

`line` is the line after a list of events, and an event is named by the number of
events before it.
-/

namespace WaitingLine

variable {κ ε : Type*} {line : List ε → List κ} {es : List ε} {e : ε} {key : κ} {i j : ℕ}

/-- The key joined the line at event `i` and has not left it. -/
structure WaitsSince (line : List ε → List κ) (es : List ε) (key : κ) (i : ℕ) : Prop where
  lt : i < es.length
  joins : key ∉ line (es.take i)
  waits : ∀ j, i < j → j ≤ es.length → key ∈ line (es.take j)

/-- The line is in the order in which its keys started to wait. -/
structure InOrder (line : List ε → List κ) (es : List ε) : Prop where
  since : ∀ key ∈ line es, ∃ i, WaitsSince line es key i
  sorted : (line es).Pairwise fun key key' =>
    ∀ i j, WaitsSince line es key i → WaitsSince line es key' j → i < j

/-- What one event does to a line. -/
inductive Moves (before : List κ) : List κ → Prop
  | serves (served after : List κ) (h : before = served ++ after) : Moves before after
  | joins (key : κ) (h : key ∉ before) : Moves before (before ++ [key])

theorem Moves.refl (before : List κ) : Moves before before := .serves [] before rfl

theorem WaitsSince.mem (h : WaitsSince line es key i) : key ∈ line es := by
  have hmem := h.waits es.length h.lt le_rfl
  rwa [List.take_length] at hmem

/-! ## One more event -/

/-- The key stays in line. -/
theorem WaitsSince.concat (h : WaitsSince line es key i) (hmem : key ∈ line (es ++ [e])) :
    WaitsSince line (es ++ [e]) key i where
  lt := by
    rw [List.length_append]
    exact Nat.lt_add_right _ h.lt
  joins := by
    rw [List.take_append_of_le_length h.lt.le]
    exact h.joins
  waits j hij hj := by
    rw [List.length_append, List.length_singleton] at hj
    rcases Nat.lt_or_eq_of_le hj with hlt | rfl
    · rw [List.take_append_of_le_length (Nat.lt_succ_iff.mp hlt)]
      exact h.waits j hij (Nat.lt_succ_iff.mp hlt)
    · rwa [List.take_of_length_le (by simp)]

/-- The key was in line before the event. -/
theorem WaitsSince.of_concat (h : WaitsSince line (es ++ [e]) key i) (hmem : key ∈ line es) :
    WaitsSince line es key i := by
  have hlt : i < es.length := by
    have hle := h.lt
    rw [List.length_append, List.length_singleton] at hle
    refine lt_of_le_of_ne (Nat.lt_succ_iff.mp hle) ?_
    rintro rfl
    refine h.joins ?_
    rwa [List.take_left]
  refine ⟨hlt, ?_, fun j hij hj => ?_⟩
  · have hjoins := h.joins
    rwa [List.take_append_of_le_length hlt.le] at hjoins
  · have hwaits := h.waits j hij (hj.trans (by simp))
    rwa [List.take_append_of_le_length hj] at hwaits

/-- The key joins with the event. -/
theorem waitsSince_new (hnew : key ∉ line es) (hmem : key ∈ line (es ++ [e])) :
    WaitsSince line (es ++ [e]) key es.length where
  lt := by simp
  joins := by rwa [List.take_left]
  waits j hij hj := by
    have heq : j = (es ++ [e]).length := by
      rw [List.length_append, List.length_singleton] at hj ⊢
      omega
    rwa [heq, List.take_length]

/-- A key that was not in line did not wait before. -/
theorem WaitsSince.eq_length (h : WaitsSince line (es ++ [e]) key i) (hnew : key ∉ line es) :
    i = es.length := by
  have hle := h.lt
  rw [List.length_append, List.length_singleton] at hle
  by_contra hne
  have hwaits := h.waits es.length (by omega) (by simp)
  rw [List.take_left] at hwaits
  exact hnew hwaits

theorem InOrder.concat (h : InOrder line es) (hmoves : Moves (line es) (line (es ++ [e]))) :
    InOrder line (es ++ [e]) := by
  generalize hafter : line (es ++ [e]) = after at hmoves
  cases hmoves with
  | serves served _ hbefore =>
      have hsub : ∀ key ∈ after, key ∈ line es := fun key hkey => by
        rw [hbefore]
        exact List.mem_append_right _ hkey
      refine ⟨fun key hkey => ?_, ?_⟩
      · rw [hafter] at hkey
        obtain ⟨i, hi⟩ := h.since key (hsub key hkey)
        exact ⟨i, hi.concat (hafter ▸ hkey)⟩
      · have hsorted := h.sorted
        rw [hbefore] at hsorted
        rw [hafter]
        refine (List.pairwise_append.mp hsorted).2.1.imp_of_mem ?_
        intro key key' hkey hkey' hlt i j hi hj
        exact hlt i j (hi.of_concat (hsub key hkey)) (hj.of_concat (hsub key' hkey'))
  | joins new hnew =>
      refine ⟨fun key hkey => ?_, ?_⟩
      · by_cases hmem : key ∈ line es
        · obtain ⟨i, hi⟩ := h.since key hmem
          exact ⟨i, hi.concat hkey⟩
        · exact ⟨es.length, waitsSince_new hmem hkey⟩
      · rw [hafter, List.pairwise_append]
        refine ⟨?_, List.pairwise_singleton _ _, ?_⟩
        · refine h.sorted.imp_of_mem ?_
          intro key key' hkey hkey' hlt i j hi hj
          exact hlt i j (hi.of_concat hkey) (hj.of_concat hkey')
        · intro key hkey key' hkey' i j hi hj
          obtain rfl := List.mem_singleton.mp hkey'
          rw [hj.eq_length hnew]
          exact (hi.of_concat hkey).lt

/-- A line that events only serve and extend is in order. -/
theorem inOrder_of_moves (hnil : line [] = [])
    (hmoves : ∀ es e, Moves (line es) (line (es ++ [e]))) (es : List ε) : InOrder line es := by
  induction es using List.reverseRecOn with
  | nil =>
      refine ⟨fun key hkey => ?_, ?_⟩
      · rw [hnil] at hkey
        exact absurd hkey List.not_mem_nil
      · rw [hnil]
        exact List.Pairwise.nil
  | append_singleton es e ih => exact ih.concat (hmoves es e)

end WaitingLine
