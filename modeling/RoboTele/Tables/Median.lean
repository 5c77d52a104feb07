import Mathlib.Data.List.Sort

/-!
# Medians

The median of a list is the element at half its length once the list is sorted.  It does
not depend on the order of the list (`median?_perm`), and an order preserving map takes it
along (`median?_map`).  If more than half of a list lie in an interval, so does its median
(`mem_Icc_of_majority`).
-/

namespace Median

section

variable {α : Type*} {l : List α}

/-- What fails on a beginning of the list holds of the rest at most. -/
theorem countP_add_le (p : α → Bool) {k : Nat} (hk : k ≤ l.length)
    (h : ∀ x ∈ l.take k, ¬ p x) : l.countP p + k ≤ l.length := by
  have hsplit := congrArg (List.countP p) (List.take_append_drop k l)
  rw [List.countP_append, List.countP_eq_zero.mpr h, Nat.zero_add] at hsplit
  have hle : (l.drop k).countP p ≤ (l.drop k).length := List.countP_le_length
  rw [List.length_drop] at hle
  omega

theorem countP_le_of_drop (p : α → Bool) {k : Nat} (h : ∀ x ∈ l.drop k, ¬ p x) :
    l.countP p ≤ k := by
  have hsplit := congrArg (List.countP p) (List.take_append_drop k l)
  rw [List.countP_append, List.countP_eq_zero.mpr h, Nat.add_zero] at hsplit
  rw [← hsplit]
  exact List.countP_le_length.trans (List.length_take_le k l)

end

variable {α β : Type*} [LinearOrder α] [LinearOrder β]

/-- The list in order. -/
def sort (l : List α) : List α := l.mergeSort fun x y => decide (x ≤ y)

/-- The element in the middle, the upper one of two. -/
def median? (l : List α) : Option α := (sort l)[(sort l).length / 2]?

variable {l l' : List α} {x a b : α}

theorem sort_perm (l : List α) : (sort l).Perm l := List.mergeSort_perm l _

theorem pairwise_sort (l : List α) : (sort l).Pairwise (· ≤ ·) := by
  have hsorted := @List.pairwise_mergeSort α (fun x y => decide (x ≤ y))
    (fun x y z hxy hyz => decide_eq_true ((of_decide_eq_true hxy).trans (of_decide_eq_true hyz)))
    (fun x y => by simpa using le_total x y) l
  exact hsorted.imp fun h => of_decide_eq_true h

theorem sort_eq_of_perm (hperm : l'.Perm l) (hsorted : l'.Pairwise (· ≤ ·)) : sort l = l' :=
  ((sort_perm l).trans hperm.symm).eq_of_pairwise (fun _ _ _ _ h h' => le_antisymm h h')
    (pairwise_sort l) hsorted

theorem median?_perm (h : l.Perm l') : median? l = median? l' := by
  rw [median?, median?, sort_eq_of_perm ((sort_perm l').trans h.symm) (pairwise_sort l')]

theorem median?_map {f : α → β} (hf : Monotone f) (l : List α) :
    median? (l.map f) = (median? l).map f := by
  have hsort : sort (l.map f) = (sort l).map f :=
    sort_eq_of_perm ((sort_perm l).map f)
      (List.pairwise_map.mpr ((pairwise_sort l).imp fun h => hf h))
  rw [median?, median?, hsort, List.length_map, List.getElem?_map]

theorem exists_median (h : l ≠ []) : ∃ x, median? l = some x := by
  have hlen := List.length_pos_of_ne_nil h
  rw [← (sort_perm l).length_eq] at hlen
  exact ⟨_, List.getElem?_eq_getElem (by omega)⟩

/-- A majority in an interval has the median there. -/
theorem mem_Icc_of_majority (hmedian : median? l = some x)
    (hmajority : l.length < 2 * l.countP fun y => a ≤ y ∧ y ≤ b) : a ≤ x ∧ x ≤ b := by
  rw [← (sort_perm l).length_eq, ← (sort_perm l).countP_eq] at hmajority
  have hsorted := pairwise_sort l
  obtain ⟨hlt, hx⟩ := List.getElem?_eq_some_iff.mp hmedian
  have hle : ∀ i j (hi : i < (sort l).length) (hj : j < (sort l).length), i ≤ j →
      (sort l)[i] ≤ (sort l)[j] := by
    intro i j hi hj hij
    rcases hij.lt_or_eq with hij | rfl
    · exact List.pairwise_iff_getElem.mp hsorted i j hi hj hij
    · exact le_rfl
  constructor
  · by_contra hlow
    -- then so are all before it
    have hcount := countP_add_le (fun y => decide (a ≤ y ∧ y ≤ b)) (Nat.succ_le_of_lt hlt)
      fun y hy => by
        obtain ⟨i, hi, rfl⟩ := List.mem_iff_getElem.mp hy
        rw [List.length_take] at hi
        rw [List.getElem_take, decide_eq_true_eq]
        have hyx := hle i _ (by omega) hlt (by omega)
        exact fun hin => hlow (hx ▸ hin.1.trans hyx)
    omega
  · by_contra hhigh
    -- then so are all behind it
    have hcount : (sort l).countP (fun y => decide (a ≤ y ∧ y ≤ b)) ≤ (sort l).length / 2 :=
      countP_le_of_drop _ fun y hy => by
        obtain ⟨i, hi, rfl⟩ := List.mem_iff_getElem.mp hy
        rw [List.length_drop] at hi
        rw [List.getElem_drop, decide_eq_true_eq]
        have hxy := hle _ ((sort l).length / 2 + i) hlt (by omega) (by omega)
        exact fun hin => hhigh (hx ▸ hxy.trans hin.2)
    omega

end Median
