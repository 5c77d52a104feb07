import Mathlib.Data.List.Induction
import Mathlib.Data.List.Flatten
import Mathlib.Data.Nat.Basic
import Mathlib.Tactic.SplitIfs

/-!
# A list dealt out to several hands

Dealing a list to `n` hands gives member `i` to hand `i % n`.  Hand `k` ends up
with the members `k`, `k + n`, `k + 2n` and so on (`strided`, `deal_eq`), and the
`j`-th one it has is member `k + j * n` (`getElem?_strided`).
-/

namespace Strided

variable {α : Type*}

/-- Every `n`-th member of a list, from the `k`-th on. -/
def strided (n k : Nat) (l : List α) : List α :=
  (l.zipIdx.filter fun p => p.2 % n = k).map Prod.fst

@[simp] theorem strided_nil (n k : Nat) : strided n k ([] : List α) = [] := rfl

theorem strided_concat (n k : Nat) (l : List α) (x : α) :
    strided n k (l ++ [x]) = strided n k l ++ if l.length % n = k then [x] else [] := by
  rw [strided, List.zipIdx_append, List.filter_append, List.map_append, strided]
  congr 1
  by_cases hk : l.length % n = k <;> simp [hk]

theorem mem_of_mem_strided {n k : Nat} {l : List α} {x : α} (h : x ∈ strided n k l) : x ∈ l := by
  obtain ⟨p, hp, rfl⟩ := List.mem_map.mp h
  exact List.fst_mem_of_mem_zipIdx (List.mem_filter.mp hp).1

theorem length_strided {n k : Nat} (hk : k < n) (l : List α) :
    (strided n k l).length = (l.length + (n - 1 - k)) / n := by
  induction l using List.reverseRecOn with
  | nil => exact (Nat.div_eq_of_lt (by rw [List.length_nil]; omega)).symm
  | append_singleton l x ih =>
      -- the numbers `k` modulo `n` are where the length grows
      have hdvd : n ∣ l.length + (n - 1 - k) + 1 ↔ l.length % n = k := by
        have hshift : l.length + (n - 1 - k) + 1 = l.length + (n - k) := by omega
        have hmod := Nat.mod_lt l.length (by omega : 0 < n)
        rw [hshift, Nat.dvd_iff_mod_eq_zero, Nat.add_mod]
        by_cases hk0 : k = 0
        · subst hk0
          rw [Nat.sub_zero, Nat.mod_self, Nat.add_zero, Nat.mod_mod]
        · rw [Nat.mod_eq_of_lt (by omega : n - k < n)]
          constructor
          · intro hzero
            obtain hlt | hge := Nat.lt_or_ge (l.length % n + (n - k)) n
            · rw [Nat.mod_eq_of_lt hlt] at hzero
              omega
            · rw [Nat.mod_eq_sub_mod hge, Nat.mod_eq_of_lt (by omega)] at hzero
              omega
          · intro heq
            rw [heq, Nat.add_sub_cancel' (Nat.le_of_lt hk), Nat.mod_self]
      rw [strided_concat, List.length_append, ih, List.length_append, List.length_singleton,
        Nat.add_right_comm, Nat.succ_div]
      by_cases hmod : l.length % n = k
      · rw [if_pos hmod, if_pos (hdvd.mpr hmod), List.length_singleton]
      · rw [if_neg hmod, if_neg (mt hdvd.mp hmod), List.length_nil]

/-- The `j`-th member of a hand. -/
theorem getElem?_strided {n k : Nat} (hk : k < n) (l : List α) (j : Nat) :
    (strided n k l)[j]? = l[k + j * n]? := by
  induction l using List.reverseRecOn with
  | nil => simp
  | append_singleton l x ih =>
      rw [strided_concat]
      by_cases hlt : k + j * n < l.length
      · rw [List.getElem?_append_left hlt, ← ih, List.getElem?_append_left]
        by_contra hge
        rw [List.getElem?_eq_none (Nat.not_lt.mp hge), List.getElem?_eq_getElem hlt] at ih
        exact absurd ih.symm (Option.some_ne_none _)
      · have hnone := ih.trans (List.getElem?_eq_none (Nat.not_lt.mp hlt))
        rw [List.getElem?_append_right (List.getElem?_eq_none_iff.mp hnone),
          List.getElem?_append_right (Nat.not_lt.mp hlt), List.getElem?_singleton]
        by_cases hmod : l.length % n = k
        · -- hand `k` is next, so its length is the number of rounds so far
          obtain ⟨q, hq⟩ : ∃ q, l.length = k + q * n :=
            ⟨l.length / n, by rw [← hmod, Nat.mod_add_div']⟩
          have hlen : (strided n k l).length = q := by
            rw [length_strided hk, hq, show k + q * n + (n - 1 - k) = n - 1 + q * n by omega,
              Nat.add_mul_div_right _ _ (by omega), Nat.div_eq_of_lt (by omega), Nat.zero_add]
          have hzero : j - q = 0 ↔ k + j * n - (k + q * n) = 0 := by
            rw [Nat.sub_eq_zero_iff_le, Nat.sub_eq_zero_iff_le, Nat.add_le_add_iff_left,
              Nat.mul_le_mul_right_iff (by omega)]
          rw [if_pos hmod, List.getElem?_singleton, hlen, hq]
          exact if_congr hzero rfl rfl
        · rw [if_neg hmod, List.getElem?_nil, if_neg]
          intro hzero
          have heq : l.length = k + j * n := by omega
          rw [heq, Nat.add_mul_mod_self_right, Nat.mod_eq_of_lt hk] at hmod
          exact hmod rfl

/-- Dealing out a list of lists, each hand a list. -/
theorem deal_eq (n : Nat) (l : List (List α)) :
    l.zipIdx.foldl (fun hands (x, i) => hands.modify (i % n) (· ++ x)) (List.replicate n []) =
      (List.range n).map fun k => (strided n k l).flatten := by
  induction l using List.reverseRecOn with
  | nil => simp [List.map_const']
  | append_singleton l x ih =>
      rw [List.zipIdx_append, List.foldl_append, ih]
      refine List.ext_getElem (by simp) ?_
      intro k hk hk'
      simp only [List.zipIdx_cons, List.zipIdx_nil, List.foldl_cons, List.foldl_nil, Nat.zero_add,
        List.getElem_modify, List.getElem_map, List.getElem_range, strided_concat]
      split_ifs with hmod
      · rw [List.flatten_append, List.flatten_singleton]
      · rw [List.append_nil]

end Strided
