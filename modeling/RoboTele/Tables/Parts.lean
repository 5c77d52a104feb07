import Mathlib.Algebra.BigOperators.Group.List.Basic
import Mathlib.Algebra.Order.BigOperators.Group.List
import Mathlib.Algebra.Order.Ring.Nat
import Mathlib.Data.List.Range
import Mathlib.Order.Lattice.Nat

/-!
# Balanced parts

`parts n k` splits `n` into `k` parts that differ by one at most, the larger ones first.
If no part may be larger than `m`, `n / m` rounded up is the least number of parts
(`ceilDiv_le_length`), and that many balanced ones are small enough (`le_of_mem_parts`).
-/

namespace Parts

/-- `n / m`, rounded up. -/
def ceilDiv (n m : Nat) : Nat := n / m + if 0 < n % m then 1 else 0

/-- A number in `k` parts, the larger ones first. -/
def parts (n k : Nat) : List Nat := (List.range k).map fun i => n / k + if i < n % k then 1 else 0

variable {n m k x : Nat}

@[simp] theorem length_parts (n k : Nat) : (parts n k).length = k := by
  rw [parts, List.length_map, List.length_range]

theorem sum_range_add_ite (q r k : Nat) :
    ((List.range k).map fun i => q + if i < r then 1 else 0).sum = k * q + min r k := by
  induction k with
  | zero => simp
  | succ k ih =>
      rw [List.range_succ, List.map_append, List.sum_append, ih, List.map_singleton,
        List.sum_singleton, Nat.succ_mul]
      split_ifs with hlt <;> omega

theorem sum_parts (hk : 0 < k) (n : Nat) : (parts n k).sum = n := by
  have hmod := Nat.mod_lt n hk
  have hdiv := Nat.div_add_mod n k
  rw [parts, sum_range_add_ite, min_eq_left hmod.le]
  exact hdiv

theorem mem_parts (hx : x ∈ parts n k) : x = n / k ∨ x = n / k + 1 ∧ 0 < n % k := by
  obtain ⟨i, -, rfl⟩ := List.mem_map.mp hx
  split_ifs with hlt
  · exact .inr ⟨rfl, Nat.zero_lt_of_lt hlt⟩
  · exact .inl rfl

/-- Two parts differ by one at most. -/
theorem le_add_one_of_mem_parts {y : Nat} (hx : x ∈ parts n k) (hy : y ∈ parts n k) :
    x ≤ y + 1 := by
  rcases mem_parts hx with rfl | ⟨rfl, -⟩ <;> rcases mem_parts hy with rfl | ⟨rfl, -⟩ <;> omega

theorem le_ceilDiv_mul (hm : 0 < m) (n : Nat) : n ≤ ceilDiv n m * m := by
  have hdiv := Nat.div_add_mod n m
  have hmod := Nat.mod_lt n hm
  rw [ceilDiv, Nat.add_mul, Nat.mul_comm (n / m)]
  split_ifs with hpos <;> omega

theorem ceilDiv_le (hm : 0 < m) (h : n ≤ k * m) : ceilDiv n m ≤ k := by
  have hdiv := Nat.div_add_mod n m
  rw [ceilDiv]
  split_ifs with hpos
  · refine Nat.lt_of_mul_lt_mul_left (a := m) ?_
    rw [Nat.mul_comm m k]
    omega
  · refine Nat.le_of_mul_le_mul_left (c := m) ?_ hm
    rw [Nat.add_zero, Nat.mul_comm m k]
    omega

theorem ceilDiv_pos (hn : 0 < n) (hm : 0 < m) : 0 < ceilDiv n m := by
  have hle := le_ceilDiv_mul hm n
  exact Nat.pos_of_ne_zero fun hzero => by
    rw [hzero, Nat.zero_mul] at hle
    omega

/-- The balanced parts are not larger than they must be. -/
theorem le_of_mem_parts (hm : 0 < m) (hx : x ∈ parts n (ceilDiv n m)) : x ≤ m := by
  have hle := le_ceilDiv_mul hm n
  have hdiv := Nat.div_add_mod n (ceilDiv n m)
  rcases mem_parts hx with rfl | ⟨rfl, hpos⟩
  · exact Nat.div_le_of_le_mul hle
  · refine Nat.lt_of_mul_lt_mul_left (a := ceilDiv n m) ?_
    omega

/-- No fewer parts do. -/
theorem ceilDiv_le_length (hm : 0 < m) {xs : List Nat} (hsum : xs.sum = n)
    (hxs : ∀ x ∈ xs, x ≤ m) : ceilDiv n m ≤ xs.length := by
  refine ceilDiv_le hm ?_
  rw [← hsum]
  simpa using List.sum_le_card_nsmul xs m hxs

end Parts
