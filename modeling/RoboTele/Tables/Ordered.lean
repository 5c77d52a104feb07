import Mathlib.Data.List.AList
import Mathlib.Data.List.Sort

/-!
# Finite maps read in the order of their keys

`ascending` lists the keys of a map from the smallest one up, as an ordered map
iterates.  `eraseAll` removes the keys of a list.
-/

namespace Tables

variable {κ β : Type*}

section

variable [DecidableEq κ]

/-! ## One entry -/

theorem mem_iff_exists_lookup {m : AList fun _ : κ => β} {k : κ} :
    k ∈ m ↔ ∃ b, m.lookup k = some b := by
  rw [← AList.lookup_isSome, Option.isSome_iff_exists]

theorem lookup_insert_ite (m : AList fun _ : κ => β) (k : κ) (b : β) (j : κ) :
    (m.insert k b).lookup j = if j = k then some b else m.lookup j := by
  by_cases hj : j = k
  · subst hj
    rw [if_pos rfl]
    exact AList.lookup_insert _
  · rw [if_neg hj]
    exact AList.lookup_insert_ne hj

theorem lookup_insert_eq_some {m : AList fun _ : κ => β} {j k : κ} {b b' : β}
    (h : (m.insert k b).lookup j = some b') :
    (j = k ∧ b' = b) ∨ (j ≠ k ∧ m.lookup j = some b') := by
  rw [lookup_insert_ite] at h
  split_ifs at h with hj
  · exact .inl ⟨hj, (Option.some.inj h).symm⟩
  · exact .inr ⟨hj, h⟩

theorem lookup_erase_eq_some {m : AList fun _ : κ => β} {j k : κ} {b : β}
    (h : (m.erase k).lookup j = some b) : j ≠ k ∧ m.lookup j = some b := by
  have hne : j ≠ k := by
    rintro rfl
    exact absurd ((AList.lookup_erase j m).symm.trans h).symm (Option.some_ne_none b)
  exact ⟨hne, (AList.lookup_erase_ne hne).symm.trans h⟩

/-- Writing an entry that is there adds none. -/
theorem length_keys_insert (m : AList fun _ : κ => β) (k : κ) (b : β) :
    (m.insert k b).keys.length = if k ∈ m then m.keys.length else m.keys.length + 1 := by
  rw [AList.keys_insert, List.length_cons]
  split_ifs with hk
  · exact List.length_erase_add_one hk
  · rw [List.erase_of_not_mem hk]

theorem length_keys_erase {m : AList fun _ : κ => β} {k : κ} (hk : k ∈ m) :
    (m.erase k).keys.length + 1 = m.keys.length := by
  rw [AList.keys_erase, List.length_erase_add_one hk]

/-! ## Removing several keys -/

/-- The map without these keys. -/
def eraseAll (m : AList fun _ : κ => β) (ks : List κ) : AList fun _ : κ => β :=
  ks.foldl (fun m k => m.erase k) m

theorem lookup_eraseAll (k : κ) :
    ∀ (ks : List κ) (m : AList fun _ : κ => β),
      (eraseAll m ks).lookup k = if k ∈ ks then none else m.lookup k
  | [], m => rfl
  | k' :: ks, m => by
      rw [eraseAll, List.foldl_cons, ← eraseAll, lookup_eraseAll k ks]
      by_cases hk : k = k'
      · subst hk
        simp
      · simp [hk, AList.lookup_erase_ne hk]

/-- Each key that is there takes its entry with it. -/
theorem length_keys_eraseAll :
    ∀ {ks : List κ} {m : AList fun _ : κ => β}, ks.Nodup → (∀ k ∈ ks, k ∈ m) →
      (eraseAll m ks).keys.length + ks.length = m.keys.length
  | [], m, _, _ => rfl
  | k :: ks, m, hnodup, hmem => by
      obtain ⟨hk, hnodup⟩ := List.nodup_cons.mp hnodup
      have hks : ∀ k' ∈ ks, k' ∈ m.erase k := by
        intro k' hk'
        refine AList.mem_erase.mpr ⟨?_, hmem k' (List.mem_cons_of_mem k hk')⟩
        rintro rfl
        exact hk hk'
      have ih := length_keys_eraseAll hnodup hks
      have herase := length_keys_erase (hmem k List.mem_cons_self)
      rw [eraseAll, List.foldl_cons, ← eraseAll, List.length_cons]
      omega

end

/-! ## Keys in order -/

instance linearOrderUInt32 : LinearOrder UInt32 where
  le_refl := UInt32.le_refl
  le_trans _ _ _ := UInt32.le_trans
  lt_iff_le_not_ge _ _ := UInt32.lt_iff_le_and_ne.trans
    ⟨fun h => ⟨h.1, fun hle => h.2 (UInt32.le_antisymm h.1 hle)⟩,
      fun h => ⟨h.1, fun heq => h.2 (heq ▸ UInt32.le_refl _)⟩⟩
  le_antisymm _ _ := UInt32.le_antisymm
  le_total := UInt32.le_total
  toDecidableLE := inferInstance

instance linearOrderUInt8 : LinearOrder UInt8 where
  le_refl := UInt8.le_refl
  le_trans _ _ _ := UInt8.le_trans
  lt_iff_le_not_ge _ _ := UInt8.lt_iff_le_and_ne.trans
    ⟨fun h => ⟨h.1, fun hle => h.2 (UInt8.le_antisymm h.1 hle)⟩,
      fun h => ⟨h.1, fun heq => h.2 (heq ▸ UInt8.le_refl _)⟩⟩
  le_antisymm _ _ := UInt8.le_antisymm
  le_total := UInt8.le_total
  toDecidableLE := inferInstance

section

variable [LinearOrder κ] {m : AList fun _ : κ => β} {k : κ}

/-- The keys from the smallest one up. -/
def ascending (m : AList fun _ : κ => β) : List κ := m.keys.insertionSort (· ≤ ·)

theorem mem_ascending : k ∈ ascending m ↔ k ∈ m :=
  (List.perm_insertionSort _ _).mem_iff

theorem nodup_ascending (m : AList fun _ : κ => β) : (ascending m).Nodup :=
  (List.perm_insertionSort _ _).nodup_iff.mpr m.keys_nodup

theorem pairwise_ascending (m : AList fun _ : κ => β) : (ascending m).Pairwise (· < ·) := by
  have hle : (ascending m).Pairwise (· ≤ ·) := List.pairwise_insertionSort _ _
  exact (hle.and (nodup_ascending m)).imp fun h => lt_of_le_of_ne h.1 h.2

/-- A map with an entry has a smallest key. -/
theorem exists_head?_ascending (hk : k ∈ m) :
    ∃ least, (ascending m).head? = some least ∧ least ∈ m ∧ ∀ j ∈ m, least ≤ j := by
  cases hm : ascending m with
  | nil =>
      rw [← mem_ascending, hm] at hk
      exact absurd hk List.not_mem_nil
  | cons least rest =>
      refine ⟨least, rfl, mem_ascending.mp (hm ▸ List.mem_cons_self), ?_⟩
      intro j hj
      rw [← mem_ascending, hm] at hj
      rcases List.mem_cons.mp hj with rfl | hj
      · exact le_rfl
      · exact ((List.pairwise_cons.mp (hm ▸ pairwise_ascending m)).1 j hj).le

end

end Tables
