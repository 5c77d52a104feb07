import Mathlib.Data.List.Basic

/-!
# Arrays filled by writes

A loop fills an array by writes at places it computes.  A write out of bounds is `none`
(`setAt`), and so is the loop then.

`Filled len target done xs` says that the array has its length and shows its target at
the places that are done.  A write does one more place (`Filled.setAt`), and a loop does
the places of all its rounds (`exists_foldlM`), whatever their order and even if it does
a place twice.  With all places done the array is the target (`Filled.eq_map`).
-/

namespace Filling

variable {α σ κ : Type*}

/-- `xs[i] = x`. -/
def setAt (xs : List α) (i : Nat) (x : α) : Option (List α) :=
  if i < xs.length then some (xs.set i x) else none

/-- The places that are done hold what they should. -/
structure Filled (len : Nat) (target : Nat → α) (done : Nat → Prop) (xs : List α) : Prop where
  length : xs.length = len
  get : ∀ i < len, done i → xs[i]? = some (target i)

section

variable {len i : Nat} {target : Nat → α} {done done' : Nat → Prop} {xs : List α}

theorem filled_replicate (len : Nat) (target : Nat → α) (x : α) :
    Filled len target (fun _ => False) (List.replicate len x) :=
  ⟨List.length_replicate, fun _ _ h => h.elim⟩

/-- An array that no round writes. -/
theorem filled_const (len : Nat) (x : α) (done : Nat → Prop) :
    Filled len (fun _ => x) done (List.replicate len x) :=
  ⟨List.length_replicate, fun i hi _ => by rw [List.getElem?_replicate, if_pos hi]⟩

theorem Filled.setAt (h : Filled len target done xs) (hi : i < len) :
    ∃ ys, setAt xs i (target i) = some ys ∧
      Filled len target (fun j => done j ∨ j = i) ys := by
  refine ⟨xs.set i (target i), if_pos (h.length.symm ▸ hi), List.length_set.trans h.length, ?_⟩
  intro j hj hdone
  by_cases hij : j = i
  · subst hij
    exact List.getElem?_set_self (h.length.symm ▸ hj)
  · rw [List.getElem?_set_ne (Ne.symm hij)]
    exact h.get j hj (hdone.resolve_right hij)

theorem Filled.eq_map (h : Filled len target done xs) (hall : ∀ i < len, done i) :
    xs = (List.range len).map target := by
  refine List.ext_getElem? fun i => ?_
  by_cases hi : i < len
  · rw [h.get i hi (hall i hi), List.getElem?_map, List.getElem?_range hi]
    rfl
  · rw [List.getElem?_eq_none (by rw [h.length]; omega), List.getElem?_eq_none (by simp; omega)]

end

/-- A loop whose rounds each do the places of their key does the places of all keys. -/
theorem exists_foldlM {step : σ → κ → Option σ} {I : (Nat → Prop) → σ → Prop}
    {cover : κ → Nat → Prop} :
    ∀ {ks : List κ} {done : Nat → Prop} {s : σ},
      (∀ k ∈ ks, ∀ done s, I done s →
        ∃ s', step s k = some s' ∧ I (fun i => done i ∨ cover k i) s') → I done s →
      ∃ s', ks.foldlM step s = some s' ∧ I (fun i => done i ∨ ∃ k ∈ ks, cover k i) s'
  | [], done, s, _, h => ⟨s, rfl, by simpa using h⟩
  | k :: ks, done, s, hstep, h => by
      obtain ⟨s', hs', h'⟩ := hstep k List.mem_cons_self done s h
      obtain ⟨s'', hs'', h''⟩ :=
        exists_foldlM (fun k' hk' => hstep k' (List.mem_cons_of_mem k hk')) h'
      refine ⟨s'', ?_, ?_⟩
      · rw [List.foldlM_cons, hs']
        exact hs''
      · simpa only [List.mem_cons, exists_eq_or_imp, or_assoc] using h''

/-- A loop of which no round fails, in a state that stays good. -/
theorem foldlM_eq_foldl {step : σ → κ → Option σ} {next : σ → κ → σ} {I : σ → Prop} :
    ∀ {ks : List κ} {s : σ},
      (∀ k ∈ ks, ∀ s, I s → step s k = some (next s k) ∧ I (next s k)) → I s →
      ks.foldlM step s = some (ks.foldl next s)
  | [], _, _, _ => rfl
  | k :: ks, s, hstep, h => by
      obtain ⟨hs, h'⟩ := hstep k List.mem_cons_self s h
      rw [List.foldlM_cons, hs]
      exact foldlM_eq_foldl (fun k' hk' => hstep k' (List.mem_cons_of_mem k hk')) h'

/-- A loop that maps its keys, where no round fails. -/
theorem mapM_eq_map {f : κ → Option α} {g : κ → α} :
    ∀ {ks : List κ}, (∀ k ∈ ks, f k = some (g k)) → ks.mapM f = some (ks.map g)
  | [], _ => rfl
  | k :: ks, h => by
      rw [List.mapM_cons, h k List.mem_cons_self,
        mapM_eq_map fun k' hk' => h k' (List.mem_cons_of_mem k hk')]
      rfl

end Filling
