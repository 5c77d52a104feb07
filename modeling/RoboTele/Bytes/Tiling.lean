import Mathlib.Algebra.Order.Ring.Nat
import Mathlib.Data.List.Basic

/-!
# Slots laid one after the other

A slot is an offset and a length.  Slots tile an interval if the first starts where the
interval does, every other one where the one before it ends, and the last ends where the
interval does.
-/

namespace Tiling

/-- Where a part begins and how long it is. -/
abbrev Slot := Nat × Nat

/-- The slots tile the interval from `start` to `stop`. -/
def Tiles : Nat → List Slot → Nat → Prop
  | start, [], stop => start = stop
  | start, (offset, len) :: slots, stop => offset = start ∧ Tiles (start + len) slots stop

variable {start middle stop : Nat} {slots slots' : List Slot}

@[simp] theorem tiles_nil : Tiles start [] stop ↔ start = stop := Iff.rfl

@[simp] theorem tiles_cons {s : Slot} :
    Tiles start (s :: slots) stop ↔ s.1 = start ∧ Tiles (start + s.2) slots stop := Iff.rfl

theorem Tiles.append (h : Tiles start slots middle) (h' : Tiles middle slots' stop) :
    Tiles start (slots ++ slots') stop := by
  induction slots generalizing start with
  | nil =>
      rw [tiles_nil] at h
      rwa [h]
  | cons s slots ih => exact tiles_cons.mpr ⟨h.1, ih h.2⟩

theorem Tiles.start_le (h : Tiles start slots stop) : ∀ s ∈ slots, start ≤ s.1 := by
  induction slots generalizing start with
  | nil => exact fun s hs => absurd hs List.not_mem_nil
  | cons s slots ih =>
      intro s' hs'
      rcases List.mem_cons.mp hs' with rfl | hs'
      · exact h.1.ge
      · exact (Nat.le_add_right _ _).trans (ih h.2 s' hs')

/-- No slot reaches into a later one. -/
theorem Tiles.apart (h : Tiles start slots stop) :
    slots.Pairwise fun s s' => s.1 + s.2 ≤ s'.1 := by
  induction slots generalizing start with
  | nil => exact .nil
  | cons s slots ih =>
      refine .cons (fun s' hs' => ?_) (ih h.2)
      rw [h.1]
      exact h.2.start_le s' hs'

end Tiling
