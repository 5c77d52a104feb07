import Mathlib.Data.List.Sort
import Mathlib.Data.List.Perm.Basic
import Mathlib.Order.Basic

/-!
# Queues that give out the least key

A heap whose keys are all different is seen from outside as the list of its items in the order
of their keys: what is taken is the head, and a new item goes where its key belongs.
-/

namespace HeapQueue

variable {α κ : Type*} [LinearOrder κ] {key : α → κ} {q : List α} {a b : α}

/-- The items in the order of their keys, no two of which are the same. -/
def InOrder (key : α → κ) (q : List α) : Prop := q.Pairwise fun a b => key a < key b

/-- The queue with one more item. -/
def push (key : α → κ) (a : α) (q : List α) : List α :=
  q.orderedInsert (fun a b => key a ≤ key b) a

theorem push_perm (key : α → κ) (a : α) (q : List α) : (push key a q).Perm (a :: q) :=
  List.perm_orderedInsert _ a q

theorem mem_push : b ∈ push key a q ↔ b = a ∨ b ∈ q :=
  List.mem_orderedInsert _

theorem forall_mem_push {P : α → Prop} (ha : P a) (hq : ∀ b ∈ q, P b) :
    ∀ b ∈ push key a q, P b := by
  intro b hb
  rcases mem_push.mp hb with rfl | hb
  · exact ha
  · exact hq b hb

theorem InOrder.push (h : InOrder key q) (hnew : ∀ b ∈ q, key b ≠ key a) :
    InOrder key (push key a q) := by
  induction q with
  | nil => exact List.pairwise_singleton _ a
  | cons b q ih =>
      obtain ⟨hb, hq⟩ := List.pairwise_cons.mp h
      have hne := hnew b List.mem_cons_self
      rw [HeapQueue.push, List.orderedInsert_cons]
      split
      · next hle =>
          have hlt : key a < key b := lt_of_le_of_ne hle hne.symm
          refine List.pairwise_cons.mpr ⟨fun c hc => ?_, h⟩
          rcases List.mem_cons.mp hc with rfl | hc
          · exact hlt
          · exact hlt.trans (hb c hc)
      · next hle =>
          refine List.pairwise_cons.mpr ⟨forall_mem_push (not_le.mp hle) hb, ?_⟩
          exact ih hq fun c hc => hnew c (List.mem_cons_of_mem b hc)

/-- The head is what has to be taken. -/
theorem InOrder.head_lt (h : InOrder key (a :: q)) : ∀ b ∈ q, key a < key b :=
  (List.pairwise_cons.mp h).1

theorem InOrder.tail (h : InOrder key (a :: q)) : InOrder key q := (List.pairwise_cons.mp h).2

/-- Items may change as long as their keys stay. -/
theorem InOrder.map {f : α → α} (h : InOrder key q) (hf : ∀ a, key (f a) = key a) :
    InOrder key (q.map f) :=
  List.pairwise_map.mpr (h.imp fun hlt => by rwa [hf, hf])

end HeapQueue
