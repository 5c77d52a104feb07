import Mathlib.Data.List.Basic

/-!
# Bounded channels

A channel holds at most `depth` values.  A send that finds it full does not go through, and what
was sent is received in order.
-/

namespace Queues

/-- What waits in a channel that has room for `depth` values. -/
structure Channel (α : Type*) (depth : ℕ) where
  waiting : List α
  bounded : waiting.length ≤ depth

namespace Channel

variable {α : Type*} {depth : ℕ}

/-- Nothing waits. -/
def empty : Channel α depth where
  waiting := []
  bounded := Nat.zero_le depth

/-- The channel with one more value, unless it is full. -/
def trySend (c : Channel α depth) (a : α) : Option (Channel α depth) :=
  if h : c.waiting.length < depth then
    some
      { waiting := c.waiting ++ [a]
        bounded := Nat.le_trans (Nat.le_of_eq (List.length_append ..)) h }
  else none

/-- The value that has waited longest, and the channel without it. -/
def tryRecv (c : Channel α depth) : Option (α × Channel α depth) :=
  match c with
  | ⟨[], _⟩ => none
  | ⟨a :: rest, h⟩ => some (a, ⟨rest, Nat.le_of_succ_le h⟩)

/-- What one send does. -/
theorem trySend_cases (c : Channel α depth) (a : α) :
    (c.waiting.length = depth ∧ c.trySend a = none) ∨
      ∃ c', c.trySend a = some c' ∧ c'.waiting = c.waiting ++ [a] := by
  by_cases h : c.waiting.length < depth
  · exact .inr ⟨_, dif_pos h, rfl⟩
  · exact .inl ⟨Nat.le_antisymm c.bounded (Nat.not_lt.mp h), dif_neg h⟩

/-- What one receive does. -/
theorem tryRecv_cases (c : Channel α depth) :
    (c.waiting = [] ∧ c.tryRecv = none) ∨
      ∃ a c', c.tryRecv = some (a, c') ∧ c.waiting = a :: c'.waiting := by
  cases c with
  | mk waiting bounded =>
      cases waiting with
      | nil => exact .inl ⟨rfl, rfl⟩
      | cons a rest => exact .inr ⟨a, _, rfl, rfl⟩

end Channel

end Queues
