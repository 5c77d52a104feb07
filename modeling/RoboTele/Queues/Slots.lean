import Mathlib.Data.List.Basic
import Mathlib.Data.List.ReduceOption

/-!
# Numbered pieces that arrive in any order

A reader that waits for numbered pieces keeps a list with one slot per piece.
A piece fills its slot if the slot is empty, so a slot keeps the first piece
that arrives for it (`slot_fill`, `firstAt`).

The slots need not all be there from the start.  `grow` adds empty ones, and a
slot past the end reads as an empty one.

A list of slots is full when every slot of it holds a piece.  `eq_map_some`
says which list a full one holds.
-/

namespace Slots

variable {α : Type*}

/-- What slot `i` holds. -/
def slot (s : List (Option α)) (i : Nat) : Option α := s[i]?.join

/-- At least `n` slots. -/
def grow (s : List (Option α)) (n : Nat) : List (Option α) :=
  s ++ List.replicate (n - s.length) none

/-- Fill slot `i` if it is empty. -/
def fill (s : List (Option α)) (i : Nat) (a : α) : List (Option α) :=
  if (slot s i).isSome then s else s.set i (some a)

/-- How many slots hold a piece. -/
def filled (s : List (Option α)) : Nat := s.countP Option.isSome

/-- Every slot holds a piece. -/
def full (s : List (Option α)) : Bool := s.all Option.isSome

@[simp] theorem slot_nil (i : Nat) : slot ([] : List (Option α)) i = none := rfl

@[simp] theorem filled_nil : filled ([] : List (Option α)) = 0 := rfl

theorem slot_of_le {s : List (Option α)} {i : Nat} (h : s.length ≤ i) : slot s i = none := by
  rw [slot, List.getElem?_eq_none h]
  rfl

theorem slot_eq_getElem {s : List (Option α)} {i : Nat} (h : i < s.length) : slot s i = s[i] := by
  rw [slot, List.getElem?_eq_getElem h]
  rfl

theorem slot_concat (s : List (Option α)) (o : Option α) (i : Nat) :
    slot (s ++ [o]) i = if i = s.length then o else slot s i := by
  split_ifs with hi
  · rw [hi, slot, List.getElem?_concat_length]
    rfl
  · rcases Nat.lt_or_ge i s.length with hlt | hge
    · rw [slot, List.getElem?_append_left hlt, slot]
    · rw [slot_of_le hge, slot_of_le]
      rw [List.length_append, List.length_singleton]
      omega

/-! ## Growing -/

@[simp] theorem length_grow (s : List (Option α)) (n : Nat) :
    (grow s n).length = max s.length n := by
  rw [grow, List.length_append, List.length_replicate]
  omega

@[simp] theorem slot_grow (s : List (Option α)) (n i : Nat) : slot (grow s n) i = slot s i := by
  by_cases h : i < s.length
  · rw [slot, grow, List.getElem?_append_left h, slot]
  · rw [slot_of_le (Nat.not_lt.mp h), slot, grow, List.getElem?_append_right (Nat.not_lt.mp h),
      List.getElem?_replicate]
    split_ifs <;> rfl

@[simp] theorem filled_grow (s : List (Option α)) (n : Nat) : filled (grow s n) = filled s := by
  rw [filled, grow, List.countP_append, List.countP_replicate, filled]
  simp

/-! ## Filling -/

@[simp] theorem length_fill (s : List (Option α)) (i : Nat) (a : α) :
    (fill s i a).length = s.length := by
  rw [fill]
  split_ifs
  · rfl
  · exact List.length_set

/-- A filled slot stays as it is. -/
theorem slot_fill {s : List (Option α)} {i : Nat} (h : i < s.length) (a : α) (j : Nat) :
    slot (fill s i a) j = (slot s j).or (if i = j then some a else none) := by
  rw [fill]
  by_cases hfilled : (slot s i).isSome
  · rw [if_pos hfilled]
    by_cases hij : i = j
    · subst hij
      obtain ⟨b, hb⟩ := Option.isSome_iff_exists.mp hfilled
      rw [hb, Option.some_or]
    · rw [if_neg hij, Option.or_none]
  · rw [if_neg hfilled]
    rw [Option.not_isSome_iff_eq_none] at hfilled
    by_cases hij : i = j
    · subst hij
      rw [hfilled, if_pos rfl, slot, List.getElem?_set_self h]
      rfl
    · rw [if_neg hij, Option.or_none, slot, List.getElem?_set_ne hij, slot]

/-- One more slot is filled unless this one was. -/
theorem filled_fill {s : List (Option α)} {i : Nat} (h : i < s.length) (a : α) :
    filled (fill s i a) = if (slot s i).isSome then filled s else filled s + 1 := by
  rw [fill]
  by_cases hfilled : (slot s i).isSome
  · rw [if_pos hfilled, if_pos hfilled]
  · rw [if_neg hfilled, if_neg hfilled, filled, List.countP_set h, filled]
    rw [slot_eq_getElem h] at hfilled
    rw [if_neg hfilled]
    simp

/-! ## Full lists -/

theorem full_iff {s : List (Option α)} :
    full s = true ↔ ∀ i < s.length, (slot s i).isSome := by
  rw [full, List.all_eq_true]
  constructor
  · intro h i hi
    rw [slot_eq_getElem hi]
    exact h _ (List.getElem_mem hi)
  · intro h o ho
    obtain ⟨i, hi, rfl⟩ := List.getElem_of_mem ho
    rw [← slot_eq_getElem hi]
    exact h i hi

theorem filled_of_full {s : List (Option α)} (h : full s = true) : filled s = s.length :=
  List.countP_eq_length.mpr (List.all_eq_true.mp h)

/-- Read slot by slot, a list of slots is itself. -/
theorem map_slot_range (s : List (Option α)) : (List.range s.length).map (slot s) = s := by
  refine List.ext_getElem (by simp) ?_
  intro i hi hi'
  rw [List.getElem_map, List.getElem_range, slot_eq_getElem hi']

/-- The pieces of a full list, slot by slot. -/
theorem map_some_reduceOption :
    ∀ {s : List (Option α)}, full s = true → s.reduceOption.map some = s
  | [], _ => rfl
  | none :: s, h => by simp [full] at h
  | some a :: s, h => by
      rw [List.reduceOption_cons_of_some, List.map_cons, map_some_reduceOption (s := s)]
      simpa [full] using h

/-- Slots that hold the members of a list hold that list. -/
theorem eq_map_some {s : List (Option α)} {l : List α} (hlen : s.length = l.length)
    (h : ∀ i < s.length, slot s i = l[i]?) : s = l.map some := by
  apply List.ext_getElem?
  intro i
  by_cases hi : i < s.length
  · have hslot := h i hi
    rw [slot_eq_getElem hi] at hslot
    rw [List.getElem?_eq_getElem hi, hslot, List.getElem?_map,
      List.getElem?_eq_getElem (hlen ▸ hi)]
    rfl
  · rw [List.getElem?_eq_none (Nat.not_lt.mp hi), List.getElem?_map,
      List.getElem?_eq_none (hlen ▸ Nat.not_lt.mp hi)]
    rfl

@[simp] theorem reduceOption_map_some (l : List α) : (l.map some).reduceOption = l := by
  rw [List.reduceOption, List.filterMap_map]
  exact List.filterMap_some

/-- The pieces of the slots that a predicate says are filled. -/
theorem reduceOption_map_ite {β : Type*} (p : β → Prop) [DecidablePred p] (g : β → α) :
    ∀ l : List β, (l.map fun b => if p b then some (g b) else none).reduceOption =
      (l.filter p).map g
  | [] => rfl
  | b :: l => by
      have ih := reduceOption_map_ite p g l
      by_cases hb : p b
      · rw [List.map_cons, if_pos hb, List.reduceOption_cons_of_some, ih, List.filter_cons,
          decide_eq_true hb, if_pos rfl, List.map_cons]
      · rw [List.map_cons, if_neg hb, List.reduceOption_cons_of_none, ih, List.filter_cons,
          decide_eq_false hb, if_neg Bool.false_ne_true]

/-! ## The first piece for a slot -/

/-- The first piece that arrived for slot `i`. -/
def firstAt (arrived : List (Nat × α)) (i : Nat) : Option α :=
  (arrived.find? fun p => p.1 = i).map Prod.snd

@[simp] theorem firstAt_nil (i : Nat) : firstAt ([] : List (Nat × α)) i = none := rfl

@[simp] theorem firstAt_concat (arrived : List (Nat × α)) (i : Nat) (a : α) (j : Nat) :
    firstAt (arrived ++ [(i, a)]) j = (firstAt arrived j).or (if i = j then some a else none) := by
  rw [firstAt, List.find?_append, Option.map_or, firstAt]
  congr 1
  by_cases h : i = j
  · simp [h]
  · simp [h]

theorem firstAt_isSome_iff {arrived : List (Nat × α)} {i : Nat} :
    (firstAt arrived i).isSome ↔ ∃ p ∈ arrived, p.1 = i := by
  simp [firstAt]

theorem mem_of_firstAt {arrived : List (Nat × α)} {i : Nat} {a : α}
    (h : firstAt arrived i = some a) : (i, a) ∈ arrived := by
  rw [firstAt, Option.map_eq_some_iff] at h
  obtain ⟨⟨j, b⟩, hfind, rfl⟩ := h
  have hj : j = i := by simpa using List.find?_some hfind
  subst hj
  exact List.mem_of_find?_eq_some hfind

end Slots
