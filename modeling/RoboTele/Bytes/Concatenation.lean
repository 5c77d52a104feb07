import Mathlib.Data.List.Basic

/-!
# Concatenations

A list of things is written as one list, one thing after the other.  The thing can be read
back if it is known where each ends: `size` says of a thing where it ends, and things of
one size are told apart by what is written (`Readable`).
-/

namespace Concatenation

variable {α β γ : Type*}

/-- Things of one size are written in one length, and each in its own way. -/
structure Readable (write : α → List β) (size : α → γ) : Prop where
  length : ∀ a b, size a = size b → (write a).length = (write b).length
  inj : ∀ a b, size a = size b → write a = write b → a = b

variable {write : α → List β} {size : α → γ}

/-- With the same sizes, the same list is written of the same things. -/
theorem Readable.flatMap_append_inj (h : Readable write size) {as bs : List α} {rest rest' : List β}
    (hsizes : as.map size = bs.map size)
    (heq : as.flatMap write ++ rest = bs.flatMap write ++ rest') : as = bs ∧ rest = rest' := by
  induction as generalizing bs with
  | nil =>
      obtain rfl := List.map_eq_nil_iff.mp hsizes.symm
      exact ⟨rfl, heq⟩
  | cons a as ih =>
      cases bs with
      | nil => exact absurd hsizes (List.cons_ne_nil _ _)
      | cons b bs =>
          obtain ⟨hsize, hsizes⟩ := List.cons.inj hsizes
          rw [List.flatMap_cons, List.flatMap_cons, List.append_assoc, List.append_assoc] at heq
          obtain ⟨hwrite, heq⟩ := List.append_inj heq (h.length a b hsize)
          obtain ⟨rfl, hrest⟩ := ih hsizes heq
          exact ⟨congrArg (· :: as) (h.inj a b hsize hwrite), hrest⟩

/-- What comes before the first separator and what comes after it are read back. -/
theorem append_separator_inj {a : α} {as bs rest rest' : List α} (has : a ∉ as) (hbs : a ∉ bs)
    (heq : as ++ a :: rest = bs ++ a :: rest') : as = bs ∧ rest = rest' := by
  induction as generalizing bs with
  | nil =>
      cases bs with
      | nil => exact ⟨rfl, (List.cons.inj heq).2⟩
      | cons b bs => exact absurd ((List.cons.inj heq).1 ▸ List.mem_cons_self) hbs
  | cons x as ih =>
      cases bs with
      | nil => exact absurd ((List.cons.inj heq).1 ▸ List.mem_cons_self) has
      | cons b bs =>
          obtain ⟨hhead, htail⟩ := List.cons.inj heq
          obtain ⟨has, hrest⟩ := ih (fun h => has (List.mem_cons_of_mem x h))
            (fun h => hbs (List.mem_cons_of_mem b h)) htail
          exact ⟨congrArg₂ _ hhead has, hrest⟩

end Concatenation
