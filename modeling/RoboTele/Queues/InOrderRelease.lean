import Mathlib.Data.List.Basic
import Mathlib.Order.Lattice
import Mathlib.Order.MinMax

/-!
# Release in order

Items that come in any order and leave in the order of their numbers leave when they and all
before them have come.  `releaseTimes` are the times at which they leave, as running maxima of
the times at which they came.
-/

namespace InOrderRelease

variable {τ : Type*} [LinearOrder τ]

/-- When each item leaves, if none leaves before `t`. -/
def releaseTimes (t : τ) : List τ → List τ
  | [] => []
  | x :: xs => max x t :: releaseTimes (max x t) xs

/-- When the last item leaves. -/
def lastRelease (t : τ) : List τ → τ
  | [] => t
  | x :: xs => lastRelease (max x t) xs

theorem lastRelease_concat (x : τ) : ∀ (t : τ) (xs : List τ),
    lastRelease t (xs ++ [x]) = max x (lastRelease t xs)
  | _, [] => rfl
  | t, y :: xs => lastRelease_concat x (max y t) xs

/-- One more item leaves when it has come and the one before it has left. -/
theorem releaseTimes_concat (x : τ) : ∀ (t : τ) (xs : List τ),
    releaseTimes t (xs ++ [x]) = releaseTimes t xs ++ [max x (lastRelease t xs)]
  | _, [] => rfl
  | t, y :: xs => congrArg (max y t :: ·) (releaseTimes_concat x (max y t) xs)

theorem le_releaseTimes : ∀ (t : τ) (xs : List τ), ∀ y ∈ releaseTimes t xs, t ≤ y
  | t, x :: xs, y, hy => by
      rcases List.mem_cons.mp hy with rfl | hy
      · exact le_max_right x t
      · exact (le_max_right x t).trans (le_releaseTimes (max x t) xs y hy)

theorem releaseTimes_le : ∀ (t : τ) (xs : List τ), ∀ y ∈ releaseTimes t xs, y ≤ lastRelease t xs
  | t, x :: xs, y, hy => by
      rcases List.mem_cons.mp hy with rfl | hy
      · exact le_lastRelease (max x t) xs
      · exact releaseTimes_le (max x t) xs y hy
where
  le_lastRelease : ∀ (t : τ) (xs : List τ), t ≤ lastRelease t xs
    | _, [] => le_rfl
    | t, x :: xs => (le_max_right x t).trans (le_lastRelease (max x t) xs)

/-- None leaves before the one with the number before its own. -/
theorem pairwise_releaseTimes : ∀ (t : τ) (xs : List τ),
    (releaseTimes t xs).Pairwise (· ≤ ·)
  | _, [] => List.Pairwise.nil
  | t, x :: xs =>
      List.pairwise_cons.mpr ⟨le_releaseTimes (max x t) xs, pairwise_releaseTimes (max x t) xs⟩

end InOrderRelease
