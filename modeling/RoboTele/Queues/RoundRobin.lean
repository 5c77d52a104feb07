import Mathlib.Data.List.Basic
import Mathlib.Order.Defs.LinearOrder
import Mathlib.Tactic.Order

/-!
# Round robin

Several clients wait, in the order of their keys, and the next one to serve is the
first that waits behind the one served last, going around.  `Ahead last b a` says that
on the way around from `last` the key `b` comes before `a`.

Who waits stays ahead of the one that was served before it until it is served itself
(`Ahead.pick`), and nobody is served who comes behind another that waits
(`Ahead.not_pick`).
-/

namespace RoundRobin

variable {ι α : Type*} [LinearOrder α] {last a b c : α}

/-- Going around from `last`, `b` comes before `a`.  Once around comes `last` itself. -/
def Ahead (last b a : α) : Prop :=
  (last < b ∧ b < a) ∨ (last < b ∧ a ≤ last) ∨ (b < a ∧ a ≤ last)

/-- The first client behind the last one, else the first of all. -/
def pick (key : ι → α) (xs : List ι) : Option ι → Option ι
  | none => xs.head?
  | some last => (xs.find? fun x => key last < key x).or xs.head?

/-- From a client on everybody else comes before it. -/
theorem ahead_self (h : b ≠ a) : Ahead a b a := by
  rcases lt_or_gt_of_ne h with hlt | hgt
  · exact .inr (.inr ⟨hlt, le_rfl⟩)
  · exact .inr (.inl ⟨hgt, le_rfl⟩)

theorem Ahead.asymm (h : Ahead last b a) : ¬ Ahead last a b := by
  rintro (⟨h1, h2⟩ | ⟨h1, h2⟩ | ⟨h1, h2⟩) <;>
    rcases h with ⟨h3, h4⟩ | ⟨h3, h4⟩ | ⟨h3, h4⟩ <;> order

/-- The same seen from a client that comes before both. -/
theorem Ahead.next (h : Ahead last b a) (hc : Ahead last c b) : Ahead c b a := by
  rcases h with ⟨h1, h2⟩ | ⟨h1, h2⟩ | ⟨h1, h2⟩ <;>
    rcases hc with ⟨h3, h4⟩ | ⟨h3, h4⟩ | ⟨h3, h4⟩
  · exact .inl ⟨h4, h2⟩
  · order
  · order
  · exact .inr (.inl ⟨h4, by order⟩)
  · order
  · order
  · order
  · exact .inr (.inr ⟨h1, by order⟩)
  · exact .inl ⟨h3, h1⟩

section

variable {key : ι → α} {xs : List ι} {l x y z : ι}

theorem pick_eq_none_iff {last : Option ι} : pick key xs last = none ↔ xs = [] := by
  cases last with
  | none => exact List.head?_eq_none_iff
  | some last =>
      rw [pick, Option.or_eq_none_iff, List.head?_eq_none_iff]
      refine and_iff_right_of_imp ?_
      rintro rfl
      rfl

theorem mem_of_pick {last : Option ι} (h : pick key xs last = some x) : x ∈ xs := by
  cases last with
  | none => exact List.mem_of_head? h
  | some last =>
      rcases Option.or_eq_some_iff.mp h with hfind | ⟨-, hhead⟩
      · exact List.mem_of_find?_eq_some hfind
      · exact List.mem_of_head? hhead

/-- Who is served comes before everybody else that waits. -/
theorem ahead_of_pick (hsorted : xs.Pairwise fun x y => key x < key y)
    (h : pick key xs (some l) = some x) (hy : y ∈ xs) (hne : key y ≠ key x) :
    Ahead (key l) (key x) (key y) := by
  rcases Option.or_eq_some_iff.mp h with hfind | ⟨hnone, hhead⟩
  · obtain ⟨hx, before, behind, rfl, hbefore⟩ := List.find?_eq_some_iff_append.mp hfind
    have hlast := of_decide_eq_true hx
    rcases List.mem_append.mp hy with hy | hy
    · have hyl := hbefore y hy
      rw [Bool.not_eq_true', decide_eq_false_iff_not, not_lt] at hyl
      exact .inr (.inl ⟨hlast, hyl⟩)
    · rcases List.mem_cons.mp hy with rfl | hy
      · exact absurd rfl hne
      · have hlt := List.rel_of_pairwise_cons (List.pairwise_append.mp hsorted).2.1 hy
        exact .inl ⟨hlast, hlt⟩
  · -- everybody is at most the last one, and the first is served
    have hyl : key y ≤ key l := by
      have hnot := List.find?_eq_none.mp hnone y hy
      rwa [decide_eq_true_eq, not_lt] at hnot
    obtain ⟨rest, rfl⟩ := List.head?_eq_some_iff.mp hhead
    rcases List.mem_cons.mp hy with rfl | hy
    · exact absurd rfl hne
    · exact .inr (.inr ⟨List.rel_of_pairwise_cons hsorted hy, hyl⟩)

/-- Who waits ahead of `z` and is not served stays ahead of it. -/
theorem Ahead.pick (h : Ahead (key l) (key y) (key z))
    (hsorted : xs.Pairwise fun x y => key x < key y)
    (hpick : RoundRobin.pick key xs (some l) = some x) (hy : y ∈ xs) (hne : key y ≠ key x) :
    Ahead (key x) (key y) (key z) :=
  h.next (ahead_of_pick hsorted hpick hy hne)

/-- Nobody is served who has another waiting ahead of it. -/
theorem Ahead.not_pick (h : Ahead (key l) (key y) (key z))
    (hsorted : xs.Pairwise fun x y => key x < key y) (hy : y ∈ xs) (hne : key y ≠ key z) :
    RoundRobin.pick key xs (some l) ≠ some z :=
  fun hpick => h.asymm (ahead_of_pick hsorted hpick hy hne)

end

end RoundRobin
