import Mathlib.Data.List.Perm.Subperm
import Mathlib.Data.List.Sort
import Mathlib.Data.Nat.Basic
import Mathlib.Order.Basic

/-!
# One stream over a queue and a cell

A producer numbers its items and splits them over two lanes.  Critical ones go
through a queue.  The others go through a cell that holds the newest one and is
overwritten.  A consumer takes from either lane.

`WellFormed` holds whatever the consumer does.  It gets the critical items in
order and the others in order.

`InOrder` says that it gets all of them in one order.  Taking from the queue
always keeps that.  Taking from the cell keeps it if the cell's item is taken in
turn (`CellInTurn`): after every critical item before it and before every one
after it.
-/

namespace Queues

variable {α : Type*}

/-- The queue, the cell, whether the cell's item is still to be taken, and what
was taken.  Every item carries its number. -/
structure TwoLane (α : Type*) where
  critical : List (Nat × α)
  latest : Option (Nat × α)
  unread : Bool
  returned : List (Nat × α)

namespace TwoLane

def empty : TwoLane α where
  critical := []
  latest := none
  unread := false
  returned := []

/-! ## Operations -/

/-- To the queue. -/
def sendCritical (l : TwoLane α) (x : Nat × α) : TwoLane α :=
  { l with critical := l.critical ++ [x] }

/-- To the cell, in place of what is there. -/
def sendLatest (l : TwoLane α) (x : Nat × α) : TwoLane α :=
  { l with latest := some x, unread := true }

/-- Take the front of the queue. -/
def recvCritical (l : TwoLane α) (x : Nat × α) (rest : List (Nat × α)) : TwoLane α :=
  { l with critical := rest, returned := l.returned ++ [x] }

/-- Take the item of the cell. -/
def recvLatest (l : TwoLane α) (x : Nat × α) : TwoLane α :=
  { l with unread := false, returned := l.returned ++ [x] }

/-! ## Well-formed lanes -/

/-- Items by their numbers. -/
def Before (x y : Nat × α) : Prop := x.1 < y.1

instance (x y : Nat × α) : Decidable (Before x y) := inferInstanceAs (Decidable (x.1 < y.1))

instance : Std.Antisymm (Before (α := α)) := ⟨fun _ _ h h' => absurd h' (lt_asymm h)⟩

section

variable (isCritical : α → Bool) (source : List (Nat × α)) (n : Nat) (l : TwoLane α)

/-- What the lanes hold comes from the source, with numbers below `n`, and each
lane keeps its order. -/
structure WellFormed : Prop where
  critical_mem : ∀ c ∈ l.critical, c ∈ source ∧ c.1 < n ∧ isCritical c.2 = true
  latest_mem : ∀ d ∈ l.latest, d ∈ source ∧ d.1 < n ∧ isCritical d.2 = false
  returned_mem : ∀ r ∈ l.returned, r ∈ source ∧ r.1 < n
  waiting : l.critical.Pairwise Before
  criticals : l.returned.Pairwise fun r s =>
    isCritical r.2 = true → isCritical s.2 = true → Before r s
  deltas : l.returned.Pairwise fun r s =>
    isCritical r.2 = false → isCritical s.2 = false → Before r s
  behind : ∀ r ∈ l.returned, isCritical r.2 = true → ∀ c ∈ l.critical, Before r c
  fresh : l.unread = true → ∀ d ∈ l.latest, ∀ r ∈ l.returned,
    isCritical r.2 = false → Before r d

/-- What was taken is in one order, and what waits in the queue comes after
it. -/
structure InOrder : Prop where
  returned : l.returned.Pairwise Before
  behind : ∀ r ∈ l.returned, ∀ c ∈ l.critical, Before r c

/-- The item of the cell comes before the critical items that wait and after
those that were taken. -/
def CellInTurn : Prop :=
  ∀ d ∈ l.latest, (∀ c ∈ l.critical, Before d c) ∧
    ∀ r ∈ l.returned, isCritical r.2 = true → Before r d

instance : Decidable (CellInTurn isCritical l) :=
  inferInstanceAs (Decidable (∀ d ∈ l.latest, (∀ c ∈ l.critical, Before d c) ∧
    ∀ r ∈ l.returned, isCritical r.2 = true → Before r d))

end

section

variable {isCritical : α → Bool} {source : List (Nat × α)} {n : Nat} {l : TwoLane α}

theorem WellFormed.empty : WellFormed isCritical source n (empty : TwoLane α) where
  critical_mem := by simp [TwoLane.empty]
  latest_mem := by simp [TwoLane.empty]
  returned_mem := by simp [TwoLane.empty]
  waiting := List.Pairwise.nil
  criticals := List.Pairwise.nil
  deltas := List.Pairwise.nil
  behind := by simp [TwoLane.empty]
  fresh := by simp [TwoLane.empty]

theorem InOrder.empty : InOrder (empty : TwoLane α) where
  returned := List.Pairwise.nil
  behind := by simp [TwoLane.empty]

/-- The source may grow before the lanes do. -/
theorem WellFormed.mono {source' : List (Nat × α)} {n' : Nat}
    (h : WellFormed isCritical source n l) (hsource : ∀ x ∈ source, x ∈ source') (hn : n ≤ n') :
    WellFormed isCritical source' n' l where
  critical_mem c hc := by
    obtain ⟨hmem, hlt, hcritical⟩ := h.critical_mem c hc
    exact ⟨hsource c hmem, hlt.trans_le hn, hcritical⟩
  latest_mem d hd := by
    obtain ⟨hmem, hlt, hdelta⟩ := h.latest_mem d hd
    exact ⟨hsource d hmem, hlt.trans_le hn, hdelta⟩
  returned_mem r hr := by
    obtain ⟨hmem, hlt⟩ := h.returned_mem r hr
    exact ⟨hsource r hmem, hlt.trans_le hn⟩
  waiting := h.waiting
  criticals := h.criticals
  deltas := h.deltas
  behind := h.behind
  fresh := h.fresh

theorem WellFormed.sendCritical (h : WellFormed isCritical source n l) {x : Nat × α}
    (hx : x ∈ source) (hn : n ≤ x.1) (hcritical : isCritical x.2 = true) :
    WellFormed isCritical source (x.1 + 1) (l.sendCritical x) := by
  have hgrown := h.mono (fun _ => id) (hn.trans (Nat.le_succ x.1))
  refine ⟨?_, hgrown.latest_mem, hgrown.returned_mem, ?_, h.criticals, h.deltas, ?_, h.fresh⟩
  · intro c hc
    rcases List.mem_append.mp hc with hc | hc
    · exact hgrown.critical_mem c hc
    · rw [List.mem_singleton.mp hc]
      exact ⟨hx, Nat.lt_succ_self _, hcritical⟩
  · refine List.pairwise_append.mpr ⟨h.waiting, List.pairwise_singleton _ _, ?_⟩
    intro c hc y hy
    rw [List.mem_singleton.mp hy]
    exact (h.critical_mem c hc).2.1.trans_le hn
  · intro r hr hkind c hc
    rcases List.mem_append.mp hc with hc | hc
    · exact h.behind r hr hkind c hc
    · rw [List.mem_singleton.mp hc]
      exact (h.returned_mem r hr).2.trans_le hn

theorem InOrder.sendCritical (h : InOrder l) (hl : WellFormed isCritical source n l)
    {x : Nat × α} (hn : n ≤ x.1) : InOrder (l.sendCritical x) where
  returned := h.returned
  behind r hr c hc := by
    rcases List.mem_append.mp hc with hc | hc
    · exact h.behind r hr c hc
    · rw [List.mem_singleton.mp hc]
      exact (hl.returned_mem r hr).2.trans_le hn

theorem WellFormed.sendLatest (h : WellFormed isCritical source n l) {x : Nat × α}
    (hx : x ∈ source) (hn : n ≤ x.1) (hdelta : isCritical x.2 = false) :
    WellFormed isCritical source (x.1 + 1) (l.sendLatest x) := by
  have hgrown := h.mono (fun _ => id) (hn.trans (Nat.le_succ x.1))
  refine ⟨hgrown.critical_mem, ?_, hgrown.returned_mem, h.waiting, h.criticals, h.deltas,
    h.behind, ?_⟩
  · intro d hd
    obtain rfl := Option.some.inj hd
    exact ⟨hx, Nat.lt_succ_self _, hdelta⟩
  · intro _ d hd r hr _
    obtain rfl := Option.some.inj hd
    exact (h.returned_mem r hr).2.trans_le hn

/-! ## Taking an item -/

/-- A relation between neighbours of a longer list. -/
theorem pairwise_concat {R : Nat × α → Nat × α → Prop} {l : List (Nat × α)} {x : Nat × α}
    (hl : l.Pairwise R) (hx : ∀ y ∈ l, R y x) : (l ++ [x]).Pairwise R := by
  refine List.pairwise_append.mpr ⟨hl, List.pairwise_singleton _ _, ?_⟩
  intro y hy z hz
  rw [List.mem_singleton.mp hz]
  exact hx y hy

theorem WellFormed.recvCritical (h : WellFormed isCritical source n l) {x : Nat × α}
    {rest : List (Nat × α)} (hcritical : l.critical = x :: rest) :
    WellFormed isCritical source n (l.recvCritical x rest) := by
  have hx : x ∈ l.critical := hcritical ▸ List.mem_cons_self
  obtain ⟨hmem, hlt, hkind⟩ := h.critical_mem x hx
  have hwaiting := h.waiting
  rw [hcritical, List.pairwise_cons] at hwaiting
  refine { critical_mem := ?critical_mem, latest_mem := h.latest_mem,
           returned_mem := ?returned_mem, waiting := hwaiting.2, criticals := ?criticals,
           deltas := ?deltas, behind := ?behind, fresh := ?fresh }
  case critical_mem =>
    intro c hc
    exact h.critical_mem c (hcritical ▸ List.mem_cons_of_mem _ hc)
  case returned_mem =>
    intro r hr
    rcases List.mem_append.mp hr with hr | hr
    · exact h.returned_mem r hr
    · rw [List.mem_singleton.mp hr]
      exact ⟨hmem, hlt⟩
  case criticals =>
    exact pairwise_concat h.criticals fun r hr hr' _ => h.behind r hr hr' x hx
  case deltas =>
    refine pairwise_concat h.deltas ?_
    intro r _ _ hdelta
    rw [hkind] at hdelta
    cases hdelta
  case behind =>
    intro r hr hr' c hc
    rcases List.mem_append.mp hr with hr | hr
    · exact h.behind r hr hr' c (hcritical ▸ List.mem_cons_of_mem _ hc)
    · rw [List.mem_singleton.mp hr]
      exact hwaiting.1 c hc
  case fresh =>
    intro hunread d hd r hr hdelta
    rcases List.mem_append.mp hr with hr | hr
    · exact h.fresh hunread d hd r hr hdelta
    · rw [List.mem_singleton.mp hr, hkind] at hdelta
      cases hdelta

theorem InOrder.recvCritical (h : InOrder l) (hl : WellFormed isCritical source n l)
    {x : Nat × α} {rest : List (Nat × α)} (hcritical : l.critical = x :: rest) :
    InOrder (l.recvCritical x rest) := by
  have hx : x ∈ l.critical := hcritical ▸ List.mem_cons_self
  have hwaiting := hl.waiting
  rw [hcritical, List.pairwise_cons] at hwaiting
  refine ⟨pairwise_concat h.returned fun r hr => h.behind r hr x hx, ?_⟩
  intro r hr c hc
  rcases List.mem_append.mp hr with hr | hr
  · exact h.behind r hr c (hcritical ▸ List.mem_cons_of_mem _ hc)
  · rw [List.mem_singleton.mp hr]
    exact hwaiting.1 c hc

theorem WellFormed.recvLatest (h : WellFormed isCritical source n l) {x : Nat × α}
    (hlatest : l.latest = some x) (hunread : l.unread = true) :
    WellFormed isCritical source n (l.recvLatest x) := by
  obtain ⟨hmem, hlt, hkind⟩ := h.latest_mem x hlatest
  refine ⟨h.critical_mem, h.latest_mem, ?_, h.waiting, ?_, ?_, ?_, nofun⟩
  · intro r hr
    rcases List.mem_append.mp hr with hr | hr
    · exact h.returned_mem r hr
    · rw [List.mem_singleton.mp hr]
      exact ⟨hmem, hlt⟩
  · refine pairwise_concat h.criticals ?_
    intro r _ _ hcritical
    rw [hkind] at hcritical
    cases hcritical
  · exact pairwise_concat h.deltas fun r hr hr' _ => h.fresh hunread x hlatest r hr hr'
  · intro r hr hr' c hc
    rcases List.mem_append.mp hr with hr | hr
    · exact h.behind r hr hr' c hc
    · rw [List.mem_singleton.mp hr, hkind] at hr'
      cases hr'

theorem InOrder.recvLatest (h : InOrder l) (hl : WellFormed isCritical source n l) {x : Nat × α}
    (hlatest : l.latest = some x) (hunread : l.unread = true)
    (hturn : CellInTurn isCritical l) : InOrder (l.recvLatest x) := by
  obtain ⟨hbefore, hafter⟩ := hturn x hlatest
  refine ⟨pairwise_concat h.returned ?_, ?_⟩
  · intro r hr
    cases hkind : isCritical r.2 with
    | true => exact hafter r hr hkind
    | false => exact hl.fresh hunread x hlatest r hr hkind
  · intro r hr c hc
    rcases List.mem_append.mp hr with hr | hr
    · exact h.behind r hr c hc
    · rw [List.mem_singleton.mp hr]
      exact hbefore c hc

/-- What was taken in order is a subsequence of the source. -/
theorem InOrder.sublist (h : InOrder l) (hl : WellFormed isCritical source n l)
    (hsource : source.Pairwise Before) : l.returned.Sublist source := by
  have hnodup : l.returned.Nodup := by
    refine h.returned.imp ?_
    rintro r s hlt rfl
    exact lt_irrefl _ hlt
  have hsub : l.returned ⊆ source := fun r hr => (hl.returned_mem r hr).1
  exact List.sublist_of_subperm_of_pairwise (List.Nodup.subperm hnodup hsub) h.returned hsource

end

end TwoLane

end Queues
