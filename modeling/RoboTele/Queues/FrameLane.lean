import Mathlib.Algebra.BigOperators.Group.List.Basic
import Mathlib.Algebra.Order.Ring.Nat
import Mathlib.Data.List.Basic
import Mathlib.Data.List.GetD
import Mathlib.Data.List.Perm.Lattice
import Mathlib.Data.List.Range

/-!
# Frames sent in slices

A producer pushes frames, each a number of slices, and a consumer takes one slice at a
time.  The frame being sent is `current`, with the number of its slices that are gone.
A newer frame replaces it, or waits for it if it has started and is to be finished; at
most one frame waits.  `left` are the frames that are done with, in the order they left
and with the number of slices that were sent of each.

Frames are known by their place among the pushed ones.  What was sent follows from the
frames that left (`popped`), a pop adds the next slice to it (`popped_pop`), and a push
adds nothing (`popped_push`).
-/

namespace Queues

/-- The frames pushed so far, where the consumer is, and how far the others got. -/
structure FrameLane where
  lengths : List Nat
  current : Option (Nat × Nat)
  waiting : Option Nat
  left : List (Nat × Nat)
deriving DecidableEq

namespace FrameLane

def empty : FrameLane where
  lengths := []
  current := none
  waiting := none
  left := []

/-- The slices of the `n`-th frame. -/
def len (l : FrameLane) (n : Nat) : Nat := l.lengths.getD n 0

/-- The new frame is the one being sent, and the old one leaves. -/
def restart (l : FrameLane) (m : Nat) : FrameLane :=
  { l with
    lengths := l.lengths ++ [m]
    current := some (l.lengths.length, 0)
    left := l.left ++ l.current.toList }

/-- The new frame waits, and the one that waited leaves. -/
def wait (l : FrameLane) (m : Nat) : FrameLane :=
  { l with
    lengths := l.lengths ++ [m]
    waiting := some l.lengths.length
    left := l.left ++ (l.waiting.map fun w => (w, 0)).toList }

/-- A frame of `m` slices is pushed.  With `finish` it waits for one that has started. -/
def push (l : FrameLane) (finish : Bool) (m : Nat) : FrameLane :=
  if finish ∧ ∃ p ∈ l.current, 0 < p.2 then l.wait m else l.restart m

/-- A slice is taken.  With the last one the frame leaves, and the waiting one moves up. -/
def pop (l : FrameLane) : FrameLane :=
  match l.current with
  | none => l
  | some (n, k) =>
      if k + 1 < l.len n then { l with current := some (n, k + 1) }
      else
        { l with
          current := l.waiting.map fun w => (w, 0)
          waiting := none
          left := l.left ++ [(n, k + 1)] }

/-- The first slices of a frame, each with the number of its frame. -/
def block (p : Nat × Nat) : List (Nat × Nat) := (List.range p.2).map (Prod.mk p.1)

/-- The slices taken so far, in order. -/
def popped (l : FrameLane) : List (Nat × Nat) :=
  l.left.flatMap block ++ l.current.toList.flatMap block

/-- The frames that have not left. -/
def held (l : FrameLane) : List Nat := (l.current.map Prod.fst).toList ++ l.waiting.toList

/-- The frames that left with a slice sent. -/
def sent (l : FrameLane) : List Nat := (l.left.filter fun p => 0 < p.2).map Prod.fst

/-- The frames that left with a slice unsent. -/
def replaced (l : FrameLane) : List Nat := (l.left.filter fun p => p.2 < l.len p.1).map Prod.fst

/-- The slices of these. -/
def dropped (l : FrameLane) : Nat := (l.left.map fun p => l.len p.1 - p.2).sum

/-- The slices that are still to be taken. -/
def queued (l : FrameLane) : Nat :=
  (l.current.map fun p => l.len p.1 - p.2).getD 0 + (l.waiting.map l.len).getD 0

/-- Every frame is held or has left, once, and those that gave slices did so in order. -/
structure Inv (l : FrameLane) (finish : Bool) : Prop where
  positive : ∀ m ∈ l.lengths, 0 < m
  begun : ∀ p ∈ l.current, p.2 < l.len p.1
  waits : ∀ w ∈ l.waiting,
    finish = true ∧ w + 1 = l.lengths.length ∧ ∃ p ∈ l.current, 0 < p.2
  perm : (l.left.map Prod.fst ++ l.held).Perm (List.range l.lengths.length)
  sent_le : ∀ p ∈ l.left, p.2 ≤ l.len p.1
  whole : finish = true → ∀ p ∈ l.left, p.2 = 0 ∨ p.2 = l.len p.1
  order : (l.sent ++ l.held).Pairwise (· < ·)

variable {l : FrameLane} {finish : Bool} {m n : Nat}

theorem Inv.empty (finish : Bool) : (empty).Inv finish where
  positive := nofun
  begun := nofun
  waits := nofun
  perm := .refl []
  sent_le := nofun
  whole _ := nofun
  order := .nil

/-! ## What was taken -/

theorem block_succ (n k : Nat) : block (n, k + 1) = block (n, k) ++ [(n, k)] := by
  rw [block, List.range_succ, List.map_append]
  rfl

@[simp] theorem block_zero (n : Nat) : block (n, 0) = [] := rfl

theorem popped_restart (l : FrameLane) (m : Nat) : (l.restart m).popped = l.popped := by
  simp [popped, restart]

theorem popped_wait (l : FrameLane) (m : Nat) : (l.wait m).popped = l.popped := by
  cases hwaiting : l.waiting <;> simp [popped, wait, hwaiting]

theorem popped_push (l : FrameLane) (finish : Bool) (m : Nat) :
    (l.push finish m).popped = l.popped := by
  rw [push]
  split_ifs
  · exact l.popped_wait m
  · exact l.popped_restart m

/-- A pop takes the next slice of the current frame. -/
theorem popped_pop {p : Nat × Nat} (h : l.current = some p) :
    l.pop.popped = l.popped ++ [p] := by
  obtain ⟨n, k⟩ := p
  rw [pop, h]
  dsimp only
  split_ifs
  · simp [popped, h, block_succ]
  · cases hwaiting : l.waiting <;> simp [popped, h, block_succ]

/-! ## What a step keeps -/

theorem Inv.lt (h : l.Inv finish) (hn : n ∈ l.left.map Prod.fst ++ l.held) :
    n < l.lengths.length :=
  List.mem_range.mp (h.perm.subset hn)

theorem Inv.lt_of_left (h : l.Inv finish) {p : Nat × Nat} (hp : p ∈ l.left) :
    p.1 < l.lengths.length :=
  h.lt (List.mem_append_left _ (List.mem_map_of_mem hp))

theorem Inv.lt_of_current (h : l.Inv finish) {p : Nat × Nat} (hp : l.current = some p) :
    p.1 < l.lengths.length :=
  h.lt (List.mem_append_right _ (by simp [held, hp]))

theorem Inv.lt_of_waiting (h : l.Inv finish) {w : Nat} (hw : l.waiting = some w) :
    w < l.lengths.length :=
  h.lt (List.mem_append_right _ (List.mem_append_right _ (Option.mem_toList.mpr hw)))

theorem Inv.len_pos (h : l.Inv finish) (hn : n < l.lengths.length) : 0 < l.len n := by
  rw [len, List.getD_eq_getElem _ _ hn]
  exact h.positive _ (List.getElem_mem hn)

/-- A push does not change the frames before it. -/
theorem len_concat {l' : FrameLane} (hl' : l'.lengths = l.lengths ++ [m])
    (hn : n < l.lengths.length) : l'.len n = l.len n := by
  rw [len, len, hl', List.getD_append _ _ _ _ hn]

theorem positive_concat (h : l.Inv finish) (hm : 0 < m) : ∀ m' ∈ l.lengths ++ [m], 0 < m' := by
  intro m' hm'
  rcases List.mem_append.mp hm' with hm' | hm'
  · exact h.positive m' hm'
  · rwa [List.mem_singleton.mp hm']

/-- What was sent of the frames that left, when `ps` leave after them. -/
theorem Inv.left_concat (h : l.Inv finish) (l' : FrameLane) {ps : List (Nat × Nat)}
    (hlen : ∀ n < l.lengths.length, l'.len n = l.len n) (hleft : l'.left = l.left ++ ps)
    (hlt : ∀ p ∈ ps, p.1 < l.lengths.length) (hle : ∀ p ∈ ps, p.2 ≤ l.len p.1)
    (hwhole : finish = true → ∀ p ∈ ps, p.2 = 0 ∨ p.2 = l.len p.1) :
    (∀ p ∈ l'.left, p.2 ≤ l'.len p.1) ∧
      (finish = true → ∀ p ∈ l'.left, p.2 = 0 ∨ p.2 = l'.len p.1) := by
  have hcases : ∀ p ∈ l'.left, (p ∈ l.left ∨ p ∈ ps) ∧ l'.len p.1 = l.len p.1 := by
    intro p hp
    rw [hleft] at hp
    rcases List.mem_append.mp hp with hp | hp
    · exact ⟨.inl hp, hlen _ (h.lt_of_left hp)⟩
    · exact ⟨.inr hp, hlen _ (hlt p hp)⟩
  constructor
  · intro p hp
    obtain ⟨hp, heq⟩ := hcases p hp
    rw [heq]
    exact hp.elim (h.sent_le p) (hle p)
  · intro hfinish p hp
    obtain ⟨hp, heq⟩ := hcases p hp
    rw [heq]
    exact hp.elim (h.whole hfinish p) (hwhole hfinish p)

/-- The newest frame is behind all the others. -/
theorem Inv.pairwise_concat (h : l.Inv finish) {ns : List Nat}
    (hns : ns.Sublist (l.sent ++ l.held)) :
    (ns ++ [l.lengths.length]).Pairwise (· < ·) := by
  refine List.pairwise_append.mpr ⟨h.order.sublist hns, List.pairwise_singleton _ _, ?_⟩
  intro n hn n' hn'
  rw [List.mem_singleton.mp hn']
  rcases List.mem_append.mp (hns.subset hn) with hsent | hheld
  · obtain ⟨p, hp, rfl⟩ := List.mem_map.mp hsent
    exact h.lt_of_left (List.mem_filter.mp hp).1
  · exact h.lt (List.mem_append_right _ hheld)

/-- A frame that starts at once keeps the invariant. -/
theorem Inv.restart (h : l.Inv finish) (hm : 0 < m)
    (hfresh : finish = true → ∀ p ∈ l.current, p.2 = 0) : (l.restart m).Inv finish := by
  have hwaiting : l.waiting = none := by
    rw [Option.eq_none_iff_forall_not_mem]
    intro w hw
    obtain ⟨hfinish, -, p, hp, hpos⟩ := h.waits w hw
    exact absurd (hfresh hfinish p hp) hpos.ne'
  have hlen : ∀ {n}, n < l.lengths.length → (l.restart m).len n = l.len n :=
    fun hn => len_concat rfl hn
  have hheld : l.held = (l.current.map Prod.fst).toList := by
    rw [held, hwaiting, Option.toList_none, List.append_nil]
  have hleft := h.left_concat (l.restart m) (fun n hn => hlen hn) rfl
    (fun p hp => h.lt_of_current (Option.mem_toList.mp hp))
    (fun p hp => (h.begun p (Option.mem_toList.mp hp)).le)
    (fun hfinish p hp => .inl (hfresh hfinish p (Option.mem_toList.mp hp)))
  refine ⟨positive_concat h hm, ?_, ?_, ?_, hleft.1, hleft.2, ?_⟩
  · rintro p hp
    obtain rfl := Option.some.inj hp
    rw [len, FrameLane.restart]
    simpa using hm
  · intro w hw
    exact absurd (hwaiting.symm.trans hw) (Option.some_ne_none w).symm
  · have hperm := h.perm.append_right [l.lengths.length]
    rw [hheld] at hperm
    simpa [FrameLane.restart, held, hwaiting, List.range_succ, Option.toList_map] using hperm
  · have hsub : (l.restart m).sent.Sublist (l.sent ++ l.held) := by
      rw [hheld, sent, sent, FrameLane.restart, List.filter_append, List.map_append,
        Option.toList_map]
      exact (List.Sublist.refl _).append (List.filter_sublist.map _)
    have hnew : (l.restart m).held = [l.lengths.length] := by
      rw [held, FrameLane.restart, hwaiting]
      rfl
    rw [hnew]
    exact h.pairwise_concat hsub

/-- So does one that waits for the current frame. -/
theorem Inv.wait (h : l.Inv true) (hm : 0 < m) {p : Nat × Nat} (hp : l.current = some p)
    (hpos : 0 < p.2) : (l.wait m).Inv true := by
  have hlen : ∀ {n}, n < l.lengths.length → (l.wait m).len n = l.len n :=
    fun hn => len_concat rfl hn
  have hheld : l.held = p.1 :: l.waiting.toList := by
    rw [held, hp]
    rfl
  have hnew : (l.wait m).held = [p.1, l.lengths.length] := by
    rw [held, FrameLane.wait, hp]
    rfl
  have hunsent : ∀ p' ∈ (l.waiting.map fun w => (w, 0)).toList,
      p'.1 < l.lengths.length ∧ p'.2 = 0 := by
    intro p' hp'
    obtain ⟨w, hw, rfl⟩ := Option.map_eq_some_iff.mp (Option.mem_toList.mp hp')
    exact ⟨h.lt_of_waiting hw, rfl⟩
  have hleft := h.left_concat (l.wait m) (fun n hn => hlen hn) rfl
    (fun p' hp' => (hunsent p' hp').1)
    (fun p' hp' => (hunsent p' hp').2.le.trans (Nat.zero_le _))
    (fun _ p' hp' => .inl (hunsent p' hp').2)
  refine ⟨positive_concat h hm, ?_, ?_, ?_, hleft.1, hleft.2, ?_⟩
  · intro p' hp'
    rw [hlen (h.lt_of_current hp')]
    exact h.begun p' hp'
  · intro w hw
    obtain rfl := Option.some.inj hw
    refine ⟨rfl, ?_, p, hp, hpos⟩
    rw [FrameLane.wait, List.length_append, List.length_singleton]
  · have hperm := h.perm.append_right [l.lengths.length]
    rw [hheld] at hperm
    rw [hnew, FrameLane.wait, List.map_append, List.length_append, List.length_singleton,
      List.range_succ]
    refine List.Perm.trans ?_ hperm
    cases l.waiting with
    | none => simp
    | some w =>
        simp only [Option.map_some, Option.toList_some, List.map_singleton, List.append_assoc]
        exact (List.Perm.swap _ _ _).append_left _
  · have hsent : (l.wait m).sent = l.sent := by
      rw [sent, FrameLane.wait, List.filter_append]
      cases l.waiting <;> simp [sent]
    have hsub : (l.sent ++ [p.1]).Sublist (l.sent ++ l.held) := by
      rw [hheld]
      exact (List.Sublist.refl _).append (List.sublist_append_left [p.1] _)
    have hpairwise := h.pairwise_concat hsub
    rw [hsent, hnew]
    rwa [List.append_assoc] at hpairwise

/-- What a push of a frame with slices keeps. -/
theorem Inv.push (h : l.Inv finish) (hm : 0 < m) : (l.push finish m).Inv finish := by
  rw [FrameLane.push]
  split_ifs with hwait
  · obtain ⟨rfl, p, hp, hpos⟩ := hwait
    exact h.wait hm hp hpos
  · refine h.restart hm fun hfinish p hp => ?_
    by_contra hne
    exact hwait ⟨hfinish, p, hp, Nat.pos_of_ne_zero hne⟩

/-- What a pop keeps. -/
theorem Inv.pop (h : l.Inv finish) : l.pop.Inv finish := by
  rw [FrameLane.pop]
  cases hcurrent : l.current with
  | none => exact h
  | some p =>
      obtain ⟨n, k⟩ := p
      have hheld : l.held = n :: l.waiting.toList := by
        rw [held, hcurrent]
        rfl
      dsimp only
      split_ifs with hmore
      · refine ⟨h.positive, ?_, ?_, ?_, h.sent_le, h.whole, ?_⟩
        · intro p hp
          obtain rfl := Option.some.inj hp
          exact hmore
        · intro w hw
          obtain ⟨hfinish, hnewest, -⟩ := h.waits w hw
          exact ⟨hfinish, hnewest, _, rfl, Nat.succ_pos k⟩
        · have hperm := h.perm
          rwa [hheld] at hperm
        · have horder := h.order
          rwa [hheld] at horder
      · -- the frame is sent
        have hlen : k + 1 = l.len n :=
          le_antisymm (h.begun _ hcurrent) (not_lt.mp hmore)
        have hn : n < l.lengths.length := h.lt_of_current hcurrent
        have hleft := h.left_concat { l with left := l.left ++ [(n, k + 1)] } (fun _ _ => rfl) rfl
          (List.forall_mem_singleton.mpr hn) (List.forall_mem_singleton.mpr hlen.le)
          (fun _ => List.forall_mem_singleton.mpr (.inr hlen))
        refine ⟨h.positive, ?_, nofun, ?_, hleft.1, hleft.2, ?_⟩
        · intro p hp
          obtain ⟨w, hw, rfl⟩ := Option.map_eq_some_iff.mp hp
          exact h.len_pos (h.lt_of_waiting hw)
        · have hperm := h.perm
          rw [hheld] at hperm
          cases hwaiting : l.waiting <;> simpa [held, hwaiting] using hperm
        · have horder := h.order
          rw [hheld] at horder
          cases hwaiting : l.waiting <;> simpa [held, sent, hwaiting] using horder

/-! ## The order of what was taken -/

theorem mem_block {p s : Nat × Nat} : s ∈ block p ↔ s.1 = p.1 ∧ s.2 < p.2 := by
  rw [block, List.mem_map]
  constructor
  · rintro ⟨k, hk, rfl⟩
    exact ⟨rfl, List.mem_range.mp hk⟩
  · rintro ⟨hframe, hindex⟩
    exact ⟨s.2, List.mem_range.mpr hindex, Prod.ext hframe.symm rfl⟩

/-- The slices that were popped of each frame. -/
theorem mem_popped {s : Nat × Nat} :
    s ∈ l.popped ↔ ∃ p, (p ∈ l.left ∨ l.current = some p) ∧ s.1 = p.1 ∧ s.2 < p.2 := by
  simp only [popped, List.mem_append, List.mem_flatMap, Option.mem_toList, mem_block,
    or_and_right, exists_or]

/-- Frames that left without a slice sent gave nothing. -/
theorem flatMap_left (left : List (Nat × Nat)) :
    left.flatMap block = (left.filter fun p => 0 < p.2).flatMap block := by
  induction left with
  | nil => rfl
  | cons p left ih =>
      rw [List.flatMap_cons, List.filter_cons, ih]
      split_ifs with hpos
      · rw [List.flatMap_cons]
      · have hzero : p.2 = 0 := by simpa using hpos
        rw [block, hzero, List.range_zero, List.map_nil, List.nil_append]

/-- A frame that started is sent whole before the next one starts. -/
theorem Inv.popped_whole (h : l.Inv true) :
    l.popped = l.sent.flatMap (fun n => block (n, l.len n)) ++ l.current.toList.flatMap block := by
  rw [popped, flatMap_left, sent, List.flatMap_map]
  refine congrArg (· ++ _) (List.flatMap_congr fun p hp => ?_)
  obtain ⟨hmem, hpos⟩ := List.mem_filter.mp hp
  have hlen := (h.whole rfl p hmem).resolve_left (Nat.ne_of_gt (of_decide_eq_true hpos))
  rw [← hlen]

/-- No slice comes before one of an older frame. -/
theorem Inv.popped_ordered (h : l.Inv finish) : l.popped.Pairwise fun s t => s.1 ≤ t.1 := by
  have hfst : ((l.left.filter fun p => 0 < p.2) ++ l.current.toList).Pairwise
      fun p p' => p.1 < p'.1 := by
    rw [← List.pairwise_map, List.map_append, ← Option.toList_map]
    refine h.order.sublist ((List.Sublist.refl _).append ?_)
    exact List.sublist_append_left _ _
  rw [popped, flatMap_left, ← List.flatMap_append, List.pairwise_flatMap]
  constructor
  · intro p _
    refine List.pairwise_of_forall_mem_list fun s hs t ht => ?_
    rw [(mem_block.mp hs).1, (mem_block.mp ht).1]
  · refine hfst.imp fun hlt s hs t ht => ?_
    rw [(mem_block.mp hs).1, (mem_block.mp ht).1]
    exact hlt.le

/-! ## What became of every frame -/

theorem Inv.nodup (h : l.Inv finish) : (l.left.map Prod.fst ++ l.held).Nodup :=
  h.perm.nodup_iff.mpr List.nodup_range

theorem Inv.eq_of_left (h : l.Inv finish) {p p' : Nat × Nat} (hp : p ∈ l.left) (hp' : p' ∈ l.left)
    (heq : p.1 = p'.1) : p = p' :=
  List.inj_on_of_nodup_map (List.nodup_append.mp h.nodup).1 hp hp' heq

theorem Inv.nodup_replaced (h : l.Inv finish) : l.replaced.Nodup :=
  (List.nodup_append.mp h.nodup).1.sublist (List.filter_sublist.map _)

/-- A frame that has left is not held. -/
theorem Inv.not_held_of_left (h : l.Inv finish) {p : Nat × Nat} (hp : p ∈ l.left) :
    p.1 ∉ l.held :=
  fun hheld => (List.nodup_append.mp h.nodup).2.2 _ (List.mem_map_of_mem hp) _ hheld rfl

/-- With `finish` a frame that is replaced has given nothing. -/
theorem Inv.not_popped_of_replaced (h : l.Inv true) (hn : n ∈ l.replaced) :
    ∀ s ∈ l.popped, s.1 ≠ n := by
  obtain ⟨p, hp, rfl⟩ := List.mem_map.mp hn
  obtain ⟨hleft, hlt⟩ := List.mem_filter.mp hp
  intro s hs hframe
  obtain ⟨p', hleft' | hcurrent, hframe', hindex⟩ := mem_popped.mp hs
  · obtain rfl := h.eq_of_left hleft hleft' (hframe.symm.trans hframe')
    rcases h.whole rfl p hleft with hzero | hwhole
    · omega
    · exact absurd hwhole (Nat.ne_of_lt (of_decide_eq_true hlt))
  · refine h.not_held_of_left hleft (List.mem_append_left _ ?_)
    rw [hcurrent]
    exact List.mem_singleton.mpr (hframe.symm.trans hframe')

/-- The replaced frames are those that neither are held nor had their last slice taken. -/
theorem Inv.mem_replaced_iff (h : l.Inv finish) :
    n ∈ l.replaced ↔ n < l.lengths.length ∧ n ∉ l.held ∧ (n, l.len n - 1) ∉ l.popped := by
  rw [replaced, List.mem_map, mem_popped]
  constructor
  · rintro ⟨p, hp, rfl⟩
    obtain ⟨hleft, hlt⟩ := List.mem_filter.mp hp
    have hheld := h.not_held_of_left hleft
    refine ⟨h.lt_of_left hleft, hheld, ?_⟩
    rintro ⟨p', hleft' | hcurrent, hframe, hindex⟩
    · obtain rfl := h.eq_of_left hleft hleft' hframe
      have hlt' := of_decide_eq_true hlt
      dsimp only at hindex
      omega
    · refine hheld (List.mem_append_left _ ?_)
      rw [hcurrent]
      exact List.mem_singleton.mpr hframe
  · rintro ⟨hn, hheld, hlast⟩
    have hpos := h.len_pos hn
    have hmem := h.perm.symm.subset (List.mem_range.mpr hn)
    obtain ⟨p, hp, rfl⟩ := List.mem_map.mp ((List.mem_append.mp hmem).resolve_right hheld)
    refine ⟨p, List.mem_filter.mpr ⟨hp, decide_eq_true ?_⟩, rfl⟩
    by_contra hge
    refine hlast ⟨p, .inl hp, rfl, ?_⟩
    dsimp only
    omega

/-! ## Counts -/

/-- Their number. -/
theorem length_popped (l : FrameLane) :
    l.popped.length = (l.left.map Prod.snd).sum + (l.current.map Prod.snd).getD 0 := by
  have hblock : ∀ p, (block p).length = p.2 := fun p => by
    rw [block, List.length_map, List.length_range]
  rw [popped, List.length_append, List.length_flatMap, List.length_flatMap, funext hblock]
  cases l.current <;> simp

/-- Every slice was taken, dropped with its frame, or is still to be taken. -/
theorem Inv.sum_lengths (h : l.Inv finish) :
    l.lengths.sum = l.popped.length + l.dropped + l.queued := by
  have hlengths : l.lengths = (List.range l.lengths.length).map l.len := by
    refine List.ext_getElem (by simp) fun i hi _ => ?_
    rw [List.getElem_map, List.getElem_range, len, List.getD_eq_getElem _ _ hi]
  have hsum : l.lengths.sum = ((l.left.map Prod.fst ++ l.held).map l.len).sum := by
    rw [(h.perm.map l.len).sum_eq, ← hlengths]
  have hleft : ∀ left : List (Nat × Nat), (∀ p ∈ left, p.2 ≤ l.len p.1) →
      ((left.map Prod.fst).map l.len).sum =
        (left.map Prod.snd).sum + (left.map fun p => l.len p.1 - p.2).sum := by
    intro left hle
    induction left with
    | nil => rfl
    | cons p left ih =>
        have hp := hle p List.mem_cons_self
        have hrest := ih fun p' hp' => hle p' (List.mem_cons_of_mem _ hp')
        simp only [List.map_cons, List.sum_cons]
        omega
  have hheld : (l.held.map l.len).sum = (l.current.map Prod.snd).getD 0 + l.queued := by
    rw [held, queued]
    cases hcurrent : l.current with
    | none => cases l.waiting <;> simp
    | some p =>
        have hp := h.begun p hcurrent
        cases l.waiting <;> simp <;> omega
  rw [hsum, List.map_append, List.sum_append, hleft l.left h.sent_le, hheld, length_popped, dropped]
  omega

/-- What leaves unsent is replaced, and the rest of it dropped. -/
theorem counts_of_left {l' : FrameLane} {ps : List (Nat × Nat)}
    (hlen : ∀ p ∈ l.left ++ ps, l'.len p.1 = l.len p.1) (hleft : l'.left = l.left ++ ps) :
    l'.replaced = l.replaced ++ (ps.filter fun p => p.2 < l.len p.1).map Prod.fst ∧
      l'.dropped = l.dropped + (ps.map fun p => l.len p.1 - p.2).sum := by
  constructor
  · rw [replaced, replaced, hleft, List.filter_congr fun p hp => by rw [hlen p hp],
      List.filter_append, List.map_append]
  · rw [dropped, dropped, hleft, List.map_congr_left fun p hp => by rw [hlen p hp],
      List.map_append, List.sum_append]

/-- A push after which `ps` have left, all with slices unsent. -/
theorem Inv.counts_push (h : l.Inv finish) {l' : FrameLane} {ps : List (Nat × Nat)}
    (hlengths : l'.lengths = l.lengths ++ [m]) (hleft : l'.left = l.left ++ ps)
    (hps : ∀ p ∈ ps, p.1 < l.lengths.length ∧ p.2 < l.len p.1) :
    l'.replaced = l.replaced ++ ps.map Prod.fst ∧
      l'.dropped = l.dropped + (ps.map fun p => l.len p.1 - p.2).sum := by
  have hcounts := counts_of_left (l := l) (fun p hp => ?_) hleft
  · rwa [List.filter_eq_self.mpr fun p hp => decide_eq_true (hps p hp).2] at hcounts
  · rcases List.mem_append.mp hp with hp | hp
    · exact len_concat hlengths (h.lt_of_left hp)
    · exact len_concat hlengths (hps p hp).1

/-- A frame that starts at once replaces the current one. -/
theorem Inv.counts_restart (h : l.Inv finish) (m : Nat) :
    (l.restart m).replaced = l.replaced ++ (l.current.map Prod.fst).toList ∧
      (l.restart m).dropped =
        l.dropped + (l.current.map fun p => l.len p.1 - p.2).getD 0 := by
  have hcounts := h.counts_push (show (l.restart m).lengths = _ from rfl) rfl fun p hp =>
    have hcurrent := Option.mem_toList.mp hp
    ⟨h.lt_of_current hcurrent, h.begun p hcurrent⟩
  refine ⟨hcounts.1.trans ?_, hcounts.2.trans ?_⟩
  · rw [Option.toList_map]
  · cases l.current <;> rfl

/-- A frame that waits replaces the one that waited. -/
theorem Inv.counts_wait (h : l.Inv finish) (m : Nat) :
    (l.wait m).replaced = l.replaced ++ l.waiting.toList ∧
      (l.wait m).dropped = l.dropped + (l.waiting.map l.len).getD 0 := by
  have hcounts := h.counts_push (show (l.wait m).lengths = _ from rfl) rfl fun p hp => by
    obtain ⟨w, hw, rfl⟩ := Option.map_eq_some_iff.mp (Option.mem_toList.mp hp)
    exact ⟨h.lt_of_waiting hw, h.len_pos (h.lt_of_waiting hw)⟩
  refine ⟨hcounts.1.trans ?_, hcounts.2.trans ?_⟩
  · cases l.waiting <;> rfl
  · cases l.waiting <;> rfl

/-- A pop replaces nothing. -/
theorem counts_pop (l : FrameLane) :
    l.pop.replaced = l.replaced ∧ l.pop.dropped = l.dropped := by
  rw [FrameLane.pop]
  cases hcurrent : l.current with
  | none => exact ⟨rfl, rfl⟩
  | some p =>
      obtain ⟨n, k⟩ := p
      dsimp only
      split_ifs with hmore
      · exact ⟨rfl, rfl⟩
      · have hge : l.len n ≤ k + 1 := not_lt.mp hmore
        have hcounts := @counts_of_left l
          { l with
            current := l.waiting.map fun w => (w, 0)
            waiting := none
            left := l.left ++ [(n, k + 1)] } [(n, k + 1)] (fun _ _ => rfl) rfl
        refine ⟨hcounts.1.trans ?_, hcounts.2.trans ?_⟩
        · rw [List.filter_singleton, decide_eq_false (not_lt.mpr hge)]
          exact List.append_nil _
        · rw [List.map_singleton, List.sum_singleton, Nat.sub_eq_zero_of_le hge, Nat.add_zero]

/-! ## Finished frames -/

/-- What `finish` promises.  What was taken are whole frames, in order, and the begin of
the one being sent; the one that waits is the newest; and a frame that is replaced has
given nothing. -/
structure Finished (l : FrameLane) : Prop where
  popped : l.popped =
    l.sent.flatMap (fun n => block (n, l.len n)) ++ l.current.toList.flatMap block
  order : (l.sent ++ l.held).Pairwise (· < ·)
  newest : ∀ w ∈ l.waiting, w + 1 = l.lengths.length ∧ ∃ p ∈ l.current, 0 < p.2
  apart : ∀ n ∈ l.replaced, ∀ s ∈ l.popped, s.1 ≠ n
  dropped : l.dropped = (l.replaced.map l.len).sum

/-- Under the policy that finishes frames, they leave whole. -/
theorem Inv.finished (h : l.Inv true) : l.Finished where
  popped := h.popped_whole
  order := h.order
  newest w hw := (h.waits w hw).2
  apart _ hn := h.not_popped_of_replaced hn
  dropped := by
    have hsum : ∀ left : List (Nat × Nat), (∀ p ∈ left, p.2 = 0 ∨ p.2 = l.len p.1) →
        (left.map fun p => l.len p.1 - p.2).sum =
          (((left.filter fun p => p.2 < l.len p.1).map Prod.fst).map l.len).sum := by
      intro left hwhole
      induction left with
      | nil => rfl
      | cons p left ih =>
          have hrest := ih fun p' hp' => hwhole p' (List.mem_cons_of_mem _ hp')
          rw [List.map_cons, List.sum_cons, hrest, List.filter_cons]
          split_ifs with hlt
          · have hlt' := of_decide_eq_true hlt
            have hzero := (hwhole p List.mem_cons_self).resolve_right hlt'.ne
            rw [hzero, Nat.sub_zero, List.map_cons, List.map_cons, List.sum_cons]
          · have hle : l.len p.1 ≤ p.2 := not_lt.mp fun hlt' => hlt (decide_eq_true hlt')
            rw [Nat.sub_eq_zero_of_le hle, Nat.zero_add]
    exact hsum l.left (h.whole rfl)

end FrameLane

end Queues
