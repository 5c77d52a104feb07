import Mathlib.Data.List.Basic
import Mathlib.Data.Nat.Basic
import Mathlib.Order.Basic

/-!
# Queues of items that leave in chunks

Items are numbered in the order of their push, and each one is a list of
chunks.  `pop` sends the front item's next chunk.  An item may be skipped at
its push, and waiting items may be discarded whole or after some of their
chunks.

`WellFormed` holds of every queue built that way.  What was sent of an item is
a prefix of it, and the sent chunks are ordered by item.

An item may *need* earlier ones.  `Supplied` says that whatever a waiting item
needs is sent or waiting too, and that whatever a sent item needs is sent.  A
queue stays supplied under `pop`, so the rules for `push` and `discard` are all
that is left to an instance, and `Supplied.needsSentFirst` is what it gets.
-/

namespace Queues

variable {α : Type*}

/-- The chunks of item `k` in a log of chunks with their items. -/
def sentIn (log : List (Nat × α)) (k : Nat) : List α :=
  log.filterMap fun c => if c.1 = k then some c.2 else none

@[simp] theorem sentIn_nil (k : Nat) : sentIn ([] : List (Nat × α)) k = [] := rfl

@[simp] theorem sentIn_append (l m : List (Nat × α)) (k : Nat) :
    sentIn (l ++ m) k = sentIn l k ++ sentIn m k := by
  rw [sentIn, List.filterMap_append]
  rfl

@[simp] theorem sentIn_singleton_self (k : Nat) (c : α) : sentIn [(k, c)] k = [c] := by
  simp [sentIn]

theorem sentIn_singleton_of_ne {j k : Nat} (h : j ≠ k) (c : α) : sentIn [(j, c)] k = [] := by
  simp [sentIn, h]

theorem sentIn_eq_nil {log : List (Nat × α)} {k : Nat} (h : ∀ c ∈ log, c.1 ≠ k) :
    sentIn log k = [] := by
  rw [sentIn, List.filterMap_eq_nil_iff]
  intro c hc
  exact if_neg (h c hc)

/-- Every item pushed so far with its chunks, the waiting items with what is
left of them, and the chunks sent. -/
structure ChunkQueue (α : Type*) where
  pushed : List (List α)
  waiting : List (Nat × List α)
  sent : List (Nat × α)

namespace ChunkQueue

def empty : ChunkQueue α where
  pushed := []
  waiting := []
  sent := []

/-! ## Operations -/

/-- The next item waits at the end. -/
def push (q : ChunkQueue α) (item : List α) : ChunkQueue α :=
  { q with
    pushed := q.pushed ++ [item]
    waiting := q.waiting ++ [(q.pushed.length, item)] }

/-- The next item is dropped at once. -/
def skip (q : ChunkQueue α) (item : List α) : ChunkQueue α :=
  { q with pushed := q.pushed ++ [item] }

/-- Only these items go on waiting. -/
def discard (q : ChunkQueue α) (kept : List (Nat × List α)) : ChunkQueue α :=
  { q with waiting := kept }

/-- What waits once the front item has lost its first chunk. -/
def leftOf (k : Nat) (rest : List α) (waiting : List (Nat × List α)) : List (Nat × List α) :=
  if rest = [] then waiting else (k, rest) :: waiting

/-- Send the next chunk of the first that waits. -/
def pop (q : ChunkQueue α) : ChunkQueue α :=
  match q.waiting with
  | [] => q
  | (_, []) :: waiting => { q with waiting }
  | (k, c :: rest) :: waiting =>
      { q with waiting := leftOf k rest waiting, sent := q.sent ++ [(k, c)] }

/-! ## Well-formed queues -/

/-- The chunks of item `k`, none before it is pushed. -/
def chunksOf (q : ChunkQueue α) (k : Nat) : List α := q.pushed.getD k []

/-- All of item `k` is sent. -/
def Complete (q : ChunkQueue α) (k : Nat) : Prop := sentIn q.sent k = q.chunksOf k

/-- All of item `k` is sent or waiting. -/
def OnItsWay (q : ChunkQueue α) (k : Nat) : Prop :=
  q.Complete k ∨ ∃ w ∈ q.waiting, w.1 = k

/-- What was sent and what waits of each number are together all its chunks, and lower numbers go
first. -/
structure WellFormed (q : ChunkQueue α) : Prop where
  numbers : q.waiting.Pairwise fun v w => v.1 < w.1
  pushed_lt : ∀ w ∈ q.waiting, w.1 < q.pushed.length
  left : ∀ w ∈ q.waiting, sentIn q.sent w.1 ++ w.2 = q.chunksOf w.1
  sent_isPrefix : ∀ k, sentIn q.sent k <+: q.chunksOf k
  sorted : q.sent.Pairwise fun c d => c.1 ≤ d.1
  below : ∀ c ∈ q.sent, ∀ w ∈ q.waiting, c.1 ≤ w.1

theorem WellFormed.empty : (empty : ChunkQueue α).WellFormed where
  numbers := List.Pairwise.nil
  pushed_lt := by simp [ChunkQueue.empty]
  left := by simp [ChunkQueue.empty]
  sent_isPrefix k := List.nil_prefix
  sorted := List.Pairwise.nil
  below := by simp [ChunkQueue.empty]

/-- Earlier items keep their chunks when another one is pushed. -/
theorem chunksOf_concat {q : ChunkQueue α} {item : List α} {waiting : List (Nat × List α)}
    {k : Nat} (h : k < q.pushed.length) :
    chunksOf { q with pushed := q.pushed ++ [item], waiting } k = q.chunksOf k := by
  simp only [chunksOf, List.getD_eq_getElem?_getD, List.getElem?_append_left h]

theorem chunksOf_of_length_le {q : ChunkQueue α} {k : Nat} (h : q.pushed.length ≤ k) :
    q.chunksOf k = [] := by
  rw [chunksOf, List.getD_eq_getElem?_getD, List.getElem?_eq_none h]
  rfl

/-- Nothing is sent of an item before its push. -/
theorem WellFormed.sentIn_of_length_le {q : ChunkQueue α} (hq : q.WellFormed) {k : Nat}
    (h : q.pushed.length ≤ k) : sentIn q.sent k = [] := by
  have hpre := hq.sent_isPrefix k
  rw [chunksOf_of_length_le h] at hpre
  exact List.prefix_nil.mp hpre

theorem WellFormed.sent_lt {q : ChunkQueue α} (hq : q.WellFormed) {c : Nat × α}
    (hc : c ∈ q.sent) : c.1 < q.pushed.length := by
  by_contra hge
  have hnone := hq.sentIn_of_length_le (not_lt.mp hge)
  rw [sentIn, List.filterMap_eq_nil_iff] at hnone
  have hself := hnone c hc
  simp at hself

theorem WellFormed.skip {q : ChunkQueue α} (hq : q.WellFormed) (item : List α) :
    (q.skip item).WellFormed where
  numbers := hq.numbers
  pushed_lt w hw := by
    have hlt := hq.pushed_lt w hw
    rw [ChunkQueue.skip, List.length_append, List.length_singleton]
    omega
  left w hw := (hq.left w hw).trans (chunksOf_concat (hq.pushed_lt w hw)).symm
  sent_isPrefix k := by
    by_cases hk : k < q.pushed.length
    · rw [ChunkQueue.skip, chunksOf_concat hk]
      exact hq.sent_isPrefix k
    · show sentIn q.sent k <+: _
      rw [hq.sentIn_of_length_le (not_lt.mp hk)]
      exact List.nil_prefix
  sorted := hq.sorted
  below := hq.below

/-- What is kept in order keeps the queue well formed. -/
theorem WellFormed.discard {q : ChunkQueue α} (hq : q.WellFormed) {kept : List (Nat × List α)}
    (hkept : kept.Sublist q.waiting) : (q.discard kept).WellFormed where
  numbers := hq.numbers.sublist hkept
  pushed_lt w hw := hq.pushed_lt w (hkept.subset hw)
  left w hw := hq.left w (hkept.subset hw)
  sent_isPrefix := hq.sent_isPrefix
  sorted := hq.sorted
  below c hc w hw := hq.below c hc w (hkept.subset hw)

/-- So does a new item. -/
theorem WellFormed.push {q : ChunkQueue α} (hq : q.WellFormed) (item : List α) :
    (q.push item).WellFormed where
  numbers := by
    refine List.pairwise_append.mpr ⟨hq.numbers, List.pairwise_singleton _ _, ?_⟩
    intro v hv w hw
    rw [List.mem_singleton.mp hw]
    exact hq.pushed_lt v hv
  pushed_lt w hw := by
    rw [ChunkQueue.push, List.length_append, List.length_singleton]
    rcases List.mem_append.mp hw with hw | hw
    · have hlt := hq.pushed_lt w hw
      omega
    · rw [List.mem_singleton.mp hw]
      omega
  left w hw := by
    rcases List.mem_append.mp hw with hw | hw
    · exact (hq.left w hw).trans (chunksOf_concat (hq.pushed_lt w hw)).symm
    · rw [List.mem_singleton.mp hw]
      show sentIn q.sent q.pushed.length ++ item = _
      rw [hq.sentIn_of_length_le le_rfl, List.nil_append]
      simp [chunksOf, ChunkQueue.push]
  sent_isPrefix := (hq.skip item).sent_isPrefix
  sorted := hq.sorted
  below c hc w hw := by
    rcases List.mem_append.mp hw with hw | hw
    · exact hq.below c hc w hw
    · rw [List.mem_singleton.mp hw]
      exact (hq.sent_lt hc).le

theorem leftOf_sublist (k : Nat) (rest : List α) (waiting : List (Nat × List α)) :
    (leftOf k rest waiting).Sublist ((k, rest) :: waiting) := by
  rw [leftOf]
  split
  · exact List.sublist_cons_self _ _
  · exact List.Sublist.refl _

/-- So does a chunk that leaves. -/
theorem WellFormed.pop {q : ChunkQueue α} (hq : q.WellFormed) : q.pop.WellFormed := by
  obtain ⟨pushed, waiting, sent⟩ := q
  match waiting with
  | [] => exact hq
  | (k, []) :: waiting => exact hq.discard (List.sublist_cons_self _ _)
  | (k, c :: rest) :: waiting =>
      have hfront := hq.left (k, c :: rest) List.mem_cons_self
      have hnumbers := List.pairwise_cons.mp hq.numbers
      -- The items behind the front have sent nothing new.
      have hother {j : Nat} (hj : k ≠ j) : sentIn (sent ++ [(k, c)]) j = sentIn sent j := by
        rw [sentIn_append, sentIn_singleton_of_ne hj, List.append_nil]
      have hself : sentIn (sent ++ [(k, c)]) k ++ rest = pushed.getD k [] := by
        rw [sentIn_append, sentIn_singleton_self, List.append_assoc]
        exact hfront
      have hcases {w : Nat × List α} (hw : w ∈ leftOf k rest waiting) :
          w = (k, rest) ∨ w ∈ waiting :=
        List.mem_cons.mp ((leftOf_sublist k rest waiting).subset hw)
      refine { numbers := ?numbers, pushed_lt := ?pushed_lt, left := ?left,
               sent_isPrefix := ?sent_isPrefix, sorted := ?sorted, below := ?below }
      case numbers =>
        refine List.Pairwise.sublist (leftOf_sublist k rest waiting) ?_
        exact List.pairwise_cons.mpr ⟨hnumbers.1, hnumbers.2⟩
      case pushed_lt =>
        intro w hw
        rcases hcases hw with rfl | hw
        · exact hq.pushed_lt (k, c :: rest) List.mem_cons_self
        · exact hq.pushed_lt w (List.mem_cons_of_mem _ hw)
      case left =>
        intro w hw
        rcases hcases hw with rfl | hw
        · exact hself
        · show sentIn (sent ++ [(k, c)]) w.1 ++ w.2 = _
          rw [hother (hnumbers.1 w hw).ne]
          exact hq.left w (List.mem_cons_of_mem _ hw)
      case sent_isPrefix =>
        intro j
        by_cases hj : k = j
        · subst hj
          exact ⟨rest, hself⟩
        · show sentIn (sent ++ [(k, c)]) j <+: _
          rw [hother hj]
          exact hq.sent_isPrefix j
      case sorted =>
        refine List.pairwise_append.mpr ⟨hq.sorted, List.pairwise_singleton _ _, ?_⟩
        intro d hd e he
        rw [List.mem_singleton.mp he]
        exact hq.below d hd (k, c :: rest) List.mem_cons_self
      case below =>
        intro d hd w hw
        have hk : k ≤ w.1 := by
          rcases hcases hw with rfl | hw
          · exact le_rfl
          · exact (hnumbers.1 w hw).le
        rcases List.mem_append.mp hd with hd | hd
        · exact (hq.below d hd (k, c :: rest) List.mem_cons_self).trans hk
        · rw [List.mem_singleton.mp hd]
          exact hk

/-! ## Items that are sent or waiting -/

/-- An item stays on its way when others join. -/
theorem onItsWay_concat {q : ChunkQueue α} {item : List α} {waiting : List (Nat × List α)}
    {k : Nat} (hk : k < q.pushed.length) (h : q.OnItsWay k)
    (hwaiting : ∀ w ∈ q.waiting, w ∈ waiting) :
    OnItsWay { q with pushed := q.pushed ++ [item], waiting } k := by
  rcases h with hcomplete | ⟨w, hw, rfl⟩
  · exact Or.inl (hcomplete.trans (chunksOf_concat hk).symm)
  · exact Or.inr ⟨w, hwaiting w hw, rfl⟩

/-- It stays on its way when it is kept. -/
theorem onItsWay_discard {q : ChunkQueue α} {kept : List (Nat × List α)} {k : Nat}
    (h : q.OnItsWay k) (hkept : ∀ w ∈ q.waiting, w.1 = k → w ∈ kept) :
    (q.discard kept).OnItsWay k := by
  rcases h with hcomplete | ⟨w, hw, hk⟩
  · exact Or.inl hcomplete
  · exact Or.inr ⟨w, hkept w hw hk, hk⟩

theorem onItsWay_push_self (q : ChunkQueue α) (item : List α) :
    (q.push item).OnItsWay q.pushed.length :=
  Or.inr ⟨(q.pushed.length, item), List.mem_append_right _ (List.mem_singleton_self _), rfl⟩

/-- What has left whole has left whole. -/
theorem WellFormed.complete_pop {q : ChunkQueue α} (hq : q.WellFormed) {k : Nat}
    (h : q.Complete k) : q.pop.Complete k := by
  obtain ⟨pushed, waiting, sent⟩ := q
  match waiting with
  | [] => exact h
  | (_, []) :: waiting => exact h
  | (j, c :: rest) :: waiting =>
      by_cases hj : j = k
      · -- The front still had a chunk to send.
        subst hj
        have hfront := hq.left (j, c :: rest) List.mem_cons_self
        change sentIn sent j ++ c :: rest = _ at hfront
        rw [← show sentIn sent j = _ from h] at hfront
        simp at hfront
      · show sentIn (sent ++ [(j, c)]) k = _
        rw [sentIn_append, sentIn_singleton_of_ne hj, List.append_nil]
        exact h

/-- An item on its way leaves whole, or stays on its way. -/
theorem WellFormed.onItsWay_pop {q : ChunkQueue α} (hq : q.WellFormed) {k : Nat}
    (h : q.OnItsWay k) : q.pop.OnItsWay k := by
  rcases h with hcomplete | hwaiting
  · exact Or.inl (hq.complete_pop hcomplete)
  · obtain ⟨pushed, waiting, sent⟩ := q
    obtain ⟨w, hw, rfl⟩ := hwaiting
    match waiting with
    | (j, []) :: waiting =>
        rcases List.mem_cons.mp hw with rfl | hw
        · have hfront := hq.left (j, []) List.mem_cons_self
          rw [List.append_nil] at hfront
          exact Or.inl hfront
        · exact Or.inr ⟨w, hw, rfl⟩
    | (j, c :: rest) :: waiting =>
        by_cases hrest : rest = []
        · rcases List.mem_cons.mp hw with rfl | hw
          · left
            have hfront := hq.left (j, c :: rest) List.mem_cons_self
            rw [hrest] at hfront
            show sentIn (sent ++ [(j, c)]) j = _
            rw [sentIn_append, sentIn_singleton_self]
            exact hfront
          · right
            have hleft : ((⟨pushed, (j, c :: rest) :: waiting, sent⟩ : ChunkQueue α).pop).waiting =
                waiting := if_pos hrest
            rw [hleft]
            exact ⟨w, hw, rfl⟩
        · right
          have hleft : ((⟨pushed, (j, c :: rest) :: waiting, sent⟩ : ChunkQueue α).pop).waiting =
              (j, rest) :: waiting := if_neg hrest
          rw [hleft]
          rcases List.mem_cons.mp hw with rfl | hw
          · exact ⟨(j, rest), List.mem_cons_self, rfl⟩
          · exact ⟨w, List.mem_cons_of_mem _ hw, rfl⟩

/-! ## Items that need earlier ones -/

/-- What waiting items need is sent or waiting, and what sent items need is
sent. -/
structure Supplied (needs : Nat → Nat → Prop) (q : ChunkQueue α) : Prop where
  waiting : ∀ w ∈ q.waiting, ∀ m, m < w.1 → needs w.1 m → q.OnItsWay m
  sent : ∀ c ∈ q.sent, ∀ m, m < c.1 → needs c.1 m → q.Complete m

/-- What an item needs is sent whole before any chunk of the item. -/
def NeedsSentFirst (q : ChunkQueue α) (needs : Nat → Nat → Prop) : Prop :=
  ∀ before k c after, q.sent = before ++ (k, c) :: after →
    ∀ m, m < k → needs k m → sentIn before m = q.chunksOf m

section

variable {needs : Nat → Nat → Prop} {q : ChunkQueue α}

theorem Supplied.empty : Supplied needs (empty : ChunkQueue α) where
  waiting := by simp [ChunkQueue.empty]
  sent := by simp [ChunkQueue.empty]

theorem Supplied.skip {needs' : Nat → Nat → Prop} (h : Supplied needs q) (hq : q.WellFormed)
    (hneeds : ∀ k, k < q.pushed.length → ∀ m, m < k → needs' k m → needs k m) (item : List α) :
    Supplied needs' (q.skip item) where
  waiting w hw m hm hneed := by
    have hlt := hq.pushed_lt w hw
    have hway := h.waiting w hw m hm (hneeds _ hlt m hm hneed)
    exact onItsWay_concat (hm.trans hlt) hway fun _ => id
  sent c hc m hm hneed := by
    have hlt := hq.sent_lt hc
    have hcomplete := h.sent c hc m hm (hneeds _ hlt m hm hneed)
    exact hcomplete.trans (chunksOf_concat (hm.trans hlt)).symm

/-- An item may be pushed if what it needs is sent or waiting. -/
theorem Supplied.push {needs' : Nat → Nat → Prop} (h : Supplied needs q) (hq : q.WellFormed)
    (hneeds : ∀ k, k < q.pushed.length → ∀ m, m < k → needs' k m → needs k m) (item : List α)
    (hself : ∀ m, m < q.pushed.length → needs' q.pushed.length m → q.OnItsWay m) :
    Supplied needs' (q.push item) where
  waiting w hw m hm hneed := by
    rcases List.mem_append.mp hw with hw | hw
    · have hlt := hq.pushed_lt w hw
      have hway := h.waiting w hw m hm (hneeds _ hlt m hm hneed)
      exact onItsWay_concat (hm.trans hlt) hway fun _ => List.mem_append_left _
    · rw [List.mem_singleton.mp hw] at hm hneed
      exact onItsWay_concat hm (hself m hm hneed) fun _ => List.mem_append_left _
  sent := (h.skip hq hneeds item).sent

/-- Items may be discarded if no kept one needs them. -/
theorem Supplied.discard (h : Supplied needs q) {kept : List (Nat × List α)}
    (hkept : kept.Sublist q.waiting)
    (hneeds : ∀ w ∈ kept, ∀ v ∈ q.waiting, v.1 < w.1 → needs w.1 v.1 → v ∈ kept) :
    Supplied needs (q.discard kept) where
  waiting w hw m hm hneed := by
    rcases h.waiting w (hkept.subset hw) m hm hneed with hcomplete | ⟨v, hv, rfl⟩
    · exact Or.inl hcomplete
    · exact Or.inr ⟨v, hneeds w hw v hv hm hneed, rfl⟩
  sent := h.sent

/-- Everything older than the front is sent or dropped. -/
theorem WellFormed.complete_of_front (hq : q.WellFormed) {k m : Nat} {left : List α}
    {waiting : List (Nat × List α)} (hfront : q.waiting = (k, left) :: waiting) (hm : m < k)
    (h : q.OnItsWay m) : q.Complete m := by
  rcases h with hcomplete | ⟨w, hw, rfl⟩
  · exact hcomplete
  · rw [hfront] at hw
    have hnumbers := hq.numbers
    rw [hfront, List.pairwise_cons] at hnumbers
    rcases List.mem_cons.mp hw with rfl | hw
    · exact absurd hm (lt_irrefl _)
    · exact absurd (hnumbers.1 w hw) hm.not_gt

/-- Chunks leave in an order that supplies what they need. -/
theorem Supplied.pop (h : Supplied needs q) (hq : q.WellFormed) : Supplied needs q.pop := by
  have hwaiting : ∀ w ∈ q.pop.waiting, ∃ v ∈ q.waiting, v.1 = w.1 := by
    intro w hw
    obtain ⟨pushed, waiting, sent⟩ := q
    match waiting with
    | [] => exact ⟨w, hw, rfl⟩
    | (_, []) :: waiting => exact ⟨w, List.mem_cons_of_mem _ hw, rfl⟩
    | (k, c :: rest) :: waiting =>
        rcases List.mem_cons.mp ((leftOf_sublist k rest waiting).subset hw) with rfl | hw
        · exact ⟨(k, c :: rest), List.mem_cons_self, rfl⟩
        · exact ⟨w, List.mem_cons_of_mem _ hw, rfl⟩
  have hsent : ∀ c ∈ q.pop.sent, ∀ m, m < c.1 → needs c.1 m → q.Complete m := by
    intro d hd m hm hneed
    cases hq' : q.waiting with
    | nil =>
        rw [ChunkQueue.pop, hq'] at hd
        exact h.sent d hd m hm hneed
    | cons front waiting =>
        obtain ⟨k, left⟩ := front
        cases left with
        | nil =>
            rw [ChunkQueue.pop, hq'] at hd
            exact h.sent d hd m hm hneed
        | cons c rest =>
            rw [ChunkQueue.pop, hq'] at hd
            rcases List.mem_append.mp hd with hd | hd
            · exact h.sent d hd m hm hneed
            · -- The item that sends was at the front.
              rw [List.mem_singleton.mp hd] at hm hneed
              have hway := h.waiting (k, c :: rest) (hq' ▸ List.mem_cons_self) m hm hneed
              exact hq.complete_of_front hq' hm hway
  refine ⟨?_, fun c hc m hm hneed => hq.complete_pop (hsent c hc m hm hneed)⟩
  intro w hw m hm hneed
  obtain ⟨v, hv, heq⟩ := hwaiting w hw
  rw [← heq] at hm hneed
  exact hq.onItsWay_pop (h.waiting v hv m hm hneed)

/-- The chunks of an item come after everything the item needs. -/
theorem Supplied.needsSentFirst (h : Supplied needs q) (hq : q.WellFormed) :
    q.NeedsSentFirst needs := by
  intro before k c after hsent m hm hneed
  have hcomplete : sentIn q.sent m = q.chunksOf m :=
    h.sent (k, c) (by simp [hsent]) m hm hneed
  have hsorted := hq.sorted
  rw [hsent, List.pairwise_append, List.pairwise_cons] at hsorted
  have hafter : sentIn ((k, c) :: after) m = [] := by
    refine sentIn_eq_nil ?_
    intro d hd
    rcases List.mem_cons.mp hd with rfl | hd
    · exact hm.ne'
    · exact (hm.trans_le (hsorted.2.1.1 d hd)).ne'
  rw [hsent, sentIn_append, hafter, List.append_nil] at hcomplete
  exact hcomplete

end

end ChunkQueue

end Queues
