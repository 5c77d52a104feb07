import RoboTele.RobotEdge.LossyQueue

/-!
# Deltas leave after their references

A delta references the picture before it, so the link should carry no chunk of
a delta whose references it did not carry.  What a delta needs (`ChainNeeds`)
is the last IDR pushed before it and every delta since.

The queue drops a delta only with every waiting delta, and skips the later ones
until the next IDR.  So while it does not skip, every picture of the current
group is sent or waiting (`ChainInv.group`), and that is what a new delta
needs.  `deltasChained` holds of every run.
-/

namespace RoboTele

open Runs Queues

/-- A delta or an IDR. -/
def IsPicture (nalType : UInt8) : Prop := IsDelta nalType ∨ nalType = nalIdr

namespace LossyQueue

/-- The `k`-th NAL is a delta, and the `m`-th is the last IDR before it or a
delta after that IDR. -/
structure ChainNeeds (pushed : List Nal) (k m : Nat) : Prop where
  delta : ∃ t ∈ typeAt pushed k, IsDelta t
  picture : ∃ t ∈ typeAt pushed m, IsPicture t
  group : ∀ j, m < j → j < k → typeAt pushed j ≠ some nalIdr

/-- The chunks of each NAL leave in order and without gaps, and before any chunk
of a delta leaves, everything the delta needs has left whole. -/
structure DeltasChained (q : LossyQueue) : Prop where
  inOrder : ∀ k n, q.pushed[k]? = some n → sentIn q.sent k <+: n.datagrams
  chained : ∀ before k c after, q.sent = before ++ (k, c) :: after →
    ∀ m n, m < k → q.pushed[m]? = some n → ChainNeeds q.pushed k m →
      sentIn before m = n.datagrams

/-- While the queue does not skip, every picture since the last IDR has left or is on its way. -/
structure ChainInv (q : LossyQueue) : Prop extends Tracked q where
  supplied : q.chunkQueue.Supplied (ChainNeeds q.pushed)
  group : q.skipDeltasUntilIdr = false → ∀ m, (∃ t ∈ typeAt q.pushed m, IsPicture t) →
    (∀ j, m < j → typeAt q.pushed j ≠ some nalIdr) → q.chunkQueue.OnItsWay m

theorem ChainInv.new (policy : SensorFramePolicy) : (withSensorPolicy policy).ChainInv where
  toTracked := .new policy
  supplied := .empty
  group _ m h := by
    obtain ⟨t, ht, -⟩ := h
    simp [typeAt, withSensorPolicy] at ht

theorem ChainInv.congr {q q' : LossyQueue} (h : q.ChainInv) (hsame : SameVideo q q') :
    q'.ChainInv where
  toTracked := h.toTracked.congr hsame
  supplied := by
    rw [chunkQueue_congr hsame, hsame.pushed]
    exact h.supplied
  group := by
    rw [chunkQueue_congr hsame, hsame.pushed, hsame.skip]
    exact h.group

/-- A pushed NAL changes nothing in what the earlier ones need. -/
theorem ChainNeeds.of_concat {pushed : List Nal} {n : Nal} {k m : Nat}
    (hk : k < pushed.length) (hm : m < k) (h : ChainNeeds (pushed ++ [n]) k m) :
    ChainNeeds pushed k m where
  delta := typeAt_concat (n := n) hk ▸ h.delta
  picture := typeAt_concat (n := n) (hm.trans hk) ▸ h.picture
  group j hmj hjk := typeAt_ne_of_concat (h.group j hmj hjk)

/-- Only deltas need anything. -/
theorem Tracked.not_chainNeeds {q : LossyQueue} (h : q.Tracked) {p : PendingNal}
    (hp : p ∈ q.video) (hdelta : ¬ IsDelta p.nalType) (m : Nat) :
    ¬ ChainNeeds q.pushed p.number m := by
  intro hneeds
  obtain ⟨t, ht, hdelta'⟩ := hneeds.delta
  rw [h.typed p hp] at ht
  obtain rfl := Option.some.inj ht
  exact hdelta hdelta'

/-- Pictures outlast everything but an IDR. -/
theorem mem_retained_of_picture {q : LossyQueue} {p : PendingNal} {nalType : UInt8}
    (hp : p ∈ q.video) (hpicture : IsPicture p.nalType) (hidr : nalType ≠ nalIdr) :
    p ∈ q.retained nalType := by
  rw [retained]
  split_ifs with hset
  · refine List.mem_filter.mpr ⟨hp, decide_eq_true ?_⟩
    intro heq
    rw [heq] at hpicture
    rcases hpicture with hdelta | hidr'
    · exact hset.elim hdelta.2.1 hdelta.2.2
    · exact hidr hidr'
  · exact hp

theorem ChainInv.skipNal {q : LossyQueue} (h : q.ChainInv) {n : Nal}
    (hskip : q.skipDeltasUntilIdr = true) : (q.skipNal n).ChainInv where
  toTracked := h.toTracked.skipNal n
  supplied := by
    rw [chunkQueue_skipNal]
    refine h.supplied.skip h.wellFormed ?_ _
    intro k hk m hm
    exact ChainNeeds.of_concat (q.chunkQueue_length ▸ hk) hm
  group hopen := by
    change q.skipDeltasUntilIdr = false at hopen
    rw [hskip] at hopen
    cases hopen

/-- What a kept NAL needs is kept. -/
theorem ChainInv.supplied_retained {q : LossyQueue} (h : q.ChainInv) (nalType : UInt8) :
    (q.chunkQueue.discard (keep (q.retained nalType))).Supplied (ChainNeeds q.pushed) := by
  refine h.supplied.discard (keep_sublist (q.retained_sublist _)) ?_
  intro w hw v hv _ hneeds
  obtain ⟨p, hp, rfl⟩ := List.mem_map.mp hw
  obtain ⟨r, hr, rfl⟩ := List.mem_map.mp hv
  by_cases hidr : nalType = nalIdr
  · -- An IDR keeps parameter sets only, and these need nothing.
    subst hidr
    have hset : p ∈ q.video.filter fun p => p.nalType = nalSps ∨ p.nalType = nalPps := hp
    obtain ⟨hvideo, htype⟩ := List.mem_filter.mp hset
    refine absurd hneeds (h.not_chainNeeds hvideo ?_ _)
    rcases of_decide_eq_true htype with heq | heq <;> rw [heq] <;> decide
  · obtain ⟨t, ht, hpicture⟩ := hneeds.picture
    rw [h.typed r hr] at ht
    obtain rfl := Option.some.inj ht
    exact mem_keep (mem_retained_of_picture hr hpicture hidr)

/-- While nothing is skipped, the current group outlasts all but an IDR. -/
theorem ChainInv.group_retained {q : LossyQueue} (h : q.ChainInv)
    (hopen : q.skipDeltasUntilIdr = false) {nalType : UInt8} (hidr : nalType ≠ nalIdr) {m : Nat}
    (hpicture : ∃ t ∈ typeAt q.pushed m, IsPicture t)
    (hlast : ∀ j, m < j → typeAt q.pushed j ≠ some nalIdr) :
    (q.chunkQueue.discard (keep (q.retained nalType))).OnItsWay m := by
  have hway := h.group hopen m hpicture hlast
  obtain ⟨t, ht, hpicture⟩ := hpicture
  refine h.onItsWay_keep hway ht ?_
  rintro p hp rfl
  exact mem_retained_of_picture hp hpicture hidr

theorem ChainInv.queueNal {q : LossyQueue} (h : q.ChainInv) {n : Nal} (now : Instant)
    (hopen : IsDelta n.nalType → q.skipDeltasUntilIdr = false) :
    (q.queueNal n now).ChainInv where
  toTracked := h.toTracked.queueNal n now
  supplied := by
    refine h.supplied_queueNal now (h.supplied_retained n.nalType)
      (fun k hk m hm => ChainNeeds.of_concat hk hm) ?_
    intro m hm hneeds
    change ChainNeeds (q.pushed ++ [n]) q.pushed.length m at hneeds
    obtain ⟨t, ht, hdelta⟩ := hneeds.delta
    rw [typeAt_concat_length] at ht
    obtain rfl := Option.some.inj ht
    refine h.group_retained (hopen hdelta) hdelta.1 ?_ ?_
    · exact typeAt_concat (n := n) hm ▸ hneeds.picture
    · intro j hj heq
      exact typeAt_ne_of_concat (hneeds.group j hj (lt_of_typeAt heq)) heq
  group hskip m hpicture hlast := by
    obtain ⟨t, ht, hpic⟩ := hpicture
    rcases typeAt_concat_cases ht with ⟨hm, ht'⟩ | ⟨rfl, -⟩
    · have hidr : n.nalType ≠ nalIdr := by
        intro heq
        refine hlast q.pushed.length hm ?_
        show typeAt (q.pushed ++ [n]) _ = _
        rw [typeAt_concat_length, heq]
      change (if n.nalType = nalIdr then false else q.skipDeltasUntilIdr) = false at hskip
      rw [if_neg hidr] at hskip
      refine onItsWay_queueNal now hm (h.group_retained hskip hidr ⟨t, ht', hpic⟩ ?_)
      intro j hj
      exact typeAt_ne_of_concat (hlast j hj)
    · exact onItsWay_queueNal_self _ _ _

theorem ChainInv.pushVideoNal {q : LossyQueue} (h : q.ChainInv) (n : Nal) (now : Instant) :
    (q.pushVideoNal n now).ChainInv := by
  rw [LossyQueue.pushVideoNal]
  split_ifs with hskip
  · exact h.skipNal hskip.2
  · refine h.queueNal now ?_
    intro hdelta
    exact Bool.not_eq_true _ ▸ fun hskips => hskip ⟨hdelta, hskips⟩

theorem ChainInv.dropDeltas {q : LossyQueue} (h : q.ChainInv) : q.dropDeltas.ChainInv where
  toTracked := h.toTracked.dropDeltas
  supplied := by
    rw [chunkQueue_dropDeltas]
    refine h.supplied.discard (keep_sublist List.filter_sublist) ?_
    intro w hw v _ _ hneeds
    obtain ⟨p, hp, rfl⟩ := List.mem_map.mp hw
    obtain ⟨hvideo, hkept⟩ := List.mem_filter.mp hp
    exact absurd hneeds (h.not_chainNeeds hvideo (of_decide_eq_true hkept) _)
  group hopen := by cases hopen

theorem ChainInv.popVideo {q : LossyQueue} (h : q.ChainInv) : q.popVideo.1.ChainInv where
  toTracked := h.toTracked.popVideo
  supplied := by
    rw [chunkQueue_popVideo, q.popVideo_pushed.1]
    exact h.supplied.pop h.wellFormed
  group := by
    rw [chunkQueue_popVideo, q.popVideo_pushed.1, q.popVideo_pushed.2]
    intro hopen m hpicture hlast
    exact h.wellFormed.onItsWay_pop (h.group hopen m hpicture hlast)

theorem ChainInv.step {q : LossyQueue} (h : q.ChainInv) (op : Op) : (q.step op).ChainInv :=
  step_inv_video (P := fun _ _ => True) (fun _ _ hsame h => h.congr hsame)
    (fun _ n now _ h => h.pushVideoNal n now) (fun _ h => h.dropDeltas) (fun _ h => h.popVideo)
    q op h trivial

theorem ChainInv.chains {q : LossyQueue} (h : q.ChainInv) : q.DeltasChained where
  inOrder k n hn := by
    rw [← chunksOf_eq hn]
    exact h.wellFormed.sent_isPrefix k
  chained before k c after hsent m n hm hn hneeds := by
    rw [← chunksOf_eq hn]
    exact h.supplied.needsSentFirst h.wellFormed before k c after hsent m hm hneeds

/-- In every run of the queue the chunks of a NAL leave in order, and a delta
leaves after everything it needs. -/
theorem deltasChained (policy : SensorFramePolicy) (ops : List Op) :
    (exec step (withSensorPolicy policy) ops).DeltasChained := by
  have h : (exec step (withSensorPolicy policy) ops).ChainInv :=
    exec_inv (fun _ op h => h.step op) ops (.new policy)
  exact h.chains

end LossyQueue

end RoboTele
