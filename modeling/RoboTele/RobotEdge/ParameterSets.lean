import RoboTele.RobotEdge.LossyQueue

/-!
# IDRs leave after their parameter sets

A decoder needs the parameter sets in force to show an IDR: the newest SPS and
the newest PPS pushed before it (`SetNeeds`).

A new parameter set drops the waiting one of its kind.  That is right while no
IDR waits behind the old one, and it starves the IDR otherwise.
`parameterSetsFirst_iff` says exactly when a run is free of that, and
`parameterSetsFirst_fails_for_secondSps` is a run that is not.
-/

namespace RoboTele

open Runs Queues

/-- An SPS or a PPS. -/
def IsParameterSet (nalType : UInt8) : Prop := nalType = nalSps ∨ nalType = nalPps

instance (nalType : UInt8) : Decidable (IsParameterSet nalType) :=
  inferInstanceAs (Decidable (_ ∨ _))

theorem isDelta_iff (nalType : UInt8) :
    IsDelta nalType ↔ nalType ≠ nalIdr ∧ ¬ IsParameterSet nalType := by
  rw [IsDelta, IsParameterSet, not_or]

namespace LossyQueue

/-- The `k`-th NAL is an IDR, and the `m`-th is the newest parameter set of its
kind before it. -/
structure SetNeeds (pushed : List Nal) (k m : Nat) : Prop where
  idr : typeAt pushed k = some nalIdr
  newest : ∃ t, IsParameterSet t ∧ typeAt pushed m = some t ∧
    ∀ j, m < j → j < k → typeAt pushed j ≠ some t

/-- Before any chunk of an IDR leaves, the parameter sets it needs have left
whole. -/
def SetsSentFirst (q : LossyQueue) : Prop :=
  ∀ before k c after, q.sent = before ++ (k, c) :: after →
    ∀ m n, m < k → q.pushed[m]? = some n → SetNeeds q.pushed k m → sentIn before m = n.datagrams

/-- A push discards no parameter set that a waiting IDR needs. -/
def KeepsNeeded (q : LossyQueue) : Op → Prop
  | .pushVideoNal n now =>
      ∀ p ∈ q.video, ∀ k ∈ q.video, p.number < k.number → SetNeeds q.pushed k.number p.number →
        p ∈ (q.pushVideoNal n now).video
  | _ => True

/-- Both hold along a run. -/
structure ParameterSetsFirst (policy : SensorFramePolicy) (ops : List Op) : Prop where
  sentFirst : (exec step (withSensorPolicy policy) ops).SetsSentFirst
  kept : Along step KeepsNeeded (withSensorPolicy policy) ops

/-- A parameter set comes while none of its kind waits ahead of an IDR. -/
def FindsNoneAhead (q : LossyQueue) : Op → Prop
  | .pushVideoNal n _ =>
      IsParameterSet n.nalType → ∀ p ∈ q.video, p.nalType = n.nalType →
        ∀ k ∈ q.video, k.nalType = nalIdr → ¬ p.number < k.number
  | _ => True

/-! ## What waits -/

/-- The newest parameter set of each kind is sent or waiting, and no older one
waits. -/
structure SetInv (q : LossyQueue) : Prop extends Tracked q where
  newest : ∀ t, IsParameterSet t → ∀ m, typeAt q.pushed m = some t →
    (∀ j, m < j → typeAt q.pushed j ≠ some t) → q.chunkQueue.OnItsWay m
  single : ∀ p ∈ q.video, IsParameterSet p.nalType →
    ∀ j, p.number < j → typeAt q.pushed j ≠ some p.nalType

theorem SetInv.new (policy : SensorFramePolicy) : (withSensorPolicy policy).SetInv where
  toTracked := .new policy
  newest t _ m h := by simp [typeAt, withSensorPolicy] at h
  single := by simp [withSensorPolicy]

theorem SetInv.congr {q q' : LossyQueue} (h : q.SetInv) (hsame : SameVideo q q') :
    q'.SetInv where
  toTracked := h.toTracked.congr hsame
  newest := by
    rw [chunkQueue_congr hsame, hsame.pushed]
    exact h.newest
  single := by
    rw [hsame.video, hsame.pushed]
    exact h.single

/-- A parameter set outlasts everything but one of its kind. -/
theorem mem_retained_of_set {q : LossyQueue} {p : PendingNal} {nalType : UInt8}
    (hp : p ∈ q.video) (hset : IsParameterSet p.nalType) (hne : p.nalType ≠ nalType) :
    p ∈ q.retained nalType := by
  rw [retained]
  split_ifs
  · exact List.mem_filter.mpr ⟨hp, decide_eq_true hne⟩
  · exact List.mem_filter.mpr ⟨hp, decide_eq_true hset⟩
  · exact hp

/-- Nothing of its own kind outlasts a parameter set. -/
theorem nalType_ne_of_retained {q : LossyQueue} {p : PendingNal} {nalType : UInt8}
    (hset : IsParameterSet nalType) (hp : p ∈ q.retained nalType) : p.nalType ≠ nalType := by
  rw [retained, if_pos (show nalType = nalSps ∨ nalType = nalPps from hset)] at hp
  exact of_decide_eq_true (List.mem_filter.mp hp).2

theorem SetInv.skipNal {q : LossyQueue} (h : q.SetInv) {n : Nal}
    (hdelta : IsDelta n.nalType) : (q.skipNal n).SetInv where
  toTracked := h.toTracked.skipNal n
  newest t ht m hm hlast := by
    rw [chunkQueue_skipNal]
    rcases typeAt_concat_cases hm with ⟨hlt, hm'⟩ | ⟨-, rfl⟩
    · refine ChunkQueue.onItsWay_concat (by simpa [chunkQueue] using hlt)
        (h.newest t ht m hm' ?_) fun _ => id
      intro j hj
      exact typeAt_ne_of_concat (hlast j hj)
    · exact absurd ht ((isDelta_iff _).mp hdelta).2
  single p hp hset j hj heq := by
    rcases typeAt_concat_cases heq with ⟨-, hj'⟩ | ⟨-, htype⟩
    · exact h.single p hp hset j hj hj'
    · rw [htype] at hset
      exact ((isDelta_iff _).mp hdelta).2 hset

/-- The newest parameter set of another kind outlasts a push. -/
theorem SetInv.onItsWay_retained {q : LossyQueue} (h : q.SetInv) {nalType t : UInt8} {m : Nat}
    (hway : q.chunkQueue.OnItsWay m) (htype : typeAt q.pushed m = some t)
    (hset : IsParameterSet t) (hne : t ≠ nalType) :
    (q.chunkQueue.discard (keep (q.retained nalType))).OnItsWay m := by
  refine h.onItsWay_keep hway htype ?_
  rintro p hp rfl
  exact mem_retained_of_set hp hset hne

theorem SetInv.queueNal {q : LossyQueue} (h : q.SetInv) (n : Nal) (now : Instant) :
    (q.queueNal n now).SetInv where
  toTracked := h.toTracked.queueNal n now
  newest t ht m hm hlast := by
    rcases typeAt_concat_cases hm with ⟨hlt, hm'⟩ | ⟨rfl, -⟩
    · -- An older one that is still the newest is not of the kind that was pushed.
      have hne : t ≠ n.nalType := by
        rintro rfl
        exact hlast q.pushed.length hlt (typeAt_concat_length _ _)
      have hway := h.newest t ht m hm' fun j hj => typeAt_ne_of_concat (hlast j hj)
      exact onItsWay_queueNal now hlt (h.onItsWay_retained hway hm' ht hne)
    · exact onItsWay_queueNal_self _ _ _
  single p hp hset j hj heq := by
    rcases List.mem_append.mp hp with hp | hp
    · have hvideo := (q.retained_sublist _).subset hp
      rcases typeAt_concat_cases heq with ⟨-, hj'⟩ | ⟨-, htype⟩
      · exact h.single p hvideo hset j hj hj'
      · rw [htype] at hset
        exact nalType_ne_of_retained hset hp htype
    · rw [List.mem_singleton.mp hp] at hj
      have hlt := lt_of_typeAt heq
      change q.pushed.length < j at hj
      change j < (q.pushed ++ [n]).length at hlt
      rw [List.length_append, List.length_singleton] at hlt
      omega

theorem SetInv.pushVideoNal {q : LossyQueue} (h : q.SetInv) (n : Nal) (now : Instant) :
    (q.pushVideoNal n now).SetInv := by
  rw [LossyQueue.pushVideoNal]
  split_ifs with hskip
  · exact h.skipNal hskip.1
  · exact h.queueNal n now

theorem SetInv.dropDeltas {q : LossyQueue} (h : q.SetInv) : q.dropDeltas.SetInv where
  toTracked := h.toTracked.dropDeltas
  newest t ht m hm hlast := by
    rw [chunkQueue_dropDeltas]
    refine h.onItsWay_keep (h.newest t ht m hm hlast) hm ?_
    rintro p hp rfl
    refine List.mem_filter.mpr ⟨hp, decide_eq_true ?_⟩
    intro hdelta
    exact ((isDelta_iff _).mp hdelta).2 ht
  single p hp := h.single p (List.filter_sublist.subset hp)

theorem SetInv.popVideo {q : LossyQueue} (h : q.SetInv) : q.popVideo.1.SetInv where
  toTracked := h.toTracked.popVideo
  newest := by
    rw [chunkQueue_popVideo, q.popVideo_pushed.1]
    intro t ht m hm hlast
    exact h.wellFormed.onItsWay_pop (h.newest t ht m hm hlast)
  single := by
    rw [q.popVideo_pushed.1]
    intro p hp
    obtain ⟨p', hp', hnumber, htype⟩ := mem_popVideo hp
    rw [← hnumber, ← htype]
    exact h.single p' hp'

/-- Every operation keeps the invariant. -/
theorem SetInv.step {q : LossyQueue} (h : q.SetInv) (op : Op) : (q.step op).SetInv :=
  step_inv_video (P := fun _ _ => True) (fun _ _ hsame h => h.congr hsame)
    (fun _ n now _ h => h.pushVideoNal n now) (fun _ h => h.dropDeltas) (fun _ h => h.popVideo)
    q op h trivial

/-- A push keeps what waiting IDRs need exactly if it finds no parameter set of
its kind ahead of one. -/
theorem SetInv.keepsNeeded_iff {q : LossyQueue} (h : q.SetInv) (op : Op) :
    q.KeepsNeeded op ↔ q.FindsNoneAhead op := by
  cases op with
  | pushSensorFrame sensorId datagrams => exact Iff.rfl
  | pop now => exact Iff.rfl
  | pushVideoNal n now =>
      constructor
      · intro hkeeps hset p hp htype k hk hidr hlt
        have hneeds : SetNeeds q.pushed k.number p.number := by
          refine ⟨hidr ▸ h.typed k hk, p.nalType, htype ▸ hset, h.typed p hp, ?_⟩
          intro j hj _
          exact h.single p hp (htype ▸ hset) j hj
        have hmem := hkeeps p hp k hk hlt hneeds
        have hqueued : q.pushVideoNal n now = q.queueNal n now :=
          if_neg fun hskip => ((isDelta_iff _).mp hskip.1).2 hset
        rw [hqueued] at hmem
        rcases List.mem_append.mp hmem with hold | hnew
        · exact nalType_ne_of_retained hset hold htype
        · have hnumber := h.number_lt hp
          rw [List.mem_singleton.mp hnew] at hnumber
          exact absurd hnumber (lt_irrefl _)
      · intro hnone p hp k hk hlt hneeds
        obtain ⟨t, ht, htype, -⟩ := hneeds.newest
        obtain rfl := Option.some.inj ((h.typed p hp).symm.trans htype)
        have hidr : k.nalType = nalIdr :=
          Option.some.inj ((h.typed k hk).symm.trans hneeds.idr)
        rw [LossyQueue.pushVideoNal]
        split_ifs
        · exact hp
        · refine List.mem_append_left _ (mem_retained_of_set hp ht ?_)
          intro heq
          exact hnone (heq ▸ ht) p hp heq k hk hidr hlt

/-! ## What leaves -/

theorem SetNeeds.of_concat {pushed : List Nal} {n : Nal} {k m : Nat}
    (hk : k < pushed.length) (hm : m < k) (h : SetNeeds (pushed ++ [n]) k m) :
    SetNeeds pushed k m := by
  obtain ⟨hidr, t, ht, htype, hlast⟩ := h
  refine ⟨typeAt_concat (n := n) hk ▸ hidr, t, ht, ?_, ?_⟩
  · exact typeAt_concat (n := n) (hm.trans hk) ▸ htype
  · intro j hmj hjk
    exact typeAt_ne_of_concat (hlast j hmj hjk)

/-- What is sent comes after the parameter sets it needs, where they are on their way. -/
structure SuppliedInv (q : LossyQueue) : Prop extends SetInv q where
  supplied : q.chunkQueue.Supplied (SetNeeds q.pushed)

theorem SuppliedInv.congr {q q' : LossyQueue} (h : q.SuppliedInv) (hsame : SameVideo q q') :
    q'.SuppliedInv where
  toSetInv := h.toSetInv.congr hsame
  supplied := by
    rw [chunkQueue_congr hsame, hsame.pushed]
    exact h.supplied

theorem SuppliedInv.skipNal {q : LossyQueue} (h : q.SuppliedInv) {n : Nal}
    (hdelta : IsDelta n.nalType) : (q.skipNal n).SuppliedInv where
  toSetInv := h.toSetInv.skipNal hdelta
  supplied := by
    rw [chunkQueue_skipNal]
    refine h.supplied.skip h.wellFormed ?_ _
    intro k hk m hm
    exact SetNeeds.of_concat (q.chunkQueue_length ▸ hk) hm

/-- What waiting IDRs need outlasts a push that finds none of its kind ahead of
them. -/
theorem SuppliedInv.supplied_retained {q : LossyQueue} (h : q.SuppliedInv) {n : Nal}
    {now : Instant} (hnone : q.FindsNoneAhead (.pushVideoNal n now)) :
    (q.chunkQueue.discard (keep (q.retained n.nalType))).Supplied (SetNeeds q.pushed) := by
  refine h.supplied.discard (keep_sublist (q.retained_sublist _)) ?_
  intro w hw v hv hlt hneeds
  obtain ⟨k, hk, rfl⟩ := List.mem_map.mp hw
  obtain ⟨p, hp, rfl⟩ := List.mem_map.mp hv
  have hvideo := (q.retained_sublist _).subset hk
  obtain ⟨t, ht, htype, -⟩ := hneeds.newest
  obtain rfl := Option.some.inj ((h.typed p hp).symm.trans htype)
  have hidr : k.nalType = nalIdr :=
    Option.some.inj ((h.typed k hvideo).symm.trans hneeds.idr)
  refine mem_keep (mem_retained_of_set hp ht ?_)
  intro heq
  exact hnone (heq ▸ ht) p hp heq k hvideo hidr hlt

theorem SuppliedInv.queueNal {q : LossyQueue} (h : q.SuppliedInv) {n : Nal} (now : Instant)
    (hnone : q.FindsNoneAhead (.pushVideoNal n now)) : (q.queueNal n now).SuppliedInv where
  toSetInv := h.toSetInv.queueNal n now
  supplied := by
    refine h.supplied_queueNal now (h.supplied_retained hnone)
      (fun k hk m hm => SetNeeds.of_concat hk hm) ?_
    intro m hm hneeds
    change SetNeeds (q.pushed ++ [n]) q.pushed.length m at hneeds
    obtain ⟨hidr, t, ht, htype, hlast⟩ := hneeds
    rw [typeAt_concat_length] at hidr
    have hn := Option.some.inj hidr
    rw [typeAt_concat hm] at htype
    have hway : q.chunkQueue.OnItsWay m := by
      refine h.newest t ht m htype ?_
      intro j hj heq
      exact typeAt_ne_of_concat (hlast j hj (lt_of_typeAt heq)) heq
    refine h.onItsWay_retained hway htype ht ?_
    rintro rfl
    rw [hn] at ht
    exact absurd ht (by decide)

theorem SuppliedInv.pushVideoNal {q : LossyQueue} (h : q.SuppliedInv) (n : Nal)
    (now : Instant) (hnone : q.FindsNoneAhead (.pushVideoNal n now)) :
    (q.pushVideoNal n now).SuppliedInv := by
  rw [LossyQueue.pushVideoNal]
  split_ifs with hskip
  · exact h.skipNal hskip.1
  · exact h.queueNal now hnone

theorem SuppliedInv.dropDeltas {q : LossyQueue} (h : q.SuppliedInv) : q.dropDeltas.SuppliedInv where
  toSetInv := h.toSetInv.dropDeltas
  supplied := by
    rw [chunkQueue_dropDeltas]
    refine h.supplied.discard (keep_sublist List.filter_sublist) ?_
    intro w _ v hv _ hneeds
    obtain ⟨p, hp, rfl⟩ := List.mem_map.mp hv
    obtain ⟨t, ht, htype, -⟩ := hneeds.newest
    obtain rfl := Option.some.inj ((h.typed p hp).symm.trans htype)
    refine mem_keep (List.mem_filter.mpr ⟨hp, decide_eq_true ?_⟩)
    intro hdelta
    exact ((isDelta_iff _).mp hdelta).2 ht

theorem SuppliedInv.popVideo {q : LossyQueue} (h : q.SuppliedInv) : q.popVideo.1.SuppliedInv where
  toSetInv := h.toSetInv.popVideo
  supplied := by
    rw [chunkQueue_popVideo, q.popVideo_pushed.1]
    exact h.supplied.pop h.wellFormed

/-- So does every operation that finds none of its type ahead. -/
theorem SuppliedInv.step {q : LossyQueue} {op : Op} (h : q.SuppliedInv)
    (hop : q.FindsNoneAhead op) : (q.step op).SuppliedInv :=
  step_inv_video (P := FindsNoneAhead) (fun _ _ hsame h => h.congr hsame)
    (fun _ n now hnone h => h.pushVideoNal n now hnone) (fun _ h => h.dropDeltas)
    (fun _ h => h.popVideo) q op h hop

/-- The parameter sets that an IDR needs are sent before it. -/
theorem SuppliedInv.setsSentFirst {q : LossyQueue} (h : q.SuppliedInv) : q.SetsSentFirst := by
  intro before k c after hsent m n hm hn hneeds
  rw [← chunksOf_eq hn]
  exact h.supplied.needsSentFirst h.wellFormed before k c after hsent m hm hneeds

/-! ## The rule -/

/-- IDRs leave after their parameter sets, and no push discards one that a
waiting IDR needs, exactly if no parameter set is pushed while one of its kind
waits ahead of an IDR. -/
theorem parameterSetsFirst_iff (policy : SensorFramePolicy) (ops : List Op) :
    ParameterSetsFirst policy ops ↔ Along step FindsNoneAhead (withSensorPolicy policy) ops := by
  have hiff : Along step KeepsNeeded (withSensorPolicy policy) ops ↔
      Along step FindsNoneAhead (withSensorPolicy policy) ops :=
    along_congr (I := SetInv) (fun _ op h => h.step op) (fun _ op h => h.keepsNeeded_iff op) ops
      (.new policy)
  constructor
  · intro h
    exact hiff.mp h.kept
  · intro h
    refine ⟨?_, hiff.mpr h⟩
    have hinv : (exec step (withSensorPolicy policy) ops).SuppliedInv := by
      refine exec_inv_along (I := SuppliedInv) (fun _ _ h hop => h.step hop) ops ?_ h
      exact { toSetInv := .new policy, supplied := .empty }
    exact hinv.setsSentFirst

/-- SPS, PPS and IDR wait when a second SPS comes. -/
def secondSpsRun : List Op :=
  [.pushVideoNal ⟨0, [nalSps]⟩ 0, .pushVideoNal ⟨1, [nalPps]⟩ 0, .pushVideoNal ⟨2, [nalIdr]⟩ 0,
    .pushVideoNal ⟨3, [nalSps]⟩ 0, .pop 0, .pop 0]

/-- The second SPS discards the first, which the IDR needs. -/
theorem parameterSetsFirst_fails_for_secondSps : ¬ ParameterSetsFirst .cut secondSpsRun := by
  intro h
  have hneeds : SetNeeds (exec step (withSensorPolicy .cut) secondSpsRun).pushed 2 0 := by
    refine ⟨rfl, nalSps, Or.inl rfl, rfl, ?_⟩
    intro j h0 h2
    obtain rfl : j = 1 := by omega
    decide
  have hsps := h.sentFirst [(1, tag datagramTagChannelA (chunk 1 [nalPps] 0))] 2
    (tag datagramTagChannelA (chunk 2 [nalIdr] 0)) [] (by decide) 0 ⟨0, [nalSps]⟩ (by decide)
    (by decide) hneeds
  exact absurd hsps (by decide)

end LossyQueue

end RoboTele
