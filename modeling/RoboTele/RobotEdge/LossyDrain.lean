import RoboTele.RobotEdge.LossyTurns

/-!
# What waits leaves

A pop in video's turn takes the next chunk of the front NAL, or the front NAL itself if it
has no chunk left, and every other pop is in video's turn.  So at a moment when no waiting
delta is stale, enough pops send every NAL that waits (`complete_of_pops`).
-/

namespace RoboTele

open Runs Queues

namespace LossyQueue

variable {q : LossyQueue} {now : Instant} {m : Nat}

/-- How many pops in video's turn empty the video side. -/
def toSend (q : LossyQueue) : Nat := (q.video.map fun p => p.chunks.length + 1).sum

/-- What waits after a pop of a chunk. -/
theorem popVideo_video {front : PendingNal} {video : List PendingNal}
    (hvideo : q.video = front :: video) :
    q.popVideo.1.video =
      if front.chunks.tail = [] then video
      else { front with chunks := front.chunks.tail } :: video := by
  rw [popVideo, hvideo]
  cases hchunks : front.chunks with
  | nil => simp [hchunks]
  | cons chunk rest => cases rest <;> simp [hchunks]

/-- A pop of a chunk brings the end nearer. -/
theorem toSend_popVideo (hvideo : q.video ≠ []) : q.popVideo.1.toSend < q.toSend := by
  cases hq : q.video with
  | nil => exact absurd hq hvideo
  | cons front video =>
      rw [toSend, toSend, popVideo_video hq, hq, List.map_cons, List.sum_cons]
      split_ifs with hrest
      · omega
      · rw [List.map_cons, List.sum_cons]
        have hlonger : 0 < front.chunks.tail.length := List.length_pos_iff.mpr hrest
        rw [List.length_tail] at hlonger ⊢
        omega

/-- A pop leaves no more to send. -/
theorem toSend_popVideo_le (q : LossyQueue) : q.popVideo.1.toSend ≤ q.toSend := by
  cases hq : q.video with
  | nil =>
      rw [popVideo, hq]
  | cons front video =>
      refine (toSend_popVideo ?_).le
      rw [hq]
      exact List.cons_ne_nil _ _

theorem toSend_congr {q q' : LossyQueue} (h : SameVideo q q') : q'.toSend = q.toSend := by
  rw [toSend, toSend, h.video]

/-- A waiting NAL keeps its type and the time it was queued at. -/
theorem not_stale_popVideo (h : ¬ q.Stale now) : ¬ q.popVideo.1.Stale now := by
  cases hq : q.video with
  | nil =>
      rw [popVideo, hq]
      exact h
  | cons front video =>
      rintro ⟨p, hp, hstale⟩
      rw [popVideo_video hq] at hp
      split_ifs at hp with hrest
      · exact h ⟨p, hq ▸ List.mem_cons_of_mem _ hp, hstale⟩
      · rcases List.mem_cons.mp hp with rfl | hp
        · exact h ⟨front, hq ▸ List.mem_cons_self, hstale⟩
        · exact h ⟨p, hq ▸ List.mem_cons_of_mem _ hp, hstale⟩

/-- The item `m` is on its way, and nothing that waits is stale. -/
structure Leaving (q : LossyQueue) (now : Instant) (m : Nat) : Prop extends Tracked q where
  fresh : ¬ q.Stale now
  onItsWay : q.chunkQueue.OnItsWay m

theorem Leaving.congr {q' : LossyQueue} (h : q.Leaving now m) (hsame : SameVideo q q') :
    q'.Leaving now m where
  toTracked := h.toTracked.congr hsame
  fresh := by
    rw [Stale, hsame.video]
    exact h.fresh
  onItsWay := by
    rw [chunkQueue_congr hsame]
    exact h.onItsWay

/-- What is leaving keeps leaving while the video is popped. -/
theorem Leaving.popVideo (h : q.Leaving now m) : q.popVideo.1.Leaving now m where
  toTracked := h.toTracked.popVideo
  fresh := not_stale_popVideo h.fresh
  onItsWay := by
    rw [chunkQueue_popVideo]
    exact h.wellFormed.onItsWay_pop h.onItsWay

/-- A pop with nothing stale tries both sides in turn. -/
theorem pop_of_fresh (h : ¬ q.Stale now) :
    q.pop now = if q.videoTurn then q.passTurn.orElse LossyQueue.popVideo popSensor
      else q.passTurn.orElse popSensor LossyQueue.popVideo := by
  rw [LossyQueue.pop, expireStaleVideo, if_neg h]

/-- It keeps leaving through any pop that expires nothing. -/
theorem Leaving.pop (h : q.Leaving now m) : (q.pop now).1.Leaving now m := by
  have hturn : q.passTurn.Leaving now m := h.congr ⟨rfl, rfl, rfl, rfl⟩
  have hvideo : ∀ q' : LossyQueue, q'.Leaving now m → q'.popVideo.1.Leaving now m :=
    fun _ h => h.popVideo
  have hsensor : ∀ q' : LossyQueue, q'.Leaving now m → q'.popSensor.1.Leaving now m :=
    fun q' h => h.congr q'.popSensor_video
  rw [pop_of_fresh h.fresh]
  split_ifs
  · exact orElse_inv hvideo hsensor hturn
  · exact orElse_inv hsensor hvideo hturn

/-- A slice that leaves takes none of the video. -/
theorem toSend_popSensor (q : LossyQueue) : q.popSensor.1.toSend = q.toSend :=
  toSend_congr q.popSensor_video

/-- No pop adds anything to send. -/
theorem toSend_pop_le (h : ¬ q.Stale now) : (q.pop now).1.toSend ≤ q.toSend := by
  have hvideo : ∀ q' : LossyQueue, q'.toSend ≤ q.toSend → q'.popVideo.1.toSend ≤ q.toSend :=
    fun q' hle => q'.toSend_popVideo_le.trans hle
  have hsensor : ∀ q' : LossyQueue, q'.toSend ≤ q.toSend → q'.popSensor.1.toSend ≤ q.toSend :=
    fun q' hle => q'.toSend_popSensor.trans_le hle
  have hturn : q.passTurn.toSend ≤ q.toSend := le_rfl
  rw [pop_of_fresh h]
  split_ifs
  · exact orElse_inv hvideo hsensor hturn
  · exact orElse_inv hsensor hvideo hturn

/-- A pop in video's turn sends something. -/
theorem toSend_pop_lt (h : ¬ q.Stale now) (hturn : q.videoTurn = true) (hvideo : q.video ≠ []) :
    (q.pop now).1.toSend < q.toSend := by
  have hlt : q.passTurn.popVideo.1.toSend < q.toSend := toSend_popVideo (q := q.passTurn) hvideo
  rw [pop_of_fresh h, if_pos hturn, orElse]
  cases hpop : q.passTurn.popVideo with
  | mk q' datagram =>
      rw [hpop] at hlt
      cases datagram with
      | some datagram => exact hlt
      | none => exact q'.toSend_popSensor.trans_lt hlt

/-! ## Skipping -/

/-- Only an IDR ends a skip, and no push begins one. -/
theorem pushVideoNal_skip (q : LossyQueue) (n : Nal) (now : Instant) :
    (q.pushVideoNal n now).skipDeltasUntilIdr =
      if n.nalType = nalIdr then false else q.skipDeltasUntilIdr := by
  rw [pushVideoNal]
  split_ifs with hskip hidr hidr
  · exact absurd hidr hskip.1.1
  · rfl
  · exact if_pos hidr
  · exact if_neg hidr

/-- A pop begins a skip exactly if a waiting delta is stale. -/
theorem pop_skip (q : LossyQueue) (now : Instant) :
    (q.pop now).1.skipDeltasUntilIdr = true ↔ q.Stale now ∨ q.skipDeltasUntilIdr = true := by
  have hexpired : (q.expireStaleVideo now).skipDeltasUntilIdr = true ↔
      q.Stale now ∨ q.skipDeltasUntilIdr = true := by
    rw [expireStaleVideo]
    split_ifs with hstale
    · exact iff_of_true rfl (.inl hstale)
    · exact (or_iff_right hstale).symm
  have hvideo : ∀ q' : LossyQueue,
      q'.skipDeltasUntilIdr = (q.expireStaleVideo now).skipDeltasUntilIdr →
        q'.popVideo.1.skipDeltasUntilIdr = (q.expireStaleVideo now).skipDeltasUntilIdr :=
    fun q' h => q'.popVideo_pushed.2.trans h
  have hsensor : ∀ q' : LossyQueue,
      q'.skipDeltasUntilIdr = (q.expireStaleVideo now).skipDeltasUntilIdr →
        q'.popSensor.1.skipDeltasUntilIdr = (q.expireStaleVideo now).skipDeltasUntilIdr :=
    fun q' h => q'.popSensor_video.skip.trans h
  have hsame : (q.pop now).1.skipDeltasUntilIdr =
      (q.expireStaleVideo now).skipDeltasUntilIdr := by
    rw [LossyQueue.pop]
    split_ifs
    · exact orElse_inv hvideo hsensor rfl
    · exact orElse_inv hsensor hvideo rfl
  rw [hsame, hexpired]

/-! ## The end of the queue -/

/-- Enough pops at such a moment send the item whole. -/
theorem complete_of_pops (h : q.Leaving now m) :
    ∃ n, (exec step q (List.replicate n (.pop now))).chunkQueue.Complete m := by
  induction hleft : 2 * q.toSend + (if q.videoTurn then 0 else 1) using Nat.strong_induction_on
    generalizing q with
  | _ left ih =>
      cases hvideo : q.video with
      | nil =>
          -- nothing waits, so the item is sent
          rcases h.onItsWay with hcomplete | ⟨w, hw, -⟩
          · exact ⟨0, hcomplete⟩
          · rw [chunkQueue, hvideo] at hw
            cases hw
      | cons front video =>
          have hne : q.video ≠ [] := hvideo ▸ List.cons_ne_nil _ _
          have hle := toSend_pop_le h.fresh
          have hnext := q.pop_videoTurn now
          have hnearer : 2 * (q.pop now).1.toSend + (if (q.pop now).1.videoTurn then 0 else 1) <
              left := by
            rw [hnext, ← hleft]
            cases hturn : q.videoTurn with
            | true =>
                have hlt := toSend_pop_lt h.fresh hturn hne
                simp only [Bool.not_true, Bool.false_eq_true, if_false, if_true]
                omega
            | false =>
                simp only [Bool.not_false, if_true, Bool.false_eq_true, if_false]
                omega
          obtain ⟨n, hn⟩ := ih _ hnearer h.pop rfl
          exact ⟨n + 1, hn⟩

end LossyQueue

end RoboTele
