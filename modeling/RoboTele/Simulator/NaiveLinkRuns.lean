import RoboTele.Queues.InOrderRelease
import RoboTele.Simulator.NaiveLink
import RoboTele.Tables.Ordered

/-!
# The naive link delivers in order

A segment that was enqueued and not delivered waits, or it travels with one event of the
scheduler, or it has arrived and is withheld (`Accounted`).  Between an event and what follows
from it, its number is held by the code that runs.  What was delivered is a beginning of what was
enqueued, so a segment is withheld only behind one that has not arrived.

The wire is busy exactly if one event puts a segment on it, and a wire that is not busy has
nothing waiting (`Busy`).  Whatever runs next, all of this stays true (`naiveLink_keeps`), so a
scheduler with nothing left to execute has delivered every segment (`naiveLink_exact`).
-/

namespace RoboTele.Sim

open InOrderRelease Runs World

namespace NaiveCallback

/-- The number of the segment that an event carries. -/
def localIdx : NaiveCallback → ℕ
  | onWire localIdx _ | attemptDelivery localIdx _ _ | onArrived localIdx _ _ => localIdx

/-- The segment a callback is about. -/
def seg : NaiveCallback → NaiveSegment
  | onWire _ seg | attemptDelivery _ seg _ | onArrived _ seg _ => seg

/-- The segment is being transmitted. -/
def isOnWire : NaiveCallback → Bool
  | onWire _ _ => true
  | attemptDelivery _ _ _ | onArrived _ _ _ => false

end NaiveCallback

namespace NaiveReliableLink

theorem serviceTime_nonneg (c : Conditions) (seg : NaiveSegment) : 0 ≤ serviceTime c seg := by
  have hbw : (0 : ℚ) ≤ max c.bandwidthMbps minBandwidthMbps :=
    le_max_of_le_right (by norm_num [minBandwidthMbps])
  exact div_nonneg (Nat.cast_nonneg _) (mul_nonneg hbw (by norm_num))

theorem owd_nonneg (c : Conditions) : 0 ≤ owd c :=
  div_nonneg (le_max_of_le_left (by norm_num)) (by norm_num)

/-- A lost segment is tried again after a fifth of a second at the earliest and three seconds at
the latest. -/
theorem rto_mem {c : Conditions} {retryCount : ℕ} {delay : ℚ} (h : rto c retryCount = .ok delay) :
    rtoFloorS ≤ delay ∧ delay ≤ rtoCapS := by
  rw [rto] at h
  split at h
  · have hdelay := (Except.ok.inj h).symm
    have hone : (1 : ℚ) ≤ 2 ^ retryCount := one_le_pow₀ (by norm_num)
    have hfloor : rtoFloorS ≤ max rtoFloorS (rtoRttMultiplier * (2 * c.owdMs / 1000)) :=
      le_max_left _ _
    have hpos : (0 : ℚ) ≤ rtoFloorS := by norm_num [rtoFloorS]
    rw [hdelay]
    refine ⟨le_min (by norm_num [rtoFloorS, rtoCapS]) ?_, min_le_left _ _⟩
    exact hfloor.trans (le_mul_of_one_le_right (hpos.trans hfloor) hone)
  · cases h

/-- Only an overflow keeps the timeout from being computed. -/
theorem eq_overflow_of_rto {c : Conditions} {retryCount : ℕ} {r : Raised}
    (h : rto c retryCount = .error r) : r = .overflow := by
  rw [rto] at h
  split at h
  · cases h
  · exact (Except.error.inj h).symm

/-- What an event carries was enqueued under its number, and it arrives when it says. -/
structure Carries (enqueued : List NaiveSegment) (e : Event NaiveCallback) : Prop where
  seg : enqueued[e.callback.localIdx]? = some e.callback.seg
  arrival : ∀ i seg time, e.callback = .onArrived i seg time → e.time = time

end NaiveReliableLink

open NaiveReliableLink

namespace NaiveWorld

variable {w w' : NaiveWorld} {held held' : List ℕ} {c : Conditions} {i : ℕ} {seg : NaiveSegment}
  {time : ℚ}

/-- The numbers of the segments that events carry. -/
def travelling (w : NaiveWorld) : List ℕ := (live w.scheduler).map fun e => e.callback.localIdx

/-- The events that put a segment on the wire. -/
def onWire (w : NaiveWorld) : ℕ := (live w.scheduler).countP fun e => e.callback.isOnWire

/-! ## Where the segments are -/

/-- Every segment waits, travels, has arrived ahead of its turn, or was delivered. -/
structure Accounted (held : List ℕ) (w : NaiveWorld) : Prop where
  valid : w.scheduler.Valid
  numbered : w.part.nextLocalIdx = w.part.history.enqueued.length
  le : w.part.nextDeliverIdx ≤ w.part.history.enqueued.length
  spread : (w.part.toTransmit.map Prod.fst ++ (travelling w ++ held) ++
    w.part.completed.keys).Perm (List.range' w.part.nextDeliverIdx
      (w.part.history.enqueued.length - w.part.nextDeliverIdx))
  queued : ∀ e ∈ w.part.toTransmit, w.part.history.enqueued[e.1]? = some e.2
  carried : ∀ e ∈ live w.scheduler, Carries w.part.history.enqueued e
  arrived : ∀ i seg time, w.part.completed.lookup i = some (seg, time) →
    w.part.history.enqueued[i]? = some seg ∧ time ≤ w.scheduler.now
  delivered : w.part.history.delivered.map Delivery.seg =
    w.part.history.enqueued.take w.part.nextDeliverIdx
  times : w.part.history.delivered.map Delivery.deliverTime =
    releaseTimes 0 (w.part.history.delivered.map Delivery.arrivalTime)
  last : w.part.lastDeliveredTime =
    lastRelease 0 (w.part.history.delivered.map Delivery.arrivalTime)
  last_le : w.part.lastDeliveredTime ≤ w.scheduler.now
  overflow : ∀ r ∈ w.raised, r = .overflow

/-- The wire is busy exactly if an event puts a segment on it. -/
def Busy (w : NaiveWorld) : Prop :=
  w.part.transmitting = true ∧ onWire w = 1 ∨
    w.part.transmitting = false ∧ onWire w = 0 ∧ w.part.toTransmit = []

/-- The segments are accounted for, and no segment is held back without a reason. -/
structure Valid (w : NaiveWorld) : Prop where
  accounted : ∃ held, Accounted held w ∧ (w.raised = none → held = [])
  busy : Busy w
  /-- Unless `_release_in_order` is at work, the next segment has not arrived. -/
  gap : w.waiting = [] → w.part.nextDeliverIdx ∉ w.part.completed

theorem valid_new : Valid (World.new NaiveReliableLink.new) where
  accounted := by
    refine ⟨[], ?_, fun _ => rfl⟩
    exact
      { valid := Scheduler.valid_new
        numbered := rfl
        le := le_rfl
        spread := List.Perm.nil
        queued := fun _ he => absurd he List.not_mem_nil
        carried := fun _ he => absurd he List.not_mem_nil
        arrived := fun i _ _ hlookup => by
          rw [show (World.new NaiveReliableLink.new : NaiveWorld).part.completed = ∅ from rfl,
            AList.lookup_empty] at hlookup
          cases hlookup
        delivered := rfl
        times := rfl
        last := rfl
        last_le := le_rfl
        overflow := fun _ hr => absurd hr (Option.not_mem_none _) }
  busy := .inr ⟨rfl, rfl, rfl⟩
  gap _ := AList.notMem_empty _

namespace Accounted

theorem spread_nodup (h : Accounted held w) :
    (w.part.toTransmit.map Prod.fst ++ (travelling w ++ held) ++ w.part.completed.keys).Nodup :=
  h.spread.nodup_iff.mpr List.nodup_range'

/-- What is held may pass to an event, and what an event carries may be held. -/
theorem moves (h : Accounted held w) (hvalid : w'.scheduler.Valid) (hpart : w'.part = w.part)
    (hnow : w.scheduler.now ≤ w'.scheduler.now) (hraised : ∀ r ∈ w'.raised, r = .overflow)
    (hspread : (travelling w' ++ held').Perm (travelling w ++ held))
    (hcarried : ∀ e ∈ live w'.scheduler, Carries w.part.history.enqueued e) :
    Accounted held' w' where
  valid := hvalid
  numbered := hpart ▸ h.numbered
  le := hpart ▸ h.le
  spread := by
    rw [hpart]
    exact ((hspread.append_left _).append_right _).trans h.spread
  queued := hpart ▸ h.queued
  carried := hpart ▸ hcarried
  arrived i seg time hlookup := by
    rw [hpart] at hlookup ⊢
    exact ⟨(h.arrived i seg time hlookup).1, (h.arrived i seg time hlookup).2.trans hnow⟩
  delivered := hpart ▸ h.delivered
  times := hpart ▸ h.times
  last := hpart ▸ h.last
  last_le := hpart ▸ h.last_le.trans hnow
  overflow := hraised

/-- What other parts do keeps the account. -/
theorem around (h : Accounted held w) (ha : w.Around w') : Accounted held w' := by
  refine h.moves ha.valid ha.part ha.now_le (ha.raised ▸ h.overflow) ?_ fun e he => ?_
  · exact (ha.live.map _).append_right held
  · exact h.carried e (ha.live.mem_iff.mp he)

/-- An event of the link is taken: its segment is held. -/
theorem fires {e : Event NaiveCallback} (h : Accounted [] w) (hf : w.Fires e w') :
    Accounted [e.callback.localIdx] w' := by
  refine h.moves hf.valid hf.part (hf.now ▸ hf.now_le) ?_ ?_ fun f hmem => ?_
  · rw [hf.raised]
    exact fun _ hr => absurd hr (Option.not_mem_none _)
  · rw [List.append_nil]
    have hlive := (hf.live.map fun e => e.callback.localIdx).symm
    exact (List.perm_append_singleton _ _).trans hlive
  · exact h.carried f (hf.live.mem_iff.mpr (List.mem_cons_of_mem e hmem))

/-- What is held passes to a new event. -/
theorem schedules {callback : NaiveCallback} (hs : w.Schedules time callback w')
    (h : Accounted (callback.localIdx :: held) w)
    (hseg : w.part.history.enqueued[callback.localIdx]? = some callback.seg)
    (harrival : ∀ i seg t, callback = .onArrived i seg t → time = t) : Accounted held w' := by
  refine h.moves hs.valid hs.part hs.now.ge (hs.raised ▸ h.overflow) ?_ fun e he => ?_
  · exact ((hs.live.map _).append_right held).trans List.perm_middle.symm
  · rcases List.mem_cons.mp (hs.live.mem_iff.mp he) with rfl | he
    · exact ⟨hseg, harrival⟩
    · exact h.carried e he

/-- One more segment is queued. -/
theorem accept (h : Accounted held w) (seg : NaiveSegment) : Accounted held (accept seg w) := by
  have hget : ∀ {i : ℕ} {s : NaiveSegment}, w.part.history.enqueued[i]? = some s →
      (w.part.history.enqueued ++ [seg])[i]? = some s := fun hi =>
    List.getElem?_append_left (List.getElem?_eq_some_iff.mp hi).1 |>.trans hi
  have hlength : w.part.nextDeliverIdx +
      (w.part.history.enqueued.length - w.part.nextDeliverIdx) = w.part.nextLocalIdx := by
    rw [h.numbered]
    exact Nat.add_sub_cancel' h.le
  exact
    { valid := h.valid
      numbered := by
        change w.part.nextLocalIdx + 1 = (w.part.history.enqueued ++ [seg]).length
        rw [List.length_append, h.numbered]
        rfl
      le := by
        change w.part.nextDeliverIdx ≤ (w.part.history.enqueued ++ [seg]).length
        exact h.le.trans (by rw [List.length_append]; exact Nat.le_add_right _ _)
      spread := by
        change (List.map Prod.fst (w.part.toTransmit ++ [(w.part.nextLocalIdx, seg)]) ++
          (travelling w ++ held) ++ w.part.completed.keys).Perm
          (List.range' w.part.nextDeliverIdx
            ((w.part.history.enqueued ++ [seg]).length - w.part.nextDeliverIdx))
        have hspread := (h.spread.cons w.part.nextLocalIdx).trans
          (List.perm_append_singleton _ _).symm
        rw [List.length_append, List.length_singleton, Nat.sub_add_comm h.le,
          List.range'_1_concat, hlength, List.map_append, List.map_singleton]
        rw [← List.cons_append, ← List.cons_append] at hspread
        refine List.Perm.trans (List.Perm.append_right _ ?_) hspread
        exact (List.perm_append_singleton _ _).append_right _
      queued := List.forall_mem_append.mpr ⟨fun e he => hget (h.queued e he),
        List.forall_mem_singleton.mpr (by
          change (w.part.history.enqueued ++ [seg])[w.part.nextLocalIdx]? = some seg
          rw [h.numbered, List.getElem?_concat_length])⟩
      carried := fun e he => ⟨hget (h.carried e he).seg, (h.carried e he).arrival⟩
      arrived := fun i s time hlookup =>
        ⟨hget (h.arrived i s time hlookup).1, (h.arrived i s time hlookup).2⟩
      delivered := by
        change _ = (w.part.history.enqueued ++ [seg]).take w.part.nextDeliverIdx
        rw [List.take_append_of_le_length h.le]
        exact h.delivered
      times := h.times
      last := h.last
      last_le := h.last_le
      overflow := h.overflow }

/-- The first segment that waits is held. -/
theorem takes {toTransmit : List (ℕ × NaiveSegment)} (h : Accounted held w)
    (link : NaiveReliableLink) (hqueue : w.part.toTransmit = (i, seg) :: toTransmit)
    (hlink : link = { w.part with
      toTransmit
      transmitting := link.transmitting
      queueDepthSamples := link.queueDepthSamples }) :
    Accounted (i :: held) { w with part := link } := by
  rw [hlink]
  have hspread := h.spread
  rw [hqueue, List.map_cons] at hspread
  exact
    { h with
      spread := by
        change (toTransmit.map Prod.fst ++ (travelling w ++ i :: held) ++
          w.part.completed.keys).Perm _
        refine List.Perm.trans (List.Perm.append_right _ ?_) hspread
        exact (List.perm_middle.append_left _).trans List.perm_middle
      queued := fun e he => h.queued e (hqueue ▸ List.mem_cons_of_mem _ he) }

/-- What is held has arrived. -/
theorem completes (h : Accounted [i] w) (hseg : w.part.history.enqueued[i]? = some seg)
    (htime : time ≤ w.scheduler.now) :
    Accounted [] { w with
      part := { w.part with completed := w.part.completed.insert i (seg, time) } } := by
  have hnew : i ∉ w.part.completed.keys := fun hmem =>
    List.disjoint_of_nodup_append h.spread_nodup (by simp) hmem
  exact
    { h with
      spread := by
        change (w.part.toTransmit.map Prod.fst ++ (travelling w ++ []) ++
          (w.part.completed.insert i (seg, time)).keys).Perm _
        rw [AList.keys_insert, List.erase_of_not_mem hnew, List.append_nil]
        refine List.Perm.trans ?_ h.spread
        rw [← List.append_assoc, List.append_assoc _ [i]]
        exact List.Perm.refl _
      arrived := fun j s t hlookup => by
        rcases Tables.lookup_insert_eq_some hlookup with ⟨rfl, heq⟩ | ⟨-, hold⟩
        · cases heq
          exact ⟨hseg, htime⟩
        · exact h.arrived j s t hold }

/-- The next segment is delivered. -/
theorem releases (h : Accounted [] w)
    (hlookup : w.part.completed.lookup w.part.nextDeliverIdx = some (seg, time)) :
    Accounted [] (releaseInOrder w) := by
  obtain ⟨hseg, htime⟩ := h.arrived _ _ _ hlookup
  have hlt : w.part.nextDeliverIdx < w.part.history.enqueued.length :=
    (List.getElem?_eq_some_iff.mp hseg).1
  have hkey : w.part.nextDeliverIdx ∈ w.part.completed.keys :=
    AList.mem_keys.mp (Tables.mem_iff_exists_lookup.mpr ⟨_, hlookup⟩)
  have htail : w.part.history.enqueued.length - w.part.nextDeliverIdx =
      (w.part.history.enqueued.length - (w.part.nextDeliverIdx + 1)) + 1 := by omega
  have hlast : ∀ t, lastRelease 0 (w.part.history.delivered.map Delivery.arrivalTime ++ [t]) =
      max t w.part.lastDeliveredTime := fun t => by
    rw [lastRelease_concat, h.last]
  rw [releaseInOrder, hlookup]
  exact
    { valid := h.valid
      numbered := h.numbered
      le := hlt
      spread := by
        change (w.part.toTransmit.map Prod.fst ++ (travelling w ++ []) ++
          (w.part.completed.erase w.part.nextDeliverIdx).keys).Perm _
        have hspread := h.spread
        rw [htail, List.range'_succ] at hspread
        rw [AList.keys_erase]
        refine (List.perm_cons w.part.nextDeliverIdx).mp (List.Perm.trans ?_ hspread)
        exact List.perm_middle.symm.trans ((List.perm_cons_erase hkey).symm.append_left _)
      queued := h.queued
      carried := h.carried
      arrived := fun i s t hi => h.arrived i s t (Tables.lookup_erase_eq_some hi).2
      delivered := by
        change (w.part.history.delivered ++ [_]).map Delivery.seg = _
        rw [List.map_append, h.delivered, List.take_add_one, hseg]
        rfl
      times := by
        change (w.part.history.delivered ++ [_]).map Delivery.deliverTime =
          releaseTimes 0 ((w.part.history.delivered ++ [_]).map Delivery.arrivalTime)
        rw [List.map_append, List.map_append, h.times, List.map_singleton, List.map_singleton,
          releaseTimes_concat, ← h.last]
      last := by
        change _ = lastRelease 0 ((w.part.history.delivered ++ [_]).map Delivery.arrivalTime)
        rw [List.map_append, List.map_singleton, hlast]
      last_le := max_le htime h.last_le
      overflow := h.overflow }

end Accounted

/-! ## What one call does -/

/-- Nothing is enqueued and nothing arrives. -/
structure Quiet (w w' : NaiveWorld) : Prop where
  history : w'.part.history = w.part.history
  completed : w'.part.completed = w.part.completed
  nextDeliverIdx : w'.part.nextDeliverIdx = w.part.nextDeliverIdx
  calls : w'.calls = w.calls
  now : w'.scheduler.now = w.scheduler.now

theorem quiet_schedules {callback : NaiveCallback} (hs : w.Schedules time callback w') :
    Quiet w w' :=
  ⟨congrArg NaiveReliableLink.history hs.part, congrArg NaiveReliableLink.completed hs.part,
    congrArg NaiveReliableLink.nextDeliverIdx hs.part, hs.calls, hs.now⟩

theorem onWire_schedules {callback : NaiveCallback} (hs : w.Schedules time callback w') :
    onWire w' = onWire w + if callback.isOnWire then 1 else 0 := by
  rw [onWire, hs.live.countP_eq, List.countP_cons]
  rfl

theorem onWire_fires {e : Event NaiveCallback} (hf : w.Fires e w') :
    onWire w = onWire w' + if e.callback.isOnWire then 1 else 0 := by
  rw [onWire, hf.live.countP_eq, List.countP_cons]
  rfl

/-- The next segment is put on the wire, or none waits. -/
theorem pumpTransmit_spec (c : Conditions) (h : Accounted held w) (hfree : onWire w = 0) :
    Accounted held (pumpTransmit c w) ∧ Busy (pumpTransmit c w) ∧ Quiet w (pumpTransmit c w) := by
  rw [pumpTransmit]
  split
  · next hqueue =>
      exact ⟨{ h with carried := h.carried }, .inr ⟨rfl, hfree, hqueue⟩, rfl, rfl, rfl, rfl, rfl⟩
  · next i seg toTransmit hqueue =>
      have htaken := h.takes
        { w.part with
          toTransmit
          transmitting := true
          queueDepthSamples :=
            w.part.queueDepthSamples ++ [(w.scheduler.now, toTransmit.length)] } hqueue rfl
      have hs := schedule_schedules htaken.valid (.onWire i seg)
        (NaiveReliableLink.serviceTime_nonneg c seg)
      have hseg := h.queued (i, seg) (hqueue ▸ List.mem_cons_self)
      dsimp only
      refine ⟨Accounted.schedules hs htaken hseg ?_, .inl ⟨?_, ?_⟩, ?_⟩
      · exact fun _ _ _ hcallback => by cases hcallback
      · rw [hs.part]
      · rw [onWire_schedules hs]
        exact congrArg (· + 1) hfree
      · have hquiet := quiet_schedules hs
        exact ⟨hquiet.history, hquiet.completed, hquiet.nextDeliverIdx, hquiet.calls, hquiet.now⟩

/-- A segment that was on the wire travels on, unless it was lost too often. -/
theorem attemptDelivery_spec (c : Conditions) (h : Accounted [i] w)
    (hseg : w.part.history.enqueued[i]? = some seg) (hbusy : Busy w) (retryCount : ℕ) :
    (∃ held, Accounted held (attemptDelivery c i seg retryCount w) ∧
        ((attemptDelivery c i seg retryCount w).raised = none → held = [])) ∧
      Busy (attemptDelivery c i seg retryCount w) ∧
      Quiet w (attemptDelivery c i seg retryCount w) := by
  have hscheduled : ∀ {w' : NaiveWorld} {callback : NaiveCallback} {time : ℚ},
      w.Schedules time callback w' → callback.localIdx = i → callback.seg = seg →
      callback.isOnWire = false → (∀ j s t, callback = .onArrived j s t → time = t) →
      (∃ held, Accounted held w' ∧ (w'.raised = none → held = [])) ∧ Busy w' ∧ Quiet w w' := by
    rintro w' callback time hs rfl rfl honWire harrival
    refine ⟨⟨[], Accounted.schedules hs h hseg harrival, fun _ => rfl⟩, ?_, ?_⟩
    · have hcount := onWire_schedules hs
      rw [honWire, if_neg Bool.false_ne_true, Nat.add_zero] at hcount
      rw [Busy, hcount, hs.part]
      exact hbusy
    · exact quiet_schedules hs
  rw [attemptDelivery]
  split
  · cases hrto : rto c retryCount with
    | error r =>
        have hoverflow := eq_overflow_of_rto hrto
        refine ⟨⟨[i], ?_, fun hnone => by cases hnone⟩, hbusy, rfl, rfl, rfl, rfl, rfl⟩
        exact { h with overflow := fun r' hr' => by cases hr'; exact hoverflow }
    | ok delay =>
        have hdelay : 0 ≤ delay := le_trans (by norm_num [rtoFloorS]) (rto_mem hrto).1
        exact hscheduled (schedule_schedules h.valid _ hdelay) rfl rfl rfl
          fun _ _ _ hcallback => by cases hcallback
  · have harrival := le_add_of_nonneg_right (a := w.scheduler.now) (owd_nonneg c)
    exact hscheduled (scheduleAt_schedules h.valid _ harrival) rfl rfl rfl
      fun _ _ _ hcallback => by cases hcallback; rfl

/-- The loop goes on with the next segment, or it has not arrived. -/
theorem releaseInOrder_spec (h : Accounted [] w) (hbusy : Busy w) :
    Accounted [] (releaseInOrder w) ∧ Busy (releaseInOrder w) ∧
      ((releaseInOrder w).waiting = [] →
        (releaseInOrder w).part.nextDeliverIdx ∉ (releaseInOrder w).part.completed) := by
  cases hlookup : w.part.completed.lookup w.part.nextDeliverIdx with
  | none =>
      have hsame : releaseInOrder w = w := by rw [releaseInOrder, hlookup]
      rw [hsame]
      exact ⟨h, hbusy, fun _ => AList.lookup_eq_none.mp hlookup⟩
  | some arrival =>
      refine ⟨h.releases hlookup, ?_, ?_⟩
      · rw [releaseInOrder, hlookup]
        exact hbusy
      · rw [releaseInOrder, hlookup]
        exact fun hwaiting => absurd hwaiting (List.cons_ne_nil _ _)

/-! ## Runs -/

theorem Valid.accounted_nil (h : Valid w) (hraised : w.raised = none) : Accounted [] w := by
  obtain ⟨held, haccounted, hheld⟩ := h.accounted
  rwa [hheld hraised] at haccounted

theorem Valid.of_quiet (haccounted : ∃ held, Accounted held w' ∧ (w'.raised = none → held = []))
    (hbusy : Busy w') (hquiet : Quiet w w')
    (hgap : w.waiting = [] → w.part.nextDeliverIdx ∉ w.part.completed) : Valid w' where
  accounted := haccounted
  busy := hbusy
  gap hwaiting := by
    rw [hquiet.nextDeliverIdx, hquiet.completed]
    rw [World.waiting, hquiet.calls] at hwaiting
    exact hgap hwaiting

theorem Valid.enqueue (h : Valid w) (hraised : w.raised = none) (c : Conditions)
    (seg : NaiveSegment) : Valid (enqueue c seg w) := by
  have haccepted := (h.accounted_nil hraised).accept seg
  rw [NaiveWorld.enqueue]
  rcases h.busy with ⟨htransmitting, hcount⟩ | ⟨htransmitting, hcount, -⟩
  · have hbusy : (accept seg w).part.transmitting = true := htransmitting
    rw [if_pos hbusy]
    exact ⟨⟨[], haccepted, fun _ => rfl⟩, .inl ⟨htransmitting, hcount⟩, h.gap⟩
  · have hidle : (accept seg w).part.transmitting ≠ true := by
      rw [accept, htransmitting]
      exact Bool.false_ne_true
    rw [if_neg hidle]
    obtain ⟨haccounted, hbusy, hquiet⟩ := pumpTransmit_spec c haccepted hcount
    exact .of_quiet ⟨[], haccounted, fun _ => rfl⟩ hbusy hquiet h.gap

/-- An event that puts nothing on the wire leaves it as it is. -/
theorem Busy.fires {e : Event NaiveCallback} (h : Busy w) (hf : w.Fires e w')
    (hcallback : e.callback.isOnWire = false) : Busy w' := by
  have hcount := onWire_fires hf
  rw [hcallback, if_neg Bool.false_ne_true, Nat.add_zero] at hcount
  rw [Busy, hf.part, ← hcount]
  exact h

theorem Valid.fire {e : Event NaiveCallback} (h : Valid w) (hf : w.Fires e w') (c : Conditions) :
    Valid (naiveLink.fire c e.callback w') := by
  have hbefore := h.accounted_nil hf.noneRaised
  have hheld := hbefore.fires hf
  have hcarries := hbefore.carried e (hf.live.mem_iff.mpr List.mem_cons_self)
  have hgap : w'.waiting = [] → w'.part.nextDeliverIdx ∉ w'.part.completed := by
    rw [World.waiting, hf.calls, hf.part]
    exact h.gap
  have hseg := hcarries.seg
  rw [← hf.part] at hseg
  have hbusy := h.busy.fires hf
  have hcount := onWire_fires hf
  have harrival := hcarries.arrival
  generalize e.callback = callback at hheld hseg hbusy hcount harrival ⊢
  cases callback with
  | onWire i seg =>
      have hfree : onWire w' = 0 := by
        rcases h.busy with ⟨-, hone⟩ | ⟨-, hzero, -⟩
        · exact Nat.succ_injective (hcount.symm.trans hone)
        · exact absurd (hcount.symm.trans hzero) (Nat.succ_ne_zero _)
      obtain ⟨hpumped, hbusy, hquiet⟩ := pumpTransmit_spec c hheld hfree
      have hseg' := hquiet.history ▸ hseg
      obtain ⟨haccounted, hbusy', hquiet'⟩ := attemptDelivery_spec c hpumped hseg' hbusy 0
      refine .of_quiet haccounted hbusy' hquiet' ?_
      rw [World.waiting, hquiet.calls, hquiet.nextDeliverIdx, hquiet.completed]
      exact hgap
  | attemptDelivery i seg retryCount =>
      obtain ⟨haccounted, hbusy', hquiet⟩ :=
        attemptDelivery_spec c hheld hseg (hbusy rfl) retryCount
      exact .of_quiet haccounted hbusy' hquiet hgap
  | onArrived i seg time =>
      have htime : time ≤ w'.scheduler.now := by
        rw [hf.now, harrival i seg time rfl]
      obtain ⟨haccounted, hbusy', hgap'⟩ :=
        releaseInOrder_spec (hheld.completes hseg htime) (hbusy rfl)
      exact ⟨⟨[], haccounted, fun _ => rfl⟩, hbusy', hgap'⟩

end NaiveWorld

open NaiveWorld

theorem naiveLink_keeps : naiveLink.Keeps NaiveWorld.Valid where
  valid h := by
    obtain ⟨held, haccounted, -⟩ := h.accounted
    exact haccounted.valid
  around {w w'} h ha := by
    obtain ⟨held, haccounted, hheld⟩ := h.accounted
    refine ⟨⟨held, haccounted.around ha, ?_⟩, ?_, ?_⟩
    · rw [ha.raised]
      exact hheld
    · rw [Busy, onWire, ha.live.countP_eq, ha.part]
      exact h.busy
    · rw [ha.waiting, ha.part]
      exact h.gap
  enter input h hraised := h.enqueue hraised input.1 input.2
  fire input h hf := h.fire hf input
  resume {w rest calls} input h hraised hcalls := by
    have haccounted : Accounted [] { w with calls } :=
      { h.accounted_nil hraised with valid := (h.accounted_nil hraised).valid }
    obtain ⟨haccounted, hbusy, hgap⟩ := releaseInOrder_spec haccounted h.busy
    exact ⟨⟨[], haccounted, fun _ => rfl⟩, hbusy, hgap⟩

/-- What is promised of the segments. -/
structure DeliversInOrder (w : NaiveWorld) : Prop where
  /-- What was delivered is a beginning of what was enqueued. -/
  inOrder : w.part.history.delivered.map Delivery.seg <+: w.part.history.enqueued
  next : w.part.nextDeliverIdx = w.part.history.delivered.length
  /-- Each segment when it and all before it have arrived. -/
  times : w.part.history.delivered.map Delivery.deliverTime =
    releaseTimes 0 (w.part.history.delivered.map Delivery.arrivalTime)
  notSetBack : (w.part.history.delivered.map Delivery.deliverTime).Pairwise (· ≤ ·)
  notEarly : ∀ d ∈ w.part.history.delivered, d.deliverTime ≤ w.scheduler.now
  oneOnWire : onWire w ≤ 1
  /-- Unless the link is delivering, what has arrived is behind a segment that has not. -/
  withheld : w.waiting = [] → ∀ i ∈ w.part.completed, w.part.history.delivered.length < i
  /-- When nothing is left to execute, everything is delivered. -/
  complete : w.raised = none → w.waiting = [] → live w.scheduler = [] →
    w.part.history.delivered.map Delivery.seg = w.part.history.enqueued
  raises : ∀ r ∈ w.raised, r = .overflow

namespace NaiveWorld

variable {w : NaiveWorld} {held : List ℕ}

theorem Accounted.next (h : Accounted held w) :
    w.part.nextDeliverIdx = w.part.history.delivered.length := by
  have hlength := congrArg List.length h.delivered
  rw [List.length_map, List.length_take, min_eq_left h.le] at hlength
  exact hlength.symm

theorem Accounted.le_of_completed (h : Accounted held w) {i : ℕ} (hi : i ∈ w.part.completed) :
    w.part.nextDeliverIdx ≤ i :=
  (List.mem_range'_1.mp (h.spread.mem_iff.mp (List.mem_append_right _ (AList.mem_keys.mp hi)))).1

/-- Nothing is left: the wire is free, and there is no gap. -/
theorem Valid.nextDeliverIdx_eq (h : Valid w) (hraised : w.raised = none)
    (hwaiting : w.waiting = []) (hlive : live w.scheduler = []) :
    w.part.nextDeliverIdx = w.part.history.enqueued.length := by
  have haccounted := h.accounted_nil hraised
  have hempty : w.part.toTransmit = [] := by
    rcases h.busy with ⟨-, hone⟩ | ⟨-, -, hempty⟩
    · rw [onWire, hlive] at hone
      cases hone
    · exact hempty
  have hspread := haccounted.spread
  rw [hempty, travelling, hlive, List.map_nil, List.map_nil, List.append_nil, List.nil_append]
    at hspread
  refine haccounted.le.eq_of_not_lt fun hlt => h.gap hwaiting ?_
  refine AList.mem_keys.mpr (hspread.mem_iff.mpr (List.mem_range'_1.mpr ⟨le_rfl, ?_⟩))
  omega

theorem Valid.deliversInOrder (h : Valid w) : DeliversInOrder w := by
  obtain ⟨held, haccounted, -⟩ := h.accounted
  exact
    { inOrder := haccounted.delivered ▸ List.take_prefix _ _
      next := haccounted.next
      times := haccounted.times
      notSetBack := haccounted.times ▸ pairwise_releaseTimes 0 _
      notEarly := fun d hd => by
        have hmem := List.mem_map_of_mem (f := Delivery.deliverTime) hd
        rw [haccounted.times] at hmem
        have hle := releaseTimes_le 0 _ _ hmem
        rw [← haccounted.last] at hle
        exact hle.trans haccounted.last_le
      oneOnWire := by
        rcases h.busy with ⟨-, hone⟩ | ⟨-, hzero, -⟩
        · exact hone.le
        · exact hzero.le.trans zero_le_one
      withheld := fun hwaiting i hi => by
        rw [← haccounted.next]
        refine (haccounted.le_of_completed hi).lt_of_ne fun heq => h.gap hwaiting ?_
        rwa [heq]
      complete := fun hraised hwaiting hlive => by
        rw [haccounted.delivered, h.nextDeliverIdx_eq hraised hwaiting hlive, List.take_length]
      raises := haccounted.overflow }

end NaiveWorld

/-- The first of two segments is lost once, and the second waits for it. -/
example :
    let seg : ℕ → NaiveSegment := fun seq => ⟨0, 1000, .command, seq, .operatorToRobot⟩
    let c : Conditions :=
      { bandwidthMbps := 8, lossProb := 1 / 2, owdMs := 20, jitterMs := 5, random := 3 / 4 }
    let lost : Conditions := { c with random := 1 / 4 }
    let w := Runs.exec naiveLink.step (World.new .new)
      [.enter (c, seg 0), .enter (c, seg 1), .run 1, .turn lost, .turn c, .turn c, .turn c, .turn c,
        .returns c, .returns c]
    w.part.history.delivered =
      [⟨seg 0, 226 / 1000, 226 / 1000⟩, ⟨seg 1, 27 / 1000, 226 / 1000⟩] := by
  decide +kernel

end RoboTele.Sim
