import RoboTele.Core.TopicRuns
import RoboTele.Queues.Merge

/-!
# The order of a key's samples

The two streams of an outbox are each in order, and nothing orders one against
the other.  The receiver has a reader for each.  `DeliveredInOrder` is what
reliable topics promise: the samples of a key come out in the order of their
push and none is missing, whatever part of the streams has arrived and however
the two are merged.

A key whose samples are all on one lane keeps that.  The outbox leaves a key on
the large lane while a sample of it waits there, but only until the transport has
taken the sample.  What the transport took may still be under way, and then a
small sample overtakes it.  A large sample also overtakes a small one that still
waits.  `deliveredInOrder_iff` says that nothing else goes wrong, and
`deliveredInOrder_fails_for_overtaking` is the shortest such run.
-/

namespace RoboTele

open Runs Past Queues TopicRun

/-- The pieces that arrive on a stream. -/
def bytesOn (ds : List (ReliableLane × Bytes)) (lane : ReliableLane) : List Bytes :=
  (ds.filter fun d => d.1 = lane).map Prod.snd

/-- What two readers make of the pieces, each with its stream. -/
def deliver (rs : ReliableLane → TopicStreamReader) :
    List (ReliableLane × Bytes) → List (ReliableLane × TopicOutcome)
  | [] => []
  | (lane, data) :: rest =>
      ((rs lane).push data).2.map (fun out => (lane, out)) ++
        deliver (Function.update rs lane ((rs lane).push data).1) rest

/-- The samples that two fresh readers yield. -/
def yielded (ds : List (ReliableLane × Bytes)) : List TopicSample :=
  samplesOf ((deliver (fun _ => .new) ds).map Prod.snd)

namespace TopicRun

/-- The pieces are what the transport took, or part of it, in the order of each
stream. -/
def IsDelivery (r : TopicRun) (ds : List (ReliableLane × Bytes)) : Prop :=
  ∀ lane, (bytesOn ds lane).flatten <+: r.taken lane

/-- Everything was taken and has arrived. -/
def AllArrived (r : TopicRun) (ds : List (ReliableLane × Bytes)) : Prop :=
  ∀ lane, r.outbox.reliablePending lane = [] ∧ (bytesOn ds lane).flatten = r.taken lane

/-- The samples of a key come out in the order of their push, and in the end all
of them. -/
def DeliveredInOrder (r : TopicRun) : Prop :=
  ∀ ds, r.IsDelivery ds → ∀ key : String,
    (yielded ds).filter (fun s => s.key = key) <+:
        (r.accepted.map Prod.snd).filter (fun s => s.key = key) ∧
      (r.AllArrived ds → (yielded ds).filter (fun s => s.key = key) =
        (r.accepted.map Prod.snd).filter (fun s => s.key = key))

/-- No sample that was taken whole comes after one of its key on the other
lane. -/
def KeysKeepToLane (r : TopicRun) : Prop :=
  KeepsToLane TopicSample.key (fun lane => (r.takenWhole lane).length) r.accepted

instance (r : TopicRun) : Decidable r.KeysKeepToLane :=
  inferInstanceAs (Decidable (KeepsToLane _ _ _))

end TopicRun

/-! ## What arrives on each stream -/

/-- A lane's samples are read from that lane's bytes. -/
theorem deliver_onLane (lane : ReliableLane) : ∀ (ds : List (ReliableLane × Bytes))
    (rs : ReliableLane → TopicStreamReader),
    onLane lane (deliver rs ds) = ((rs lane).feed (bytesOn ds lane)).2.map fun out => (lane, out)
  | [], _ => rfl
  | (dest, data) :: rest, rs => by
      rw [deliver, onLane_append, deliver_onLane lane rest]
      by_cases hlane : dest = lane
      · subst hlane
        have hon : bytesOn ((dest, data) :: rest) dest = data :: bytesOn rest dest := by
          simp [bytesOn]
        rw [hon, TopicStreamReader.feed, Function.update_self, List.map_append, onLane_of_forall]
        intro x hx
        obtain ⟨out, -, rfl⟩ := List.mem_map.mp hx
        rfl
      · have hon : bytesOn ((dest, data) :: rest) lane = bytesOn rest lane := by
          simp [bytesOn, hlane]
        rw [hon, Function.update_of_ne (Ne.symm hlane), onLane_of_forall_ne, List.nil_append]
        intro x hx
        obtain ⟨out, -, rfl⟩ := List.mem_map.mp hx
        exact hlane

/-- The samples of a delivery with their streams. -/
def samplesWithLanes (outs : List (ReliableLane × TopicOutcome)) :
    List (ReliableLane × TopicSample) :=
  outs.filterMap fun out =>
    match out.2 with
    | .ok s => some (out.1, s)
    | .error _ => none

theorem samplesOf_map_snd (outs : List (ReliableLane × TopicOutcome)) :
    samplesOf (outs.map Prod.snd) = (samplesWithLanes outs).map Prod.snd := by
  induction outs with
  | nil => rfl
  | cons out outs ih =>
      obtain ⟨lane, out⟩ := out
      cases out with
      | ok s => exact congrArg (s :: ·) ih
      | error e => exact ih

theorem onLane_samplesWithLanes (lane : ReliableLane) (outs : List (ReliableLane × TopicOutcome)) :
    onLane lane (samplesWithLanes outs) = samplesWithLanes (onLane lane outs) := by
  induction outs with
  | nil => rfl
  | cons out outs ih =>
      obtain ⟨dest, out⟩ := out
      by_cases hlane : dest = lane
      · rw [onLane_cons_of_eq (x := (dest, out)) hlane]
        cases out with
        | ok s =>
            show onLane lane ((dest, s) :: samplesWithLanes outs) = _
            rw [onLane_cons_of_eq (x := (dest, s)) hlane, ih]
            rfl
        | error e => exact ih
      · rw [onLane_cons_of_ne (x := (dest, out)) hlane]
        cases out with
        | ok s =>
            show onLane lane ((dest, s) :: samplesWithLanes outs) = _
            rw [onLane_cons_of_ne (x := (dest, s)) hlane, ih]
        | error e => exact ih

theorem samplesWithLanes_map_ok (lane : ReliableLane) : ∀ ss : List TopicSample,
    samplesWithLanes ((ss.map Except.ok).map fun out => (lane, out)) = ss.map fun s => (lane, s)
  | [] => rfl
  | s :: ss => congrArg ((lane, s) :: ·) (samplesWithLanes_map_ok lane ss)

/-- The samples that two fresh readers yield, with their streams. -/
def yieldedWithLanes (ds : List (ReliableLane × Bytes)) : List (ReliableLane × TopicSample) :=
  samplesWithLanes (deliver (fun _ => .new) ds)

theorem yielded_eq (ds : List (ReliableLane × Bytes)) :
    yielded ds = (yieldedWithLanes ds).map Prod.snd :=
  samplesOf_map_snd _

namespace TopicRun

variable {r : TopicRun} {ds : List (ReliableLane × Bytes)}

/-- What a delivery yields on a stream: the samples whose frames it completes. -/
theorem onLane_yieldedWithLanes (hinv : ∀ lane, r.LaneInv lane) (hgood : r.AllSendable)
    (hds : r.IsDelivery ds) (lane : ReliableLane) :
    onLane lane (yieldedWithLanes ds) =
      (Framing.complete TopicSample.frameLen (r.acceptedOn lane)
        ((bytesOn ds lane).flatten.length - 2)).1.map fun s => (lane, s) := by
  have hpre : (bytesOn ds lane).flatten <+: streamOf (r.acceptedOn lane) :=
    (hds lane).trans ⟨_, (hinv lane).stream⟩
  rw [yieldedWithLanes, onLane_samplesWithLanes, deliver_onLane,
    TopicStreamReader.feed_streamOf (hgood.acceptedOn lane) hpre, samplesWithLanes_map_ok]

/-- The samples accepted on a lane, with the lane. -/
theorem onLane_accepted (r : TopicRun) (lane : ReliableLane) :
    onLane lane r.accepted = (r.acceptedOn lane).map fun s => (lane, s) := by
  rw [acceptedOn, List.map_map]
  refine (List.map_id _).symm.trans (List.map_congr_left ?_)
  intro x hx
  exact Prod.ext (mem_onLane.mp hx).2 rfl

/-- What was taken whole was accepted first. -/
theorem takenWhole_isPrefix (r : TopicRun) (lane : ReliableLane) :
    (r.takenWhole lane).map (fun s => (lane, s)) <+: onLane lane r.accepted := by
  rw [onLane_accepted]
  exact (Framing.complete_isPrefix _ _ _).map _

theorem map_snd_keyed (key : String) (l : List (ReliableLane × TopicSample)) :
    (keyed TopicSample.key key l).map Prod.snd =
      (l.map Prod.snd).filter (fun s => s.key = key) := by
  rw [List.filter_map]
  rfl

/-- Keys that keep to their lanes are delivered in order. -/
theorem deliveredInOrder_of_keysKeepToLane (hinv : ∀ lane, r.LaneInv lane) (hgood : r.AllSendable)
    (hkeeps : r.KeysKeepToLane) : r.DeliveredInOrder := by
  intro ds hds key
  have hon := onLane_yieldedWithLanes hinv hgood hds
  have hle : ∀ lane, (bytesOn ds lane).flatten.length - 2 ≤ (r.taken lane).length - 2 :=
    fun lane => Nat.sub_le_sub_right (hds lane).length_le 2
  have hlanes : ∀ lane, onLane lane (yieldedWithLanes ds) <+: onLane lane r.accepted := by
    intro lane
    rw [hon]
    exact ((Framing.complete_mono _ _ (hle lane)).map _).trans (r.takenWhole_isPrefix lane)
  have hn : ∀ lane, (onLane lane (yieldedWithLanes ds)).length ≤ (r.takenWhole lane).length := by
    intro lane
    rw [hon, List.length_map]
    exact (Framing.complete_mono _ _ (hle lane)).length_le
  have hpre := keyed_isPrefix hlanes hn hkeeps key
  rw [yielded_eq, ← map_snd_keyed, ← map_snd_keyed]
  refine ⟨hpre.map Prod.snd, ?_⟩
  intro hall
  have hsame : ∀ lane, onLane lane (yieldedWithLanes ds) = onLane lane r.accepted := by
    intro lane
    obtain ⟨hempty, harrived⟩ := hall lane
    rw [hon, harrived, onLane_accepted]
    exact congrArg (List.map fun s => (lane, s)) ((hinv lane).takenWhole_of_empty hempty)
  have hperm := perm_of_onLane hsame
  rw [hpre.eq_of_length (hperm.filter _).length_eq]

/-! ## The lanes that the outbox picks -/

/-- The lane that the size of a sample tells. -/
def laneBySize (s : TopicSample) : ReliableLane :=
  if smallSampleMax < s.encodedLen then .large else .small

/-- A key in `largePending` has its last sample on the large lane. -/
structure PicksLanes (r : TopicRun) : Prop where
  pending : ∀ key ∈ r.outbox.largePending,
    ∃ a, (keyed TopicSample.key key r.accepted).getLast? = some a ∧ a.1 = .large
  switches : SwitchesByItem TopicSample.key laneBySize r.accepted

end TopicRun

namespace TopicOutbox

variable {o : TopicOutbox}

theorem mem_of_mem_countDown {pending : AList fun _ : String => Nat} {key k : String}
    (h : key ∈ countDown pending k) : key ∈ pending := by
  rw [countDown] at h
  split at h
  · exact h
  · next count hcount =>
      split_ifs at h
      · exact (AList.mem_erase.mp h).2
      · rcases (AList.mem_insert _).mp h with rfl | hmem
        · exact AList.lookup_isSome.mp (by rw [hcount]; rfl)
        · exact hmem

theorem mem_of_mem_release {consumed : Nat} {key : String} :
    ∀ {frames : List (String × Nat)} {pending : AList fun _ : String => Nat},
      key ∈ (release consumed frames pending).2 → key ∈ pending
  | [], _, h => h
  | (k, stop) :: frames, pending, h => by
      rw [release] at h
      split_ifs at h
      · exact mem_of_mem_countDown (mem_of_mem_release h)
      · exact h

theorem largePending_pushLatest (o : TopicOutbox) (s : TopicSample) :
    (o.pushLatest s).largePending = o.largePending := by
  rw [pushLatest]
  split_ifs <;> rfl

theorem largePending_popFrom (maxLen : Nat) : ∀ (line : List String) (o : TopicOutbox),
    (o.popFrom maxLen line).1.largePending = o.largePending
  | [], _ => rfl
  | key :: rest, o => by
      rw [popFrom]
      split
      · rfl
      · show (if _ then _ else _ : TopicOutbox × Option Bytes).1.largePending = o.largePending
        split_ifs
        · rfl
        · exact largePending_popFrom maxLen rest _

/-- A push adds the key if the sample goes on the large lane. -/
theorem mem_largePending_pushReliable {s : TopicSample} {key : String}
    (h : key ∈ (o.pushReliable s).largePending) :
    key ∈ o.largePending ∨ o.Accepts s ∧ o.laneFor s = .large ∧ key = s.key := by
  simp only [pushReliable] at h
  split_ifs at h with haccepts hlarge
  · rcases (AList.mem_insert _).mp h with rfl | hmem
    · exact .inr ⟨haccepts, hlarge, rfl⟩
    · exact .inl hmem
  · exact .inl h
  · exact .inl h

/-- A key with large samples pending stays on the large lane. -/
theorem laneFor_of_mem {s : TopicSample} (h : s.key ∈ o.largePending) : o.laneFor s = .large :=
  if_pos (.inr h)

/-- Otherwise the size picks the lane. -/
theorem laneFor_of_notMem {s : TopicSample} (h : s.key ∉ o.largePending) :
    o.laneFor s = TopicRun.laneBySize s := by
  rw [laneFor, TopicRun.laneBySize]
  exact if_congr (or_iff_left h) rfl rfl

end TopicOutbox

namespace TopicRun

variable {r : TopicRun}

theorem PicksLanes.of_accepted (h : r.PicksLanes) {r' : TopicRun}
    (haccepted : r'.accepted = r.accepted)
    (hpending : ∀ key ∈ r'.outbox.largePending, key ∈ r.outbox.largePending) : r'.PicksLanes where
  pending key hkey := haccepted ▸ h.pending key (hpending key hkey)
  switches := haccepted ▸ h.switches

/-- A new sample is on the lane that its key and size pick. -/
theorem PicksLanes.pushReliable (h : r.PicksLanes) (s : TopicSample) :
    (r.pushReliable s).PicksLanes := by
  by_cases haccepts : r.outbox.Accepts s
  · have haccepted : (r.pushReliable s).accepted = r.accepted ++ [(r.outbox.laneFor s, s)] :=
      if_pos haccepts
    refine ⟨?_, ?_⟩
    · intro key hkey
      rw [haccepted, keyed_append]
      by_cases hsame : s.key = key
      · refine ⟨(r.outbox.laneFor s, s), ?_, ?_⟩
        · rw [keyed_cons_of_eq (x := (r.outbox.laneFor s, s)) hsame]
          exact List.getLast?_concat
        · rcases TopicOutbox.mem_largePending_pushReliable hkey with hold | ⟨-, hlarge, -⟩
          · exact TopicOutbox.laneFor_of_mem (hsame ▸ hold)
          · exact hlarge
      · have hnone : keyed TopicSample.key key [(r.outbox.laneFor s, s)] = [] := by
          simp [keyed, hsame]
        rw [hnone, List.append_nil]
        rcases TopicOutbox.mem_largePending_pushReliable hkey with hold | ⟨-, -, hnew⟩
        · exact h.pending key hold
        · exact absurd hnew.symm hsame
    · rw [SwitchesByItem, haccepted, always_concat]
      refine ⟨h.switches, ?_⟩
      by_cases hmem : s.key ∈ r.outbox.largePending
      · obtain ⟨a, ha, hlarge⟩ := h.pending s.key hmem
        exact .inl ⟨a, ha, hlarge.trans (TopicOutbox.laneFor_of_mem hmem).symm⟩
      · exact .inr (TopicOutbox.laneFor_of_notMem hmem).symm
  · refine h.of_accepted (if_neg haccepts) ?_
    intro key hkey
    exact (TopicOutbox.mem_largePending_pushReliable hkey).resolve_right fun hnew =>
      haccepts hnew.1

/-- Every event keeps the choice of lanes. -/
theorem PicksLanes.step (h : r.PicksLanes) (e : Event) : (r.step e).PicksLanes := by
  cases e with
  | push mode s =>
      cases mode with
      | latest =>
          exact h.of_accepted rfl fun key hkey => by
            rwa [TopicRun.step, TopicOutbox.largePending_pushLatest] at hkey
      | reliable => exact h.pushReliable s
  | popDatagram maxLen =>
      exact h.of_accepted rfl fun key hkey => by
        rwa [TopicRun.step, TopicOutbox.popDatagram, TopicOutbox.largePending_popFrom] at hkey
  | consumeReliable lane n =>
      exact h.of_accepted rfl fun key hkey => TopicOutbox.mem_of_mem_release hkey

/-- So does every run. -/
theorem picksLanes_after (reliableBacklog : Nat) (es : List Event) :
    (after reliableBacklog es).PicksLanes := by
  refine exec_inv (I := fun r : TopicRun => r.PicksLanes) (fun _ e h => h.step e) es ⟨?_, ?_⟩
  · intro key hkey
    exact absurd hkey (AList.notMem_empty key)
  · exact always_nil _

/-! ## Where the order holds -/

/-- One stream that arrives alone. -/
theorem yieldedWithLanes_alone (hinv : ∀ lane, r.LaneInv lane) (hgood : r.AllSendable)
    (lane : ReliableLane) : r.IsDelivery [(lane, r.taken lane)] ∧
      yieldedWithLanes [(lane, r.taken lane)] =
        (r.takenWhole lane).map fun s => (lane, s) := by
  have hself : bytesOn [(lane, r.taken lane)] lane = [r.taken lane] := by
    simp [bytesOn]
  have hother : ∀ dest, lane ≠ dest → bytesOn [(lane, r.taken lane)] dest = [] := by
    intro dest hne
    simp [bytesOn, hne]
  have hds : r.IsDelivery [(lane, r.taken lane)] := by
    intro dest
    by_cases hlane : lane = dest
    · subst hlane
      rw [hself, List.flatten_singleton]
    · rw [hother dest hlane]
      exact List.nil_prefix
  have hon := onLane_yieldedWithLanes hinv hgood hds
  refine ⟨hds, ?_⟩
  have hall : ∀ x ∈ yieldedWithLanes [(lane, r.taken lane)], x.1 = lane := by
    intro x hx
    by_contra hne
    have hmem := mem_onLane.mpr ⟨hx, rfl⟩
    rw [hon, hother x.1 (Ne.symm hne), List.flatten_nil, List.length_nil,
      Framing.complete_zero _ fun s _ => s.frameLen_pos] at hmem
    exact absurd hmem List.not_mem_nil
  rw [← onLane_of_forall hall, hon, hself, List.flatten_singleton]
  rfl

/-- What is delivered in order keeps to its lanes. -/
theorem keysKeepToLane_of_deliveredInOrder (hinv : ∀ lane, r.LaneInv lane) (hgood : r.AllSendable)
    (hpicks : r.PicksLanes) (h : r.DeliveredInOrder) : r.KeysKeepToLane := by
  intro pre x post hsplit hlt y hy hkey
  by_contra hlane
  obtain ⟨hds, hyielded⟩ := yieldedWithLanes_alone hinv hgood x.1
  have horder := (h _ hds x.2.key).1
  rw [yielded_eq, ← map_snd_keyed, ← map_snd_keyed] at horder
  refine not_isPrefix_of_switch hpicks.switches hsplit hy hkey hlane ?_ horder
  rw [hyielded]
  -- Both are first items of the lane, and the lane's items before `x` are fewer.
  refine List.prefix_of_prefix_length_le ?_ (r.takenWhole_isPrefix x.1) ?_
  · rw [hsplit, show pre ++ x :: post = pre ++ [x] ++ post by simp, onLane_append x.1 _ post]
    exact List.prefix_append _ _
  · rw [onLane_append, onLane_cons_of_eq rfl, List.length_append, List.length_map]
    exact hlt

end TopicRun

/-- Reliable samples are delivered in order exactly if each key keeps to one
lane, as far as the transport took its samples. -/
theorem deliveredInOrder_iff (reliableBacklog : Nat) (es : List TopicRun.Event)
    (hkeys : ∀ e ∈ es, e.KeyOk) :
    (TopicRun.after reliableBacklog es).DeliveredInOrder ↔
      (TopicRun.after reliableBacklog es).KeysKeepToLane := by
  have hinv := TopicRun.laneInv_after reliableBacklog es
  have hgood := TopicRun.allSendable_after reliableBacklog es hkeys
  exact ⟨TopicRun.keysKeepToLane_of_deliveredInOrder hinv hgood
      (TopicRun.picksLanes_after reliableBacklog es),
    TopicRun.deliveredInOrder_of_keysKeepToLane hinv hgood⟩

/-- A large sample that the transport took at once, and then a small one of the
same key. -/
def overtaking : List TopicRun.Event :=
  [.push .reliable { key := "map", attachment := [], payload := List.replicate 16384 0 },
    .consumeReliable .large 20000,
    .push .reliable { key := "map", attachment := [], payload := [] },
    .consumeReliable .small 100]

/-- A small sample overtakes a large one of its key. -/
theorem deliveredInOrder_fails_for_overtaking :
    ¬ (TopicRun.after defaultReliableBacklog overtaking).DeliveredInOrder := by
  intro h
  have hkeeps := TopicRun.keysKeepToLane_of_deliveredInOrder
    (TopicRun.laneInv_after defaultReliableBacklog overtaking)
    (TopicRun.allSendable_after defaultReliableBacklog overtaking (by decide +kernel))
    (TopicRun.picksLanes_after defaultReliableBacklog overtaking) h
  revert hkeeps
  decide +kernel

/-- Two small samples of one key, the second one taken in two pieces. -/
def twoOfOneKey : List TopicRun.Event :=
  [.push .reliable { key := "map", attachment := [], payload := [1] },
    .consumeReliable .small 100,
    .push .reliable { key := "map", attachment := [], payload := [2] },
    .consumeReliable .small 6,
    .consumeReliable .small 100]

/-- Two small samples of one key. -/
theorem deliveredInOrder_iff_twoOfOneKey :
    (TopicRun.after defaultReliableBacklog twoOfOneKey).DeliveredInOrder :=
  (deliveredInOrder_iff defaultReliableBacklog twoOfOneKey (by decide +kernel)).mpr
    (by decide +kernel)

end RoboTele
