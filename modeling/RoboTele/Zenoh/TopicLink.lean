import RoboTele.Core.RateCap
import RoboTele.Core.TopicOutbox

/-!
# The topic link

The link sends what waits in the outbox.  Latest samples leave as datagrams and
reliable ones on two streams, all under one cap.  A datagram needs room for one
of the largest size.  The streams leave as much alone while a datagram waits.
-/

namespace RoboTele

def cappedBacklogSecs : ℚ := 2

def minReliableBacklog : Nat := 1024 * 1024

/-- The backlog is what the cap sends in two seconds, and not too small. -/
def reliableBacklog (maxMbps : ℚ) : Nat :=
  if maxMbps ≤ 0 then defaultReliableBacklog
  else max (toUsize (maxMbps * 1000000 / 8 * cappedBacklogSecs)) minReliableBacklog

/-- Cap tokens the streams leave while latest datagrams wait. -/
def latestReserve : Nat := 1500

/-- Bytes handed to one write at most. -/
def topicChunk : Nat := 16 * 1024

namespace TopicOutbox

/-- A sample of a latest key waits. -/
def HasDatagram (o : TopicOutbox) : Prop := o.order ≠ []

instance (o : TopicOutbox) : Decidable o.HasDatagram := inferInstanceAs (Decidable (_ ≠ _))

/-- A datagram that is popped fits. -/
theorem length_le_of_popFrom {maxLen : Nat} {d : Bytes} :
    ∀ {line : List String} {o : TopicOutbox}, (o.popFrom maxLen line).2 = some d →
      d.length ≤ maxLen
  | [], _, h => absurd h.symm (Option.some_ne_none d)
  | key :: rest, o, h => by
      rw [popFrom] at h
      split at h
      · exact absurd h.symm (Option.some_ne_none d)
      · simp only at h
        split_ifs at h with hfits
        · exact Option.some.inj h ▸ hfits
        · exact length_le_of_popFrom h

end TopicOutbox

/-- The two lanes' streams are opened at their first write. -/
structure TopicLink where
  outbox : TopicOutbox
  cap : Option RateCap
  sendStreams : ReliableLane → Option Nat

namespace TopicLink

def new (maxMbps now : ℚ) : TopicLink where
  outbox := .withBacklog (reliableBacklog maxMbps)
  cap := RateCap.new maxMbps now
  sendStreams _ := none

/-- A sample of either mode. -/
def push (l : TopicLink) (mode : TopicMode) (s : TopicSample) : TopicLink :=
  { l with outbox := l.outbox.push mode s }

/-- A datagram, as far as the cap allows. -/
def popDatagram (l : TopicLink) (now : ℚ) (maxLen : Nat) : TopicLink × Option Bytes :=
  if ¬ l.outbox.HasDatagram then (l, none)
  else
    match l.cap with
    | none =>
        let (o, d) := l.outbox.popDatagram maxLen
        ({ l with outbox := o }, d)
    | some cap =>
        let (cap, room) := cap.available now
        if room < maxLen then ({ l with cap := some cap }, none)
        else
          match l.outbox.popDatagram maxLen with
          | (o, none) => ({ l with outbox := o, cap := some cap }, none)
          | (o, some d) => ({ l with outbox := o, cap := some (cap.consume d.length) }, some d)

/-! ## The reliable streams -/

/-- A lane while a call writes it. -/
structure LaneWrite where
  outbox : TopicOutbox
  written : Nat
  answers : List Answer

/-- Write a lane until it is empty, the connection takes less than it is offered,
or the budget is used up.  With no answers left nothing is taken.  On an error
the samples that wait are dropped. -/
def writeLane (o : TopicOutbox) (lane : ReliableLane) (left : Nat) : List Answer → LaneWrite
  | [] => { outbox := o, written := 0, answers := [] }
  | answer :: answers =>
      if left = 0 ∨ o.reliablePending lane = [] then
        { outbox := o, written := 0, answers := answer :: answers }
      else
        let stop := min (min (o.reliablePending lane).length topicChunk) left
        match answer with
        | .blocked => { outbox := o, written := 0, answers := answers }
        | .fails =>
            { outbox := o.consumeReliable lane usizeMax, written := 0, answers := answers }
        | .accepts n =>
            let n := min n stop
            let o := o.consumeReliable lane n
            if n < stop then { outbox := o, written := n, answers := answers }
            else
              let rest := writeLane o lane (left - n) answers
              { rest with written := n + rest.written }

/-- Pump one lane.  `allocate` gives the id of a stream to open. -/
def pumpLane (l : TopicLink) (lane : ReliableLane) (allocate : ReliableLane → Nat) (left : Nat)
    (answers : List Answer) : TopicLink × Nat × List Answer :=
  if left = 0 ∨ l.outbox.reliablePending lane = [] then (l, 0, answers)
  else
    let w := writeLane l.outbox lane left answers
    ({ l with
        outbox := w.outbox
        sendStreams := Function.update l.sendStreams lane
          (some ((l.sendStreams lane).getD (allocate lane))) },
      w.written, w.answers)

/-- Pump the small lane, and the large one once nothing waits on the small one. -/
def pumpLanes (l : TopicLink) (allocate : ReliableLane → Nat) (left : Nat)
    (answers : List Answer) : TopicLink × Nat :=
  let (l, small, answers) := l.pumpLane .small allocate left answers
  if l.outbox.reliablePending .small ≠ [] then (l, small)
  else
    let (l, large, _) := l.pumpLane .large allocate (left - small) answers
    (l, small + large)

/-- Write waiting reliable bytes, with how many the connection took. -/
def pumpReliable (l : TopicLink) (now : ℚ) (allocate : ReliableLane → Nat) (budget : Option Nat)
    (answers : List Answer) : TopicLink × Nat :=
  if l.outbox.reliablePending .small = [] ∧ l.outbox.reliablePending .large = [] then (l, 0)
  else
    let reserve := if l.outbox.HasDatagram then latestReserve else 0
    let available := l.cap.map fun cap => cap.available now
    let capped := available.map fun a => a.2 - reserve
    let left := min (budget.getD usizeMax) (capped.getD usizeMax)
    let (l, written) := { l with cap := available.map Prod.fst }.pumpLanes allocate left answers
    ({ l with cap := l.cap.map fun cap => cap.consume written }, written)

/-! ## What the calls take -/

/-- Under a cap a pop finds no datagram, or refills the cap and pops none or one
that the cap has room for. -/
theorem popDatagram_spec {l : TopicLink} {cap : RateCap} (hcap : l.cap = some cap) (now : ℚ)
    (maxLen : Nat) :
    l.popDatagram now maxLen = (l, none) ∨
      (∃ link, l.popDatagram now maxLen = (link, none) ∧ link.cap = some (cap.refill now)) ∨
      ∃ link d, l.popDatagram now maxLen = (link, some d) ∧
        d.length ≤ (cap.available now).2 ∧
        link.cap = some ((cap.refill now).consume d.length) := by
  rw [popDatagram]
  by_cases hwaiting : l.outbox.HasDatagram
  · rw [if_neg (not_not_intro hwaiting), hcap]
    simp only
    split_ifs with hroom
    · exact .inr (.inl ⟨_, rfl, rfl⟩)
    · cases hpop : l.outbox.popDatagram maxLen with
      | mk o d =>
          cases d with
          | none => exact .inr (.inl ⟨_, rfl, rfl⟩)
          | some d =>
              have hfits := TopicOutbox.length_le_of_popFrom (congrArg Prod.snd hpop)
              exact .inr (.inr ⟨_, d, rfl, hfits.trans (not_lt.mp hroom), rfl⟩)
  · rw [if_pos hwaiting]
    exact .inl rfl

/-- A lane writes no more than it may, and leaves the datagrams' order alone. -/
theorem writeLane_spec (lane : ReliableLane) : ∀ (answers : List Answer) (o : TopicOutbox)
    (left : Nat), (writeLane o lane left answers).written ≤ left ∧
      (writeLane o lane left answers).outbox.order = o.order
  | [], _, _ => ⟨Nat.zero_le _, rfl⟩
  | answer :: answers, o, left => by
      rw [writeLane]
      by_cases hnone : left = 0 ∨ o.reliablePending lane = []
      · rw [if_pos hnone]
        exact ⟨Nat.zero_le _, rfl⟩
      rw [if_neg hnone]
      cases answer with
      | blocked => exact ⟨Nat.zero_le _, rfl⟩
      | fails => exact ⟨Nat.zero_le _, rfl⟩
      | accepts n =>
          simp only
          set stop := min (min (o.reliablePending lane).length topicChunk) left
          have hstop : stop ≤ left := Nat.min_le_right _ _
          split_ifs with hshort
          · exact ⟨(Nat.min_le_right _ _).trans hstop, rfl⟩
          · obtain ⟨hwritten, horder⟩ := writeLane_spec lane answers
              (o.consumeReliable lane (min n stop)) (left - min n stop)
            refine ⟨?_, horder⟩
            change min n stop + _ ≤ left
            omega

/-- So does the pump of one lane, and the cap is not charged for it. -/
theorem pumpLane_spec (l : TopicLink) (lane : ReliableLane) (allocate : ReliableLane → Nat)
    (left : Nat) (answers : List Answer) :
    (l.pumpLane lane allocate left answers).2.1 ≤ left ∧
      (l.pumpLane lane allocate left answers).1.outbox.order = l.outbox.order ∧
      (l.pumpLane lane allocate left answers).1.cap = l.cap := by
  rw [pumpLane]
  split_ifs
  · exact ⟨Nat.zero_le _, rfl, rfl⟩
  · obtain ⟨hwritten, horder⟩ := writeLane_spec lane answers l.outbox left
    exact ⟨hwritten, horder, rfl⟩

/-- The two lanes stay inside the budget, and leave the datagrams and the cap. -/
theorem pumpLanes_spec (l : TopicLink) (allocate : ReliableLane → Nat) (left : Nat)
    (answers : List Answer) :
    (l.pumpLanes allocate left answers).2 ≤ left ∧
      (l.pumpLanes allocate left answers).1.outbox.order = l.outbox.order ∧
      (l.pumpLanes allocate left answers).1.cap = l.cap := by
  obtain ⟨hsmall, horder, hcap⟩ := l.pumpLane_spec .small allocate left answers
  rw [pumpLanes]
  simp only
  by_cases hmore : (l.pumpLane .small allocate left answers).1.outbox.reliablePending .small ≠ []
  · rw [if_pos hmore]
    exact ⟨hsmall, horder, hcap⟩
  · rw [if_neg hmore]
    obtain ⟨hlarge, horder', hcap'⟩ := (l.pumpLane .small allocate left answers).1.pumpLane_spec
      .large allocate (left - (l.pumpLane .small allocate left answers).2.1)
      (l.pumpLane .small allocate left answers).2.2
    refine ⟨?_, horder'.trans horder, hcap'.trans hcap⟩
    exact (Nat.add_le_add_left hlarge _).trans_eq (Nat.add_sub_of_le hsmall)

/-- A pump does nothing, or refills the cap and takes no more than it has above
the reserve. -/
theorem pumpReliable_spec {l : TopicLink} {cap : RateCap} (hcap : l.cap = some cap) (now : ℚ)
    (allocate : ReliableLane → Nat) (budget : Option Nat) (answers : List Answer) :
    l.pumpReliable now allocate budget answers = (l, 0) ∨
      ((l.pumpReliable now allocate budget answers).1.cap =
          some ((cap.refill now).consume (l.pumpReliable now allocate budget answers).2) ∧
        (l.pumpReliable now allocate budget answers).2 ≤
          (cap.available now).2 - (if l.outbox.HasDatagram then latestReserve else 0) ∧
        (l.pumpReliable now allocate budget answers).1.outbox.order = l.outbox.order) := by
  rw [pumpReliable]
  by_cases hempty : l.outbox.reliablePending .small = [] ∧ l.outbox.reliablePending .large = []
  · rw [if_pos hempty]
    exact .inl rfl
  · rw [if_neg hempty]
    refine .inr ?_
    simp only [hcap, Option.map_some, Option.getD_some]
    set reserve := if l.outbox.HasDatagram then latestReserve else 0
    set left := min (budget.getD usizeMax) ((cap.available now).2 - reserve)
    obtain ⟨hwritten, horder, hcap'⟩ :=
      { l with cap := some (cap.available now).1 }.pumpLanes_spec allocate left answers
    refine ⟨?_, hwritten.trans (Nat.min_le_right _ _), horder⟩
    rw [hcap']
    rfl

end TopicLink

end RoboTele
