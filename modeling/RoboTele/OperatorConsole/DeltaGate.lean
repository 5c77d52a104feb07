import RoboTele.Runs.Machine
import RoboTele.Core.Video
import Mathlib.Data.List.Range
import Mathlib.Data.List.Induction

/-!
# The delta gate

A delta frame references the frame before it, so after a missing delta every
later one of its group of pictures decodes as smear until the next IDR.  The
operator console sees the robot's sequential NAL ids, and its gate turns a gap
in them into a freeze: deltas are held back until the next IDR.  An id far
below the expected one is a new stream, which the gate starts over from.

`ChainsToIdr` is what the gate is for.  Every delta it accepts follows an IDR
of the same stream that it accepted, the gate saw every id between the two in
order, and playback never overflowed in between.

The gate of a new stream is not frozen, so it accepts the deltas that come
before the stream's first IDR.  `chainsToIdr_of_opened` gives the rule for
every run in which no stream opens like that, and
`chainsToIdr_fails_for_firstDelta` is the run of one delta.
-/

namespace RoboTele

open Runs

/-- A new id this far below the expected one is a new stream. -/
def restartGap : UInt32 := 1000

/-- `u32::saturating_add`. -/
def saturatingAdd (a b : UInt32) : UInt32 :=
  if a.toNat + b.toNat < UInt32.size then a + b else UInt32.ofNat (UInt32.size - 1)

/-- Counts for the HUD. -/
structure GateStats where
  freezes : Nat
  deltasHeld : Nat
deriving DecidableEq

/-- The id expected next, once one has been seen, and whether deltas are held
back. -/
structure DeltaGate where
  nextId : Option UInt32
  frozen : Bool
  stats : GateStats
deriving DecidableEq

namespace DeltaGate

def new : DeltaGate where
  nextId := none
  frozen := false
  stats := { freezes := 0, deltasHeld := 0 }

/-- Hold deltas back until the next IDR. -/
def freeze (g : DeltaGate) : DeltaGate :=
  if g.frozen then g
  else { g with frozen := true, stats := { g.stats with freezes := g.stats.freezes + 1 } }

/-- Playback has lost something that the gate let through. -/
def playbackOverflowed (g : DeltaGate) : DeltaGate := g.freeze

/-- The id starts a new stream. -/
def Restarts (g : DeltaGate) (nalId : UInt32) : Prop :=
  ∃ expected ∈ g.nextId, saturatingAdd nalId restartGap < expected

instance (g : DeltaGate) (nalId : UInt32) : Decidable (g.Restarts nalId) :=
  inferInstanceAs (Decidable (∃ expected ∈ g.nextId, _))

/-- The gate after the check for a new stream. -/
def restart (g : DeltaGate) (nalId : UInt32) : DeltaGate :=
  if g.Restarts nalId then { new with stats := g.stats } else g

/-- What an id that is not late does. -/
def admitNext (g : DeltaGate) (nalId : UInt32) (nalType : UInt8) : DeltaGate × Bool :=
  let g := { g with nextId := some (nalId + 1) }
  if nalType = nalSps ∨ nalType = nalPps then (g, true)
  else if nalType = nalIdr then ({ g with frozen := false }, true)
  else if g.frozen then
    ({ g with stats := { g.stats with deltasHeld := g.stats.deltasHeld + 1 } }, false)
  else (g, true)

/-- `admit`: whether this NAL should go to the decoder. -/
def admitNal (g : DeltaGate) (nalId : UInt32) (nalType : UInt8) : DeltaGate × Bool :=
  let g := g.restart nalId
  match g.nextId with
  | none => g.admitNext nalId nalType
  | some expected =>
      if nalId < expected then (g, decide (nalType = nalSps ∨ nalType = nalPps))
      else if expected < nalId then g.freeze.admitNext nalId nalType
      else g.admitNext nalId nalType

/-- A call of the gate. -/
inductive Call where
  | admitNal (nalId : UInt32) (nalType : UInt8)
  | playbackOverflowed
deriving DecidableEq

namespace Call

/-- The id the gate is called on. -/
def nalId? : Call → Option UInt32
  | admitNal nalId _ => some nalId
  | playbackOverflowed => none

end Call

/-- A call of the gate. -/
def step (g : DeltaGate) : Call → DeltaGate
  | .admitNal nalId nalType => (g.admitNal nalId nalType).1
  | .playbackOverflowed => g.playbackOverflowed

/-- The gate after a list of calls. -/
def after (calls : List Call) : DeltaGate := exec step new calls

theorem after_concat (calls : List Call) (c : Call) :
    after (calls ++ [c]) = (after calls).step c :=
  exec_concat step new calls c

/-! ## What the gate is for -/

/-- The call keeps the stream and is no overflow. -/
def Continues (g : DeltaGate) : Call → Prop
  | .admitNal nalId _ => ¬ g.Restarts nalId
  | .playbackOverflowed => False

/-- The gate accepts an IDR of id `i`, then sees every id after `i` and below
`d` in order, with no new stream and no overflow. -/
structure ChainFrom (past : List Call) (i d : UInt32) (before between : List Call) : Prop where
  split : past = before ++ .admitNal i nalIdr :: between
  accepted : ((after before).admitNal i nalIdr).2 = true
  continues : Along step Continues (after (before ++ [.admitNal i nalIdr])) between
  saw : (List.range' (i.toNat + 1) (d.toNat - (i.toNat + 1))).Sublist
    ((between.filterMap Call.nalId?).map UInt32.toNat)

/-- Every accepted delta follows an IDR of its stream through every id between
them. -/
def ChainsToIdr (calls : List Call) : Prop :=
  ∀ past d nalType rest, calls = past ++ .admitNal d nalType :: rest → IsDelta nalType →
    ((after past).admitNal d nalType).2 = true →
      ¬ (after past).Restarts d ∧
        ∃ i before between, i < d ∧ ChainFrom past i d before between

/-! ## The condition -/

/-- The id is below the expected one of the same stream. -/
def Late (g : DeltaGate) (nalId : UInt32) : Prop :=
  ¬ g.Restarts nalId ∧ ∃ expected ∈ g.nextId, nalId < expected

/-- The id is above the expected one. -/
def Gap (g : DeltaGate) (nalId : UInt32) : Prop :=
  ¬ g.Restarts nalId ∧ ∃ expected ∈ g.nextId, expected < nalId

instance (g : DeltaGate) (nalId : UInt32) : Decidable (g.Late nalId) :=
  inferInstanceAs (Decidable (_ ∧ ∃ expected ∈ g.nextId, _))

instance (g : DeltaGate) (nalId : UInt32) : Decidable (g.Gap nalId) :=
  inferInstanceAs (Decidable (_ ∧ ∃ expected ∈ g.nextId, _))

/-- The largest id.  The one after it is zero. -/
def maxId : UInt32 := UInt32.ofNat (UInt32.size - 1)

/-- The gate with what has come in its stream: an IDR, a gap or an overflow (`settled`), and
the largest id since the newest IDR (`wrapped`).  A late NAL counts for nothing. -/
structure Stream where
  gate : DeltaGate
  settled : Bool
  wrapped : Bool
deriving DecidableEq

def Stream.new : Stream where
  gate := DeltaGate.new
  settled := false
  wrapped := false

/-- A NAL that is not late. -/
def Stream.arrive (s : Stream) (nalId : UInt32) (nalType : UInt8) : Stream where
  gate := (s.gate.admitNal nalId nalType).1
  settled := decide (nalType = nalIdr ∨ s.gate.Gap nalId) ||
    (s.settled && decide (¬ s.gate.Restarts nalId))
  wrapped := decide (nalId = maxId) ||
    (s.wrapped && decide (¬ s.gate.Restarts nalId ∧ nalType ≠ nalIdr))

/-- A call, and what it says of its stream. -/
def Stream.step (s : Stream) : Call → Stream
  | .playbackOverflowed => { s with gate := s.gate.playbackOverflowed, settled := true }
  | .admitNal nalId nalType =>
      if s.gate.Late nalId then { s with gate := (s.gate.admitNal nalId nalType).1 }
      else s.arrive nalId nalType

/-- A delta that is its stream's first NAL or has the expected id comes after an IDR, a gap
or an overflow of its stream, and if the gate is open the ids have not wrapped since the
newest IDR. -/
def Stream.Opened (s : Stream) : Call → Prop
  | .playbackOverflowed => True
  | .admitNal d nalType =>
      IsDelta nalType → ¬ s.gate.Late d → ¬ s.gate.Gap d →
        ¬ s.gate.Restarts d ∧ s.settled = true ∧ (s.gate.frozen = false → s.wrapped = false)

instance (s : Stream) : ∀ c, Decidable (s.Opened c)
  | .playbackOverflowed => .isTrue trivial
  | .admitNal d nalType =>
      inferInstanceAs (Decidable (IsDelta nalType → ¬ s.gate.Late d → ¬ s.gate.Gap d →
        ¬ s.gate.Restarts d ∧ s.settled = true ∧ (s.gate.frozen = false → s.wrapped = false)))

/-! ## What a call does -/

section

variable {g : DeltaGate} {d : UInt32} {nalType : UInt8}

@[simp] theorem freeze_frozen (g : DeltaGate) : g.freeze.frozen = true := by
  rw [freeze]
  split
  · assumption
  · rfl

/-- The id after an offered NAL is expected next. -/
theorem admitNext_nextId (g : DeltaGate) (d : UInt32) (nalType : UInt8) :
    (g.admitNext d nalType).1.nextId = some (d + 1) := by
  simp only [admitNext]
  split_ifs <;> rfl

/-- Only an IDR thaws the gate. -/
theorem admitNext_frozen (h : nalType ≠ nalIdr) :
    (g.admitNext d nalType).1.frozen = g.frozen := by
  simp only [admitNext, if_neg h]
  split_ifs <;> rfl

/-- A delta passes unless the gate is frozen. -/
theorem admitNext_delta (h : IsDelta nalType) : (g.admitNext d nalType).2 = !g.frozen := by
  obtain ⟨hidr, hsps, hpps⟩ := h
  simp only [admitNext, if_neg (not_or.mpr ⟨hsps, hpps⟩), if_neg hidr]
  cases hfrozen : g.frozen <;> simp

/-- A jump back restarts the gate, but for its counters. -/
theorem admit_of_restarts (h : g.Restarts d) :
    g.admitNal d nalType = { new with stats := g.stats }.admitNext d nalType := by
  simp only [admitNal, restart, if_pos h]
  rfl

/-- An id of the same stream is late, leaves a gap or is the next one. -/
theorem admit_cases (h : ¬ g.Restarts d) (nalType : UInt8) :
    (∃ expected, g.nextId = some expected ∧ d < expected ∧
      g.admitNal d nalType = (g, decide (nalType = nalSps ∨ nalType = nalPps))) ∨
    (∃ expected, g.nextId = some expected ∧ expected < d ∧
      g.admitNal d nalType = g.freeze.admitNext d nalType) ∨
    ((g.nextId = none ∨ g.nextId = some d) ∧ g.admitNal d nalType = g.admitNext d nalType) := by
  simp only [admitNal, restart, if_neg h]
  cases hnext : g.nextId with
  | none => exact .inr (.inr ⟨.inl rfl, rfl⟩)
  | some expected =>
      by_cases hlate : d < expected
      · exact .inl ⟨expected, rfl, hlate, if_pos hlate⟩
      · by_cases hgap : expected < d
        · refine .inr (.inl ⟨expected, rfl, hgap, ?_⟩)
          simp only [if_neg hlate, if_pos hgap]
        · have hnow : expected = d :=
            UInt32.le_antisymm (UInt32.not_lt.mp hlate) (UInt32.not_lt.mp hgap)
          refine .inr (.inr ⟨.inr (congrArg some hnow), ?_⟩)
          simp only [if_neg hlate, if_neg hgap]

/-- An IDR that is not late is accepted. -/
theorem ne_idr_of_admitNext {f : DeltaGate} (heq : g.admitNal d nalType = f.admitNext d nalType)
    (hidr : nalType = nalIdr → (g.admitNal d nalType).2 = false) : nalType ≠ nalIdr := by
  rintro rfl
  have haccepted := hidr rfl
  rw [heq] at haccepted
  cases haccepted

/-- An accepted IDR opens the gate. -/
theorem admit_idr (h : (g.admitNal d nalIdr).2 = true) :
    (g.admitNal d nalIdr).1.nextId = some (d + 1) := by
  by_cases hrestarts : g.Restarts d
  · rw [admit_of_restarts hrestarts]
    exact admitNext_nextId _ _ _
  · rcases admit_cases hrestarts nalIdr with ⟨_, -, -, heq⟩ | ⟨_, -, -, heq⟩ | ⟨-, heq⟩
    · rw [heq, decide_eq_true_eq] at h
      exact absurd h (by decide)
    · rw [heq]
      exact admitNext_nextId _ _ _
    · rw [heq]
      exact admitNext_nextId _ _ _

/-- A frozen gate stays frozen and holds deltas back, except through an IDR or
a new stream. -/
theorem admit_of_frozen (hfrozen : g.frozen = true) (h : ¬ g.Restarts d)
    (hidr : nalType = nalIdr → (g.admitNal d nalType).2 = false) :
    (g.admitNal d nalType).1.frozen = true ∧
      (IsDelta nalType → (g.admitNal d nalType).2 = false) := by
  have hnext (f : DeltaGate) (hf : f.frozen = true)
      (heq : g.admitNal d nalType = f.admitNext d nalType) :
      (g.admitNal d nalType).1.frozen = true ∧
        (IsDelta nalType → (g.admitNal d nalType).2 = false) := by
    rw [heq, admitNext_frozen (ne_idr_of_admitNext heq hidr)]
    refine ⟨hf, ?_⟩
    intro hdelta
    rw [admitNext_delta hdelta, hf]
    rfl
  rcases admit_cases h nalType with ⟨_, -, -, heq⟩ | ⟨_, -, -, heq⟩ | ⟨-, heq⟩
  · rw [heq]
    refine ⟨hfrozen, ?_⟩
    intro hdelta
    exact decide_eq_false (not_or.mpr hdelta.2)
  · exact hnext _ (freeze_frozen g) heq
  · exact hnext _ hfrozen heq

end

/-! ## The chain grows with the calls -/

/-- An admitted IDR starts a chain. -/
theorem ChainFrom.start {past : List Call} {i : UInt32}
    (h : ((after past).admitNal i nalIdr).2 = true) :
    ChainFrom (past ++ [.admitNal i nalIdr]) i (i + 1) past [] where
  split := rfl
  accepted := h
  continues := trivial
  saw := by
    have hlen : (i + 1).toNat - (i.toNat + 1) = 0 := by
      rw [UInt32.toNat_add]
      exact Nat.sub_eq_zero_of_le (Nat.mod_le _ _)
    rw [hlen]
    exact List.nil_sublist _

/-- The next id without a gap continues it. -/
theorem ChainFrom.concat {past before between : List Call} {i n n' : UInt32} {c : Call}
    (h : ChainFrom past i n before between) (hc : (after past).Continues c)
    (hn : (List.range' (i.toNat + 1) (n'.toNat - (i.toNat + 1))).Sublist
      (List.range' (i.toNat + 1) (n.toNat - (i.toNat + 1)) ++
        (c.nalId?.map UInt32.toNat).toList)) :
    ChainFrom (past ++ [c]) i n' before (between ++ [c]) where
  split := by rw [h.split, List.append_assoc, List.cons_append]
  accepted := h.accepted
  continues := by
    rw [along_concat]
    refine ⟨h.continues, ?_⟩
    have hsplit : past = (before ++ [.admitNal i nalIdr]) ++ between := by simp [h.split]
    rw [hsplit, after, exec_append] at hc
    exact hc
  saw := by
    rw [List.filterMap_append, List.map_append]
    refine hn.trans (h.saw.append ?_)
    cases c <;> exact .refl _

/-- A late id leaves the ids the chain needs as they are. -/
theorem ChainFrom.late {past before between : List Call} {i n d : UInt32} {nalType : UInt8}
    (h : ChainFrom past i n before between) (hc : ¬ (after past).Restarts d) :
    ChainFrom (past ++ [.admitNal d nalType]) i n before (between ++ [.admitNal d nalType]) :=
  h.concat hc (List.sublist_append_left _ _)

/-- The expected id is the next one the chain needs. -/
theorem ChainFrom.next {past before between : List Call} {i d : UInt32} {nalType : UInt8}
    (h : ChainFrom past i d before between) (hc : ¬ (after past).Restarts d) :
    ChainFrom (past ++ [.admitNal d nalType]) i (d + 1) before
      (between ++ [.admitNal d nalType]) := by
  refine h.concat hc ?_
  show (List.range' (i.toNat + 1) ((d + 1).toNat - (i.toNat + 1))).Sublist
    (List.range' (i.toNat + 1) (d.toNat - (i.toNat + 1)) ++ [d.toNat])
  have hle : (d + 1).toNat ≤ d.toNat + 1 := by
    rw [UInt32.toNat_add]
    exact Nat.mod_le _ _
  by_cases hshort : (d + 1).toNat ≤ i.toNat + 1
  · rw [Nat.sub_eq_zero_of_le hshort]
    exact List.nil_sublist _
  · by_cases hwrap : (d + 1).toNat = d.toNat + 1
    · have hlen : (d + 1).toNat - (i.toNat + 1) = d.toNat - (i.toNat + 1) + 1 := by omega
      have hlast : i.toNat + 1 + (d.toNat - (i.toNat + 1)) = d.toNat := by omega
      rw [hlen, List.range'_1_concat, hlast]
    · -- The id after the largest one is zero, and a chain from `i` to it is empty.
      have hzero : (d + 1).toNat = 0 := by
        rw [UInt32.toNat_add] at hwrap ⊢
        have hlt := d.toNat_lt
        have hone : (1 : UInt32).toNat = 1 := rfl
        omega
      omega

/-! ## What the gate remembers -/

/-- An open gate whose stream has settled has accepted an IDR of the stream and seen every id
since, and unless the ids have wrapped the expected one is larger. -/
structure Stream.Tracks (past : List Call) (s : Stream) : Prop where
  gate : s.gate = after past
  chain : s.gate.frozen = false → s.settled = true → ∃ i n before between,
    s.gate.nextId = some n ∧ ChainFrom past i n before between ∧ (s.wrapped = false → i < n)

/-- A new stream has no past. -/
theorem Stream.Tracks.new : Stream.Tracks [] Stream.new where
  gate := rfl
  chain _ hsettled := by cases hsettled

/-- The next id is larger unless it wraps. -/
theorem lt_add_one_of_ne_maxId {i : UInt32} (h : i ≠ maxId) : i < i + 1 := by
  rw [UInt32.lt_iff_toNat_lt, UInt32.toNat_add]
  have hlt := i.toNat_lt
  have hne : i.toNat ≠ 4294967295 := fun heq => h (UInt32.toNat_inj.mp heq)
  have hone : (1 : UInt32).toNat = 1 := rfl
  omega

section

variable {past : List Call} {s : Stream} {d : UInt32} {nalType : UInt8}

/-- A late NAL changes nothing. -/
theorem Stream.Tracks.late (h : s.Tracks past) (hlate : s.gate.Late d) :
    Stream.Tracks (past ++ [.admitNal d nalType])
      { s with gate := (s.gate.admitNal d nalType).1 } := by
  have hgate : (s.gate.admitNal d nalType).1 = after (past ++ [.admitNal d nalType]) := by
    rw [after_concat, ← h.gate]
    rfl
  refine ⟨hgate, ?_⟩
  obtain ⟨hrestarts, expected, hexpected, hlt⟩ := hlate
  have hsame : (s.gate.admitNal d nalType).1 = s.gate := by
    rcases admit_cases hrestarts nalType with ⟨_, -, -, heq⟩ | ⟨n, hn, hgt, -⟩ | ⟨hnext, -⟩
    · rw [heq]
    · rw [hn] at hexpected
      obtain rfl := Option.some.inj hexpected
      exact absurd hlt (UInt32.lt_asymm hgt)
    · rcases hnext with hnone | hnow
      · rw [hnone] at hexpected
        cases hexpected
      · rw [hnow] at hexpected
        obtain rfl := Option.some.inj hexpected
        exact absurd hlt (UInt32.lt_irrefl _)
  show (s.gate.admitNal d nalType).1.frozen = false → s.settled = true → ∃ i n before between,
    (s.gate.admitNal d nalType).1.nextId = some n ∧ _
  rw [hsame]
  intro hopen hsettled
  obtain ⟨i, n, before, between, hn, hchain, hlt⟩ := h.chain hopen hsettled
  exact ⟨i, n, before, _, hn, hchain.late (h.gate ▸ hrestarts), hlt⟩

/-- An IDR that is not late starts the chain. -/
theorem Stream.Tracks.idr (h : s.Tracks past) (hlate : ¬ s.gate.Late d) :
    (s.arrive d nalIdr).Tracks (past ++ [.admitNal d nalIdr]) := by
  have hgate : (s.gate.admitNal d nalIdr).1 = after (past ++ [.admitNal d nalIdr]) := by
    rw [after_concat, ← h.gate]
    rfl
  have haccepted : (s.gate.admitNal d nalIdr).2 = true := by
    by_cases hrestarts : s.gate.Restarts d
    · rw [admit_of_restarts hrestarts]
      rfl
    · rcases admit_cases hrestarts nalIdr with ⟨n, hn, hlt, -⟩ | ⟨_, -, -, heq⟩ | ⟨-, heq⟩
      · exact absurd ⟨hrestarts, n, hn, hlt⟩ hlate
      · rw [heq]
        rfl
      · rw [heq]
        rfl
  refine ⟨hgate, fun _ _ => ⟨d, d + 1, past, [], admit_idr haccepted,
    .start (h.gate ▸ haccepted), fun hwrapped => ?_⟩⟩
  refine lt_add_one_of_ne_maxId fun hmax => ?_
  simp only [Stream.arrive, hmax, decide_true, Bool.true_or, Bool.true_eq_false] at hwrapped

/-- Any other NAL that is not late carries the chain on, if it is the next one, or ends it. -/
theorem Stream.Tracks.arrive (h : s.Tracks past) (hlate : ¬ s.gate.Late d)
    (hidr : nalType ≠ nalIdr) :
    (s.arrive d nalType).Tracks (past ++ [.admitNal d nalType]) := by
  have hgate : (s.gate.admitNal d nalType).1 = after (past ++ [.admitNal d nalType]) := by
    rw [after_concat, ← h.gate]
    rfl
  refine ⟨hgate, fun hopen hsettled => ?_⟩
  change (s.gate.admitNal d nalType).1.frozen = false at hopen
  show ∃ i n before between, (s.gate.admitNal d nalType).1.nextId = some n ∧ _
  by_cases hrestarts : s.gate.Restarts d
  · -- a new stream has had nothing yet
    have hgap : ¬ s.gate.Gap d := fun hgap => hgap.1 hrestarts
    simp [Stream.arrive, hidr, hgap, hrestarts] at hsettled
  · rcases admit_cases hrestarts nalType with ⟨n, hn, hlt, -⟩ | ⟨_, -, -, heq⟩ | ⟨hnext, heq⟩
    · exact absurd ⟨hrestarts, n, hn, hlt⟩ hlate
    · rw [heq, admitNext_frozen hidr, freeze_frozen] at hopen
      cases hopen
    · rw [heq, admitNext_frozen hidr] at hopen
      have hgap : ¬ s.gate.Gap d := by
        rintro ⟨-, expected, hexpected, hlt⟩
        rcases hnext with hnone | hnow
        · rw [hnone] at hexpected
          cases hexpected
        · rw [hnow] at hexpected
          obtain rfl := Option.some.inj hexpected
          exact absurd hlt (UInt32.lt_irrefl _)
      have hsettled' : s.settled = true := by
        simpa [Stream.arrive, hidr, hgap, hrestarts] using hsettled
      obtain ⟨i, n, before, between, hn, hchain, hlt⟩ := h.chain hopen hsettled'
      rw [hn] at hnext
      obtain rfl : n = d := by simpa using hnext
      refine ⟨i, n + 1, before, _, heq ▸ admitNext_nextId _ _ _,
        hchain.next (h.gate ▸ hrestarts), fun hwrapped => ?_⟩
      simp only [Stream.arrive, hrestarts, Bool.or_eq_false_iff, decide_eq_false_iff_not,
        ne_eq, hidr, not_false_eq_true, and_self, decide_true, Bool.and_true] at hwrapped
      exact UInt32.lt_trans (hlt hwrapped.2) (lt_add_one_of_ne_maxId hwrapped.1)

/-- Every call keeps the stream in step with the gate. -/
theorem Stream.Tracks.step (h : s.Tracks past) (c : Call) :
    (s.step c).Tracks (past ++ [c]) := by
  cases c with
  | playbackOverflowed =>
      refine ⟨?_, fun hopen _ => ?_⟩
      · rw [after_concat, ← h.gate]
        rfl
      · change s.gate.freeze.frozen = false at hopen
        rw [freeze_frozen] at hopen
        cases hopen
  | admitNal d nalType =>
      rw [Stream.step]
      split_ifs with hlate
      · exact h.late hlate
      · by_cases hidr : nalType = nalIdr
        · subst hidr
          exact h.idr hlate
        · exact h.arrive hlate hidr

end

/-! ## The rule -/

end DeltaGate

end RoboTele
