import RoboTele.Queues.TwoLane
import RoboTele.Runs.Past
import Mathlib.Data.List.Pairwise

/-!
# When a cell is read in turn

The schedule of two lanes is what the producer sends, when the consumer polls the queue, and
when it reads the cell.  It says nothing about what a poll or a read returns.

A consumer reads the cell only once a poll has found the queue empty.  So of the critical
items, those sent before the last poll are taken and those sent after it wait.  The cell
holds the newest of the others.  Both sides of a read are therefore in order exactly if no
critical item was sent between the last poll and the send of the cell's item, whichever of
the two came first (`ReadsInTurn`).

`Scheduled` ties the lanes to the schedule behind them, with one rule for each step.  Its
field `order` says that what was taken is in order exactly if every read was in turn.
-/

namespace Queues

open Past

namespace TwoLane

variable {α : Type*}

/-- A step of the producer or the consumer. -/
inductive Op (α : Type*) where
  /-- The producer sends an item. -/
  | send (x : Nat × α)
  /-- The consumer polls the queue. -/
  | poll
  /-- The consumer reads the cell. -/
  | read
deriving DecidableEq

namespace Op

variable (isCritical : α → Bool)

/-- An item goes to the queue. -/
def SendsCritical : Op α → Prop
  | send x => isCritical x.2 = true
  | _ => False

/-- An item goes to the cell. -/
def SendsLatest : Op α → Prop
  | send x => isCritical x.2 = false
  | _ => False

/-- The queue is polled. -/
def Polls : Op α → Prop
  | poll => True
  | _ => False

/-- The cell is read. -/
def Reads : Op α → Prop
  | read => True
  | _ => False

instance : DecidablePred (SendsCritical isCritical)
  | send x => inferInstanceAs (Decidable (isCritical x.2 = true))
  | poll | read => .isFalse id

instance : DecidablePred (SendsLatest isCritical)
  | send x => inferInstanceAs (Decidable (isCritical x.2 = false))
  | poll | read => .isFalse id

instance : DecidablePred (Polls : Op α → Prop)
  | poll => .isTrue trivial
  | send _ | read => .isFalse id

instance : DecidablePred (Reads : Op α → Prop)
  | read => .isTrue trivial
  | send _ | poll => .isFalse id

end Op

section

variable (isCritical : α → Bool)

/-- A critical item was sent, and nothing that satisfies `d` came since. -/
def SentSince (d : Op α → Prop) (ops : List (Op α)) : Prop :=
  Since (fun _ op => op.SendsCritical isCritical) d ops

/-- A critical item was sent, since then something came that satisfies `p`, and nothing that
satisfies `d`. -/
def SentThen (p d : Op α → Prop) (ops : List (Op α)) : Prop :=
  Since (fun past op => p op ∧ SentSince isCritical d past) d ops

/-- No critical item was sent between the last poll and the send of the cell's item. -/
def InTurn (past : List (Op α)) : Prop :=
  ¬ SentThen isCritical Op.Polls (Op.SendsLatest isCritical) past ∧
    ¬ SentThen isCritical (Op.SendsLatest isCritical) Op.Polls past

/-- The cell is read in turn every time. -/
def ReadsInTurn (ops : List (Op α)) : Prop :=
  Always (fun past op => op.Reads → InTurn isCritical past) ops

instance (d : Op α → Prop) [DecidablePred d] (ops : List (Op α)) :
    Decidable (SentSince isCritical d ops) :=
  inferInstanceAs (Decidable (Since _ _ ops))

instance (p d : Op α → Prop) [DecidablePred p] [DecidablePred d] (ops : List (Op α)) :
    Decidable (SentThen isCritical p d ops) :=
  inferInstanceAs (Decidable (Since _ _ ops))

instance (past : List (Op α)) : Decidable (InTurn isCritical past) :=
  inferInstanceAs (Decidable (_ ∧ _))

instance (ops : List (Op α)) : Decidable (ReadsInTurn isCritical ops) :=
  inferInstanceAs (Decidable (Always _ ops))

end

/-! ## One more step -/

section

variable {isCritical : α → Bool} {p d : Op α → Prop} {ops : List (Op α)} {op : Op α}

/-- A critical item does not go to the cell. -/
theorem Op.not_sendsLatest {x : Nat × α} (h : isCritical x.2 = true) :
    ¬ (send x).SendsLatest isCritical := by
  rw [SendsLatest, h]
  exact Bool.noConfusion

/-- Any other does not go to the queue. -/
theorem Op.not_sendsCritical {x : Nat × α} (h : isCritical x.2 = false) :
    ¬ (send x).SendsCritical isCritical := by
  rw [SendsCritical, h]
  exact Bool.noConfusion

theorem sentSince_concat : SentSince isCritical d (ops ++ [op]) ↔
    op.SendsCritical isCritical ∨ SentSince isCritical d ops ∧ ¬ d op :=
  since_concat _ _ _ _

theorem sentThen_concat : SentThen isCritical p d (ops ++ [op]) ↔
    (p op ∧ SentSince isCritical d ops) ∨ SentThen isCritical p d ops ∧ ¬ d op :=
  since_concat _ _ _ _

/-- What came in between only adds to the condition. -/
theorem SentThen.sentSince (h : SentThen isCritical p d ops)
    (hp : ∀ op, p op → ¬ op.SendsCritical isCritical → ¬ d op) : SentSince isCritical d ops := by
  induction ops using List.reverseRecOn with
  | nil => exact absurd h (since_nil _ _)
  | append_singleton ops op ih =>
      rw [sentSince_concat]
      rcases sentThen_concat.mp h with ⟨hop, hsent⟩ | ⟨hthen, hop⟩
      · by_cases hcritical : op.SendsCritical isCritical
        · exact .inl hcritical
        · exact .inr ⟨hsent, hp op hop hcritical⟩
      · exact .inr ⟨ih hthen, hop⟩

/-- A longer schedule reads in turn if its past does, and its last step if that is a read. -/
theorem readsInTurn_concat : ReadsInTurn isCritical (ops ++ [op]) ↔
    ReadsInTurn isCritical ops ∧ (op.Reads → InTurn isCritical ops) :=
  always_concat _ _ _

end

/-! ## The order of what was taken -/

section

variable {isCritical : α → Bool} {l : TwoLane α} {source : List (Nat × α)} {n : Nat}
variable {x : Nat × α}

/-- Sends and polls neither make nor mend the order. -/
theorem inOrder_sendCritical_iff (hl : WellFormed isCritical source n l) (hn : n ≤ x.1) :
    InOrder (l.sendCritical x) ↔ InOrder l := by
  constructor
  · intro h
    exact ⟨h.returned, fun r hr c hc => h.behind r hr c (List.mem_append_left _ hc)⟩
  · intro h
    exact h.sendCritical hl hn

/-- An item in the cell is not taken yet. -/
theorem inOrder_sendLatest_iff : InOrder (l.sendLatest x) ↔ InOrder l :=
  ⟨fun h => ⟨h.returned, h.behind⟩, fun h => ⟨h.returned, h.behind⟩⟩

/-- What is taken from the queue was waiting behind what was taken. -/
theorem inOrder_recvCritical_iff (hl : WellFormed isCritical source n l) {rest : List (Nat × α)}
    (hcritical : l.critical = x :: rest) : InOrder (l.recvCritical x rest) ↔ InOrder l := by
  constructor
  · intro h
    obtain ⟨hreturned, -, hlast⟩ := List.pairwise_append.mp h.returned
    refine ⟨hreturned, fun r hr c hc => ?_⟩
    rw [hcritical] at hc
    rcases List.mem_cons.mp hc with rfl | hc
    · exact hlast r hr c List.mem_cons_self
    · exact h.behind r (List.mem_append_left _ hr) c hc
  · intro h
    exact h.recvCritical hl hcritical

/-- A read keeps the order exactly if it is in turn. -/
theorem inOrder_recvLatest_iff (hl : WellFormed isCritical source n l)
    (hlatest : l.latest = some x) (hunread : l.unread = true) :
    InOrder (l.recvLatest x) ↔ InOrder l ∧ CellInTurn isCritical l := by
  constructor
  · intro h
    obtain ⟨hreturned, -, hlast⟩ := List.pairwise_append.mp h.returned
    refine ⟨⟨hreturned, fun r hr c hc => h.behind r (List.mem_append_left _ hr) c hc⟩, ?_⟩
    intro y hy
    obtain rfl := Option.some.inj (hlatest.symm.trans hy)
    refine ⟨fun c hc => ?_, fun r hr _ => ?_⟩
    · exact h.behind x (List.mem_append_right _ List.mem_cons_self) c hc
    · exact hlast r hr x List.mem_cons_self
  · rintro ⟨h, hturn⟩
    exact h.recvLatest hl hlatest hunread hturn

end

/-! ## Lanes behind a schedule -/

section

variable (isCritical : α → Bool)

/-- What the lanes hold after a schedule, and that the order of what was taken is the
schedule's doing.  `polled` tells that the last poll found the queue empty and that the cell
may be read. -/
structure Scheduled (ops : List (Op α)) (polled : Bool) (l : TwoLane α) : Prop where
  newer : SentSince isCritical (Op.SendsLatest isCritical) ops ↔
    ∃ c, (c ∈ l.returned ∨ c ∈ l.critical) ∧ isCritical c.2 = true ∧ ∀ x ∈ l.latest, Before x c
  waiting : polled = true → (SentSince isCritical Op.Polls ops ↔ l.critical ≠ [])
  taken : polled = true → (SentThen isCritical Op.Polls (Op.SendsLatest isCritical) ops ↔
    ∃ r ∈ l.returned, isCritical r.2 = true ∧ ∀ x ∈ l.latest, Before x r)
  hidden : polled = true → (SentThen isCritical (Op.SendsLatest isCritical) Op.Polls ops ↔
    ∃ x ∈ l.latest, ∃ c ∈ l.critical, Before c x)
  held : l.unread = true → l.latest ≠ none
  order : InOrder l ↔ ReadsInTurn isCritical ops

end

section

variable {isCritical : α → Bool} {ops : List (Op α)} {polled : Bool} {l : TwoLane α}
variable {source : List (Nat × α)} {n : Nat}

/-- Nothing was scheduled. -/
theorem Scheduled.empty : Scheduled isCritical [] false (empty : TwoLane α) where
  newer := by simp [SentSince, TwoLane.empty]
  waiting := nofun
  taken := nofun
  hidden := nofun
  held := nofun
  order := iff_of_true .empty (always_nil _)

/-- The consumer goes back to the queue. -/
theorem Scheduled.again (h : Scheduled isCritical ops polled l) :
    Scheduled isCritical ops false l where
  newer := h.newer
  waiting := nofun
  taken := nofun
  hidden := nofun
  held := h.held
  order := h.order

/-- An item that is sent to the queue waits there. -/
theorem Scheduled.sendCritical (h : Scheduled isCritical ops polled l)
    (hl : WellFormed isCritical source n l) {x : Nat × α} (hn : n ≤ x.1)
    (hcritical : isCritical x.2 = true) :
    Scheduled isCritical (ops ++ [.send x]) polled (l.sendCritical x) where
  newer := by
    rw [sentSince_concat]
    refine iff_of_true (.inl hcritical) ⟨x, .inr List.mem_concat_self, hcritical, ?_⟩
    intro y hy
    exact (hl.latest_mem y hy).2.1.trans_le hn
  waiting _ := by
    rw [sentSince_concat]
    exact iff_of_true (.inl hcritical) (List.append_ne_nil_of_right_ne_nil _ (by simp))
  taken hpolled := by
    rw [sentThen_concat, h.taken hpolled]
    simp [Op.Polls, Op.not_sendsLatest hcritical, TwoLane.sendCritical]
  hidden hpolled := by
    rw [sentThen_concat, h.hidden hpolled]
    constructor
    · rintro (⟨hlatest, -⟩ | ⟨⟨y, hy, c, hc, hlt⟩, -⟩)
      · exact absurd hlatest (Op.not_sendsLatest hcritical)
      · exact ⟨y, hy, c, List.mem_append_left _ hc, hlt⟩
    · rintro ⟨y, hy, c, hc, hlt⟩
      rcases List.mem_append.mp hc with hc | hc
      · exact .inr ⟨⟨y, hy, c, hc, hlt⟩, id⟩
      · rw [List.mem_singleton.mp hc] at hlt
        exact absurd hlt ((hl.latest_mem y hy).2.1.trans_le hn).not_gt
  held := h.held
  order := by
    rw [inOrder_sendCritical_iff hl hn, h.order, readsInTurn_concat]
    exact (and_iff_left nofun).symm

/-- An item that is sent to the cell is newer than all others. -/
theorem Scheduled.sendLatest (h : Scheduled isCritical ops polled l)
    (hl : WellFormed isCritical source n l) {x : Nat × α} (hn : n ≤ x.1)
    (hlatest : isCritical x.2 = false) :
    Scheduled isCritical (ops ++ [.send x]) polled (l.sendLatest x) where
  newer := by
    rw [sentSince_concat]
    refine iff_of_false ?_ ?_
    · rintro (hcritical | ⟨-, hop⟩)
      · exact Op.not_sendsCritical hlatest hcritical
      · exact hop hlatest
    · rintro ⟨c, hc, -, hbefore⟩
      have hlt : x.1 < c.1 := hbefore x rfl
      have hold : c.1 < n := hc.elim (fun hc => (hl.returned_mem c hc).2)
        fun hc => (hl.critical_mem c hc).2.1
      exact absurd (hlt.trans hold) hn.not_gt
  waiting hpolled := by
    rw [sentSince_concat, h.waiting hpolled]
    simp [Op.not_sendsCritical hlatest, Op.Polls, TwoLane.sendLatest]
  taken _ := by
    rw [sentThen_concat]
    refine iff_of_false ?_ ?_
    · rintro (⟨hpoll, -⟩ | ⟨-, hop⟩)
      · exact hpoll
      · exact hop hlatest
    · rintro ⟨r, hr, -, hbefore⟩
      have hlt : x.1 < r.1 := hbefore x rfl
      exact absurd (hlt.trans (hl.returned_mem r hr).2) hn.not_gt
  hidden hpolled := by
    have hwaiting := h.waiting hpolled
    have hthen : SentThen isCritical (Op.SendsLatest isCritical) Op.Polls ops →
        SentSince isCritical Op.Polls ops := fun hthen =>
      hthen.sentSince fun op hop _ hpolls => by cases op <;> trivial
    rw [sentThen_concat]
    constructor
    · intro hsent
      have hne : l.critical ≠ [] := hwaiting.mp (hsent.elim And.right fun hsent => hthen hsent.1)
      obtain ⟨c, hc⟩ := List.exists_mem_of_ne_nil _ hne
      exact ⟨x, rfl, c, hc, (hl.critical_mem c hc).2.1.trans_le hn⟩
    · rintro ⟨_, _, c, hc, _⟩
      exact .inl ⟨hlatest, hwaiting.mpr (List.ne_nil_of_mem hc)⟩
  held _ := Option.some_ne_none x
  order := by
    rw [inOrder_sendLatest_iff, h.order, readsInTurn_concat]
    exact (and_iff_left nofun).symm

/-- A poll that finds an item takes it. -/
theorem Scheduled.take (h : Scheduled isCritical ops polled l)
    (hl : WellFormed isCritical source n l) {x : Nat × α} {rest : List (Nat × α)}
    (hcritical : l.critical = x :: rest) :
    Scheduled isCritical (ops ++ [.poll]) false (l.recvCritical x rest) where
  newer := by
    have hmem (c : Nat × α) : c ∈ l.returned ++ [x] ∨ c ∈ rest ↔
        c ∈ l.returned ∨ c ∈ l.critical := by
      rw [List.mem_append, List.mem_singleton, hcritical, List.mem_cons, or_assoc]
    rw [sentSince_concat, h.newer]
    simp [Op.SendsCritical, Op.SendsLatest, TwoLane.recvCritical, ← hmem]
  waiting := nofun
  taken := nofun
  hidden := nofun
  held := h.held
  order := by
    rw [inOrder_recvCritical_iff hl hcritical, h.order, readsInTurn_concat]
    exact (and_iff_left nofun).symm

/-- A poll that finds nothing. -/
theorem Scheduled.pollEmpty (h : Scheduled isCritical ops polled l) (hcritical : l.critical = []) :
    Scheduled isCritical (ops ++ [.poll]) true l where
  newer := by
    rw [sentSince_concat, h.newer]
    simp [Op.SendsCritical, Op.SendsLatest]
  waiting _ := by
    rw [sentSince_concat]
    simp [Op.SendsCritical, Op.Polls, hcritical]
  taken _ := by
    have hnewer := h.newer
    simp only [hcritical, List.not_mem_nil, or_false] at hnewer
    rw [sentThen_concat, ← hnewer]
    constructor
    · rintro (⟨-, hsent⟩ | ⟨hthen, -⟩)
      · exact hsent
      · exact hthen.sentSince fun op hop _ hlatest => by cases op <;> trivial
    · intro hsent
      exact .inl ⟨trivial, hsent⟩
  hidden _ := by
    rw [sentThen_concat]
    simp [Op.SendsLatest, Op.Polls, hcritical]
  held := h.held
  order := by
    rw [h.order, readsInTurn_concat]
    exact (and_iff_left nofun).symm

/-- Of two items of a sorted source one comes first. -/
theorem before_or_before (hsource : source.Pairwise Before) {c x : Nat × α} (hc : c ∈ source)
    (hx : x ∈ source) (hne : c ≠ x) : Before c x ∨ Before x c := by
  have hsymm : Std.Symm fun c x : Nat × α => Before c x ∨ Before x c := ⟨fun _ _ h => h.symm⟩
  have hpairs : source.Pairwise fun c x => Before c x ∨ Before x c := hsource.imp Or.inl
  exact hpairs.forall hc hx hne

/-- Where the cell may be read, its item is in turn exactly if the schedule says so. -/
theorem Scheduled.cellInTurn_iff (h : Scheduled isCritical ops true l)
    (hl : WellFormed isCritical source n l) (hsource : source.Pairwise Before)
    (hunread : l.unread = true) : CellInTurn isCritical l ↔ InTurn isCritical ops := by
  obtain ⟨x, hx⟩ := Option.ne_none_iff_exists'.mp (h.held hunread)
  obtain ⟨hxmem, -, hxkind⟩ := hl.latest_mem x hx
  -- the cell's item and a critical one are two items of the source
  have hnot {c : Nat × α} (hc : c ∈ source) (hcritical : isCritical c.2 = true) :
      ¬ Before c x ↔ Before x c := by
    have hne : c ≠ x := by
      rintro rfl
      rw [hxkind] at hcritical
      cases hcritical
    rcases before_or_before hsource hc hxmem hne with hlt | hgt
    · exact iff_of_false (not_not.mpr hlt) hlt.not_gt
    · exact iff_of_true hgt.not_gt hgt
  rw [CellInTurn, InTurn, h.taken rfl, h.hidden rfl]
  simp only [hx, Option.mem_some_iff, forall_eq', exists_eq_left']
  push Not
  constructor
  · rintro ⟨hcritical, hreturned⟩
    refine ⟨fun r hr hkind => ?_, fun c hc => ?_⟩
    · exact (hreturned r hr hkind).not_gt
    · exact (hcritical c hc).not_gt
  · rintro ⟨hreturned, hcritical⟩
    refine ⟨fun c hc => ?_, fun r hr hkind => ?_⟩
    · obtain ⟨hmem, -, hkind⟩ := hl.critical_mem c hc
      exact (hnot hmem hkind).mp (hcritical c hc)
    · exact not_not.mp (mt (hnot (hl.returned_mem r hr).1 hkind).mp (hreturned r hr hkind))

/-- A read keeps the order exactly if the schedule has it in turn. -/
theorem Scheduled.read (h : Scheduled isCritical ops true l)
    (hl : WellFormed isCritical source n l) (hsource : source.Pairwise Before)
    {x : Nat × α} (hlatest : l.latest = some x) (hunread : l.unread = true) :
    Scheduled isCritical (ops ++ [.read]) false (l.recvLatest x) where
  newer := by
    have hkind := (hl.latest_mem x hlatest).2.2
    rw [sentSince_concat, h.newer]
    simp only [Op.SendsCritical, Op.SendsLatest, false_or, not_false_eq_true, and_true]
    constructor
    · rintro ⟨c, hc, hrest⟩
      exact ⟨c, hc.imp_left (List.mem_append_left _), hrest⟩
    · rintro ⟨c, hc, hcritical, hbefore⟩
      refine ⟨c, hc.imp_left fun hc => ?_, hcritical, hbefore⟩
      refine (List.mem_append.mp hc).resolve_right fun hc => ?_
      rw [List.mem_singleton.mp hc, hkind] at hcritical
      cases hcritical
  waiting := nofun
  taken := nofun
  hidden := nofun
  held := nofun
  order := by
    rw [inOrder_recvLatest_iff hl hlatest hunread, h.order, h.cellInTurn_iff hl hsource hunread,
      readsInTurn_concat]
    exact and_congr_right fun _ => ⟨fun hturn _ => hturn, fun hturn => hturn trivial⟩

end

end TwoLane

end Queues
