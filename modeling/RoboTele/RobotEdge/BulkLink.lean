import RoboTele.RobotEdge.BulkSending
import RoboTele.Core.BulkRuns

/-!
# Bulk objects from end to end

The sender and the receiver with the connection between them.  `log` is what came
in at the receiver, and so its state (`BulkReceiver.after`).  What is written
to a stream comes in at the receiver in its order, in pieces of any size, at any
time after.  The streams come in in any order, and a stream may be reset.

An object delivered is then one that was published, and of a key the versions
delivered go up, because each version published has a stream of its own at most
(`run_links`).
-/

namespace RoboTele

open Runs Past BulkSender

/-! ## The system -/

/-- The sender, its connection, and the log of the receiver. -/
structure BulkLink where
  sender : BulkSender
  conn : Conn
  published : List Published
  done : Done
  log : List BulkReceiver.Event

namespace BulkLink

/-- A call of the sender, or an arrival at the receiver. -/
inductive Event where
  | publish (header : BulkHeader) (payload : Bytes)
  | allocate
  | pump (budget : Option Nat) (answers : List Answer)
  | deliver (id n : Nat) (fin : Bool)
  | reset (id : Nat)

def new : BulkLink where
  sender := .new
  conn := .new
  published := []
  done := []
  log := []

/-- The next bytes of a stream, and its end if it was written and these are the
last ones. -/
def piece (l : BulkLink) (id n : Nat) (fin : Bool) : BulkReceiver.Event :=
  let rest := (l.conn.sent id).bytes.drop (BulkReceiver.streamBytes l.log id).length
  .data id (rest.take n) (fin && (l.conn.sent id).fin && decide (rest.length ≤ n))

/-- Nothing comes in of a stream after its end or its reset. -/
def step (l : BulkLink) : Event → BulkLink
  | .publish header payload =>
      { l with
        sender := l.sender.publish header payload
        published := l.published ++ [(header, payload)] }
  | .allocate => { l with sender := l.sender.allocateStream }
  | .pump budget answers =>
      let (sender, conn, _) := l.sender.pump l.conn budget answers
      { l with
        sender := sender
        conn := conn
        done := l.done ++ l.sender.leaving l.conn budget answers }
  | .deliver id n fin =>
      if BulkReceiver.Ended l.log id then l else { l with log := l.log ++ [l.piece id n fin] }
  | .reset id => { l with log := l.log ++ [.reset id] }

/-- The link after some events. -/
def after (es : List Event) : BulkLink := exec step new es

/-- A version is newer than those of its key before it, and its header has the
length of its payload. -/
def Publishes (l : BulkLink) : Event → Prop
  | .publish header payload =>
      header.length.toNat = payload.length ∧
        ∀ p ∈ l.published, p.1.key = header.key → p.1.version < header.version
  | _ => True

instance (l : BulkLink) : ∀ e, Decidable (l.Publishes e)
  | .publish header payload =>
      inferInstanceAs (Decidable (header.length.toNat = payload.length ∧
        ∀ p ∈ l.published, p.1.key = header.key → p.1.version < header.version))
  | .allocate => .isTrue trivial
  | .pump _ _ => .isTrue trivial
  | .deliver _ _ _ => .isTrue trivial
  | .reset _ => .isTrue trivial

/-! ## The invariant -/

/-- The receiver reads prefixes of what the sender has written on each stream. -/
structure Keeps (l : BulkLink) : Prop where
  sends : Sends [] l.published l.done l.sender l.conn
  notReused : BulkReceiver.NotReused l.log
  read : ∀ id, BulkReceiver.streamBytes l.log id <+: (l.conn.sent id).bytes
  lengths : ∀ p ∈ l.published, p.1.length.toNat = p.2.length
  versions : l.published.Pairwise fun p q => p.1.key = q.1.key → p.1.version < q.1.version

theorem keeps_new : Keeps new where
  sends := sends_new
  notReused := always_nil _
  read _ := List.prefix_rfl
  lengths := nofun
  versions := .nil

/-- A version that is newer than its key's keeps the account. -/
theorem Keeps.publish {l : BulkLink} (h : l.Keeps) {header : BulkHeader} {payload : Bytes}
    (hpublishes : l.Publishes (.publish header payload)) :
    (l.step (.publish header payload)).Keeps where
  sends := h.sends.publish header payload
  notReused := h.notReused
  read := h.read
  lengths p hp := by
    rcases List.mem_append.mp hp with hp | hp
    · exact h.lengths p hp
    · rw [List.mem_singleton.mp hp]
      exact hpublishes.1
  versions := by
    refine List.pairwise_append.mpr ⟨h.versions, List.pairwise_singleton _ _, ?_⟩
    intro p hp q hq hkey
    obtain rfl := List.mem_singleton.mp hq
    exact hpublishes.2 p hp hkey

/-- A piece that comes in continues its stream. -/
theorem Keeps.deliver {l : BulkLink} (h : l.Keeps) {id : Nat}
    (hended : ¬ BulkReceiver.Ended l.log id) (n : Nat) (fin : Bool) :
    Keeps { l with log := l.log ++ [l.piece id n fin] } where
  sends := h.sends
  notReused := by
    refine (always_concat _ _ _).mpr ⟨h.notReused, ?_⟩
    intro k hk
    exact Option.some.inj hk ▸ hended
  read k := by
    rw [BulkReceiver.streamBytes_concat]
    by_cases hk : id = k
    · subst hk
      obtain ⟨rest, hrest⟩ := h.read id
      have hpiece : (l.piece id n fin).bytesFor id = rest.take n := by
        rw [piece, BulkReceiver.Event.bytesFor, if_pos rfl, ← hrest, List.drop_left]
      rw [hpiece, ← hrest]
      exact (List.prefix_append_right_inj _).mpr (List.take_prefix _ _)
    · have hpiece : (l.piece id n fin).bytesFor k = [] := if_neg hk
      rw [hpiece, List.append_nil]
      exact h.read k
  lengths := h.lengths
  versions := h.versions

/-- So does every other event. -/
theorem Keeps.step {l : BulkLink} (h : l.Keeps) (e : Event) (he : l.Publishes e) :
    (l.step e).Keeps := by
  cases e with
  | publish header payload => exact h.publish he
  | allocate => exact ⟨h.sends.allocateStream, h.notReused, h.read, h.lengths, h.versions⟩
  | pump budget answers =>
      obtain ⟨hgrows, hsends⟩ := h.sends.pump budget answers
      exact ⟨hsends, h.notReused, fun id => (h.read id).trans (hgrows id), h.lengths, h.versions⟩
  | deliver id n fin =>
      rw [BulkLink.step]
      split_ifs with hended
      · exact h
      · exact h.deliver hended n fin
  | reset id =>
      refine ⟨h.sends, ?_, ?_, h.lengths, h.versions⟩
      · exact (always_concat _ _ _).mpr ⟨h.notReused, nofun⟩
      · intro k
        have hbytes : BulkReceiver.streamBytes (l.log ++ [.reset id]) k =
            BulkReceiver.streamBytes l.log k := by
          rw [BulkReceiver.streamBytes_concat]
          exact List.append_nil _
        exact hbytes ▸ h.read k

/-- And so does every run of them. -/
theorem keeps_after {es : List Event} (h : Along step Publishes new es) : (after es).Keeps :=
  exec_inv_along (I := Keeps) (fun _ e hl he => hl.step e he) es keeps_new h

/-! ## What is published of a key -/

/-- Sender and receiver tell objects apart alike. -/
theorem sendKey_eq_iff {h h' : BulkHeader} : h.sendKey = h'.sendKey ↔ h.key = h'.key := by
  rw [BulkHeader.sendKey, BulkHeader.sendKey, toLex_inj, Prod.mk.injEq,
    BulkKind.toU8_injective.eq_iff, BulkHeader.key, BulkHeader.key, Prod.mk.injEq]

section

variable {l : BulkLink} {k : SendKey} {o o' : Outgoing} {p q : Published}

/-- A version is published once. -/
theorem Keeps.eq_of_version (h : l.Keeps) (hp : p ∈ l.published) (hq : q ∈ l.published)
    (hkey : p.1.key = q.1.key) (hversion : p.1.version = q.1.version) : p = q := by
  have hsymm : Std.Symm fun p q : Published =>
      p.1.key = q.1.key → p.1.version = q.1.version → p = q :=
    ⟨fun p q hsame hkey hversion => (hsame hkey.symm hversion.symm).symm⟩
  have hpairs : l.published.Pairwise fun p q =>
      p.1.key = q.1.key → p.1.version = q.1.version → p = q :=
    h.versions.imp fun hlt hkey hversion => absurd (hversion ▸ hlt hkey) (lt_irrefl _)
  exact hpairs.forall_of_forall (fun _ _ _ _ => rfl) hp hq hkey hversion

/-- The versions in line are apart. -/
theorem Keeps.nodup_line (h : l.Keeps) (k : SendKey) : (l.sender.line l.done k).Nodup := by
  refine (h.sends.line k).1.nodup ?_
  refine List.pairwise_map.mpr ?_
  have hversions : (publishedOf l.published k).Pairwise fun p q =>
      p.1.key = q.1.key → p.1.version < q.1.version := h.versions.sublist List.filter_sublist
  refine hversions.imp_of_mem ?_
  intro p q hp hq hlt hdata
  have hkey : p.1.key = q.1.key := sendKey_eq_iff.mp
    ((of_decide_eq_true (List.mem_filter.mp hp).2).trans
      (of_decide_eq_true (List.mem_filter.mp hq).2).symm)
  have hversion : p.1.version = q.1.version := by
    rw [← BulkHeader.versionOf_encode_append p.1 p.2, ← BulkHeader.versionOf_encode_append q.1 q.2]
    exact congrArg _ hdata
  exact absurd (hversion ▸ hlt hkey) (lt_irrefl _)

/-- The versions of a key that got a stream. -/
def openedOf (l : BulkLink) (k : SendKey) : List Outgoing :=
  (l.done.filter fun p => p.1 = k).map Prod.snd ++ (l.sender.active.lookup k).toList

theorem mem_openedOf (h : l.sender.Opened l.done k o) : o ∈ l.openedOf k := by
  rcases h with hdone | hactive
  · refine List.mem_append_left _ (List.mem_map.mpr ⟨(k, o), ?_, rfl⟩)
    exact List.mem_filter.mpr ⟨hdone, decide_eq_true rfl⟩
  · refine List.mem_append_right _ ?_
    rw [hactive]
    exact List.mem_singleton_self o

/-- A key's line is what is open of it, and what waits. -/
theorem line_eq (l : BulkLink) (k : SendKey) : l.sender.line l.done k =
    (l.openedOf k).map Outgoing.data ++ (l.sender.waiting.lookup k).toList := by
  rw [openedOf, List.map_append, List.map_map, BulkSender.line]
  cases l.sender.active.lookup k <;> rfl

/-- What has a stream was published. -/
theorem Keeps.exists_published (h : l.Keeps) (hopened : l.sender.Opened l.done k o) :
    ∃ p ∈ l.published, p.1.sendKey = k ∧ p.data = o.data := by
  refine h.sends.line.exists_published (k := k) ?_
  rw [line_eq]
  exact List.mem_append_left _ (List.mem_map_of_mem (mem_openedOf hopened))

/-- A version has a stream of its own at most. -/
theorem Keeps.opened_eq (h : l.Keeps) (hopened : l.sender.Opened l.done k o)
    (hopened' : l.sender.Opened l.done k o') (hdata : o.data = o'.data) : o = o' := by
  have hnodup := h.nodup_line k
  rw [line_eq] at hnodup
  exact List.inj_on_of_nodup_map (List.nodup_append.mp hnodup).1 (mem_openedOf hopened)
    (mem_openedOf hopened') hdata

/-! ## What comes in -/

/-- Bytes come in only of a stream that was opened. -/
theorem Keeps.exists_opened (h : l.Keeps) {id : Nat}
    (hbytes : BulkReceiver.streamBytes l.log id ≠ []) :
    ∃ k o, l.sender.Opened l.done k o ∧ o.streamId = id := by
  by_contra hnone
  have hsent := h.sends.streams.unused id fun k o ho hid => hnone ⟨k, o, ho, hid⟩
  have hread := h.read id
  rw [hsent] at hread
  exact hbytes (List.prefix_nil.mp hread)

/-- An object that was delivered is the version its stream was opened for. -/
theorem Keeps.delivered (h : l.Keeps) {d : Nat × BulkObject}
    (hd : d ∈ BulkReceiver.delivered l.log) :
    ∃ k o p, l.sender.Opened l.done k o ∧ o.streamId = d.1 ∧ p ∈ l.published ∧
      p.1.sendKey = k ∧ p.data = o.data ∧ d.2 = { header := p.1, bytes := p.2 } := by
  obtain ⟨gone, hgone⟩ := BulkReceiver.run_keeps h.notReused
  have hcarries := (hgone.carries d hd).2
  have hbytes : BulkReceiver.streamBytes l.log d.1 ≠ [] := by
    intro hnil
    have hwhole := hcarries.whole
    rw [hnil] at hwhole
    exact absurd hwhole (by decide)
  obtain ⟨k, o, ho, hid⟩ := h.exists_opened hbytes
  obtain ⟨p, hp, hk, hdata⟩ := h.exists_published ho
  refine ⟨k, o, p, ho, hid, hp, hk, hdata, ?_⟩
  refine hcarries.eq_of_prefix ?_ (h.lengths p hp)
  have hread := h.read d.1
  rw [← hid, (h.sends.streams.wire k o ho).1.2, hid] at hread
  exact hread.trans (hdata ▸ List.take_prefix _ _)

/-- Of a key the versions delivered go up. -/
theorem Keeps.increasing (h : l.Keeps) (key : BulkKey) :
    (BulkReceiver.versions key l.log).Pairwise (· < ·) := by
  obtain ⟨gone, hgone⟩ := BulkReceiver.run_keeps h.notReused
  have hordered := hgone.ordered key
  have hids : ((BulkReceiver.delivered l.log).map Prod.fst).Nodup := by
    rw [← hgone.completed, BulkReceiver.idsWith]
    exact hgone.keeps.nodup.sublist (List.filter_sublist.map _)
  rw [BulkReceiver.versions, List.pairwise_map] at hordered ⊢
  have hapart := (List.pairwise_map.mp hids).sublist
    (List.filter_sublist (p := fun d => decide (d.2.header.key = key)))
  refine (hordered.and hapart).imp_of_mem ?_
  rintro d d' hd hd' ⟨hle, hne⟩
  refine lt_of_le_of_ne hle fun hversion => hne ?_
  -- the two have one version, so one stream
  obtain ⟨hd, hkey⟩ := List.mem_filter.mp hd
  obtain ⟨hd', hkey'⟩ := List.mem_filter.mp hd'
  obtain ⟨k, o, p, ho, hid, hp, hk, hdata, hobject⟩ := h.delivered hd
  obtain ⟨k', o', p', ho', hid', hp', hk', hdata', hobject'⟩ := h.delivered hd'
  rw [hobject] at hkey hversion
  rw [hobject'] at hkey' hversion
  have hkeys : p.1.key = p'.1.key :=
    (of_decide_eq_true hkey).trans (of_decide_eq_true hkey').symm
  obtain rfl := h.eq_of_version hp hp' hkeys hversion
  obtain rfl := hk.symm.trans hk'
  rw [← hid, ← hid', h.opened_eq ho ho' (hdata.symm.trans hdata')]

end

/-! ## Runs -/

/-- The stream was opened for the version, and it has not ended or failed. -/
def InFlight (l : BulkLink) (k : SendKey) (o : Outgoing) : Prop :=
  l.sender.Opened l.done k o ∧ (l.conn.sent o.streamId).fin = false ∧
    o.streamId ∉ l.conn.failed

/-- Where the newest version of a key can be. -/
inductive Stands (l : BulkLink) (k : SendKey) (data : Bytes) : Prop where
  | active (o : Outgoing) (sent : l.sender.active.lookup k = some o) (same : o.data = data)
  | waiting (waits : l.sender.waiting.lookup k = some data)
  | written (o : Outgoing) (ended : (k, o) ∈ l.done)
      (whole : l.conn.sent o.streamId = { bytes := data, fin := true })
  | dropped (o : Outgoing) (ended : (k, o) ∈ l.done) (same : o.data = data)
      (error : o.streamId ∈ l.conn.failed)

section

variable {l : BulkLink} {k : SendKey} {o o' : Outgoing}

/-- What is in flight is what the sender writes. -/
theorem Keeps.active_of_inFlight (h : l.Keeps) (hflight : l.InFlight k o) :
    l.sender.active.lookup k = some o := by
  obtain ⟨hopened, hfin, hfailed⟩ := hflight
  refine hopened.resolve_left fun hdone => ?_
  rcases h.sends.streams.dropped _ hdone with hwhole | hdropped
  · rw [(h.sends.streams.wire k o hopened).1.2, decide_eq_true hwhole] at hfin
    exact absurd hfin.symm Bool.false_ne_true
  · exact hfailed hdropped

/-- The newest version of a key is last in line. -/
theorem Keeps.stands (h : l.Keeps) {p : Published}
    (hp : (publishedOf l.published k).getLast? = some p) : l.Stands k p.data := by
  have hlast : (l.sender.line l.done k).getLast? = some p.data := by
    rw [(h.sends.line k).2, List.getLast?_map, hp, Option.map_some]
  rw [line_eq, List.getLast?_append, openedOf] at hlast
  cases hw : l.sender.waiting.lookup k with
  | some d =>
      rw [hw] at hlast
      exact .waiting (hw.trans hlast)
  | none =>
      rw [hw, List.map_append, List.getLast?_append] at hlast
      cases ho : l.sender.active.lookup k with
      | some o =>
          rw [ho] at hlast
          exact .active o ho (Option.some.inj hlast)
      | none =>
          rw [ho] at hlast
          simp only [Option.toList_none, List.map_nil, List.getLast?_nil, Option.none_or,
            List.map_map, List.getLast?_map] at hlast
          obtain ⟨d, hd, hdata⟩ := Option.map_eq_some_iff.mp hlast
          obtain ⟨hdone, hkey⟩ := List.mem_filter.mp (List.mem_of_getLast? hd)
          obtain rfl := of_decide_eq_true hkey
          rcases h.sends.streams.dropped d hdone with hwhole | hdropped
          · refine .written d.2 hdone ?_
            rw [(h.sends.streams.wire d.1 d.2 (.inl hdone)).1.2, hwhole, List.take_length,
              decide_eq_true rfl]
            exact congrArg (StreamSent.mk · true) hdata
          · exact .dropped d.2 hdone hdata hdropped

end

/-- What holds of the system in every state. -/
structure Links (l : BulkLink) : Prop where
  inFlight : ∀ k o o', l.InFlight k o → l.InFlight k o' → o = o'
  waits : ∀ k, l.sender.waiting.keys.count k ≤ 1
  behind : ∀ k ∈ l.sender.waiting, k ∈ l.sender.active
  newest : ∀ k p, (publishedOf l.published k).getLast? = some p → l.Stands k p.data
  increasing : ∀ key, (BulkReceiver.versions key l.log).Pairwise (· < ·)
  exact : ∀ d ∈ BulkReceiver.delivered l.log, (d.2.header, d.2.bytes) ∈ l.published
  counted : Counted l.published l.done l.sender
  dropped : ∀ p ∈ droppedOf l.done, p.2.streamId ∈ l.conn.failed

/-- A link that keeps its account delivers what the sender published. -/
theorem Keeps.links {l : BulkLink} (h : l.Keeps) : l.Links where
  inFlight k o o' ho ho' := Option.some.inj
    ((h.active_of_inFlight ho).symm.trans (h.active_of_inFlight ho'))
  waits k := List.nodup_iff_count_le_one.mp l.sender.waiting.keys_nodup k
  behind k hk := by
    by_contra hnone
    have hwaiting := h.sends.streams.waits k (AList.lookup_eq_none.mpr hnone)
    exact AList.lookup_eq_none.mp hwaiting hk
  newest k p hp := h.stands hp
  increasing := h.increasing
  exact d hd := by
    obtain ⟨-, -, p, -, -, hp, -, -, hobject⟩ := h.delivered hd
    rw [hobject]
    exact hp
  counted := h.sends.counted
  dropped p hp := by
    obtain ⟨hdone, hnot⟩ := List.mem_filter.mp hp
    exact (h.sends.streams.dropped p hdone).resolve_left (of_decide_eq_true hnot)

/-- In every run, of a key one version is in flight and one waits at most, the
newest is on its way, written or dropped, what is delivered was published with
versions that go up, and the counts add up. -/
theorem run_links (es : List Event) (h : Along step Publishes new es) : (after es).Links :=
  (keeps_after h).links

/-- While a version is on its way two more are published, the stream of the
first one fails, and the last one comes in. -/
def supersededGrid : List Event :=
  [.publish (BulkReceiver.gridHeader 1 3) [1, 2, 3], .pump (some 10) [.accepts 10],
    .publish (BulkReceiver.gridHeader 2 1) [4], .publish (BulkReceiver.gridHeader 3 2) [5, 6],
    .deliver 3 10 false, .pump none [.fails], .pump none [.accepts 100],
    .deliver 7 30 true, .reset 3]

/-- A grid that is replaced while it waits. -/
theorem run_links_supersededGrid : (after supersededGrid).Links :=
  run_links supersededGrid (by decide +kernel)

end BulkLink

end RoboTele
