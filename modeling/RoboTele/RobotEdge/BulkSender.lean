import RoboTele.Core.Bulk
import Mathlib.Data.Prod.Lex
import Mathlib.Logic.Function.Basic

/-!
# The bulk sender

An object is sent on a stream of its own.  Of a key one version is being sent and
one may wait for it.  A newer version takes the place of the waiting one.
`pump` writes what the connection takes, and a version that is written, or whose
stream fails, makes way for the waiting one.

The connection is an oracle.  A list of answers says what it does with each
write of a call: it takes any part of what is offered, takes nothing, or fails.
-/

namespace RoboTele

open Tables

/-! ## The connection -/

/-- What was written to a stream. -/
structure StreamSent where
  bytes : Bytes
  fin : Bool
deriving DecidableEq

/-- What was written to each stream, and the streams a write has failed on. -/
structure Conn where
  sent : Nat → StreamSent
  failed : List Nat

def Conn.new : Conn where
  sent _ := { bytes := [], fin := false }
  failed := []

/-- Write to a stream, with how much was taken.  The end of the stream is taken
with the last of the bytes. -/
def Conn.accept (c : Conn) (id : Nat) (offered : Bytes) (fin : Bool) (n : Nat) : Conn × Nat :=
  let taken := offered.take n
  ({ c with
      sent := Function.update c.sent id
        { bytes := (c.sent id).bytes ++ taken, fin := fin && decide (offered.length ≤ n) } },
    taken.length)

/-- The transport has given a stream up. -/
def Conn.fail (c : Conn) (id : Nat) : Conn := { c with failed := c.failed ++ [id] }

/-! ## The sender -/

/-- The kind and the source, ordered as the maps are. -/
abbrev SendKey := UInt8 ×ₗ UInt8

/-- The order of kinds and sources in which objects are sent. -/
def BulkHeader.sendKey (h : BulkHeader) : SendKey := toLex (h.kind.toU8, h.sourceId)

/-- What became of the objects that were published. -/
structure BulkSendStats where
  published : Nat
  completed : Nat
  superseded : Nat
deriving DecidableEq

/-- A version being sent. -/
structure Outgoing where
  streamId : Nat
  data : Bytes
  offset : Nat
deriving DecidableEq

/-- For each object a version that is being sent, and a newer one that waits. -/
structure BulkSender where
  nextStreamId : Nat
  active : AList fun _ : SendKey => Outgoing
  waiting : AList fun _ : SendKey => Bytes
  stats : BulkSendStats

/-- Bytes handed to one write at most. -/
def bulkChunk : Nat := 16 * 1024

namespace BulkSender

def new : BulkSender where
  nextStreamId := 3
  active := ∅
  waiting := ∅
  stats := { published := 0, completed := 0, superseded := 0 }

/-- Take the next stream id. -/
def allocateStream (s : BulkSender) : BulkSender := { s with nextStreamId := s.nextStreamId + 4 }

/-- A new stream for an object. -/
def start (s : BulkSender) (key : SendKey) (data : Bytes) : BulkSender :=
  { s.allocateStream with
    active := s.active.insert key { streamId := s.nextStreamId, data := data, offset := 0 } }

/-- An object is sent, or it waits in place of an older version. -/
def publish (s : BulkSender) (header : BulkHeader) (payload : Bytes) : BulkSender :=
  let key := header.sendKey
  let data := header.encode ++ payload
  let s := { s with stats := { s.stats with published := s.stats.published + 1 } }
  if key ∈ s.active then
    let superseded := if key ∈ s.waiting then s.stats.superseded + 1 else s.stats.superseded
    { s with
      waiting := s.waiting.insert key data
      stats := { s.stats with superseded := superseded } }
  else s.start key data

/-! ## Writing -/

/-- One object while a call writes it. -/
structure Write where
  conn : Conn
  left : Nat
  out : Outgoing
  ended : Bool
  answers : List Answer

/-- Write an object until it is written, the connection takes less than it is
offered, or the budget is used up.  With no answers left nothing is taken. -/
def writeObject (c : Conn) (left : Nat) (o : Outgoing) : List Answer → Write
  | [] => { conn := c, left := left, out := o, ended := false, answers := [] }
  | answer :: answers =>
      if left = 0 then
        { conn := c, left := left, out := o, ended := false, answers := answer :: answers }
      else
        let stop := min (o.offset + min bulkChunk left) o.data.length
        let offered := (o.data.drop o.offset).take (stop - o.offset)
        let fin := decide (stop = o.data.length)
        match answer with
        | .blocked => { conn := c, left := left, out := o, ended := false, answers := answers }
        | .fails =>
            { conn := c.fail o.streamId, left := left, out := o, ended := true
              answers := answers }
        | .accepts n =>
            let (c, n) := c.accept o.streamId offered fin n
            let o := { o with offset := o.offset + n }
            if fin ∧ o.offset = o.data.length then
              { conn := c, left := left - n, out := o, ended := true, answers := answers }
            else if n < offered.length then
              { conn := c, left := left - n, out := o, ended := false, answers := answers }
            else writeObject c (left - n) o answers

/-- The objects while a call writes them. -/
structure Writing where
  active : AList fun _ : SendKey => Outgoing
  conn : Conn
  left : Nat
  finished : List SendKey
  answers : List Answer

/-- Write what the transport takes of one object. -/
def writeKey (w : Writing) (key : SendKey) : Writing :=
  match w.active.lookup key with
  | none => w
  | some o =>
      let r := writeObject w.conn w.left o w.answers
      { active := w.active.insert key r.out
        conn := r.conn
        left := r.left
        finished := if r.ended then w.finished ++ [key] else w.finished
        answers := r.answers }

/-- Write the objects in the order of their keys. -/
def writeAll (s : BulkSender) (c : Conn) (budget : Option Nat) (answers : List Answer) :
    Writing :=
  (ascending s.active).foldl writeKey
    { active := s.active, conn := c, left := budget.getD usizeMax, finished := []
      answers := answers }

/-- Start the version that waits. -/
def promote (s : BulkSender) (key : SendKey) : BulkSender :=
  match s.waiting.lookup key with
  | none => s
  | some next => { s with waiting := s.waiting.erase key }.start key next

/-- Take out a version that is written, or whose stream failed. -/
def finish (s : BulkSender) (key : SendKey) : BulkSender :=
  match s.active.lookup key with
  | none => s.promote key
  | some o =>
      let s := { s with active := s.active.erase key }
      if o.offset = o.data.length then
        { s with stats := { s.stats with completed := s.stats.completed + 1 } }.promote key
      else s.promote key

/-- Write waiting object data, with how much was written. -/
def pump (s : BulkSender) (c : Conn) (budget : Option Nat) (answers : List Answer) :
    BulkSender × Conn × Nat :=
  let w := s.writeAll c budget answers
  (w.finished.foldl finish { s with active := w.active }, w.conn, budget.getD usizeMax - w.left)

/-! ## What a write does -/

/-- The stream of an object carries as much of it as its offset says, and its end
when that is all. -/
def OnWire (c : Conn) (o : Outgoing) : Prop :=
  o.offset ≤ o.data.length ∧
    c.sent o.streamId =
      { bytes := o.data.take o.offset, fin := decide (o.offset = o.data.length) }

/-- What is on a stream stays there. -/
def Grows (c c' : Conn) : Prop := ∀ id, (c.sent id).bytes <+: (c'.sent id).bytes

theorem Grows.refl (c : Conn) : Grows c c := fun _ => List.prefix_rfl

theorem Grows.trans {c c' c'' : Conn} (h : Grows c c') (h' : Grows c' c'') : Grows c c'' :=
  fun id => (h id).trans (h' id)

/-- What the connection accepts extends one stream. -/
theorem Grows.accept (c : Conn) (id : Nat) (offered : Bytes) (fin : Bool) (n : Nat) :
    Grows c (c.accept id offered fin n).1 := by
  intro k
  by_cases hk : k = id
  · subst hk
    simp only [Conn.accept, Function.update_self]
    exact List.prefix_append _ _
  · simp only [Conn.accept, Function.update_of_ne hk]
    exact List.prefix_rfl

/-- What a call did to the object. -/
structure Wrote (c : Conn) (o : Outgoing) (r : Write) : Prop where
  data : r.out.data = o.data
  streamId : r.out.streamId = o.streamId
  onWire : OnWire r.conn r.out
  begun : r.ended = false → r.out.offset < r.out.data.length
  ended : r.ended = true → r.out.offset = r.out.data.length ∨ r.out.streamId ∈ r.conn.failed
  others : ∀ id, id ≠ o.streamId → r.conn.sent id = c.sent id
  failed : ∀ id ∈ c.failed, id ∈ r.conn.failed
  grows : Grows c r.conn

theorem Wrote.rest {c c' : Conn} {o o' : Outgoing} {r : Write} (h : Wrote c' o' r)
    (hdata : o'.data = o.data) (hid : o'.streamId = o.streamId)
    (hothers : ∀ id, id ≠ o.streamId → c'.sent id = c.sent id) (hfailed : c'.failed = c.failed)
    (hgrows : Grows c c') : Wrote c o r where
  data := h.data.trans hdata
  streamId := h.streamId.trans hid
  onWire := h.onWire
  begun := h.begun
  ended := h.ended
  others id hne := (h.others id (hid ▸ hne)).trans (hothers id hne)
  failed id hmem := h.failed id (hfailed ▸ hmem)
  grows := hgrows.trans h.grows

/-- Nothing is taken. -/
theorem Wrote.nothing {c : Conn} {o : Outgoing} (honwire : OnWire c o)
    (hoffset : o.offset < o.data.length) (left : Nat) (answers : List Answer) :
    Wrote c o { conn := c, left := left, out := o, ended := false, answers := answers } where
  data := rfl
  streamId := rfl
  onWire := honwire
  begun _ := hoffset
  ended := nofun
  others _ _ := rfl
  failed _ hmem := hmem
  grows := .refl c

/-- As many bytes are offered as lie between the offsets. -/
theorem length_offered {data : Bytes} {offset stop : Nat} (hstop : stop ≤ data.length) :
    ((data.drop offset).take (stop - offset)).length = stop - offset := by
  rw [List.length_take, List.length_drop]
  omega

/-- Part of what is offered is taken. -/
theorem OnWire.accept {c : Conn} {o : Outgoing} (h : OnWire c o) {stop : Nat}
    (hstart : o.offset ≤ stop) (hstop : stop ≤ o.data.length) (n : Nat) :
    OnWire (c.accept o.streamId ((o.data.drop o.offset).take (stop - o.offset))
        (decide (stop = o.data.length)) n).1
      { o with offset := o.offset + min n (stop - o.offset) } := by
  refine ⟨?_, ?_⟩
  · change o.offset + min n (stop - o.offset) ≤ o.data.length
    omega
  · have hfin : (decide (stop = o.data.length) && decide (stop - o.offset ≤ n)) =
        decide (o.offset + min n (stop - o.offset) = o.data.length) := by
      rw [← Bool.decide_and, decide_eq_decide]
      omega
    simp only [Conn.accept, Function.update_self, h.2]
    rw [List.take_take, length_offered hstop, List.take_add, hfin]

/-- An object with bytes left is written as far as the connection accepts them. -/
theorem writeObject_wrote (answers : List Answer) :
    ∀ {c : Conn} {left : Nat} {o : Outgoing}, OnWire c o → o.offset < o.data.length →
      Wrote c o (writeObject c left o answers) := by
  induction answers with
  | nil =>
      intro c left o honwire hoffset
      exact .nothing honwire hoffset _ _
  | cons answer answers ih =>
      intro c left o honwire hoffset
      rw [writeObject]
      by_cases hleft : left = 0
      · rw [if_pos hleft]
        exact .nothing honwire hoffset _ _
      rw [if_neg hleft]
      cases answer with
      | blocked => exact .nothing honwire hoffset _ _
      | fails =>
          refine ⟨rfl, rfl, honwire, nofun, fun _ => .inr ?_, fun _ _ => rfl, ?_, .refl c⟩
          · exact List.mem_concat_self
          · intro id hmem
            exact List.mem_append_left _ hmem
      | accepts n =>
          set stop := min (o.offset + min bulkChunk left) o.data.length with hstop
          have hstart : o.offset ≤ stop := by omega
          have hend : stop ≤ o.data.length := Nat.min_le_right _ _
          have htaken : ((o.data.drop o.offset).take (stop - o.offset)).length = stop - o.offset :=
            length_offered hend
          have hn : (((o.data.drop o.offset).take (stop - o.offset)).take n).length =
              min n (stop - o.offset) := by
            rw [List.length_take, htaken]
          have haccept := honwire.accept hstart hend n
          have hothers : ∀ id, id ≠ o.streamId →
              (c.accept o.streamId ((o.data.drop o.offset).take (stop - o.offset))
                (decide (stop = o.data.length)) n).1.sent id = c.sent id := by
            intro id hne
            exact Function.update_of_ne hne _ _
          have hgrows := Grows.accept c o.streamId ((o.data.drop o.offset).take
            (stop - o.offset)) (decide (stop = o.data.length)) n
          simp only [Conn.accept, hn, htaken] at haccept hothers hgrows ⊢
          split_ifs with hdone hshort
          · exact ⟨rfl, rfl, haccept, nofun, fun _ => .inl hdone.2, hothers, fun _ hmem => hmem,
              hgrows⟩
          · refine ⟨rfl, rfl, haccept, fun _ => ?_, nofun, hothers, fun _ hmem => hmem, hgrows⟩
            change o.offset + min n (stop - o.offset) < o.data.length
            omega
          · -- all that was offered is taken, and it is not all there is
            have hmore : o.offset + min n (stop - o.offset) < o.data.length := by
              have hnotall : ¬ (stop = o.data.length ∧
                  o.offset + min n (stop - o.offset) = o.data.length) := by
                simpa using hdone
              omega
            exact (ih haccept hmore).rest rfl rfl hothers rfl hgrows

end BulkSender

end RoboTele
