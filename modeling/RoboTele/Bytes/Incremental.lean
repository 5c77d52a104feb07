import RoboTele.Bytes.Framing
import Mathlib.Data.List.Basic

/-!
# Readers that are fed in pieces

A reader takes items off the front of a byte string.  `next` says what the front
is: an item and what follows it, an error, or too little to tell.  A `Reader` is
a `next` that does not change its mind when more bytes come.

`drain` takes off items until it runs out of bytes or meets an error, after
which nothing is read any more.  `drainAll_append` is what incremental reading
rests on: draining a string and then the rest with more bytes gives the items
that draining all of it gives.

A `Framed` reader reads back what was written as frames.  Cut off anywhere, the
frames give the messages that are complete (`drainAll_frames`).
-/

namespace Incremental

variable {α ο : Type*}

/-- The front of a byte string. -/
inductive Next (α ο : Type*) where
  | more
  | item (out : ο) (rest : List α)
  | fail (out : ο)

/-- A `next` that looks at the item at the front only. -/
structure Reader (α ο : Type*) where
  next : List α → Next α ο
  shorter : ∀ {buf out rest}, next buf = .item out rest → rest.length < buf.length
  item_append : ∀ {buf out rest} (more : List α), next buf = .item out rest →
    next (buf ++ more) = .item out (rest ++ more)
  fail_append : ∀ {buf out} (more : List α), next buf = .fail out →
    next (buf ++ more) = .fail out

namespace Reader

variable (p : Reader α ο)

/-- Take off at most `fuel` items.  Nothing is left after an error. -/
def drain : Nat → List α → List ο × Option (List α)
  | 0, buf => ([], some buf)
  | fuel + 1, buf =>
      match p.next buf with
      | .more => ([], some buf)
      | .fail out => ([out], none)
      | .item out rest =>
          let after := drain fuel rest
          (out :: after.1, after.2)

/-- Take off every item. -/
def drainAll (buf : List α) : List ο × Option (List α) := p.drain (buf.length + 1) buf

variable {p} {buf rest : List α} {out : ο}

theorem drain_succ_of_more {fuel : Nat} (h : p.next buf = .more) :
    p.drain (fuel + 1) buf = ([], some buf) := by
  rw [drain, h]

theorem drain_succ_of_fail {fuel : Nat} (h : p.next buf = .fail out) :
    p.drain (fuel + 1) buf = ([out], none) := by
  rw [drain, h]

theorem drain_succ_of_item {fuel : Nat} (h : p.next buf = .item out rest) :
    p.drain (fuel + 1) buf = (out :: (p.drain fuel rest).1, (p.drain fuel rest).2) := by
  rw [drain, h]

/-- More fuel than bytes is enough. -/
theorem drain_eq : ∀ (fuel : Nat) (buf : List α), buf.length < fuel → ∀ more,
    p.drain (fuel + more) buf = p.drain fuel buf
  | 0, _, h, _ => absurd h (Nat.not_lt_zero _)
  | fuel + 1, buf, h, more => by
      rw [Nat.succ_add]
      cases hnext : p.next buf with
      | more => rw [drain_succ_of_more hnext, drain_succ_of_more hnext]
      | fail out => rw [drain_succ_of_fail hnext, drain_succ_of_fail hnext]
      | item out rest =>
          have hlt := p.shorter hnext
          rw [drain_succ_of_item hnext, drain_succ_of_item hnext,
            drain_eq fuel rest (by omega) more]

theorem drain_eq_drainAll {fuel : Nat} (h : buf.length < fuel) :
    p.drain fuel buf = p.drainAll buf := by
  obtain ⟨more, rfl⟩ := Nat.exists_eq_add_of_le (show buf.length + 1 ≤ fuel from h)
  exact drain_eq _ buf (Nat.lt_succ_self _) more

theorem drainAll_of_more (h : p.next buf = .more) : p.drainAll buf = ([], some buf) :=
  drain_succ_of_more h

theorem drainAll_of_fail (h : p.next buf = .fail out) : p.drainAll buf = ([out], none) :=
  drain_succ_of_fail h

theorem drainAll_of_item (h : p.next buf = .item out rest) :
    p.drainAll buf = (out :: (p.drainAll rest).1, (p.drainAll rest).2) := by
  rw [drainAll, drain_succ_of_item h, drain_eq_drainAll (p.shorter h)]

/-- What draining goes on with when more bytes come. -/
def resume (p : Reader α ο) (left : Option (List α)) (more : List α) : List ο × Option (List α) :=
  match left with
  | none => ([], none)
  | some rest => p.drainAll (rest ++ more)

/-- Draining in two pieces is draining at once. -/
theorem drainAll_append (p : Reader α ο) (buf more : List α) :
    p.drainAll (buf ++ more) =
      ((p.drainAll buf).1 ++ (p.resume (p.drainAll buf).2 more).1,
        (p.resume (p.drainAll buf).2 more).2) := by
  cases hnext : p.next buf with
  | more =>
      rw [drainAll_of_more hnext]
      rfl
  | fail out =>
      rw [drainAll_of_fail hnext, drainAll_of_fail (p.fail_append more hnext)]
      rfl
  | item out rest =>
      have hlt := p.shorter hnext
      rw [drainAll_of_item hnext, drainAll_of_item (p.item_append more hnext),
        drainAll_append p rest more]
      rfl
  termination_by buf.length

/-- What is left is too little for an item. -/
theorem next_left (p : Reader α ο) (buf : List α) {left : List α}
    (h : (p.drainAll buf).2 = some left) : p.next left = .more := by
  cases hnext : p.next buf with
  | more =>
      rw [drainAll_of_more hnext] at h
      exact Option.some.inj h ▸ hnext
  | fail out =>
      rw [drainAll_of_fail hnext] at h
      exact absurd h.symm (Option.some_ne_none left)
  | item out rest =>
      have hlt := p.shorter hnext
      rw [drainAll_of_item hnext] at h
      exact next_left p rest h
  termination_by buf.length

/-- Every item and every error was the front of some string. -/
theorem forall_drainAll {P : ο → Prop} (hitem : ∀ buf out rest, p.next buf = .item out rest → P out)
    (hfail : ∀ buf out, p.next buf = .fail out → P out) (buf : List α) :
    ∀ out ∈ (p.drainAll buf).1, P out := by
  cases hnext : p.next buf with
  | more =>
      rw [drainAll_of_more hnext]
      nofun
  | fail out =>
      rw [drainAll_of_fail hnext]
      intro out' hout'
      exact List.mem_singleton.mp hout' ▸ hfail buf out hnext
  | item out rest =>
      have hlt := p.shorter hnext
      rw [drainAll_of_item hnext]
      intro out' hout'
      rcases List.mem_cons.mp hout' with rfl | hmem
      · exact hitem buf out' rest hnext
      · exact forall_drainAll hitem hfail rest out' hmem
  termination_by buf.length

/-! ## Frames -/

/-- The reader takes off a frame as what was written in it, and part of a frame
is too little. -/
structure Framed {μ : Type*} (p : Reader α ο) (frame : μ → List α) (out : μ → ο)
    (Good : μ → Prop) : Prop where
  nil : p.next [] = .more
  frame_append : ∀ m, Good m → ∀ rest, p.next (frame m ++ rest) = .item (out m) rest
  of_isPrefix : ∀ m, Good m → ∀ buf, buf <+: frame m → buf.length < (frame m).length →
    p.next buf = .more

variable {μ : Type*} {frame : μ → List α} {out : μ → ο} {Good : μ → Prop}

theorem Framed.drainAll_frames (h : Framed p frame out Good) :
    ∀ (ms : List μ) (buf : List α), (∀ m ∈ ms, Good m) → buf <+: (ms.map frame).flatten →
      ∃ left, p.drainAll buf =
        ((Framing.complete (fun m => (frame m).length) ms buf.length).1.map out, some left)
  | [], buf, _, hbuf => by
      obtain rfl := List.prefix_nil.mp hbuf
      exact ⟨[], drainAll_of_more h.nil⟩
  | m :: ms, buf, hgood, hbuf => by
      have hm := hgood m List.mem_cons_self
      rw [List.map_cons, List.flatten_cons] at hbuf
      by_cases hle : (frame m).length ≤ buf.length
      · obtain ⟨rest, rfl⟩ : frame m <+: buf :=
          List.prefix_of_prefix_length_le (List.prefix_append _ _) hbuf hle
        obtain ⟨left, hleft⟩ := h.drainAll_frames ms rest
          (fun m hm => hgood m (List.mem_cons_of_mem _ hm))
          ((List.prefix_append_right_inj _).mp hbuf)
        refine ⟨left, ?_⟩
        rw [drainAll_of_item (h.frame_append m hm rest), hleft,
          Framing.complete_cons_of_le (fun m => (frame m).length) hle, List.length_append,
          Nat.add_sub_cancel_left]
        rfl
      · have hlt := Nat.not_le.mp hle
        have hpart : buf <+: frame m :=
          List.prefix_of_prefix_length_le hbuf (List.prefix_append _ _) hlt.le
        refine ⟨buf, ?_⟩
        rw [drainAll_of_more (h.of_isPrefix m hm buf hpart hlt),
          Framing.complete_cons_of_lt (fun m => (frame m).length) hlt]
        rfl

/-- What is read is the front of the bytes, where an item is read from its frame
only. -/
theorem drainAll_isPrefix {frame : ο → List α}
    (hframe : ∀ buf out rest, p.next buf = .item out rest → buf = frame out ++ rest)
    (hfail : ∀ buf out, p.next buf ≠ .fail out) (buf : List α) :
    ((p.drainAll buf).1.map frame).flatten <+: buf := by
  cases hnext : p.next buf with
  | more =>
      rw [drainAll_of_more hnext]
      exact List.nil_prefix
  | fail out => exact absurd hnext (hfail buf out)
  | item out rest =>
      have hlt := p.shorter hnext
      have ih := drainAll_isPrefix hframe hfail rest
      have hpart := (List.prefix_append_right_inj (frame out)).mpr ih
      rw [drainAll_of_item hnext, List.map_cons, List.flatten_cons]
      rwa [← hframe buf out rest hnext] at hpart
  termination_by buf.length

end Reader

end Incremental
