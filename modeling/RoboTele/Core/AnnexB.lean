import RoboTele.Bytes.Incremental
import RoboTele.Core.Datagram

/-!
# Splitting an Annex-B stream

A start code, three or four bytes long, stands in front of every NAL unit.  The
splitter keeps the bytes from the last start code on, since only the next one
tells where a NAL ends.

`Found` says which start codes a scan from left to right comes to, without
scanning.  The splitter gives the runs of bytes between these, however the stream
is split into pushes (`feed_exact`).
-/

namespace RoboTele

open Incremental

/-! ## Start codes -/

/-- A start code of `n` bytes begins at `i`. -/
def StartCodeAt (buf : Bytes) (i n : Nat) : Prop :=
  n = 3 ∧ (buf.drop i).take 3 = [0, 0, 1] ∨ n = 4 ∧ (buf.drop i).take 4 = [0, 0, 0, 1]

/-- Where the start codes from `i` on begin and end. -/
def findStartCodesFrom (buf : Bytes) (i : Nat) : List (Nat × Nat) :=
  if i + 3 ≤ buf.length then
    if (buf.drop i).take 3 = [0, 0, 1] then (i, i + 3) :: findStartCodesFrom buf (i + 3)
    else if (buf.drop i).take 4 = [0, 0, 0, 1] then (i, i + 4) :: findStartCodesFrom buf (i + 4)
    else findStartCodesFrom buf (i + 1)
  else []
  termination_by buf.length - i

/-- Where the start codes of a buffer are, and how long each is. -/
def findStartCodes (buf : Bytes) : List (Nat × Nat) := findStartCodesFrom buf 0

/-- The bytes between one start code and the next. -/
def runsBetween (buf : Bytes) : List (Nat × Nat) → List Bytes
  | start :: nextStart :: starts =>
      (buf.take nextStart.1).drop start.2 :: runsBetween buf (nextStart :: starts)
  | _ => []

/-- The start codes that a scan from `i` on comes to: the first one, and what a
scan behind it comes to. -/
inductive Found (buf : Bytes) : Nat → List (Nat × Nat) → Prop where
  | none {i : Nat} : (∀ j n, i ≤ j → ¬ StartCodeAt buf j n) → Found buf i []
  | next {i j n : Nat} {starts : List (Nat × Nat)} : i ≤ j → StartCodeAt buf j n →
      (∀ k m, i ≤ k → k < j → ¬ StartCodeAt buf k m) → Found buf (j + n) starts →
      Found buf i ((j, j + n) :: starts)

section

variable {buf more : Bytes} {i j k n m : Nat} {starts starts' : List (Nat × Nat)}

/-- A start code has three or four bytes, within the buffer. -/
theorem StartCodeAt.le_length (h : StartCodeAt buf i n) : 3 ≤ n ∧ n ≤ 4 ∧ i + n ≤ buf.length := by
  rcases h with ⟨rfl, h⟩ | ⟨rfl, h⟩ <;>
    · have hlen := congrArg List.length h
      simp at hlen
      omega

/-- A position has one start code. -/
theorem StartCodeAt.unique (h : StartCodeAt buf i n) (h' : StartCodeAt buf i m) : n = m := by
  have hthree : ∀ {b : Bytes}, b.take 3 = [0, 0, 1] → b.take 4 = [0, 0, 0, 1] → False := by
    intro b h₃ h₄
    have htake := congrArg (List.take 3) h₄
    rw [List.take_take, show min 3 4 = 3 from rfl, h₃] at htake
    exact absurd htake (by decide)
  rcases h with ⟨rfl, h⟩ | ⟨rfl, h⟩ <;> rcases h' with ⟨rfl, h'⟩ | ⟨rfl, h'⟩
  · rfl
  · exact (hthree h h').elim
  · exact (hthree h' h).elim
  · rfl

/-- Within its bytes a start code does not depend on what follows. -/
theorem startCodeAt_append (h : i + n ≤ buf.length) (more : Bytes) :
    StartCodeAt (buf ++ more) i n ↔ StartCodeAt buf i n := by
  have hsame : ∀ m ≤ n, ((buf ++ more).drop i).take m = (buf.drop i).take m := by
    intro m hm
    rw [List.drop_append_of_le_length (by omega),
      List.take_append_of_le_length (by rw [List.length_drop]; omega)]
  constructor <;>
    · rintro (⟨rfl, hat⟩ | ⟨rfl, hat⟩)
      · exact .inl ⟨rfl, by rw [← hat, hsame _ le_rfl]⟩
      · exact .inr ⟨rfl, by rw [← hat, hsame _ le_rfl]⟩

/-- Dropping bytes moves the start codes. -/
theorem startCodeAt_drop : StartCodeAt (buf.drop k) i n ↔ StartCodeAt buf (k + i) n := by
  rw [StartCodeAt, StartCodeAt, List.drop_drop]

/-! ## What a scan comes to -/

/-- Where no start code begins, the search goes on. -/
theorem Found.skip (h : Found buf (i + 1) starts) (hi : ∀ n, ¬ StartCodeAt buf i n) :
    Found buf i starts := by
  cases h with
  | none hnone =>
      refine .none fun j n hij hat => ?_
      rcases hij.eq_or_lt with rfl | hlt
      · exact hi n hat
      · exact hnone j n hlt hat
  | next hij hat hfirst rest =>
      refine .next (by omega) hat ?_ rest
      intro k m hik hkj hat'
      rcases hik.eq_or_lt with rfl | hlt
      · exact hi m hat'
      · exact hfirst k m hlt hkj hat'

/-- The search finds the start codes from its index on. -/
theorem found_findStartCodesFrom (buf : Bytes) (i : Nat) :
    Found buf i (findStartCodesFrom buf i) := by
  fun_induction findStartCodesFrom buf i with
  | case1 i hle hthree ih =>
      exact .next le_rfl (.inl ⟨rfl, hthree⟩) (fun k m hik hki => by omega) ih
  | case2 i hle _ hfour ih =>
      exact .next le_rfl (.inr ⟨rfl, hfour⟩) (fun k m hik hki => by omega) ih
  | case3 i hle hthree hfour ih =>
      refine ih.skip ?_
      rintro n (⟨-, hat⟩ | ⟨-, hat⟩)
      · exact hthree hat
      · exact hfour hat
  | case4 i hlt =>
      refine .none fun j n hij hat => ?_
      have hlen := hat.le_length
      omega

/-- A scan comes to one list. -/
theorem Found.unique (h : Found buf i starts) (h' : Found buf i starts') : starts = starts' := by
  induction h generalizing starts' with
  | none hnone =>
      cases h' with
      | none _ => rfl
      | next hij hat _ _ => exact absurd hat (hnone _ _ hij)
  | @next i j n starts hij hat hfirst _ ih =>
      cases h' with
      | none hnone => exact absurd hat (hnone _ _ hij)
      | @next _ j' n' _ hij' hat' hfirst' rest' =>
          obtain rfl : j = j' := by
            rcases Nat.lt_trichotomy j j' with hlt | heq | hlt
            · exact absurd hat (hfirst' j n hij hlt)
            · exact heq
            · exact absurd hat' (hfirst j' n' hij' hlt)
          obtain rfl := hat.unique hat'
          rw [ih rest']

/-- Every start code ends within the bytes. -/
theorem Found.le_length (h : Found buf i starts) :
    ∀ s ∈ starts, i ≤ s.1 ∧ s.1 + 3 ≤ s.2 ∧ s.2 ≤ buf.length := by
  induction h with
  | none _ => nofun
  | @next i j n starts hij hat hfirst _ ih =>
      have hlen := hat.le_length
      intro s hs
      rcases List.mem_cons.mp hs with rfl | hs
      · exact ⟨hij, by omega, by omega⟩
      · obtain ⟨hle, hthree, hend⟩ := ih s hs
        exact ⟨by omega, hthree, hend⟩

/-- More bytes keep the start codes there are. -/
theorem Found.append (h : Found buf i starts) (more : Bytes) :
    ∃ added, Found (buf ++ more) i (starts ++ added) := by
  induction h with
  | none _ => exact ⟨_, found_findStartCodesFrom _ _⟩
  | @next i j n starts hij hat hfirst _ ih =>
      obtain ⟨added, hadded⟩ := ih
      have hlen := hat.le_length
      refine ⟨added, .next hij ((startCodeAt_append hlen.2.2 more).mpr hat) ?_ hadded⟩
      intro k m hik hkj hat'
      -- an earlier start code would end no later than this one
      have hlen' := hat'.le_length
      exact hfirst k m hik hkj ((startCodeAt_append (by omega) more).mp hat')

/-- More bytes only add start codes. -/
theorem findStartCodes_append (buf more : Bytes) :
    ∃ added, findStartCodes (buf ++ more) = findStartCodes buf ++ added := by
  obtain ⟨added, hadded⟩ := (found_findStartCodesFrom buf 0).append more
  exact ⟨added, (found_findStartCodesFrom _ 0).unique hadded⟩

/-- The same start codes, counted from a later byte. -/
def shift (k : Nat) (s : Nat × Nat) : Nat × Nat := (s.1 - k, s.2 - k)

/-- What was found is found in the rest of the buffer, shifted. -/
theorem Found.drop {k i' : Nat} (h : Found buf i' starts) : ∀ {i : Nat}, i' = k + i →
    Found (buf.drop k) i (starts.map (shift k)) := by
  induction h with
  | none hnone =>
      rintro i rfl
      exact .none fun j n hij hat => hnone (k + j) n (by omega) (startCodeAt_drop.mp hat)
  | @next i' j n starts hij hat hfirst _ ih =>
      rintro i rfl
      obtain ⟨d, rfl⟩ := Nat.exists_eq_add_of_le (show k ≤ j by omega)
      have hshift : shift k (k + d, k + d + n) = (d, d + n) := by
        rw [shift]
        exact Prod.ext (by simp) (by simp only; omega)
      rw [List.map_cons, hshift]
      refine .next (by omega) (startCodeAt_drop.mpr hat) ?_ (ih (by omega))
      intro l m hil hld hat'
      exact hfirst (k + l) m (by omega) (by omega) (startCodeAt_drop.mp hat')

/-- A search from the first start code finds the same. -/
theorem Found.from_first {s : Nat × Nat} (h : Found buf i (s :: starts)) :
    Found buf s.1 (s :: starts) := by
  cases h with
  | next _ hat _ rest => exact .next le_rfl hat (fun k m hk hlt => by omega) rest

/-! ## Runs -/

/-- The bytes between start codes do not depend on what was dropped before. -/
theorem runsBetween_drop {k : Nat} :
    ∀ {starts : List (Nat × Nat)}, (∀ s ∈ starts, k ≤ s.2) →
      runsBetween (buf.drop k) (starts.map (shift k)) = runsBetween buf starts
  | [], _ => rfl
  | [_], _ => rfl
  | s :: t :: starts, h => by
      have hs := h s List.mem_cons_self
      have ih := runsBetween_drop (k := k)
        fun s hs => h s (List.mem_cons_of_mem _ hs)
      rw [List.map_cons] at ih
      rw [List.map_cons, List.map_cons, runsBetween, runsBetween, ih, shift, shift,
        ← List.drop_take, List.drop_drop, Nat.add_sub_cancel' hs]

/-- One start code delimits nothing. -/
theorem runsBetween_of_length (h : starts.length < 2) : runsBetween buf starts = [] := by
  match starts, h with
  | [], _ => rfl
  | [_], _ => rfl

/-- Where the bytes that may still be part of a NAL begin. -/
def keepFrom (starts : List (Nat × Nat)) : Nat :=
  if starts.length < 2 then 0 else (starts.getLast?.getD (0, 0)).1

/-- Of two start codes or more, the last one is kept. -/
theorem keepFrom_cons {s t : Nat × Nat} :
    keepFrom (s :: t :: starts) = ((t :: starts).getLast?.getD (0, 0)).1 := by
  rw [keepFrom, if_neg (by simp), List.getLast?_cons_cons]

/-- Counted from the second start code, the bytes to keep begin where they did. -/
theorem add_keepFrom_shift {t : Nat × Nat} (h : ∀ s ∈ t :: starts, t.1 ≤ s.1) :
    t.1 + keepFrom ((t :: starts).map (shift t.1)) = ((t :: starts).getLast?.getD (0, 0)).1 := by
  cases starts with
  | nil => rfl
  | cons u starts =>
      have hlast := h _ (List.getLast_mem (List.cons_ne_nil t (u :: starts)))
      rw [keepFrom, if_neg (by simp), List.getLast?_map,
        List.getLast?_eq_some_getLast (List.cons_ne_nil _ _)]
      simp only [Option.map_some, Option.getD_some, shift]
      omega

end

/-! ## The splitter -/

/-- What has come in since the last whole NAL, from its start code on. -/
structure AnnexBSplitter where
  buf : Bytes
deriving DecidableEq

namespace AnnexBSplitter

/-- Nothing has been read. -/
def new : AnnexBSplitter where
  buf := []

/-- Feed bytes, with the NALs that they complete. -/
def push (s : AnnexBSplitter) (data : Bytes) : AnnexBSplitter × List Bytes :=
  let buf := s.buf ++ data
  let starts := findStartCodes buf
  if starts.length < 2 then ({ buf }, [])
  else ({ buf := buf.drop (starts.getLast?.getD (0, 0)).1 }, runsBetween buf starts)

/-- Feed bytes in pieces, with all the NALs. -/
def feed (s : AnnexBSplitter) : List Bytes → AnnexBSplitter × List Bytes
  | [] => (s, [])
  | data :: rest =>
      ((feed (s.push data).1 rest).1, (s.push data).2 ++ (feed (s.push data).1 rest).2)

/-- The first NAL between two start codes. -/
def nextNal (buf : Bytes) : Next UInt8 Bytes :=
  match findStartCodes buf with
  | start :: nextStart :: _ =>
      .item ((buf.take nextStart.1).drop start.2) (buf.drop nextStart.1)
  | _ => .more

/-- A NAL stands between the first two start codes. -/
theorem nextNal_eq_item {buf out rest : Bytes} (h : nextNal buf = .item out rest) :
    ∃ start nextStart starts, findStartCodes buf = start :: nextStart :: starts ∧
      out = (buf.take nextStart.1).drop start.2 ∧ rest = buf.drop nextStart.1 := by
  rw [nextNal] at h
  split at h
  · rename_i start nextStart starts hstarts
    obtain ⟨rfl, rfl⟩ := Next.item.inj h
    exact ⟨start, nextStart, starts, hstarts, rfl, rfl⟩
  · cases h

/-- Two start codes give a NAL. -/
theorem nextNal_of_starts {buf : Bytes} {start nextStart : Nat × Nat} {starts : List (Nat × Nat)}
    (h : findStartCodes buf = start :: nextStart :: starts) :
    nextNal buf = .item ((buf.take nextStart.1).drop start.2) (buf.drop nextStart.1) := by
  rw [nextNal, h]

/-- One does not. -/
theorem nextNal_of_length {buf : Bytes} (h : (findStartCodes buf).length < 2) :
    nextNal buf = .more := by
  rw [nextNal]
  split
  · rename_i start nextStart starts hstarts
    rw [hstarts, List.length_cons, List.length_cons] at h
    omega
  · rfl

/-- From the second start code on, the rest of the start codes are found. -/
theorem starts_spec {buf : Bytes} {start nextStart : Nat × Nat} {starts : List (Nat × Nat)}
    (h : findStartCodes buf = start :: nextStart :: starts) :
    0 < nextStart.1 ∧ nextStart.1 ≤ buf.length ∧
      findStartCodes (buf.drop nextStart.1) = (nextStart :: starts).map (shift nextStart.1) := by
  have hfound : Found buf 0 (start :: nextStart :: starts) := h ▸ found_findStartCodesFrom buf 0
  cases hfound with
  | @next _ j n _ _ hat _ rest =>
      have hlen := hat.le_length
      obtain ⟨hle, hthree, hend⟩ := rest.le_length nextStart List.mem_cons_self
      refine ⟨by omega, by omega, ?_⟩
      exact (found_findStartCodesFrom _ 0).unique (rest.from_first.drop rfl)

/-- The start codes from the second on lie behind its beginning. -/
theorem le_of_starts {buf : Bytes} {start nextStart : Nat × Nat} {starts : List (Nat × Nat)}
    (h : findStartCodes buf = start :: nextStart :: starts) :
    ∀ s ∈ nextStart :: starts, nextStart.1 ≤ s.1 ∧ nextStart.1 ≤ s.2 := by
  have hfound : Found buf 0 (start :: nextStart :: starts) := h ▸ found_findStartCodesFrom buf 0
  cases hfound with
  | next _ _ _ rest =>
      intro s hs
      obtain ⟨hle, hthree, -⟩ := rest.from_first.le_length s hs
      exact ⟨hle, by omega⟩

/-- The NALs of a stream. -/
def nals : Reader UInt8 Bytes where
  next := nextNal
  shorter := by
    intro buf out rest h
    obtain ⟨start, nextStart, starts, hstarts, -, rfl⟩ := nextNal_eq_item h
    obtain ⟨hpos, hle, -⟩ := starts_spec hstarts
    rw [List.length_drop]
    omega
  item_append := by
    intro buf out rest more h
    obtain ⟨start, nextStart, starts, hstarts, rfl, rfl⟩ := nextNal_eq_item h
    obtain ⟨-, hle, -⟩ := starts_spec hstarts
    obtain ⟨added, hadded⟩ := findStartCodes_append buf more
    rw [hstarts] at hadded
    rw [nextNal_of_starts hadded, List.take_append_of_le_length hle,
      List.drop_append_of_le_length hle]
  fail_append := by
    intro buf out more h
    simp only [nextNal] at h
    split at h <;> cases h

/-- All the NALs taken off, and the bytes from the last start code on. -/
theorem drainAll_nals (buf : Bytes) :
    nals.drainAll buf =
      (runsBetween buf (findStartCodes buf), some (buf.drop (keepFrom (findStartCodes buf)))) := by
  match hstarts : findStartCodes buf with
  | [] =>
      rw [Reader.drainAll_of_more (nextNal_of_length (by simp [hstarts]))]
      rfl
  | [start] =>
      rw [Reader.drainAll_of_more (nextNal_of_length (by simp [hstarts]))]
      rfl
  | start :: nextStart :: starts =>
      obtain ⟨hpos, hle, hrest⟩ := starts_spec hstarts
      have hlt : (buf.drop nextStart.1).length < buf.length := by
        rw [List.length_drop]
        omega
      have ih := drainAll_nals (buf.drop nextStart.1)
      have hafter := le_of_starts hstarts
      rw [hrest, runsBetween_drop fun s hs => (hafter s hs).2, List.drop_drop,
        add_keepFrom_shift fun s hs => (hafter s hs).1] at ih
      rw [Reader.drainAll_of_item (nextNal_of_starts hstarts), ih, keepFrom_cons]
      rfl
  termination_by buf.length

/-- A push keeps the bytes from the last start code on, and returns the runs before it. -/
theorem push_eq (s : AnnexBSplitter) (data : Bytes) :
    s.push data =
      ({ buf := (s.buf ++ data).drop (keepFrom (findStartCodes (s.buf ++ data))) },
        (nals.drainAll (s.buf ++ data)).1) := by
  rw [drainAll_nals, push, keepFrom]
  dsimp only
  split
  · rename_i hlt
    rw [runsBetween_of_length hlt, List.drop_zero]
  · rfl

/-- The NALs do not depend on where the stream is split. -/
theorem feed_snd : ∀ (chunks : List Bytes) (s : AnnexBSplitter),
    nals.next s.buf = .more → (s.feed chunks).2 = (nals.drainAll (s.buf ++ chunks.flatten)).1
  | [], s, hmore => by
      rw [List.flatten_nil, List.append_nil, Reader.drainAll_of_more hmore]
      rfl
  | data :: rest, s, _ => by
      have hall := drainAll_nals (s.buf ++ data)
      have hleft := nals.next_left (s.buf ++ data) (congrArg Prod.snd hall)
      have ih := feed_snd rest (s.push data).1 (by rwa [push_eq])
      rw [List.flatten_cons, ← List.append_assoc, Reader.drainAll_append, feed, ih, push_eq, hall]
      rfl

/-- However a stream is split, the NALs are the bytes between one start code and
the next of the whole stream. -/
theorem feed_exact (chunks : List Bytes) :
    ∃ starts, Found chunks.flatten 0 starts ∧
      (new.feed chunks).2 = runsBetween chunks.flatten starts := by
  refine ⟨findStartCodes chunks.flatten, found_findStartCodesFrom _ 0, ?_⟩
  have hnone : nals.next new.buf = .more := nextNal_of_length (by simp [findStartCodes,
    findStartCodesFrom, new])
  rw [feed_snd chunks new hnone, drainAll_nals]
  rfl

end AnnexBSplitter

end RoboTele
