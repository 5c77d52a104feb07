import RoboTele.Core.TopicRuns
import RoboTele.Queues.WaitingLine
import RoboTele.Runs.Past

/-!
# Latest samples

The datagrams that wait are one for each key in line, each one of its key's newest
sample.  A pop takes keys off the front of the line until a datagram fits
(`PopsInTurn`), and the line is in the order in which its keys started to wait.

`servesLatest` puts this together for every run.
-/

namespace RoboTele

open Runs

namespace TopicOutbox

/-- What a pop of at most `maxLen` bytes takes off a line: first the keys whose
datagrams are too long, and then the key whose datagram it returns, if any. -/
structure PopsInTurn (o : TopicOutbox) (line : List String) (maxLen : Nat)
    (popped : TopicOutbox × Option Bytes) (skipped : List String) : Prop where
  skips : ∀ key ∈ skipped, ∃ d, o.latest.lookup key = some d ∧ maxLen < d.length
  serves : match popped.2 with
    | none => line = skipped ∧ popped.1.order = []
    | some d => ∃ key, line = skipped ++ key :: popped.1.order ∧
        o.latest.lookup key = some d ∧ d.length ≤ maxLen
  keeps : ∀ key d, popped.1.latest.lookup key = some d → o.latest.lookup key = some d
  sent : popped.1.stats.latestSent = o.stats.latestSent + popped.2.toList.length
  oversize : popped.1.stats.latestOversize = o.stats.latestOversize + skipped.length
  superseded : popped.1.stats.latestSuperseded = o.stats.latestSuperseded

theorem lookup_of_erase {t : AList fun _ : String => Bytes} {key key' : String} {d : Bytes}
    (h : (t.erase key).lookup key' = some d) : t.lookup key' = some d := by
  by_cases hkey : key' = key
  · rw [hkey, AList.lookup_erase] at h
    cases h
  · rwa [AList.lookup_erase_ne hkey] at h

/-- A pop finds a datagram for every key that it takes off the line. -/
theorem popsInTurn_popFrom (maxLen : Nat) : ∀ (line : List String) (o : TopicOutbox),
    { o with order := line }.LineUp →
      ∃ skipped, o.PopsInTurn line maxLen (o.popFrom maxLen line) skipped
  | [], o, _ => ⟨[], {
      skips := fun _ hkey => absurd hkey List.not_mem_nil
      serves := ⟨rfl, rfl⟩
      keeps := fun _ _ => id
      sent := rfl
      oversize := rfl
      superseded := rfl }⟩
  | key :: rest, o, h => by
      have hmem : key ∈ o.latest := (h.mem key).mp List.mem_cons_self
      obtain ⟨d, hd⟩ := Option.isSome_iff_exists.mp (AList.lookup_isSome.mpr hmem)
      simp only [popFrom, hd]
      split_ifs with hfits
      · exact ⟨[], {
          skips := fun _ hkey => absurd hkey List.not_mem_nil
          serves := ⟨key, rfl, hd, hfits⟩
          keeps := fun _ _ => lookup_of_erase
          sent := rfl
          oversize := rfl
          superseded := rfl }⟩
      · let skip : OutboxStats := { o.stats with latestOversize := o.stats.latestOversize + 1 }
        let o' : TopicOutbox := { o with latest := o.latest.erase key, stats := skip }
        obtain ⟨skipped, hpop⟩ := popsInTurn_popFrom maxLen rest o' (h.erase_head skip)
        refine ⟨key :: skipped, ?_, ?_, ?_, hpop.sent, ?_, hpop.superseded⟩
        · intro key' hkey'
          rcases List.mem_cons.mp hkey' with rfl | hkey'
          · exact ⟨d, hd, Nat.not_le.mp hfits⟩
          · obtain ⟨d', hd', hlong⟩ := hpop.skips key' hkey'
            exact ⟨d', lookup_of_erase hd', hlong⟩
        · have hserves := hpop.serves
          cases hout : (o'.popFrom maxLen rest).2 with
          | none =>
              rw [hout] at hserves
              exact ⟨congrArg (key :: ·) hserves.1, hserves.2⟩
          | some d' =>
              rw [hout] at hserves
              obtain ⟨key', hline, hd', hfits'⟩ := hserves
              exact ⟨key', congrArg (key :: ·) hline, lookup_of_erase hd', hfits'⟩
        · exact fun key' d' hd' => lookup_of_erase (hpop.keeps key' d' hd')
        · rw [hpop.oversize, List.length_cons]
          exact Nat.add_right_comm ..

/-- A pop takes one key off the line for each datagram that it skips or returns. -/
theorem PopsInTurn.length {o : TopicOutbox} {line : List String} {maxLen : Nat}
    {popped : TopicOutbox × Option Bytes} {skipped : List String}
    (h : o.PopsInTurn line maxLen popped skipped) :
    line.length = skipped.length + popped.2.toList.length + popped.1.order.length := by
  have hserves := h.serves
  cases hout : popped.2 with
  | none =>
      rw [hout] at hserves
      rw [hserves.1, hserves.2]
      rfl
  | some d =>
      rw [hout] at hserves
      obtain ⟨key, hline, -⟩ := hserves
      rw [hline, List.length_append, List.length_cons, Option.toList_some, List.length_singleton]
      omega

/-- A pop only serves the line. -/
theorem PopsInTurn.moves {o : TopicOutbox} {line : List String} {maxLen : Nat}
    {popped : TopicOutbox × Option Bytes} {skipped : List String}
    (h : o.PopsInTurn line maxLen popped skipped) : WaitingLine.Moves line popped.1.order := by
  have hserves := h.serves
  cases hout : popped.2 with
  | none =>
      rw [hout] at hserves
      rw [hserves.1, hserves.2]
      exact .serves skipped [] (List.append_nil _).symm
  | some d =>
      rw [hout] at hserves
      obtain ⟨key, hline, -⟩ := hserves
      exact .serves (skipped ++ [key]) _ (by rw [hline, List.append_assoc, List.singleton_append])

/-- Two outboxes that are the same to latest samples. -/
structure SameLatest (o o' : TopicOutbox) : Prop where
  latest : o'.latest = o.latest
  order : o'.order = o.order
  sent : o'.stats.latestSent = o.stats.latestSent
  superseded : o'.stats.latestSuperseded = o.stats.latestSuperseded
  oversize : o'.stats.latestOversize = o.stats.latestOversize

theorem sameLatest_pushReliable (o : TopicOutbox) (s : TopicSample) :
    o.SameLatest (o.pushReliable s) := by
  rw [pushReliable]
  dsimp only
  split_ifs <;> exact ⟨rfl, rfl, rfl, rfl, rfl⟩

/-- A latest sample takes the place of the one that waits, or joins the line. -/
theorem pushLatest_cases (o : TopicOutbox) (s : TopicSample) :
    (s.key ∈ o.latest ∧ (o.pushLatest s).order = o.order ∧
      (o.pushLatest s).stats =
        { o.stats with latestSuperseded := o.stats.latestSuperseded + 1 }) ∨
    (s.key ∉ o.latest ∧ (o.pushLatest s).order = o.order ++ [s.key] ∧
      (o.pushLatest s).stats = o.stats) := by
  rw [pushLatest]
  by_cases hmem : s.key ∈ o.latest
  · rw [if_pos hmem]
    exact Or.inl ⟨hmem, rfl, rfl⟩
  · rw [if_neg hmem]
    exact Or.inr ⟨hmem, rfl, rfl⟩

theorem latest_pushLatest (o : TopicOutbox) (s : TopicSample) :
    (o.pushLatest s).latest = o.latest.insert s.key (tag datagramTagTopic s.encode) := by
  rw [pushLatest]
  split_ifs <;> rfl

end TopicOutbox

namespace TopicRun

/-! ## The samples pushed -/

/-- The latest sample of a key that a call pushes. -/
def Event.latestOf (key : String) : Event → Option TopicSample
  | .push .latest s => if s.key = key then some s else none
  | _ => none

/-- The newest latest sample of a key. -/
def newestOf (key : String) (es : List Event) : Option TopicSample :=
  Past.latest (Event.latestOf key) es

/-- Whether a call pushes a latest sample. -/
def Event.pushesLatest : Event → Bool
  | .push .latest _ => true
  | _ => false

/-- The line after some calls. -/
def lineAfter (reliableBacklog : Nat) (es : List Event) : List String :=
  (after reliableBacklog es).outbox.order

/-- Every datagram is its key's newest sample. -/
def KeepsNewest (reliableBacklog : Nat) (es : List Event) : Prop :=
  ∀ key d, (after reliableBacklog es).outbox.latest.lookup key = some d →
    ∃ s, newestOf key es = some s ∧ d = tag datagramTagTopic s.encode

/-- What holds of the latest samples after some calls. -/
structure ServesLatest (reliableBacklog : Nat) (es : List Event) : Prop where
  lineUp : (after reliableBacklog es).outbox.LineUp
  newest : KeepsNewest reliableBacklog es
  inOrder : WaitingLine.InOrder (lineAfter reliableBacklog) es
  pops : ∀ maxLen, ∃ skipped,
    (after reliableBacklog es).outbox.PopsInTurn (after reliableBacklog es).outbox.order maxLen
      ((after reliableBacklog es).outbox.popDatagram maxLen) skipped
  counts : es.countP Event.pushesLatest =
    (after reliableBacklog es).outbox.stats.latestSent +
      (after reliableBacklog es).outbox.stats.latestSuperseded +
      (after reliableBacklog es).outbox.stats.latestOversize +
      (after reliableBacklog es).outbox.order.length

variable {reliableBacklog : Nat} {es : List Event} {e : Event} {key : String}

theorem newestOf_concat (key : String) (es : List Event) (e : Event) :
    newestOf key (es ++ [e]) = (e.latestOf key).or (newestOf key es) := by
  rw [newestOf, Past.latest_append, Past.latest_singleton, newestOf]

/-! ## One call -/

theorem moves_step (r : TopicRun) (h : r.outbox.LineUp) (e : Event) :
    WaitingLine.Moves r.outbox.order (r.step e).outbox.order := by
  cases e with
  | push mode s =>
      cases mode with
      | latest =>
          rcases r.outbox.pushLatest_cases s with ⟨-, horder, -⟩ | ⟨hnew, horder, -⟩
          · rw [TopicRun.step, horder]
            exact .refl _
          · rw [TopicRun.step, horder]
            exact .joins s.key (mt (h.mem s.key).mp hnew)
      | reliable =>
          rw [TopicRun.step, TopicRun.pushReliable, (r.outbox.sameLatest_pushReliable s).order]
          exact .refl _
  | popDatagram maxLen =>
      obtain ⟨skipped, hpop⟩ := r.outbox.popsInTurn_popFrom maxLen r.outbox.order h
      exact hpop.moves
  | consumeReliable lane n => exact .refl _

/-- A call that pushes no latest sample puts no datagram in line. -/
theorem KeepsNewest.of_keeps (h : KeepsNewest reliableBacklog es)
    (hkeeps : ∀ key d, (after reliableBacklog (es ++ [e])).outbox.latest.lookup key = some d →
      (after reliableBacklog es).outbox.latest.lookup key = some d)
    (he : ∀ key, e.latestOf key = none) : KeepsNewest reliableBacklog (es ++ [e]) := by
  intro key d hd
  rw [newestOf_concat, he, Option.none_or]
  exact h key d (hkeeps key d hd)

theorem KeepsNewest.concat (h : KeepsNewest reliableBacklog es)
    (hline : (after reliableBacklog es).outbox.LineUp) (e : Event) :
    KeepsNewest reliableBacklog (es ++ [e]) := by
  cases e with
  | push mode s =>
      cases mode with
      | latest =>
          intro key d hd
          rw [after, exec_concat, ← after, TopicRun.step, TopicOutbox.latest_pushLatest] at hd
          rw [newestOf_concat, Event.latestOf]
          by_cases hkey : s.key = key
          · subst hkey
            rw [AList.lookup_insert] at hd
            rw [if_pos rfl]
            exact ⟨s, rfl, (Option.some.inj hd).symm⟩
          · rw [AList.lookup_insert_ne (Ne.symm hkey)] at hd
            rw [if_neg hkey]
            exact h key d hd
      | reliable =>
          refine h.of_keeps (fun key d hd => ?_) fun _ => rfl
          rwa [after, exec_concat, ← after, TopicRun.step, TopicRun.pushReliable,
            (TopicOutbox.sameLatest_pushReliable _ s).latest] at hd
  | popDatagram maxLen =>
      obtain ⟨skipped, hpop⟩ := TopicOutbox.popsInTurn_popFrom maxLen _ _ hline
      refine h.of_keeps (fun key d hd => ?_) fun _ => rfl
      rw [after, exec_concat, ← after] at hd
      exact hpop.keeps key d hd
  | consumeReliable lane n =>
      refine h.of_keeps (fun key d hd => ?_) fun _ => rfl
      rwa [after, exec_concat, ← after] at hd

/-- The latest samples that an outbox knows about. -/
def countedLatest (o : TopicOutbox) : Nat :=
  o.stats.latestSent + o.stats.latestSuperseded + o.stats.latestOversize + o.order.length

theorem countedLatest_step (r : TopicRun) (h : r.outbox.LineUp) (e : Event) :
    countedLatest (r.step e).outbox =
      countedLatest r.outbox + if e.pushesLatest then 1 else 0 := by
  cases e with
  | push mode s =>
      cases mode with
      | latest =>
          rw [TopicRun.step, countedLatest, countedLatest,
            if_pos (show (Event.push .latest s).pushesLatest = true from rfl)]
          rcases r.outbox.pushLatest_cases s with ⟨-, horder, hstats⟩ | ⟨-, horder, hstats⟩
          · rw [horder, hstats]
            dsimp only
            omega
          · rw [horder, hstats, List.length_append, List.length_singleton]
            omega
      | reliable =>
          have hsame := r.outbox.sameLatest_pushReliable s
          rw [TopicRun.step, TopicRun.pushReliable, countedLatest, hsame.sent, hsame.superseded,
            hsame.oversize, hsame.order]
          rfl
  | popDatagram maxLen =>
      obtain ⟨skipped, hpop⟩ := r.outbox.popsInTurn_popFrom maxLen r.outbox.order h
      rw [TopicRun.step, TopicOutbox.popDatagram, countedLatest, countedLatest, hpop.sent,
        hpop.superseded, hpop.oversize, hpop.length,
        if_neg (show ¬ (Event.popDatagram maxLen).pushesLatest = true from Bool.false_ne_true)]
      dsimp only
      omega
  | consumeReliable lane n => rfl

/-! ## Every run -/

theorem keepsNewest_after (reliableBacklog : Nat) (es : List Event) :
    KeepsNewest reliableBacklog es := by
  induction es using List.reverseRecOn with
  | nil =>
      intro key d hd
      cases hd
  | append_singleton es e ih => exact ih.concat (lineUp_after reliableBacklog es) e

theorem countedLatest_after (reliableBacklog : Nat) (es : List Event) :
    countedLatest (after reliableBacklog es).outbox = es.countP Event.pushesLatest := by
  induction es using List.reverseRecOn with
  | nil => rfl
  | append_singleton es e ih =>
      rw [after, exec_concat, ← after, countedLatest_step _ (lineUp_after reliableBacklog es), ih,
        List.countP_append, List.countP_singleton]

/-- In every run the line of latest samples and their datagrams stay in step, keys are
served in the order in which they started to wait, each with its newest sample, and
every sample is counted once. -/
theorem servesLatest (reliableBacklog : Nat) (es : List Event) :
    ServesLatest reliableBacklog es where
  lineUp := lineUp_after reliableBacklog es
  newest := keepsNewest_after reliableBacklog es
  inOrder := by
    refine WaitingLine.inOrder_of_moves rfl (fun past e => ?_) es
    rw [lineAfter, lineAfter, after, after, exec_concat]
    exact moves_step _ (lineUp_after reliableBacklog past) e
  pops maxLen := TopicOutbox.popsInTurn_popFrom maxLen _ _ (lineUp_after reliableBacklog es)
  counts := (countedLatest_after reliableBacklog es).symm

end TopicRun

end RoboTele
