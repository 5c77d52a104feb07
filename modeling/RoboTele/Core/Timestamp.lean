import RoboTele.Tables.Filling
import RoboTele.Tables.Median
import Mathlib.Algebra.Order.Ring.Int
import Mathlib.Algebra.Order.Ring.Nat

/-!
# Clock offsets

Two endpoints without a common clock compare theirs by pairs of times, when a message
arrived here and when it was sent there.  The offset is the median of the differences, so
that few messages with a large delay do not move it (`estimate_robust`).

Timestamps are microseconds in 64 bits without a sign, and differences are taken with one.
A difference that has no place in 64 bits is `none`, as is an index out of bounds.
-/

namespace RoboTele

open Median

/-- Microseconds on a host's wall clock. -/
abbrev Timestamp64 := UInt64

/-- `t as i64`. -/
def asI64 (t : UInt64) : Int := if t.toNat < 2 ^ 63 then t.toNat else (t.toNat : Int) - 2 ^ 64

/-- `a - b` of `i64`, unless it overflows. -/
def subI64 (a b : Int) : Option Int :=
  if -2 ^ 63 ≤ a - b ∧ a - b < 2 ^ 63 then some (a - b) else none

/-- The upper median of the differences of the two clocks.  `none` is an overflow. -/
def estimateClockOffsetUs (samples : List (Timestamp64 × Timestamp64)) : Option Int :=
  if samples.isEmpty then some 0
  else do
    let deltas ← samples.mapM fun s => subI64 (asI64 s.1) (asI64 s.2)
    let deltas := deltas.mergeSort
    deltas[deltas.length / 2]?

/-- Both times of a sample are below `2 ^ 63`. -/
def InRange (s : Timestamp64 × Timestamp64) : Prop := s.1.toNat < 2 ^ 63 ∧ s.2.toNat < 2 ^ 63

instance (s : Timestamp64 × Timestamp64) : Decidable (InRange s) :=
  inferInstanceAs (Decidable (_ ∧ _))

/-- `local - remote`. -/
def delta (s : Timestamp64 × Timestamp64) : Int := (s.1.toNat : Int) - s.2.toNat

/-- What the offset is good for: the order of the samples does not matter, it follows the
local clock, and a majority of the differences keeps it among them. -/
structure OffsetRobust (samples : List (Timestamp64 × Timestamp64)) (offset : Int) : Prop where
  perm : ∀ samples', samples'.Perm samples → estimateClockOffsetUs samples' = some offset
  shift : ∀ (d : Int) (samples' : List (Timestamp64 × Timestamp64)),
    List.Forall₂ (fun s s' => (s'.1.toNat : Int) = s.1.toNat + d ∧ s'.2 = s.2) samples samples' →
    (∀ s' ∈ samples', s'.1.toNat < 2 ^ 63) → estimateClockOffsetUs samples' = some (offset + d)
  majority : ∀ a b, samples.length < 2 * samples.countP (fun s => a ≤ delta s ∧ delta s ≤ b) →
    a ≤ offset ∧ offset ≤ b

variable {samples : List (Timestamp64 × Timestamp64)}

theorem subI64_of_inRange {s : Timestamp64 × Timestamp64} (h : InRange s) :
    subI64 (asI64 s.1) (asI64 s.2) = some (delta s) := by
  have hlocal : asI64 s.1 = s.1.toNat := if_pos h.1
  have hremote : asI64 s.2 = s.2.toNat := if_pos h.2
  obtain ⟨hlt, hlt'⟩ := h
  rw [hlocal, hremote, subI64, if_pos (by omega), delta]

/-- Nothing overflows, and the offset is the median of the differences. -/
theorem estimate_eq (hne : samples ≠ []) (hrange : ∀ s ∈ samples, InRange s) :
    estimateClockOffsetUs samples = median? (samples.map delta) := by
  rw [estimateClockOffsetUs, if_neg (by simpa using hne),
    Filling.mapM_eq_map fun s hs => subI64_of_inRange (hrange s hs)]
  rfl

/-- The differences of a local clock that is `d` ahead. -/
theorem map_delta_shift {samples' : List (Timestamp64 × Timestamp64)} {d : Int}
    (h : List.Forall₂ (fun s s' : Timestamp64 × Timestamp64 =>
      (s'.1.toNat : Int) = s.1.toNat + d ∧ s'.2 = s.2) samples samples') :
    samples'.map delta = (samples.map delta).map (· + d) := by
  induction h with
  | nil => rfl
  | cons hs _ ih =>
      rw [List.map_cons, List.map_cons, List.map_cons, ih, delta, delta, hs.1, hs.2]
      congr 1
      omega

theorem inRange_shift {samples' : List (Timestamp64 × Timestamp64)} {d : Int}
    (h : List.Forall₂ (fun s s' : Timestamp64 × Timestamp64 =>
      (s'.1.toNat : Int) = s.1.toNat + d ∧ s'.2 = s.2) samples samples')
    (hrange : ∀ s ∈ samples, InRange s) (hlocal : ∀ s' ∈ samples', s'.1.toNat < 2 ^ 63) :
    ∀ s' ∈ samples', InRange s' := by
  induction h with
  | nil => exact hrange
  | cons hs _ ih =>
      rw [List.forall_mem_cons] at hrange hlocal ⊢
      exact ⟨⟨hlocal.1, hs.2 ▸ hrange.1.2⟩, ih hrange.2 hlocal.2⟩

/-- The offset of some samples in range is there and is good. -/
theorem estimate_robust (hne : samples ≠ []) (hrange : ∀ s ∈ samples, InRange s) :
    ∃ offset, estimateClockOffsetUs samples = some offset ∧ OffsetRobust samples offset := by
  obtain ⟨offset, hmedian⟩ := exists_median (mt List.map_eq_nil_iff.mp hne : samples.map delta ≠ [])
  refine ⟨offset, (estimate_eq hne hrange).trans hmedian, ?_, ?_, ?_⟩
  · intro samples' hperm
    have hne' : samples' ≠ [] := by
      rintro rfl
      exact hne hperm.nil_eq.symm
    rw [estimate_eq hne' fun s hs => hrange s (hperm.subset hs), ← hmedian]
    exact median?_perm (hperm.map delta)
  · intro d samples' hshift hlocal
    have hne' : samples' ≠ [] := by
      rintro rfl
      cases hshift
      exact hne rfl
    rw [estimate_eq hne' (inRange_shift hshift hrange hlocal), map_delta_shift hshift,
      median?_map fun _ _ hle => Int.add_le_add_right hle d, hmedian]
    rfl
  · intro a b hmajority
    refine mem_Icc_of_majority hmedian ?_
    rw [List.length_map, List.countP_map]
    exact hmajority

/-- Two messages arrive within the usual delay and one a second late. -/
def lateSample : List (Timestamp64 × Timestamp64) :=
  [(1000500, 1000000), (2000000, 1001000), (1002600, 1002000)]

/-- The late message does not move the estimate. -/
theorem estimate_robust_lateSample :
    ∃ offset, estimateClockOffsetUs lateSample = some offset ∧ OffsetRobust lateSample offset :=
  estimate_robust (List.cons_ne_nil _ _) (List.forall_mem_cons.mpr ⟨by decide,
    List.forall_mem_cons.mpr ⟨by decide, List.forall_mem_singleton.mpr (by decide)⟩⟩)

end RoboTele
