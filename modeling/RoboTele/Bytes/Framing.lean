import Mathlib.Algebra.BigOperators.Group.List.Basic
import Mathlib.Algebra.Order.Ring.Nat
import Mathlib.Data.List.Basic
import Mathlib.Data.List.Flatten
import Mathlib.Data.List.Forall2

/-!
# Messages on a byte stream

A byte stream keeps the order of its bytes and no message boundaries.  A reader
that knows the sizes of the messages handles each one at the read that completes
it (`assemble`).

A reader that takes every read for a message agrees with it when each read
carries one message (`assemble_aligned`).  The rest says when a list of reads
must be aligned.

* `eq_replicate_of_starts`: if a read of at least `c` bytes starts at every
  multiple of `c`, every read has `c` bytes.
* `eq_of_find?`: if the first of any two byte strings to be read is the first of
  the two to be written, the reads are the messages.
-/

namespace Framing

variable {σ ρ μ : Type*}

/-! ## The reader that knows the sizes -/

section

variable (size : μ → Nat)

/-- The messages that `avail` bytes complete, the messages after them, and the
bytes left over. -/
def complete : List μ → Nat → List μ × List μ × Nat
  | [], avail => ([], [], avail)
  | m :: ms, avail =>
      if size m ≤ avail then
        let rest := complete ms (avail - size m)
        (m :: rest.1, rest.2)
      else ([], m :: ms, avail)

theorem complete_cons_of_le {m : μ} {ms : List μ} {avail : Nat} (h : size m ≤ avail) :
    complete size (m :: ms) avail =
      (m :: (complete size ms (avail - size m)).1, (complete size ms (avail - size m)).2) :=
  if_pos h

theorem complete_cons_of_lt {m : μ} {ms : List μ} {avail : Nat} (h : avail < size m) :
    complete size (m :: ms) avail = ([], m :: ms, avail) :=
  if_neg (Nat.not_le.mpr h)

/-- All the bytes complete all the messages. -/
theorem complete_sum : ∀ ms : List μ, (complete size ms (ms.map size).sum).1 = ms
  | [] => rfl
  | m :: ms => by
      rw [List.map_cons, List.sum_cons, complete_cons_of_le size (Nat.le_add_right _ _),
        Nat.add_sub_cancel_left, complete_sum ms]

/-- Two parts of the bytes complete what they complete one after the other, and
leave what the second one leaves. -/
theorem complete_add_eq : ∀ (ms : List μ) (a b : Nat),
    complete size ms (a + b) =
      ((complete size ms a).1 ++
          (complete size (complete size ms a).2.1 ((complete size ms a).2.2 + b)).1,
        (complete size (complete size ms a).2.1 ((complete size ms a).2.2 + b)).2)
  | [], a, b => rfl
  | m :: ms, a, b => by
      by_cases h : size m ≤ a
      · rw [complete_cons_of_le size h, complete_cons_of_le size (h.trans (Nat.le_add_right a b)),
          show a + b - size m = a - size m + b by omega, complete_add_eq ms (a - size m) b,
          List.cons_append]
      · rw [complete_cons_of_lt size (Nat.not_le.mp h), List.nil_append]

/-- Two parts of the bytes complete what they complete one after the other. -/
theorem complete_add (ms : List μ) (a b : Nat) :
    (complete size ms (a + b)).1 = (complete size ms a).1 ++
      (complete size (complete size ms a).2.1 ((complete size ms a).2.2 + b)).1 :=
  congrArg Prod.fst (complete_add_eq size ms a b)

/-- The messages are the complete ones and the ones after them. -/
theorem complete_append : ∀ (ms : List μ) (avail : Nat),
    (complete size ms avail).1 ++ (complete size ms avail).2.1 = ms
  | [], _ => rfl
  | m :: ms, avail => by
      by_cases h : size m ≤ avail
      · rw [complete_cons_of_le size h, List.cons_append, complete_append ms]
      · rw [complete_cons_of_lt size (Nat.not_le.mp h), List.nil_append]

/-- The bytes are those of the complete messages and the ones left over. -/
theorem complete_bytes : ∀ (ms : List μ) (avail : Nat),
    ((complete size ms avail).1.map size).sum + (complete size ms avail).2.2 = avail
  | [], _ => Nat.zero_add _
  | m :: ms, avail => by
      by_cases h : size m ≤ avail
      · rw [complete_cons_of_le size h, List.map_cons, List.sum_cons, Nat.add_assoc,
          complete_bytes ms (avail - size m), Nat.add_sub_cancel' h]
      · rw [complete_cons_of_lt size (Nat.not_le.mp h)]
        exact Nat.zero_add _

/-- One more message, of whose bytes none is there. -/
theorem complete_concat {m : μ} (hm : 0 < size m) : ∀ (ms : List μ) {avail : Nat},
    avail ≤ (ms.map size).sum →
      complete size (ms ++ [m]) avail =
        ((complete size ms avail).1, (complete size ms avail).2.1 ++ [m],
          (complete size ms avail).2.2)
  | [], avail, h => by
      rw [List.map_nil, List.sum_nil] at h
      rw [List.nil_append, complete_cons_of_lt size (by omega)]
      rfl
  | m' :: ms, avail, h => by
      rw [List.map_cons, List.sum_cons] at h
      rw [List.cons_append]
      by_cases hle : size m' ≤ avail
      · rw [complete_cons_of_le size hle, complete_cons_of_le size hle,
          complete_concat hm ms (by omega)]
      · rw [complete_cons_of_lt size (Nat.not_le.mp hle),
          complete_cons_of_lt size (Nat.not_le.mp hle)]
        rfl

/-- The messages with the ends of their bytes, the first one starting at `off`. -/
def stops : Nat → List μ → List (μ × Nat)
  | _, [] => []
  | off, m :: ms => (m, off + size m) :: stops (off + size m) ms

theorem stops_concat (m : μ) : ∀ (off : Nat) (ms : List μ),
    stops size off (ms ++ [m]) =
      stops size off ms ++ [(m, off + (ms.map size).sum + size m)]
  | _, [] => rfl
  | off, m' :: ms => by
      rw [List.cons_append, stops, stops_concat m (off + size m') ms, stops, List.cons_append,
        List.map_cons, List.sum_cons, Nat.add_assoc off]

/-- The complete messages are the first ones. -/
theorem complete_isPrefix : ∀ (ms : List μ) (avail : Nat), (complete size ms avail).1 <+: ms
  | [], _ => List.nil_prefix
  | m :: ms, avail => by
      by_cases h : size m ≤ avail
      · rw [complete_cons_of_le size h]
        exact (List.prefix_cons_inj m).mpr (complete_isPrefix ms (avail - size m))
      · rw [complete_cons_of_lt size (Nat.not_le.mp h)]
        exact List.nil_prefix

/-- More bytes complete more messages. -/
theorem complete_mono (ms : List μ) {a b : Nat} (h : a ≤ b) :
    (complete size ms a).1 <+: (complete size ms b).1 := by
  obtain ⟨c, rfl⟩ := Nat.exists_eq_add_of_le h
  rw [complete_add]
  exact List.prefix_append _ _

theorem complete_of_sum_le {ms : List μ} {avail : Nat} (h : (ms.map size).sum ≤ avail) :
    (complete size ms avail).1 = ms := by
  have hmono := complete_mono size ms h
  rw [complete_sum] at hmono
  exact (complete_isPrefix size ms avail).eq_of_length_le hmono.length_le

/-- No bytes complete nothing. -/
theorem complete_zero {ms : List μ} (hpos : ∀ m ∈ ms, 0 < size m) :
    complete size ms 0 = ([], ms, 0) := by
  cases ms with
  | nil => rfl
  | cons m ms => rw [complete_cons_of_lt size (hpos m List.mem_cons_self)]

/-- Exactly the bytes of the first message complete that one. -/
theorem complete_self {m : μ} {ms : List μ} (hpos : ∀ m ∈ ms, 0 < size m) :
    complete size (m :: ms) (size m) = ([m], ms, 0) := by
  rw [complete_cons_of_le size le_rfl, Nat.sub_self, complete_zero size hpos]

/-- Messages of one size are complete in turn. -/
theorem complete_const {c : Nat} (hc : 0 < c) : ∀ (ms : List μ) (avail : Nat),
    (complete (fun _ => c) ms avail).1 = ms.take (avail / c)
  | [], _ => by simp [complete]
  | m :: ms, avail => by
      by_cases h : c ≤ avail
      · rw [complete_cons_of_le _ h, complete_const hc ms (avail - c), Nat.div_eq_sub_div hc h,
          List.take_succ_cons]
      · rw [complete_cons_of_lt _ (Nat.not_le.mp h), Nat.div_eq_of_lt (Nat.not_le.mp h),
          List.take_zero]

variable (arrive : σ → ρ → σ) (handle : σ → ρ → μ → σ) (len : ρ → Nat)

/-- Handle each message at the read that completes it. -/
def assemble : σ → List μ → Nat → List ρ → σ
  | s, _, _, [] => s
  | s, ms, avail, r :: rs =>
      let c := complete size ms (avail + len r)
      assemble (c.1.foldl (fun s m => handle s r m) (arrive s r)) c.2.1 c.2.2 rs

variable {size arrive handle len}

/-- Reads that carry one message each are handled like the messages. -/
theorem assemble_aligned {read : σ → ρ → σ} {Carries : ρ → μ → Prop}
    (hread : ∀ s r m, Carries r m → len r = size m ∧ read s r = handle (arrive s r) r m) :
    ∀ {rs : List ρ} {ms : List μ} (s : σ), (∀ m ∈ ms, 0 < size m) →
      List.Forall₂ Carries rs (ms.take rs.length) →
        rs.foldl read s = assemble size arrive handle len s ms 0 rs
  | [], _, _, _, _ => rfl
  | r :: rs, [], _, _, h => by cases h
  | r :: rs, m :: ms, s, hpos, h => by
      rw [List.length_cons, List.take_succ_cons, List.forall₂_cons] at h
      obtain ⟨hlen, hstep⟩ := hread s r m h.1
      have hrest : ∀ m ∈ ms, 0 < size m := fun m hm => hpos m (List.mem_cons_of_mem _ hm)
      rw [List.foldl_cons, assemble, Nat.zero_add, hlen, complete_self size hrest, hstep,
        assemble_aligned hread _ hrest h.2]
      rfl

/-- What was completed leaves nothing to complete. -/
theorem complete_left : ∀ (ms : List μ) (a : Nat),
    (complete size (complete size ms a).2.1 (complete size ms a).2.2).1 = []
  | [], _ => rfl
  | m :: ms, a => by
      by_cases h : size m ≤ a
      · rw [complete_cons_of_le size h]
        exact complete_left ms (a - size m)
      · rw [complete_cons_of_lt size (Nat.not_le.mp h), complete_cons_of_lt size (Nat.not_le.mp h)]

/-- Where nothing but the bytes of the reads matters, the messages they complete
are handled in order. -/
theorem assemble_const {h : σ → μ → σ} :
    ∀ (rs : List ρ) (s : σ) (ms : List μ) (avail : Nat), (∀ r ∈ rs, ∀ s, arrive s r = s) →
      (∀ r ∈ rs, ∀ s m, handle s r m = h s m) → (complete size ms avail).1 = [] →
        assemble size arrive handle len s ms avail rs =
          (complete size ms (avail + (rs.map len).sum)).1.foldl h s
  | [], s, ms, avail, _, _, hstuck => by
      rw [List.map_nil, List.sum_nil, Nat.add_zero, hstuck]
      rfl
  | r :: rs, s, ms, avail, harrive, hhandle, _ => by
      have harrive' : ∀ r ∈ rs, ∀ s, arrive s r = s := fun r hr =>
        harrive r (List.mem_cons_of_mem _ hr)
      have hhandle' : ∀ r ∈ rs, ∀ s m, handle s r m = h s m := fun r hr =>
        hhandle r (List.mem_cons_of_mem _ hr)
      have hself : ∀ s m, handle s r m = h s m := hhandle r List.mem_cons_self
      rw [assemble, assemble_const rs _ _ _ harrive' hhandle' (complete_left ms _),
        harrive r List.mem_cons_self, List.map_cons, List.sum_cons, ← Nat.add_assoc,
        complete_add size ms (avail + len r), List.foldl_append]
      simp only [hself]

end

/-! ## Reads of one size -/

/-- Where a byte of messages of one size stands. -/
theorem getElem?_flatten {α : Type*} {c : Nat} : ∀ {ms : List (List α)},
    (∀ m ∈ ms, m.length = c) → ∀ (i : Nat) {k : Nat}, k < c →
      ms.flatten[c * i + k]? = ms[i]?.bind fun m => m[k]?
  | [], _, i, k, _ => by simp
  | m :: ms, hlen, 0, k, hk => by
      have hm := hlen m List.mem_cons_self
      rw [List.flatten_cons, Nat.mul_zero, Nat.zero_add, List.getElem?_append_left (by omega)]
      rfl
  | m :: ms, hlen, i + 1, k, hk => by
      have hm := hlen m List.mem_cons_self
      rw [List.flatten_cons, Nat.mul_succ, List.getElem?_append_right (by omega), hm,
        show c * i + c + k - c = c * i + k by omega,
        getElem?_flatten (fun m hm => hlen m (List.mem_cons_of_mem _ hm)) i hk]
      rfl

/-- A read of at least `c` bytes starts at every multiple of `c`. -/
def StartsEverywhere (c n : Nat) (lens : List Nat) : Prop :=
  ∀ j < n, ∃ pre l post, lens = pre ++ l :: post ∧ pre.sum = c * j ∧ c ≤ l

/-- Nothing precedes a read that starts at zero. -/
theorem eq_nil_of_sum_eq_zero {pre lens : List Nat} (hpos : ∀ l ∈ lens, 0 < l)
    (hpre : ∀ l ∈ pre, l ∈ lens) (h : pre.sum = 0) : pre = [] := by
  cases pre with
  | nil => rfl
  | cons l pre =>
      have hl := hpos l (hpre l List.mem_cons_self)
      rw [List.sum_cons] at h
      omega

theorem eq_replicate_of_starts {c : Nat} (hc : 0 < c) :
    ∀ {n : Nat} {lens : List Nat}, (∀ l ∈ lens, 0 < l) → lens.sum = c * n →
      StartsEverywhere c n lens → lens = List.replicate n c
  | 0, lens, hpos, hsum, _ =>
      eq_nil_of_sum_eq_zero hpos (fun _ => id) (hsum.trans (Nat.mul_zero c))
  | n + 1, lens, hpos, hsum, hstarts => by
      obtain ⟨pre, l, post, rfl, hpre, hl⟩ := hstarts 0 n.succ_pos
      obtain rfl := eq_nil_of_sum_eq_zero hpos (fun _ => List.mem_append_left _) hpre
      rw [List.nil_append] at hpos hsum hstarts ⊢
      have hpost : ∀ l ∈ post, 0 < l := fun l hmem => hpos l (List.mem_cons_of_mem _ hmem)
      -- The next start, or the end of the stream, is at `c`.
      have hle : l = c := by
        rw [List.sum_cons] at hsum
        cases n with
        | zero => omega
        | succ n =>
            obtain ⟨pre, l', post', heq, hsum', -⟩ := hstarts 1 (by omega)
            cases pre with
            | nil =>
                rw [List.sum_nil, Nat.mul_one] at hsum'
                omega
            | cons l'' pre =>
                obtain rfl := (List.cons.inj heq).1
                rw [List.sum_cons] at hsum'
                omega
      subst hle
      have htail : StartsEverywhere l n post := by
        intro j hj
        obtain ⟨pre, l', post', heq, hsum', hl'⟩ := hstarts (j + 1) (Nat.succ_lt_succ hj)
        cases pre with
        | nil =>
            rw [List.sum_nil, Nat.mul_succ] at hsum'
            omega
        | cons l'' pre =>
            obtain ⟨rfl, hpost'⟩ := List.cons.inj heq
            refine ⟨pre, l', post', hpost', ?_, hl'⟩
            rw [List.sum_cons, Nat.mul_succ] at hsum'
            omega
      have hsumpost : post.sum = l * n := by
        rw [List.sum_cons, Nat.mul_succ] at hsum
        omega
      rw [eq_replicate_of_starts hc hpost hsumpost htail, List.replicate_succ]

/-! ## Reads of any size -/

section

variable {α β : Type*}

/-- A handler that answers the first message of a kind and no other. -/
theorem foldl_find? {h : σ → α → σ} {observe : σ → List β} {p : α → Bool} {f : α → β}
    {W D : σ → Prop} (hskip : ∀ s a, W s → p a = false → h s a = s)
    (hfirst : ∀ s a, W s → p a = true →
      D (h s a) ∧ observe (h s a) = observe s ++ [f a])
    (hdone : ∀ s a, D s → h s a = s) : ∀ (as : List α) (s : σ), W s →
      observe (as.foldl h s) = observe s ++ ((as.find? p).map f).toList
  | [], s, _ => (List.append_nil _).symm
  | a :: as, s, hs => by
      cases hp : p a with
      | false =>
          rw [List.foldl_cons, hskip s a hs hp, List.find?_cons_of_neg (by simp [hp])]
          exact foldl_find? hskip hfirst hdone as s hs
      | true =>
          obtain ⟨hclosed, hout⟩ := hfirst s a hs hp
          have hrest : as.foldl h (h s a) = h s a :=
            List.foldl_fixed' (fun a' => hdone _ a' hclosed) as
          rw [List.foldl_cons, hrest, hout, List.find?_cons_of_pos hp]
          rfl

/-- Such a handler tells apart lists that start the kind differently. -/
theorem find?_eq_of_foldl {h : σ → α → σ} {observe : σ → List β} {p : α → Bool} {f : α → β}
    {W D : σ → Prop} (hskip : ∀ s a, W s → p a = false → h s a = s)
    (hfirst : ∀ s a, W s → p a = true →
      D (h s a) ∧ observe (h s a) = observe s ++ [f a])
    (hdone : ∀ s a, D s → h s a = s)
    (hout : ∀ a b, p a = true → p b = true → f a = f b → a = b) {as bs : List α} {s : σ}
    (hs : W s) (h' : observe (as.foldl h s) = observe (bs.foldl h s)) :
    as.find? p = bs.find? p := by
  rw [foldl_find? hskip hfirst hdone as s hs, foldl_find? hskip hfirst hdone bs s hs,
    List.append_cancel_left_eq] at h'
  cases ha : as.find? p with
  | none =>
      cases hb : bs.find? p with
      | none => rfl
      | some b => simp [ha, hb] at h'
  | some a =>
      cases hb : bs.find? p with
      | none => simp [ha, hb] at h'
      | some b =>
          rw [ha, hb] at h'
          rw [hout a b (List.find?_some ha) (List.find?_some hb) (List.cons.inj h').1]

/-- The messages appear among the reads in order if the first of any two strings
is the same in both lists. -/
theorem sublist_of_find? [DecidableEq α] : ∀ {rs ms : List α} (seen : List α), ms.Nodup →
    (∀ m ∈ ms, m ∉ seen) →
    (∀ a c, a ∉ seen → c ∉ seen →
      rs.find? (fun x => x = a ∨ x = c) = ms.find? (fun x => x = a ∨ x = c)) → ms.Sublist rs
  | [], [], _, _, _, _ => .slnil
  | [], m :: ms, seen, _, hseen, hfirst => by
      have hm := hseen m List.mem_cons_self
      have hnone := hfirst m m hm hm
      simp at hnone
  | r :: rs, ms, seen, hnodup, hseen, hfirst => by
      by_cases hr : r ∈ seen
      · refine List.Sublist.cons r (sublist_of_find? seen hnodup hseen ?_)
        intro a c ha hc
        have hne : ¬ (r = a ∨ r = c) := by
          rintro (rfl | rfl)
          · exact ha hr
          · exact hc hr
        rw [← hfirst a c ha hc, List.find?_cons_of_neg (by simpa using hne)]
      · -- A read that is new must be the next message.
        have hself := hfirst r r hr hr
        rw [List.find?_cons_of_pos (by simp)] at hself
        cases ms with
        | nil => simp at hself
        | cons m ms =>
            have hm := hseen m List.mem_cons_self
            have hboth := hfirst m r hm hr
            rw [List.find?_cons_of_pos (by simp), List.find?_cons_of_pos (by simp)] at hboth
            obtain rfl := Option.some.inj hboth
            obtain ⟨hnew, hnodup'⟩ := List.nodup_cons.mp hnodup
            refine List.Sublist.cons_cons r (sublist_of_find? (r :: seen) hnodup' ?_ ?_)
            · intro m' hm' hmem
              rcases List.mem_cons.mp hmem with rfl | hmem
              · exact hnew hm'
              · exact hseen m' (List.mem_cons_of_mem _ hm') hmem
            · intro a c ha hc
              have hne : ¬ (r = a ∨ r = c) := by
                rintro (rfl | rfl)
                · exact ha List.mem_cons_self
                · exact hc List.mem_cons_self
              have htail := hfirst a c (fun h => ha (List.mem_cons_of_mem _ h))
                (fun h => hc (List.mem_cons_of_mem _ h))
              rwa [List.find?_cons_of_neg (by simpa using hne),
                List.find?_cons_of_neg (by simpa using hne)] at htail

/-- A list of nonempty strings is no longer than a part of it only if it is that
part. -/
theorem eq_of_sublist_of_length {rs ms : List (List α)} (h : ms.Sublist rs) (hne : ∀ r ∈ rs, r ≠ [])
    (hlen : rs.flatten.length = ms.flatten.length) : rs = ms := by
  induction h with
  | slnil => rfl
  | @cons ms rs r h ih =>
      have hle : ms.flatten.length ≤ rs.flatten.length := h.flatten.length_le
      have hpos := List.length_pos_of_ne_nil (hne r List.mem_cons_self)
      rw [List.flatten_cons, List.length_append] at hlen
      omega
  | @cons_cons ms rs r h ih =>
      rw [List.flatten_cons, List.flatten_cons, List.length_append, List.length_append] at hlen
      rw [ih (fun r hr => hne r (List.mem_cons_of_mem _ hr)) (by omega)]

theorem eq_of_find? [DecidableEq α] {rs ms : List (List α)} (hnodup : ms.Nodup)
    (hne : ∀ r ∈ rs, r ≠ []) (hflatten : rs.flatten = ms.flatten)
    (hfirst : ∀ a c, rs.find? (fun x => x = a ∨ x = c) = ms.find? (fun x => x = a ∨ x = c)) :
    rs = ms := by
  have hsub : ms.Sublist rs :=
    sublist_of_find? [] hnodup (fun _ _ => List.not_mem_nil) fun a c _ _ => hfirst a c
  exact eq_of_sublist_of_length hsub hne (congrArg List.length hflatten)

end

end Framing
