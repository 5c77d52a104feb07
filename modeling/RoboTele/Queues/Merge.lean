import RoboTele.Runs.Past
import Mathlib.Data.List.Basic
import Mathlib.Data.List.Perm.Basic

/-!
# Items that travel on several lanes

A sender puts each item on a lane.  Every lane keeps its order, and nothing is
promised across lanes, so what arrives is any merge of what the lanes deliver.

Items have keys, and the items of one key should arrive in the order of their
sending.  `keyed_isPrefix` says that they do if each key keeps to one lane as far
as its items have arrived (`KeepsToLane`).

The other direction is about items by value.  It needs that a sender who changes
the lane of a key does so by the item alone (`SwitchesByItem`).  Then the first
item after such a change differs from the one before it, and the lane that
delivers first shows it (`not_isPrefix_of_switch`).
-/

namespace Queues

open Past

variable {ι α κ : Type*}

/-! ## Items of a filtered list -/

/-- An item of a filtered list, in the list. -/
theorem split_of_filter {p : α → Bool} {l before after : List α} {a : α}
    (h : l.filter p = before ++ a :: after) :
    ∃ pre post, l = pre ++ a :: post ∧ pre.filter p = before := by
  obtain ⟨l₁, l₂, rfl, rfl, h₂⟩ := List.filter_eq_append_iff.mp h
  obtain ⟨l₃, l₄, rfl, hnone, -, -⟩ := List.filter_eq_cons_iff.mp h₂
  refine ⟨l₁ ++ l₃, l₄, (List.append_assoc ..).symm, ?_⟩
  rw [List.filter_append, List.filter_eq_nil_iff.mpr hnone, List.append_nil]

/-- Two places in a list, one before the other. -/
theorem mem_of_two_splits {l pre post pre' post' : List α} {x y : α}
    (h : l = pre ++ x :: post) (h' : l = pre' ++ y :: post') : x ∈ pre' ∨ y ∈ pre ∨ x = y := by
  rcases List.append_eq_append_iff.mp (h.symm.trans h') with ⟨a, rfl, hcons⟩ | ⟨a, rfl, hcons⟩
  · cases a with
    | nil => exact .inr (.inr (List.cons.inj hcons).1)
    | cons z a =>
        obtain rfl := (List.cons.inj hcons).1
        exact .inl (by simp)
  · cases a with
    | nil => exact .inr (.inr (List.cons.inj hcons).1.symm)
    | cons z a =>
        obtain rfl := (List.cons.inj hcons).1
        exact .inr (.inl (by simp))

/-! ## Lanes and keys -/

/-- The items on a lane. -/
def onLane [DecidableEq ι] (i : ι) (l : List (ι × α)) : List (ι × α) := l.filter fun x => x.1 = i

/-- The items of a key. -/
def keyed [DecidableEq κ] (key : α → κ) (k : κ) (l : List (ι × α)) : List (ι × α) :=
  l.filter fun x => key x.2 = k

theorem mem_onLane [DecidableEq ι] {i : ι} {l : List (ι × α)} {x : ι × α} :
    x ∈ onLane i l ↔ x ∈ l ∧ x.1 = i := by
  simp [onLane]

theorem mem_keyed [DecidableEq κ] {key : α → κ} {k : κ} {l : List (ι × α)} {x : ι × α} :
    x ∈ keyed key k l ↔ x ∈ l ∧ key x.2 = k := by
  simp [keyed]

theorem onLane_append [DecidableEq ι] (i : ι) (l m : List (ι × α)) :
    onLane i (l ++ m) = onLane i l ++ onLane i m :=
  List.filter_append ..

theorem keyed_append [DecidableEq κ] (key : α → κ) (k : κ) (l m : List (ι × α)) :
    keyed key k (l ++ m) = keyed key k l ++ keyed key k m :=
  List.filter_append ..

theorem onLane_cons_of_eq [DecidableEq ι] {i : ι} {x : ι × α} (h : x.1 = i) (l : List (ι × α)) :
    onLane i (x :: l) = x :: onLane i l := by
  simp [onLane, h]

theorem onLane_cons_of_ne [DecidableEq ι] {i : ι} {x : ι × α} (h : x.1 ≠ i) (l : List (ι × α)) :
    onLane i (x :: l) = onLane i l := by
  simp [onLane, h]

theorem keyed_cons_of_eq [DecidableEq κ] {key : α → κ} {k : κ} {x : ι × α} (h : key x.2 = k)
    (l : List (ι × α)) : keyed key k (x :: l) = x :: keyed key k l := by
  simp [keyed, h]

theorem onLane_of_forall [DecidableEq ι] {i : ι} {l : List (ι × α)} (h : ∀ x ∈ l, x.1 = i) :
    onLane i l = l :=
  List.filter_eq_self.mpr fun x hx => decide_eq_true (h x hx)

theorem onLane_of_forall_ne [DecidableEq ι] {i : ι} {l : List (ι × α)} (h : ∀ x ∈ l, x.1 ≠ i) :
    onLane i l = [] :=
  List.filter_eq_nil_iff.mpr fun x hx => by simpa using h x hx

/-- The same lanes hold the same items. -/
theorem perm_of_onLane [DecidableEq ι] [DecidableEq α] {l m : List (ι × α)}
    (h : ∀ i, onLane i l = onLane i m) : l.Perm m := by
  rw [List.perm_iff_count]
  intro a
  have hl : (onLane a.1 l).count a = l.count a := List.count_filter (by simp)
  have hm : (onLane a.1 m).count a = m.count a := List.count_filter (by simp)
  rw [← hl, h, hm]

variable [DecidableEq ι]

theorem keyed_onLane [DecidableEq κ] (key : α → κ) (k : κ) (i : ι) (l : List (ι × α)) :
    keyed key k (onLane i l) = onLane i (keyed key k l) :=
  List.filter_comm ..

/-! ## Keys that keep to one lane -/

/-- The first `n i` items of each lane `i` come after no item of their key on
another lane. -/
def KeepsToLane (key : α → κ) (n : ι → Nat) (sent : List (ι × α)) : Prop :=
  Always (fun pre x => (onLane x.1 pre).length < n x.1 →
    ∀ y ∈ pre, key y.2 = key x.2 → y.1 = x.1) sent

instance [DecidableEq κ] (key : α → κ) (n : ι → Nat) (sent : List (ι × α)) :
    Decidable (KeepsToLane key n sent) :=
  inferInstanceAs (Decidable (Always _ sent))

section

variable {key : α → κ} {n : ι → Nat} {sent arrived : List (ι × α)}

/-- An arrived item among the sent ones. -/
theorem exists_split_of_arrived (hlanes : ∀ i, onLane i arrived <+: onLane i sent)
    {x : ι × α} (hx : x ∈ arrived) : ∃ pre post, sent = pre ++ x :: post ∧
      (onLane x.1 pre).length < (onLane x.1 arrived).length := by
  obtain ⟨before, after, hsplit⟩ := List.append_of_mem (mem_onLane.mpr ⟨hx, rfl⟩)
  obtain ⟨rest, hrest⟩ := hlanes x.1
  rw [hsplit, List.append_assoc, List.cons_append] at hrest
  obtain ⟨pre, post, hsent, hpre⟩ := split_of_filter hrest.symm
  refine ⟨pre, post, hsent, ?_⟩
  rw [hsplit, onLane, hpre, List.length_append, List.length_cons]
  omega

/-- Arrived items of one key are on one lane. -/
theorem lane_eq_of_keepsToLane (hlanes : ∀ i, onLane i arrived <+: onLane i sent)
    (hn : ∀ i, (onLane i arrived).length ≤ n i) (hkeeps : KeepsToLane key n sent) {x y : ι × α}
    (hx : x ∈ arrived) (hy : y ∈ arrived) (hkey : key x.2 = key y.2) : x.1 = y.1 := by
  obtain ⟨pre, post, hsent, hlt⟩ := exists_split_of_arrived hlanes hx
  obtain ⟨pre', post', hsent', hlt'⟩ := exists_split_of_arrived hlanes hy
  rcases mem_of_two_splits hsent hsent' with hmem | hmem | rfl
  · exact hkeeps pre' y post' hsent' (Nat.lt_of_lt_of_le hlt' (hn _)) x hmem hkey
  · exact (hkeeps pre x post hsent (Nat.lt_of_lt_of_le hlt (hn _)) y hmem hkey.symm).symm
  · rfl

/-- Items of a key arrive in the order of their sending. -/
theorem keyed_isPrefix [DecidableEq κ] (hlanes : ∀ i, onLane i arrived <+: onLane i sent)
    (hn : ∀ i, (onLane i arrived).length ≤ n i) (hkeeps : KeepsToLane key n sent) (k : κ) :
    keyed key k arrived <+: keyed key k sent := by
  rcases List.eq_nil_or_concat (keyed key k arrived) with hnil | ⟨before, x, hconcat⟩
  · rw [hnil]
    exact List.nil_prefix
  · rw [List.concat_eq_append] at hconcat
    obtain ⟨hx, hkey⟩ := mem_keyed.mp (hconcat ▸ List.mem_concat_self)
    -- All of the key's items that arrived are on the lane of the last one.
    have hone : keyed key k arrived = keyed key k (onLane x.1 arrived) := by
      rw [keyed_onLane, onLane_of_forall]
      intro y hy
      obtain ⟨hmem, hy⟩ := mem_keyed.mp hy
      exact lane_eq_of_keepsToLane hlanes hn hkeeps hmem hx (hy.trans hkey.symm)
    rw [hone] at hconcat
    obtain ⟨mid, rest, hmid, hbefore⟩ := split_of_filter hconcat
    obtain ⟨after, hafter⟩ := hlanes x.1
    rw [hmid, List.append_assoc, List.cons_append] at hafter
    obtain ⟨pre, post, rfl, hpre⟩ := split_of_filter hafter.symm
    have hlt : (onLane x.1 pre).length < n x.1 := by
      refine Nat.lt_of_lt_of_le ?_ (hn x.1)
      rw [onLane, hpre, hmid, List.length_append, List.length_cons]
      omega
    have hall := hkeeps pre x post rfl hlt
    have hsame : keyed key k pre = before := by
      rw [← hbefore, ← hpre]
      refine (List.filter_eq_self.mpr ?_).symm.trans (List.filter_comm ..)
      intro y hy
      obtain ⟨hmem, hy⟩ := mem_keyed.mp hy
      exact decide_eq_true (hall y hmem (hy.trans hkey.symm))
    refine ⟨keyed key k post, ?_⟩
    rw [hone, hconcat, keyed_append, hsame, List.append_assoc]
    congr 1
    exact (keyed_cons_of_eq hkey post).symm

end

/-! ## Keys that change lanes -/

section

variable [DecidableEq κ] {key : α → κ} {lane : α → ι} {sent : List (ι × α)}

/-- An item that is not on the lane of the last item of its key is on the lane
that the item itself tells. -/
def SwitchesByItem (key : α → κ) (lane : α → ι) (sent : List (ι × α)) : Prop :=
  Always (fun pre x =>
    (∃ y, (keyed key (key x.2) pre).getLast? = some y ∧ y.1 = x.1) ∨ lane x.2 = x.1) sent

/-- The first item on another lane. -/
theorem exists_first_ne {i : ι} : ∀ {l : List (ι × α)}, (∃ x ∈ l, x.1 ≠ i) →
    ∃ pre x post, l = pre ++ x :: post ∧ (∀ y ∈ pre, y.1 = i) ∧ x.1 ≠ i
  | [], h => by
      obtain ⟨x, hx, -⟩ := h
      exact absurd hx List.not_mem_nil
  | x :: l, h => by
      by_cases hx : x.1 = i
      · obtain ⟨y, hy, hne⟩ := h
        have hmem : y ∈ l := (List.mem_cons.mp hy).resolve_left fun heq => hne (heq ▸ hx)
        obtain ⟨pre, z, post, rfl, hpre, hz⟩ := exists_first_ne ⟨y, hmem, hne⟩
        refine ⟨x :: pre, z, post, rfl, ?_, hz⟩
        intro y' hy'
        rcases List.mem_cons.mp hy' with rfl | hy'
        · exact hx
        · exact hpre y' hy'
      · exact ⟨[], x, l, rfl, nofun, hx⟩

/-- The first item on this lane. -/
theorem exists_first_eq {i : ι} : ∀ {l : List (ι × α)}, (∃ x ∈ l, x.1 = i) →
    ∃ pre x post, l = pre ++ x :: post ∧ (∀ y ∈ pre, y.1 ≠ i) ∧ x.1 = i
  | [], h => by
      obtain ⟨x, hx, -⟩ := h
      exact absurd hx List.not_mem_nil
  | x :: l, h => by
      by_cases hx : x.1 = i
      · exact ⟨[], x, l, rfl, nofun, hx⟩
      · obtain ⟨y, hy, heq⟩ := h
        have hmem : y ∈ l := (List.mem_cons.mp hy).resolve_left fun h => hx (h ▸ heq)
        obtain ⟨pre, z, post, rfl, hpre, hz⟩ := exists_first_eq ⟨y, hmem, heq⟩
        refine ⟨x :: pre, z, post, rfl, ?_, hz⟩
        intro y' hy'
        rcases List.mem_cons.mp hy' with rfl | hy'
        · exact hx
        · exact hpre y' hy'

omit [DecidableEq ι] in
/-- The lane of an item whose key was on another lane. -/
theorem SwitchesByItem.lane_eq (h : SwitchesByItem key lane sent) {k : κ} {pre post : List (ι × α)}
    {x : ι × α} (hsplit : keyed key k sent = pre ++ x :: post)
    (hother : ∀ y ∈ pre.getLast?, y.1 ≠ x.1) : lane x.2 = x.1 := by
  have hmem : x ∈ keyed key k sent := by
    rw [hsplit]
    exact List.mem_append_right _ List.mem_cons_self
  have hkey : key x.2 = k := (mem_keyed.mp hmem).2
  obtain ⟨before, after, rfl, hbefore⟩ := split_of_filter hsplit
  have hbefore' : keyed key (key x.2) before = pre := hkey.symm ▸ hbefore
  rcases h before x after rfl with ⟨y, hy, heq⟩ | hlane
  · rw [hbefore'] at hy
    exact absurd heq (hother y hy)
  · exact hlane

/-- If a key changes lanes and its later item arrives without the other lane,
then by value the key's items do not arrive in the order of their sending. -/
theorem not_isPrefix_of_switch (hswitch : SwitchesByItem key lane sent) {pre post : List (ι × α)}
    {x y : ι × α} (hsent : sent = pre ++ x :: post) (hy : y ∈ pre) (hkey : key y.2 = key x.2)
    (hlane : y.1 ≠ x.1) {arrived : List (ι × α)} (harrived : onLane x.1 (pre ++ [x]) <+: arrived) :
    ¬ (keyed key (key x.2) arrived).map Prod.snd <+:
      (keyed key (key x.2) sent).map Prod.snd := by
  intro hpre
  obtain ⟨u, z, v, hkeyed, hu, hz⟩ : ∃ u z v, keyed key (key x.2) (pre ++ [x]) = u ++ z :: v ∧
      (∀ w ∈ u, w.1 = x.1) ∧ z.1 ≠ x.1 :=
    exists_first_ne ⟨y, mem_keyed.mpr ⟨List.mem_append_left _ hy, hkey⟩, hlane⟩
  obtain ⟨b, g, c, rfl, hb, hg⟩ : ∃ b g c, v = b ++ g :: c ∧ (∀ w ∈ b, w.1 ≠ x.1) ∧ g.1 = x.1 := by
    refine exists_first_eq ⟨x, ?_, rfl⟩
    have hlast : (u ++ z :: v).getLast? = some x := by
      rw [← hkeyed, keyed_append, keyed_cons_of_eq rfl]
      exact List.getLast?_concat
    rw [List.getLast?_append_cons] at hlast
    refine (List.mem_cons.mp (List.mem_of_getLast? hlast)).resolve_left ?_
    rintro rfl
    exact hz rfl
  have hall : keyed key (key x.2) sent =
      u ++ z :: (b ++ g :: (c ++ keyed key (key x.2) post)) := by
    rw [hsent, show pre ++ x :: post = pre ++ [x] ++ post by simp, keyed_append, hkeyed]
    simp only [List.append_assoc, List.cons_append]
  -- The two items that changed lanes tell different lanes.
  have hlanez : lane z.2 = z.1 := by
    refine hswitch.lane_eq hall ?_
    intro w hw heq
    exact hz (heq ▸ hu w (List.mem_of_getLast? hw))
  have hallg : keyed key (key x.2) sent =
      (u ++ z :: b) ++ g :: (c ++ keyed key (key x.2) post) := by
    rw [hall, List.append_assoc, List.cons_append]
  have hlaneg : lane g.2 = g.1 := by
    refine hswitch.lane_eq hallg ?_
    intro w hw
    rw [List.getLast?_append_cons] at hw
    rw [hg]
    rcases List.mem_cons.mp (List.mem_of_getLast? hw) with rfl | hmem
    · exact hz
    · exact hb w hmem
  -- On the lane alone, the later one comes where the earlier one was sent.
  have hfirst : u ++ [g] <+: keyed key (key x.2) arrived := by
    have hfilter : keyed key (key x.2) (onLane x.1 (pre ++ [x])) <+: keyed key (key x.2) arrived :=
      harrived.filter _
    rw [keyed_onLane, hkeyed, onLane_append, onLane_of_forall hu,
      show z :: (b ++ g :: c) = (z :: b) ++ g :: c by simp, onLane_append,
      onLane_of_forall_ne (by simpa using ⟨hz, fun i a hmem => hb (i, a) hmem⟩), List.nil_append,
      onLane_cons_of_eq hg] at hfilter
    exact (List.prefix_append_right_inj u).mpr ⟨_, rfl⟩ |>.trans hfilter
  have hvalues := (hfirst.map Prod.snd).trans hpre
  rw [hall, List.map_append, List.map_append, List.prefix_append_right_inj] at hvalues
  have hsame : g.2 = z.2 := by simpa using hvalues
  exact hz ((hlanez.symm.trans (hsame ▸ hlaneg)).trans hg)

end

end Queues
