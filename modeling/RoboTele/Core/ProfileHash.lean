import RoboTele.Bytes.Concatenation
import RoboTele.Core.RobotProfile
import Mathlib.Algebra.BigOperators.Group.List.Basic
import Mathlib.Data.List.Basic

/-!
# What the profile hash hashes

`profileHash` writes the fields of a profile one after the other.  Neither the number of
joints nor the length of a region's name is written, so what one profile has as a name
another may have as numbers, or as joints.

The `Cuts` of a profile are what is not written: how many joints there are and how long
each name is.  Two profiles with the same cuts are told apart, and so are two of different
lengths.  For all other cuts there are profiles that are not (`told_apart_iff`).
-/

namespace RoboTele

open Concatenation

/-- The bytes that `profileHash` hashes. -/
def RobotProfile.hashInput (p : RobotProfile) : List UInt8 :=
  u16ToLeBytes p.dofCount ++ [p.baseType.toU8] ++
    p.joints.flatMap JointDescriptor.hashBytes ++ p.regions.flatMap BodyRegionDescriptor.hashBytes

theorem RobotProfile.profileHash_eq (p : RobotProfile) : p.profileHash = fnv1a64 p.hashInput := rfl

/-- The number of joints, and the length of each region's name in bytes. -/
structure Cuts where
  joints : Nat
  names : List Nat
deriving DecidableEq

/-- The bytes of a name. -/
def nameBytes (name : String) : List UInt8 := name.toUTF8.data.toList

/-- The lengths that the hashed bytes do not show. -/
def RobotProfile.cuts (p : RobotProfile) : Cuts where
  joints := p.joints.length
  names := p.regions.map fun r => (nameBytes r.name).length

/-- The bytes that are hashed of a profile with these cuts. -/
def Cuts.size (c : Cuts) : Nat := 3 + 14 * c.joints + (c.names.map (· + 7)).sum

/-! ## Fields -/

theorem length_u16ToLeBytes (n : UInt16) : (u16ToLeBytes n).length = 2 := by
  rw [u16ToLeBytes, List.length_reverse, BigEndian.length_encode]

theorem u16ToLeBytes_inj {m n : UInt16} (h : u16ToLeBytes m = u16ToLeBytes n) : m = n := by
  have hdecode := congrArg BigEndian.decode (List.reverse_inj.mp h)
  rw [BigEndian.decode_encode_of_lt m.toNat_lt, BigEndian.decode_encode_of_lt n.toNat_lt] at hdecode
  exact UInt16.toNat_inj.mp hdecode

theorem F32.length_toLeBytes (v : F32) : v.toLeBytes.length = 4 := by
  rw [F32.toLeBytes, List.length_reverse, BigEndian.length_encode]

theorem F32.toLeBytes_inj {v w : F32} (h : v.toLeBytes = w.toLeBytes) : v = w := by
  have hdecode := congrArg BigEndian.decode (List.reverse_inj.mp h)
  rw [BigEndian.decode_encode_of_lt v.bits.toNat_lt,
    BigEndian.decode_encode_of_lt w.bits.toNat_lt] at hdecode
  cases v
  cases w
  exact congrArg F32.mk (UInt32.toNat_inj.mp hdecode)

theorem boolToU8_inj {a b : Bool} (h : boolToU8 a = boolToU8 b) : a = b := by
  cases a <;> cases b <;> first | rfl | exact absurd h (by decide)

theorem CommandShape.toU8_inj {a b : CommandShape} (h : a.toU8 = b.toU8) : a = b := by
  cases a <;> cases b <;> first | rfl | exact absurd h (by decide)

theorem BaseType.toU8_inj {a b : BaseType} (h : a.toU8 = b.toU8) : a = b := by
  cases a <;> cases b <;> first | rfl | exact absurd h (by decide)

theorem nameBytes_inj {s t : String} (h : nameBytes s = nameBytes t) : s = t := by
  refine String.toByteArray_inj.mp ?_
  exact ByteArray.ext (Array.toList_inj.mp h)

theorem JointDescriptor.length_hashBytes (j : JointDescriptor) : j.hashBytes.length = 14 := by
  simp only [hashBytes, List.length_append, F32.length_toLeBytes, List.length_cons, List.length_nil]

theorem BodyRegionDescriptor.length_hashBytes (r : BodyRegionDescriptor) :
    r.hashBytes.length = (nameBytes r.name).length + 7 := by
  simp only [hashBytes, nameBytes, List.length_append, length_u16ToLeBytes, List.length_cons,
    List.length_nil]
  omega

/-- Joints are all of one length. -/
theorem readable_joints :
    Readable JointDescriptor.hashBytes (fun _ => () : JointDescriptor → Unit) where
  length a b _ := a.length_hashBytes.trans b.length_hashBytes.symm
  inj a b _ h := by
    obtain ⟨amin, amax, avelocity, atorque, aregion⟩ := a
    obtain ⟨bmin, bmax, bvelocity, btorque, bregion⟩ := b
    simp only [JointDescriptor.hashBytes, List.append_assoc] at h
    obtain ⟨hmin, h⟩ := List.append_inj h (by simp only [F32.length_toLeBytes])
    obtain ⟨hmax, h⟩ := List.append_inj h (by simp only [F32.length_toLeBytes])
    obtain ⟨hvelocity, h⟩ := List.append_inj h (by simp only [F32.length_toLeBytes])
    obtain ⟨htorque, h⟩ := List.cons.inj h
    obtain ⟨hregion, -⟩ := List.cons.inj h
    obtain rfl := F32.toLeBytes_inj hmin
    obtain rfl := F32.toLeBytes_inj hmax
    obtain rfl := F32.toLeBytes_inj hvelocity
    obtain rfl := boolToU8_inj htorque
    obtain rfl := hregion
    rfl

/-- Regions are as long as their names. -/
theorem readable_regions :
    Readable BodyRegionDescriptor.hashBytes fun r => (nameBytes r.name).length where
  length a b h := by
    rw [a.length_hashBytes, b.length_hashBytes, h]
  inj a b hsize h := by
    obtain ⟨aid, aname, astart, acount, asensor, ashape⟩ := a
    obtain ⟨bid, bname, bstart, bcount, bsensor, bshape⟩ := b
    simp only [BodyRegionDescriptor.hashBytes, List.append_assoc] at h
    obtain ⟨hid, h⟩ := List.append_inj h rfl
    obtain ⟨hname, h⟩ := List.append_inj h hsize
    obtain ⟨hstart, h⟩ := List.append_inj h (by simp only [length_u16ToLeBytes])
    obtain ⟨hcount, h⟩ := List.append_inj h (by simp only [length_u16ToLeBytes])
    obtain ⟨hsensor, h⟩ := List.cons.inj h
    obtain ⟨hshape, -⟩ := List.cons.inj h
    obtain ⟨rfl, -⟩ := List.cons.inj hid
    obtain rfl := nameBytes_inj hname
    obtain rfl := u16ToLeBytes_inj hstart
    obtain rfl := u16ToLeBytes_inj hcount
    obtain rfl := boolToU8_inj hsensor
    obtain rfl := CommandShape.toU8_inj hshape
    rfl

/-! ## Profiles that are told apart -/

namespace RobotProfile

variable {p q : RobotProfile}

theorem length_flatMap_joints (joints : List JointDescriptor) :
    (joints.flatMap JointDescriptor.hashBytes).length = 14 * joints.length := by
  induction joints with
  | nil => rfl
  | cons j joints ih =>
      rw [List.flatMap_cons, List.length_append, j.length_hashBytes, ih, List.length_cons]
      omega

theorem length_flatMap_regions (regions : List BodyRegionDescriptor) :
    (regions.flatMap BodyRegionDescriptor.hashBytes).length =
      ((regions.map fun r => (nameBytes r.name).length).map (· + 7)).sum := by
  induction regions with
  | nil => rfl
  | cons r regions ih =>
      rw [List.flatMap_cons, List.length_append, r.length_hashBytes, ih, List.map_cons,
        List.map_cons, List.sum_cons]

/-- The length of a profile's bytes follows from where they are cut. -/
theorem length_hashInput (p : RobotProfile) : p.hashInput.length = p.cuts.size := by
  rw [hashInput, List.length_append, List.length_append, List.length_append, length_u16ToLeBytes,
    length_flatMap_joints, length_flatMap_regions]
  rfl

/-- What comes first is read the same way of every profile. -/
theorem head_inj (h : p.hashInput = q.hashInput) :
    p.dofCount = q.dofCount ∧ p.baseType = q.baseType ∧
      p.joints.flatMap JointDescriptor.hashBytes ++
          p.regions.flatMap BodyRegionDescriptor.hashBytes =
        q.joints.flatMap JointDescriptor.hashBytes ++
          q.regions.flatMap BodyRegionDescriptor.hashBytes := by
  simp only [hashInput, List.append_assoc] at h
  obtain ⟨hdof, h⟩ := List.append_inj h (by simp only [length_u16ToLeBytes])
  obtain ⟨hbase, h⟩ := List.append_inj h rfl
  exact ⟨u16ToLeBytes_inj hdof, BaseType.toU8_inj (List.cons.inj hbase).1, h⟩

/-- Cut the same way, the bytes are those of one profile. -/
theorem eq_of_cuts (hcuts : p.cuts = q.cuts) (h : p.hashInput = q.hashInput) : p = q := by
  obtain ⟨hdof, hbase, hrest⟩ := head_inj h
  obtain ⟨hjoints, hnames⟩ := Cuts.mk.inj hcuts
  have hunits : p.joints.map (fun _ => ()) = q.joints.map fun _ => () := by
    rw [List.map_const', List.map_const', hjoints]
  obtain ⟨hjoints, hregions⟩ := readable_joints.flatMap_append_inj hunits hrest
  rw [← List.append_nil (p.regions.flatMap _), ← List.append_nil (q.regions.flatMap _)] at hregions
  obtain ⟨hregions, -⟩ := readable_regions.flatMap_append_inj hnames hregions
  cases p
  cases q
  subst hdof hbase hjoints hregions
  rfl

/-- The cuts of two profiles that are always told apart. -/
def ToldApart (p q : RobotProfile) : Prop :=
  p.dofCount ≠ q.dofCount ∨ p.baseType ≠ q.baseType ∨ p.cuts = q.cuts ∨ p.cuts.size ≠ q.cuts.size

/-- Profiles that are told apart have different bytes. -/
theorem ToldApart.hashInput_ne (h : p.ToldApart q) (hne : p ≠ q) : p.hashInput ≠ q.hashInput := by
  intro heq
  rcases h with hdof | hbase | hcuts | hsize
  · exact hdof (head_inj heq).1
  · exact hbase (head_inj heq).2.1
  · exact hne (eq_of_cuts hcuts heq)
  · rw [← length_hashInput, ← length_hashInput, heq] at hsize
    exact hsize rfl

end RobotProfile

/-! ## Profiles that are not -/

/-- A name of so many NUL characters. -/
def nulName : Nat → String
  | 0 => ""
  | n + 1 => nulName n ++ "\x00"

/-- The name of zeros spells zeros. -/
theorem nameBytes_nulName (n : Nat) : nameBytes (nulName n) = List.replicate n 0 := by
  induction n with
  | zero => rfl
  | succ n ih =>
      have happend : nameBytes (nulName n ++ "\x00") = nameBytes (nulName n) ++ [0] := by
        rw [nameBytes, nameBytes, String.toUTF8, String.toUTF8, String.toByteArray_append,
          ByteArray.data_append, Array.toList_append]
        rfl
      rw [nulName, happend, ih, List.replicate_succ']

/-- The profile with these cuts whose joints and regions are all zeros. -/
def blankProfile (dofCount : UInt16) (baseType : BaseType) (c : Cuts) : RobotProfile where
  dofCount := dofCount
  joints := List.replicate c.joints ⟨.zero, .zero, .zero, false, 0⟩
  regions := c.names.map fun n => ⟨0, nulName n, 0, 0, false, .kinematic⟩
  baseType := baseType

/-- A profile of zeros may be cut anywhere. -/
theorem cuts_blankProfile (dofCount : UInt16) (baseType : BaseType) (c : Cuts) :
    (blankProfile dofCount baseType c).cuts = c := by
  have hnames : (blankProfile dofCount baseType c).cuts.names = c.names := by
    change (c.names.map _).map _ = c.names
    rw [List.map_map]
    refine (List.map_congr_left fun n _ => ?_).trans (List.map_id _)
    change (nameBytes (nulName n)).length = n
    rw [nameBytes_nulName, List.length_replicate]
  cases c
  exact congrArg₂ Cuts.mk List.length_replicate hnames

theorem flatMap_blankJoints (n : Nat) :
    (List.replicate n (⟨.zero, .zero, .zero, false, 0⟩ : JointDescriptor)).flatMap
      JointDescriptor.hashBytes = List.replicate (14 * n) 0 := by
  have hbytes : (⟨.zero, .zero, .zero, false, 0⟩ : JointDescriptor).hashBytes =
      List.replicate 14 0 := by decide
  induction n with
  | zero => rfl
  | succ n ih =>
      rw [List.replicate_succ, List.flatMap_cons, ih, hbytes, List.replicate_append_replicate,
        Nat.mul_succ, Nat.add_comm]

theorem flatMap_blankRegions (names : List Nat) :
    (names.map fun n => (⟨0, nulName n, 0, 0, false, .kinematic⟩ : BodyRegionDescriptor)).flatMap
      BodyRegionDescriptor.hashBytes = List.replicate (names.map (· + 7)).sum 0 := by
  have hbytes : ∀ n, (⟨0, nulName n, 0, 0, false, .kinematic⟩ : BodyRegionDescriptor).hashBytes =
      List.replicate (n + 7) 0 := by
    intro n
    have hzero : u16ToLeBytes 0 = List.replicate 2 0 := by decide
    change [0] ++ nameBytes (nulName n) ++ u16ToLeBytes 0 ++ u16ToLeBytes 0 ++
      List.replicate 2 0 = _
    rw [nameBytes_nulName, hzero, List.append_assoc, List.append_assoc, List.append_assoc,
      List.replicate_append_replicate, List.replicate_append_replicate,
      List.replicate_append_replicate]
    exact List.replicate_succ.symm
  induction names with
  | nil => rfl
  | cons n names ih =>
      rw [List.map_cons, List.flatMap_cons, ih, hbytes, List.replicate_append_replicate,
        List.map_cons, List.sum_cons]

/-- Its bytes are zeros behind the two first fields. -/
theorem hashInput_blankProfile (dofCount : UInt16) (baseType : BaseType) (c : Cuts) :
    (blankProfile dofCount baseType c).hashInput =
      u16ToLeBytes dofCount ++ [baseType.toU8] ++ List.replicate (c.size - 3) 0 := by
  have hsize : c.size - 3 = 14 * c.joints + (c.names.map (· + 7)).sum := by
    rw [Cuts.size, Nat.add_assoc, Nat.add_sub_cancel_left]
  rw [RobotProfile.hashInput, List.append_assoc _ (List.flatMap _ _), hsize,
    ← List.replicate_append_replicate]
  exact congrArg₂ _ rfl (congrArg₂ _ (flatMap_blankJoints _) (flatMap_blankRegions _))

/-- Profiles with these cuts are told apart, whatever else they hold, exactly when their heads,
their cuts or their lengths say so. -/
theorem told_apart_iff (dofCount dofCount' : UInt16) (baseType baseType' : BaseType)
    (cuts cuts' : Cuts) :
    (∀ p q : RobotProfile, p.dofCount = dofCount → q.dofCount = dofCount' →
        p.baseType = baseType → q.baseType = baseType' → p.cuts = cuts → q.cuts = cuts' →
        p ≠ q → p.hashInput ≠ q.hashInput) ↔
      dofCount ≠ dofCount' ∨ baseType ≠ baseType' ∨ cuts = cuts' ∨ cuts.size ≠ cuts'.size := by
  constructor
  · intro h
    by_contra hnot
    simp only [not_or, not_not] at hnot
    obtain ⟨rfl, rfl, hcuts, hsize⟩ := hnot
    refine h (blankProfile dofCount baseType cuts) (blankProfile dofCount baseType cuts') rfl rfl
      rfl rfl (cuts_blankProfile _ _ _) (cuts_blankProfile _ _ _) ?_ ?_
    · intro heq
      have hcutsOf := congrArg RobotProfile.cuts heq
      rw [cuts_blankProfile, cuts_blankProfile] at hcutsOf
      exact hcuts hcutsOf
    · rw [hashInput_blankProfile, hashInput_blankProfile, hsize]
  · rintro h p q rfl rfl rfl rfl rfl rfl hne
    exact RobotProfile.ToldApart.hashInput_ne h hne

end RoboTele
