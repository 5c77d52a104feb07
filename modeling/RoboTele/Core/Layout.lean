import RoboTele.Bytes.Tiling
import RoboTele.Core.RobotProfile
import RoboTele.Core.Sizing

/-!
# Derived layouts

Where the fields of a Channel B datagram lie is computed by both endpoints and never
sent.  Telemetry has one field a joint (`deriveLayout`).  A command has one block a
region, but the regions that are commanded by the velocity and attitude of the body
share the block of the first of them (`deriveCommandLayout`).

A cursor of 32 bits runs through the joints and the regions.  As long as the layout ends
below `2 ^ 32` the blocks tile it (`layouts_exact`).
-/

namespace RoboTele

open Tiling

namespace CommandShape

/-- `fixed_field_count`, where the shape has one. -/
def fixedFieldCount : CommandShape → Option UInt32
  | kinematic => none
  | velocityAttitude => some 6
  | cartesianEndEffector => some 4

end CommandShape

/-- One field of a packed field vector. -/
structure FieldOffset where
  jointIndex : UInt16
  byteOffset : UInt32
  byteLen : UInt32
deriving DecidableEq

/-- The bytes of a field. -/
def FieldOffset.slot (f : FieldOffset) : Slot := (f.byteOffset.toNat, f.byteLen.toNat)

/-- `region_ids.is_empty() || region_ids.contains(&id)`. -/
def isSelected (regionIds : List UInt8) (id : UInt8) : Bool :=
  regionIds.isEmpty || regionIds.contains id

/-- One slot for each joint that `takes` takes, from `cursor` on, and the cursor after
them.  Joints are counted from `i`. -/
def jointOffsets (takes : JointDescriptor → Bool) (byteLen : UInt32) :
    List JointDescriptor → (i : Nat) → (cursor : UInt32) → List FieldOffset × UInt32
  | [], _, cursor => ([], cursor)
  | joint :: joints, i, cursor =>
      if takes joint then
        let (offsets, cursor') := jointOffsets takes byteLen joints (i + 1) (cursor + byteLen)
        ({ jointIndex := UInt16.ofNat i, byteOffset := cursor, byteLen } :: offsets, cursor')
      else jointOffsets takes byteLen joints (i + 1) cursor

/-- Where each joint of the selected regions has its field. -/
def deriveLayout (profile : RobotProfile) (regionIds : List UInt8) (tier : QuantizationTier) :
    List FieldOffset :=
  (jointOffsets (fun joint => isSelected regionIds joint.regionId) tier.fieldLen profile.joints 0
    0).1

/-- The part of a command that one region's commands take. -/
inductive CommandBlock where
  | kinematic (regionId : UInt8) (jointOffsets : List FieldOffset)
  | velocityAttitude (byteOffset byteLen : UInt32)
  | cartesianEndEffector (regionId : UInt8) (byteOffset byteLen : UInt32)
deriving DecidableEq

/-- The bytes that a block's fields take. -/
def CommandBlock.slots : CommandBlock → List Slot
  | kinematic _ jointOffsets => jointOffsets.map FieldOffset.slot
  | velocityAttitude byteOffset byteLen => [(byteOffset.toNat, byteLen.toNat)]
  | cartesianEndEffector _ byteOffset byteLen => [(byteOffset.toNat, byteLen.toNat)]

/-- The blocks of the regions from `cursor` on.  `emitted` tells whether the shared block
is among the earlier ones. -/
def commandBlocks (profile : RobotProfile) (regionIds : List UInt8) (tier : QuantizationTier) :
    List BodyRegionDescriptor → (cursor : UInt32) → (emitted : Bool) → List CommandBlock
  | [], _, _ => []
  | region :: regions, cursor, emitted =>
      if !isSelected regionIds region.regionId then
        commandBlocks profile regionIds tier regions cursor emitted
      else
        match region.commandShape with
        | .kinematic =>
            let (offsets, cursor') := jointOffsets (fun joint => joint.regionId == region.regionId)
              tier.fieldLen profile.joints 0 cursor
            .kinematic region.regionId offsets ::
              commandBlocks profile regionIds tier regions cursor' emitted
        | .velocityAttitude =>
            if emitted then commandBlocks profile regionIds tier regions cursor emitted
            else
              let byteLen := CommandShape.velocityAttitude.fixedFieldCount.get rfl * tier.fieldLen
              .velocityAttitude cursor byteLen ::
                commandBlocks profile regionIds tier regions (cursor + byteLen) true
        | .cartesianEndEffector =>
            let byteLen := CommandShape.cartesianEndEffector.fixedFieldCount.get rfl * tier.fieldLen
            .cartesianEndEffector region.regionId cursor byteLen ::
              commandBlocks profile regionIds tier regions (cursor + byteLen) emitted

/-- The blocks of the selected regions, one after the other. -/
def deriveCommandLayout (profile : RobotProfile) (regionIds : List UInt8)
    (tier : QuantizationTier) : List CommandBlock :=
  commandBlocks profile regionIds tier profile.regions 0 false

/-! ## Exact layouts -/

/-- The places of the joints that `takes` takes, counted from `i`. -/
def placesFrom (takes : JointDescriptor → Bool) (joints : List JointDescriptor) (i : Nat) :
    List Nat :=
  ((joints.zipIdx i).filter fun j => takes j.1).map Prod.snd

/-- Fields for exactly the joints that `takes` takes, in the order of the profile. -/
structure FieldsFor (takes : JointDescriptor → Bool) (profile : RobotProfile)
    (tier : QuantizationTier) (offsets : List FieldOffset) : Prop where
  places : offsets.map (·.jointIndex.toNat) = placesFrom takes profile.joints 0
  width : ∀ f ∈ offsets, f.byteLen.toNat = tier.bytesPerField

/-- The fields are those of the joints of the selected regions, and tile an interval. -/
structure LayoutExact (profile : RobotProfile) (regionIds : List UInt8) (tier : QuantizationTier)
    (offsets : List FieldOffset) : Prop where
  fields : FieldsFor (fun joint => isSelected regionIds joint.regionId) profile tier offsets
  tiles : Tiles 0 (offsets.map FieldOffset.slot)
    (profile.joints.countP (fun joint => isSelected regionIds joint.regionId) *
      tier.bytesPerField)
  apart : (offsets.map FieldOffset.slot).Pairwise fun s s' => s.1 + s.2 ≤ s'.1

/-- The region shares the block of the body. -/
def isVelocityAttitude (region : BodyRegionDescriptor) : Bool :=
  region.commandShape == .velocityAttitude

/-- The regions that have a block: of those with the shared block only the first, and none
if it was emitted. -/
def blockRegions : Bool → List BodyRegionDescriptor → List BodyRegionDescriptor
  | _, [] => []
  | emitted, region :: regions =>
      if isVelocityAttitude region then
        if emitted then blockRegions true regions else region :: blockRegions true regions
      else region :: blockRegions emitted regions

/-- What the block of a region is. -/
def BlockFor (profile : RobotProfile) (tier : QuantizationTier) (region : BodyRegionDescriptor)
    (block : CommandBlock) : Prop :=
  match region.commandShape with
  | .kinematic => ∃ offsets, block = .kinematic region.regionId offsets ∧
      FieldsFor (fun joint => joint.regionId == region.regionId) profile tier offsets
  | .velocityAttitude => ∃ byteOffset byteLen, block = .velocityAttitude byteOffset byteLen ∧
      byteLen.toNat = 6 * tier.bytesPerField
  | .cartesianEndEffector => ∃ byteOffset byteLen,
      block = .cartesianEndEffector region.regionId byteOffset byteLen ∧
      byteLen.toNat = 4 * tier.bytesPerField

/-- The fields of the block of a region. -/
def blockFields (profile : RobotProfile) (region : BodyRegionDescriptor) : Nat :=
  match region.commandShape with
  | .kinematic => profile.joints.countP fun joint => joint.regionId == region.regionId
  | .velocityAttitude => 6
  | .cartesianEndEffector => 4

/-- The regions that were accepted. -/
def selectedRegions (profile : RobotProfile) (regionIds : List UInt8) :
    List BodyRegionDescriptor :=
  profile.regions.filter fun region => isSelected regionIds region.regionId

/-- The length of the blocks of these regions. -/
def lenOf (profile : RobotProfile) (tier : QuantizationTier)
    (regions : List BodyRegionDescriptor) : Nat :=
  (regions.map fun region => blockFields profile region * tier.bytesPerField).sum

/-- The length of the whole command layout. -/
def commandLen (profile : RobotProfile) (regionIds : List UInt8) (tier : QuantizationTier) : Nat :=
  lenOf profile tier (blockRegions false (selectedRegions profile regionIds))

/-- Which regions have a block.  Every region with a block of its own has it, and of the
regions with the shared block the first one has it, at its own place. -/
structure SharedOnce (regions kept : List BodyRegionDescriptor) : Prop where
  order : kept.Sublist regions
  own : (kept.filter fun region => !isVelocityAttitude region) =
    regions.filter fun region => !isVelocityAttitude region
  shared : kept.filter isVelocityAttitude = (regions.find? isVelocityAttitude).toList
  first : (kept.takeWhile fun region => !isVelocityAttitude region) =
    regions.takeWhile fun region => !isVelocityAttitude region

/-- The blocks tile the layout.  They are those of the selected regions that have one. -/
structure CommandLayoutExact (profile : RobotProfile) (regionIds : List UInt8)
    (tier : QuantizationTier) (blocks : List CommandBlock) : Prop where
  tiles : Tiles 0 (blocks.flatMap CommandBlock.slots) (commandLen profile regionIds tier)
  apart : (blocks.flatMap CommandBlock.slots).Pairwise fun s s' => s.1 + s.2 ≤ s'.1
  inOrder : List.Forall₂ (BlockFor profile tier)
    (blockRegions false (selectedRegions profile regionIds)) blocks
  shared : SharedOnce (selectedRegions profile regionIds)
    (blockRegions false (selectedRegions profile regionIds))

/-! ## The walk through the joints -/

section

variable {takes : JointDescriptor → Bool} {tier : QuantizationTier}

theorem placesFrom_of_takes {joint : JointDescriptor} (h : takes joint)
    (joints : List JointDescriptor) (i : Nat) :
    placesFrom takes (joint :: joints) i = i :: placesFrom takes joints (i + 1) := by
  rw [placesFrom, List.zipIdx_cons, List.filter_cons, if_pos h]
  rfl

theorem placesFrom_of_not_takes {joint : JointDescriptor} (h : ¬ takes joint)
    (joints : List JointDescriptor) (i : Nat) :
    placesFrom takes (joint :: joints) i = placesFrom takes joints (i + 1) := by
  rw [placesFrom, List.zipIdx_cons, List.filter_cons, if_neg h]
  rfl

/-- What the walk through the joints gives. -/
structure Walked (takes : JointDescriptor → Bool) (tier : QuantizationTier)
    (joints : List JointDescriptor) (i : Nat) (cursor : UInt32)
    (walk : List FieldOffset × UInt32) : Prop where
  places : walk.1.map (·.jointIndex.toNat) = placesFrom takes joints i
  width : ∀ f ∈ walk.1, f.byteLen.toNat = tier.bytesPerField
  stop : walk.2.toNat = cursor.toNat + joints.countP takes * tier.bytesPerField
  tiles : Tiles cursor.toNat (walk.1.map FieldOffset.slot) walk.2.toNat

theorem walked_jointOffsets (takes : JointDescriptor → Bool) (tier : QuantizationTier)
    (joints : List JointDescriptor) {i : Nat} {cursor : UInt32}
    (hcount : i + joints.length ≤ 2 ^ 16)
    (hlen : cursor.toNat + joints.countP takes * tier.bytesPerField < 2 ^ 32) :
    Walked takes tier joints i cursor (jointOffsets takes tier.fieldLen joints i cursor) := by
  induction joints generalizing i cursor with
  | nil => exact ⟨rfl, nofun, by simp [jointOffsets], rfl⟩
  | cons joint joints ih =>
      rw [List.length_cons] at hcount
      rw [List.countP_cons] at hlen
      rw [jointOffsets]
      split_ifs at hlen ⊢ with htakes
      · have hcursor : (cursor + tier.fieldLen).toNat = cursor.toNat + tier.bytesPerField := by
          rw [UInt32.toNat_add, tier.toNat_fieldLen, Nat.mod_eq_of_lt]
          rw [Nat.add_one_mul] at hlen
          omega
        have hwalked := @ih (i + 1) (cursor + tier.fieldLen) (by omega) (by
          rw [hcursor]
          rw [Nat.add_one_mul] at hlen
          omega)
        dsimp only
        refine ⟨?_, ?_, ?_, ?_⟩
        · rw [List.map_cons, hwalked.places, placesFrom_of_takes htakes]
          congr 1
          exact UInt16.toNat_ofNat_of_lt' (show i < 2 ^ 16 by omega)
        · intro f hf
          rcases List.mem_cons.mp hf with rfl | hf
          · exact tier.toNat_fieldLen
          · exact hwalked.width f hf
        · rw [hwalked.stop, hcursor, List.countP_cons_of_pos htakes, Nat.add_one_mul]
          omega
        · rw [List.map_cons]
          refine ⟨rfl, ?_⟩
          change Tiles (cursor.toNat + tier.fieldLen.toNat) _ _
          rw [tier.toNat_fieldLen, ← hcursor]
          exact hwalked.tiles
      · have hwalked := @ih (i + 1) cursor (by omega) hlen
        refine ⟨?_, hwalked.width, ?_, hwalked.tiles⟩
        · rw [hwalked.places, placesFrom_of_not_takes htakes]
        · rw [hwalked.stop, List.countP_cons_of_neg htakes]

theorem Walked.fieldsFor {profile : RobotProfile} {cursor : UInt32}
    {walk : List FieldOffset × UInt32} (h : Walked takes tier profile.joints 0 cursor walk) :
    FieldsFor takes profile tier walk.1 :=
  ⟨h.places, h.width⟩

end

theorem layoutExact_deriveLayout {profile : RobotProfile} (hjoints : profile.joints.length < 2 ^ 16)
    (regionIds : List UInt8) (tier : QuantizationTier) :
    LayoutExact profile regionIds tier (deriveLayout profile regionIds tier) := by
  have hwidth := tier.bytesPerField_le
  have hcount : profile.joints.countP (fun joint => isSelected regionIds joint.regionId) ≤
      profile.joints.length := List.countP_le_length
  have hle := Nat.mul_le_mul hcount hwidth
  have hwalked := @walked_jointOffsets (fun joint => isSelected regionIds joint.regionId) tier
    profile.joints 0 0 (by omega) (by
      rw [UInt32.toNat_zero]
      omega)
  have htiles := hwalked.tiles
  rw [hwalked.stop, UInt32.toNat_zero, Nat.zero_add] at htiles
  exact ⟨hwalked.fieldsFor, htiles, htiles.apart⟩

/-! ## The regions that have a block -/

theorem blockRegions_true (regions : List BodyRegionDescriptor) :
    blockRegions true regions = regions.filter fun region => !isVelocityAttitude region := by
  induction regions with
  | nil => rfl
  | cons region regions ih =>
      rw [blockRegions, List.filter_cons]
      cases hshared : isVelocityAttitude region <;> simp [ih]

theorem sharedOnce_blockRegions (regions : List BodyRegionDescriptor) :
    SharedOnce regions (blockRegions false regions) := by
  induction regions with
  | nil => exact ⟨.slnil, rfl, rfl, rfl⟩
  | cons region regions ih =>
      rw [blockRegions]
      cases hshared : isVelocityAttitude region with
      | true =>
          rw [if_pos rfl, if_neg Bool.false_ne_true, blockRegions_true]
          refine ⟨List.filter_sublist.cons_cons _, ?_, ?_, ?_⟩
          · simp [hshared]
          · simp [hshared]
          · simp [hshared]
      | false =>
          rw [if_neg Bool.false_ne_true]
          refine ⟨ih.order.cons_cons _, ?_, ?_, ?_⟩
          · simp [hshared, ih.own]
          · simp [hshared, ih.shared]
          · simp [hshared, ih.first]

/-! ## The walk through the regions -/

section

variable {profile : RobotProfile} {regionIds : List UInt8} {tier : QuantizationTier}

/-- What the walk through the regions gives. -/
structure Laid (profile : RobotProfile) (tier : QuantizationTier)
    (regions : List BodyRegionDescriptor) (cursor : UInt32) (blocks : List CommandBlock) :
    Prop where
  inOrder : List.Forall₂ (BlockFor profile tier) regions blocks
  tiles : Tiles cursor.toNat (blocks.flatMap CommandBlock.slots)
    (cursor.toNat + lenOf profile tier regions)

/-- One more block before the others. -/
theorem Laid.cons {region : BodyRegionDescriptor} {regions : List BodyRegionDescriptor}
    {cursor cursor' : UInt32} {block : CommandBlock} {blocks : List CommandBlock}
    (hblock : BlockFor profile tier region block)
    (hcursor : cursor'.toNat = cursor.toNat + blockFields profile region * tier.bytesPerField)
    (htiles : Tiles cursor.toNat block.slots cursor'.toNat)
    (h : Laid profile tier regions cursor' blocks) :
    Laid profile tier (region :: regions) cursor (block :: blocks) where
  inOrder := .cons hblock h.inOrder
  tiles := by
    have hall := htiles.append h.tiles
    rw [List.flatMap_cons]
    rwa [hcursor, Nat.add_assoc] at hall

/-- A block of a fixed number of fields before the others. -/
theorem Laid.cons_fixed {region : BodyRegionDescriptor} {regions : List BodyRegionDescriptor}
    {cursor n : UInt32} {block : CommandBlock} {blocks : List CommandBlock} (hn : n.toNat ≤ 6)
    (hfields : blockFields profile region = n.toNat)
    (hlen : cursor.toNat + lenOf profile tier (region :: regions) < 2 ^ 32)
    (hblock : (n * tier.fieldLen).toNat = n.toNat * tier.bytesPerField →
      BlockFor profile tier region block)
    (hslots : block.slots = [(cursor.toNat, (n * tier.fieldLen).toNat)])
    (h : (cursor + n * tier.fieldLen).toNat + lenOf profile tier regions < 2 ^ 32 →
      Laid profile tier regions (cursor + n * tier.fieldLen) blocks) :
    Laid profile tier (region :: regions) cursor (block :: blocks) := by
  have hwidth := tier.bytesPerField_le
  have hle := Nat.mul_le_mul hn hwidth
  rw [lenOf, List.map_cons, List.sum_cons, ← lenOf, hfields] at hlen
  have hmul : (n * tier.fieldLen).toNat = n.toNat * tier.bytesPerField := by
    rw [UInt32.toNat_mul, tier.toNat_fieldLen, Nat.mod_eq_of_lt (by omega)]
  have hstop : (cursor + n * tier.fieldLen).toNat =
      cursor.toNat + n.toNat * tier.bytesPerField := by
    rw [UInt32.toNat_add, hmul, Nat.mod_eq_of_lt (by omega)]
  refine .cons (hblock hmul) (hfields ▸ hstop) ?_ (h (by omega))
  rw [hslots, hstop, hmul]
  exact ⟨rfl, rfl⟩

/-- The block of a region's own joints before the others. -/
theorem Laid.cons_joints (hjoints : profile.joints.length < 2 ^ 16)
    {region : BodyRegionDescriptor} {regions : List BodyRegionDescriptor} {cursor : UInt32}
    {walk : List FieldOffset × UInt32} {blocks : List CommandBlock}
    (hshape : region.commandShape = .kinematic)
    (hwalk : walk = jointOffsets (fun joint => joint.regionId == region.regionId) tier.fieldLen
      profile.joints 0 cursor)
    (hlen : cursor.toNat + lenOf profile tier (region :: regions) < 2 ^ 32)
    (h : walk.2.toNat + lenOf profile tier regions < 2 ^ 32 →
      Laid profile tier regions walk.2 blocks) :
    Laid profile tier (region :: regions) cursor (.kinematic region.regionId walk.1 :: blocks) := by
  have hfields : blockFields profile region =
      profile.joints.countP fun joint => joint.regionId == region.regionId := by
    rw [blockFields, hshape]
  rw [lenOf, List.map_cons, List.sum_cons, ← lenOf] at hlen
  have hwalked := @walked_jointOffsets (fun joint => joint.regionId == region.regionId) tier
    profile.joints 0 cursor (by omega) (by
      rw [← hfields]
      omega)
  rw [← hwalk] at hwalked
  have hstop := hwalked.stop
  rw [← hfields] at hstop
  refine .cons ?_ hstop hwalked.tiles (h ?_)
  · rw [BlockFor, hshape]
    exact ⟨_, rfl, hwalked.fieldsFor⟩
  · rw [hstop]
    omega

theorem laid_commandBlocks (hjoints : profile.joints.length < 2 ^ 16)
    (regions : List BodyRegionDescriptor) (cursor : UInt32) (emitted : Bool)
    (hlen : cursor.toNat + lenOf profile tier (blockRegions emitted
      (regions.filter fun region => isSelected regionIds region.regionId)) < 2 ^ 32) :
    Laid profile tier
      (blockRegions emitted (regions.filter fun region => isSelected regionIds region.regionId))
      cursor (commandBlocks profile regionIds tier regions cursor emitted) := by
  induction regions generalizing cursor emitted with
  | nil => exact ⟨.nil, rfl⟩
  | cons region regions ih =>
      rw [commandBlocks]
      rw [List.filter_cons] at hlen ⊢
      cases hselected : isSelected regionIds region.regionId with
      | false =>
          rw [hselected, if_neg Bool.false_ne_true] at hlen
          rw [if_neg Bool.false_ne_true, if_pos Bool.not_false]
          exact ih _ _ hlen
      | true =>
          rw [hselected, if_pos rfl, blockRegions, isVelocityAttitude] at hlen
          rw [if_pos rfl, if_neg (by decide), blockRegions, isVelocityAttitude]
          cases hshape : region.commandShape with
          | kinematic =>
              rw [hshape, if_neg (by decide)] at hlen
              rw [if_neg (by decide)]
              exact .cons_joints hjoints hshape rfl hlen (ih _ _)
          | velocityAttitude =>
              rw [hshape, if_pos (by decide)] at hlen
              rw [if_pos (by decide)]
              dsimp only
              cases emitted with
              | true => exact ih _ _ hlen
              | false =>
                  refine .cons_fixed (by decide) ?_ hlen (fun hmul => ?_) rfl (ih _ _)
                  · rw [blockFields, hshape]
                    rfl
                  · rw [BlockFor, hshape]
                    exact ⟨_, _, rfl, hmul⟩
          | cartesianEndEffector =>
              rw [hshape, if_neg (by decide)] at hlen
              rw [if_neg (by decide)]
              refine .cons_fixed (by decide) ?_ hlen (fun hmul => ?_) rfl (ih _ _)
              · rw [blockFields, hshape]
                rfl
              · rw [BlockFor, hshape]
                exact ⟨_, _, rfl, hmul⟩

end

/-- Both layouts are exact, if the fields can be numbered and the layout ends below
`2 ^ 32`. -/
theorem layouts_exact (profile : RobotProfile) (regionIds : List UInt8) (tier : QuantizationTier)
    (hjoints : profile.joints.length < 2 ^ 16)
    (hlen : commandLen profile regionIds tier < 2 ^ 32) :
    LayoutExact profile regionIds tier (deriveLayout profile regionIds tier) ∧
      CommandLayoutExact profile regionIds tier (deriveCommandLayout profile regionIds tier) := by
  have hlaid : Laid profile tier (blockRegions false (selectedRegions profile regionIds)) 0
      (deriveCommandLayout profile regionIds tier) :=
    laid_commandBlocks hjoints profile.regions 0 false (by rwa [UInt32.toNat_zero, Nat.zero_add])
  have htiles := hlaid.tiles
  rw [UInt32.toNat_zero, Nat.zero_add] at htiles
  exact ⟨layoutExact_deriveLayout hjoints regionIds tier, htiles, htiles.apart, hlaid.inOrder,
    sharedOnce_blockRegions _⟩

/-- Two legs that are commanded together, an arm and a head with two joints. -/
def leggedProfile : RobotProfile where
  dofCount := 4
  joints := [⟨.zero, .one, .one, false, 0⟩, ⟨.zero, .one, .one, false, 1⟩,
    ⟨.zero, .one, .one, true, 3⟩, ⟨.zero, .one, .one, true, 3⟩]
  regions := [⟨0, "left", 0, 1, false, .velocityAttitude⟩, ⟨2, "arm", 2, 0, true,
    .cartesianEndEffector⟩, ⟨1, "right", 1, 1, false, .velocityAttitude⟩,
    ⟨3, "head", 2, 2, false, .kinematic⟩]
  baseType := .bipedLegs

example : deriveCommandLayout leggedProfile [] .standard =
    [.velocityAttitude 0 12, .cartesianEndEffector 2 12 8,
      .kinematic 3 [⟨2, 20, 2⟩, ⟨3, 22, 2⟩]] := by decide

/-- A profile whose regions share joints. -/
theorem layouts_exact_leggedProfile :
    LayoutExact leggedProfile [] .standard (deriveLayout leggedProfile [] .standard) ∧
      CommandLayoutExact leggedProfile [] .standard
        (deriveCommandLayout leggedProfile [] .standard) :=
  layouts_exact leggedProfile [] .standard (by decide) (by decide)

end RoboTele
