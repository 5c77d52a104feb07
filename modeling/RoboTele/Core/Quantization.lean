import RoboTele.Bytes.FixedPoint
import RoboTele.Core.Float
import RoboTele.Core.Profile

/-!
# Command shapes at every tier

A field is one signed byte at the Compact tier, a signed 16-bit integer at the
Standard tier and the bits of the `f32` at the Full tier.  What comes back of a
command is as near as the tier's quantum allows (`quantization_exact`).

The Standard tier is the one of `Core.Profile`, with its field values as exact
rationals.
-/

namespace RoboTele

open FixedPoint

/-- How many bytes a field takes: one, two or four. -/
inductive QuantizationTier where
  | compact
  | standard
  | full
deriving DecidableEq

namespace QuantizationTier

/-- `bytes_per_field`. -/
def bytesPerField : QuantizationTier → Nat
  | compact => 1
  | standard => 2
  | full => 4

/-- A field value: exact where the tier rounds, and the bits where it does not. -/
abbrev Value : QuantizationTier → Type
  | compact => ℚ
  | standard => ℚ
  | full => F32

end QuantizationTier

/-- A cast to `i8`, which saturates. -/
def clampI8 (n : Int) : Int := max (-128) (min n 127)

/-- `f32::round() as u8`: saturating, and zero for NaN. -/
def F32.roundToU8 (v : F32) : UInt8 :=
  match f32OfBits v.bits.toNat with
  | some q => UInt8.ofNat (max 0 (min (roundHalfAway q) 255)).toNat
  | none => if v.bits = 0x7F800000 then 255 else 0

/-- A scaled field at a tier. -/
def packScaledAt (tier : QuantizationTier) (value : tier.Value) (scale : ℚ) : Bytes :=
  match tier with
  | .compact => encodeSigned 1 (clampI8 (roundHalfAway (value * scale)))
  | .standard => packScaled value scale
  | .full => BigEndian.encode 4 value.bits.toNat

/-- A scaled field at a tier, if its bytes are there. -/
def unpackScaledAt (tier : QuantizationTier) (field : Bytes) (scale : ℚ) : Option tier.Value :=
  match tier with
  | .compact => field.head?.map fun b => decodeSigned [b] / scale
  | .standard => unpackScaled field scale
  | .full =>
      if field.length = 4 then some ⟨UInt32.ofNat (BigEndian.decode field)⟩ else none

/-- A byte in a field of the tier. -/
def packU8At (tier : QuantizationTier) (value : UInt8) : Bytes :=
  match tier with
  | .compact => [value]
  | .standard => packU8 value
  | .full => BigEndian.encode 4 (F32.ofNat value.toNat).bits.toNat

/-- The byte in a field of the tier. -/
def unpackU8At (tier : QuantizationTier) (field : Bytes) : Option UInt8 :=
  match tier with
  | .compact => field.head?
  | .standard => unpackU8 field
  | .full =>
      if field.length = 4 then some (F32.roundToU8 ⟨UInt32.ofNat (BigEndian.decode field)⟩)
      else none

/-! ## One field -/

/-- What comes back of a field value. -/
def recovered (tier : QuantizationTier) (scale : ℚ) (value : tier.Value) : tier.Value :=
  match tier with
  | .compact => quantize roundHalfAway (-128) 127 scale value / scale
  | .standard => quantize roundHalfAway (-32768) 32767 scale value / scale
  | .full => value

/-- Half a quantum of error within the range of a field, and the nearest end outside. -/
structure RecoversWithin (lo hi : Int) (scale sent got : ℚ) : Prop where
  near : lo / scale ≤ sent → sent ≤ hi / scale → |got - sent| ≤ 1 / scale / 2
  below : sent ≤ lo / scale → got = lo / scale
  above : hi / scale ≤ sent → got = hi / scale

/-- What a tier promises of a field. -/
def Recovers (tier : QuantizationTier) (scale : ℚ) (sent got : tier.Value) : Prop :=
  match tier with
  | .compact => RecoversWithin (-128) 127 scale sent got
  | .standard => RecoversWithin (-32768) 32767 scale sent got
  | .full => got = sent

/-- Rounding half away from zero goes to a nearest whole number. -/
theorem roundsNear_roundHalfAway : RoundsNear roundHalfAway := by
  intro x
  rw [roundHalfAway]
  split_ifs with hx
  · have hlo := Int.floor_le (x + 1 / 2)
    have hhi := Int.lt_floor_add_one (x + 1 / 2)
    rw [abs_le]
    constructor <;> linarith
  · have hlo := Int.floor_le (-x + 1 / 2)
    have hhi := Int.lt_floor_add_one (-x + 1 / 2)
    rw [abs_le]
    push_cast
    constructor <;> linarith

/-- A quantized value is within half a step, or at its bound. -/
theorem recoversWithin_quantize {lo hi : Int} {scale : ℚ} (hscale : 0 < scale) (hle : lo ≤ hi)
    (value : ℚ) :
    RecoversWithin lo hi scale value (quantize roundHalfAway lo hi scale value / scale) where
  near hlo hhi := abs_quantize_div_sub_le roundsNear_roundHalfAway hscale hlo hhi
  below hlo := by rw [quantize_of_le roundsNear_roundHalfAway hscale hle hlo]
  above hhi := by rw [quantize_of_ge roundsNear_roundHalfAway hscale hle hhi]

variable {tier : QuantizationTier} {scale : ℚ}

/-- What a field recovers is right for its tier. -/
theorem recovers_recovered (hscale : 0 < scale) (value : tier.Value) :
    Recovers tier scale value (recovered tier scale value) := by
  cases tier with
  | compact => exact recoversWithin_quantize hscale (by decide) value
  | standard => exact recoversWithin_quantize hscale (by decide) value
  | full => rfl

/-- A packed field has its tier's length. -/
theorem length_packScaledAt (value : tier.Value) (scale : ℚ) :
    (packScaledAt tier value scale).length = tier.bytesPerField := by
  cases tier with
  | compact => exact length_encodeSigned 1 _
  | standard => exact length_encodeSigned 2 _
  | full => exact BigEndian.length_encode 4 _

/-- A field of the tier's width is read. -/
theorem exists_unpackScaledAt {field : Bytes} (hfield : field.length = tier.bytesPerField)
    (scale : ℚ) : ∃ v, unpackScaledAt tier field scale = some v := by
  cases tier with
  | compact =>
      obtain ⟨b, rfl⟩ := List.length_eq_one_iff.mp hfield
      exact ⟨_, rfl⟩
  | standard => exact ⟨_, if_pos hfield⟩
  | full => exact ⟨_, if_pos hfield⟩

theorem i16FromBeBytes_eq_decodeSigned {bytes : Bytes} (hbytes : bytes.length = 2) :
    i16FromBeBytes bytes = decodeSigned bytes := by
  have hlt := BigEndian.decode_lt bytes
  rw [i16FromBeBytes, decodeSigned]
  rw [hbytes] at hlt ⊢
  split_ifs <;> omega

/-- A packed field unpacks to what it recovers. -/
theorem unpackScaledAt_packScaledAt (value : tier.Value) (scale : ℚ) :
    unpackScaledAt tier (packScaledAt tier value scale) scale =
      some (recovered tier scale value) := by
  cases tier with
  | compact =>
      set n := quantize roundHalfAway (-128) 127 scale value with hn
      obtain ⟨hlo, hhi⟩ : -128 ≤ n ∧ n ≤ 127 := quantize_mem _ _ _ (by decide)
      obtain ⟨b, hb⟩ := List.length_eq_one_iff.mp (length_encodeSigned 1 n)
      have hread : decodeSigned [b] = n := by
        rw [← hb]
        exact decodeSigned_encodeSigned (by omega) (by omega)
      have hpack : packScaledAt .compact value scale = [b] := hb
      rw [hpack]
      change some (decodeSigned [b] / scale : ℚ) = some (n / scale : ℚ)
      rw [hread]
  | standard =>
      set n := quantize roundHalfAway (-32768) 32767 scale value with hn
      obtain ⟨hlo, hhi⟩ : -32768 ≤ n ∧ n ≤ 32767 := quantize_mem _ _ _ (by decide)
      have hread : i16FromBeBytes (encodeSigned 2 n) = n := by
        rw [i16FromBeBytes_eq_decodeSigned (length_encodeSigned 2 n)]
        exact decodeSigned_encodeSigned (by omega) (by omega)
      change unpackScaled (encodeSigned 2 n) scale = _
      rw [unpackScaled, if_pos (length_encodeSigned 2 n), hread]
      rfl
  | full =>
      rw [packScaledAt, unpackScaledAt, if_pos (BigEndian.length_encode 4 _),
        BigEndian.decode_encode_of_lt value.bits.toNat_lt, UInt32.ofNat_toNat]
      rfl

/-- What came back is packed as it was. -/
theorem packScaledAt_recovered (hscale : 0 < scale) (value : tier.Value) :
    packScaledAt tier (recovered tier scale value) scale = packScaledAt tier value scale := by
  cases tier with
  | compact =>
      obtain ⟨hlo, hhi⟩ := quantize_mem roundHalfAway scale value
        (by decide : (-128 : Int) ≤ 127)
      exact congrArg (encodeSigned 1) (quantize_div roundsNear_roundHalfAway hscale hlo hhi)
  | standard =>
      obtain ⟨hlo, hhi⟩ := quantize_mem roundHalfAway scale value
        (by decide : (-32768 : Int) ≤ 32767)
      exact congrArg (encodeSigned 2) (quantize_div roundsNear_roundHalfAway hscale hlo hhi)
  | full => rfl

/-! ## The gripper -/

theorem length_packU8At (value : UInt8) : (packU8At tier value).length = tier.bytesPerField := by
  cases tier with
  | compact => rfl
  | standard => exact length_encodeSigned 2 _
  | full => exact BigEndian.length_encode 4 _

/-- A byte's field of the right length unpacks. -/
theorem exists_unpackU8At {field : Bytes} (hfield : field.length = tier.bytesPerField) :
    ∃ v, unpackU8At tier field = some v := by
  cases tier with
  | compact =>
      obtain ⟨b, rfl⟩ := List.length_eq_one_iff.mp hfield
      exact ⟨b, rfl⟩
  | standard => exact ⟨_, if_pos hfield⟩
  | full => exact ⟨_, if_pos hfield⟩

/-- A byte survives its trip through a float. -/
theorem roundToU8_ofNat (value : UInt8) : (F32.ofNat value.toNat).roundToU8 = value := by
  have hlt := value.toNat_lt
  have hround : roundHalfAway ((value.toNat : ℕ) : ℚ) = value.toNat := by
    exact_mod_cast roundsNear_roundHalfAway.round_intCast (value.toNat : Int)
  rw [F32.roundToU8, F32.value_ofNat (by omega)]
  dsimp only
  rw [hround, min_eq_left (by omega), max_eq_right (by omega), Int.toNat_natCast,
    UInt8.ofNat_toNat]

/-- A byte's field is exact. -/
theorem unpackU8At_packU8At (value : UInt8) :
    unpackU8At tier (packU8At tier value) = some value := by
  have hlt := value.toNat_lt
  cases tier with
  | compact => rfl
  | standard =>
      have hread : i16FromBeBytes (encodeSigned 2 value.toNat) = value.toNat := by
        rw [i16FromBeBytes_eq_decodeSigned (length_encodeSigned 2 _)]
        exact decodeSigned_encodeSigned (by omega) (by omega)
      change unpackU8 (encodeSigned 2 value.toNat) = some value
      rw [unpackU8, if_pos (length_encodeSigned 2 _), hread,
        Int.emod_eq_of_lt (by omega) (by omega), Int.toNat_natCast, UInt8.ofNat_toNat]
  | full =>
      rw [packU8At, unpackU8At, if_pos (BigEndian.length_encode 4 _), BigEndian.decode_encode_of_lt
        (F32.ofNat value.toNat).bits.toNat_lt, UInt32.ofNat_toNat]
      exact congrArg some (roundToU8_ofNat value)

/-! ## Velocity and attitude -/

/-- Steps of one. -/
def continuousScaleCompact : ℚ := 1

/-- Field units in a unit of velocity or attitude. -/
def continuousScale : QuantizationTier → ℚ
  | .compact => continuousScaleCompact
  | .standard => continuousScaleStandard
  | .full => 1

/-- `VelocityAttitudeCommand`, with the field values of a tier. -/
structure VelocityAttitudeAt (tier : QuantizationTier) where
  vx : tier.Value
  vy : tier.Value
  turn : tier.Value
  roll : tier.Value
  pitch : tier.Value
  yaw : tier.Value

namespace VelocityAttitudeAt

variable {tier : QuantizationTier}

def fields (c : VelocityAttitudeAt tier) : List tier.Value :=
  [c.vx, c.vy, c.turn, c.roll, c.pitch, c.yaw]

def pack (c : VelocityAttitudeAt tier) : Bytes :=
  c.fields.flatMap (packScaledAt tier · (continuousScale tier))

def unpack (tier : QuantizationTier) (bytes : Bytes) : Option (VelocityAttitudeAt tier) :=
  let fieldLen := tier.bytesPerField
  if bytes.length < 6 * fieldLen then none
  else do
    let scale := continuousScale tier
    let vx ← unpackScaledAt tier (chunkAt fieldLen bytes 0) scale
    let vy ← unpackScaledAt tier (chunkAt fieldLen bytes 1) scale
    let turn ← unpackScaledAt tier (chunkAt fieldLen bytes 2) scale
    let roll ← unpackScaledAt tier (chunkAt fieldLen bytes 3) scale
    let pitch ← unpackScaledAt tier (chunkAt fieldLen bytes 4) scale
    let yaw ← unpackScaledAt tier (chunkAt fieldLen bytes 5) scale
    return { vx, vy, turn, roll, pitch, yaw }

/-- What comes back of a command. -/
def recovered (c : VelocityAttitudeAt tier) : VelocityAttitudeAt tier where
  vx := RoboTele.recovered tier (continuousScale tier) c.vx
  vy := RoboTele.recovered tier (continuousScale tier) c.vy
  turn := RoboTele.recovered tier (continuousScale tier) c.turn
  roll := RoboTele.recovered tier (continuousScale tier) c.roll
  pitch := RoboTele.recovered tier (continuousScale tier) c.pitch
  yaw := RoboTele.recovered tier (continuousScale tier) c.yaw

/-- The packed fields, one after another. -/
theorem pack_eq_flatten (c : VelocityAttitudeAt tier) :
    c.pack = (c.fields.map (packScaledAt tier · (continuousScale tier))).flatten :=
  List.flatMap_def ..

theorem length_pack (c : VelocityAttitudeAt tier) : c.pack.length = 6 * tier.bytesPerField := by
  simp only [pack, fields, List.flatMap_cons, List.flatMap_nil, List.length_append,
    length_packScaledAt, List.length_nil]
  omega

theorem unpack_pack (c : VelocityAttitudeAt tier) : unpack tier c.pack = some c.recovered := by
  have hfields : ∀ f ∈ c.fields.map (packScaledAt tier · (continuousScale tier)),
      f.length = tier.bytesPerField := by
    intro f hf
    obtain ⟨v, -, rfl⟩ := List.mem_map.mp hf
    exact length_packScaledAt v _
  have hchunk (i : Nat) (hi : i < 6) :
      unpackScaledAt tier (chunkAt tier.bytesPerField c.pack i) (continuousScale tier) =
        some (RoboTele.recovered tier (continuousScale tier) (c.fields.get ⟨i, hi⟩)) := by
    rw [pack_eq_flatten, chunkAt_flatten hfields (by rw [List.length_map]; exact hi),
      List.getElem_map,
      unpackScaledAt_packScaledAt]
    rfl
  rw [unpack]
  dsimp only
  rw [if_neg (by rw [length_pack]; exact lt_irrefl _), hchunk 0 (by decide), hchunk 1 (by decide),
    hchunk 2 (by decide), hchunk 3 (by decide), hchunk 4 (by decide), hchunk 5 (by decide)]
  rfl

theorem unpack_eq_none_iff {bytes : Bytes} :
    unpack tier bytes = none ↔ bytes.length < 6 * tier.bytesPerField := by
  rw [unpack]
  dsimp only
  split_ifs with hshort
  · exact iff_of_true rfl hshort
  · have hchunk (i : Nat) (hi : i < 6) : ∃ v,
        unpackScaledAt tier (chunkAt tier.bytesPerField bytes i) (continuousScale tier) = some v :=
      exists_unpackScaledAt (length_chunkAt (by omega) hi) _
    obtain ⟨vx, hvx⟩ := hchunk 0 (by decide)
    obtain ⟨vy, hvy⟩ := hchunk 1 (by decide)
    obtain ⟨turn, hturn⟩ := hchunk 2 (by decide)
    obtain ⟨roll, hroll⟩ := hchunk 3 (by decide)
    obtain ⟨pitch, hpitch⟩ := hchunk 4 (by decide)
    obtain ⟨yaw, hyaw⟩ := hchunk 5 (by decide)
    rw [hvx, hvy, hturn, hroll, hpitch, hyaw]
    exact iff_of_false (Option.some_ne_none _) hshort

end VelocityAttitudeAt

/-! ## Cartesian -/

/-- Steps of two millimetres. -/
def positionScaleCompact : ℚ := 1 / 2

/-- Field units in a unit of position. -/
def positionScale : QuantizationTier → ℚ
  | .compact => positionScaleCompact
  | .standard => 1
  | .full => 1

/-- `CartesianCommand`, with the field values of a tier. -/
structure CartesianAt (tier : QuantizationTier) where
  x : tier.Value
  y : tier.Value
  z : tier.Value
  gripper : UInt8

namespace CartesianAt

variable {tier : QuantizationTier}

def fields (c : CartesianAt tier) : List tier.Value := [c.x, c.y, c.z]

def pack (c : CartesianAt tier) : Bytes :=
  c.fields.flatMap (packScaledAt tier · (positionScale tier)) ++ packU8At tier c.gripper

def unpack (tier : QuantizationTier) (bytes : Bytes) : Option (CartesianAt tier) :=
  let fieldLen := tier.bytesPerField
  if bytes.length < 4 * fieldLen then none
  else do
    let scale := positionScale tier
    let x ← unpackScaledAt tier (chunkAt fieldLen bytes 0) scale
    let y ← unpackScaledAt tier (chunkAt fieldLen bytes 1) scale
    let z ← unpackScaledAt tier (chunkAt fieldLen bytes 2) scale
    let gripper ← unpackU8At tier (chunkAt fieldLen bytes 3)
    return { x, y, z, gripper }

/-- What comes back of a command. -/
def recovered (c : CartesianAt tier) : CartesianAt tier where
  x := RoboTele.recovered tier (positionScale tier) c.x
  y := RoboTele.recovered tier (positionScale tier) c.y
  z := RoboTele.recovered tier (positionScale tier) c.z
  gripper := c.gripper

/-- The packed fields, one after another. -/
def packedFields (c : CartesianAt tier) : List Bytes :=
  c.fields.map (packScaledAt tier · (positionScale tier)) ++ [packU8At tier c.gripper]

theorem pack_eq_flatten (c : CartesianAt tier) : c.pack = c.packedFields.flatten := by
  rw [packedFields, List.flatten_append, List.flatten_singleton, ← List.flatMap_def, pack]

theorem length_pack (c : CartesianAt tier) : c.pack.length = 4 * tier.bytesPerField := by
  simp only [pack, fields, List.flatMap_cons, List.flatMap_nil, List.length_append,
    length_packScaledAt, length_packU8At, List.length_nil]
  omega

theorem unpack_pack (c : CartesianAt tier) : unpack tier c.pack = some c.recovered := by
  have hfields : ∀ f ∈ c.packedFields, f.length = tier.bytesPerField := by
    intro f hf
    rcases List.mem_append.mp hf with hf | hf
    · obtain ⟨v, -, rfl⟩ := List.mem_map.mp hf
      exact length_packScaledAt v _
    · rw [List.mem_singleton.mp hf]
      exact length_packU8At _
  have hchunk (i : Nat) (hi : i < 4) :
      chunkAt tier.bytesPerField c.pack i = c.packedFields.get ⟨i, hi⟩ := by
    rw [pack_eq_flatten, chunkAt_flatten hfields hi]
    rfl
  have hscaled (i : Nat) (hi : i < 4) (v : tier.Value)
      (hv : c.packedFields.get ⟨i, hi⟩ = packScaledAt tier v (positionScale tier)) :
      unpackScaledAt tier (chunkAt tier.bytesPerField c.pack i) (positionScale tier) =
        some (RoboTele.recovered tier (positionScale tier) v) := by
    rw [hchunk i hi, hv, unpackScaledAt_packScaledAt]
  have hgripper : unpackU8At tier (chunkAt tier.bytesPerField c.pack 3) = some c.gripper :=
    (congrArg _ (hchunk 3 (by decide))).trans (unpackU8At_packU8At c.gripper)
  rw [unpack]
  dsimp only
  rw [if_neg (by rw [length_pack]; exact lt_irrefl _), hscaled 0 (by decide) c.x rfl,
    hscaled 1 (by decide) c.y rfl, hscaled 2 (by decide) c.z rfl, hgripper]
  rfl

theorem unpack_eq_none_iff {bytes : Bytes} :
    unpack tier bytes = none ↔ bytes.length < 4 * tier.bytesPerField := by
  rw [unpack]
  dsimp only
  split_ifs with hshort
  · exact iff_of_true rfl hshort
  · have hchunk (i : Nat) (hi : i < 4) :
        (chunkAt tier.bytesPerField bytes i).length = tier.bytesPerField :=
      length_chunkAt (by omega) hi
    obtain ⟨x, hx⟩ := exists_unpackScaledAt (hchunk 0 (by decide)) (positionScale tier)
    obtain ⟨y, hy⟩ := exists_unpackScaledAt (hchunk 1 (by decide)) (positionScale tier)
    obtain ⟨z, hz⟩ := exists_unpackScaledAt (hchunk 2 (by decide)) (positionScale tier)
    obtain ⟨gripper, hgripper⟩ := exists_unpackU8At (hchunk 3 (by decide))
    rw [hx, hy, hz, hgripper]
    exact iff_of_false (Option.some_ne_none _) hshort

end CartesianAt

/-! ## A tier -/

theorem continuousScale_pos (tier : QuantizationTier) : 0 < continuousScale tier := by
  cases tier <;> simp [continuousScale, continuousScaleCompact, continuousScaleStandard]

theorem positionScale_pos (tier : QuantizationTier) : 0 < positionScale tier := by
  cases tier <;> simp [positionScale, positionScaleCompact]

/-- What a tier promises of both shapes. -/
structure TierExact (tier : QuantizationTier) : Prop where
  velocity : ∀ c : VelocityAttitudeAt tier, ∃ c', VelocityAttitudeAt.unpack tier c.pack = some c' ∧
    List.Forall₂ (Recovers tier (continuousScale tier)) c.fields c'.fields ∧ c'.pack = c.pack
  velocityShort : ∀ bytes, VelocityAttitudeAt.unpack tier bytes = none ↔
    bytes.length < 6 * tier.bytesPerField
  cartesian : ∀ c : CartesianAt tier, ∃ c', CartesianAt.unpack tier c.pack = some c' ∧
    List.Forall₂ (Recovers tier (positionScale tier)) c.fields c'.fields ∧
      c'.gripper = c.gripper ∧ c'.pack = c.pack
  cartesianShort : ∀ bytes, CartesianAt.unpack tier bytes = none ↔
    bytes.length < 4 * tier.bytesPerField

/-- Recovering each of some fields. -/
theorem forall₂_recovered {tier : QuantizationTier} {scale : ℚ} (hscale : 0 < scale)
    (values : List tier.Value) :
    List.Forall₂ (Recovers tier scale) values (values.map (recovered tier scale)) := by
  rw [List.forall₂_map_right_iff, List.forall₂_same]
  exact fun v _ => recovers_recovered hscale v

/-- Packing what was recovered of some fields. -/
theorem flatMap_recovered {tier : QuantizationTier} {scale : ℚ} (hscale : 0 < scale)
    (values : List tier.Value) :
    (values.map (recovered tier scale)).flatMap (packScaledAt tier · scale) =
      values.flatMap (packScaledAt tier · scale) := by
  rw [List.flatMap_map]
  exact congrArg (values.flatMap ·) (funext fun v => packScaledAt_recovered hscale v)

/-- The tier packs and unpacks both shapes as stated. -/
theorem tierExact (tier : QuantizationTier) : TierExact tier where
  velocity c := by
    have hscale := continuousScale_pos tier
    exact ⟨c.recovered, c.unpack_pack, forall₂_recovered hscale c.fields,
      flatMap_recovered hscale c.fields⟩
  velocityShort _ := VelocityAttitudeAt.unpack_eq_none_iff
  cartesian c := by
    have hscale := positionScale_pos tier
    exact ⟨c.recovered, c.unpack_pack, forall₂_recovered hscale c.fields, rfl,
      congrArg (· ++ packU8At tier c.gripper) (flatMap_recovered hscale c.fields)⟩
  cartesianShort _ := CartesianAt.unpack_eq_none_iff

end RoboTele
