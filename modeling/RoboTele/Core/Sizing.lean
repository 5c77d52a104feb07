import RoboTele.Core.Quantization
import RoboTele.Tables.Parts

/-!
# Datagram sizes

How large a Channel B datagram is, and how its fields are split over several when they do
not fit into one (`planDatagrams`).  Haptic fields have a tier of their own that they may
not go below.

Sizes are `u32`.  Up to the `num_fields` that `FitsU32` allows nothing wraps, and the plans
are balanced parts of the fields (`planDatagrams_eq`).
-/

namespace RoboTele

/-- `tier.bytes_per_field()`. -/
def QuantizationTier.fieldLen (tier : QuantizationTier) : UInt32 := UInt32.ofNat tier.bytesPerField

/-- Haptic fields are not coded in fewer bytes than at this tier. -/
def hapticMinTier : QuantizationTier := .standard

def ntpTimestampBytes : UInt32 := 8
def sequenceNumberBytes : UInt32 := 8
def hmacSha256Bytes : UInt32 := 32
def flatbuffersFramingBytes : UInt32 := 12
def tdpaMetadataBytes : UInt32 := 8

/-- `FIXED_OVERHEAD_BYTES`. -/
def baseOverheadBytes : UInt32 :=
  ntpTimestampBytes + sequenceNumberBytes + hmacSha256Bytes + flatbuffersFramingBytes

def ipv4HeaderBytes : UInt32 := 20
def udpHeaderBytes : UInt32 := 8
def quicShortHeaderBytes : UInt32 := 9
def aeadTagBytes : UInt32 := 16

/-- What the network adds to a datagram. -/
def wireOverheadBytes : UInt32 :=
  ipv4HeaderBytes + udpHeaderBytes + quicShortHeaderBytes + aeadTagBytes

/-- The tier that is below the one haptic fields need. -/
structure HapticTierViolation where
  tier : QuantizationTier
deriving DecidableEq

/-- The tier is fine enough for haptic fields. -/
def validateHapticTier (tier : QuantizationTier) : Except HapticTierViolation Unit :=
  if tier.fieldLen < hapticMinTier.fieldLen then .error { tier } else .ok ()

/-- What every datagram carries besides its fields. -/
def fixedOverheadBytes (carriesHaptic : Bool) : UInt32 :=
  baseOverheadBytes + if carriesHaptic then tdpaMetadataBytes else 0

/-- The size of a datagram with so many fields. -/
def applicationPayloadBytes (numFields : UInt32) (tier : QuantizationTier)
    (carriesHaptic : Bool) : UInt32 :=
  numFields * tier.fieldLen + fixedOverheadBytes carriesHaptic

/-- The size of a datagram on the wire. -/
def wireBytes (appPayloadBytes : UInt32) : UInt32 := appPayloadBytes + wireOverheadBytes

/-- How many fields a datagram carries, and its size before and after it is wrapped. -/
structure DatagramPlan where
  numFields : UInt32
  appBytes : UInt32
  wireBytes : UInt32
deriving DecidableEq

/-- `u32::saturating_sub`. -/
def saturatingSub (a b : UInt32) : UInt32 := if b ≤ a then a - b else 0

/-- `u32::div_ceil`. -/
def divCeil (a b : UInt32) : UInt32 := if a % b > 0 then a / b + 1 else a / b

/-- The plan of one datagram with so many fields. -/
def DatagramPlan.of (numFields : UInt32) (tier : QuantizationTier) (overhead : UInt32) :
    DatagramPlan :=
  let appBytes := numFields * tier.fieldLen + overhead
  { numFields, appBytes, wireBytes := RoboTele.wireBytes appBytes }

/-- The number of datagrams that fields which do not fit into one are split over. -/
def nDatagrams (numFields : UInt32) (tier : QuantizationTier) (overhead budgetBytes : UInt32) :
    UInt32 :=
  let maxFieldsPerDatagram := max (saturatingSub budgetBytes overhead / tier.fieldLen) 1
  divCeil numFields maxFieldsPerDatagram

/-- The first datagrams have one field more, if the fields do not divide. -/
def splitPlans (numFields : UInt32) (tier : QuantizationTier) (overhead n : UInt32) :
    List DatagramPlan :=
  let base := numFields / n
  let extra := numFields % n
  (List.range n.toNat).map fun i =>
    .of (base + if UInt32.ofNat i < extra then 1 else 0) tier overhead

/-- One datagram if the fields fit into it, else balanced ones. -/
def planDatagrams (numFields : UInt32) (tier : QuantizationTier) (carriesHaptic : Bool)
    (budgetBytes : UInt32) : Except HapticTierViolation (List DatagramPlan) := do
  if carriesHaptic then validateHapticTier tier
  let overhead := fixedOverheadBytes carriesHaptic
  let singleSize := numFields * tier.fieldLen + overhead
  if singleSize ≤ budgetBytes ∨ numFields = 0 then
    return [{ numFields, appBytes := singleSize, wireBytes := wireBytes singleSize }]
  return splitPlans numFields tier overhead (nDatagrams numFields tier overhead budgetBytes)

/-- Fields that take two datagrams of the default budget. -/
example : planDatagrams 290 .full true 1200 =
    .ok [⟨145, 648, 701⟩, ⟨145, 648, 701⟩] := by decide

/-! ## Sizes without wrapping -/

open Parts

/-- `num_fields * 4` and the largest overhead fit into a `u32`. -/
def FitsU32 (numFields : UInt32) : Prop := numFields.toNat * 4 + 121 < 2 ^ 32

instance (numFields : UInt32) : Decidable (FitsU32 numFields) :=
  inferInstanceAs (Decidable (_ < _))

/-- The overhead of a datagram. -/
def overheadOf (carriesHaptic : Bool) : Nat := if carriesHaptic then 68 else 60

/-- The fields of each datagram. -/
def fieldCounts (numFields fieldLen overhead budget : Nat) : List Nat :=
  if numFields * fieldLen + overhead ≤ budget ∨ numFields = 0 then [numFields]
  else parts numFields (ceilDiv numFields (max ((budget - overhead) / fieldLen) 1))

section

variable {numFields budgetBytes : UInt32} {tier : QuantizationTier} {carriesHaptic : Bool}

theorem QuantizationTier.toNat_fieldLen (tier : QuantizationTier) :
    tier.fieldLen.toNat = tier.bytesPerField := by
  cases tier <;> rfl

theorem QuantizationTier.bytesPerField_pos (tier : QuantizationTier) :
    0 < tier.bytesPerField := by
  cases tier <;> decide

theorem QuantizationTier.bytesPerField_le (tier : QuantizationTier) :
    tier.bytesPerField ≤ 4 := by
  cases tier <;> decide

theorem toNat_fixedOverheadBytes (carriesHaptic : Bool) :
    (fixedOverheadBytes carriesHaptic).toNat = overheadOf carriesHaptic := by
  cases carriesHaptic <;> rfl

theorem overheadOf_le (carriesHaptic : Bool) : overheadOf carriesHaptic ≤ 68 := by
  cases carriesHaptic <;> decide

theorem validateHapticTier_eq (tier : QuantizationTier) :
    validateHapticTier tier = if tier = .compact then .error { tier } else .ok () := by
  cases tier <;> rfl

theorem toNat_saturatingSub (a b : UInt32) : (saturatingSub a b).toNat = a.toNat - b.toNat := by
  rw [saturatingSub]
  split_ifs with hle
  · exact UInt32.toNat_sub_of_le a b hle
  · rw [UInt32.le_iff_toNat_le] at hle
    rw [UInt32.toNat_zero]
    omega

theorem toNat_divCeil {a b : UInt32} : (divCeil a b).toNat = ceilDiv a.toNat b.toNat := by
  have hlt := a.toNat_lt
  rw [divCeil, ceilDiv]
  by_cases hpos : 0 < a.toNat % b.toNat
  · have hpos' : a % b > 0 := by
      rw [gt_iff_lt, UInt32.lt_iff_toNat_lt, UInt32.toNat_mod]
      exact hpos
    have hdiv := Nat.div_add_mod a.toNat b.toNat
    have hle : a.toNat / b.toNat ≤ b.toNat * (a.toNat / b.toNat) ∨ b.toNat = 0 := by
      rcases Nat.eq_zero_or_pos b.toNat with hzero | hb
      · exact .inr hzero
      · exact .inl (Nat.le_mul_of_pos_left _ hb)
    rw [if_pos hpos', if_pos hpos, UInt32.toNat_add, UInt32.toNat_div, Nat.mod_eq_of_lt]
    · rfl
    · change a.toNat / b.toNat + 1 < 2 ^ 32
      rcases hle with hle | hzero
      · omega
      · rw [hzero, Nat.div_zero]
        decide
  · have hpos' : ¬ a % b > 0 := by
      rw [gt_iff_lt, UInt32.lt_iff_toNat_lt, UInt32.toNat_mod]
      exact hpos
    rw [if_neg hpos', if_neg hpos, UInt32.toNat_div, Nat.add_zero]

theorem toNat_max (a b : UInt32) : (max a b).toNat = max a.toNat b.toNat := by
  rw [show max a b = if a ≤ b then b else a from rfl]
  split_ifs with hle
  · exact (max_eq_right (UInt32.le_iff_toNat_le.mp hle)).symm
  · rw [UInt32.le_iff_toNat_le] at hle
    exact (max_eq_left (Nat.le_of_not_le hle)).symm

/-- A size of at most `num_fields` fields. -/
theorem toNat_size {fields : UInt32} (hfits : FitsU32 numFields)
    (hle : fields.toNat ≤ numFields.toNat) (tier : QuantizationTier) (carriesHaptic : Bool) :
    (fields * tier.fieldLen + fixedOverheadBytes carriesHaptic).toNat =
      fields.toNat * tier.bytesPerField + overheadOf carriesHaptic := by
  have hmul := Nat.mul_le_mul hle tier.bytesPerField_le
  have hoverhead := overheadOf_le carriesHaptic
  rw [FitsU32] at hfits
  rw [UInt32.toNat_add, UInt32.toNat_mul, tier.toNat_fieldLen, toNat_fixedOverheadBytes,
    Nat.mod_eq_of_lt (show fields.toNat * tier.bytesPerField < 2 ^ 32 by omega),
    Nat.mod_eq_of_lt (by omega)]

theorem toNat_wireBytes {fields : UInt32} (hfits : FitsU32 numFields)
    (hle : fields.toNat ≤ numFields.toNat) (tier : QuantizationTier) (carriesHaptic : Bool) :
    (wireBytes (fields * tier.fieldLen + fixedOverheadBytes carriesHaptic)).toNat =
      fields.toNat * tier.bytesPerField + overheadOf carriesHaptic + 53 := by
  have hmul := Nat.mul_le_mul hle tier.bytesPerField_le
  have hoverhead := overheadOf_le carriesHaptic
  rw [wireBytes, UInt32.toNat_add, toNat_size hfits hle, show wireOverheadBytes.toNat = 53 from rfl]
  rw [FitsU32] at hfits
  exact Nat.mod_eq_of_lt (by omega)

/-- The datagrams that carry these numbers of fields. -/
def plansOf (counts : List Nat) (tier : QuantizationTier) (carriesHaptic : Bool) :
    List DatagramPlan :=
  counts.map fun fields => .of (UInt32.ofNat fields) tier (fixedOverheadBytes carriesHaptic)

theorem toNat_nDatagrams (numFields : UInt32) (tier : QuantizationTier) (carriesHaptic : Bool)
    (budgetBytes : UInt32) :
    (nDatagrams numFields tier (fixedOverheadBytes carriesHaptic) budgetBytes).toNat =
      ceilDiv numFields.toNat
        (max ((budgetBytes.toNat - overheadOf carriesHaptic) / tier.bytesPerField) 1) := by
  rw [nDatagrams, toNat_divCeil, toNat_max, UInt32.toNat_div, toNat_saturatingSub,
    toNat_fixedOverheadBytes, tier.toNat_fieldLen]
  rfl

/-- The plans carry the parts, in order. -/
theorem splitPlans_eq (hfits : FitsU32 numFields) (tier : QuantizationTier) (carriesHaptic : Bool)
    (n : UInt32) :
    splitPlans numFields tier (fixedOverheadBytes carriesHaptic) n =
      plansOf (parts numFields.toNat n.toNat) tier carriesHaptic := by
  rw [splitPlans, plansOf, parts, List.map_map]
  refine List.map_congr_left fun i hi => congrArg (DatagramPlan.of · tier _) ?_
  have hn := n.toNat_lt
  have hi' : (UInt32.ofNat i).toNat = i :=
    UInt32.toNat_ofNat_of_lt' ((List.mem_range.mp hi).trans hn)
  have hdiv := Nat.div_le_self numFields.toNat n.toNat
  rw [FitsU32] at hfits
  have hlt : UInt32.ofNat i < numFields % n ↔ i < numFields.toNat % n.toNat := by
    rw [UInt32.lt_iff_toNat_lt, hi', UInt32.toNat_mod]
  refine UInt32.toNat_inj.mp ?_
  rw [UInt32.toNat_add, UInt32.toNat_div]
  dsimp only [Function.comp_apply]
  by_cases hextra : i < numFields.toNat % n.toNat
  · rw [if_pos (hlt.mpr hextra), if_pos hextra, UInt32.toNat_one,
      UInt32.toNat_ofNat_of_lt' (show _ < 2 ^ 32 by omega), Nat.mod_eq_of_lt (by omega)]
  · rw [if_neg (mt hlt.mp hextra), if_neg hextra, UInt32.toNat_zero,
      UInt32.toNat_ofNat_of_lt' (show _ < 2 ^ 32 by omega), Nat.mod_eq_of_lt (by omega)]

/-- One datagram if all fits into it, and the balanced parts otherwise. -/
theorem plansOf_fieldCounts (hfits : FitsU32 numFields) (tier : QuantizationTier)
    (carriesHaptic : Bool) (budgetBytes : UInt32) :
    plansOf (fieldCounts numFields.toNat tier.bytesPerField (overheadOf carriesHaptic)
      budgetBytes.toNat) tier carriesHaptic =
      if numFields * tier.fieldLen + fixedOverheadBytes carriesHaptic ≤ budgetBytes ∨
        numFields = 0 then [.of numFields tier (fixedOverheadBytes carriesHaptic)]
      else splitPlans numFields tier (fixedOverheadBytes carriesHaptic)
        (nDatagrams numFields tier (fixedOverheadBytes carriesHaptic) budgetBytes) := by
  have hsingle : (numFields * tier.fieldLen + fixedOverheadBytes carriesHaptic ≤ budgetBytes ∨
      numFields = 0) ↔ numFields.toNat * tier.bytesPerField + overheadOf carriesHaptic ≤
        budgetBytes.toNat ∨ numFields.toNat = 0 := by
    rw [UInt32.le_iff_toNat_le, toNat_size hfits le_rfl, ← UInt32.toNat_inj]
    rfl
  rw [fieldCounts]
  by_cases hone : numFields * tier.fieldLen + fixedOverheadBytes carriesHaptic ≤ budgetBytes ∨
      numFields = 0
  · rw [if_pos hone, if_pos (hsingle.mp hone), plansOf, List.map_singleton, UInt32.ofNat_toNat]
  · rw [if_neg hone, if_neg (mt hsingle.mpr hone), splitPlans_eq hfits, toNat_nDatagrams]

/-- The plans are those of the balanced parts, and a tier below the floor is refused. -/
theorem planDatagrams_eq (hfits : FitsU32 numFields) (tier : QuantizationTier)
    (carriesHaptic : Bool) (budgetBytes : UInt32) :
    planDatagrams numFields tier carriesHaptic budgetBytes =
      if carriesHaptic = true ∧ tier = .compact then .error { tier }
      else .ok (plansOf (fieldCounts numFields.toNat tier.bytesPerField (overheadOf carriesHaptic)
        budgetBytes.toNat) tier carriesHaptic) := by
  have hrest : (if numFields * tier.fieldLen + fixedOverheadBytes carriesHaptic ≤ budgetBytes ∨
      numFields = 0 then
        pure [.of numFields tier (fixedOverheadBytes carriesHaptic)]
      else pure (splitPlans numFields tier (fixedOverheadBytes carriesHaptic)
        (nDatagrams numFields tier (fixedOverheadBytes carriesHaptic) budgetBytes)) :
      Except HapticTierViolation (List DatagramPlan)) = .ok (plansOf (fieldCounts numFields.toNat
        tier.bytesPerField (overheadOf carriesHaptic) budgetBytes.toNat) tier carriesHaptic) := by
    rw [plansOf_fieldCounts hfits]
    split_ifs <;> rfl
  rw [← hrest, planDatagrams, validateHapticTier_eq]
  cases carriesHaptic with
  | false =>
      have hfloor : ¬ (false = true ∧ tier = .compact) := fun h => Bool.false_ne_true h.1
      rw [if_neg hfloor]
      rfl
  | true =>
      by_cases htier : tier = .compact
      · have hfloor : true = true ∧ tier = .compact := ⟨rfl, htier⟩
        rw [if_pos hfloor, if_pos htier]
        rfl
      · have hfloor : ¬ (true = true ∧ tier = .compact) := fun h => htier h.2
        rw [if_neg hfloor, if_neg htier]
        rfl

end

/-! ## What the split is good for -/

section

variable {n fieldLen overhead budget : Nat}

/-- The most fields that fit. -/
theorem fits_iff_le (hlen : 0 < fieldLen) (hbudget : overhead + fieldLen ≤ budget) (c : Nat) :
    c * fieldLen + overhead ≤ budget ↔ c ≤ max ((budget - overhead) / fieldLen) 1 := by
  have hone : 1 ≤ (budget - overhead) / fieldLen := by
    rw [Nat.le_div_iff_mul_le hlen]
    omega
  rw [max_eq_left hone, Nat.le_div_iff_mul_le hlen]
  omega

/-- A command that is split takes at least one datagram. -/
theorem ceilDiv_pos_of_split (hsplit : ¬ (n * fieldLen + overhead ≤ budget ∨ n = 0)) :
    0 < ceilDiv n (max ((budget - overhead) / fieldLen) 1) :=
  ceilDiv_pos (Nat.pos_of_ne_zero (not_or.mp hsplit).2)
    (Nat.lt_of_lt_of_le Nat.one_pos (le_max_right _ _))

/-- No field is lost. -/
theorem sum_fieldCounts (n fieldLen overhead budget : Nat) :
    (fieldCounts n fieldLen overhead budget).sum = n := by
  rw [fieldCounts]
  split_ifs with hsplit
  · exact List.sum_singleton
  · exact sum_parts (ceilDiv_pos_of_split hsplit) n

/-- The counts of two datagrams differ by one at most. -/
theorem balanced_fieldCounts {c c' : Nat} (hc : c ∈ fieldCounts n fieldLen overhead budget)
    (hc' : c' ∈ fieldCounts n fieldLen overhead budget) : c ≤ c' + 1 := by
  rw [fieldCounts] at hc hc'
  split_ifs at hc hc' with hsplit
  · rw [List.mem_singleton.mp hc, List.mem_singleton.mp hc']
    exact Nat.le_succ n
  · exact le_add_one_of_mem_parts hc hc'

/-- Each datagram that carries a field is within the budget. -/
theorem fieldCounts_fit (hlen : 0 < fieldLen) (hbudget : overhead + fieldLen ≤ budget) {c : Nat}
    (hc : c ∈ fieldCounts n fieldLen overhead budget) (hpos : 0 < c) :
    c * fieldLen + overhead ≤ budget := by
  rw [fieldCounts] at hc
  split_ifs at hc with hsplit
  · obtain rfl := List.mem_singleton.mp hc
    exact hsplit.resolve_right hpos.ne'
  · rw [fits_iff_le hlen hbudget]
    exact le_of_mem_parts (Nat.lt_of_lt_of_le Nat.one_pos (le_max_right _ _)) hc

/-- Every list of datagrams that carries some fields is as long. -/
theorem length_fieldCounts_le (hlen : 0 < fieldLen) (hbudget : overhead + fieldLen ≤ budget)
    (hn : 0 < n) {counts : List Nat} (hsum : counts.sum = n)
    (hfit : ∀ c ∈ counts, 0 < c → c * fieldLen + overhead ≤ budget) :
    (fieldCounts n fieldLen overhead budget).length ≤ counts.length := by
  rw [fieldCounts]
  split_ifs with hsplit
  · refine Nat.succ_le_of_lt (List.length_pos_of_ne_nil ?_)
    rintro rfl
    exact hn.ne hsum
  · rw [length_parts]
    refine ceilDiv_le_length (Nat.lt_of_lt_of_le Nat.one_pos (le_max_right _ _)) hsum ?_
    intro c hc
    rcases Nat.eq_zero_or_pos c with rfl | hpos
    · exact Nat.zero_le _
    · exact (fits_iff_le hlen hbudget c).mp (hfit c hc hpos)

end

/-- No list of datagrams that carries the fields within the budget is shorter. -/
def Fewest (numFields fieldLen overhead budget : Nat) (plans : List DatagramPlan) : Prop :=
  ∀ counts : List Nat, counts.sum = numFields →
    (∀ c ∈ counts, 0 < c → c * fieldLen + overhead ≤ budget) → plans.length ≤ counts.length

/-- The plans split the fields evenly and have the sizes they say.  With room for a field
in a datagram they fit, and they are the fewest that carry some fields. -/
structure PlansRight (numFields : UInt32) (tier : QuantizationTier) (carriesHaptic : Bool)
    (budgetBytes : UInt32) (plans : List DatagramPlan) : Prop where
  sum : (plans.map (·.numFields.toNat)).sum = numFields.toNat
  balanced : ∀ p ∈ plans, ∀ q ∈ plans, p.numFields.toNat ≤ q.numFields.toNat + 1
  formula : ∀ p ∈ plans, p.appBytes = applicationPayloadBytes p.numFields tier carriesHaptic ∧
    p.wireBytes = wireBytes p.appBytes
  exact : ∀ p ∈ plans,
    p.appBytes.toNat = p.numFields.toNat * tier.bytesPerField + overheadOf carriesHaptic ∧
      p.wireBytes.toNat = p.appBytes.toNat + 53
  fits : overheadOf carriesHaptic + tier.bytesPerField ≤ budgetBytes.toNat →
    ∀ p ∈ plans, 0 < p.numFields.toNat → p.appBytes.toNat ≤ budgetBytes.toNat
  fewest : overheadOf carriesHaptic + tier.bytesPerField ≤ budgetBytes.toNat →
    0 < numFields.toNat →
    Fewest numFields.toNat tier.bytesPerField (overheadOf carriesHaptic) budgetBytes.toNat plans

section

variable {numFields : UInt32} {tier : QuantizationTier} {carriesHaptic : Bool} {counts : List Nat}

/-- The plans of numbers of fields that are in all `numFields`. -/
theorem mem_plansOf (hfits : FitsU32 numFields) (hsum : counts.sum = numFields.toNat)
    {p : DatagramPlan} (hp : p ∈ plansOf counts tier carriesHaptic) :
    p.numFields.toNat ∈ counts ∧
      p.appBytes.toNat = p.numFields.toNat * tier.bytesPerField + overheadOf carriesHaptic ∧
      p.wireBytes.toNat = p.appBytes.toNat + 53 := by
  obtain ⟨c, hc, rfl⟩ := List.mem_map.mp hp
  have hle : c ≤ numFields.toNat := hsum ▸ List.le_sum_of_mem hc
  have hc' : (UInt32.ofNat c).toNat = c :=
    UInt32.toNat_ofNat_of_lt' (hle.trans_lt numFields.toNat_lt)
  have happ := toNat_size hfits (hc'.le.trans hle) tier carriesHaptic
  refine ⟨?_, happ, ?_⟩
  · change (UInt32.ofNat c).toNat ∈ counts
    rwa [hc']
  · have hwire := toNat_wireBytes hfits (hc'.le.trans hle) tier carriesHaptic
    exact hwire.trans (congrArg (· + 53) happ.symm)

theorem map_numFields_plansOf (hsum : counts.sum = numFields.toNat) :
    (plansOf counts tier carriesHaptic).map (·.numFields.toNat) = counts := by
  rw [plansOf, List.map_map]
  refine (List.map_congr_left fun c hc => ?_).trans (List.map_id counts)
  have hle : c ≤ numFields.toNat := hsum ▸ List.le_sum_of_mem hc
  exact UInt32.toNat_ofNat_of_lt' (hle.trans_lt numFields.toNat_lt)

/-- The plans are as stated. -/
theorem plansRight_plansOf (hfits : FitsU32 numFields) (tier : QuantizationTier)
    (carriesHaptic : Bool) (budgetBytes : UInt32) :
    PlansRight numFields tier carriesHaptic budgetBytes
      (plansOf (fieldCounts numFields.toNat tier.bytesPerField (overheadOf carriesHaptic)
        budgetBytes.toNat) tier carriesHaptic) := by
  have hsum := sum_fieldCounts numFields.toNat tier.bytesPerField (overheadOf carriesHaptic)
    budgetBytes.toNat
  have hlen := tier.bytesPerField_pos
  refine ⟨?_, ?_, ?_, fun p hp => (mem_plansOf hfits hsum hp).2, ?_, ?_⟩
  · rw [map_numFields_plansOf hsum, hsum]
  · intro p hp q hq
    exact balanced_fieldCounts (mem_plansOf hfits hsum hp).1 (mem_plansOf hfits hsum hq).1
  · intro p hp
    obtain ⟨c, -, rfl⟩ := List.mem_map.mp hp
    exact ⟨rfl, rfl⟩
  · intro hbudget p hp hpos
    obtain ⟨hmem, happ, -⟩ := mem_plansOf hfits hsum hp
    rw [happ]
    exact fieldCounts_fit hlen hbudget hmem hpos
  · intro hbudget hn counts hcounts hfit
    rw [plansOf, List.length_map]
    exact length_fieldCounts_le hlen hbudget hn hcounts hfit

end

end RoboTele
