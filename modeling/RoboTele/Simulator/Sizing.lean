import RoboTele.Bytes.FloatingPoint
import RoboTele.Core.Sizing

/-!
# The simulator's datagram sizes

`sizing.py` has the constants and the split of `Core.Sizing` on integers without a bound.
It rounds the number of datagrams up with `math.ceil(a / b)`, and `a / b` is a double.

Below `2 ^ 53` fields the rounded quotient has the ceiling of the exact one, so both
languages plan the same datagrams (`Sim.planDatagrams_eq`).
-/

namespace RoboTele

namespace Sim

open FloatingPoint

/-- What `plan_datagrams` raises. -/
inductive SizingError where
  | hapticTierViolation (message : String)
  | zeroDivisionError
  | overflowError
deriving DecidableEq

def ntpTimestampBytes : Int := 8
def sequenceNumberBytes : Int := 8
def hmacSha256Bytes : Int := 32
def flatbuffersFramingBytes : Int := 12
def tdpaMetadataBytes : Int := 8

/-- `FIXED_OVERHEAD_BYTES`. -/
def baseOverheadBytes : Int :=
  ntpTimestampBytes + sequenceNumberBytes + hmacSha256Bytes + flatbuffersFramingBytes

def ipv4HeaderBytes : Int := 20
def udpHeaderBytes : Int := 8
def quicShortHeaderBytes : Int := 9
def aeadTagBytes : Int := 16

/-- What the network adds to a datagram. -/
def wireOverheadBytes : Int :=
  ipv4HeaderBytes + udpHeaderBytes + quicShortHeaderBytes + aeadTagBytes

/-- `tier.name`. -/
def tierName : QuantizationTier → String
  | .compact => "COMPACT"
  | .standard => "STANDARD"
  | .full => "FULL"

/-- Haptic fields are not coded in fewer bytes than at this tier. -/
def hapticMinTier : QuantizationTier := .standard

/-- The text of `HapticTierViolation`. -/
def violationMessage (tier : QuantizationTier) : String :=
  tierName tier ++ " (" ++ toString tier.bytesPerField ++
    "B/field) is below the FR-3.1 haptic floor (" ++ tierName hapticMinTier ++ ", " ++
    toString hapticMinTier.bytesPerField ++ "B/field)"

/-- The tier is fine enough for haptic fields. -/
def validateHapticTier (tier : QuantizationTier) : Except SizingError Unit :=
  if tier.bytesPerField < hapticMinTier.bytesPerField then
    .error (.hapticTierViolation (violationMessage tier))
  else .ok ()

/-- What every datagram carries besides its fields. -/
def fixedOverheadBytes (carriesHaptic : Bool) : Int :=
  baseOverheadBytes + if carriesHaptic then tdpaMetadataBytes else 0

/-- The size of a datagram on the wire. -/
def wireBytes (appPayloadBytes : Int) : Int := appPayloadBytes + wireOverheadBytes

/-- A plan in Python's integers. -/
structure DatagramPlan where
  numFields : Int
  appBytes : Int
  wireBytes : Int
deriving DecidableEq

/-- `a / b`, which is the double nearest to the quotient. -/
def trueDiv (a b : Int) : Except SizingError ℚ :=
  if b = 0 then .error .zeroDivisionError
  else
    let q := nearest 53 (-1022) tiesEven ((a : ℚ) / b)
    if 2 ^ 1024 ≤ |q| then .error .overflowError else .ok q

/-- The plan of one datagram with so many fields. -/
def DatagramPlan.of (numFields : Int) (tier : QuantizationTier) (overhead : Int) : DatagramPlan :=
  let appBytes := numFields * tier.bytesPerField + overhead
  { numFields, appBytes, wireBytes := Sim.wireBytes appBytes }

/-- `plan_datagrams`. -/
def planDatagrams (numFields : Int) (tier : QuantizationTier) (carriesHaptic : Bool)
    (budgetBytes : Int) : Except SizingError (List DatagramPlan) := do
  if carriesHaptic then validateHapticTier tier
  let overhead := fixedOverheadBytes carriesHaptic
  let singleSize := numFields * tier.bytesPerField + overhead
  if singleSize ≤ budgetBytes ∨ numFields ≤ 0 then
    return [{ numFields, appBytes := singleSize, wireBytes := wireBytes singleSize }]
  let maxFieldsPerDatagram := max 1 ((budgetBytes - overhead).fdiv tier.bytesPerField)
  let quotient ← trueDiv numFields maxFieldsPerDatagram
  let nDatagrams := ⌈quotient⌉
  let base := numFields.fdiv nDatagrams
  let extra := numFields.fmod nDatagrams
  return (List.range nDatagrams.toNat).map fun i : Nat =>
    .of (base + if (i : Int) < extra then 1 else 0) tier overhead

/-! ## The same plans -/

open Parts

section

variable {numFields m : Nat} {tier : QuantizationTier} {carriesHaptic : Bool}

theorem ceil_div_eq (hm : 0 < m) (n : Nat) : ⌈(n : ℚ) / m⌉ = ceilDiv n m := by
  have hm' : (0 : ℚ) < m := Nat.cast_pos.mpr hm
  rw [Int.ceil_eq_iff, Int.cast_natCast, lt_div_iff₀ hm', div_le_iff₀ hm']
  constructor
  · rcases Nat.eq_zero_or_pos (ceilDiv n m) with hzero | hpos
    · rw [hzero, Nat.cast_zero, zero_sub, neg_one_mul]
      exact (neg_lt_zero.mpr hm').trans_le (Nat.cast_nonneg n)
    · by_contra hge
      obtain ⟨k, hk⟩ := Nat.exists_eq_succ_of_ne_zero hpos.ne'
      rw [hk, Nat.cast_succ, add_sub_cancel_right, not_lt] at hge
      have hle := ceilDiv_le hm (show n ≤ k * m by exact_mod_cast hge)
      omega
  · exact_mod_cast le_ceilDiv_mul hm n

/-- The number of datagrams is not changed by rounding the quotient. -/
theorem trueDiv_eq {n : Nat} (hn : 0 < n) (hbits : n < 2 ^ 53) (hm : 0 < m) (hle : m ≤ n) :
    ∃ quotient, trueDiv n m = .ok quotient ∧ ⌈quotient⌉ = ceilDiv n m := by
  have hm' : (0 : ℚ) < m := Nat.cast_pos.mpr hm
  have hone : (1 : ℚ) ≤ (n : ℚ) / m := (one_le_div hm').mpr (Nat.cast_le.mpr hle)
  have hsmall : (2 : ℚ) ^ (-1022 : Int) ≤ (n : ℚ) / m := by
    refine le_trans ?_ hone
    rw [zpow_neg]
    exact inv_le_one_of_one_le₀ (one_le_zpow₀ one_le_two (by decide))
  have hceil : ⌈nearest 53 (-1022) tiesEven ((n : ℚ) / m)⌉ = ceilDiv n m :=
    (ceil_nearest_div roundsNear_tiesEven hn hm hbits (by decide) hsmall).trans (ceil_div_eq hm n)
  refine ⟨_, ?_, hceil⟩
  obtain ⟨hlo, hhi⟩ := Int.ceil_eq_iff.mp hceil
  have hpos : 1 ≤ ceilDiv n m := ceilDiv_pos hn hm
  have hceilLe : ceilDiv n m ≤ n := ceilDiv_le hm (Nat.le_mul_of_pos_right n hm)
  rw [Int.cast_natCast] at hlo hhi
  have hpos' : (1 : ℚ) ≤ ceilDiv n m := Nat.one_le_cast.mpr hpos
  have hlarge : ((ceilDiv n m : Nat) : ℚ) < 2 ^ 1024 :=
    calc ((ceilDiv n m : Nat) : ℚ)
        ≤ n := Nat.cast_le.mpr hceilLe
      _ < 2 ^ 53 := by exact_mod_cast hbits
      _ ≤ 2 ^ 1024 := pow_le_pow_right₀ one_le_two (by decide)
  have hm0 : (m : Int) ≠ 0 := by omega
  rw [trueDiv, if_neg hm0]
  dsimp only
  rw [Int.cast_natCast, Int.cast_natCast, if_neg]
  rw [abs_of_pos (by linarith), not_le]
  exact hhi.trans_lt hlarge

theorem fixedOverheadBytes_eq (carriesHaptic : Bool) :
    fixedOverheadBytes carriesHaptic = overheadOf carriesHaptic := by
  cases carriesHaptic <;> rfl

theorem validateHapticTier_eq (tier : QuantizationTier) :
    validateHapticTier tier = if tier = .compact then
      .error (.hapticTierViolation (violationMessage tier)) else .ok () := by
  cases tier <;> rfl

theorem maxFields_eq (budget overhead : Nat) (tier : QuantizationTier) :
    max 1 (((budget : Int) - overhead).fdiv tier.bytesPerField) =
      ((max ((budget - overhead) / tier.bytesPerField) 1 : Nat) : Int) := by
  rw [Int.fdiv_eq_ediv_of_nonneg _ (Int.natCast_nonneg _)]
  rcases le_or_gt overhead budget with hle | hlt
  · rw [← Nat.cast_sub hle, max_comm, Nat.cast_max, Int.natCast_ediv, Nat.cast_one]
  · rw [Nat.sub_eq_zero_of_le hlt.le, Nat.zero_div]
    refine max_eq_left (Int.le_of_lt_add_one (lt_trans ?_ (show (0 : Int) < 1 + 1 by decide)))
    refine Int.ediv_neg_of_neg_of_pos (by omega) ?_
    exact Int.natCast_pos.mpr tier.bytesPerField_pos

/-- The split of a number of fields that does not fit into one datagram. -/
theorem split_eq (n k : Nat) (tier : QuantizationTier) (overhead : Int) :
    ((List.range (k : Int).toNat).map fun i : Nat => DatagramPlan.of ((n : Int).fdiv k +
      if (i : Int) < (n : Int).fmod k then 1 else 0) tier overhead) =
      (parts n k).map fun fields : Nat => DatagramPlan.of fields tier overhead := by
  rw [parts, List.map_map, Int.toNat_natCast]
  refine List.map_congr_left fun i _ => congrArg (DatagramPlan.of · tier overhead) ?_
  rw [Int.fdiv_eq_ediv_of_nonneg _ (Int.natCast_nonneg k),
    Int.fmod_eq_emod_of_nonneg _ (Int.natCast_nonneg k), ← Int.natCast_mod, ← Int.natCast_ediv,
    Nat.cast_add, Nat.cast_ite, Nat.cast_one, Nat.cast_zero]
  simp only [Nat.cast_lt]

/-- What is planned once the tier is accepted. -/
theorem planned_eq (hbits : numFields < 2 ^ 53) (tier : QuantizationTier) (carriesHaptic : Bool)
    (budget : Nat) :
    (if (numFields : Int) * tier.bytesPerField + (overheadOf carriesHaptic : Int) ≤
      budget ∨ (numFields : Int) ≤ 0 then
        Except.ok [DatagramPlan.of numFields tier (overheadOf carriesHaptic)]
      else (trueDiv numFields (max 1 (((budget : Int) - overheadOf carriesHaptic).fdiv
        tier.bytesPerField))).bind fun quotient =>
          .ok ((List.range ⌈quotient⌉.toNat).map fun i : Nat =>
            .of ((numFields : Int).fdiv ⌈quotient⌉ +
              if (i : Int) < (numFields : Int).fmod ⌈quotient⌉ then 1 else 0) tier
                (overheadOf carriesHaptic))) =
      .ok ((fieldCounts numFields tier.bytesPerField (overheadOf carriesHaptic) budget).map
        fun fields : Nat => .of fields tier (overheadOf carriesHaptic)) := by
  have hsingle : (numFields : Int) * tier.bytesPerField + (overheadOf carriesHaptic : Int) ≤
      budget ∨ (numFields : Int) ≤ 0 ↔
        numFields * tier.bytesPerField + overheadOf carriesHaptic ≤ budget ∨ numFields = 0 := by
    refine or_congr (by exact_mod_cast Iff.rfl) ?_
    omega
  rw [fieldCounts]
  by_cases hone : numFields * tier.bytesPerField + overheadOf carriesHaptic ≤ budget ∨
      numFields = 0
  · rw [if_pos (hsingle.mpr hone), if_pos hone, List.map_singleton]
  · obtain ⟨hsize, hpos⟩ := not_or.mp hone
    have hm : 0 < max ((budget - overheadOf carriesHaptic) / tier.bytesPerField) 1 :=
      Nat.lt_of_lt_of_le Nat.one_pos (le_max_right _ _)
    have hle : max ((budget - overheadOf carriesHaptic) / tier.bytesPerField) 1 ≤ numFields := by
      refine max_le (Nat.div_le_of_le_mul ?_) (Nat.pos_of_ne_zero hpos)
      rw [Nat.mul_comm]
      omega
    obtain ⟨quotient, hquotient, hceil⟩ := trueDiv_eq (Nat.pos_of_ne_zero hpos) hbits hm hle
    rw [if_neg (mt hsingle.mp hone), if_neg hone, maxFields_eq, hquotient]
    change Except.ok _ = _
    rw [hceil, split_eq]

theorem planDatagrams_natCast (hbits : numFields < 2 ^ 53) (tier : QuantizationTier)
    (carriesHaptic : Bool) (budget : Nat) :
    planDatagrams numFields tier carriesHaptic budget =
      if carriesHaptic = true ∧ tier = .compact then
        .error (.hapticTierViolation (violationMessage tier))
      else .ok ((fieldCounts numFields tier.bytesPerField (overheadOf carriesHaptic) budget).map
        fun fields : Nat => .of fields tier (overheadOf carriesHaptic)) := by
  rw [← planned_eq hbits, planDatagrams, fixedOverheadBytes_eq, validateHapticTier_eq]
  cases carriesHaptic with
  | false =>
      have hfloor : ¬ (false = true ∧ tier = .compact) := fun h => Bool.false_ne_true h.1
      rw [if_neg hfloor]
      rfl
  | true =>
      by_cases htier : tier = .compact
      · have hfloor : true = true ∧ tier = .compact := ⟨rfl, htier⟩
        rw [if_pos hfloor, if_pos htier]
        rfl
      · have hfloor : ¬ (true = true ∧ tier = .compact) := fun h => htier h.2
        rw [if_neg hfloor, if_neg htier]
        rfl

end

/-- A plan of the robot's, as the simulator has it. -/
def DatagramPlan.ofPlan (p : RoboTele.DatagramPlan) : DatagramPlan where
  numFields := p.numFields.toNat
  appBytes := p.appBytes.toNat
  wireBytes := p.wireBytes.toNat

/-- The same outcome in the simulator's words. -/
def outcomeOf : Except HapticTierViolation (List RoboTele.DatagramPlan) →
    Except SizingError (List DatagramPlan)
  | .ok plans => .ok (plans.map .ofPlan)
  | .error e => .error (.hapticTierViolation (violationMessage e.tier))

theorem map_ofPlan_plansOf {numFields : UInt32} (hfits : FitsU32 numFields)
    (tier : QuantizationTier) (carriesHaptic : Bool) {counts : List Nat}
    (hsum : counts.sum = numFields.toNat) :
    (plansOf counts tier carriesHaptic).map DatagramPlan.ofPlan =
      counts.map fun fields : Nat => .of fields tier (overheadOf carriesHaptic) := by
  rw [plansOf, List.map_map]
  refine List.map_congr_left fun c hc => ?_
  have hle : c ≤ numFields.toNat := hsum ▸ List.le_sum_of_mem hc
  have hc' : (UInt32.ofNat c).toNat = c :=
    UInt32.toNat_ofNat_of_lt' (hle.trans_lt numFields.toNat_lt)
  obtain ⟨-, happ, hwire⟩ := @mem_plansOf numFields tier carriesHaptic counts hfits hsum _
    (List.mem_map_of_mem hc)
  rw [Function.comp_apply, DatagramPlan.ofPlan, hwire, happ]
  simp only [RoboTele.DatagramPlan.of, hc']
  rfl

/-- Both languages plan the same. -/
theorem planDatagrams_eq {numFields : UInt32} (hfits : FitsU32 numFields) (tier : QuantizationTier)
    (carriesHaptic : Bool) (budgetBytes : UInt32) :
    planDatagrams numFields.toNat tier carriesHaptic budgetBytes.toNat =
      outcomeOf (RoboTele.planDatagrams numFields tier carriesHaptic budgetBytes) := by
  have hbits : numFields.toNat < 2 ^ 53 := by
    rw [FitsU32] at hfits
    omega
  rw [planDatagrams_natCast hbits, RoboTele.planDatagrams_eq hfits]
  split_ifs with hfloor
  · rfl
  · rw [outcomeOf, map_ofPlan_plansOf hfits tier carriesHaptic (sum_fieldCounts ..)]

end Sim

theorem planDatagrams_eq_error_iff {numFields : UInt32} (hfits : FitsU32 numFields)
    (tier : QuantizationTier) (carriesHaptic : Bool) (budgetBytes : UInt32) :
    (∃ e, planDatagrams numFields tier carriesHaptic budgetBytes = .error e) ↔
      carriesHaptic = true ∧ tier.bytesPerField < hapticMinTier.bytesPerField := by
  have hcompact : tier.bytesPerField < hapticMinTier.bytesPerField ↔ tier = .compact := by
    cases tier <;> decide
  rw [planDatagrams_eq hfits, hcompact]
  split_ifs with hfloor
  · exact iff_of_true ⟨_, rfl⟩ hfloor
  · exact iff_of_false nofun hfloor

/-- Planning fails exactly below the floor of haptic fields, and otherwise the plans are
right and those of the simulator. -/
theorem plansAgree (numFields : UInt32) (tier : QuantizationTier) (carriesHaptic : Bool)
    (budgetBytes : UInt32) (hfits : FitsU32 numFields) :
    ((∃ e, planDatagrams numFields tier carriesHaptic budgetBytes = .error e) ↔
      carriesHaptic = true ∧ tier.bytesPerField < hapticMinTier.bytesPerField) ∧
    (∀ plans, planDatagrams numFields tier carriesHaptic budgetBytes = .ok plans →
      PlansRight numFields tier carriesHaptic budgetBytes plans) ∧
    Sim.planDatagrams numFields.toNat tier carriesHaptic budgetBytes.toNat =
      Sim.outcomeOf (planDatagrams numFields tier carriesHaptic budgetBytes) := by
  refine ⟨planDatagrams_eq_error_iff hfits tier carriesHaptic budgetBytes, ?_,
    Sim.planDatagrams_eq hfits tier carriesHaptic budgetBytes⟩
  intro plans hplans
  rw [planDatagrams_eq hfits] at hplans
  split_ifs at hplans
  obtain rfl := Except.ok.inj hplans
  exact plansRight_plansOf hfits tier carriesHaptic budgetBytes

/-- Three datagrams for fifty fields and a small budget. -/
theorem plansAgree_fiftyFields :
    ((∃ e, planDatagrams 50 .full false 120 = .error e) ↔
      false = true ∧ QuantizationTier.full.bytesPerField < hapticMinTier.bytesPerField) ∧
    (∀ plans, planDatagrams 50 .full false 120 = .ok plans →
      PlansRight 50 .full false 120 plans) ∧
    Sim.planDatagrams (50 : UInt32).toNat .full false (120 : UInt32).toNat =
      Sim.outcomeOf (planDatagrams 50 .full false 120) :=
  plansAgree 50 .full false 120 (by decide)

/-- No fields are sent in one datagram, although none would do. -/
theorem not_fewest_noFields :
    planDatagrams 0 .standard false 1200 = .ok [⟨0, 60, 113⟩] ∧
      ¬ Fewest 0 2 60 1200 [⟨0, 60, 113⟩] :=
  ⟨by decide, fun h => absurd (h [] rfl nofun) (by decide)⟩

end RoboTele
