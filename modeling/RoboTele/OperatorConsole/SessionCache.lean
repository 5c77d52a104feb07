import RoboTele.Runs.Machine
import RoboTele.Core.ProfileHash

/-!
# The profile cache of the operator console

A text file has a line `robot_id:profile_hash` for each robot that was met, and a robot whose
line is there is a cached one.  Robot ids come from the robot and are not escaped, so an id with
a newline in it writes several lines.

A hit says that this robot showed a profile of the same hash before (`earlier_of_hit`).  What
the hash says of the profile is in `RoboTele.Core.ProfileHash`.
-/

namespace RoboTele.SessionCache

open Runs Concatenation

/-! ## Lines -/

/-- `str::split_inclusive('\n')`. -/
def splitInclusive : List Char → List (List Char)
  | [] => []
  | c :: cs =>
      if c = '\n' then [c] :: splitInclusive cs
      else
        match splitInclusive cs with
        | [] => [[c]]
        | piece :: pieces => (c :: piece) :: pieces

/-- A piece without `"\n"` or `"\r\n"` at its end. -/
def stripLine (piece : List Char) : List Char :=
  if piece.getLast? = some '\n' then
    if piece.dropLast.getLast? = some '\r' then piece.dropLast.dropLast else piece.dropLast
  else piece

/-- `str::lines`. -/
def lines (text : List Char) : List (List Char) := (splitInclusive text).map stripLine

theorem splitInclusive_line {line : List Char} (h : '\n' ∉ line) (rest : List Char) :
    splitInclusive (line ++ '\n' :: rest) = (line ++ ['\n']) :: splitInclusive rest := by
  induction line with
  | nil => rfl
  | cons c line ih =>
      obtain ⟨hc, hline⟩ := not_or.mp (mt List.mem_cons.mpr h)
      rw [List.cons_append, splitInclusive, if_neg (Ne.symm hc), ih hline]
      rfl

theorem stripLine_line {line : List Char} (h : line.getLast? ≠ some '\r') :
    stripLine (line ++ ['\n']) = line := by
  rw [stripLine, if_pos List.getLast?_concat, List.dropLast_concat, if_neg h]

/-- Lines that are written one after the other are read back. -/
theorem lines_flatMap {ls : List (List Char)} (hnewline : ∀ l ∈ ls, '\n' ∉ l)
    (hreturn : ∀ l ∈ ls, l.getLast? ≠ some '\r') : lines (ls.flatMap (· ++ ['\n'])) = ls := by
  induction ls with
  | nil => rfl
  | cons l ls ih =>
      have hl := splitInclusive_line (hnewline l List.mem_cons_self) (ls.flatMap (· ++ ['\n']))
      rw [List.flatMap_cons, List.append_assoc, List.singleton_append, lines, hl, List.map_cons,
        stripLine_line (hreturn l List.mem_cons_self)]
      exact congrArg (l :: ·) (ih (fun k hk => hnewline k (List.mem_cons_of_mem l hk))
        fun k hk => hreturn k (List.mem_cons_of_mem l hk))

/-! ## Keys -/

/-- `format!("{robot_id}:{profile_hash}")`. -/
def key (robotId : String) (profileHash : UInt64) : List Char :=
  robotId.toList ++ ':' :: Nat.toDigits 10 profileHash.toNat

theorem isDigit_of_mem {n : Nat} {c : Char} (h : c ∈ Nat.toDigits 10 n) : c.isDigit :=
  Nat.isDigit_of_mem_toDigits (by decide) (by decide) h

theorem colon_notMem (n : Nat) : ':' ∉ Nat.toDigits 10 n := fun h =>
  absurd (isDigit_of_mem h) (by decide)

theorem newline_notMem_key {robotId : String} (profileHash : UInt64)
    (h : '\n' ∉ robotId.toList) : '\n' ∉ key robotId profileHash := by
  rw [key, List.mem_append, List.mem_cons]
  rintro (hid | hcolon | hdigit)
  · exact h hid
  · exact absurd hcolon (by decide)
  · exact absurd (isDigit_of_mem hdigit) (by decide)

theorem getLast?_key (robotId : String) (profileHash : UInt64) :
    (key robotId profileHash).getLast? ≠ some '\r' := by
  have hne := @Nat.toDigits_ne_nil profileHash.toNat 10
  rw [key, List.getLast?_append, List.getLast?_cons, List.getLast?_eq_some_getLast hne]
  intro h
  have hlast : (Nat.toDigits 10 profileHash.toNat).getLast hne = '\r' := Option.some.inj h
  exact absurd (isDigit_of_mem (hlast ▸ List.getLast_mem hne)) (by decide)

/-- The last colon of a key is the one before the hash. -/
theorem key_inj {robotId robotId' : String} {hash hash' : UInt64}
    (h : key robotId hash = key robotId' hash') : robotId = robotId' ∧ hash = hash' := by
  have hrev := congrArg List.reverse h
  simp only [key, List.reverse_append, List.reverse_cons, List.append_assoc,
    List.singleton_append] at hrev
  obtain ⟨hdigits, hid⟩ := append_separator_inj (mt List.mem_reverse.mp (colon_notMem _))
    (mt List.mem_reverse.mp (colon_notMem _)) hrev
  have hnumber := congrArg (Nat.ofDigitChars 10 · 0) (List.reverse_inj.mp hdigits)
  simp only [Nat.ofDigitChars_ten_toDigits] at hnumber
  exact ⟨String.toList_inj.mp (List.reverse_inj.mp hid), UInt64.toNat_inj.mp hnumber⟩

/-! ## The cache -/

/-- Whether the file was read and whether it was written. -/
structure DiskOutcome where
  read : Bool
  written : Bool

/-- Whether the robot is cached, and the file afterwards.  A file that cannot be read is empty
to the console, and an error of the write is ignored. -/
def checkAndRecordProfile (file : List Char) (disk : DiskOutcome) (robotId : String)
    (profileHash : UInt64) : Bool × List Char :=
  let existing := if disk.read then file else []
  let hit := (lines existing).any (· == key robotId profileHash)
  if hit then (true, file)
  else
    let updated :=
      if existing ≠ [] ∧ existing.getLast? ≠ some '\n' then existing ++ ['\n'] else existing
    (false, if disk.written then updated ++ key robotId profileHash ++ ['\n'] else file)

theorem checkAndRecordProfile_fst (file : List Char) (disk : DiskOutcome) (robotId : String)
    (profileHash : UInt64) :
    (checkAndRecordProfile file disk robotId profileHash).1 =
      (lines (if disk.read then file else [])).any (· == key robotId profileHash) := by
  simp only [checkAndRecordProfile]
  generalize (lines (if disk.read then file else [])).any _ = hit
  cases hit <;> rfl

/-- One SESSION_DESCRIBE: the robot, its profile, and what the disk does. -/
structure Check where
  robotId : String
  profile : RobotProfile
  disk : DiskOutcome

def Check.key (c : Check) : List Char := SessionCache.key c.robotId c.profile.profileHash

/-- The file after one more session. -/
def session (file : List Char) (c : Check) : List Char :=
  (checkAndRecordProfile file c.disk c.robotId c.profile.profileHash).2

/-- The file after these sessions, from a machine that met no robot yet. -/
def after (past : List Check) : List Char := exec session [] past

/-- The console takes the robot for a known one. -/
def hit (past : List Check) (c : Check) : Bool :=
  (checkAndRecordProfile (after past) c.disk c.robotId c.profile.profileHash).1

/-- What the file holds is the keys of sessions there were. -/
def Records (past : List Check) (file : List Char) : Prop :=
  ∃ recorded ⊆ past, file = (recorded.map Check.key).flatMap (· ++ ['\n'])

variable {past : List Check}

theorem Records.nil (past : List Check) : Records past [] := ⟨[], List.nil_subset _, rfl⟩

theorem Records.getLast? {file : List Char} (h : Records past file) (hne : file ≠ []) :
    file.getLast? = some '\n' := by
  obtain ⟨recorded, -, rfl⟩ := h
  cases recorded using List.reverseRec with
  | nil => exact absurd rfl hne
  | append_singleton recorded c _ =>
      rw [List.map_append, List.flatMap_append, List.map_singleton, List.flatMap_singleton,
        ← List.append_assoc, List.getLast?_concat]

/-- The file that is read records sessions, and so does the file that is written. -/
theorem Records.session {file : List Char} (h : Records past file) (c : Check) :
    Records (past ++ [c]) (session file c) := by
  have hmono : ∀ {f : List Char}, Records past f → Records (past ++ [c]) f := by
    rintro f ⟨recorded, hsub, rfl⟩
    exact ⟨recorded, List.subset_append_of_subset_left _ hsub, rfl⟩
  have hread : Records past (if c.disk.read then file else []) := by
    split
    · exact h
    · exact Records.nil past
  simp only [SessionCache.session, checkAndRecordProfile]
  generalize (if c.disk.read then file else []) = existing at hread ⊢
  split
  · exact hmono h
  · split
    · rw [if_neg fun hcut => hcut.2 (hread.getLast? hcut.1)]
      obtain ⟨recorded, hsub, hfile⟩ := hread
      refine ⟨recorded ++ [c], List.append_subset.mpr
        ⟨List.subset_append_of_subset_left _ hsub, List.subset_append_right _ _⟩, ?_⟩
      rw [hfile, List.map_append, List.flatMap_append, List.map_singleton, List.flatMap_singleton,
        List.append_assoc]
      rfl
    · exact hmono h

theorem records_after (past : List Check) : Records past (after past) := by
  induction past using List.reverseRec with
  | nil => exact Records.nil []
  | append_singleton past c ih =>
      rw [after, exec_concat]
      exact ih.session c

theorem lines_after (hids : ∀ c ∈ past, '\n' ∉ c.robotId.toList) :
    ∃ recorded ⊆ past, lines (after past) = recorded.map Check.key := by
  obtain ⟨recorded, hsub, hfile⟩ := records_after past
  refine ⟨recorded, hsub, ?_⟩
  rw [hfile, lines_flatMap]
  · intro l hl
    obtain ⟨c, hc, rfl⟩ := List.mem_map.mp hl
    exact newline_notMem_key _ (hids c (hsub hc))
  · intro l hl
    obtain ⟨c, -, rfl⟩ := List.mem_map.mp hl
    exact getLast?_key _ _

theorem hit_iff {c : Check} :
    hit past c = true ↔ c.disk.read = true ∧ c.key ∈ lines (after past) := by
  have hany : ∀ ls : List (List Char), ls.any (· == c.key) = true ↔ c.key ∈ ls := fun ls => by
    simp only [List.any_eq_true, beq_iff_eq, exists_eq_right]
  have hhit : hit past c = (lines (if c.disk.read then after past else [])).any (· == c.key) := by
    rw [hit, checkAndRecordProfile_fst]
    rfl
  rw [hhit, hany]
  cases c.disk.read with
  | true => simp only [if_true, true_and]
  | false => exact ⟨fun h => absurd h (List.not_mem_nil), fun h => absurd h.1 (by decide)⟩

/-- A robot that is taken for a known one showed a profile of this hash before. -/
theorem earlier_of_hit {c : Check} (hids : ∀ c ∈ past, '\n' ∉ c.robotId.toList)
    (h : hit past c = true) :
    ∃ earlier ∈ past, earlier.robotId = c.robotId ∧
      earlier.profile.profileHash = c.profile.profileHash := by
  obtain ⟨recorded, hsub, hlines⟩ := lines_after hids
  obtain ⟨-, hmem⟩ := hit_iff.mp h
  rw [hlines] at hmem
  obtain ⟨earlier, hmem, hkey⟩ := List.mem_map.mp hmem
  exact ⟨earlier, hsub hmem, key_inj hkey⟩

/-- A robot that showed a profile of this hash in the first session there was is known. -/
theorem hit_of_profileHash_eq {first second : Check} (hid : '\n' ∉ first.robotId.toList)
    (hwritten : first.disk.written = true) (hread : second.disk.read = true)
    (hrobot : first.robotId = second.robotId)
    (hhash : first.profile.profileHash = second.profile.profileHash) :
    hit [first] second = true := by
  have hfile : after [first] = [first.key].flatMap (· ++ ['\n']) := by
    rw [List.flatMap_singleton]
    simp only [after, exec_cons, exec_nil, session, checkAndRecordProfile, ite_self,
      hwritten, if_true]
    rfl
  have hkey : second.key = first.key := by rw [Check.key, Check.key, hrobot, hhash]
  have hlines : lines (after [first]) = [first.key] := by
    rw [hfile, lines_flatMap]
    · intro l hl
      obtain rfl := List.mem_singleton.mp hl
      exact newline_notMem_key _ hid
    · intro l hl
      obtain rfl := List.mem_singleton.mp hl
      exact getLast?_key _ _
  refine hit_iff.mpr ⟨hread, ?_⟩
  rw [hlines, hkey]
  exact List.mem_singleton_self _

/-- Which profiles are told apart by what is hashed of them, and what a hit says: this robot
showed a profile of the same hash, and if the two are told apart and differ, their hashed bytes
do and the hash collides. -/
theorem profileCache_exact (dofCount dofCount' : UInt16) (baseType baseType' : BaseType)
    (cuts cuts' : Cuts) (past : List Check) (c : Check) :
    ((∀ p q : RobotProfile, p.dofCount = dofCount → q.dofCount = dofCount' →
        p.baseType = baseType → q.baseType = baseType' → p.cuts = cuts → q.cuts = cuts' →
        p ≠ q → p.hashInput ≠ q.hashInput) ↔
      dofCount ≠ dofCount' ∨ baseType ≠ baseType' ∨ cuts = cuts' ∨ cuts.size ≠ cuts'.size) ∧
    ((∀ met ∈ past, '\n' ∉ met.robotId.toList) → hit past c = true →
      ∃ earlier ∈ past, earlier.robotId = c.robotId ∧
        earlier.profile.profileHash = c.profile.profileHash ∧
        (earlier.profile.ToldApart c.profile → earlier.profile ≠ c.profile →
          earlier.profile.hashInput ≠ c.profile.hashInput ∧
            fnv1a64 earlier.profile.hashInput = fnv1a64 c.profile.hashInput)) := by
  refine ⟨told_apart_iff _ _ _ _ _ _, fun hids hhit => ?_⟩
  obtain ⟨earlier, hmem, hrobot, hhash⟩ := earlier_of_hit hids hhit
  refine ⟨earlier, hmem, hrobot, hhash, fun htold hne => ⟨htold.hashInput_ne hne, ?_⟩⟩
  rwa [RobotProfile.profileHash_eq, RobotProfile.profileHash_eq] at hhash

/-! ## A changed robot that is taken for a known one -/

/-- An arm and a leg. -/
def armAndLeg : RobotProfile where
  dofCount := 0
  joints := []
  regions := [⟨0, "arm", 48, 3, false, .velocityAttitude⟩, ⟨2, "leg", 51, 3, false, .kinematic⟩]
  baseType := .quadrupedLegs

/-- The same bytes, cut after another letter. -/
def armAndEg : RobotProfile where
  dofCount := 0
  joints := []
  regions :=
    [⟨0, "arm0", 768, 0, true, .cartesianEndEffector⟩, ⟨108, "eg", 51, 3, false, .kinematic⟩]
  baseType := .quadrupedLegs

/-- Two robots with other joints, and the same hash. -/
theorem changed_robot_known : armAndLeg ≠ armAndEg ∧ armAndLeg.hashInput = armAndEg.hashInput ∧
    hit [⟨"spot", armAndLeg, ⟨true, true⟩⟩] ⟨"spot", armAndEg, ⟨true, true⟩⟩ = true := by
  have hinput : armAndLeg.hashInput = armAndEg.hashInput := by decide
  refine ⟨by decide, hinput, hit_of_profileHash_eq (by decide) rfl rfl rfl ?_⟩
  rw [RobotProfile.profileHash_eq, RobotProfile.profileHash_eq, hinput]

/-- The robot that is taken for a known one has the hash of one that was met. -/
theorem profileCache_exact_armAndEg :
    ∃ earlier ∈ [(⟨"spot", armAndLeg, ⟨true, true⟩⟩ : Check)], earlier.robotId = "spot" ∧
      earlier.profile.profileHash = armAndEg.profileHash := by
  have hhash : armAndLeg.profileHash = armAndEg.profileHash := by
    rw [RobotProfile.profileHash_eq, RobotProfile.profileHash_eq]
    exact congrArg fnv1a64 (by decide)
  obtain ⟨earlier, hmem, hrobot, hsame, -⟩ := (profileCache_exact 0 0 .quadrupedLegs
    .quadrupedLegs armAndLeg.cuts armAndEg.cuts [⟨"spot", armAndLeg, ⟨true, true⟩⟩]
    ⟨"spot", armAndEg, ⟨true, true⟩⟩).2 (by decide)
      (hit_of_profileHash_eq (by decide) rfl rfl rfl hhash)
  exact ⟨earlier, hmem, hrobot, hsame⟩

end RoboTele.SessionCache
