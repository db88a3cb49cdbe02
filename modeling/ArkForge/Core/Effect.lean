import ArkForge.Core.Digest
import ArkForge.Core.Ids

/-! # Effects

What a plan will do to a device. A byte range is exact: it carries the proof that it is not empty and
that its end is a `u64`, so there is no wildcard to declare. -/

namespace ArkForge.Core.Effect

open Cbor Digest Ids

/-! ### Byte ranges -/

structure ByteRange where
  start : UInt64
  length : UInt64
  nonEmpty : length ≠ 0
  noOverflow : start.toNat + length.toNat < 2 ^ 64
  deriving DecidableEq

inductive EffectError where
  | emptyRange
  | rangeOverflow (start length : UInt64)
  | invalidModeName (value : String)
  | invalidAgentStage (value : String)
  | unknownDataImpact (axes : List String)
  | overlappingEffects (partition : String) (first second : ByteRange)
  deriving DecidableEq

namespace ByteRange

def new (start length : UInt64) : Except EffectError ByteRange :=
  if hempty : length = 0 then .error .emptyRange
  else if hfits : start.toNat + length.toNat < 2 ^ 64 then .ok ⟨start, length, hempty, hfits⟩
  else .error (.rangeOverflow start length)

def endExclusive (r : ByteRange) : UInt64 := r.start + r.length

def containsRange (r other : ByteRange) : Bool :=
  decide (r.start ≤ other.start) && decide (other.endExclusive ≤ r.endExclusive)

def overlaps (r other : ByteRange) : Bool :=
  decide (r.start < other.endExclusive) && decide (other.start < r.endExclusive)

def toCbor (r : ByteRange) : CborValue := .textMap [
  ("start", .unsigned r.start),
  ("length", .unsigned r.length)]

theorem new_start_length (r : ByteRange) : new r.start r.length = .ok r := by
  unfold new
  rw [dif_neg r.nonEmpty, dif_pos r.noOverflow]

theorem toNat_endExclusive (r : ByteRange) :
    r.endExclusive.toNat = r.start.toNat + r.length.toNat := by
  rw [endExclusive, UInt64.toNat_add, Nat.mod_eq_of_lt r.noOverflow]

theorem start_lt_endExclusive (r : ByteRange) : r.start < r.endExclusive := by
  have hend := r.toNat_endExclusive
  have hpos : 0 < r.length.toNat := by
    have hne : r.length.toNat ≠ 0 := fun h => r.nonEmpty (UInt64.toNat_inj.mp h)
    omega
  rw [UInt64.lt_iff_toNat_lt]
  omega

/-- Two ranges that contain a third one overlap: none is empty. -/
theorem overlaps_of_contains {r r' inner : ByteRange} (h : r.containsRange inner = true)
    (h' : r'.containsRange inner = true) : r.overlaps r' = true := by
  unfold containsRange at h h'
  unfold overlaps
  have hinner := inner.start_lt_endExclusive
  simp only [Bool.and_eq_true, decide_eq_true_eq, UInt64.le_iff_toNat_le, UInt64.lt_iff_toNat_lt]
    at h h' hinner ⊢
  omega

def Has (r : ByteRange) (byte : ℕ) : Prop :=
  r.start.toNat ≤ byte ∧ byte < r.start.toNat + r.length.toNat

theorem overlaps_iff {r other : ByteRange} :
    r.overlaps other = true ↔ ∃ byte, r.Has byte ∧ other.Has byte := by
  have hr := r.start_lt_endExclusive
  have hother := other.start_lt_endExclusive
  simp only [overlaps, Has, Bool.and_eq_true, decide_eq_true_eq, UInt64.lt_iff_toNat_lt,
    toNat_endExclusive] at hr hother ⊢
  constructor
  · intro h
    exact ⟨max r.start.toNat other.start.toNat, by omega, by omega⟩
  · omega

end ByteRange

/-! ### Persistent effects -/

inductive BootMetadataField where
  | activeSlot
  | bootCount
  | updaterCommand
  | lockState
  deriving DecidableEq

def BootMetadataField.asStr : BootMetadataField → String
  | activeSlot => "activeSlot"
  | bootCount => "bootCount"
  | updaterCommand => "updaterCommand"
  | lockState => "lockState"

inductive TypedValue where
  | text (value : String)
  | integer (value : Int64)
  | bool (value : Bool)
  deriving DecidableEq

/-- An effect that survives power loss. -/
inductive PersistentEffect where
  | erasePartition (partition : PartitionId) (range : ByteRange)
  | writePartition (partition : PartitionId) (range : ByteRange) (content : Sha256Digest)
  | writeRawRegion (region : RegionId) (range : ByteRange) (content : Sha256Digest)
  | replacePartitionTable (layoutDigest : Sha256Digest)
  | changeBootMetadata (field : BootMetadataField) (expectedValue : TypedValue)
  deriving DecidableEq

namespace PersistentEffect

def partition : PersistentEffect → Option PartitionId
  | erasePartition partition _ => some partition
  | writePartition partition _ _ => some partition
  | _ => none

def range : PersistentEffect → Option ByteRange
  | erasePartition _ range => some range
  | writePartition _ range _ => some range
  | writeRawRegion _ range _ => some range
  | _ => none

end PersistentEffect

/-! ### Transient effects -/

/-- The characters of a mode name. -/
def modeChar (c : Char) : Bool := c.isLower || c.isDigit || c == '-'

/-- A device mode: at most 64 bytes of lowercase letters, digits and hyphens. -/
structure DeviceMode where
  value : String
  nonEmpty : value ≠ ""
  short : (utf8 value).length ≤ 64
  conforming : value.toList.all modeChar = true
  deriving DecidableEq

def DeviceMode.new (value : String) : Except EffectError DeviceMode :=
  if h : value ≠ "" ∧ (utf8 value).length ≤ 64 ∧ value.toList.all modeChar = true then
    .ok ⟨value, h.1, h.2.1, h.2.2⟩
  else .error (.invalidModeName value)

theorem DeviceMode.new_value (mode : DeviceMode) : new mode.value = .ok mode := by
  unfold new
  rw [dif_pos ⟨mode.nonEmpty, mode.short, mode.conforming⟩]

structure AgentStage where
  value : String
  nonEmpty : value ≠ ""
  short : (utf8 value).length ≤ 64
  deriving DecidableEq

def AgentStage.new (value : String) : Except EffectError AgentStage :=
  if h : value ≠ "" ∧ (utf8 value).length ≤ 64 then .ok ⟨value, h.1, h.2⟩
  else .error (.invalidAgentStage value)

theorem AgentStage.new_value (stage : AgentStage) : new stage.value = .ok stage := by
  unfold new
  rw [dif_pos ⟨stage.nonEmpty, stage.short⟩]

/-- A device memory region an ephemeral agent occupies. -/
structure MemoryRegion where
  baseAddress : UInt64
  length : UInt64
  deriving DecidableEq

/-- An effect that does not survive power loss but is still visible outside. -/
inductive TransientEffect where
  | enterMode (fromMode toMode : DeviceMode)
  | loadEphemeralAgent (stage : AgentStage) (memoryRegion : MemoryRegion) (content : Sha256Digest)
  | usbDetachReattach (expectationDigest : Sha256Digest)
  | reboot (targetMode : DeviceMode)
  deriving DecidableEq

/-! ### Effect sets -/

inductive DataImpactState where
  | preserved
  | overwritten
  | unknown
  deriving DecidableEq

structure DataImpact where
  userdata : DataImpactState
  calibration : DataImpactState
  nonVolatileConfig : DataImpactState
  secureStorage : DataImpactState
  deriving DecidableEq

/-- The complete declared effect of a plan. -/
structure EffectSet where
  persistent : List PersistentEffect
  transient : List TransientEffect
  dataImpact : DataImpact
  deriving DecidableEq

def EffectSet.readOnly : EffectSet :=
  ⟨[], [], ⟨.preserved, .preserved, .preserved, .preserved⟩⟩

/-! ### Executable effect sets -/

/-- The axes nothing is known about, by name. -/
def DataImpact.unknownAxes (impact : DataImpact) : List String :=
  (if impact.userdata = .unknown then ["userdata"] else []) ++
  (if impact.calibration = .unknown then ["calibration"] else []) ++
  (if impact.nonVolatileConfig = .unknown then ["nonVolatileConfig"] else []) ++
  (if impact.secureStorage = .unknown then ["secureStorage"] else [])

/-- Two effects on one partition may not overlap. -/
def checkApart (left right : PersistentEffect) : Except EffectError Unit :=
  match left.partition, right.partition, left.range, right.range with
  | some leftPartition, some rightPartition, some leftRange, some rightRange =>
    if leftPartition = rightPartition ∧ leftRange.overlaps rightRange = true then
      .error (.overlappingEffects leftPartition.value leftRange rightRange)
    else .ok ()
  | _, _, _, _ => .ok ()

/-- The loop over the pairs of effects. -/
def checkPairs : List PersistentEffect → Except EffectError Unit
  | [] => .ok ()
  | left :: rest => do
    rest.forM (checkApart left)
    checkPairs rest

/-- Refuses the effect sets that cannot form an executable plan. -/
def EffectSet.validateExecutable (effects : EffectSet) : Except EffectError Unit :=
  if effects.dataImpact.unknownAxes ≠ [] then
    .error (.unknownDataImpact effects.dataImpact.unknownAxes)
  else checkPairs effects.persistent

/-! ### Bytes that are written twice -/

def PersistentEffect.region : PersistentEffect → Option RegionId
  | writeRawRegion region _ _ => some region
  | _ => none

/-- The ranges of the effects count the same bytes: one partition, one raw region, or one of each. -/
def Comparable (left right : PersistentEffect) : Prop :=
  left.partition.isSome ∧ left.partition = right.partition ∨
    left.region.isSome ∧ (left.region = right.region ∨ right.partition.isSome) ∨
    right.region.isSome ∧ left.partition.isSome

/-- No byte is in the ranges of both. -/
def WritesApart (left right : PersistentEffect) : Prop :=
  Comparable left right → ∀ a b, left.range = some a → right.range = some b →
    ¬ ∃ byte, a.Has byte ∧ b.Has byte

theorem writesApart_of_checkApart {left right : PersistentEffect} (h : checkApart left right = .ok ())
    (hpartition : left.region = none ∧ right.region = none) : WritesApart left right := by
  intro hshared a b ha hb hbyte
  obtain ⟨p, hp⟩ : ∃ p, left.partition = some p ∧ right.partition = some p := by
    rcases hshared with ⟨hsome, heq⟩ | ⟨hraw, -⟩ | ⟨hraw, -⟩
    · obtain ⟨p, hp⟩ := Option.isSome_iff_exists.mp hsome
      exact ⟨p, hp, heq ▸ hp⟩
    · simp [hpartition.1] at hraw
    · simp [hpartition.2] at hraw
  simp [checkApart, hp, ha, hb, ByteRange.overlaps_iff.mpr hbyte] at h

theorem checkPairs_eq_ok : ∀ {effects : List PersistentEffect}, checkPairs effects = .ok () →
    effects.Pairwise fun left right => checkApart left right = .ok ()
  | [], _ => .nil
  | left :: rest, h => by
    obtain ⟨_, hleft, hrest⟩ := Lib.Result.bind_eq_ok.mp h
    refine .cons ?_ (checkPairs_eq_ok hrest)
    clear h hrest
    induction rest with
    | nil => exact List.forall_mem_nil _
    | cons right rest ih =>
      obtain ⟨_, hright, hrest⟩ := Lib.Result.bind_eq_ok.mp hleft
      exact List.forall_mem_cons.mpr ⟨hright, ih hrest⟩

/-- **An executable effect set writes a byte twice only through raw regions**, which the loop over the
pairs passes over. -/
theorem executable_writes_once_iff {effects : EffectSet} (h : effects.validateExecutable = .ok ()) :
    effects.persistent.Pairwise WritesApart ↔ effects.persistent.Pairwise fun left right =>
      left.region.isSome ∨ right.region.isSome → WritesApart left right := by
  constructor
  · intro hall
    refine hall.imp ?_
    intro _ _ hapart _
    exact hapart
  intro hraw
  unfold EffectSet.validateExecutable at h
  split_ifs at h
  refine (hraw.and (checkPairs_eq_ok h)).imp ?_
  rintro left right ⟨hraw, hchecked⟩
  by_cases hregion : left.region.isSome ∨ right.region.isSome
  · exact hraw hregion
  · exact writesApart_of_checkApart hchecked (by simpa using hregion)

/-- Two writes of the same bytes of one raw region. -/
def rawTwice : EffectSet :=
  let write := PersistentEffect.writeRawRegion ⟨"uboot", by decide⟩ ⟨0, 512, by decide, by decide⟩
    ⟨List.replicate 32 9, rfl⟩
  { EffectSet.readOnly with persistent := [write, write] }

theorem executable_writes_once_iff_raw : rawTwice.validateExecutable = .ok () ∧
    (rawTwice.persistent.Pairwise WritesApart ↔ rawTwice.persistent.Pairwise fun left right =>
      left.region.isSome ∨ right.region.isSome → WritesApart left right) :=
  ⟨by decide, executable_writes_once_iff (by decide)⟩

/-- They are accepted. -/
theorem raw_region_written_twice :
    rawTwice.validateExecutable = .ok () ∧ ¬ rawTwice.persistent.Pairwise WritesApart := by
  refine ⟨by decide, fun h => ?_⟩
  exact (List.rel_of_pairwise_cons h List.mem_cons_self) (.inr (.inl ⟨rfl, .inl rfl⟩)) _ _ rfl rfl
    ⟨0, ⟨by decide, by decide⟩, ⟨by decide, by decide⟩⟩

end ArkForge.Core.Effect
