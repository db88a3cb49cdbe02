import ArkForge.Core.Envelope
import ArkForge.Core.Verification

/-! # Device profiles

The device facts a plan is built against. A profile is accepted when its targets are told apart, none
of them is protected, and their write order ascends with their offsets. A fact nobody has measured is
no error of the schema; it keeps the profile from backing an executable plan. -/

namespace ArkForge.Core.Profile

open Lib.Result Lib.KeySort
open Cbor Digest Ids Effect
open Plan Projection Envelope Verification

def SCHEMA_VERSION : String := "arkforge.device-profile/v1"

/-! ### The declarations -/

structure SocIdentity where
  vendor : OpaqueId
  family : OpaqueId

def SocIdentity.toCbor (s : SocIdentity) : CborValue := .textMap [
  ("vendor", s.vendor.toCbor),
  ("family", s.family.toCbor)]

inductive HardwareRevisionPolicy where
  | allow (revisions : List String)
  | anyRevision (evidenceRef : OpaqueId)

def HardwareRevisionPolicy.toCbor : HardwareRevisionPolicy → CborValue
  | allow revisions => .textMap [("allow", .array (revisions.map .text))]
  | anyRevision evidenceRef => .textMap [("anyRevisionEvidence", evidenceRef.toCbor)]

structure ProviderCombination where
  providerId : OpaqueId
  backend : OpaqueId
  minimumVersion : Version
  maximumVersionExclusive : Version

def ProviderCombination.toCbor (p : ProviderCombination) : CborValue := .textMap [
  ("providerId", p.providerId.toCbor),
  ("backend", p.backend.toCbor),
  ("minimumVersion", p.minimumVersion.toCbor),
  ("maximumVersionExclusive", p.maximumVersionExclusive.toCbor)]

structure UsbModeIdentity where
  mode : DeviceMode
  vendorId : UInt16
  productId : UInt16
  evidenceRef : OpaqueId

def UsbModeIdentity.toCbor (i : UsbModeIdentity) : CborValue := .textMap [
  ("mode", modeCbor i.mode),
  ("vendorId", .unsigned i.vendorId.toUInt64),
  ("productId", .unsigned i.productId.toUInt64),
  ("evidenceRef", i.evidenceRef.toCbor)]

structure ModeDeclaration where
  id : DeviceMode
  aliases : List DeviceMode

namespace ModeDeclaration

def «matches» (d : ModeDeclaration) (observed : DeviceMode) : Bool :=
  decide (d.id = observed) || decide (observed ∈ d.aliases)

def toCbor (d : ModeDeclaration) : CborValue := .textMap [
  ("id", modeCbor d.id),
  ("aliases", .array (d.aliases.map modeCbor))]

end ModeDeclaration

/-- How much transient noise a rebind may show before it is a failure. -/
structure RebindTolerance where
  requireDisconnect : Bool
  toleranceWindowMs : UInt64
  tolerateTransientMalformed : Bool

def RebindTolerance.toCbor (r : RebindTolerance) : CborValue := .textMap [
  ("requireDisconnect", .bool r.requireDisconnect),
  ("toleranceWindowMs", .unsigned r.toleranceWindowMs),
  ("tolerateTransientMalformed", .bool r.tolerateTransientMalformed)]

/-- Whether an identity field survives a transition. -/
inductive IdentityFieldPolicy where
  | mustMatch
  | mayChange

def IdentityFieldPolicy.asStr : IdentityFieldPolicy → String
  | mustMatch => "must-match"
  | mayChange => "may-change"

structure ModeTransition where
  fromMode : DeviceMode
  toMode : DeviceMode
  action : OpaqueId
  rebind : RebindTolerance
  serialPolicy : IdentityFieldPolicy
  topologyPolicy : IdentityFieldPolicy

def ModeTransition.toCbor (t : ModeTransition) : CborValue := .textMap [
  ("from", modeCbor t.fromMode),
  ("to", modeCbor t.toMode),
  ("action", t.action.toCbor),
  ("rebind", t.rebind.toCbor),
  ("serialPolicy", .text t.serialPolicy.asStr),
  ("topologyPolicy", .text t.topologyPolicy.asStr)]

/-- The medium. Its block size may not have been measured. -/
structure StorageDeclaration where
  kind : OpaqueId
  logicalBlockSize : Option UInt32

def StorageDeclaration.toCbor (s : StorageDeclaration) : CborValue := .textMap [
  ("kind", s.kind.toCbor),
  ("logicalBlockSize", orNull (fun size => .unsigned size.toUInt64) s.logicalBlockSize)]

inductive ReadDomainDeclaration where
  | full
  | characterizeAtRuntime
  deriving DecidableEq

def ReadDomainDeclaration.asStr : ReadDomainDeclaration → String
  | full => "full"
  | characterizeAtRuntime => "characterize-at-runtime"

inductive WriteDomainDeclaration where
  | fullDisk
  | characterizeAtRuntime

def WriteDomainDeclaration.asStr : WriteDomainDeclaration → String
  | fullDisk => "full-disk"
  | characterizeAtRuntime => "characterize-at-runtime"

/-- How far each face of the medium reaches. -/
structure ReadDomainPolicy where
  write : WriteDomainDeclaration
  read : ReadDomainDeclaration
  erasedMediumFiller : Option UInt8

def ReadDomainPolicy.toCbor (r : ReadDomainPolicy) : CborValue := .textMap [
  ("write", .text r.write.asStr),
  ("read", .text r.read.asStr),
  ("erasedMediumFiller", orNull (fun byte => .unsigned byte.toUInt64) r.erasedMediumFiller)]

/-- The evidence that carries a target when readback cannot. -/
structure VerificationFallback where
  writeCompletionSemantics : Bool
  buildPostflight : Bool

def VerificationFallback.toCbor (f : VerificationFallback) : CborValue := .textMap [
  ("writeCompletionSemantics", .bool f.writeCompletionSemantics),
  ("buildPostflight", .bool f.buildPostflight)]

structure TargetVerificationDeclaration where
  maxStrengthWhenReadable : VerificationStrength
  fallback : VerificationFallback

def TargetVerificationDeclaration.toCbor (v : TargetVerificationDeclaration) : CborValue := .textMap [
  ("maxStrengthWhenReadable", .text v.maxStrengthWhenReadable.asStr),
  ("fallback", v.fallback.toCbor)]

/-- A target the profile permits writing. -/
structure AllowedTarget where
  partition : PartitionId
  writeOrder : UInt32
  offsetSectors : UInt64
  sourceMember : Option String
  verification : TargetVerificationDeclaration

def AllowedTarget.toCbor (t : AllowedTarget) : CborValue := .textMap [
  ("partition", t.partition.toCbor),
  ("writeOrder", .unsigned t.writeOrder.toUInt64),
  ("offsetSectors", .unsigned t.offsetSectors),
  ("sourceMember", orNull .text t.sourceMember),
  ("verification", t.verification.toCbor)]

structure RecoveryDeclaration where
  supportsCompleteOverwrite : Bool
  version : Version
  coveredEffects : List OpaqueId
  unsupportedStates : List String

def RecoveryDeclaration.toCbor (r : RecoveryDeclaration) : CborValue := .textMap [
  ("supportsCompleteOverwrite", .bool r.supportsCompleteOverwrite),
  ("version", r.version.toCbor),
  ("coveredEffects", .array (r.coveredEffects.map (·.toCbor))),
  ("unsupportedStates", .array (r.unsupportedStates.map .text))]

structure DeviceProfile where
  schemaVersion : String
  id : OpaqueId
  version : Version
  productModels : List String
  soc : SocIdentity
  hardwareRevisions : HardwareRevisionPolicy
  providers : List ProviderCombination
  artifactFormats : List OpaqueId
  knownMetadataMembers : List String
  modes : List ModeDeclaration
  usbIdentities : List UsbModeIdentity
  modeTransitions : List ModeTransition
  storage : StorageDeclaration
  readDomain : ReadDomainPolicy
  allowedTargets : List AllowedTarget
  protectedTargets : List PartitionId
  dataImpact : DataImpact
  recovery : RecoveryDeclaration
  evidenceRefs : List OpaqueId

/-! ### What is wrong with a profile -/

inductive ProfileError where
  | unknownSchemaVersion (version : String)
  | zeroBlockSize
  | wildcardHardwareRevision
  | targetBothAllowedAndProtected (target : String)
  | duplicateAllowedTarget (target : String)
  | writeOrderNotContiguous (target : String)
  | writeOrderNotAscendingByOffset (target : String)
  | verificationWithoutFallback (target : String)
  | undeclaredMode (mode : String)
  | zeroRebindTolerance (fromMode toMode : String)
  | ambiguousModeAlias (name first second : String)
  | ambiguousUsbIdentity (vendorId productId : UInt16) (first second : String)
  | recoveryWithoutCoverage
  deriving DecidableEq

/-- The first complaint about an element of the list. -/
def checkAll {α : Type} (l : List α) (complaint : α → Option ProfileError) :
    Except ProfileError Unit :=
  match l.findSome? complaint with
  | some error => .error error
  | none => .ok ()

theorem checkAll_eq_ok {α : Type} {l : List α} {complaint : α → Option ProfileError} :
    checkAll l complaint = .ok () ↔ ∀ a ∈ l, complaint a = none := by
  rw [← List.findSome?_eq_none_iff]
  unfold checkAll
  split
  · rename_i error h
    simp [h]
  · rename_i h
    simp [h]

/-- A wildcard is a claim about untested hardware. -/
def checkRevisions : HardwareRevisionPolicy → Except ProfileError Unit
  | .allow revisions => if "*" ∈ revisions then .error .wildcardHardwareRevision else .ok ()
  | .anyRevision _ => .ok ()

def checkDistinct (targets : List AllowedTarget) : Except ProfileError Unit :=
  match firstRepeat [] (targets.map (·.partition)) with
  | some partition => .error (.duplicateAllowedTarget partition.value)
  | none => .ok ()

/-- The targets in their write order: contiguous from 1, and ascending by offset. -/
def checkWriteOrder : ℕ → Option AllowedTarget → List AllowedTarget → Except ProfileError Unit
  | _, _, [] => .ok ()
  | index, previous, target :: rest =>
    if target.writeOrder.toNat ≠ index + 1 then
      .error (.writeOrderNotContiguous target.partition.value)
    else if previous.any fun before => decide (target.offsetSectors ≤ before.offsetSectors) then
      .error (.writeOrderNotAscendingByOffset target.partition.value)
    else checkWriteOrder (index + 1) (some target) rest

/-- The names of one mode, against the names that have an owner already. -/
def claimNames (owner : DeviceMode) :
    List (DeviceMode × DeviceMode) → List DeviceMode →
      Except ProfileError (List (DeviceMode × DeviceMode))
  | owners, [] => .ok owners
  | owners, name :: names =>
    match owners.find? fun o => o.1 = name with
    | some (_, first) => .error (.ambiguousModeAlias name.value first.value owner.value)
    | none => claimNames owner (owners ++ [(name, owner)]) names

/-- One name may not belong to two modes. -/
def checkAliases : List (DeviceMode × DeviceMode) → List ModeDeclaration → Except ProfileError Unit
  | _, [] => .ok ()
  | owners, declaration :: rest => do
    let owners ← claimNames declaration.id owners (declaration.id :: declaration.aliases)
    checkAliases owners rest

/-- No two identities indicate different modes. -/
def checkIdentities : List UsbModeIdentity → Except ProfileError Unit
  | [] => .ok ()
  | identity :: rest => do
    checkAll rest fun other =>
      if identity.vendorId = other.vendorId ∧ identity.productId = other.productId ∧
          identity.mode ≠ other.mode then
        some (.ambiguousUsbIdentity identity.vendorId identity.productId identity.mode.value
          other.mode.value)
      else none
    checkIdentities rest

namespace DeviceProfile

def toCbor (p : DeviceProfile) : CborValue := .textMap [
  ("schemaVersion", .text p.schemaVersion),
  ("id", p.id.toCbor),
  ("version", p.version.toCbor),
  ("productModels", .array (p.productModels.map .text)),
  ("soc", p.soc.toCbor),
  ("hardwareRevisions", p.hardwareRevisions.toCbor),
  ("providers", .array (p.providers.map (·.toCbor))),
  ("artifactFormats", .array (p.artifactFormats.map (·.toCbor))),
  ("knownMetadataMembers", .array (p.knownMetadataMembers.map .text)),
  ("modes", .array (p.modes.map (·.toCbor))),
  ("usbIdentities", .array (p.usbIdentities.map (·.toCbor))),
  ("modeTransitions", .array (p.modeTransitions.map (·.toCbor))),
  ("storage", p.storage.toCbor),
  ("readDomain", p.readDomain.toCbor),
  ("allowedTargets", .array (p.allowedTargets.map (·.toCbor))),
  ("protectedTargets", .array (p.protectedTargets.map (·.toCbor))),
  ("dataImpact", dataImpactCbor p.dataImpact),
  ("recovery", p.recovery.toCbor),
  ("evidenceRefs", .array (p.evidenceRefs.map (·.toCbor)))]

def digest (p : DeviceProfile) : Except CborError Sha256Digest :=
  digestCanonical .deviceProfile p.toCbor

def identity (p : DeviceProfile) : Except CborError DeviceProfileIdentity := do
  return { id := p.id, version := p.version, digest := ← p.digest }

def allowedTarget (p : DeviceProfile) (partition : PartitionId) : Option AllowedTarget :=
  p.allowedTargets.find? fun target => target.partition = partition

def mode (p : DeviceProfile) (observed : DeviceMode) : Option ModeDeclaration :=
  p.modes.find? fun declared => declared.matches observed

def writeOrdered (p : DeviceProfile) : List AllowedTarget :=
  sortByKey (fun target => target.writeOrder.toNat) p.allowedTargets

def transitionComplaint (p : DeviceProfile) (t : ModeTransition) : Option ProfileError :=
  match [t.fromMode, t.toMode].find? fun mode => p.mode mode = none with
  | some mode => some (.undeclaredMode mode.value)
  | none =>
    if t.rebind.toleranceWindowMs = 0 then
      some (.zeroRebindTolerance t.fromMode.value t.toMode.value)
    else none

/-- The invariants of a well-formed profile. -/
def validate (p : DeviceProfile) : Except ProfileError Unit :=
  if p.schemaVersion ≠ SCHEMA_VERSION then .error (.unknownSchemaVersion p.schemaVersion)
  else if p.storage.logicalBlockSize = some 0 then .error .zeroBlockSize
  else do
    checkRevisions p.hardwareRevisions
    checkAll p.allowedTargets fun target =>
      if target.partition ∈ p.protectedTargets then
        some (.targetBothAllowedAndProtected target.partition.value)
      else none
    checkDistinct p.allowedTargets
    checkWriteOrder 0 none p.writeOrdered
    checkAll p.allowedTargets fun target =>
      if p.readDomain.read = .characterizeAtRuntime ∧
          target.verification.fallback.writeCompletionSemantics = false ∧
          target.verification.fallback.buildPostflight = false then
        some (.verificationWithoutFallback target.partition.value)
      else none
    checkAll p.modeTransitions p.transitionComplaint
    checkAll p.usbIdentities fun identity =>
      if p.mode identity.mode = none then some (.undeclaredMode identity.mode.value) else none
    checkIdentities p.usbIdentities
    checkAliases [] p.modes
    if p.recovery.supportsCompleteOverwrite = true ∧ p.recovery.coveredEffects = [] then
      .error .recoveryWithoutCoverage
    else .ok ()

end DeviceProfile

/-! ### What acceptance says -/

/-- What the rest of the development needs to know of a profile that was accepted. -/
structure Accepted (p : DeviceProfile) : Prop where
  unprotected : ∀ target ∈ p.allowedTargets, target.partition ∉ p.protectedTargets
  distinct : (p.allowedTargets.map (·.partition)).Nodup

theorem accepted_of_validate {p : DeviceProfile} (h : p.validate = .ok ()) : Accepted p := by
  obtain ⟨-, h⟩ := guard_eq_ok.mp h
  obtain ⟨-, h⟩ := guard_eq_ok.mp h
  obtain ⟨_, -, h⟩ := bind_eq_ok.mp h
  obtain ⟨_, hprotected, h⟩ := bind_eq_ok.mp h
  obtain ⟨_, hrepeat, -⟩ := bind_eq_ok.mp h
  refine ⟨fun target htarget => ?_, ?_⟩
  · have hnone := checkAll_eq_ok.mp hprotected target htarget
    by_contra hmem
    rw [if_pos hmem] at hnone
    cases hnone
  · refine firstRepeat_nil_eq_none.mp ?_
    unfold checkDistinct at hrepeat
    split at hrepeat
    · cases hrepeat
    · assumption

theorem mem_writeOrdered {p : DeviceProfile} {target : AllowedTarget} :
    target ∈ p.writeOrdered ↔ target ∈ p.allowedTargets := mem_sortByKey

/-! ### A board -/

theorem conforming_board : Conforming "board" := by decide

def boardId : OpaqueId := ⟨"board", conforming_board⟩

theorem conforming_system : Conforming "system" := by decide

def systemId : OpaqueId := ⟨"system", conforming_system⟩

theorem conforming_images : Conforming "rockchip-images-targz" := by decide

def imagesId : OpaqueId := ⟨"rockchip-images-targz", conforming_images⟩

theorem normal_nonEmpty : "hdc-normal" ≠ "" := by decide

theorem normal_short : (utf8 "hdc-normal").length ≤ 64 := by decide

theorem normal_conforming : "hdc-normal".toList.all modeChar = true := by decide

def normalMode : DeviceMode := ⟨"hdc-normal", normal_nonEmpty, normal_short, normal_conforming⟩

theorem loader_nonEmpty : "rockusb-loader" ≠ "" := by decide

theorem loader_short : (utf8 "rockusb-loader").length ≤ 64 := by decide

theorem loader_conforming : "rockusb-loader".toList.all modeChar = true := by decide

def loaderMode : DeviceMode := ⟨"rockusb-loader", loader_nonEmpty, loader_short, loader_conforming⟩

/-- A target that is written from the member of its name. -/
def boardTarget (partition : PartitionId) (writeOrder : UInt32) (offsetSectors : UInt64) :
    AllowedTarget where
  partition := partition
  writeOrder := writeOrder
  offsetSectors := offsetSectors
  sourceMember := some (partition.value ++ ".img")
  verification := ⟨.fullHash, ⟨true, true⟩⟩

/-- A board that is flashed through the loader, every fact of it measured. -/
def boardProfile (blockSize : UInt32) (targets : List AllowedTarget)
    (protectedTargets : List PartitionId) : DeviceProfile where
  schemaVersion := SCHEMA_VERSION
  id := boardId
  version := ⟨1, 0, 0⟩
  productModels := []
  soc := ⟨boardId, boardId⟩
  hardwareRevisions := .anyRevision boardId
  providers := []
  artifactFormats := [imagesId]
  knownMetadataMembers := []
  modes := [⟨normalMode, []⟩, ⟨loaderMode, []⟩]
  usbIdentities := []
  modeTransitions := [⟨normalMode, loaderMode, boardId, ⟨true, 1, true⟩, .mustMatch, .mustMatch⟩]
  storage := ⟨boardId, some blockSize⟩
  readDomain := ⟨.fullDisk, .full, some 0xCC⟩
  allowedTargets := targets
  protectedTargets := protectedTargets
  dataImpact := ⟨.overwritten, .preserved, .preserved, .preserved⟩
  recovery := ⟨false, ⟨1, 0, 0⟩, [], []⟩
  evidenceRefs := []

end ArkForge.Core.Profile
