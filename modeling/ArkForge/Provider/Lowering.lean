import ArkForge.Provider.Execute

/-! # Lowering a request to a plan

The provider turns a request into the steps of a plan. It enters the loader unless the device is in
it, probes it, has the partition table validated, writes every target in the order of the profile,
reads every target back, reboots and looks at the build. Each step gets the next number, and the
private actions that implement it are stored beside it. -/

namespace ArkForge.Provider.Lowering

open Lib.Numerals Lib.KeySort
open Core.Cbor Core.Digest Core.Ids Core.Effect
open Core.FlashStep Core.Projection Core.Plan Core.Envelope
open Core.Profile Authority.Permit
open Artifact.Manifest
open Actions Execute

/-! ### Requests -/

inductive FlashIntent where
  | fullRestore
  | restoreRamdisk
  deriving DecidableEq

structure HostPlatform where
  os : OpaqueId
  arch : OpaqueId

/-- What a probe learned about the device, as far as lowering reads it. -/
structure ProviderProbe where
  observedMode : DeviceMode

structure MaterializeRequest where
  planId : PlanId
  executionPurpose : ExecutionPurpose
  intent : FlashIntent
  artifact : ArtifactManifest
  artifactId : OpaqueId
  profile : DeviceProfile
  probe : ProviderProbe
  authorityBinding : AuthorityBindingRef
  authoritySupport : AuthoritySupportBinding
  toolchain : ToolchainIdentity
  hostPlatform : HostPlatform
  driverFactsDigest : Sha256Digest
  evidenceSetDigest : Sha256Digest
  createdAtEpochMs : UInt64
  planLifetimeMs : UInt64

/-- Why the provider makes no plan, told apart as the messages of the source are. -/
inductive ProviderError where
  | restoreRamdiskUnsupported
  | noSourceMember (target : PartitionId)
  | noSuchMember (member : String) (target : PartitionId)
  | blockSizeUndeclared (profile : OpaqueId)
  | offsetOverflows (target : PartitionId)
  | effect (error : EffectError)
  | cbor (error : CborError)
  | projection (error : ProjectionError)
  | plan (error : PlanError)
  | undecodable (reason : ActionUndecodable)
  | reconcileActionNotReadOnly (actionId : ActionId) (effectClass : WorkflowEffect)

/-- A provider answers, refuses or panics. -/
abbrev Provides (α : Type) := Except (Halt ProviderError) α

def refuse {α : Type} (error : ProviderError) : Provides α := .error (.error error)

/-- An `expect` on an option. -/
def expected {α : Type} : Option α → Provides α
  | some a => .ok a
  | none => .error .panic

/-- The state of the authority lets a plan run. -/
def permitsExecution : AuthoritySupportState → Bool
  | .productionVerified | .hardwareCampaign _ => true
  | .hardwareGated _ => false

/-! ### Steps before they are numbered -/

def LOADER_MODE : String := "rockusb-loader"

def NORMAL_MODE : String := "hdc-normal"

def mode (name : String) : Provides DeviceMode :=
  (DeviceMode.new name).mapError fun error => .error (.effect error)

/-- A public step and its primary action, without their identifiers. -/
structure Draft where
  kind : FlashStepKind
  effect : WorkflowEffect
  cancellation : CancellationPolicy
  binding : BindingRequirement
  semanticTarget : SemanticTarget
  /-- Of the step and of the action. -/
  contentDigest : Option Sha256Digest
  expectedModeBefore : DeviceMode
  expectedModeAfter : DeviceMode
  effectClass : WorkflowEffect
  declaredTarget : Option SemanticTarget
  declaredRange : Option ByteRange
  body : CborValue
  /-- The body of the read-only action in front of the primary one. -/
  subAction : Option CborValue

/-- Enters the loader through the managed control port. The registry of the authority has this as a
mutation of the device, so it is declared as one. -/
def ensureMode (normal loader : DeviceMode) : Draft where
  kind := .ensureMode
  effect := .mutating
  cancellation := .cancellableAtBoundary
  binding := .exactBoundTargetWithModeLineage
  semanticTarget := .device
  contentDigest := none
  expectedModeBefore := normal
  expectedModeAfter := loader
  effectClass := .transient
  declaredTarget := none
  declaredRange := none
  body := .textMap [
    ("action", .text "enter-loader"),
    ("via", .text "managed-device-control-port"),
    ("controlAction", .text "enter-updater")]
  subAction := none

/-- Probes the loader for its exact identity. -/
def probeDevice (loader : DeviceMode) : Draft where
  kind := .probeDevice
  effect := .readOnly
  cancellation := .cancellableImmediately
  binding := .exactBoundTargetWithModeLineage
  semanticTarget := .device
  contentDigest := none
  expectedModeBefore := loader
  expectedModeAfter := loader
  effectClass := .readOnly
  declaredTarget := none
  declaredRange := none
  body := .textMap [("action", .text "probe-loader")]
  subAction := none

/-- Validates that the device's own table is the one the plan assumes. -/
def validateLayout (loader : DeviceMode) (layoutDigest : Sha256Digest) : Draft where
  kind := .validateLayout
  effect := .readOnly
  cancellation := .cancellableImmediately
  binding := .exactBoundTarget
  semanticTarget := .device
  contentDigest := none
  expectedModeBefore := loader
  expectedModeAfter := loader
  effectClass := .readOnly
  declaredTarget := none
  declaredRange := none
  body := .textMap [
    ("action", .text "validate-partition-table"),
    ("expectedLayoutDigest", .bytes layoutDigest.bytes)]
  subAction := none

/-- A target with the member that is written to it, and where. -/
structure ResolvedTarget where
  target : AllowedTarget
  memberName : String
  member : ArchiveMemberFact
  range : ByteRange

/-- Writes a target. A write is not interrupted once it runs. -/
def writeTarget (loader : DeviceMode) (r : ResolvedTarget) : Draft where
  kind := .writeTarget
  effect := .destructive
  cancellation := .nonInterruptible
  binding := .exactBoundTargetWithModeLineage
  semanticTarget := .partition r.target.partition
  contentDigest := some r.member.sha256
  expectedModeBefore := loader
  expectedModeAfter := loader
  effectClass := .destructive
  declaredTarget := some (.partition r.target.partition)
  declaredRange := some r.range
  body := .textMap [
    ("action", .text "write-partition"),
    ("partition", .text r.target.partition.value),
    ("beginSector", .unsigned r.target.offsetSectors),
    ("member", .text r.memberName)]
  subAction := none

/-- Characterizes the read face, then reads a target back. -/
def verifyTarget (profile : DeviceProfile) (loader : DeviceMode) (r : ResolvedTarget) : Draft where
  kind := .verifyTarget
  effect := .readOnly
  cancellation := .cancellableImmediately
  binding := .exactBoundTargetWithModeLineage
  semanticTarget := .partition r.target.partition
  contentDigest := some r.member.sha256
  expectedModeBefore := loader
  expectedModeAfter := loader
  effectClass := .readOnly
  declaredTarget := some (.partition r.target.partition)
  declaredRange := some r.range
  body := .textMap [
    ("action", .text "readback-partition"),
    ("partition", .text r.target.partition.value),
    ("beginSector", .unsigned r.target.offsetSectors),
    ("maxStrengthWhenReadable", .text r.target.verification.maxStrengthWhenReadable.asStr),
    ("erasedMediumFiller", orNull (fun byte : UInt8 => .unsigned byte.toUInt64)
      profile.readDomain.erasedMediumFiller)]
  subAction := some (.textMap [
    ("action", .text "characterize-read-domain"),
    ("probe", .text "primary-and-backup-gpt"),
    ("policy", .text profile.readDomain.read.asStr)])

def reboot (loader normal : DeviceMode) : Draft where
  kind := .reboot
  effect := .mutating
  cancellation := .cancellableAtBoundary
  binding := .exactBoundTargetWithModeLineage
  semanticTarget := .device
  contentDigest := none
  expectedModeBefore := loader
  expectedModeAfter := normal
  effectClass := .transient
  declaredTarget := none
  declaredRange := none
  body := .textMap [("action", .text "reset-device")]
  subAction := none

/-- Confirms the build through the managed control port. -/
def postflightProbe (normal : DeviceMode) (buildFacts : List (OpaqueId × String)) : Draft where
  kind := .postflightProbe
  effect := .readOnly
  cancellation := .cancellableImmediately
  binding := .exactBoundTargetWithModeLineage
  semanticTarget := .device
  contentDigest := none
  expectedModeBefore := normal
  expectedModeAfter := normal
  effectClass := .readOnly
  declaredTarget := none
  declaredRange := none
  body := .textMap [
    ("action", .text "verify-hdc-postflight"),
    ("via", .text "managed-device-control-port"),
    ("controlAction", .text "read-build-facts"),
    ("expect", .map (buildFacts.map fun fact => (fact.1.toCbor, .text fact.2)))]
  subAction := none

/-! ### Numbering -/

/-- The steps and actions so far. -/
structure Building where
  publicSteps : List PlanStep
  actions : List PrivateActionRecord
  sequence : ℕ

def generatedId (pre : String) (sequence : ℕ) : Provides OpaqueId :=
  (OpaqueId.new (pre ++ "-" ++ zeroPadded 3 sequence)).mapError fun _ => .panic

/-- The number, the step and the action identifier of the next position. -/
def nextIds (sequence : ℕ) (pre : String) : Provides (ℕ × StepId × ActionId) :=
  if sequence + 1 < 2 ^ 32 then do
    let stepId ← generatedId "STEP" (sequence + 1)
    let actionId ← generatedId pre (sequence + 1)
    return (sequence + 1, stepId, actionId)
  else .error .panic

def digestOf (action : PrivateActionRecord) : Provides Sha256Digest :=
  action.digest.mapError fun error => .error (.cbor error)

namespace Draft

def primary (d : Draft) (stepId : StepId) (actionId : ActionId) : PrivateActionRecord where
  actionId
  stepId
  role := .primaryEffect
  effectClass := d.effectClass
  declaredTarget := d.declaredTarget
  declaredRange := d.declaredRange
  contentDigest := d.contentDigest
  body := d.body

/-- The action in front of the primary one. -/
def sub (stepId : StepId) (actionId : ActionId) (body : CborValue) : PrivateActionRecord where
  actionId
  stepId
  role := .readOnlyTransportSubAction
  effectClass := .readOnly
  declaredTarget := none
  declaredRange := none
  contentDigest := none
  body

def subs (d : Draft) (stepId : StepId) (sequence : ℕ) : Provides (List PrivateActionRecord) :=
  match d.subAction with
  | none => .ok []
  | some body => do
    let actionId ← generatedId "SUB" sequence
    return [sub stepId actionId body]

def step (d : Draft) (stepId : StepId) (privateActionDigest : Sha256Digest) : PlanStep where
  stepId
  kind := d.kind
  effect := d.effect
  semanticTarget := some d.semanticTarget
  contentDigest := d.contentDigest
  expectedModeBefore := some d.expectedModeBefore
  expectedModeAfter := some d.expectedModeAfter
  privateActionDigest
  cancellation := d.cancellation
  binding := d.binding

end Draft

def Building.add (b : Building) (d : Draft) : Provides Building := do
  let (sequence, stepId, actionId) ← nextIds b.sequence "ACT"
  let primary := d.primary stepId actionId
  let subs ← d.subs stepId sequence
  let digest ← digestOf primary
  return {
    publicSteps := b.publicSteps ++ [d.step stepId digest]
    actions := b.actions ++ (subs ++ [primary])
    sequence }

/-! ### The plan -/

structure BuiltPlan where
  publicSteps : List PlanStep
  privatePlan : StoredProviderPlan
  effectSet : EffectSet
  postflight : PostflightPolicy

section Building

variable (request : MaterializeRequest)

/-- The ramdisk is restored alone only in a primary campaign, and only the pinned one. -/
def checkIntent : Provides Unit :=
  if request.intent = .restoreRamdisk ∧
      (request.executionPurpose ≠ .primaryFlash ∨
        (permitsExecution request.authoritySupport.state = true ∧
          request.authoritySupport.state.campaign = none) ∨
        (request.artifact.member "ramdisk.img").all fun m =>
          decide (m.sha256 ≠ restorationDigest) || decide (m.sizeBytes.toNat ≠ MAX_IMAGE_BYTES)) then
    refuse .restoreRamdiskUnsupported
  else .ok ()

/-- There is no default for a block size that nobody measured. -/
def blockSize (profile : DeviceProfile) : Provides UInt64 :=
  match profile.storage.logicalBlockSize with
  | some size => .ok size.toUInt64
  | none => refuse (.blockSizeUndeclared profile.id)

def orderedTargets : List AllowedTarget :=
  sortByKey (fun target => target.writeOrder.toNat) (request.profile.allowedTargets.filter fun target =>
    decide (request.intent = .fullRestore) || decide (target.partition.value = "ramdisk"))

def byteRange (start length : UInt64) : Provides ByteRange :=
  (ByteRange.new start length).mapError fun error => .error (.effect error)

/-- What is written to a target, with every step of the arithmetic checked. -/
def resolveWrite (target : AllowedTarget) : Provides ResolvedTarget :=
  match target.sourceMember with
  | none => refuse (.noSourceMember target.partition)
  | some memberName =>
    match request.artifact.member memberName with
    | none => refuse (.noSuchMember memberName target.partition)
    | some member => do
      let size ← blockSize request.profile
      if target.offsetSectors.toNat * size.toNat < 2 ^ 64 then do
        let range ← byteRange (target.offsetSectors * size) member.sizeBytes
        return { target, memberName, member, range }
      else refuse (.offsetOverflows target.partition)

/-- What is read back from a target. The multiplication panics when it overflows. -/
def resolveVerify (target : AllowedTarget) : Provides ResolvedTarget := do
  let memberName ← expected target.sourceMember
  let member ← expected (request.artifact.member memberName)
  let size ← blockSize request.profile
  if target.offsetSectors.toNat * size.toNat < 2 ^ 64 then do
    let range ← byteRange (target.offsetSectors * size) member.sizeBytes
    return { target, memberName, member, range }
  else .error .panic

def ResolvedTarget.effect (r : ResolvedTarget) : PersistentEffect :=
  .writePartition r.target.partition r.range r.member.sha256

def addWrites (loader : DeviceMode) : List AllowedTarget → Building → List PersistentEffect →
    Provides (Building × List PersistentEffect)
  | [], b, persistent => .ok (b, persistent)
  | target :: rest, b, persistent => do
    let r ← resolveWrite request target
    let b ← b.add (writeTarget loader r)
    addWrites loader rest b (persistent ++ [r.effect])

def addVerifies (loader : DeviceMode) : List AllowedTarget → Building → Provides Building
  | [], b => .ok b
  | target :: rest, b => do
    let r ← resolveVerify request target
    let b ← b.add (verifyTarget request.profile loader r)
    addVerifies loader rest b

def layoutDigest (profile : DeviceProfile) : Provides Sha256Digest :=
  (profileLayoutDigest profile).mapError fun _ => .panic

/-- The facts of the build that the postflight looks at. -/
def buildFacts (artifact : ArtifactManifest) : List (OpaqueId × String) :=
  artifact.buildFacts.filter fun fact =>
    decide (fact.1.value = "const.ohos.fullname") || decide (fact.1.value = "const.product.model")

def transientEffects (startsInLoader : Bool) (normal loader : DeviceMode) : List TransientEffect :=
  (if startsInLoader then [] else [.enterMode normal loader]) ++ [.reboot normal]

/-- A restored ramdisk leaves the user's data. -/
def dataImpact : DataImpact :=
  match request.intent with
  | .restoreRamdisk => { request.profile.dataImpact with userdata := .preserved }
  | .fullRestore => request.profile.dataImpact

/-- The step that enters the loader, unless the device was observed in it. -/
def Building.enter (b : Building) (startsInLoader : Bool) (normal loader : DeviceMode) :
    Provides Building :=
  if startsInLoader then .ok b else b.add (ensureMode normal loader)

def buildSteps : Provides BuiltPlan := do
  checkIntent request
  let normal ← mode NORMAL_MODE
  let loader ← mode LOADER_MODE
  let startsInLoader := decide (request.probe.observedMode = loader)
  let b ← ({ publicSteps := [], actions := [], sequence := 0 } : Building).enter startsInLoader
    normal loader
  let b ← b.add (probeDevice loader)
  let layout ← layoutDigest request.profile
  let b ← b.add (validateLayout loader layout)
  let (b, persistent) ← addWrites request loader (orderedTargets request) b []
  let b ← addVerifies request loader (orderedTargets request) b
  let b ← b.add (reboot loader normal)
  let b ← b.add (postflightProbe normal (buildFacts request.artifact))
  return {
    publicSteps := b.publicSteps
    privatePlan := ⟨b.actions⟩
    effectSet := {
      persistent
      transient := transientEffects startsInLoader normal loader
      dataImpact := dataImpact request }
    postflight := {
      requireExactTargetLineage := true
      requireMode := some normal
      requiredRuntimeFacts := buildFacts request.artifact } }

end Building

end ArkForge.Provider.Lowering
