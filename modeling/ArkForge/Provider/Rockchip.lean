import ArkForge.Provider.Lowering

/-! # The Rockchip provider

Whether artifact, profile and device agree, and whether the combination has been published, decides
if the lowered plan is sealed as executable or handed out as an assessment. After an unknown outcome
the provider selects the actions of the plan that may look at the device again. -/

namespace ArkForge.Provider.Rockchip

open Core.Cbor Core.Digest Core.Ids Core.Effect
open Core.Projection Core.Plan Core.Envelope
open Core.Profile Artifact.Manifest
open Lowering
open Execute (Halt)

/-! ### Identifiers -/

theorem conforming_provider : Conforming "arkforge.rockchip" := by decide

def PROVIDER_ID : OpaqueId := ⟨"arkforge.rockchip", conforming_provider⟩

/-- The build-identifying text of the lowering. -/
def IMPLEMENTATION : String :=
  "arkforge.rockchip/lowering/v1;" ++
  "steps=ensure-mode,probe,validate-layout,write*,verify*,reboot,postflight;" ++
  "actions=enter-loader,probe-loader,validate-partition-table," ++
  "write-partition,characterize-read-domain,readback-partition," ++
  "reset-device,verify-hdc-postflight;intent=fullRestore,restoreRamdisk-v1"

def providerIdentity : ProviderIdentity where
  id := PROVIDER_ID
  version := ⟨1, 0, 0⟩
  implementationDigest := sha256 (utf8 IMPLEMENTATION)

theorem conforming_format : Conforming "rockchip-images-targz" := by decide

def FORMAT_ID : OpaqueId := ⟨"rockchip-images-targz", conforming_format⟩

def artifactFormat : ArtifactFormat where
  id := FORMAT_ID
  version := ⟨1, 0, 0⟩

theorem conforming_overwrite : Conforming "arkforge.rockchip.complete-overwrite" := by decide

def RECOVERY_ID : OpaqueId := ⟨"arkforge.rockchip.complete-overwrite", conforming_overwrite⟩

theorem conforming_unnamed : Conforming "EVR-UNNAMED" := by decide

/-- What keeps a plan from being executable. -/
inductive BlockerCode where
  | v01 | v02 | v03 | v04 | v05 | v06 | v07 | v08 | v09 | v10
  | m02
  | a01
  deriving DecidableEq

def BlockerCode.asStr : BlockerCode → String
  | v01 => "RK-V01" | v02 => "RK-V02" | v03 => "RK-V03" | v04 => "RK-V04" | v05 => "RK-V05"
  | v06 => "RK-V06" | v07 => "RK-V07" | v08 => "RK-V08" | v09 => "RK-V09" | v10 => "RK-V10"
  | m02 => "RK-M02"
  | a01 => "RK-A01"

theorem BlockerCode.conforming_asStr (code : BlockerCode) : Conforming code.asStr := by
  cases code <;> decide

def BlockerCode.id (code : BlockerCode) : OpaqueId := ⟨code.asStr, code.conforming_asStr⟩

/-! ### Maturity -/

/-- The exact combination a maturity state is for. -/
structure MaturityKey where
  provider : ProviderIdentity
  profile : DeviceProfileIdentity
  artifactFormat : ArtifactFormat
  toolchain : ToolchainIdentity
  hostPlatform : HostPlatform
  driverFactsDigest : Sha256Digest
  evidenceSetDigest : Sha256Digest

def MaturityKey.toCbor (k : MaturityKey) : CborValue := .textMap [
  ("provider", k.provider.toCbor),
  ("profile", k.profile.toCbor),
  ("artifactFormat", k.artifactFormat.toCbor),
  ("toolchain", k.toolchain.toCbor),
  ("hostPlatform", .textMap [("os", k.hostPlatform.os.toCbor), ("arch", k.hostPlatform.arch.toCbor)]),
  ("driverFactsDigest", k.driverFactsDigest.toCbor),
  ("evidenceSetDigest", k.evidenceSetDigest.toCbor)]

def MaturityKey.digest (k : MaturityKey) : Except CborError Sha256Digest :=
  digestCanonical .providerFacts k.toCbor

def permitsExecutablePlan : MaturityState → Bool
  | .productionVerified | .hardwareCampaign _ => true
  | _ => false

structure MaturityRegistry where
  entries : List (Sha256Digest × MaturityState)

/-- A combination that was not published is not available. -/
def MaturityRegistry.lookup (registry : MaturityRegistry) (key : MaturityKey) : MaturityState :=
  match key.digest with
  | .error _ => .unavailable "maturity key is not canonicalizable"
  | .ok digest =>
    match registry.entries.find? fun entry => entry.1 = digest with
    | some (_, state) => state
    | none => .unavailable
        "this provider/profile/artifact/toolchain/platform combination is not published"

/-! ### Agreement of artifact, profile and device -/

structure ValidationViolation where
  code : BlockerCode
  detail : String

/-- The complaint, if the condition holds. -/
def violationIf (p : Prop) [Decidable p] (code : BlockerCode) (detail : String) :
    List ValidationViolation :=
  if p then [⟨code, detail⟩] else []

/-- The size of an extent in bytes. The multiplication panics when it overflows. -/
def extentBytes (extentSectors : UInt64) (table : PartitionTableFact) : Provides ℕ :=
  if extentSectors.toNat * table.logicalBlockSize.toNat < 2 ^ 64 then
    .ok (extentSectors.toNat * table.logicalBlockSize.toNat)
  else .error .panic

/-- The member has to fit in the extent of the entry. -/
def memberViolations (table : PartitionTableFact) (target : AllowedTarget) (entry : PartitionEntryFact)
    (memberName : String) (member : ArchiveMemberFact) : Provides (List ValidationViolation) :=
  match entry.sizeSectors with
  | none => .ok []
  | some extentSectors => do
    let extent ← extentBytes extentSectors table
    return violationIf (extent < member.sizeBytes.toNat) .v08
      (target.partition.value ++ ": member " ++ memberName ++ " is " ++
        toString member.sizeBytes.toNat ++ " bytes but the partition holds " ++ toString extent)

/-- The entry has to begin where the profile says, and its member has to be in the artifact. -/
def entryViolations (artifact : ArtifactManifest) (table : PartitionTableFact) (target : AllowedTarget)
    (entry : PartitionEntryFact) : Provides (List ValidationViolation) := do
  let offset := violationIf (entry.offsetSectors ≠ target.offsetSectors) .v05
    (target.partition.value ++ ": profile offset " ++ toString target.offsetSectors.toNat ++
      " does not match the artifact table's " ++ toString entry.offsetSectors.toNat)
  match target.sourceMember with
  | none => return offset ++
      [⟨.v06, "profile target " ++ target.partition.value ++ " declares no source member"⟩]
  | some memberName =>
    match artifact.member memberName with
    | none => return offset ++ [⟨.v07, "profile target " ++ target.partition.value ++
        " needs member " ++ memberName ++ ", which the artifact lacks"⟩]
    | some member => return offset ++ (← memberViolations table target entry memberName member)

def targetViolations (artifact : ArtifactManifest) (table : PartitionTableFact)
    (target : AllowedTarget) : Provides (List ValidationViolation) :=
  match table.entry target.partition.value with
  | none => .ok [⟨.v04, "profile permits " ++ target.partition.value ++
      " but the artifact's table has no such partition"⟩]
  | some entry => entryViolations artifact table target entry

/-- What artifact, profile and device disagree about. -/
def validate (artifact : ArtifactManifest) (profile : DeviceProfile) (probe : ProviderProbe) :
    Provides (List ValidationViolation) := do
  let formats :=
    violationIf (artifact.format.id ≠ FORMAT_ID) .v01
      ("artifact format " ++ artifact.format.id.value ++ " is not " ++ FORMAT_ID.value) ++
    violationIf (artifact.format.id ∉ profile.artifactFormats) .v02
      ("profile " ++ profile.id.value ++ " does not accept artifact format " ++
        artifact.format.id.value)
  match artifact.partitionTable with
  | none => return formats ++ [⟨.v03, "artifact declares no partition table to agree with"⟩]
  | some table =>
    let targets ← profile.allowedTargets.mapM (targetViolations artifact table)
    return formats ++ targets.flatten ++
      profile.protectedTargets.flatMap (fun target =>
        violationIf (profile.allowedTarget target ≠ none) .v09
          (target.value ++ " is both protected and allowed")) ++
      violationIf (profile.mode probe.observedMode = none) .v10
        ("device reports mode " ++ probe.observedMode.value ++
          ", which the profile does not declare")

/-- The unknowns of the parser that the profile does not account for. -/
def residualArtifactUnknowns (artifact : ArtifactManifest) (profile : DeviceProfile) :
    List ExecutionUnknown :=
  let unaccounted := artifact.unclassifiedMembers.filter fun member =>
    decide (member ∉ profile.knownMetadataMembers)
  artifact.executionRelevantUnknowns.filterMap fun unknown =>
    if unknown.id.value = "RK-A02" then
      if unaccounted = [] then none
      else some { id := unknown.id, summary :=
        "archive members the profile does not account for: " ++ String.intercalate ", " unaccounted }
    else some unknown

/-! ### Materialization -/

structure EvidenceRequirement where
  id : OpaqueId
  closes : List OpaqueId
  description : String
  minimumGrade : Char

def evidenceRequirements (blockers : List ExecutionUnknown) : List EvidenceRequirement :=
  blockers.map fun blocker => {
    id := (OpaqueId.new ("EVR-" ++ blocker.id.value)).toOption.getD ⟨"EVR-UNNAMED", conforming_unnamed⟩
    closes := [blocker.id]
    description := blocker.summary
    minimumGrade := 'C' }

structure ProviderCandidate where
  provider : ProviderIdentity
  maturity : MaturityState
  rationale : String

structure ProfileCandidate where
  profile : DeviceProfileIdentity
  maturity : MaturityState
  rationale : String

/-- A plan that may not be executed: it has no identifier and no digest. -/
structure PlanAssessment where
  providerCandidates : List ProviderCandidate
  profileCandidates : List ProfileCandidate
  wouldBeSteps : List PlanStep
  knownEffects : EffectSet
  unknowns : List ExecutionUnknown
  evidenceRequirements : List EvidenceRequirement
  unavailable : String

inductive PlanMaterialization where
  | executable (envelope : PlanEnvelope)
  | assessment (assessment : PlanAssessment)

structure MaterializedPlan where
  materialization : PlanMaterialization
  privatePlan : StoredProviderPlan

/-- A state with what blocks it. -/
def withBlocker (state : String) (blocker : Option String) : String :=
  state ++ (blocker.map (": " ++ ·)).getD ""

section Materialize

variable (request : MaterializeRequest)

def maturityKey (profile : DeviceProfileIdentity) : MaturityKey where
  provider := providerIdentity
  profile
  artifactFormat
  toolchain := request.toolchain
  hostPlatform := request.hostPlatform
  driverFactsDigest := request.driverFactsDigest
  evidenceSetDigest := request.evidenceSetDigest

/-- Everything that keeps the plan from being executable. -/
def blockers (maturity : MaturityState) (violations : List ValidationViolation) :
    List ExecutionUnknown :=
  violations.map (fun v => { id := v.code.id, summary := v.detail }) ++
  residualArtifactUnknowns request.artifact request.profile ++
  (if permitsExecutablePlan maturity then [] else [{
    id := BlockerCode.m02.id, summary :=
      "provider/profile/artifact/toolchain/platform combination is " ++
        withBlocker maturity.asStr maturity.blocker }]) ++
  (if permitsExecution request.authoritySupport.state then [] else [{
    id := BlockerCode.a01.id, summary :=
      "authority implementation is " ++
        withBlocker request.authoritySupport.state.asStr request.authoritySupport.state.blocker }])

def assess (maturity : MaturityState) (profile : DeviceProfileIdentity) (built : BuiltPlan)
    (unknowns : List ExecutionUnknown) : PlanAssessment where
  providerCandidates := [{
    provider := providerIdentity, maturity
    rationale := "Rockchip RockUSB provider for the DAYU200 vertical" }]
  profileCandidates := [{
    profile, maturity, rationale :=
      "profile declares " ++ toString request.profile.allowedTargets.length ++ " writable targets" }]
  wouldBeSteps := built.publicSteps
  knownEffects := built.effectSet
  unknowns
  evidenceRequirements := evidenceRequirements unknowns
  unavailable := "materialization is complete but execution is gated; maturity is " ++ maturity.asStr

def recoveryContract : Provides (Option RecoveryContractRef) :=
  if request.intent = .fullRestore ∧ request.profile.recovery.supportsCompleteOverwrite = true then do
    let digest ← (digestCanonical .recoveryCoverage request.profile.recovery.toCbor).mapError
      fun error => .error (.cbor error)
    return some { id := RECOVERY_ID, version := request.profile.recovery.version, digest }
  else .ok none

/-- The end of the plan's life. The addition panics when it overflows. -/
def expiry : Provides UInt64 :=
  if request.createdAtEpochMs.toNat + request.planLifetimeMs.toNat < 2 ^ 64 then
    .ok (request.createdAtEpochMs + request.planLifetimeMs)
  else .error .panic

def sealBuilt (maturity : MaturityState) (profile : DeviceProfileIdentity) (built : BuiltPlan) :
    Provides PlanEnvelope := do
  let projection ← (validateProjection (built.publicSteps.map (·.toPublicFlashStep))
    built.privatePlan built.effectSet).mapError fun error => .error (.projection error)
  let manifestDigest ← request.artifact.digest.mapError fun error => .error (.cbor error)
  let recoveryContract ← recoveryContract request
  let expiresAtEpochMs ← expiry request
  (PlanEnvelope.sealPlan {
    schemaVersion := .CURRENT
    planId := request.planId
    executionPurpose := request.executionPurpose
    authorityBinding := request.authorityBinding
    provider := providerIdentity
    profile
    artifact := {
      artifactId := request.artifactId, format := artifactFormat
      contentDigest := request.artifact.contentDigest, sizeBytes := request.artifact.sizeBytes
      manifestDigest }
    toolchain := request.toolchain
    maturity
    authoritySupport := request.authoritySupport
    negotiatedCapabilities := ⟨[]⟩
    publicSteps := built.publicSteps
    effectSet := built.effectSet
    projection
    recoveryContract
    postflight := built.postflight
    createdAtEpochMs := request.createdAtEpochMs
    expiresAtEpochMs }).mapError fun error => .error (.plan error)

/-- Builds the plan in full, and decides whether it may be executed. -/
def buildMaterializedPlan (registry : MaturityRegistry) : Provides MaterializedPlan := do
  let profile ← request.profile.identity.mapError fun error => .error (.cbor error)
  let maturity := registry.lookup (maturityKey request profile)
  let violations ← validate request.artifact request.profile request.probe
  let unknowns := blockers request maturity violations
  let built ← buildSteps request
  if unknowns ≠ [] then
    return {
      materialization := .assessment (assess request maturity profile built unknowns)
      privatePlan := built.privatePlan }
  else do
    let envelope ← sealBuilt request maturity profile built
    return { materialization := .executable envelope, privatePlan := built.privatePlan }

end Materialize

/-! ### Reconciliation -/

end ArkForge.Provider.Rockchip
