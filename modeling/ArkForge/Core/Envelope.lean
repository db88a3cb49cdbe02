import ArkForge.Core.Plan

/-! # Sealed envelopes

Everything a plan digest covers. `PlanSealInput` is a plan before it is sealed; sealing computes the
digest of its canonical form (`planDigestBody`) and a `PlanEnvelope` carries both. The envelope of
`Core.Plan` is the part of it that a running job reads (`PlanEnvelope.forJob`). -/

namespace ArkForge.Core.Envelope

open Lib.Result
open Cbor CborMap Digest Ids
open Effect Projection Plan
open Authority.Permit

/-! ### Identities -/

structure Version where
  major : UInt32
  minor : UInt32
  patch : UInt32
  deriving DecidableEq

def Version.toCbor (v : Version) : CborValue :=
  .array [.unsigned v.major.toUInt64, .unsigned v.minor.toUInt64, .unsigned v.patch.toUInt64]

structure ProviderIdentity where
  id : OpaqueId
  version : Version
  implementationDigest : Sha256Digest

def ProviderIdentity.toCbor (p : ProviderIdentity) : CborValue := .textMap [
  ("id", p.id.toCbor),
  ("version", p.version.toCbor),
  ("implementationDigest", p.implementationDigest.toCbor)]

structure DeviceProfileIdentity where
  id : OpaqueId
  version : Version
  digest : Sha256Digest
  deriving DecidableEq

def DeviceProfileIdentity.toCbor (p : DeviceProfileIdentity) : CborValue := .textMap [
  ("id", p.id.toCbor),
  ("version", p.version.toCbor),
  ("digest", p.digest.toCbor)]

structure ArtifactFormat where
  id : OpaqueId
  version : Version
  deriving DecidableEq

def ArtifactFormat.toCbor (f : ArtifactFormat) : CborValue := .textMap [
  ("id", f.id.toCbor),
  ("version", f.version.toCbor)]

structure ArtifactIdentity where
  artifactId : OpaqueId
  format : ArtifactFormat
  /-- SHA-256 of the imported bytes as a whole. -/
  contentDigest : Sha256Digest
  sizeBytes : UInt64
  /-- Digest of the parsed manifest. -/
  manifestDigest : Sha256Digest

def ArtifactIdentity.toCbor (a : ArtifactIdentity) : CborValue := .textMap [
  ("artifactId", a.artifactId.toCbor),
  ("format", a.format.toCbor),
  ("contentDigest", a.contentDigest.toCbor),
  ("sizeBytes", .unsigned a.sizeBytes),
  ("manifestDigest", a.manifestDigest.toCbor)]

/-- The backend a provider dispatches through. -/
inductive ToolchainKind where
  | fixedTool
  | nativeProtocol
  | replay
  deriving DecidableEq

namespace ToolchainKind

def asStr : ToolchainKind → String
  | fixedTool => "fixedTool"
  | nativeProtocol => "nativeProtocol"
  | replay => "replay"

def parse : String → Option ToolchainKind := parseName [fixedTool, nativeProtocol, replay] asStr

end ToolchainKind

structure ToolchainIdentity where
  id : OpaqueId
  kind : ToolchainKind
  version : Version
  /-- SHA-256 of the executable or of the native backend build. -/
  backendDigest : Sha256Digest
  upstreamRef : Option String

def ToolchainIdentity.toCbor (t : ToolchainIdentity) : CborValue := .textMap [
  ("id", t.id.toCbor),
  ("kind", .text t.kind.asStr),
  ("version", t.version.toCbor),
  ("backendDigest", t.backendDigest.toCbor),
  ("upstreamRef", orNull .text t.upstreamRef)]

/-! ### Maturity and support -/

/-- The published state of one combination. -/
inductive MaturityState where
  | productionVerified
  | hardwareCampaign (campaign : String)
  | hardwareGated (blocker : String)
  | planOnly (blocker : String)
  | researchOnly (blocker : String)
  | unavailable (reason : String)
  deriving DecidableEq

namespace MaturityState

def asStr : MaturityState → String
  | productionVerified => "productionVerified"
  | hardwareCampaign _ => "hardwareCampaign"
  | hardwareGated _ => "hardwareGated"
  | planOnly _ => "planOnly"
  | researchOnly _ => "researchOnly"
  | unavailable _ => "unavailable"

/-- The campaign a run under this state belongs to, if any. -/
def campaign : MaturityState → Option String
  | hardwareCampaign campaign => some campaign
  | _ => none

def blocker : MaturityState → Option String
  | productionVerified | hardwareCampaign _ => none
  | hardwareGated blocker | planOnly blocker | researchOnly blocker => some blocker
  | unavailable reason => some reason

def toCbor (state : MaturityState) : CborValue := .textMap [
  ("state", .text state.asStr),
  ("blocker", orNull .text state.blocker),
  ("campaign", orNull .text state.campaign)]

end MaturityState

/-- The reviewed support state of an authority implementation. -/
inductive AuthoritySupportState where
  | productionVerified
  | hardwareCampaign (campaign : String)
  | hardwareGated (blocker : String)
  deriving DecidableEq

namespace AuthoritySupportState

def asStr : AuthoritySupportState → String
  | productionVerified => "productionVerified"
  | hardwareCampaign _ => "hardwareCampaign"
  | hardwareGated _ => "hardwareGated"

def campaign : AuthoritySupportState → Option String
  | hardwareCampaign campaign => some campaign
  | _ => none

def blocker : AuthoritySupportState → Option String
  | hardwareGated blocker => some blocker
  | _ => none

def toCbor (state : AuthoritySupportState) : CborValue := .textMap [
  ("state", .text state.asStr),
  ("campaign", orNull .text state.campaign),
  ("blocker", orNull .text state.blocker)]

end AuthoritySupportState

/-- The authority-support decision sealed into a plan. -/
structure AuthoritySupportBinding where
  keyDigest : Sha256Digest
  state : AuthoritySupportState
  deriving DecidableEq

def AuthoritySupportBinding.toCbor (b : AuthoritySupportBinding) : CborValue := .textMap [
  ("keyDigest", b.keyDigest.toCbor),
  ("state", b.state.toCbor)]

/-- What the provider and the transport agreed they can do for a plan. -/
structure NegotiatedCapabilities where
  entries : List (OpaqueId × Bool)
  deriving DecidableEq

def NegotiatedCapabilities.toCbor (c : NegotiatedCapabilities) : CborValue :=
  .textMap (c.entries.map fun e => (e.1.value, .bool e.2))

/-! ### Purpose, recovery and postflight -/

structure PlanSchemaVersion where
  value : UInt32
  deriving DecidableEq

def PlanSchemaVersion.CURRENT : PlanSchemaVersion := ⟨1⟩

inductive ExecutionPurpose where
  | primaryFlash
  | supersedingRecovery
  deriving DecidableEq

namespace ExecutionPurpose

def asStr : ExecutionPurpose → String
  | primaryFlash => "primaryFlash"
  | supersedingRecovery => "supersedingRecovery"

def parse : String → Option ExecutionPurpose := parseName [primaryFlash, supersedingRecovery] asStr

end ExecutionPurpose

/-- What postflight must confirm after the last step. -/
structure PostflightPolicy where
  requireExactTargetLineage : Bool
  requireMode : Option DeviceMode
  requiredRuntimeFacts : List (OpaqueId × String)

def PostflightPolicy.toCbor (p : PostflightPolicy) : CborValue := .textMap [
  ("requireExactTargetLineage", .bool p.requireExactTargetLineage),
  ("requireMode", orNull modeCbor p.requireMode),
  ("requiredRuntimeFacts", .textMap (p.requiredRuntimeFacts.map fun f => (f.1.value, .text f.2)))]

/-- Reference to a published recovery coverage declaration. -/
structure RecoveryContractRef where
  id : OpaqueId
  version : Version
  digest : Sha256Digest
  deriving DecidableEq

def RecoveryContractRef.toCbor (c : RecoveryContractRef) : CborValue := .textMap [
  ("id", c.id.toCbor),
  ("version", c.version.toCbor),
  ("digest", c.digest.toCbor)]

/-! ### Sealing -/

/-- Everything a plan digest covers except the digest itself. -/
structure PlanSealInput where
  schemaVersion : PlanSchemaVersion
  planId : PlanId
  executionPurpose : ExecutionPurpose
  authorityBinding : AuthorityBindingRef
  provider : ProviderIdentity
  profile : DeviceProfileIdentity
  artifact : ArtifactIdentity
  toolchain : ToolchainIdentity
  maturity : MaturityState
  authoritySupport : AuthoritySupportBinding
  negotiatedCapabilities : NegotiatedCapabilities
  publicSteps : List PlanStep
  effectSet : EffectSet
  projection : ProjectionDigests
  recoveryContract : Option RecoveryContractRef
  postflight : PostflightPolicy
  createdAtEpochMs : UInt64
  expiresAtEpochMs : UInt64

/-- The fields of `plan_digest_body`. -/
def planDigestFields (input : PlanSealInput) : List (String × CborValue) := [
  ("schemaVersion", .unsigned input.schemaVersion.value.toUInt64),
  ("planId", input.planId.toCbor),
  ("executionPurpose", .text input.executionPurpose.asStr),
  ("authorityBinding", input.authorityBinding.toCbor),
  ("provider", input.provider.toCbor),
  ("profile", input.profile.toCbor),
  ("artifact", input.artifact.toCbor),
  ("toolchain", input.toolchain.toCbor),
  ("maturity", input.maturity.toCbor),
  ("authoritySupport", input.authoritySupport.toCbor),
  ("negotiatedCapabilities", input.negotiatedCapabilities.toCbor),
  ("publicSteps", .array (input.publicSteps.map (·.toCbor))),
  ("effectSet", effectSetCbor input.effectSet),
  ("providerExecutionPlanDigest", input.projection.providerExecutionPlanDigest.toCbor),
  ("publicProjectionDigest", input.projection.publicProjectionDigest.toCbor),
  ("recoveryContract", orNull RecoveryContractRef.toCbor input.recoveryContract),
  ("postflight", input.postflight.toCbor),
  ("createdAtEpochMs", .unsigned input.createdAtEpochMs),
  ("expiresAtEpochMs", .unsigned input.expiresAtEpochMs)]

def planDigestBody (input : PlanSealInput) : CborValue := .textMap (planDigestFields input)

inductive PlanError where
  | expiryNotAfterCreation (created expires : UInt64)
  | digestMismatch (stored recomputed : Sha256Digest)
  | effect (error : EffectError)
  | cbor (error : CborError)

/-- An immutable, executable plan. -/
structure PlanEnvelope extends PlanSealInput where
  planDigest : Sha256Digest

namespace PlanEnvelope

/-- The bytes the plan digest is computed over, without the domain in front of them. -/
def digestBodyBytes (envelope : PlanEnvelope) : Except PlanError (List UInt8) :=
  (planDigestBody envelope.toPlanSealInput).toCanonicalBytes.mapError .cbor

/-- The digest of the envelope's own contents. -/
def recomputeDigest (envelope : PlanEnvelope) : Except PlanError Sha256Digest := do
  let bytes ← envelope.digestBodyBytes
  return digestInDomain .plan bytes

def verifySelfDigest (envelope : PlanEnvelope) : Except PlanError Unit := do
  let recomputed ← envelope.recomputeDigest
  if recomputed ≠ envelope.planDigest then .error (.digestMismatch envelope.planDigest recomputed)
  else .ok ()

/-- Seals a plan: its digest is computed over its contents. -/
def sealPlan (input : PlanSealInput) : Except PlanError PlanEnvelope :=
  if input.expiresAtEpochMs ≤ input.createdAtEpochMs then
    .error (.expiryNotAfterCreation input.createdAtEpochMs input.expiresAtEpochMs)
  else do
    input.effectSet.validateExecutable.mapError .effect
    let bytes ← (planDigestBody input).toCanonicalBytes.mapError .cbor
    return { toPlanSealInput := input, planDigest := digestInDomain .plan bytes }

variable {envelope : PlanEnvelope}

theorem digestBodyBytes_eq_ok {bytes : List UInt8} : envelope.digestBodyBytes = .ok bytes ↔
      (planDigestBody envelope.toPlanSealInput).toCanonicalBytes = .ok bytes :=
  mapError_eq_ok

theorem recomputeDigest_eq_ok {d : Sha256Digest} : envelope.recomputeDigest = .ok d ↔
      ∃ bytes, envelope.digestBodyBytes = .ok bytes ∧ digestInDomain .plan bytes = d := by
  rw [recomputeDigest, bind_eq_ok]
  refine exists_congr fun bytes => and_congr_right fun _ => ?_
  exact ⟨Except.ok.inj, congrArg Except.ok⟩

theorem verifySelfDigest_eq_ok :
    envelope.verifySelfDigest = .ok () ↔ envelope.recomputeDigest = .ok envelope.planDigest := by
  rw [verifySelfDigest, bind_eq_ok]
  constructor
  · rintro ⟨d, hd, h⟩
    split_ifs at h with hne
    rw [hd, not_not.mp hne]
  · intro h
    exact ⟨_, h, by rw [if_neg (not_not.mpr rfl)]⟩

/-- **When a plan is sealed**, and what into. -/
theorem sealPlan_eq_ok {input : PlanSealInput} : sealPlan input = .ok envelope ↔
      input.createdAtEpochMs < input.expiresAtEpochMs ∧
      input.effectSet.validateExecutable = .ok () ∧
      envelope.toPlanSealInput = input ∧ envelope.recomputeDigest = .ok envelope.planDigest := by
  unfold sealPlan
  split_ifs with hexpiry
  · simp [UInt64.not_lt.mpr hexpiry]
  · simp only [bind_eq_ok, mapError_eq_ok, recomputeDigest_eq_ok, digestBodyBytes_eq_ok]
    constructor
    · rintro ⟨_, heffects, bytes, hbytes, h⟩
      obtain rfl := Except.ok.inj h
      exact ⟨UInt64.not_le.mp hexpiry, heffects, rfl, bytes, hbytes, rfl⟩
    · rintro ⟨-, heffects, rfl, bytes, hbytes, hdigest⟩
      refine ⟨(), heffects, bytes, hbytes, ?_⟩
      rw [hdigest]
      rfl

end PlanEnvelope

/-! ### Plans have a canonical form -/

theorem integer_encodes (n : Int64) : (integerCbor n).Encodes := by
  unfold integerCbor
  split_ifs with hneg
  · rw [Int64.lt_iff_toInt_lt] at hneg
    rw [CborValue.Encodes, CborValue.toCanonicalBytes, if_neg (by simpa using hneg)]
    exact ⟨_, rfl⟩
  · exact encodes_unsigned _

theorem persistent_encodes (e : PersistentEffect) : (persistentCbor e).Encodes := by
  have hvalue : ∀ t, (typedValueCbor t).Encodes := by
    intro t
    cases t <;> simp [typedValueCbor, integer_encodes]
  cases e <;> simp [persistentCbor, hvalue]

theorem transient_encodes (e : TransientEffect) : (transientCbor e).Encodes := by
  cases e <;> simp [transientCbor, memoryRegionCbor, modeCbor]

theorem effectSet_encodes (e : EffectSet) : (effectSetCbor e).Encodes := by
  simp [effectSetCbor, dataImpactCbor, persistent_encodes, transient_encodes]

theorem planStep_encodes (s : PlanStep) : s.toCbor.Encodes := by
  simp [PlanStep.toCbor, FlashStep.WorkflowEffect.toCbor, modeCbor]

/-- The records of an envelope that hold texts, versions and digests. -/
theorem identities_encode (input : PlanSealInput) :
    input.provider.toCbor.Encodes ∧ input.profile.toCbor.Encodes ∧ input.artifact.toCbor.Encodes ∧
      input.toolchain.toCbor.Encodes ∧ input.maturity.toCbor.Encodes ∧
      input.authoritySupport.toCbor.Encodes ∧
      (orNull RecoveryContractRef.toCbor input.recoveryContract).Encodes := by
  simp [ProviderIdentity.toCbor, DeviceProfileIdentity.toCbor, ArtifactIdentity.toCbor,
    ArtifactFormat.toCbor, ToolchainIdentity.toCbor, MaturityState.toCbor,
    AuthoritySupportBinding.toCbor, AuthoritySupportState.toCbor, RecoveryContractRef.toCbor,
    Version.toCbor]

theorem idMap_encodes {α : Type} {write : α → CborValue}
    (h : ∀ a, (write a).Encodes) {l : List (OpaqueId × α)} (hn : (l.map Prod.fst).Nodup) :
    (CborValue.textMap (l.map fun e => (e.1.value, write e.2))).Encodes := by
  refine textMap_encodes.mpr ⟨?_, ?_⟩
  · have hinj : Function.Injective OpaqueId.value := fun _ _ => OpaqueId.ext
    have := (List.nodup_map_iff hinj).mpr hn
    rw [List.map_map] at this ⊢
    exact this
  · rw [List.forall_mem_map]
    exact fun e _ => h e.2

/-- **A plan can be sealed** if no capability and no runtime fact is named twice. -/
theorem planDigestBody_encodes {input : PlanSealInput}
    (hcapabilities : (input.negotiatedCapabilities.entries.map Prod.fst).Nodup)
    (hfacts : (input.postflight.requiredRuntimeFacts.map Prod.fst).Nodup) :
    (planDigestBody input).Encodes := by
  have hcapabilities : input.negotiatedCapabilities.toCbor.Encodes :=
    idMap_encodes encodes_bool hcapabilities
  have hpostflight : input.postflight.toCbor.Encodes := by
    simp [PostflightPolicy.toCbor, modeCbor, idMap_encodes encodes_text hfacts]
  simp [planDigestBody, planDigestFields, identities_encode input, planStep_encodes,
    effectSet_encodes, hcapabilities, hpostflight]

end ArkForge.Core.Envelope
