import ArkForge.Core.CborFields
import ArkForge.Core.Envelope

/-! # The storage form of a plan

`encode` writes a sealed plan as one canonical map: the digest, the bytes the digest was computed
over, and the private actions. `decode` reads it back record by record, validates and seals the plan
anew, and accepts the bytes only if `encode` writes the same ones again.

The second half of the module says that every reader reads back what was written for a value
(`…_reads`): the decoder hands it the written value with the entries of its maps sorted. -/

namespace ArkForge.Engine.PlanCodec

open Lib.Result Lib.KeySort
open Core.Cbor Core.CborRead Core.CborFields
open Core.CborMap hiding field
open Core.Digest Core.Ids Core.Effect Core.FlashStep
open Core.Projection Core.Plan Core.Envelope
open Authority.Permit

structure StoredPlan where
  envelope : PlanEnvelope
  privatePlan : StoredProviderPlan

/-- The source's errors are texts. An error of another component is kept as it is. -/
inductive CodecError where
  | message (text : String)
  | cbor (error : CborError)
  | id (error : IdError)
  | effect (error : EffectError)
  | plan (error : PlanError)
  | projection (error : ProjectionError)

def MAX_BYTES : ℕ := 8 * 1024 * 1024

/-! ### Reading values -/

def map : CborValue → Except CodecError (List (CborValue × CborValue))
  | .map items => .ok items
  | _ => .error (.message "expected map")

def field (value : CborValue) (key : String) : Except CodecError CborValue := do
  let items ← map value
  match Core.CborMap.field items key with
  | some v => .ok v
  | none => .error (.message ("missing sealed field " ++ key))

def array : CborValue → Except CodecError (List CborValue)
  | .array items => .ok items
  | _ => .error (.message "expected array")

def list {α : Type} (value : CborValue) (decode : CborValue → Except CodecError α) :
    Except CodecError (List α) := do
  let items ← array value
  items.mapM decode

def text : CborValue → Except CodecError String
  | .text text => .ok text
  | _ => .error (.message "expected text")

def byteString : CborValue → Except CodecError (List UInt8)
  | .bytes bytes => .ok bytes
  | _ => .error (.message "expected bytes")

def uint : CborValue → Except CodecError UInt64
  | .unsigned number => .ok number
  | _ => .error (.message "expected unsigned integer")

def u32Value (value : CborValue) : Except CodecError UInt32 := do
  let number ← uint value
  if number.toNat < 2 ^ 32 then .ok number.toUInt32
  else .error (.message "out of range integral type conversion attempted")

def boolean : CborValue → Except CodecError Bool
  | .bool value => .ok value
  | _ => .error (.message "expected boolean")

def optional {α : Type} (value : CborValue) (decode : CborValue → Except CodecError α) :
    Except CodecError (Option α) :=
  match value with
  | .null => .ok none
  | value => some <$> decode value

def digest (value : CborValue) : Except CodecError Sha256Digest := do
  let bytes ← byteString value
  if h : bytes.length = 32 then .ok ⟨bytes, h⟩
  else .error (.message "digest must be 32 bytes")

/-- A text that conforms: the identifiers of every type. -/
def opaqueId (value : CborValue) : Except CodecError OpaqueId := do
  let value ← text value
  (OpaqueId.new value).mapError .id

def name {α : Type} (parse : String → Option α) (unknown : String) (value : CborValue) :
    Except CodecError α := do
  let value ← text value
  match parse value with
  | some a => .ok a
  | none => .error (.message unknown)

def version (value : CborValue) : Except CodecError Version := do
  match ← array value with
  | [major, minor, patch] => do
    let major ← u32Value major
    let minor ← u32Value minor
    let patch ← u32Value patch
    return ⟨major, minor, patch⟩
  | _ => .error (.message "version must have three components")

def mode (value : CborValue) : Except CodecError DeviceMode := do
  let value ← text value
  (DeviceMode.new value).mapError .effect

def range (value : CborValue) : Except CodecError ByteRange := do
  let start ← uint (← field value "start")
  let length ← uint (← field value "length")
  (ByteRange.new start length).mapError .effect

def bootField : CborValue → Except CodecError BootMetadataField :=
  name (parseName [.activeSlot, .bootCount, .updaterCommand, .lockState] BootMetadataField.asStr)
    "unknown boot metadata field"

def target (value : CborValue) : Except CodecError SemanticTarget := do
  match ← map value with
  | [(key, value)] => do
    let key ← text key
    if key = "partition" then return .partition (← opaqueId value)
    else if key = "rawRegion" then return .rawRegion (← opaqueId value)
    else if key = "bootMetadata" then return .bootMetadata (← bootField value)
    else if key = "device" then
      match value with
      | .null => return .device
      | _ => .error (.message "unknown semantic target")
    else .error (.message "unknown semantic target")
  | _ => .error (.message "semantic target must have one field")

def workflowEffect : CborValue → Except CodecError WorkflowEffect :=
  name effectNamed "unknown workflow effect"

/-! ### Reading records -/

def step (value : CborValue) : Except CodecError PlanStep := do
  let stepId ← opaqueId (← field value "stepId")
  let kind ← name kindNamed "unknown step kind" (← field value "kind")
  let effect ← workflowEffect (← field value "effect")
  let cancellation ←
    name CancellationPolicy.parse "unknown cancellation policy" (← field value "cancellation")
  let binding ←
    name BindingRequirement.parse "unknown binding requirement" (← field value "binding")
  let semanticTarget ← optional (← field value "semanticTarget") target
  let contentDigest ← optional (← field value "contentDigest") digest
  let expectedModeBefore ← optional (← field value "expectedModeBefore") mode
  let expectedModeAfter ← optional (← field value "expectedModeAfter") mode
  let privateActionDigest ← digest (← field value "privateActionDigest")
  return { stepId, kind, effect, cancellation, binding, semanticTarget, contentDigest,
           expectedModeBefore, expectedModeAfter, privateActionDigest }

def role : CborValue → Except CodecError PrivateActionRole :=
  name (parseName [.primaryEffect, .readOnlyTransportSubAction] PrivateActionRole.asStr)
    "unknown action role"

def action (value : CborValue) : Except CodecError PrivateActionRecord := do
  let actionId ← opaqueId (← field value "actionId")
  let stepId ← opaqueId (← field value "stepId")
  let role ← role (← field value "role")
  let effectClass ← workflowEffect (← field value "effectClass")
  let declaredTarget ← optional (← field value "declaredTarget") target
  let declaredRange ← optional (← field value "declaredRange") range
  let contentDigest ← optional (← field value "contentDigest") digest
  let body ← field value "body"
  return { actionId, stepId, role, effectClass, declaredTarget, declaredRange, contentDigest, body }

def binding (value : CborValue) : Except CodecError AuthorityBindingRef := do
  let authorityNamespace ← opaqueId (← field value "authorityNamespace")
  let bindingId ← opaqueId (← field value "bindingId")
  let bindingRevision ← uint (← field value "bindingRevision")
  let stableIdentityDigest ← digest (← field value "stableIdentityDigest")
  return { authorityNamespace, bindingId, bindingRevision, stableIdentityDigest }

def provider (value : CborValue) : Except CodecError ProviderIdentity := do
  let id ← opaqueId (← field value "id")
  let version ← version (← field value "version")
  let implementationDigest ← digest (← field value "implementationDigest")
  return { id, version, implementationDigest }

def profile (value : CborValue) : Except CodecError DeviceProfileIdentity := do
  let id ← opaqueId (← field value "id")
  let version ← version (← field value "version")
  let digest ← digest (← field value "digest")
  return { id, version, digest }

def artifactFormat (value : CborValue) : Except CodecError ArtifactFormat := do
  let id ← opaqueId (← field value "id")
  let version ← version (← field value "version")
  return { id, version }

def artifact (value : CborValue) : Except CodecError ArtifactIdentity := do
  let format ← field value "format"
  let artifactId ← opaqueId (← field value "artifactId")
  let format ← artifactFormat format
  let contentDigest ← digest (← field value "contentDigest")
  let sizeBytes ← uint (← field value "sizeBytes")
  let manifestDigest ← digest (← field value "manifestDigest")
  return { artifactId, format, contentDigest, sizeBytes, manifestDigest }

def toolchain (value : CborValue) : Except CodecError ToolchainIdentity := do
  let id ← opaqueId (← field value "id")
  let kind ← name ToolchainKind.parse "unknown toolchain kind" (← field value "kind")
  let version ← version (← field value "version")
  let backendDigest ← digest (← field value "backendDigest")
  let upstreamRef ← optional (← field value "upstreamRef") text
  return { id, kind, version, backendDigest, upstreamRef }

def maturity (value : CborValue) : Except CodecError MaturityState := do
  let blocker := do text (← field value "blocker")
  let state ← text (← field value "state")
  if state = "productionVerified" then return .productionVerified
  else if state = "hardwareCampaign" then
    return .hardwareCampaign (← text (← field value "campaign"))
  else if state = "hardwareGated" then return .hardwareGated (← blocker)
  else if state = "planOnly" then return .planOnly (← blocker)
  else if state = "researchOnly" then return .researchOnly (← blocker)
  else if state = "unavailable" then return .unavailable (← blocker)
  else .error (.message "unknown maturity state")

def supportState (state : CborValue) : Except CodecError AuthoritySupportState := do
  let named ← text (← field state "state")
  if named = "productionVerified" then return .productionVerified
  else if named = "hardwareCampaign" then
    return .hardwareCampaign (← text (← field state "campaign"))
  else if named = "hardwareGated" then return .hardwareGated (← text (← field state "blocker"))
  else .error (.message "unknown authority support state")

def authoritySupport (value : CborValue) : Except CodecError AuthoritySupportBinding := do
  let state ← field value "state"
  let keyDigest ← digest (← field value "keyDigest")
  let state ← supportState state
  return { keyDigest, state }

def recoveryContract (value : CborValue) : Except CodecError RecoveryContractRef := do
  let id ← opaqueId (← field value "id")
  let version ← version (← field value "version")
  let digest ← digest (← field value "digest")
  return { id, version, digest }

def entries {α : Type} (value : CborValue) (decode : CborValue → Except CodecError α) :
    Except CodecError (List (OpaqueId × α)) := do
  let items ← map value
  items.mapM fun item => do
    let key ← opaqueId item.1
    let value ← decode item.2
    return (key, value)

def postflight (value : CborValue) : Except CodecError PostflightPolicy := do
  let requireExactTargetLineage ← boolean (← field value "requireExactTargetLineage")
  let requireMode ← optional (← field value "requireMode") mode
  let requiredRuntimeFacts ← entries (← field value "requiredRuntimeFacts") text
  return { requireExactTargetLineage, requireMode, requiredRuntimeFacts }

def impact : CborValue → Except CodecError DataImpactState :=
  name (parseName [.preserved, .overwritten, .unknown] impactName) "unknown data impact"

/-- `i64::try_from` of an unsigned number, or the negative number itself. -/
def integer : CborValue → Except CodecError Int64
  | .negative number => .ok number
  | .unsigned number =>
    if number.toNat < 2 ^ 63 then .ok number.toInt64
    else .error (.message "out of range integral type conversion attempted")
  | _ => .error (.message "expected integer")

def typedValue (value : CborValue) : Except CodecError TypedValue := do
  match ← map value with
  | [(key, value)] => do
    let key ← text key
    if key = "text" then return .text (← text value)
    else if key = "bool" then return .bool (← boolean value)
    else if key = "integer" then return .integer (← integer value)
    else .error (.message "unknown typed value")
  | _ => .error (.message "typed value must have one field")

def persistent (value : CborValue) : Except CodecError PersistentEffect := do
  let kind ← text (← field value "kind")
  if kind = "erasePartition" then do
    let partition ← opaqueId (← field value "partition")
    let range ← range (← field value "range")
    return .erasePartition partition range
  else if kind = "writePartition" then do
    let partition ← opaqueId (← field value "partition")
    let range ← range (← field value "range")
    let content ← digest (← field value "content")
    return .writePartition partition range content
  else if kind = "writeRawRegion" then do
    let region ← opaqueId (← field value "region")
    let range ← range (← field value "range")
    let content ← digest (← field value "content")
    return .writeRawRegion region range content
  else if kind = "replacePartitionTable" then
    return .replacePartitionTable (← digest (← field value "layoutDigest"))
  else if kind = "changeBootMetadata" then do
    let metadata ← bootField (← field value "field")
    let expectedValue ← typedValue (← field value "expectedValue")
    return .changeBootMetadata metadata expectedValue
  else .error (.message "unknown persistent effect")

def agentStage (value : CborValue) : Except CodecError AgentStage := do
  let value ← text value
  (AgentStage.new value).mapError .effect

def memoryRegion (value : CborValue) : Except CodecError MemoryRegion := do
  let baseAddress ← uint (← field value "baseAddress")
  let length ← uint (← field value "length")
  return { baseAddress, length }

def transient (value : CborValue) : Except CodecError TransientEffect := do
  let kind ← text (← field value "kind")
  if kind = "enterMode" then do
    let fromMode ← mode (← field value "from")
    let toMode ← mode (← field value "to")
    return .enterMode fromMode toMode
  else if kind = "loadEphemeralAgent" then do
    let region ← field value "memoryRegion"
    let stage ← agentStage (← field value "stage")
    let region ← memoryRegion region
    let content ← digest (← field value "content")
    return .loadEphemeralAgent stage region content
  else if kind = "usbDetachReattach" then
    return .usbDetachReattach (← digest (← field value "expectationDigest"))
  else if kind = "reboot" then return .reboot (← mode (← field value "targetMode"))
  else .error (.message "unknown transient effect")

def dataImpact (data : CborValue) : Except CodecError DataImpact := do
  let userdata ← impact (← field data "userdata")
  let calibration ← impact (← field data "calibration")
  let nonVolatileConfig ← impact (← field data "nonVolatileConfig")
  let secureStorage ← impact (← field data "secureStorage")
  return { userdata, calibration, nonVolatileConfig, secureStorage }

def effects (value : CborValue) : Except CodecError EffectSet := do
  let data ← field value "dataImpact"
  let persistent ← list (← field value "persistent") persistent
  let transient ← list (← field value "transient") transient
  let dataImpact ← dataImpact data
  return { persistent, transient, dataImpact }

/-! ### Plans -/

/-- The steps as the projection sees them. -/
def projected (steps : List PlanStep) : List PublicFlashStep := steps.map (·.toPublicFlashStep)

/-- The checks a plan passes before it is stored and after it is loaded. -/
def validate (plan : StoredPlan) : Except CodecError Unit :=
  if plan.envelope.schemaVersion ≠ .CURRENT then .error (.message "unsupported sealed plan schema")
  else do
    plan.envelope.verifySelfDigest.mapError .plan
    plan.envelope.effectSet.validateExecutable.mapError .effect
    if plan.envelope.expiresAtEpochMs ≤ plan.envelope.createdAtEpochMs then
      .error (.message "sealed plan expiry precedes creation")
    else do
      let projection ← (validateProjection (projected plan.envelope.publicSteps) plan.privatePlan
        plan.envelope.effectSet).mapError .projection
      if projection ≠ plan.envelope.projection then
        .error (.message "stored private plan does not match the sealed projection")
      else .ok ()

def storageFields (plan : StoredPlan) (body : List UInt8) : List (String × CborValue) := [
  ("storageVersion", .unsigned 1),
  ("planDigest", plan.envelope.planDigest.toCbor),
  ("envelope", .bytes body),
  ("privateActions", .array (plan.privatePlan.actions.map (·.toCbor)))]

def encode (plan : StoredPlan) : Except CodecError (List UInt8) := do
  validate plan
  let body ← plan.envelope.digestBodyBytes.mapError .plan
  let bytes ← (CborValue.textMap (storageFields plan body)).toCanonicalBytes.mapError .cbor
  if MAX_BYTES < bytes.length then .error (.message "sealed plan exceeds the storage size bound")
  else .ok bytes

/-- The plan whose digest was computed over the body, before it is sealed again. -/
def sealInput (body : CborValue) (schemaVersion : PlanSchemaVersion) (publicSteps : List PlanStep)
    (effectSet : EffectSet) (projection : ProjectionDigests) : Except CodecError PlanSealInput := do
  let planId ← opaqueId (← field body "planId")
  let executionPurpose ←
    name ExecutionPurpose.parse "unknown execution purpose" (← field body "executionPurpose")
  let authorityBinding ← binding (← field body "authorityBinding")
  let provider ← provider (← field body "provider")
  let profile ← profile (← field body "profile")
  let artifact ← artifact (← field body "artifact")
  let toolchain ← toolchain (← field body "toolchain")
  let maturity ← maturity (← field body "maturity")
  let authoritySupport ← authoritySupport (← field body "authoritySupport")
  let capabilities ← entries (← field body "negotiatedCapabilities") boolean
  let recoveryContract ← optional (← field body "recoveryContract") recoveryContract
  let postflight ← postflight (← field body "postflight")
  let createdAtEpochMs ← uint (← field body "createdAtEpochMs")
  let expiresAtEpochMs ← uint (← field body "expiresAtEpochMs")
  return { schemaVersion, planId, executionPurpose, authorityBinding, provider, profile, artifact,
           toolchain, maturity, authoritySupport, negotiatedCapabilities := ⟨capabilities⟩,
           publicSteps, effectSet, projection, recoveryContract, postflight, createdAtEpochMs,
           expiresAtEpochMs }

/-- The private actions belong to the projection that was sealed. -/
def checkProjection (body : CborValue) (projection : ProjectionDigests) :
    Except CodecError Unit := do
  let mismatch := CodecError.message "private actions do not match sealed projection digests"
  -- the second digest is read only if the first one matches
  if projection.providerExecutionPlanDigest ≠
      (← digest (← field body "providerExecutionPlanDigest")) then .error mismatch
  else if projection.publicProjectionDigest ≠
      (← digest (← field body "publicProjectionDigest")) then .error mismatch
  else .ok ()

/-- The envelope the body holds, sealed again. -/
def openEnvelope (body : CborValue) (privatePlan : StoredProviderPlan) :
    Except CodecError PlanEnvelope := do
  let publicSteps ← list (← field body "publicSteps") step
  let effectSet ← effects (← field body "effectSet")
  let projection ← (validateProjection (projected publicSteps) privatePlan effectSet).mapError
    .projection
  checkProjection body projection
  let schemaVersion ← u32Value (← field body "schemaVersion")
  if (⟨schemaVersion⟩ : PlanSchemaVersion) ≠ .CURRENT then
    .error (.message "unsupported sealed plan schema")
  else do
    let input ← sealInput body ⟨schemaVersion⟩ publicSteps effectSet projection
    (PlanEnvelope.sealPlan input).mapError .plan

/-- The sealed bytes and the digest beside them are those of the envelope. -/
def checkEnvelope (envelope : PlanEnvelope) (storage : CborValue) (bodyBytes : List UInt8) :
    Except CodecError Unit := do
  let mismatch := CodecError.message "sealed envelope bytes or digest do not match"
  if envelope.planDigest ≠ (← digest (← field storage "planDigest")) then .error mismatch
  else if (← envelope.digestBodyBytes.mapError .plan) ≠ bodyBytes then .error mismatch
  else .ok ()

def decode (bytes : List UInt8) : Except CodecError StoredPlan :=
  if MAX_BYTES < bytes.length then .error (.message "sealed plan exceeds the storage size bound")
  else do
    let storage ← (decodeCanonical bytes).mapError .cbor
    if (← uint (← field storage "storageVersion")) ≠ 1 then
      .error (.message "unsupported private plan storage version")
    else do
      let bodyBytes ← byteString (← field storage "envelope")
      let body ← (decodeCanonical bodyBytes).mapError .cbor
      let actions ← list (← field storage "privateActions") action
      let envelope ← openEnvelope body ⟨actions⟩
      checkEnvelope envelope storage bodyBytes
      let stored : StoredPlan := ⟨envelope, ⟨actions⟩⟩
      -- the round trip is the check
      if (← encode stored) ≠ bytes then
        .error (.message "unsupported or inconsistent private plan storage fields")
      else .ok stored

/-! ### What is written is read back -/

variable {α : Type}

@[simp] theorem pure_ok (a : α) : (pure a : Except CodecError α) = .ok a := rfl

@[simp] theorem text_reads (s : String) : text (CborValue.text s).sortKeys = .ok s := rfl

@[simp] theorem uint_reads (n : UInt64) : uint (CborValue.unsigned n).sortKeys = .ok n := rfl

@[simp] theorem boolean_reads (b : Bool) : boolean (CborValue.bool b).sortKeys = .ok b := rfl

@[simp] theorem byteString_reads (b : List UInt8) :
    byteString (CborValue.bytes b).sortKeys = .ok b := rfl

@[simp] theorem u32Value_reads (n : UInt32) :
    u32Value (CborValue.unsigned n.toUInt64).sortKeys = .ok n := by
  have hlt : n.toUInt64.toNat < 2 ^ 32 := by
    exact n.toNat_lt
  simp only [u32Value, uint_reads, ok_bind]
  rw [if_pos hlt, UInt32.toUInt32_toUInt64]

@[simp] theorem digest_reads (d : Sha256Digest) : digest d.toCbor.sortKeys = .ok d := by
  simp only [digest, Sha256Digest.toCbor, byteString_reads, ok_bind]
  rw [dif_pos d.length_eq]

@[simp] theorem opaqueId_reads (o : OpaqueId) : opaqueId o.toCbor.sortKeys = .ok o := by
  simp only [opaqueId, OpaqueId.toCbor, text_reads, ok_bind, OpaqueId.new_value,
    mapError_ok]

theorem name_reads {parse : String → Option α} {s : String} {a : α}
    (h : parse s = some a) (unknown : String) :
    name parse unknown (CborValue.text s).sortKeys = .ok a := by
  simp only [name, text_reads, ok_bind, h]

@[simp] theorem mode_reads (m : DeviceMode) : mode (modeCbor m).sortKeys = .ok m := by
  simp only [mode, modeCbor, text_reads, ok_bind, DeviceMode.new_value, mapError_ok]

variable {read : CborValue → Except CodecError α} {write : α → CborValue}

theorem list_reads
    {norm : α → α} (h : ∀ a, read (write a).sortKeys = .ok (norm a)) (l : List α) :
    list (CborValue.array (l.map write)).sortKeys read = .ok (l.map norm) := by
  rw [sortKeys_array]
  refine mapM_eq_ok.mpr ?_
  rw [List.map_map, List.forall₂_map_left_iff, List.forall₂_map_right_iff, List.forall₂_same]
  exact fun a _ => h a

theorem optional_reads
    (h : ∀ a, read (write a).sortKeys = .ok a) (hnull : ∀ a, (write a).sortKeys ≠ .null)
    (o : Option α) : optional (orNull write o).sortKeys read = .ok o := by
  rcases o with _ | a
  · rfl
  · unfold optional
    split
    · next hv => exact absurd hv (hnull a)
    · exact congrArg (some <$> ·) (h a)

theorem fields_read {es : List (String × CborValue)} (hn : (es.map Prod.fst).Nodup) :
    ∀ e ∈ es, field (CborValue.textMap es).sortKeys e.1 = .ok e.2.sortKeys := by
  intro e he
  have hfield := field_sortKeys hn he
  rw [sortKeys_textMap]
  unfold field
  simp only [CborValue.textMap, map, ok_bind]
  rw [show (sortedFields es).map (fun e => (CborValue.text e.1, e.2)) = sortedEntries es from rfl,
    hfield]

/-- A field of a record that is written out. -/
@[simp] theorem field_reads {es : List (String × CborValue)} {key : String}
    (hn : (es.map Prod.fst).Nodup) (h : (es.find? (·.1 = key)).isSome) :
    field (CborValue.textMap es).sortKeys key = .ok ((es.find? (·.1 = key)).get h).2.sortKeys := by
  have hkey : ((es.find? (·.1 = key)).get h).1 = key := by
    simpa using List.find?_some (Option.some_get h).symm
  have hread := fields_read hn _ (List.get_find?_mem h)
  rwa [hkey] at hread

@[simp] theorem version_reads (v : Version) : version v.toCbor.sortKeys = .ok v := by
  rw [Version.toCbor, sortKeys_array]
  simp [version, array]

@[simp] theorem range_reads (r : ByteRange) : range r.toCbor.sortKeys = .ok r := by
  simp [ByteRange.toCbor, range, ByteRange.new_start_length, mapError_ok]

@[simp] theorem bootField_reads (b : BootMetadataField) :
    bootField (CborValue.text b.asStr).sortKeys = .ok b :=
  name_reads (by cases b <;> rfl) _

theorem map_single (key : String) (v : CborValue) :
    map (CborValue.textMap [(key, v)]).sortKeys =
      .ok [((CborValue.text key).sortKeys, v.sortKeys)] := by
  rw [sortKeys_textMap]
  exact map.eq_1 _

@[simp] theorem target_reads (t : SemanticTarget) : target t.toCbor.sortKeys = .ok t := by
  cases t <;> simp [SemanticTarget.toCbor, target, map_single]
  rfl

theorem textMap_ne_null (es : List (String × CborValue)) :
    (CborValue.textMap es).sortKeys ≠ .null := by
  exact fun h => CborValue.noConfusion h

theorem target_ne_null (t : SemanticTarget) : t.toCbor.sortKeys ≠ .null := by
  cases t <;> exact textMap_ne_null _

theorem digest_ne_null (d : Sha256Digest) : d.toCbor.sortKeys ≠ .null :=
  fun h => CborValue.noConfusion h

theorem mode_ne_null (m : DeviceMode) : (modeCbor m).sortKeys ≠ .null :=
  fun h => CborValue.noConfusion h

@[simp] theorem workflowEffect_reads (e : WorkflowEffect) :
    workflowEffect e.toCbor.sortKeys = .ok e :=
  name_reads (by cases e <;> rfl) _

@[simp] theorem kind_reads (k : FlashStepKind) (unknown : String) :
    name kindNamed unknown (CborValue.text (kindName k)).sortKeys = .ok k :=
  name_reads (by cases k <;> rfl) _

@[simp] theorem cancellation_reads (c : CancellationPolicy) (unknown : String) :
    name CancellationPolicy.parse unknown (CborValue.text c.asStr).sortKeys = .ok c :=
  name_reads (by cases c <;> rfl) _

@[simp] theorem bindingRequirement_reads (b : BindingRequirement) (unknown : String) :
    name BindingRequirement.parse unknown (CborValue.text b.asStr).sortKeys = .ok b :=
  name_reads (by cases b <;> rfl) _

theorem step_reads (s : PlanStep) : step s.toCbor.sortKeys = .ok s := by
  simp [PlanStep.toCbor, step, optional_reads target_reads target_ne_null,
    optional_reads digest_reads digest_ne_null, optional_reads mode_reads mode_ne_null]

@[simp] theorem role_reads (r : PrivateActionRole) : role r.toCbor.sortKeys = .ok r :=
  name_reads (by cases r <;> rfl) _

def sortedAction (a : PrivateActionRecord) : PrivateActionRecord :=
  { a with body := a.body.sortKeys }

theorem action_reads (a : PrivateActionRecord) : action a.toCbor.sortKeys = .ok (sortedAction a) := by
  simp [PrivateActionRecord.toCbor, action, optional_reads target_reads target_ne_null,
    optional_reads digest_reads digest_ne_null,
    optional_reads range_reads fun r => textMap_ne_null _, sortedAction]

@[simp] theorem binding_reads (b : AuthorityBindingRef) : binding b.toCbor.sortKeys = .ok b := by
  simp [AuthorityBindingRef.toCbor, binding]

@[simp] theorem provider_reads (p : ProviderIdentity) : provider p.toCbor.sortKeys = .ok p := by
  simp [ProviderIdentity.toCbor, provider]

@[simp] theorem profile_reads (p : DeviceProfileIdentity) : profile p.toCbor.sortKeys = .ok p := by
  simp [DeviceProfileIdentity.toCbor, profile]

@[simp] theorem artifactFormat_reads (f : ArtifactFormat) :
    artifactFormat f.toCbor.sortKeys = .ok f := by
  simp [ArtifactFormat.toCbor, artifactFormat]

@[simp] theorem artifact_reads (a : ArtifactIdentity) : artifact a.toCbor.sortKeys = .ok a := by
  simp [ArtifactIdentity.toCbor, artifact]

@[simp] theorem toolchainKind_reads (k : ToolchainKind) (unknown : String) :
    name ToolchainKind.parse unknown (CborValue.text k.asStr).sortKeys = .ok k :=
  name_reads (by cases k <;> rfl) _

@[simp] theorem toolchain_reads (t : ToolchainIdentity) : toolchain t.toCbor.sortKeys = .ok t := by
  simp [ToolchainIdentity.toCbor, toolchain,
    optional_reads text_reads fun s h => CborValue.noConfusion h]

@[simp] theorem maturity_reads (m : MaturityState) : maturity m.toCbor.sortKeys = .ok m := by
  cases m <;> simp [MaturityState.toCbor, maturity, MaturityState.asStr, MaturityState.blocker,
    MaturityState.campaign, orNull]

@[simp] theorem supportState_reads (s : AuthoritySupportState) :
    supportState s.toCbor.sortKeys = .ok s := by
  cases s <;> simp [AuthoritySupportState.toCbor, supportState, AuthoritySupportState.asStr,
    AuthoritySupportState.blocker, AuthoritySupportState.campaign, orNull]

@[simp] theorem authoritySupport_reads (b : AuthoritySupportBinding) :
    authoritySupport b.toCbor.sortKeys = .ok b := by
  simp [AuthoritySupportBinding.toCbor, authoritySupport]

@[simp] theorem recoveryContract_reads (c : RecoveryContractRef) :
    recoveryContract c.toCbor.sortKeys = .ok c := by
  simp [RecoveryContractRef.toCbor, recoveryContract]

/-- Entries in the order in which a decoded map has them. -/
def sortedById {α : Type} (l : List (OpaqueId × α)) : List (OpaqueId × α) :=
  sortByKey (fun e => textBytes e.1.value) l

theorem entries_reads
    (h : ∀ a, read (write a).sortKeys = .ok a) (l : List (OpaqueId × α)) :
    entries (CborValue.textMap (l.map fun e => (e.1.value, write e.2))).sortKeys read =
      .ok (sortedById l) := by
  have hsorted : sortedFields (l.map fun e => (e.1.value, write e.2)) =
      (sortedById l).map fun e => (e.1.value, (write e.2).sortKeys) := by
    unfold sortedFields sortedById
    rw [List.map_map]
    exact (map_sortByKey fun _ _ => rfl).symm
  rw [sortKeys_textMap, hsorted]
  refine mapM_eq_ok.mpr ?_
  rw [List.map_map, List.forall₂_map_left_iff, List.forall₂_same]
  intro e _
  have hkey : opaqueId (CborValue.text e.1.value) = .ok e.1 := opaqueId_reads e.1
  simp [hkey, h]

/-- A policy with its facts in the order in which a decoded map has them. -/
def sortedPolicy (p : PostflightPolicy) : PostflightPolicy :=
  { p with requiredRuntimeFacts := sortedById p.requiredRuntimeFacts }

theorem postflight_reads (p : PostflightPolicy) :
    postflight p.toCbor.sortKeys = .ok (sortedPolicy p) := by
  simp [PostflightPolicy.toCbor, postflight, optional_reads mode_reads mode_ne_null,
    entries_reads text_reads, sortedPolicy]

@[simp] theorem impact_reads (s : DataImpactState) :
    impact (CborValue.text (impactName s)).sortKeys = .ok s :=
  name_reads (by cases s <;> rfl) _

@[simp] theorem dataImpact_reads (d : DataImpact) :
    dataImpact (dataImpactCbor d).sortKeys = .ok d := by
  simp [dataImpactCbor, dataImpact]

@[simp] theorem integer_reads (n : Int64) : integer (integerCbor n).sortKeys = .ok n := by
  unfold integerCbor
  split_ifs with hneg
  · rfl
  · have hle : 0 ≤ n.toInt := by
      rw [Int64.lt_iff_toInt_lt] at hneg
      simpa using hneg
    have hlt := n.toInt_lt
    have hnat : n.toUInt64.toNat = n.toInt.toNat := by
      have hcond := BitVec.toInt_eq_toNat_cond n.toBitVec
      have hbits : n.toUInt64.toNat = n.toBitVec.toNat := rfl
      have hint : n.toInt = n.toBitVec.toInt := rfl
      split_ifs at hcond <;> omega
    simp only [integer, CborValue.sortKeys]
    rw [if_pos (by omega), Int64.toInt64_toUInt64]

@[simp] theorem typedValue_reads (t : TypedValue) :
    typedValue (typedValueCbor t).sortKeys = .ok t := by
  cases t <;> simp [typedValueCbor, typedValue, map_single]

theorem persistent_reads (e : PersistentEffect) :
    persistent (persistentCbor e).sortKeys = .ok e := by
  cases e <;> simp [persistentCbor, persistent]

@[simp] theorem agentStage_reads (s : AgentStage) :
    agentStage (CborValue.text s.value).sortKeys = .ok s := by
  simp only [agentStage, text_reads, ok_bind, AgentStage.new_value, mapError_ok]

@[simp] theorem memoryRegion_reads (r : MemoryRegion) :
    memoryRegion (memoryRegionCbor r).sortKeys = .ok r := by
  simp [memoryRegionCbor, memoryRegion]

theorem transient_reads (e : TransientEffect) : transient (transientCbor e).sortKeys = .ok e := by
  cases e <;> simp [transientCbor, transient]

theorem effects_reads (e : EffectSet) : effects (effectSetCbor e).sortKeys = .ok e := by
  simp [effectSetCbor, effects, list_reads persistent_reads, list_reads transient_reads]

@[simp] theorem purpose_reads (p : ExecutionPurpose) (unknown : String) :
    name ExecutionPurpose.parse unknown (CborValue.text p.asStr).sortKeys = .ok p :=
  name_reads (by cases p <;> rfl) _

end ArkForge.Engine.PlanCodec
