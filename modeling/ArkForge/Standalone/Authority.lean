import ArkForge.Daemon.Jobs
import ArkForge.Ipc.Wire
import ArkForge.Lib.Fallible

/-! # The standalone authority

The supervisor decides on its own what the daemon may do. It keeps a record of every plan it sealed,
and for every job the lineage of its target: which observation is the device now, and what identified
it. Before it permits a step it looks for the device of the lineage among the current observations. -/

namespace ArkForge.Standalone.Authority

open Lib.Fallible Lib.Ordered Lib.Result
open Core.Cbor Core.Digest Core.Effect Core.FlashStep
open Core.Ids Core.Plan
open Ipc.Jobs Ipc.Receipt Ipc.Wire
open Transport.Observation
open Exec

/-! ### Failures -/

/-- The error a message ends with. -/
inductive Cause where
  | text (message : String)
  | io (message : String)
  | wire (error : WireError)
  | id (error : IdError)
  | mode (error : EffectError)
  | cbor (error : CborError)

structure StandaloneError where
  code : String
  message : String
  cause : Option Cause
  exitCode : ℕ
  retryable : Bool

def internal (context : String) (cause : Cause) : StandaloneError :=
  ⟨"SUPERVISOR_IO_FAILED", "Cannot " ++ context ++ ": ", some cause, 10, true⟩

def statusDecode (error : WireError) : StandaloneError :=
  ⟨"SUPERVISOR_RESPONSE_INVALID", "The authority supervisor response is invalid: ",
    some (.wire error), 10, false⟩

def permitInvalid (cause : Cause) : StandaloneError :=
  ⟨"PERMIT_INPUT_INVALID", "Cannot construct an exact step permit: ", some cause, 10, false⟩

def digestBytes (bytes : List UInt8) (name : String) : Except StandaloneError Sha256Digest :=
  if h : bytes.length = 32 then .ok ⟨bytes, h⟩
  else .error (permitInvalid (.text (name ++ " is not 32 bytes")))

theorem digestBytes_eq_ok {bytes : List UInt8} {name : String} {d : Sha256Digest} :
    digestBytes bytes name = .ok d ↔ d.bytes = bytes := by
  unfold digestBytes
  constructor
  · intro h
    split_ifs at h
    cases h
    rfl
  · rintro rfl
    rw [dif_pos d.length_eq]

/-! ### Plans -/

def targetText : Option SemanticTarget → String
  | some (.partition id) => "partition:" ++ id.value
  | some (.rawRegion id) => "region:" ++ id.value
  | some (.bootMetadata field) => "bootMetadata:" ++ field.asStr
  | some .device => "device"
  | none => ""

def encodeStep (step : PlanStep) : PublicStep where
  stepId := step.stepId.value
  kind := kindName step.kind
  effect := step.effect.asStr
  cancellation := step.cancellation.asStr
  binding := step.binding.asStr
  semanticTarget := targetText step.semanticTarget
  contentSha256 := (step.contentDigest.map fun digest => digest.toHex).getD ""
  expectedModeBefore := (step.expectedModeBefore.map fun mode => mode.value).getD ""
  expectedModeAfter := (step.expectedModeAfter.map fun mode => mode.value).getD ""
  privateActionSha256 := step.privateActionDigest.toHex

/-- The plan the daemon answered a materialization with. -/
structure ExecutablePlan where
  planId : String
  planSha256 : String
  publicSteps : List PublicStep

structure AuthorityPlanRecord where
  plan : ExecutablePlan
  bindingId : String
  stableIdentitySha256 : List UInt8
  deviceId : String
  profileId : String
  supersedesJobId : String
  topologySha256 : String
  toolchainId : String

/-- The file a record is kept in is named after the digest of its key. -/
def journalName (key suffix : String) : String := (sha256 (utf8 key)).toHex ++ suffix

def loadAuthorityPlan (plans : OrdMap String AuthorityPlanRecord) (planId : String) :
    Except StandaloneError AuthorityPlanRecord :=
  match plans.get (journalName planId ".plan") with
  | none => .error ⟨"PLAN_NOT_FOUND", "Cannot read authority plan " ++ planId, none, 5, false⟩
  | some record =>
    if record.plan.planId ≠ planId ∨ record.bindingId = "" ∨
        record.stableIdentitySha256.length ≠ 32 ∨ record.topologySha256 = "" ∨
        record.toolchainId = "" then
      .error ⟨"PLAN_STATE_INVALID", "Authority plan journal for " ++ planId ++
        " is incomplete or mismatched.", none, 10, false⟩
    else .ok record

/-! ### Lineages -/

/-- Which observation the target of a job is now, and what identified it. -/
structure ActiveTargetLineage where
  planId : String
  currentDeviceId : String
  currentStableIdentitySha256 : List UInt8
  topologySha256 : String
  revision : UInt64
  deriving DecidableEq

def encodeJobLineage (lineage : ActiveTargetLineage) : List UInt8 :=
  writeString 1 lineage.planId ++ writeString 2 lineage.currentDeviceId ++
    writeBytes 3 lineage.currentStableIdentitySha256 ++ writeString 4 lineage.topologySha256 ++
    writeUint64 5 lineage.revision

/-- One field of a lineage that is read back. -/
def lineageField (lineage : ActiveTargetLineage) (field : ℕ) (value : FieldValue) :
    Except StandaloneError ActiveTargetLineage :=
  match field with
  | 1 => do return { lineage with planId := ← (value.asStr 1).mapError statusDecode }
  | 2 => do return { lineage with currentDeviceId := ← (value.asStr 2).mapError statusDecode }
  | 3 => do
    return { lineage with currentStableIdentitySha256 := ← value.asBytes.mapError statusDecode }
  | 4 => do return { lineage with topologySha256 := ← (value.asStr 4).mapError statusDecode }
  | 5 => do return { lineage with revision := ← value.asU64.mapError statusDecode }
  | _ => return lineage

def loadJobLineage (jobs : OrdMap String (List UInt8)) (jobId : String) :
    Except StandaloneError ActiveTargetLineage :=
  match jobs.get (journalName jobId ".binding") with
  | none => .error (internal "read the authority job lineage" (.io "not found"))
  | some encoded => do
    let lineage ← foldFields (fun e => internal "decode the authority job lineage" (.wire e))
      lineageField ⟨"", "", [], "", 0⟩ encoded
    if lineage.planId = "" ∨ lineage.currentDeviceId = "" ∨
        lineage.currentStableIdentitySha256.length ≠ 32 ∨ lineage.topologySha256 = "" ∨
        lineage.revision = 0 then
      .error ⟨"TARGET_LINEAGE_INVALID", "The durable target lineage is incomplete.", none, 10, false⟩
    else .ok lineage

/-- Replaces the lineage of a job. `written` says whether the new file could be written and put in
the place of the old one; until then the old one stays. -/
def persistJobLineage (written : Except StandaloneError Unit) (jobId : String)
    (lineage : ActiveTargetLineage) : Exec (OrdMap String (List UInt8)) StandaloneError Unit := do
  let jobs ← getState
  let replace : Exec (OrdMap String (List UInt8)) StandaloneError Unit := do
    lift written
    modifyState fun jobs => jobs.alter (journalName jobId ".binding") fun _ => encodeJobLineage lineage
  match jobs.get (journalName jobId ".binding") with
  | none => replace
  | some _ => do
    let existing ← lift (loadJobLineage jobs jobId)
    if lineage.revision < existing.revision then
      fail ⟨"TARGET_LINEAGE_STALE",
        "A stale target-lineage revision cannot replace newer durable evidence.", none, 6, false⟩
    else if existing.revision = lineage.revision then
      if existing = lineage then pure ()
      else fail ⟨"TARGET_LINEAGE_CONFLICT",
        "The same target-lineage revision already names different facts.", none, 6, false⟩
    else replace

/-! ### A lineage on disk -/

/-- The text has a length that can be written. -/
def Short (text : String) : Prop := (utf8 text).length < 2 ^ 64

/-- The texts of the lineage have lengths that can be written. -/
structure Storable (lineage : ActiveTargetLineage) : Prop where
  planId : Short lineage.planId
  device : Short lineage.currentDeviceId
  identity : lineage.currentStableIdentitySha256.length = 32
  topology : Short lineage.topologySha256

theorem fold_lineage {l : ActiveTargetLineage} (h : Storable l) (wire : WireError → StandaloneError) :
    foldFields wire lineageField ⟨"", "", [], "", 0⟩ (encodeJobLineage l) = .ok l := by
  have htext : ∀ {text : String} {field : ℕ},
      ((FieldValue.bytes (utf8 text)).asStr field).mapError statusDecode = .ok text := by
    intro text field
    rw [asStr_utf8, mapError_ok]
  have hidentity : l.currentStableIdentitySha256.length < 2 ^ 64 := by
    rw [h.identity]
    decide
  have hencode : encodeJobLineage l = writeString 1 l.planId ++ (writeString 2 l.currentDeviceId ++
      (writeBytes 3 l.currentStableIdentitySha256 ++ (writeString 4 l.topologySha256 ++
        (writeUint64 5 l.revision ++ [])))) := by
    simp only [encodeJobLineage, List.append_assoc, List.append_nil]
  rw [hencode]
  refine (foldFields_text (ActiveTargetLineage.mk · "" [] "" 0) ⟨by decide, by decide⟩ h.planId
    (by simp only [lineageField, htext]; rfl) _).trans ?_
  refine (foldFields_text (ActiveTargetLineage.mk l.planId · [] "" 0) ⟨by decide, by decide⟩ h.device
    (by simp only [lineageField, htext]; rfl) _).trans ?_
  refine (foldFields_bytes ⟨by decide, by decide⟩ hidentity rfl (fun hempty => by rw [hempty])
    _).trans ?_
  refine (foldFields_text (ActiveTargetLineage.mk l.planId l.currentDeviceId _ · 0)
    ⟨by decide, by decide⟩ h.topology (by simp only [lineageField, htext]; rfl) _).trans ?_
  refine (foldFields_uint64 ⟨by decide, by decide⟩ rfl (fun hzero => by rw [← hzero]) _).trans ?_
  exact foldFields_nil l

/-- The file of the job holds the lineage. -/
def Stored (jobId : String) (l : ActiveTargetLineage) (jobs : OrdMap String (List UInt8)) : Prop :=
  jobs.get (journalName jobId ".binding") = some (encodeJobLineage l)

theorem eq_of_load {jobId : String} {l loaded : ActiveTargetLineage}
    {jobs : OrdMap String (List UInt8)} (hl : Storable l) (h : Stored jobId l jobs)
    (hload : loadJobLineage jobs jobId = .ok loaded) : loaded = l := by
  unfold loadJobLineage at hload
  rw [h] at hload
  dsimp only at hload
  rw [fold_lineage hl, ok_bind] at hload
  split_ifs at hload
  exact (Except.ok.inj hload).symm

/-- A lineage takes the place of the one on disk, or the file stays as it is. -/
theorem meets_persistJobLineage {jobId : String} {l next : ActiveTargetLineage} (hl : Storable l)
    (written : Except StandaloneError Unit) :
    Meets (Stored jobId l) (persistJobLineage written jobId next) (fun _ => Stored jobId next)
      fun _ => Stored jobId l := by
  refine meets_getState.bind fun jobs => ?_
  rintro _ ⟨rfl, hstored⟩
  rw [show jobs.get (journalName jobId ".binding") = _ from hstored]
  refine meets_lift_bind (fun existing hload => ?_) (fun _ _ _ hs => hs) jobs hstored
  obtain rfl := eq_of_load hl hstored hload
  refine meets_ite (fun _ => fail_keeps) fun _ => ?_
  refine meets_ite (fun _ => meets_ite (fun hsame => hsame ▸ pure_keeps) fun _ => fail_keeps)
    fun _ => ?_
  refine lift_keeps.bind fun _ => meets_modifyState fun _ _ => ?_
  exact (OrdMap.get_alter _ _ _ _).trans (if_pos rfl)

/-! ### Observations -/

/-- A device, as the daemon shows it. -/
structure DeviceObservationView where
  observationId : String
  mode : String
  topologySha256 : String
  descriptorSha256 : String
  identityStrength : String
  malformedDescriptor : Bool
  protocolIdentity : List KeyValue
  serialSha256 : String
  serialEvidenceKind : String

structure DeviceProbeView where
  observation : DeviceObservationView
  protocolFacts : List KeyValue
  profileId : String

/-- The hexadecimal digits are those of the bytes. -/
def showsDigest (bytes : List UInt8) (name hex : String) : Bool :=
  match digestBytes bytes name with
  | .ok digest => digest.toHex = hex
  | .error _ => false

/-- The observation is of the device the daemon was asked to admit. -/
def observationMatchesAdmission (observation : DeviceObservationView)
    (snapshot : StepAdmissionSnapshot) : Bool :=
  observation.mode = snapshot.observedMode &&
  showsDigest snapshot.topologySha256 "topology digest" observation.topologySha256 &&
  showsDigest snapshot.descriptorSha256 "descriptor digest" observation.descriptorSha256 &&
  showsDigest snapshot.serialSha256 "serial digest" observation.serialSha256 &&
  observation.serialEvidenceKind = snapshot.serialEvidenceKind &&
  observation.protocolIdentity = snapshot.protocolIdentity &&
  observation.identityStrength = snapshot.identityStrength &&
  observation.malformedDescriptor = snapshot.malformedDescriptor

/-- Eight bytes, the high one first. -/
def beBytes (n : ℕ) : List UInt8 :=
  (List.range 8).map fun i => UInt8.ofNat (n / 256 ^ (7 - i))

def stableField (label : String) (value : List UInt8) : List UInt8 :=
  beBytes (utf8 label).length ++ utf8 label ++ beBytes value.length ++ value

def stableObservation (source : String) (observation : DeviceObservationView) : List UInt8 :=
  stableField "observation.source" (utf8 source) ++
  stableField "observation.id" (utf8 observation.observationId) ++
  stableField "observation.mode" (utf8 observation.mode) ++
  stableField "observation.topology" (utf8 observation.topologySha256) ++
  stableField "observation.descriptor" (utf8 observation.descriptorSha256) ++
  stableField "observation.serial" (utf8 observation.serialSha256) ++
  stableField "observation.serial-evidence-kind" (utf8 observation.serialEvidenceKind) ++
  stableField "observation.identity-strength" (utf8 observation.identityStrength) ++
  stableField "observation.malformed-descriptor"
    [if observation.malformedDescriptor then 1 else 0] ++
  observation.protocolIdentity.flatMap fun fact =>
    stableField "observation.fact.key" (utf8 fact.key) ++
    stableField "observation.fact.value" (utf8 fact.value)

/-- What identifies a device: what was seen when it was discovered and when it was probed. -/
def stableIdentityDigest (observation : DeviceObservationView) (probe : DeviceProbeView) :
    Sha256Digest :=
  sha256 (utf8 "arkforge.cli-stable-identity/v2" ++ stableObservation "discovery" observation ++
    stableObservation "same-handle-probe" probe.observation ++
    stableField "probe.profile" (utf8 probe.profileId) ++
    probe.protocolFacts.flatMap fun fact =>
      stableField "probe.fact.key" (utf8 fact.key) ++
      stableField "probe.fact.value" (utf8 fact.value))

/-- `list` is the answer to the device list, `probe` that of the probe of an observation. -/
def currentStableIdentity (list : Except StandaloneError (List DeviceObservationView))
    (probe : String → Except StandaloneError DeviceProbeView) (device : String) :
    Except StandaloneError Sha256Digest := do
  let observations ← list
  match observations.find? fun candidate => candidate.observationId = device with
  | none => .error ⟨"OBSERVATION_NOT_FOUND",
      "No current observation exactly matches " ++ device ++ ".", none, 5, true⟩
  | some observation => do
    let probed ← probe device
    return stableIdentityDigest observation probed

/-- The step before this one was a reboot into the mode the device is in now, and this step stays
in that mode. -/
def priorRebootAuthorizesRebind (plan : ExecutablePlan) (snapshot : StepAdmissionSnapshot) : Bool :=
  match plan.publicSteps.findIdx? fun step => step.stepId = snapshot.stepId with
  | none | some 0 => false
  | some (previous + 1) =>
    match plan.publicSteps[previous]?, plan.publicSteps[previous + 1]? with
    | some previous, some current =>
      previous.kind = "reboot" &&
      previous.expectedModeBefore ≠ "" &&
      previous.expectedModeBefore ≠ previous.expectedModeAfter &&
      previous.expectedModeAfter = snapshot.observedMode &&
      current.expectedModeBefore = snapshot.observedMode &&
      current.expectedModeAfter = snapshot.observedMode &&
      showsDigest snapshot.privateActionSha256 "private action digest" current.privateActionSha256
    | _, _ => false

/-- What the daemon and the disk answer while a lineage is resolved. -/
structure LineageAnswers where
  devices : Except StandaloneError (List DeviceObservationView)
  probe : String → Except StandaloneError DeviceProbeView
  written : Except StandaloneError Unit

/-- The lineage under which the step may be permitted. Where the device of the lineage is gone, the
lineage moves to the only observation of the snapshot, if a reboot of the plan explains it. -/
def resolveLineageForAdmission (answers : LineageAnswers) (snapshot : StepAdmissionSnapshot)
    (record : AuthorityPlanRecord) (lineage : ActiveTargetLineage) :
    Exec (OrdMap String (List UInt8)) StandaloneError (Option ActiveTargetLineage) := do
  let observations ← lift answers.devices
  match observations.find? fun o => o.observationId = lineage.currentDeviceId with
  | some current =>
    return if observationMatchesAdmission current snapshot then some lineage else none
  | none =>
    if priorRebootAuthorizesRebind record.plan snapshot = false then return none
    else
      match observations.filter fun o => observationMatchesAdmission o snapshot with
      | [rebound] => do
        let probe ← lift (answers.probe rebound.observationId)
        if observationMatchesAdmission probe.observation snapshot = false then return none
        else do
          let advanced : ActiveTargetLineage := { lineage with
            currentDeviceId := rebound.observationId
            currentStableIdentitySha256 := (stableIdentityDigest rebound probe).bytes
            revision := Daemon.Jobs.saturatingAdd lineage.revision 1 }
          persistJobLineage answers.written snapshot.jobId advanced
          return some advanced
      | _ => return none

/-! ### The device facts of a snapshot -/

def IdentityEvidenceStrength.parse : String → Option IdentityEvidenceStrength
  | "classOnly" => some .classOnly
  | "serialAsserted" => some .serialAsserted
  | "serialAndTopology" => some .serialAndTopology
  | "protocolConfirmed" => some .protocolConfirmed
  | _ => none

def serialEvidence (snapshot : StepAdmissionSnapshot) : Except StandaloneError SerialEvidence :=
  match snapshot.serialEvidenceKind with
  | "absent" =>
    if snapshot.serialSha256 = [] then .ok .absent
    else .error (permitInvalid (.text "admission serial evidence is malformed"))
  | "descriptor" => (digestBytes snapshot.serialSha256 "serial digest").map .descriptor
  | "protocolUnique" => (digestBytes snapshot.serialSha256 "serial digest").map .protocolUnique
  | _ => .error (permitInvalid (.text "admission serial evidence is malformed"))

/-- The digest of the device facts the snapshot shows, computed from those facts. -/
def recomputeAdmittedDeviceDigest (snapshot : StepAdmissionSnapshot) :
    Except StandaloneError Sha256Digest := do
  let serialEvidence ← serialEvidence snapshot
  let observationId ← (OpaqueId.new "CLI-ADMISSION-SNAPSHOT").mapError fun e => permitInvalid (.id e)
  let mode ← (DeviceMode.new snapshot.observedMode).mapError fun e => permitInvalid (.mode e)
  let topologyDigest ← digestBytes snapshot.topologySha256 "topology digest"
  let descriptorDigest ← digestBytes snapshot.descriptorSha256 "descriptor digest"
  let protocolIdentity ← snapshot.protocolIdentity.mapM fun fact => do
    let key ← (OpaqueId.new fact.key).mapError fun e => permitInvalid (.id e)
    return { key, value := fact.value : ProtocolIdentityFact }
  let identityStrength ← match IdentityEvidenceStrength.parse snapshot.identityStrength with
    | some strength => .ok strength
    | none => .error (permitInvalid (.text "admission identity strength is unknown"))
  let observation : DeviceObservation := {
    observationId, observedAtEpochMs := snapshot.observedAtEpochMs, mode, topologyDigest,
    descriptorDigest, serialEvidence, protocolIdentity, providerCandidates := [], identityStrength,
    malformedDescriptor := snapshot.malformedDescriptor }
  observation.admissionFactsDigest.mapError fun e => permitInvalid (.cbor e)

end ArkForge.Standalone.Authority
