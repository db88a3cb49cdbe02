import ArkForge.Authority.PermitBytes
import ArkForge.Standalone.Authority

/-! # Answering an admission

The daemon asks for a permit by publishing an admission snapshot. The authority checks the snapshot
against its record of the plan, the lineage of the job and the current observations, and submits a
permit or a refusal. A permit is on disk before it is submitted, in a file named after the request: a
request that was answered once is answered with the same bytes. -/

namespace ArkForge.Standalone.Permits

open Lib.Fallible Lib.Ordered
open Core.Cbor Core.Digest Core.Ids
open Ipc.Jobs Ipc.Wire
open Authority.Permit Standalone.Authority
open Exec

/-! ### The permit journal -/

def encodePersistedPermit (submission : SubmitStepPermitRequest) : List UInt8 :=
  writeBytes 1 submission.permitCbor ++
    (writeBytes 2 submission.integrityTag ++ writeUint64 3 submission.pairingEpoch)

/-- What has been read of a persisted permit. -/
structure PersistedPermit where
  permitCbor : List UInt8
  integrityTag : List UInt8
  storedEpoch : UInt64

def persistedField (persisted : PersistedPermit) (field : ℕ) (value : FieldValue) :
    Except StandaloneError PersistedPermit :=
  match field with
  | 1 => do return { persisted with permitCbor := ← value.asBytes.mapError statusDecode }
  | 2 => do return { persisted with integrityTag := ← value.asBytes.mapError statusDecode }
  | 3 => do return { persisted with storedEpoch := ← value.asU64.mapError statusDecode }
  | _ => return persisted

/-- The checks on a persisted permit, and the submission it is part of. -/
def replayPermit (snapshot : StepAdmissionSnapshot) (epoch : UInt64) (persisted : PersistedPermit) :
    Except StandaloneError SubmitStepPermitRequest :=
  if persisted.permitCbor = [] ∨ persisted.integrityTag.length ≠ 32 ∨
      persisted.storedEpoch ≠ epoch then
    .error ⟨"PERMIT_JOURNAL_INVALID",
      "A durable permit is incomplete or belongs to another pairing epoch.", none, 10, false⟩
  else .ok {
    jobId := snapshot.jobId
    requestId := snapshot.requestId
    permitCbor := persisted.permitCbor
    integrityTag := persisted.integrityTag
    pairingEpoch := epoch
    refusal := "" }

def decodePersistedPermit (snapshot : StepAdmissionSnapshot) (epoch : UInt64) (input : List UInt8) :
    Except StandaloneError SubmitStepPermitRequest := do
  let persisted ← foldFields (fun e => internal "decode a durable permit" (.wire e)) persistedField
    ⟨[], [], 0⟩ input
  replayPermit snapshot epoch persisted

/-- An identifier that goes into a permit. -/
def permitText (text : String) : Except StandaloneError OpaqueId :=
  (OpaqueId.new text).mapError fun e => permitInvalid (.id e)

def permitIdText (epoch : UInt64) (requestId : String) : String :=
  "CLI-PERMIT-" ++ String.ofList
    ((sha256 (utf8 (toString epoch.toNat ++ ":" ++ requestId))).toHex.toList.take 24)

def draftStepPermit (epoch : UInt64) (snapshot : StepAdmissionSnapshot)
    (record : AuthorityPlanRecord) (admittedDevice : Sha256Digest) (issuedAt expiresAt : UInt64) :
    Except StandaloneError StepPermit := do
  let planDigest ← digestBytes snapshot.planSha256 "plan digest"
  if planDigest.toHex ≠ record.plan.planSha256 then
    .error (permitInvalid (.text "admission plan digest differs from authority plan"))
  else do
    let permitId ← permitText (permitIdText epoch snapshot.requestId)
    let authorityNamespace ← permitText "arkforge.cli"
    let bindingId ← permitText record.bindingId
    let stableIdentityDigest ← digestBytes record.stableIdentitySha256 "stable identity digest"
    let controllerSessionId ← permitText ("CLI-SESSION-" ++ toString epoch.toNat)
    let jobId ← permitText snapshot.jobId
    let planId ← permitText snapshot.planId
    let stepId ← permitText snapshot.stepId
    let attemptId ← permitText snapshot.attemptId
    let publicStepDigest ← digestBytes snapshot.publicStepSha256 "public step digest"
    let privateActionDigest ← digestBytes snapshot.privateActionSha256 "private action digest"
    let effectSetDigest ← digestBytes snapshot.effectSetSha256 "effect set digest"
    return {
      permitId, authorityNamespace, controllerSessionId, jobId, planId, planDigest, stepId, attemptId,
      publicStepDigest, privateActionDigest, effectSetDigest
      authorityBinding := ⟨authorityNamespace, bindingId, 1, stableIdentityDigest⟩
      admittedDeviceFactsDigest := admittedDevice
      issuedAtEpochMs := issuedAt
      expiresAtEpochMs := expiresAt
      singleUse := true
      integrityTag := ⟨epoch, ⟨List.replicate 32 0, ArkForge.Authority.PermitBytes.length_zeros⟩⟩ }

def createPermit (epoch : UInt64) (pairing : ControllerPairingSecret)
    (snapshot : StepAdmissionSnapshot) (record : AuthorityPlanRecord) (admittedDevice : Sha256Digest)
    (issuedAt expiresAt : UInt64) : Except StandaloneError SubmitStepPermitRequest := do
  let permit ← draftStepPermit epoch snapshot record admittedDevice issuedAt expiresAt
  let permitCbor ← permit.signingBody.mapError fun e => permitInvalid (.cbor e)
  let tag ← (mintIntegrityTag permit pairing).mapError fun e => permitInvalid (.cbor e)
  return {
    jobId := snapshot.jobId
    requestId := snapshot.requestId
    permitCbor
    integrityTag := tag.tag.bytes
    pairingEpoch := epoch
    refusal := "" }

/-- What becomes of the file operations of one call. -/
inductive PermitFate where
  | works
  | directoryFails (error : StandaloneError)
  | readFails (error : StandaloneError)
  | createFails (error : StandaloneError)
  /-- The new file is there and holds this much, and then the call fails. -/
  | stops (written : ℕ) (error : StandaloneError)

/-- The permits of all epochs, by their path below the permit directory. -/
abbrev PermitJournal : Type := OrdMap String (List UInt8)

def permitPath (epoch : UInt64) (requestId : String) : String :=
  toString epoch.toNat ++ "/" ++ journalName requestId ".permit"

/-- Writes a permit to a file that was not there before. -/
def commitPermit (fate : PermitFate) (path : String) (persisted : List UInt8) :
    Exec PermitJournal StandaloneError Unit :=
  match fate with
  | .createFails error => fail error
  | .stops written error => do
    modifyState fun journal => journal.alter path fun _ => persisted.take written
    fail error
  | _ => modifyState fun journal => journal.alter path fun _ => persisted

/-- The permit that answers the request: the one on disk, or a new one. -/
def loadOrCreatePermit (fate : PermitFate) (epoch : UInt64) (pairing : ControllerPairingSecret)
    (snapshot : StepAdmissionSnapshot) (record : AuthorityPlanRecord) (admittedDevice : Sha256Digest)
    (issuedAt expiresAt : UInt64) : Exec PermitJournal StandaloneError SubmitStepPermitRequest := do
  let journal ← getState
  match fate, journal.get (permitPath epoch snapshot.requestId) with
  | .directoryFails error, _ => fail error
  | .readFails error, some _ => fail error
  | _, some persisted => lift (decodePersistedPermit snapshot epoch persisted)
  | fate, none => do
    let submission ←
      lift (createPermit epoch pairing snapshot record admittedDevice issuedAt expiresAt)
    commitPermit fate (permitPath epoch snapshot.requestId) (encodePersistedPermit submission)
    return submission

/-! ### The answer -/

/-- What the authority holds, on disk and in memory, and what it has submitted so far. -/
structure AuthorityState where
  plans : OrdMap String AuthorityPlanRecord
  jobs : OrdMap String (List UInt8)
  permits : PermitJournal
  targetLineages : OrdMap String ActiveTargetLineage
  submitted : List SubmitStepPermitRequest

structure SubmitOutcome where
  accepted : Bool
  rejectionCode : String
  rejectionMessage : String

/-- What the daemon, the clock and the disk answer during one call. -/
structure AdmissionAnswers where
  /-- Whether recovery lets the job go on. -/
  beforeEffect : Except StandaloneError Unit
  now : Except StandaloneError UInt64
  lineage : LineageAnswers
  devices : Except StandaloneError (List DeviceObservationView)
  probe : String → Except StandaloneError DeviceProbeView
  permit : PermitFate
  outcome : Except StandaloneError SubmitOutcome

def submit (answers : AdmissionAnswers) (submission : SubmitStepPermitRequest) :
    Exec AuthorityState StandaloneError Unit := do
  modifyState fun a => { a with submitted := a.submitted ++ [submission] }
  let outcome ← lift answers.outcome
  if outcome.accepted = false then
    fail ⟨outcome.rejectionCode, outcome.rejectionMessage, none, 3, false⟩
  else pure ()

def submitPermitRefusal (answers : AdmissionAnswers) (snapshot : StepAdmissionSnapshot)
    (epoch : UInt64) (reason : String) : Exec AuthorityState StandaloneError Unit :=
  submit answers {
    jobId := snapshot.jobId
    requestId := snapshot.requestId
    permitCbor := []
    integrityTag := []
    pairingEpoch := epoch
    refusal := reason }

/-- The lineage of the job: the one in memory, or else the one on disk. -/
def lineageOf (jobId : String) : Exec AuthorityState StandaloneError ActiveTargetLineage := do
  let a ← getState
  match a.targetLineages.get jobId with
  | some lineage => return lineage
  | none => do
    let loaded ← lift (loadJobLineage a.jobs jobId)
    modifyState fun a => { a with targetLineages := a.targetLineages.alter jobId fun _ => loaded }
    return loaded

def expiresAt (snapshot : StepAdmissionSnapshot) : UInt64 :=
  Daemon.Jobs.saturatingAdd snapshot.observedAtEpochMs snapshot.snapshotLifetimeMs

/-- Permits the step, if the device of the lineage is the one of the snapshot. -/
def permitUnderLineage (answers : AdmissionAnswers) (epoch : UInt64)
    (pairing : ControllerPairingSecret) (snapshot : StepAdmissionSnapshot)
    (record : AuthorityPlanRecord) (lineage : ActiveTargetLineage) (admittedDevice : Sha256Digest)
    (now : UInt64) : Exec AuthorityState StandaloneError Unit := do
  let resolved ← within AuthorityState.jobs (fun a jobs => { a with jobs })
    (resolveLineageForAdmission answers.lineage snapshot record lineage)
  match resolved with
  | none =>
    submitPermitRefusal answers snapshot epoch
      "The exact target lineage does not match one unique current observation."
  | some lineage => do
    modifyState fun a =>
      { a with targetLineages := a.targetLineages.alter snapshot.jobId fun _ => lineage }
    let currentStable ←
      lift (currentStableIdentity answers.devices answers.probe lineage.currentDeviceId)
    if currentStable.bytes ≠ lineage.currentStableIdentitySha256 then
      submitPermitRefusal answers snapshot epoch
        "The exact target binding no longer matches the current observation and probe facts."
    else do
      let submission ← within AuthorityState.permits (fun a permits => { a with permits })
        (loadOrCreatePermit answers.permit epoch pairing snapshot record admittedDevice now
          (expiresAt snapshot))
      submit answers submission

def permitSnapshot (answers : AdmissionAnswers) (epoch : UInt64) (pairing : ControllerPairingSecret)
    (snapshot : StepAdmissionSnapshot) (record : AuthorityPlanRecord) :
    Exec AuthorityState StandaloneError Unit := do
  let lineage ← lineageOf snapshot.jobId
  if lineage.planId ≠ snapshot.planId ∨ lineage.topologySha256 ≠ record.topologySha256 then
    submitPermitRefusal answers snapshot epoch
      "The durable target lineage does not belong to this sealed plan."
  else do
    let admittedDevice ← lift (recomputeAdmittedDeviceDigest snapshot)
    if admittedDevice.bytes ≠ snapshot.admittedDeviceFactsSha256 then
      submitPermitRefusal answers snapshot epoch
        "The admission device digest does not match the raw typed identity snapshot."
    else do
      let now ← lift answers.now
      if expiresAt snapshot ≤ now then
        submitPermitRefusal answers snapshot epoch
          "The admission snapshot expired before the authority could permit it."
      else permitUnderLineage answers epoch pairing snapshot record lineage admittedDevice now

/-- Answers an admission the daemon asked for. -/
def answerAdmission (answers : AdmissionAnswers) (epoch : UInt64)
    (pairing : ControllerPairingSecret) (snapshot : StepAdmissionSnapshot) :
    Exec AuthorityState StandaloneError Unit := do
  let a ← getState
  let record ← lift (loadAuthorityPlan a.plans snapshot.planId)
  match answers.beforeEffect with
  | .error error => submitPermitRefusal answers snapshot epoch error.message
  | .ok () => permitSnapshot answers epoch pairing snapshot record

end ArkForge.Standalone.Permits
