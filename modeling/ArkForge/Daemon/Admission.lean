import ArkForge.Daemon.Jobs

/-! # Admission

A job asks for a permit by publishing a snapshot of its next step: what the step is, and the facts of
the device it is admitted with. -/

namespace ArkForge.Daemon.Admission

open Core.Ids Core.Effect Core.Projection
open Core.Plan
open Authority.Permit
open Engine.Durable Engine.Recovery
open Provider.Actions
open Ipc.Jobs Jobs

/-! ### The private actions of a step -/

/-- Read-only sub-actions in their order, then the primary effect. -/
def orderedActions (privatePlan : StoredProviderPlan) (stepId : String) :
    Except JobError (List PrivateActionRecord) :=
  let ofStep := privatePlan.actions.filter fun a => a.stepId.value = stepId
  match (ofStep.filter fun a => a.role = .primaryEffect).getLast? with
  | some primary => .ok (ofStep.filter (fun a => a.role = .readOnlyTransportSubAction) ++ [primary])
  | none => .error (.stepHasNoAction stepId)

def controlActionNamed (name : String) : Except JobError ManagedControlAction :=
  if name = "enter-updater" then .ok .enterUpdater
  else if name = "reboot-to-normal" then .ok .rebootToNormal
  else if name = "read-product-facts" then .ok .readProductFacts
  else if name = "read-build-facts" then .ok .readBuildFacts
  else .error (.unknownControlAction name)

/-- Whether the step belongs to the authority's control port, and what it must confirm. -/
def managedControlFor (privatePlan : StoredProviderPlan) (stepId : String) :
    Except JobError (Option (ManagedControlAction × List (String × String))) :=
  match privatePlan.actions.find? fun a => a.stepId.value = stepId with
  | none => .error (.stepHasNoAction stepId)
  | some action =>
    match StoredAction.decode action with
    | .ok (.managedControl controlAction expect) => do
      let action ← controlActionNamed controlAction
      return some (action, expect)
    | _ => .ok none

/-! ### Asking -/

/-- Reads an error of the encoding as one of the job. -/
def ofCbor {α : Type} (x : Except Core.Cbor.CborError α) : Except JobError α :=
  x.mapError fun e => .core (.cbor e)

def requireStep (envelope : FlashPlanEnvelope) (index : ℕ) : Except JobError PlanStep :=
  match envelope.publicSteps[index]? with
  | some step => .ok step
  | none => .error .planHasNoSteps

def primaryAction (privatePlan : StoredProviderPlan) (stepId : StepId) :
    Except JobError PrivateActionRecord :=
  match privatePlan.actions.find? fun a => a.stepId = stepId && a.role = .primaryEffect with
  | some action => .ok action
  | none => .error (.stepHasNoAction stepId.value)

/-- The device has to be in the mode the step starts from. -/
def requireMode (expected : Option DeviceMode) (observed : DeviceMode) : Except JobError Unit :=
  match expected with
  | some mode =>
    if mode = observed then .ok () else .error (.observedModeMismatch mode.value observed.value)
  | none => .ok ()

/-- What the authority is shown about the current step, and the facts it rests on. -/
def admissionSnapshot (job : Job) (envelope : FlashPlanEnvelope) (privatePlan : StoredProviderPlan)
    (facts : AdmissionFacts) : Except JobError (StepAdmissionSnapshot × AuthoritySnapshot) := do
  let step ← requireStep envelope job.stepIndex
  let primary ← primaryAction privatePlan step.stepId
  let observation := facts.observation
  requireMode step.expectedModeBefore observation.mode
  let freshness ← facts.authoritySnapshot
  let publicStep ← ofCbor step.digest
  let privateAction ← ofCbor primary.digest
  let effectSet ← ofCbor (effectSetDigest envelope.effectSet)
  return ({
    jobId := job.jobId
    planId := job.planId
    planSha256 := job.planDigest.bytes
    stepId := step.stepId.value
    attemptId := "ATTEMPT-" ++ toString (job.stepIndex + 1)
    publicStepSha256 := publicStep.bytes
    privateActionSha256 := privateAction.bytes
    effectSetSha256 := effectSet.bytes
    admittedDeviceFactsSha256 := freshness.deviceFactsDigest.bytes
    observedMode := observation.mode.value
    observedAtEpochMs := observation.observedAtEpochMs
    snapshotLifetimeMs := SNAPSHOT_LIFETIME_MS
    requestId := job.jobId ++ "-" ++ toString (job.stepIndex + 1)
    topologySha256 := observation.topologyDigest.bytes
    descriptorSha256 := observation.descriptorDigest.bytes
    serialSha256 := observation.serialEvidence.kindAndBytes.2
    serialEvidenceKind := observation.serialEvidence.kindAndBytes.1
    protocolIdentity := observation.protocolIdentity.map fun f => ⟨f.key.value, f.value⟩
    identityStrength := observation.identityStrength.asStr
    malformedDescriptor := observation.malformedDescriptor
    transportSessionSha256 := facts.transportSessionDigest.bytes }, freshness)

/-- Publishes the admission the job's current step needs. -/
def requestAdmission (io : AppendIo) (envelope : FlashPlanEnvelope) (privatePlan : StoredProviderPlan)
    (facts : AdmissionFacts) (now : UInt64) : JobTx Unit := do
  let job ← get
  let (snapshot, freshness) ← liftExcept (admissionSnapshot job envelope privatePlan facts)
  let recordDigest ← record io .stepAdmissionRequested now snapshot.stepId
    [(Fact.STEP_ID, snapshot.stepId)]
  modify fun job => { job with pending := some (.admission snapshot.requestId snapshot freshness) }
  publish .stepAdmissionRequested now recordDigest { admission := some snapshot }

end ArkForge.Daemon.Admission
