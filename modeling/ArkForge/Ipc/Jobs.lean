import ArkForge.Ipc.Receipt

/-! # Job messages

What the daemon publishes about a job, and what the authority submits to it. -/

namespace ArkForge.Ipc.Jobs

open Receipt

inductive JobEventKind where
  | stateChanged
  | stepAdmissionRequested
  | managedControlRequested
  | actionReceipt
  | stepCheckpointed
  | postflightRecorded
  | outcomeClassified
  | possibleEffectSet
  | recoveryAssessment
  deriving DecidableEq

structure StepAdmissionSnapshot where
  jobId : String
  planId : String
  planSha256 : List UInt8
  stepId : String
  attemptId : String
  publicStepSha256 : List UInt8
  privateActionSha256 : List UInt8
  effectSetSha256 : List UInt8
  admittedDeviceFactsSha256 : List UInt8
  observedMode : String
  observedAtEpochMs : UInt64
  snapshotLifetimeMs : UInt64
  requestId : String
  topologySha256 : List UInt8
  descriptorSha256 : List UInt8
  serialSha256 : List UInt8
  serialEvidenceKind : String
  protocolIdentity : List KeyValue
  identityStrength : String
  malformedDescriptor : Bool
  transportSessionSha256 : List UInt8

inductive ManagedControlAction where
  | enterUpdater
  | rebootToNormal
  | readProductFacts
  | readBuildFacts
  deriving DecidableEq

def ManagedControlAction.asStr : ManagedControlAction → String
  | enterUpdater => "enter-updater"
  | rebootToNormal => "reboot-to-normal"
  | readProductFacts => "read-product-facts"
  | readBuildFacts => "read-build-facts"

structure ManagedControlRequest where
  jobId : String
  stepId : String
  requestId : String
  action : ManagedControlAction
  permitId : String
  expectedFacts : List KeyValue
  deadlineEpochMs : UInt64

/-- A step of a plan, as the daemon shows it. -/
structure PublicStep where
  stepId : String
  kind : String
  effect : String
  cancellation : String
  binding : String
  semanticTarget : String
  contentSha256 : String
  expectedModeBefore : String
  expectedModeAfter : String
  privateActionSha256 : String
  deriving DecidableEq

structure SubmitStepPermitRequest where
  jobId : String
  requestId : String
  permitCbor : List UInt8
  integrityTag : List UInt8
  pairingEpoch : UInt64
  refusal : String

/-- A control action that was handed out, and whose time is over. -/
structure ClosedControlEvidence where
  stepId : String
  permitId : String
  requestId : String
  action : ManagedControlAction
  dispatchRecordSha256 : String
  deadlineEpochMs : UInt64
  dispatchedAtEpochMs : UInt64
  attemptId : String
  controllerSessionId : String

structure RecoverySourceEvidence where
  planId : String
  planSha256 : String
  journalHeadSha256 : String
  journalSequence : UInt64
  closedControl : Option ClosedControlEvidence

/-- What an event carries besides its header. -/
structure EventPayload where
  admission : Option StepAdmissionSnapshot := none
  controlRequest : Option ManagedControlRequest := none
  receipt : Option ActionReceiptSummary := none
  facts : List KeyValue := []

structure JobEvent extends EventPayload where
  jobId : String
  sequence : ℕ
  kind : JobEventKind
  atEpochMs : UInt64
  journalRecordSha256 : List UInt8
  jobState : String

structure SubmitManagedControlReceiptRequest where
  jobId : String
  requestId : String
  action : ManagedControlAction
  accepted : Bool
  facts : List KeyValue
  evidenceSha256 : List UInt8
  failureReason : String

end ArkForge.Ipc.Jobs
