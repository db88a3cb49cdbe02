import ArkForge.Daemon.Jobs
import ArkForge.Lib.Numerals

/-! # Recovering a job

After a restart a job is what its journal says. The first terminal classification decides, or else the
first classification; a journal without one is classified by the crash table, and the classification is
appended. Of the events only the receipts and the classification come back. -/

namespace ArkForge.Daemon.Recover

open Lib.Transaction Lib.KeySort Lib.Numerals
open Core.Cbor Core.Digest Core.Ids
open Engine.Record Engine.Durable
open Engine.Recovery Engine.Recovery.CrashDisposition
open Ipc.Receipt Ipc.Jobs Jobs

/-! ### Receipts -/

/-- A stored number that is a cursor. -/
def storedSequence (facts : List (OpaqueId × String)) (name : String) : Option ℕ :=
  ((factValue facts name).bind parseU64).filter (0 < ·)

/-- The receipt identifies itself as the record's facts identify it. -/
def identifiesAs (receipt : ActionReceiptSummary) (facts : List (OpaqueId × String)) (jobId : String) :
    Bool :=
  receipt.jobId = jobId && factValue facts Fact.JOB_ID = some jobId &&
    factValue facts Fact.PLAN_ID = some receipt.planId &&
    factValue facts Fact.STEP_ID = some receipt.stepId &&
    factValue facts Fact.ATTEMPT_ID = some receipt.attemptId &&
    factValue facts Fact.PERMIT_ID = some receipt.permitId

/-- The receipt whose digest the record's facts hold. -/
def digestMatches (receipt : ActionReceiptSummary) (facts : List (OpaqueId × String)) : Bool :=
  match receipt.receiptDigest with
  | .ok digest => factValue facts Fact.RECEIPT_DIGEST = some digest.toHex
  | .error _ => false

/-- The receipt stored in the record, if it is one of the job and its digest is right. -/
def storedReceipt (record : JournalRecord) (jobId : String) : Option ActionReceiptSummary := do
  let body ← (factValue record.facts "receiptBodyHex").bind decodeHex
  let receipt ← (ActionReceiptSummary.fromCanonicalBytes body).toOption
  if identifiesAs receipt record.facts jobId && digestMatches receipt record.facts then some receipt
  else none

/-- The event of a receipt record; a record that does not hold together is dropped. -/
def receiptEvent (jobId : String) (record : JournalRecord) : Option JobEvent :=
  if record.kind ≠ .semanticReceiptRecorded then none
  else do
    let receipt ← storedReceipt record jobId
    let sequence ← storedSequence record.facts "receiptEventSequence"
    return {
      jobId
      sequence
      kind := .actionReceipt
      atEpochMs := record.atEpochMs
      journalRecordSha256 := record.recordDigest.bytes
      jobState := JobState.asStr .checkpointed
      receipt := some receipt }

/-- Of the events with one cursor only the first is kept. -/
def keepFirst : List JobEvent → List JobEvent
  | [] => []
  | event :: events => event :: (keepFirst events).filter fun e => e.sequence ≠ event.sequence

def recoverReceiptEvents (records : List JournalRecord) (jobId : String) : List JobEvent :=
  sortByKey (fun e : JobEvent => e.sequence) (keepFirst (records.filterMap (receiptEvent jobId)))

/-! ### Classifications -/

def isClassification (record : JournalRecord) : Bool := record.kind = .outcomeClassified

/-- The classification is final. -/
def isTerminalClassification (record : JournalRecord) : Bool :=
  isClassification record && record.facts.any fun f => f.1.value = "outcome" &&
    (f.2 = "succeeded" || f.2 = "cancelledSafe" || f.2 = "recoveryAssessable" ||
      f.2 = "confirmedFailed")

def firstClassification (records : List JournalRecord) : Option JournalRecord :=
  (records.find? isTerminalClassification).or (records.find? isClassification)

def stateOfOutcome (outcome : String) : JobState :=
  if outcome = "succeeded" then .succeeded
  else if outcome = "cancelledSafe" then .cancelledSafe
  else if outcome = "recoveryAssessable" then .recoveryAssessable
  else if outcome = "confirmedFailed" then .confirmedFailed
  else .outcomeUnknown

/-- What a journal without a classification makes of the job: the state, its name, and why. -/
def restartVerdict (path jobId : String) (allStepsCheckpointed : Bool) :
    CrashDisposition → Except JobError (JobState × String × String)
  | .noJob => .error (.registryIo (path ++ " has no jobCreated record for " ++ jobId))
  | .safeToCancel => .ok (.cancelledSafe, "cancelledSafe",
      "daemon restarted before any durable external intent existed")
  | .dispatchForbiddenUntilIntentDurable permitId => .ok (.cancelledSafe, "cancelledSafe",
      "daemon restarted after accepting permit " ++ permitId ++
        ", but before its intent became durable; no external effect was possible")
  | .outcomeUnknown permitId => .ok (.outcomeUnknown, "outcomeUnknown",
      "daemon restarted with durable external intent for permit " ++ permitId ++
        " and no settled receipt")
  | .receiptDurableCheckpointMissing permitId => .ok (.outcomeUnknown, "outcomeUnknown",
      "daemon restarted with a durable receipt for permit " ++ permitId ++
        ", but no checkpoint; dispatch will not be replayed")
  | .replayFromCheckpoint => .ok (.outcomeUnknown, "outcomeUnknown",
      if allStepsCheckpointed then
        "daemon restarted after every declared checkpoint, but no durable terminal classification " ++
          "exists; checkpoint count alone cannot distinguish semantic success from a settled failure"
      else
        "daemon restarted after a durable checkpoint, but cannot reconstruct the remaining " ++
          "continuation; dispatch will not be replayed")
  | .concluded state => .ok (state, state.asStr, "replayed from durable journal")

structure Classification where
  state : JobState
  outcome : String
  reason : String
  recordDigest : Sha256Digest
  atEpochMs : UInt64
  eventSequence : ℕ

/-- The cursor of a classification that stores none. -/
def restartSequence (records : List JournalRecord) (receipts : List JobEvent) : ℕ :=
  saturatingSucc (max records.length ((receipts.map (·.sequence)).foldl max 0))

def storedClassification (records : List JournalRecord) (receipts : List JobEvent)
    (record : JournalRecord) : Option Classification := do
  let outcome ← factValue record.facts "outcome"
  return {
    state := stateOfOutcome outcome
    outcome
    reason := (factValue record.facts "reason").getD "replayed from durable journal"
    recordDigest := record.recordDigest
    atEpochMs := record.atEpochMs
    eventSequence := (storedSequence record.facts "eventSequence").getD
      (restartSequence records receipts) }

def restartTime (records : List JournalRecord) : UInt64 :=
  match records.getLast? with
  | some record => saturatingAdd record.atEpochMs 1
  | none => 0

/-! ### The job -/

abbrev RecoverTx := Tx JobError DurableJournal

def classifyRestart (io : AppendIo) (path jobId : String) (receipts : List JobEvent)
    (allStepsCheckpointed : Bool) : RecoverTx Classification := do
  let journal ← get
  let records := journal.journal.records
  let (state, outcome, reason) ← liftExcept
    (restartVerdict path jobId allStepsCheckpointed (derive journal.journal jobId))
  let atEpochMs := restartTime records
  let eventSequence := restartSequence records receipts
  let subject ← liftExcept (identifier jobId)
  let facts ← liftExcept (factEntries [
    ("outcome", outcome), ("reason", reason), ("eventSequence", toString eventSequence)])
  let recordDigest ← ExceptT.mk fun journal : DurableJournal =>
    let (result, journal) := journal.append io ⟨.outcomeClassified, atEpochMs, 1, subject, facts⟩
    (result.mapError JobError.journal, journal)
  return { state, outcome, reason, recordDigest, atEpochMs, eventSequence }

def classify (io : AppendIo) (path jobId : String) (receipts : List JobEvent)
    (allStepsCheckpointed : Bool) : RecoverTx Classification := do
  let journal ← get
  let records := journal.journal.records
  match (firstClassification records).bind (storedClassification records receipts) with
  | some classification => return classification
  | none => classifyRestart io path jobId receipts allStepsCheckpointed

/-- Why a recovered job stands still. -/
def recoveredStop (state : JobState) (reason : String) : Option JobStop :=
  match state with
  | .succeeded => some .completed
  | .confirmedFailed => some (.confirmedFailure reason)
  | .cancelledSafe => some (.refusedByAuthority "daemon-restart" reason)
  | .outcomeUnknown | .recoveryAssessable =>
    some (.dispatchOutcomeUnknown "daemon-restart" .outcomeUnknown)
  | _ => none

def classificationEvent (jobId : String) (c : Classification) : JobEvent where
  jobId := jobId
  sequence := c.eventSequence
  kind := .outcomeClassified
  atEpochMs := c.atEpochMs
  journalRecordSha256 := c.recordDigest.bytes
  jobState := c.state.asStr
  facts := keyValues [("outcome", c.outcome), ("reason", c.reason)]

def recoveredEvents (jobId : String) (receipts : List JobEvent) (c : Classification) :
    List JobEvent :=
  sortByKey (fun e : JobEvent => e.sequence)
    (receipts.filter (fun e => e.sequence < c.eventSequence) ++ [classificationEvent jobId c])

def requireCreated (path : String) (records : List JournalRecord) : Except JobError JournalRecord :=
  match records.find? fun r => r.kind = .jobCreated with
  | some created => .ok created
  | none => .error (.registryIo (path ++ " has no jobCreated record"))

def requireJobId (path : String) (created : JournalRecord) : Except JobError String :=
  match factValue created.facts Fact.JOB_ID with
  | some jobId => .ok jobId
  | none => .error (.registryIo (path ++ " has no job id"))

theorem conforming_recovered : Conforming "RECOVERED-SESSION" := by decide

/-- The session the job was started in. -/
def recoveredSession (created : JournalRecord) : ControllerSessionId :=
  ((factValue created.facts "controllerSessionId").bind fun value =>
    (OpaqueId.new value).toOption).getD ⟨"RECOVERED-SESSION", conforming_recovered⟩

def parseHex (text : String) : Option Sha256Digest := (decodeHex text).bind digestFrom

def recoveredPlanDigest (created : JournalRecord) : Sha256Digest :=
  ((factValue created.facts "planDigest").bind parseHex).getD
    (sha256 (utf8 "arkforge/recovered/unknown-plan-digest"))

def recoverOpened (io : AppendIo) (path : String) : RecoverTx Job := do
  let opened ← get
  let records := opened.journal.records
  let created ← liftExcept (requireCreated path records)
  let jobId ← liftExcept (requireJobId path created)
  let receipts := recoverReceiptEvents records jobId
  let stepIndex := records.countP fun r => r.kind = .stepCheckpointed
  let totalSteps := ((factValue created.facts "totalSteps").bind parseU64).getD stepIndex
  let c ← classify io path jobId receipts (0 < totalSteps && totalSteps ≤ stepIndex)
  let journal ← get
  return {
    jobId
    controllerSessionId := recoveredSession created
    planId := (factValue created.facts Fact.PLAN_ID).getD "PLAN-RECOVERED"
    planDigest := recoveredPlanDigest created
    state := c.state
    stepIndex
    totalSteps
    journal
    events := recoveredEvents jobId receipts c
    pending := none
    inFlight := none
    stopped := recoveredStop c.state c.reason
    cancellationRequested := false }

/-- Recovers the job of the journal at `path`. A failure leaves a disk behind. -/
def recoverJob (path : String) (fault : OpenFault) (io : AppendIo) (disk : Disk) :
    Except (JobError × Disk) Job :=
  match DurableJournal.openAt path fault disk with
  | .error (error, disk) => .error (.journal error, disk)
  | .ok (journal, _) =>
    match (recoverOpened io path).exec journal with
    | (.ok job, _) => .ok job
    | (.error error, journal) => .error (error, journal.file.disk)

end ArkForge.Daemon.Recover
