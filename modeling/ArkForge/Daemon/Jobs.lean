import ArkForge.Engine.JobState
import ArkForge.Engine.Step
import ArkForge.Ipc.Jobs
import ArkForge.Provider.Actions
import ArkForge.Transport.Observation

/-! # Jobs

A job of the daemon: its state, its open journal, the events it has published, and what it is waiting
for. A call on a job is a transaction over the job: what it did before it failed stays done. The
answers of the operating system to the appends of one call are the arguments `io 0`, `io 1`, …, in the
order of the appends. -/

namespace ArkForge.Daemon.Jobs

open Lib.Transaction
open Core.Cbor Core.Digest Core.Ids Core.Projection
open Core.Verification
open Authority.Permit
open Engine.Record Engine.Durable Engine.Recovery Engine.Step
open Transport.Observation
open Ipc.Receipt Ipc.Jobs

/-! ### Errors and stops -/

/-- What was wrong with a value of the core. -/
inductive CoreError where
  | cbor (error : CborError)
  | receipt (error : ReceiptError)

inductive JobError where
  | planHasNoSteps
  | stepHasNoAction (step : String)
  | observedModeMismatch (expected found : String)
  | invalidReceiptFactKey (key : String)
  | duplicateReceiptFactKey (key : String)
  | unknownControlAction (action : String)
  | illegalTransition (fromState toState : JobState)
  | verification (error : PermitVerificationError)
  | step (error : StepError)
  | journal (error : DurableJournalError)
  | unusableIdentifier (value : String)
  | core (error : CoreError)
  | registryIo (message : String)

/-- Why a job stopped short of finishing. -/
inductive JobStop where
  | completed
  | confirmedFailure (reason : String)
  | refusedByAuthority (stepId reason : String)
  | dispatchOutcomeUnknown (stepId : String) (disposition : ActionDisposition)

/-! ### Numbers -/

def U64_MAX : ℕ := 2 ^ 64 - 1

def saturatingSucc (n : ℕ) : ℕ := min (n + 1) U64_MAX

def saturatingAdd (a b : UInt64) : UInt64 :=
  if a.toNat + b.toNat ≤ U64_MAX then a + b else UInt64.ofNat U64_MAX

/-! ### What a job waits for -/

/-- How long an admission snapshot may be signed against. -/
def SNAPSHOT_LIFETIME_MS : UInt64 := 60000

/-- Live facts captured from one exact transport session for one admission. -/
structure AdmissionFacts where
  observation : DeviceObservation
  transportSessionDigest : Sha256Digest
  providerFactsDigest : Sha256Digest
  toolchainFactsDigest : Sha256Digest
  artifactFactsDigest : Sha256Digest

def AdmissionFacts.authoritySnapshot (facts : AdmissionFacts) : Except JobError AuthoritySnapshot := do
  let deviceFactsDigest ← facts.observation.admissionFactsDigest.mapError fun e => .core (.cbor e)
  return {
    capturedAtEpochMs := facts.observation.observedAtEpochMs
    freshnessDeadlineEpochMs := saturatingAdd facts.observation.observedAtEpochMs SNAPSHOT_LIFETIME_MS
    deviceFactsDigest
    transportSessionDigest := some facts.transportSessionDigest
    providerFactsDigest := facts.providerFactsDigest
    toolchainFactsDigest := facts.toolchainFactsDigest
    artifactFactsDigest := facts.artifactFactsDigest }

/-- One private action waiting for the dispatcher. -/
structure PendingDispatch where
  jobId : String
  stepId : String
  actions : List PrivateActionRecord
  planActions : List PrivateActionRecord
  artifactDigest : Sha256Digest

inductive Pending where
  /-- A permit for the current step. -/
  | admission (requestId : String) (snapshot : StepAdmissionSnapshot) (freshness : AuthoritySnapshot)
  /-- The authority to perform a control action and report. -/
  | control (requestId : String) (request : ManagedControlRequest) (transaction : DispatchInFlight)
  /-- The daemon's own dispatcher to take the step's actions. -/
  | dispatch (work : PendingDispatch) (transaction : DispatchInFlight)

structure InFlightDispatch where
  work : PendingDispatch
  transaction : DispatchInFlight

/-- What the dispatcher observed. -/
structure DispatchOutcome where
  disposition : ActionDisposition
  facts : List (String × String)
  evidenceDigest : Sha256Digest
  verification : Option VerificationOutcome

/-! ### Jobs -/

structure Job where
  jobId : String
  controllerSessionId : ControllerSessionId
  planId : String
  planDigest : Sha256Digest
  state : JobState
  /-- Index into the plan's public steps. -/
  stepIndex : ℕ
  totalSteps : ℕ
  journal : DurableJournal
  events : List JobEvent
  pending : Option Pending
  inFlight : Option InFlightDispatch
  stopped : Option JobStop
  cancellationRequested : Bool

namespace Job

def records (job : Job) : List JournalRecord := job.journal.journal.records

def withJournal (job : Job) (journal : DurableJournal) : Job := { job with journal }

/-- The highest cursor among the events. -/
def cursor (job : Job) : ℕ := (job.events.map (·.sequence)).foldl max 0

def nextSequence (job : Job) : ℕ := saturatingSucc job.cursor

def nextEvent (job : Job) (kind : JobEventKind) (atEpochMs : UInt64) (recordDigest : Sha256Digest)
    (payload : EventPayload) : JobEvent where
  toEventPayload := payload
  jobId := job.jobId
  sequence := job.nextSequence
  kind := kind
  atEpochMs := atEpochMs
  journalRecordSha256 := recordDigest.bytes
  jobState := job.state.asStr

def publish (job : Job) (kind : JobEventKind) (atEpochMs : UInt64) (recordDigest : Sha256Digest)
    (payload : EventPayload) : Job :=
  { job with events := job.events ++ [job.nextEvent kind atEpochMs recordDigest payload] }

end Job

/-! ### Transactions over a job -/

abbrev JobTx := Tx JobError Job

def identifier (value : String) : Except JobError OpaqueId :=
  (OpaqueId.new value).mapError fun _ => .unusableIdentifier value

/-- Facts under the names given. -/
def factEntries : List (String × String) → Except JobError (List (OpaqueId × String))
  | [] => .ok []
  | (name, value) :: facts => do
    let name ← identifier name
    let facts ← factEntries facts
    return (name, value) :: facts

def appendJournal (io : AppendIo) (kind : JournalRecordKind) (now : UInt64) (subject : OpaqueId)
    (facts : List (OpaqueId × String)) : JobTx Sha256Digest :=
  ExceptT.mk fun job =>
    let (result, journal) := job.journal.append io ⟨kind, now, 1, subject, facts⟩
    (result.mapError .journal, job.withJournal journal)

/-- Appends a record about `subject` with the facts given by name. -/
def record (io : AppendIo) (kind : JournalRecordKind) (now : UInt64) (subject : String)
    (facts : List (String × String)) : JobTx Sha256Digest := do
  let subject ← liftExcept (identifier subject)
  let facts ← liftExcept (factEntries facts)
  appendJournal io kind now subject facts

variable {now : UInt64} {job : Job}

/-- An append changes nothing of the job but its journal. -/
theorem ensures_record {io : AppendIo} {kind : JournalRecordKind} {subject : String}
    {facts : List (String × String)} {post : Except JobError Sha256Digest → Job → Prop}
    (h : ∀ result journal, post result (job.withJournal journal)) :
    Ensures (record io kind now subject facts) job post :=
  ensures_liftExcept_bind (fun e _ => h (.error e) job.journal) fun _ _ =>
    ensures_liftExcept_bind (fun e _ => h (.error e) job.journal) fun _ _ => ensures_mk (h _ _)

def moveTo (next : JobState) : JobTx Unit := do
  let job ← get
  if job.state.mayTransitionTo next then set { job with state := next }
  else throw (.illegalTransition job.state next)

variable {post : Except JobError Unit → Job → Prop}

theorem ensures_moveTo {next : JobState}
    (hmay : job.state.mayTransitionTo next = true) (h : post (.ok ()) { job with state := next }) :
    Ensures (moveTo next) job post := by
  refine ensures_get_bind ?_
  rw [if_pos hmay]
  exact h

theorem ensures_moved (next : JobState) (job : Job)
    (h : ∀ result state, post result { job with state }) : Ensures (moveTo next) job post := by
  refine ensures_get_bind ?_
  split
  · exact h (.ok ()) next
  · exact h (.error _) job.state

def publish (kind : JobEventKind) (now : UInt64) (recordDigest : Sha256Digest)
    (payload : EventPayload) : JobTx Unit :=
  modify fun job => job.publish kind now recordDigest payload

theorem ensures_publish {kind : JobEventKind} {d : Sha256Digest} {payload : EventPayload}
    (h : post (.ok ()) (job.publish kind now d payload)) :
    Ensures (publish kind now d payload) job post := h

def keyValues (facts : List (String × String)) : List KeyValue := facts.map fun f => ⟨f.1, f.2⟩

def digestFrom (bytes : List UInt8) : Option Sha256Digest :=
  if h : bytes.length = 32 then some ⟨bytes, h⟩ else none

end ArkForge.Daemon.Jobs
