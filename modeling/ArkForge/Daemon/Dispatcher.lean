import ArkForge.Daemon.Jobs
import ArkForge.Daemon.Staging

/-! # Running the actions of a step

The dispatcher takes the work of a job and answers with what happened. For each job it keeps a
session, and whether the images of the job have been staged. It makes one judgement: whether a failure
came before the device could have been reached. -/

namespace ArkForge.Daemon.Dispatcher

open Lib.Fallible Lib.Ordered
open Core.Cbor Core.Digest
open Core.Projection
open Core.Profile
open Provider.Actions Provider.Device Provider.Execute
open Jobs Staging

variable {ω : Type}

/-! ### Work -/

structure DispatchWork extends PendingDispatch where
  profile : DeviceProfile

structure StagingStats where
  durationMs : ℕ
  bytes : ℕ
  source : String
  cacheHit : Bool
  readyAt : ℕ
  preparationMode : String

/-! ### The dispatcher -/

structure DispatcherState where
  sessions : OrdMap String ExecutionSession
  /-- The jobs whose images are staged. -/
  staged : OrdMap String Unit
  stagingStats : OrdMap String StagingStats
  preparationFailures : OrdMap String DispatchFailure

def DispatcherState.new : DispatcherState where
  sessions := .empty
  staged := .empty
  stagingStats := .empty
  preparationFailures := .empty

/-- The world, the dispatcher and the calls made of the port in the session of each job. -/
structure Dispatching (ω : Type) where
  world : ω
  dispatcher : DispatcherState
  calls : String → List PortCall

def Dispatching.new (world : ω) : Dispatching ω where
  world := world
  dispatcher := .new
  calls := fun _ => []

inductive Panicked where
  | panicked

/-- The session of a job; a new one if it has none. -/
def DispatcherState.session (d : DispatcherState) (jobId : String) : ExecutionSession :=
  (d.sessions.get jobId).getD (.new .empty)

def DispatcherState.putSession (d : DispatcherState) (jobId : String) (session : ExecutionSession) :
    DispatcherState :=
  { d with sessions := d.sessions.alter jobId fun _ => session }

/-- Something that happens in the session of a job. -/
def onSession {ε α : Type} (jobId : String) (x : Exec (Execution ω) ε α) :
    Exec (Dispatching ω) ε α :=
  x.within
    (fun d => { world := d.world, session := d.dispatcher.session jobId, calls := d.calls jobId })
    fun d e => {
      world := e.world, dispatcher := d.dispatcher.putSession jobId e.session
      calls := Function.update d.calls jobId e.calls }

def onWorld {ε α : Type} (x : Exec ω ε α) : Exec (Dispatching ω) ε α :=
  x.within Dispatching.world fun d world => { d with world }

def modifyDispatcher {ε : Type} (f : DispatcherState → DispatcherState) :
    Exec (Dispatching ω) ε Unit :=
  Exec.modifyState fun d => { d with dispatcher := f d.dispatcher }

/-- Which side of the first external I/O an error falls on. -/
def classify (error : ExecutionError) : DispatchFailure :=
  match error with
  | .requiresAuthority _ | .actionUndecodable _ | .portRefused _ _ | .layoutMismatch _ _
  | .partitionTableUnreadable _ | .deviceDeclaresUnknownPartitions _ | .tableNotObservedYet
  | .readDomainNotCharacterized | .noTableAtLba1 | .targetNotAllowed _ | .partitionNotOnDevice _
  | .targetOffsetDisagrees _ _ _ | .imageNotStaged _ | .imageOverrunsPartition _ _ _
  | .stagingChanged _ | .verificationRangeMissing | .scratchUnusable _ _ =>
    .beforeAnyEffect (.execution error)
  | .externalIo _ _ | .readFailed _ _ _ => .afterExternalIo (.execution error)

def isWrite : StoredAction → Bool
  | .writePartition _ _ _ => true
  | _ => false

def decodeAll : List PrivateActionRecord → Except DispatchFailure (List StoredAction)
  | [] => .ok []
  | record :: rest =>
    match StoredAction.decode record with
    | .error reason => .error (.beforeAnyEffect (.undecodable reason))
    | .ok action => (decodeAll rest).map (action :: ·)

/-- The actions that a reconciliation may perform. -/
def isReadOnly : StoredAction → Bool
  | .probeLoader | .validatePartitionTable _ | .characterizeReadDomain
  | .readbackPartition _ _ _ _ => true
  | .managedControl _ _ | .writePartition _ _ _ | .resetDevice => false

section Dispatcher

variable (host : DispatchHost ω) (port : RockUsbPort ω) (storeRoot workRoot : String)

def jobRoot (jobId : String) : String := workRoot ++ "/" ++ jobId

def stageJob (jobId : String) (artifactDigest : Sha256Digest)
    (planActions : List PrivateActionRecord) (profile : DeviceProfile) (preparationMode : String) :
    Exec (Dispatching ω) DispatchFailure StagingStats := do
  let started ← Exec.getState
  if (started.dispatcher.staged.get jobId).isSome then
    Exec.fail (.beforeAnyEffect (.markedStaged jobId))
  else do
    let expected ← Exec.lift (expectedImages planActions profile)
    let staging ← onWorld (materializeStagingCache host storeRoot (workRoot ++ "/cache")
      artifactDigest expected)
    onSession jobId (Exec.modifyState fun e =>
      let staged := staging.images.entries.foldl (fun s (name, image) => s.stage name image) e.session
      let (session, world) := beginParallelStagedValidation host.toExecutionHost staged e.world
      { e with session, world })
    modifyDispatcher fun d => { d with staged := d.staged.alter jobId fun _ => () }
    let ended ← Exec.getState
    return {
      durationMs := host.now ended.world - host.now started.world
      bytes := staging.bytes, source := staging.source, cacheHit := staging.cacheHit
      readyAt := host.now ended.world, preparationMode }

/-- What there is to say about staging when a step has a write. -/
def stagingFor (work : DispatchWork) (isWrite : Bool) :
    Exec (Dispatching ω) DispatchFailure (Option StagingStats) :=
  if isWrite = false then pure none
  else do
    let s ← Exec.getState
    match s.dispatcher.preparationFailures.get work.jobId with
    | some failure => do
      modifyDispatcher fun d =>
        { d with preparationFailures := d.preparationFailures.erase work.jobId }
      Exec.fail failure
    | none =>
      if (s.dispatcher.staged.get work.jobId).isSome then do
        modifyDispatcher fun d => { d with stagingStats := d.stagingStats.erase work.jobId }
        return s.dispatcher.stagingStats.get work.jobId
      else do
        let stats ← stageJob host storeRoot workRoot work.jobId work.artifactDigest work.planActions
          work.profile "first-write-fallback"
        return some stats

/-- Executes the actions one after the other; answers the outcome of the last one. -/
def executeAll (scratch : String) (profile : DeviceProfile) :
    List (StoredAction × PrivateActionRecord) → Option ActionOutcome →
      Executes ω (Option ActionOutcome)
  | [], last => pure last
  | (action, record) :: rest, _ => do
    let outcome ← executeAction host.toExecutionHost port scratch profile action record
    executeAll scratch profile rest (some outcome)

def stagingFacts (world : ω) : Option StagingStats → List (String × String)
  | none => []
  | some staging => [
    ("stagingDurationMs", toString staging.durationMs), ("stagingBytes", toString staging.bytes),
    ("stagingSource", staging.source), ("stagingCacheHit", toString staging.cacheHit),
    ("preparationLeadMs", toString (host.now world - staging.readyAt)),
    ("preparationMode", staging.preparationMode)]

def tryRun (work : DispatchWork) :
    Exec (Dispatching ω) (Halt DispatchFailure) DispatchOutcome := do
  let decoded ← Exec.lift ((decodeAll work.actions).mapError .error)
  let staging ← (stagingFor host storeRoot workRoot work
    (decoded.any isWrite)).mapError .error
  let scratch := jobRoot workRoot work.jobId ++ "/scratch"
  (onWorld (host.createDirAll scratch)).mapError fun detail =>
    .error (.beforeAnyEffect (.scratch detail))
  let last ← (onSession work.jobId (executeAll host port scratch work.profile
    (decoded.zip work.actions) none)).mapError (Halt.map classify)
  match last with
  | none => Exec.fail (.error (.beforeAnyEffect .noPrivateAction))
  | some outcome => do
    let ended ← Exec.getState
    return {
      disposition := outcome.disposition
      facts := outcome.facts ++ stagingFacts host ended.world staging
      evidenceDigest := outcome.evidenceDigest
      verification := outcome.verification }

/-- What is reported of a failure. -/
def failureOutcome (describe : DispatchFailure → String) (stepId : String)
    (failure : DispatchFailure) : DispatchOutcome where
  disposition := failure.disposition
  facts := [("dispatchFailure", describe failure), ("step", stepId)]
  evidenceDigest := sha256 (utf8 (describe failure))
  verification := none

/-- Runs one piece of work. Every failure is a disposition. -/
def run (describe : DispatchFailure → String) (work : DispatchWork) :
    Exec (Dispatching ω) Panicked DispatchOutcome :=
  (tryRun host port storeRoot workRoot work).handle fun halt =>
    match halt with
    | .error failure => pure (failureOutcome describe work.stepId failure)
    | .panic => Exec.fail .panicked

/-! ### Reconciliation -/

end Dispatcher

end ArkForge.Daemon.Dispatcher
