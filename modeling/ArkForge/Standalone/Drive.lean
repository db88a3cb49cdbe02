import ArkForge.Standalone.HdcControl
import ArkForge.Standalone.SignedSteps

/-! # Driving the active jobs

The supervisor goes over the active jobs again and again, fetches the events behind its cursor and
answers them one by one. The cursor moves over an event when the answer is through; an answer that
fails ends the iteration, and the next one starts at the same event. A control that was performed and
not answered is therefore performed again. -/

namespace ArkForge.Standalone.Drive

open Lib.Fallible Lib.Ordered
open Core.Cbor Core.Digest
open Ipc.Jobs
open Authority.Permit Standalone.Authority Permits
open HdcControl SignedSteps
open Exec

/-! ### One iteration -/

structure JobView where
  jobId : String
  planId : String
  terminal : Bool

/-- What the supervisor holds in memory, with what it has on disk and what it has submitted. -/
structure Supervisor where
  authority : AuthorityState
  port : PortState
  cursors : OrdMap String ℕ
  receipts : List SubmitManagedControlReceiptRequest

/-- What is answered while one event is handled. -/
structure EventAnswers where
  admission : AdmissionAnswers
  beforeEffect : Except StandaloneError Unit
  control : ControlAnswers
  devices : Except StandaloneError (List DeviceObservationView)
  probe : String → Except StandaloneError DeviceProbeView
  written : Except StandaloneError Unit
  receipt : Except StandaloneError SubmitOutcome

/-- What is answered during one iteration. -/
structure DriveAnswers where
  finalize : Except StandaloneError Unit
  jobs : Except StandaloneError (List JobView)
  connect : Except StandaloneError Unit
  events : String → ℕ → Except StandaloneError (List JobEvent)
  event : JobEvent → EventAnswers

def cursorOf (s : Supervisor) (jobId : String) : ℕ := (s.cursors.get jobId).getD 0

def onAuthority {α : Type} (x : Exec AuthorityState StandaloneError α) :
    Exec Supervisor StandaloneError α :=
  within Supervisor.authority (fun s authority => { s with authority }) x

def submitControlReceipt (answers : EventAnswers) (receipt : SubmitManagedControlReceiptRequest) :
    Exec Supervisor StandaloneError Unit := do
  modifyState fun s => { s with receipts := s.receipts ++ [receipt] }
  let outcome ← lift answers.receipt
  if outcome.accepted = false then
    fail ⟨outcome.rejectionCode, outcome.rejectionMessage, none, 3, false⟩
  else pure ()

def submitControlRefusal (answers : EventAnswers) (request : ManagedControlRequest)
    (reason : String) : Exec Supervisor StandaloneError Unit :=
  submitControlReceipt answers {
    jobId := request.jobId
    requestId := request.requestId
    action := request.action
    accepted := false
    facts := []
    evidenceSha256 := (sha256 (utf8 reason)).bytes
    failureReason := reason }

/-- Moves the lineage of the job to the device that was found again. -/
def advanceLineage (answers : EventAnswers) (job : JobView) (lineage : ActiveTargetLineage)
    (rebound : DeviceObservationView) : Exec Supervisor StandaloneError Unit := do
  let currentStable ←
    lift (currentStableIdentity answers.devices answers.probe rebound.observationId)
  let advanced : ActiveTargetLineage := { lineage with
    currentDeviceId := rebound.observationId
    currentStableIdentitySha256 := currentStable.bytes
    revision := Daemon.Jobs.saturatingAdd lineage.revision 1 }
  onAuthority (within AuthorityState.jobs (fun a jobs => { a with jobs })
    (persistJobLineage answers.written job.jobId advanced))
  onAuthority (modifyState fun a =>
    { a with targetLineages := a.targetLineages.alter job.jobId fun _ => advanced })

/-- The lineage after a control that was accepted. -/
def recordRebound (answers : EventAnswers) (job : JobView) (lineage : ActiveTargetLineage)
    (result : ControlResult) : Exec Supervisor StandaloneError Unit :=
  match result.receipt.accepted, result.reboundObservation with
  | true, some rebound => advanceLineage answers job lineage rebound
  | _, _ => pure ()

/-- Performs a control, records the lineage it leads to and submits its receipt. -/
def performControl (answers : EventAnswers) (job : JobView) (record : AuthorityPlanRecord)
    (request : ManagedControlRequest) : Exec Supervisor StandaloneError Unit := do
  let lineage ← onAuthority (lineageOf job.jobId)
  if lineage.planId ≠ record.plan.planId ∨ lineage.topologySha256 ≠ record.topologySha256 then
    fail ⟨"TARGET_LINEAGE_CONFLICT",
      "The active target lineage does not belong to the job's sealed plan.", none, 6, false⟩
  else do
    let stable ← lift (digestBytes record.stableIdentitySha256 "authority stable identity")
    let result ← within Supervisor.port (fun s port => { s with port })
      (perform answers.control request {
        currentDeviceId := lineage.currentDeviceId
        profileId := record.profileId
        authorityStableIdentitySha256 := stable.toHex
        topologySha256 := lineage.topologySha256 })
    recordRebound answers job lineage result
    submitControlReceipt answers result.receipt

/-- `bound` says whether the runtime has an HDC executable. -/
def handleControl (bound : Bool) (answers : EventAnswers) (job : JobView)
    (request : ManagedControlRequest) : Exec Supervisor StandaloneError Unit :=
  if bound = false then
    submitControlRefusal answers request "No exact HDC executable is bound to this authority runtime."
  else do
    let s ← getState
    let record ← lift (loadAuthorityPlan s.authority.plans job.planId)
    match answers.beforeEffect with
    | .error error => submitControlRefusal answers request error.message
    | .ok () => performControl answers job record request

def handleEvent (bound : Bool) (epoch : UInt64) (pairing : ControllerPairingSecret)
    (answers : EventAnswers) (job : JobView) (event : JobEvent) :
    Exec Supervisor StandaloneError Unit :=
  match event.kind with
  | .stepAdmissionRequested =>
    match event.admission with
    | none => fail ⟨"ADMISSION_EVENT_INVALID",
        "A stepAdmissionRequested event contains no admission snapshot.", none, 10, false⟩
    | some snapshot => onAuthority (answerAdmission answers.admission epoch pairing snapshot)
  | .managedControlRequested =>
    match event.controlRequest with
    | none => fail ⟨"CONTROL_EVENT_INVALID",
        "A managedControlRequested event contains no typed request.", none, 10, false⟩
    | some request => handleControl bound answers job request
  | _ => pure ()

section Drive

variable (bound : Bool) (epoch : UInt64) (pairing : ControllerPairingSecret) (answers : DriveAnswers)

/-- Handles the events in their order; the cursor moves over each that was handled. -/
def handleEvents (job : JobView) : List JobEvent → Exec Supervisor StandaloneError Unit
  | [] => pure ()
  | event :: events => do
    handleEvent bound epoch pairing (answers.event event) job event
    modifyState fun s => { s with cursors := s.cursors.alter job.jobId fun _ => event.sequence }
    handleEvents job events

def driveJobs : List JobView → Exec Supervisor StandaloneError Unit
  | [] => pure ()
  | job :: jobs => do
    let s ← getState
    let events ← lift (answers.events job.jobId (cursorOf s job.jobId))
    handleEvents bound epoch pairing answers job events
    driveJobs jobs

def driveActiveJobs : Exec Supervisor StandaloneError Unit := do
  lift answers.finalize
  let listed ← lift answers.jobs
  match listed.filter fun job => !job.terminal with
  | [] => pure ()
  | active => do
    lift answers.connect
    driveJobs bound epoch pairing answers active

end Drive

/-! ### What the daemon publishes -/

/-- The events of all jobs. A control is asked for by one event only. -/
structure Publishes (published : Set JobEvent) : Prop where
  oneRequest : ∀ a ∈ published, ∀ b ∈ published, ∀ request request',
    a.controlRequest = some request → b.controlRequest = some request' →
    request.requestId = request'.requestId → a.jobId = b.jobId ∧ a.sequence = b.sequence

/-- The daemon shows the events of the job behind the cursor, in their order. -/
def Shows (published : Set JobEvent) (answers : DriveAnswers) : Prop :=
  ∀ jobId cursor events, answers.events jobId cursor = .ok events →
    (events.Pairwise fun a b => a.sequence < b.sequence) ∧
    ∀ event ∈ events, event ∈ published ∧ event.jobId = jobId ∧ cursor < event.sequence

/-- No control was actuated twice. -/
def AtMostOnce (s : Supervisor) : Prop := ∀ requestId, reboots s.port requestId ≤ 1

/-- The cursor is behind no control that was actuated: its lineage is recorded and its receipt is
through. -/
def Recorded (published : Set JobEvent) (s : Supervisor) : Prop :=
  ∀ event ∈ published, ∀ request, event.controlRequest = some request →
    0 < reboots s.port request.requestId → event.sequence ≤ cursorOf s event.jobId

/-- The states of one lifetime of the supervisor in which every iteration starts with all controls
recorded that were actuated before it. -/
inductive Run (published : Set JobEvent) (bound : Bool) (epoch : UInt64)
    (pairing : ControllerPairingSecret) : Supervisor → Prop where
  | start (authority : AuthorityState) :
    Run published bound epoch pairing ⟨authority, ⟨[], OrdMap.empty⟩, OrdMap.empty, []⟩
  | drive {s : Supervisor} (answers : DriveAnswers) : Run published bound epoch pairing s →
    Recorded published s → Shows published answers →
    Run published bound epoch pairing (driveActiveJobs bound epoch pairing answers s).2

/-! ### One event -/

variable {s : Supervisor}

section Event

variable {p : PortState} {c : OrdMap String ℕ}

/-- The port and the cursors are these. -/
def At (p : PortState) (c : OrdMap String ℕ) (s : Supervisor) : Prop := s.port = p ∧ s.cursors = c

/-- The device was rebooted at most once, for the control the event asks for. -/
def Touched (event : JobEvent) (p : PortState) (c : OrdMap String ℕ) (s : Supervisor) : Prop :=
  s.cursors = c ∧ (s.port = p ∨
    ∃ request, event.controlRequest = some request ∧ Within request p 1 s.port)

theorem touched_of_at {event : JobEvent} (h : At p c s) : Touched event p c s :=
  ⟨h.2, Or.inl h.1⟩

variable {P : Supervisor → Prop}

theorem meets_onAuthority {α : Type}
    (hP : ∀ s authority, P s → P { s with authority }) (x : Exec AuthorityState StandaloneError α) :
    Ends P (onAuthority x) P := by
  refine Meets.within fun s hs => ?_
  exact meets_iff.mpr ⟨fun _ _ _ a' _ => hP s a' hs, fun _ _ _ a' _ => hP s a' hs⟩

theorem meets_submitControlReceipt
    (hP : ∀ s receipts, P s → P { s with receipts }) (answers : EventAnswers)
    (receipt : SubmitManagedControlReceiptRequest) :
    Ends P (submitControlReceipt answers receipt) P := by
  refine Meets.bind (Q := fun _ => P) (meets_modifyState fun s hs => hP s _ hs) fun _ => ?_
  refine lift_keeps.bind fun outcome => ?_
  exact meets_ite (fun _ => fail_keeps) fun _ => pure_keeps

theorem meets_recordRebound
    (hP : ∀ s authority, P s → P { s with authority }) (answers : EventAnswers) (job : JobView)
    (lineage : ActiveTargetLineage) (result : ControlResult) :
    Ends P (recordRebound answers job lineage result) P := by
  unfold recordRebound
  split
  · refine lift_keeps.bind fun stable => ?_
    exact (meets_onAuthority hP _).bind fun _ => meets_onAuthority hP _
  · exact pure_keeps

/-- A control changes the port by what performing it did, and nothing else. -/
theorem meets_performControl {event : JobEvent} {request : ManagedControlRequest}
    (hrequest : event.controlRequest = some request) (answers : EventAnswers) (job : JobView)
    (record : AuthorityPlanRecord) :
    Ends (At p c) (performControl answers job record request) (Touched event p c) := by
  refine ((meets_onAuthority (fun _ _ hs => hs) _).failing fun _ _ => touched_of_at).bind
    fun lineage => ?_
  refine meets_ite (fun _ => meets_fail fun _ => touched_of_at) fun _ => ?_
  refine meets_lift_bind (fun stable _ => ?_) fun _ _ _ => touched_of_at
  refine (Meets.within (Q := fun _ => Touched event p c)
    fun s hs => ?_).bind fun result => ?_
  · obtain ⟨rfl, rfl⟩ := hs
    refine meets_of_state fun t ht => ?_
    subst ht
    exact ⟨rfl, Or.inr ⟨request, hrequest, within_perform answers.control _ s.port⟩⟩
  refine (meets_recordRebound (fun _ _ hs => hs) answers job lineage result).bind fun _ => ?_
  exact meets_submitControlReceipt (fun _ _ hs => hs) answers result.receipt

theorem meets_handleEvent (bound : Bool) (epoch : UInt64) (pairing : ControllerPairingSecret)
    (answers : EventAnswers) (job : JobView) (event : JobEvent) :
    Ends (At p c) (handleEvent bound epoch pairing answers job event) (Touched event p c) := by
  have hrefusal : ∀ request reason, Ends (At p c) (submitControlRefusal answers request reason)
      (Touched event p c) := fun request reason =>
    (meets_submitControlReceipt (fun _ _ hs => hs) answers _).weaken (fun _ hs => hs)
      (fun _ _ => touched_of_at) fun _ _ => touched_of_at
  unfold handleEvent
  split
  · split
    · exact meets_fail fun _ => touched_of_at
    · exact (meets_onAuthority (fun _ _ hs => hs) _).weaken (fun _ hs => hs)
        (fun _ _ => touched_of_at) fun _ _ => touched_of_at
  · split
    · exact meets_fail fun _ => touched_of_at
    · next request hrequest =>
      refine meets_ite (fun _ => hrefusal _ _) fun _ => ?_
      refine meets_getState_bind fun s => meets_lift_bind (fun record _ => ?_) fun _ _ _ =>
        touched_of_at
      cases answers.beforeEffect with
      | error e => exact hrefusal _ _
      | ok _ => exact meets_performControl hrequest answers job record
  · exact meets_pure fun _ => touched_of_at

end Event

/-! ### One iteration -/

section Iteration

variable {published : Set JobEvent} {bound : Bool} {epoch : UInt64}
  {pairing : ControllerPairingSecret} {answers : DriveAnswers}

/-- What holds between two events. -/
def Good (published : Set JobEvent) (s : Supervisor) : Prop := AtMostOnce s ∧ Recorded published s

variable {event : JobEvent}

theorem Recorded.fresh (h : Recorded published s) (hevent : event ∈ published)
    (hcursor : cursorOf s event.jobId < event.sequence) {request : ManagedControlRequest}
    (hrequest : event.controlRequest = some request) : reboots s.port request.requestId = 0 := by
  by_contra hne
  have := h event hevent request hrequest (Nat.pos_of_ne_zero hne)
  omega

theorem Touched.atMostOnce {t : Supervisor} (hgood : Good published s)
    (hevent : event ∈ published) (hcursor : cursorOf s event.jobId < event.sequence)
    (h : Touched event s.port s.cursors t) : AtMostOnce t := by
  rcases h.2 with hsame | ⟨request, hrequest, hwithin⟩
  · intro requestId
    rw [hsame]
    exact hgood.1 requestId
  · intro requestId
    have hle := hwithin requestId
    split_ifs at hle with hid
    · rw [hid, hgood.2.fresh hevent hcursor hrequest] at hle
      rw [hid]
      exact hle
    · exact hle.trans (hgood.1 requestId)

theorem cursorOf_alter (t : Supervisor) (jobId other : String) (sequence : ℕ) :
    cursorOf { t with cursors := t.cursors.alter jobId fun _ => sequence } other =
      if other = jobId then sequence else cursorOf t other := by
  unfold cursorOf
  rw [OrdMap.get_alter]
  split_ifs
  · rfl
  · rfl

theorem Touched.recorded (hpublishes : Publishes published) {t : Supervisor}
    (hgood : Good published s) (hevent : event ∈ published)
    (hcursor : cursorOf s event.jobId < event.sequence) (h : Touched event s.port s.cursors t) :
    Recorded published
      { t with cursors := t.cursors.alter event.jobId fun _ => event.sequence } := by
  intro other hother request' hrequest' hactuated
  have hcursors : ∀ jobId, cursorOf t jobId = cursorOf s jobId := fun jobId => by
    unfold cursorOf
    rw [h.1]
  rw [cursorOf_alter, hcursors]
  by_cases hbefore : 0 < reboots s.port request'.requestId
  · have hold := hgood.2 other hother request' hrequest' hbefore
    split_ifs with hjob
    · rw [hjob] at hold
      omega
    · exact hold
  · -- it was actuated just now, so it is the event at hand
    rcases h.2 with hsame | ⟨request, hrequest, hwithin⟩
    · have hport : 0 < reboots t.port request'.requestId := hactuated
      rw [hsame] at hport
      exact absurd hport hbefore
    · have hle := hwithin request'.requestId
      have hport : 0 < reboots t.port request'.requestId := hactuated
      split_ifs at hle with hid
      · obtain ⟨hjob, hsequence⟩ :=
          hpublishes.oneRequest other hother event hevent request' request hrequest' hrequest hid
        rw [if_pos hjob, hsequence]
      · omega

theorem meets_handleEvents (hpublishes : Publishes published) (job : JobView) :
    ∀ {events : List JobEvent}, (events.Pairwise fun a b => a.sequence < b.sequence) →
    (∀ event ∈ events, event ∈ published ∧ event.jobId = job.jobId) →
    Meets (fun s => Good published s ∧ ∀ event ∈ events, cursorOf s job.jobId < event.sequence)
      (handleEvents bound epoch pairing answers job events) (fun _ => Good published)
      fun _ => AtMostOnce
  | [], _, _ => meets_pure fun _ hs => hs.1
  | event :: events, hsorted, hevents => by
    intro s hs
    obtain ⟨hgood, hcursor⟩ := hs
    obtain ⟨hevent, hjob⟩ := hevents event List.mem_cons_self
    have hbehind : cursorOf s event.jobId < event.sequence := by
      rw [hjob]
      exact hcursor event List.mem_cons_self
    have hone : Meets (fun t => t = s)
        (handleEvent bound epoch pairing (answers.event event) job event)
        (fun _ => Touched event s.port s.cursors) fun _ => AtMostOnce := by
      refine (meets_handleEvent bound epoch pairing (answers.event event) job event).weaken ?_
        (fun _ _ h => h) fun _ _ h => h.atMostOnce hgood hevent hbehind
      rintro _ rfl
      exact ⟨rfl, rfl⟩
    refine (hone.bind fun _ => ?_) s rfl
    refine Meets.bind (Q := fun _ s' => Good published s' ∧
      ∀ e ∈ events, cursorOf s' job.jobId < e.sequence) (meets_modifyState fun t ht => ?_) fun _ => ?_
    · refine ⟨⟨show AtMostOnce t from ht.atMostOnce hgood hevent hbehind, ?_⟩, ?_⟩
      · rw [← hjob]
        exact ht.recorded hpublishes hgood hevent hbehind
      · intro e he
        rw [cursorOf_alter, if_pos rfl]
        exact (List.pairwise_cons.mp hsorted).1 e he
    · exact meets_handleEvents hpublishes job (List.pairwise_cons.mp hsorted).2
        fun e he => hevents e (List.mem_cons_of_mem _ he)

theorem meets_driveJobs (hpublishes : Publishes published) (hshows : Shows published answers) :
    ∀ jobs, Meets (Good published) (driveJobs bound epoch pairing answers jobs)
      (fun _ => Good published) fun _ => AtMostOnce
  | [] => pure_keeps
  | job :: jobs => by
    refine meets_getState.bind fun s => ?_
    refine meets_lift_bind (fun events hshown => ?_) fun _ _ _ hs => hs.2.1
    rintro _ ⟨rfl, hgood⟩
    obtain ⟨hsorted, hevents⟩ := hshows job.jobId _ events hshown
    have hhandled := @meets_handleEvents published bound epoch pairing answers hpublishes job events
      hsorted fun event he => ⟨(hevents event he).1, (hevents event he).2.1⟩
    exact (hhandled.bind fun _ => meets_driveJobs hpublishes hshows jobs) s
      ⟨hgood, fun event he => (hevents event he).2.2⟩

/-- **One iteration** actuates no control a second time, if all before it are recorded. If it returns,
all are recorded after it as well. -/
theorem meets_driveActiveJobs (hpublishes : Publishes published)
    (hshows : Shows published answers) :
    Meets (Good published) (driveActiveJobs bound epoch pairing answers) (fun _ => Good published)
      fun _ => AtMostOnce := by
  refine meets_lift_bind (fun _ _ => ?_) fun _ _ _ hs => hs.1
  refine meets_lift_bind (fun listed _ => ?_) fun _ _ _ hs => hs.1
  split
  · exact pure_keeps
  · refine meets_lift_bind (fun _ _ => ?_) fun _ _ _ hs => hs.1
    exact meets_driveJobs hpublishes hshows _

end Iteration

/-! ### Every run -/

theorem Run.atMostOnce {published : Set JobEvent} (hpublishes : Publishes published)
    {bound : Bool} {epoch : UInt64} {pairing : ControllerPairingSecret}
    (h : Run published bound epoch pairing s) : AtMostOnce s := by
  induction h with
  | start authority => exact fun _ => Nat.zero_le 1
  | drive answers _ hrecorded hshows ih =>
    have hmeets := (@meets_driveActiveJobs published bound epoch pairing answers hpublishes
      hshows).post (fun _ _ hs => hs.1)
    exact hmeets.state ⟨ih, hrecorded⟩

/-- **Each control is actuated at most once**, in every state of every run in which each iteration
starts with the controls recorded that were actuated before it. An iteration that returns leaves them
recorded: only one that fails may not. -/
theorem actuated_at_most_once (published : Set JobEvent) (hpublishes : Publishes published)
    (bound : Bool) (epoch : UInt64) (pairing : ControllerPairingSecret) (s : Supervisor)
    (h : Run published bound epoch pairing s) :
    (∀ requestId, reboots s.port requestId ≤ 1) ∧
    ∀ answers s', Recorded published s → Shows published answers →
      driveActiveJobs bound epoch pairing answers s = (.ok (), s') → Recorded published s' := by
  refine ⟨h.atMostOnce hpublishes, ?_⟩
  intro answers s' hrecorded hshows hdrive
  exact ((meets_driveActiveJobs hpublishes hshows).ok ⟨h.atMostOnce hpublishes, hrecorded⟩ hdrive).2

/-! ### A control that is performed again -/

def loaderRequest : ManagedControlRequest where
  jobId := "JOB-1"
  stepId := "STEP-1"
  requestId := "REQ-1"
  action := .enterUpdater
  permitId := "PERMIT-1"
  expectedFacts := []
  deadlineEpochMs := 1000

def loaderEvent : JobEvent where
  controlRequest := some loaderRequest
  jobId := "JOB-1"
  sequence := 1
  kind := .managedControlRequested
  atEpochMs := 1
  journalRecordSha256 := []
  jobState := "awaitingManagedControl"

def lost : StandaloneError := ⟨"DAEMON_UNAVAILABLE", "The connection was lost.", none, 10, true⟩

/-- The device takes the reboot command, and the connection to the daemon is lost before its list of
devices is read again. -/
def severed (time : ℕ) : ControlAnswers where
  epochMs := time
  started := time
  observations := .ok [{ sampleView with mode := "hdc-normal" }]
  probed := time
  serial := ⟨time, true, .error .commandFailed⟩
  nativeKey := .ok (some "SERIAL-1")
  targets := []
  reboot := ⟨time, true, .ok ()⟩
  polls := [⟨time, .error lost, fun _ => false⟩]
  rounds := []

/-- The connection is lost before the receipt is through as well. -/
def lossy (time : ℕ) : DriveAnswers where
  finalize := .ok ()
  jobs := .ok [⟨"JOB-1", "PLAN-1", false⟩]
  connect := .ok ()
  events := fun jobId cursor => .ok (if jobId = "JOB-1" ∧ cursor < 1 then [loaderEvent] else [])
  event := fun _ => {
    admission := sampleAnswers
    beforeEffect := .ok ()
    control := severed time
    devices := .ok []
    probe := fun _ => .error lost
    written := .ok ()
    receipt := .error lost }

theorem publishes_sample : Publishes {loaderEvent} := by
  refine ⟨?_⟩
  rintro _ rfl _ rfl _ _ - - -
  exact ⟨rfl, rfl⟩

theorem shows_lossy (time : ℕ) : Shows {loaderEvent} (lossy time) := by
  intro jobId cursor events h
  obtain rfl := Except.ok.inj h
  split_ifs with hjob
  · refine ⟨List.pairwise_singleton _ _, fun event he => ?_⟩
    obtain rfl := List.mem_singleton.mp he
    exact ⟨Set.mem_singleton _, hjob.1.symm, hjob.2⟩
  · exact ⟨List.Pairwise.nil, fun _ he => absurd he List.not_mem_nil⟩

/-- The supervisor before it has handled the event. -/
def waiting (commands : List (String × List String))
    (receipts : List SubmitManagedControlReceiptRequest) : Supervisor :=
  ⟨sampleState, ⟨commands, OrdMap.empty⟩, OrdMap.empty, receipts⟩

def loaderCommands : List (String × List String) := [
  ("REQ-1", ["shell", "param", "get", "ohos.boot.sn"]),
  ("REQ-1", ["-t", "SERIAL-1", "shell", "reboot", "loader"])]

/-- The receipt of a control during which the list of devices could not be read. -/
def unseen : SubmitManagedControlReceiptRequest :=
  refusedReceipt loaderRequest "BOUND_OBSERVATION_NOT_FOUND"

variable {time : ℕ}

/-- The device is rebooted, and the control is refused. The request expires at 1000. -/
theorem perform_severed (htime : time = 100 ∨ time = 600) (context : ControlContext)
    (hdevice : context.currentDeviceId = "DEVICE-1") (commands : List (String × List String)) :
    perform (ε := StandaloneError) (severed time) loaderRequest context ⟨commands, OrdMap.empty⟩ =
      (.ok ⟨unseen, none⟩, ⟨commands ++ loaderCommands, OrdMap.empty⟩) := by
  obtain ⟨device, profile, stable, topology⟩ := context
  obtain rfl : device = "DEVICE-1" := hdevice
  have hcommands : commands ++ loaderCommands = commands ++ [loaderCommands[0]] ++
      [loaderCommands[1]] := by
    rw [List.append_assoc]
    rfl
  rw [hcommands]
  rcases htime with rfl | rfl
  · rfl
  · rfl

/-- An iteration reboots the device, and leaves the cursor where it was. -/
theorem drive_lossy (htime : time = 100 ∨ time = 600) (commands : List (String × List String))
    (receipts : List SubmitManagedControlReceiptRequest) :
    driveActiveJobs true 1 PermitReplay.samplePairing (lossy time) (waiting commands receipts) =
      (.error lost, waiting (commands ++ loaderCommands) (receipts ++ [unseen])) := by
  have hlineage : ¬ (sampleLineage.planId ≠ sealedRecord.plan.planId ∨
      sampleLineage.topologySha256 ≠ sealedRecord.topologySha256) :=
    not_or.mpr ⟨not_not.mpr rfl, not_not.mpr rfl⟩
  have hstable : digestBytes sealedRecord.stableIdentitySha256 "authority stable identity" =
      .ok PermitReplay.zeroDigest := digestBytes_eq_ok.mpr rfl
  set job : JobView := ⟨"JOB-1", "PLAN-1", false⟩ with hjob
  set after := waiting (commands ++ loaderCommands) (receipts ++ [unseen])
  have hcontrol : handleControl true ((lossy time).event loaderEvent) job loaderRequest
      (waiting commands receipts) = (.error lost, after) := by
    show (lift (loadAuthorityPlan sampleState.plans "PLAN-1") >>= _) (waiting commands receipts) = _
    rw [loadAuthorityPlan_sample, lift_ok_bind]
    refine (@within_bind_ok _ _ _ _ _ (lineageOf "JOB-1") sampleLineage sampleState
      Supervisor.authority _ _ _ lineageOf_sample).trans ?_
    rw [if_neg hlineage, hstable, lift_ok_bind]
    refine (@within_bind_ok _ _ _ _ _ (perform (severed time) loaderRequest _) _ _ Supervisor.port _
      _ _ (perform_severed htime _ rfl commands)).trans ?_
    rfl
  have hjobs : driveJobs true 1 PermitReplay.samplePairing (lossy time) [job]
      (waiting commands receipts) = (.error lost, after) := by
    unfold driveJobs
    rw [getState_bind]
    show (lift (.ok [loaderEvent]) >>= _) (waiting commands receipts) = _
    rw [lift_ok_bind]
    exact bind_apply_error (bind_apply_error hcontrol)
  exact hjobs

/-- The receipt of a control does not get through, and the next iteration performs the control again:
the device is rebooted twice for one request, both times before the request expires. -/
theorem performed_again :
    Publishes {loaderEvent} ∧ Shows {loaderEvent} (lossy 100) ∧ Shows {loaderEvent} (lossy 600) ∧
    Run {loaderEvent} true 1 PermitReplay.samplePairing (waiting [] []) ∧
    reboots (driveActiveJobs true 1 PermitReplay.samplePairing (lossy 600)
      (driveActiveJobs true 1 PermitReplay.samplePairing (lossy 100) (waiting [] [])).2).2.port
      "REQ-1" = 2 := by
  refine ⟨publishes_sample, shows_lossy 100, shows_lossy 600, .start sampleState, ?_⟩
  rw [drive_lossy (.inl rfl), drive_lossy (.inr rfl)]
  decide

theorem actuated_at_most_once_sample :
    reboots (driveActiveJobs true 1 PermitReplay.samplePairing (lossy 100) (waiting [] [])).2.port
      loaderRequest.requestId ≤ 1 := by
  have hrun : Run {loaderEvent} true 1 PermitReplay.samplePairing
      (driveActiveJobs true 1 PermitReplay.samplePairing (lossy 100) (waiting [] [])).2 := by
    refine .drive (lossy 100) (.start sampleState) ?_ (shows_lossy 100)
    intro event _ request _ hactuated
    exact absurd hactuated (Nat.lt_irrefl 0)
  exact (actuated_at_most_once {loaderEvent} publishes_sample true 1 PermitReplay.samplePairing _
    hrun).1 loaderRequest.requestId

end ArkForge.Standalone.Drive
