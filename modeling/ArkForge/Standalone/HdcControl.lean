import ArkForge.Daemon.ControlFacts
import ArkForge.Standalone.Authority

/-! # Managed control over HDC

What a plan needs from the running system of a device is done by the authority with the HDC client:
the device is rebooted into its loader, waited for in its normal mode, or asked for a property. Every
command is one of a few fixed argument lists. -/

namespace ArkForge.Standalone.HdcControl

open Lib.Fallible Lib.KeySort Lib.Ordered
open Core.Cbor Core.Digest
open Ipc.Jobs Ipc.Receipt
open Standalone.Authority
open Exec

structure ControlContext where
  currentDeviceId : String
  profileId : String
  authorityStableIdentitySha256 : String
  topologySha256 : String

structure ControlResult where
  receipt : SubmitManagedControlReceiptRequest
  reboundObservation : Option DeviceObservationView

inductive ControlFailure where
  | commandUnavailable
  | commandChanged
  | commandFailed
  | deadlineExceeded
  | outputTooLarge
  | invalidUtf8
  | malformedTargetList
  | noExactHdcTarget
  | ambiguousHdcTarget
  | currentObservationMissing
  | wrongStartingMode
  | noUniqueLoaderRebind
  | noUniqueNormalRebind
  | propertyEmpty
  | propertyMismatch

def ControlFailure.publicReason : ControlFailure → String
  | commandUnavailable => "HDC_COMMAND_UNAVAILABLE"
  | commandChanged => "HDC_EXECUTABLE_CHANGED"
  | commandFailed => "HDC_COMMAND_FAILED"
  | deadlineExceeded => "HDC_CONTROL_DEADLINE_EXCEEDED"
  | outputTooLarge => "HDC_OUTPUT_LIMIT_EXCEEDED"
  | invalidUtf8 => "HDC_OUTPUT_INVALID_UTF8"
  | malformedTargetList => "HDC_TARGET_LIST_MALFORMED"
  | noExactHdcTarget => "EXACT_HDC_TARGET_NOT_FOUND"
  | ambiguousHdcTarget => "EXACT_HDC_TARGET_AMBIGUOUS"
  | currentObservationMissing => "BOUND_OBSERVATION_NOT_FOUND"
  | wrongStartingMode => "BOUND_OBSERVATION_MODE_MISMATCH"
  | noUniqueLoaderRebind => "UNIQUE_LOADER_REBIND_NOT_OBSERVED"
  | noUniqueNormalRebind => "UNIQUE_NORMAL_REBIND_NOT_OBSERVED"
  | propertyEmpty => "HDC_PROPERTY_EMPTY"
  | propertyMismatch => "HDC_PROPERTY_MISMATCH"

structure TargetRow where
  connectKey : String
  transport : String
  state : String

def BUILD_PROPERTIES : List String := ["const.ohos.fullname", "const.product.model"]

def BUILD_PROPERTIES_QUERY : String :=
  "param get const.ohos.fullname; param get const.product.model"

def DEVICE_SERIAL_PROPERTY : String := "ohos.boot.sn"

/-! ### The port -/

/-- The commands the client was started with, each with the request it was run for, and the connect
keys that were found. -/
structure PortState where
  commands : List (String × List String)
  sessions : OrdMap String String

/-- What a command came to, and when. It may fail before the client is started at all. -/
structure CommandReply (α : Type) where
  time : ℕ
  spawned : Bool
  result : Except ControlFailure α

/-- A list of observations that was polled, when that was, and which of the devices in it could be
probed. -/
structure Poll where
  time : ℕ
  observations : Except StandaloneError (List DeviceObservationView)
  probed : String → Bool

/-- What the devices, the daemon and the clocks answer during one control: the wall clock once, and the
monotonic clock whenever it is read. All times are in milliseconds. -/
structure ControlAnswers where
  epochMs : ℕ
  started : ℕ
  observations : Except StandaloneError (List DeviceObservationView)
  /-- The serial the default target answers with, and when it was asked for. -/
  probed : ℕ
  serial : CommandReply String
  nativeKey : Except ControlFailure (Option String)
  targets : List (CommandReply (List TargetRow))
  reboot : CommandReply Unit
  polls : List Poll
  /-- The values of the properties, as often as they are asked for until the deadline. -/
  rounds : List (CommandReply (List String))

/-- The monotonic time at which the request expires. -/
def deadline (answers : ControlAnswers) (request : ManagedControlRequest) : ℕ :=
  answers.started + (request.deadlineEpochMs.toNat - answers.epochMs)

section Port

variable (request : ManagedControlRequest) (limit : ℕ)

/-- No command is started behind its deadline. -/
def run {α : Type} (arguments : List String) (reply : CommandReply α) :
    Exec PortState ControlFailure α :=
  if limit ≤ reply.time then fail .deadlineExceeded
  else do
    modifyState fun s => if reply.spawned = true then
      { s with commands := s.commands ++ [(request.requestId, arguments)] } else s
    lift reply.result

/-- A connect key of the device with the serial. -/
def isKeyOf (serialSha256 connectKey : String) : Bool :=
  (digestInDomain .deviceSerial (utf8 connectKey)).toHex = serialSha256

def plainKey (connectKey : String) : Bool :=
  connectKey ≠ "" && (utf8 connectKey).length ≤ 128 &&
  connectKey.toList.all fun c => c.toNat < 128 && !(c.toNat = 32 || (9 ≤ c.toNat && c.toNat ≤ 13 &&
    c.toNat ≠ 11))

/-- The connect key of the default target, if that is the device with the serial. -/
def unscopedExactTarget (answers : ControlAnswers) (serialSha256 : String) :
    Exec PortState ControlFailure (Option String) := handle (do
  let connectKey ← run request (min limit (answers.probed + 2000))
    ["shell", "param", "get", DEVICE_SERIAL_PROPERTY] answers.serial
  return if plainKey connectKey && isKeyOf serialSha256 connectKey then some connectKey else none)
  fun _ => pure none

/-- Asks for the target list until the device is in it. -/
def listTargets (serialSha256 : String) :
    List (CommandReply (List TargetRow)) → Exec PortState ControlFailure String
  | [] => fail .noExactHdcTarget
  | reply :: replies => do
    let rows ← run request limit ["list", "targets", "-v"] reply
    match rows.filter fun row => row.transport = "USB" && row.state = "Connected" &&
        isKeyOf serialSha256 row.connectKey with
    | [one] => return one.connectKey
    | [] => listTargets serialSha256 replies
    | _ => fail .ambiguousHdcTarget

def exactTarget (answers : ControlAnswers) (serialSha256 : String) :
    Exec PortState ControlFailure String :=
  if serialSha256 = "" then fail .noExactHdcTarget
  else do
    let native ← lift answers.nativeKey
    match native with
    | some connectKey => return connectKey
    | none => listTargets request limit serialSha256 answers.targets

/-! ### The four actions -/

def normalizedMode (mode : String) : String :=
  if mode = "Loader" ∨ mode = "loader" ∨ mode = "rockusb-loader" then "loader"
  else if mode = "HDCNormal" ∨ mode = "hdc-normal" ∨ mode = "normal" then "hdc-normal"
  else mode

def exactObservation (answers : ControlAnswers) (deviceId : String) :
    Except ControlFailure DeviceObservationView :=
  match answers.observations with
  | .error _ => .error .currentObservationMissing
  | .ok observations =>
    match observations.find? fun item => item.observationId = deviceId with
    | some item => .ok item
    | none => .error .currentObservationMissing

/-- The only device on the topology that is in the mode and can be probed. -/
def uniqueModeOnTopology (current : List DeviceObservationView) (probed : String → Bool)
    (topologySha256 mode : String) : Except ControlFailure (Option DeviceObservationView) :=
  match current.filter fun candidate => candidate.topologySha256 = topologySha256 &&
      normalizedMode candidate.mode = mode && probed candidate.observationId with
  | [] => .ok none
  | [one] => .ok (some one)
  | _ => .error (if mode = "loader" then .noUniqueLoaderRebind else .noUniqueNormalRebind)

def lineageFacts (mode : String) (observation : DeviceObservationView) (context : ControlContext) :
    List KeyValue := [
  ⟨"mode", mode⟩,
  ⟨"stableIdentitySHA256", if observation.serialSha256 = "" then
    context.authorityStableIdentitySha256 else observation.serialSha256⟩,
  ⟨"usbTopology", context.topologySha256⟩]

/-- Waits until the device that was there is gone and a loader is in its place. -/
def awaitLoader (context : ControlContext) (before : String) :
    List Poll → Except ControlFailure DeviceObservationView
  | [] => .error .noUniqueLoaderRebind
  | poll :: polls =>
    if limit ≤ poll.time then .error .noUniqueLoaderRebind
    else
      match poll.observations with
      | .error _ => .error .currentObservationMissing
      | .ok current =>
        if current.any fun item => item.observationId = before then awaitLoader context before polls
        else do
          match ← uniqueModeOnTopology current poll.probed context.topologySha256 "loader" with
          | some rebound => return rebound
          | none => awaitLoader context before polls

/-- The command that reboots the device, by the connect key if the default target is another. -/
def rebootLoader (answers : ControlAnswers) (serialSha256 : String) :
    Exec PortState ControlFailure (String × String) := do
  match ← unscopedExactTarget request limit answers serialSha256 with
  | some connectKey => do
    run request limit ["shell", "reboot", "loader"] answers.reboot
    return (connectKey, "single-default")
  | none => do
    let connectKey ← exactTarget request limit answers serialSha256
    run request limit ["-t", connectKey, "shell", "reboot", "loader"] answers.reboot
    return (connectKey, "exact-connect-key")

def enterUpdater (answers : ControlAnswers) (context : ControlContext) :
    Exec PortState ControlFailure (List KeyValue × Option DeviceObservationView) := do
  let before ← lift (exactObservation answers context.currentDeviceId)
  if normalizedMode before.mode = "loader" then
    return (lineageFacts "Loader" before context, some before)
  else if normalizedMode before.mode ≠ "hdc-normal" then fail .wrongStartingMode
  else do
    let (connectKey, targetSelection) ← rebootLoader request limit answers before.serialSha256
    let rebound ← lift (awaitLoader limit context before.observationId answers.polls)
    modifyState fun s => { s with
      sessions := s.sessions.alter request.jobId fun _ => connectKey }
    return (lineageFacts "Loader" rebound context ++ [⟨"hdcTargetSelection", targetSelection⟩],
      some rebound)

def awaitNormal (context : ControlContext) : List Poll → Except ControlFailure DeviceObservationView
  | [] => .error .noUniqueNormalRebind
  | poll :: polls =>
    if limit ≤ poll.time then .error .noUniqueNormalRebind
    else
      match poll.observations with
      | .error _ => .error .currentObservationMissing
      | .ok current => do
        match ← uniqueModeOnTopology current poll.probed context.topologySha256 "hdc-normal" with
        | some rebound => return rebound
        | none => awaitNormal context polls

def rebootToNormal (answers : ControlAnswers) (context : ControlContext) :
    Exec PortState ControlFailure (List KeyValue × Option DeviceObservationView) := do
  let rebound ← lift (awaitNormal limit context answers.polls)
  let connectKey ← exactTarget request limit answers rebound.serialSha256
  modifyState fun s => { s with sessions := s.sessions.alter request.jobId fun _ => connectKey }
  return (lineageFacts "Normal" rebound context, some rebound)

def readCommand (connectKey : String) (properties : List String) : List String :=
  if properties = BUILD_PROPERTIES then ["-t", connectKey, "shell", BUILD_PROPERTIES_QUERY]
  else ["-t", connectKey, "shell", "param", "get"] ++ properties

def expectedValue (fact : KeyValue) : Bool :=
  match request.expectedFacts.find? fun expected => expected.key = fact.key with
  | some expected => fact.value = expected.value
  | none => true

/-- Asks for the properties until they have the values that are expected. -/
def readRounds (connectKey : String) (properties : List String) :
    List (CommandReply (List String)) → Exec PortState ControlFailure (List KeyValue)
  | [] => fail .propertyMismatch
  | reply :: replies => do
    let values ← run request limit (readCommand connectKey properties) reply
    let facts := (properties.zip values).map fun p => (⟨p.1, p.2⟩ : KeyValue)
    if facts.all (expectedValue request) then return facts
    else readRounds connectKey properties replies

/-- The connect key the job's device was rebooted with, if it is still that of the device. -/
def sessionKey (s : PortState) (serialSha256 : String) : Option String :=
  (s.sessions.get request.jobId).filter (isKeyOf serialSha256)

def knownTarget (answers : ControlAnswers) (serialSha256 : String) :
    Exec PortState ControlFailure String := do
  let s ← getState
  match sessionKey request s serialSha256 with
  | some connectKey => return connectKey
  | none => exactTarget request limit answers serialSha256

def readProperties (answers : ControlAnswers) (context : ControlContext) (properties : List String) :
    Exec PortState ControlFailure (List KeyValue × Option DeviceObservationView) :=
  if request.expectedFacts.any fun fact => fact.key ∉ properties then fail .propertyMismatch
  else do
    let current ← lift (exactObservation answers context.currentDeviceId)
    if normalizedMode current.mode ≠ "hdc-normal" then fail .wrongStartingMode
    else do
      let connectKey ← knownTarget request limit answers current.serialSha256
      modifyState fun s => { s with sessions := s.sessions.alter request.jobId fun _ => connectKey }
      let facts ← readRounds request limit connectKey properties answers.rounds
      return (facts, none)

end Port

/-! ### Performing a control -/

def acceptedReceipt (request : ManagedControlRequest) (facts : List KeyValue) :
    SubmitManagedControlReceiptRequest :=
  let sorted := sortByKey (fun fact => utf8 fact.key) facts
  { jobId := request.jobId
    requestId := request.requestId
    action := request.action
    accepted := true
    facts := sorted
    evidenceSha256 := (Daemon.ControlFacts.canonicalFactsDigest sorted).bytes
    failureReason := "" }

def refusedReceipt (request : ManagedControlRequest) (reason : String) :
    SubmitManagedControlReceiptRequest where
  jobId := request.jobId
  requestId := request.requestId
  action := request.action
  accepted := false
  facts := []
  evidenceSha256 := []
  failureReason := reason

def performAction (answers : ControlAnswers) (request : ManagedControlRequest)
    (context : ControlContext) :
    Exec PortState ControlFailure (List KeyValue × Option DeviceObservationView) :=
  let limit := deadline answers request
  match request.action with
  | .enterUpdater => enterUpdater request limit answers context
  | .rebootToNormal => rebootToNormal request limit answers context
  | .readProductFacts => readProperties request limit answers context ["const.product.model"]
  | .readBuildFacts => readProperties request limit answers context BUILD_PROPERTIES

/-- Performs the control the daemon asked for. Whatever goes wrong becomes a refusal. -/
def perform {ε : Type} (answers : ControlAnswers) (request : ManagedControlRequest)
    (context : ControlContext) : Exec PortState ε ControlResult :=
  handle (do
    let (facts, rebound) ← performAction answers request context
    return ⟨acceptedReceipt request facts, rebound⟩)
  fun failure => pure ⟨refusedReceipt request failure.publicReason, none⟩

/-! ### How often a device is rebooted -/

/-- The command reboots the device: the only ones that change it. -/
def rebootsLoader : List String → Bool
  | ["shell", "reboot", "loader"] => true
  | ["-t", _, "shell", "reboot", "loader"] => true
  | _ => false

/-- How often the device was rebooted for the request. -/
def reboots (s : PortState) (requestId : String) : ℕ :=
  s.commands.countP fun c => decide (c.1 = requestId) && rebootsLoader c.2

section Count

variable {request : ManagedControlRequest} {limit : ℕ} {start : PortState}

/-- The device was rebooted at most so often since the start, and for the request only. -/
def Within (request : ManagedControlRequest) (start : PortState) (times : ℕ) (s : PortState) : Prop :=
  ∀ requestId, reboots s requestId ≤
    reboots start requestId + if requestId = request.requestId then times else 0

theorem within_refl (s : PortState) : Within request s 0 s := fun requestId => by
  split_ifs <;> omega

theorem Within.mono {times : ℕ} {s : PortState} (h : Within request start times s) {more : ℕ}
    (hle : times ≤ more) : Within request start more s := by
  intro requestId
  have := h requestId
  split_ifs at this ⊢ <;> omega

theorem reboots_append (s : PortState) (arguments : List String) (requestId : String) :
    reboots { s with commands := s.commands ++ [(request.requestId, arguments)] } requestId =
      reboots s requestId +
        if requestId = request.requestId then (if rebootsLoader arguments then 1 else 0) else 0 := by
  unfold reboots
  by_cases hid : requestId = request.requestId
  · subst hid
    simp
  · simp [hid, Ne.symm hid]

theorem meets_run {α : Type} {arguments : List String} (reply : CommandReply α) {times : ℕ} :
    Ends (Within request start times) (run request limit arguments reply)
      (Within request start (times + if rebootsLoader arguments then 1 else 0)) := by
  refine meets_ite (fun _ => meets_fail fun _ hs => hs.mono (Nat.le_add_right _ _)) fun _ => ?_
  refine Meets.bind (Q := fun _ => Within request start
    (times + if rebootsLoader arguments then 1 else 0)) (meets_modifyState fun s hs => ?_) fun _ => ?_
  · split_ifs with hspawned
    · intro requestId
      rw [reboots_append]
      have := hs requestId
      split_ifs at this ⊢ <;> omega
    · exact hs.mono (Nat.le_add_right _ _)
    · intro requestId
      rw [reboots_append]
      have := hs requestId
      split_ifs at this ⊢ <;> omega
    · exact hs.mono (Nat.le_add_right _ _)
  · exact lift_keeps

theorem meets_read {α : Type} {arguments : List String} (reply : CommandReply α)
    (h : rebootsLoader arguments = false) {times : ℕ} :
    Ends (Within request start times) (run request limit arguments reply)
      (Within request start times) := by
  have hrun := @meets_run request limit start α arguments reply times
  rw [h] at hrun
  exact hrun

theorem meets_listTargets (serialSha256 : String) (times : ℕ) :
    ∀ replies, Meets (Within request start times) (listTargets request limit serialSha256 replies)
      (fun _ => Within request start times) fun _ => Within request start times
  | [] => fail_keeps
  | reply :: replies => by
    refine (meets_read reply rfl).bind fun rows => ?_
    split
    · exact pure_keeps
    · exact meets_listTargets serialSha256 times replies
    · exact fail_keeps

theorem meets_exactTarget (answers : ControlAnswers) (serialSha256 : String) (times : ℕ) :
    Ends (Within request start times) (exactTarget request limit answers serialSha256)
      (Within request start times) := by
  refine meets_ite (fun _ => fail_keeps) fun _ => ?_
  refine lift_keeps.bind fun native => ?_
  cases native with
  | some connectKey => exact pure_keeps
  | none => exact meets_listTargets serialSha256 times answers.targets

theorem meets_unscopedExactTarget (answers : ControlAnswers) (serialSha256 : String) :
    Ends (Within request start 0) (unscopedExactTarget request limit answers serialSha256)
      (Within request start 0) := by
  refine Meets.handle ?_ fun _ => pure_keeps
  exact (meets_read answers.serial rfl).bind fun _ => pure_keeps

theorem within_one (s : PortState) (h : Within request start 0 s) : Within request start 1 s :=
  h.mono (Nat.zero_le 1)

theorem meets_rebootLoader (answers : ControlAnswers) (serialSha256 : String) :
    Ends (Within request start 0) (rebootLoader request limit answers serialSha256)
      (Within request start 1) := by
  refine ((meets_unscopedExactTarget answers serialSha256).failing fun _ => within_one).bind
    fun target => ?_
  cases target with
  | some connectKey => exact (meets_run answers.reboot).bind fun _ => pure_keeps
  | none =>
    refine ((meets_exactTarget answers serialSha256 0).failing fun _ => within_one).bind
      fun connectKey => ?_
    exact (meets_run answers.reboot).bind fun _ => pure_keeps

theorem meets_enterUpdater (answers : ControlAnswers) (context : ControlContext) :
    Ends (Within request start 0) (enterUpdater request limit answers context)
      (Within request start 1) := by
  refine meets_lift_bind (fun before _ => ?_) fun _ _ => within_one
  refine meets_ite (fun _ => meets_pure within_one) fun _ => ?_
  refine meets_ite (fun _ => meets_fail within_one) fun _ => ?_
  refine (meets_rebootLoader answers before.serialSha256).bind fun selected => ?_
  refine lift_keeps.bind fun rebound => ?_
  refine meets_modifyState_bind (M := Within request start 1) (fun _ hs => hs) ?_
  exact pure_keeps

theorem meets_rebootToNormal (answers : ControlAnswers) (context : ControlContext) :
    Ends (Within request start 0) (rebootToNormal request limit answers context)
      (Within request start 0) := by
  refine lift_keeps.bind fun rebound => ?_
  refine (meets_exactTarget answers rebound.serialSha256 0).bind fun connectKey => ?_
  refine meets_modifyState_bind (M := Within request start 0) (fun _ hs => hs) ?_
  exact pure_keeps

theorem meets_knownTarget (answers : ControlAnswers) (serialSha256 : String) :
    Ends (Within request start 0) (knownTarget request limit answers serialSha256)
      (Within request start 0) := by
  refine meets_getState_bind fun s => ?_
  split
  · exact pure_keeps
  · exact meets_exactTarget answers serialSha256 0

variable {properties : List String}

theorem readCommand_reads (connectKey : String)
    (h : properties = BUILD_PROPERTIES ∨ properties = ["const.product.model"]) :
    rebootsLoader (readCommand connectKey properties) = false := by
  rcases h with rfl | rfl
  · rfl
  · rfl

theorem meets_readRounds (connectKey : String)
    (h : properties = BUILD_PROPERTIES ∨ properties = ["const.product.model"]) :
    ∀ replies, Meets (Within request start 0) (readRounds request limit connectKey properties replies)
      (fun _ => Within request start 0) fun _ => Within request start 0
  | [] => fail_keeps
  | reply :: replies => by
    refine (meets_read reply (readCommand_reads connectKey h)).bind fun values => ?_
    exact meets_ite (fun _ => pure_keeps)
      fun _ => meets_readRounds connectKey h replies

theorem meets_readProperties (answers : ControlAnswers) (context : ControlContext)
    (h : properties = BUILD_PROPERTIES ∨ properties = ["const.product.model"]) :
    Ends (Within request start 0) (readProperties request limit answers context properties)
      (Within request start 0) := by
  refine meets_ite (fun _ => fail_keeps) fun _ => ?_
  refine lift_keeps.bind fun current => ?_
  refine meets_ite (fun _ => fail_keeps) fun _ => ?_
  refine (meets_knownTarget answers current.serialSha256).bind fun connectKey => ?_
  refine meets_modifyState_bind (M := Within request start 0) (fun _ hs => hs) ?_
  exact (meets_readRounds connectKey h answers.rounds).bind fun _ => pure_keeps

theorem meets_performAction (answers : ControlAnswers) (context : ControlContext) :
    Ends (Within request start 0) (performAction answers request context)
      (Within request start 1) := by
  unfold performAction
  split
  · exact meets_enterUpdater answers context
  · exact (meets_rebootToNormal answers context).weaken (fun _ hs => hs) (fun _ => within_one)
      fun _ => within_one
  · exact (meets_readProperties answers context (Or.inr rfl)).weaken (fun _ hs => hs)
      (fun _ => within_one)
      fun _ => within_one
  · exact (meets_readProperties answers context (Or.inl rfl)).weaken (fun _ hs => hs)
      (fun _ => within_one)
      fun _ => within_one

/-- **A control reboots its device at most once**, and for its own request. -/
theorem within_perform {ε : Type} (answers : ControlAnswers) (context : ControlContext)
    (s : PortState) : Within request s 1 (perform (ε := ε) answers request context s).2 := by
  have hmeets : Ends (Within request s 0) (perform (ε := ε) answers request context)
      (Within request s 1) := by
    refine Meets.handle ?_ fun _ => pure_keeps
    exact (meets_performAction answers context).bind fun _ => pure_keeps
  exact hmeets.state (within_refl s)

end Count

end ArkForge.Standalone.HdcControl
