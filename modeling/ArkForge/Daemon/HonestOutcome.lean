import ArkForge.Daemon.DispatcherSpec
import ArkForge.Daemon.UsbLog
import ArkForge.Provider.LoweringSpec

/-! # Dispositions are honest

A run over the native port, whatever the USB stack and the host do. If it reports that nothing was
done, no command that changes the device was handed to the USB handle. If a write reports success,
every write command it sent was acknowledged. -/

namespace ArkForge.Daemon.HonestOutcome

open Lib.Bytes Lib.Fallible
open Core.Projection Core.Profile Core.Verification
open Provider.RockUsb Provider.Device Provider.Actions
open Provider.SectorArray (Command Acknowledges)
open Provider.Execute Provider.ExecuteSpec
open Provider.Lowering (probeDevice reboot)
open Provider.LoweringSpec (zeroDigest)
open Jobs (DispatchOutcome)
open NativePort UsbLog
open Staging StagingSpec
open Dispatcher DispatcherSpec

variable {ω : Type} {old : List UsbTransfer}

/-- The host beside a stack that is watched. -/
def besideLog (host : DispatchHost ω) : DispatchHost (Native (Logged ω)) :=
  onPart host (fun n => n.world.world) fun n w => { n with world := { n.world with world := w } }

theorem hostKept_besideLog (host : DispatchHost ω) (old : List UsbTransfer) :
    HostKept (besideLog host) (Rested old) := hostKept_onPart host fun _ _ h => h

section Actions

variable (host : DispatchHost ω) (usb : NativeUsb ω) (port : NativeRockUsbPort)

/-- The execution, with a log that is harmless since it was `old`. -/
abbrev Calm (old : List UsbTransfer) : Execution (Native (Logged ω)) → Prop := Within (Rested old)

theorem kept_rested : Kept (besideLog host).toExecutionHost
    (NativeRockUsbPort.asPort (watched usb) port) (Rested old) where
  createDirAll := (hostKept_besideLog host old).createDirAll
  openFile := (hostKept_besideLog host old).openFile
  discover := fun _ => (meets_discover usb port).state
  readPartitionTable := fun _ => (meets_readTable usb port).state
  readSectors := fun _ _ _ _ => (meets_readSectors usb port _ _).state

/-- If nothing was done, no transfer since `old` has changed the device. -/
def Honest (old : List UsbTransfer) (disposition : ActionDisposition) (l : Logged ω) : Prop :=
  Since old (fun new => disposition = .confirmedNoEffect → Harmless new) l

theorem Calm.honest {e : Execution (Native (Logged ω))} (h : Calm old e)
    (disposition : ActionDisposition) : Honest old disposition e.world.world :=
  Since.imp h fun _ hnew _ => hnew

/-- The failure of a mutation is classified by whether anything was sent. -/
theorem honest_of_failed {l : Logged ω} (operation : String) {f : RockUsbPortFailure}
    (h : Failed old f l) : Honest old (classify (portError operation f)).disposition l := by
  cases f with
  | beforeIo fault => exact Since.imp h fun _ hnew _ => hnew
  | afterIo fault => exact Since.imp h fun _ _ hd => nomatch hd

/-- What an action leaves when it answers. -/
structure Reports (old : List UsbTransfer) (action : StoredAction) (o : ActionOutcome)
    (e : Execution (Native (Logged ω))) : Prop where
  honest : Honest old o.disposition e.world.world
  calm : isReadOnly action = true → Calm old e
  delivered : ∀ partition member beginSector, action = .writePartition partition member beginSector →
    o.disposition = .semanticSuccess →
    ∃ image, .writePartition partition beginSector.toNat image ∈ e.calls ∧
      Since old (Delivered beginSector.toNat (padded image.file.contents)) e.world.world

/-- What a refusal leaves. A panic leaves nothing to report. -/
def Refuses (old : List UsbTransfer) (halt : Halt ExecutionError)
    (e : Execution (Native (Logged ω))) : Prop :=
  ∀ error, halt = .error error → Honest old (classify error).disposition e.world.world

theorem Calm.refuses {e : Execution (Native (Logged ω))} (h : Calm old e)
    (halt : Halt ExecutionError) : Refuses old halt e := fun _ _ => h.honest _

/-- **One action**, whatever its kind. -/
theorem meets_executeAction (scratch : String) (profile : DeviceProfile) (action : StoredAction)
    (record : PrivateActionRecord) :
    Meets (Calm old) (executeAction (besideLog host).toExecutionHost
        (NativeRockUsbPort.asPort (watched usb) port) scratch profile action record)
      (Reports old action) (Refuses old) := by
  have hkept := @kept_rested _ old host usb port
  have hreads : ∀ {x : Executes (Native (Logged ω)) ActionOutcome},
      (∀ p m b, action ≠ .writePartition p m b) →
      Meets (Calm old) x (fun _ => Calm old) (fun _ => Calm old) →
      Meets (Calm old) x (Reports old action) (Refuses old) := fun hne hx =>
    hx.weaken (fun _ he => he)
      (fun o e he => ⟨he.honest _, fun _ => he, fun p m b h => absurd h (hne p m b)⟩)
      fun halt _ he => he.refuses halt
  cases action with
  | managedControl controlAction expect => exact meets_fail fun _ he => he.refuses _
  | probeLoader => exact hreads (by simp) (hkept.probeLoader record)
  | validatePartitionTable expected =>
    exact hreads (by simp) (hkept.validatePartitionTable record profile expected)
  | characterizeReadDomain => exact hreads (by simp) (hkept.characterizeReadDomain record scratch)
  | readbackPartition partition beginSector maxStrength filler =>
    exact hreads (by simp)
      (hkept.readbackPartition record scratch partition beginSector maxStrength filler)
  | writePartition partition member beginSector =>
    refine hkept.writePartition record profile partition member beginSector
      (fun halt _ he => Calm.refuses he halt) fun image e he => ?_
    have hwrite := @meets_writePartition _ old usb port partition beginSector.toNat image
    refine ⟨fun f hf => ?_, fun receipt hreceipt => ?_⟩
    · rintro error ⟨⟩
      exact honest_of_failed _ (hwrite.error he (Prod.ext hf rfl))
    · obtain ⟨hsuccess, hdelivered⟩ := hwrite.ok he (Prod.ext hreceipt rfl)
      refine ⟨fun fault => ?_, fun o ho => ⟨?_, fun h => (by cases h), ?_⟩⟩
      · rintro error ⟨⟩
        exact Since.imp hdelivered fun _ _ hd => nomatch hd
      · refine Since.imp hdelivered fun _ _ hd => ?_
        rw [ho, hsuccess] at hd
        cases hd
      · rintro p m b ⟨⟩ -
        exact ⟨image, List.mem_append_right _ List.mem_cons_self, hdelivered⟩
  | resetDevice =>
    refine meets_resetDevice record fun e he => ?_
    have hreset := @meets_resetLoader _ old usb port
    refine ⟨fun f hf => ?_, fun receipt hreceipt o ho => ⟨?_, fun h => (by cases h), by simp⟩⟩
    · rintro error ⟨⟩
      exact honest_of_failed _ (hreset.error he (Prod.ext hf rfl))
    · obtain ⟨hsuccess, hsince⟩ := hreset.ok he (Prod.ext hreceipt rfl)
      refine Since.imp hsince fun _ _ hd => ?_
      rw [ho, hsuccess] at hd
      cases hd

/-- The actions of a step, all but the last of which only read. -/
theorem meets_executeAll (scratch : String) (profile : DeviceProfile) :
    ∀ (pairs : List (StoredAction × PrivateActionRecord)) (last : Option ActionOutcome),
    (∀ p ∈ pairs.dropLast, isReadOnly p.1 = true) →
    Meets (Calm old) (executeAll (besideLog host) (NativeRockUsbPort.asPort (watched usb) port) scratch
        profile pairs last)
      (fun o e => (pairs = [] ∧ o = last ∧ Calm old e) ∨
        ∃ p outcome, pairs.getLast? = some p ∧ o = some outcome ∧ Reports old p.1 outcome e)
      (Refuses old)
  | [], last, _ => meets_pure fun _ he => .inl ⟨rfl, rfl, he⟩
  | (action, record) :: rest, _, hsubs => by
    refine (meets_executeAction host usb port scratch profile action record).bind fun o e he => ?_
    rcases rest with _ | ⟨next, rest⟩
    · exact .inr ⟨(action, record), o, rfl, rfl, he⟩
    · have hcalm := he.calm (hsubs (action, record) (by simp))
      refine ((meets_executeAll scratch profile (next :: rest) (some o) fun p hp =>
        hsubs p (by simp [hp])).post ?_) e hcalm
      rintro o' e' (⟨hnil, -⟩ | ⟨p, outcome, hlast, rfl, hreports⟩)
      · cases hnil
      · exact .inr ⟨p, outcome, by simpa using hlast, rfl, hreports⟩

end Actions

/-- The outcome of a run tells the truth about its transfers. -/
def Truthful (old : List UsbTransfer) (work : DispatchWork) (o : DispatchOutcome)
    (d : Dispatching (Native (Logged ω))) : Prop :=
  Honest old o.disposition d.world.world ∧
    (o.disposition = .semanticSuccess → ∀ record partition member beginSector,
      work.actions.getLast? = some record →
      StoredAction.decode record = .ok (.writePartition partition member beginSector) →
      ∃ image, .writePartition partition beginSector.toNat image ∈ d.calls work.jobId ∧
        Since old (Delivered beginSector.toNat (padded image.file.contents)) d.world.world)

theorem truthful_of_failure {work : DispatchWork} {failure : DispatchFailure}
    {d : Dispatching (Native (Logged ω))} (describe : DispatchFailure → String)
    (h : Honest old failure.disposition d.world.world) :
    Truthful old work (failureOutcome describe work.stepId failure) d := by
  refine ⟨h, fun hsuccess => ?_⟩
  cases failure <;> cases hsuccess

theorem meets_run (usb : NativeUsb ω) (host : DispatchHost ω) (port : NativeRockUsbPort)
    (storeRoot workRoot : String) (describe : DispatchFailure → String) (work : DispatchWork)
    (hsubs : ∀ record ∈ work.actions.dropLast, ∃ action, StoredAction.decode record = .ok action ∧
      isReadOnly action = true)
    (d : Dispatching (Native (Logged ω))) :
    Meets (fun d' => d' = d) (run (besideLog host) (NativeRockUsbPort.asPort (watched usb) port)
      storeRoot workRoot describe work) (Truthful d.world.world.log work) fun _ _ => True := by
  have hcalm : Rested d.world.world.log d.world := Since.refl _ fun _ ht => nomatch ht
  have htry := @meets_tryRun _ _ (NativeRockUsbPort.asPort (watched usb) port) _ storeRoot workRoot
    (hostKept_besideLog host d.world.world.log) work
    (Q := fun last d' => (last = none ∧ Rested d.world.world.log d'.world) ∨
      ∃ record action outcome, work.actions.getLast? = some record ∧
        StoredAction.decode record = .ok action ∧ last = some outcome ∧
        Reports d.world.world.log action outcome
          ⟨d'.world, d'.dispatcher.session work.jobId, d'.calls work.jobId⟩)
    (R := fun halt d' => ∀ error, halt = .error error →
      Honest d.world.world.log (classify error).disposition d'.world.world) ?_
  · refine ((htry.pre fun d' (hd : d' = d) => hd ▸ hcalm).post ?_).handle fun halt => ?_
    · rintro o d' ⟨last, ⟨hnone, -⟩ | ⟨record, action, outcome, hlast, hdecode, hsome, hreports⟩, ho⟩
      · cases hnone
      obtain rfl := Option.some.inj hsome
      refine ⟨ho ▸ hreports.honest,
        fun hsuccess record' partition member beginSector hlast' hdecode' => ?_⟩
      obtain rfl := Option.some.inj (hlast.symm.trans hlast')
      obtain rfl := Except.ok.inj (hdecode.symm.trans hdecode')
      exact hreports.delivered partition member beginSector rfl (ho ▸ hsuccess)
    · cases halt with
      | panic => exact meets_fail fun _ _ => trivial
      | error failure =>
        refine meets_pure fun d' hd => truthful_of_failure describe ?_
        obtain hrested | ⟨halt, hhalt, hhonest⟩ | hnone := hd
        · exact Since.imp hrested fun _ hnew _ => hnew
        · cases halt with
          | panic => cases hhalt
          | error error =>
            cases hhalt
            exact hhonest error rfl
        · obtain ⟨-, hrested⟩ | ⟨_, _, _, _, _, hsome, -⟩ := hnone
          · exact Since.imp hrested fun _ hnew _ => hnew
          · cases hsome
  · intro decoded hdecoded
    obtain ⟨hactions, hpairs⟩ := decodeAll_zip hdecoded
    have hall := @meets_executeAll _ d.world.world.log host usb port
      (jobRoot workRoot work.jobId ++ "/scratch") work.profile (decoded.zip work.actions) none
      fun p hp => ?_
    · refine Meets.within fun d₁ hd₁ => hall.weaken (fun e he => he ▸ hd₁) ?_ fun halt e he => he
      rintro o e (⟨-, rfl, he⟩ | ⟨p, outcome, hlast, rfl, hreports⟩)
      · exact .inl ⟨rfl, he⟩
      · refine .inr ⟨p.2, p.1, outcome, ?_, hpairs p (List.mem_of_getLast? hlast), rfl, ?_⟩
        · rw [← hactions, List.getLast?_map, hlast, Option.map_some]
        · simpa [session_putSession] using hreports
    · have hmem : p.2 ∈ work.actions.dropLast := by
        rw [← hactions, ← List.map_dropLast]
        exact List.mem_map_of_mem hp
      obtain ⟨action, hdecode, hread⟩ := hsubs p.2 hmem
      rw [hpairs p (List.dropLast_subset _ hp)] at hdecode
      rwa [Except.ok.inj hdecode]

/-- **Dispositions are honest.** Over any USB stack, any host and any state of the dispatcher: when a
run of a step whose sub-actions only read reports that nothing was done, none of the transfers of the
run hands over a command block that writes or resets; when the step is a write and the run reports
success, the transfers have sent the bytes of the image from its sector on, and behind every write
command come its data and a status that acknowledges it. -/
theorem dispositions_honest (usb : NativeUsb ω) (host : DispatchHost ω) (port : NativeRockUsbPort)
    (storeRoot workRoot : String) (describe : DispatchFailure → String) (work : DispatchWork)
    (hsubs : ∀ record ∈ work.actions.dropLast, ∃ action, StoredAction.decode record = .ok action ∧
      isReadOnly action = true)
    (d d' : Dispatching (Native (Logged ω))) (o : DispatchOutcome)
    (hrun : run (besideLog host) (NativeRockUsbPort.asPort (watched usb) port) storeRoot workRoot
      describe work d = (.ok o, d')) :
    ∃ new, d'.world.world.log = d.world.world.log ++ new ∧
      (o.disposition = .confirmedNoEffect → ∀ t ∈ new, ¬ Mutates t) ∧
      (o.disposition = .semanticSuccess → ∀ record partition member beginSector,
        work.actions.getLast? = some record →
        StoredAction.decode record = .ok (.writePartition partition member beginSector) →
        ∃ image, .writePartition partition beginSector.toNat image ∈ d'.calls work.jobId ∧
          Delivered beginSector.toNat (padded image.file.contents) new ∧
          ∀ before bytes taken after c, new = before ++ .sent bytes taken :: after →
            Command.read bytes = some c → c.opcode = WRITE_LBA →
            taken = true ∧ ∃ payload csw rest,
              after = .sent payload true :: .received (some csw) :: rest ∧
              payload.length = LOGICAL_BLOCK_BYTES * c.sectors ∧ Acknowledges c csw) := by
  obtain ⟨⟨new, hlog, hnew⟩, hdelivered⟩ :=
    (meets_run usb host port storeRoot workRoot describe work hsubs d).ok rfl hrun
  refine ⟨new, hlog, hnew, fun hsuccess record partition member beginSector hlast hdecode => ?_⟩
  obtain ⟨image, hcall, new', hlog', hsent⟩ :=
    hdelivered hsuccess record partition member beginSector hlast hdecode
  obtain rfl : new = new' := List.append_cancel_left (hlog.symm.trans hlog')
  exact ⟨image, hcall, hsent, fun before bytes taken after c hsplit hread hopcode =>
    hsent.acknowledged hsplit hread hopcode⟩

/-- The answer that is due, if it has the length that is asked for. -/
def answer (n : ℕ) : Exec (List (List UInt8)) String (List UInt8)
  | [] => (.error "timed out", [])
  | reply :: rest => if reply.length = n then (.ok reply, rest) else (.error "stalled", rest)

theorem length_answer (n : ℕ) (replies : List (List UInt8)) (bytes : List UInt8)
    (rest : List (List UInt8)) (h : answer n replies = (.ok bytes, rest)) : bytes.length = n := by
  cases replies with
  | nil => cases h
  | cons reply replies =>
    by_cases hlength : reply.length = n
    · rw [answer, if_pos hlength] at h
      cases h
      exact hlength
    · rw [answer, if_neg hlength] at h
      cases h

/-- A stack with one loader, which takes every transfer and gives the answers it holds in turn. -/
def answering : NativeUsb (List (List UInt8)) where
  enumerate := pure [{
    vendorId := 0x2207, productId := 0x350a, usbSpecification := 0x0201, deviceRelease := 0x0100
    locationId := 1, interfaceClass := 0xff, interfaceSubclass := 6, interfaceProtocol := 5
    interfaceNumber := 0, serial := none, productName := none, vendorName := none }]
  openUnique := fun _ => pure ()
  openExact := fun _ _ => pure ()
  bulk := {
    writeAll := fun _ => pure ()
    readSome := answer
    readExact := answer
    length_readExact := length_answer }
  now := fun _ => 0

/-- The status that answers the first command. -/
def readyStatus : List UInt8 := CSW_SIGNATURE ++ leBytes 4 0 ++ leBytes 4 0 ++ [0]

/-- A probe, and a reboot after it. -/
def rebootWork : DispatchWork where
  jobId := "job"
  stepId := "STEP-001"
  actions := [(probeDevice loaderMode).primary boardId boardId,
    (reboot loaderMode normalMode).primary boardId boardId]
  planActions := []
  artifactDigest := zeroDigest
  profile := boardProfile 512 [] []

/-- A loader that answers the probe and is silent when the reboot asks whether it is ready: four
transfers have taken place, none of them hands over the reset, and nothing was done. -/
theorem dispositions_honest_unanswered : ∃ o d', run (besideLog bareHost)
      (NativeRockUsbPort.asPort (watched answering) ⟨UsbInterfaceSelector.dayu200Loader, none⟩)
      "store" "work" (fun _ => "") rebootWork (.new ⟨⟨[readyStatus], []⟩, 0⟩) = (.ok o, d') ∧
    o.disposition = .confirmedNoEffect ∧ ∃ new, d'.world.world.log = [] ++ new ∧ new.length = 4 ∧
      ∀ t ∈ new, ¬ Mutates t := by
  obtain ⟨o, d', hrun, hdisposition, hlength⟩ : ∃ o d', run (besideLog bareHost)
      (NativeRockUsbPort.asPort (watched answering) ⟨UsbInterfaceSelector.dayu200Loader, none⟩)
      "store" "work" (fun _ => "") rebootWork (.new ⟨⟨[readyStatus], []⟩, 0⟩) = (.ok o, d') ∧
      o.disposition = .confirmedNoEffect ∧ d'.world.world.log.length = 4 := ⟨_, _, rfl, rfl, rfl⟩
  have hsubs : ∀ record ∈ rebootWork.actions.dropLast, ∃ action,
      StoredAction.decode record = .ok action ∧ isReadOnly action = true := by
    intro record hrecord
    obtain rfl := List.mem_singleton.mp hrecord
    exact ⟨.probeLoader, rfl, rfl⟩
  obtain ⟨new, hlog, hnew, -⟩ := dispositions_honest answering bareHost
    ⟨UsbInterfaceSelector.dayu200Loader, none⟩ "store" "work" (fun _ => "") rebootWork hsubs _ d' o
    hrun
  have hfour : new.length = 4 := by simpa [hlog, Dispatching.new] using hlength
  exact ⟨o, d', hrun, hdisposition, new, hlog, hfour, hnew hdisposition⟩

end ArkForge.Daemon.HonestOutcome
