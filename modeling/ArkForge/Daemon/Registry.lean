import ArkForge.Daemon.Admission
import ArkForge.Daemon.Recover

/-! # The job registry

The jobs of the daemon by id. Every job has its journal in a file of the
directory; a start that fails may leave a file behind that no job has open. Opening the registry
recovers a job from every journal in the directory, and fails at the first that it cannot recover. -/

namespace ArkForge.Daemon.Registry

open Lib.Ordered Lib.Transaction
open Core.Ids Core.Projection
open Core.Plan
open Engine.Durable Engine.Recovery
open Jobs Admission Recover

/-! ### Names -/

def zeroPadded (width : ℕ) (digits : List Char) : List Char :=
  List.replicate (width - digits.length) '0' ++ digits

/-- `JOB-{now:016X}-{counter:04}` -/
def jobIdText (now : UInt64) (counter : ℕ) : String :=
  String.ofList ("JOB-".toList ++ zeroPadded 16 ((Nat.toDigits 16 now.toNat).map Char.toUpper) ++
    '-' :: zeroPadded 4 (Nat.toDigits 10 counter))

def journalPath (jobId : String) : String := jobId ++ ".journal"

def isJournal (name : String) : Bool :=
  ".journal".toList.isSuffixOf name.toList && ".journal".toList.length < name.toList.length

/-! ### The registry -/

/-- Files by name. -/
abbrev Directory := List (String × Disk)

def absent : Disk := ⟨false, [], 0⟩

def diskAt (directory : Directory) (name : String) : Disk :=
  ((directory.find? fun f => f.1 = name).map Prod.snd).getD absent

structure JobRegistry where
  jobs : OrdMap String Job
  counter : ℕ
  /-- The files that no job has open. -/
  strays : Directory

namespace JobRegistry

/-- The registry of an empty directory. -/
def empty : JobRegistry := ⟨.empty, 0, []⟩

def directory (registry : JobRegistry) : Directory :=
  registry.jobs.entries.map (fun e => (e.2.journal.path, e.2.journal.file.disk)) ++ registry.strays

/-- Leaves a file that no job has open. -/
def leave (registry : JobRegistry) (name : String) (disk : Disk) : JobRegistry :=
  { registry with strays := registry.strays.filter (fun f => f.1 ≠ name) ++ [(name, disk)] }

def insert (registry : JobRegistry) (jobId : String) (job : Job) : JobRegistry :=
  { registry with
    jobs := registry.jobs.alter jobId fun _ => job
    strays := registry.strays.filter fun f => f.1 ≠ job.journal.path }

end JobRegistry

abbrev RegistryTx := Tx JobError JobRegistry

/-! ### Starting -/

/-- A job that has done nothing yet. -/
def plannedJob (jobId : String) (controllerSessionId : ControllerSessionId)
    (envelope : FlashPlanEnvelope) (journal : DurableJournal) : Job where
  jobId := jobId
  controllerSessionId := controllerSessionId
  planId := envelope.planId.value
  planDigest := envelope.planDigest
  state := .planned
  stepIndex := 0
  totalSteps := envelope.publicSteps.length
  journal := journal
  events := []
  pending := none
  inFlight := none
  stopped := none
  cancellationRequested := false

/-- Records the job and publishes the first admission it needs. -/
def startJob (io : ℕ → AppendIo) (envelope : FlashPlanEnvelope) (privatePlan : StoredProviderPlan)
    (facts : AdmissionFacts) (now : UInt64) : JobTx Unit := do
  let job ← get
  let recordDigest ← record (io 0) .jobCreated now job.jobId [
    (Fact.JOB_ID, job.jobId), (Fact.PLAN_ID, job.planId), ("planDigest", job.planDigest.toHex),
    ("totalSteps", toString job.totalSteps), ("controllerSessionId", job.controllerSessionId.value)]
  moveTo .awaitingStart
  moveTo .preflight
  publish .stateChanged now recordDigest {}
  requestAdmission (io 1) envelope privatePlan facts now

/-- Creates a job. -/
def start (fault : OpenFault) (io : ℕ → AppendIo) (envelope : FlashPlanEnvelope)
    (privatePlan : StoredProviderPlan) (controllerSessionId : ControllerSessionId)
    (facts : AdmissionFacts) (now : UInt64) : RegistryTx String :=
  ExceptT.mk fun registry =>
    if envelope.publicSteps = [] then (.error .planHasNoSteps, registry)
    else
      let counter := registry.counter + 1
      let jobId := jobIdText now counter
      let path := journalPath jobId
      let registry := { registry with counter }
      match DurableJournal.openAt path fault (diskAt registry.directory path) with
      | .error (error, disk) => (.error (.journal error), registry.leave path disk)
      | .ok (journal, _) =>
        match (startJob io envelope privatePlan facts now).exec
            (plannedJob jobId controllerSessionId envelope journal) with
        | (.error error, job) => (.error error, registry.leave path job.journal.file.disk)
        | (.ok _, job) => (.ok jobId, registry.insert jobId job)

/-! ### Opening -/

/-- What the operating system answers about one file of the directory. -/
structure Visit where
  name : String
  disk : Disk
  /-- The entry itself could not be read. -/
  unreadable : Option String
  fault : OpenFault
  io : AppendIo

/-- The directory after an attempt to open the registry. -/
structure Opening where
  registry : Except JobError JobRegistry
  directory : Directory

/-- Recovers one job after the other; the files behind the first failure are not looked at. -/
def recoverAll (registry : JobRegistry) : List Visit → Opening
  | [] => ⟨.ok registry, registry.directory⟩
  | v :: visits =>
    let rest := visits.map fun v => (v.name, v.disk)
    match v.unreadable with
    | some message =>
      ⟨.error (.registryIo message), registry.directory ++ (v.name, v.disk) :: rest⟩
    | none =>
      if !isJournal v.name then
        recoverAll { registry with strays := registry.strays ++ [(v.name, v.disk)] } visits
      else
        match recoverJob v.name v.fault v.io v.disk with
        | .error (error, disk) => ⟨.error error, registry.directory ++ (v.name, disk) :: rest⟩
        | .ok job =>
          let replaced := match registry.jobs.get job.jobId with
            | some old => [(old.journal.path, old.journal.file.disk)]
            | none => []
          recoverAll {
            jobs := registry.jobs.alter job.jobId fun _ => job
            counter := registry.counter + 1
            strays := registry.strays ++ replaced } visits

/-- Opens the registry over the files in the order they are listed, if the directory can be read. -/
def openRegistry (unreadable : Option String) (visits : List Visit) : Opening :=
  match unreadable with
  | some message => ⟨.error (.registryIo message), visits.map fun v => (v.name, v.disk)⟩
  | none => recoverAll .empty visits

end ArkForge.Daemon.Registry
