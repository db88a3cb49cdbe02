import ArkForge.Core.Profile
import ArkForge.Provider.Actions
import ArkForge.Provider.Device

/-! # Executing stored actions

One decoded action is executed in a session, which carries what earlier actions have established: the
observed partition table, the measured read domain and the staged images. The port and the files of
the host are arbitrary; every call made of the port is kept with the state, in order. -/

namespace ArkForge.Provider.Execute

open Lib.Fallible Lib.Ordered Lib.Numerals
open Core.Cbor Core.Digest Core.Ids Core.Effect
open Core.Projection Core.Verification Core.Profile
open Artifact.Manifest
open Actions Device
open RockUsb (ceilDiv)

variable {ω : Type}

def ROCKUSB_SECTOR_BYTES : ℕ := 512

/-! ### Errors -/

/-- What was wrong with a staged image, told apart as the messages of the source are. -/
inductive StagingFault where
  | unreadable (path detail : String)
  | size (path : String) (observed staged : ℕ)
  | digest (path : String) (observed staged : Sha256Digest)
  | changedWhileHashed (path : String)
  | workerTerminated (member : String)

/-- Why external I/O is not known to have had its effect. -/
inductive IoFault where
  | port (fault : PortFault)
  | payload (bytes : ℕ) (digest : Sha256Digest) (sizeBytes : ℕ) (sha256 : Sha256Digest)

inductive ExecutionError where
  | requiresAuthority (controlAction : String)
  | actionUndecodable (reason : ActionUndecodable)
  | portRefused (operation : String) (fault : PortFault)
  | externalIo (operation : String) (fault : IoFault)
  | layoutMismatch (expected observed : Sha256Digest)
  | partitionTableUnreadable (head : String)
  | deviceDeclaresUnknownPartitions (names : List String)
  | tableNotObservedYet
  | readDomainNotCharacterized
  | noTableAtLba1
  | targetNotAllowed (partition : String)
  | partitionNotOnDevice (partition : String)
  | targetOffsetDisagrees (partition : String) (profile plan : UInt64)
  | imageNotStaged (member : String)
  | imageOverrunsPartition (partition : String) (imageSectors partitionSectors : ℕ)
  | stagingChanged (fault : StagingFault)
  | verificationRangeMissing
  | readFailed (beginSector sectors : ℕ) (output : String)
  | scratchUnusable (path detail : String)

/-- How a computation stops: with an error that its caller sees, or with a panic. -/
inductive Halt (ε : Type) where
  | error (e : ε)
  | panic

def Halt.map {ε δ : Type} (f : ε → δ) : Halt ε → Halt δ
  | error e => error (f e)
  | panic => panic

def portError (operation : String) : RockUsbPortFailure → ExecutionError
  | .beforeIo fault => .portRefused operation fault
  | .afterIo fault => .externalIo operation (.port fault)

/-! ### Sessions -/

/-- What the read face of the medium turned out to be. -/
inductive MeasuredReadDomain where
  | full
  | windowed (detail : String)
  deriving DecidableEq

def MeasuredReadDomain.summary : MeasuredReadDomain → String
  | full => "full"
  | windowed _ => "windowed"

/-- A worker that validates an image: what joining it will give. -/
inductive Worker where
  | panicked
  | finished (result : Except ExecutionError ValidatedImage)

/-- What earlier actions have established for later ones. -/
structure ExecutionSession where
  observedTable : Option PartitionTableFact
  readDomain : Option MeasuredReadDomain
  demonstratedReadable : List ℕ
  staged : OrdMap String StagedImage
  validating : OrdMap String Worker

namespace ExecutionSession

def new (staged : OrdMap String StagedImage) : ExecutionSession where
  observedTable := none
  readDomain := none
  demonstratedReadable := []
  staged := staged
  validating := .empty

def noteReadableSector (s : ExecutionSession) (sector : ℕ) : ExecutionSession :=
  if sector ∈ s.demonstratedReadable then s
  else { s with demonstratedReadable := s.demonstratedReadable ++ [sector] }

/-- Records the measured read domain; the far sector was read if it is full. -/
def measure (s : ExecutionSession) (far : ℕ) (domain : MeasuredReadDomain) : ExecutionSession :=
  { (if domain = .full then s.noteReadableSector far else s) with readDomain := some domain }

def stage (s : ExecutionSession) (member : String) (image : StagedImage) : ExecutionSession :=
  { s with staged := s.staged.alter member fun _ => image }

end ExecutionSession

structure ExecutionHost (ω : Type) where
  createDirAll : String → Exec ω String Unit
  openFile : String → Exec ω String OpenFile
  /-- Whether the worker for the path will end in a panic. -/
  workerPanics : String → ω → Bool
  /-- Milliseconds on a clock. -/
  now : ω → ℕ

/-- A call of the port. A read is kept with what it returned. -/
inductive PortCall where
  | discover
  | readPartitionTable (answer : Option PartitionTableFact)
  | readSectors (beginSector sectors : ℕ) (answer : Option (List UInt8))
  | writePartition (partition : String) (beginSector : ℕ) (image : ValidatedImage)
  | resetDevice

/-- The world, the session of the job and the calls made of the port in it. -/
structure Execution (ω : Type) where
  world : ω
  session : ExecutionSession
  calls : List PortCall

/-- What an execution does, with the errors it returns. -/
abbrev Executes (ω α : Type) : Type := Exec (Execution ω) (Halt ExecutionError) α

def refuse {α : Type} (e : ExecutionError) : Executes ω α := Exec.fail (.error e)

/-- A result that is known, or a refusal. -/
def require {α : Type} (value : Option α) (e : ExecutionError) : Executes ω α :=
  Exec.lift (match value with
    | some a => .ok a
    | none => .error (.error e))

def getSession : Executes ω ExecutionSession := fun s => (.ok s.session, s)

def modifySession (f : ExecutionSession → ExecutionSession) : Executes ω Unit :=
  Exec.modifyState fun s => { s with session := f s.session }

/-- Something the host does. -/
def onHost {ε α : Type} (e : ε → ExecutionError) (x : Exec ω ε α) : Executes ω α :=
  (x.within Execution.world fun s world => { s with world }).mapError fun d => .error (e d)

def callPort {α : Type} (operation : String) (call : Except RockUsbPortFailure α → PortCall)
    (x : Exec ω RockUsbPortFailure α) : Executes ω α := fun s =>
  ((x s.world).1.mapError fun e => .error (portError operation e),
    { s with world := (x s.world).2, calls := s.calls ++ [call (x s.world).1] })

/-! ### Staged images -/

/-- Opens and hashes the staged image, and keeps the open file for the write. -/
def openAndRevalidate (host : ExecutionHost ω) (image : StagedImage) :
    Exec ω ExecutionError ValidatedImage := do
  let started ← Exec.getState
  let unreadable := fun detail => ExecutionError.stagingChanged (.unreadable image.path detail)
  let file ← (host.openFile image.path).mapError unreadable
  let before ← Exec.lift (file.before.mapError unreadable)
  if before.sizeBytes ≠ image.sizeBytes then
    Exec.fail (.stagingChanged (.size image.path before.sizeBytes.toNat image.sizeBytes.toNat))
  else do
    let hashed ← Exec.lift (file.hashed.mapError unreadable)
    if hashed.length ≠ image.sizeBytes.toNat then
      Exec.fail (.stagingChanged (.size image.path hashed.length image.sizeBytes.toNat))
    else if sha256 hashed ≠ image.sha256 then
      Exec.fail (.stagingChanged (.digest image.path (sha256 hashed) image.sha256))
    else do
      let after ← Exec.lift (file.after.mapError unreadable)
      if after ≠ before then Exec.fail (.stagingChanged (.changedWhileHashed image.path))
      else do
        let ended ← Exec.getState
        return {
          staged := image, file, fingerprint := after
          validationDurationMs := host.now ended - host.now started
          validationBackend := file.hashBackend }

def spawn (host : ExecutionHost ω) (image : StagedImage) (world : ω) : Worker × ω :=
  if host.workerPanics image.path world then (.panicked, world)
  else (.finished (openAndRevalidate host image world).1, (openAndRevalidate host image world).2)

/-- Starts a worker for every staged image that has none. -/
def spawnAll (host : ExecutionHost ω) : List (String × StagedImage) → OrdMap String Worker → ω →
    OrdMap String Worker × ω
  | [], validating, world => (validating, world)
  | (member, image) :: rest, validating, world =>
    if (validating.get member).isSome then spawnAll host rest validating world
    else
      spawnAll host rest (validating.alter member fun _ => (spawn host image world).1)
        (spawn host image world).2

def beginParallelStagedValidation (host : ExecutionHost ω) (session : ExecutionSession) (world : ω) :
    ExecutionSession × ω :=
  let (validating, world) := spawnAll host session.staged.entries session.validating world
  ({ session with validating }, world)

/-- What a worker has to say about the image. -/
def Worker.join (member : String) : Worker → Executes ω ValidatedImage
  | panicked => refuse (.stagingChanged (.workerTerminated member))
  | finished (.error e) => refuse e
  | finished (.ok image) => pure image

def joinOrOpen (host : ExecutionHost ω) (member : String) (session : ExecutionSession) :
    Executes ω (ValidatedImage × Bool) :=
  match session.validating.get member with
  | some worker => do
    modifySession fun s => { s with validating := s.validating.erase member }
    let image ← worker.join member
    return (image, true)
  | none => do
    let staged ← require (session.staged.get member) (.imageNotStaged member)
    let image ← onHost id (openAndRevalidate host staged)
    return (image, false)

/-- The validated image, how long it was waited for, and whether a worker had validated it. -/
def takeValidatedImage (host : ExecutionHost ω) (member : String) :
    Executes ω (ValidatedImage × ℕ × Bool) := do
  let waited ← Exec.getState
  let (image, parallel) ← joinOrOpen host member waited.session
  let ended ← Exec.getState
  return (image, host.now ended.world - host.now waited.world, parallel)

/-! ### Layouts -/

/-- The layout a profile declares, as it is digested. -/
def layoutCbor (profile : DeviceProfile) : CborValue :=
  .array (profile.writeOrdered.map fun target => .textMap [
    ("partition", .text target.partition.value),
    ("offsetSectors", .unsigned target.offsetSectors)])

def profileLayoutDigest (profile : DeviceProfile) : Except CborError Sha256Digest :=
  digestCanonical .deviceProfile (layoutCbor profile)

def layoutDigestOf (table : PartitionTableFact) : Sha256Digest :=
  sha256 (table.entries.flatMap fun e =>
    utf8 e.name ++ utf8 "@" ++ utf8 (toString e.offsetSectors.toNat) ++ utf8 "\n")

/-- What the table does not agree with about one target. -/
def targetComplaint (observed : PartitionTableFact) (target : AllowedTarget) :
    Option ExecutionError :=
  match observed.entry target.partition.value with
  | none => some (.partitionNotOnDevice target.partition.value)
  | some entry =>
    if entry.offsetSectors ≠ target.offsetSectors then
      some (.targetOffsetDisagrees target.partition.value target.offsetSectors entry.offsetSectors)
    else none

def knows (profile : DeviceProfile) (name : String) : Bool :=
  (profile.allowedTargets.any fun target => decide (target.partition.value = name)) ||
    profile.protectedTargets.any fun target => decide (target.value = name)

def checkConformance (observed : PartitionTableFact) (profile : DeviceProfile) :
    Except ExecutionError Unit :=
  match profile.allowedTargets.findSome? (targetComplaint observed) with
  | some e => .error e
  | none =>
    let unknown := (observed.entries.map (·.name)).filter fun name => !knows profile name
    if unknown ≠ [] then .error (.deviceDeclaresUnknownPartitions unknown) else .ok ()

/-! ### Reading back -/

/-- The single byte a buffer consists of, if it consists of one. -/
def uniformByte : List UInt8 → Option UInt8
  | [] => none
  | first :: rest => if rest.all (· = first) then some first else none

/-- The byte is the declared filler, or none was declared. -/
def isFiller (filler : Option UInt8) (byte : UInt8) : Bool :=
  (filler.map fun declared => decide (declared = byte)).getD true

def byteText (byte : UInt8) : String := "0x" ++ (encodeHex [byte]).toUpper

/-- Uniform filler is classified before any hash is compared. -/
def classifyReadback (read : List UInt8) (range : ByteRange) (expected : Sha256Digest)
    (maxStrength : VerificationStrength) (filler : Option UInt8) (domain : MeasuredReadDomain) :
    VerificationOutcome :=
  match (uniformByte read).filter (isFiller filler), domain with
  | some byte, .windowed detail =>
    .typedSkip range .outsideReadDomain ("read " ++ byteText byte ++
      " throughout; the read face is windowed (" ++ detail ++
      "), so filler here carries no information about the medium")
  -- whether the start was seen to be readable makes no difference to the verdict
  | some _, .full => .failed range .erasedMediumFiller
  | none, _ =>
    if read.length ≠ range.length.toNat then
      .typedSkip range .outsideReadDomain
        ("the read face returned " ++ toString read.length ++ " of " ++
          toString range.length.toNat ++ " declared bytes")
    else if sha256 read = expected then .verified maxStrength range
    else .failed range .contentMismatch

def outcomeName : VerificationOutcome → String
  | .verified _ _ => "verified"
  | .typedSkip _ _ _ => "typedSkip"
  | .failed _ _ => "failed"

/-! ### Actions -/

structure ActionOutcome where
  actionId : ActionId
  stepId : StepId
  disposition : ActionDisposition
  facts : List (String × String)
  evidenceDigest : Sha256Digest
  verification : Option VerificationOutcome

def outcome (record : PrivateActionRecord) (disposition : ActionDisposition)
    (facts : List (String × String)) (evidenceDigest : Sha256Digest)
    (verification : Option VerificationOutcome) : ActionOutcome where
  actionId := record.actionId
  stepId := record.stepId
  disposition := disposition
  facts := facts
  evidenceDigest := evidenceDigest
  verification := verification

section Executor

variable (host : ExecutionHost ω) (port : RockUsbPort ω) (scratch : String)

def readSectors (beginSector sectors : ℕ) (label : String) : Executes ω (List UInt8) := do
  let operationScratch := scratch ++ "/read-" ++ label
  onHost (.scratchUnusable operationScratch) (host.createDirAll operationScratch)
  let receipt ← callPort "readSectors"
    (fun r => .readSectors beginSector sectors (r.toOption.map (·.value)))
    (port.readSectors beginSector sectors operationScratch)
  return receipt.value

def probeLoader (record : PrivateActionRecord) : Executes ω ActionOutcome := do
  let receipt ← callPort "discoverDevices" (fun _ => .discover) port.discover
  let summary := "; ".intercalate (receipt.value.map (·.summary))
  return outcome record .semanticSuccess [("rockusbDevices", summary)] receipt.evidenceDigest none

/-- The plan has to agree with the profile, and the device with the profile. -/
def validatePartitionTable (record : PrivateActionRecord) (profile : DeviceProfile)
    (expectedLayoutDigest : Sha256Digest) : Executes ω ActionOutcome := do
  let profileDigest ← Exec.lift ((profileLayoutDigest profile).mapError fun _ => .panic)
  if profileDigest ≠ expectedLayoutDigest then
    refuse (.layoutMismatch expectedLayoutDigest profileDigest)
  else do
    let receipt ← callPort "readPartitionTable"
      (fun r => .readPartitionTable (r.toOption.map (·.value))) port.readPartitionTable
    Exec.lift ((checkConformance receipt.value profile).mapError .error)
    modifySession fun s => { s with observedTable := some receipt.value }
    return outcome record .semanticSuccess [
      ("observedLayoutDigest", (layoutDigestOf receipt.value).toHex),
      ("planLayoutDigest", profileDigest.toHex)] receipt.evidenceDigest none

/-- The last sector of an entry; the first one where it has no size. -/
def lastSector (e : PartitionEntryFact) : ℕ :=
  match e.sizeSectors with
  | some size => e.offsetSectors.toNat + (size.toNat - 1)
  | none => e.offsetSectors.toNat

/-- The furthest sector that the table names. The sum is not checked. -/
def farSector (table : PartitionTableFact) : Except (Halt ExecutionError) ℕ :=
  if table.entries.any fun e => decide (2 ^ 64 ≤ lastSector e) then .error .panic
  else
    match (table.entries.map lastSector).max? with
    | some sector => .ok sector
    | none => .error (.error .tableNotObservedYet)

/-- The read domain that a read of the far sector shows. -/
def farDomain (far : ℕ) (bytes : List UInt8) : MeasuredReadDomain :=
  match uniformByte bytes with
  | some byte => .windowed ("sector 1 read real data; sector " ++ toString far ++
      " read uniform " ++ byteText byte)
  | none => .full

def domainDetail (far : ℕ) : MeasuredReadDomain → String
  | .windowed detail => detail
  | .full => "sectors 1 and " ++ toString far ++ " both read real data"

/-- Probes the near and the far end of the medium. -/
def characterizeReadDomain (record : PrivateActionRecord) : Executes ω ActionOutcome := do
  let primary ← readSectors host port scratch 1 1 "primary-table"
  if (uniformByte primary).isSome then refuse .noTableAtLba1
  else do
    modifySession fun s => s.noteReadableSector 1
    let session ← getSession
    let table ← require session.observedTable .tableNotObservedYet
    let far ← Exec.lift (farSector table)
    let bytes ← readSectors host port scratch far 1 "far-end"
    let domain := farDomain far bytes
    let detail := domainDetail far domain
    modifySession fun s => s.measure far domain
    return outcome record .semanticSuccess [
      ("addressableMedium", domain.summary), ("readDomainDetail", detail)] (sha256 (utf8 detail)) none

def tail (count : ℕ) (text : String) : String :=
  String.ofList (text.toList.drop (text.toList.length - count))

def writeFacts (partition member : String) (beginSector : UInt64) (image : ValidatedImage)
    (waitMs : ℕ) (parallel : Bool) (receipt : RockUsbMutationReceipt) : List (String × String) :=
  [("partition", partition), ("member", member),
    ("imageSha256", image.staged.sha256.toHex),
    ("imageBytes", toString image.staged.sizeBytes.toNat),
    ("imageValidationDurationMs", toString image.validationDurationMs),
    ("imageValidationWaitMs", toString waitMs),
    ("imageValidationBackend", image.validationBackend),
    ("imageValidationMode", if parallel then "parallel-open-file" else "inline-open-file"),
    ("beginSector", toString beginSector.toNat),
    ("operationDurationMs", toString receipt.durationMs)] ++
  (match receipt.progress with
    | some progress => [
      ("writePayloadBytes", toString progress.payloadBytes),
      ("writeWireSectors", toString progress.wireSectors),
      ("writeChunks", toString progress.chunks),
      ("writeChunkSectors", toString progress.chunkSectors),
      ("writePayloadSha256", progress.payloadDigest.toHex)]
    | none => []) ++
  if receipt.semanticSuccess then [] else [("operationDetailTail", tail 400 receipt.detail)]

/-- The checks before a write: the profile allows the target, the observed table agrees with it, and
the staged image fits. Answers the entry of the table. -/
def checkWrite (session : ExecutionSession) (profile : DeviceProfile) (partition member : String)
    (beginSector : UInt64) : Except ExecutionError PartitionEntryFact :=
  match profile.allowedTargets.find? fun target => target.partition.value = partition with
  | none => .error (.targetNotAllowed partition)
  | some target =>
    if target.offsetSectors ≠ beginSector then
      .error (.targetOffsetDisagrees partition target.offsetSectors beginSector)
    else
      match session.observedTable with
      | none => .error .tableNotObservedYet
      | some table =>
        match table.entry partition with
        | none => .error (.partitionNotOnDevice partition)
        | some entry =>
          if entry.offsetSectors ≠ beginSector then
            .error (.targetOffsetDisagrees partition beginSector entry.offsetSectors)
          else
            match session.staged.get member with
            | none => .error (.imageNotStaged member)
            | some staged =>
              let imageSectors := ceilDiv staged.sizeBytes.toNat ROCKUSB_SECTOR_BYTES
              match entry.sizeSectors with
              | some size =>
                if size.toNat < imageSectors then
                  .error (.imageOverrunsPartition partition imageSectors size.toNat)
                else .ok entry
              | none => .ok entry

/-- The write is addressed from the observed entry. -/
def writePartition (record : PrivateActionRecord) (profile : DeviceProfile)
    (partition member : String) (beginSector : UInt64) : Executes ω ActionOutcome := do
  let session ← getSession
  let entry ← Exec.lift ((checkWrite session profile partition member beginSector).mapError .error)
  let (validated, waitMs, parallel) ← takeValidatedImage host member
  let receipt ← callPort "writePartition"
    (fun _ => .writePartition partition entry.offsetSectors.toNat validated)
    (port.writePartition partition entry.offsetSectors.toNat validated)
  let mismatch := receipt.progress.filter fun progress =>
    decide (progress.payloadBytes ≠ validated.staged.sizeBytes.toNat ∨
      progress.payloadDigest ≠ validated.staged.sha256)
  match mismatch with
  | some progress =>
    refuse (.externalIo "writePartition" (.payload progress.payloadBytes progress.payloadDigest
      validated.staged.sizeBytes.toNat validated.staged.sha256))
  | none =>
    -- an unconfirmed receipt does not say whether anything was written
    let disposition : ActionDisposition :=
      if receipt.semanticSuccess then .semanticSuccess else .outcomeUnknown
    return outcome record disposition
      (writeFacts partition member beginSector validated waitMs parallel receipt)
      receipt.evidenceDigest none

/-- The skip when the end of the range reads as filler through a windowed read face. -/
def endProbeSkip (record : PrivateActionRecord) (partition : String) (range : ByteRange)
    (domain : MeasuredReadDomain) (sector : ℕ) (read : List UInt8) : ActionOutcome :=
  let verification : VerificationOutcome := .typedSkip range .outsideReadDomain
    ("range endpoint sector " ++ toString sector ++ " returned the measured filler through a " ++
      "windowed read face; the full range was not transferred")
  outcome record .semanticSuccess [
    ("partition", partition), ("addressableMedium", domain.summary),
    ("outcome", outcomeName verification), ("readbackStrategy", "range-end-probe"),
    ("probedSector", toString sector), ("readbackBytes", toString read.length)]
    (sha256 read) (some verification)

/-- The whole range is read and classified. -/
def readWholeRange (record : PrivateActionRecord) (partition : String) (beginSector : UInt64)
    (maxStrength : VerificationStrength) (filler : Option UInt8) (range : ByteRange)
    (expected : Sha256Digest) (domain : MeasuredReadDomain) : Executes ω ActionOutcome := do
  let bytes ← readSectors host port scratch beginSector.toNat
    (ceilDiv range.length.toNat ROCKUSB_SECTOR_BYTES) partition
  let read := bytes.take range.length.toNat
  let verification := classifyReadback read range expected maxStrength filler domain
  return outcome record .semanticSuccess [
    ("partition", partition), ("addressableMedium", domain.summary),
    ("outcome", outcomeName verification), ("readbackStrategy", "full-range"),
    ("readbackBytes", toString read.length)] (sha256 read) (some verification)

/-- Reads a written range back and compares it with its digest. -/
def readbackPartition (record : PrivateActionRecord) (partition : String) (beginSector : UInt64)
    (maxStrength : VerificationStrength) (filler : Option UInt8) : Executes ω ActionOutcome := do
  let range ← require record.declaredRange .verificationRangeMissing
  let expected ← require record.contentDigest .verificationRangeMissing
  let session ← getSession
  let domain ← require session.readDomain .readDomainNotCharacterized
  match domain with
  | .full =>
    readWholeRange host port scratch record partition beginSector maxStrength filler range expected
      domain
  | .windowed _ =>
    -- the end of the range is probed before all of it is transferred
    let sectors := ceilDiv range.length.toNat ROCKUSB_SECTOR_BYTES
    let last := beginSector.toNat + (sectors - 1)
    if 2 ^ 64 ≤ last then refuse .verificationRangeMissing
    else do
      let end_ ← readSectors host port scratch last 1 (partition ++ "-range-end-probe")
      if ((uniformByte end_).map (isFiller filler)).getD false then
        return endProbeSkip record partition range domain last end_
      else
        readWholeRange host port scratch record partition beginSector maxStrength filler range
          expected domain

def resetDevice (record : PrivateActionRecord) : Executes ω ActionOutcome := do
  let receipt ← callPort "resetDevice" (fun _ => .resetDevice) port.resetDevice
  -- a reset that was not confirmed may still have happened
  let disposition : ActionDisposition :=
    if receipt.semanticSuccess then .semanticSuccess else .outcomeUnknown
  return outcome record disposition [("operation", "DEVICE_RESET")] receipt.evidenceDigest none

def executeAction (profile : DeviceProfile) (action : StoredAction) (record : PrivateActionRecord) :
    Executes ω ActionOutcome :=
  match action with
  | .managedControl controlAction _ => refuse (.requiresAuthority controlAction)
  | .probeLoader => probeLoader port record
  | .validatePartitionTable expectedLayoutDigest =>
    validatePartitionTable port record profile expectedLayoutDigest
  | .characterizeReadDomain => characterizeReadDomain host port scratch record
  | .writePartition partition member beginSector =>
    writePartition host port record profile partition member beginSector
  | .readbackPartition partition beginSector maxStrength filler =>
    readbackPartition host port scratch record partition beginSector maxStrength filler
  | .resetDevice => resetDevice port record

end Executor

end ArkForge.Provider.Execute
