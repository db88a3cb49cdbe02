import ArkForge.Provider.Execute

/-! # Staging the images of a job

The writes of a plan say which members of the artifact they need, how long these are and what they
hash to. The members are extracted once into a directory whose name depends on all of that; a
directory that exists already is taken as it is, once the names, the kinds and the lengths of its
files agree. What is in a file is not looked at here. -/

namespace ArkForge.Daemon.Staging

open Lib.Fallible Lib.Ordered Lib.Bytes
open Core.Cbor Core.Digest Core.Projection
open Core.Verification Core.Profile
open Artifact.Manifest (MAX_IMAGE_BYTES restorationDigest)
open Provider.Actions Provider.Device Provider.Execute

variable {ω : Type}

/-! ### Failures -/

/-- Why a dispatch failed, told apart as the messages of the source are. -/
inductive DispatchFault where
  | undecodable (reason : ActionUndecodable)
  | noDeclaredRange (member : String)
  | noDeclaredDigest (member : String)
  | contradictoryDeclarations (member : String)
  | inputsDisagree (plan profile : List String)
  | cacheIo (detail : String)
  | artifact (detail : String)
  | producedInputs (produced expected : ℕ)
  | missingInput (name : String)
  | stagedInput (name : String) (staged : UInt64 × Sha256Digest) (required : UInt64 × Sha256Digest)
  | notADirectory (directory : String)
  | nonUtf8Name (directory : String)
  | cacheEntriesDisagree (observed wanted : List String)
  | notOneComponent (name : String)
  | notARegularFile (name : String) (sizeBytes : ℕ)
  | remainsWritable (path : String)
  | byteCountOverflows
  | markedStaged (jobId : String)
  | scratch (detail : String)
  | noPrivateAction
  | execution (error : ExecutionError)

/-- Why a dispatch did not produce a receipt, and what that implies. -/
inductive DispatchFailure where
  /-- Refused before anything could reach the device. -/
  | beforeAnyEffect (fault : DispatchFault)
  /-- External I/O began and did not report its own success. -/
  | afterExternalIo (fault : DispatchFault)

def DispatchFailure.disposition : DispatchFailure → ActionDisposition
  | beforeAnyEffect _ => .confirmedNoEffect
  | afterExternalIo _ => .outcomeUnknown

/-! ### What a plan needs -/

structure ExpectedImage where
  sizeBytes : UInt64
  sha256 : Sha256Digest
  deriving DecidableEq

def isPinnedRamdisk (profile : DeviceProfile) (record : PrivateActionRecord)
    (partition member : String) (beginSector : UInt64) (image : ExpectedImage) : Bool :=
  decide (partition = "ramdisk") && decide (member = "ramdisk.img") &&
    decide (image.sizeBytes.toNat = MAX_IMAGE_BYTES) && decide (image.sha256 = restorationDigest) &&
    decide (some (beginSector.toNat * 512) = record.declaredRange.map (·.start.toNat)) &&
    (match record.declaredTarget with
      | some (.partition target) => decide (target.value = "ramdisk")
      | _ => false) &&
    decide (record.effectClass = .destructive) &&
    profile.allowedTargets.any fun target =>
      decide (target.partition.value = "ramdisk") &&
        decide (target.sourceMember = some "ramdisk.img") &&
        decide (target.offsetSectors = beginSector)

structure Gathered where
  expected : OrdMap String ExpectedImage
  writeCount : ℕ
  pinnedRamdiskOnly : Bool

/-- What one more write needs. -/
def gatherWrite (profile : DeviceProfile) (record : PrivateActionRecord) (partition member : String)
    (beginSector : UInt64) (g : Gathered) : Except DispatchFault Gathered :=
  match record.declaredRange, record.contentDigest with
  | none, _ => .error (.noDeclaredRange member)
  | some _, none => .error (.noDeclaredDigest member)
  | some range, some digest =>
    let image : ExpectedImage := { sizeBytes := range.length, sha256 := digest }
    if ((g.expected.get member).map fun prior => decide (prior ≠ image)).getD false then
      .error (.contradictoryDeclarations member)
    else .ok {
      expected := g.expected.alter member fun _ => image
      writeCount := g.writeCount + 1
      pinnedRamdiskOnly := g.pinnedRamdiskOnly &&
        isPinnedRamdisk profile record partition member beginSector image }

def gather (profile : DeviceProfile) : List PrivateActionRecord → Gathered →
    Except DispatchFault Gathered
  | [], g => .ok g
  | record :: rest, g =>
    match StoredAction.decode record with
    | .error reason => .error (.undecodable reason)
    | .ok (.writePartition partition member beginSector) =>
      match gatherWrite profile record partition member beginSector g with
      | .error fault => .error fault
      | .ok g => gather profile rest g
    | .ok _ => gather profile rest g

/-- The two lists have the same members. -/
def SameSet (a b : List String) : Prop := (∀ x ∈ a, x ∈ b) ∧ ∀ x ∈ b, x ∈ a

instance (a b : List String) : Decidable (SameSet a b) := inferInstanceAs (Decidable (_ ∧ _))

/-- The images the writes of the plan need. They are those of the profile, or the plan is nothing but
the pinned restoration of the ramdisk. -/
def expectedImages (planActions : List PrivateActionRecord) (profile : DeviceProfile) :
    Except DispatchFailure (OrdMap String ExpectedImage) :=
  match gather profile planActions {
      expected := .empty, writeCount := 0
      pinnedRamdiskOnly := decide (profile.id.value = "org.openharmony.dayu200") } with
  | .error fault => .error (.beforeAnyEffect fault)
  | .ok g =>
    let profileMembers := profile.allowedTargets.filterMap (·.sourceMember)
    let planMembers := g.expected.entries.map Prod.fst
    if planMembers = [] ∨ (¬ SameSet planMembers profileMembers ∧
        ¬ (g.pinnedRamdiskOnly = true ∧ g.writeCount = 1)) then
      .error (.beforeAnyEffect (.inputsDisagree planMembers profileMembers))
    else .ok g.expected

/-! ### The cache -/

structure FileMetadata where
  isFile : Bool
  sizeBytes : UInt64
  mode : ℕ
  deriving DecidableEq

/-- What the dispatcher asks of the host besides. -/
structure DispatchHost (ω : Type) extends ExecutionHost ω where
  pathExists : String → ω → Bool
  isDir : String → ω → Bool
  createDir : String → Exec ω String Unit
  setPermissions : String → ℕ → Exec ω String Unit
  rename : String → String → Exec ω String Unit
  removeDirAll : String → Exec ω String Unit
  /-- Makes a directory removable and removes it, as far as that goes. -/
  discard : String → ω → ω
  syncDirectory : String → Exec ω String Unit
  /-- The entries of a directory. An entry can be unreadable, or its name not be text. -/
  readDir : String → Exec ω String (List (Except String (Option String)))
  symlinkMetadata : String → Exec ω String FileMetadata
  /-- Opens the artifact in the store, inspects it, and extracts the members into the directory. -/
  stageMembers : String → Sha256Digest → List String → String →
    Exec ω String (OrdMap String StagedImage)
  /-- What makes the name of a temporary directory unique. -/
  nonce : ω → String

structure StagingUse where
  images : OrdMap String StagedImage
  bytes : ℕ
  source : String
  cacheHit : Bool

def cacheIo (detail : String) : DispatchFailure := .beforeAnyEffect (.cacheIo detail)

def stagingCacheKey (artifactDigest : Sha256Digest) (expected : OrdMap String ExpectedImage) :
    String :=
  (sha256 (utf8 "arkforge-staging-cache-v1" ++ [0] ++ utf8 artifactDigest.toHex ++ [0] ++
    expected.entries.flatMap fun (name, image) =>
      utf8 name ++ [0] ++ beBytes 8 image.sizeBytes.toNat ++ utf8 image.sha256.toHex ++ [0])).toHex

/-- The directory that holds the images of the key. -/
def cacheDirectory (cacheRoot : String) (artifactDigest : Sha256Digest)
    (expected : OrdMap String ExpectedImage) : String :=
  cacheRoot ++ "/" ++ stagingCacheKey artifactDigest expected

def isPlainComponent (name : String) : Bool :=
  decide (name ≠ "") && decide (name ≠ ".") && decide (name ≠ "..") && !name.toList.contains '/'

section Cache

variable (host : DispatchHost ω)

def createCacheDirectory (path : String) : Exec ω DispatchFailure Unit := do
  (host.createDirAll path).mapError cacheIo
  (host.setPermissions path 0o700).mapError cacheIo

def entryNames (directory : String) :
    List (Except String (Option String)) → Except DispatchFailure (List String)
  | [] => .ok []
  | .error detail :: _ => .error (cacheIo detail)
  | .ok none :: _ => .error (.beforeAnyEffect (.nonUtf8Name directory))
  | .ok (some name) :: rest => (entryNames directory rest).map (name :: ·)

/-- One file of the directory, which has to be a regular file of the length and read-only. -/
def loadImage (directory name : String) (required : ExpectedImage) :
    Exec ω DispatchFailure StagedImage :=
  if isPlainComponent name = false then Exec.fail (.beforeAnyEffect (.notOneComponent name))
  else do
    let path := directory ++ "/" ++ name
    let metadata ← (host.symlinkMetadata path).mapError cacheIo
    if metadata.isFile = false ∨ metadata.sizeBytes ≠ required.sizeBytes then
      Exec.fail (.beforeAnyEffect (.notARegularFile name required.sizeBytes.toNat))
    else if metadata.mode &&& 0o222 ≠ 0 then Exec.fail (.beforeAnyEffect (.remainsWritable path))
    else pure { member := name, path, sizeBytes := required.sizeBytes, sha256 := required.sha256 }

def loadImages (directory : String) : List (String × ExpectedImage) → OrdMap String StagedImage → ℕ →
    Exec ω DispatchFailure (OrdMap String StagedImage × ℕ)
  | [], images, bytes => pure (images, bytes)
  | (name, required) :: rest, images, bytes => do
    let image ← loadImage host directory name required
    if 2 ^ 64 ≤ bytes + required.sizeBytes.toNat then
      Exec.fail (.beforeAnyEffect .byteCountOverflows)
    else
      loadImages directory rest (images.alter name fun _ => image) (bytes + required.sizeBytes.toNat)

def loadStagingCache (directory : String) (expected : OrdMap String ExpectedImage) (cacheHit : Bool) :
    Exec ω DispatchFailure StagingUse := do
  let world ← Exec.getState
  if host.isDir directory world = false then
    Exec.fail (.beforeAnyEffect (.notADirectory directory))
  else do
    let entries ← (host.readDir directory).mapError cacheIo
    let observed ← Exec.lift (entryNames directory entries)
    let wanted := expected.entries.map Prod.fst
    if ¬ SameSet observed wanted then
      Exec.fail (.beforeAnyEffect (.cacheEntriesDisagree observed wanted))
    else do
      let (images, bytes) ← loadImages host directory expected.entries .empty 0
      return {
        images, bytes
        source := if cacheHit then "content-addressed-cache" else "artifact-extraction"
        cacheHit }

/-- Every input that is needed was produced as it is needed. -/
def adoptMembers (report : OrdMap String StagedImage) :
    List (String × ExpectedImage) → Exec ω DispatchFailure Unit
  | [] => pure ()
  | (name, required) :: rest =>
    match report.get name with
    | none => Exec.fail (.beforeAnyEffect (.missingInput name))
    | some staged =>
      if staged.sizeBytes ≠ required.sizeBytes ∨ staged.sha256 ≠ required.sha256 then
        Exec.fail (.beforeAnyEffect (.stagedInput name (staged.sizeBytes, staged.sha256)
          (required.sizeBytes, required.sha256)))
      else do
        (host.setPermissions staged.path 0o400).mapError cacheIo
        adoptMembers report rest

/-- Extracts the members into the temporary directory. -/
def buildCache (storeRoot : String) (artifactDigest : Sha256Digest)
    (expected : OrdMap String ExpectedImage) (temporary : String) : Exec ω DispatchFailure Unit := do
  let report ← (host.stageMembers storeRoot artifactDigest (expected.entries.map Prod.fst)
    temporary).mapError fun detail => .beforeAnyEffect (.artifact detail)
  if report.entries.length ≠ expected.entries.length then
    Exec.fail (.beforeAnyEffect
      (.producedInputs report.entries.length expected.entries.length))
  else do
    adoptMembers host report expected.entries
    (host.syncDirectory temporary).mapError cacheIo
    (host.setPermissions temporary 0o500).mapError cacheIo

/-- Gives the temporary directory its name. Another process may have been faster. -/
def publishCache (cacheRoot temporary directory : String) : Exec ω DispatchFailure Unit := do
  let renamed ← ((do
    (host.rename temporary directory)
    return none).handle fun detail => pure (some detail) : Exec ω DispatchFailure (Option String))
  match renamed with
  | none => (host.syncDirectory cacheRoot).mapError cacheIo
  | some detail => do
    let world ← Exec.getState
    Exec.modifyState (host.discard temporary)
    let after ← Exec.getState
    if host.pathExists directory world = true ∧ host.isDir directory after = true then pure ()
    else Exec.fail (cacheIo detail)

def materializeStagingCache (storeRoot cacheRoot : String) (artifactDigest : Sha256Digest)
    (expected : OrdMap String ExpectedImage) : Exec ω DispatchFailure StagingUse := do
  createCacheDirectory host cacheRoot
  let key := stagingCacheKey artifactDigest expected
  let directory := cacheDirectory cacheRoot artifactDigest expected
  let world ← Exec.getState
  if host.pathExists directory world = true then loadStagingCache host directory expected true
  else do
    let temporary := cacheRoot ++ "/." ++ key ++ "-" ++ host.nonce world ++ ".part"
    (host.createDir temporary).mapError cacheIo
    (host.setPermissions temporary 0o700).mapError cacheIo
    (buildCache host storeRoot artifactDigest expected temporary).handle fun failure => do
      Exec.modifyState (host.discard temporary)
      Exec.fail failure
    publishCache host cacheRoot temporary directory
    loadStagingCache host directory expected false

end Cache

end ArkForge.Daemon.Staging
