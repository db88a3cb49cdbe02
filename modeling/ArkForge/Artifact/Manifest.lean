import ArkForge.Core.Envelope

/-! # Artifact manifests

The facts a parser produces about an artifact: its members, and the partition table it declares. A
table is accepted when its names are distinct, only its last entry is open-ended, no entry is empty,
and no two entries overlap whose ends are `u64` sectors. -/

namespace ArkForge.Artifact.Manifest

open Lib.Result Core.Cbor Core.Digest Core.Ids
open Core.Envelope Core.Projection

/-- How far a parser's output can be trusted to drive execution. -/
inductive ParserConfidence where
  | researchOnly
  | productionManifest
  deriving DecidableEq

def ParserConfidence.asStr : ParserConfidence → String
  | researchOnly => "researchOnly"
  | productionManifest => "productionManifest"

inductive MemberRole where
  | partitionTable
  | loader
  | imageCandidate
  | metadata
  | unclassified
  deriving DecidableEq

def MemberRole.asStr : MemberRole → String
  | partitionTable => "partitionTable"
  | loader => "loader"
  | imageCandidate => "imageCandidate"
  | metadata => "metadata"
  | unclassified => "unclassified"

structure ArchiveMemberFact where
  path : String
  sizeBytes : UInt64
  sha256 : Sha256Digest
  role : MemberRole
  deriving DecidableEq

def ArchiveMemberFact.toCbor (m : ArchiveMemberFact) : CborValue := .textMap [
  ("path", .text m.path),
  ("sizeBytes", .unsigned m.sizeBytes),
  ("sha256", m.sha256.toCbor),
  ("role", .text m.role.asStr)]

inductive PartitionAttribute where
  | bootable
  | grow
  deriving DecidableEq

def PartitionAttribute.asStr : PartitionAttribute → String
  | bootable => "bootable"
  | grow => "grow"

inductive GrammarBranch where
  | fixed
  | fixedBootable
  | remainderGrow
  deriving DecidableEq

def GrammarBranch.asStr : GrammarBranch → String
  | fixed => "fixed"
  | fixedBootable => "fixedBootable"
  | remainderGrow => "remainderGrow"

/-- One partition as a table declares it. A remainder partition has no size. -/
structure PartitionEntryFact where
  index : UInt32
  name : String
  offsetSectors : UInt64
  sizeSectors : Option UInt64
  partitionAttribute : Option PartitionAttribute
  grammarBranch : GrammarBranch
  deriving DecidableEq

namespace PartitionEntryFact

/-- The sector behind the last one, when there is a size and the sum is a `u64`. -/
def endSectorExclusive (e : PartitionEntryFact) : Option ℕ :=
  e.sizeSectors.bind fun size =>
    if e.offsetSectors.toNat + size.toNat < 2 ^ 64 then some (e.offsetSectors.toNat + size.toNat)
    else none

def toCbor (e : PartitionEntryFact) : CborValue := .textMap [
  ("index", .unsigned e.index.toUInt64),
  ("name", .text e.name),
  ("offsetSectors", .unsigned e.offsetSectors),
  ("sizeSectors", orNull .unsigned e.sizeSectors),
  ("attribute", orNull (fun a : PartitionAttribute => .text a.asStr) e.partitionAttribute),
  ("grammarBranch", .text e.grammarBranch.asStr)]

end PartitionEntryFact

inductive ManifestError where
  | duplicateMember (path : String)
  | duplicatePartitionName (name : String)
  | overlappingPartitions (first second : String)
  | remainderNotLast (name : String)
  | zeroLengthPartition (name : String)
  | productionManifestWithUnknowns (ids : List String)
  deriving DecidableEq

structure PartitionTableFact where
  device : String
  logicalBlockSize : UInt32
  entries : List PartitionEntryFact
  deriving DecidableEq

/-- Only the last entry may be open-ended, and none may be empty. -/
def checkSizes : List PartitionEntryFact → Except ManifestError Unit
  | [] => .ok ()
  | entry :: rest =>
    if entry.sizeSectors = none ∧ rest ≠ [] then .error (.remainderNotLast entry.name)
    else if entry.sizeSectors = some 0 then .error (.zeroLengthPartition entry.name)
    else checkSizes rest

/-- The entry, against those behind it. -/
def checkOverlap (left : PartitionEntryFact) (leftEnd : ℕ) :
    List PartitionEntryFact → Except ManifestError Unit
  | [] => .ok ()
  | right :: rest =>
    if left.offsetSectors.toNat < right.endSectorExclusive.getD (2 ^ 64 - 1) ∧
        right.offsetSectors.toNat < leftEnd then
      .error (.overlappingPartitions left.name right.name)
    else checkOverlap left leftEnd rest

/-- Every entry whose end is known, against those behind it. -/
def checkOverlaps : List PartitionEntryFact → Except ManifestError Unit
  | [] => .ok ()
  | left :: rest => do
    match left.endSectorExclusive with
    | none => pure ()
    | some leftEnd => checkOverlap left leftEnd rest
    checkOverlaps rest

namespace PartitionTableFact

/-- Refuses overlapping or out-of-order extents. -/
def validate (table : PartitionTableFact) : Except ManifestError Unit :=
  match firstRepeat [] (table.entries.map (·.name)) with
  | some name => .error (.duplicatePartitionName name)
  | none => do
    checkSizes table.entries
    checkOverlaps table.entries

def entry (table : PartitionTableFact) (name : String) : Option PartitionEntryFact :=
  table.entries.find? fun e => e.name = name

def toCbor (table : PartitionTableFact) : CborValue := .textMap [
  ("device", .text table.device),
  ("logicalBlockSize", .unsigned table.logicalBlockSize.toUInt64),
  ("entries", .array (table.entries.map (·.toCbor)))]

end PartitionTableFact

structure ExecutionUnknown where
  id : OpaqueId
  summary : String
  deriving DecidableEq

def ExecutionUnknown.toCbor (u : ExecutionUnknown) : CborValue := .textMap [
  ("id", u.id.toCbor),
  ("summary", .text u.summary)]

structure ArtifactManifest where
  format : ArtifactFormat
  contentDigest : Sha256Digest
  sizeBytes : UInt64
  members : List ArchiveMemberFact
  partitionTable : Option PartitionTableFact
  buildFacts : List (OpaqueId × String)
  unclassifiedMembers : List String
  executionRelevantUnknowns : List ExecutionUnknown
  confidence : ParserConfidence

namespace ArtifactManifest

def member (artifact : ArtifactManifest) (path : String) : Option ArchiveMemberFact :=
  artifact.members.find? fun m => m.path = path

def toCbor (artifact : ArtifactManifest) : CborValue := .textMap [
  ("format", artifact.format.toCbor),
  ("contentDigest", artifact.contentDigest.toCbor),
  ("sizeBytes", .unsigned artifact.sizeBytes),
  ("members", .array (artifact.members.map (·.toCbor))),
  ("partitionTable", orNull PartitionTableFact.toCbor artifact.partitionTable),
  ("buildFacts", .map (artifact.buildFacts.map fun f => (f.1.toCbor, .text f.2))),
  ("unclassifiedMembers", .array (artifact.unclassifiedMembers.map .text)),
  ("executionRelevantUnknowns", .array (artifact.executionRelevantUnknowns.map (·.toCbor))),
  ("confidence", .text artifact.confidence.asStr)]

def digest (artifact : ArtifactManifest) : Except CborError Sha256Digest :=
  digestCanonical .artifactManifest artifact.toCbor

/-- A manifest may claim to be a production one only with no open question. -/
def validate (artifact : ArtifactManifest) : Except ManifestError Unit :=
  if artifact.confidence = .productionManifest ∧ artifact.executionRelevantUnknowns ≠ [] then
    .error (.productionManifestWithUnknowns (artifact.executionRelevantUnknowns.map (·.id.value)))
  else do
    match artifact.partitionTable with
    | none => pure ()
    | some table => table.validate
    match firstRepeat [] (artifact.members.map (·.path)) with
    | some path => .error (.duplicateMember path)
    | none => .ok ()

end ArtifactManifest

/-! ### The pinned ramdisk

The one ramdisk that may be restored on its own: its length and its digest are fixed. -/

def MAX_IMAGE_BYTES : ℕ := 4 * 1024 * 1024

def RESTORATION_SHA256 : List UInt8 := [
  0xbd, 0xd1, 0xf4, 0xea, 0xcb, 0xe5, 0x45, 0xf5, 0xa5, 0x53, 0xb5, 0x29, 0x98, 0x0b, 0xc4, 0x87,
  0x72, 0x3d, 0x37, 0x55, 0x41, 0x48, 0x05, 0x8d, 0xd5, 0x51, 0xc2, 0x41, 0xab, 0xf8, 0x6d, 0xe4]

theorem length_restoration : RESTORATION_SHA256.length = 32 := rfl

def restorationDigest : Sha256Digest := ⟨RESTORATION_SHA256, length_restoration⟩

end ArkForge.Artifact.Manifest
