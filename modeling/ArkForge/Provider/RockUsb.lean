import ArkForge.Artifact.Manifest
import ArkForge.Lib.Fallible

/-! # The RockUSB protocol

The byte protocol spoken over a claimed pair of bulk pipes: a command block of 31 bytes, a data stage,
and a status of 13 bytes that repeats the tag of the command. What the pipes answer is not fixed: a
`BulkIo` is any behaviour of them over a world `ω`. -/

namespace ArkForge.Provider.RockUsb

open Lib.Bytes Lib.Fallible
open Artifact.Manifest

variable {ω : Type}

def LOGICAL_BLOCK_BYTES : ℕ := 512

/-- One command transfers 8 MiB. -/
def ROCKUSB_TRANSFER_CHUNK_SECTORS : ℕ := 16384

def CSW_BYTES : ℕ := 13

def CBW_SIGNATURE : List UInt8 := [0x55, 0x53, 0x42, 0x43]

def CSW_SIGNATURE : List UInt8 := [0x55, 0x53, 0x42, 0x53]

def TEST_UNIT_READY : UInt8 := 0x00

def READ_LBA : UInt8 := 0x14

def WRITE_LBA : UInt8 := 0x15

def READ_FLASH_INFO : UInt8 := 0x1a

def DEVICE_RESET : UInt8 := 0xff

def DEVICE_STRING : String := "rk29xxnand"

/-- What is wrong with a partition table, told apart as the messages of the source are. -/
inductive GptFault where
  | notAHeader
  | headerSize (size : ℕ)
  | headerCrc (observed expected : UInt32)
  | entryGeometry (lba count size : ℕ)
  | missingNumber (offset : ℕ)
  | entryCountOverflow
  | entryArrayTooLarge (bytes : ℕ)
  | arrayCrc (observed expected : UInt32)
  | entryRange (index first last : ℕ)
  | noName (index : ℕ)
  | nameNotUtf16 (index : ℕ)
  | emptyName (index : ℕ)
  | notAscending (index first previous : ℕ)
  | noEntries
  deriving DecidableEq

inductive ResponseFault where
  | flashInfoLength (actual : ℕ)
  | zeroSectors
  deriving DecidableEq

inductive RockUsbProtocolError where
  | transport (detail : String)
  | addressOutOfRange (beginSector sectors : ℕ)
  | transferTooLarge (sectors : ℕ)
  | emptyWrite
  | cswSignature (observed : List UInt8)
  | cswTag (expected observed : UInt32)
  | commandFailed (status : UInt8) (residue : UInt32)
  | malformedResponse (fault : ResponseFault)
  | malformedGpt (fault : GptFault)
  deriving DecidableEq

/-- The bulk pipes of a claimed interface: each transfer succeeds or fails, and the world goes on.
A successful `readExact` fills the buffer. -/
structure BulkIo (ω : Type) where
  writeAll : List UInt8 → Exec ω String Unit
  readSome : ℕ → Exec ω String (List UInt8)
  readExact : ℕ → Exec ω String (List UInt8)
  length_readExact : ∀ n s bytes s', readExact n s = (.ok bytes, s') → bytes.length = n

/-- The state of the protocol engine: the pipes it owns, and the tag of its next command. -/
structure RockUsbProtocol (ω : Type) where
  io : ω
  nextTag : UInt32

/-- Progress of a write. The payload does not count the padding of the last sector. -/
structure RockUsbTransferProgress where
  payloadBytes : ℕ
  wireSectors : ℕ
  chunks : ℕ

def ceilDiv (numerator denominator : ℕ) : ℕ :=
  numerator / denominator + if numerator % denominator = 0 then 0 else 1

/-! ### Commands -/

/-- The command block: signature, tag, transfer length, direction, unit, command length, and the
command itself with its address and sector count. -/
def commandBlock (tag : UInt32) (opcode : UInt8) (address : UInt32) (sectors : UInt16)
    (transferBytes : UInt32) (commandLength : UInt8) (directionIn : Bool) : List UInt8 :=
  CBW_SIGNATURE ++ leBytes 4 tag.toNat ++ leBytes 4 transferBytes.toNat ++
    [if directionIn then 0x80 else 0x00, 0, commandLength, opcode, 0] ++
    beBytes 4 address.toNat ++ [0] ++ beBytes 2 sectors.toNat ++ List.replicate 7 0

def validateCsw (bytes : List UInt8) (expectedTag : UInt32) : Except RockUsbProtocolError Unit :=
  let tag := UInt32.ofNat (leNat ((bytes.drop 4).take 4))
  if bytes.take 4 ≠ CSW_SIGNATURE then .error (.cswSignature (bytes.take 4))
  else if tag ≠ expectedTag then .error (.cswTag expectedTag tag)
  else if bytes.getD 12 0 ≠ 0 then
    .error (.commandFailed (bytes.getD 12 0) (UInt32.ofNat (leNat ((bytes.drop 8).take 4))))
  else .ok ()

def validateSectorRange (beginSector sectors : ℕ) : Except RockUsbProtocolError Unit :=
  if 2 ^ 64 ≤ beginSector + sectors then .error (.addressOutOfRange beginSector sectors)
  else if 2 ^ 32 - 1 < beginSector ∨ 2 ^ 32 < beginSector + sectors then
    .error (.addressOutOfRange beginSector sectors)
  else .ok ()

section Engine

variable (bulk : BulkIo ω)

/-- A transfer, from inside the engine. -/
def transfer {α : Type} (x : Exec ω String α) : Exec (RockUsbProtocol ω) RockUsbProtocolError α :=
  (x.within RockUsbProtocol.io fun p io => { p with io }).mapError .transport

/-- The tag of this command; the next one has the next tag. -/
def takeTag : Exec (RockUsbProtocol ω) RockUsbProtocolError UInt32 := do
  let protocol ← Exec.getState
  Exec.modifyState fun p => { p with nextTag := p.nextTag + 1 }
  return protocol.nextTag

/-- A transfer does to the engine what it does to the pipes. -/
theorem meets_transfer {α : Type} {x : Exec ω String α} {P : ω → Prop} {Q : α → ω → Prop}
    {R : ω → Prop} (h : Meets P x Q fun _ => R) :
    Meets (fun p => P p.io) (transfer x) (fun a p => Q a p.io) fun _ p => R p.io := by
  refine Meets.mapError (Meets.within fun p hp => ?_)
  exact h.pre (fun s hs => hs ▸ hp)

theorem meets_takeTag {P : ω → Prop} {R : RockUsbProtocolError → RockUsbProtocol ω → Prop} :
    Meets (fun p => P p.io) takeTag (fun _ p => P p.io) R := fun _ hp => hp

def executeIn (opcode : UInt8) (address : UInt32) (sectors : UInt16) (transferBytes : UInt32)
    (commandLength : UInt8) : Exec (RockUsbProtocol ω) RockUsbProtocolError (List UInt8) := do
  let tag ← takeTag
  transfer (bulk.writeAll (commandBlock tag opcode address sectors transferBytes commandLength true))
  let data ← if transferBytes = 0 then pure [] else transfer (bulk.readExact transferBytes.toNat)
  let csw ← transfer (bulk.readExact CSW_BYTES)
  Exec.lift (validateCsw csw tag)
  return data

def executeOut (opcode : UInt8) (address : UInt32) (sectors : UInt16) (data : List UInt8)
    (commandLength : UInt8) : Exec (RockUsbProtocol ω) RockUsbProtocolError Unit :=
  if 2 ^ 32 ≤ data.length then Exec.fail (.transferTooLarge sectors.toNat)
  else do
    let tag ← takeTag
    transfer (bulk.writeAll (commandBlock tag opcode address sectors (UInt32.ofNat data.length)
      commandLength false))
    if data = [] then pure () else transfer (bulk.writeAll data)
    let csw ← transfer (bulk.readExact CSW_BYTES)
    Exec.lift (validateCsw csw tag)

/-- Readiness is an answer of the loader, not an inference from its identity. -/
def testUnitReady : Exec (RockUsbProtocol ω) RockUsbProtocolError Unit := do
  let _ ← executeIn bulk TEST_UNIT_READY 0 0 0 6
  return ()

/-- The capacity, out of a data stage of 11 to 512 bytes. -/
def readCapacitySectors : Exec (RockUsbProtocol ω) RockUsbProtocolError ℕ := do
  let tag ← takeTag
  transfer (bulk.writeAll (commandBlock tag READ_FLASH_INFO 0 0 11 6 true))
  let bytes ← transfer (bulk.readSome LOGICAL_BLOCK_BYTES)
  if bytes.length < 11 ∨ LOGICAL_BLOCK_BYTES < bytes.length then
    Exec.fail (.malformedResponse (.flashInfoLength bytes.length))
  else do
    let csw ← transfer (bulk.readExact CSW_BYTES)
    Exec.lift (validateCsw csw tag)
    let sectors := leNat (bytes.take 4)
    if sectors = 0 then Exec.fail (.malformedResponse .zeroSectors) else pure sectors

def readChunks (position remaining : ℕ) :
    Exec (RockUsbProtocol ω) RockUsbProtocolError (List UInt8) :=
  if remaining = 0 then pure []
  else do
    let chunk := min remaining ROCKUSB_TRANSFER_CHUNK_SECTORS
    let bytes ← executeIn bulk READ_LBA (UInt32.ofNat position) (UInt16.ofNat chunk)
      (UInt32.ofNat (chunk * LOGICAL_BLOCK_BYTES)) 10
    let rest ← readChunks (position + chunk) (remaining - chunk)
    return bytes ++ rest
termination_by remaining
decreasing_by
  have : 0 < ROCKUSB_TRANSFER_CHUNK_SECTORS := by decide
  omega

def readLba (beginSector sectors : ℕ) :
    Exec (RockUsbProtocol ω) RockUsbProtocolError (List UInt8) := do
  Exec.lift (validateSectorRange beginSector sectors)
  if 2 ^ 64 ≤ sectors * LOGICAL_BLOCK_BYTES then Exec.fail (.transferTooLarge sectors)
  else readChunks bulk beginSector sectors

/-- The payload of one command, filled up with zeros to whole sectors. -/
def padded (payload : List UInt8) : List UInt8 :=
  payload ++ List.replicate
    (ceilDiv payload.length LOGICAL_BLOCK_BYTES * LOGICAL_BLOCK_BYTES - payload.length) 0

/-- Writes the bytes in chunks, and counts these. -/
def writeChunks (position : ℕ) (bytes : List UInt8) :
    Exec (RockUsbProtocol ω) RockUsbProtocolError ℕ :=
  if bytes = [] then pure 0
  else do
    let payload := bytes.take (ROCKUSB_TRANSFER_CHUNK_SECTORS * LOGICAL_BLOCK_BYTES)
    let chunkSectors := ceilDiv payload.length LOGICAL_BLOCK_BYTES
    executeOut bulk WRITE_LBA (UInt32.ofNat position) (UInt16.ofNat chunkSectors) (padded payload) 10
    let chunks ← writeChunks (position + chunkSectors)
      (bytes.drop (ROCKUSB_TRANSFER_CHUNK_SECTORS * LOGICAL_BLOCK_BYTES))
    return chunks + 1
termination_by bytes.length
decreasing_by
  have hpos : 0 < ROCKUSB_TRANSFER_CHUNK_SECTORS * LOGICAL_BLOCK_BYTES := by decide
  have hbytes : 0 < bytes.length := List.length_pos_iff.mpr ‹_›
  rw [List.length_drop]
  omega

/-- Writes the bytes at an exact sector. The last sector is filled up with zeros. -/
def writeLba (beginSector : ℕ) (bytes : List UInt8) :
    Exec (RockUsbProtocol ω) RockUsbProtocolError RockUsbTransferProgress :=
  if bytes = [] then Exec.fail .emptyWrite
  else do
    let sectors := ceilDiv bytes.length LOGICAL_BLOCK_BYTES
    Exec.lift (validateSectorRange beginSector sectors)
    let chunks ← writeChunks bulk beginSector bytes
    return { payloadBytes := bytes.length, wireSectors := sectors, chunks }

/-- Reboots the loader once it has confirmed the command. -/
def resetDevice : Exec (RockUsbProtocol ω) RockUsbProtocolError Unit :=
  executeOut bulk DEVICE_RESET 0 0 [] 6

end Engine

/-! ### The partition table of the device -/

/-- One bit of CRC-32. -/
def crcShift (crc : UInt32) : UInt32 :=
  (crc >>> 1) ^^^ (0xedb88320 &&& (0 - (crc &&& 1)))

/-- IEEE CRC-32, as the headers and entry arrays of a GPT carry it. -/
def crc32 (bytes : List UInt8) : UInt32 :=
  ~~~ bytes.foldl (fun crc byte => crcShift^[8] (crc ^^^ byte.toUInt32)) 0xffffffff

/-- A little-endian number of so many bytes at the offset. -/
def leAt (width : ℕ) (bytes : List UInt8) (offset : ℕ) : Except GptFault ℕ :=
  if offset + width ≤ bytes.length then .ok (leNat ((bytes.drop offset).take width))
  else .error (.missingNumber offset)

structure GptHeader where
  entryLba : ℕ
  entryCount : ℕ
  entrySize : ℕ
  entryCrc32 : UInt32
  deriving DecidableEq

def GptHeader.parse (block : List UInt8) : Except GptFault GptHeader :=
  if block.length ≠ LOGICAL_BLOCK_BYTES ∨
      block.take 8 ≠ [0x45, 0x46, 0x49, 0x20, 0x50, 0x41, 0x52, 0x54] then .error .notAHeader
  else do
    let headerSize ← leAt 4 block 12
    if headerSize < 92 ∨ LOGICAL_BLOCK_BYTES < headerSize then .error (.headerSize headerSize)
    else do
      let expectedCrc ← leAt 4 block 16
      let covered := block.take 16 ++ [0, 0, 0, 0] ++ (block.take headerSize).drop 20
      if crc32 covered ≠ UInt32.ofNat expectedCrc then
        .error (.headerCrc (crc32 covered) (UInt32.ofNat expectedCrc))
      else do
        let entryLba ← leAt 8 block 72
        let entryCount ← leAt 4 block 80
        let entrySize ← leAt 4 block 84
        let entryCrc32 ← leAt 4 block 88
        if entryLba < 2 ∨ entryCount = 0 ∨ entrySize < 128 ∨ entrySize % 8 ≠ 0 then
          .error (.entryGeometry entryLba entryCount entrySize)
        else .ok { entryLba, entryCount, entrySize, entryCrc32 := UInt32.ofNat entryCrc32 }

/-- The code units of a name, up to the first zero. -/
def nameUnits : List UInt8 → List ℕ
  | low :: high :: rest =>
    if leNat [low, high] = 0 then [] else leNat [low, high] :: nameUnits rest
  | _ => []

/-- `String::from_utf16`. -/
def fromUtf16 : List ℕ → Option (List Char)
  | [] => some []
  | unit :: rest =>
    if unit < 0xD800 ∨ 0xDFFF < unit then (fromUtf16 rest).map (Char.ofNat unit :: ·)
    else if 0xDBFF < unit then none
    else
      match rest with
      | low :: rest =>
        if 0xDC00 ≤ low ∧ low ≤ 0xDFFF then
          (fromUtf16 rest).map
            (Char.ofNat (0x10000 + (unit - 0xD800) * 0x400 + (low - 0xDC00)) :: ·)
        else none
      | [] => none

/-- A row of the table: its index, its first sector and its name. -/
structure GptRow where
  index : ℕ
  firstLba : ℕ
  name : String
  deriving DecidableEq

/-- One entry of the array: nothing when its type is zero. -/
def parseRow (index : ℕ) (entry : List UInt8) : Except GptFault (Option GptRow) :=
  if (entry.take 16).all (· = 0) then .ok none
  else do
    let firstLba ← leAt 8 entry 32
    let lastLba ← leAt 8 entry 40
    if firstLba = 0 ∨ lastLba < firstLba then .error (.entryRange index firstLba lastLba)
    else if entry.length < 128 then .error (.noName index)
    else
      match fromUtf16 (nameUnits ((entry.take 128).drop 56)) with
      | none => .error (.nameNotUtf16 index)
      | some name =>
        if name = [] then .error (.emptyName index)
        else .ok (some { index, firstLba, name := String.ofList name })

/-- The rows from an index on, each of which begins behind the one before it. -/
def parseRows (entrySize : ℕ) (bytes : List UInt8) (previous : Option ℕ) (index : ℕ) :
    ℕ → Except GptFault (List GptRow)
  | 0 => .ok []
  | count + 1 => do
    match ← parseRow index ((bytes.drop (index * entrySize)).take entrySize) with
    | none => parseRows entrySize bytes previous (index + 1) count
    | some row =>
      match previous with
      | some before =>
        if row.firstLba ≤ before then .error (.notAscending index row.firstLba before)
        else do
          return row :: (← parseRows entrySize bytes (some row.firstLba) (index + 1) count)
      | none => do
        return row :: (← parseRows entrySize bytes (some row.firstLba) (index + 1) count)

/-- A row ends where the next one begins; the last one has no size. -/
def tableEntries : List GptRow → List PartitionEntryFact
  | [] => []
  | [row] => [{
      index := UInt32.ofNat row.index, name := row.name, offsetSectors := UInt64.ofNat row.firstLba
      sizeSectors := none, partitionAttribute := none, grammarBranch := .remainderGrow }]
  | row :: next :: rest => {
      index := UInt32.ofNat row.index, name := row.name, offsetSectors := UInt64.ofNat row.firstLba
      sizeSectors := some (UInt64.ofNat (next.firstLba - row.firstLba)), partitionAttribute := none
      grammarBranch := .fixed } :: tableEntries (next :: rest)

def parsePartitionEntries (header : GptHeader) (bytes : List UInt8) :
    Except GptFault PartitionTableFact :=
  if crc32 bytes ≠ header.entryCrc32 then .error (.arrayCrc (crc32 bytes) header.entryCrc32)
  else do
    let rows ← parseRows header.entrySize bytes none 0 header.entryCount
    if rows = [] then .error .noEntries
    else return {
      device := DEVICE_STRING
      logicalBlockSize := UInt32.ofNat LOGICAL_BLOCK_BYTES
      entries := tableEntries rows }

/-- Reads the primary partition table: its header at sector 1, then its entries. -/
def readPartitionTable (bulk : BulkIo ω) :
    Exec (RockUsbProtocol ω) RockUsbProtocolError PartitionTableFact := do
  let headerBlock ← readLba bulk 1 1
  let header ← Exec.lift ((GptHeader.parse headerBlock).mapError .malformedGpt)
  let entriesBytes := header.entryCount * header.entrySize
  if 2 ^ 64 ≤ entriesBytes then Exec.fail (.malformedGpt .entryCountOverflow)
  else if 16 * 1024 * 1024 < entriesBytes then
    Exec.fail (.malformedGpt (.entryArrayTooLarge entriesBytes))
  else do
    let entryBytes ← readLba bulk header.entryLba (ceilDiv entriesBytes LOGICAL_BLOCK_BYTES)
    Exec.lift ((parsePartitionEntries header (entryBytes.take entriesBytes)).mapError .malformedGpt)

end ArkForge.Provider.RockUsb
