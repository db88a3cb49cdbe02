import ArkForge.Provider.Device

/-! # The native RockUSB port

Each call claims the loader's interface, asks the loader whether it is ready, performs one operation
of the protocol and releases the claim. A write streams the open file in chunks of 8 MiB. What happens
before the first command that changes the device is a refusal before I/O; a failure of such a command,
or after one, is a failure after I/O. -/

namespace ArkForge.Daemon.NativePort

open Lib.Bytes Lib.Numerals Lib.Fallible
open Core.Cbor Core.Digest
open Artifact.Manifest Provider.RockUsb Provider.Device

variable {ω : Type}

/-! ### The USB substrate -/

/-- One USB interface, with the facts reported for its device. -/
structure UsbInterfaceDescriptor where
  vendorId : UInt16
  productId : UInt16
  usbSpecification : UInt16
  deviceRelease : UInt16
  locationId : UInt32
  interfaceClass : UInt8
  interfaceSubclass : UInt8
  interfaceProtocol : UInt8
  interfaceNumber : UInt8
  serial : Option String
  productName : Option String
  vendorName : Option String
  deriving DecidableEq

structure UsbInterfaceSelector where
  vendorId : UInt16
  productId : UInt16
  interfaceClass : UInt8
  interfaceSubclass : UInt8
  interfaceProtocol : UInt8
  requireRockchipLoader : Bool
  deriving DecidableEq

def UsbInterfaceSelector.dayu200Loader : UsbInterfaceSelector where
  vendorId := 0x2207
  productId := 0x350a
  interfaceClass := 0xff
  interfaceSubclass := 6
  interfaceProtocol := 5
  requireRockchipLoader := true

def UsbInterfaceSelector.matches (s : UsbInterfaceSelector) (d : UsbInterfaceDescriptor) : Bool :=
  decide (d.vendorId = s.vendorId) && decide (d.productId = s.productId) &&
    decide (d.interfaceClass = s.interfaceClass) &&
    decide (d.interfaceSubclass = s.interfaceSubclass) &&
    decide (d.interfaceProtocol = s.interfaceProtocol) &&
    (!s.requireRockchipLoader || decide (d.usbSpecification &&& 1 = 1))

/-- Any behaviour of the USB stack: what it enumerates, whether it grants a claim, and how the pipes
of the claimed interface behave. -/
structure NativeUsb (ω : Type) where
  enumerate : Exec ω String (List UsbInterfaceDescriptor)
  openUnique : UsbInterfaceSelector → Exec ω String Unit
  openExact : UsbInterfaceSelector → UsbInterfaceDescriptor → Exec ω String Unit
  bulk : BulkIo ω
  /-- Milliseconds on a clock. -/
  now : ω → ℕ

/-- The port: what it claims, and where its tags have come to. -/
structure NativeRockUsbPort where
  selector : UsbInterfaceSelector
  target : Option UsbInterfaceDescriptor

structure Native (ω : Type) where
  world : ω
  nextTag : UInt32

section Port

variable (usb : NativeUsb ω) (port : NativeRockUsbPort)

/-- A call of the USB stack. A failure is a refusal before I/O. -/
def substrate {α : Type} (x : Exec ω String α) : Exec (Native ω) RockUsbPortFailure α :=
  (x.within Native.world fun n world => { n with world }).mapError fun e => .beforeIo (.usb e)

def matchingDescriptors : Exec (Native ω) RockUsbPortFailure (List UsbInterfaceDescriptor) := do
  let records ← substrate usb.enumerate
  return records.filter fun record => port.selector.matches record &&
    (match port.target with
      | some target => decide (target = record)
      | none => true)

def openInterface : Exec (Native ω) RockUsbPortFailure Unit :=
  match port.target with
  | some target => substrate (usb.openExact port.selector target)
  | none => substrate (usb.openUnique port.selector)

def takeFirstTag : Exec (Native ω) RockUsbPortFailure UInt32 := do
  let native ← Exec.getState
  Exec.modifyState fun n => { n with nextTag := n.nextTag + 0x100 }
  return native.nextTag

def session {α : Type} (firstTag : UInt32)
    (x : Exec (RockUsbProtocol ω) RockUsbPortFailure α) : Exec (Native ω) RockUsbPortFailure α :=
  x.within (fun n => { io := n.world, nextTag := firstTag }) fun n p => { n with world := p.io }

def withProtocol {α : Type} (operation : Exec (RockUsbProtocol ω) RockUsbProtocolError α) :
    Exec (Native ω) RockUsbPortFailure α := do
  openInterface usb port
  let firstTag ← takeFirstTag
  session firstTag do
    (testUnitReady usb.bulk).mapError fun e => .afterIo (.protocol e)
    operation.mapError fun e => .afterIo (.protocol e)

def deviceFromDescriptor (d : UsbInterfaceDescriptor) : RockUsbDevice where
  vendorId := d.vendorId
  productId := d.productId
  usbSpecification := some d.usbSpecification
  location := d.locationId
  mode := "loader"
  serial := d.serial
  productName := d.productName
  vendorName := d.vendorName
  deviceRelease := some d.deviceRelease

def discover : Exec (Native ω) RockUsbPortFailure (RockUsbObservation (List RockUsbDevice)) := do
  let descriptors ← matchingDescriptors usb port
  if descriptors.length ≠ 1 then Exec.fail (.beforeIo (.loaderCount descriptors.length))
  else do
    -- a descriptor is not evidence of the protocol: the loader itself is asked
    withProtocol usb port (pure ())
    let devices := descriptors.map deviceFromDescriptor
    return {
      value := devices
      evidenceDigest := sha256 (devices.flatMap fun d =>
        utf8 d.summary ++ [0] ++ utf8 (d.serial.getD "") ++ [0]) }

def capacitySectors : Exec (Native ω) RockUsbPortFailure (RockUsbObservation ℕ) := do
  let sectors ← withProtocol usb port (readCapacitySectors usb.bulk)
  return { value := sectors, evidenceDigest := sha256 (beBytes 8 sectors) }

def readTable : Exec (Native ω) RockUsbPortFailure (RockUsbObservation PartitionTableFact) := do
  let table ← withProtocol usb port (readPartitionTable usb.bulk)
  return {
    value := table
    evidenceDigest := sha256 (table.entries.flatMap fun e =>
      utf8 e.name ++ utf8 "@" ++ utf8 (toString e.offsetSectors.toNat) ++ utf8 "\n") }

def readSectors (beginSector sectors : ℕ) :
    Exec (Native ω) RockUsbPortFailure (RockUsbObservation (List UInt8)) := do
  let bytes ← withProtocol usb port (readLba usb.bulk beginSector sectors)
  return { value := bytes, evidenceDigest := sha256 bytes }

/-! ### Writing a partition -/

/-- A local failure while the file is streamed: before I/O as long as no chunk was written. -/
def localFailure (fault : PortFault) (chunks : ℕ) : RockUsbPortFailure :=
  if chunks = 0 then .beforeIo fault else .afterIo fault

/-- Reads until so many bytes have been read. -/
def fillBuffer (path : String) (chunks missing : ℕ) :
    Exec Reader RockUsbPortFailure (List UInt8) :=
  if missing = 0 then pure []
  else do
    let bytes ← (Reader.read missing).mapError fun e =>
      localFailure (.imageUnreadable (path ++ ": " ++ e)) chunks
    if bytes = [] then Exec.fail (localFailure (.imageShorter path) chunks)
    else do
      let rest ← fillBuffer path chunks (missing - bytes.length)
      return bytes ++ rest
termination_by missing
decreasing_by
  have : 0 < bytes.length := List.length_pos_iff.mpr ‹_›
  omega

structure Transfer (ω : Type) where
  protocol : RockUsbProtocol ω
  reader : Reader

def onReader {α : Type} (x : Exec Reader RockUsbPortFailure α) :
    Exec (Transfer ω) RockUsbPortFailure α :=
  x.within Transfer.reader fun t reader => { t with reader }

def onProtocol {α : Type} (x : Exec (RockUsbProtocol ω) RockUsbPortFailure α) :
    Exec (Transfer ω) RockUsbPortFailure α :=
  x.within Transfer.protocol fun t protocol => { t with protocol }

/-- The chunk that is read and written at once. -/
def BUFFER_BYTES : ℕ := ROCKUSB_TRANSFER_CHUNK_SECTORS * LOGICAL_BLOCK_BYTES

/-- Reads and writes until nothing remains; answers the hasher and the number of chunks. -/
def streamImage (path : String) (hasher : Sha256) (position chunks remaining : ℕ) :
    Exec (Transfer ω) RockUsbPortFailure (Sha256 × ℕ) :=
  if remaining = 0 then pure (hasher, chunks)
  else do
    let wanted := min remaining BUFFER_BYTES
    let buffer ← onReader (fillBuffer path chunks wanted)
    let progress ← onProtocol ((writeLba usb.bulk position buffer).mapError fun e =>
      .afterIo (.protocol e))
    streamImage path (hasher.update buffer) (position + progress.wireSectors)
      (chunks + progress.chunks) (remaining - wanted)
termination_by remaining
decreasing_by
  have : 0 < BUFFER_BYTES := by decide
  omega

/-- Asks the loader whether it is ready, streams the file, and compares what was sent with what was
staged. Answers the digest, the number of chunks and the time at which the first one was due. -/
def sendImage (staged : StagedImage) (beginSector : ℕ) :
    Exec (Transfer ω) RockUsbPortFailure (Sha256Digest × ℕ × ℕ) := do
  onProtocol ((testUnitReady usb.bulk).mapError fun e => .beforeIo (.protocol e))
  let started ← Exec.getState
  let (hasher, chunks) ←
    streamImage usb staged.path Sha256.new beginSector 0 staged.sizeBytes.toNat
  let extra ← onReader ((Reader.read 1).mapError fun e =>
    .afterIo (.imageUnreadable (staged.path ++ ": " ++ e)))
  if extra ≠ [] then Exec.fail (.afterIo (.imageGrew staged.path))
  else
    let payloadDigest := hasher.finalize
    if payloadDigest ≠ staged.sha256 then
      Exec.fail (.afterIo (.payloadMismatch payloadDigest staged.sha256))
    else pure (payloadDigest, chunks, usb.now started.protocol.io)

def writeDetail (partition : String) (beginSector : ℕ) (progress : RockUsbWriteProgress) : String :=
  "native WRITE_LBA confirmed partition=" ++ partition ++ " begin=" ++ toString beginSector ++
    " bytes=" ++ toString progress.payloadBytes ++ " sectors=" ++ toString progress.wireSectors ++
    " chunks=" ++ toString progress.chunks

/-- A session of the protocol engine over an open file. -/
def transferSession {α : Type} (firstTag : UInt32) (reader : Reader)
    (x : Exec (Transfer ω) RockUsbPortFailure α) : Exec (Native ω) RockUsbPortFailure α :=
  x.within (fun n => { protocol := { io := n.world, nextTag := firstTag }, reader })
    fun n t => { n with world := t.protocol.io }

def writePartition (partition : String) (beginSector : ℕ) (image : ValidatedImage) :
    Exec (Native ω) RockUsbPortFailure RockUsbMutationReceipt :=
  if partition = "" then Exec.fail (.beforeIo .emptyPartitionName)
  else do
    let staged := image.staged
    let reader ← Exec.lift (image.prepareForWrite.mapError fun e => .beforeIo (.imageChanged e))
    let totalBytes := staged.sizeBytes.toNat
    let totalSectors := ceilDiv totalBytes 512
    if totalBytes = 0 then Exec.fail (.beforeIo (.emptyImage staged.path))
    else if 2 ^ 64 ≤ beginSector + totalSectors then Exec.fail (.beforeIo .sectorRangeOverflows)
    else if 2 ^ 32 - 1 < beginSector ∨ 2 ^ 32 < beginSector + totalSectors then
      Exec.fail (.beforeIo (.sectorRangeExceeds beginSector totalSectors))
    else do
      openInterface usb port
      let firstTag ← takeFirstTag
      let (payloadDigest, chunks, started) ←
        transferSession firstTag reader (sendImage usb staged beginSector)
      let progress := {
        payloadBytes := totalBytes, wireSectors := totalSectors, chunks
        chunkSectors := ROCKUSB_TRANSFER_CHUNK_SECTORS, payloadDigest }
      let detail := writeDetail partition beginSector progress
      let ended ← Exec.getState
      return {
        semanticSuccess := true
        evidenceDigest := sha256 (utf8 (detail ++ " sha256=" ++ encodeHex payloadDigest.bytes))
        durationMs := usb.now ended.world - started
        detail
        progress := some progress }

def resetLoader : Exec (Native ω) RockUsbPortFailure RockUsbMutationReceipt := do
  openInterface usb port
  let firstTag ← takeFirstTag
  let started ← session firstTag do
    (testUnitReady usb.bulk).mapError fun e => .beforeIo (.protocol e)
    let started ← Exec.getState
    (resetDevice usb.bulk).mapError fun e => .afterIo (.protocol e)
    return usb.now started.io
  let ended ← Exec.getState
  let detail := "native DEVICE_RESET confirmed by matching CSW"
  return {
    semanticSuccess := true
    evidenceDigest := sha256 (utf8 detail)
    durationMs := usb.now ended.world - started
    detail
    progress := none }

/-- The native port, as the executor sees it. -/
def NativeRockUsbPort.asPort : RockUsbPort (Native ω) where
  discover := discover usb port
  capacitySectors := capacitySectors usb port
  readPartitionTable := readTable usb port
  readSectors := fun beginSector sectors _ => readSectors usb port beginSector sectors
  writePartition := writePartition usb port
  resetDevice := resetLoader usb port

end Port

end ArkForge.Daemon.NativePort
