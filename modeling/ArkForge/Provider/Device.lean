import ArkForge.Lib.Numerals
import ArkForge.Provider.RockUsb

/-! # The RockUSB port

The typed semantics that the executor and the native implementation exchange: observations of the
device, the two mutations, and whether a refusal came before the device could have been reached. An
image that is written is an open file that was hashed before; `OpenFile` says how the file answers
from the moment it was opened. -/

namespace ArkForge.Provider.Device

open Lib.Bytes Lib.Numerals Lib.Fallible
open Core.Digest Artifact.Manifest RockUsb

variable {ω : Type}

/-! ### Observations and receipts -/

/-- One device the port has seen. Its location is a fact of the controller topology. -/
structure RockUsbDevice where
  vendorId : UInt16
  productId : UInt16
  usbSpecification : Option UInt16
  location : UInt32
  mode : String
  serial : Option String
  productName : Option String
  vendorName : Option String
  deviceRelease : Option UInt16

def RockUsbDevice.summary (d : RockUsbDevice) : String :=
  "vid=" ++ encodeHex (beBytes 2 d.vendorId.toNat) ++ " pid=" ++
    encodeHex (beBytes 2 d.productId.toNat) ++ " iokit=" ++ encodeHex (beBytes 4 d.location.toNat) ++
    " mode=" ++ d.mode

structure RockUsbObservation (α : Type) where
  value : α
  evidenceDigest : Sha256Digest

structure RockUsbWriteProgress where
  payloadBytes : ℕ
  wireSectors : ℕ
  chunks : ℕ
  chunkSectors : ℕ
  payloadDigest : Sha256Digest

/-- The answer to a mutation. One without semantic success is not a failure: the transport was
reached. -/
structure RockUsbMutationReceipt where
  semanticSuccess : Bool
  evidenceDigest : Sha256Digest
  durationMs : ℕ
  detail : String
  progress : Option RockUsbWriteProgress

/-- Why a port refuses, told apart as the messages of the source are. -/
inductive PortFault where
  | usb (detail : String)
  | protocol (error : RockUsbProtocolError)
  | loaderCount (observed : ℕ)
  | notImplemented (operation : String)
  | emptyPartitionName
  | imageChanged (detail : String)
  | emptyImage (path : String)
  | sectorRangeOverflows
  | sectorRangeExceeds (beginSector sectors : ℕ)
  | imageUnreadable (detail : String)
  | imageShorter (path : String)
  | imageGrew (path : String)
  | payloadMismatch (payload staged : Sha256Digest)

/-- Whether the device may have been reached. -/
inductive RockUsbPortFailure where
  | beforeIo (fault : PortFault)
  | afterIo (fault : PortFault)

/-! ### Images -/

/-- What identifies the state of an open file. -/
structure StagedFileFingerprint where
  sizeBytes : UInt64
  readonly : Bool
  device : UInt64
  inode : UInt64
  mode : UInt32
  links : UInt64
  modified : ℤ × ℤ
  changed : ℤ × ℤ
  deriving DecidableEq

/-- How one read of a file goes. -/
inductive FileRead where
  | fails (detail : String)
  /-- No more than so many bytes, and one. -/
  | atMost (bytes : ℕ)
  deriving DecidableEq

/-- How a file answers from the moment it is opened: the looks at its metadata before and after it is
hashed and before it is written, the bytes that are hashed, and the bytes it delivers from its start
when it is written, with the way the reads of them go. -/
structure OpenFile where
  before : Except String StagedFileFingerprint
  hashed : Except String (List UInt8)
  hashBackend : String
  after : Except String StagedFileFingerprint
  current : Except String StagedFileFingerprint
  rewound : Except String Unit
  contents : List UInt8
  reads : List FileRead

/-- A file that is being read: what it will still deliver, and how. -/
structure Reader where
  contents : List UInt8
  reads : List FileRead

/-- One read into a buffer of `size` bytes. Nothing at all means the end of the file. -/
def Reader.read (size : ℕ) : Exec Reader String (List UInt8) := fun r =>
  match r.reads with
  | [] => (.ok (r.contents.take size), { r with contents := r.contents.drop size })
  | .fails detail :: reads => (.error detail, { r with reads })
  | .atMost n :: reads =>
    (.ok (r.contents.take (min size (n + 1))),
      { contents := r.contents.drop (min size (n + 1)), reads })

structure StagedImage where
  member : String
  path : String
  sizeBytes : UInt64
  sha256 : Sha256Digest

/-- A full digest check, tied to the open file that will be transferred. -/
structure ValidatedImage where
  staged : StagedImage
  file : OpenFile
  fingerprint : StagedFileFingerprint
  validationDurationMs : ℕ
  validationBackend : String

/-- Looks at the file once more, and positions it at its start. -/
def ValidatedImage.prepareForWrite (image : ValidatedImage) : Except String Reader := do
  let current ← image.file.current
  if current ≠ image.fingerprint then
    .error (image.staged.path ++ " changed after its SHA-256 was checked")
  else do
    image.file.rewound
    return { contents := image.file.contents, reads := image.file.reads }

/-! ### The port -/

/-- A RockUSB port: any behaviour of the six operations over a world. -/
structure RockUsbPort (ω : Type) where
  discover : Exec ω RockUsbPortFailure (RockUsbObservation (List RockUsbDevice))
  capacitySectors : Exec ω RockUsbPortFailure (RockUsbObservation ℕ)
  readPartitionTable : Exec ω RockUsbPortFailure (RockUsbObservation PartitionTableFact)
  readSectors : ℕ → ℕ → String → Exec ω RockUsbPortFailure (RockUsbObservation (List UInt8))
  writePartition : String → ℕ → ValidatedImage → Exec ω RockUsbPortFailure RockUsbMutationReceipt
  resetDevice : Exec ω RockUsbPortFailure RockUsbMutationReceipt

end ArkForge.Provider.Device
