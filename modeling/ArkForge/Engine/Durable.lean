import ArkForge.Lib.Framing
import ArkForge.Engine.Chain

/-! # The journal file

The file holds a header and one frame per record. `open` replays the frames through the chain check,
cuts off an incomplete last frame and refuses everything else; `append` writes one frame and, for a
record its kind wants durable, syncs before it answers.

Every call that touches the disk takes an argument saying how the operating system answered: a write
may be short or fail after some bytes, a sync may fail, and so may each of the calls `open` makes. The
disk remembers how many of its bytes are on stable storage. -/

namespace ArkForge.Engine.Durable

open Lib.Framing
open Core.Cbor Core.Digest Core.Ids
open Record Chain

/-- The header: `ARKFJRN1`. -/
def MAGIC : List UInt8 := utf8 "ARKFJRN1"

/-- A longer frame is refused. -/
def MAX_FRAME_BYTES : ℕ := 2 ^ 20

/-! ### Disk and file -/

/-- What the path holds. The first `synced` bytes are on stable storage. -/
structure Disk where
  existed : Bool
  content : List UInt8
  synced : ℕ

/-- An open file: the bytes, how many of them are on stable storage, and where the next write goes. -/
structure File where
  content : List UInt8
  synced : ℕ
  position : ℕ

namespace File

def disk (f : File) : Disk := ⟨true, f.content, f.synced⟩

/-- Overwrites from the position on; a gap before it is filled with zeros. -/
def write (f : File) (data : List UInt8) : File :=
  { f with
    content := f.content.take f.position ++ List.replicate (f.position - f.content.length) 0 ++
      data ++ f.content.drop (f.position + data.length)
    position := f.position + data.length }

def syncAll (f : File) : File := { f with synced := f.content.length }

/-- Cuts the file; it is never made longer here. -/
def setLen (f : File) (length : ℕ) : File :=
  { f with content := f.content.take length, synced := min f.synced length }

def seek (f : File) (position : ℕ) : File := { f with position }

end File

/-! ### Errors and reports -/

inductive DurableJournalError where
  | io (path message : String)
  | notAJournal (path : String)
  | frameLengthInvalid (atOffset length : ℕ)
  | recordTooLarge (size : ℕ)
  | poisoned (path : String)
  | journal (error : JournalError)

structure RecoveryReport where
  recordsReplayed : ℕ
  tornTailBytes : ℕ
  existed : Bool

/-- An append-only journal file with its in-memory chain. -/
structure DurableJournal where
  path : String
  file : File
  journal : Journal
  unsyncedRecords : ℕ
  poisoned : Bool

/-! ### Opening -/

/-- Where `open` fails, if the operating system makes it fail. -/
inductive OpenFault where
  | none
  | createDir (parent message : String)
  | openFile (message : String)
  | readToEnd (message : String)
  /-- Writing or syncing the header of an empty file, with some of it written. -/
  | header (written : ℕ) (message : String)
  /-- Cutting the torn tail or syncing after it; the cut may have been made. -/
  | truncate (applied : Bool) (message : String)
  | seek (message : String)

/-- The replay loop: the chain so far, the count of the report, and the offset. -/
structure Replay where
  journal : Journal
  recordsReplayed : ℕ
  cursor : ℕ

/-- Replays the frames of `rest`; the number is the length of the torn tail. -/
def replay (s : Replay) (rest : List UInt8) : Except DurableJournalError (Replay × ℕ) :=
  if rest = [] then .ok (s, 0)
  else
    match h : nextFrame MAX_FRAME_BYTES rest with
    | .torn => .ok (s, rest.length)
    | .invalidLength length => .error (.frameLengthInvalid s.cursor length)
    | .body body rest' => do
      let record ← (JournalRecord.fromCanonicalBytes body).mapError .journal
      let journal ← (s.journal.adopt record).mapError .journal
      replay ⟨journal, s.recordsReplayed + 1, s.cursor + 4 + body.length⟩ rest'
termination_by rest.length
decreasing_by
  obtain ⟨rfl, -⟩ := nextFrame_body h
  rw [List.length_append, length_frame]
  omega

section

variable (path : String) (fault : OpenFault)

def readFile (disk : Disk) : Except (DurableJournalError × Disk) (List UInt8) :=
  match fault with
  | .createDir parent message => .error (.io parent message, disk)
  | .openFile message => .error (.io path message, disk)
  | .readToEnd message => .error (.io path message, { disk with existed := true })
  | _ => .ok disk.content

/-- Writes the header to an empty file, or checks it. -/
def readHeader (disk : Disk) (bytes : List UInt8) : Except (DurableJournalError × Disk) File :=
  if bytes = [] then
    match fault with
    | .header written message =>
      .error (.io path message, { disk with existed := true, content := MAGIC.take written })
    | _ => .ok ((File.mk [] disk.synced 0).write MAGIC).syncAll
  else if bytes.length < MAGIC.length ∨ bytes.take MAGIC.length ≠ MAGIC then
    .error (.notAJournal path, { disk with existed := true })
  else .ok ⟨disk.content, disk.synced, bytes.length⟩

def cutTail (file : File) (torn cursor : ℕ) : Except (DurableJournalError × Disk) File :=
  if 0 < torn then
    match fault with
    | .truncate applied message =>
      .error (.io path message, if applied then (file.setLen cursor).disk else file.disk)
    | _ => .ok (file.setLen cursor).syncAll
  else .ok file

def seekTo (file : File) (cursor : ℕ) : Except (DurableJournalError × Disk) File :=
  match fault with
  | .seek message => .error (.io path message, file.disk)
  | _ => .ok (file.seek cursor)

/-- Opens or creates the journal, replaying and verifying it. A failure leaves a disk behind. -/
def DurableJournal.openAt (disk : Disk) :
    Except (DurableJournalError × Disk) (DurableJournal × RecoveryReport) := do
  let bytes ← readFile path fault disk
  let file ← readHeader path fault disk bytes
  let (s, torn) ← (replay ⟨.new, 0, MAGIC.length⟩ (bytes.drop MAGIC.length)).mapError (·, file.disk)
  let file ← cutTail path fault file torn s.cursor
  let file ← seekTo path fault file s.cursor
  return ({ path, file, journal := s.journal, unsyncedRecords := 0, poisoned := false },
    { recordsReplayed := s.recordsReplayed, tornTailBytes := torn, existed := disk.existed })

end

/-! ### Appending and syncing -/

/-- How the operating system answers one `write` of a frame. -/
inductive WriteOutcome where
  /-- `Ok` of a number of bytes, or of all of them if there are fewer. -/
  | ok (written : ℕ)
  /-- An error, after some bytes have reached the file. -/
  | error (reached : ℕ) (message : String)

inductive SyncOutcome where
  | ok
  | error (message : String)

structure AppendIo where
  write : WriteOutcome
  sync : SyncOutcome

structure Entry where
  kind : JournalRecordKind
  atEpochMs : UInt64
  jobRevision : UInt64
  subject : OpaqueId
  facts : List (OpaqueId × String)

namespace DurableJournal

variable (dj : DurableJournal)

/-- Commits a record whose frame is in the file, and syncs if its kind demands it. -/
def commit (sync : SyncOutcome) (record : JournalRecord) :
    Except DurableJournalError Sha256Digest × DurableJournal :=
  let dj := { dj with
    journal := dj.journal.commitRecord record, unsyncedRecords := dj.unsyncedRecords + 1 }
  if record.fsyncPolicy = .durable then
    match sync with
    | .error message => (.error (.io dj.path message), { dj with poisoned := true })
    | .ok => (.ok record.recordDigest, { dj with file := dj.file.syncAll, unsyncedRecords := 0 })
  else (.ok record.recordDigest, dj)

/-- Writes a frame in one call. -/
def writeFrame (io : AppendIo) (record : JournalRecord) (data : List UInt8) :
    Except DurableJournalError Sha256Digest × DurableJournal :=
  match io.write with
  | .ok n =>
    let written := min n data.length
    let dj := { dj with file := dj.file.write (data.take written) }
    if written = data.length then dj.commit io.sync record
    else (.error (.io dj.path ("short journal-frame write: wrote " ++ toString written ++ " of " ++
      toString data.length ++ " bytes")), { dj with poisoned := true })
  | .error reached message =>
    (.error (.io dj.path message),
      { dj with file := dj.file.write (data.take reached), poisoned := true })

/-- The record of the entry and its stored form, if it may be written. -/
def prepare (e : Entry) : Except DurableJournalError (JournalRecord × List UInt8) := do
  let record ← (dj.journal.prepareRecord e.kind e.atEpochMs e.jobRevision e.subject e.facts).mapError
    .journal
  let body ← record.toCanonicalBytes.mapError fun error => .journal (.cbor error)
  if 0 < body.length ∧ body.length ≤ MAX_FRAME_BYTES then return (record, body)
  else .error (.recordTooLarge body.length)

def append (io : AppendIo) (e : Entry) : Except DurableJournalError Sha256Digest × DurableJournal :=
  if dj.poisoned then (.error (.poisoned dj.path), dj)
  else
    match dj.prepare e with
    | .error error => (.error error, dj)
    | .ok (record, body) => dj.writeFrame io record (frame body)

def sync (outcome : SyncOutcome) : Except DurableJournalError Unit × DurableJournal :=
  if dj.poisoned then (.error (.poisoned dj.path), dj)
  else
    match outcome with
    | .error message => (.error (.io dj.path message), { dj with poisoned := true })
    | .ok => (.ok (), { dj with file := dj.file.syncAll, unsyncedRecords := 0 })

end DurableJournal

end ArkForge.Engine.Durable
