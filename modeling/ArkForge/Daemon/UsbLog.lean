import ArkForge.Daemon.Streaming
import ArkForge.Provider.SectorArray

/-! # What is handed to the USB handle

The native port over an arbitrary USB stack, with a log of the transfers that are handed to it. Reads
send no command that changes the device. A write sends none before it fails before I/O, and one that
is confirmed has sent the image in chunks, each of which the device has acknowledged. -/

namespace ArkForge.Daemon.UsbLog

open Lib.Fallible
open Provider.RockUsb Provider.Device Provider.Chunking
open Provider.SectorArray (Command command read_commandBlock Acknowledges validateCsw_eq_ok)
open NativePort Streaming

variable {ω : Type}

/-! ### The log -/

/-- A transfer, and how it went. -/
inductive UsbTransfer where
  | sent (bytes : List UInt8) (taken : Bool)
  | received (answer : Option (List UInt8))
  deriving DecidableEq

/-- The world, with the transfers so far. -/
structure Logged (ω : Type) where
  world : ω
  log : List UsbTransfer

def logged {α : Type} (entry : Except String α → UsbTransfer) (x : Exec ω String α) :
    Exec (Logged ω) String α := fun l =>
  ((x l.world).1, { world := (x l.world).2, log := l.log ++ [entry (x l.world).1] })

/-- Something that is not a transfer. -/
def unlogged {ε α : Type} (x : Exec ω ε α) : Exec (Logged ω) ε α :=
  x.within Logged.world fun l world => { l with world }

theorem length_logged_readExact (bulk : BulkIo ω) (n : ℕ) (l : Logged ω) (bytes : List UInt8)
    (l' : Logged ω)
    (h : logged (fun r => .received r.toOption) (bulk.readExact n) l = (.ok bytes, l')) :
    bytes.length = n := by
  have hfirst : (bulk.readExact n l.world).1 = .ok bytes := congrArg Prod.fst h
  exact bulk.length_readExact n l.world bytes _ (Prod.ext hfirst rfl)

/-- The pipes, with a log. -/
def watchedBulk (bulk : BulkIo ω) : BulkIo (Logged ω) where
  writeAll := fun bytes => logged (fun r => .sent bytes r.toBool) (bulk.writeAll bytes)
  readSome := fun n => logged (fun r => .received r.toOption) (bulk.readSome n)
  readExact := fun n => logged (fun r => .received r.toOption) (bulk.readExact n)
  length_readExact := length_logged_readExact bulk

/-- The stack, with a log. -/
def watched (usb : NativeUsb ω) : NativeUsb (Logged ω) where
  enumerate := unlogged usb.enumerate
  openUnique := fun selector => unlogged (usb.openUnique selector)
  openExact := fun selector target => unlogged (usb.openExact selector target)
  bulk := watchedBulk usb.bulk
  now := fun l => usb.now l.world

/-- The transfer hands over a command block that changes the device. -/
def Mutates (t : UsbTransfer) : Prop :=
  ∃ bytes taken c, t = .sent bytes taken ∧ Command.read bytes = some c ∧
    (c.opcode = WRITE_LBA ∨ c.opcode = DEVICE_RESET)

/-- None of the transfers does. -/
def Harmless (new : List UsbTransfer) : Prop := ∀ t ∈ new, ¬ Mutates t

/-- The transfers since the log was `old` are as `P` says. -/
def Since (old : List UsbTransfer) (P : List UsbTransfer → Prop) (l : Logged ω) : Prop :=
  ∃ new, l.log = old ++ new ∧ P new

variable {l : Logged ω} {P : List UsbTransfer → Prop}

theorem Since.imp {old : List UsbTransfer} {Q : List UsbTransfer → Prop} (h : Since old P l)
    (hPQ : ∀ new, P new → Q new) : Since old Q l := by
  obtain ⟨new, hlog, hnew⟩ := h
  exact ⟨new, hlog, hPQ new hnew⟩

theorem Since.refl (l : Logged ω) (h : P []) : Since l.log P l :=
  ⟨[], (List.append_nil _).symm, h⟩

variable {α : Type}

section Harmless

variable {old : List UsbTransfer}

theorem ends_logged {entry : Except String α → UsbTransfer} {x : Exec ω String α}
    (h : ∀ r new, P new → P (new ++ [entry r])) :
    Ends (Since old P) (logged entry x) (Since old P) := by
  rintro l ⟨new, hlog, hnew⟩
  have hafter : Since old P (⟨(x l.world).2, l.log ++ [entry (x l.world).1]⟩ : Logged ω) :=
    ⟨new ++ [entry (x l.world).1], by rw [hlog, List.append_assoc], h _ _ hnew⟩
  unfold logged
  rcases hx : (x l.world).1 with _ | _ <;> rw [hx] at hafter <;> exact hafter

theorem meets_logged {entry : Except String α → UsbTransfer} {x : Exec ω String α}
    (h : ∀ r, ¬ Mutates (entry r)) : Ends (Since old Harmless) (logged entry x) (Since old Harmless) :=
  ends_logged fun r _ hnew => List.forall_mem_append.mpr ⟨hnew, List.forall_mem_singleton.mpr (h r)⟩

theorem not_mutates_received (answer : Option (List UInt8)) : ¬ Mutates (.received answer) := by
  rintro ⟨_, _, _, h, -⟩
  cases h

variable {opcode : UInt8}

theorem not_mutates_command {tag : UInt32} {address : UInt32} {sectors : UInt16}
    {transferBytes : UInt32} {commandLength : UInt8} {directionIn taken : Bool}
    (hwrite : opcode ≠ WRITE_LBA) (hreset : opcode ≠ DEVICE_RESET) :
    ¬ Mutates (.sent (commandBlock tag opcode address sectors transferBytes commandLength directionIn)
      taken) := by
  rintro ⟨_, _, c, h, hread, hc⟩
  obtain ⟨rfl, -⟩ := UsbTransfer.sent.inj h
  obtain rfl := Option.some.inj hread
  exact hc.elim hwrite hreset

/-- The engine, with a log that is harmless since it was `old`. -/
abbrev Still (old : List UsbTransfer) (p : RockUsbProtocol (Logged ω)) : Prop :=
  Since old Harmless p.io

variable (bulk : BulkIo ω)

theorem meets_executeIn (hwrite : opcode ≠ WRITE_LBA) (hreset : opcode ≠ DEVICE_RESET)
    (address : UInt32) (sectors : UInt16) (transferBytes : UInt32) (commandLength : UInt8) :
    Ends (Still old) (executeIn (watchedBulk bulk) opcode address sectors transferBytes commandLength)
      (Still old) := by
  have hreceive : ∀ n, Ends (Still old) (transfer ((watchedBulk bulk).readExact n))
      (Still old) := fun n =>
    meets_transfer (meets_logged fun _ => not_mutates_received _)
  refine meets_takeTag.bind fun tag => ?_
  refine (meets_transfer (meets_logged fun _ => not_mutates_command hwrite hreset)).bind fun _ => ?_
  have hend : ∀ data : List UInt8, Ends (Still old) (do
      let csw ← transfer ((watchedBulk bulk).readExact CSW_BYTES)
      Exec.lift (validateCsw csw tag)
      return data) (Still old) := fun data =>
    (hreceive _).bind fun csw => lift_keeps.bind fun _ => pure_keeps
  refine meets_ite (fun _ => ?_) fun _ => ?_
  · exact pure_keeps.bind hend
  · exact (hreceive _).bind hend

theorem meets_testUnitReady :
    Ends (Still old) (testUnitReady (watchedBulk bulk)) (Still old) :=
  (meets_executeIn bulk (by decide) (by decide) _ _ _ _).bind fun _ => pure_keeps

theorem meets_readChunks (remaining : ℕ) : ∀ position : ℕ,
    Ends (Still old) (readChunks (watchedBulk bulk) position remaining) (Still old) := by
  induction remaining using Nat.strong_induction_on with
  | _ remaining ih =>
    intro position
    rw [readChunks]
    refine meets_ite (fun _ => pure_keeps) fun hzero => ?_
    have hchunk : 0 < ROCKUSB_TRANSFER_CHUNK_SECTORS := by decide
    refine (meets_executeIn bulk (by decide) (by decide) _ _ _ _).bind fun bytes => ?_
    exact (ih _ (by omega) _).bind fun rest => pure_keeps

theorem meets_readLba (beginSector sectors : ℕ) :
    Ends (Still old) (readLba (watchedBulk bulk) beginSector sectors) (Still old) := by
  refine lift_keeps.bind fun _ => ?_
  exact meets_ite (fun _ => fail_keeps) fun _ => meets_readChunks bulk _ _

theorem meets_readPartitionTable :
    Ends (Still old) (readPartitionTable (watchedBulk bulk)) (Still old) := by
  refine (meets_readLba bulk _ _).bind fun headerBlock => ?_
  refine lift_keeps.bind fun header => ?_
  refine meets_ite (fun _ => fail_keeps) fun _ => ?_
  refine meets_ite (fun _ => fail_keeps) fun _ => ?_
  refine (meets_readLba bulk _ _).bind fun entryBytes => ?_
  exact lift_keeps

end Harmless

/-! ### Reads of the port -/

section Reads

variable {old : List UsbTransfer} (usb : NativeUsb ω) (port : NativeRockUsbPort)

/-- The port, with a log that is harmless since it was `old`. -/
abbrev Rested (old : List UsbTransfer) (n : Native (Logged ω)) : Prop := Since old Harmless n.world

theorem meets_substrate (x : Exec ω String α) :
    Ends (fun n : Native (Logged ω) => Since old P n.world) (substrate (unlogged x))
      (fun n => Since old P n.world) := by
  refine Meets.mapError (Meets.within fun n hn => Meets.within fun l hl => ?_)
  subst hl
  intro w _
  rcases x w with ⟨e | a, w'⟩ <;> exact hn

theorem meets_openInterface :
    Ends (fun n : Native (Logged ω) => Since old P n.world) (openInterface (watched usb) port)
      (fun n => Since old P n.world) := by
  unfold openInterface
  split
  · exact meets_substrate _
  · exact meets_substrate _

theorem meets_takeFirstTag {P : Logged ω → Prop}
    {R : RockUsbPortFailure → Native (Logged ω) → Prop} :
    Meets (fun n => P n.world) takeFirstTag (fun _ n => P n.world) R := fun _ hn => hn

theorem meets_session {firstTag : UInt32}
    {x : Exec (RockUsbProtocol (Logged ω)) RockUsbPortFailure α} {P : Logged ω → Prop}
    {Q : α → Logged ω → Prop} {R : RockUsbPortFailure → Logged ω → Prop}
    (h : Meets (fun p => P p.io) x (fun a p => Q a p.io) fun e p => R e p.io) :
    Meets (fun n => P n.world) (NativePort.session firstTag x) (fun a n => Q a n.world)
      fun e n => R e n.world :=
  Meets.within fun _ hn => h.pre (fun _ hs => hs ▸ hn)

theorem meets_withProtocol
    {operation : Exec (RockUsbProtocol (Logged ω)) RockUsbProtocolError α}
    (h : Ends (Still old) operation (Still old)) :
    Ends (Rested old) (withProtocol (watched usb) port operation) (Rested old) := by
  refine (meets_openInterface usb port).bind fun _ => ?_
  refine meets_takeFirstTag.bind fun firstTag => meets_session ?_
  exact (Meets.mapError (R := fun _ => Still old) (meets_testUnitReady usb.bulk)).bind fun _ =>
    Meets.mapError h

theorem meets_discover :
    Ends (Rested old) (discover (watched usb) port) (Rested old) := by
  refine Meets.bind (Q := fun _ => Rested old) ?_ fun descriptors => ?_
  · exact (meets_substrate usb.enumerate).bind fun records => pure_keeps
  refine meets_ite (fun _ => fail_keeps) fun _ => ?_
  exact (meets_withProtocol usb port pure_keeps).bind fun _ =>
    pure_keeps

theorem meets_readTable :
    Ends (Rested old) (readTable (watched usb) port) (Rested old) :=
  (meets_withProtocol usb port (meets_readPartitionTable usb.bulk)).bind fun _ =>
    pure_keeps

theorem meets_readSectors (beginSector sectors : ℕ) :
    Ends (Rested old) (NativePort.readSectors (watched usb) port beginSector sectors)
      (Rested old) :=
  (meets_withProtocol usb port (meets_readLba usb.bulk _ _)).bind fun _ => pure_keeps

end Reads

/-! ### Writes of the port -/

/-- The transfers send the data from the sector `position` on, in chunks: each chunk is a command
block, the data of the chunk and an acknowledgement of the command. Nothing else in them changes the
device. -/
inductive Delivered : ℕ → List UInt8 → List UsbTransfer → Prop where
  | nil {position : ℕ} : Delivered position [] []
  | harmless {position : ℕ} {data : List UInt8} {t : UsbTransfer} {new : List UsbTransfer} :
      ¬ Mutates t → Delivered position data new → Delivered position data (t :: new)
  | chunk {position : ℕ} {c : Command} {block data rest csw : List UInt8} {new : List UsbTransfer} :
      Command.read block = some c → c.opcode = WRITE_LBA → c.address = position → 0 < c.sectors →
      data.length = LOGICAL_BLOCK_BYTES * c.sectors → Acknowledges c csw →
      Delivered (position + c.sectors) rest new →
      Delivered position (data ++ rest)
        (.sent block true :: .sent data true :: .received (some csw) :: new)

variable {position : ℕ}

theorem delivered_of_harmless : ∀ {new : List UsbTransfer}, Harmless new →
    Delivered position [] new
  | [], _ => .nil
  | t :: _, h => .harmless (h t List.mem_cons_self)
      (delivered_of_harmless fun t' ht => h t' (List.mem_cons_of_mem _ ht))

variable {data : List UInt8} {new : List UsbTransfer}

theorem Delivered.harmless_of_nil (h : Delivered position data new) :
    data = [] → Harmless new := by
  induction h with
  | nil => exact fun _ t ht => nomatch ht
  | @harmless position data t new ht _ ih =>
    exact fun hdata => List.forall_mem_cons.mpr ⟨ht, ih hdata⟩
  | @chunk position c block data rest csw new _ _ _ hsectors hlength _ _ _ =>
    intro hdata
    rw [(List.append_eq_nil_iff.mp hdata).1] at hlength
    have := (Nat.mul_eq_zero.mp hlength.symm).resolve_left (by decide)
    omega

theorem Delivered.append (h : Delivered position data new) :
    ∀ {k : ℕ} {more : List UInt8} {later : List UsbTransfer},
    data.length = LOGICAL_BLOCK_BYTES * k → Delivered (position + k) more later →
    Delivered position (data ++ more) (new ++ later) := by
  induction h with
  | nil =>
    intro k more later hk hlater
    obtain rfl : k = 0 := by
      exact (Nat.mul_eq_zero.mp hk.symm).resolve_left (by decide)
    exact hlater
  | harmless ht _ ih =>
    intro k more later hk hlater
    exact .harmless ht (ih hk hlater)
  | @chunk position c block data rest csw new hread hopcode haddress hsectors hlength hack _ ih =>
    intro k more later hk hlater
    have hrest : rest.length = LOGICAL_BLOCK_BYTES * (k - c.sectors) := by
      rw [List.length_append, hlength] at hk
      rw [Nat.mul_sub, ← hk, Nat.add_sub_cancel_left]
    have hle : c.sectors ≤ k := by
      rw [List.length_append] at hk
      exact Nat.le_of_mul_le_mul_left (by omega) (show 0 < LOGICAL_BLOCK_BYTES by decide)
    rw [List.append_assoc]
    refine .chunk hread hopcode haddress hsectors hlength hack (ih hrest ?_)
    rwa [Nat.add_assoc, Nat.add_sub_cancel' hle]

theorem not_mutates_data {k : ℕ} (h : data.length = LOGICAL_BLOCK_BYTES * k) (taken : Bool) :
    ¬ Mutates (.sent data taken) := by
  rintro ⟨_, _, c, hsent, hread, -⟩
  obtain ⟨rfl, -⟩ := UsbTransfer.sent.inj hsent
  unfold Command.read at hread
  split_ifs at hread with hblock
  change data.length = 512 * k at h
  omega

/-- **Every write command is acknowledged**: behind it come the data it announces and a status that
acknowledges it. -/
theorem Delivered.acknowledged (h : Delivered position data new) :
    ∀ {before after : List UsbTransfer} {bytes : List UInt8}
    {taken : Bool} {c : Command}, new = before ++ .sent bytes taken :: after →
    Command.read bytes = some c → c.opcode = WRITE_LBA →
    taken = true ∧ ∃ payload csw rest, after = .sent payload true :: .received (some csw) :: rest ∧
      payload.length = LOGICAL_BLOCK_BYTES * c.sectors ∧ Acknowledges c csw := by
  induction h with
  | nil =>
    intro before after bytes taken c hnew
    simp at hnew
  | @harmless position data t new ht _ ih =>
    intro before after bytes taken c hnew hread hopcode
    rcases before with _ | ⟨t', before⟩
    · obtain ⟨rfl, -⟩ := List.cons.inj hnew
      exact absurd ⟨bytes, taken, c, rfl, hread, .inl hopcode⟩ ht
    · exact ih (List.cons.inj hnew).2 hread hopcode
  | @chunk position c' block data rest csw new hread' hopcode' haddress _ hlength hack _ ih =>
    intro before after bytes taken c hnew hread hopcode
    have hdata := not_mutates_data hlength
    rcases before with _ | ⟨t₁, _ | ⟨t₂, _ | ⟨t₃, before⟩⟩⟩
    · obtain ⟨hsent, rfl⟩ := List.cons.inj hnew
      obtain ⟨rfl, rfl⟩ := UsbTransfer.sent.inj hsent
      obtain rfl := Option.some.inj (hread'.symm.trans hread)
      exact ⟨rfl, data, csw, new, rfl, hlength, hack⟩
    · obtain ⟨-, hnew⟩ := List.cons.inj hnew
      obtain ⟨hsent, -⟩ := List.cons.inj hnew
      obtain ⟨rfl, rfl⟩ := UsbTransfer.sent.inj hsent
      exact absurd ⟨_, _, c, rfl, hread, .inl hopcode⟩ (hdata true)
    · simp at hnew
    · simp only [List.cons_append, List.cons.injEq] at hnew
      exact ih hnew.2.2.2 hread hopcode

section Writes

variable {old : List UsbTransfer} (usb : NativeUsb ω) (port : NativeRockUsbPort)

theorem meets_logged_eq {entry : Except String α → UsbTransfer} {x : Exec ω String α}
    {log : List UsbTransfer} :
    Meets (fun l => l.log = log) (logged entry x) (fun a l => l.log = log ++ [entry (.ok a)])
      fun _ l => log <+: l.log := by
  rintro l rfl
  unfold logged
  rcases hx : (x l.world).1 with e | a
  · exact List.prefix_append _ _
  · rfl

theorem meets_writeChunk (bulk : BulkIo ω) {log : List UsbTransfer} (address : UInt32)
    (sectors : UInt16) (hne : data ≠ []) (hfits : data.length < 2 ^ 32) :
    Meets (fun p => p.io.log = log)
      (executeOut (watchedBulk bulk) WRITE_LBA address sectors data 10)
      (fun _ p => ∃ block tag csw,
        Command.read block = some (command tag WRITE_LBA address sectors
          (UInt32.ofNat data.length) false) ∧
        Acknowledges (command tag WRITE_LBA address sectors (UInt32.ofNat data.length) false) csw ∧
        p.io.log = log ++ [.sent block true, .sent data true, .received (some csw)])
      fun _ p => log <+: p.io.log := by
  unfold executeOut
  rw [if_neg (by omega)]
  refine (meets_takeTag (P := fun l : Logged ω => l.log = log)).bind fun tag => ?_
  obtain ⟨block, hblock⟩ : ∃ b, b = commandBlock tag WRITE_LBA address sectors
    (UInt32.ofNat data.length) 10 false := ⟨_, rfl⟩
  rw [← hblock]
  refine (meets_transfer (@meets_logged_eq _ _ _ _ log)).bind fun _ => ?_
  rw [if_neg hne]
  refine ((meets_transfer meets_logged_eq).failing fun _ _ hp =>
    (List.prefix_append _ _).trans hp).bind fun _ => ?_
  refine ((meets_transfer meets_logged_eq).failing fun _ _ hp => ?_).bind fun csw => ?_
  · exact (List.prefix_append _ _).trans ((List.prefix_append _ _).trans hp)
  refine meets_lift (fun _ hok p hp => ?_) fun _ _ p hp => ?_
  · refine ⟨block, tag, csw, hblock ▸ read_commandBlock _ _ _ _ _ _ _,
      (validateCsw_eq_ok rfl).mp hok, ?_⟩
    rw [hp]
    simp [Except.toBool, Except.toOption]
  · rw [hp, List.append_assoc, List.append_assoc]
    exact List.prefix_append _ _

theorem takes (bulk : BulkIo ω) (old : List UsbTransfer) (start : ℕ) (total : List UInt8) :
    Takes (watchedBulk bulk) start total (fun done p => Since old (Delivered start done) p.io)
      fun p => Since old (fun _ => True) p.io := by
  intro k sectors done data hdone hdata hpos hsectors hrange htotal p hp
  obtain ⟨new, hlog, hnew⟩ := hp
  obtain ⟨haddress, hcount, hfits⟩ := chunk_fits (show start + k < 2 ^ 32 by omega) hsectors
  have hne : data ≠ [] := by
    rw [← List.length_pos_iff, hdata]
    exact Nat.mul_pos (by decide) hpos
  refine ((meets_writeChunk bulk (UInt32.ofNat (start + k)) (UInt16.ofNat sectors) hne
    (hdata ▸ hfits)).weaken (fun _ h => h) (fun _ p' h => ?_) fun _ p' h => ?_) p rfl
  · obtain ⟨block, tag, csw, hread, hack, hlog'⟩ := h
    refine ⟨new ++ [.sent block true, .sent data true, .received (some csw)],
      by rw [hlog', hlog, List.append_assoc], hnew.append hdone ?_⟩
    have hlength : data.length = LOGICAL_BLOCK_BYTES * (UInt16.ofNat sectors).toNat := by
      rw [hcount, hdata]
    have hsome : 0 < (UInt16.ofNat sectors).toNat := by omega
    have hchunk := Delivered.chunk hread rfl haddress hsome hlength hack .nil
    rwa [List.append_nil] at hchunk
  · obtain ⟨later, hlater⟩ := h
    exact ⟨new ++ later, by rw [← hlater, hlog, List.append_assoc], trivial⟩

/-- What a failure says: one before I/O, that nothing was sent that changes the device. -/
def Failed (old : List UsbTransfer) : RockUsbPortFailure → Logged ω → Prop
  | .beforeIo _ => Since old Harmless
  | .afterIo _ => Since old fun _ => True

theorem Since.failed {l : Logged ω} (h : Since old P l)
    (fault : PortFault) : Failed old (.afterIo fault) l := h.imp fun _ _ => trivial

theorem Since.refused (h : Since old Harmless l) (e : RockUsbPortFailure) : Failed old e l := by
  cases e with
  | beforeIo _ => exact h
  | afterIo fault => exact h.failed fault

theorem meets_sendImage (staged : StagedImage) (beginSector : ℕ) (contents : List UInt8)
    (hrange : beginSector + ceilDiv staged.sizeBytes.toNat LOGICAL_BLOCK_BYTES ≤ 2 ^ 32) :
    Meets (fun x => Still old x.protocol ∧ Delivers contents True x.reader)
      (sendImage (watched usb) staged beginSector)
      (fun _ x => Since old (Delivered beginSector (padded contents)) x.protocol.io)
      fun e x => Failed old e x.protocol.io := by
  refine ((Streaming.meets_sendImage (takes usb.bulk old beginSector _) ?_ ?_
    (fun e x h => Since.failed h _) hrange (.inl trivial)).pre fun x hx =>
      ⟨hx.1.imp fun _ => delivered_of_harmless, hx.2⟩).post fun _ x h => h.2.2
  · exact (meets_testUnitReady usb.bulk).weaken
      (fun _ hp => Since.imp hp fun _ hnew => hnew.harmless_of_nil rfl)
      (fun _ _ hp => Since.imp hp fun _ => delivered_of_harmless)
      fun _ _ hp => ⟨trivial, Since.imp hp fun _ => delivered_of_harmless⟩
  · -- a local failure is one before I/O as long as no chunk was sent
    intro done k chunks fault x _ hdone _ _ hchunks
    unfold localFailure
    split_ifs with hzero
    · obtain rfl := hchunks hzero
      exact hdone.imp fun _ hnew => hnew.harmless_of_nil rfl
    · exact hdone.failed _

/-- **A write, in the log.** One that fails before I/O has sent nothing that changes the device. One
that is confirmed has sent the bytes of its file, every chunk of them acknowledged. -/
theorem meets_writePartition (partition : String) (beginSector : ℕ) (image : ValidatedImage) :
    Meets (Rested old) (writePartition (watched usb) port partition beginSector image)
      (fun receipt n => receipt.semanticSuccess = true ∧
        Since old (Delivered beginSector (padded image.file.contents)) n.world)
      fun e n => Failed old e n.world := by
  refine meets_ite (fun _ => meets_fail fun _ hn => Since.refused hn _) fun _ => ?_
  refine (meets_lift_mapError.failing fun e _ hn => Since.refused hn e).bind fun reader => ?_
  rintro n ⟨hreader, hn⟩
  obtain rfl := prepareForWrite_eq_ok hreader
  revert n
  refine meets_ite (fun _ => meets_fail fun _ hn => Since.refused hn _) fun _ => ?_
  refine meets_ite (fun _ => meets_fail fun _ hn => Since.refused hn _) fun _ => ?_
  refine meets_ite (fun _ => meets_fail fun _ hn => Since.refused hn _) fun hfits => ?_
  refine ((meets_openInterface usb port).failing fun e _ hn => Since.refused hn e).bind fun _ => ?_
  refine meets_takeFirstTag.bind fun firstTag => ?_
  have hsend := @meets_sendImage _ old usb image.staged beginSector image.file.contents
    (show beginSector + ceilDiv image.staged.sizeBytes.toNat 512 ≤ 2 ^ 32 by omega)
  refine Meets.bind (Q := fun _ n =>
      Since old (Delivered beginSector (padded image.file.contents)) n.world)
    (Meets.within fun n hn => hsend.pre ?_) ?_
  · rintro _ rfl
    exact ⟨hn, rfl, .inl trivial⟩
  · rintro ⟨payloadDigest, chunks, started⟩ n hn
    exact ⟨rfl, hn⟩

theorem meets_resetDevice (bulk : BulkIo ω) :
    Meets (Still old) (resetDevice (watchedBulk bulk))
      (fun _ p => Since old (fun _ => True) p.io) fun _ p => Since old (fun _ => True) p.io := by
  refine Meets.pre ?_ fun p hp => Since.imp hp fun _ _ => trivial
  refine (meets_takeTag).bind fun tag => ?_
  refine (meets_transfer (ends_logged fun _ _ _ => trivial)).bind fun _ => ?_
  exact (meets_transfer (ends_logged fun _ _ _ => trivial)).bind fun csw => lift_keeps

/-- A reset that fails before I/O has sent nothing that changes the device. -/
theorem meets_resetLoader :
    Meets (Rested old) (resetLoader (watched usb) port)
      (fun receipt n => receipt.semanticSuccess = true ∧ Since old (fun _ => True) n.world)
      fun e n => Failed old e n.world := by
  refine ((meets_openInterface usb port).failing fun e _ hn => Since.refused hn e).bind fun _ => ?_
  refine meets_takeFirstTag.bind fun firstTag => ?_
  refine Meets.bind
    (meets_session ?_) fun started n hn => ⟨rfl, hn⟩
  refine (Meets.mapError ((meets_testUnitReady usb.bulk).weaken
    (fun _ hp => hp) (fun _ _ hp => hp) fun _ _ hp => Since.refused hp _)).bind fun _ => ?_
  refine meets_getState.bind fun started => ?_
  have hreset := Meets.mapError (f := fun e => RockUsbPortFailure.afterIo (.protocol e))
    (R := fun e p => Failed old e p.io) ((@meets_resetDevice _ old usb.bulk).weaken
      (fun _ hp => hp) (fun _ _ hp => hp) fun _ _ hp => Since.failed hp _)
  exact (hreset.pre (fun _ hp => hp.2)).bind fun _ =>
    pure_keeps

end Writes

end ArkForge.Daemon.UsbLog
