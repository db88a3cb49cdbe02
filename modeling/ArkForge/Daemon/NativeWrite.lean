import ArkForge.Daemon.Streaming
import ArkForge.Provider.SectorProtocol

/-! # What native writes leave on the medium

The native port, on a device that is a sector array. A write that succeeds leaves the image and the
zeros of its last sector, and nothing else is changed. A write that fails, wherever it does, leaves
some of the first sectors of that. -/

namespace ArkForge.Daemon.NativeWrite

open Lib.Fallible Lib.Storage
open Core.Digest (Sha256 Sha256Digest sha256)
open Provider.RockUsb Provider.Device
open Provider.Chunking Provider.SectorArray Provider.SectorProtocol
open NativePort Streaming

variable {m : Medium} {t : Prop}

/-! ### A whole write -/

/-- A transfer over a device at rest and a file that will deliver `contents`. -/
def Streams (m : Medium) (contents : List UInt8) (t : Prop) (x : Transfer SectorDevice) : Prop :=
  At .idle m t x.protocol ∧ Delivers contents t x.reader

theorem meets_testUnitReady :
    Meets (At .idle m t) (testUnitReady SectorDevice.bulk) (fun _ => At .idle m t)
      fun _ p => t ∧ At .idle m t p :=
  (meets_executeIn TEST_UNIT_READY 0 0 0 6).bind fun _ => meets_pure fun _ hp => hp.2

/-- The image is as it was staged. -/
def Intact (staged : StagedImage) (contents : List UInt8) : Prop :=
  contents.length = staged.sizeBytes.toNat ∧ sha256 contents = staged.sha256

/-- **A whole image is sent.** -/
theorem meets_sendImage {usb : NativeUsb SectorDevice} (hbulk : usb.bulk = SectorDevice.bulk)
    {staged : StagedImage} {beginSector : ℕ} {contents : List UInt8}
    (hrange : beginSector + ceilDiv staged.sizeBytes.toNat LOGICAL_BLOCK_BYTES ≤ 2 ^ 32)
    (ht : t ∨ Intact staged contents) :
    Meets (Streams m contents t) (sendImage usb staged beginSector)
      (fun r x => Intact staged contents ∧ r.1 = sha256 contents ∧
        x.protocol.io.medium = m.write (LOGICAL_BLOCK_BYTES * beginSector) (padded contents))
      fun _ x => Partly beginSector (padded (contents.take staged.sizeBytes.toNat)) m t
        x.protocol.io := by
  refine ((Streaming.meets_sendImage (hbulk ▸ takes m t beginSector _) ?_
    (fun _ _ _ _ _ ht hidle hdone hprefix _ => Partly.of_prefix ht hidle hdone hprefix)
    (fun _ _ h => h) hrange ht).pre fun x hx => ⟨?_, hx.2⟩).post fun _ x h => ?_
  · rw [hbulk]
    exact meets_testUnitReady
  · rw [Medium.write_nil]
    exact hx.1
  · exact ⟨h.1, h.2.1, h.2.2.medium⟩

/-- A claim changes nothing on the medium, and a claimed device waits for a command. -/
def Claims (x : Exec SectorDevice String Unit) : Prop :=
  ∀ m, Meets (fun d => d.medium = m) x (fun _ d => d.medium = m ∧ d.stage = .idle)
    fun _ d => d.medium = m

/-- The stack reaches a sector array. -/
structure Attached (usb : NativeUsb SectorDevice) : Prop where
  bulk : usb.bulk = SectorDevice.bulk
  openUnique : ∀ selector, Claims (usb.openUnique selector)
  openExact : ∀ selector target, Claims (usb.openExact selector target)

theorem meets_openInterface {usb : NativeUsb SectorDevice} (h : Attached usb)
    (port : NativeRockUsbPort) :
    Meets (fun n => n.world.medium = m) (openInterface usb port)
      (fun _ n => n.world.medium = m ∧ n.world.stage = .idle) fun _ n => n.world.medium = m := by
  have hclaim : ∀ x, Claims x → Meets (fun n => n.world.medium = m) (substrate x)
      (fun _ n => n.world.medium = m ∧ n.world.stage = .idle) fun _ n => n.world.medium = m := by
    intro x hx
    refine Meets.mapError (Meets.within fun n hn => ?_)
    exact (hx m).pre (fun d hd => hd ▸ hn)
  unfold openInterface
  split
  · exact hclaim _ (h.openExact _ _)
  · exact hclaim _ (h.openUnique _)

section Image

variable {usb : NativeUsb SectorDevice} {port : NativeRockUsbPort}
variable {partition : String} {beginSector : ℕ} {image : ValidatedImage}

/-- The receipt of a write that has left the whole image. -/
def Confirmed (image : ValidatedImage) (beginSector : ℕ) (m : Medium)
    (receipt : RockUsbMutationReceipt) (n : Native SectorDevice) : Prop :=
  receipt.semanticSuccess = true ∧ Intact image.staged image.file.contents ∧
    (∃ progress, receipt.progress = some progress ∧
      progress.payloadDigest = sha256 image.file.contents) ∧
    n.world.medium = m.write (LOGICAL_BLOCK_BYTES * beginSector) (padded image.file.contents)

/-- What is left of a write that has failed: some of its first sectors. Writes fail only if `t`
holds. -/
def Interrupted (image : ValidatedImage) (beginSector : ℕ) (m : Medium) (t : Prop)
    (n : Native SectorDevice) : Prop :=
  t ∧ ∃ k, n.world.medium = m.write (LOGICAL_BLOCK_BYTES * beginSector)
    ((padded (image.file.contents.take image.staged.sizeBytes.toNat)).take (LOGICAL_BLOCK_BYTES * k))

theorem Interrupted.none {n : Native SectorDevice} (ht : t) (h : n.world.medium = m) :
    Interrupted image beginSector m t n := ⟨ht, 0, by simpa using h⟩

/-- The session of a write, once the interface is claimed and the file is at its start. -/
theorem meets_session (hbulk : usb.bulk = SectorDevice.bulk) (image : ValidatedImage) {beginSector : ℕ}
    (hrange : beginSector + ceilDiv image.staged.sizeBytes.toNat LOGICAL_BLOCK_BYTES ≤ 2 ^ 32)
    (ht : t ∨ (Intact image.staged image.file.contents ∧ Readable image.file.reads))
    (firstTag : UInt32) :
    Meets (fun n => Stands .idle m t n.world)
      (transferSession firstTag ⟨image.file.contents, image.file.reads⟩
        (sendImage usb image.staged beginSector))
      (fun r n => Intact image.staged image.file.contents ∧ r.1 = sha256 image.file.contents ∧
        n.world.medium = m.write (LOGICAL_BLOCK_BYTES * beginSector) (padded image.file.contents))
      fun _ => Interrupted image beginSector m t := by
  refine Meets.within fun n hn => ?_
  have hsend := meets_sendImage (m := m) hbulk hrange (ht.imp_right And.left)
  refine hsend.weaken ?_ (fun _ _ h => h) fun _ x h => ⟨h.1, h.2.imp fun k hk => hk.medium⟩
  rintro _ rfl
  exact ⟨hn, rfl, ht.imp_right And.right⟩

/-- Nothing stands in the way of a write: its arguments are in order, the file is as it was staged,
the interface is granted and no transfer will go wrong. -/
structure Undisturbed (usb : NativeUsb SectorDevice) (port : NativeRockUsbPort) (partition : String)
    (beginSector : ℕ) (image : ValidatedImage) (n : Native SectorDevice) : Prop where
  named : partition ≠ ""
  prepared : ∃ reader, image.prepareForWrite = .ok reader
  intact : Intact image.staged image.file.contents
  readable : Readable image.file.reads
  nonempty : image.staged.sizeBytes.toNat ≠ 0
  range : beginSector + ceilDiv image.staged.sizeBytes.toNat LOGICAL_BLOCK_BYTES ≤ 2 ^ 32
  granted : (openInterface usb port n).1 = .ok ()
  quiet : Quiet (openInterface usb port n).2.world.mishaps

/-- The medium before a write, which is undisturbed unless `t` holds. -/
def Begins (usb : NativeUsb SectorDevice) (port : NativeRockUsbPort) (partition : String)
    (beginSector : ℕ) (image : ValidatedImage) (m : Medium) (t : Prop) (n : Native SectorDevice) :
    Prop :=
  n.world.medium = m ∧ (t ∨ Undisturbed usb port partition beginSector image n)

/-- A refusal leaves the medium as it was, and none happens undisturbed. -/
theorem meets_refusal {c : Prop} (hc : ∀ n, Undisturbed usb port partition beginSector image n → ¬ c)
    (h : c) (failure : RockUsbPortFailure) {Q : RockUsbMutationReceipt → Native SectorDevice → Prop} :
    Meets (Begins usb port partition beginSector image m t) (Exec.fail failure) Q
      fun _ => Interrupted image beginSector m t :=
  meets_fail fun n hn => .none (hn.2.resolve_right fun hgood => hc n hgood h) hn.1

theorem meets_claim (hattached : Attached usb) :
    Meets (Begins usb port partition beginSector image m t) (openInterface usb port)
      (fun _ n => Stands .idle m t n.world ∧
        (t ∨ (Intact image.staged image.file.contents ∧ Readable image.file.reads)))
      fun _ => Interrupted image beginSector m t := by
  have hopen := meets_openInterface (m := m) hattached port
  refine meets_iff.mpr ⟨fun n hn _ n' hok => ?_, fun n hn e n' herror => ?_⟩
  · obtain ⟨hmedium, hidle⟩ := hopen.ok hn.1 hok
    refine ⟨⟨hidle, hmedium, hn.2.imp_right fun h => ?_⟩,
      hn.2.imp_right fun h => ⟨h.intact, h.readable⟩⟩
    have hquiet := h.quiet
    rwa [hok] at hquiet
  · refine .none (hn.2.resolve_right fun h => ?_) (hopen.error hn.1 herror)
    have hgranted := h.granted
    rw [herror] at hgranted
    cases hgranted

/-- **A write leaves the whole image, or some of its first sectors.** -/
theorem meets_writePartition (hattached : Attached usb) (port : NativeRockUsbPort) (partition : String)
    (beginSector : ℕ) (image : ValidatedImage) :
    Meets (Begins usb port partition beginSector image m t)
      (writePartition usb port partition beginSector image)
      (Confirmed image beginSector m) fun _ => Interrupted image beginSector m t := by
  refine meets_ite (fun h => meets_refusal (fun n hgood => hgood.named) h _) fun _ => ?_
  refine meets_lift_bind (fun reader hreader => ?_) fun e herror n hn => ?_
  rotate_left
  · refine .none (hn.2.resolve_right fun hgood => ?_) hn.1
    obtain ⟨reader, hreader⟩ := hgood.prepared
    rw [hreader] at herror
    cases herror
  obtain rfl := prepareForWrite_eq_ok (Lib.Result.mapError_eq_ok.mp hreader)
  refine meets_ite (fun h => meets_refusal (fun n hgood => hgood.nonempty) h _) fun hsize => ?_
  have hpos : 0 < ceilDiv image.staged.sizeBytes.toNat 512 := ceilDiv_pos (by omega)
  have hrange : ∀ n, Undisturbed usb port partition beginSector image n →
      beginSector + ceilDiv image.staged.sizeBytes.toNat 512 ≤ 2 ^ 32 := fun n hgood => hgood.range
  refine meets_ite (fun h => meets_refusal (fun n hgood => ?_) h _) fun _ => ?_
  · have := hrange n hgood
    omega
  refine meets_ite (fun h => meets_refusal (fun n hgood => ?_) h _) fun hfits => ?_
  · have := hrange n hgood
    omega
  refine (meets_claim hattached).bind fun _ => ?_
  refine Meets.bind (Q := fun _ (n : Native SectorDevice) => Stands .idle m t n.world ∧
    (t ∨ (Intact image.staged image.file.contents ∧ Readable image.file.reads)))
    (fun n hn => hn) fun firstTag n hn => ?_
  have hsession := meets_session (m := m) hattached.bulk image
    (show beginSector + ceilDiv image.staged.sizeBytes.toNat 512 ≤ 2 ^ 32 by omega) hn.2 firstTag
  refine (hsession.bind ?_) n hn.1
  rintro ⟨payloadDigest, chunks, started⟩ n' ⟨hintact, hdigest, hmedium⟩
  exact ⟨rfl, hintact, ⟨_, rfl, hdigest⟩, hmedium⟩

/-! ### Sectors on the medium -/

/-- The sectors from `beginSector` on hold the first bytes of the image, with zeros behind its end,
and every other byte is as it was. -/
def Imaged (before after : Medium) (beginSector sectors : ℕ) (image : List UInt8) : Prop :=
  (∀ i < LOGICAL_BLOCK_BYTES * sectors, after (LOGICAL_BLOCK_BYTES * beginSector + i) =
    image.getD i 0) ∧
    ∀ i, i < LOGICAL_BLOCK_BYTES * beginSector ∨ LOGICAL_BLOCK_BYTES * (beginSector + sectors) ≤ i →
      after i = before i

theorem exists_imaged (m : Medium) (beginSector k : ℕ) (bytes : List UInt8) :
    Imaged m (m.write (LOGICAL_BLOCK_BYTES * beginSector)
        ((padded bytes).take (LOGICAL_BLOCK_BYTES * k))) beginSector
      (min k (ceilDiv bytes.length LOGICAL_BLOCK_BYTES)) bytes := by
  have hlength : ((padded bytes).take (LOGICAL_BLOCK_BYTES * k)).length =
      LOGICAL_BLOCK_BYTES * min k (ceilDiv bytes.length LOGICAL_BLOCK_BYTES) := by
    rw [List.length_take, length_padded, Nat.mul_min_mul_left]
  constructor
  · intro i hi
    rw [← hlength] at hi
    rw [Medium.write_of_inside hi, List.get_eq_getElem, List.getElem_take]
    exact getElem_padded bytes _
  · intro i hi
    refine Medium.write_of_outside ?_
    rw [hlength, ← Nat.mul_add]
    exact hi

end Image

/-- **Native writes are exact on the medium.** A write that is confirmed has left the image, with
zeros up to the end of its last sector, and nothing else is changed; its receipt has the digest of the
image. A write that fails has left some of the first sectors of that. Where nothing is in the way a
write is confirmed. A read of sectors gives the bytes of its range, in however many transfers. -/
theorem native_writes_exact (usb : NativeUsb SectorDevice) (hattached : Attached usb)
    (port : NativeRockUsbPort) (partition : String) (beginSector : ℕ) (image : ValidatedImage)
    (n : Native SectorDevice) :
    (∀ receipt n', writePartition usb port partition beginSector image n = (.ok receipt, n') →
      receipt.semanticSuccess = true ∧
        image.file.contents.length = image.staged.sizeBytes.toNat ∧
        Imaged n.world.medium n'.world.medium beginSector
          (ceilDiv image.file.contents.length LOGICAL_BLOCK_BYTES) image.file.contents ∧
        ∃ progress, receipt.progress = some progress ∧
          progress.payloadDigest = sha256 image.file.contents) ∧
    (∀ failure n', writePartition usb port partition beginSector image n = (.error failure, n') →
      ∃ k ≤ ceilDiv image.staged.sizeBytes.toNat LOGICAL_BLOCK_BYTES,
        Imaged n.world.medium n'.world.medium beginSector k
          (image.file.contents.take image.staged.sizeBytes.toNat)) ∧
    (Undisturbed usb port partition beginSector image n →
      ∃ receipt n', writePartition usb port partition beginSector image n = (.ok receipt, n')) ∧
    ∀ (p : RockUsbProtocol SectorDevice) (readSector sectors : ℕ), p.io.stage = .idle →
      (∀ bytes p', readLba usb.bulk readSector sectors p = (.ok bytes, p') →
        bytes = p.io.medium.read (LOGICAL_BLOCK_BYTES * readSector) (LOGICAL_BLOCK_BYTES * sectors) ∧
          p'.io.medium = p.io.medium) ∧
      (Quiet p.io.mishaps → readSector < 2 ^ 32 → readSector + sectors ≤ 2 ^ 32 →
        ∃ bytes p', readLba usb.bulk readSector sectors p = (.ok bytes, p')) := by
  refine ⟨fun receipt n' hok => ?_, fun failure n' herror => ?_, fun hgood => ?_,
    fun p readSector sectors hidle => ⟨fun bytes p' hok => ?_, fun hquiet hlow hhigh => ?_⟩⟩
  · have hwrite := meets_writePartition (m := n.world.medium) (t := True) hattached port partition
      beginSector image
    obtain ⟨hsuccess, hintact, hprogress, hmedium⟩ := hwrite.ok ⟨rfl, .inl trivial⟩ hok
    refine ⟨hsuccess, hintact.1, ?_, hprogress⟩
    have himaged := exists_imaged n.world.medium beginSector
      (ceilDiv image.file.contents.length LOGICAL_BLOCK_BYTES) image.file.contents
    rwa [Nat.min_self, ← length_padded, List.take_length, ← hmedium] at himaged
  · have hwrite := meets_writePartition (m := n.world.medium) (t := True) hattached port partition
      beginSector image
    obtain ⟨-, k, hmedium⟩ := hwrite.error ⟨rfl, .inl trivial⟩ herror
    refine ⟨_, ?_, hmedium ▸ exists_imaged _ beginSector k _⟩
    refine (Nat.min_le_right _ _).trans (ceilDiv_le ?_)
    exact (List.length_take_le _ _).trans (le_ceilDiv_mul _)
  · have hwrite := meets_writePartition (m := n.world.medium) (t := False) hattached port partition
      beginSector image
    rcases hresult : writePartition usb port partition beginSector image n with ⟨e | receipt, n'⟩
    · exact (hwrite.error ⟨rfl, .inr hgood⟩ hresult).1.elim
    · exact ⟨receipt, n', rfl⟩
  · rw [hattached.bulk] at hok
    have hread := meets_readLba (m := p.io.medium) readSector sectors (.inl trivial)
    obtain ⟨hbytes, hafter⟩ := hread.ok ⟨hidle, rfl, .inl trivial⟩ hok
    exact ⟨hbytes, hafter.medium⟩
  · have hread := meets_readLba (m := p.io.medium) (t := False) readSector sectors (.inr ⟨hlow, hhigh⟩)
    rw [hattached.bulk]
    rcases hresult : readLba SectorDevice.bulk readSector sectors p with ⟨e | bytes, p'⟩
    · exact (hread.error ⟨hidle, rfl, .inr hquiet⟩ hresult).1.elim
    · exact ⟨bytes, p', rfl⟩

/-- A stack that grants every claim. -/
def grantingUsb : NativeUsb SectorDevice where
  enumerate := pure []
  openUnique := fun _ => Exec.modifyState fun d => { d with stage := .idle }
  openExact := fun _ _ => Exec.modifyState fun d => { d with stage := .idle }
  bulk := SectorDevice.bulk
  now := fun _ => 0

/-- The staged file of one byte. -/
def oneByteImage : ValidatedImage :=
  let fingerprint : StagedFileFingerprint := {
    sizeBytes := 1, readonly := true, device := 0, inode := 0, mode := 0o444, links := 1
    modified := (0, 0), changed := (0, 0) }
  { staged := { member := "a.img", path := "a.img", sizeBytes := 1, sha256 := sha256 [7] }
    file := {
      before := .ok fingerprint, hashed := .ok [7], hashBackend := "software", after := .ok fingerprint
      current := .ok fingerprint, rewound := .ok (), contents := [7], reads := [] }
    fingerprint
    validationDurationMs := 0
    validationBackend := "software" }

/-- The byte of the file is written to sector 3, and the rest of the sector is zero. -/
theorem native_writes_exact_one_byte :
    Attached grantingUsb ∧ ∃ receipt n', writePartition grantingUsb
        ⟨UsbInterfaceSelector.dayu200Loader, none⟩ "a" 3 oneByteImage
        ⟨⟨fun _ => 9, .idle, []⟩, 0⟩ = (.ok receipt, n') ∧
      n'.world.medium 1536 = 7 ∧ n'.world.medium 1537 = 0 ∧ n'.world.medium 2048 = 9 := by
  have hattached : Attached grantingUsb :=
    ⟨rfl, fun _ _ _ hd => ⟨hd, rfl⟩, fun _ _ _ _ hd => ⟨hd, rfl⟩⟩
  refine ⟨hattached, ?_⟩
  obtain ⟨hexact, -, hsucceeds, -⟩ := native_writes_exact grantingUsb hattached
    ⟨UsbInterfaceSelector.dayu200Loader, none⟩ "a" 3 oneByteImage ⟨⟨fun _ => 9, .idle, []⟩, 0⟩
  obtain ⟨receipt, n', hok⟩ := hsucceeds {
    named := by decide
    prepared := ⟨_, rfl⟩
    intact := ⟨rfl, rfl⟩
    readable := fun r hr => absurd hr List.not_mem_nil
    nonempty := by decide
    range := by decide
    granted := rfl
    quiet := fun r hr => absurd hr List.not_mem_nil }
  obtain ⟨-, -, ⟨hinside, houtside⟩, -⟩ := hexact receipt n' hok
  refine ⟨receipt, n', hok, ?_, ?_, ?_⟩
  · exact hinside 0 (by decide)
  · exact hinside 1 (by decide)
  · exact houtside 2048 (.inr (by decide))

end ArkForge.Daemon.NativeWrite
