import ArkForge.Provider.Chunking
import ArkForge.Provider.SectorArray

/-! # The protocol on a sector array

What the commands of the protocol engine do to a device that is a sector array. A read gives the bytes
of its range, however it is split into transfers. A write leaves its bytes, filled up to whole
sectors; one that fails leaves some of the first sectors of them. -/

namespace ArkForge.Provider.SectorProtocol

open Lib.Fallible Lib.Storage
open RockUsb SectorArray Chunking

variable {m : Medium} {t : Prop} {c : Command}

/-- The engine, over a device that stands so. -/
abbrev At (st : Stage) (m : Medium) (t : Prop) (p : RockUsbProtocol SectorDevice) : Prop :=
  Stands st m t p.io

/-! ### One command -/

/-- The host goes on exactly when the device has acknowledged. -/
theorem meets_validateCsw {tag : UInt32} (htag : c.tag = tag.toNat) {csw : List UInt8}
    {P R : RockUsbProtocol SectorDevice → Prop} :
    Meets (fun p => (Acknowledges c csw ∧ P p) ∨ (¬ Acknowledges c csw ∧ R p))
      (Exec.lift (validateCsw csw tag)) (fun _ => P) fun _ => R := by
  refine meets_lift (fun _ hok p hp => ?_) fun e herror p hp => ?_
  · have hack := (validateCsw_eq_ok htag).mp hok
    exact (hp.resolve_right fun hne => hne.1 hack).2
  · refine (hp.resolve_left fun hok => ?_).2
    rw [(validateCsw_eq_ok htag).mpr hok.1] at herror
    cases herror

/-- A command with data for the device: it is carried out, or some of its first sectors are. -/
theorem meets_executeOut (opcode : UInt8) (address : UInt32) (sectors : UInt16) (data : List UInt8)
    (commandLength : UInt8) (hlen : data.length < 2 ^ 32) :
    Meets (At .idle m t) (executeOut SectorDevice.bulk opcode address sectors data commandLength)
      (fun _ => At .idle (carryOut opcode address.toNat data sectors.toNat m) t)
      fun _ p => Broken opcode address.toNat data m t p.io := by
  have hbytes : (UInt32.ofNat data.length).toNat = data.length := UInt32.toNat_ofNat_of_lt' hlen
  unfold executeOut
  rw [if_neg (by omega)]
  refine meets_takeTag.bind fun tag => ?_
  have hcommand := meets_transfer (meets_command (m := m) (t := t) tag opcode address sectors
    (UInt32.ofNat data.length) commandLength false rfl)
  refine (hcommand.failing fun _ p hp => hp.2.broken hp.1 _ _ _).bind fun _ => ?_
  have hend := (meets_transfer (meets_status (m := m) (t := t)
    (c := command tag opcode address sectors (UInt32.ofNat data.length) false) tag.toNat_lt
    data (.inl rfl))).bind fun csw => (meets_validateCsw rfl).post (fun _ _ h => h.2)
  by_cases hnil : data = []
  · subst hnil
    exact hend
  · rw [if_neg (by simpa [hbytes] using hnil), if_neg hnil]
    exact (meets_transfer (meets_dataOut rfl hbytes.symm)).bind fun _ => hend

/-- A command that asks for data: the medium stays, and what it gives is the device's answer. -/
theorem meets_executeIn (opcode : UInt8) (address : UInt32) (sectors : UInt16)
    (transferBytes : UInt32) (commandLength : UInt8) :
    Meets (At .idle m t)
      (executeIn SectorDevice.bulk opcode address sectors transferBytes commandLength)
      (fun bytes p => (transferBytes ≠ 0 → bytes = fit transferBytes.toNat
          (answerData (command 0 opcode address sectors transferBytes true) m)) ∧ At .idle m t p)
      fun _ p => t ∧ At .idle m t p := by
  refine meets_takeTag.bind fun tag => ?_
  have hcommand := meets_transfer (meets_command (m := m) (t := t) tag opcode address sectors
    transferBytes commandLength true rfl)
  refine hcommand.bind fun _ => ?_
  have hend : ∀ (data : List UInt8) (sound : Bool), (sound = true ∨ t) → Meets
      (At (.status (command tag opcode address sectors transferBytes true) [] sound) m t)
      (do
        let csw ← transfer (SectorDevice.bulk.readExact CSW_BYTES)
        Exec.lift (validateCsw csw tag)
        return data)
      (fun bytes p => (bytes = data ∧ sound = true) ∧ At .idle m t p)
      fun _ p => t ∧ At .idle m t p := by
    intro data sound hsound
    have hstatus := meets_transfer (meets_status (m := m)
      (c := command tag opcode address sectors transferBytes true) tag.toNat_lt [] hsound)
    simp only [carryOut_nil, Broken, exists_const] at hstatus
    exact hstatus.bind fun csw => (meets_validateCsw rfl).bind fun _ =>
      meets_pure fun p hp => ⟨⟨rfl, hp.1⟩, hp.2⟩
  by_cases hzero : transferBytes = 0
  · subst hzero
    exact (hend [] true (.inl rfl)).post (fun _ _ h => ⟨fun hne => absurd rfl hne, h.2⟩)
  · rw [if_neg hzero, if_neg (by simpa [← UInt32.toNat_inj] using hzero)]
    have hdata := meets_transfer (meets_dataIn (m := m) (t := t)
      (c := command tag opcode address sectors transferBytes true) transferBytes.toNat)
    simp only [carryOut_nil, Broken, exists_const] at hdata
    refine hdata.bind fun data p hp => ?_
    rcases hp with ⟨hanswer, hp⟩ | ⟨ht, hp⟩
    · exact ((hend data true (.inl rfl)).post
        (fun bytes _ h => ⟨fun _ => h.1.1.trans hanswer, h.2⟩)) p hp
    · exact ((hend data false (.inr ht)).post (fun bytes _ h => by simp at h)) p hp

/-! ### Reading -/

variable {position : ℕ}

theorem meets_readChunk {sectors : ℕ} (hposition : position < 2 ^ 32) (hpos : 0 < sectors)
    (hsectors : sectors ≤ ROCKUSB_TRANSFER_CHUNK_SECTORS) :
    Meets (At .idle m t)
      (executeIn SectorDevice.bulk READ_LBA (UInt32.ofNat position) (UInt16.ofNat sectors)
        (UInt32.ofNat (sectors * LOGICAL_BLOCK_BYTES)) 10)
      (fun bytes p => bytes = m.read (LOGICAL_BLOCK_BYTES * position) (LOGICAL_BLOCK_BYTES * sectors) ∧
        At .idle m t p)
      fun _ p => t ∧ At .idle m t p := by
  obtain ⟨haddress, hcount, hfits⟩ := chunk_fits hposition hsectors
  have hbytes :
      (UInt32.ofNat (sectors * LOGICAL_BLOCK_BYTES)).toNat = LOGICAL_BLOCK_BYTES * sectors := by
    rw [Nat.mul_comm]
    exact UInt32.toNat_ofNat_of_lt' hfits
  have hne : UInt32.ofNat (sectors * LOGICAL_BLOCK_BYTES) ≠ 0 := by
    intro h
    rw [← UInt32.toNat_inj, hbytes] at h
    exact (Nat.mul_pos (by decide) hpos).ne' h
  refine (meets_executeIn READ_LBA (UInt32.ofNat position) (UInt16.ofNat sectors)
    (UInt32.ofNat (sectors * LOGICAL_BLOCK_BYTES)) 10).post (fun bytes p h => ⟨?_, h.2⟩)
  rw [h.1 hne, answerData]
  simp only [haddress, hcount, hbytes]
  exact fit_of_length (Medium.length_read _ _ _)

theorem meets_readChunks (remaining : ℕ) : ∀ position : ℕ, position + remaining ≤ 2 ^ 32 →
    Meets (At .idle m t) (readChunks SectorDevice.bulk position remaining)
      (fun bytes p =>
        bytes = m.read (LOGICAL_BLOCK_BYTES * position) (LOGICAL_BLOCK_BYTES * remaining) ∧
          At .idle m t p)
      fun _ p => t ∧ At .idle m t p := by
  induction remaining using Nat.strong_induction_on with
  | _ remaining ih =>
    intro position hrange
    rw [readChunks]
    by_cases hzero : remaining = 0
    · rw [hzero]
      exact meets_pure fun p hp => ⟨rfl, hp⟩
    · rw [if_neg hzero]
      have hchunk : 0 < ROCKUSB_TRANSFER_CHUNK_SECTORS := by decide
      obtain ⟨chunk, hdef⟩ : ∃ chunk, chunk = min remaining ROCKUSB_TRANSFER_CHUNK_SECTORS := ⟨_, rfl⟩
      simp only [← hdef]
      refine (meets_readChunk (by omega) (by omega) (by omega)).bind fun bytes p hp => ?_
      have hrest := (ih (remaining - chunk) (by omega) (position + chunk) (by omega)).bind
        (f := fun rest => pure (bytes ++ rest)) (S := fun all q =>
          all = m.read (LOGICAL_BLOCK_BYTES * position) (LOGICAL_BLOCK_BYTES * remaining) ∧
            At .idle m t q)
        fun rest => meets_pure fun q hq => ⟨?_, hq.2⟩
      · exact hrest p hp.2
      · have hsplit : LOGICAL_BLOCK_BYTES * remaining =
            LOGICAL_BLOCK_BYTES * chunk + LOGICAL_BLOCK_BYTES * (remaining - chunk) := by
          rw [← Nat.mul_add, Nat.add_sub_cancel' (by omega)]
        rw [hp.1, hq.1, hsplit, Medium.read_add, Nat.mul_add]

/-- A read of a range gives its bytes, whatever the transfers. -/
theorem meets_readLba (beginSector sectors : ℕ)
    (ht : t ∨ (beginSector < 2 ^ 32 ∧ beginSector + sectors ≤ 2 ^ 32)) :
    Meets (At .idle m t) (readLba SectorDevice.bulk beginSector sectors)
      (fun bytes p =>
        bytes = m.read (LOGICAL_BLOCK_BYTES * beginSector) (LOGICAL_BLOCK_BYTES * sectors) ∧
          At .idle m t p)
      fun _ p => t ∧ At .idle m t p := by
  unfold readLba
  by_cases hrange : beginSector < 2 ^ 32 ∧ beginSector + sectors ≤ 2 ^ 32
  · have hfits : sectors * LOGICAL_BLOCK_BYTES < 2 ^ 64 := by
      show sectors * 512 < 2 ^ 64
      omega
    rw [validateSectorRange_eq_ok.mpr hrange, if_neg (by omega)]
    exact meets_readChunks sectors beginSector hrange.2
  · have htrue := ht.resolve_right hrange
    exact meets_lift_bind (fun _ hok => absurd (validateSectorRange_eq_ok.mp hok) hrange)
      fun _ _ _ hp => ⟨htrue, hp⟩

/-! ### Writing -/

/-- Of the data that go to the sectors from `position` on, some first ones have been written. -/
def Partly (position : ℕ) (data : List UInt8) (m : Medium) (t : Prop) (d : SectorDevice) : Prop :=
  t ∧ ∃ k, Stands .idle
    (m.write (LOGICAL_BLOCK_BYTES * position) (data.take (LOGICAL_BLOCK_BYTES * k))) t d

variable {data : List UInt8}

section Partly

variable {position k : ℕ} {whole rest : List UInt8} {d : SectorDevice}

/-- The writing has stopped within the first part of the data. -/
theorem Partly.append_left (hwhole : whole.length = LOGICAL_BLOCK_BYTES * k)
    (h : Partly position whole m t d) : Partly position (whole ++ rest) m t d := by
  obtain ⟨ht, j, hstands⟩ := h
  refine ⟨ht, min j k, ?_⟩
  have htake : (whole ++ rest).take (LOGICAL_BLOCK_BYTES * min j k) =
      whole.take (LOGICAL_BLOCK_BYTES * j) := by
    rw [← Nat.mul_min_mul_left, ← hwhole, List.take_append_of_le_length (by omega),
      ← List.take_take, List.take_length]
  rwa [htake]

/-- The writing has stopped within the second part, with the first one written. -/
theorem Partly.append_right (hwhole : whole.length = LOGICAL_BLOCK_BYTES * k)
    (h : Partly (position + k) rest (m.write (LOGICAL_BLOCK_BYTES * position) whole) t d) :
    Partly position (whole ++ rest) m t d := by
  obtain ⟨ht, j, hstands⟩ := h
  refine ⟨ht, k + j, ?_⟩
  rwa [Nat.mul_add, ← hwhole, List.take_length_add_append, ← Medium.write_append, hwhole,
    ← Nat.mul_add]

theorem Partly.of_prefix (ht : t)
    (h : Stands .idle (m.write (LOGICAL_BLOCK_BYTES * position) whole) t d)
    (hwhole : whole.length = LOGICAL_BLOCK_BYTES * k) ( hprefix : whole <+: data) :
    Partly position data m t d := by
  obtain ⟨rest, rfl⟩ := hprefix
  have hfirst : Partly position whole m t d := ⟨ht, k, by rwa [← hwhole, List.take_length]⟩
  exact hfirst.append_left hwhole

end Partly

theorem meets_writeChunk {sectors : ℕ} (hposition : position < 2 ^ 32)
    (hsectors : sectors ≤ ROCKUSB_TRANSFER_CHUNK_SECTORS)
    (hlen : data.length = LOGICAL_BLOCK_BYTES * sectors) : Meets (At .idle m t)
      (executeOut SectorDevice.bulk WRITE_LBA (UInt32.ofNat position) (UInt16.ofNat sectors) data 10)
      (fun _ => At .idle (m.write (LOGICAL_BLOCK_BYTES * position) data) t)
      fun _ p => Partly position data m t p.io := by
  obtain ⟨haddress, hcount, hfits⟩ := chunk_fits hposition hsectors
  have hout := meets_executeOut (m := m) (t := t) WRITE_LBA (UInt32.ofNat position)
    (UInt16.ofNat sectors) data 10 (hlen ▸ hfits)
  simp only [carryOut, haddress, hcount, ← hlen, List.take_length] at hout
  exact hout

/-- The chunks of `total`, one behind the other, leave what has gone out; when one fails, some of the
first sectors. -/
theorem takes (m : Medium) (t : Prop) (start : ℕ) (total : List UInt8) :
    Takes SectorDevice.bulk start total
      (fun done => At .idle (m.write (LOGICAL_BLOCK_BYTES * start) done) t)
      fun p => Partly start total m t p.io := by
  intro k sectors done data hdone hdata hpos hsectors hrange htotal
  obtain ⟨rest, rfl⟩ := htotal
  have hwrite := meets_writeChunk (m := m.write (LOGICAL_BLOCK_BYTES * start) done) (t := t)
    (show start + k < 2 ^ 32 by omega) hsectors hdata
  refine hwrite.weaken (fun _ hp => hp) (fun _ p hp => ?_) fun _ p hp => ?_
  · rwa [Nat.mul_add, ← hdone, Medium.write_append] at hp
  · have hwhole : (done ++ data).length = LOGICAL_BLOCK_BYTES * (k + sectors) := by
      rw [List.length_append, hdone, hdata, Nat.mul_add]
    exact (hp.append_right hdone).append_left hwhole

end ArkForge.Provider.SectorProtocol
