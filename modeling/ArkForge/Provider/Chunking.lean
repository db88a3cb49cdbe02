import ArkForge.Provider.RockUsb

/-! # How a write goes out

A write is cut into chunks of whole sectors, the last one filled up with zeros, that go out one behind
the other. What a chunk does is left open: `Takes` says how it continues what has been done, and from
that follows what all of them do. -/

namespace ArkForge.Provider.Chunking

open Lib.Fallible RockUsb

variable {ω : Type}

/-! ### Sectors -/

/-- The address and the count of a chunk fit their fields of a command, and its data fit one. -/
theorem chunk_fits {position sectors : ℕ} (hposition : position < 2 ^ 32)
    (h : sectors ≤ ROCKUSB_TRANSFER_CHUNK_SECTORS) :
    (UInt32.ofNat position).toNat = position ∧ (UInt16.ofNat sectors).toNat = sectors ∧
      LOGICAL_BLOCK_BYTES * sectors < 2 ^ 32 := by
  have hchunk : ROCKUSB_TRANSFER_CHUNK_SECTORS = 16384 := rfl
  refine ⟨UInt32.toNat_ofNat_of_lt' hposition,
    UInt16.toNat_ofNat_of_lt' (show sectors < 2 ^ 16 by omega), ?_⟩
  show 512 * sectors < 2 ^ 32
  omega

theorem validateSectorRange_eq_ok {beginSector sectors : ℕ} :
    validateSectorRange beginSector sectors = .ok () ↔
      beginSector < 2 ^ 32 ∧ beginSector + sectors ≤ 2 ^ 32 := by
  unfold validateSectorRange
  split_ifs <;> simp <;> omega

theorem ceilDiv_add_mul (n k : ℕ) :
    ceilDiv (LOGICAL_BLOCK_BYTES * k + n) LOGICAL_BLOCK_BYTES =
      k + ceilDiv n LOGICAL_BLOCK_BYTES := by
  have hblock : LOGICAL_BLOCK_BYTES = 512 := rfl
  unfold ceilDiv
  rw [hblock, Nat.mul_add_mod]
  omega

theorem le_ceilDiv_mul (n : ℕ) : n ≤ LOGICAL_BLOCK_BYTES * ceilDiv n LOGICAL_BLOCK_BYTES := by
  have hblock : LOGICAL_BLOCK_BYTES = 512 := rfl
  unfold ceilDiv
  rw [hblock]
  split_ifs <;> omega

theorem ceilDiv_le {n k : ℕ} (h : n ≤ LOGICAL_BLOCK_BYTES * k) :
    ceilDiv n LOGICAL_BLOCK_BYTES ≤ k := by
  change n ≤ 512 * k at h
  show n / 512 + (if n % 512 = 0 then 0 else 1) ≤ k
  split_ifs <;> omega

theorem ceilDiv_pos {n : ℕ} (h : 0 < n) : 0 < ceilDiv n LOGICAL_BLOCK_BYTES := by
  show 0 < n / 512 + if n % 512 = 0 then 0 else 1
  split_ifs <;> omega

@[simp] theorem padded_nil : padded [] = [] := rfl

theorem length_padded (bytes : List UInt8) :
    (padded bytes).length = LOGICAL_BLOCK_BYTES * ceilDiv bytes.length LOGICAL_BLOCK_BYTES := by
  have := le_ceilDiv_mul bytes.length
  rw [padded, List.length_append, List.length_replicate, Nat.mul_comm _ LOGICAL_BLOCK_BYTES]
  omega

theorem getElem_padded (bytes : List UInt8) {i : ℕ} (h : i < (padded bytes).length) :
    (padded bytes)[i] = bytes.getD i 0 := by
  rw [List.getD_eq_getElem?_getD]
  by_cases hi : i < bytes.length
  · rw [List.getElem?_eq_getElem hi]
    exact List.getElem_append_left hi
  · rw [List.getElem?_eq_none (by omega)]
    exact (List.getElem_append_right (by omega)).trans (List.getElem_replicate _)

/-- Whole sectors are followed by what the rest is padded to. -/
theorem padded_append {whole : List UInt8} {k : ℕ} (h : whole.length = LOGICAL_BLOCK_BYTES * k)
    (rest : List UInt8) :
    padded (whole ++ rest) = whole ++ padded rest := by
  unfold padded
  rw [List.append_assoc, List.length_append, h, ceilDiv_add_mul, Nat.add_mul,
    Nat.mul_comm k, Nat.add_sub_add_left]

theorem padded_of_whole {whole : List UInt8} {k : ℕ} (h : whole.length = LOGICAL_BLOCK_BYTES * k) :
    padded whole = whole := by
  have := padded_append h []
  rwa [padded_nil, List.append_nil] at this

/-- The first chunk of the bytes is whole sectors, or all there is. -/
theorem chunk_cases (bytes : List UInt8) :
    (bytes.take (ROCKUSB_TRANSFER_CHUNK_SECTORS * LOGICAL_BLOCK_BYTES)).length =
        LOGICAL_BLOCK_BYTES * ROCKUSB_TRANSFER_CHUNK_SECTORS ∨
      bytes.drop (ROCKUSB_TRANSFER_CHUNK_SECTORS * LOGICAL_BLOCK_BYTES) = [] := by
  rw [List.length_take, List.drop_eq_nil_iff, Nat.mul_comm]
  omega

theorem padded_eq_chunks (bytes : List UInt8) :
    padded bytes = padded (bytes.take (ROCKUSB_TRANSFER_CHUNK_SECTORS * LOGICAL_BLOCK_BYTES)) ++
      padded (bytes.drop (ROCKUSB_TRANSFER_CHUNK_SECTORS * LOGICAL_BLOCK_BYTES)) := by
  have hsplit := List.take_append_drop (ROCKUSB_TRANSFER_CHUNK_SECTORS * LOGICAL_BLOCK_BYTES) bytes
  obtain hwhole | hnil := chunk_cases bytes
  · rw [padded_of_whole hwhole, ← padded_append hwhole, hsplit]
  · rw [hnil] at hsplit ⊢
    rw [padded_nil, List.append_nil]
    rw [List.append_nil] at hsplit
    rw [hsplit]

theorem ceilDiv_eq_chunks (bytes : List UInt8) : ceilDiv bytes.length LOGICAL_BLOCK_BYTES =
    ceilDiv (bytes.take (ROCKUSB_TRANSFER_CHUNK_SECTORS * LOGICAL_BLOCK_BYTES)).length
        LOGICAL_BLOCK_BYTES +
      ceilDiv (bytes.drop (ROCKUSB_TRANSFER_CHUNK_SECTORS * LOGICAL_BLOCK_BYTES)).length
        LOGICAL_BLOCK_BYTES := by
  have hall := congrArg List.length (padded_eq_chunks bytes)
  rw [List.length_append, length_padded, length_padded, length_padded, ← Nat.mul_add] at hall
  exact Nat.eq_of_mul_eq_mul_left (by decide) hall

/-! ### Chunks -/

section Takes

variable {bulk : BulkIo ω} {start : ℕ} {total : List UInt8}
variable {W : List UInt8 → RockUsbProtocol ω → Prop} {F : RockUsbProtocol ω → Prop}

/-- The chunks of `total` are taken one behind the other from the sector `start` on: `W done` holds
once `done` has gone out, and `F` when a chunk has failed. -/
def Takes (bulk : BulkIo ω) (start : ℕ) (total : List UInt8)
    (W : List UInt8 → RockUsbProtocol ω → Prop) (F : RockUsbProtocol ω → Prop) : Prop :=
  ∀ k sectors done data, done.length = LOGICAL_BLOCK_BYTES * k →
    data.length = LOGICAL_BLOCK_BYTES * sectors → 0 < sectors →
    sectors ≤ ROCKUSB_TRANSFER_CHUNK_SECTORS → start + k + sectors ≤ 2 ^ 32 →
    done ++ data <+: total →
    Meets (W done)
      (executeOut bulk WRITE_LBA (UInt32.ofNat (start + k)) (UInt16.ofNat sectors) data 10)
      (fun _ => W (done ++ data)) fun _ => F

theorem Takes.writeChunks (h : Takes bulk start total W F) (n : ℕ) :
    ∀ (k : ℕ) (done bytes : List UInt8), bytes.length = n → done.length = LOGICAL_BLOCK_BYTES * k →
    start + k + ceilDiv n LOGICAL_BLOCK_BYTES ≤ 2 ^ 32 → done ++ padded bytes <+: total →
    Meets (W done) (writeChunks bulk (start + k) bytes)
      (fun chunks p => W (done ++ padded bytes) p ∧ (bytes ≠ [] → 0 < chunks)) fun _ => F := by
  induction n using Nat.strong_induction_on with
  | _ n ih =>
    intro k done bytes hn hdone hrange htotal
    rw [← hn] at hrange
    rw [RockUsb.writeChunks]
    by_cases hnil : bytes = []
    · rw [if_pos hnil, hnil]
      exact meets_pure fun p hp => ⟨by simpa using hp, fun h => absurd rfl h⟩
    rw [if_neg hnil]
    have hpos : 0 < bytes.length := List.length_pos_iff.mpr hnil
    have hall := padded_eq_chunks bytes
    have hlengths := ceilDiv_eq_chunks bytes
    obtain ⟨payload, hpayload⟩ : ∃ l, l =
      bytes.take (ROCKUSB_TRANSFER_CHUNK_SECTORS * LOGICAL_BLOCK_BYTES) := ⟨_, rfl⟩
    obtain ⟨rest, hrest⟩ : ∃ l, l =
      bytes.drop (ROCKUSB_TRANSFER_CHUNK_SECTORS * LOGICAL_BLOCK_BYTES) := ⟨_, rfl⟩
    simp only [← hpayload, ← hrest] at hall hlengths ⊢
    rw [hall, ← List.append_assoc] at htotal ⊢
    have hchunk : 0 < ROCKUSB_TRANSFER_CHUNK_SECTORS * LOGICAL_BLOCK_BYTES := by decide
    have hlen : payload.length ≤ LOGICAL_BLOCK_BYTES * ROCKUSB_TRANSFER_CHUNK_SECTORS := by
      rw [hpayload, List.length_take, Nat.mul_comm]
      omega
    have hsome : 0 < ceilDiv payload.length LOGICAL_BLOCK_BYTES := by
      refine ceilDiv_pos ?_
      rw [hpayload, List.length_take]
      omega
    have hfirst := h k _ done (padded payload) hdone (length_padded payload) hsome (ceilDiv_le hlen)
      (by omega) ((List.prefix_append _ _).trans htotal)
    have hsecond := ih rest.length (by rw [hrest, List.length_drop]; omega)
      (k + ceilDiv payload.length LOGICAL_BLOCK_BYTES) (done ++ padded payload) rest rfl
      (by rw [List.length_append, hdone, length_padded, Nat.mul_add]) (by omega) htotal
    rw [← Nat.add_assoc] at hsecond
    refine hfirst.bind fun _ => hsecond.bind fun chunks => meets_pure fun p hp => ?_
    exact ⟨hp.1, fun _ => Nat.succ_pos _⟩

/-- A write of bytes leaves them, filled up to whole sectors. -/
theorem Takes.writeLba (h : Takes bulk start total W F) (k : ℕ) {done bytes : List UInt8}
    (hne : bytes ≠ []) (hdone : done.length = LOGICAL_BLOCK_BYTES * k)
    (hrange : start + k + ceilDiv bytes.length LOGICAL_BLOCK_BYTES ≤ 2 ^ 32)
    (htotal : done ++ padded bytes <+: total) :
    Meets (W done) (writeLba bulk (start + k) bytes)
      (fun progress p => progress.wireSectors = ceilDiv bytes.length LOGICAL_BLOCK_BYTES ∧
        0 < progress.chunks ∧ W (done ++ padded bytes) p)
      fun _ => F := by
  have hpos := ceilDiv_pos (List.length_pos_iff.mpr hne)
  unfold RockUsb.writeLba
  rw [if_neg hne]
  dsimp only
  rw [validateSectorRange_eq_ok.mpr ⟨by omega, hrange⟩]
  exact (h.writeChunks bytes.length k done bytes rfl hdone hrange htotal).bind fun _ =>
    meets_pure fun p hp => ⟨rfl, hp.2 hne, hp.1⟩

end Takes

end ArkForge.Provider.Chunking
