import ArkForge.Daemon.NativePort
import ArkForge.Provider.Chunking

/-! # Streaming an open file

The file is read into a buffer and the buffer is written, until nothing remains. The file may deliver
its bytes in pieces and may fail; what the writes do is as `Takes` says. -/

namespace ArkForge.Daemon.Streaming

open Lib.Fallible Lib.Result
open Core.Digest (Sha256 Sha256Digest sha256)
open Provider.RockUsb Provider.Device Provider.Chunking
open NativePort

variable {ω : Type} {t : Prop}

/-! ### Reading the file -/

def Readable (reads : List FileRead) : Prop := ∀ r ∈ reads, ∀ detail, r ≠ .fails detail

/-- A file that will deliver `contents`. Its reads fail only if `t` holds. -/
def Delivers (contents : List UInt8) (t : Prop) (r : Reader) : Prop :=
  r.contents = contents ∧ (t ∨ Readable r.reads)

/-- One read delivers some of the next bytes; none only at the end. -/
theorem meets_read (contents : List UInt8) {size : ℕ} (hsize : 0 < size) :
    Meets (Delivers contents t) (Reader.read size)
      (fun bytes r => bytes.length ≤ size ∧ (bytes = [] → contents = []) ∧
        ∃ rest, contents = bytes ++ rest ∧ Delivers rest t r)
      fun _ _ => t := by
  have hsome : ∀ k, 0 < k → contents.take k = [] → contents = [] := fun k hk h =>
    (List.take_eq_nil_iff.mp h).resolve_left (by omega)
  rintro ⟨_, reads⟩ ⟨rfl, hreads⟩
  rcases reads with _ | ⟨_ | n, reads⟩
  · exact ⟨List.length_take_le _ _, hsome _ hsize, _, (List.take_append_drop size _).symm, rfl, hreads⟩
  · exact hreads.resolve_right fun h => h _ List.mem_cons_self _ rfl
  · exact ⟨(List.length_take_le _ _).trans (by omega), hsome _ (by omega), _,
      (List.take_append_drop _ _).symm, rfl,
      hreads.imp_right fun h r hr => h r (List.mem_cons_of_mem _ hr)⟩

/-- The buffer is filled with the next bytes of the file. -/
theorem meets_fillBuffer (path : String) (chunks missing : ℕ) : ∀ contents : List UInt8,
    (t ∨ missing ≤ contents.length) →
    Meets (Delivers contents t) (fillBuffer path chunks missing)
      (fun bytes r => bytes.length = missing ∧ ∃ rest, contents = bytes ++ rest ∧ Delivers rest t r)
      fun e _ => t ∧ ∃ fault, e = localFailure fault chunks := by
  induction missing using Nat.strong_induction_on with
  | _ missing ih =>
    intro contents ht
    rw [fillBuffer]
    by_cases hzero : missing = 0
    · rw [hzero]
      exact meets_pure fun r hr => ⟨rfl, contents, rfl, hr⟩
    · rw [if_neg hzero]
      have hread := meets_read (t := t) contents (Nat.pos_of_ne_zero hzero)
      refine (hread.failing fun _ _ h => ⟨h, _, rfl⟩).mapError.bind fun bytes r hr => ?_
      obtain ⟨hle, hend, rest, hcontents, hrest⟩ := hr
      by_cases hnil : bytes = []
      · rw [if_pos hnil]
        refine ⟨ht.resolve_right fun hshort => ?_, _, rfl⟩
        rw [hend hnil, List.length_nil] at hshort
        omega
      · rw [if_neg hnil]
        have hpos : 0 < bytes.length := List.length_pos_iff.mpr hnil
        have hshort : t ∨ missing - bytes.length ≤ rest.length := by
          rw [hcontents, List.length_append] at ht
          exact ht.imp_right fun h => by omega
        refine ((ih (missing - bytes.length) (by omega) rest hshort).bind
          fun more => meets_pure fun r hr => ?_) r hrest
        obtain ⟨hmore, behind, hbehind, hdelivers⟩ := hr
        exact ⟨by rw [List.length_append]; omega, behind,
          by rw [hcontents, hbehind, List.append_assoc], hdelivers⟩

theorem prepareForWrite_eq_ok {image : ValidatedImage} {reader : Reader}
    (h : image.prepareForWrite = .ok reader) : reader = ⟨image.file.contents, image.file.reads⟩ := by
  unfold ValidatedImage.prepareForWrite at h
  rcases hcurrent : image.file.current with e | current
  · rw [hcurrent] at h
    cases h
  · rw [hcurrent] at h
    obtain ⟨-, h⟩ := guard_eq_ok.mp h
    rcases hrewound : image.file.rewound with e | a
    · rw [hrewound] at h
      cases h
    · rw [hrewound] at h
      cases h
      rfl

/-! ### Streaming -/

section Streaming

variable {usb : NativeUsb ω} {start : ℕ} {total : List UInt8}
variable {W : List UInt8 → RockUsbProtocol ω → Prop} {F : RockUsbProtocol ω → Prop}
variable {R : RockUsbPortFailure → Transfer ω → Prop}

theorem meets_onProtocol {α : Type} {x : Exec (RockUsbProtocol ω) RockUsbPortFailure α}
    {P : RockUsbProtocol ω → Prop} {Q : α → RockUsbProtocol ω → Prop}
    {R : RockUsbPortFailure → RockUsbProtocol ω → Prop} {B : Reader → Prop} (h : Meets P x Q R) :
    Meets (fun y => P y.protocol ∧ B y.reader) (onProtocol x)
      (fun a y => Q a y.protocol ∧ B y.reader) fun e y => R e y.protocol ∧ B y.reader :=
  Meets.within fun _ hy => h.weaken (fun _ hs => hs ▸ hy.1) (fun _ _ hq => ⟨hq, hy.2⟩)
    fun _ _ hr => ⟨hr, hy.2⟩

theorem meets_onReader {α : Type} {x : Exec Reader RockUsbPortFailure α} {P : Reader → Prop}
    {Q : α → Reader → Prop} {R : RockUsbPortFailure → Reader → Prop} {B : RockUsbProtocol ω → Prop}
    (h : Meets P x Q R) :
    Meets (fun y => B y.protocol ∧ P y.reader) (onReader x)
      (fun a y => B y.protocol ∧ Q a y.reader) fun e y => B y.protocol ∧ R e y.reader :=
  Meets.within fun _ hy => h.weaken (fun _ hs => hs ▸ hy.2) (fun _ _ hq => ⟨hy.1, hq⟩)
    fun _ _ hr => ⟨hy.1, hr⟩

theorem padded_eq_buffers {buffer : List UInt8} {remaining : ℕ}
    (hbuffer : buffer.length = min remaining BUFFER_BYTES) (rest : List UInt8) :
    padded ((buffer ++ rest).take remaining) =
      padded buffer ++ padded (rest.take (remaining - min remaining BUFFER_BYTES)) := by
  rw [List.take_append, hbuffer, List.take_of_length_le (by omega)]
  by_cases hle : remaining ≤ BUFFER_BYTES
  · rw [Nat.min_eq_left hle, Nat.sub_self, List.take_zero, padded_nil, List.append_nil, List.append_nil]
  · have hwhole : buffer.length = LOGICAL_BLOCK_BYTES * ROCKUSB_TRANSFER_CHUNK_SECTORS := by
      rw [hbuffer, Nat.min_eq_right (by omega), BUFFER_BYTES, Nat.mul_comm]
    rw [padded_append hwhole, padded_of_whole hwhole]

theorem ceilDiv_eq_buffers (remaining : ℕ) : ceilDiv remaining LOGICAL_BLOCK_BYTES =
    ceilDiv (min remaining BUFFER_BYTES) LOGICAL_BLOCK_BYTES +
      ceilDiv (remaining - min remaining BUFFER_BYTES) LOGICAL_BLOCK_BYTES := by
  by_cases hle : remaining ≤ BUFFER_BYTES
  · rw [Nat.min_eq_left hle, Nat.sub_self]
    rfl
  · have hbuffer : BUFFER_BYTES = LOGICAL_BLOCK_BYTES * ROCKUSB_TRANSFER_CHUNK_SECTORS + 0 := by
      rw [BUFFER_BYTES, Nat.mul_comm, Nat.add_zero]
    obtain ⟨k, rfl⟩ : ∃ k, remaining = BUFFER_BYTES + k := ⟨remaining - BUFFER_BYTES, by omega⟩
    rw [Nat.min_eq_right (by omega), Nat.add_sub_cancel_left, hbuffer, Nat.add_zero,
      ceilDiv_add_mul]
    rfl

/-- **A file is streamed to the sectors from `start` on.** The file fails only if `t` holds, and as
long as no chunk was written it fails before I/O. -/
theorem meets_streamImage (htakes : Takes usb.bulk start total W F)
    (hlocal : ∀ done k chunks fault x, t → W done x.protocol → done.length = LOGICAL_BLOCK_BYTES * k →
      done <+: total → (chunks = 0 → done = []) → R (localFailure fault chunks) x)
    (hfailed : ∀ e x, F x.protocol → R (.afterIo (.protocol e)) x) (path : String) (remaining : ℕ) :
    ∀ (k chunks : ℕ) (done contents : List UInt8) (hasher : Sha256),
    done.length = LOGICAL_BLOCK_BYTES * k → (chunks = 0 → done = []) →
    start + k + ceilDiv remaining LOGICAL_BLOCK_BYTES ≤ 2 ^ 32 →
    (t ∨ remaining ≤ contents.length) → done ++ padded (contents.take remaining) <+: total →
    Meets (fun x => W done x.protocol ∧ Delivers contents t x.reader)
      (streamImage usb path hasher (start + k) chunks remaining)
      (fun r x => ∃ image rest, contents = image ++ rest ∧ image.length = remaining ∧
        r.1 = hasher.update image ∧ W (done ++ padded image) x.protocol ∧ Delivers rest t x.reader)
      R := by
  induction remaining using Nat.strong_induction_on with
  | _ remaining ih =>
    intro k chunks done contents hasher hdone hchunks hrange ht htotal
    rw [streamImage]
    by_cases hzero : remaining = 0
    · rw [hzero]
      refine meets_pure fun x hx => ⟨[], contents, rfl, rfl, hasher.update_nil.symm, ?_⟩
      simpa using hx
    rw [if_neg hzero]
    have hbuf : 0 < BUFFER_BYTES := by decide
    have hfill := meets_onReader (B := W done)
      (meets_fillBuffer path chunks (min remaining BUFFER_BYTES) contents
        (ht.imp_right (Nat.min_le_left _ _).trans))
    have hprefix : done <+: total := (List.prefix_append _ _).trans htotal
    refine (hfill.failing ?_).bind fun buffer x hx => ?_
    · rintro _ x ⟨hW, ht, fault, rfl⟩
      exact hlocal done k chunks fault x ht hW hdone hprefix hchunks
    obtain ⟨hW, hlen, rest, hcontents, hdelivers⟩ := hx
    have hall := padded_eq_buffers hlen rest
    have hceil := ceilDiv_eq_buffers remaining
    rw [← hlen] at hall hceil
    rw [hcontents, hall, ← List.append_assoc] at htotal
    have hne : buffer ≠ [] := by
      rw [← List.length_pos_iff]
      omega
    have hwrite := meets_onProtocol (B := Delivers rest t)
      (Meets.mapError
        (R := fun e p => (∃ e', e = .afterIo (.protocol e')) ∧ F p)
        ((htakes.writeLba k hne hdone (by omega) ((List.prefix_append _ _).trans htotal)).weaken
          (fun _ h => h) (fun _ _ h => h) fun e _ h => ⟨⟨e, rfl⟩, h⟩))
    refine ((hwrite.failing ?_).bind fun progress y hy => ?_) x
      ⟨hW, hdelivers⟩
    · rintro _ x ⟨⟨⟨e, rfl⟩, hF⟩, -⟩
      exact hfailed e x hF
    obtain ⟨⟨hwire, hsome, hwritten⟩, hrest⟩ := hy
    rw [hwire, Nat.add_assoc]
    have hlonger : t ∨ remaining - buffer.length ≤ rest.length := by
      rw [hcontents, List.length_append] at ht
      exact ht.imp_right fun h => by omega
    have hnext := ih (remaining - buffer.length) (by omega)
      (k + ceilDiv buffer.length LOGICAL_BLOCK_BYTES) (chunks + progress.chunks)
      (done ++ padded buffer) rest (hasher.update buffer)
      (by rw [List.length_append, hdone, length_padded, Nat.mul_add]) (fun h => by omega) (by omega)
      hlonger htotal
    rw [← hlen]
    refine (hnext.post ?_) y ⟨hwritten, hrest⟩
    rintro r z ⟨image, behind, himage, hlength, hhash, hW', hbehind⟩
    refine ⟨buffer ++ image, behind, by rw [hcontents, himage, List.append_assoc],
      by rw [List.length_append]; omega, by rw [hhash, Sha256.update_append], ?_, hbehind⟩
    have hjoined : padded (buffer ++ image) = padded buffer ++ padded image := by
      rw [himage, List.take_left' hlength, ← List.append_assoc,
        List.take_left' (by rw [List.length_append]; omega)] at hall
      exact hall
    rwa [hjoined, ← List.append_assoc]

/-- **A whole image is sent**, and it is the one that was staged. -/
theorem meets_sendImage {staged : StagedImage} {contents : List UInt8}
    (htakes : Takes usb.bulk start (padded (contents.take staged.sizeBytes.toNat)) W F)
    (hready : Meets (W []) (testUnitReady usb.bulk) (fun _ => W []) fun _ p => t ∧ W [] p)
    (hlocal : ∀ done k chunks fault x, t → W done x.protocol → done.length = LOGICAL_BLOCK_BYTES * k →
      done <+: padded (contents.take staged.sizeBytes.toNat) → (chunks = 0 → done = []) →
      R (localFailure fault chunks) x)
    (hfailed : ∀ e x, F x.protocol → R (.afterIo (.protocol e)) x)
    (hrange : start + ceilDiv staged.sizeBytes.toNat LOGICAL_BLOCK_BYTES ≤ 2 ^ 32)
    (ht : t ∨ contents.length = staged.sizeBytes.toNat ∧ sha256 contents = staged.sha256) :
    Meets (fun x => W [] x.protocol ∧ Delivers contents t x.reader) (sendImage usb staged start)
      (fun r x => (contents.length = staged.sizeBytes.toNat ∧ sha256 contents = staged.sha256) ∧
        r.1 = sha256 contents ∧ W (padded contents) x.protocol) R := by
  have hfirst := meets_onProtocol (B := Delivers contents t)
    (Meets.mapError (f := fun e => RockUsbPortFailure.beforeIo (.protocol e))
      (R := fun e p => (∃ fault, e = .beforeIo fault) ∧ t ∧ W [] p)
      (hready.failing fun _ _ h => ⟨⟨_, rfl⟩, h⟩))
  refine (hfirst.failing ?_).bind fun _ => ?_
  · rintro _ x ⟨⟨⟨fault, rfl⟩, ht, hW⟩, -⟩
    exact hlocal [] 0 0 fault x ht hW rfl List.nil_prefix fun _ => rfl
  refine Meets.bind (Q := fun _ (x : Transfer ω) => W [] x.protocol ∧ Delivers contents t x.reader)
    (fun _ hx => hx) fun started => ?_
  refine (meets_streamImage htakes hlocal hfailed staged.path staged.sizeBytes.toNat 0 0 [] contents
    Sha256.new rfl (fun _ => rfl) hrange (ht.imp_right fun h => h.1.ge) List.prefix_rfl).bind ?_
  rintro ⟨hasher, chunks⟩ x ⟨image, rest, hcontents, hlength, hhash, hW, hrest⟩
  -- the image has been written, so a failure is one after I/O
  have hafter : ∀ fault y, t → W (padded image) y.protocol → R (.afterIo fault) y := by
    intro fault y ht hW
    refine hlocal _ _ 1 fault y ht hW (length_padded image) ?_ nofun
    rw [hcontents, List.take_left' hlength]
  have hextra := meets_onReader (B := W (padded image))
    (Meets.mapError (f :=
      fun e => RockUsbPortFailure.afterIo (.imageUnreadable (staged.path ++ ": " ++ e)))
      (R := fun e _ => (∃ fault, e = .afterIo fault) ∧ t)
      ((meets_read rest Nat.one_pos).failing fun _ _ h => ⟨⟨_, rfl⟩, h⟩))
  refine ((hextra.failing ?_).bind fun extra y hy => ?_) x ⟨hW, hrest⟩
  · rintro _ y ⟨hW, ⟨fault, rfl⟩, ht⟩
    exact hafter fault y ht hW
  obtain ⟨hW, -, hend, behind, hrest, -⟩ := hy
  by_cases hnil : extra = []
  · rw [if_neg (not_not.mpr hnil)]
    rw [hend hnil, List.append_nil] at hcontents
    have hdigest : hasher.finalize = sha256 contents := by rw [hcontents, sha256, ← hhash]
    by_cases hmatch : hasher.finalize = staged.sha256
    · rw [if_neg (not_not.mpr hmatch)]
      exact ⟨⟨hcontents ▸ hlength, hdigest ▸ hmatch⟩, hdigest, hcontents ▸ hW⟩
    · rw [if_pos hmatch]
      exact hafter _ y (ht.resolve_right fun h => hmatch (hdigest.trans h.2)) hW
  · rw [if_pos hnil]
    refine hafter _ y (ht.resolve_right fun h => hnil ?_) hW
    have hlonger := h.1
    rw [hcontents, hrest, List.length_append, List.length_append] at hlonger
    exact List.length_eq_zero_iff.mp (by omega)

end Streaming

end ArkForge.Daemon.Streaming
