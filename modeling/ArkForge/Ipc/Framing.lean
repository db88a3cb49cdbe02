import ArkForge.Lib.Framing

/-! # Frames on a stream

A stream delivers its bytes in reads of any size. A reader fills the header and then the body, each in
as many reads as it takes, so it sees the concatenation of the reads and nothing else. -/

namespace ArkForge.Ipc.Framing

open Lib.Bytes Lib.Framing

def MAX_FRAME_BYTES : ℕ := 16 * 1024 * 1024

inductive FrameError where
  | truncated
  | frameTooLarge (size : ℕ)
  deriving DecidableEq

def writeFrame (body : List UInt8) : Except FrameError (List UInt8) :=
  if MAX_FRAME_BYTES < body.length then .error (.frameTooLarge body.length)
  else .ok (beBytes 4 body.length ++ body)

/-- Fills a buffer from what the next reads deliver; a read of nothing is the end of the stream. -/
def fill : ℕ → List (List UInt8) → List UInt8 × List (List UInt8)
  | 0, source => ([], source)
  | _ + 1, [] => ([], [])
  | room + 1, chunk :: rest =>
    if room + 1 < chunk.length then (chunk.take (room + 1), chunk.drop (room + 1) :: rest)
    else if chunk = [] then ([], rest)
    else (chunk ++ (fill (room + 1 - chunk.length) rest).1, (fill (room + 1 - chunk.length) rest).2)

/-- What reading a frame answers, the size of the buffer it allocates, and the reads that are left. -/
structure Reading where
  result : Except FrameError (Option (List UInt8))
  allocated : Option ℕ
  rest : List (List UInt8)

def readFrame (source : List (List UInt8)) : Reading :=
  let (header, source) := fill 4 source
  if header = [] then ⟨.ok none, none, source⟩
  else if header.length < 4 then ⟨.error .truncated, none, source⟩
  else if MAX_FRAME_BYTES < beNat header then ⟨.error (.frameTooLarge (beNat header)), none, source⟩
  else
    let (body, source) := fill (beNat header) source
    ⟨if body.length < beNat header then .error .truncated else .ok (some body), some (beNat header),
      source⟩

/-- So many calls in a row. -/
def readFrames : ℕ → List (List UInt8) → List Reading
  | 0, _ => []
  | calls + 1, source => readFrame source :: readFrames calls (readFrame source).rest

/-! ### Any chunking -/

/-- No read delivers nothing before the end. -/
def Delivers (source : List (List UInt8)) : Prop := ∀ chunk ∈ source, chunk ≠ []

/-- A buffer is filled from the concatenation of the reads. -/
theorem fill_spec (room : ℕ) (source : List (List UInt8)) (h : Delivers source) :
    (fill room source).1 = source.flatten.take room ∧
      (fill room source).2.flatten = source.flatten.drop room ∧ Delivers (fill room source).2 := by
  fun_induction fill room source with
  | case1 source => exact ⟨rfl, rfl, h⟩
  | case2 room => exact ⟨rfl, rfl, h⟩
  | case3 room chunk rest hlong =>
    obtain ⟨-, hrest⟩ := List.forall_mem_cons.mp h
    refine ⟨?_, ?_, List.forall_mem_cons.mpr ⟨?_, hrest⟩⟩
    · rw [List.flatten_cons, List.take_append_of_le_length hlong.le]
    · rw [List.flatten_cons, List.flatten_cons, List.drop_append_of_le_length hlong.le]
    · rw [ne_eq, List.drop_eq_nil_iff]
      omega
  | case4 room rest hlong => exact absurd rfl (h [] List.mem_cons_self)
  | case5 room chunk rest hlong _ ih =>
    obtain ⟨hbytes, hleft, hdelivers⟩ := ih (List.forall_mem_cons.mp h).2
    refine ⟨?_, ?_, hdelivers⟩
    · rw [hbytes, List.flatten_cons, List.take_append, List.take_of_length_le (l := chunk) (by omega)]
    · rw [hleft, List.flatten_cons, List.drop_append, List.drop_of_length_le (l := chunk) (by omega)]
      rfl

section Frames

variable {source : List (List UInt8)} {b tail : List UInt8}

theorem readFrame_frame (h : Delivers source) (hb : b.length ≤ MAX_FRAME_BYTES)
    (hstream : source.flatten = frame b ++ tail) :
    (readFrame source).result = .ok (some b) ∧ (readFrame source).rest.flatten = tail ∧
      Delivers (readFrame source).rest := by
  have hsize : b.length < 2 ^ 32 := hb.trans_lt (by decide)
  obtain ⟨hheader, hleft, hdelivers⟩ := fill_spec 4 source h
  rw [hstream, frame] at hheader
  rw [hstream, frame] at hleft
  obtain ⟨hbody, hrest, hdelivers⟩ := fill_spec b.length _ hdelivers
  rw [hleft] at hbody
  rw [hleft] at hrest
  have hne : beBytes 4 b.length ≠ [] := List.ne_nil_of_length_pos (by simp)
  simp [readFrame, hheader, hne, beNat_beBytes (w := 4) hsize, not_lt.mpr hb, hbody, hrest, hdelivers]

theorem readFrame_cut (h : Delivers source) (hb : b.length ≤ MAX_FRAME_BYTES) {n : ℕ}
    (hn : n < (frame b).length) (hstream : source.flatten = (frame b).take n) :
    (readFrame source).result = if source.flatten = [] then .ok none else .error .truncated := by
  have hsize : b.length < 2 ^ 32 := hb.trans_lt (by decide)
  obtain ⟨hheader, hleft, hdelivers⟩ := fill_spec 4 source h
  rw [length_frame] at hn
  have hlength : source.flatten.length = n := by
    rw [hstream, List.length_take, length_frame]
    omega
  by_cases hshort : n < 4
  · by_cases hempty : source.flatten = [] <;> simp [readFrame, hheader, hempty, hlength, hshort]
  · have htake : (fill 4 source).1 = beBytes 4 b.length := by
      rw [hheader, hstream, List.take_take, min_eq_left (by omega), frame,
        List.take_left' (length_beBytes _ _)]
    have hne : beBytes 4 b.length ≠ [] := List.ne_nil_of_length_pos (by simp)
    have hempty : source.flatten ≠ [] := List.ne_nil_of_length_pos (by omega)
    have hbody : (fill b.length (fill 4 source).2).1.length < b.length := by
      rw [(fill_spec b.length _ hdelivers).1, hleft, List.length_take, List.length_drop]
      omega
    simp [readFrame, htake, hne, beNat_beBytes (w := 4) hsize, not_lt.mpr hb, hbody, hempty]

end Frames

theorem allocated_le {calls : ℕ} : ∀ {source : List (List UInt8)}, ∀ r ∈ readFrames calls source,
    ∀ size ∈ r.allocated, size ≤ MAX_FRAME_BYTES := by
  induction calls with
  | zero => exact fun _ hr => absurd hr List.not_mem_nil
  | succ calls ih =>
    intro source r hr
    rcases List.mem_cons.mp hr with rfl | hr
    · simp only [readFrame]
      split_ifs <;> simp_all
    · exact ih r hr

/-- **Framing is self-delimiting under any chunking.** Whatever part of the frames of some bodies a
stream delivers, and in whatever reads, the whole frames in it are read back; then the stream is at
its end, if it ends with a frame, or truncated. No buffer is larger than the limit, for any stream. -/
theorem frames_read_back (bodies : List (List UInt8))
    (hbodies : ∀ b ∈ bodies, b.length ≤ MAX_FRAME_BYTES) :
    (∀ b ∈ bodies, writeFrame b = .ok (frame b)) ∧
    (∀ n source, Delivers source → source.flatten = (frames bodies).take n →
      ∃ k ≤ bodies.length, (frames (bodies.take k)).length ≤ source.flatten.length ∧
        (k < bodies.length → source.flatten.length < (frames (bodies.take (k + 1))).length) ∧
        (readFrames (k + 1) source).map (·.result) = (bodies.take k).map (fun b => .ok (some b)) ++
          [if source.flatten = frames (bodies.take k) then .ok none else .error .truncated]) ∧
    ∀ calls source, ∀ r ∈ readFrames calls source, ∀ size ∈ r.allocated, size ≤ MAX_FRAME_BYTES := by
  refine ⟨fun b hb => if_neg (not_lt.mpr (hbodies b hb)), ?_, fun _ _ => allocated_le⟩
  induction bodies with
  | nil =>
    intro n source h hstream
    have hempty : source = [] := by
      rw [frames_nil, List.take_nil, List.flatten_eq_nil_iff] at hstream
      exact List.eq_nil_iff_forall_not_mem.mpr fun chunk hchunk => h chunk hchunk (hstream chunk hchunk)
    exact ⟨0, le_rfl, by simp, by simp, by rw [hempty]; rfl⟩
  | cons b bs ih =>
    intro n source h hstream
    obtain ⟨hb, hbs⟩ := List.forall_mem_cons.mp hbodies
    rw [frames_cons] at hstream
    by_cases hcut : n < (frame b).length
    · rw [List.take_append_of_le_length hcut.le] at hstream
      refine ⟨0, Nat.zero_le _, by simp, fun _ => ?_, ?_⟩
      · rw [hstream]
        simpa using hcut
      · simp [readFrames, readFrame_cut h hb hcut hstream]
    · rw [List.take_append, List.take_of_length_le (not_lt.mp hcut)] at hstream
      obtain ⟨hresult, hrest, hdelivers⟩ := readFrame_frame h hb hstream
      obtain ⟨k, hk, hle, hlt, hreads⟩ := ih hbs _ _ hdelivers hrest
      rw [hrest] at hle hlt hreads
      refine ⟨k + 1, Nat.succ_le_succ hk, ?_, fun hmore => ?_, ?_⟩
      · simp [hstream] at hle ⊢
        omega
      · have := hlt (Nat.lt_of_succ_lt_succ hmore)
        simp [hstream] at this ⊢
        omega
      · rw [readFrames, List.map_cons, hresult, hreads, hstream]
        simp

/-- Two bodies in four reads that break in a header and in a body, and a stream that ends early. -/
theorem frames_read_back_cut :
    (readFrames 2 [[0, 0], [0, 2, 1], [2, 0, 0], [0, 1]]).map (·.result) =
      [.ok (some [1, 2]), .error .truncated] := by
  obtain ⟨k, hk, hle, hlt, hreads⟩ := (frames_read_back [[1, 2], [3]] (by decide)).2.1 10
    [[0, 0], [0, 2, 1], [2, 0, 0], [0, 1]] (by unfold Delivers; decide) (by decide)
  have hone : k = 1 := by
    have hcases : k = 0 ∨ k = 1 ∨ k = 2 := by
      simp only [List.length_cons, List.length_nil] at hk
      omega
    rcases hcases with rfl | rfl | rfl
    · exact absurd (hlt (by decide)) (by decide)
    · rfl
    · exact absurd hle (by decide)
  subst hone
  exact hreads.trans (by decide)

end ArkForge.Ipc.Framing
