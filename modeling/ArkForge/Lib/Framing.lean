import ArkForge.Lib.Bytes

/-! # Length-prefixed frames

A frame is the length of its body in four bytes, then the body; a body is valid if it is not empty
and not longer than `limit`. Every string of whole frames followed by an incomplete one splits in one
way only (`Splits.unique`), and cutting it anywhere leaves the frames that end before the cut and an
incomplete tail (`Splits.take`). -/

namespace ArkForge.Lib.Framing

open Bytes

def frame (body : List UInt8) : List UInt8 := beBytes 4 body.length ++ body

def frames (bodies : List (List UInt8)) : List UInt8 := bodies.flatMap frame

@[simp] theorem length_frame (body : List UInt8) : (frame body).length = 4 + body.length := by
  simp [frame]

@[simp] theorem frames_nil : frames [] = [] := rfl

@[simp] theorem frames_cons (b : List UInt8) (bs : List (List UInt8)) :
    frames (b :: bs) = frame b ++ frames bs := rfl

theorem frames_append (a b : List (List UInt8)) : frames (a ++ b) = frames a ++ frames b :=
  List.flatMap_append

theorem length_frames_take_mono (bs : List (List UInt8)) {i j : ℕ} (h : i ≤ j) :
    (frames (bs.take i)).length ≤ (frames (bs.take j)).length := by
  obtain ⟨t, ht⟩ := List.take_prefix_take_left h
  rw [← ht, frames_append, List.length_append]
  omega

theorem length_frames_take_le (bs : List (List UInt8)) (i : ℕ) :
    (frames (bs.take i)).length ≤ (frames bs).length := by
  have h := length_frames_take_mono bs (le_max_left i bs.length)
  rwa [List.take_of_length_le (le_max_right i bs.length)] at h

/-- What stands at the start of a byte string. -/
inductive NextFrame where
  /-- Fewer bytes than the frame declares, or than its length takes. -/
  | torn
  | invalidLength (length : ℕ)
  | body (body rest : List UInt8)

section

variable (limit : ℕ)

def nextFrame (bytes : List UInt8) : NextFrame :=
  if bytes.length < 4 then .torn
  else if beNat (bytes.take 4) = 0 ∨ limit < beNat (bytes.take 4) then
    .invalidLength (beNat (bytes.take 4))
  else if bytes.length < 4 + beNat (bytes.take 4) then .torn
  else .body ((bytes.drop 4).take (beNat (bytes.take 4))) (bytes.drop (4 + beNat (bytes.take 4)))

/-- The body may be framed. -/
def ValidBody (body : List UInt8) : Prop := 0 < body.length ∧ body.length ≤ limit

/-- The start of a frame that is not all there. -/
def Incomplete (tail : List UInt8) : Prop :=
  tail.length < 4 ∨ 0 < beNat (tail.take 4) ∧ beNat (tail.take 4) ≤ limit ∧
    tail.length < 4 + beNat (tail.take 4)

/-- The bytes are the frames of the bodies, then an incomplete frame. -/
structure Splits (bytes : List UInt8) (bodies : List (List UInt8)) (tail : List UInt8) : Prop where
  eq : bytes = frames bodies ++ tail
  valid : ∀ b ∈ bodies, ValidBody limit b
  incomplete : Incomplete limit tail

end

variable {limit : ℕ}

variable {b : List UInt8}

theorem take_frame_append (hb : b.length < 2 ^ 32) (rest : List UInt8) :
    beNat ((frame b ++ rest).take 4) = b.length := by
  rw [frame, List.append_assoc, List.take_append_of_le_length (by simp),
    List.take_of_length_le (by simp), beNat_beBytes (by omega)]

theorem nextFrame_append (hl : limit < 2 ^ 32) (hb : ValidBody limit b) (rest : List UInt8) :
    nextFrame limit (frame b ++ rest) = .body b rest := by
  obtain ⟨hpos, hle⟩ := hb
  have hlen := take_frame_append (b := b) (by omega) rest
  have h4 : (frame b ++ rest).length = 4 + b.length + rest.length := by simp
  rw [nextFrame, hlen, if_neg (by omega), if_neg (by omega), if_neg (by omega)]
  congr 1
  · rw [frame, List.append_assoc, List.drop_left' (by simp), List.take_left]
  · rw [List.drop_left' (length_frame b)]

variable {bytes : List UInt8}

theorem nextFrame_torn : nextFrame limit bytes = .torn ↔ Incomplete limit bytes := by
  unfold nextFrame Incomplete
  split_ifs with h1 h2 h3
  · simp [h1]
  · simp only [false_iff]; omega
  · simp only [true_iff]; omega
  · simp only [false_iff]; omega

theorem nextFrame_body {rest : List UInt8} (h : nextFrame limit bytes = .body b rest) :
    bytes = frame b ++ rest ∧ ValidBody limit b := by
  unfold nextFrame at h
  split_ifs at h with h1 h2 h3
  injection h with hb hr
  have hlen : b.length = beNat (bytes.take 4) := by
    rw [← hb, List.length_take, List.length_drop]; omega
  refine ⟨?_, by rw [ValidBody]; omega⟩
  have hhead : beBytes 4 b.length = bytes.take 4 := by
    have := beBytes_beNat (bytes.take 4)
    rwa [List.length_take, Nat.min_eq_left (by omega), ← hlen] at this
  rw [frame, hhead, ← hb, ← hr, List.append_assoc, ← List.drop_drop, List.take_append_drop,
    List.take_append_drop]

theorem incomplete_nil : Incomplete limit [] := .inl (by simp)

theorem Incomplete.of_prefix {t u : List UInt8} (h : Incomplete limit t) (hp : u <+: t) :
    Incomplete limit u := by
  obtain ⟨v, rfl⟩ := hp
  by_cases hu : u.length < 4
  · exact .inl hu
  · rw [Incomplete, List.take_append_of_le_length (by omega), List.length_append] at h
    right
    omega

theorem not_incomplete_frame_append (hl : limit < 2 ^ 32) (hb : ValidBody limit b)
    (rest : List UInt8) : ¬ Incomplete limit (frame b ++ rest) := by
  rw [← nextFrame_torn, nextFrame_append hl hb]
  simp

/-- A frame cut short is incomplete. -/
theorem incomplete_take_frame (hl : limit < 2 ^ 32) (hb : ValidBody limit b) {c : ℕ}
    (hc : c < (frame b).length) : Incomplete limit ((frame b).take c) := by
  obtain ⟨hpos, hle⟩ := hb
  rw [length_frame] at hc
  by_cases h4 : c < 4
  · exact .inl (by rw [List.length_take]; omega)
  · have hlen := take_frame_append (b := b) (by omega) []
    rw [List.append_nil] at hlen
    right
    rw [List.take_take, Nat.min_eq_left (by omega), List.length_take]
    omega

namespace Splits

theorem eq_tail {tail : List UInt8} (h : Splits limit bytes [] tail) : bytes = tail := h.eq

theorem not_incomplete (hl : limit < 2 ^ 32) {bs : List (List UInt8)} {tail : List UInt8}
    (h : Splits limit bytes (b :: bs) tail) : ¬ Incomplete limit bytes := by
  rw [h.eq, frames_cons, List.append_assoc]
  exact not_incomplete_frame_append hl (h.valid b List.mem_cons_self) _

theorem unique (hl : limit < 2 ^ 32) : ∀ {bodies bodies' : List (List UInt8)}
    {bytes tail tail' : List UInt8}, Splits limit bytes bodies tail →
      Splits limit bytes bodies' tail' → bodies = bodies' ∧ tail = tail'
  | [], [], _, _, _, h, h' => ⟨rfl, h.eq_tail.symm.trans h'.eq_tail⟩
  | [], _ :: _, _, _, _, h, h' => absurd (h.eq_tail ▸ h.incomplete) (h'.not_incomplete hl)
  | _ :: _, [], _, _, _, h, h' => absurd (h'.eq_tail ▸ h'.incomplete) (h.not_incomplete hl)
  | b :: bs, b' :: bs', _, tail, tail', h, h' => by
    have h1 := nextFrame_append hl (h.valid b List.mem_cons_self) (frames bs ++ tail)
    have h2 := nextFrame_append hl (h'.valid b' List.mem_cons_self) (frames bs' ++ tail')
    have heq := h.eq.symm.trans h'.eq
    rw [frames_cons, frames_cons, List.append_assoc, List.append_assoc] at heq
    rw [heq, h2] at h1
    injection h1 with hb hrest
    have hv : ∀ c ∈ bs, ValidBody limit c := fun c hc => h.valid c (List.mem_cons_of_mem _ hc)
    have hv' : ∀ c ∈ bs', ValidBody limit c := fun c hc => h'.valid c (List.mem_cons_of_mem _ hc)
    obtain ⟨rfl, rfl⟩ := unique hl ⟨rfl, hv, h.incomplete⟩ ⟨hrest.symm, hv', h'.incomplete⟩
    exact ⟨by rw [hb], rfl⟩

/-- **The torn-tail law of frames**: a cut leaves the frames that end before it, and an incomplete
one. -/
theorem take (hl : limit < 2 ^ 32) : ∀ {bodies : List (List UInt8)} {bytes tail : List UInt8},
    Splits limit bytes bodies tail → ∀ c : ℕ, ∃ k ≤ bodies.length, ∃ tail',
      Splits limit (bytes.take c) (bodies.take k) tail' ∧
        ∀ j ≤ bodies.length, (frames (bodies.take j)).length ≤ c → j ≤ k
  | [], bytes, tail, h, c => by
    refine ⟨0, le_rfl, bytes.take c, ⟨by simp, by simp, ?_⟩, by simp⟩
    have ht : bytes = tail := h.eq
    exact ht ▸ h.incomplete.of_prefix (List.take_prefix _ _)
  | b :: bs, bytes, tail, h, c => by
    have hb := h.valid b List.mem_cons_self
    have hbytes : bytes = frame b ++ (frames bs ++ tail) := by
      rw [h.eq, frames_cons, List.append_assoc]
    by_cases hc : c < (frame b).length
    · refine ⟨0, Nat.zero_le _, (frame b).take c, ⟨?_, by simp, incomplete_take_frame hl hb hc⟩, ?_⟩
      · rw [hbytes, List.take_append_of_le_length hc.le]
        simp
      · intro j _ hj
        by_contra hpos
        have hone := length_frames_take_mono (b :: bs) (Nat.one_le_iff_ne_zero.mpr (by omega) : 1 ≤ j)
        simp only [List.take_succ_cons, List.take_zero, frames_cons, frames_nil, List.append_nil]
          at hone
        omega
    · have hrest : Splits limit (frames bs ++ tail) bs tail :=
        ⟨rfl, fun c hc => h.valid c (List.mem_cons_of_mem _ hc), h.incomplete⟩
      obtain ⟨k, hk, tail', hs, hmax⟩ := take hl hrest (c - (frame b).length)
      refine ⟨k + 1, Nat.succ_le_succ hk, tail', ⟨?_, ?_, hs.incomplete⟩, ?_⟩
      · rw [hbytes, List.take_append, List.take_of_length_le (by omega), hs.eq,
          List.take_succ_cons, frames_cons, List.append_assoc]
      · rw [List.take_succ_cons, List.forall_mem_cons]
        exact ⟨hb, hs.valid⟩
      · rintro (_ | j) hj hlen
        · omega
        · rw [List.take_succ_cons, frames_cons, List.length_append] at hlen
          exact Nat.succ_le_succ (hmax j (Nat.le_of_succ_le_succ hj) (by omega))

end Splits

end ArkForge.Lib.Framing
