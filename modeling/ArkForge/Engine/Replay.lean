import ArkForge.Engine.Durable

/-! # What a journal file holds

`Holds content bodies tail rs`: the bytes are the header, one frame per body, and an incomplete frame;
the bodies read as the records `rs`, and these are a chain. `open` accepts exactly the empty file and
the files that hold something, replays `rs` and cuts off the tail. A file that holds something still
does after a cut anywhere behind the header, with the records whose frames end before the cut
(`Holds.take`). -/

namespace ArkForge.Engine.Replay

open Lib.Result Lib.Framing Lib.HashChain
open Record Chain Durable

variable {rs : List JournalRecord} {bodies : List (List UInt8)} {tail content rest : List UInt8}
  {disk : Disk} {path : String} {fault : OpenFault}

def Reads (b : List UInt8) (r : JournalRecord) : Prop := JournalRecord.fromCanonicalBytes b = .ok r

structure Holds (content : List UInt8) (bodies : List (List UInt8)) (tail : List UInt8)
    (rs : List JournalRecord) : Prop where
  eq : content = MAGIC ++ (frames bodies ++ tail)
  valid : ∀ b ∈ bodies, ValidBody MAX_FRAME_BYTES b
  incomplete : Incomplete MAX_FRAME_BYTES tail
  reads : List.Forall₂ Reads bodies rs
  chained : WellChained rs

theorem max_frame_lt : MAX_FRAME_BYTES < 2 ^ 32 := by decide

theorem length_magic : MAGIC.length = 8 := by decide

/-! ### The replay loop -/

variable {s : Replay}

theorem replay_sound {s' : Replay} {torn : ℕ} (h : replay s rest = .ok (s', torn)) :
    ∃ bodies tail rs,
      Splits MAX_FRAME_BYTES rest bodies tail ∧ List.Forall₂ Reads bodies rs ∧
      Linked JournalRecord.recordDigest Genuine s.journal.records.length s.journal.headDigest rs := by
  fun_induction replay s rest with
  | case1 s =>
    exact ⟨[], [], [], ⟨rfl, by simp, incomplete_nil⟩, .nil, trivial⟩
  | case2 s rest hne htorn =>
    exact ⟨[], rest, [], ⟨rfl, by simp, nextFrame_torn.mp htorn⟩, .nil, trivial⟩
  | case3 => cases h
  | case4 s rest hne body rest' hbody ih =>
    obtain ⟨r, hr, h⟩ := bind_eq_ok.mp h
    obtain ⟨j, hj, h⟩ := bind_eq_ok.mp h
    rw [mapError_eq_ok] at hr hj
    obtain ⟨hg, rfl⟩ := adopt_eq_ok.mp hj
    obtain ⟨rfl, hv⟩ := nextFrame_body hbody
    obtain ⟨bodies, tail, rs, hs, hreads, hl⟩ := ih _ h
    refine ⟨body :: bodies, tail, r :: rs, ⟨?_, ?_, hs.incomplete⟩, .cons hr hreads, hg, ?_⟩
    · rw [hs.eq, frames_cons, List.append_assoc]
    · exact List.forall_mem_cons.mpr ⟨hv, hs.valid⟩
    · simpa [Journal.headDigest] using hl

theorem replay_incomplete (h : Incomplete MAX_FRAME_BYTES rest) (s : Replay) :
    replay s rest = .ok (s, rest.length) := by
  rw [replay]
  by_cases hnil : rest = []
  · rw [hnil]; rfl
  · rw [if_neg hnil]
    split
    · rfl
    · next h' => rw [nextFrame_torn.mpr h] at h'; cases h'
    · next h' => rw [nextFrame_torn.mpr h] at h'; cases h'

variable {b : List UInt8} {r : JournalRecord}

theorem replay_frame_append (hv : ValidBody MAX_FRAME_BYTES b) (hr : Reads b r)
    (hg : Genuine s.journal.records.length s.journal.headDigest r) : replay s (frame b ++ rest) =
      replay ⟨⟨s.journal.records ++ [r]⟩, s.recordsReplayed + 1, s.cursor + 4 + b.length⟩ rest := by
  have hnext := nextFrame_append max_frame_lt hv rest
  have hne : frame b ++ rest ≠ [] := List.ne_nil_of_length_pos (by simp)
  rw [replay, if_neg hne]
  split
  · next h => rw [hnext] at h; cases h
  · next h => rw [hnext] at h; cases h
  · next body rest' h =>
    rw [hnext] at h
    cases h
    rw [mapError_eq_ok.mpr hr, ok_bind, mapError_eq_ok.mpr (adopt_eq_ok.mpr ⟨hg, rfl⟩), ok_bind]

/-- The replay of whole frames followed by an incomplete one. -/
theorem replay_frames (htail : Incomplete MAX_FRAME_BYTES tail)
    (hreads : List.Forall₂ Reads bodies rs) :
    ∀ (s : Replay), (∀ b ∈ bodies, ValidBody MAX_FRAME_BYTES b) →
      Linked JournalRecord.recordDigest Genuine s.journal.records.length s.journal.headDigest rs →
      replay s (frames bodies ++ tail) = .ok (⟨⟨s.journal.records ++ rs⟩,
        s.recordsReplayed + rs.length, s.cursor + (frames bodies).length⟩, tail.length) := by
  induction hreads with
  | nil =>
    intro s _ _
    rw [frames_nil, List.nil_append, replay_incomplete htail, List.append_nil]
    rfl
  | @cons b r bodies rs hr _ ih =>
    intro s hv hl
    obtain ⟨hb, hv⟩ := List.forall_mem_cons.mp hv
    rw [frames_cons, List.append_assoc, replay_frame_append hb hr hl.1,
      ih _ hv (by simpa [Journal.headDigest] using hl.2)]
    simp only [List.append_assoc, List.length_cons, List.length_append,
      length_frame]
    congr 3 <;> omega

/-! ### Opening a file -/

/-- The handle `open` returns for a file that holds the bodies and the records. -/
def opened (path : String) (bodies : List (List UInt8)) (rs : List JournalRecord) (synced : ℕ) :
    DurableJournal where
  path
  file := ⟨MAGIC ++ frames bodies, synced, (MAGIC ++ frames bodies).length⟩
  journal := ⟨rs⟩
  unsyncedRecords := 0
  poisoned := false

theorem wellChained_linked : WellChained rs ↔
    Linked JournalRecord.recordDigest Genuine Journal.new.records.length Journal.new.headDigest rs :=
  Iff.rfl

theorem holds_magic : Holds MAGIC [] [] [] where
  eq := rfl
  valid := nofun
  incomplete := incomplete_nil
  reads := .nil
  chained := trivial

theorem Holds.ne_nil (h : Holds content bodies tail rs) : content ≠ [] := by
  rw [h.eq]
  exact List.ne_nil_of_length_pos (by rw [List.length_append, length_magic]; omega)

theorem Holds.splits (h : Holds content bodies tail rs) :
    Splits MAX_FRAME_BYTES (content.drop MAGIC.length) bodies tail :=
  ⟨by rw [h.eq, List.drop_left], h.valid, h.incomplete⟩

theorem Holds.unique {tail' : List UInt8} {bodies' : List (List UInt8)} {rs' : List JournalRecord}
    (h : Holds content bodies tail rs) (h' : Holds content bodies' tail' rs') :
    bodies = bodies' ∧ tail = tail' ∧ rs = rs' := by
  obtain ⟨rfl, rfl⟩ := h.splits.unique max_frame_lt h'.splits
  refine ⟨rfl, rfl, ?_⟩
  have hright : Relator.RightUnique Reads := by
    intro b r r' hr hr'
    rw [Reads, hr] at hr'
    exact Except.ok.inj hr'
  exact hright.forall₂ h.reads h'.reads

theorem Holds.readHeader (h : Holds disk.content bodies tail rs) (path : String)
    (fault : OpenFault) : readHeader path fault disk disk.content =
      .ok ⟨disk.content, disk.synced, disk.content.length⟩ := by
  have hlen : ¬ (disk.content.length < MAGIC.length ∨
      disk.content.take MAGIC.length ≠ MAGIC) := by
    rw [h.eq, List.take_left, List.length_append]
    simp
  unfold Durable.readHeader
  rw [if_neg h.ne_nil, if_neg hlen]

theorem Holds.replay (h : Holds content bodies tail rs) :
    Durable.replay ⟨.new, 0, MAGIC.length⟩ (content.drop MAGIC.length) =
      .ok (⟨⟨rs⟩, rs.length, (MAGIC ++ frames bodies).length⟩, tail.length) := by
  rw [h.eq, List.drop_left, replay_frames h.incomplete h.reads _ h.valid
    (wellChained_linked.mp h.chained)]
  simp [Journal.new]

theorem holds_of_replay {torn : ℕ} (hmagic : content.take MAGIC.length = MAGIC)
    (h : replay ⟨.new, 0, MAGIC.length⟩ (content.drop MAGIC.length) = .ok (s, torn)) :
    ∃ bodies tail rs, Holds content bodies tail rs := by
  obtain ⟨bodies, tail, rs, hs, hreads, hl⟩ := replay_sound h
  refine ⟨bodies, tail, rs, ?_, hs.valid, hs.incomplete, hreads, wellChained_linked.mpr hl⟩
  calc content = content.take MAGIC.length ++ content.drop MAGIC.length :=
        (List.take_append_drop _ _).symm
    _ = MAGIC ++ (frames bodies ++ tail) := by rw [hmagic, ← hs.eq]

/-- The number of bytes on stable storage once `open` has returned: everything, if it had to cut. -/
def syncedAfterOpen (disk : Disk) (bodies : List (List UInt8)) (tail : List UInt8) : ℕ :=
  if tail = [] then disk.synced else (MAGIC ++ frames bodies).length

/-- **Opening a file that holds records**: it replays them and cuts off the tail. -/
theorem open_of_holds (h : Holds disk.content bodies tail rs) (path : String) :
    DurableJournal.openAt path .none disk = .ok
      (opened path bodies rs (syncedAfterOpen disk bodies tail),
        ⟨rs.length, tail.length, disk.existed⟩) := by
  have htake : disk.content.take (MAGIC ++ frames bodies).length = MAGIC ++ frames bodies := by
    rw [h.eq, ← List.append_assoc, List.take_left]
  simp only [DurableJournal.openAt, readFile, ok_bind, h.readHeader, h.replay, Except.mapError,
    seekTo, cutTail]
  by_cases ht : tail = []
  · have hc : disk.content = MAGIC ++ frames bodies := by rw [h.eq, ht, List.append_nil]
    simp [ht, syncedAfterOpen, opened, hc, File.seek]
  · have hpos : 0 < tail.length := List.length_pos_iff.mpr ht
    simp only [if_pos hpos, File.setLen, htake, syncedAfterOpen,
      if_neg ht]
    rfl

theorem open_of_empty (h : disk.content = []) (path : String) :
    DurableJournal.openAt path .none disk = .ok
      (opened path [] [] MAGIC.length, ⟨0, 0, disk.existed⟩) := by
  have hreplay := replay_incomplete incomplete_nil ⟨.new, 0, MAGIC.length⟩
  simp only [DurableJournal.openAt, readFile, ok_bind, h, readHeader, List.drop_nil,
    hreplay, Except.mapError, cutTail, seekTo]
  simp [File.write, File.syncAll, File.seek, opened, Journal.new]

/-- **What `open` accepts**, and with which result, whatever the operating system did. -/
theorem open_eq_ok {dj : DurableJournal} {report : RecoveryReport}
    (h : DurableJournal.openAt path fault disk = .ok (dj, report)) :
    disk.content = [] ∧ dj = opened path [] [] MAGIC.length ∧ report = ⟨0, 0, disk.existed⟩ ∨
      ∃ bodies tail rs, Holds disk.content bodies tail rs ∧
        dj = opened path bodies rs (syncedAfterOpen disk bodies tail) ∧
        report = ⟨rs.length, tail.length, disk.existed⟩ := by
  -- every call that may fail has not failed, so the result is the one without a fault
  have hnone : DurableJournal.openAt path .none disk = .ok (dj, report) := by
    simp only [DurableJournal.openAt, bind_eq_ok, Prod.exists] at h ⊢
    obtain ⟨bytes, hread, file, hhead, s, torn, hreplay, file', hcut, file'', hseek, h⟩ := h
    have hbytes : readFile path .none disk = .ok bytes := by
      cases fault <;> first | exact hread | cases hread
    refine ⟨bytes, hbytes, file, ?_, s, torn, hreplay, file', ?_, file'', ?_, h⟩
    · unfold readHeader at hhead ⊢
      split_ifs at hhead ⊢
      · cases fault <;> first | exact hhead | cases hhead
      · exact hhead
    · unfold cutTail at hcut ⊢
      split_ifs at hcut ⊢
      · cases fault <;> first | exact hcut | cases hcut
      · exact hcut
    · cases fault <;> first | exact hseek | cases hseek
  by_cases hempty : disk.content = []
  · left
    rw [open_of_empty hempty] at hnone
    cases hnone
    exact ⟨hempty, rfl, rfl⟩
  · right
    have hholds : ∃ bodies tail rs, Holds disk.content bodies tail rs := by
      simp only [DurableJournal.openAt, bind_eq_ok, Prod.exists] at hnone
      obtain ⟨_, hb, file, hhead, s, torn, hreplay, -⟩ := hnone
      cases hb
      unfold readHeader at hhead
      split_ifs at hhead with hm
      rw [not_or, not_not] at hm
      exact holds_of_replay hm.2 (mapError_eq_ok.mp hreplay)
    obtain ⟨bodies, tail, rs, hh⟩ := hholds
    rw [open_of_holds hh] at hnone
    cases hnone
    exact ⟨bodies, tail, rs, hh, rfl, rfl⟩

/-- The bytes and their durability are those of the other disk. -/
def SameBytes (disk disk' : Disk) : Prop :=
  disk'.content = disk.content ∧ disk'.synced = disk.synced

theorem readFile_cases (path : String) (fault : OpenFault) (disk : Disk) :
    readFile path fault disk = .ok disk.content ∨
      ∃ e disk', readFile path fault disk = .error (e, disk') ∧ SameBytes disk disk' := by
  cases fault with
  | createDir _ _ => exact .inr ⟨_, _, rfl, rfl, rfl⟩
  | openFile _ => exact .inr ⟨_, _, rfl, rfl, rfl⟩
  | readToEnd _ => exact .inr ⟨_, _, rfl, rfl, rfl⟩
  | _ => exact .inl rfl

variable {e : DurableJournalError} {disk' : Disk}

/-- A failed `open` of a file that holds records leaves it alone, or cuts off the tail. -/
theorem open_error_disk (hh : Holds disk.content bodies tail rs)
    (h : DurableJournal.openAt path fault disk = .error (e, disk')) :
    SameBytes disk disk' ∨ disk'.content = MAGIC ++ frames bodies ∧
      min disk.synced (MAGIC ++ frames bodies).length ≤ disk'.synced := by
  have htake : disk.content.take (MAGIC ++ frames bodies).length = MAGIC ++ frames bodies := by
    rw [hh.eq, ← List.append_assoc, List.take_left]
  rcases readFile_cases path fault disk with hread | ⟨e', disk'', hread, hsame⟩
  · simp only [DurableJournal.openAt, hread, hh.readHeader, hh.replay, Except.mapError, ok_bind,
      bind_eq_error] at h
    rcases h with h | ⟨file, hcut, h | ⟨_, _, h⟩⟩
    · -- the cut failed
      unfold cutTail at h
      split_ifs at h
      cases fault with
      | truncate applied _ =>
        cases applied
        · cases h; exact .inl ⟨rfl, rfl⟩
        · cases h; exact .inr ⟨htake, le_rfl⟩
      | _ => cases h
    · -- the seek behind it failed
      have hdisk : disk' = file.disk := by
        cases fault with
        | seek _ => cases h; rfl
        | _ => cases h
      unfold cutTail at hcut
      split_ifs at hcut
      · cases fault with
        | seek _ =>
          cases hcut
          right
          rw [hdisk]
          refine ⟨htake, ?_⟩
          change _ ≤ (disk.content.take (MAGIC ++ frames bodies).length).length
          rw [htake]
          exact Nat.min_le_right _ _
        | _ => cases h
      · cases hcut
        rw [hdisk]
        exact .inl ⟨rfl, rfl⟩
    · cases h
  · simp only [DurableJournal.openAt, hread] at h
    cases h
    exact .inl hsame

/-- A failed `open` of a file too short for a journal leaves it so, or writes the header. -/
theorem open_error_short (hshort : disk.content.length < MAGIC.length)
    (h : DurableJournal.openAt path fault disk = .error (e, disk')) :
    disk'.content.length < MAGIC.length ∨ disk'.content = MAGIC := by
  rcases readFile_cases path fault disk with hread | ⟨e', disk'', hread, hsame⟩
  · by_cases hempty : disk.content = []
    · have hreplay := replay_incomplete incomplete_nil ⟨.new, 0, MAGIC.length⟩
      simp only [DurableJournal.openAt, hread, ok_bind, hempty, List.drop_nil,
        hreplay] at h
      cases fault with
      | header written message =>
        have hdisk : disk'.content = MAGIC.take written := by cases h; rfl
        rw [hdisk, List.length_take]
        by_cases hwritten : written < MAGIC.length
        · omega
        · exact .inr (List.take_of_length_le (by omega))
      | seek message =>
        right
        cases h
        rfl
      | _ => cases h
    · have hheader : readHeader path fault disk disk.content =
          .error (.notAJournal path, { disk with existed := true }) := by
        unfold readHeader
        rw [if_neg hempty, if_pos (.inl hshort)]
      simp only [DurableJournal.openAt, hread, ok_bind, hheader] at h
      cases h
      exact .inl hshort
  · simp only [DurableJournal.openAt, hread] at h
    cases h
    rw [hsame.1]
    exact .inl hshort

/-! ### Cutting and extending a file -/

/-- **A cut behind the header** leaves the records whose frames end before it. -/
theorem Holds.take (h : Holds content bodies tail rs) {c : ℕ} (hc : MAGIC.length ≤ c) :
    ∃ k ≤ rs.length, ∃ tail', Holds (content.take c) (bodies.take k) tail' (rs.take k) ∧
      ∀ j ≤ rs.length, (MAGIC ++ frames (bodies.take j)).length ≤ c → j ≤ k := by
  obtain ⟨k, hk, tail', hs, hmax⟩ := h.splits.take max_frame_lt (c - MAGIC.length)
  have hlen := h.reads.length_eq
  refine ⟨k, hlen ▸ hk, tail', ⟨?_, hs.valid, hs.incomplete, ?_, ?_⟩, fun j hj hjc => ?_⟩
  · rw [← hs.eq, h.eq, List.drop_left, List.take_append, List.take_of_length_le hc]
  · exact List.forall₂_take k h.reads
  · exact Linked.of_prefix h.chained (List.take_prefix k rs)
  · rw [List.length_append] at hjc
    exact hmax j (hlen ▸ hj) (by omega)

theorem Holds.append (h : Holds content bodies [] rs) (hb : ValidBody MAX_FRAME_BYTES b)
    (hr : Reads b r) (hg : Genuine rs.length (Journal.headDigest ⟨rs⟩) r) :
    Holds (content ++ frame b) (bodies ++ [b]) [] (rs ++ [r]) := by
  refine ⟨?_, ?_, incomplete_nil, List.rel_append h.reads (.cons hr .nil),
    wellChained_concat.mpr ⟨h.chained, hg⟩⟩
  · rw [h.eq]
    simp [frames]
  · rw [List.forall_mem_append]
    exact ⟨h.valid, by simpa using hb⟩

theorem Holds.append_torn (h : Holds content bodies [] rs) (hb : ValidBody MAX_FRAME_BYTES b)
    {n : ℕ} (hn : n < (frame b).length) :
    Holds (content ++ (frame b).take n) bodies ((frame b).take n) rs := by
  refine ⟨?_, h.valid, incomplete_take_frame max_frame_lt hb hn, h.reads, h.chained⟩
  rw [h.eq]
  simp

end ArkForge.Engine.Replay
