import ArkForge.Engine.Handle

/-! # Torn tails

What `append` wrote to a fresh file can be cut anywhere behind the header: `open` replays the records
whose frames are complete, reports the bytes behind them, cuts them off, and finds nothing torn the
next time. -/

namespace ArkForge.Engine.TornTail

open Lib.Framing
open Core.Digest
open Record Durable Replay
open Handle
open JournalRecord (SameUpToFactOrder)

/-! ### Runs of accepted appends -/

/-- The handle after the calls, if each of them returns `Ok`. -/
def appendAll (dj : DurableJournal) : List (AppendIo × Entry) → Option DurableJournal
  | [] => some dj
  | (io, e) :: calls =>
    match dj.append io e with
    | (.ok _, dj') => appendAll dj' calls
    | (.error _, _) => none

/-- A live handle whose file is the stored form of its records. -/
structure Wrote (dj : DurableJournal) (bodies : List (List UInt8)) (rs : List JournalRecord) :
    Prop where
  alive : dj.poisoned = false
  tracks : ∃ n, Tracks dj bodies [] rs n
  stored : List.Forall₂ StoredAs dj.journal.records bodies

theorem Wrote.append {dj dj' : DurableJournal} {bodies : List (List UInt8)}
    {rs : List JournalRecord} {io : AppendIo} {e : Entry} {d : Sha256Digest} (h : Wrote dj bodies rs)
    (ha : dj.append io e = (.ok d, dj')) : ∃ bodies' rs' r, Wrote dj' bodies' rs' ∧ Carries e r ∧
      dj'.journal.records = dj.journal.records ++ [r] := by
  obtain ⟨n, ht⟩ := h.tracks
  have hstep := append_step dj io e
  rw [ha] at hstep
  obtain ⟨bodies', tail', rs', n', ht', -, -, hok, -⟩ := ht.append hstep
  obtain ⟨r, -, hadd⟩ := hok d rfl
  obtain ⟨b, hb, rfl⟩ := hadd.body
  obtain rfl := ht'.clean hadd.alive'
  refine ⟨_, rs', r, ⟨hadd.alive', ⟨n', ht'⟩, ?_⟩, hadd.carries, hadd.chain⟩
  rw [hadd.chain]
  exact List.rel_append h.stored (.cons hb .nil)

theorem Wrote.appendAll {calls : List (AppendIo × Entry)} : ∀ {dj dj' : DurableJournal}
    {bodies : List (List UInt8)} {rs : List JournalRecord}, Wrote dj bodies rs →
      TornTail.appendAll dj calls = some dj' → ∃ bodies' rs' added, Wrote dj' bodies' rs' ∧
        dj'.journal.records = dj.journal.records ++ added ∧
        List.Forall₂ (fun call r => Carries call.2 r) calls added := by
  induction calls with
  | nil =>
    intro dj dj' bodies rs h hrun
    cases hrun
    exact ⟨bodies, rs, [], h, by simp, .nil⟩
  | cons call calls ih =>
    intro dj dj' bodies rs h hrun
    rw [TornTail.appendAll] at hrun
    split at hrun
    · next d dj₁ ha =>
      obtain ⟨bodies₁, rs₁, r, h₁, hr, hrec⟩ := h.append ha
      obtain ⟨bodies', rs', added, h', hrec', hadded⟩ := ih h₁ hrun
      refine ⟨bodies', rs', r :: added, h', ?_, .cons hr hadded⟩
      rw [hrec', hrec, List.append_assoc, List.singleton_append]
    · cases hrun

/-! ### Complete frames -/

/-- Where the `i`-th frame ends in the file. -/
def frameEnd (bodies : List (List UInt8)) (i : ℕ) : ℕ := (MAGIC ++ frames (bodies.take i)).length

/-- How many frames end within the first `c` bytes. -/
def completeFrames (bodies : List (List UInt8)) (c : ℕ) : ℕ :=
  ((List.range bodies.length).filter fun i => frameEnd bodies (i + 1) ≤ c).length

theorem length_filter_lt_range (k n : ℕ) :
    ((List.range n).filter fun i => i < k).length = min k n := by
  induction n with
  | zero => simp
  | succ n ih =>
    rw [List.range_succ]
    by_cases h : n < k <;> simp [h] <;> omega

theorem completeFrames_eq {bodies : List (List UInt8)} {c k : ℕ} (hk : k ≤ bodies.length)
    (hc : frameEnd bodies k ≤ c) (hmax : ∀ j ≤ bodies.length, frameEnd bodies j ≤ c → j ≤ k) :
    completeFrames bodies c = k := by
  have hfilter : ∀ i ∈ List.range bodies.length,
      decide (frameEnd bodies (i + 1) ≤ c) = decide (i < k) := by
    intro i hi
    have hi' := List.mem_range.mp hi
    rw [decide_eq_decide]
    constructor
    · exact fun h => hmax (i + 1) hi' h
    · intro h
      refine le_trans ?_ hc
      rw [frameEnd, frameEnd, List.length_append, List.length_append]
      exact Nat.add_le_add_left (length_frames_take_mono bodies h) _
  rw [completeFrames, List.filter_congr hfilter, length_filter_lt_range, Nat.min_eq_left hk]

/-! ### The torn-tail law -/

theorem wrote_fresh {path : String} {disk : Disk} {dj : DurableJournal} {report : RecoveryReport}
    (hfresh : disk.content = []) (ho : DurableJournal.openAt path .none disk = .ok (dj, report)) :
    Wrote dj [] [] ∧ dj.journal.records = [] := by
  rw [open_of_empty hfresh] at ho
  cases ho
  have hh := holds_magic
  exact ⟨⟨rfl, ⟨0, tracks_opened hh path (.inl rfl) le_rfl⟩, .nil⟩, rfl⟩

/-- **The torn-tail law.** Whatever `append` accepted on a fresh file, and wherever behind the header
the file is cut: `open` replays the records of the complete frames, up to the order of facts, reports
and removes the rest, and a second `open` finds the same records and nothing torn. -/
theorem torn_tail_law (path : String) (fresh : Disk) (hfresh : fresh.content = [])
    (dj₀ : DurableJournal) (report₀ : RecoveryReport)
    (hopen : DurableJournal.openAt path .none fresh = .ok (dj₀, report₀))
    (calls : List (AppendIo × Entry)) (dj : DurableJournal)
    (hrun : appendAll dj₀ calls = some dj) :
    List.Forall₂ (fun call r => Carries call.2 r) calls dj.journal.records ∧
    ∃ bodies, List.Forall₂ StoredAs dj.journal.records bodies ∧
      dj.file.content = MAGIC ++ frames bodies ∧
      ∀ c, 8 ≤ c → c ≤ dj.file.content.length → ∀ cut : Disk,
        cut.content = dj.file.content.take c →
        ∃ dj₁ report₁, DurableJournal.openAt path .none cut = .ok (dj₁, report₁) ∧
          List.Forall₂ SameUpToFactOrder (dj.journal.records.take (completeFrames bodies c))
            dj₁.journal.records ∧
          report₁.recordsReplayed = completeFrames bodies c ∧
          report₁.tornTailBytes = c - frameEnd bodies (completeFrames bodies c) ∧
          dj₁.file.content = MAGIC ++ frames (bodies.take (completeFrames bodies c)) ∧
          ∃ dj₂ report₂, DurableJournal.openAt path .none dj₁.file.disk = .ok (dj₂, report₂) ∧
            report₂.tornTailBytes = 0 ∧ report₂.recordsReplayed = completeFrames bodies c ∧
            dj₂.journal = dj₁.journal := by
  obtain ⟨hwrote, hempty⟩ := wrote_fresh hfresh hopen
  obtain ⟨bodies, rs, added, h, hrec, hcalls⟩ := hwrote.appendAll hrun
  rw [hempty] at hrec
  obtain ⟨n, ht⟩ := h.tracks
  have hcontent : dj.file.content = MAGIC ++ frames bodies := by
    rw [ht.holds.eq, List.append_nil]
  refine ⟨hrec ▸ hcalls, bodies, h.stored, hcontent, fun c hc hle cut hcut => ?_⟩
  obtain ⟨k, hk, tail, hh, hmax⟩ := ht.holds.take (length_magic ▸ hc)
  have hlen := ht.holds.reads.length_eq
  -- the cut keeps `c` bytes, which are the header, `k` frames and the torn ones
  have htorn : c = frameEnd bodies k + tail.length := by
    have hl := congrArg List.length hh.eq
    rw [List.length_take, Nat.min_eq_left hle, ← List.append_assoc, List.length_append] at hl
    exact hl
  have hcount : completeFrames bodies c = k :=
    completeFrames_eq (hlen ▸ hk) (by omega) (by rw [hlen]; exact hmax)
  rw [hcount]
  rw [← hcut] at hh
  have hsame := List.forall₂_take k (ht.same h.alive)
  refine ⟨_, _, open_of_holds hh path, hsame, ?_, by dsimp only; omega, rfl, ?_⟩
  · rw [List.length_take, Nat.min_eq_left hk]
  · have hh₁ : Holds (opened path (bodies.take k) (rs.take k)
        (syncedAfterOpen cut (bodies.take k) tail)).file.disk.content (bodies.take k) []
        (rs.take k) :=
      ⟨by simp [opened, File.disk], hh.valid, incomplete_nil, hh.reads, hh.chained⟩
    refine ⟨_, _, open_of_holds hh₁ path, rfl, ?_, rfl⟩
    rw [List.length_take, Nat.min_eq_left hk]

/-- The law for one stored plan, cut in the middle of its frame. -/
theorem torn_tail_law_one :
    ∃ dj, appendAll (opened "journal.cbor" [] [] 8)
        [(flawless, ⟨.planStored, 1000, 1, ⟨"PLAN-1", by decide⟩, []⟩)] = some dj ∧
      ∃ bodies, List.Forall₂ StoredAs dj.journal.records bodies ∧
        ∃ dj₁ report₁,
          DurableJournal.openAt "journal.cbor" .none ⟨true, dj.file.content.take 9, 9⟩ =
            .ok (dj₁, report₁) ∧
          report₁.recordsReplayed = completeFrames bodies 9 := by
  have hopen : DurableJournal.openAt "journal.cbor" .none ⟨false, [], 0⟩ =
      .ok (opened "journal.cbor" [] [] 8, ⟨0, 0, false⟩) := open_of_empty rfl "journal.cbor"
  have hprep : ∃ r b, (opened "journal.cbor" [] [] 8).prepare
      ⟨.planStored, 1000, 1, ⟨"PLAN-1", by decide⟩, []⟩ = .ok (r, b) :=
    exists_prepare (v := 0) List.nodup_nil (by simp) (by decide)
  obtain ⟨r, b, hprep⟩ := hprep
  obtain ⟨dj, hdj⟩ := append_flawless rfl hprep
  have hrun : appendAll (opened "journal.cbor" [] [] 8)
      [(flawless, ⟨.planStored, 1000, 1, ⟨"PLAN-1", by decide⟩, []⟩)] = some dj := by
    rw [appendAll, hdj]
    rfl
  obtain ⟨hcalls, bodies, hb, hc, hlaw⟩ :=
    torn_tail_law "journal.cbor" ⟨false, [], 0⟩ rfl _ _ hopen _ dj hrun
  have hlen : bodies.length = 1 := hb.length_eq.symm.trans hcalls.length_eq.symm
  obtain ⟨body, rfl⟩ := List.length_eq_one_iff.mp hlen
  have hle : 9 ≤ dj.file.content.length := by
    rw [hc]
    simp [length_magic]
    omega
  obtain ⟨dj₁, report₁, ho, -, hk, -⟩ := hlaw 9 (by decide) hle ⟨true, _, 9⟩ rfl
  exact ⟨dj, hrun, [body], hb, dj₁, report₁, ho, hk⟩

end ArkForge.Engine.TornTail
