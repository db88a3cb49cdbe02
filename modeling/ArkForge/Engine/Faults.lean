import ArkForge.Engine.StoredForm

/-! # A journal handle under every fault

A session is a run of `append` and `sync` calls on one handle, each with an answer of the operating
system. While the handle is not poisoned the file is the stored form of the chain; a refused append
changes nothing; a poisoned handle writes nothing; and the file can be reopened at any time, also
after a crash, with every record whose durable append returned `Ok`. -/

namespace ArkForge.Engine.Faults

open Lib.Result Lib.Framing
open Record Chain Durable Replay
open Handle StoredForm
open JournalRecord (SameUpToFactOrder OnlyRecordFields sameUpToFactOrder_sortFacts)

inductive Call where
  | append (io : AppendIo) (e : Entry)
  | sync (outcome : SyncOutcome)

/-- A handle, and the records whose durable append on it returned `Ok`. -/
structure Session where
  handle : DurableJournal
  durable : List JournalRecord

namespace Session

def step (s : Session) : Call → Session
  | .append io e =>
    match s.handle.append io e with
    | (.ok _, dj) =>
      ⟨dj, if e.kind.fsyncPolicy = .durable then s.durable ++ dj.journal.records.getLast?.toList
        else s.durable⟩
    | (.error _, dj) => ⟨dj, s.durable⟩
  | .sync outcome => ⟨(s.handle.sync outcome).2, s.durable⟩

def run (s : Session) (calls : List Call) : Session := calls.foldl step s

end Session

/-! ### The properties -/

/-- The append is refused before it writes: its facts repeat a key, or its frame is too long. -/
def Refused (dj : DurableJournal) (e : Entry) : Prop :=
  ¬ (e.facts.map Prod.fst).Nodup ∨
    ∃ r b, dj.journal.prepareRecord e.kind e.atEpochMs e.jobRevision e.subject e.facts = .ok r ∧
      r.toCanonicalBytes = .ok b ∧ MAX_FRAME_BYTES < b.length

/-- What is said of a handle and its file in one state of a session. -/
structure Sound (path : String) (s : Session) : Prop where
  file : s.handle.poisoned = false →
    IsStoredForm s.handle.file.content s.handle.journal.records ∧ s.handle.journal.verify = .ok ()
  refused : ∀ io e, Refused s.handle e →
    ∃ error, s.handle.append io e = (.error error, s.handle)
  silent : s.handle.poisoned = true → ∀ calls, (s.run calls).handle = s.handle
  reopen : ∀ m, MAGIC.length ≤ m → s.handle.file.synced ≤ m → ∀ disk : Disk,
    disk.content = s.handle.file.content.take m → ∃ dj report,
      DurableJournal.openAt path .none disk = .ok (dj, report) ∧
      ∃ kept, kept.Sublist dj.journal.records ∧ List.Forall₂ SameUpToFactOrder s.durable kept

variable {dj : DurableJournal}

theorem append_refused {e : Entry} (h : Refused dj e) (io : AppendIo) :
    ∃ error, dj.append io e = (.error error, dj) := by
  have hprep : ∀ r b, dj.prepare e ≠ .ok (r, b) := by
    intro r b hp
    have hr := prepared_of_prepare hp
    rcases h with hdup | ⟨r', b', hr', hb', hlong⟩
    · rw [← hr.carries.facts] at hdup
      exact hdup (JournalRecord.stored_encodes.mp ⟨b, hr.stored⟩)
    · simp only [DurableJournal.prepare, hr', hb', Except.mapError, ok_bind] at hp
      rw [if_neg (by omega)] at hp
      cases hp
  unfold DurableJournal.append
  split
  · exact ⟨_, rfl⟩
  · split
    · exact ⟨_, rfl⟩
    · next r b hp => exact absurd hp (hprep r b)

variable {s : Session}

theorem step_poisoned (h : s.handle.poisoned = true) (call : Call) :
    (s.step call).handle = s.handle := by
  cases call with
  | append io e => rw [Session.step, append_poisoned h]
  | sync outcome => rw [Session.step, sync_poisoned h]

theorem run_poisoned : ∀ {s : Session}, s.handle.poisoned = true → ∀ calls : List Call,
    (s.run calls).handle = s.handle
  | _, _, [] => rfl
  | s, h, call :: calls => by
    have hs := step_poisoned h call
    have hrun := run_poisoned (s := s.step call) (by rw [hs]; exact h) calls
    exact hrun.trans hs

/-! ### The invariant of a session -/

/-- The file holds records, the first `n` of them on stable storage, and these have every record
whose durable append returned `Ok`. -/
structure Keeps (s : Session) (bodies : List (List UInt8)) (tail : List UInt8)
    (rs : List JournalRecord) (n : ℕ) : Prop where
  tracks : Tracks s.handle bodies tail rs n
  kept : ∃ kept, kept.Sublist (rs.take n) ∧ List.Forall₂ SameUpToFactOrder s.durable kept

/-- The chain is stored as the bodies, while the handle is not poisoned. -/
def Stored (s : Session) (bodies : List (List UInt8)) : Prop :=
  s.handle.poisoned = false → List.Forall₂ StoredAs s.handle.journal.records bodies

variable {rs : List JournalRecord}

theorem take_sublist_take {rs' : List JournalRecord} {n n' : ℕ} (hp : rs <+: rs') (hn : n ≤ n') :
    (rs.take n).Sublist (rs'.take n') := by
  obtain ⟨t, rfl⟩ := hp
  have h1 : (rs.take n).Sublist ((rs ++ t).take n) := by
    rw [List.take_append]
    exact List.sublist_append_left _ _
  exact h1.trans (List.take_prefix_take_left hn).sublist

variable {bodies : List (List UInt8)} {tail : List UInt8}

/-- **One call keeps the invariant.** -/
theorem Keeps.step {n : ℕ} (h : Keeps s bodies tail rs n) (call : Call) :
    ∃ bodies' tail' rs' n', Keeps (s.step call) bodies' tail' rs' n' ∧
      (Stored s bodies → Stored (s.step call) bodies') := by
  obtain ⟨kept, hkept, hsame⟩ := h.kept
  cases call with
  | sync outcome =>
    obtain ⟨n', hn, ht⟩ := h.tracks.sync outcome
    refine ⟨bodies, tail, rs, n', ⟨ht, kept, ?_, hsame⟩, fun hs hp => ?_⟩
    · exact hkept.trans (take_sublist_take List.prefix_rfl hn)
    · have halive : s.handle.poisoned = false := alive_of_sync hp
      change List.Forall₂ StoredAs (s.handle.sync outcome).2.journal.records bodies
      rw [sync_journal]
      exact hs halive
  | append io e =>
    have hstep := append_step s.handle io e
    rw [Session.step]
    rcases hres : s.handle.append io e with ⟨res, dj⟩
    rw [hres] at hstep
    obtain ⟨bodies', tail', rs', n', ht, hgain, hn, hok, herr⟩ := h.tracks.append hstep
    have hkept' := hkept.trans (take_sublist_take hgain.isPrefix hn)
    cases res with
    | error error =>
      refine ⟨bodies', tail', rs', n', ⟨ht, kept, hkept', hsame⟩, fun hs hp => ?_⟩
      rcases (herr error rfl).2 with ⟨rfl, rfl, rfl⟩ | hpoisoned
      · exact hs hp
      · exact absurd (hp.symm.trans hpoisoned) nofun
    | ok d =>
      obtain ⟨r, -, hadd⟩ := hok d rfl
      refine ⟨bodies', tail', rs', n', ⟨ht, ?_⟩, fun hs _ => ?_⟩
      · dsimp only
        split_ifs with hd
        · -- the new record is the last one, and all of them are on stable storage
          have hchain : dj.journal.records = s.handle.journal.records ++ [r] := hadd.chain
          have hlast : dj.journal.records.getLast?.toList = [r] := by simp [hchain]
          refine ⟨kept ++ [r.sortFacts], ?_, ?_⟩
          · rw [hadd.durable hd, List.take_length, hadd.record]
            exact (hkept.trans (List.take_sublist n rs)).append_right _
          · rw [hlast]
            exact List.rel_append hsame (.cons (sameUpToFactOrder_sortFacts r) .nil)
        · exact ⟨kept, hkept', hsame⟩
      · obtain ⟨b, hb, rfl⟩ := hadd.body
        rw [hadd.chain]
        exact List.rel_append (hs hadd.alive) (.cons hb .nil)

theorem Keeps.run : ∀ (calls : List Call) {s : Session} {bodies : List (List UInt8)}
    {tail : List UInt8} {rs : List JournalRecord} {n : ℕ}, Keeps s bodies tail rs n →
      ∃ bodies' tail' rs' n', Keeps (s.run calls) bodies' tail' rs' n' ∧
        (Stored s bodies → Stored (s.run calls) bodies')
  | [], _, bodies, tail, rs, n, h => ⟨bodies, tail, rs, n, h, id⟩
  | call :: calls, _, _, _, _, _, h => by
    obtain ⟨bodies₁, tail₁, rs₁, n₁, h₁, hs₁⟩ := h.step call
    obtain ⟨bodies', tail', rs', n', h', hs'⟩ := h₁.run calls
    exact ⟨bodies', tail', rs', n', h', fun hs => hs' (hs₁ hs)⟩

/-- A state whose chain is stored as its frames is sound. -/
theorem Keeps.sound {n : ℕ} (h : Keeps s bodies tail rs n) (hs : Stored s bodies) (path : String) :
    Sound path s where
  file hp := by
    have hcontent := h.tracks.holds.eq
    rw [h.tracks.clean hp, List.append_nil] at hcontent
    refine ⟨⟨bodies, hs hp, fun b hb => ?_, hcontent⟩, ?_⟩
    · exact Nat.lt_of_le_of_lt (h.tracks.holds.valid b hb).2 (by decide)
    · exact verify_eq_ok.mpr ((wellChained_congr (h.tracks.same hp)).mpr h.tracks.holds.chained)
  refused io e he := append_refused he io
  silent hp calls := run_poisoned hp calls
  reopen m hmagic hm disk hdisk := by
    obtain ⟨k, hk, hnk, -, tail', hh⟩ :=
      holds_crash h.tracks.holds h.tracks.stamped h.tracks.le hm hmagic
    obtain ⟨kept, hkept, hsame⟩ := h.kept
    rw [← hdisk] at hh
    refine ⟨_, _, open_of_holds hh path, kept, ?_, hsame⟩
    exact hkept.trans (List.take_prefix_take_left hnk).sublist

/-! ### Handle and file -/

theorem keeps_opened {path : String} {fault : OpenFault} {disk : Disk} {report : RecoveryReport}
    (h : DurableJournal.openAt path fault disk = .ok (dj, report)) :
    ∃ bodies rs, Keeps ⟨dj, []⟩ bodies [] rs 0 ∧ dj.poisoned = false ∧ dj.journal.records = rs ∧
      (CleanFrames disk.content ↔ ∀ b ∈ bodies, OnlyRecordFields b) := by
  rcases open_eq_ok h with ⟨hempty, rfl, -⟩ | ⟨bodies, tail, rs, hh, rfl, -⟩
  · have hh := holds_magic
    refine ⟨[], [], ⟨tracks_opened hh path (.inl rfl) le_rfl, [], by simp, .nil⟩, rfl, rfl, ?_⟩
    refine ⟨by simp, fun _ bodies tail heq => ?_⟩
    rw [hempty] at heq
    have hlen := congrArg List.length heq
    rw [List.length_append, length_magic, List.length_nil] at hlen
    omega
  · exact ⟨bodies, rs, ⟨tracks_opened hh path (.inl rfl) (Nat.zero_le _), [], by simp, .nil⟩, rfl,
      rfl, cleanFrames_iff hh⟩

/-- **When handle and file agree under every fault.** After any `open`, every state of every run of
`append` and `sync` is sound exactly when the frames of the opened file hold only record fields. -/
theorem handle_file_invariant_iff (path : String) (fault : OpenFault) (disk : Disk)
    (dj : DurableJournal) (report : RecoveryReport)
    (hopen : DurableJournal.openAt path fault disk = .ok (dj, report)) :
    (∀ calls, Sound path (Session.run ⟨dj, []⟩ calls)) ↔ CleanFrames disk.content := by
  obtain ⟨bodies, rs, hk, hp, rfl, hclean⟩ := keeps_opened hopen
  have hh := hk.tracks.holds
  constructor
  · intro hall
    have hform := ((hall []).file hp).1
    exact hclean.mpr ((cleanFrames_iff hh).mp ((storedForm_iff hh).mp hform))
  · intro hc calls
    have hstored : Stored ⟨dj, []⟩ bodies := fun _ =>
      (forall₂_storedAs_iff hh.reads hh.valid).mpr (hclean.mp hc)
    obtain ⟨bodies', tail', rs', n', hk', hs'⟩ := hk.run calls
    exact hk'.sound (hs' hstored) path

/-- The handle of a file with an entry that is not a record field: its frames are not those of its
records. -/
theorem handle_file_mismatch :
    ¬ ∀ (path : String) (fault : OpenFault) (disk : Disk) (dj : DurableJournal)
      (report : RecoveryReport), DurableJournal.openAt path fault disk = .ok (dj, report) →
      ∀ calls, Sound path (Session.run ⟨dj, []⟩ calls) := by
  intro hall
  obtain ⟨content, b, r, hh, hb⟩ := @exists_one_record [("x", .null)] (.inr rfl)
  have hsound := hall "journal.cbor" .none ⟨true, content, content.length⟩ _ _
    (open_of_holds hh "journal.cbor") []
  have hcontent : content = MAGIC ++ frames [b] := by rw [hh.eq, List.append_nil]
  have hform := (hsound.file rfl).1
  change IsStoredForm (MAGIC ++ frames [b]) [r] at hform
  rw [← hcontent] at hform
  exact nomatch hb.mp ((cleanFrames_iff hh).mp ((storedForm_iff hh).mp hform) b (by simp))

/-- The invariant for a file that was just created. -/
theorem handle_file_invariant_fresh :
    (∀ calls, Sound "journal.cbor" (Session.run ⟨opened "journal.cbor" [] [] 8, []⟩ calls)) ↔
      CleanFrames [] :=
  handle_file_invariant_iff "journal.cbor" .none ⟨false, [], 0⟩ _ _ (open_of_empty rfl _)

end ArkForge.Engine.Faults
