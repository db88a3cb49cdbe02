import ArkForge.Engine.Replay

/-! # An open journal and its file

`append_step` says what one `append` can do to a handle. From it follows what every run of `append`
and `sync` keeps, whatever the operating system answers (`Tracks`): the file holds records, and while
the handle is not poisoned they are the in-memory ones, up to the order of facts. `n` counts the
records on stable storage; no crash takes them away. -/

namespace ArkForge.Engine.Handle

open Lib.Result Lib.Framing
open Core.Cbor Core.CborMap Core.Digest Core.Ids
open Record Chain Durable Replay
open JournalRecord (SameUpToFactOrder sameUpToFactOrder_sortFacts)

/-! ### What one call can do -/

def committed (dj : DurableJournal) (r : JournalRecord) (b : List UInt8) : DurableJournal :=
  { dj with
    file := dj.file.write (frame b)
    journal := dj.journal.commitRecord r
    unsyncedRecords := dj.unsyncedRecords + 1 }

/-- The possible outcomes of an `append`. -/
inductive AppendStep (dj : DurableJournal) (e : Entry) :
    Except DurableJournalError Sha256Digest → DurableJournal → Prop where
  | refused (error : DurableJournalError) : AppendStep dj e (.error error) dj
  | torn {r b} (n : ℕ) (error : DurableJournalError) : dj.poisoned = false →
      dj.prepare e = .ok (r, b) → AppendStep dj e (.error error)
        { dj with file := dj.file.write ((frame b).take n), poisoned := true }
  | unsynced {r b} (error : DurableJournalError) : dj.poisoned = false →
      dj.prepare e = .ok (r, b) →
      AppendStep dj e (.error error) { committed dj r b with poisoned := true }
  | buffered {r b} : dj.poisoned = false → dj.prepare e = .ok (r, b) →
      e.kind.fsyncPolicy = .buffered → AppendStep dj e (.ok r.recordDigest) (committed dj r b)
  | durable {r b} : dj.poisoned = false → dj.prepare e = .ok (r, b) →
      e.kind.fsyncPolicy = .durable → AppendStep dj e (.ok r.recordDigest)
        { committed dj r b with file := (committed dj r b).file.syncAll, unsyncedRecords := 0 }

/-- The record says what the entry asked to record. -/
structure Carries (e : Entry) (r : JournalRecord) : Prop where
  kind : r.kind = e.kind
  atEpochMs : r.atEpochMs = e.atEpochMs
  jobRevision : r.jobRevision = e.jobRevision
  subject : r.subject = e.subject
  facts : r.facts = e.facts

/-- What a record that may be written is. -/
structure Prepared (dj : DurableJournal) (e : Entry) (r : JournalRecord) (b : List UInt8) : Prop where
  genuine : Genuine dj.journal.records.length dj.journal.headDigest r
  carries : Carries e r
  stored : r.toCanonicalBytes = .ok b
  valid : ValidBody MAX_FRAME_BYTES b

variable {e : Entry} {r : JournalRecord} {b : List UInt8} {dj : DurableJournal}

theorem prepared_of_prepare (h : dj.prepare e = .ok (r, b)) :
    Prepared dj e r b := by
  simp only [DurableJournal.prepare, bind_eq_ok, mapError_eq_ok] at h
  obtain ⟨r', hr, b', hb, h⟩ := h
  split_ifs at h with hlen
  cases h
  obtain ⟨hg, hkind, hat, hrevision, hsubject, hfacts⟩ := prepareRecord_eq_ok hr
  exact ⟨hg, ⟨hkind, hat, hrevision, hsubject, hfacts⟩, hb, hlen⟩

theorem Prepared.reads (h : Prepared dj e r b) : Reads b r.sortFacts :=
  JournalRecord.fromCanonicalBytes_toCanonicalBytes h.stored
    (Nat.lt_of_le_of_lt h.valid.2 (by decide))

theorem append_step (dj : DurableJournal) (io : AppendIo) (e : Entry) :
    AppendStep dj e (dj.append io e).1 (dj.append io e).2 := by
  unfold DurableJournal.append
  split
  · exact .refused _
  · next hp =>
    have hp : dj.poisoned = false := by simpa using hp
    split
    · exact .refused _
    · next r b hprep =>
      have hpolicy : r.fsyncPolicy = e.kind.fsyncPolicy := by
        rw [(prepared_of_prepare hprep).genuine.consistent.fsyncPolicy,
          (prepared_of_prepare hprep).carries.kind]
      unfold DurableJournal.writeFrame
      split
      · dsimp only
        split_ifs with hfull
        · rw [hfull, List.take_length]
          unfold DurableJournal.commit
          split_ifs with hd
          · split
            · exact .unsynced _ hp hprep
            · exact .durable hp hprep (hpolicy ▸ hd)
          · refine .buffered hp hprep ?_
            rw [hpolicy] at hd
            cases hk : e.kind.fsyncPolicy with
            | durable => exact absurd hk hd
            | buffered => rfl
        · exact .torn _ _ hp hprep
      · exact .torn _ _ hp hprep

theorem append_poisoned (h : dj.poisoned = true) (io : AppendIo) (e : Entry) :
    dj.append io e = (.error (.poisoned dj.path), dj) := by
  rw [DurableJournal.append, if_pos h]

theorem sync_poisoned (h : dj.poisoned = true) (outcome : SyncOutcome) :
    dj.sync outcome = (.error (.poisoned dj.path), dj) := by
  unfold DurableJournal.sync
  rw [if_pos h]

theorem sync_journal (dj : DurableJournal) (outcome : SyncOutcome) :
    (dj.sync outcome).2.journal = dj.journal := by
  unfold DurableJournal.sync
  split
  · rfl
  · split <;> rfl

theorem alive_of_sync {outcome : SyncOutcome}
    (h : (dj.sync outcome).2.poisoned = false) : dj.poisoned = false := by
  cases hp : dj.poisoned with
  | false => rfl
  | true => rw [sync_poisoned hp] at h; exact hp.symm.trans h

variable {res : Except DurableJournalError Sha256Digest} {dj' : DurableJournal}

theorem AppendStep.records (h : AppendStep dj e res dj') :
    dj'.journal.records = dj.journal.records ∨
      ∃ r, Carries e r ∧ (r.facts.map Prod.fst).Nodup ∧
        dj'.journal.records = dj.journal.records ++ [r] := by
  have hnew : ∀ {r b}, dj.prepare e = .ok (r, b) → Carries e r ∧ (r.facts.map Prod.fst).Nodup := by
    intro r b hprep
    have hr := prepared_of_prepare hprep
    exact ⟨hr.carries, hr.genuine.consistent.nodup_facts⟩
  cases h with
  | refused _ => exact .inl rfl
  | torn _ _ _ _ => exact .inl rfl
  | unsynced _ _ hprep => exact .inr ⟨_, (hnew hprep).1, (hnew hprep).2, rfl⟩
  | buffered _ hprep _ => exact .inr ⟨_, (hnew hprep).1, (hnew hprep).2, rfl⟩
  | durable _ hprep _ => exact .inr ⟨_, (hnew hprep).1, (hnew hprep).2, rfl⟩

theorem AppendStep.of_poisoned (h : AppendStep dj e res dj')
    (hp : dj.poisoned = true) : dj' = dj := by
  cases h with
  | refused _ => rfl
  | torn _ _ halive _ => simp [hp] at halive
  | unsynced _ halive _ => simp [hp] at halive
  | buffered halive _ _ => simp [hp] at halive
  | durable halive _ _ => simp [hp] at halive

theorem AppendStep.isPrefix (h : AppendStep dj e res dj') :
    dj.journal.records <+: dj'.journal.records := by
  rcases h.records with heq | ⟨r, -, -, heq⟩
  · exact ⟨[], by rw [heq, List.append_nil]⟩
  · exact ⟨[r], heq.symm⟩

variable {d : Sha256Digest}

theorem AppendStep.added (h : AppendStep dj e res dj') (hd : res = .ok d) :
    ∃ r, Carries e r ∧ dj'.journal.records = dj.journal.records ++ [r] := by
  cases h with
  | refused _ => contradiction
  | torn _ _ _ _ => contradiction
  | unsynced _ _ _ => contradiction
  | buffered _ hprep _ => exact ⟨_, (prepared_of_prepare hprep).carries, rfl⟩
  | durable _ hprep _ => exact ⟨_, (prepared_of_prepare hprep).carries, rfl⟩

theorem AppendStep.alive (h : AppendStep dj e res dj') (hd : res = .ok d) :
    dj'.poisoned = false := by
  cases h with
  | refused _ => contradiction
  | torn _ _ _ _ => contradiction
  | unsynced _ _ _ => contradiction
  | buffered hp _ _ => exact hp
  | durable hp _ _ => exact hp

/-- The operating system does what it is asked. -/
def flawless : AppendIo := ⟨.ok (4 + MAX_FRAME_BYTES), .ok⟩

theorem exists_prepare {v : ℕ} (hn : (e.facts.map Prod.fst).Nodup)
    (hv : ∀ f ∈ e.facts, (utf8 f.2).length ≤ v)
    (hsize : 9 + 10 * (200 + e.facts.length * (MAX_ID_LEN + v + 18)) ≤ MAX_FRAME_BYTES) :
    ∃ r b, dj.prepare e = .ok (r, b) := by
  obtain ⟨r, hr⟩ := exists_prepareRecord dj.journal e.kind e.atEpochMs e.jobRevision e.subject
    e.facts hn
  have hfacts : r.facts = e.facts := (prepareRecord_eq_ok hr).2.2.2.2.2
  obtain ⟨b, hb⟩ := JournalRecord.stored_encodes.mpr (hfacts ▸ hn)
  have hle := JournalRecord.length_stored_le (hfacts ▸ hv) hb
  have hpos : 0 < b.length := toCanonicalBytes_length_pos hb
  refine ⟨r, b, ?_⟩
  simp only [DurableJournal.prepare, hr, hb, Except.mapError, ok_bind]
  rw [if_pos ⟨hpos, by rw [hfacts] at hle; omega⟩]
  rfl

theorem append_flawless (hp : dj.poisoned = false)
    (h : dj.prepare e = .ok (r, b)) : ∃ dj', dj.append flawless e = (.ok r.recordDigest, dj') := by
  have hlen : min (4 + MAX_FRAME_BYTES) (frame b).length = (frame b).length := by
    have := (prepared_of_prepare h).valid.2
    rw [length_frame]; omega
  simp only [DurableJournal.append, hp, Bool.false_eq_true, if_false, h, DurableJournal.writeFrame,
    flawless, hlen, if_true]
  unfold DurableJournal.commit
  split
  · exact ⟨_, rfl⟩
  · exact ⟨_, rfl⟩

/-! ### The invariant -/

/-- What an `append` of `e` may make of the records of the file. -/
def Gains (e : Entry) (rs rs' : List JournalRecord) : Prop :=
  rs' = rs ∨ ∃ r, Carries e r ∧ rs' = rs ++ [r.sortFacts]

variable {rs : List JournalRecord}

theorem Gains.isPrefix {rs' : List JournalRecord} (h : Gains e rs rs') : rs <+: rs' := by
  rcases h with rfl | ⟨r, -, rfl⟩
  · exact List.prefix_rfl
  · exact List.prefix_append _ _

/-- The first `n` records end before the bytes that are on stable storage do. -/
def Stamped (synced : ℕ) (bodies : List (List UInt8)) (n : ℕ) : Prop :=
  n = 0 ∨ (MAGIC ++ frames (bodies.take n)).length ≤ synced

/-- What the file of a handle holds, and how the in-memory chain relates to it. -/
structure Tracks (dj : DurableJournal) (bodies : List (List UInt8)) (tail : List UInt8)
    (rs : List JournalRecord) (n : ℕ) : Prop where
  holds : Holds dj.file.content bodies tail rs
  stamped : Stamped dj.file.synced bodies n
  le : n ≤ rs.length
  clean : dj.poisoned = false → tail = []
  position : dj.poisoned = false → dj.file.position = dj.file.content.length
  same : dj.poisoned = false → List.Forall₂ SameUpToFactOrder dj.journal.records rs

theorem write_at_end {f : File} (h : f.position = f.content.length) (data : List UInt8) :
    f.write data = ⟨f.content ++ data, f.synced, (f.content ++ data).length⟩ := by
  simp [File.write, h]

variable {bodies : List (List UInt8)} {n : ℕ}

theorem Stamped.take {synced k : ℕ} (h : Stamped synced bodies n)
    (hk : n ≤ k) : Stamped synced (bodies.take k) n := by
  rwa [Stamped, List.take_take, Nat.min_eq_left hk]

theorem Stamped.append {synced : ℕ} (h : Stamped synced bodies n)
    (hn : n ≤ bodies.length) (more : List (List UInt8)) : Stamped synced (bodies ++ more) n := by
  rwa [Stamped, List.take_append_of_le_length hn]

variable {tail : List UInt8}

theorem tracks_opened {content : List UInt8}
    (h : Holds content bodies tail rs) (path : String) {synced : ℕ}
    (hs : Stamped synced bodies n) (hn : n ≤ rs.length) :
    Tracks (opened path bodies rs synced) bodies [] rs n where
  holds := ⟨by simp [opened], h.valid, incomplete_nil, h.reads, h.chained⟩
  stamped := hs
  le := hn
  clean _ := rfl
  position _ := rfl
  same _ := List.forall₂_same.mpr fun r _ => ⟨r.facts, .refl _, rfl⟩

namespace Tracks

variable {dj : DurableJournal} {bodies : List (List UInt8)} {tail : List UInt8}
  {rs : List JournalRecord} {n : ℕ}

/-- The record just prepared belongs behind the records of the file. -/
theorem genuine (h : Tracks dj bodies tail rs n) (hp : dj.poisoned = false)
    (hr : Prepared dj e r b) : Genuine rs.length (Journal.headDigest ⟨rs⟩) r.sortFacts := by
  have hsame := h.same hp
  rw [← hsame.length_eq, ← headDigest_congr hsame]
  exact (genuine_congr (sameUpToFactOrder_sortFacts r)).mp hr.genuine

theorem committed (h : Tracks dj bodies tail rs n) (hp : dj.poisoned = false)
    (hr : Prepared dj e r b) :
    Tracks (committed dj r b) (bodies ++ [b]) [] (rs ++ [r.sortFacts]) n := by
  obtain rfl := h.clean hp
  have hlen := h.holds.reads.length_eq
  have hw := write_at_end (h.position hp) (frame b)
  refine ⟨?_, ?_, ?_, fun _ => rfl, fun _ => ?_, fun _ => ?_⟩
  · rw [Handle.committed, hw]
    exact h.holds.append hr.valid hr.reads (h.genuine hp hr)
  · rw [Handle.committed, hw]
    exact h.stamped.append (hlen ▸ h.le) [b]
  · rw [List.length_append]
    exact Nat.le_add_right_of_le h.le
  · rw [Handle.committed, hw]
  · exact List.rel_append (h.same hp) (.cons (sameUpToFactOrder_sortFacts r) .nil)

/-- Part of the frame of a prepared record behind the file, or all of it. -/
theorem torn (h : Tracks dj bodies tail rs n) (hp : dj.poisoned = false) {e : Entry}
    {r : JournalRecord} {b : List UInt8} (hr : Prepared dj e r b) (m : ℕ) :
    ∃ bodies' tail' rs', Gains e rs rs' ∧
      Tracks { dj with file := dj.file.write ((frame b).take m), poisoned := true }
        bodies' tail' rs' n := by
  by_cases hm : m < (frame b).length
  · obtain rfl := h.clean hp
    rw [write_at_end (h.position hp)]
    exact ⟨bodies, _, rs, .inl rfl, h.holds.append_torn hr.valid hm, h.stamped, h.le,
      nofun, nofun, nofun⟩
  · rw [List.take_of_length_le (Nat.le_of_not_lt hm)]
    have hc := h.committed hp hr
    exact ⟨_, _, _, .inr ⟨r, hr.carries, rfl⟩, hc.holds, hc.stamped, hc.le,
      nofun, nofun, nofun⟩

theorem synced (h : Tracks dj bodies tail rs n) (unsynced : ℕ) :
    Tracks { dj with file := dj.file.syncAll, unsyncedRecords := unsynced } bodies tail rs
      rs.length := by
  refine ⟨h.holds, .inr ?_, le_rfl, h.clean, h.position, h.same⟩
  rw [← h.holds.reads.length_eq, File.syncAll, h.holds.eq]
  simp

theorem poison (h : Tracks dj bodies tail rs n) :
    Tracks { dj with poisoned := true } bodies tail rs n :=
  ⟨h.holds, h.stamped, h.le, nofun, nofun, nofun⟩

end Tracks

def StoredAs (r : JournalRecord) (b : List UInt8) : Prop := r.toCanonicalBytes = .ok b

/-- What an `append` that returned `Ok` has added: its record at the end of the chain and of the
file, and on stable storage if its kind is durable. -/
structure Added (dj dj' : DurableJournal) (e : Entry) (bodies bodies' : List (List UInt8))
    (rs rs' : List JournalRecord) (n' : ℕ) (r : JournalRecord) : Prop where
  alive : dj.poisoned = false
  alive' : dj'.poisoned = false
  chain : dj'.journal.records = dj.journal.records ++ [r]
  carries : Carries e r
  body : ∃ b, StoredAs r b ∧ bodies' = bodies ++ [b]
  record : rs' = rs ++ [r.sortFacts]
  durable : e.kind.fsyncPolicy = .durable → n' = rs'.length

/-- **Every `append` keeps the invariant**, whatever happens. -/
theorem Tracks.append (h : Tracks dj bodies tail rs n) (hstep : AppendStep dj e res dj') :
    ∃ bodies' tail' rs' n', Tracks dj' bodies' tail' rs' n' ∧ Gains e rs rs' ∧ n ≤ n' ∧
      (∀ d, res = .ok d → ∃ r, r.recordDigest = d ∧ Added dj dj' e bodies bodies' rs rs' n' r) ∧
      (∀ error, res = .error error → n' = n ∧
        (dj' = dj ∧ bodies' = bodies ∧ rs' = rs ∨ dj'.poisoned = true)) := by
  cases hstep with
  | refused error =>
    exact ⟨bodies, tail, rs, n, h, .inl rfl, le_rfl, nofun, fun _ _ => ⟨rfl, .inl ⟨rfl, rfl, rfl⟩⟩⟩
  | @torn r b m error hp hprep =>
    obtain ⟨bodies', tail', rs', hpre, ht⟩ := h.torn hp (prepared_of_prepare hprep) m
    exact ⟨bodies', tail', rs', n, ht, hpre, le_rfl, nofun, fun _ _ => ⟨rfl, .inr rfl⟩⟩
  | @unsynced r b error hp hprep =>
    have hr := prepared_of_prepare hprep
    exact ⟨_, _, _, n, (h.committed hp hr).poison, .inr ⟨r, hr.carries, rfl⟩, le_rfl, nofun,
      fun _ _ => ⟨rfl, .inr rfl⟩⟩
  | @buffered r b hp hprep hk =>
    have hr := prepared_of_prepare hprep
    refine ⟨_, _, _, n, h.committed hp hr, .inr ⟨r, hr.carries, rfl⟩, le_rfl, ?_, nofun⟩
    rintro d hd
    cases hd
    refine ⟨r, rfl, hp, hp, rfl, hr.carries, ⟨b, hr.stored, rfl⟩, rfl, fun hk' => ?_⟩
    rw [hk] at hk'
    cases hk'
  | @durable r b hp hprep hk =>
    have hr := prepared_of_prepare hprep
    refine ⟨_, _, _, _, (h.committed hp hr).synced 0, .inr ⟨r, hr.carries, rfl⟩, ?_, ?_, nofun⟩
    · rw [List.length_append]
      exact Nat.le_add_right_of_le h.le
    · rintro d hd
      cases hd
      exact ⟨r, rfl, hp, hp, rfl, hr.carries, ⟨b, hr.stored, rfl⟩, rfl, fun _ => rfl⟩

theorem Tracks.sync (h : Tracks dj bodies tail rs n) (outcome : SyncOutcome) :
    ∃ n', n ≤ n' ∧ Tracks (dj.sync outcome).2 bodies tail rs n' := by
  unfold DurableJournal.sync
  split
  · exact ⟨n, le_rfl, h⟩
  · split
    · exact ⟨n, le_rfl, h.poison⟩
    · exact ⟨rs.length, h.le, h.synced 0⟩

/-! ### Crashes -/

/-- **A crash keeps what is on stable storage**: of the bytes, any prefix that has all of it. -/
theorem holds_crash {content : List UInt8} {synced m : ℕ} (h : Holds content bodies tail rs)
    (hs : Stamped synced bodies n) (hn : n ≤ rs.length) (hm : synced ≤ m)
    (hmagic : MAGIC.length ≤ m) :
    ∃ k ≤ rs.length, n ≤ k ∧ Stamped synced (bodies.take k) n ∧
      ∃ tail', Holds (content.take m) (bodies.take k) tail' (rs.take k) := by
  obtain ⟨k, hk, tail', hh, hmax⟩ := h.take hmagic
  have hnk : n ≤ k := by
    rcases hs with rfl | hs
    · exact Nat.zero_le k
    · exact hmax n hn (hs.trans hm)
  exact ⟨k, hk, hnk, hs.take hnk, tail', hh⟩

end ArkForge.Engine.Handle
