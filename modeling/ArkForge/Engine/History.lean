import ArkForge.Engine.Step

/-! # Histories of one journal file

A daemon opens the journal, runs step transactions on it and crashes, any number of times. A crash
keeps what is on stable storage and some prefix of the rest, and takes the tokens with it. The
invariant behind every result here is that the records on stable storage only grow (`Kept`): the
ledger that a later `open` reads has never moved a permit back. -/

namespace ArkForge.Engine.History

open Lib.Framing
open Core.Digest
open Authority.Permit
open Record Durable Replay
open Handle Recovery Step

variable {stamped rs : List JournalRecord} {dj dj' : DurableJournal} {disk : Disk}
  {bodies : List (List UInt8)}

/-! ### The world -/

structure Tokens where
  admitted : List AdmittedStep
  inFlight : List DispatchInFlight
  completed : List CompletedStep

/-- The file of a daemon that is not running, or the open journal of one that is. -/
inductive World where
  | down (disk : Disk)
  | up (journal : DurableJournal) (tokens : Tokens)

/-- What may happen, with the answers of the operating system. A token is named by its position in
the list of its kind, and an operation takes it out of the list. -/
inductive Event where
  /-- The process dies; of the bytes not on stable storage, those behind `cut` are lost. -/
  | crash (cut : ℕ)
  | openJournal (fault : OpenFault)
  /-- A record that no step transaction writes. -/
  | append (io : AppendIo) (entry : Entry)
  | sync (outcome : SyncOutcome)
  | admitStep (io : AppendIo × AppendIo) (permit : StepPermit) (secret : ControllerPairingSecret)
      (intent : DispatchIntent)
  | dispatch (io : AppendIo × AppendIo) (token : ℕ) (now : UInt64) (extra : List (String × String))
  | evidence (io : AppendIo) (token : ℕ) (now : UInt64) (facts : List (String × String))
  | receipt (io : AppendIo × AppendIo) (token : ℕ) (digest : Sha256Digest)
      (extra : List (String × String)) (now : UInt64)
  | checkpoint (io : AppendIo) (token : ℕ) (now : UInt64)

inductive Observation where
  | quiet
  | opened (ledger : PermitLedger)
  | admission (permitId : String) (result : Except StepError Unit)
  /-- `begin_dispatch` returned `Ok`. -/
  | dispatched (permitId : String)

def crashed (disk : Disk) (cut : ℕ) : Disk :=
  { disk with content := disk.content.take (max disk.synced cut) }

/-- The permit an admitted step is about. -/
def permitOf (step : AdmittedStep) : String := step.permit.permit.permitId.value

/-- One event. An event that cannot happen in the state of the world changes nothing. -/
def step (path : String) : World → Event → Observation × World
  | .down disk, .crash cut => (.quiet, .down (crashed disk cut))
  | .up dj _, .crash cut => (.quiet, .down (crashed dj.file.disk cut))
  | .down disk, .openJournal fault =>
    match DurableJournal.openAt path fault disk with
    | .ok (dj, _) => (.opened (PermitLedger.fromJournal dj.journal), .up dj ⟨[], [], []⟩)
    | .error (_, disk) => (.quiet, .down disk)
  | .up dj tokens, .append io entry => (.quiet, .up (dj.append io entry).2 tokens)
  | .up dj tokens, .sync outcome => (.quiet, .up (dj.sync outcome).2 tokens)
  | .up dj tokens, .admitStep io permit secret intent =>
    match (admitStep io permit secret intent).exec dj with
    | (.ok s, dj) => (.admission permit.permitId.value (.ok ()),
        .up dj { tokens with admitted := s :: tokens.admitted })
    | (.error e, dj) => (.admission permit.permitId.value (.error e), .up dj tokens)
  | .up dj tokens, .dispatch io i now extra =>
    match tokens.admitted[i]? with
    | none => (.quiet, .up dj tokens)
    | some s =>
      let tokens := { tokens with admitted := tokens.admitted.eraseIdx i }
      match (beginDispatchWithFacts io s now extra).exec dj with
      | (.ok t, dj) => (.dispatched (permitOf s),
          .up dj { tokens with inFlight := t :: tokens.inFlight })
      | (.error _, dj) => (.quiet, .up dj tokens)
  | .up dj tokens, .evidence io i now facts =>
    match tokens.inFlight[i]? with
    | none => (.quiet, .up dj tokens)
    | some t => (.quiet, .up ((recordTransportEvidence io t now facts).exec dj).2 tokens)
  | .up dj tokens, .receipt io i digest extra now =>
    match tokens.inFlight[i]? with
    | none => (.quiet, .up dj tokens)
    | some t =>
      let tokens := { tokens with inFlight := tokens.inFlight.eraseIdx i }
      match (recordReceiptWithFacts io t digest extra now).exec dj with
      | (.ok c, dj) => (.quiet, .up dj { tokens with completed := c :: tokens.completed })
      | (.error _, dj) => (.quiet, .up dj tokens)
  | .up dj tokens, .checkpoint io i now =>
    match tokens.completed[i]? with
    | none => (.quiet, .up dj tokens)
    | some c => (.quiet, .up ((checkpoint io c now).exec dj).2
        { tokens with completed := tokens.completed.eraseIdx i })
  | world, _ => (.quiet, world)

def run (path : String) (world : World) (events : List Event) : World :=
  events.foldl (fun w e => (step path w e).2) world

def history (path : String) : World → List Event → List Observation
  | _, [] => []
  | world, e :: events => (step path world e).1 :: history path (step path world e).2 events

/-! ### What stays on stable storage -/

/-- The records `stamped` are on stable storage and lead what the file holds. -/
def DiskKeeps (disk : Disk) (stamped : List JournalRecord) : Prop :=
  stamped = [] ∨ ∃ bodies tail rs n, Holds disk.content bodies tail rs ∧
    Stamped disk.synced bodies n ∧ n ≤ rs.length ∧ rs.take n = stamped

/-- An open journal whose file has `stamped` on stable storage, and whose chain in memory puts no
permit behind where they put it. -/
structure Backed (dj : DurableJournal) (stamped : List JournalRecord) : Prop where
  tracks : ∃ bodies tail rs n, Tracks dj bodies tail rs n ∧ rs.take n = stamped
  rank_le : ∀ p, (standing p stamped).rank ≤ (standing p dj.journal.records).rank

theorem Backed.diskKeeps (h : Backed dj stamped) : DiskKeeps dj.file.disk stamped := by
  obtain ⟨bodies, tail, rs, n, ht, hstamped⟩ := h.tracks
  exact .inr ⟨bodies, tail, rs, n, ht.holds, ht.stamped, ht.le, hstamped⟩

/-- **A crash takes nothing that is on stable storage.** -/
theorem DiskKeeps.crash (h : DiskKeeps disk stamped) (cut : ℕ) :
    DiskKeeps (crashed disk cut) stamped := by
  rcases h with rfl | ⟨bodies, tail, rs, n, hh, hs, hn, rfl⟩
  · exact .inl rfl
  by_cases hzero : n = 0
  · subst hzero
    exact .inl rfl
  have hsynced : (MAGIC ++ frames (bodies.take n)).length ≤ disk.synced := by
    rcases hs with hs | hs
    · exact absurd hs hzero
    · exact hs
  have hmagic : MAGIC.length ≤ max disk.synced cut := by
    rw [List.length_append] at hsynced
    omega
  obtain ⟨k, hk, hnk, hs', tail', hh'⟩ := holds_crash hh hs hn (le_max_left _ cut) hmagic
  refine .inr ⟨_, tail', _, n, hh', hs', ?_, ?_⟩
  · rw [List.length_take]
    omega
  · rw [List.take_take, Nat.min_eq_left hnk]

theorem stamped_syncedAfterOpen {n : ℕ} (hs : Stamped disk.synced bodies n) (tail : List UInt8) :
    Stamped (syncedAfterOpen disk bodies tail) bodies n := by
  unfold syncedAfterOpen
  split_ifs with ht
  · exact hs
  · have hlen := length_frames_take_le bodies n
    right
    simp only [List.length_append]
    omega

theorem backed_opened {content tail : List UInt8} {synced n : ℕ} (h : Holds content bodies tail rs)
    (path : String) (hs : Stamped synced bodies n) (hn : n ≤ rs.length) :
    Backed (opened path bodies rs synced) (rs.take n) where
  tracks := ⟨bodies, [], rs, n, tracks_opened h path hs hn, rfl⟩
  rank_le := rank_standing_mono (List.take_prefix n rs)

variable {fault : OpenFault} {path : String}

/-- What `open` reads has every record that was on stable storage. -/
theorem DiskKeeps.backed (h : DiskKeeps disk stamped) {report : RecoveryReport}
    (hopen : DurableJournal.openAt path fault disk = .ok (dj, report)) : Backed dj stamped := by
  rcases open_eq_ok hopen with ⟨hempty, rfl, -⟩ | ⟨bodies, tail, rs, hh, rfl, -⟩
  · rcases h with rfl | ⟨bodies, tail, rs, n, hh, -, -, -⟩
    · exact backed_opened holds_magic path (.inl rfl) (Nat.zero_le _)
    · exact absurd hempty hh.ne_nil
  · rcases h with rfl | ⟨bodies', tail', rs', n, hh', hs, hn, rfl⟩
    · exact backed_opened hh path (.inl rfl) (Nat.zero_le _)
    · obtain ⟨rfl, rfl, rfl⟩ := hh.unique hh'
      exact backed_opened hh path (stamped_syncedAfterOpen hs tail) hn

/-- An `open` that fails takes nothing that is on stable storage. -/
theorem DiskKeeps.open_failed {disk' : Disk} (h : DiskKeeps disk stamped) {e : DurableJournalError}
    (hopen : DurableJournal.openAt path fault disk = .error (e, disk')) :
    DiskKeeps disk' stamped := by
  rcases h with rfl | ⟨bodies, tail, rs, n, hh, hs, hn, rfl⟩
  · exact .inl rfl
  rcases open_error_disk hh hopen with ⟨hcontent, hsynced⟩ | ⟨hcontent, hsynced⟩
  · exact .inr ⟨bodies, tail, rs, n, hcontent ▸ hh, hsynced ▸ hs, hn, rfl⟩
  · have hcut : Holds disk'.content bodies [] rs :=
      ⟨by rw [hcontent, List.append_nil], hh.valid, incomplete_nil, hh.reads, hh.chained⟩
    refine .inr ⟨bodies, [], rs, n, hcut, ?_, hn, rfl⟩
    rcases hs with hs | hs
    · exact .inl hs
    · have hlen := length_frames_take_le bodies n
      right
      simp only [List.length_append] at hs hsynced ⊢
      omega

theorem take_prefix_take {rs' : List JournalRecord} {n n' : ℕ} (hp : rs <+: rs') (hn : n ≤ n')
    (hle : n ≤ rs.length) : rs.take n <+: rs'.take n' := by
  obtain ⟨more, rfl⟩ := hp
  have heq : (rs ++ more).take n = rs.take n := List.take_append_of_le_length hle
  rw [← heq]
  exact List.take_prefix_take_left hn

theorem Tracks.standing_eq {tail : List UInt8} {n : ℕ} (h : Tracks dj bodies tail rs n)
    (hp : dj.poisoned = false) (p : String) : standing p dj.journal.records = standing p rs := by
  have hsymm : List.Forall₂ JournalRecord.SameUpToFactOrder rs dj.journal.records :=
    (h.same hp).flip.imp fun _ _ hrs => JournalRecord.SameUpToFactOrder.symm hrs
  have hnd : ∀ r ∈ rs, (r.facts.map Prod.fst).Nodup := fun r hr =>
    (h.holds.chained.consistent r hr).nodup_facts
  exact (standing_congr hsymm hnd).symm

variable {e : Entry}

/-- **An `append` takes nothing off stable storage**, and one of a durable kind that returns `Ok` puts
the whole chain there. -/
theorem Backed.append {res : Except DurableJournalError Sha256Digest} (h : Backed dj stamped)
    (hstep : AppendStep dj e res dj') : ∃ stamped', stamped <+: stamped' ∧ Backed dj' stamped' ∧
      ∀ d, res = .ok d → ∃ r, Carries e r ∧
        dj'.journal.records = dj.journal.records ++ [r] ∧
        (e.kind.fsyncPolicy = .durable →
          ∀ p, standing p stamped' = standing p dj'.journal.records) := by
  obtain ⟨bodies, tail, rs, n, ht, rfl⟩ := h.tracks
  obtain ⟨bodies', tail', rs', n', ht', hgain, hn, hok, herr⟩ := ht.append hstep
  have hpre := take_prefix_take hgain.isPrefix hn ht.le
  refine ⟨rs'.take n', hpre, ⟨⟨bodies', tail', rs', n', ht', rfl⟩, fun p => ?_⟩, ?_⟩
  · rcases res with error | d
    · -- nothing new is on stable storage, and the chain in memory has not become shorter
      have hsame : rs'.take n' = rs.take n := by
        obtain ⟨more, hmore⟩ := hgain.isPrefix
        rw [(herr error rfl).1, ← hmore, List.take_append_of_le_length ht.le]
      rw [hsame]
      exact (h.rank_le p).trans (rank_standing_mono hstep.isPrefix p)
    · obtain ⟨r, -, hadded⟩ := hok d rfl
      rw [Tracks.standing_eq ht' hadded.alive']
      exact rank_standing_mono (List.take_prefix n' rs') p
  · intro d hd
    obtain ⟨r, -, hadded⟩ := hok d hd
    refine ⟨r, hadded.carries, hadded.chain, fun hdurable p => ?_⟩
    rw [hadded.durable hdurable, List.take_length, Tracks.standing_eq ht' hadded.alive']

theorem Backed.sync (h : Backed dj stamped) (outcome : SyncOutcome) :
    ∃ stamped', stamped <+: stamped' ∧ Backed (dj.sync outcome).2 stamped' := by
  obtain ⟨bodies, tail, rs, n, ht, rfl⟩ := h.tracks
  unfold DurableJournal.sync
  split
  · exact ⟨_, List.prefix_rfl, h⟩
  · next hp =>
    have halive : dj.poisoned = false := by simpa using hp
    split
    · exact ⟨_, List.prefix_rfl, ⟨bodies, tail, rs, n, ht.poison, rfl⟩, h.rank_le⟩
    · refine ⟨rs, List.take_prefix n rs, ⟨bodies, tail, rs, _, ht.synced 0, List.take_length⟩, ?_⟩
      intro p
      exact (congrArg PermitDisposition.rank (Tracks.standing_eq ht halive p)).ge

variable {es : List Entry}

/-- **A chain of appends takes nothing off stable storage.** -/
theorem Backed.appends {ok : Bool} (happends : Appends dj es ok dj') (h : Backed dj stamped) :
    ∃ stamped', stamped <+: stamped' ∧ Backed dj' stamped' := by
  induction happends generalizing stamped with
  | done dj => exact ⟨stamped, List.prefix_rfl, h⟩
  | stopped dj es => exact ⟨stamped, List.prefix_rfl, h⟩
  | failed hstep =>
    obtain ⟨stamped', hpre, hb, -⟩ := h.append hstep
    exact ⟨stamped', hpre, hb⟩
  | next hstep _ ih =>
    obtain ⟨stamped₁, hpre₁, hb₁, -⟩ := h.append hstep
    obtain ⟨stamped', hpre, hb⟩ := ih hb₁
    exact ⟨stamped', hpre₁.trans hpre, hb⟩

/-- Once an append of a durable kind has returned `Ok`, what it recorded counts for good. -/
theorem Backed.appends_durable (happends : Appends dj (e :: es) true dj') (h : Backed dj stamped)
    (hdurable : e.kind.fsyncPolicy = .durable) {p : String} {k : ℕ}
    (hrank : ∀ r, Carries e r → Names p r ∧ ∀ d, k ≤ (advance r d).rank) :
    ∃ stamped', stamped <+: stamped' ∧ Backed dj' stamped' ∧ k ≤ (standing p stamped').rank := by
  obtain _ | _ | _ | ⟨hstep, hrest⟩ := happends
  obtain ⟨stamped₁, hpre₁, hb₁, hok⟩ := h.append hstep
  obtain ⟨r, hcarries, hchain, hall⟩ := hok _ rfl
  obtain ⟨stamped', hpre, hb⟩ := hb₁.appends hrest
  obtain ⟨hnames, hle⟩ := hrank r hcarries
  have hfirst : k ≤ (standing p stamped₁).rank := by
    rw [hall hdurable p, hchain, standing_concat, if_pos hnames]
    exact hle _
  exact ⟨stamped', hpre₁.trans hpre, hb, hfirst.trans (rank_standing_mono hpre p)⟩

end ArkForge.Engine.History
