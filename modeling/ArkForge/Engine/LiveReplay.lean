import ArkForge.Engine.Faults
import ArkForge.Engine.Superseding

/-! # Live and replayed journals decide alike

Replay returns the facts of a record sorted by their encoded keys, while the chain in memory keeps them
as they were inserted. No record has two facts with one key, so both say the same to everything that
looks facts up (`Alike`): the permit ledger, the crash table and the union of possible effects. -/

namespace ArkForge.Engine.LiveReplay

open Lib.Framing Lib.HashChain
open Core.Digest Core.Ids Core.Effect Core.Projection
open Record Durable Replay
open Handle Faults Recovery
open Recovery.CrashDisposition Superseding
open JournalRecord (SameUpToFactOrder)

variable {rs ss records : List JournalRecord} {dj : DurableJournal} {path : String}
  {fault : OpenFault} {disk : Disk} {report : RecoveryReport}

/-! ### Records that read alike -/

/-- The records have the same kind and subject, and every key looks up the same fact. -/
structure Alike (r s : JournalRecord) : Prop where
  kind : r.kind = s.kind
  subject : r.subject = s.subject
  fact : ∀ key, factValue r.facts key = factValue s.facts key
  any : ∀ key value, (r.facts.any fun f => f.1.value = key ∧ f.2 = value) =
    s.facts.any fun f => f.1.value = key ∧ f.2 = value

theorem alike_of_same {r s : JournalRecord} (h : SameUpToFactOrder r s)
    (hnd : (r.facts.map Prod.fst).Nodup) : Alike r s := by
  obtain ⟨facts, hperm, rfl⟩ := h
  exact ⟨rfl, rfl, factValue_perm hperm hnd, fun key value => hperm.any_eq⟩

section

variable (h : List.Forall₂ Alike rs ss)

include h

theorem findSome?_alike {α : Type} {f : JournalRecord → Option α}
    (hf : ∀ r s, Alike r s → f r = f s) : rs.findSome? f = ss.findSome? f := by
  induction h with
  | nil => rfl
  | cons hrs _ ih => rw [List.findSome?_cons, List.findSome?_cons, hf _ _ hrs, ih]

theorem any_alike {p : JournalRecord → Bool} (hp : ∀ r s, Alike r s → p r = p s) :
    rs.any p = ss.any p := by
  induction h with
  | nil => rfl
  | cons hrs _ ih => rw [List.any_cons, List.any_cons, hp _ _ hrs, ih]

theorem filter_alike {p : JournalRecord → Bool} (hp : ∀ r s, Alike r s → p r = p s) :
    List.Forall₂ Alike (rs.filter p) (ss.filter p) := by
  refine List.rel_filter (fun r s hrs => ?_) h
  show p r = true ↔ p s = true
  rw [hp r s hrs]

/-! ### The readers -/

theorem fromRecords_alike : PermitLedger.fromRecords rs = PermitLedger.fromRecords ss := by
  have hstep : ∀ (ledger : PermitLedger) (r s : JournalRecord), Alike r s →
      ledger.replay r = ledger.replay s := by
    intro ledger r s hrs
    have hadvance : ∀ d, advance r d = advance s d :=
      advance_congr hrs.kind (hrs.fact Fact.RECEIPT_DIGEST)
    unfold PermitLedger.replay
    simp only [hrs.fact Fact.PERMIT_ID, hadvance]
  refine List.rel_foldl ?_ rfl h
  rintro ledger _ rfl r s hrs
  exact hstep ledger r s hrs

theorem recordsOf_alike (jobId : String) :
    List.Forall₂ Alike (recordsOf rs jobId) (recordsOf ss jobId) := by
  have hcreated : List.Forall₂ Alike (rs.filter fun r => r.kind = .jobCreated)
      (ss.filter fun r => r.kind = .jobCreated) :=
    filter_alike h fun r s hrs => by rw [hrs.kind]
  have hsingle : isSingleJobJournal rs jobId = isSingleJobJournal ss jobId := by
    have hjob : ∀ r s, Alike r s → createdJob r = createdJob s := by
      intro r s hrs
      unfold createdJob
      rw [hrs.fact, hrs.subject]
    unfold isSingleJobJournal
    generalize (rs.filter fun r => r.kind = .jobCreated) = cs at hcreated ⊢
    generalize (ss.filter fun r => r.kind = .jobCreated) = ds at hcreated ⊢
    rcases hcreated with _ | ⟨hrs, _ | _⟩
    · rfl
    · simp only [hjob _ _ hrs]
    · rfl
  unfold recordsOf
  rw [hsingle]
  refine filter_alike h fun r s hrs => ?_
  unfold belongs
  rw [hrs.fact, hrs.subject]

theorem derive_alike (jobId : String) : derive ⟨rs⟩ jobId = derive ⟨ss⟩ jobId := by
  have hof := recordsOf_alike h jobId
  have hcreated : ((recordsOf rs jobId).any fun r => r.kind = .jobCreated) =
      (recordsOf ss jobId).any fun r => r.kind = .jobCreated :=
    any_alike hof fun r s hrs => by rw [hrs.kind]
  have hconclusion : conclusion (recordsOf rs jobId) = conclusion (recordsOf ss jobId) :=
    findSome?_alike hof fun r s hrs => by rw [hrs.kind, hrs.fact]
  have hnewest : newestPermit (recordsOf rs jobId) = newestPermit (recordsOf ss jobId) :=
    findSome?_alike (List.rel_reverse hof) fun r s hrs => hrs.fact _
  have hcheckpointed : ∀ p,
      isCheckpointed (recordsOf rs jobId) p = isCheckpointed (recordsOf ss jobId) p :=
    fun p => any_alike hof fun r s hrs => by rw [hrs.kind, hrs.fact]
  unfold derive
  simp only [hcreated, hconclusion, hnewest, hcheckpointed, fromRecords_alike hof]

theorem stepForPermit_alike (p : String) : stepForPermit ⟨rs⟩ p = stepForPermit ⟨ss⟩ p :=
  findSome?_alike h fun r s hrs => by rw [hrs.any, hrs.fact]

/-- The union of possible effects reads alike records alike. -/
theorem possibleEffects_alike (plan : StoredProviderPlan) (impact : DataImpact) :
    possibleEffects ⟨rs⟩ plan impact = possibleEffects ⟨ss⟩ plan impact := by
  have hpermit : Union.addPermit ⟨rs⟩ plan = Union.addPermit ⟨ss⟩ plan := by
    funext u p
    unfold Union.addPermit
    rw [stepForPermit_alike h]
  have hledger : PermitLedger.fromJournal ⟨rs⟩ = PermitLedger.fromJournal ⟨ss⟩ :=
    fromRecords_alike h
  unfold possibleEffects
  rw [hpermit, hledger]

end

/-! ### Handles that mirror their file -/

/-- A `write` that fails has written nothing, as the standard library documents. -/
def Documented (io : AppendIo) : Prop := ∀ reached message, io.write = .error reached message →
    reached = 0

/-- The records in memory are those of the file, up to the order of facts. -/
def Mirrors (dj : DurableJournal) : Prop :=
  ∃ bodies tail rs n, Tracks dj bodies tail rs n ∧
    List.Forall₂ SameUpToFactOrder dj.journal.records rs

theorem mirrors_torn {bodies : List (List UInt8)} {tail : List UInt8} {n m : ℕ} {e : Entry}
    {r : JournalRecord} {b : List UInt8} (ht : Tracks dj bodies tail rs n)
    (hp : dj.poisoned = false) (hr : Prepared dj e r b) (hm : m < (frame b).length) :
    Mirrors { dj with file := dj.file.write ((frame b).take m), poisoned := true } := by
  have hsame := ht.same hp
  obtain rfl := ht.clean hp
  refine ⟨bodies, (frame b).take m, rs, n, ⟨?_, ?_, ht.le, nofun, nofun, nofun⟩, hsame⟩
  · rw [write_at_end (ht.position hp)]
    exact ht.holds.append_torn hr.valid hm
  · exact ht.stamped

/-- **Every `append` keeps the mirror**, whether it succeeds or not. -/
theorem Mirrors.append (h : Mirrors dj) {io : AppendIo} (hio : Documented io) (e : Entry) :
    Mirrors (dj.append io e).2 := by
  obtain ⟨bodies, tail, rs, n, ht, hsame⟩ := h
  unfold DurableJournal.append
  split
  · exact ⟨bodies, tail, rs, n, ht, hsame⟩
  next hp =>
  have hp : dj.poisoned = false := by simpa using hp
  split
  · exact ⟨bodies, tail, rs, n, ht, hsame⟩
  next r b hprep =>
  have hr := prepared_of_prepare hprep
  have hc := ht.committed hp hr
  have hsame' := hc.same hp
  unfold DurableJournal.writeFrame
  split
  · dsimp only
    split_ifs with hfull
    · rw [hfull, List.take_length]
      unfold DurableJournal.commit
      split_ifs
      · split
        · exact ⟨_, _, _, n, hc.poison, hsame'⟩
        · exact ⟨_, _, _, _, hc.synced 0, hsame'⟩
      · exact ⟨_, _, _, n, hc, hsame'⟩
    · exact mirrors_torn ht hp hr (by omega)
  · next reached message hw =>
    rw [hio reached message hw]
    exact mirrors_torn ht hp hr (by rw [length_frame]; omega)

/-- So does one that is known only by what it did, if it succeeded. -/
theorem Mirrors.appended {dj dj' : DurableJournal} (h : Mirrors dj) {e : Entry} {d : Sha256Digest}
    (hstep : AppendStep dj e (.ok d) dj') : Mirrors dj' := by
  obtain ⟨bodies, tail, rs, n, ht, -⟩ := h
  obtain ⟨bodies', tail', rs', n', ht', -, -, hok, -⟩ := ht.append hstep
  obtain ⟨r, -, hadded⟩ := hok d rfl
  exact ⟨bodies', tail', rs', n', ht', ht'.same hadded.alive'⟩

theorem Mirrors.sync (h : Mirrors dj) (outcome : SyncOutcome) : Mirrors (dj.sync outcome).2 := by
  obtain ⟨bodies, tail, rs, n, ht, hsame⟩ := h
  obtain ⟨n', -, ht'⟩ := ht.sync outcome
  refine ⟨bodies, tail, rs, n', ht', ?_⟩
  rw [sync_journal]
  exact hsame

theorem mirrors_opened (h : DurableJournal.openAt path fault disk = .ok (dj, report)) :
    Mirrors dj := by
  obtain ⟨bodies, rs, hk, hp, -, -⟩ := keeps_opened h
  exact ⟨bodies, [], rs, _, hk.tracks, hk.tracks.same hp⟩

/-- The writes of the calls behave as documented. -/
def DocumentedCalls (calls : List Call) : Prop :=
  ∀ io e, Call.append io e ∈ calls → Documented io

/-- **Every run of `append` and `sync` keeps the mirror.** -/
theorem Mirrors.run {calls : List Call} (hdoc : DocumentedCalls calls) {s : Session}
    (h : Mirrors s.handle) : Mirrors (s.run calls).handle := by
  induction calls generalizing s with
  | nil => exact h
  | cons call calls ih =>
    refine ih (fun io e he => hdoc io e (List.mem_cons_of_mem _ he)) ?_
    rcases call with ⟨io, e⟩ | outcome
    · have happend := h.append (hdoc io e List.mem_cons_self) e
      rcases hexec : s.handle.append io e with ⟨error | digest, dj⟩
      · rw [hexec] at happend
        simp only [Session.step, hexec]
        exact happend
      · rw [hexec] at happend
        simp only [Session.step, hexec]
        exact happend
    · exact h.sync outcome

/-- The bytes hold the records, up to the order of facts. -/
def Stores (content : List UInt8) (records : List JournalRecord) : Prop :=
  ∃ bodies tail rs, Holds content bodies tail rs ∧ List.Forall₂ SameUpToFactOrder records rs

theorem Mirrors.stores (h : Mirrors dj) : Stores dj.file.content dj.journal.records := by
  obtain ⟨bodies, tail, rs, n, ht, hsame⟩ := h
  exact ⟨bodies, tail, rs, ht.holds, hsame⟩

theorem Stores.exists_take {content : List UInt8} (h : Stores content records) (i : ℕ) :
    ∃ content', Stores content' (records.take i) := by
  obtain ⟨bodies, tail, rs, hh, hsame⟩ := h
  refine ⟨MAGIC ++ frames (bodies.take i), bodies.take i, [], rs.take i, ?_,
    List.forall₂_take i hsame⟩
  exact ⟨by simp, fun b hb => hh.valid b (List.mem_of_mem_take hb), incomplete_nil,
    List.forall₂_take i hh.reads, Linked.of_prefix hh.chained (List.take_prefix i rs)⟩

theorem Stores.same (h : Stores disk.content records)
    (hopen : DurableJournal.openAt path fault disk = .ok (dj, report)) :
    List.Forall₂ SameUpToFactOrder records dj.journal.records := by
  obtain ⟨bodies, tail, rs, hholds, hsame⟩ := h
  rcases open_eq_ok hopen with ⟨hempty, -⟩ | ⟨bodies', tail', rs', hh, rfl, -⟩
  · exact absurd hempty hholds.ne_nil
  · obtain ⟨rfl, rfl, rfl⟩ := hh.unique hholds
    exact hsame

theorem Stores.alike (h : Stores disk.content records)
    (hopen : DurableJournal.openAt path fault disk = .ok (dj, report)) :
    List.Forall₂ Alike records dj.journal.records := by
  have hsame := h.same hopen
  have hnd : ∀ r ∈ dj.journal.records, (r.facts.map Prod.fst).Nodup := by
    rcases open_eq_ok hopen with ⟨-, rfl, -⟩ | ⟨bodies, tail, rs, hh, rfl, -⟩
    · exact fun r hr => absurd hr (List.not_mem_nil)
    · exact fun r hr => (hh.chained.consistent r hr).nodup_facts
  refine List.forall₂_iff_zip.mpr ⟨hsame.length_eq, fun {r s} hrs => ?_⟩
  obtain ⟨facts, hperm, rfl⟩ := (List.forall₂_iff_zip.mp hsame).2 hrs
  have hs := hnd _ (List.of_mem_zip hrs).2
  exact alike_of_same ⟨facts, hperm, rfl⟩ (((hperm.map Prod.fst).nodup_iff).mpr hs)

/-- What is replayed from the file of a handle that mirrors it reads alike. -/
theorem Mirrors.alike {live replayed : DurableJournal} (h : Mirrors live)
    (hfile : disk.content = live.file.content)
    (hopen : DurableJournal.openAt path fault disk = .ok (replayed, report)) :
    List.Forall₂ Alike live.journal.records replayed.journal.records :=
  Stores.alike (hfile ▸ h.stores) hopen

/-- **Live and replayed journals decide alike.** After any run of `append` and `sync` on an opened
journal, with any failures, the chain in memory and the chain that reopening the file returns give the
same disposition of every permit, the same row of the crash table for every job, and the same possible
effects for every plan. -/
theorem live_replayed_alike {path : String} {fault : OpenFault} {disk : Disk} {dj : DurableJournal}
    {report : RecoveryReport} (hopen : DurableJournal.openAt path fault disk = .ok (dj, report))
    {calls : List Call} (hdoc : DocumentedCalls calls) {live : DurableJournal}
    (hlive : (Session.run ⟨dj, []⟩ calls).handle = live) {path' : String} {fault' : OpenFault}
    {disk' : Disk} (hfile : disk'.content = live.file.content) {replayed : DurableJournal}
    {report' : RecoveryReport}
    (hreopen : DurableJournal.openAt path' fault' disk' = .ok (replayed, report')) :
    (∀ p, (PermitLedger.fromJournal live.journal).disposition p =
      (PermitLedger.fromJournal replayed.journal).disposition p) ∧
    (∀ jobId, derive live.journal jobId = derive replayed.journal jobId) ∧
    ∀ plan impact, possibleEffects live.journal plan impact =
      possibleEffects replayed.journal plan impact := by
  have hmirrors : Mirrors live := hlive ▸ (mirrors_opened hopen).run hdoc
  have halike := hmirrors.alike hfile hreopen
  refine ⟨fun p => ?_, fun jobId => derive_alike halike jobId, fun plan impact => ?_⟩
  · have hledger : PermitLedger.fromJournal live.journal =
        PermitLedger.fromJournal replayed.journal := fromRecords_alike halike
    rw [hledger]
  · exact possibleEffects_alike halike plan impact

theorem conforming_step : Conforming "STEP-1" := by decide

theorem conforming_stepId : Conforming Fact.STEP_ID := by decide

theorem conforming_jobId : Conforming Fact.JOB_ID := by decide

theorem conforming_permitId : Conforming Fact.PERMIT_ID := by decide

/-- A permit's acceptance with its facts out of order. -/
def acceptance : Entry where
  kind := .stepPermitAccepted
  atEpochMs := 1
  jobRevision := 1
  subject := ⟨"STEP-1", conforming_step⟩
  facts := [(⟨Fact.STEP_ID, conforming_stepId⟩, "STEP-1"), (⟨Fact.JOB_ID, conforming_jobId⟩, "JOB-1"),
    (⟨Fact.PERMIT_ID, conforming_permitId⟩, "PERMIT-1")]

/-- The acceptance, live and replayed. -/
theorem live_replayed_alike_acceptance : ∃ live replayed report,
    (Session.run ⟨opened "journal" [] [] MAGIC.length, []⟩
      [.append ⟨.ok 4096, .ok⟩ acceptance]).handle = live ∧
    DurableJournal.openAt "journal" .none ⟨true, live.file.content, 0⟩ = .ok (replayed, report) ∧
    (PermitLedger.fromJournal live.journal).disposition "PERMIT-1" =
      (PermitLedger.fromJournal replayed.journal).disposition "PERMIT-1" := by
  have hopen : DurableJournal.openAt "journal" .none ⟨false, [], 0⟩ = _ := open_of_empty rfl "journal"
  have hdoc : DocumentedCalls [.append ⟨.ok 4096, .ok⟩ acceptance] := by
    intro io e he reached message hw
    obtain ⟨rfl, rfl⟩ : io = ⟨.ok 4096, .ok⟩ ∧ e = acceptance := by simpa using he
    exact absurd hw (by simp)
  obtain ⟨live, hlive⟩ : ∃ live, (Session.run ⟨opened "journal" [] [] MAGIC.length, []⟩
      [.append ⟨.ok 4096, .ok⟩ acceptance]).handle = live := ⟨_, rfl⟩
  have hmirrors : Mirrors live := hlive ▸ Mirrors.run hdoc (mirrors_opened hopen)
  obtain ⟨bodies, tail, rs, n, ht, -⟩ := hmirrors
  have hreopen : DurableJournal.openAt "journal" .none ⟨true, live.file.content, 0⟩ = _ :=
    open_of_holds ht.holds "journal"
  refine ⟨live, _, _, hlive, hreopen, ?_⟩
  exact (live_replayed_alike hopen hdoc hlive rfl hreopen).1 "PERMIT-1"

end ArkForge.Engine.LiveReplay
