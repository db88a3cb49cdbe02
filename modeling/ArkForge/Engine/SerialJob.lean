import ArkForge.Engine.CrashWindow

/-! # A job that runs its steps one after the other

`Serves` is a run of the step transactions themselves: the job is created, then each step is admitted,
dispatched, received and checkpointed before the next one, with other records in between. The chain it
builds is a serial journal (`Serves.serial`), so its crash windows are exact at every cut. -/

namespace ArkForge.Engine.SerialJob

open Core.Digest Core.Ids
open Authority.Permit
open Record Durable Handle
open Recovery Recovery.CrashDisposition Step
open AtMostOnce (names_of_carries)
open CrashWindow

/-! ### Runs -/

/-- The token the job holds. -/
inductive Phase where
  | idle
  | admitted (token : AdmittedStep)
  | inFlight (token : DispatchInFlight)
  | completed (token : CompletedStep)

structure Creates (j : String) (e : Entry) : Prop where
  kind : e.kind = .jobCreated
  job : (factValue e.facts Fact.JOB_ID).getD e.subject.value = j
  silent : factValue e.facts Fact.PERMIT_ID = none

/-- The entry is of a kind no step transaction writes, names no permit and concludes nothing. -/
structure Other (e : Entry) : Prop where
  kind : ∀ s : Stage, e.kind ≠ s.kind
  outcome : e.kind ≠ .outcomeClassified
  silent : factValue e.facts Fact.PERMIT_ID = none

/-- A serial run of the job `j` on an open journal: every call has returned `Ok`. -/
inductive Serves (j : String) : DurableJournal → Phase → Prop where
  | created {dj dj' : DurableJournal} {io : AppendIo} {e : Entry} {d : Sha256Digest} :
      dj.journal.records = [] → Creates j e → dj.append io e = (.ok d, dj') → Serves j dj' .idle
  | other {dj dj' : DurableJournal} {ph : Phase} {io : AppendIo} {e : Entry} {d : Sha256Digest} :
      Serves j dj ph → Other e → dj.append io e = (.ok d, dj') → Serves j dj' ph
  | admitted {dj dj' : DurableJournal} {io : AppendIo × AppendIo} {permit : StepPermit}
      {secret : ControllerPairingSecret} {intent : DispatchIntent} {t : AdmittedStep} :
      Serves j dj .idle → permit.jobId.value = j →
      (admitStep io permit secret intent).exec dj = (.ok t, dj') → Serves j dj' (.admitted t)
  | dispatched {dj dj' : DurableJournal} {io : AppendIo × AppendIo} {t : AdmittedStep} {now : UInt64}
      {extra : List (String × String)} {f : DispatchInFlight} : Serves j dj (.admitted t) →
      (beginDispatchWithFacts io t now extra).exec dj = (.ok f, dj') → Serves j dj' (.inFlight f)
  | evidence {dj dj' : DurableJournal} {io : AppendIo} {f : DispatchInFlight} {now : UInt64}
      {facts : List (String × String)} : Serves j dj (.inFlight f) →
      (recordTransportEvidence io f now facts).exec dj = (.ok (), dj') → Serves j dj' (.inFlight f)
  | received {dj dj' : DurableJournal} {io : AppendIo × AppendIo} {f : DispatchInFlight}
      {digest : Sha256Digest} {extra : List (String × String)} {now : UInt64} {c : CompletedStep} :
      Serves j dj (.inFlight f) →
      (recordReceiptWithFacts io f digest extra now).exec dj = (.ok c, dj') →
      Serves j dj' (.completed c)
  | checkpointed {dj dj' : DurableJournal} {io : AppendIo} {c : CompletedStep} {now : UInt64}
      {d : Sha256Digest} : Serves j dj (.completed c) →
      (checkpoint io c now).exec dj = (.ok d, dj') → Serves j dj' .idle

/-! ### The journal of a run -/

variable {facts : List (OpaqueId × String)} {c : StepContext} {j : String}

theorem stepRecord_of_carries {s : Stage} {now : UInt64} {r : JournalRecord}
    (hjob : c.jobId.value = j) (hpre : c.factList <+: facts)
    (hreceipt : s = .received ∨ s = .consumed →
      ∃ d, d ≠ "" ∧ factValue facts Fact.RECEIPT_DIGEST = some d)
    (h : Carries (c.entry s.kind now facts) r) : StepRecord j c.permitId.value s r := by
  have hfacts : r.facts = facts := h.facts
  refine ⟨h.kind, names_of_carries hpre h, ?_, fun hs => ?_⟩
  · obtain ⟨more, rfl⟩ := hpre
    rw [hfacts, factValue_append_of_some c.jobId_factList, hjob]
  · rw [hfacts]
    exact hreceipt hs

theorem receipt_of_enlarges {digest : Sha256Digest} (h : c.receiptFactList digest <+: facts) :
    c.factList <+: facts ∧ ∃ d, d ≠ "" ∧ factValue facts Fact.RECEIPT_DIGEST = some d := by
  refine ⟨(List.prefix_append _ _).trans h, digest.toHex, Sha256Digest.toHex_ne_empty digest, ?_⟩
  obtain ⟨more, rfl⟩ := h
  exact factValue_append_of_some (c.receipt_receiptFactList digest)

/-- Where the job stands while it holds the token. -/
def Stands (j : String) (w : Option (String × Stage)) : Phase → Prop
  | .idle => Ready w
  | .admitted t => t.permit.permit.jobId.value = j ∧
      w = some (t.permit.permit.permitId.value, .intent)
  | .inFlight f => f.context.jobId.value = j ∧ w = some (f.context.permitId.value, .started)
  | .completed c => c.context.jobId.value = j ∧ w = some (c.context.permitId.value, .consumed)

theorem added_of_append {dj dj' : DurableJournal} {io : AppendIo} {e : Entry} {d : Sha256Digest}
    (h : dj.append io e = (.ok d, dj')) :
    ∃ r, Carries e r ∧ dj'.journal.records = dj.journal.records ++ [r] := by
  have hstep := append_step dj io e
  rw [h] at hstep
  exact hstep.added rfl

theorem Serial.two {p : String} {rs rs' : List JournalRecord} {s s₁ s₂ : Stage}
    {r₁ r₂ : JournalRecord} (h : Serial j rs (some (p, s))) (h₁ : s.next = some s₁)
    (h₂ : s₁.next = some s₂) (hr₁ : StepRecord j p s₁ r₁) (hr₂ : StepRecord j p s₂ r₂)
    (hrs : rs' = rs ++ [r₁, r₂]) : Serial j rs' (some (p, s₂)) := by
  rw [hrs, List.append_cons]
  exact .advance (.advance h h₁ hr₁) h₂ hr₂

/-- **The chain of a run is a serial journal**, and the token tells where it stands: one case for
each call. -/
theorem Serves.serial {dj : DurableJournal} {ph : Phase} (h : Serves j dj ph) :
    ∃ w, Serial j dj.journal.records w ∧ Stands j w ph := by
  induction h with
  | created hempty he happ =>
    obtain ⟨r, hr, hrecords⟩ := added_of_append happ
    rw [hempty] at hrecords
    rw [hrecords]
    refine ⟨none, .created (hr.kind.trans he.kind) ?_ ?_, trivial⟩
    · rw [createdJob, hr.facts, hr.subject]
      exact he.job
    · rw [hr.facts]
      exact he.silent
  | other _ he happ ih =>
    obtain ⟨w, hserial, hstands⟩ := ih
    obtain ⟨r, hr, hrecords⟩ := added_of_append happ
    rw [hrecords]
    refine ⟨w, .aside hserial ⟨fun s => ?_, ?_, ?_⟩, hstands⟩
    · rw [hr.kind]
      exact he.kind s
    · rw [hr.kind]
      exact he.outcome
    · rw [hr.facts]
      exact he.silent
  | @admitted dj dj' io permit secret intent t _ hjob hexec ih =>
    obtain ⟨w, hserial, hready⟩ := ih
    have hspec := (admitStep_spec io permit secret intent dj).of_exec hexec
    obtain ⟨happends, hok, -⟩ := hspec
    obtain ⟨hpermit, -, hunseen⟩ := hok t rfl
    obtain ⟨rs, hcarries, hrecords⟩ := happends.added rfl
    obtain _ | ⟨hr₁, _ | ⟨hr₂, _ | _⟩⟩ := hcarries
    -- the admission has checked that the permit is fresh
    have hfresh : ∀ r ∈ dj.journal.records, ¬ Names permit.permitId.value r :=
      fun r hr hn => hserial.seen r hr _ hn hunseen
    have h₁ := stepRecord_of_carries (s := .accepted) hjob List.prefix_rfl nofun hr₁
    have h₂ := stepRecord_of_carries (s := .intent) hjob List.prefix_rfl nofun hr₂
    have haccepted := Serial.accept hserial hready hfresh h₁
    refine ⟨_, ?_, by rw [hpermit]; exact hjob, by rw [hpermit]⟩
    rw [hrecords, List.append_cons]
    exact .advance haccepted rfl h₂
  | @dispatched dj dj' io t now extra f _ hexec ih =>
    obtain ⟨w, hserial, hjob, rfl⟩ := ih
    have hspec := (beginDispatchWithFacts_spec io t now extra dj).of_exec hexec
    obtain ⟨c, facts, rfl, hlarge, happends, hcontext⟩ := hspec
    obtain ⟨rs, hcarries, hrecords⟩ := happends.added rfl
    obtain _ | ⟨hr₁, _ | ⟨hr₂, _ | _⟩⟩ := hcarries
    have h₁ := stepRecord_of_carries (s := .consuming) hjob hlarge.1 nofun hr₁
    have h₂ := stepRecord_of_carries (s := .started) hjob hlarge.1 nofun hr₂
    have hf := hcontext f rfl
    refine ⟨_, Serial.two hserial rfl rfl h₁ h₂ hrecords, ?_, ?_⟩
    · rw [hf]
      exact hjob
    · rw [hf]
      rfl
  | @evidence dj dj' io f now facts _ hexec ih =>
    obtain ⟨w, hserial, hjob, rfl⟩ := ih
    have hspec := (recordTransportEvidence_spec io f now facts dj).of_exec hexec
    obtain ⟨all, hlarge, happends⟩ := hspec
    obtain ⟨rs, hcarries, hrecords⟩ := happends.added rfl
    obtain _ | ⟨hr, _ | _⟩ := hcarries
    have hfacts := hr.facts
    refine ⟨_, ?_, hjob, rfl⟩
    rw [hrecords]
    refine .evidence hserial ⟨hr.kind, names_of_carries hlarge.1 hr, ?_⟩
    obtain ⟨more, hmore⟩ := hlarge.1
    rw [hfacts, StepContext.entry, ← hmore, factValue_append_of_some f.context.jobId_factList, hjob]
  | @received dj dj' io f digest extra now c _ hexec ih =>
    obtain ⟨w, hserial, hjob, rfl⟩ := ih
    have hspec := (recordReceiptWithFacts_spec io f digest extra now dj).of_exec hexec
    obtain ⟨facts, hlarge, happends, hcontext⟩ := hspec
    obtain ⟨rs, hcarries, hrecords⟩ := happends.added rfl
    obtain _ | ⟨hr₁, _ | ⟨hr₂, _ | _⟩⟩ := hcarries
    obtain ⟨hpre₁, hreceipt₁⟩ := receipt_of_enlarges hlarge.1
    have hself : f.context.receiptFactList digest <+: f.context.receiptFactList digest :=
      List.prefix_rfl
    obtain ⟨hpre₂, hreceipt₂⟩ := receipt_of_enlarges hself
    have h₁ := stepRecord_of_carries (s := .received) hjob hpre₁ (fun _ => hreceipt₁) hr₁
    have h₂ := stepRecord_of_carries (s := .consumed) hjob hpre₂ (fun _ => hreceipt₂) hr₂
    have hc := (hcontext c rfl).1
    refine ⟨_, Serial.two hserial rfl rfl h₁ h₂ hrecords, ?_, ?_⟩
    · rw [hc]
      exact hjob
    · rw [hc]
  | @checkpointed dj dj' io c now d _ hexec ih =>
    obtain ⟨w, hserial, hjob, rfl⟩ := ih
    have hspec := (checkpoint_spec io c now dj).of_exec hexec
    obtain ⟨rs, hcarries, hrecords⟩ := hspec.added rfl
    obtain _ | ⟨hr, _ | _⟩ := hcarries
    have hstep := stepRecord_of_carries (s := .checkpointed) hjob (List.prefix_append _ _)
      (fun hs => absurd hs (by decide)) hr
    refine ⟨some (c.context.permitId.value, .checkpointed), ?_, rfl⟩
    rw [hrecords]
    exact .advance hserial rfl hstep

/-! ### Crash windows -/

/-- **Crash windows are exact.** The journal of a job that runs its steps one after the other, cut
after any record, is put in the row that its records call for. -/
theorem crash_window_exact {j : String} {dj : DurableJournal} {ph : Phase} (h : Serves j dj ph)
    {rs : List JournalRecord} (hcut : rs <+: dj.journal.records) (hne : rs ≠ []) :
    Exact rs (derive ⟨rs⟩ j) := by
  obtain ⟨w, hserial, -⟩ := h.serial
  obtain ⟨w', hserial'⟩ := hserial.cut hcut hne
  exact hserial'.exact

/-- A job whose first step is dispatched and whose receipt is missing. -/
theorem crash_window_exact_dispatched : ∃ (dj : DurableJournal) (t : DispatchInFlight),
    Serves "JOB-1" dj (.inFlight t) ∧ dj.journal.records <+: dj.journal.records ∧
      dj.journal.records ≠ [] ∧
      Exact dj.journal.records (derive ⟨dj.journal.records⟩ "JOB-1") := by
  let id : OpaqueId := ⟨"JOB-1", by decide⟩
  let e : Entry := ⟨.jobCreated, 0, 1, id, []⟩
  let start : DurableJournal := Replay.opened "journal" [] [] MAGIC.length
  let zero := sha256 []
  let intent : DispatchIntent :=
    ⟨id, id, id, zero, id, id, zero, zero, zero, ⟨id, id, 1, zero⟩, zero, 0⟩
  obtain ⟨permit, -, hjob, hverify⟩ :=
    exists_verified intent ⟨1, []⟩ id (show intent.nowEpochMs < 1 by decide)
  have hprepare : ∃ r b, start.prepare e = .ok (r, b) :=
    exists_prepare (v := 0) List.nodup_nil nofun (by decide)
  obtain ⟨r, b, hprep⟩ := hprepare
  obtain ⟨dj₁, happ⟩ := append_flawless rfl hprep
  have h₁ : Serves "JOB-1" dj₁ .idle := .created rfl ⟨rfl, rfl, rfl⟩ happ
  have hstep := append_step start flawless e
  rw [happ] at hstep
  obtain ⟨r₁, hr₁, hrecords₁⟩ := hstep.added rfl
  have hunseen : standing permit.permitId.value dj₁.journal.records = .unseen := by
    refine standing_eq_unseen fun x hx => ?_
    rw [hrecords₁] at hx
    obtain rfl : x = r₁ := by simpa [start, Replay.opened] using hx
    have hfacts : x.facts = [] := hr₁.facts
    exact not_names_of_silent (by rw [hfacts]; rfl) _
  rcases hexec : (admitStep (flawless, flawless) permit ⟨1, []⟩ intent).exec dj₁ with ⟨result, dj₂⟩
  obtain ⟨halive, t, rfl, -⟩ :=
    (admitStep_flawless (hstep.alive rfl) hunseen hverify).of_exec hexec
  have h₂ : Serves "JOB-1" dj₂ (.admitted t) := .admitted h₁ (by rw [hjob]) hexec
  rcases hexec' : (beginDispatch (flawless, flawless) t 0).exec dj₂ with ⟨result', dj₃⟩
  obtain ⟨-, f, rfl⟩ := (beginDispatch_flawless halive).of_exec hexec'
  have h₃ : Serves "JOB-1" dj₃ (.inFlight f) := .dispatched h₂ hexec'
  obtain ⟨w, hserial, -⟩ := h₃.serial
  exact ⟨dj₃, f, h₃, List.prefix_rfl, hserial.ne_nil,
    crash_window_exact h₃ List.prefix_rfl hserial.ne_nil⟩

end ArkForge.Engine.SerialJob
