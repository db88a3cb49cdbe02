import ArkForge.Daemon.Calls
import ArkForge.Daemon.Recover
import ArkForge.Engine.CrashWindow

/-! # What a restart makes of a journal

`verdict` is the state that a restart puts the job of a journal in. It reads a record only through its
kind and the facts it looks up, so it is the same for the journal in memory and for its file; and the
classification that a restart appends does not change it. -/

namespace ArkForge.Daemon.Verdict

open Lib.Transaction
open Core.Cbor Core.Ids
open Engine.Record Engine.Durable Engine.Replay
open Engine.Handle Engine.Recovery Engine.Recovery.CrashDisposition
open Engine.LiveReplay Engine.CrashWindow
open Ipc.Jobs Jobs Calls Recover

variable {jobId path : String} {rs ss records : List JournalRecord} {io : AppendIo}
  {r : JournalRecord} {dj : DurableJournal}

/-! ### The verdict -/

def outcomeFound (records : List JournalRecord) : Option String :=
  (firstClassification records).bind fun r => factValue r.facts "outcome"

/-- The state that a row of the crash table leads to. -/
def restartState : CrashDisposition → Option JobState
  | .noJob => none
  | .safeToCancel | .dispatchForbiddenUntilIntentDurable _ => some .cancelledSafe
  | .outcomeUnknown _ | .receiptDurableCheckpointMissing _ | .replayFromCheckpoint =>
    some .outcomeUnknown
  | .concluded state => some state

def found (records : List JournalRecord) : Option JobState :=
  (outcomeFound records).map stateOfOutcome

/-- The state a restart puts the job in. -/
def verdict (records : List JournalRecord) (jobId : String) : Option JobState :=
  (found records).or (restartState (derive ⟨records⟩ jobId))

variable {d : CrashDisposition} {state : JobState} {all : Bool}

theorem restartVerdict_eq_ok {outcome reason : String}
    (h : restartVerdict path jobId all d = .ok (state, outcome, reason)) :
    restartState d = some state ∧ outcome = state.asStr := by
  cases d <;> cases h <;> exact ⟨rfl, rfl⟩

/-- The job that the records create. -/
def createdId (records : List JournalRecord) : Option String :=
  (records.find? fun r => r.kind = .jobCreated).bind fun r => factValue r.facts Fact.JOB_ID

/-! ### The readers -/

def hasOutcome (r : JournalRecord) (outcome : String) : Bool :=
  r.facts.any fun f => f.1.value = "outcome" ∧ f.2 = outcome

theorem isTerminalClassification_eq (r : JournalRecord) :
    isTerminalClassification r = (isClassification r &&
      (hasOutcome r "succeeded" || hasOutcome r "cancelledSafe" ||
        hasOutcome r "recoveryAssessable" || hasOutcome r "confirmedFailed")) := by
  unfold isTerminalClassification hasOutcome
  congr 1
  induction r.facts with
  | nil => rfl
  | cons f facts ih =>
    simp only [List.any_cons, ih]
    by_cases hf : f.1.value = "outcome" <;> simp [hf, Bool.or_assoc, Bool.or_left_comm]

theorem isTerminalClassification_alike {s : JournalRecord} (h : Alike r s) :
    isTerminalClassification r = isTerminalClassification s := by
  have hany : hasOutcome r = hasOutcome s := funext fun outcome => h.any "outcome" outcome
  have hkind : isClassification r = isClassification s := by
    rw [isClassification, isClassification, h.kind]
  rw [isTerminalClassification_eq, isTerminalClassification_eq, hany, hkind]

theorem find?_alike {p : JournalRecord → Bool} (h : List.Forall₂ Alike rs ss)
    (hp : ∀ r s, Alike r s → p r = p s) : Option.Rel Alike (rs.find? p) (ss.find? p) := by
  induction h with
  | nil => exact .none
  | @cons r s rs ss hrs _ ih =>
    rw [List.find?_cons, List.find?_cons, hp r s hrs]
    cases p s
    · exact ih
    · exact .some hrs

theorem bind_fact_alike {x y : Option JournalRecord} (h : Option.Rel Alike x y) (key : String) :
    (x.bind fun r => factValue r.facts key) = y.bind fun r => factValue r.facts key := by
  cases h with
  | some hrs => exact hrs.fact key
  | none => rfl

theorem firstClassification_alike (h : List.Forall₂ Alike rs ss) :
    Option.Rel Alike (firstClassification rs) (firstClassification ss) := by
  have hterminal := find?_alike h fun r s => isTerminalClassification_alike
  have hany := find?_alike (p := isClassification) h fun r s hrs => by
    rw [isClassification, isClassification, hrs.kind]
  unfold firstClassification
  generalize rs.find? isTerminalClassification = x at hterminal ⊢
  generalize ss.find? isTerminalClassification = y at hterminal ⊢
  cases hterminal with
  | some hrs => exact .some hrs
  | none => exact hany

theorem outcomeFound_alike (h : List.Forall₂ Alike rs ss) : outcomeFound rs = outcomeFound ss :=
  bind_fact_alike (firstClassification_alike h) "outcome"

theorem verdict_alike (h : List.Forall₂ Alike rs ss) (jobId : String) :
    verdict rs jobId = verdict ss jobId := by
  unfold verdict found
  rw [outcomeFound_alike h, derive_alike h]

theorem createdId_alike (h : List.Forall₂ Alike rs ss) : createdId rs = createdId ss := by
  refine bind_fact_alike (find?_alike h fun r s hrs => ?_) Fact.JOB_ID
  simp only [hrs.kind]

/-! ### Classifications -/

theorem found_eq_none (h : ∀ r ∈ rs, r.kind ≠ .outcomeClassified) : found rs = none := by
  have hc : rs.find? isClassification = none :=
    List.find?_eq_none.mpr fun r hr => by simp [isClassification, h r hr]
  have ht : rs.find? isTerminalClassification = none :=
    List.find?_eq_none.mpr fun r hr => by simp [isTerminalClassification, isClassification, h r hr]
  simp [found, outcomeFound, firstClassification, hc, ht]

/-! ### Serial journals -/

variable {w : Option (String × Stage)} {j : String}

theorem serial_verdict (h : Serial j rs w) : verdict rs j = restartState (rowAt w) := by
  rw [verdict, found_eq_none h.owns.running, h.derive_eq]
  rfl

/-- From the intent of a permit on the outcome is unknown. -/
theorem restartState_rowAt (p : String) (s : Stage) :
    restartState (rowAt (some (p, s))) =
      some (if s = .accepted then JobState.cancelledSafe else .outcomeUnknown) := by
  cases s <;> rfl

theorem serial_head (h : Serial j rs w) : ∃ r rest, rs = r :: rest ∧ r.kind = .jobCreated := by
  induction h with
  | @created r hkind _ _ => exact ⟨r, [], rfl, hkind⟩
  | aside _ _ ih | evidence _ _ ih | accept _ _ _ _ ih | advance _ _ _ ih =>
    obtain ⟨r, rest, rfl, hkind⟩ := ih
    exact ⟨r, rest ++ [_], rfl, hkind⟩

theorem createdId_cons (hkind : r.kind = .jobCreated) (rest : List JournalRecord) :
    createdId (r :: rest) = factValue r.facts Fact.JOB_ID := by
  simp [createdId, hkind]

/-! ### Recovery -/

theorem storedClassification_eq_none {receipts : List JobEvent} :
    (firstClassification records).bind (storedClassification records receipts) = none ↔
      found records = none := by
  unfold found outcomeFound storedClassification
  rcases firstClassification records with _ | r
  · simp
  · rcases h : factValue r.facts "outcome" with _ | outcome <;> simp [h]

/-- A classification that is returned, found or appended, is the verdict of the records. -/
theorem classify_spec (io : AppendIo) (path jobId : String) (receipts : List JobEvent) (all : Bool)
    (dj : DurableJournal) :
    Ensures (classify io path jobId receipts all) dj fun result dj' =>
      match result with
      | .ok c => verdict dj.journal.records jobId = some c.state ∧ dj'.path = dj.path
      | .error _ => True := by
  apply ensures_get_bind
  dsimp only
  split
  · next c hc =>
    obtain ⟨r, hfirst, hstored⟩ := Option.bind_eq_some_iff.mp hc
    obtain ⟨outcome, houtcome, hc⟩ := Option.bind_eq_some_iff.mp hstored
    obtain rfl := Option.some.inj hc
    exact ensures_pure ⟨by simp [verdict, found, outcomeFound, hfirst, houtcome], rfl⟩
  · next hnone =>
    have hunclassified := storedClassification_eq_none.mp hnone
    apply ensures_get_bind
    apply ensures_liftExcept_bind (fun _ _ => trivial)
    rintro ⟨state, outcome, reason⟩ hverdict
    obtain ⟨hstate, -⟩ := restartVerdict_eq_ok hverdict
    apply ensures_liftExcept_bind (fun _ _ => trivial)
    intro subject _
    apply ensures_liftExcept_bind (fun _ _ => trivial)
    intro facts _
    apply ensures_bind
    apply ensures_mk
    have hpath := path_append dj io
      ⟨.outcomeClassified, restartTime dj.journal.records, 1, subject, facts⟩
    rcases happ : dj.append io ⟨.outcomeClassified, _, 1, subject, facts⟩ with ⟨error | d, dj'⟩
    · trivial
    · rw [happ] at hpath
      exact ensures_pure ⟨by simp [verdict, hunclassified, hstate], hpath⟩

theorem requireCreated_eq_ok : requireCreated path records = .ok r ↔
      records.find? (fun r => r.kind = .jobCreated) = some r := by
  unfold requireCreated
  rcases records.find? _ with _ | r' <;> simp

theorem requireJobId_eq_ok :
    requireJobId path r = .ok jobId ↔ factValue r.facts Fact.JOB_ID = some jobId := by
  unfold requireJobId
  rcases factValue r.facts Fact.JOB_ID with _ | j <;> simp

/-- What is recovered from an open journal. -/
structure Recovered (dj : DurableJournal) (job : Job) : Prop where
  created : createdId dj.journal.records = some job.jobId
  state : verdict dj.journal.records job.jobId = some job.state
  path : job.journal.path = dj.path

theorem recoverOpened_spec (io : AppendIo) (path : String) (dj : DurableJournal) :
    Ensures (recoverOpened io path) dj fun result _ =>
      match result with
      | .ok job => Recovered dj job
      | .error _ => True := by
  apply ensures_get_bind
  apply ensures_liftExcept_bind (fun _ _ => trivial)
  intro created hcreated
  apply ensures_liftExcept_bind (fun _ _ => trivial)
  intro jobId hjob
  apply ensures_bind
  refine (classify_spec io path jobId _ _ dj).imp fun result dj' hc => ?_
  rcases result with error | c
  · trivial
  · refine ⟨?_, hc.1, hc.2⟩
    rw [createdId, requireCreated_eq_ok.mp hcreated]
    exact requireJobId_eq_ok.mp hjob

variable {fault : OpenFault} {disk : Disk} {job : Job}

/-- **A recovered job** comes from the journal that was opened. -/
theorem recoverJob_eq_ok (h : recoverJob path fault io disk = .ok job) :
    ∃ dj report, DurableJournal.openAt path fault disk = .ok (dj, report) ∧ Recovered dj job := by
  unfold recoverJob at h
  split at h
  · cases h
  · next dj report hopen =>
    split at h
    · next job' dj' hexec =>
      obtain rfl := Except.ok.inj h
      exact ⟨dj, report, hopen, (recoverOpened_spec io path dj).of_exec hexec⟩
    · cases h

/-- **The state of a recovered job is the verdict of the records on the disk.** -/
theorem recoverJob_verdict (hs : Stores disk.content records)
    (h : recoverJob path fault io disk = .ok job) :
    createdId records = some job.jobId ∧ verdict records job.jobId = some job.state := by
  obtain ⟨dj, report, hopen, hrecovered⟩ := recoverJob_eq_ok h
  have halike := hs.alike hopen
  rw [createdId_alike halike, verdict_alike halike]
  exact ⟨hrecovered.created, hrecovered.state⟩

/-! ### Restarts that succeed -/

/-- The permit that the row is about is an identifier. -/
def Nameable : CrashDisposition → Prop
  | .dispatchForbiddenUntilIntentDurable p | .outcomeUnknown p
  | .receiptDurableCheckpointMissing p => Conforming p
  | _ => True

theorem length_reason_le {outcome reason : String}
    (h : restartVerdict path jobId all d = .ok (state, outcome, reason)) (hd : Nameable d) :
    (utf8 reason).length ≤ 4096 := by
  have hmax : MAX_ID_LEN = 128 := rfl
  have text : ∀ a p b : String, Conforming p → (utf8 a).length + (utf8 b).length ≤ 1000 →
      (utf8 (a ++ p ++ b)).length ≤ 4096 := by
    intro a p b hp hab
    have hle := hp.2.1
    simp only [utf8_append, List.length_append]
    omega
  cases d with
  | noJob => cases h
  | safeToCancel =>
    cases h
    decide +kernel
  | dispatchForbiddenUntilIntentDurable p =>
    cases h
    exact text _ _ _ hd (by decide +kernel)
  | outcomeUnknown p =>
    cases h
    exact text _ _ _ hd (by decide +kernel)
  | receiptDurableCheckpointMissing p =>
    cases h
    exact text _ _ _ hd (by decide +kernel)
  | replayFromCheckpoint =>
    cases h
    cases all <;> decide +kernel
  | concluded state =>
    cases h
    decide +kernel

/-- What a restart needs to succeed: a classification, or an operating system that lets it append
one. -/
def Restartable (io : AppendIo) (records : List JournalRecord) (jobId : String) : Prop :=
  found records ≠ none ∨ io = flawless ∧ Conforming jobId ∧ derive ⟨records⟩ jobId ≠ .noJob ∧
    Nameable (derive ⟨records⟩ jobId)

theorem classify_ok (hp : dj.poisoned = false) (h : Restartable io dj.journal.records jobId)
    (path : String) (receipts : List JobEvent) (all : Bool) :
    Ensures (classify io path jobId receipts all) dj fun result _ =>
      ∃ c, result = .ok c := by
  apply ensures_get_bind
  dsimp only
  split
  · exact ensures_pure ⟨_, rfl⟩
  next hnone =>
  have hunclassified := storedClassification_eq_none.mp hnone
  obtain ⟨rfl, hj, hjob, hname⟩ := h.resolve_left fun hfound => hfound hunclassified
  obtain ⟨⟨state, outcome, reason⟩, hverdict⟩ :
      ∃ v, restartVerdict path jobId all (derive dj.journal jobId) = .ok v := by
    rcases hd : derive dj.journal jobId with _ | _ | _ | _ | _ | _ | _
    · exact absurd hd hjob
    all_goals exact ⟨_, rfl⟩
  obtain ⟨-, rfl⟩ := restartVerdict_eq_ok hverdict
  have hreason := length_reason_le hverdict hname
  have hsubject : identifier jobId = .ok ⟨jobId, hj⟩ := identifier_eq_ok.mpr rfl
  have hsequence : restartSequence dj.journal.records receipts < 2 ^ 64 := by
    unfold restartSequence saturatingSucc U64_MAX
    omega
  have hstate : (utf8 state.asStr).length ≤ 4096 := by cases state <;> decide
  obtain ⟨facts, hfacts⟩ := exists_factEntries [
      ("outcome", state.asStr), ("reason", reason),
      ("eventSequence", toString (restartSequence dj.journal.records receipts))] (by
    simp only [List.mem_cons, forall_eq_or_imp]
    decide)
  obtain ⟨d, dj', happ⟩ := append_named hp ⟨.outcomeClassified,
      restartTime dj.journal.records, 1, ⟨jobId, hj⟩, facts⟩ (factEntries_eq_ok.mp hfacts)
    (by simp) (by simp) (by
      simp only [List.mem_cons, List.not_mem_nil, or_false, forall_eq_or_imp, forall_eq]
      exact ⟨hstate, hreason, length_utf8_toString_le hsequence⟩)
  apply ensures_get_bind
  apply ensures_known hverdict
  apply ensures_known hsubject
  apply ensures_known hfacts
  apply ensures_bind
  apply ensures_mk
  rw [happ]
  exact ensures_pure ⟨_, rfl⟩

theorem recoverOpened_ok (hp : dj.poisoned = false)
    (hcreated : createdId dj.journal.records = some jobId)
    (h : Restartable io dj.journal.records jobId) (path : String) :
    Ensures (recoverOpened io path) dj fun result _ => ∃ job, result = .ok job := by
  obtain ⟨created, hfirst, hjob⟩ := Option.bind_eq_some_iff.mp hcreated
  apply ensures_get_bind
  apply ensures_known (requireCreated_eq_ok.mpr hfirst)
  apply ensures_known (requireJobId_eq_ok.mpr hjob)
  apply ensures_bind
  refine (classify_ok hp h path _ _).imp fun result dj' hc => ?_
  obtain ⟨c, rfl⟩ := hc
  apply ensures_get_bind
  exact ensures_pure ⟨_, rfl⟩

/-- **A restart succeeds** if nothing goes wrong with the file. -/
theorem exists_recoverJob (hs : Stores disk.content records)
    (hcreated : createdId records = some jobId) (h : Restartable io records jobId) (path : String) :
    ∃ job, recoverJob path .none io disk = .ok job := by
  obtain ⟨bodies, tail, rs, hholds, -⟩ := id hs
  have hopen := open_of_holds hholds path
  have halike : List.Forall₂ Alike records rs := hs.alike hopen
  have hrestart : Restartable io rs jobId := by
    have hfound : found records = found rs := by rw [found, found, outcomeFound_alike halike]
    have hderive : derive ⟨records⟩ jobId = derive ⟨rs⟩ jobId := derive_alike halike jobId
    unfold Restartable at h ⊢
    rwa [← hfound, ← hderive]
  have hcreated' : createdId rs = some jobId := by rw [← createdId_alike halike]; exact hcreated
  rcases hexec : (recoverOpened io path).exec
    (opened path bodies rs (syncedAfterOpen disk bodies tail)) with ⟨result, dj'⟩
  obtain ⟨job, rfl⟩ := (recoverOpened_ok rfl hcreated' hrestart path).of_exec hexec
  exact ⟨job, by simp only [recoverJob, hopen, hexec]⟩

end ArkForge.Daemon.Verdict
