import ArkForge.Authority.Permit
import ArkForge.Engine.Handle
import ArkForge.Engine.Recovery
import ArkForge.Lib.Transaction

/-! # Step transactions

The one path from a permit to an effect: `admitStep`, `beginDispatch`, `recordReceipt` and
`checkpoint`, each of which takes the token of the one before it and appends its records to the open
journal. What an operation does to the journal is a chain of appends that may break off (`Appends`);
there is one lemma about each operation, and the rest of the development uses only those. -/

namespace ArkForge.Engine.Step

open Lib.Result Lib.Transaction
open Core.Cbor Core.Digest Core.Ids
open Authority.Permit
open Record Durable Handle
open Recovery

/-! ### Tokens -/

inductive StepError where
  | alreadyConsumed (permitId receiptDigest : String)
  | outcomeUnknown (permitId : String)
  | intentAlreadyRecorded (permitId : String)
  | verification (error : PermitVerificationError)
  | journal (error : DurableJournalError)
  | unusableIdentifier (value : String)
  | duplicateFactKey (value : String)

/-- A step whose permit verified and whose intent is on stable storage. -/
structure AdmittedStep where
  permit : VerifiedStepPermit
  intentDigest : Sha256Digest

/-- Who the records of a step are about. Its only constructor is `fromPermit`, so the texts the source
keeps are those of identifiers. -/
structure StepContext where
  jobId : JobId
  planId : PlanId
  stepId : StepId
  attemptId : AttemptId
  permitId : PermitId

/-- A dispatch that has started and whose outcome is not yet recorded. -/
structure DispatchInFlight where
  context : StepContext
  intentDigest : Sha256Digest
  dispatchDigest : Sha256Digest

/-- A step with a durable semantic receipt, not yet checkpointed. -/
structure CompletedStep where
  context : StepContext
  receiptDigest : Sha256Digest
  receiptRecordDigest : Sha256Digest

/-! ### Facts -/

def subject (value : String) : Except StepError OpaqueId :=
  (OpaqueId.new value).mapError fun _ => .unusableIdentifier value

def key (value : String) : Except StepError OpaqueId :=
  (OpaqueId.new value).mapError fun _ => .unusableIdentifier value

namespace StepContext

def fromPermit (v : VerifiedStepPermit) : StepContext :=
  ⟨v.permit.jobId, v.permit.planId, v.permit.stepId, v.permit.attemptId, v.permit.permitId⟩

def facts (c : StepContext) : Except StepError (List (OpaqueId × String)) := do
  return [(← key Fact.JOB_ID, c.jobId.value), (← key Fact.PLAN_ID, c.planId.value),
    (← key Fact.STEP_ID, c.stepId.value), (← key Fact.ATTEMPT_ID, c.attemptId.value),
    (← key Fact.PERMIT_ID, c.permitId.value)]

def factsWithReceipt (c : StepContext) (receiptDigest : Sha256Digest) :
    Except StepError (List (OpaqueId × String)) := do
  return (← c.facts) ++ [(← key Fact.RECEIPT_DIGEST, receiptDigest.toHex)]

end StepContext

/-- Adds facts under keys that are not there yet. -/
def extendUniqueFacts (facts : List (OpaqueId × String)) :
    List (String × String) → Except StepError (List (OpaqueId × String))
  | [] => .ok facts
  | (name, value) :: extra => do
    let name ← key name
    if facts.any fun f => f.1 = name then .error (.duplicateFactKey name.value)
    else extendUniqueFacts (facts ++ [(name, value)]) extra

/-! ### Operations -/

/-- A step transaction over an open journal. -/
abbrev StepTx := Tx StepError DurableJournal

def append (io : AppendIo) (kind : JournalRecordKind) (now : UInt64) (subject : OpaqueId)
    (facts : List (OpaqueId × String)) : StepTx Sha256Digest :=
  ExceptT.mk fun dj =>
    let (result, dj) := dj.append io ⟨kind, now, 1, subject, facts⟩
    (result.mapError .journal, dj)

/-- Refuses a permit that the journal mentions. -/
def checkUnseen (permitId : String) : PermitDisposition → Except StepError Unit
  | .unseen => .ok ()
  | .consumed receiptDigest => .error (.alreadyConsumed permitId receiptDigest)
  | .consumingOutcomeUnknown => .error (.outcomeUnknown permitId)
  | .intentDurable | .acceptedIntentNotDurable => .error (.intentAlreadyRecorded permitId)

/-- Verifies a permit against the ledger and makes its intent durable. -/
def admitStep (io : AppendIo × AppendIo) (permit : StepPermit) (secret : ControllerPairingSecret)
    (intent : DispatchIntent) : StepTx AdmittedStep := do
  let journal ← get
  let permitId := permit.permitId.value
  liftExcept (checkUnseen permitId ((PermitLedger.fromJournal journal.journal).disposition permitId))
  let verified ← liftExcept ((verifyPermit permit secret intent false).mapError StepError.verification)
  let context := StepContext.fromPermit verified
  let _ ← append io.1 .stepPermitAccepted intent.nowEpochMs
    (← liftExcept (subject context.stepId.value)) (← liftExcept context.facts)
  let intentDigest ← append io.2 .stepIntentRecorded intent.nowEpochMs
    (← liftExcept (subject context.stepId.value)) (← liftExcept context.facts)
  return ⟨verified, intentDigest⟩

/-- Marks the permit as being consumed and the dispatch as started. -/
def beginDispatchWithFacts (io : AppendIo × AppendIo) (step : AdmittedStep) (now : UInt64)
    (extraFacts : List (String × String)) : StepTx DispatchInFlight := do
  let context := StepContext.fromPermit step.permit
  let facts ← liftExcept (do extendUniqueFacts (← context.facts) extraFacts)
  let _ ← append io.1 .permitConsuming now (← liftExcept (subject context.stepId.value)) facts
  let dispatchDigest ← append io.2 .externalDispatchStarted now
    (← liftExcept (subject context.stepId.value)) facts
  return ⟨context, step.intentDigest, dispatchDigest⟩

def beginDispatch (io : AppendIo × AppendIo) (step : AdmittedStep) (now : UInt64) :
    StepTx DispatchInFlight :=
  beginDispatchWithFacts io step now []

def recordTransportEvidence (io : AppendIo) (inFlight : DispatchInFlight) (now : UInt64)
    (facts : List (String × String)) : StepTx Unit := do
  let entries ← liftExcept (do extendUniqueFacts (← inFlight.context.facts) facts)
  let _ ← append io .transportEvidenceRecorded now
    (← liftExcept (subject inFlight.context.stepId.value)) entries

def recordReceiptWithFacts (io : AppendIo × AppendIo) (inFlight : DispatchInFlight)
    (receiptDigest : Sha256Digest) (extraFacts : List (String × String)) (now : UInt64) :
    StepTx CompletedStep := do
  let context := inFlight.context
  let semanticFacts ← liftExcept (do
    extendUniqueFacts (← context.factsWithReceipt receiptDigest) extraFacts)
  let receiptRecordDigest ← append io.1 .semanticReceiptRecorded now
    (← liftExcept (subject context.stepId.value)) semanticFacts
  let _ ← append io.2 .permitConsumed now (← liftExcept (subject context.stepId.value))
    (← liftExcept (context.factsWithReceipt receiptDigest))
  return ⟨context, receiptDigest, receiptRecordDigest⟩

def checkpoint (io : AppendIo) (completed : CompletedStep) (now : UInt64) : StepTx Sha256Digest := do
  append io .stepCheckpointed now (← liftExcept (subject completed.context.stepId.value))
    (← liftExcept (completed.context.factsWithReceipt completed.receiptDigest))

/-! ### What the operations write -/

theorem subject_value (id : OpaqueId) : subject id.value = .ok id := by
  unfold subject
  rw [OpaqueId.new_value id]
  rfl

namespace StepContext

/-- The facts every record of a step carries. -/
def factList (c : StepContext) : List (OpaqueId × String) := [
  (⟨Fact.JOB_ID, by decide⟩, c.jobId.value), (⟨Fact.PLAN_ID, by decide⟩, c.planId.value),
  (⟨Fact.STEP_ID, by decide⟩, c.stepId.value), (⟨Fact.ATTEMPT_ID, by decide⟩, c.attemptId.value),
  (⟨Fact.PERMIT_ID, by decide⟩, c.permitId.value)]

/-- The facts of the records that name a receipt. -/
def receiptFactList (c : StepContext) (receiptDigest : Sha256Digest) : List (OpaqueId × String) :=
  c.factList ++ [(⟨Fact.RECEIPT_DIGEST, by decide⟩, receiptDigest.toHex)]

theorem facts_eq (c : StepContext) : c.facts = .ok c.factList := rfl

theorem factsWithReceipt_eq (c : StepContext) (d : Sha256Digest) :
    c.factsWithReceipt d = .ok (c.receiptFactList d) := rfl

theorem nodup_receiptFactList (c : StepContext) (d : Sha256Digest) :
    ((c.receiptFactList d).map Prod.fst).Nodup := by
  simp only [receiptFactList, factList, List.map_append, List.map_cons]
  decide

theorem nodup_factList (c : StepContext) : (c.factList.map Prod.fst).Nodup := by
  simp only [factList, List.map_cons]
  decide

theorem jobId_factList (c : StepContext) : factValue c.factList Fact.JOB_ID = some c.jobId.value :=
  rfl

theorem stepId_factList (c : StepContext) :
    factValue c.factList Fact.STEP_ID = some c.stepId.value := by
  simp [factList, factValue_cons, Fact.JOB_ID, Fact.PLAN_ID, Fact.STEP_ID]

theorem permitId_factList (c : StepContext) :
    factValue c.factList Fact.PERMIT_ID = some c.permitId.value := by
  simp [factList, factValue_cons, Fact.JOB_ID, Fact.PLAN_ID, Fact.STEP_ID, Fact.ATTEMPT_ID,
    Fact.PERMIT_ID]

theorem receipt_receiptFactList (c : StepContext) (d : Sha256Digest) :
    factValue (c.receiptFactList d) Fact.RECEIPT_DIGEST = some d.toHex := by
  simp [receiptFactList, factList, factValue_cons, Fact.JOB_ID, Fact.PLAN_ID, Fact.STEP_ID,
    Fact.ATTEMPT_ID, Fact.PERMIT_ID, Fact.RECEIPT_DIGEST]

def entry (c : StepContext) (kind : JournalRecordKind) (now : UInt64)
    (facts : List (OpaqueId × String)) : Entry :=
  ⟨kind, now, 1, c.stepId, facts⟩

end StepContext

variable {extra : List (String × String)}

/-- Extra facts come behind those that are there, under other keys. -/
theorem extendUniqueFacts_eq_ok :
    ∀ {facts facts' : List (OpaqueId × String)}, extendUniqueFacts facts extra = .ok facts' →
      facts <+: facts' ∧ ((facts.map Prod.fst).Nodup → (facts'.map Prod.fst).Nodup) := by
  induction extra with
  | nil =>
    intro facts facts' h
    obtain rfl : facts = facts' := Except.ok.inj h
    exact ⟨List.prefix_rfl, id⟩
  | cons f extra ih =>
    intro facts facts' h
    obtain ⟨name, -, h⟩ := bind_eq_ok.mp h
    split_ifs at h with hseen
    obtain ⟨hpre, hnd⟩ := ih h
    refine ⟨(List.prefix_append _ _).trans hpre, fun hfacts => hnd ?_⟩
    have hnew : name ∉ facts.map Prod.fst := by simpa using hseen
    rw [List.map_append, List.nodup_append]
    refine ⟨hfacts, by simp, fun a ha b hb => ?_⟩
    obtain rfl : b = name := by simpa using hb
    exact fun hab => hnew (hab ▸ ha)

/-! ### What the operations do to the journal -/

/-- Some of the entries are appended, in order and as far as no append fails; `true` if all were. -/
inductive Appends : DurableJournal → List Entry → Bool → DurableJournal → Prop where
  | done (dj : DurableJournal) : Appends dj [] true dj
  | stopped (dj : DurableJournal) (es : List Entry) : Appends dj es false dj
  | failed {dj dj' : DurableJournal} {e : Entry} {es : List Entry} {error : DurableJournalError} :
      AppendStep dj e (.error error) dj' → Appends dj (e :: es) false dj'
  | next {dj dj₁ dj' : DurableJournal} {e : Entry} {es : List Entry} {d : Sha256Digest} {ok : Bool} :
      AppendStep dj e (.ok d) dj₁ → Appends dj₁ es ok dj' → Appends dj (e :: es) ok dj'

variable {dj : DurableJournal}

/-- All the entries are in the chain if no append failed. -/
theorem Appends.added {dj' : DurableJournal} {es : List Entry} {ok : Bool}
    (h : Appends dj es ok dj') (hok : ok = true) :
    ∃ rs, List.Forall₂ Carries es rs ∧ dj'.journal.records = dj.journal.records ++ rs := by
  induction h with
  | done dj => exact ⟨[], .nil, by simp⟩
  | stopped _ _ => contradiction
  | failed _ => contradiction
  | next hstep _ ih =>
    obtain ⟨r, hr, hrecords⟩ := hstep.added rfl
    obtain ⟨rs, hrs, hrest⟩ := ih hok
    exact ⟨r :: rs, .cons hr hrs, by rw [hrest, hrecords, List.append_assoc, List.singleton_append]⟩

variable {kind : JournalRecordKind} {now : UInt64} {facts : List (OpaqueId × String)}

theorem ensures_append_bind {β : Type} {io : AppendIo} {subject : OpaqueId}
    {f : Sha256Digest → StepTx β}
    {post : Except StepError β → DurableJournal → Prop}
    (herr : ∀ error dj', AppendStep dj ⟨kind, now, 1, subject, facts⟩ (.error error) dj' →
      post (.error (.journal error)) dj')
    (hok : ∀ d dj', AppendStep dj ⟨kind, now, 1, subject, facts⟩ (.ok d) dj' → Ensures (f d) dj' post) :
    Ensures (append io kind now subject facts >>= f) dj post := by
  have hstep := append_step dj io ⟨kind, now, 1, subject, facts⟩
  apply ensures_bind
  have hexec : (append io kind now subject facts).exec dj =
      ((dj.append io ⟨kind, now, 1, subject, facts⟩).1.mapError .journal,
        (dj.append io ⟨kind, now, 1, subject, facts⟩).2) := rfl
  unfold Ensures
  rw [hexec]
  rcases happ : dj.append io ⟨kind, now, 1, subject, facts⟩ with ⟨_ | d, dj'⟩ <;>
    rw [happ] at hstep
  · exact herr _ _ hstep
  · exact hok _ _ hstep

/-- The records of an admission. -/
def admitEntries (permit : StepPermit) (intent : DispatchIntent) : List Entry :=
  let c := StepContext.fromPermit ⟨permit⟩
  [c.entry .stepPermitAccepted intent.nowEpochMs c.factList,
    c.entry .stepIntentRecorded intent.nowEpochMs c.factList]

/-- **Admission** writes an acceptance and an intent, and only for a permit the journal does not
mention; otherwise it says where the permit stands and leaves the journal alone. -/
theorem admitStep_spec (io : AppendIo × AppendIo) (permit : StepPermit)
    (secret : ControllerPairingSecret) (intent : DispatchIntent) (dj : DurableJournal) :
    Ensures (admitStep io permit secret intent) dj fun result dj' =>
      Appends dj (admitEntries permit intent) result.isOk dj' ∧
      (∀ t, result = .ok t → t.permit.permit = permit ∧ permit.jobId = intent.jobId ∧
        standing permit.permitId.value dj.journal.records = .unseen) ∧
      ∀ e, checkUnseen permit.permitId.value
        (standing permit.permitId.value dj.journal.records) = .error e →
          dj' = dj ∧ result = .error e := by
  have hledger : (PermitLedger.fromJournal dj.journal).disposition permit.permitId.value =
      standing permit.permitId.value dj.journal.records := PermitLedger.disposition_fromRecords _ _
  apply ensures_get_bind
  apply ensures_liftExcept_bind
  · intro e he
    rw [hledger] at he
    exact ⟨.stopped _ _, by rintro _ ⟨⟩, fun e' he' =>
      ⟨rfl, by rw [Except.error.inj (he.symm.trans he')]⟩⟩
  intro _ hseen
  rw [hledger] at hseen
  have hnew : standing permit.permitId.value dj.journal.records = .unseen := by
    unfold checkUnseen at hseen
    split at hseen <;> first | assumption | contradiction
  have hgo : ∀ e, checkUnseen permit.permitId.value
      (standing permit.permitId.value dj.journal.records) ≠ .error e := by
    intro e he
    rw [hseen] at he
    contradiction
  apply ensures_liftExcept_bind
  · intro e _
    exact ⟨.stopped _ _, by rintro _ ⟨⟩, fun e' he' => absurd he' (hgo e')⟩
  intro verified hverified
  obtain ⟨hpermit, -, -, -, -, hcontext⟩ := verifyPermit_ok (mapError_eq_ok.mp hverified)
  have hjob : permit.jobId = intent.jobId :=
    of_decide_eq_true (hcontext (decide _, "jobId") (by simp [contextChecks]))
  obtain rfl : verified = ⟨permit⟩ := by rw [← hpermit]
  apply ensures_known (subject_value _)
  apply ensures_append_bind
  · intro error dj' h
    exact ⟨.failed h, by rintro _ ⟨⟩, fun e' he' => absurd he' (hgo e')⟩
  intro d dj₁ h₁
  apply ensures_known (subject_value _)
  apply ensures_append_bind
  · intro error dj' h
    exact ⟨.next h₁ (.failed h), by rintro _ ⟨⟩, fun e' he' => absurd he' (hgo e')⟩
  intro d' dj' h
  refine ensures_pure ⟨.next h₁ (.next h (.done _)), ?_, fun e' he' => absurd he' (hgo e')⟩
  intro t ht
  obtain rfl := Except.ok.inj ht
  exact ⟨rfl, hjob, hnew⟩

/-- Facts of a record about the step: those of `base`, and maybe more under other keys. -/
def Enlarges (base facts : List (OpaqueId × String)) : Prop :=
  base <+: facts ∧ (facts.map Prod.fst).Nodup

theorem enlarges_of_extend {base : List (OpaqueId × String)}
    {x : Except StepError (List (OpaqueId × String))} (hx : x = .ok base)
    (hnd : (base.map Prod.fst).Nodup) (h : (do extendUniqueFacts (← x) extra) = .ok facts) :
    Enlarges base facts := by
  subst hx
  obtain ⟨hpre, himp⟩ := extendUniqueFacts_eq_ok h
  exact ⟨hpre, himp hnd⟩

/-- **A dispatch** writes that the permit is being consumed and that the dispatch has started. -/
theorem beginDispatchWithFacts_spec (io : AppendIo × AppendIo) (step : AdmittedStep) (now : UInt64)
    (extra : List (String × String)) (dj : DurableJournal) :
    Ensures (beginDispatchWithFacts io step now extra) dj fun result dj' =>
      ∃ c facts, c = StepContext.fromPermit step.permit ∧ Enlarges c.factList facts ∧
        Appends dj [c.entry .permitConsuming now facts, c.entry .externalDispatchStarted now facts]
          result.isOk dj' ∧
        ∀ t, result = .ok t → t.context = c := by
  set c := StepContext.fromPermit step.permit
  apply ensures_liftExcept_bind
  · intro e _
    exact ⟨c, c.factList, rfl, ⟨List.prefix_rfl, c.nodup_factList⟩, .stopped _ _, nofun⟩
  intro facts hfacts
  have hlarge := enlarges_of_extend c.facts_eq c.nodup_factList hfacts
  apply ensures_known (subject_value _)
  apply ensures_append_bind
  · intro error dj' h
    exact ⟨c, facts, rfl, hlarge, .failed h, nofun⟩
  intro d dj₁ h₁
  apply ensures_known (subject_value _)
  apply ensures_append_bind
  · intro error dj' h
    exact ⟨c, facts, rfl, hlarge, .next h₁ (.failed h), nofun⟩
  intro d' dj' h
  refine ensures_pure ⟨c, facts, rfl, hlarge, .next h₁ (.next h (.done _)), ?_⟩
  intro t ht
  obtain rfl := Except.ok.inj ht
  rfl

theorem recordTransportEvidence_spec (io : AppendIo) (t : DispatchInFlight) (now : UInt64)
    (extra : List (String × String)) (dj : DurableJournal) :
    Ensures (recordTransportEvidence io t now extra) dj fun result dj' =>
      ∃ facts, Enlarges t.context.factList facts ∧
        Appends dj [t.context.entry .transportEvidenceRecorded now facts] result.isOk dj' := by
  set c := t.context
  apply ensures_liftExcept_bind
  · intro e _
    exact ⟨c.factList, ⟨List.prefix_rfl, c.nodup_factList⟩, .stopped _ _⟩
  intro facts hfacts
  have hlarge := enlarges_of_extend c.facts_eq c.nodup_factList hfacts
  apply ensures_known (subject_value _)
  apply ensures_append_bind
  · intro error dj' h
    exact ⟨facts, hlarge, .failed h⟩
  intro d dj' h
  exact ensures_pure ⟨facts, hlarge, .next h (.done _)⟩

/-- **A receipt** is written in the semantic record, with any extra facts, and again in the record
that consumes the permit. -/
theorem recordReceiptWithFacts_spec (io : AppendIo × AppendIo) (t : DispatchInFlight)
    (receipt : Sha256Digest) (extra : List (String × String)) (now : UInt64) (dj : DurableJournal) :
    Ensures (recordReceiptWithFacts io t receipt extra now) dj fun result dj' =>
      ∃ facts, Enlarges (t.context.receiptFactList receipt) facts ∧
        Appends dj [t.context.entry .semanticReceiptRecorded now facts,
          t.context.entry .permitConsumed now (t.context.receiptFactList receipt)]
          result.isOk dj' ∧
        ∀ done, result = .ok done → done.context = t.context ∧ done.receiptDigest = receipt := by
  set c := t.context
  have hnd := c.nodup_receiptFactList receipt
  apply ensures_liftExcept_bind
  · intro e _
    exact ⟨_, ⟨List.prefix_rfl, hnd⟩, .stopped _ _, nofun⟩
  intro facts hfacts
  have hlarge := enlarges_of_extend (c.factsWithReceipt_eq receipt) hnd hfacts
  apply ensures_known (subject_value _)
  apply ensures_append_bind
  · intro error dj' h
    exact ⟨facts, hlarge, .failed h, nofun⟩
  intro d dj₁ h₁
  apply ensures_known (subject_value _)
  apply ensures_append_bind
  · intro error dj' h
    exact ⟨facts, hlarge, .next h₁ (.failed h), nofun⟩
  intro d' dj' h
  refine ensures_pure ⟨facts, hlarge, .next h₁ (.next h (.done _)), ?_⟩
  intro done hdone
  obtain rfl := Except.ok.inj hdone
  exact ⟨rfl, rfl⟩

theorem checkpoint_spec (io : AppendIo) (t : CompletedStep) (now : UInt64) (dj : DurableJournal) :
    Ensures (checkpoint io t now) dj fun result dj' =>
      Appends dj [t.context.entry .stepCheckpointed now (t.context.receiptFactList t.receiptDigest)]
        result.isOk dj' := by
  apply ensures_known (subject_value _)
  apply ensures_known (t.context.factsWithReceipt_eq t.receiptDigest)
  rw [← bind_pure (append io _ now _ _)]
  apply ensures_append_bind
  · intro error dj' h
    exact .failed h
  intro d dj' h
  exact ensures_pure (.next h (.done _))

/-! ### When nothing fails -/

theorem StepContext.length_factList_le (c : StepContext) :
    ∀ f ∈ c.factList, (utf8 f.2).length ≤ MAX_ID_LEN := by
  simp only [factList, List.forall_mem_cons]
  exact ⟨c.jobId.conforming.2.1, c.planId.conforming.2.1, c.stepId.conforming.2.1,
    c.attemptId.conforming.2.1, c.permitId.conforming.2.1, nofun⟩

theorem exists_prepare_factList (dj : DurableJournal) (c : StepContext) (kind : JournalRecordKind)
    (now : UInt64) : ∃ r b, dj.prepare (c.entry kind now c.factList) = .ok (r, b) :=
  exists_prepare c.nodup_factList c.length_factList_le
    (show 9 + 10 * (200 + 5 * (MAX_ID_LEN + MAX_ID_LEN + 18)) ≤ MAX_FRAME_BYTES by decide)

/-- A record about a step that may be written is written if the operating system does what it is
asked. -/
theorem ensures_append_flawless {β : Type} {c : StepContext}
    {f : Sha256Digest → StepTx β} {post : Except StepError β → DurableJournal → Prop}
    (hp : dj.poisoned = false) (hprep : ∃ r b, dj.prepare (c.entry kind now facts) = .ok (r, b))
    (h : ∀ d dj', dj'.poisoned = false → Ensures (f d) dj' post) :
    Ensures (append flawless kind now c.stepId facts >>= f) dj post := by
  obtain ⟨r, b, hprep⟩ := hprep
  obtain ⟨dj', happ⟩ := append_flawless hp hprep
  have hstep := append_step dj flawless (c.entry kind now facts)
  rw [happ] at hstep
  apply ensures_bind
  have hexec : (append flawless kind now c.stepId facts).exec dj = (.ok r.recordDigest, dj') := by
    show ((dj.append flawless (c.entry kind now facts)).1.mapError StepError.journal,
      (dj.append flawless (c.entry kind now facts)).2) = _
    rw [happ]
    rfl
  unfold Ensures
  rw [hexec]
  exact h _ dj' (hstep.alive rfl)

/-- A permit that verifies and that the journal does not mention is admitted. -/
theorem admitStep_flawless {permit : StepPermit} {secret : ControllerPairingSecret}
    {intent : DispatchIntent} (hp : dj.poisoned = false)
    (hunseen : standing permit.permitId.value dj.journal.records = .unseen)
    (hverify : verifyPermit permit secret intent false = .ok ⟨permit⟩) :
    Ensures (admitStep (flawless, flawless) permit secret intent) dj fun result dj' =>
      dj'.poisoned = false ∧ ∃ t, result = .ok t ∧ t.permit = ⟨permit⟩ := by
  have hledger : (PermitLedger.fromJournal dj.journal).disposition permit.permitId.value = .unseen :=
    (PermitLedger.disposition_fromRecords _ _).trans hunseen
  have hcheck : checkUnseen permit.permitId.value
      ((PermitLedger.fromJournal dj.journal).disposition permit.permitId.value) = .ok () := by
    rw [hledger]
    rfl
  apply ensures_get_bind
  apply ensures_known hcheck
  apply ensures_known (mapError_eq_ok.mpr hverify)
  apply ensures_known (subject_value _)
  apply ensures_append_flawless hp (exists_prepare_factList dj _ _ _)
  intro d dj₁ hp₁
  apply ensures_known (subject_value _)
  apply ensures_append_flawless hp₁ (exists_prepare_factList dj₁ _ _ _)
  intro d' dj' hp'
  exact ensures_pure ⟨hp', _, rfl, rfl⟩

theorem beginDispatch_flawless {step : AdmittedStep} (hp : dj.poisoned = false) :
    Ensures (beginDispatch (flawless, flawless) step now) dj fun result dj' =>
      dj'.poisoned = false ∧ ∃ t, result = .ok t := by
  apply ensures_known (subject_value _)
  apply ensures_append_flawless hp (exists_prepare_factList dj _ _ _)
  intro d dj₁ hp₁
  apply ensures_known (subject_value _)
  apply ensures_append_flawless hp₁ (exists_prepare_factList dj₁ _ _ _)
  intro d' dj' hp'
  exact ensures_pure ⟨hp', _, rfl⟩

end ArkForge.Engine.Step
