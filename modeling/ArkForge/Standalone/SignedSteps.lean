import ArkForge.Standalone.PermitReplay

/-! # Which steps the authority signs

The authority compares a snapshot with its record of the plan in the plan's digest only: the step, the
digest of the step and the digest of its action go from the snapshot into the permit as they are. So a
permit is for a step of the recorded plan exactly when the snapshot was. -/

namespace ArkForge.Standalone.SignedSteps

open Lib.Fallible Lib.Ordered Lib.Result
open Core.Digest Core.Ids Core.Plan
open Ipc.Jobs
open Authority.Permit Authority.PermitBytes
open Standalone.Authority Permits PermitReplay
open Exec

variable {submission : SubmitStepPermitRequest} {record : AuthorityPlanRecord} {permit : StepPermit}

/-! ### What an answer submits -/

section Answer

variable (answers : AdmissionAnswers) (epoch : UInt64) (pairing : ControllerPairingSecret)
  (snapshot : StepAdmissionSnapshot) (a : AuthorityState)

/-- The submission is what the permit journal answers for the snapshot, under the record of its plan. -/
def Signs (submission : SubmitStepPermitRequest) : Prop :=
  ∃ record admitted now journal, loadAuthorityPlan a.plans snapshot.planId = .ok record ∧
    admitted.bytes = snapshot.admittedDeviceFactsSha256 ∧ now < expiresAt snapshot ∧
    loadOrCreatePermit answers.permit epoch pairing snapshot record admitted now
      (expiresAt snapshot) a.permits = (.ok submission, journal)

/-- Nothing was submitted or permitted yet. -/
def Untouched (s : AuthorityState) : Prop := s.permits = a.permits ∧ s.submitted = a.submitted

/-- At most one submission was made, and if it carries a permit it was signed for the snapshot. -/
def Submitted (s : AuthorityState) : Prop :=
  s.submitted = a.submitted ∨ ∃ submission, s.submitted = a.submitted ++ [submission] ∧
    (submission.permitCbor ≠ [] → Signs answers epoch pairing snapshot a submission)

variable {answers epoch pairing snapshot a}

theorem submitted_of_untouched {s : AuthorityState} (h : Untouched a s) :
    Submitted answers epoch pairing snapshot a s := Or.inl h.2

theorem meets_submit
    (h : submission.permitCbor ≠ [] → Signs answers epoch pairing snapshot a submission) :
    Ends (fun s => s.submitted = a.submitted) (submit answers submission)
      (Submitted answers epoch pairing snapshot a) := by
  have hsent : ∀ s : AuthorityState, s.submitted = a.submitted →
      Submitted answers epoch pairing snapshot a { s with submitted := s.submitted ++ [submission] } :=
    fun s hs => Or.inr ⟨submission, by rw [← hs], h⟩
  refine Meets.bind (Q := fun _ => Submitted answers epoch pairing snapshot a)
    (meets_modifyState hsent) fun _ => ?_
  refine lift_keeps.bind fun outcome => ?_
  exact meets_ite (fun _ => fail_keeps) fun _ => pure_keeps

theorem meets_refusal (reason : String) :
    Ends (Untouched a) (submitPermitRefusal answers snapshot epoch reason)
      (Submitted answers epoch pairing snapshot a) :=
  (meets_submit fun hne => absurd rfl hne).pre (fun _ hs => hs.2)

theorem meets_lineageOf (jobId : String) :
    Ends (Untouched a) (lineageOf jobId) (Untouched a) := by
  refine meets_getState.bind fun s => ?_
  cases s.targetLineages.get jobId with
  | some lineage => exact meets_pure fun _ hs => hs.2
  | none =>
    refine meets_lift_bind (fun loaded _ => ?_) fun _ _ _ hs => hs.2
    exact meets_modifyState_bind (fun _ hs => hs.2) pure_keeps

theorem meets_permitUnderLineage (lineage : ActiveTargetLineage) {admitted : Sha256Digest}
    {now : UInt64} (hrecord : loadAuthorityPlan a.plans snapshot.planId = .ok record)
    (hadmitted : admitted.bytes = snapshot.admittedDeviceFactsSha256)
    (hnow : now < expiresAt snapshot) : Ends (Untouched a)
      (permitUnderLineage answers epoch pairing snapshot record lineage admitted now)
      (Submitted answers epoch pairing snapshot a) := by
  refine (Meets.within (Q := fun _ => Untouched a)
    fun t ht => ?_).bind fun resolved => ?_
  · refine meets_iff.mpr ⟨fun _ _ _ _ _ => ht, fun _ _ _ _ _ => submitted_of_untouched ht⟩
  cases resolved with
  | none => exact meets_refusal _
  | some lineage =>
    refine meets_modifyState_bind (M := Untouched a) (fun _ hs => hs) ?_
    refine meets_lift_bind (fun stable _ => ?_) fun _ _ _ => submitted_of_untouched
    refine meets_ite (fun _ => meets_refusal _) fun _ => ?_
    refine (Meets.within (Q := fun submission s => s.submitted = a.submitted ∧
      Signs answers epoch pairing snapshot a submission)
      fun t ht => ?_).bind
        fun submission => ?_
    · refine meets_iff.mpr ⟨?_, fun _ _ _ _ _ => Or.inl ht.2⟩
      rintro s rfl submission journal hload
      refine ⟨ht.2, record, admitted, now, journal, hrecord, hadmitted, hnow, ?_⟩
      rw [← ht.1]
      exact hload
    · intro s hs
      exact meets_submit (fun _ => hs.2) s hs.1

theorem meets_permitSnapshot (hrecord : loadAuthorityPlan a.plans snapshot.planId = .ok record) :
    Ends (Untouched a) (permitSnapshot answers epoch pairing snapshot record)
      (Submitted answers epoch pairing snapshot a) := by
  refine ((meets_lineageOf snapshot.jobId).failing fun _ _ => submitted_of_untouched).bind
    fun lineage => ?_
  refine meets_ite (fun _ => meets_refusal _) fun _ => ?_
  refine meets_lift_bind (fun admitted _ => ?_) fun _ _ _ => submitted_of_untouched
  refine meets_ite (fun _ => meets_refusal _) fun hadmitted => ?_
  refine meets_lift_bind (fun now _ => ?_) fun _ _ _ => submitted_of_untouched
  refine meets_ite (fun _ => meets_refusal _) fun hnow => ?_
  exact meets_permitUnderLineage lineage hrecord (not_not.mp hadmitted) (UInt64.not_le.mp hnow)

/-- **What an answer submits.** A permit was signed for the snapshot, under the record of its plan. -/
theorem submitted_answerAdmission :
    Submitted answers epoch pairing snapshot a
      (answerAdmission answers epoch pairing snapshot a).2 := by
  have hmeets : Ends (fun s => s = a) (answerAdmission answers epoch pairing snapshot)
      (Submitted answers epoch pairing snapshot a) := by
    refine meets_getState.bind fun s => ?_
    refine meets_lift_bind (fun record hrecord => ?_) fun _ _ _ hs => Or.inl (congrArg _ hs.2)
    rintro _ ⟨rfl, rfl⟩
    cases hbefore : answers.beforeEffect with
    | error e => exact meets_refusal e.message s ⟨rfl, rfl⟩
    | ok _ => exact meets_permitSnapshot hrecord s ⟨rfl, rfl⟩
  exact hmeets.state rfl

/-- An admission that passes every check submits its permit. -/
theorem answer_permits {lineage next : ActiveTargetLineage} {b : AuthorityState}
    {jobs : OrdMap String (List UInt8)} {journal : PermitJournal} {admitted stable : Sha256Digest}
    {now : UInt64} {outcome : SubmitOutcome} (hbefore : answers.beforeEffect = .ok ())
    (hrecord : loadAuthorityPlan a.plans snapshot.planId = .ok record)
    (hlineage : lineageOf snapshot.jobId a = (.ok lineage, b))
    (hplan : lineage.planId = snapshot.planId)
    (hport : lineage.topologySha256 = record.topologySha256)
    (hadmitted : recomputeAdmittedDeviceDigest snapshot = .ok admitted)
    (hsame : admitted.bytes = snapshot.admittedDeviceFactsSha256) (hnow : answers.now = .ok now)
    (hfresh : now < expiresAt snapshot)
    (hresolve : resolveLineageForAdmission answers.lineage snapshot record lineage b.jobs =
      (.ok (some next), jobs))
    (hstable : currentStableIdentity answers.devices answers.probe next.currentDeviceId = .ok stable)
    (hidentity : stable.bytes = next.currentStableIdentitySha256)
    (hload : loadOrCreatePermit answers.permit epoch pairing snapshot record admitted now
      (expiresAt snapshot) b.permits = (.ok submission, journal))
    (houtcome : answers.outcome = .ok outcome) (haccepted : outcome.accepted = true) :
    answerAdmission answers epoch pairing snapshot a = (.ok (), { b with
      jobs
      permits := journal
      targetLineages := b.targetLineages.alter snapshot.jobId fun _ => next
      submitted := b.submitted ++ [submission] }) := by
  have hlive : ¬ stable.bytes ≠ next.currentStableIdentitySha256 := not_not.mpr hidentity
  have hgo : ¬ outcome.accepted = false := by
    rw [haccepted]
    decide
  unfold answerAdmission
  rw [getState_bind, hrecord, hbefore]
  show permitSnapshot answers epoch pairing snapshot record a = _
  unfold permitSnapshot
  rw [bind_apply_ok hlineage, if_neg (not_or.mpr ⟨not_not.mpr hplan, not_not.mpr hport⟩), hadmitted,
    lift_ok_bind, if_neg (not_not.mpr hsame), hnow, lift_ok_bind, if_neg (UInt64.not_le.mpr hfresh)]
  unfold permitUnderLineage
  rw [within_bind_ok hresolve]
  dsimp only
  rw [modifyState_bind, hstable, lift_ok_bind, if_neg hlive]
  refine (@within_bind_ok _ _ _ _ _ _ _ _ AuthorityState.permits _ _ { b with
    jobs
    targetLineages := b.targetLineages.alter snapshot.jobId fun _ => next } hload).trans ?_
  unfold submit
  rw [modifyState_bind, houtcome, lift_ok_bind, if_neg hgo]
  rfl

end Answer

/-! ### Which steps are signed -/

/-- The permit is for a step of the recorded plan, with the action and the digest of that step. -/
def OfPlan (record : AuthorityPlanRecord) (permit : StepPermit) : Prop :=
  ∃ step ∈ record.plan.publicSteps, permit.stepId.value = step.stepId ∧
    permit.privateActionDigest.toHex = step.privateActionSha256 ∧
    ∃ source : PlanStep, encodeStep source = step ∧ source.digest = .ok permit.publicStepDigest

/-- The snapshot shows a step of the recorded plan, with the action and the digest of that step. -/
def ShowsStep (record : AuthorityPlanRecord) (snapshot : StepAdmissionSnapshot) : Prop :=
  ∃ step ∈ record.plan.publicSteps, snapshot.stepId = step.stepId ∧
    (∃ action : Sha256Digest, action.bytes = snapshot.privateActionSha256 ∧
      action.toHex = step.privateActionSha256) ∧
    ∃ source : PlanStep, encodeStep source = step ∧
      ∃ digest, source.digest = .ok digest ∧ digest.bytes = snapshot.publicStepSha256

theorem eq_of_bytes {d e : Sha256Digest} (h : d.bytes = e.bytes) : d = e := by
  cases e
  cases h
  rfl

/-- A permit for the step of the snapshot is of the plan exactly if the snapshot is. -/
theorem ofPlan_iff_showsStep {snapshot : StepAdmissionSnapshot} (h : PermitsStep permit snapshot) :
    OfPlan record permit ↔ ShowsStep record snapshot := by
  constructor
  · rintro ⟨step, hmem, hid, haction, source, hsource, hdigest⟩
    exact ⟨step, hmem, h.stepId ▸ hid, ⟨_, h.privateActionDigest, haction⟩, source, hsource, _,
      hdigest, h.publicStepDigest⟩
  · rintro ⟨step, hmem, hid, ⟨action, haction, hhex⟩, source, hsource, digest, hdigest, hpublic⟩
    obtain rfl := eq_of_bytes (haction.trans h.privateActionDigest.symm)
    obtain rfl := eq_of_bytes (hpublic.trans h.publicStepDigest.symm)
    exact ⟨step, hmem, h.stepId.trans hid, hhex, source, hsource, hdigest⟩

/-- A submission that is signed for a request that was not answered before carries a permit for the
step of the snapshot. -/
theorem permitsStep_of_signs {answers : AdmissionAnswers} {epoch : UInt64}
    {pairing : ControllerPairingSecret} {snapshot : StepAdmissionSnapshot} {a : AuthorityState}
    (h : Signs answers epoch pairing snapshot a submission)
    (hnew : a.permits.get (permitPath epoch snapshot.requestId) = none)
    (hpermit : StepPermit.fromCanonicalBytes submission.permitCbor = .ok permit) :
    PermitsStep permit snapshot := by
  obtain ⟨record, admitted, now, journal, -, hadmitted, hnow, hload⟩ := h
  let call : Call := ⟨snapshot, record, admitted, now, answers.permit, hadmitted, hnow⟩
  have hok : (call.answer epoch pairing a.permits).1 = .ok submission := congrArg Prod.fst hload
  obtain ⟨p, hdraft, hcarries⟩ :=
    carries_of_create ((@answer_of_none epoch pairing call a.permits hnew).2 submission hok)
  have hstep := (permitsStep_of_draft hadmitted hdraft).1
  rw [hcarries.reads] at hpermit
  obtain rfl := Except.ok.inj hpermit
  exact ⟨hstep.1, hstep.2, hstep.3, hstep.4, hstep.5, hstep.6, hstep.7⟩

theorem permitCbor_ne_nil (h : StepPermit.fromCanonicalBytes submission.permitCbor = .ok permit) :
    submission.permitCbor ≠ [] :=
  List.ne_nil_of_length_pos
    (Core.CborMap.toCanonicalBytes_length_pos (signingBody_of_fromCanonicalBytes h))

/-- **Which steps the authority signs.** Where an admission is answered with a permit that was not on
disk before, the permit is for a step of the authority's record of the plan, with the action and the
digest of that step, exactly if the snapshot the daemon published was. -/
theorem signed_step_iff (answers : AdmissionAnswers) (epoch : UInt64)
    (pairing : ControllerPairingSecret) (snapshot : StepAdmissionSnapshot) (a : AuthorityState)
    (submission : SubmitStepPermitRequest) (permit : StepPermit)
    (hsubmitted : (answerAdmission answers epoch pairing snapshot a).2.submitted =
      a.submitted ++ [submission])
    (hpermit : StepPermit.fromCanonicalBytes submission.permitCbor = .ok permit)
    (hnew : a.permits.get (permitPath epoch snapshot.requestId) = none) :
    ∃ record, loadAuthorityPlan a.plans snapshot.planId = .ok record ∧
      (OfPlan record permit ↔ ShowsStep record snapshot) := by
  rcases @submitted_answerAdmission answers epoch pairing snapshot a with hnone | ⟨sent, hsent, hsigns⟩
  · rw [hsubmitted] at hnone
    exact absurd hnone (by simp)
  · rw [hsubmitted] at hsent
    obtain rfl : submission = sent := by simpa using hsent
    have hsigned := hsigns (permitCbor_ne_nil hpermit)
    have hstep := permitsStep_of_signs hsigned hnew hpermit
    obtain ⟨record, _, _, _, hrecord, _⟩ := hsigned
    exact ⟨record, hrecord, ofPlan_iff_showsStep hstep⟩

/-! ### A step that is not in the plan -/

/-- The device as the daemon shows it. -/
def sampleView : DeviceObservationView where
  observationId := "DEVICE-1"
  mode := "loader"
  topologySha256 := zeroDigest.toHex
  descriptorSha256 := zeroDigest.toHex
  identityStrength := "classOnly"
  malformedDescriptor := false
  protocolIdentity := []
  serialSha256 := zeroDigest.toHex
  serialEvidenceKind := "descriptor"

def sampleProbe : DeviceProbeView := ⟨sampleView, [], "PROFILE-1"⟩

/-- A snapshot of the device for a step that no plan has. -/
def strangeSnapshot (admitted : List UInt8) : StepAdmissionSnapshot :=
  { sampleSnapshot 1000 with
    stepId := "STEP-9"
    admittedDeviceFactsSha256 := admitted
    serialSha256 := zeroDigest.bytes
    serialEvidenceKind := "descriptor" }

/-- The snapshot, for a step of any name. -/
def shownFor (stepId : String) (admitted : List UInt8) : StepAdmissionSnapshot :=
  { strangeSnapshot admitted with stepId }

/-- The daemon shows one device, and accepts what is submitted. -/
def sampleAnswers : AdmissionAnswers where
  beforeEffect := .ok ()
  now := .ok 1001
  lineage := ⟨.ok [sampleView], fun _ => .ok sampleProbe, .ok ()⟩
  devices := .ok [sampleView]
  probe := fun _ => .ok sampleProbe
  permit := .works
  outcome := .ok ⟨true, "", ""⟩

def sampleLineage : ActiveTargetLineage where
  planId := "PLAN-1"
  currentDeviceId := "DEVICE-1"
  currentStableIdentitySha256 := (stableIdentityDigest sampleView sampleProbe).bytes
  topologySha256 := zeroDigest.toHex
  revision := 1

def sealedStep : PublicStep where
  stepId := "STEP-1"
  kind := "probeDevice"
  effect := "readOnly"
  cancellation := "immediate"
  binding := "none"
  semanticTarget := "device"
  contentSha256 := ""
  expectedModeBefore := "loader"
  expectedModeAfter := "loader"
  privateActionSha256 := zeroDigest.toHex

def sealedRecord : AuthorityPlanRecord :=
  { sampleRecord with plan := ⟨"PLAN-1", zeroDigest.toHex, [sealedStep]⟩ }

/-- The authority has sealed one plan, and runs a job of it. -/
def sampleState : AuthorityState where
  plans := OrdMap.empty.alter (journalName "PLAN-1" ".plan") fun _ => sealedRecord
  jobs := OrdMap.empty
  permits := OrdMap.empty
  targetLineages := OrdMap.empty.alter "JOB-1" fun _ => sampleLineage
  submitted := []

theorem loadAuthorityPlan_sample : loadAuthorityPlan sampleState.plans "PLAN-1" = .ok sealedRecord := by
  have hget : sampleState.plans.get (journalName "PLAN-1" ".plan") = some sealedRecord := by
    show (OrdMap.empty.alter _ _).get _ = _
    rw [OrdMap.get_alter, if_pos rfl]
  unfold loadAuthorityPlan
  rw [hget]
  exact if_neg (by decide +kernel)

theorem lineageOf_sample : lineageOf "JOB-1" sampleState = (.ok sampleLineage, sampleState) := rfl

theorem resolve_sample (admitted : List UInt8) (jobs : OrdMap String (List UInt8)) :
    resolveLineageForAdmission sampleAnswers.lineage (strangeSnapshot admitted) sealedRecord
      sampleLineage jobs = (.ok (some sampleLineage), jobs) := rfl

theorem currentStableIdentity_sample :
    currentStableIdentity sampleAnswers.devices sampleAnswers.probe sampleLineage.currentDeviceId =
      .ok (stableIdentityDigest sampleView sampleProbe) := rfl

/-- The sample device is admitted for a step of any name, and there is a permit for it. -/
theorem exists_sample_permit {stepId : String} (hstep : Conforming stepId)
    {record : AuthorityPlanRecord} (hplan : zeroDigest.toHex = record.plan.planSha256)
    (hbinding : Conforming record.bindingId) (hstable : record.stableIdentitySha256.length = 32) :
    ∃ d submission permit journal,
      recomputeAdmittedDeviceDigest (shownFor stepId d.bytes) = .ok d ∧
      1001 < expiresAt (shownFor stepId d.bytes) ∧
      loadOrCreatePermit .works 1 samplePairing (shownFor stepId d.bytes) record d 1001
        (expiresAt (shownFor stepId d.bytes)) OrdMap.empty = (.ok submission, journal) ∧
      StepPermit.fromCanonicalBytes submission.permitCbor = .ok permit ∧
      permit.stepId.value = stepId := by
  obtain ⟨d, hd⟩ := exists_of_isOk
    (show (recomputeAdmittedDeviceDigest (strangeSnapshot [])).isOk = true by decide +kernel)
  have hfresh : 1001 < expiresAt (shownFor stepId d.bytes) :=
    show 1001 < expiresAt (strangeSnapshot []) by decide
  let call : Call := ⟨shownFor stepId d.bytes, record, d, 1001, .works, rfl, hfresh⟩
  obtain ⟨draft, hdraft⟩ : ∃ draft, draftStepPermit 1 call.snapshot record d 1001
      (expiresAt call.snapshot) = .ok draft :=
    exists_draft (show zeroDigest.bytes = _ from rfl) hplan conforming_samplePermit hbinding hstable
      (by decide) (show Conforming "JOB-1" by decide) (show Conforming "PLAN-1" by decide) hstep
      (show Conforming "ATTEMPT-1" by decide) rfl rfl rfl
  obtain ⟨submission, hcreate⟩ : ∃ submission, call.creates 1 samplePairing = .ok submission :=
    create_of_draft hdraft samplePairing
  obtain ⟨permit, hdraft', hcarries⟩ := carries_of_create hcreate
  have hanswer := @answer_eq_of_none 1 samplePairing call OrdMap.empty rfl
  rw [hcreate] at hanswer
  exact ⟨d, submission, withoutTag permit, _, hd, hfresh, hanswer, hcarries.reads,
    (permitsStep_of_draft call.admitted hdraft').1.stepId⟩

/-- The authority permits a step its record of the plan does not have. -/
theorem answer_sample : ∃ admitted submission permit s,
    answerAdmission sampleAnswers 1 samplePairing (strangeSnapshot admitted) sampleState =
      (.ok (), s) ∧ s.submitted = [submission] ∧
    StepPermit.fromCanonicalBytes submission.permitCbor = .ok permit ∧
    permit.stepId.value = "STEP-9" := by
  obtain ⟨d, submission, permit, journal, hadmitted, hfresh, hload, hreads, hstep⟩ :=
    @exists_sample_permit "STEP-9" (by decide) sealedRecord rfl (by decide) rfl
  exact ⟨d.bytes, submission, permit, _, answer_permits rfl loadAuthorityPlan_sample lineageOf_sample
    rfl rfl hadmitted rfl rfl hfresh (resolve_sample d.bytes _) currentStableIdentity_sample rfl hload
    rfl rfl, rfl, hreads, hstep⟩

/-- The plan has one step, and the authority signs another. -/
theorem strange_step_signed : ∃ admitted submission permit s,
    answerAdmission sampleAnswers 1 samplePairing (strangeSnapshot admitted) sampleState =
      (.ok (), s) ∧ s.submitted = [submission] ∧
    StepPermit.fromCanonicalBytes submission.permitCbor = .ok permit ∧
    loadAuthorityPlan sampleState.plans (strangeSnapshot admitted).planId = .ok sealedRecord ∧
    ¬ OfPlan sealedRecord permit := by
  obtain ⟨admitted, submission, permit, s, hanswer, hsubmitted, hreads, hstep⟩ := answer_sample
  refine ⟨admitted, submission, permit, s, hanswer, hsubmitted, hreads, loadAuthorityPlan_sample, ?_⟩
  rintro ⟨step, hmem, hid, -⟩
  obtain rfl := List.mem_singleton.mp hmem
  rw [hstep] at hid
  exact absurd hid (by decide)

theorem signed_step_iff_strange : ∃ admitted permit record,
    loadAuthorityPlan sampleState.plans "PLAN-1" = .ok record ∧
    (OfPlan record permit ↔ ShowsStep record (strangeSnapshot admitted)) := by
  obtain ⟨admitted, submission, permit, s, hanswer, hsubmitted, hreads, -⟩ := answer_sample
  have hsent : (answerAdmission sampleAnswers 1 samplePairing (strangeSnapshot admitted)
      sampleState).2.submitted = sampleState.submitted ++ [submission] := by
    rw [hanswer, hsubmitted]
    rfl
  obtain ⟨record, hrecord, hiff⟩ := signed_step_iff sampleAnswers 1 samplePairing
    (strangeSnapshot admitted) sampleState submission permit hsent hreads rfl
  exact ⟨admitted, permit, record, hrecord, hiff⟩

end ArkForge.Standalone.SignedSteps
