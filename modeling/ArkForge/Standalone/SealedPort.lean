import ArkForge.Core.HashStandard
import ArkForge.Standalone.Drive

/-! # The sealed port

A plan is sealed for a device at one port, and the lineage of a job copies that port forward while the
observation it follows is replaced. A control looks for the device at the port. An admission after a
reboot looks for the device of the snapshot, wherever that is: what keeps a job on its port there is
only that the daemon shows a device at the port. -/

namespace ArkForge.Standalone.SealedPort

open Lib.Fallible Lib.Ordered Lib.Result Core.Cbor Core.Digest Ipc.Jobs
open Authority.Permit Authority.PermitBytes Standalone.Authority Permits PermitReplay
open HdcControl SignedSteps Drive
open Exec

/-- The lineage a job starts with. -/
def initialLineage (record : AuthorityPlanRecord) : ActiveTargetLineage where
  planId := record.plan.planId
  currentDeviceId := record.deviceId
  currentStableIdentitySha256 := record.stableIdentitySha256
  topologySha256 := record.topologySha256
  revision := 1

/-- A job of a sealed plan, and the port that each observation id names. -/
structure SealedJob where
  record : AuthorityPlanRecord
  jobId : String
  port : String → String

/-! ### A lineage at the sealed port -/

/-- The id of the observation names the port, and has at most 128 bytes. -/
def Found (port : String → String) (topology : String) (o : DeviceObservationView) : Prop :=
  port o.observationId = topology ∧ (utf8 o.observationId).length ≤ 128

/-- The observations in the list are at the port their id names. -/
def NamesPorts (port : String → String) (list : Except StandaloneError (List DeviceObservationView)) :
    Prop :=
  ∀ os, list = .ok os → ∀ o ∈ os, Found port o.topologySha256 o

/-- The snapshot is of a device at the sealed port. -/
def ShowsPort (record : AuthorityPlanRecord) (snapshot : StepAdmissionSnapshot) : Prop :=
  showsDigest snapshot.topologySha256 "topology digest" record.topologySha256 = true

/-- A snapshot right after a reboot of the plan is of a device at the sealed port. -/
def ReboundInPlace (record : AuthorityPlanRecord) (snapshot : StepAdmissionSnapshot) : Prop :=
  priorRebootAuthorizesRebind record.plan snapshot = true → ShowsPort record snapshot

namespace SealedJob

variable (j : SealedJob)

/-- The lineage is of the plan, and follows a device at the sealed port. -/
structure Follows (l : ActiveTargetLineage) : Prop extends Storable l where
  ofPlan : l.planId = j.record.plan.planId
  samePort : l.topologySha256 = j.record.topologySha256
  atPort : j.port l.currentDeviceId = j.record.topologySha256

/-- The plan is on record, and the lineage of the job is this one on disk and that one in memory. -/
def Holds (disk memory : ActiveTargetLineage) (a : AuthorityState) : Prop :=
  loadAuthorityPlan a.plans j.record.plan.planId = .ok j.record ∧ Stored j.jobId disk a.jobs ∧
    ∀ l, a.targetLineages.get j.jobId = some l → l = memory

/-- The lineage of the job follows a device at the sealed port. -/
def Bound (a : AuthorityState) : Prop := ∃ l, j.Follows l ∧ j.Holds l l a

/-- What a resolved lineage is like, and what is on disk. -/
def Resolves (snapshot : StepAdmissionSnapshot) (l : ActiveTargetLineage) :
    Option ActiveTargetLineage → OrdMap String (List UInt8) → Prop
  | none, jobs => Stored j.jobId l jobs
  | some next, jobs => j.Follows next ∧ Stored j.jobId next jobs ∧ ShowsPort j.record snapshot

end SealedJob

section Port

variable {j : SealedJob} {l : ActiveTargetLineage} {snapshot : StepAdmissionSnapshot}
  {o : DeviceObservationView}

theorem advance_follows (h : j.Follows l) (ho : Found j.port j.record.topologySha256 o)
    (identity : Sha256Digest) (revision : UInt64) : j.Follows { l with
      currentDeviceId := o.observationId
      currentStableIdentitySha256 := identity.bytes
      revision := revision } where
  planId := h.planId
  device := ho.2.trans_lt (by decide)
  identity := identity.length_eq
  topology := h.topology
  ofPlan := h.ofPlan
  samePort := h.samePort
  atPort := ho.1

theorem eq_of_showsDigest {bytes : List UInt8} {name a b : String}
    (ha : showsDigest bytes name a = true) (hb : showsDigest bytes name b = true) : a = b := by
  unfold showsDigest at ha hb
  cases hdigest : digestBytes bytes name with
  | error e =>
    rw [hdigest] at ha
    cases ha
  | ok digest =>
    rw [hdigest] at ha hb
    exact (of_decide_eq_true ha).symm.trans (of_decide_eq_true hb)

theorem topology_of_matches (h : observationMatchesAdmission o snapshot = true) :
    showsDigest snapshot.topologySha256 "topology digest" o.topologySha256 = true := by
  simp only [observationMatchesAdmission, Bool.and_eq_true] at h
  exact h.1.1.1.1.1.1.2

/-- A lineage that is resolved stays at the sealed port, if a device is shown there after a reboot. -/
theorem meets_resolve {answers : LineageAnswers} (hjob : snapshot.jobId = j.jobId) (hl : j.Follows l)
    (hnames : NamesPorts j.port answers.devices) (hrebound : ReboundInPlace j.record snapshot) :
    Meets (Stored j.jobId l) (resolveLineageForAdmission answers snapshot j.record l)
      (j.Resolves snapshot l) fun _ => Stored j.jobId l := by
  refine meets_lift_bind (fun os hos jobs hstored => ?_) fun _ _ _ hs => hs
  have hports := hnames os hos
  cases hfind : os.find? fun o => decide (o.observationId = l.currentDeviceId) with
  | some current =>
    have hid : current.observationId = l.currentDeviceId := by
      simpa using List.find?_some hfind
    have hport := (hports current (List.mem_of_find?_eq_some hfind)).1
    rw [hid, hl.atPort] at hport
    dsimp only
    cases hmatches : observationMatchesAdmission current snapshot with
    | false => exact hstored
    | true =>
      have hshows := topology_of_matches hmatches
      rw [← hport] at hshows
      exact ⟨hl, hstored, hshows⟩
  | none =>
    refine meets_ite (fun _ => meets_pure fun _ hs => hs) (fun hprior => ?_) jobs hstored
    have hshows := hrebound (by simpa using hprior)
    split
    · next rebound hfilter =>
      have hmem := hfilter ▸ List.mem_singleton_self rebound
      obtain ⟨hlisted, hmatches⟩ := List.mem_filter.mp hmem
      have hfound := hports rebound hlisted
      rw [eq_of_showsDigest (topology_of_matches hmatches) hshows] at hfound
      refine meets_lift_bind (fun probe _ => ?_) fun _ _ _ hs => hs
      refine meets_ite (fun _ => meets_pure fun _ hs => hs) fun _ => ?_
      rw [hjob]
      refine (meets_persistJobLineage hl.toStorable answers.written).bind fun _ => ?_
      exact meets_pure fun _ hs => ⟨advance_follows hl hfound _ _, hs, hshows⟩
    · exact meets_pure fun _ hs => hs

theorem holds_remember {disk memory : ActiveTargetLineage} {a : AuthorityState}
    (h : j.Holds disk memory a) : j.Holds disk disk
      { a with targetLineages := a.targetLineages.alter j.jobId fun _ => disk } := by
  refine ⟨h.1, h.2.1, fun l hget => ?_⟩
  have hl : (a.targetLineages.alter j.jobId fun _ => disk).get j.jobId = some l := hget
  rw [OrdMap.get_alter, if_pos rfl] at hl
  exact (Option.some.inj hl).symm

/-- The lineage that is looked up is the one on disk. `P` is anything that lineages do not matter to. -/
theorem meets_lineageOf_held {P : AuthorityState → Prop}
    (hP : ∀ a lineages, P a → P { a with targetLineages := lineages }) (hl : Storable l) :
    Meets (fun a => P a ∧ j.Holds l l a) (lineageOf j.jobId)
      (fun found a => found = l ∧ P a ∧ j.Holds l l a) fun _ a => P a ∧ j.Holds l l a := by
  refine meets_getState.bind fun a => ?_
  rintro _ ⟨rfl, hp, hholds⟩
  cases hget : a.targetLineages.get j.jobId with
  | some found => exact ⟨hholds.2.2 found hget, hp, hholds⟩
  | none =>
    refine meets_lift_bind (fun loaded hload => ?_) (fun _ _ _ hs => hs) a ⟨hp, hholds⟩
    obtain rfl := eq_of_load hl hholds.2.1 hload
    exact fun s hs => ⟨rfl, hP s _ hs.1, holds_remember hs.2⟩

/-! ### One admission -/

section Admission

def Permits (a s : AuthorityState) : Prop :=
  s.permits ≠ a.permits ∨ ∃ submission : SubmitStepPermitRequest,
    s.submitted = a.submitted ++ [submission] ∧ submission.permitCbor ≠ []

/-- The snapshot is of a device at the sealed port, and the device that is there has the identity of
the lineage on disk. -/
def SealedJob.OnPort (j : SealedJob) (answers : AdmissionAnswers) (snapshot : StepAdmissionSnapshot)
    (s : AuthorityState) : Prop :=
  ShowsPort j.record snapshot ∧ ∃ l digest, Stored j.jobId l s.jobs ∧
    currentStableIdentity answers.devices answers.probe l.currentDeviceId = .ok digest ∧
    digest.bytes = l.currentStableIdentitySha256

variable {answers : AdmissionAnswers} {epoch : UInt64} {pairing : ControllerPairingSecret}
  {a : AuthorityState}

def SealedJob.After (j : SealedJob) (answers : AdmissionAnswers) (snapshot : StepAdmissionSnapshot)
    (a s : AuthorityState) : Prop :=
  j.Bound s ∧ (Permits a s → j.OnPort answers snapshot s)

theorem after_of_untouched (hl : j.Follows l) {s : AuthorityState}
    (h : Untouched a s ∧ j.Holds l l s) : j.After answers snapshot a s := by
  refine ⟨⟨l, hl, h.2⟩, ?_⟩
  rintro (hpermits | ⟨submission, hsubmitted, -⟩)
  · exact absurd h.1.1 hpermits
  · rw [h.1.2] at hsubmitted
    simp at hsubmitted

theorem ends_submit {submission : SubmitStepPermitRequest} :
    Ends (fun s => j.Bound s ∧
        (j.OnPort answers snapshot s ∨ Untouched a s ∧ submission.permitCbor = []))
      (submit answers submission) (j.After answers snapshot a) := by
  refine meets_modifyState_bind (M := j.After answers snapshot a) ?_ ?_
  · rintro s ⟨hbound, honPort | ⟨huntouched, hempty⟩⟩
    · exact ⟨hbound, fun _ => honPort⟩
    · refine ⟨hbound, ?_⟩
      rintro (hpermits | ⟨sent, hsent, hcarries⟩)
      · exact absurd huntouched.1 hpermits
      · have hsame : s.submitted ++ [submission] = a.submitted ++ [sent] := hsent
        rw [huntouched.2, List.append_cancel_left_eq] at hsame
        rw [← List.singleton_inj.mp hsame] at hcarries
        exact absurd hempty hcarries
  · refine meets_lift_bind (fun outcome _ => ?_) fun _ _ _ hs => hs
    exact meets_ite (fun _ => fail_keeps) fun _ => pure_keeps

theorem ends_refusal (hl : j.Follows l) (reason : String) :
    Ends (fun s => Untouched a s ∧ j.Holds l l s) (submitPermitRefusal answers snapshot epoch reason)
      (j.After answers snapshot a) :=
  ends_submit.pre fun _ hs => ⟨⟨l, hl, hs.2⟩, Or.inr ⟨hs.1, rfl⟩⟩

theorem ends_permitUnderLineage (hl : j.Follows l) (hjob : snapshot.jobId = j.jobId)
    (hnames : NamesPorts j.port answers.lineage.devices) (hrebound : ReboundInPlace j.record snapshot)
    (admitted : Sha256Digest) (now : UInt64) :
    Ends (fun s => Untouched a s ∧ j.Holds l l s)
      (permitUnderLineage answers epoch pairing snapshot j.record l admitted now)
      (j.After answers snapshot a) := by
  refine (Meets.within (Q := fun resolved s => Untouched a s ∧ j.Resolves snapshot l resolved s.jobs ∧
    ∃ disk, j.Holds disk l s) ?_).bind fun resolved => ?_
  · rintro s ⟨huntouched, hholds⟩
    refine (meets_resolve hjob hl hnames hrebound).weaken (fun _ h => h ▸ hholds.2.1)
      (fun resolved _ h => ⟨huntouched, h, ?_⟩)
      fun _ _ h => after_of_untouched hl ⟨huntouched, hholds.1, h, hholds.2.2⟩
    cases resolved with
    | none => exact ⟨l, hholds.1, h, hholds.2.2⟩
    | some next => exact ⟨next, hholds.1, h.2.1, hholds.2.2⟩
  cases resolved with
  | none =>
    refine (ends_refusal hl _).pre ?_
    rintro s ⟨huntouched, hstored, _, hholds⟩
    exact ⟨huntouched, hholds.1, hstored, hholds.2.2⟩
  | some next =>
    rintro s ⟨huntouched, ⟨hnext, hstored, hshows⟩, _, hholds⟩
    refine meets_modifyState_bind (P := fun t => t = s)
      (M := fun t => Untouched a t ∧ j.Holds next next t) ?_ ?_ s rfl
    · intro t ht
      have hheld : j.Holds next l s := ⟨hholds.1, hstored, hholds.2.2⟩
      rw [ht, hjob]
      exact ⟨huntouched, holds_remember hheld⟩
    refine meets_lift_bind (fun digest hdigest => ?_) fun _ _ _ => after_of_untouched hnext
    refine meets_ite (fun _ => ends_refusal hnext _) fun hsame => ?_
    have honPort : ∀ t, j.Holds next next t → j.OnPort answers snapshot t := fun t ht =>
      ⟨hshows, next, digest, ht.2.1, hdigest, not_not.mp hsame⟩
    refine (Meets.within (Q := fun _ => j.Holds next next)
      fun t ht => meets_iff.mpr ⟨fun _ _ _ _ _ => ht.2, fun _ _ _ permits _ => ?_⟩).bind fun _ => ?_
    · exact ⟨⟨next, hnext, ht.2⟩, fun _ => honPort { t with permits } ht.2⟩
    · exact ends_submit.pre fun t ht => ⟨⟨next, hnext, ht⟩, Or.inl (honPort t ht)⟩

/-- **An admission keeps the lineage at the sealed port**, and permits nothing anywhere else. -/
theorem after_answerAdmission (hbound : j.Bound a) (hjob : snapshot.jobId = j.jobId)
    (hnames : NamesPorts j.port answers.lineage.devices)
    (hrebound : ReboundInPlace j.record snapshot) :
    j.After answers snapshot a (answerAdmission answers epoch pairing snapshot a).2 := by
  obtain ⟨l, hl, hholds⟩ := hbound
  have hstill : ∀ s, Untouched a s ∧ j.Holds l l s → j.After answers snapshot a s :=
    fun _ => after_of_untouched hl
  have hends : Ends (fun s => s = a) (answerAdmission answers epoch pairing snapshot)
      (j.After answers snapshot a) := by
    rintro t rfl
    have hstate : Untouched t t ∧ j.Holds l l t := ⟨⟨rfl, rfl⟩, hholds⟩
    refine meets_lift_bind (fun loaded hloaded => ?_) (fun _ _ _ ht => ht ▸ hstill t hstate)
      t rfl
    rintro _ rfl
    cases answers.beforeEffect with
    | error e => exact ends_refusal hl e.message _ hstate
    | ok _ =>
      unfold permitSnapshot
      rw [hjob]
      refine (((meets_lineageOf_held (fun _ _ h => h) hl.toStorable).failing fun _ => hstill).bind
        fun found => ?_) _ hstate
      rintro s ⟨rfl, hs⟩
      refine meets_ite (fun _ => ends_refusal hl _) (fun hplan => ?_) s hs
      have hid : found.planId = snapshot.planId := not_not.mp (not_or.mp hplan).1
      rw [← hid, hl.ofPlan, hholds.1] at hloaded
      obtain rfl := Except.ok.inj hloaded
      refine meets_lift_bind (fun admitted _ => ?_) fun _ _ => hstill
      refine meets_ite (fun _ => ends_refusal hl _) fun _ => ?_
      refine meets_lift_bind (fun now _ => ?_) fun _ _ => hstill
      refine meets_ite (fun _ => ends_refusal hl _) fun _ => ?_
      exact ends_permitUnderLineage hl hjob hnames hrebound admitted now
  exact hends.state rfl

end Admission

/-! ### One control -/

section Control

/-- Every list of observations the control is shown names ports. -/
structure ControlNames (port : String → String) (answers : ControlAnswers) : Prop where
  observations : NamesPorts port answers.observations
  polls : ∀ poll ∈ answers.polls, NamesPorts port poll.observations

variable {port : String → String} {answers : ControlAnswers} {context : ControlContext}

theorem found_of_unique {poll : Poll} {current : List DeviceObservationView} {mode : String}
    (hnames : NamesPorts port poll.observations) (hcurrent : poll.observations = .ok current)
    (h : uniqueModeOnTopology current poll.probed context.topologySha256 mode = .ok (some o)) :
    Found port context.topologySha256 o := by
  unfold uniqueModeOnTopology at h
  split at h
  · cases h
  · next one hfilter =>
    cases h
    obtain ⟨hlisted, hat⟩ := List.mem_filter.mp (hfilter ▸ List.mem_singleton_self o)
    simp only [Bool.and_eq_true, decide_eq_true_eq] at hat
    exact hat.1.1 ▸ hnames current hcurrent o hlisted
  · cases h

theorem found_of_awaitLoader {limit : ℕ} {before : String} : ∀ {polls : List Poll},
    (∀ poll ∈ polls, NamesPorts port poll.observations) →
    awaitLoader limit context before polls = .ok o → Found port context.topologySha256 o
  | [], _, h => by cases h
  | poll :: polls, hnames, h => by
    have hrest := fun p hp => hnames p (List.mem_cons_of_mem poll hp)
    unfold awaitLoader at h
    split at h
    · cases h
    split at h
    · cases h
    · next current hcurrent =>
      split_ifs at h
      · exact found_of_awaitLoader hrest h
      · obtain ⟨unique, hunique, h⟩ := bind_eq_ok.mp h
        cases unique with
        | none => exact found_of_awaitLoader hrest h
        | some rebound =>
          cases h
          exact found_of_unique (hnames poll List.mem_cons_self) hcurrent hunique

theorem found_of_awaitNormal {limit : ℕ} : ∀ {polls : List Poll},
    (∀ poll ∈ polls, NamesPorts port poll.observations) →
    awaitNormal limit context polls = .ok o → Found port context.topologySha256 o
  | [], _, h => by cases h
  | poll :: polls, hnames, h => by
    unfold awaitNormal at h
    split at h
    · cases h
    split at h
    · cases h
    · next current hcurrent =>
      obtain ⟨unique, hunique, h⟩ := bind_eq_ok.mp h
      cases unique with
      | none => exact found_of_awaitNormal (fun p hp => hnames p (List.mem_cons_of_mem poll hp)) h
      | some rebound =>
        cases h
        exact found_of_unique (hnames poll List.mem_cons_self) hcurrent hunique

theorem found_of_exactObservation (hnames : ControlNames port answers)
    (hcurrent : port context.currentDeviceId = context.topologySha256)
    (h : exactObservation answers context.currentDeviceId = .ok o) :
    Found port context.topologySha256 o := by
  unfold exactObservation at h
  split at h
  · cases h
  · next os hos =>
    split at h
    · next item hfind =>
      cases h
      have hid : o.observationId = context.currentDeviceId := by simpa using List.find?_some hfind
      exact ⟨hid ▸ hcurrent, (hnames.observations os hos o (List.mem_of_find?_eq_some hfind)).2⟩
    · cases h

/-- What a control returns is at its port. -/
def Returns (port : String → String) (context : ControlContext)
    (rebound : Option DeviceObservationView) : Prop :=
  ∀ o, rebound = some o → Found port context.topologySha256 o

theorem meets_performAction_found (hnames : ControlNames port answers)
    (hcurrent : port context.currentDeviceId = context.topologySha256)
    (request : ManagedControlRequest) :
    Meets (fun _ => True) (performAction answers request context)
      (fun r _ => Returns port context r.2) fun _ _ => True := by
  have hsome : ∀ {o}, Found port context.topologySha256 o → Returns port context (some o) :=
    fun h _ ho => Option.some.inj ho ▸ h
  have hread : ∀ properties, Meets (fun _ => True)
      (readProperties request (deadline answers request) answers context properties)
      (fun r _ => Returns port context r.2) fun _ _ => True := by
    intro properties
    refine meets_ite (fun _ => meets_fail fun _ _ => trivial) fun _ => meets_any.bind fun current => ?_
    refine meets_ite (fun _ => meets_fail fun _ _ => trivial) fun _ => ?_
    refine meets_any.bind fun connectKey => meets_any.bind fun _ => meets_any.bind fun facts => ?_
    exact meets_pure fun _ _ o ho => by cases ho
  unfold performAction
  split
  · refine meets_lift_bind (fun before hbefore => ?_) fun _ _ _ _ => trivial
    refine meets_ite (fun _ => meets_pure fun _ _ =>
      hsome (found_of_exactObservation hnames hcurrent hbefore)) fun _ => ?_
    refine meets_ite (fun _ => meets_fail fun _ _ => trivial) fun _ => ?_
    refine meets_any.bind fun selected => ?_
    refine meets_lift_bind (fun rebound hrebound => ?_) fun _ _ _ _ => trivial
    exact meets_any.bind fun _ => meets_pure fun _ _ =>
      hsome (found_of_awaitLoader hnames.polls hrebound)
  · refine meets_lift_bind (fun rebound hrebound => ?_) fun _ _ _ _ => trivial
    exact meets_any.bind fun _ => meets_any.bind fun _ => meets_pure fun _ _ =>
      hsome (found_of_awaitNormal hnames.polls hrebound)
  · exact hread _
  · exact hread _

theorem meets_perform_found {ε : Type} (hnames : ControlNames port answers)
    (hcurrent : port context.currentDeviceId = context.topologySha256)
    (request : ManagedControlRequest) :
    Meets (fun _ => True) (perform (ε := ε) answers request context)
      (fun result _ => Returns port context result.reboundObservation) fun _ _ => True := by
  refine Meets.handle (R := fun _ _ => True) ?_ fun _ => meets_pure fun _ _ o ho => by cases ho
  exact (meets_performAction_found hnames hcurrent request).bind fun _ => meets_pure fun _ hs => hs

/-- The lineage of the job follows a device at the sealed port. -/
def SealedJob.BoundIn (j : SealedJob) (s : Supervisor) : Prop := j.Bound s.authority

variable {answers : EventAnswers} {job : JobView}

theorem ends_recordRebound {result : ControlResult} (hjob : job.jobId = j.jobId) (hl : j.Follows l)
    (hfound : ∀ o, result.reboundObservation = some o → Found j.port j.record.topologySha256 o) :
    Ends (fun s => j.Holds l l s.authority) (recordRebound answers job l result) j.BoundIn := by
  have hstay : ∀ s : Supervisor, j.Holds l l s.authority → j.BoundIn s := fun _ hs => ⟨l, hl, hs⟩
  unfold recordRebound
  split
  · next rebound _ hrebound =>
    unfold advanceLineage
    rw [hjob]
    refine meets_lift_bind (fun stable _ => ?_) fun _ _ => hstay
    have hnext := advance_follows hl (hfound rebound hrebound) stable
      (Daemon.Jobs.saturatingAdd l.revision 1)
    generalize ActiveTargetLineage.mk l.planId rebound.observationId stable.bytes l.topologySha256
      (Daemon.Jobs.saturatingAdd l.revision 1) = next at hnext ⊢
    refine (Meets.within (Q := fun _ s => j.Holds next l s.authority)
      fun s hs => Meets.within fun a ha => ?_).bind fun _ => ?_
    · subst ha
      exact (meets_persistJobLineage hl.toStorable answers.written).weaken (fun _ h => h ▸ hs.2.1)
        (fun _ _ h => ⟨hs.1, h, hs.2.2⟩) fun _ _ h => ⟨l, hl, hs.1, h, hs.2.2⟩
    · exact Meets.within fun s hs => meets_modifyState fun _ h =>
        h ▸ ⟨next, hnext, holds_remember hs⟩
  · exact meets_pure hstay

theorem ends_performControl (hjob : job.jobId = j.jobId) (hnames : ControlNames j.port answers.control)
    (loaded : AuthorityPlanRecord) (request : ManagedControlRequest) :
    Ends j.BoundIn (performControl answers job loaded request) j.BoundIn := by
  rintro s ⟨l, hl, hholds⟩
  have hstay : ∀ s : Supervisor, j.Holds l l s.authority → j.BoundIn s := fun _ hs => ⟨l, hl, hs⟩
  unfold performControl
  rw [hjob]
  refine ((Meets.within (P := fun s => j.Holds l l s.authority)
    (Q := fun found s => found = l ∧ j.Holds l l s.authority)
    fun s hs => ?_).bind fun found => ?_) s hholds
  · exact (meets_lineageOf_held (P := fun _ => True) (fun _ _ h => h) hl.toStorable).weaken
      (fun _ h => h ▸ ⟨trivial, hs⟩) (fun _ _ h => ⟨h.1, h.2.2⟩) fun _ _ h => ⟨l, hl, h.2⟩
  rintro s ⟨rfl, hs⟩
  refine meets_ite (P := fun s => j.Holds found found s.authority) (fun _ => meets_fail hstay)
    (fun _ => meets_lift_bind (fun stable _ => ?_) fun _ _ => hstay) s hs
  refine (Meets.within (Q := fun result s => j.Holds found found s.authority ∧
    ∀ o, result.reboundObservation = some o → Found j.port j.record.topologySha256 o)
    fun s hs => ?_).bind fun result => ?_
  · refine (meets_perform_found hnames ?_ request).weaken (fun _ _ => trivial)
      (fun _ _ h => ⟨hs, hl.samePort ▸ h⟩) fun _ _ _ => hstay s hs
    exact hl.atPort.trans hl.samePort.symm
  rintro s ⟨hs, hfound⟩
  refine ((ends_recordRebound hjob hl hfound).bind fun _ => ?_) s hs
  exact meets_submitControlReceipt (fun _ _ hs => hs) answers result.receipt

/-- **A control keeps the lineage at the sealed port.** -/
theorem ends_handleControl (hjob : job.jobId = j.jobId) (hnames : ControlNames j.port answers.control)
    (bound : Bool) (request : ManagedControlRequest) :
    Ends j.BoundIn (handleControl bound answers job request) j.BoundIn := by
  refine meets_ite (fun _ => meets_submitControlReceipt (fun _ _ hs => hs) answers _) fun _ => ?_
  refine meets_getState_bind fun s => meets_lift_bind (fun loaded _ => ?_) fun _ _ _ hs => hs
  cases answers.beforeEffect with
  | error e => exact meets_submitControlReceipt (fun _ _ hs => hs) answers _
  | ok _ => exact ends_performControl hjob hnames loaded request

end Control

end Port

/-! ### Runs -/

/-- The supervisor through the admissions and controls of a job and its own restarts. Observations are
at the port their id names, and a snapshot after a reboot is of a device at the sealed port. -/
inductive Run (j : SealedJob) : Supervisor → Prop where
  | start {s : Supervisor} : loadAuthorityPlan s.authority.plans j.record.plan.planId = .ok j.record →
    Stored j.jobId (initialLineage j.record) s.authority.jobs →
    s.authority.targetLineages.get j.jobId = none → Run j s
  | admission {s : Supervisor} (answers : AdmissionAnswers) (epoch : UInt64)
    (pairing : ControllerPairingSecret) (snapshot : StepAdmissionSnapshot) : Run j s →
    snapshot.jobId = j.jobId → NamesPorts j.port answers.lineage.devices →
    ReboundInPlace j.record snapshot →
    Run j (onAuthority (answerAdmission answers epoch pairing snapshot) s).2
  | control {s : Supervisor} (bound : Bool) (answers : EventAnswers) (job : JobView)
    (request : ManagedControlRequest) : Run j s → job.jobId = j.jobId →
    ControlNames j.port answers.control → Run j (handleControl bound answers job request s).2
  | restart {s : Supervisor} : Run j s → Run j {
    authority := { s.authority with targetLineages := OrdMap.empty }
    port := ⟨[], OrdMap.empty⟩
    cursors := OrdMap.empty
    receipts := s.receipts }

theorem bound_of_run {j : SealedJob} (hsealed : j.Follows (initialLineage j.record)) {s : Supervisor}
    (h : Run j s) : j.Bound s.authority := by
  induction h with
  | start hrecord hstored hnone =>
    refine ⟨_, hsealed, hrecord, hstored, fun l hl => ?_⟩
    rw [hnone] at hl
    cases hl
  | admission answers epoch pairing snapshot _ hjob hnames hrebound ih =>
    exact (after_answerAdmission ih hjob hnames hrebound).1
  | control bound answers job request _ hjob hnames ih =>
    exact (ends_handleControl hjob hnames bound request).state ih
  | restart _ ih =>
    obtain ⟨l, hl, hholds⟩ := ih
    exact ⟨l, hl, hholds.1, hholds.2.1, fun _ h => by cases h⟩

/-- **Permits stay on the sealed port.** Through every run, the lineage on disk keeps the port of the
plan and follows a device there. Every admission from such a state that writes or submits a permit is
for a snapshot of the sealed port, with a live device that has the identity of the lineage. -/
theorem permits_stay_on_port (j : SealedJob) (s : Supervisor)
    (hsealed : j.Follows (initialLineage j.record)) (hrun : Run j s) :
    (∃ l, Stored j.jobId l s.authority.jobs ∧ l.topologySha256 = j.record.topologySha256 ∧
      j.port l.currentDeviceId = j.record.topologySha256) ∧
    ∀ answers epoch pairing snapshot, snapshot.jobId = j.jobId →
      NamesPorts j.port answers.lineage.devices → ReboundInPlace j.record snapshot →
      Permits s.authority (answerAdmission answers epoch pairing snapshot s.authority).2 →
      j.OnPort answers snapshot (answerAdmission answers epoch pairing snapshot s.authority).2 := by
  have hbound := bound_of_run hsealed hrun
  refine ⟨?_, fun answers epoch pairing snapshot hjob hnames hrebound =>
    (after_answerAdmission hbound hjob hnames hrebound).2⟩
  obtain ⟨l, hl, hholds⟩ := hbound
  exact ⟨l, hholds.2.1, hl.samePort, hl.atPort⟩

/-! ### A device after a reboot -/

/-- A port no device is at. -/
def sealedPort : Sha256Digest := ⟨List.replicate 32 1, List.length_replicate⟩

section Rebooting

variable (sealed : Sha256Digest)

/-- A plan that reboots the device and goes on, sealed for a device at the port. -/
def rebootingRecord : AuthorityPlanRecord :=
  { sealedRecord with
    plan := ⟨"PLAN-1", zeroDigest.toHex, [
      { sealedStep with kind := "reboot", expectedModeBefore := "hdc-normal" },
      { sealedStep with stepId := "STEP-2" }]⟩
    deviceId := "DEVICE-0"
    topologySha256 := sealed.toHex }

/-- The job of the plan has just started. -/
def rebootingState : AuthorityState :=
  { sampleState with
    plans := OrdMap.empty.alter (journalName "PLAN-1" ".plan") fun _ => rebootingRecord sealed
    jobs := OrdMap.empty.alter (journalName "JOB-1" ".binding") fun _ =>
      encodeJobLineage (initialLineage (rebootingRecord sealed))
    targetLineages := OrdMap.empty }

/-- The device of the plan is at its port, and every other device at port zero. -/
def sampleJob : SealedJob where
  record := rebootingRecord sealed
  jobId := "JOB-1"
  port := fun device => if device = "DEVICE-0" then sealed.toHex else zeroDigest.toHex

/-- The lineage the authority follows the device with that shows up. -/
def rebound : ActiveTargetLineage :=
  { initialLineage (rebootingRecord sealed) with
    currentDeviceId := "DEVICE-1"
    currentStableIdentitySha256 := (stableIdentityDigest sampleView sampleProbe).bytes
    revision := 2 }

variable {sealed}

theorem follows_sample :
    (sampleJob sealed).Follows (initialLineage (rebootingRecord sealed)) where
  planId := show (utf8 "PLAN-1").length < 2 ^ 64 by decide
  device := show (utf8 "DEVICE-0").length < 2 ^ 64 by decide
  identity := rfl
  topology := (Core.HashStandard.length_utf8_toHex sealed).trans_lt (by decide)
  ofPlan := rfl
  samePort := rfl
  atPort := rfl

theorem stored_rebooting :
    Stored "JOB-1" (initialLineage (rebootingRecord sealed)) (rebootingState sealed).jobs :=
  (OrdMap.get_alter _ _ _ _).trans (if_pos rfl)

theorem loadAuthorityPlan_rebooting :
    loadAuthorityPlan (rebootingState sealed).plans "PLAN-1" = .ok (rebootingRecord sealed) := by
  have hget : (rebootingState sealed).plans.get (journalName "PLAN-1" ".plan") =
      some (rebootingRecord sealed) := (OrdMap.get_alter _ _ _ _).trans (if_pos rfl)
  unfold loadAuthorityPlan
  rw [hget]
  refine if_neg fun h => ?_
  simp [rebootingRecord, sealedRecord, sampleRecord, Sha256Digest.toHex_ne_empty, zeroDigest] at h

theorem run_sample :
    Run (sampleJob sealed) ⟨rebootingState sealed, ⟨[], OrdMap.empty⟩, OrdMap.empty, []⟩ :=
  .start loadAuthorityPlan_rebooting stored_rebooting rfl

/-- The one device that is there is at the port its id names. -/
theorem namesPorts_sample : NamesPorts (sampleJob sealed).port sampleAnswers.lineage.devices := by
  rintro os hos o ho
  obtain rfl := Except.ok.inj hos
  obtain rfl := List.mem_singleton.mp ho
  exact ⟨rfl, by decide⟩

theorem loadJobLineage_rebooting : loadJobLineage (rebootingState sealed).jobs "JOB-1" =
    .ok (initialLineage (rebootingRecord sealed)) := by
  unfold loadJobLineage
  rw [stored_rebooting]
  dsimp only
  rw [fold_lineage follows_sample.toStorable, ok_bind]
  refine if_neg fun h => ?_
  simp [initialLineage, rebootingRecord, sealedRecord, sampleRecord, Sha256Digest.toHex_ne_empty,
    zeroDigest] at h

theorem resolve_rebound (admitted : List UInt8) : ∃ jobs, Stored "JOB-1" (rebound sealed) jobs ∧
    resolveLineageForAdmission sampleAnswers.lineage (shownFor "STEP-2" admitted)
      (rebootingRecord sealed) (initialLineage (rebootingRecord sealed))
      (rebootingState sealed).jobs = (.ok (some (rebound sealed)), jobs) := by
  set written := (rebootingState sealed).jobs.alter (journalName "JOB-1" ".binding") fun _ =>
    encodeJobLineage (rebound sealed) with hwritten
  have hpersist : persistJobLineage (.ok ()) "JOB-1" (rebound sealed)
      (rebootingState sealed).jobs = (.ok (), written) := by
    unfold persistJobLineage
    rw [getState_bind, stored_rebooting, loadJobLineage_rebooting]
    rfl
  refine ⟨written, (OrdMap.get_alter _ _ _ _).trans (if_pos rfl), ?_⟩
  unfold resolveLineageForAdmission
  exact bind_apply_ok hpersist

/-- The device of the plan is gone after the reboot, and the daemon shows another one. The lineage
moves to that device, and the authority permits the step for it. -/
theorem permits_rebound : ∃ admitted submission permit a,
    answerAdmission sampleAnswers 1 samplePairing (shownFor "STEP-2" admitted)
      (rebootingState sealed) = (.ok (), a) ∧ a.submitted = [submission] ∧
    StepPermit.fromCanonicalBytes submission.permitCbor = .ok permit ∧
    Stored "JOB-1" (rebound sealed) a.jobs := by
  obtain ⟨d, submission, permit, journal, hadmitted, hfresh, hload, hreads, -⟩ :=
    @exists_sample_permit "STEP-2" (by decide) (rebootingRecord sealed) rfl
      (show Core.Ids.Conforming "BINDING-1" by decide) rfl
  obtain ⟨jobs, hstored, hresolve⟩ := resolve_rebound d.bytes
  have hlineage : lineageOf "JOB-1" (rebootingState sealed) =
      (.ok (initialLineage (rebootingRecord sealed)), { rebootingState sealed with
        targetLineages := OrdMap.empty.alter "JOB-1" fun _ =>
          initialLineage (rebootingRecord sealed) }) := by
    unfold lineageOf
    rw [getState_bind, loadJobLineage_rebooting]
    rfl
  exact ⟨d.bytes, submission, permit, _, answer_permits rfl loadAuthorityPlan_rebooting hlineage rfl
    rfl hadmitted rfl rfl hfresh hresolve currentStableIdentity_sample rfl hload rfl rfl, rfl, hreads,
    hstored⟩

end Rebooting

/-- The plan is sealed for another port than the one the daemon shows the device at, and the step is
permitted. -/
theorem permit_at_another_port : ∃ admitted submission permit a l,
    Run (sampleJob sealedPort) ⟨rebootingState sealedPort, ⟨[], OrdMap.empty⟩, OrdMap.empty, []⟩ ∧
    NamesPorts (sampleJob sealedPort).port sampleAnswers.lineage.devices ∧
    answerAdmission sampleAnswers 1 samplePairing (shownFor "STEP-2" admitted)
      (rebootingState sealedPort) = (.ok (), a) ∧ a.submitted = [submission] ∧
    StepPermit.fromCanonicalBytes submission.permitCbor = .ok permit ∧
    ¬ ShowsPort (rebootingRecord sealedPort) (shownFor "STEP-2" admitted) ∧
    Stored "JOB-1" l a.jobs ∧ (sampleJob sealedPort).port l.currentDeviceId ≠ sealedPort.toHex := by
  obtain ⟨admitted, submission, permit, a, hanswer, hsubmitted, hreads, hstored⟩ :=
    permits_rebound
  refine ⟨admitted, submission, permit, a, rebound sealedPort, run_sample, namesPorts_sample, hanswer,
    hsubmitted, hreads, ?_, hstored, ?_⟩
  · show ¬ ShowsPort (rebootingRecord sealedPort) (strangeSnapshot [])
    unfold ShowsPort
    decide +kernel
  · decide +kernel

/-- The plan is sealed for the port the device shows up at after the reboot, and the permit is on it. -/
theorem permits_stay_on_port_sample : ∃ admitted,
    priorRebootAuthorizesRebind (rebootingRecord zeroDigest).plan
      (shownFor "STEP-2" admitted) = true ∧
    (sampleJob zeroDigest).OnPort sampleAnswers (shownFor "STEP-2" admitted)
      (answerAdmission sampleAnswers 1 samplePairing (shownFor "STEP-2" admitted)
        (rebootingState zeroDigest)).2 := by
  obtain ⟨admitted, submission, permit, a, hanswer, hsubmitted, hreads, -⟩ := permits_rebound
  have hshows : ShowsPort (rebootingRecord zeroDigest) (shownFor "STEP-2" admitted) := by
    show ShowsPort (rebootingRecord zeroDigest) (strangeSnapshot [])
    unfold ShowsPort
    decide +kernel
  have hpermits : Permits (rebootingState zeroDigest) a := by
    refine .inr ⟨submission, hsubmitted, fun hempty => ?_⟩
    rw [hempty] at hreads
    cases hreads
  refine ⟨admitted, rfl, ?_⟩
  refine (permits_stay_on_port (sampleJob zeroDigest) _ follows_sample run_sample).2
    sampleAnswers 1 samplePairing (shownFor "STEP-2" admitted) rfl namesPorts_sample
    (fun _ => hshows) ?_
  show Permits (rebootingState zeroDigest) (answerAdmission sampleAnswers 1 samplePairing
    (shownFor "STEP-2" admitted) (rebootingState zeroDigest)).2
  rw [hanswer]
  exact hpermits

end ArkForge.Standalone.SealedPort
