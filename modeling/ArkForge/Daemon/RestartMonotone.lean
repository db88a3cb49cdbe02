import ArkForge.Daemon.Verdict
import ArkForge.Engine.SerialJob

/-! # Restarting along a job

The journal of a job that runs its steps one after the other, cut after any record, is recovered to
`cancelledSafe` or to `outcomeUnknown`. As long as one permit has been accepted the cuts are recovered
to `cancelledSafe` first and to `outcomeUnknown` from the intent on. The acceptance of a second permit
is a cut where only that permit counts: the job is `cancelledSafe` again, with the effect of the first
step on the device. -/

namespace ArkForge.Daemon.RestartMonotone

open Lib.Result
open Core.Digest Core.Ids
open Authority.Permit
open Engine.Record Engine.Durable Engine.Replay
open Engine.Handle Engine.Recovery Engine.Recovery.CrashDisposition
open Engine.Step Engine.LiveReplay Engine.CrashWindow
open Engine.SerialJob
open Jobs Calls Recover Verdict

variable {rs : List JournalRecord} {t : AdmittedStep} {now : UInt64} {w : Option (String × Stage)}
  {io : AppendIo × AppendIo} {extra : List (String × String)} {f : DispatchInFlight}
  {content : List UInt8}

/-! ### Acceptances -/

def acceptances (records : List JournalRecord) : ℕ :=
  records.countP fun r => r.kind = .stepPermitAccepted

theorem acceptances_concat (rs : List JournalRecord) (r : JournalRecord) :
    acceptances (rs ++ [r]) = acceptances rs + if r.kind = .stepPermitAccepted then 1 else 0 := by
  unfold acceptances
  simp

/-- If the record is one of a step, then of a permit that was accepted. -/
def Granted (rs : List JournalRecord) (r : JournalRecord) : Prop :=
  ∀ s : Stage, r.kind = s.kind → ∃ p, Names p r ∧ Has rs p .stepPermitAccepted

theorem serial_granted {j : String} (h : Serial j rs w) : ∀ r ∈ rs, Granted rs r := by
  have step : ∀ {rs : List JournalRecord} {r : JournalRecord}, (∀ x ∈ rs, Granted rs x) →
      Granted (rs ++ [r]) r → ∀ x ∈ rs ++ [r], Granted (rs ++ [r]) x := by
    intro rs r hold hnew
    refine forall_mem_concat.mpr ⟨fun x hx s hs => ?_, hnew⟩
    obtain ⟨p, hp, hhas⟩ := hold x hx s hs
    exact ⟨p, hp, has_concat.mpr (.inl hhas)⟩
  induction h with
  | created hkind _ _ =>
    rw [List.forall_mem_singleton]
    intro s hs
    rw [hkind] at hs
    cases s <;> cases hs
  | aside _ hr ih => exact step ih fun s hs => absurd hs (hr.kind s)
  | evidence _ hr ih =>
    refine step ih fun s hs => ?_
    rw [hr.kind] at hs
    cases s <;> cases hs
  | accept h hready hfresh hr ih =>
    exact step ih fun s _ => ⟨_, hr.names, has_concat.mpr (.inr ⟨hr.kind, hr.names⟩)⟩
  | advance h hnext hr ih =>
    have hshows := (Serial.advance h hnext hr).shows
    exact step ih fun s _ => ⟨_, hr.names, (hshows.2.2.1 .accepted).mpr (Nat.zero_le _)⟩

/-- Right after a checkpoint, the next permit was accepted. -/
def Resumed (j : String) (rs : List JournalRecord) : Prop :=
  ∃ pre r p q, pre ++ [r] <+: rs ∧ Serial j pre (some (p, .checkpointed)) ∧
    Serial j (pre ++ [r]) (some (q, .accepted))

theorem resumed_of_serial {j : String} (h : Serial j rs w) (hcount : 2 ≤ acceptances rs) :
    Resumed j rs := by
  have keep : ∀ {rs₀ : List JournalRecord} {r : JournalRecord}, r.kind ≠ .stepPermitAccepted →
      (2 ≤ acceptances rs₀ → Resumed j rs₀) → 2 ≤ acceptances (rs₀ ++ [r]) →
      Resumed j (rs₀ ++ [r]) := by
    intro rs₀ r hr ih hcount
    rw [acceptances_concat, if_neg hr] at hcount
    obtain ⟨pre, x, p, q, hpre, h⟩ := ih hcount
    exact ⟨pre, x, p, q, hpre.trans (List.prefix_append _ _), h⟩
  induction h with
  | created hkind _ _ => simp [acceptances, hkind] at hcount
  | aside _ hr ih => exact keep (hr.kind .accepted) ih hcount
  | evidence _ hr ih => exact keep (by rw [hr.kind]; exact nofun) ih hcount
  | @accept rs w p r h hready hfresh hr _ =>
    rcases w with _ | ⟨q, s⟩
    · have hnone : acceptances rs = 0 := by
        simpa [acceptances] using h.shows.2
      rw [acceptances_concat] at hcount
      split_ifs at hcount <;> omega
    · obtain rfl : s = .checkpointed := hready
      exact ⟨rs, r, q, p, List.prefix_rfl, h, .accept h rfl hfresh hr⟩
  | @advance rs p s s' r _ hnext hr ih =>
    have hkind : r.kind ≠ .stepPermitAccepted := by
      rw [hr.kind]
      cases s <;> cases hnext <;> exact nofun
    exact keep hkind ih hcount

theorem permit_unique (hcount : acceptances rs ≤ 1) {p q : String}
    (hp : Has rs p .stepPermitAccepted) (hq : Has rs q .stepPermitAccepted) : p = q := by
  obtain ⟨r, hr, hkind, hpr⟩ := hp
  obtain ⟨r', hr', hkind', hqr⟩ := hq
  have hmem : r ∈ rs.filter fun r => r.kind = .stepPermitAccepted :=
    List.mem_filter.mpr ⟨hr, by simp [hkind]⟩
  have hmem' : r' ∈ rs.filter fun r => r.kind = .stepPermitAccepted :=
    List.mem_filter.mpr ⟨hr', by simp [hkind']⟩
  rw [acceptances, List.countP_eq_length_filter] at hcount
  rcases hl : rs.filter (fun r => r.kind = .stepPermitAccepted) with _ | ⟨x, _ | ⟨y, l⟩⟩
  · rw [hl] at hmem
    cases hmem
  · rw [hl] at hmem hmem'
    obtain rfl := List.mem_singleton.mp hmem
    obtain rfl := List.mem_singleton.mp hmem'
    exact Option.some.inj (hpr.symm.trans hqr)
  · rw [hl] at hcount
    simp at hcount

/-! ### What the calls append -/

/-- The record is about the permit and asks for no cancellation. -/
structure About (p : String) (r : JournalRecord) : Prop where
  names : Names p r
  kind : r.kind ≠ .cancellationRequested

/-- Records about the step were appended. -/
def Advances (c : StepContext) (dj dj' : DurableJournal) : Prop :=
  ∃ es, Appends dj es true dj' ∧
    ∀ e ∈ es, c.factList <+: e.facts ∧ e.kind ≠ .cancellationRequested

namespace Advances

variable {c : StepContext} {dj dj' : DurableJournal}

theorem records (h : Advances c dj dj') :
    ∃ rs, dj'.journal.records = dj.journal.records ++ rs ∧ ∀ r ∈ rs, About c.permitId.value r := by
  obtain ⟨es, happends, hes⟩ := h
  obtain ⟨rs, hcarries, hrecords⟩ := happends.added rfl
  refine ⟨rs, hrecords, fun r hr => ?_⟩
  obtain ⟨e, he, hre⟩ := exists_of_forall₂ hcarries.flip hr
  obtain ⟨⟨more, hmore⟩, hkind⟩ := hes e he
  refine ⟨?_, by rwa [hre.kind]⟩
  unfold Names
  rw [hre.facts, ← hmore]
  exact factValue_append_of_some c.permitId_factList

theorem mirrors (h : Advances c dj dj') (hm : Mirrors dj) : Mirrors dj' := by
  obtain ⟨es, happends, -⟩ := h
  have hrun : ∀ {dj dj' : DurableJournal} {es : List Entry} {ok : Bool}, Appends dj es ok dj' →
      ok = true → Mirrors dj → Mirrors dj' := by
    intro dj dj' es ok happends hok hm
    induction happends with
    | done _ => exact hm
    | stopped _ _ => cases hok
    | failed _ => cases hok
    | next hstep _ ih => exact ih hok (hm.appended hstep)
  exact hrun happends rfl hm

theorem forall_mem (h : Advances c dj dj') {P : JournalRecord → Prop}
    (hold : ∀ r ∈ dj.journal.records, P r) (hnew : ∀ r, About c.permitId.value r → P r) :
    ∀ r ∈ dj'.journal.records, P r := by
  obtain ⟨rs, hrecords, habout⟩ := h.records
  rw [hrecords, List.forall_mem_append]
  exact ⟨hold, fun r hr => hnew r (habout r hr)⟩

end Advances

section

variable {dj dj' : DurableJournal}

theorem advances_admitStep {permit : StepPermit} {secret : ControllerPairingSecret}
    {intent : DispatchIntent} (h : (admitStep io permit secret intent).exec dj = (.ok t, dj')) :
    Advances (StepContext.fromPermit t.permit) dj dj' := by
  obtain ⟨happends, hok, -⟩ := (admitStep_spec io permit secret intent dj).of_exec h
  obtain rfl : t.permit.permit = permit := (hok t rfl).1
  exact ⟨_, happends, by simp [admitEntries, StepContext.entry]⟩

theorem advances_beginDispatch (h : (beginDispatchWithFacts io t now extra).exec dj = (.ok f, dj')) :
    f.context = StepContext.fromPermit t.permit ∧ Advances f.context dj dj' := by
  obtain ⟨c, facts, rfl, hlarge, happends, hok⟩ :=
    (beginDispatchWithFacts_spec io t now extra dj).of_exec h
  rw [hok f rfl]
  exact ⟨rfl, _, happends, by simp [StepContext.entry, hlarge.1]⟩

theorem advances_recordTransportEvidence {io : AppendIo}
    (h : (recordTransportEvidence io f now extra).exec dj = (.ok (), dj')) :
    Advances f.context dj dj' := by
  obtain ⟨facts, hlarge, happends⟩ := (recordTransportEvidence_spec io f now extra dj).of_exec h
  exact ⟨_, happends, by simp [StepContext.entry, hlarge.1]⟩

theorem advances_recordReceipt {digest : Sha256Digest} {c : CompletedStep}
    (h : (recordReceiptWithFacts io f digest extra now).exec dj = (.ok c, dj')) :
    c.context = f.context ∧ Advances c.context dj dj' := by
  obtain ⟨facts, hlarge, happends, hok⟩ :=
    (recordReceiptWithFacts_spec io f digest extra now dj).of_exec h
  rw [(hok c rfl).1]
  refine ⟨rfl, _, happends, ?_⟩
  simp [StepContext.entry, (receipt_of_enlarges hlarge.1).1, StepContext.receiptFactList]

theorem advances_checkpoint {io : AppendIo} {c : CompletedStep} {d : Sha256Digest}
    (h : (checkpoint io c now).exec dj = (.ok d, dj')) : Advances c.context dj dj' :=
  ⟨_, (checkpoint_spec io c now dj).of_exec h, by simp [StepContext.entry, StepContext.receiptFactList]⟩

end

variable {dj : DurableJournal}

/-- The permits that a record names are identifiers. -/
def Proper (r : JournalRecord) : Prop := ∀ p, Names p r → Conforming p

theorem serves_proper {j : String} {ph : Phase} (h : Serves j dj ph) :
    ∀ r ∈ dj.journal.records, Proper r := by
  have step : ∀ (c : StepContext) (r : JournalRecord), About c.permitId.value r → Proper r := by
    intro c r hc p hp
    obtain rfl : c.permitId.value = p := Option.some.inj (hc.names.symm.trans hp)
    exact c.permitId.conforming
  have silent : ∀ {dj dj' : DurableJournal} {io : AppendIo} {e : Entry} {d : Sha256Digest},
      dj.append io e = (.ok d, dj') → factValue e.facts Fact.PERMIT_ID = none →
      (∀ r ∈ dj.journal.records, Proper r) → ∀ r ∈ dj'.journal.records, Proper r := by
    intro dj dj' io e d happ hsilent hold
    obtain ⟨x, hx, hrecords⟩ := added_of_append happ
    rw [hrecords]
    refine forall_mem_concat.mpr ⟨hold, fun p hp => absurd hp ?_⟩
    exact not_names_of_silent (by rw [hx.facts]; exact hsilent) p
  induction h with
  | created hempty he happ => exact silent happ he.silent (by simp [hempty])
  | other _ he happ ih => exact silent happ he.silent ih
  | admitted _ _ hexec ih => exact (advances_admitStep hexec).forall_mem ih (step _)
  | dispatched _ hexec ih => exact (advances_beginDispatch hexec).2.forall_mem ih (step _)
  | evidence _ hexec ih => exact (advances_recordTransportEvidence hexec).forall_mem ih (step _)
  | received _ hexec ih => exact (advances_recordReceipt hexec).2.forall_mem ih (step _)
  | checkpointed _ hexec ih => exact (advances_checkpoint hexec).forall_mem ih (step _)

/-! ### Cuts that can be recovered -/

/-- A serial journal of `j` that can be recovered. -/
structure Readable (j : JobId) (rs : List JournalRecord) (w : Option (String × Stage)) : Prop where
  serial : Serial j.value rs w
  created : createdId rs = some j.value
  nameable : Nameable (rowAt w)

/-- Recovering the bytes may give the state. -/
def Recovers (content : List UInt8) (state : JobState) : Prop :=
  ∃ path fault io disk job, disk.content = content ∧ recoverJob path fault io disk = .ok job ∧
    job.state = state

variable {j : JobId}

theorem Readable.recovers_iff (h : Readable j rs w) (hs : Stores content rs)
    {state : JobState} : Recovers content state ↔ restartState (rowAt w) = some state := by
  have hall : ∀ {path fault io} {disk : Disk} {job : Job}, disk.content = content →
      recoverJob path fault io disk = .ok job → restartState (rowAt w) = some job.state := by
    intro path fault io disk job hdisk hjob
    obtain ⟨hid, hverdict⟩ := recoverJob_verdict (hdisk.symm ▸ hs) hjob
    have hj : job.jobId = j.value := Option.some.inj (hid.symm.trans h.created)
    rw [← serial_verdict h.serial, ← hj]
    exact hverdict
  constructor
  · rintro ⟨path, fault, io, disk, job, hdisk, hjob, rfl⟩
    exact hall hdisk hjob
  · intro hstate
    have hderive : derive ⟨rs⟩ j.value = rowAt w := h.serial.derive_eq
    have hrestart : Restartable flawless rs j.value := by
      refine .inr ⟨rfl, j.conforming, ?_, ?_⟩
      · rw [hderive]
        intro hno
        rw [hno] at hstate
        cases hstate
      · rw [hderive]
        exact h.nameable
    have hstores : Stores (⟨true, content, 0⟩ : Disk).content rs := hs
    obtain ⟨job, hjob⟩ := exists_recoverJob hstores h.created hrestart "journal"
    have hsame := hall rfl hjob
    exact ⟨"journal", .none, flawless, _, job, rfl, hjob, Option.some.inj (hsame.symm.trans hstate)⟩

/-! ### Cuts of a run -/

section

variable {j : JobId} {dj : DurableJournal} {ph : Phase} (h : Serves j.value dj ph)
  (hcreated : createdId dj.journal.records = some j.value)

include h hcreated

/-- Every cut of a run after its first record can be recovered. -/
theorem readable_cut (hcut : rs <+: dj.journal.records) (hne : rs ≠ []) : ∃ w, Readable j rs w := by
  obtain ⟨w, hserial, -⟩ := h.serial
  obtain ⟨w', hserial'⟩ := hserial.cut hcut hne
  obtain ⟨r, rest, rfl, hkind⟩ := serial_head hserial'
  obtain ⟨more, hmore⟩ := hcut
  refine ⟨w', hserial', ?_, ?_⟩
  · rw [← hmore, List.cons_append, createdId_cons hkind] at hcreated
    rw [createdId_cons hkind]
    exact hcreated
  · rcases w' with _ | ⟨p, s⟩
    · trivial
    · obtain ⟨-, ⟨pre, a, post, hrs, -, hnames, -⟩, -⟩ := hserial'.shows
      have hmem : a ∈ dj.journal.records := by
        rw [← hmore, hrs]
        simp
      have hconforming := serves_proper h a hmem p hnames
      cases s <;> first | exact hconforming | trivial

omit h hcreated in
theorem not_recovers_nil (hs : Stores content []) (state : JobState) :
    ¬ Recovers content state := by
  rintro ⟨path, fault, io, disk, job, rfl, hjob, -⟩
  obtain ⟨hid, -⟩ := recoverJob_verdict hs hjob
  cases hid

/-- Once a restart would not know the outcome, no later restart would know it. -/
def Monotone (records : List JournalRecord) : Prop :=
  ∀ i k, i < k → k ≤ records.length → ∀ content content', Stores content (records.take i) →
    Stores content' (records.take k) → Recovers content .outcomeUnknown →
    Recovers content' .outcomeUnknown ∧ ∀ state, Recovers content' state → state = .outcomeUnknown

/-- A job is only recovered as cancelled while nothing was dispatched. -/
def SafeCuts (records : List JournalRecord) : Prop :=
  ∀ i content, Stores content (records.take i) → Recovers content .cancelledSafe →
    ∀ r ∈ records.take i, r.kind ≠ .externalDispatchStarted

omit h hcreated in
/-- Where one permit was accepted, the outcome is unknown once the step has a further record. -/
theorem Readable.unknown_iff (hw : Readable j rs w) (hone : acceptances rs ≤ 1) :
    restartState (rowAt w) = some .outcomeUnknown ↔
      ∃ r ∈ rs, ∃ s : Stage, s ≠ .accepted ∧ r.kind = s.kind := by
  rcases w with _ | ⟨q, s⟩
  · refine iff_of_false nofun ?_
    rintro ⟨r, hr, s, -, hkind⟩
    obtain ⟨p, -, r', hr', hkind', -⟩ := serial_granted hw.serial r hr s hkind
    exact hw.serial.shows.2 r' hr' hkind'
  have hhas := hw.serial.shows.2.2.1
  rw [restartState_rowAt]
  constructor
  · intro hrow
    obtain ⟨r, hr, hkind, -⟩ := (hhas s).mpr le_rfl
    refine ⟨r, hr, s, ?_, hkind⟩
    rintro rfl
    cases hrow
  · rintro ⟨r, hr, s', hs', hkind⟩
    obtain ⟨p, hp, haccepted⟩ := serial_granted hw.serial r hr s' hkind
    obtain rfl : p = q := permit_unique hone haccepted ((hhas .accepted).mpr (Nat.zero_le _))
    have hle := (hhas s').mp ⟨r, hr, hkind, hp⟩
    rw [if_neg]
    rintro rfl
    exact hs' (Stage.index_injective (Nat.le_zero.mp hle))

variable (hcount : acceptances dj.journal.records ≤ 1)

include hcount

theorem monotone_of_one : Monotone dj.journal.records := by
  intro i k hik _ content content' hi hk hunknown
  have hone : ∀ n, acceptances (dj.journal.records.take n) ≤ 1 := fun n =>
    ((List.take_sublist n _).countP_le).trans hcount
  have hsub : dj.journal.records.take i <+: dj.journal.records.take k :=
    List.take_prefix_take_left hik.le
  have hne : dj.journal.records.take i ≠ [] := by
    intro hnil
    rw [hnil] at hi
    exact not_recovers_nil hi _ hunknown
  have hne' : dj.journal.records.take k ≠ [] := fun hnil => hne (by
    rw [hnil] at hsub
    exact List.prefix_nil.mp hsub)
  obtain ⟨w, hw⟩ := readable_cut h hcreated (List.take_prefix i _) hne
  obtain ⟨w', hw'⟩ := readable_cut h hcreated (List.take_prefix k _) hne'
  obtain ⟨r, hr, hlater⟩ := (hw.unknown_iff (hone i)).mp ((hw.recovers_iff hi).mp hunknown)
  have hgives := (hw'.unknown_iff (hone k)).mpr ⟨r, hsub.subset hr, hlater⟩
  refine ⟨(hw'.recovers_iff hk).mpr hgives, fun state hstate => ?_⟩
  have hother := (hw'.recovers_iff hk).mp hstate
  exact Option.some.inj (hother.symm.trans hgives)

theorem safeCuts_of_one : SafeCuts dj.journal.records := by
  intro i content hi hsafe r hr hkind
  obtain ⟨w, hw⟩ := readable_cut h hcreated (List.take_prefix i _) (List.ne_nil_of_mem hr)
  have hunknown := (hw.unknown_iff (((List.take_sublist i _).countP_le).trans hcount)).mpr
    ⟨r, hr, .started, nofun, hkind⟩
  cases hunknown.symm.trans ((hw.recovers_iff hi).mp hsafe)

omit hcount

/-- **The acceptance of a second permit** hides what the first one has done. -/
theorem exists_hidden (hfile : Stores content dj.journal.records)
    (hcount : 2 ≤ acceptances dj.journal.records) :
    ∃ i < dj.journal.records.length, ∃ before after,
      Stores before (dj.journal.records.take i) ∧ Stores after (dj.journal.records.take (i + 1)) ∧
      Recovers before .outcomeUnknown ∧ Recovers after .cancelledSafe ∧
      ∃ r ∈ dj.journal.records.take (i + 1), r.kind = .externalDispatchStarted := by
  obtain ⟨w, hserial, -⟩ := h.serial
  obtain ⟨pre, r, p, q, hpre, hbefore, hafter⟩ := resumed_of_serial hserial hcount
  have hlen : pre.length < dj.journal.records.length := by
    have := hpre.length_le
    rw [List.length_append, List.length_singleton] at this
    omega
  have htake : dj.journal.records.take (pre.length + 1) = pre ++ [r] := by
    have := List.prefix_iff_eq_take.mp hpre
    rw [List.length_append] at this
    exact this.symm
  have htake' : dj.journal.records.take pre.length = pre :=
    (List.prefix_iff_eq_take.mp ((List.prefix_append pre [r]).trans hpre)).symm
  obtain ⟨before, hs⟩ := hfile.exists_take pre.length
  obtain ⟨after, hs'⟩ := hfile.exists_take (pre.length + 1)
  obtain ⟨wb, hb⟩ := readable_cut h hcreated (List.take_prefix pre.length _)
    (by rw [htake']; exact hbefore.ne_nil)
  obtain ⟨wa, ha⟩ := readable_cut h hcreated (List.take_prefix (pre.length + 1) _)
    (by rw [htake]; exact hafter.ne_nil)
  refine ⟨pre.length, hlen, before, after, hs, hs', ?_, ?_, ?_⟩
  · refine (hb.recovers_iff hs).mpr ?_
    rw [← hb.serial.derive_eq, htake', hbefore.derive_eq]
    rfl
  · refine (ha.recovers_iff hs').mpr ?_
    rw [← ha.serial.derive_eq, htake, hafter.derive_eq]
    rfl
  · obtain ⟨x, hx, hkind, -⟩ := (hbefore.shows.2.2.1 .started).mpr (by decide)
    exact ⟨x, by rw [htake]; exact List.mem_append_left _ hx, hkind⟩

end

/-! ### Runs that nothing disturbs -/

/-- A run on a journal that is in order. -/
structure Running (j : JobId) (dj : DurableJournal) (ph : Phase) : Prop where
  serves : Serves j.value dj ph
  alive : dj.poisoned = false
  mirrors : Mirrors dj
  created : createdId dj.journal.records = some j.value

theorem Running.next {dj' : DurableJournal} {ph ph' : Phase} {c : StepContext}
    (h : Running j dj ph) (hserves : Serves j.value dj' ph') (halive : dj'.poisoned = false)
    (hadvances : Advances c dj dj') : Running j dj' ph' := by
  refine ⟨hserves, halive, hadvances.mirrors h.mirrors, ?_⟩
  obtain ⟨w, hserial, -⟩ := h.serves.serial
  obtain ⟨r, rest, hrs, hkind⟩ := serial_head hserial
  obtain ⟨more, hrecords, -⟩ := hadvances.records
  have hcreated := h.created
  rw [hrs, createdId_cons hkind] at hcreated
  rw [hrecords, hrs, List.cons_append, createdId_cons hkind]
  exact hcreated

theorem Running.admit (h : Running j dj .idle) (p : PermitId)
    (hfresh : ∀ r ∈ dj.journal.records, ¬ Names p.value r) :
    ∃ dj' t, Running j dj' (.admitted t) ∧ t.permit.permit.permitId = p ∧
      Advances (StepContext.fromPermit t.permit) dj dj' := by
  let zero := sha256 []
  let intent : DispatchIntent := ⟨j, j, j, zero, j, j, zero, zero, zero, ⟨j, j, 1, zero⟩, zero, 0⟩
  obtain ⟨permit, hid, hjob, hverify⟩ :=
    exists_verified intent ⟨1, []⟩ p (show (0 : UInt64) < 1 by decide)
  have hunseen : standing permit.permitId.value dj.journal.records = .unseen :=
    standing_eq_unseen (by rw [hid]; exact hfresh)
  rcases hexec : (admitStep (flawless, flawless) permit ⟨1, []⟩ intent).exec dj with ⟨result, dj'⟩
  obtain ⟨halive, t, rfl, ht⟩ := (admitStep_flawless h.alive hunseen hverify).of_exec hexec
  have hadvances := advances_admitStep hexec
  have hserves : Serves j.value dj' (.admitted t) := .admitted h.serves (by rw [hjob]) hexec
  exact ⟨dj', t, h.next hserves halive hadvances, by rw [ht]; exact hid, hadvances⟩

theorem Running.finish (h : Running j dj (.admitted t)) :
    ∃ dj', Running j dj' .idle ∧
      dj.journal.records <+: dj'.journal.records ∧
      ∀ r ∈ dj'.journal.records, r ∈ dj.journal.records ∨ About t.permit.permit.permitId.value r := by
  rcases h₁ : (beginDispatch (flawless, flawless) t 0).exec dj with ⟨_, dj₁⟩
  obtain ⟨hp₁, f, rfl⟩ := (beginDispatch_flawless h.alive).of_exec h₁
  rcases h₂ : (recordReceiptWithFacts (flawless, flawless) f (sha256 []) [] 0).exec dj₁ with ⟨_, dj₂⟩
  obtain ⟨hp₂, c, rfl⟩ := (recordReceipt_flawless hp₁).of_exec h₂
  rcases h₃ : (checkpoint flawless c 0).exec dj₂ with ⟨_, dj₃⟩
  obtain ⟨hp₃, d, rfl⟩ := (checkpoint_flawless hp₂).of_exec h₃
  obtain ⟨hf, hadv₁⟩ := advances_beginDispatch h₁
  obtain ⟨hc, hadv₂⟩ := advances_recordReceipt h₂
  have hadv₃ := advances_checkpoint h₃
  have hrun₁ : Running j dj₁ (.inFlight f) := h.next (.dispatched h.serves h₁) hp₁ hadv₁
  have hrun₂ : Running j dj₂ (.completed c) := hrun₁.next (.received hrun₁.serves h₂) hp₂ hadv₂
  refine ⟨dj₃, hrun₂.next (.checkpointed hrun₂.serves h₃) hp₃ hadv₃, ?_, ?_⟩
  · obtain ⟨rs₁, hrs₁, -⟩ := hadv₁.records
    obtain ⟨rs₂, hrs₂, -⟩ := hadv₂.records
    obtain ⟨rs₃, hrs₃, -⟩ := hadv₃.records
    rw [hrs₃, hrs₂, hrs₁, List.append_assoc, List.append_assoc]
    exact List.prefix_append _ _
  · rw [hc] at hadv₂ hadv₃
    rw [hf] at hadv₁ hadv₂ hadv₃
    have hmem₁ := hadv₁.forall_mem (P := fun r => r ∈ dj.journal.records ∨
      About t.permit.permit.permitId.value r) (fun r hr => .inl hr) (fun r hr => .inr hr)
    exact hadv₃.forall_mem (hadv₂.forall_mem hmem₁ fun r hr => .inr hr) fun r hr => .inr hr

/-- **Restart classification is monotone exactly until a second permit is accepted**, and so long does
a restart cancel only what was not dispatched. -/
theorem restart_monotone_iff {j : JobId} {dj : DurableJournal} {ph : Phase} (h : Serves j.value dj ph)
    (hcreated : createdId dj.journal.records = some j.value) {content : List UInt8}
    (hfile : Stores content dj.journal.records) :
    (Monotone dj.journal.records ↔ acceptances dj.journal.records ≤ 1) ∧
      (SafeCuts dj.journal.records ↔ acceptances dj.journal.records ≤ 1) := by
  refine ⟨⟨fun hmono => ?_, monotone_of_one h hcreated⟩, ⟨fun hsafe => ?_, safeCuts_of_one h hcreated⟩⟩
  · by_contra hcount
    obtain ⟨i, hi, before, after, hs, hs', hunknown, hcancelled, -⟩ :=
      exists_hidden h hcreated hfile (by omega)
    have hstay := (hmono i (i + 1) (by omega) (by omega) before after hs hs' hunknown).2
    cases hstay _ hcancelled
  · by_contra hcount
    obtain ⟨i, hi, before, after, -, hs', -, hcancelled, r, hr, hkind⟩ :=
      exists_hidden h hcreated hfile (by omega)
    exact hsafe (i + 1) after hs' hcancelled r hr hkind

theorem exists_running (j : JobId) : ∃ dj, Running j dj .idle ∧
    ∀ r ∈ dj.journal.records, (∀ p, ¬ Names p r) ∧ r.kind ≠ .cancellationRequested := by
  let start : DurableJournal := opened "journal" [] [] MAGIC.length
  let e : Entry := ⟨.jobCreated, 0, 1, j, [(⟨Fact.JOB_ID, by decide⟩, j.value)]⟩
  obtain ⟨d, dj, happ⟩ := append_named (show start.poisoned = false from rfl) e
    (show named e.facts = [(Fact.JOB_ID, j.value)] from rfl) (by simp) (by simp)
    (by simpa using j.conforming.2.1.trans (by decide))
  obtain ⟨r, hwrote⟩ := exists_wrote happ
  have hrecords : dj.journal.records = [r] := hwrote.records
  have hfacts : r.facts = e.facts := hwrote.carries.facts
  have hkind : r.kind = .jobCreated := hwrote.carries.kind
  have hempty : (⟨false, [], 0⟩ : Disk).content = [] := rfl
  have hstart : Mirrors start := mirrors_opened (open_of_empty hempty "journal")
  have hstep := append_step start flawless e
  rw [happ] at hstep
  have hsilent : factValue e.facts Fact.PERMIT_ID = none := by
    simp [e, factValue_cons, factValue_nil, Fact.JOB_ID, Fact.PERMIT_ID]
  have hserves : Serves j.value dj .idle :=
    .created rfl ⟨rfl, by simp [e, factValue_cons], hsilent⟩ happ
  refine ⟨dj, ⟨hserves, hwrote.alive, hstart.appended hstep, ?_⟩, ?_⟩
  · rw [hrecords, createdId_cons hkind, hfacts]
    simp [e, factValue_cons]
  · rw [hrecords, List.forall_mem_singleton, hkind]
    exact ⟨not_names_of_silent (by rw [hfacts]; exact hsilent), by decide⟩

theorem has_accepted_of_admitted {j : String} (h : Serves j dj (.admitted t)) :
    Has dj.journal.records t.permit.permit.permitId.value .stepPermitAccepted := by
  obtain ⟨w, hserial, -, rfl⟩ := h.serial
  exact (hserial.shows.2.2.1 .accepted).mpr (by decide)

/-- A job that has run one step and accepted the permit of the next. -/
theorem exists_two_permits : ∃ (j : JobId) (dj : DurableJournal) (ph : Phase),
    Running j dj ph ∧ 2 ≤ acceptances dj.journal.records ∧
      ∀ r ∈ dj.journal.records, r.kind ≠ .cancellationRequested := by
  obtain ⟨dj, hrun, hquiet⟩ := exists_running ⟨"JOB-1", by decide⟩
  obtain ⟨dj₁, t₁, hrun₁, hid₁, hadv₁⟩ :=
    hrun.admit ⟨"PERMIT-1", by decide⟩ fun r hr => (hquiet r hr).1 _
  obtain ⟨dj₂, hrun₂, hpre, hmem⟩ := hrun₁.finish
  rw [hid₁] at hmem
  -- all records but the first are about the first permit
  have habout : ∀ r ∈ dj₂.journal.records, r ∈ dj.journal.records ∨ About "PERMIT-1" r := by
    intro r hr
    rcases hmem r hr with hr | hr
    · refine hadv₁.forall_mem (P := fun r => r ∈ dj.journal.records ∨ About "PERMIT-1" r)
        (fun r hr => .inl hr) (fun r hr => .inr ?_) r hr
      have hvalue : t₁.permit.permit.permitId.value = "PERMIT-1" := by rw [hid₁]
      exact hvalue ▸ hr
    · exact .inr hr
  have hfresh : ∀ r ∈ dj₂.journal.records, ¬ Names "PERMIT-2" r := by
    intro r hr
    rcases habout r hr with hr | hr
    · exact (hquiet r hr).1 _
    · exact not_names_of_ne hr.names (by decide)
  obtain ⟨dj₃, t₂, hrun₃, hid₂, hadv₃⟩ := hrun₂.admit ⟨"PERMIT-2", by decide⟩ hfresh
  refine ⟨_, dj₃, _, hrun₃, ?_, ?_⟩
  · by_contra hcount
    obtain ⟨rs, hrecords, -⟩ := hadv₃.records
    obtain ⟨r, hr, haccepted⟩ := has_accepted_of_admitted hrun₁.serves
    have hfirst : Has dj₃.journal.records t₁.permit.permit.permitId.value .stepPermitAccepted :=
      ⟨r, by rw [hrecords]; exact List.mem_append_left _ (hpre.subset hr), haccepted⟩
    have hsame := permit_unique (by omega) hfirst (has_accepted_of_admitted hrun₃.serves)
    rw [hid₁, hid₂] at hsame
    exact absurd hsame (by decide)
  · refine hadv₃.forall_mem (fun r hr => ?_) fun r hr => hr.kind
    rcases habout r hr with hr | hr
    · exact (hquiet r hr).2
    · exact hr.kind

/-- A job of one finished step that has accepted the permit of the next: before the acceptance a
restart does not know the outcome, after it the job is cancelled, and a step was dispatched. -/
theorem restart_forgets_dispatch : ∃ (j : JobId) (dj : DurableJournal) (ph : Phase)
    (content : List UInt8), Serves j.value dj ph ∧ Stores content dj.journal.records ∧
      (∀ r ∈ dj.journal.records, r.kind ≠ .cancellationRequested ∧ r.kind ≠ .outcomeClassified) ∧
      ∃ i < dj.journal.records.length, ∃ before after,
        Stores before (dj.journal.records.take i) ∧
        Stores after (dj.journal.records.take (i + 1)) ∧
        Recovers before .outcomeUnknown ∧ Recovers after .cancelledSafe ∧
        ∃ r ∈ dj.journal.records.take (i + 1), r.kind = .externalDispatchStarted := by
  obtain ⟨j, dj, ph, hrun, hcount, hquiet⟩ := exists_two_permits
  obtain ⟨w, hserial, -⟩ := hrun.serves.serial
  exact ⟨j, dj, ph, _, hrun.serves, hrun.mirrors.stores,
    fun r hr => ⟨hquiet r hr, hserial.owns.running r hr⟩,
    exists_hidden hrun.serves hrun.created hrun.mirrors.stores hcount⟩

/-- A job of one dispatched step that has accepted the permit of the next: its restarts are not. -/
theorem restart_monotone_two_permits : ∃ (j : JobId) (dj : DurableJournal) (ph : Phase)
    (content : List UInt8), Serves j.value dj ph ∧ createdId dj.journal.records = some j.value ∧
      Stores content dj.journal.records ∧
      ¬ Monotone dj.journal.records ∧ ¬ SafeCuts dj.journal.records := by
  obtain ⟨j, dj, ph, hrun, hcount, -⟩ := exists_two_permits
  obtain ⟨hmonotone, hsafe⟩ := restart_monotone_iff hrun.serves hrun.created hrun.mirrors.stores
  refine ⟨j, dj, ph, _, hrun.serves, hrun.created, hrun.mirrors.stores, fun h => ?_, fun h => ?_⟩
  · exact absurd (hmonotone.mp h) (by omega)
  · exact absurd (hsafe.mp h) (by omega)

end ArkForge.Daemon.RestartMonotone
