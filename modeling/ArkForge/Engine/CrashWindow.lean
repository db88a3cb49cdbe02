import ArkForge.Engine.AtMostOnce

/-! # Crash windows of a job that runs its steps one after the other

A job admits a step only after the one before it is checkpointed. The journal it leaves behind, cut
after any record, is read by a small automaton (`Serial`) whose state is the current permit and how far
its step has come. `CrashDisposition.derive` scans the journal backwards for the newest permit, folds
it into a ledger and scans it again for a checkpoint; for a serial journal the three agree on the
automaton's state (`Shows`). -/

namespace ArkForge.Engine.CrashWindow

open Record
open Recovery Recovery.CrashDisposition Step
open AtMostOnce (names_of_carries)

variable {j p : String} {r : JournalRecord}

/-! ### Serial journals -/

/-- How far a step has come: its last durable record. -/
inductive Stage where
  | accepted
  | intent
  | consuming
  | started
  | received
  | consumed
  | checkpointed
  deriving DecidableEq

namespace Stage

def kind : Stage → JournalRecordKind
  | accepted => .stepPermitAccepted
  | intent => .stepIntentRecorded
  | consuming => .permitConsuming
  | started => .externalDispatchStarted
  | received => .semanticReceiptRecorded
  | consumed => .permitConsumed
  | checkpointed => .stepCheckpointed

def index : Stage → ℕ
  | accepted => 0
  | intent => 1
  | consuming => 2
  | started => 3
  | received => 4
  | consumed => 5
  | checkpointed => 6

def next : Stage → Option Stage
  | accepted => some intent
  | intent => some consuming
  | consuming => some started
  | started => some received
  | received => some consumed
  | consumed => some checkpointed
  | checkpointed => none

theorem index_next {s s' : Stage} (h : s.next = some s') : s'.index = s.index + 1 := by
  cases s <;> cases h <;> rfl

theorem kind_injective {s s' : Stage} (h : s.kind = s'.kind) : s = s' := by
  cases s <;> cases s' <;> first | rfl | cases h

theorem index_injective {s s' : Stage} (h : s.index = s'.index) : s = s' := by
  cases s <;> cases s' <;> first | rfl | cases h

/-- What the ledger says about a permit whose step has come this far. -/
def Fits : Stage → PermitDisposition → Prop
  | accepted, d => d = .acceptedIntentNotDurable
  | intent, d => d = .intentDurable
  | consuming, d | started, d => d = .consumingOutcomeUnknown
  | received, d | consumed, d | checkpointed, d => ∃ receipt, d = .consumed receipt

theorem not_fits_unseen (s : Stage) : ¬ s.Fits .unseen := by
  cases s <;> simp [Fits]

end Stage

/-- A record of the step under the permit `p` of the job `j`. -/
structure StepRecord (j p : String) (s : Stage) (r : JournalRecord) : Prop where
  kind : r.kind = s.kind
  names : Names p r
  job : factValue r.facts Fact.JOB_ID = some j
  receipt : s = .received ∨ s = .consumed →
    ∃ d, d ≠ "" ∧ factValue r.facts Fact.RECEIPT_DIGEST = some d

/-- A record of another kind that names no permit and concludes nothing. -/
structure Aside (r : JournalRecord) : Prop where
  kind : ∀ s : Stage, r.kind ≠ s.kind
  outcome : r.kind ≠ .outcomeClassified
  silent : factValue r.facts Fact.PERMIT_ID = none

/-- Transport evidence for the permit `p` of the job `j`. -/
structure Evidence (j p : String) (r : JournalRecord) : Prop where
  kind : r.kind = .transportEvidenceRecorded
  names : Names p r
  job : factValue r.facts Fact.JOB_ID = some j

/-- No step of the job is under way. -/
def Ready : Option (String × Stage) → Prop
  | none => True
  | some (_, s) => s = .checkpointed

/-- The journal of a serial job `j`, and where it stands: the current permit and its stage. -/
inductive Serial (j : String) : List JournalRecord → Option (String × Stage) → Prop where
  | created {r : JournalRecord} : r.kind = .jobCreated → createdJob r = j →
      factValue r.facts Fact.PERMIT_ID = none → Serial j [r] none
  | aside {rs : List JournalRecord} {w : Option (String × Stage)} {r : JournalRecord} :
      Serial j rs w → Aside r → Serial j (rs ++ [r]) w
  | evidence {rs : List JournalRecord} {p : String} {r : JournalRecord} :
      Serial j rs (some (p, .started)) → Evidence j p r → Serial j (rs ++ [r]) (some (p, .started))
  | accept {rs : List JournalRecord} {w : Option (String × Stage)} {p : String} {r : JournalRecord} :
      Serial j rs w → Ready w → (∀ s ∈ rs, ¬ Names p s) → StepRecord j p .accepted r →
      Serial j (rs ++ [r]) (some (p, .accepted))
  | advance {rs : List JournalRecord} {p : String} {s s' : Stage} {r : JournalRecord} :
      Serial j rs (some (p, s)) → s.next = some s' → StepRecord j p s' r →
      Serial j (rs ++ [r]) (some (p, s'))

variable {rs : List JournalRecord} {w : Option (String × Stage)}

theorem Serial.ne_nil (h : Serial j rs w) : rs ≠ [] := by
  cases h <;> simp

/-- A serial journal cut after any record is a serial journal. -/
theorem Serial.cut {rs' : List JournalRecord} (h : Serial j rs w) (hcut : rs' <+: rs)
    (hne : rs' ≠ []) : ∃ w', Serial j rs' w' := by
  have key : ∀ {rs₀ : List JournalRecord} {r : JournalRecord} {w : Option (String × Stage)},
      Serial j (rs₀ ++ [r]) w → (rs' <+: rs₀ → ∃ w', Serial j rs' w') → rs' <+: rs₀ ++ [r] →
      ∃ w', Serial j rs' w' := by
    intro rs₀ r w hfull hshort hpre
    rcases List.prefix_concat_iff.mp hpre with heq | hpre
    · exact ⟨w, by rw [heq]; exact hfull⟩
    · exact hshort hpre
  induction h with
  | @created r hkind hjob hsilent =>
    have hfull : Serial j ([] ++ [r]) none := .created hkind hjob hsilent
    exact key hfull (fun hpre => absurd (List.prefix_nil.mp hpre) hne) hcut
  | aside h ha ih => exact key (.aside h ha) ih hcut
  | evidence h he ih => exact key (.evidence h he) ih hcut
  | accept h hready hfresh hr ih => exact key (.accept h hready hfresh hr) ih hcut
  | advance h hnext hr ih => exact key (.advance h hnext hr) ih hcut

/-! ### What a serial journal shows -/

def Has (rs : List JournalRecord) (p : String) (kind : JournalRecordKind) : Prop :=
  ∃ r ∈ rs, r.kind = kind ∧ Names p r

def LastPermit (rs : List JournalRecord) (p : String) : Prop :=
  ∃ pre r post, rs = pre ++ r :: post ∧ r.kind = .stepPermitAccepted ∧ Names p r ∧
    ∀ s ∈ post, s.kind ≠ .stepPermitAccepted

theorem has_concat {kind : JournalRecordKind} :
    Has (rs ++ [r]) p kind ↔ Has rs p kind ∨ r.kind = kind ∧ Names p r :=
  exists_mem_concat

theorem LastPermit.concat (h : LastPermit rs p)
    (hr : r.kind ≠ .stepPermitAccepted) : LastPermit (rs ++ [r]) p := by
  obtain ⟨pre, a, post, rfl, hkind, hnames, hpost⟩ := h
  exact ⟨pre, a, post ++ [r], by simp, hkind, hnames, forall_mem_concat.mpr ⟨hpost, hr⟩⟩

theorem lastPermit_concat_accepted (hkind : r.kind = .stepPermitAccepted)
    (hnames : Names p r) : LastPermit (rs ++ [r]) p :=
  ⟨rs, r, [], rfl, hkind, hnames, nofun⟩

variable {q : String}

theorem LastPermit.unique (hp : LastPermit rs p) (hq : LastPermit rs q) :
    p = q := by
  induction rs using List.reverseRecOn with
  | nil =>
    obtain ⟨pre, r, post, h, -⟩ := hp
    simp at h
  | append_singleton rs r ih =>
    have split : ∀ {p}, LastPermit (rs ++ [r]) p →
        r.kind = .stepPermitAccepted ∧ Names p r ∨ r.kind ≠ .stepPermitAccepted ∧ LastPermit rs p := by
      rintro p ⟨pre, a, post, h, hkind, hnames, hpost⟩
      rcases List.eq_nil_or_concat post with rfl | ⟨post', b, rfl⟩
      · obtain ⟨-, hra⟩ := List.append_inj' h rfl
        obtain rfl : r = a := by simpa using hra
        exact .inl ⟨hkind, hnames⟩
      · rw [List.concat_eq_append, ← List.cons_append, ← List.append_assoc] at h
        obtain ⟨hrs, hrb⟩ := List.append_inj' h rfl
        obtain rfl : r = b := by simpa using hrb
        refine .inr ⟨hpost r (by simp), pre, a, post', hrs, hkind, hnames, fun s hs => ?_⟩
        exact hpost s (by simp [hs])
    rcases split hp with ⟨hk, hnp⟩ | ⟨hk, hp'⟩ <;> rcases split hq with ⟨hk', hnq⟩ | ⟨hk', hq'⟩
    · exact Option.some.inj (hnp.symm.trans hnq)
    · exact absurd hk hk'
    · exact absurd hk' hk
    · exact ih hp' hq'

/-- The outcome of the permit is not open. -/
def Settled (d : PermitDisposition) : Prop := d ≠ .intentDurable ∧ d ≠ .consumingOutcomeUnknown

/-- What the journal shows of a job that stands at `w`. -/
def Shows (rs : List JournalRecord) : Option (String × Stage) → Prop
  | none => (∀ r ∈ rs, factValue r.facts Fact.PERMIT_ID = none) ∧
      ∀ r ∈ rs, r.kind ≠ .stepPermitAccepted
  | some (p, s) => newestPermit rs = some p ∧ LastPermit rs p ∧
      (∀ s' : Stage, Has rs p s'.kind ↔ s'.index ≤ s.index) ∧ s.Fits (standing p rs) ∧
      ∀ q, q ≠ p → Settled (standing q rs)

theorem newestPermit_concat (rs : List JournalRecord) (r : JournalRecord) :
    newestPermit (rs ++ [r]) = (factValue r.facts Fact.PERMIT_ID).or (newestPermit rs) := by
  unfold newestPermit
  rw [List.reverse_append, List.reverse_singleton, List.singleton_append, List.findSome?_cons]
  cases factValue r.facts Fact.PERMIT_ID <;> rfl

theorem standing_concat_of_not_names (h : ¬ Names q r) :
    standing q (rs ++ [r]) = standing q rs := by
  rw [standing_concat, if_neg h]

theorem not_names_of_ne (h : Names p r) (hne : q ≠ p) :
    ¬ Names q r := fun hq => hne (Option.some.inj (hq.symm.trans h))

theorem not_names_of_silent (h : factValue r.facts Fact.PERMIT_ID = none) (q : String) :
    ¬ Names q r := by
  unfold Names
  rw [h]
  exact nofun

/-- The ledger follows the step from one stage to the next. -/
theorem Stage.Fits.advance {j p : String} {s s' : Stage} {r : JournalRecord} {d : PermitDisposition}
    (h : s.Fits d) (hnext : s.next = some s') (hr : StepRecord j p s' r) :
    s'.Fits (Recovery.advance r d) := by
  have hkind := hr.kind
  unfold Recovery.advance
  cases s with
  | accepted | intent | consuming =>
    cases hnext
    obtain rfl : d = _ := h
    rw [hkind]
    rfl
  | started =>
    cases hnext
    obtain rfl : d = _ := h
    obtain ⟨receipt, hne, hfact⟩ := hr.receipt (.inl rfl)
    rw [hkind]
    refine ⟨receipt, ?_⟩
    show receiptDisposition r.facts = _
    simp [receiptDisposition, hfact, hne, Option.filter]
  | received | consumed =>
    cases hnext
    obtain ⟨receipt, rfl⟩ := h
    rw [hkind]
    exact ⟨receipt, rfl⟩
  | checkpointed => cases hnext

/-- A record that names no permit changes nothing that is shown. -/
theorem Shows.aside (h : Shows rs w) (hr : Aside r) :
    Shows (rs ++ [r]) w := by
  have hnot := not_names_of_silent hr.silent
  have haccepted : r.kind ≠ .stepPermitAccepted := hr.kind .accepted
  rcases w with _ | ⟨p, s⟩
  · obtain ⟨hsilent, hnone⟩ := h
    exact ⟨forall_mem_concat.mpr ⟨hsilent, hr.silent⟩, forall_mem_concat.mpr ⟨hnone, haccepted⟩⟩
  · obtain ⟨hnewest, hlast, hhas, hfits, hothers⟩ := h
    refine ⟨?_, hlast.concat haccepted, fun s' => ?_, ?_, fun q hq => ?_⟩
    · rw [newestPermit_concat, hr.silent]
      exact hnewest
    · rw [has_concat, hhas s']
      exact or_iff_left fun hn => hnot p hn.2
    · rw [standing_concat_of_not_names (hnot p)]
      exact hfits
    · rw [standing_concat_of_not_names (hnot q)]
      exact hothers q hq

variable {s : Stage}

/-- A record for the current permit, other than an acceptance. -/
theorem Shows.record {s' : Stage} (h : Shows rs (some (p, s)))
    (hnames : Names p r) (hkind : r.kind ≠ .stepPermitAccepted)
    (hhas : ∀ x : Stage, x.index ≤ s'.index ↔ x.index ≤ s.index ∨ r.kind = x.kind)
    (hfits : s'.Fits (advance r (standing p rs))) : Shows (rs ++ [r]) (some (p, s')) := by
  obtain ⟨-, hlast, hbefore, -, hothers⟩ := h
  refine ⟨?_, hlast.concat hkind, fun x => ?_, ?_, fun q hq => ?_⟩
  · rw [newestPermit_concat, hnames]
    rfl
  · rw [has_concat, hbefore x, hhas x, and_iff_left hnames]
  · rw [standing_concat, if_pos hnames]
    exact hfits
  · rw [standing_concat_of_not_names (not_names_of_ne hnames hq)]
    exact hothers q hq

theorem Shows.settled (h : Shows rs w) (hready : Ready w) (q : String) :
    Settled (standing q rs) := by
  rcases w with _ | ⟨p, s⟩
  · have hunseen := standing_eq_unseen fun r hr => not_names_of_silent (h.1 r hr) q
    rw [hunseen]
    exact ⟨nofun, nofun⟩
  · obtain rfl : s = .checkpointed := hready
    obtain ⟨-, -, -, ⟨receipt, hfits⟩, hothers⟩ := h
    by_cases hq : q = p
    · rw [hq, hfits]
      exact ⟨nofun, nofun⟩
    · exact hothers q hq

theorem Shows.accept {j p : String} {w : Option (String × Stage)}
    {r : JournalRecord} (h : Shows rs w) (hready : Ready w) (hfresh : ∀ s ∈ rs, ¬ Names p s)
    (hr : StepRecord j p .accepted r) : Shows (rs ++ [r]) (some (p, .accepted)) := by
  refine ⟨?_, lastPermit_concat_accepted hr.kind hr.names, fun x => ?_, ?_, fun q hq => ?_⟩
  · rw [newestPermit_concat, hr.names]
    rfl
  · have hnone : ¬ Has rs p x.kind := fun ⟨s, hs, _, hn⟩ => hfresh s hs hn
    have hzero : x.index ≤ Stage.accepted.index ↔ r.kind = x.kind := by
      rw [hr.kind]
      cases x <;> simp [Stage.index, Stage.kind]
    rw [has_concat, hzero, and_iff_left hr.names]
    exact or_iff_right hnone
  · rw [standing_concat, if_pos hr.names, standing_eq_unseen hfresh]
    unfold Recovery.advance
    rw [hr.kind]
    rfl
  · rw [standing_concat_of_not_names (not_names_of_ne hr.names hq)]
    exact h.settled hready q

/-- **A serial journal shows where the job stands**: induction over its records. -/
theorem Serial.shows (h : Serial j rs w) : Shows rs w := by
  induction h with
  | created hkind _ hsilent => exact ⟨by simpa using hsilent, by simp [hkind]⟩
  | aside _ hr ih => exact ih.aside hr
  | @evidence rs p r _ hr ih =>
    have hno : ∀ x : Stage, r.kind ≠ x.kind := by
      intro x
      rw [hr.kind]
      cases x <;> exact nofun
    refine ih.record hr.names (hno .accepted) (fun x => ?_) ?_
    · exact (or_iff_left (hno x)).symm
    · unfold Recovery.advance
      rw [hr.kind]
      exact ih.2.2.2.1
  | accept _ hready hfresh hr ih => exact ih.accept hready hfresh hr
  | @advance rs p s s' r _ hnext hr ih =>
    have hindex := Stage.index_next hnext
    refine ih.record hr.names ?_ (fun x => ?_) (ih.2.2.2.1.advance hnext hr)
    · intro hk
      have hfirst : s' = .accepted := Stage.kind_injective (hr.kind.symm.trans hk)
      rw [hfirst] at hindex
      simp [Stage.index] at hindex
    · rw [hindex, hr.kind]
      constructor
      · intro hx
        by_cases hlt : x.index ≤ s.index
        · exact .inl hlt
        · have heq : s'.index = x.index := by omega
          exact .inr (congrArg Stage.kind (Stage.index_injective heq))
      · rintro (hx | hx)
        · omega
        · obtain rfl := Stage.kind_injective hx
          exact hindex.le

/-! ### What `derive` reads -/

/-- The journal creates `j`, concludes nothing, and every record that names a permit is one of `j`. -/
structure Owns (j : String) (rs : List JournalRecord) : Prop where
  created : ∃ r ∈ rs, r.kind = .jobCreated ∧ createdJob r = j
  running : ∀ r ∈ rs, r.kind ≠ .outcomeClassified
  own : ∀ r ∈ rs, ∀ p, Names p r → factValue r.facts Fact.JOB_ID = some j

theorem Owns.concat (h : Owns j rs) (hrunning : r.kind ≠ .outcomeClassified)
    (hown : ∀ p, Names p r → factValue r.facts Fact.JOB_ID = some j) : Owns j (rs ++ [r]) := by
  obtain ⟨c, hc, hcreated⟩ := h.created
  exact ⟨⟨c, List.mem_append_left _ hc, hcreated⟩, forall_mem_concat.mpr ⟨h.running, hrunning⟩,
    forall_mem_concat.mpr ⟨h.own, hown⟩⟩

theorem Serial.owns (h : Serial j rs w) : Owns j rs := by
  have running : ∀ {p : String} {s : Stage} {r : JournalRecord}, StepRecord j p s r →
      r.kind ≠ .outcomeClassified := by
    intro p s r hr
    rw [hr.kind]
    cases s <;> exact nofun
  induction h with
  | @created r hkind hjob hsilent =>
    refine ⟨⟨r, List.mem_singleton_self r, hkind, hjob⟩, ?_, ?_⟩ <;> rw [List.forall_mem_singleton]
    · rw [hkind]
      exact nofun
    · exact fun p hp => absurd hp (not_names_of_silent hsilent p)
  | aside _ hr ih => exact ih.concat hr.outcome fun p hp => absurd hp (not_names_of_silent hr.silent p)
  | evidence _ hr ih => exact ih.concat (by rw [hr.kind]; exact nofun) fun _ _ => hr.job
  | accept _ _ _ hr ih => exact ih.concat (running hr) fun _ _ => hr.job
  | advance _ _ hr ih => exact ih.concat (running hr) fun _ _ => hr.job

section

variable {f : JournalRecord → Bool}

/-- What is read record by record, and ignores those that name no permit, ignores a filter that lets
all others pass. -/
theorem eq_filter {α : Type} {F : List JournalRecord → α} {g : JournalRecord → α → α}
    (hF : ∀ rs r, F (rs ++ [r]) = g r (F rs)) (hg : ∀ r a, (∀ p, ¬ Names p r) → g r a = a)
    (h : ∀ r ∈ rs, ∀ p, Names p r → f r = true) : F (rs.filter f) = F rs := by
  induction rs using List.reverseRecOn with
  | nil => rfl
  | append_singleton rs r ih =>
    obtain ⟨h, hr⟩ := forall_mem_concat.mp h
    rw [List.filter_append, List.filter_singleton, hF]
    by_cases hf : f r = true
    · rw [hf, cond_true, hF, ih h]
    · rw [hg r _ fun p hp => hf (hr p hp), ← ih h]
      simp [hf]

theorem newestPermit_filter (h : ∀ r ∈ rs, ∀ p, Names p r → f r = true) :
    newestPermit (rs.filter f) = newestPermit rs := by
  refine eq_filter newestPermit_concat (fun r a hr => ?_) h
  rw [Option.eq_none_iff_forall_ne_some.mpr hr, Option.none_or]

theorem standing_filter (h : ∀ r ∈ rs, ∀ p, Names p r → f r = true) (p : String) :
    standing p (rs.filter f) = standing p rs :=
  eq_filter (standing_concat p)
    (fun _ _ hr => if_neg (hr p)) h

theorem isCheckpointed_iff (rs : List JournalRecord) (p : String) :
    isCheckpointed rs p = true ↔ Has rs p .stepCheckpointed := by
  unfold isCheckpointed Has Names
  simp

theorem isCheckpointed_filter (h : ∀ r ∈ rs, ∀ p, Names p r → f r = true) (p : String) :
    isCheckpointed (rs.filter f) p = isCheckpointed rs p := by
  rw [Bool.eq_iff_iff, isCheckpointed_iff, isCheckpointed_iff]
  constructor
  · rintro ⟨r, hr, hk⟩
    exact ⟨r, List.mem_of_mem_filter hr, hk⟩
  · rintro ⟨r, hr, hk, hn⟩
    exact ⟨r, List.mem_filter.mpr ⟨hr, h r hr p hn⟩, hk, hn⟩

end

/-- The row for a job that is created and not concluded. -/
def row (rs : List JournalRecord) : CrashDisposition :=
  match newestPermit rs with
  | none => .safeToCancel
  | some permitId => permitRow permitId (isCheckpointed rs permitId) (standing permitId rs)

variable {single : Bool}

theorem belongs_of_job (h : factValue r.facts Fact.JOB_ID = some j) :
    belongs single j r = true := by
  simp [belongs, h]

theorem belongs_of_created (h : createdJob r = j) : belongs single j r = true := by
  unfold createdJob at h
  unfold belongs
  rcases hv : factValue r.facts Fact.JOB_ID with _ | k
  · rw [hv] at h
    simp only [Option.getD_none] at h
    simp [h]
  · rw [hv] at h
    simpa using h

/-- Whether the file is that of one job or of several makes no difference. -/
theorem Owns.derive_eq (h : Owns j rs) : derive ⟨rs⟩ j = row rs := by
  have hkeep : ∀ r ∈ rs, ∀ p, Names p r → belongs (isSingleJobJournal rs j) j r = true :=
    fun r hr p hp => belongs_of_job (h.own r hr p hp)
  obtain ⟨c, hc, hkind, hjob⟩ := h.created
  have hcreated : (recordsOf rs j).any (fun r => r.kind = .jobCreated) = true :=
    List.any_eq_true.mpr ⟨c, List.mem_filter.mpr ⟨hc, belongs_of_created hjob⟩, by simp [hkind]⟩
  have hconclusion : conclusion (recordsOf rs j) = none := by
    unfold conclusion
    rw [List.findSome?_eq_none_iff]
    intro r hr
    have hrunning := h.running r (List.mem_of_mem_filter hr)
    split
    · contradiction
    · rfl
  have hnewest : newestPermit (recordsOf rs j) = newestPermit rs := newestPermit_filter hkeep
  have hstanding : ∀ p, (PermitLedger.fromRecords (recordsOf rs j)).disposition p = standing p rs :=
    fun p => (PermitLedger.disposition_fromRecords _ p).trans (standing_filter hkeep p)
  have hcheckpoint : ∀ p, isCheckpointed (recordsOf rs j) p = isCheckpointed rs p :=
    isCheckpointed_filter hkeep
  rcases hp : newestPermit rs with _ | p
  · simp [derive, row, hcreated, hconclusion, hnewest, hp]
  · simp [derive, row, hcreated, hconclusion, hnewest, hp, hstanding, hcheckpoint]

/-- The row for a job that stands at `w`. -/
def rowAt : Option (String × Stage) → CrashDisposition
  | none => .safeToCancel
  | some (p, .accepted) => .dispatchForbiddenUntilIntentDurable p
  | some (p, .intent) | some (p, .consuming) | some (p, .started) => .outcomeUnknown p
  | some (p, .received) | some (p, .consumed) => .receiptDurableCheckpointMissing p
  | some (_, .checkpointed) => .replayFromCheckpoint

theorem Shows.row_eq (h : Shows rs w) : row rs = rowAt w := by
  rcases w with _ | ⟨p, s⟩
  · have hnone : newestPermit rs = none := by
      unfold newestPermit
      rw [List.findSome?_eq_none_iff]
      intro r hr
      exact h.1 r (List.mem_reverse.mp hr)
    unfold row
    rw [hnone]
    rfl
  · obtain ⟨hnewest, -, hhas, hfits, -⟩ := h
    have hcheckpoint : isCheckpointed rs p = true ↔ Stage.checkpointed.index ≤ s.index :=
      (isCheckpointed_iff rs p).trans (hhas .checkpointed)
    unfold row
    rw [hnewest]
    cases s with
    | accepted | intent | consuming | started =>
      have hd : standing p rs = _ := hfits
      simp only [hd, permitRow, rowAt]
    | received | consumed =>
      obtain ⟨receipt, hd⟩ := hfits
      have hno : ¬ isCheckpointed rs p = true := by rw [hcheckpoint]; decide
      simp only [hd, permitRow, hno, Bool.false_eq_true, if_false, rowAt]
    | checkpointed =>
      obtain ⟨receipt, hd⟩ := hfits
      have hyes : isCheckpointed rs p = true := by rw [hcheckpoint]
      simp only [hd, permitRow, hyes, if_true, rowAt]

/-- **The row of the crash table is the state of the automaton.** -/
theorem Serial.derive_eq (h : Serial j rs w) : derive ⟨rs⟩ j = rowAt w :=
  h.owns.derive_eq.trans h.shows.row_eq

/-- The ledger has seen every permit that a serial journal names. -/
theorem Serial.seen (h : Serial j rs w) :
    ∀ r ∈ rs, ∀ p, Names p r → standing p rs ≠ .unseen := by
  -- a record for the permit at which the journal stands
  have current : ∀ {rs : List JournalRecord} {p q : String} {s : Stage} {r : JournalRecord},
      Shows rs (some (p, s)) → Names p r → Names q r → standing q rs ≠ .unseen := by
    intro rs p q s r hshows hp hq hunseen
    obtain rfl : p = q := Option.some.inj (hp.symm.trans hq)
    have hfits := hshows.2.2.2.1
    rw [hunseen] at hfits
    exact s.not_fits_unseen hfits
  have step : ∀ {rs : List JournalRecord} {r : JournalRecord},
      (∀ x ∈ rs, ∀ p, Names p x → standing p rs ≠ .unseen) →
      (∀ p, Names p r → standing p (rs ++ [r]) ≠ .unseen) →
      ∀ x ∈ rs ++ [r], ∀ p, Names p x → standing p (rs ++ [r]) ≠ .unseen := by
    intro rs r hold hnew
    refine forall_mem_concat.mpr ⟨fun x hx p hp hunseen => ?_, hnew⟩
    have hmono := rank_standing_mono (List.prefix_append rs [r]) p
    rw [hunseen] at hmono
    exact hold x hx p hp (PermitDisposition.rank_eq_zero.mp (Nat.le_zero.mp hmono))
  induction h with
  | created _ _ hsilent =>
    rw [List.forall_mem_singleton]
    exact fun p hp => absurd hp (not_names_of_silent hsilent p)
  | aside _ hr ih => exact step ih fun p hp => absurd hp (not_names_of_silent hr.silent p)
  | evidence h hr ih => exact step ih fun _ => current (Serial.evidence h hr).shows hr.names
  | accept h hready hfresh hr ih =>
    exact step ih fun _ => current (Serial.accept h hready hfresh hr).shows hr.names
  | advance h hnext hr ih =>
    exact step ih fun _ => current (Serial.advance h hnext hr).shows hr.names

/-! ### The rows -/

/-- The rows of the crash table, read off the records: `p` is the permit of the last acceptance. -/
structure Exact (rs : List JournalRecord) (d : CrashDisposition) : Prop where
  safe : d = .safeToCancel ↔ ∀ r ∈ rs, r.kind ≠ .stepPermitAccepted
  forbidden : ∀ p, d = .dispatchForbiddenUntilIntentDurable p ↔
    LastPermit rs p ∧ Has rs p .stepPermitAccepted ∧ ¬ Has rs p .stepIntentRecorded
  unknown : ∀ p, d = .outcomeUnknown p ↔
    LastPermit rs p ∧ Has rs p .stepIntentRecorded ∧ ¬ Has rs p .semanticReceiptRecorded
  receipt : ∀ p, d = .receiptDurableCheckpointMissing p ↔
    LastPermit rs p ∧ Has rs p .semanticReceiptRecorded ∧ ¬ Has rs p .stepCheckpointed
  otherwise : d = .replayFromCheckpoint ↔ (∃ r ∈ rs, r.kind = .stepPermitAccepted) ∧
    ∀ p, LastPermit rs p → ¬ (Has rs p .stepPermitAccepted ∧ ¬ Has rs p .stepIntentRecorded) ∧
      ¬ (Has rs p .stepIntentRecorded ∧ ¬ Has rs p .semanticReceiptRecorded) ∧
      ¬ (Has rs p .semanticReceiptRecorded ∧ ¬ Has rs p .stepCheckpointed)
  unresolved : (PermitLedger.fromRecords rs).unresolved ≠ [] → ∃ p, d = .outcomeUnknown p

/-- A row about the current permit, by the two records that delimit it. -/
theorem Shows.row_iff (h : Shows rs (some (p, s)))
    (d : String → CrashDisposition) (lo hi : Stage) (hinj : ∀ q q', d q = d q' → q = q')
    (hrow : rowAt (some (p, s)) = d p ↔ lo.index ≤ s.index ∧ s.index < hi.index)
    (hother : ∀ q, rowAt (some (p, s)) = d q → rowAt (some (p, s)) = d p) (q : String) :
    rowAt (some (p, s)) = d q ↔ LastPermit rs q ∧ Has rs q lo.kind ∧ ¬ Has rs q hi.kind := by
  obtain ⟨-, hlast, hhas, -, -⟩ := h
  constructor
  · intro hq
    obtain rfl : p = q := hinj _ _ ((hother q hq).symm.trans hq)
    obtain ⟨hlo, hhi⟩ := hrow.mp hq
    exact ⟨hlast, (hhas lo).mpr hlo, fun hn => absurd ((hhas hi).mp hn) (by omega)⟩
  · rintro ⟨hq, hlo, hhi⟩
    obtain rfl := hlast.unique hq
    refine hrow.mpr ⟨(hhas lo).mp hlo, ?_⟩
    by_contra hle
    exact hhi ((hhas hi).mpr (by omega))

theorem exists_not_settled
    (h : (PermitLedger.fromRecords rs).unresolved ≠ []) : ∃ q, ¬ Settled (standing q rs) := by
  obtain ⟨q, hq⟩ := List.exists_mem_of_ne_nil _ h
  refine ⟨q, fun hs => ?_⟩
  rcases PermitLedger.mem_unresolved.mp hq with hi | hc
  · exact hs.1 hi
  · exact hs.2 hc

theorem Stage.Fits.settled {d : PermitDisposition} (h : s.Fits d)
    (hs : s = .accepted ∨ Stage.received.index ≤ s.index) : Settled d := by
  cases s with
  | accepted =>
    obtain rfl : d = _ := h
    exact ⟨nofun, nofun⟩
  | intent | consuming | started => exact absurd hs (by decide)
  | received | consumed | checkpointed =>
    obtain ⟨receipt, rfl⟩ := h
    exact ⟨nofun, nofun⟩

theorem Shows.exact_none (h : Shows rs none) :
    Exact rs (rowAt none) := by
  have hlast : ∀ p, ¬ LastPermit rs p := by
    rintro p ⟨pre, r, post, rfl, hkind, -⟩
    exact h.2 r (by simp) hkind
  refine ⟨iff_of_true rfl h.2, fun p => ?_, fun p => ?_, fun p => ?_, ?_, fun hopen => ?_⟩
  · exact iff_of_false nofun fun hp => hlast p hp.1
  · exact iff_of_false nofun fun hp => hlast p hp.1
  · exact iff_of_false nofun fun hp => hlast p hp.1
  · exact iff_of_false nofun fun ⟨⟨r, hr, hkind⟩, _⟩ => h.2 r hr hkind
  · obtain ⟨q, hq⟩ := exists_not_settled hopen
    exact absurd (h.settled trivial q) hq

theorem Shows.exact_some (h : Shows rs (some (p, s))) :
    Exact rs (rowAt (some (p, s))) := by
  obtain ⟨-, hlast, hhas, hfits, hothers⟩ := id h
  have haccepted : Has rs p .stepPermitAccepted := (hhas .accepted).mpr (Nat.zero_le _)
  have hforbidden := h.row_iff .dispatchForbiddenUntilIntentDurable .accepted .intent
    (fun _ _ hq => by cases hq; rfl)
    (by cases s <;> simp [rowAt, Stage.index]) (by cases s <;> simp [rowAt])
  have hunknown := h.row_iff .outcomeUnknown .intent .received
    (fun _ _ hq => by cases hq; rfl)
    (by cases s <;> simp [rowAt, Stage.index]) (by cases s <;> simp [rowAt])
  have hreceipt := h.row_iff .receiptDurableCheckpointMissing .received .checkpointed
    (fun _ _ hq => by cases hq; rfl)
    (by cases s <;> simp [rowAt, Stage.index]) (by cases s <;> simp [rowAt])
  obtain ⟨r, hr, hkind, -⟩ := haccepted
  refine ⟨?_, hforbidden, hunknown, hreceipt, ?_, fun hopen => ?_⟩
  · refine iff_of_false ?_ fun hno => hno r hr hkind
    cases s <;> exact nofun
  · constructor
    · intro hrow
      refine ⟨⟨r, hr, hkind⟩, fun q hq => ⟨fun hc => ?_, fun hc => ?_, fun hc => ?_⟩⟩
      · exact absurd (hrow.symm.trans ((hforbidden q).mpr ⟨hq, hc⟩)) nofun
      · exact absurd (hrow.symm.trans ((hunknown q).mpr ⟨hq, hc⟩)) nofun
      · exact absurd (hrow.symm.trans ((hreceipt q).mpr ⟨hq, hc⟩)) nofun
    · rintro ⟨-, hno⟩
      obtain ⟨h₁, h₂, h₃⟩ := hno p hlast
      have hall : Stage.checkpointed.index ≤ s.index := by
        rw [← hhas .checkpointed]
        have haccepted : Has rs p .stepPermitAccepted := (hhas .accepted).mpr (Nat.zero_le _)
        have hintent : Has rs p .stepIntentRecorded := by
          by_contra hn
          exact h₁ ⟨haccepted, hn⟩
        have hreceived : Has rs p .semanticReceiptRecorded := by
          by_contra hn
          exact h₂ ⟨hintent, hn⟩
        by_contra hn
        exact h₃ ⟨hreceived, hn⟩
      cases s <;> first | rfl | exact absurd hall (by decide)
  · -- only the current permit can be open, and then its stage is one of the unknown ones
    obtain ⟨q, hq⟩ := exists_not_settled hopen
    by_cases hqp : q = p
    · subst hqp
      have hstage : ¬ (s = .accepted ∨ Stage.received.index ≤ s.index) := fun hs =>
        hq (hfits.settled hs)
      refine ⟨q, ?_⟩
      cases s <;> first | rfl | exact absurd (by decide) hstage
    · exact absurd (hothers q hqp) hq

/-- **Crash windows are exact** for the journal of a serial job. -/
theorem Serial.exact (h : Serial j rs w) : Exact rs (derive ⟨rs⟩ j) := by
  rw [h.derive_eq]
  rcases w with _ | ⟨p, s⟩
  · exact h.shows.exact_none
  · exact h.shows.exact_some

end ArkForge.Engine.CrashWindow
