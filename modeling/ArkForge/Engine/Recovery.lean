import ArkForge.Engine.Chain
import ArkForge.Lib.OrdMap
import Mathlib.Data.String.Basic

/-! # What a replayed journal says

`PermitLedger` folds the journal into one disposition per permit. The fold treats each permit on its
own, so the disposition of `p` is the fold `standing` over the records that name `p`
(`disposition_fromRecords`), and no record moves a permit back (`rank_standing_append`).
`CrashDisposition.derive` picks the row of the crash table for one job. -/

namespace ArkForge.Engine.Recovery

open Lib.Ordered Lib.Result
open Core.Ids
open Record Chain

/-! ### Facts -/

namespace Fact

def JOB_ID : String := "jobId"
def PLAN_ID : String := "planId"
def STEP_ID : String := "stepId"
def ATTEMPT_ID : String := "attemptId"
def PERMIT_ID : String := "permitId"
def RECEIPT_DIGEST : String := "receiptDigest"

end Fact

def factValue (facts : List (OpaqueId × String)) (key : String) : Option String :=
  (facts.find? fun f => f.1.value = key).map Prod.snd

theorem factValue_nil (key : String) : factValue [] key = none := rfl

theorem factValue_cons (f : OpaqueId × String) (facts : List (OpaqueId × String)) (key : String) :
    factValue (f :: facts) key = if f.1.value = key then some f.2 else factValue facts key := by
  unfold factValue
  by_cases h : f.1.value = key <;> simp [h]

variable {facts : List (OpaqueId × String)}

theorem factValue_append_of_some {extra : List (OpaqueId × String)} {key value : String}
    (h : factValue facts key = some value) : factValue (facts ++ extra) key = some value := by
  unfold factValue at h ⊢
  obtain ⟨f, hf, rfl⟩ := Option.map_eq_some_iff.mp h
  rw [List.find?_append, hf]
  rfl

theorem factValue_eq_some (hnd : (facts.map Prod.fst).Nodup) {key value : String} :
    factValue facts key = some value ↔ ∃ k, k.value = key ∧ (k, value) ∈ facts := by
  refine find?_eq_some_iff (P := fun k : OpaqueId => k.value = key) hnd (fun k k' hk hk' => ?_)
    fun f => decide_eq_true_iff
  exact OpaqueId.ext (hk.trans hk'.symm)

/-- Facts under distinct keys read the same in any order. -/
theorem factValue_perm {facts' : List (OpaqueId × String)} (hp : facts.Perm facts')
    (hnd : (facts.map Prod.fst).Nodup) (key : String) :
    factValue facts key = factValue facts' key := by
  have hnd' := ((hp.map Prod.fst).nodup_iff).mp hnd
  apply Option.ext
  intro value
  simp only [factValue_eq_some hnd, factValue_eq_some hnd', hp.mem_iff]

theorem forall_mem_concat {α : Type} {P : α → Prop} {l : List α} {a : α} :
    (∀ x ∈ l ++ [a], P x) ↔ (∀ x ∈ l, P x) ∧ P a := by
  rw [List.forall_mem_append, List.forall_mem_singleton]

theorem exists_mem_concat {α : Type} {P : α → Prop} {l : List α} {a : α} :
    (∃ x ∈ l ++ [a], P x) ↔ (∃ x ∈ l, P x) ∨ P a := by
  simp

/-! ### The permit ledger -/

/-- Where a single permit stands. -/
inductive PermitDisposition where
  | unseen
  | acceptedIntentNotDurable
  | intentDurable
  | consumingOutcomeUnknown
  | consumed (receiptDigest : String)
  deriving DecidableEq

/-- What a receipt record makes of a permit: a record that claims a receipt but cannot name it
settles nothing. -/
def receiptDisposition (facts : List (OpaqueId × String)) : PermitDisposition :=
  match (factValue facts Fact.RECEIPT_DIGEST).filter (· ≠ "") with
  | some receipt => .consumed receipt
  | none => .consumingOutcomeUnknown

def advance (record : JournalRecord) (entry : PermitDisposition) : PermitDisposition :=
  match record.kind with
  | .stepPermitAccepted =>
    match entry with
    | .unseen => .acceptedIntentNotDurable
    | _ => entry
  | .stepIntentRecorded =>
    match entry with
    | .unseen | .acceptedIntentNotDurable | .intentDurable => .intentDurable
    | _ => entry
  | .permitConsuming | .externalDispatchStarted =>
    match entry with
    | .consumed _ => entry
    | _ => .consumingOutcomeUnknown
  | .semanticReceiptRecorded | .permitConsumed =>
    match entry with
    | .consumed _ => entry
    | _ => receiptDisposition record.facts
  | _ => entry

structure PermitLedger where
  permits : OrdMap String PermitDisposition

namespace PermitLedger

def replay (ledger : PermitLedger) (record : JournalRecord) : PermitLedger :=
  match factValue record.facts Fact.PERMIT_ID with
  | none => ledger
  | some permitId => ⟨ledger.permits.alter permitId fun e => advance record (e.getD .unseen)⟩

def fromRecords (records : List JournalRecord) : PermitLedger :=
  records.foldl replay ⟨.empty⟩

def fromJournal (journal : Journal) : PermitLedger := fromRecords journal.records

def disposition (ledger : PermitLedger) (permitId : String) : PermitDisposition :=
  (ledger.permits.get permitId).getD .unseen

/-- Permits whose outcome the journal cannot settle, in the order of their ids. -/
def unresolved (ledger : PermitLedger) : List String :=
  (ledger.permits.entries.filter fun e =>
    e.2 = .intentDurable ∨ e.2 = .consumingOutcomeUnknown).map Prod.fst

end PermitLedger

def Names (p : String) (record : JournalRecord) : Prop :=
  factValue record.facts Fact.PERMIT_ID = some p

instance (p : String) (record : JournalRecord) : Decidable (Names p record) :=
  inferInstanceAs (Decidable (_ = _))

def standingFrom (p : String) (entry : PermitDisposition) (records : List JournalRecord) :
    PermitDisposition :=
  records.foldl (fun e r => if Names p r then advance r e else e) entry

def standing (p : String) (records : List JournalRecord) : PermitDisposition :=
  standingFrom p .unseen records

theorem standing_append (p : String) (records more : List JournalRecord) :
    standing p (records ++ more) = standingFrom p (standing p records) more :=
  List.foldl_append

theorem standing_concat (p : String) (records : List JournalRecord) (r : JournalRecord) :
    standing p (records ++ [r]) =
      if Names p r then advance r (standing p records) else standing p records :=
  standing_append p records [r]

namespace PermitLedger

theorem disposition_replay (ledger : PermitLedger) (record : JournalRecord) (p : String) :
    (ledger.replay record).disposition p =
      if Names p record then advance record (ledger.disposition p) else ledger.disposition p := by
  rcases h : factValue record.facts Fact.PERMIT_ID with _ | q
  · have hnot : ¬ Names p record := by simp [Names, h]
    have hsame : ledger.replay record = ledger := by simp [replay, h]
    rw [hsame, if_neg hnot]
  · have hstep : ledger.replay record =
        ⟨ledger.permits.alter q fun e => advance record (e.getD .unseen)⟩ := by simp [replay, h]
    have hiff : Names p record ↔ p = q := by simp [Names, h, eq_comm]
    unfold disposition
    rw [hstep, OrdMap.get_alter]
    by_cases hq : p = q
    · rw [if_pos hq, if_pos (hiff.mpr hq)]
      rfl
    · rw [if_neg hq, if_neg fun hn => hq (hiff.mp hn)]

theorem disposition_fromRecords (records : List JournalRecord) (p : String) :
    (fromRecords records).disposition p = standing p records := by
  induction records using List.reverseRecOn with
  | nil => rfl
  | append_singleton records r ih =>
    have hstep : fromRecords (records ++ [r]) = (fromRecords records).replay r := List.foldl_append
    rw [hstep, disposition_replay, standing_concat, ih]

theorem mem_unresolved {records : List JournalRecord} {p : String} :
    p ∈ (fromRecords records).unresolved ↔
      standing p records = .intentDurable ∨ standing p records = .consumingOutcomeUnknown := by
  rw [← disposition_fromRecords]
  unfold unresolved disposition
  constructor
  · intro h
    obtain ⟨e, he, rfl⟩ := List.mem_map.mp h
    obtain ⟨hmem, hopen⟩ := List.mem_filter.mp he
    rw [OrdMap.mem_entries.mp hmem]
    simpa using hopen
  · intro h
    cases hget : (fromRecords records).permits.get p with
    | none => simp [hget] at h
    | some d =>
      rw [hget] at h
      refine List.mem_map.mpr ⟨(p, d), List.mem_filter.mpr ⟨OrdMap.mem_entries.mpr hget, ?_⟩, rfl⟩
      simpa using h

end PermitLedger

/-! ### No record moves a permit back -/

def PermitDisposition.rank : PermitDisposition → ℕ
  | unseen => 0
  | acceptedIntentNotDurable => 1
  | intentDurable => 2
  | consumingOutcomeUnknown => 3
  | consumed _ => 4

variable {d : PermitDisposition}

theorem PermitDisposition.rank_eq_zero : d.rank = 0 ↔ d = .unseen := by
  cases d <;> simp [rank]

/-- From `consumingOutcomeUnknown` on, the permit may have been used. -/
theorem PermitDisposition.three_le_rank :
    3 ≤ d.rank ↔ d = .consumingOutcomeUnknown ∨ ∃ receipt, d = .consumed receipt := by
  cases d <;> simp [rank]

theorem rank_le_three (h : ∀ receipt, d = .consumed receipt → False) : d.rank ≤ 3 := by
  rcases d with _ | _ | _ | _ | receipt <;> simp_all [PermitDisposition.rank]

theorem three_le_rank_receiptDisposition (facts : List (OpaqueId × String)) :
    3 ≤ (receiptDisposition facts).rank := by
  unfold receiptDisposition
  split <;> simp [PermitDisposition.rank]

theorem rank_le_advance (r : JournalRecord) (e : PermitDisposition) :
    e.rank ≤ (advance r e).rank := by
  have hreceipt := three_le_rank_receiptDisposition r.facts
  unfold advance
  split
  · split <;> simp [PermitDisposition.rank]
  · split <;> simp [PermitDisposition.rank]
  · split
    · exact le_rfl
    · exact rank_le_three ‹_›
  · split
    · exact le_rfl
    · exact rank_le_three ‹_›
  · split
    · exact le_rfl
    · exact le_trans (rank_le_three ‹_›) hreceipt
  · split
    · exact le_rfl
    · exact le_trans (rank_le_three ‹_›) hreceipt
  · exact le_rfl

theorem rank_le_standingFrom (p : String) (e : PermitDisposition) (records : List JournalRecord) :
    e.rank ≤ (standingFrom p e records).rank := by
  induction records generalizing e with
  | nil => exact le_rfl
  | cons r records ih =>
    have hstep : e.rank ≤ (if Names p r then advance r e else e).rank := by
      split_ifs
      · exact rank_le_advance r e
      · exact le_rfl
    exact hstep.trans (ih _)

variable {records : List JournalRecord}

theorem rank_standing_mono {records' : List JournalRecord} (h : records <+: records') (p : String) :
    (standing p records).rank ≤ (standing p records').rank := by
  obtain ⟨more, rfl⟩ := h
  rw [standing_append]
  exact rank_le_standingFrom p _ more

variable {p : String}

theorem standingFrom_of_not_names (h : ∀ r ∈ records, ¬ Names p r) (e : PermitDisposition) :
    standingFrom p e records = e := by
  induction records using List.reverseRecOn with
  | nil => rfl
  | append_singleton records r ih =>
    obtain ⟨hrecords, hr⟩ := forall_mem_concat.mp h
    rw [standingFrom, List.foldl_append, List.foldl_cons, if_neg hr]
    exact ih hrecords

theorem standing_eq_unseen (h : ∀ r ∈ records, ¬ Names p r) : standing p records = .unseen :=
  standingFrom_of_not_names h _

theorem advance_consumed (r : JournalRecord) (receipt : String) :
    advance r (.consumed receipt) = .consumed receipt := by
  unfold advance
  split <;> rfl

theorem standingFrom_consumed (p receipt : String) (records : List JournalRecord) :
    standingFrom p (.consumed receipt) records = .consumed receipt := by
  induction records with
  | nil => rfl
  | cons r records ih =>
    have hstep : (if Names p r then advance r (.consumed receipt) else .consumed receipt) =
        .consumed receipt := by
      rw [advance_consumed, ite_self]
    exact (congrArg (standingFrom p · records) hstep).trans ih

/-- **The ledger only moves forward.** Whatever is appended, no permit falls back. A consumed permit
keeps the receipt it was first settled with, and a permit that no new record names stays where it
is. -/
theorem ledger_forward (records more : List JournalRecord) (p : String) :
    let before := (PermitLedger.fromRecords records).disposition p
    let after := (PermitLedger.fromRecords (records ++ more)).disposition p
    before.rank ≤ after.rank ∧
    (∀ receipt, before = .consumed receipt → after = .consumed receipt) ∧
    ((∀ r ∈ more, ¬ Names p r) → after = before) := by
  simp only [PermitLedger.disposition_fromRecords, standing_append]
  refine ⟨rank_le_standingFrom p _ more, fun receipt h => ?_, fun h => ?_⟩
  · rw [h]
    exact standingFrom_consumed p receipt more
  · exact standingFrom_of_not_names h _

/-! ### The order of the facts -/

theorem advance_congr {r s : JournalRecord} (hkind : s.kind = r.kind)
    (hfact : factValue s.facts Fact.RECEIPT_DIGEST = factValue r.facts Fact.RECEIPT_DIGEST)
    (e : PermitDisposition) : advance s e = advance r e := by
  unfold advance receiptDisposition
  rw [hkind, hfact]

/-- Reading a stored record back may reorder its facts; the ledger does not see it. -/
theorem standing_congr {records' : List JournalRecord}
    (h : List.Forall₂ JournalRecord.SameUpToFactOrder records records')
    (hnd : ∀ r ∈ records, (r.facts.map Prod.fst).Nodup) :
    standing p records = standing p records' := by
  have key : ∀ e, standingFrom p e records = standingFrom p e records' := by
    induction h with
    | nil => exact fun _ => rfl
    | @cons r s records records' hrs _ ih =>
      intro e
      obtain ⟨facts, hperm, rfl⟩ := hrs
      have hvalue := factValue_perm hperm (hnd r (by simp))
      have hnames : Names p { r with facts := facts } ↔ Names p r := by
        unfold Names
        rw [hvalue Fact.PERMIT_ID]
      have hadvance : advance { r with facts := facts } e = advance r e :=
        advance_congr (r := r) (s := { r with facts := facts }) rfl (hvalue Fact.RECEIPT_DIGEST).symm e
      have hhead : (if Names p r then advance r e else e) =
          if Names p { r with facts := facts } then advance { r with facts := facts } e else e := by
        simp only [hnames, hadvance]
      show standingFrom p (if Names p r then advance r e else e) records = _
      rw [ih (fun r' hr' => hnd r' (by simp [hr'])), hhead]
      rfl
  exact key .unseen

/-! ### The crash table -/

inductive JobState where
  | planned
  | awaitingStart
  | preflight
  | awaitingPermit
  | stepIntentDurable
  | dispatching
  | receiptDurable
  | checkpointed
  | rebindWait
  | postflight
  | succeeded
  | confirmedFailed
  | cancelledSafe
  | outcomeUnknown
  | reconciling
  | recoveryAssessable
  deriving DecidableEq

def terminalState (text : String) : Option JobState :=
  if text = "succeeded" then some .succeeded
  else if text = "confirmedFailed" then some .confirmedFailed
  else if text = "cancelledSafe" then some .cancelledSafe
  else if text = "recoveryAssessable" then some .recoveryAssessable
  else none

inductive CrashDisposition where
  | noJob
  | safeToCancel
  | dispatchForbiddenUntilIntentDurable (permitId : String)
  | outcomeUnknown (permitId : String)
  | receiptDurableCheckpointMissing (permitId : String)
  | replayFromCheckpoint
  | concluded (state : JobState)
  deriving DecidableEq

namespace CrashDisposition

/-- The job a `jobCreated` record creates: its fact, or else its subject. -/
def createdJob (record : JournalRecord) : String :=
  (factValue record.facts Fact.JOB_ID).getD record.subject.value

/-- The journal creates `jobId` and nothing else. -/
def isSingleJobJournal (records : List JournalRecord) (jobId : String) : Bool :=
  match records.filter fun r => r.kind = .jobCreated with
  | [created] => createdJob created = jobId
  | _ => false

def belongs (single : Bool) (jobId : String) (record : JournalRecord) : Bool :=
  match factValue record.facts Fact.JOB_ID with
  | some recordJobId => recordJobId = jobId
  | none => record.subject.value = jobId || single

def recordsOf (records : List JournalRecord) (jobId : String) : List JournalRecord :=
  records.filter (belongs (isSingleJobJournal records jobId) jobId)

/-- The first terminal classification; later ones do not count. -/
def conclusion (records : List JournalRecord) : Option JobState :=
  records.findSome? fun r =>
    match r.kind with
    | .outcomeClassified => (factValue r.facts "outcome").bind terminalState
    | _ => none

def newestPermit (records : List JournalRecord) : Option String :=
  records.reverse.findSome? fun r => factValue r.facts Fact.PERMIT_ID

def isCheckpointed (records : List JournalRecord) (permitId : String) : Bool :=
  records.any fun r =>
    r.kind = .stepCheckpointed && factValue r.facts Fact.PERMIT_ID = some permitId

/-- The row that the newest permit decides. An intent that was never consumed is the same window as one
consumed without a receipt. -/
def permitRow (permitId : String) (checkpointed : Bool) : PermitDisposition → CrashDisposition
  | .unseen => .safeToCancel
  | .acceptedIntentNotDurable => .dispatchForbiddenUntilIntentDurable permitId
  | .intentDurable | .consumingOutcomeUnknown => .outcomeUnknown permitId
  | .consumed _ =>
    if checkpointed then .replayFromCheckpoint else .receiptDurableCheckpointMissing permitId

/-- Derives the row for `jobId` from the journal. -/
def derive (journal : Journal) (jobId : String) : CrashDisposition :=
  let records := recordsOf journal.records jobId
  if !records.any fun r => r.kind = .jobCreated then .noJob
  else
    match conclusion records with
    | some state => .concluded state
    | none =>
      match newestPermit records with
      | none => .safeToCancel
      | some permitId =>
        permitRow permitId (isCheckpointed records permitId)
          ((PermitLedger.fromRecords records).disposition permitId)

end CrashDisposition

end ArkForge.Engine.Recovery
