import ArkForge.Lib.HashChain
import ArkForge.Engine.Record

/-! # The hash-chained journal

The journal is a list of records, each carrying its place in the list and the digest of the record
before it. `append`, `adopt` and `verify` are the three ways the source has of building and checking
one; all of them come down to the same check of a record at its place (`Genuine`), and a journal
built by any of them is a chain (`WellChained`). -/

namespace ArkForge.Engine.Chain

open Lib.Result Lib.HashChain
open Core.Digest Core.Ids
open Record

variable {r : JournalRecord} {rs : List JournalRecord}

structure Journal where
  records : List JournalRecord

/-- The digest a chain starts from. -/
def CHAIN_ORIGIN : Sha256Digest := ⟨List.replicate 32 0, by decide⟩

/-- Schema version, declared durability and digest of one record. -/
def checkRecord (record : JournalRecord) : Except JournalError Unit :=
  if record.schemaVersion ≠ SCHEMA_VERSION then
    .error (.unknownSchemaVersion record.schemaVersion)
  else if record.fsyncPolicy ≠ record.kind.fsyncPolicy then
    .error (.fsyncPolicyMisdeclared record.sequence record.kind record.fsyncPolicy)
  else
    match record.recomputeDigest with
    | .error e => .error (.cbor e)
    | .ok recomputed =>
      if recomputed ≠ record.recordDigest then .error (.recordTampered record.sequence) else .ok ()

namespace Journal

def new : Journal := ⟨[]⟩

def headDigest (j : Journal) : Sha256Digest := head JournalRecord.recordDigest CHAIN_ORIGIN j.records

/-- The next record, computed without advancing the chain. -/
def prepareRecord (j : Journal) (kind : JournalRecordKind) (atEpochMs jobRevision : UInt64)
    (subject : OpaqueId) (facts : List (OpaqueId × String)) : Except JournalError JournalRecord := do
  let record : JournalRecord :=
    { schemaVersion := SCHEMA_VERSION
      sequence := UInt64.ofNat j.records.length + 1
      jobRevision, kind
      fsyncPolicy := kind.fsyncPolicy
      atEpochMs, subject, facts
      previousDigest := j.headDigest
      recordDigest := CHAIN_ORIGIN }
  let recordDigest ← record.recomputeDigest.mapError .cbor
  return { record with recordDigest }

/-- Pushes a record returned by `prepareRecord`. -/
def commitRecord (j : Journal) (record : JournalRecord) : Journal := ⟨j.records ++ [record]⟩

/-- Adopts a record read back from storage, after checking that it belongs here. -/
def adopt (j : Journal) (record : JournalRecord) : Except JournalError Journal :=
  if record.sequence ≠ UInt64.ofNat j.records.length + 1 then
    .error (.sequenceBroken (UInt64.ofNat j.records.length + 1) record.sequence)
  else if record.previousDigest ≠ j.headDigest then .error (.chainBroken record.sequence)
  else do
    checkRecord record
    return ⟨j.records ++ [record]⟩

/-- The loop of `verify`, at an index and behind a digest. -/
def verifyFrom : ℕ → Sha256Digest → List JournalRecord → Except JournalError Unit
  | _, _, [] => .ok ()
  | index, previous, record :: records =>
    if record.sequence ≠ UInt64.ofNat index + 1 then
      .error (.sequenceBroken (UInt64.ofNat index + 1) record.sequence)
    else if record.schemaVersion ≠ SCHEMA_VERSION then
      .error (.unknownSchemaVersion record.schemaVersion)
    else if record.previousDigest ≠ previous then .error (.chainBroken record.sequence)
    else do
      checkRecord record
      verifyFrom (index + 1) record.recordDigest records

/-- Verifies sequence, links and digests over the whole chain. -/
def verify (j : Journal) : Except JournalError Unit := verifyFrom 0 CHAIN_ORIGIN j.records

end Journal

/-! ### The chain -/

/-- The record's own fields agree with each other. -/
structure SelfConsistent (r : JournalRecord) : Prop where
  schemaVersion : r.schemaVersion = SCHEMA_VERSION
  fsyncPolicy : r.fsyncPolicy = r.kind.fsyncPolicy
  recordDigest : r.recomputeDigest = .ok r.recordDigest

/-- The record belongs at index `n`, behind a record of digest `previous`. -/
structure Genuine (n : ℕ) (previous : Sha256Digest) (r : JournalRecord) : Prop where
  sequence : r.sequence = UInt64.ofNat n + 1
  previousDigest : r.previousDigest = previous
  consistent : SelfConsistent r

/-- Every record belongs where it stands. -/
def WellChained (rs : List JournalRecord) : Prop :=
  Linked JournalRecord.recordDigest Genuine 0 CHAIN_ORIGIN rs

theorem checkRecord_eq_ok : checkRecord r = .ok () ↔ SelfConsistent r := by
  unfold checkRecord
  constructor
  · intro h
    split_ifs at h with h1 h2
    split at h
    · cases h
    · next d hd =>
      split_ifs at h with h3
      exact ⟨not_not.mp h1, not_not.mp h2, not_not.mp h3 ▸ hd⟩
  · rintro ⟨h1, h2, h3⟩
    rw [if_neg (not_not.mpr h1), if_neg (not_not.mpr h2), h3]
    exact if_neg (not_not.mpr rfl)

variable {j : Journal}

theorem adopt_eq_ok {j' : Journal} : j.adopt r = .ok j' ↔
      Genuine j.records.length j.headDigest r ∧ j' = ⟨j.records ++ [r]⟩ := by
  unfold Journal.adopt
  constructor
  · intro h
    split_ifs at h with h1 h2
    obtain ⟨_, hc, h⟩ := bind_eq_ok.mp h
    cases h
    exact ⟨⟨not_not.mp h1, not_not.mp h2, checkRecord_eq_ok.mp hc⟩, rfl⟩
  · rintro ⟨⟨h1, h2, h3⟩, rfl⟩
    rw [if_neg (not_not.mpr h1), if_neg (not_not.mpr h2), checkRecord_eq_ok.mpr h3]
    rfl

theorem verifyFrom_eq_ok : ∀ {rs : List JournalRecord} {n : ℕ} {previous : Sha256Digest},
    Journal.verifyFrom n previous rs = .ok () ↔
      Linked JournalRecord.recordDigest Genuine n previous rs
  | [], _, _ => by simp [Journal.verifyFrom, Linked]
  | r :: rs, n, previous => by
    rw [Journal.verifyFrom, Linked, ← verifyFrom_eq_ok]
    constructor
    · intro h
      split_ifs at h with h1 h2 h3
      obtain ⟨_, hc, h⟩ := bind_eq_ok.mp h
      exact ⟨⟨not_not.mp h1, not_not.mp h3, checkRecord_eq_ok.mp hc⟩, h⟩
    · rintro ⟨⟨h1, h2, h3⟩, h⟩
      rw [if_neg (not_not.mpr h1), if_neg (not_not.mpr h3.schemaVersion), if_neg (not_not.mpr h2),
        checkRecord_eq_ok.mpr h3]
      exact h

theorem verify_eq_ok : j.verify = .ok () ↔ WellChained j.records := verifyFrom_eq_ok

theorem wellChained_concat : WellChained (rs ++ [r]) ↔
      WellChained rs ∧ Genuine rs.length (Journal.headDigest ⟨rs⟩) r := by
  rw [WellChained, linked_concat, Nat.zero_add]
  rfl

theorem prepareRecord_eq_ok {kind : JournalRecordKind} {atEpochMs jobRevision : UInt64}
    {subject : OpaqueId} {facts : List (OpaqueId × String)}
    (h : j.prepareRecord kind atEpochMs jobRevision subject facts = .ok r) :
    Genuine j.records.length j.headDigest r ∧ r.kind = kind ∧ r.atEpochMs = atEpochMs ∧
      r.jobRevision = jobRevision ∧ r.subject = subject ∧ r.facts = facts := by
  simp only [Journal.prepareRecord, bind_eq_ok, mapError_eq_ok] at h
  obtain ⟨d, hd, h⟩ := h
  cases h
  -- the body does not hold the digest, so setting it changes nothing
  exact ⟨⟨rfl, rfl, ⟨rfl, rfl, hd⟩⟩, rfl, rfl, rfl, rfl, rfl⟩

/-- Only a repeated fact key keeps a record from being prepared. -/
theorem exists_prepareRecord (j : Journal) (kind : JournalRecordKind)
    (atEpochMs jobRevision : UInt64) (subject : OpaqueId) (facts : List (OpaqueId × String))
    (h : (facts.map Prod.fst).Nodup) :
    ∃ r, j.prepareRecord kind atEpochMs jobRevision subject facts = .ok r := by
  obtain ⟨b, hb⟩ := JournalRecord.body_encodes (r :=
    { schemaVersion := SCHEMA_VERSION
      sequence := UInt64.ofNat j.records.length + 1
      jobRevision, kind
      fsyncPolicy := kind.fsyncPolicy
      atEpochMs, subject, facts
      previousDigest := j.headDigest
      recordDigest := CHAIN_ORIGIN }) |>.mpr h
  simp only [Journal.prepareRecord, JournalRecord.recomputeDigest, digestCanonical, hb]
  exact ⟨_, rfl⟩

/-! ### The order of the facts -/

variable {s : JournalRecord}

theorem genuine_congr {n : ℕ} {previous : Sha256Digest} (h : JournalRecord.SameUpToFactOrder r s) :
    Genuine n previous r ↔ Genuine n previous s := by
  have hd := fun d => h.recomputeDigest (d := d)
  obtain ⟨facts, -, rfl⟩ := h
  constructor
  · rintro ⟨h1, h2, ⟨h3, h4, h5⟩⟩
    exact ⟨h1, h2, ⟨h3, h4, (hd _).mp h5⟩⟩
  · rintro ⟨h1, h2, ⟨h3, h4, h5⟩⟩
    exact ⟨h1, h2, ⟨h3, h4, (hd _).mpr h5⟩⟩

theorem sameUpToFactOrder_recordDigest (h : JournalRecord.SameUpToFactOrder r s) :
    r.recordDigest = s.recordDigest := by
  obtain ⟨facts, -, rfl⟩ := h
  rfl

variable {ss : List JournalRecord}

/-- A chain stays a chain when the facts of its records are reordered. -/
theorem wellChained_congr (h : List.Forall₂ JournalRecord.SameUpToFactOrder rs ss) :
    WellChained rs ↔ WellChained ss := by
  refine linked_congr (fun r s hs => ?_) (fun n previous r s hs => ?_) h
  · exact sameUpToFactOrder_recordDigest hs
  · exact genuine_congr hs

theorem headDigest_congr (h : List.Forall₂ JournalRecord.SameUpToFactOrder rs ss) :
    Journal.headDigest ⟨rs⟩ = Journal.headDigest ⟨ss⟩ :=
  head_congr (fun _ _ hs => sameUpToFactOrder_recordDigest hs) h

theorem WellChained.consistent (h : WellChained rs) : ∀ r ∈ rs, SelfConsistent r := by
  intro r hr
  obtain ⟨pre, post, rfl⟩ := List.append_of_mem hr
  exact (Linked.check_middle h).consistent

/-- The facts of a record with a digest are under distinct keys. -/
theorem SelfConsistent.nodup_facts (h : SelfConsistent r) : (r.facts.map Prod.fst).Nodup := by
  obtain ⟨b, hb, -⟩ := digestCanonical_eq_ok.mp h.recordDigest
  exact JournalRecord.body_encodes.mp ⟨b, hb⟩

end ArkForge.Engine.Chain
