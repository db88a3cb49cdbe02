import ArkForge.Core.CborBounds
import ArkForge.Core.CborFields

/-! # Journal records

A record is stored as a canonical map of ten fields: the nine of its body, which its digest covers,
and the digest itself. `fromCanonicalBytes` looks up each of the ten fields and ignores any other
entry of the map (`fromCanonicalBytes_eq_ok`), so reading back what was written gives the record with
its facts in canonical order (`fromCanonicalBytes_toCanonicalBytes`), but what was read was written by
`toCanonicalBytes` only if the map has no other entry (`toCanonicalBytes_of_read`). -/

namespace ArkForge.Engine.Record

open Lib.Result Lib.KeySort
open Core.Cbor Core.CborRead Core.CborCanon Core.CborMap Core.CborBounds Core.CborFields
open Core.Digest Core.Ids

variable {b : List UInt8} {facts : List (OpaqueId × String)}

/-! ### Kinds and durability -/

def SCHEMA_VERSION : UInt32 := 1

inductive JournalRecordKind where
  | planStored
  | jobCreated
  | localExecutorLeaseAcquired
  | preflightObserved
  | stepAdmissionRequested
  | stepPermitAccepted
  | stepIntentRecorded
  | permitConsuming
  | externalDispatchStarted
  | transportEvidenceRecorded
  | semanticReceiptRecorded
  | permitConsumed
  | stepCheckpointed
  | rebindObserved
  | cancellationRequested
  | postflightRecorded
  | outcomeClassified
  | possibleEffectSetRecorded
  | recoveryAssessmentPublished
  | recoveryGuidePublished
  | readOnlyObservationRecorded
  deriving DecidableEq

inductive FsyncPolicy where
  | durable
  | buffered
  deriving DecidableEq

namespace FsyncPolicy

def asStr : FsyncPolicy → String
  | durable => "durable"
  | buffered => "buffered"

def parse (text : String) : Option FsyncPolicy :=
  if text = "durable" then some durable else if text = "buffered" then some buffered else none

theorem parse_eq_some {text : String} {p : FsyncPolicy} : parse text = some p ↔ p.asStr = text := by
  constructor
  · intro h
    unfold parse at h
    split_ifs at h with h1 h2
    · cases h; exact h1.symm
    · cases h; exact h2.symm
  · rintro rfl
    cases p <;> rfl

end FsyncPolicy

namespace JournalRecordKind

def fsyncPolicy : JournalRecordKind → FsyncPolicy
  | preflightObserved | stepAdmissionRequested | transportEvidenceRecorded | rebindObserved
  | readOnlyObservationRecorded => .buffered
  | planStored | jobCreated | localExecutorLeaseAcquired | stepPermitAccepted | stepIntentRecorded
  | permitConsuming | externalDispatchStarted | semanticReceiptRecorded | permitConsumed
  | stepCheckpointed | cancellationRequested | postflightRecorded | outcomeClassified
  | possibleEffectSetRecorded | recoveryAssessmentPublished | recoveryGuidePublished => .durable

def ALL : List JournalRecordKind := [planStored, jobCreated, localExecutorLeaseAcquired,
  preflightObserved, stepAdmissionRequested, stepPermitAccepted, stepIntentRecorded,
  permitConsuming, externalDispatchStarted, transportEvidenceRecorded, semanticReceiptRecorded,
  permitConsumed, stepCheckpointed, rebindObserved, cancellationRequested, postflightRecorded,
  outcomeClassified, possibleEffectSetRecorded, recoveryAssessmentPublished,
  recoveryGuidePublished, readOnlyObservationRecorded]

def asStr : JournalRecordKind → String
  | planStored => "planStored"
  | jobCreated => "jobCreated"
  | localExecutorLeaseAcquired => "localExecutorLeaseAcquired"
  | preflightObserved => "preflightObserved"
  | stepAdmissionRequested => "stepAdmissionRequested"
  | stepPermitAccepted => "stepPermitAccepted"
  | stepIntentRecorded => "stepIntentRecorded"
  | permitConsuming => "permitConsuming"
  | externalDispatchStarted => "externalDispatchStarted"
  | transportEvidenceRecorded => "transportEvidenceRecorded"
  | semanticReceiptRecorded => "semanticReceiptRecorded"
  | permitConsumed => "permitConsumed"
  | stepCheckpointed => "stepCheckpointed"
  | rebindObserved => "rebindObserved"
  | cancellationRequested => "cancellationRequested"
  | postflightRecorded => "postflightRecorded"
  | outcomeClassified => "outcomeClassified"
  | possibleEffectSetRecorded => "possibleEffectSetRecorded"
  | recoveryAssessmentPublished => "recoveryAssessmentPublished"
  | recoveryGuidePublished => "recoveryGuidePublished"
  | readOnlyObservationRecorded => "readOnlyObservationRecorded"

def parse (text : String) : Option JournalRecordKind := ALL.find? fun kind => kind.asStr = text

theorem parse_eq_some {text : String} {k : JournalRecordKind} :
    parse text = some k ↔ k.asStr = text := by
  constructor
  · intro h
    simpa using List.find?_some h
  · rintro rfl
    cases k <;> decide

end JournalRecordKind

/-! ### Records -/

structure JournalRecord where
  schemaVersion : UInt32
  sequence : UInt64
  jobRevision : UInt64
  kind : JournalRecordKind
  fsyncPolicy : FsyncPolicy
  atEpochMs : UInt64
  subject : OpaqueId
  facts : List (OpaqueId × String)
  previousDigest : Sha256Digest
  recordDigest : Sha256Digest

inductive JournalError where
  | sequenceBroken (expected found : UInt64)
  | chainBroken (atSequence : UInt64)
  | recordTampered (atSequence : UInt64)
  | fsyncPolicyMisdeclared (atSequence : UInt64) (kind : JournalRecordKind) (declared : FsyncPolicy)
  | unknownSchemaVersion (version : UInt32)
  | recordMalformed (field : String)
  | cbor (error : CborError)

namespace JournalRecord

def factsCbor (facts : List (OpaqueId × String)) : CborValue :=
  .map (facts.map fun f => (f.1.toCbor, .text f.2))

/-- The fields the record digest covers: all but the digest itself. -/
def bodyEntries (r : JournalRecord) : List (String × CborValue) := [
  ("schemaVersion", .unsigned r.schemaVersion.toUInt64),
  ("sequence", .unsigned r.sequence),
  ("jobRevision", .unsigned r.jobRevision),
  ("kind", .text r.kind.asStr),
  ("fsyncPolicy", .text r.fsyncPolicy.asStr),
  ("atEpochMs", .unsigned r.atEpochMs),
  ("subject", r.subject.toCbor),
  ("facts", factsCbor r.facts),
  ("previousDigest", r.previousDigest.toCbor)]

def body (r : JournalRecord) : CborValue := .textMap r.bodyEntries

def recomputeDigest (r : JournalRecord) : Except CborError Sha256Digest :=
  digestCanonical .journalRecord r.body

/-- The fields of the record as it is stored: the digested body, then the digest. -/
def storedEntries (r : JournalRecord) : List (String × CborValue) :=
  r.bodyEntries ++ [("recordDigest", r.recordDigest.toCbor)]

def toCanonicalBytes (r : JournalRecord) : Except CborError (List UInt8) :=
  (CborValue.textMap r.storedEntries).toCanonicalBytes

end JournalRecord

/-! ### Reading a record back -/

section

variable (entries : List (CborValue × CborValue))

def unsignedField (name : String) : Except JournalError UInt64 :=
  match field entries name with
  | some (.unsigned value) => .ok value
  | _ => .error (.recordMalformed name)

def textField (name : String) : Except JournalError String :=
  match field entries name with
  | some (.text value) => .ok value
  | _ => .error (.recordMalformed name)

def digestField (name : String) : Except JournalError Sha256Digest :=
  match field entries name with
  | some (.bytes value) =>
    if h : value.length = 32 then .ok ⟨value, h⟩ else .error (.recordMalformed name)
  | _ => .error (.recordMalformed name)

/-- A parsed field, or the error that names it. -/
def orMalformed {α : Type} (name : String) : Option α → Except JournalError α
  | some a => .ok a
  | none => .error (.recordMalformed name)

/-- `u32::try_from`. -/
def toU32 (value : UInt64) : Option UInt32 :=
  if value.toNat < 2 ^ 32 then some value.toUInt32 else none

def readFact : CborValue × CborValue → Except JournalError (OpaqueId × String)
  | (.text key, .text value) => do
    let key ← (OpaqueId.new key).mapError fun _ => .recordMalformed "facts"
    return (key, value)
  | _ => .error (.recordMalformed "facts")

def factsField : Except JournalError (List (OpaqueId × String)) :=
  match field entries "facts" with
  | some (.map pairs) => pairs.mapM readFact
  | _ => .error (.recordMalformed "facts")

/-- The record whose fields stand in the map. -/
def readRecord : Except JournalError JournalRecord := do
  let schemaVersion ← unsignedField entries "schemaVersion"
  let schemaVersion ← orMalformed "schemaVersion" (toU32 schemaVersion)
  let kind ← textField entries "kind"
  let kind ← orMalformed "kind" (JournalRecordKind.parse kind)
  let fsyncPolicy ← textField entries "fsyncPolicy"
  let fsyncPolicy ← orMalformed "fsyncPolicy" (FsyncPolicy.parse fsyncPolicy)
  let subject ← textField entries "subject"
  let subject ← (OpaqueId.new subject).mapError fun _ => .recordMalformed "subject"
  let facts ← factsField entries
  let sequence ← unsignedField entries "sequence"
  let jobRevision ← unsignedField entries "jobRevision"
  let atEpochMs ← unsignedField entries "atEpochMs"
  let previousDigest ← digestField entries "previousDigest"
  let recordDigest ← digestField entries "recordDigest"
  return { schemaVersion, sequence, jobRevision, kind, fsyncPolicy, atEpochMs, subject, facts,
           previousDigest, recordDigest }

end

/-! ### What the readers accept -/

section

variable {entries : List (CborValue × CborValue)} {name : String}

variable {value : UInt64}

theorem unsignedField_eq_ok :
    unsignedField entries name = .ok value ↔ field entries name = some (.unsigned value) := by
  unfold unsignedField
  rcases field entries name with _ | v
  · simp
  · cases v <;> simp

theorem textField_eq_ok {value : String} :
    textField entries name = .ok value ↔ field entries name = some (.text value) := by
  unfold textField
  rcases field entries name with _ | v
  · simp
  · cases v <;> simp

theorem digestField_eq_ok {d : Sha256Digest} :
    digestField entries name = .ok d ↔ field entries name = some d.toCbor := by
  have hsame : digestField entries name = readField entries name .digest (.recordMalformed name) := by
    unfold digestField readField
    rcases field entries name with _ | (_ | _ | value | _ | _ | _ | _ | _) <;> try rfl
    simp only [Option.bind_some, Shape.digest]
    split_ifs <;> rfl
  rw [hsame]
  exact readField_eq_ok

theorem orMalformed_eq_ok {α : Type} {x : Option α} {a : α} :
    orMalformed name x = .ok a ↔ x = some a := by
  cases x <;> simp [orMalformed]

theorem toU32_eq_some {x : UInt32} : toU32 value = some x ↔ value = x.toUInt64 := by
  unfold toU32
  have hx := x.toNat_lt
  split_ifs with h
  · simp only [Option.some.injEq]
    constructor
    · rintro rfl
      apply UInt64.toNat_inj.mp
      exact (Nat.mod_eq_of_lt h).symm
    · rintro rfl
      exact UInt32.toUInt32_toUInt64 x
  · simp only [false_iff]
    rintro rfl
    exact h (by rw [UInt32.toNat_toUInt64]; exact hx)

theorem readFact_eq_ok {pair : CborValue × CborValue} {f : OpaqueId × String} :
    readFact pair = .ok f ↔ pair = (f.1.toCbor, .text f.2) := by
  obtain ⟨k, v⟩ := pair
  obtain ⟨key, value⟩ := f
  unfold readFact OpaqueId.toCbor
  split
  · next k' v' h =>
    obtain ⟨rfl, rfl⟩ := Prod.mk.inj h
    simp only [bind_eq_ok, mapError_eq_ok, OpaqueId.new_eq_ok, pure, Except.pure, Except.ok.injEq,
      Prod.mk.injEq, CborValue.text.injEq]
    constructor
    · rintro ⟨o, ho, rfl, rfl⟩; exact ⟨ho.symm, rfl⟩
    · rintro ⟨rfl, rfl⟩; exact ⟨key, rfl, rfl, rfl⟩
  · next h =>
    simp only [reduceCtorEq, false_iff]
    exact h key.value value

theorem factsField_eq_ok :
    factsField entries = .ok facts ↔ field entries "facts" = some (JournalRecord.factsCbor facts) := by
  unfold factsField JournalRecord.factsCbor
  split
  · next pairs h =>
    rw [h, mapM_eq_ok]
    simp only [readFact_eq_ok, Option.some.injEq, CborValue.map.injEq]
    rw [← List.forall₂_eq_eq_eq, List.forall₂_map_right_iff]
  · next h =>
    refine ⟨fun h' => ?_, fun h' => absurd h' (h _)⟩
    cases h'

/-- A map reads as a record exactly when the ten stored fields of the record stand in it. -/
theorem readRecord_eq_ok {r : JournalRecord} :
    readRecord entries = .ok r ↔ ∀ p ∈ r.storedEntries, field entries p.1 = some p.2 := by
  simp only [readRecord, bind_eq_ok, unsignedField_eq_ok, textField_eq_ok, digestField_eq_ok,
    orMalformed_eq_ok, toU32_eq_some, JournalRecordKind.parse_eq_some, FsyncPolicy.parse_eq_some,
    mapError_eq_ok, OpaqueId.new_eq_ok, factsField_eq_ok, pure, Except.pure, Except.ok.injEq,
    JournalRecord.storedEntries, JournalRecord.bodyEntries, List.forall_mem_append,
    List.forall_mem_cons, List.not_mem_nil, false_implies, implies_true, and_true]
  constructor
  · rintro ⟨_, h1, _, rfl, _, h2, _, rfl, _, h3, _, rfl, _, h4, _, rfl, _, h5, _, h6, _, h7, _, h8,
      _, h9, _, h10, rfl⟩
    exact ⟨⟨h1, h6, h7, h2, h3, h8, h4, h5, h9⟩, h10⟩
  · rintro ⟨⟨h1, h6, h7, h2, h3, h8, h4, h5, h9⟩, h10⟩
    exact ⟨_, h1, _, rfl, _, h2, _, rfl, _, h3, _, rfl, _, h4, _, rfl, _, h5, _, h6, _, h7, _, h8,
      _, h9, _, h10, rfl⟩

end

/-- Reads a record back; every field is required. -/
def JournalRecord.fromCanonicalBytes (input : List UInt8) : Except JournalError JournalRecord := do
  let value ← (decodeCanonical input).mapError .cbor
  match value with
  | .map entries => readRecord entries
  | _ => .error (.recordMalformed "record is not a map")

namespace JournalRecord

variable {r : JournalRecord}

theorem fromCanonicalBytes_eq_ok :
    fromCanonicalBytes b = .ok r ↔ ∃ entries, decodeCanonical b = .ok (.map entries) ∧
      ∀ p ∈ r.storedEntries, field entries p.1 = some p.2 := by
  simp only [fromCanonicalBytes, bind_eq_ok, mapError_eq_ok]
  constructor
  · rintro ⟨v, hv, h⟩
    split at h
    · exact ⟨_, hv, readRecord_eq_ok.mp h⟩
    · cases h
  · rintro ⟨entries, hd, h⟩
    exact ⟨_, hd, readRecord_eq_ok.mpr h⟩

/-! ### The order of the facts -/

/-- The two records differ at most in the order of their facts. -/
def SameUpToFactOrder (r s : JournalRecord) : Prop :=
  ∃ facts, r.facts.Perm facts ∧ s = { r with facts }

variable {s : JournalRecord}

theorem SameUpToFactOrder.symm (h : SameUpToFactOrder r s) :
    SameUpToFactOrder s r := by
  obtain ⟨facts, hp, rfl⟩ := h
  exact ⟨r.facts, hp.symm, rfl⟩

def sortFacts (r : JournalRecord) : JournalRecord :=
  { r with facts := sortByKey (fun f => encodedKey f.1.toCbor) r.facts }

theorem sameUpToFactOrder_sortFacts (r : JournalRecord) : SameUpToFactOrder r r.sortFacts :=
  ⟨_, (sortByKey_perm _).symm, rfl⟩

theorem SameUpToFactOrder.mapOrderEq_body (h : SameUpToFactOrder r s) :
    MapOrderEq r.body s.body := by
  obtain ⟨facts, hp, rfl⟩ := h
  exact MapOrderEq.entry (r.bodyEntries.take 7 |>.map fun e => (.text e.1, e.2)) _ (.refl _)
    (.permute (hp.map _))

theorem SameUpToFactOrder.recomputeDigest (h : SameUpToFactOrder r s)
    {d : Sha256Digest} : r.recomputeDigest = .ok d ↔ s.recomputeDigest = .ok d := by
  simp only [JournalRecord.recomputeDigest, digestCanonical_eq_ok,
    toCanonicalBytes_congr h.mapOrderEq_body]

/-! ### Writing and reading back -/

def fieldNames : List String := ["schemaVersion", "sequence", "jobRevision", "kind", "fsyncPolicy",
  "atEpochMs", "subject", "facts", "previousDigest", "recordDigest"]

theorem map_fst_storedEntries (r : JournalRecord) : r.storedEntries.map Prod.fst = fieldNames := rfl

theorem factsCbor_eq (facts : List (OpaqueId × String)) :
    factsCbor facts = .textMap (facts.map fun f => (f.1.value, .text f.2)) := by
  rw [CborValue.textMap, List.map_map]
  rfl

theorem sortKeys_factsCbor (facts : List (OpaqueId × String)) :
    (factsCbor facts).sortKeys =
      factsCbor (sortByKey (fun f => encodedKey f.1.toCbor) facts) := by
  rw [factsCbor, CborValue.sortKeys, sortKeysEntries_eq, List.map_map]
  congr 1
  exact (map_sortByKey fun f _ => rfl).symm

theorem map_sortKeys_storedEntries (r : JournalRecord) :
    r.storedEntries.map (fun e => (e.1, e.2.sortKeys)) = r.sortFacts.storedEntries := by
  simp only [storedEntries, bodyEntries, List.map_append, List.map_cons,
    sortKeys_factsCbor]
  rfl

variable {p : String × CborValue}

theorem depth_storedEntry : ∀ p ∈ r.storedEntries, p.2.depth ≤ 1 := by
  simp only [storedEntries, bodyEntries, factsCbor_eq]
  simp +contextual [eq_comm]

variable {extra : List (String × CborValue)}

/-- What a map with the stored fields of a record, and others, decodes to. -/
theorem decode_extra (hdepth : ∀ p ∈ extra, p.2.depth < maxDepth)
    (h : (CborValue.textMap (r.storedEntries ++ extra)).toCanonicalBytes = .ok b)
    (hb : b.length < 2 ^ 64) :
    decodeCanonical b = .ok (.textMap (sortedFields (r.storedEntries ++ extra))) := by
  refine decode_textMap (depth_textMap_le (List.forall_mem_append.mpr ⟨fun p hp => ?_,
    fun p hp => Nat.le_of_lt_succ (hdepth p hp)⟩)) (fits_of_length _ h hb) h
  exact (depth_storedEntry p hp).trans (by decide)

/-- **The reader ignores other entries**: a map with the stored fields of a record, and others, reads
as the record. -/
theorem fromCanonicalBytes_extra (hdepth : ∀ p ∈ extra, p.2.depth < maxDepth)
    (h : (CborValue.textMap (r.storedEntries ++ extra)).toCanonicalBytes = .ok b)
    (hb : b.length < 2 ^ 64) : fromCanonicalBytes b = .ok r.sortFacts := by
  refine fromCanonicalBytes_eq_ok.mpr ⟨_, decode_extra hdepth h hb, ?_⟩
  rw [← map_sortKeys_storedEntries, List.forall_mem_map]
  exact fun p hp => field_sortKeys (textMap_encodes.mp ⟨b, h⟩).1 (List.mem_append_left _ hp)

/-- **Reading back what was written** gives the record with its facts in canonical order. -/
theorem fromCanonicalBytes_toCanonicalBytes (h : r.toCanonicalBytes = .ok b)
    (hb : b.length < 2 ^ 64) : fromCanonicalBytes b = .ok r.sortFacts := by
  exact fromCanonicalBytes_extra (by simp) h hb

/-- The facts have distinct keys, which is all that can keep a record from being encoded. -/
theorem factsCbor_encodes : (factsCbor facts).Encodes ↔ (facts.map Prod.fst).Nodup := by
  have hvalue : Function.Injective OpaqueId.value := fun _ _ => OpaqueId.ext
  rw [factsCbor_eq, textMap_encodes, ← List.nodup_map_iff hvalue, List.map_map, List.map_map]
  exact and_iff_left (List.forall_mem_map.mpr fun f _ => encodes_text _)

theorem body_encodes : r.body.Encodes ↔ (r.facts.map Prod.fst).Nodup := by
  simp [body, bodyEntries, factsCbor_encodes]

theorem stored_encodes : (∃ b, r.toCanonicalBytes = .ok b) ↔ (r.facts.map Prod.fst).Nodup := by
  show (CborValue.textMap r.storedEntries).Encodes ↔ _
  simp [storedEntries, bodyEntries, factsCbor_encodes]

variable {c : List UInt8}

theorem boundValue_facts_le {v : ℕ} (hv : ∀ f ∈ facts, (utf8 f.2).length ≤ v) :
    boundValue (factsCbor facts) ≤ 9 + facts.length * (MAX_ID_LEN + v + 18) := by
  rw [factsCbor_eq, ← List.length_map (fun f : OpaqueId × String => (f.1.value, CborValue.text f.2)),
    show MAX_ID_LEN + v + 18 = (9 + MAX_ID_LEN) + (9 + v) by omega]
  refine boundValue_textMap_le (List.forall_mem_map.mpr fun f hf => ?_)
  exact ⟨Nat.add_le_add_left f.1.conforming.2.1 9, Nat.add_le_add_left (hv f hf) 9⟩

/-- A bound for each stored field, from one for the values of the facts. -/
theorem boundValue_storedEntry_le {v : ℕ} (hv : ∀ f ∈ r.facts, (utf8 f.2).length ≤ v) :
    ∀ p ∈ r.storedEntries, boundValue (.text p.1) ≤ 63 ∧
      boundValue p.2 ≤ 137 + r.facts.length * (MAX_ID_LEN + v + 18) := by
  have hsmall : ∀ {k n : ℕ}, k ≤ 137 → k ≤ 137 + n := fun h => h.trans (Nat.le_add_right _ _)
  have hdigest : ∀ d : Sha256Digest, boundValue d.toCbor ≤ 137 := fun d =>
    (Nat.add_le_add_left d.length_eq.le 9).trans (by decide)
  have hkind : boundValue (.text r.kind.asStr) ≤ 137 := by cases r.kind <;> decide
  have hpolicy : boundValue (.text r.fsyncPolicy.asStr) ≤ 137 := by cases r.fsyncPolicy <;> decide
  have hsubject : boundValue r.subject.toCbor ≤ 137 := Nat.add_le_add_left r.subject.conforming.2.1 9
  have hfacts := (boundValue_facts_le hv).trans (Nat.add_le_add_right (show 9 ≤ 137 by decide) _)
  simp +decide [storedEntries, bodyEntries, hsmall, hdigest, hkind, hpolicy, hsubject, hfacts]

theorem length_stored_le {v : ℕ} (hv : ∀ f ∈ r.facts, (utf8 f.2).length ≤ v)
    (h : r.toCanonicalBytes = .ok b) :
    b.length ≤ 9 + 10 * (200 + r.facts.length * (MAX_ID_LEN + v + 18)) := by
  refine (length_le_boundValue _ h).trans
    ((boundValue_textMap_le (boundValue_storedEntry_le hv)).trans ?_)
  rw [← Nat.add_assoc]
  exact le_rfl

/-- The bytes hold a map with no other keys than the ten fields. -/
def OnlyRecordFields (b : List UInt8) : Prop :=
  ∀ entries, decodeCanonical b = .ok (.map entries) →
    ∀ e ∈ entries, ∃ name ∈ fieldNames, e.1 = .text name

/-- **What was read was written by the encoder** exactly when the map has no other entries: the reader
does not look at them. -/
theorem toCanonicalBytes_of_read (h : fromCanonicalBytes b = .ok r) (hb : b.length < 2 ^ 64) :
    r.toCanonicalBytes = .ok b ↔ OnlyRecordFields b := by
  obtain ⟨entries, hd, hfields⟩ := fromCanonicalBytes_eq_ok.mp h
  have hn := nodup_keys_of_decode hd
  constructor
  · intro hr entries' hd' e he
    rw [decode_extra (by simp) hr hb, List.append_nil, sortedFields, map_sortKeys_storedEntries] at hd'
    rw [← CborValue.map.inj (Except.ok.inj hd')] at he
    obtain ⟨p, hp, rfl⟩ := List.mem_map.mp he
    exact ⟨p.1, map_fst_storedEntries r.sortFacts ▸ List.mem_map_of_mem (mem_sortByKey.mp hp), rfl⟩
  · intro honly
    have hmem : ∀ e, e ∈ r.storedEntries.map (fun e => (CborValue.text e.1, e.2)) ↔ e ∈ entries := by
      intro e
      constructor
      · intro he
        obtain ⟨p, hp, rfl⟩ := List.mem_map.mp he
        exact (field_eq_some hn).mp (hfields p hp)
      · intro he
        obtain ⟨name, hname, hkey⟩ := honly entries hd e he
        rw [← map_fst_storedEntries r] at hname
        obtain ⟨p, hp, rfl⟩ := List.mem_map.mp hname
        have hv := (field_eq_some hn).mpr (hkey ▸ he : (.text p.1, e.2) ∈ entries)
        rw [hfields p hp] at hv
        exact List.mem_map.mpr ⟨p, hp, Prod.ext hkey.symm (Option.some.inj hv)⟩
    have hkeys : (r.storedEntries.map fun e => (CborValue.text e.1, e.2)).Nodup := by
      refine List.Nodup.of_map Prod.fst (nodup_textEntries.mpr ?_)
      rw [map_fst_storedEntries]
      decide
    have hperm := (List.perm_ext_iff_of_nodup hkeys (List.Nodup.of_map _ hn)).mpr hmem
    exact (toCanonicalBytes_perm hperm).mpr (toCanonicalBytes_of_decode hd)

end JournalRecord

end ArkForge.Engine.Record
