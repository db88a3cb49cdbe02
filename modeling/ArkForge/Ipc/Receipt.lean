import ArkForge.Core.CborFields
import ArkForge.Lib.TakeFields

/-! # Action receipts

A receipt reports what became of one action. Its identity is the digest of a canonical map of fifteen
fields, which is also the form the journal stores it in. An optional text is written as `null` when it
is empty, and the verified range is written only if there is a verification outcome.

`fromCanonicalBytes` reads the map back strictly: it takes the fifteen fields out of the map, refuses
a map with another number of fields, and checks what it read as `receiptDigest` does. Which maps it
reads as a receipt is `fromCanonicalBytes_eq_ok`. -/

namespace ArkForge.Ipc.Receipt

open Lib.Result Lib.TakeFields
open Core.Cbor Core.CborRead Core.CborMap
open Core.Digest Core.Ids

variable {u : Unit} {value : String} {fields : List (String × CborValue)}

/-! ### Receipts and their canonical form -/

structure KeyValue where
  key : String
  value : String
  deriving DecidableEq

structure ActionReceiptSummary where
  jobId : String
  planId : String
  stepId : String
  actionId : String
  attemptId : String
  permitId : String
  disposition : String
  evidenceSha256 : List UInt8
  verificationOutcome : String
  verificationStrength : String
  verifiedRangeStart : UInt64
  verifiedRangeLength : UInt64
  typedSkipReason : String
  failureClassification : String
  facts : List KeyValue

/-- An empty text is absent. -/
def optionalText (value : String) : CborValue := if value = "" then .null else .text value

def factsCbor (facts : List KeyValue) : CborValue :=
  .map (facts.map fun fact => (.text fact.key, .text fact.value))

def rangeEntries (start length : UInt64) : List (String × CborValue) :=
  [("start", .unsigned start), ("length", .unsigned length)]

namespace ActionReceiptSummary

def verifiedRange (r : ActionReceiptSummary) : CborValue :=
  if r.verificationOutcome = "" then .null
  else .textMap (rangeEntries r.verifiedRangeStart r.verifiedRangeLength)

def entries (r : ActionReceiptSummary) : List (String × CborValue) := [
  ("schemaVersion", .unsigned 1),
  ("jobId", .text r.jobId),
  ("planId", .text r.planId),
  ("stepId", .text r.stepId),
  ("actionId", optionalText r.actionId),
  ("attemptId", .text r.attemptId),
  ("permitId", .text r.permitId),
  ("disposition", .text r.disposition),
  ("evidenceSha256", .bytes r.evidenceSha256),
  ("verificationOutcome", optionalText r.verificationOutcome),
  ("verificationStrength", optionalText r.verificationStrength),
  ("verifiedRange", r.verifiedRange),
  ("typedSkipReason", optionalText r.typedSkipReason),
  ("failureClassification", optionalText r.failureClassification),
  ("facts", factsCbor r.facts)]

def toCbor (r : ActionReceiptSummary) : CborValue := .textMap r.entries

def toCanonicalBytes (r : ActionReceiptSummary) : Except CborError (List UInt8) :=
  r.toCbor.toCanonicalBytes

end ActionReceiptSummary

/-! ### Validation and the digest -/

/-- Why a receipt has no digest, or bytes are no receipt. All but the first are the model violations
of the source, told apart by their messages. -/
inductive ReceiptError where
  | cbor (error : CborError)
  | notAnOpaqueId (field : String) (error : IdError)
  | unknownDisposition (found : String)
  | evidenceLength (found : ℕ)
  | unknownVerificationOutcome (found : String)
  | strengthWithoutVerifiedOutcome
  | unknownVerificationStrength (found : String)
  | factKeyNotAnOpaqueId (key : String) (error : IdError)
  | bodyNotAMap
  | fieldNameNotText
  | duplicateField (name : String)
  | fieldCount (found : ℕ)
  | missingField (name : String)
  | schemaVersionNotOne
  | rangeNotAMapOrNull
  | rangeFieldNameNotText
  | duplicateRangeField (name : String)
  | rangeFieldCount
  | missingRangeField (name : String)
  | notUnsigned (name : String)
  | factsNotAMap
  | factNotText
  | notText (name : String)
  | notTextOrNull (name : String)
  | evidenceNotBytes
  | unknownFields (names : List String)

/-- Refuses with `error` unless the condition holds. -/
def require (condition : Bool) (error : ReceiptError) : Except ReceiptError Unit :=
  if condition then .ok () else .error error

def requireId (value : String) (error : IdError → ReceiptError) : Except ReceiptError Unit := do
  let _ ← (OpaqueId.new value).mapError error

/-- An identifier, unless it is absent. -/
def requireOptionalId (value : String) (error : IdError → ReceiptError) : Except ReceiptError Unit :=
  if value ≠ "" then requireId value error else .ok ()

/-- Refuses the first element the check refuses. -/
def requireEach {α : Type} (check : α → Except ReceiptError Unit) :
    List α → Except ReceiptError Unit
  | [] => .ok ()
  | a :: l => do
    check a
    requireEach check l

def dispositions : List String :=
  ["semanticSuccess", "confirmedNoEffect", "confirmedPartialEffect", "outcomeUnknown"]

def verificationOutcomes : List String := ["", "verified", "typedSkip", "failed"]

def verificationStrengths : List String :=
  ["fullHash", "sampledRanges", "prefixHash", "semanticOnly"]

namespace ActionReceiptSummary

/-- The identities every receipt has to carry, with their names. -/
def identities (r : ActionReceiptSummary) : List (String × String) := [
  ("jobId", r.jobId), ("planId", r.planId), ("stepId", r.stepId), ("attemptId", r.attemptId),
  ("permitId", r.permitId)]

/-- A typed skip is never any grade of verified. -/
def strengthIsConsistent (r : ActionReceiptSummary) : Bool :=
  if r.verificationStrength = "" then true else r.verificationOutcome = "verified"

def receiptDigest (r : ActionReceiptSummary) : Except ReceiptError Sha256Digest := do
  requireEach (fun f => requireId f.2 (.notAnOpaqueId f.1)) r.identities
  requireOptionalId r.actionId (.notAnOpaqueId "actionId")
  require (r.disposition ∈ dispositions) (.unknownDisposition r.disposition)
  require (r.evidenceSha256.length = 32) (.evidenceLength r.evidenceSha256.length)
  require (r.verificationOutcome ∈ verificationOutcomes)
    (.unknownVerificationOutcome r.verificationOutcome)
  require r.strengthIsConsistent .strengthWithoutVerifiedOutcome
  require (r.verificationStrength = "" ∨ r.verificationStrength ∈ verificationStrengths)
    (.unknownVerificationStrength r.verificationStrength)
  requireEach (fun fact => requireId fact.key (.factKeyNotAnOpaqueId fact.key)) r.facts
  (digestCanonical .actionReceipt r.toCbor).mapError .cbor

end ActionReceiptSummary

/-! ### Reading a receipt back -/

/-- The loop that collects named fields. -/
def collectFields (notText : ReceiptError) (duplicate : String → ReceiptError) :
    List (String × CborValue) → List (CborValue × CborValue) →
      Except ReceiptError (List (String × CborValue))
  | fields, [] => .ok fields
  | fields, (.text key, value) :: entries =>
    if (fields.lookup key).isSome then .error (duplicate key)
    else collectFields notText duplicate (fields ++ [(key, value)]) entries
  | _, _ => .error notText

def bodyEntries : CborValue → Except ReceiptError (List (CborValue × CborValue))
  | .map entries => .ok entries
  | _ => .error .bodyNotAMap

def readSchemaVersion : CborValue → Except ReceiptError Unit
  | .unsigned 1 => .ok ()
  | _ => .error .schemaVersionNotOne

def readText (name : String) : CborValue → Except ReceiptError String
  | .text value => .ok value
  | _ => .error (.notText name)

def readOptionalText (name : String) : CborValue → Except ReceiptError String
  | .text value => .ok value
  | .null => .ok ""
  | _ => .error (.notTextOrNull name)

def readUnsigned (name : String) : CborValue → Except ReceiptError UInt64
  | .unsigned value => .ok value
  | _ => .error (.notUnsigned name)

def readEvidence : CborValue → Except ReceiptError (List UInt8)
  | .bytes value => .ok value
  | _ => .error .evidenceNotBytes

def readFact : CborValue × CborValue → Except ReceiptError KeyValue
  | (.text key, .text value) => .ok ⟨key, value⟩
  | _ => .error .factNotText

def readFacts : CborValue → Except ReceiptError (List KeyValue)
  | .map entries => entries.mapM readFact
  | _ => .error .factsNotAMap

/-- The bounds of a range, taken from its two fields. -/
def takeRange : Taking ReceiptError String CborValue (UInt64 × UInt64) := do
  let start ← takeAs (.missingRangeField "start") "start" (readUnsigned "start")
  let length ← takeAs (.missingRangeField "length") "length" (readUnsigned "length")
  return (start, length)

def readRange : CborValue → Except ReceiptError (UInt64 × UInt64)
  | .null => .ok (0, 0)
  | .map entries => do
    let range ← collectFields .rangeFieldNameNotText .duplicateRangeField [] entries
    require (range.length = 2) .rangeFieldCount
    let (bounds, _) ← takeRange range
    return bounds
  | _ => .error .rangeNotAMapOrNull

def takeReceiptField {α : Type} (name : String) (read : CborValue → Except ReceiptError α) :
    Taking ReceiptError String CborValue α :=
  takeAs (.missingField name) name read

/-- The receipt, taken from its fifteen fields. -/
def takeReceipt : Taking ReceiptError String CborValue ActionReceiptSummary := do
  takeReceiptField "schemaVersion" readSchemaVersion
  let range ← takeReceiptField "verifiedRange" readRange
  let facts ← takeReceiptField "facts" readFacts
  let jobId ← takeReceiptField "jobId" (readText "jobId")
  let planId ← takeReceiptField "planId" (readText "planId")
  let stepId ← takeReceiptField "stepId" (readText "stepId")
  let actionId ← takeReceiptField "actionId" (readOptionalText "actionId")
  let attemptId ← takeReceiptField "attemptId" (readText "attemptId")
  let permitId ← takeReceiptField "permitId" (readText "permitId")
  let disposition ← takeReceiptField "disposition" (readText "disposition")
  let evidenceSha256 ← takeReceiptField "evidenceSha256" readEvidence
  let verificationOutcome ←
    takeReceiptField "verificationOutcome" (readOptionalText "verificationOutcome")
  let verificationStrength ←
    takeReceiptField "verificationStrength" (readOptionalText "verificationStrength")
  let typedSkipReason ← takeReceiptField "typedSkipReason" (readOptionalText "typedSkipReason")
  let failureClassification ←
    takeReceiptField "failureClassification" (readOptionalText "failureClassification")
  return { jobId, planId, stepId, actionId, attemptId, permitId, disposition, evidenceSha256,
           verificationOutcome, verificationStrength, verifiedRangeStart := range.1,
           verifiedRangeLength := range.2, typedSkipReason, failureClassification, facts }

/-- Reads the receipt a journal stores. -/
def ActionReceiptSummary.fromCanonicalBytes (input : List UInt8) :
    Except ReceiptError ActionReceiptSummary := do
  let value ← (decodeCanonical input).mapError .cbor
  let entries ← bodyEntries value
  let fields ← collectFields .fieldNameNotText .duplicateField [] entries
  require (fields.length = 15) (.fieldCount fields.length)
  let (receipt, fields) ← takeReceipt fields
  require fields.isEmpty (.unknownFields (fields.map Prod.fst))
  -- the same validation as at the hashing ingress
  let _ ← receipt.receiptDigest
  return receipt

/-! ### What the validation accepts -/

theorem require_eq_ok {condition : Bool} {error : ReceiptError} :
    require condition error = .ok u ↔ condition = true := by
  cases condition <;> simp [require]

variable {error : IdError → ReceiptError}

theorem requireId_eq_ok : requireId value error = .ok u ↔ Conforming value := by
  simp only [requireId, bind_eq_ok, mapError_eq_ok, OpaqueId.new_eq_ok]
  constructor
  · rintro ⟨o, rfl, -⟩
    exact o.conforming
  · intro h
    exact ⟨⟨value, h⟩, rfl, rfl⟩

theorem requireOptionalId_eq_ok :
    requireOptionalId value error = .ok u ↔ value = "" ∨ Conforming value := by
  unfold requireOptionalId
  by_cases h : value = ""
  · simp [h]
  · rw [if_pos h, requireId_eq_ok]
    simp [h]

theorem requireEach_eq_ok {α : Type} {check : α → Except ReceiptError Unit} :
    ∀ {l : List α}, requireEach check l = .ok u ↔ ∀ a ∈ l, check a = .ok ()
  | [] => by simp [requireEach]
  | a :: l => by
    rw [requireEach, bind_eq_ok, List.forall_mem_cons, ← requireEach_eq_ok]
    exact ⟨fun ⟨_, ha, hl⟩ => ⟨ha, hl⟩, fun ⟨ha, hl⟩ => ⟨(), ha, hl⟩⟩

namespace ActionReceiptSummary

/-- The receipt passes the checks in front of the digest. -/
def WellFormed (r : ActionReceiptSummary) : Prop :=
  (∀ f ∈ r.identities, Conforming f.2) ∧
  (r.actionId = "" ∨ Conforming r.actionId) ∧
  r.disposition ∈ dispositions ∧
  r.evidenceSha256.length = 32 ∧
  r.verificationOutcome ∈ verificationOutcomes ∧
  r.strengthIsConsistent = true ∧
  (r.verificationStrength = "" ∨ r.verificationStrength ∈ verificationStrengths) ∧
  ∀ fact ∈ r.facts, Conforming fact.key

instance (r : ActionReceiptSummary) : Decidable r.WellFormed :=
  inferInstanceAs (Decidable (_ ∧ _ ∧ _ ∧ _ ∧ _ ∧ _ ∧ _ ∧ _))

/-- A receipt has a digest exactly when it passes the checks and has a body. -/
theorem receiptDigest_eq_ok {r : ActionReceiptSummary} {d : Sha256Digest} :
    r.receiptDigest = .ok d ↔
      r.WellFormed ∧ digestCanonical .actionReceipt r.toCbor = .ok d := by
  simp only [receiptDigest, bind_eq_ok, exists_const, requireEach_eq_ok, requireId_eq_ok,
    requireOptionalId_eq_ok, require_eq_ok, decide_eq_true_eq, mapError_eq_ok, WellFormed, and_assoc]

end ActionReceiptSummary

/-! ### What the readers accept -/

section

variable {name : String} {v : CborValue}

theorem readSchemaVersion_eq_ok : readSchemaVersion v = .ok u ↔ v = .unsigned 1 := by
  unfold readSchemaVersion
  split
  · simp
  · next h => simpa using h

theorem readText_eq_ok : readText name v = .ok value ↔ v = .text value := by
  cases v <;> simp [readText]

theorem readOptionalText_eq_ok :
    readOptionalText name v = .ok value ↔ v = .text value ∨ v = .null ∧ value = "" := by
  cases v <;> simp [readOptionalText]

theorem readUnsigned_eq_ok {value : UInt64} :
    readUnsigned name v = .ok value ↔ v = .unsigned value := by
  cases v <;> simp [readUnsigned]

theorem readEvidence_eq_ok {value : List UInt8} : readEvidence v = .ok value ↔ v = .bytes value := by
  cases v <;> simp [readEvidence]

theorem readFact_eq_ok {pair : CborValue × CborValue} {fact : KeyValue} :
    readFact pair = .ok fact ↔ pair = (.text fact.key, .text fact.value) := by
  obtain ⟨key, value⟩ := fact
  unfold readFact
  split
  · simp [eq_comm]
  · next h =>
    simp only [reduceCtorEq, false_iff]
    exact h key value

theorem readFacts_eq_ok {facts : List KeyValue} : readFacts v = .ok facts ↔ v = factsCbor facts := by
  cases v with
  | map entries =>
    rw [readFacts, mapM_eq_ok, factsCbor, CborValue.map.injEq]
    simp only [readFact_eq_ok]
    rw [← List.forall₂_eq_eq_eq, List.forall₂_map_right_iff]
  | _ => simp [readFacts, factsCbor]

variable {duplicate : String → ReceiptError} {notText : ReceiptError}

/-- The fields collected are those of the map, and their names are distinct. -/
theorem map_cons_eq_textMap {k v : CborValue} {entries : List (CborValue × CborValue)}
    {fields : List (String × CborValue)} : CborValue.map ((k, v) :: entries) = .textMap fields ↔
      ∃ key rest, k = .text key ∧ fields = (key, v) :: rest ∧
        CborValue.map entries = .textMap rest := by
  rcases fields with _ | ⟨⟨key, w⟩, rest⟩ <;> simp [CborValue.textMap]
  tauto

theorem collectFields_eq_ok :
    ∀ {entries : List (CborValue × CborValue)} {fields result : List (String × CborValue)},
      (fields.map Prod.fst).Nodup →
      (collectFields notText duplicate fields entries = .ok result ↔
        (result.map Prod.fst).Nodup ∧ ∃ new : List (String × CborValue),
          result = fields ++ new ∧ CborValue.map entries = .textMap new)
  | [], fields, result, hn => by
    simp only [collectFields, CborValue.textMap, Except.ok.injEq, CborValue.map.injEq, List.nil_eq,
      List.map_eq_nil_iff, exists_eq_right, List.append_nil]
    constructor
    · rintro rfl
      exact ⟨hn, rfl⟩
    · rintro ⟨-, rfl⟩
      rfl
  | (k, value) :: entries, fields, result, hn => by
    simp only [map_cons_eq_textMap]
    cases k with
    | text key =>
      rw [collectFields]
      by_cases hdup : (fields.lookup key).isSome = true
      · rw [if_pos hdup]
        simp only [reduceCtorEq, false_iff]
        rintro ⟨hres, _, rfl, _, new, ⟨⟩, rfl, -⟩
        obtain ⟨a, ha⟩ := Option.isSome_iff_exists.mp hdup
        have hold : key ∈ fields.map Prod.fst := List.mem_map.mpr ⟨_, mem_of_lookup ha, rfl⟩
        rw [List.map_append, List.nodup_append] at hres
        exact hres.2.2 key hold key List.mem_cons_self rfl
      · rw [if_neg hdup]
        have hfresh : key ∉ fields.map Prod.fst := by
          intro hmem
          obtain ⟨e, he, rfl⟩ := List.mem_map.mp hmem
          exact hdup (by rw [lookup_of_mem hn he]; rfl)
        have hn' : ((fields ++ [(key, value)]).map Prod.fst).Nodup := by
          rw [List.map_append, List.nodup_append]
          refine ⟨hn, List.nodup_singleton _, fun a ha b hb hab => ?_⟩
          obtain rfl : b = key := by simpa using hb
          exact hfresh (hab ▸ ha)
        rw [collectFields_eq_ok hn']
        refine and_congr_right fun _ => ⟨?_, ?_⟩
        · rintro ⟨new, rfl, hnew⟩
          exact ⟨(key, value) :: new, by simp, key, new, rfl, rfl, hnew⟩
        · rintro ⟨_, rfl, _, new, ⟨⟩, rfl, hnew⟩
          exact ⟨new, by simp, hnew⟩
    | _ => simp [collectFields]

theorem collectFields_nil_eq_ok {entries : List (CborValue × CborValue)} :
    collectFields notText duplicate [] entries = .ok fields ↔
      (fields.map Prod.fst).Nodup ∧ CborValue.map entries = .textMap fields := by
  have hnil : (([] : List (String × CborValue)).map Prod.fst).Nodup := List.nodup_nil
  rw [collectFields_eq_ok hnil]
  simp

/-- A range is read from `null`, or from a map of exactly its two bounds. -/
theorem readRange_eq_ok {start length : UInt64} :
    readRange v = .ok (start, length) ↔
      v = .null ∧ start = 0 ∧ length = 0 ∨
        ∃ fields, v = .textMap fields ∧ (rangeEntries start length).Perm fields := by
  have htake : ∀ fields rest : List (String × CborValue),
      takeRange fields = .ok ((start, length), rest) ↔
        (∀ e ∈ rangeEntries start length, fields.lookup e.1 = some e.2) ∧
          left fields ["length", "start"] = rest := by
    intro fields rest
    nth_rewrite 1 [← left_nil fields]
    simp only [takeRange, takeAs_bind_left, readUnsigned_eq_ok, exists_eq_right, pure_eq_ok,
      Prod.mk.injEq, rangeEntries, List.forall_mem_cons]
    constructor
    · rintro ⟨-, _, h1, -, _, h2, ⟨rfl, rfl⟩, hrest⟩
      exact ⟨⟨h1, h2, nofun⟩, hrest⟩
    · rintro ⟨⟨h1, h2, -⟩, hrest⟩
      exact ⟨nofun, _, h1, by decide, _, h2, ⟨rfl, rfl⟩, hrest⟩
  have hnames : ((rangeEntries start length).map Prod.fst).Nodup :=
    (by decide : ["start", "length"].Nodup)
  rcases v with _ | _ | _ | _ | _ | entries | _ | _
  case map =>
    simp only [readRange, bind_eq_ok, collectFields_nil_eq_ok, require_eq_ok, decide_eq_true_eq,
      exists_const, pure, Except.pure, Except.ok.injEq, reduceCtorEq, false_and, false_or]
    constructor
    · rintro ⟨fields, ⟨-, hfields⟩, hlen, ⟨bounds, rest⟩, hread, rfl⟩
      exact ⟨fields, hfields, perm_of_lookup hnames hlen.le ((htake _ _).mp hread).1⟩
    · rintro ⟨fields, hfields, hperm⟩
      have hn := (hperm.map Prod.fst).nodup_iff.mp hnames
      refine ⟨fields, ⟨hn, hfields⟩, hperm.length_eq.symm, _, (htake _ _).mpr ⟨?_, rfl⟩, rfl⟩
      exact fun e he => lookup_of_mem hn (hperm.mem_iff.mp he)
  all_goals simp [readRange, CborValue.textMap, eq_comm]

end

def HoldsOptional (fields : List (String × CborValue)) (name value : String) : Prop :=
  ∃ v, fields.lookup name = some v ∧ (v = .text value ∨ v = .null ∧ value = "")

/-- The fifteen fields are those of the receipt, as far as the reader can tell. -/
structure Holds (fields : List (String × CborValue)) (r : ActionReceiptSummary) : Prop where
  schemaVersion : fields.lookup "schemaVersion" = some (.unsigned 1)
  verifiedRange : ∃ v, fields.lookup "verifiedRange" = some v ∧
    readRange v = .ok (r.verifiedRangeStart, r.verifiedRangeLength)
  facts : fields.lookup "facts" = some (factsCbor r.facts)
  jobId : fields.lookup "jobId" = some (.text r.jobId)
  planId : fields.lookup "planId" = some (.text r.planId)
  stepId : fields.lookup "stepId" = some (.text r.stepId)
  actionId : HoldsOptional fields "actionId" r.actionId
  attemptId : fields.lookup "attemptId" = some (.text r.attemptId)
  permitId : fields.lookup "permitId" = some (.text r.permitId)
  disposition : fields.lookup "disposition" = some (.text r.disposition)
  evidenceSha256 : fields.lookup "evidenceSha256" = some (.bytes r.evidenceSha256)
  verificationOutcome : HoldsOptional fields "verificationOutcome" r.verificationOutcome
  verificationStrength : HoldsOptional fields "verificationStrength" r.verificationStrength
  typedSkipReason : HoldsOptional fields "typedSkipReason" r.typedSkipReason
  failureClassification : HoldsOptional fields "failureClassification" r.failureClassification

/-- The names of the fifteen fields, the one taken last in front. -/
def takenNames : List String := [
  "failureClassification", "typedSkipReason", "verificationStrength", "verificationOutcome",
  "evidenceSha256", "disposition", "permitId", "attemptId", "actionId", "stepId", "planId", "jobId",
  "facts", "verifiedRange", "schemaVersion"]

variable {r : ActionReceiptSummary}

theorem takeReceipt_eq_ok {rest : List (String × CborValue)} :
    takeReceipt fields = .ok (r, rest) ↔ Holds fields r ∧ left fields takenNames = rest := by
  nth_rewrite 1 [← left_nil fields]
  simp only [takeReceipt, takeReceiptField, takeAs_bind_left, readSchemaVersion_eq_ok,
    readText_eq_ok, readOptionalText_eq_ok, readEvidence_eq_ok, readFacts_eq_ok, exists_eq_right,
    exists_const, pure_eq_ok, Prod.mk.injEq]
  constructor
  · rintro ⟨-, h1, -, _, h2, -, _, h3, -, _, h4, -, _, h5, -, _, h6, -, _, h7, -, _, h8, -, _, h9, -,
      _, h10, -, _, h11, -, _, h12, -, _, h13, -, _, h14, -, _, h15, rfl, hrest⟩
    exact ⟨⟨h1, h2, h3, h4, h5, h6, h7, h8, h9, h10, h11, h12, h13, h14, h15⟩, hrest⟩
  · rintro ⟨⟨h1, h2, h3, h4, h5, h6, h7, h8, h9, h10, h11, h12, h13, h14, h15⟩, hrest⟩
    refine ⟨by decide, h1, by decide, _, h2, by decide, _, h3, by decide, _, h4, by decide, _, h5,
      by decide, _, h6, by decide, _, h7, by decide, _, h8, by decide, _, h9, by decide, _, h10,
      by decide, _, h11, by decide, _, h12, by decide, _, h13, by decide, _, h14, by decide, _, h15,
      rfl, hrest⟩

theorem Holds.lookup (h : Holds fields r) :
    ∀ name ∈ takenNames, ∃ v, fields.lookup name = some v := by
  have hoptional : ∀ {name value : String}, HoldsOptional fields name value →
      ∃ v, fields.lookup name = some v := fun ⟨v, hv, _⟩ => ⟨v, hv⟩
  obtain ⟨range, hrange, -⟩ := h.verifiedRange
  simp only [takenNames, List.forall_mem_cons]
  exact ⟨hoptional h.failureClassification, hoptional h.typedSkipReason,
    hoptional h.verificationStrength, hoptional h.verificationOutcome, ⟨_, h.evidenceSha256⟩,
    ⟨_, h.disposition⟩, ⟨_, h.permitId⟩, ⟨_, h.attemptId⟩, hoptional h.actionId, ⟨_, h.stepId⟩,
    ⟨_, h.planId⟩, ⟨_, h.jobId⟩, ⟨_, h.facts⟩, ⟨range, hrange⟩, ⟨_, h.schemaVersion⟩, nofun⟩

theorem bodyEntries_eq_ok {v : CborValue} {entries : List (CborValue × CborValue)} :
    bodyEntries v = .ok entries ↔ v = .map entries := by
  cases v <;> simp [bodyEntries]

/-- **The bytes of a receipt** are the canonical form of a map of fifteen fields that hold what the
receipt says, and the receipt has a digest. That no field is left at the end is a consequence. -/
theorem ActionReceiptSummary.fromCanonicalBytes_eq_ok {b : List UInt8} :
    fromCanonicalBytes b = .ok r ↔
      (∃ fields, decodeCanonical b = .ok (.textMap fields) ∧ fields.length = 15 ∧ Holds fields r) ∧
        ∃ d, r.receiptDigest = .ok d := by
  simp only [fromCanonicalBytes, bind_eq_ok, mapError_eq_ok, bodyEntries_eq_ok,
    collectFields_nil_eq_ok, require_eq_ok, decide_eq_true_eq, exists_const, pure, Except.pure,
    Except.ok.injEq, Prod.exists, takeReceipt_eq_ok]
  constructor
  · rintro ⟨v, hdecode, entries, rfl, fields, ⟨-, hfields⟩, hlen, receipt, rest, ⟨hholds, rfl⟩, -, d,
      hd, rfl⟩
    exact ⟨⟨fields, hfields ▸ hdecode, hlen, hholds⟩, d, hd⟩
  · rintro ⟨⟨fields, hdecode, hlen, hholds⟩, d, hd⟩
    have hn := nodup_textEntries.mp (nodup_keys_of_decode hdecode)
    have hleft : left fields takenNames = [] :=
      left_eq_nil (by decide) hlen.le hholds.lookup
    exact ⟨_, hdecode, _, rfl, fields, ⟨hn, rfl⟩, hlen, r, _, ⟨hholds, rfl⟩, by rw [hleft]; rfl, d, hd,
      rfl⟩

end ArkForge.Ipc.Receipt
