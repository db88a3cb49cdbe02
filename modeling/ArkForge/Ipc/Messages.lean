import Mathlib.Logic.Function.Basic
import Mathlib.Tactic.IntervalCases
import ArkForge.Ipc.Snapshots

/-! # Message types

Every decoder starts from defaults, goes through the fields and matches on their numbers, and its last
arm leaves the value as it is. The fields of a message type are numbered from one on, so a type is the
list of its fields, under the names of the source (`ofFields`). -/

namespace ArkForge.Ipc.Messages

open Receipt Jobs Wire

/-! ### Decoders -/

/-- A message type by its decoder: the numbers it matches on, what it starts from, what it does with a
field, and what it makes of them all. -/
structure MessageType (σ μ : Type) where
  numbers : List ℕ
  start : σ
  field : σ → ℕ → FieldValue → Except WireError σ
  finish : σ → Except WireError μ
  /-- The last arm of the match. -/
  other : ∀ s n value, n ∉ numbers → field s n value = .ok s
  /-- No arm takes eight fixed bytes. -/
  rejects : ∀ s n bytes, n ∈ numbers →
    field s n (.fixed64 bytes) = .error (.unsupportedWireType 9)

variable {σ μ α : Type}

def MessageType.decode (t : MessageType σ μ) (input : List UInt8) : Except WireError μ :=
  foldFields id t.field t.start input >>= t.finish

/-- How a value is read from a field, whose number the errors name. -/
structure Reader (α : Type) where
  read : ℕ → FieldValue → Except WireError α
  rejects : ∀ n bytes, read n (.fixed64 bytes) = .error (.unsupportedWireType 9)

namespace Reader

def text : Reader String := ⟨fun n value => value.asStr n, fun _ _ => rfl⟩

def bytes : Reader (List UInt8) := ⟨fun _ value => value.asBytes, fun _ _ => rfl⟩

def u64 : Reader UInt64 := ⟨fun _ value => value.asU64, fun _ _ => rfl⟩

/-- The upper half is dropped. -/
def u32 : Reader UInt32 := ⟨fun _ value => value.asU64.map UInt64.toUInt32, fun _ _ => rfl⟩

def bool : Reader Bool := ⟨fun _ value => value.asBool, fun _ _ => rfl⟩

def enum (parse : ℤ → Option α) : Reader α := ⟨fun n value => decodeEnum n value parse, fun _ _ => rfl⟩

def message (t : MessageType σ μ) : Reader μ :=
  ⟨fun _ value => value.asBytes >>= t.decode, fun _ _ => rfl⟩

end Reader

/-- A field of a message type: what it starts from, and what a value that is read makes of it. -/
structure FieldType where
  name : String
  Read : Type
  Value : Type
  initial : Value
  reader : Reader Read
  set : Value → Read → Value
  /-- A message cannot be without the field. -/
  missing : Value → Bool := fun _ => false

/-- The last value counts. -/
def single (name : String) (initial : α) (reader : Reader α) : FieldType where
  name
  Read := α
  Value := α
  initial
  reader
  set _ x := x

def text (name : String) : FieldType := single name "" .text

def bytes (name : String) : FieldType := single name [] .bytes

def u64 (name : String) : FieldType := single name 0 .u64

def u32 (name : String) : FieldType := single name 0 .u32

def bool (name : String) : FieldType := single name false .bool

def optional (name : String) (reader : Reader α) : FieldType where
  name
  Read := α
  Value := Option α
  initial := none
  reader
  set _ x := some x

def required (name : String) (reader : Reader α) : FieldType :=
  { optional name reader with missing := Option.isNone }

def repeated (name : String) (reader : Reader α) : FieldType where
  name
  Read := α
  Value := List α
  initial := []
  reader
  set xs x := xs ++ [x]

def Values (fields : List FieldType) : Type := (i : Fin fields.length) → (fields.get i).Value

variable {fields : List FieldType}

/-- What a field of this number does; there is no field zero. -/
def Values.read (s : Values fields) (value : FieldValue) : ℕ → Except WireError (Values fields)
  | 0 => .ok s
  | n + 1 =>
    if h : n < fields.length then
      ((fields.get ⟨n, h⟩).reader.read (n + 1) value).map fun x =>
        Function.update s ⟨n, h⟩ ((fields.get ⟨n, h⟩).set (s ⟨n, h⟩) x)
    else .ok s

def ofFields (fields : List FieldType) (finish : Values fields → Except WireError μ) :
    MessageType (Values fields) μ where
  numbers := List.range' 1 fields.length
  start i := (fields.get i).initial
  field s n value := s.read value n
  finish
  other s n value hn := by
    cases n with
    | zero => rfl
    | succ n => exact dif_neg fun h => hn (List.mem_range'_1.mpr ⟨by omega, by omega⟩)
  rejects s n bytes hn := by
    obtain ⟨hpos, hlt⟩ := List.mem_range'_1.mp hn
    obtain ⟨n, rfl⟩ := Nat.exists_eq_add_of_le' hpos
    rw [Values.read, dif_pos (by omega), Reader.rejects]
    rfl

/-- A message is the values of its fields, unless one is missing. -/
def record (name : String) (fields : List FieldType) : MessageType (Values fields) (Values fields) :=
  ofFields fields fun s =>
    match (List.finRange fields.length).find? fun i => (fields.get i).missing (s i) with
    | some i => .error (.missingField name (i + 1))
    | none => .ok s

/-! ### Enumerations -/

/-- The variants have the numbers from one on. -/
def numbered (all : List α) (value : ℤ) : Option α :=
  if 1 ≤ value then all[(value - 1).toNat]? else none

inductive SessionKind where
  | publicKind
  | controller

def SessionKind.fromWire : ℤ → Option SessionKind := numbered [.publicKind, .controller]

inductive Api where
  | importArtifact
  | inspectArtifact
  | discoverDevices
  | probeDevice
  | materializePlan
  | startExecution
  | watchJob
  | cancelJob
  | reconcileJob
  | planSupersedingRecovery
  | getRecoveryGuide
  | submitStepPermit
  | submitManagedControlReceipt
  | getJob
  | listJobs

def Api.fromWire : ℤ → Option Api := numbered [.importArtifact, .inspectArtifact, .discoverDevices,
  .probeDevice, .materializePlan, .startExecution, .watchJob, .cancelJob, .reconcileJob,
  .planSupersedingRecovery, .getRecoveryGuide, .submitStepPermit, .submitManagedControlReceipt,
  .getJob, .listJobs]

inductive Status where
  | ok
  | refused
  | unavailable
  | invalidArgument
  | notFound
  | internal

def Status.fromWire : ℤ → Option Status :=
  numbered [.ok, .refused, .unavailable, .invalidArgument, .notFound, .internal]

def JobEventKind.fromWire : ℤ → Option JobEventKind := numbered [.stateChanged, .stepAdmissionRequested,
  .managedControlRequested, .actionReceipt, .stepCheckpointed, .postflightRecorded,
  .outcomeClassified, .possibleEffectSet, .recoveryAssessment]

def ManagedControlAction.fromWire : ℤ → Option ManagedControlAction :=
  numbered [.enterUpdater, .rebootToNormal, .readProductFacts, .readBuildFacts]

/-! ### Sessions -/

def Hello := record "Hello" [u32 "protocol_major", u32 "protocol_minor",
  required "session_kind" (.enum SessionKind.fromWire)]

def HelloAck := record "HelloAck" [u32 "protocol_major", u32 "protocol_minor",
  single "session_kind" .publicKind (.enum SessionKind.fromWire), text "daemon_version",
  optional "refusal" .text, bool "execution_ready", repeated "execution_blockers" .text,
  text "toolchain_id", text "toolchain_sha256"]

def Request := record "Request" [text "request_id", required "api" (.enum Api.fromWire),
  bytes "payload"]

def Response := record "Response" [text "request_id", required "api" (.enum Api.fromWire),
  required "status" (.enum Status.fromWire), bytes "payload", u64 "stream_sequence",
  bool "stream_end"]

def ErrorBody := record "ErrorBody" [text "code", text "message"]

def KeyValue : MessageType KeyValue KeyValue where
  numbers := List.range' 1 2
  start := ⟨"", ""⟩
  field := Snapshots.KeyValue.field
  finish := .ok
  other s n value h := by
    unfold Snapshots.KeyValue.field
    split <;> first | rfl | exact absurd (by decide) h
  rejects s n value h := by
    obtain ⟨hpos, hlt⟩ := List.mem_range'_1.mp h
    interval_cases n <;> rfl

/-! ### Artifacts -/

def ImportArtifactResponse := record "ImportArtifactResponse" [text "artifact_id", text "sha256",
  u64 "size_bytes", bool "deduplicated"]

def ArchiveMember := record "ArchiveMember" [text "path", u64 "size_bytes", text "sha256",
  text "role"]

/-- The size counts only if it is said to be there. -/
def PartitionEntry := ofFields [u32 "index", text "name", u64 "offset_sectors", u64 "size",
  bool "has_size", text "attribute", text "grammar_branch"] fun s =>
    .ok (s 0, s 1, s 2, cond (s 4) (some (s 3)) none, s 5, s 6)

def InspectArtifactResponse := record "InspectArtifactResponse" [text "format_id",
  text "content_sha256", u64 "size_bytes", repeated "members" (.message ArchiveMember),
  repeated "partitions" (.message PartitionEntry), repeated "build_facts" (.message KeyValue),
  repeated "unclassified_members" .text,
  repeated "execution_relevant_unknowns" (.message KeyValue), text "confidence",
  text "manifest_sha256"]

/-! ### Plans -/

def PublicStep := record "PublicStep" [text "step_id", text "kind", text "effect",
  text "cancellation", text "binding", text "semantic_target", text "content_sha256",
  text "expected_mode_before", text "expected_mode_after", text "private_action_sha256"]

def Effect := record "Effect" [text "kind", text "target", u64 "range_start", u64 "range_length",
  text "content_sha256"]

def ExecutablePlan := record "ExecutablePlan" [text "plan_id", text "plan_sha256",
  text "provider_execution_plan_sha256", text "public_projection_sha256",
  repeated "public_steps" (.message PublicStep), repeated "persistent_effects" (.message Effect),
  repeated "transient_effects" (.message Effect), repeated "data_impact" (.message KeyValue),
  u64 "expires_at_epoch_ms", text "execution_purpose", text "mechanics_maturity_key_sha256",
  text "mechanics_maturity_state", text "mechanics_maturity_campaign",
  text "authority_support_key_sha256", text "authority_support_state",
  text "authority_support_campaign"]

def Assessment := record "Assessment" [repeated "would_be_steps" (.message PublicStep),
  repeated "known_persistent_effects" (.message Effect), repeated "unknowns" (.message KeyValue),
  repeated "evidence_requirements" (.message KeyValue), text "availability",
  text "unavailable_reason", repeated "data_impact" (.message KeyValue),
  text "mechanics_maturity_key_sha256", text "mechanics_maturity_state",
  text "authority_support_key_sha256", text "authority_support_state"]

/-- One of the two is there, and not both. -/
def MaterializePlanResponse := ofFields [optional "plan" (.message ExecutablePlan),
  optional "assessment" (.message Assessment)] fun s =>
    match s 0, s 1 with
    | some plan, none => .ok (Sum.inl plan)
    | none, some assessment => .ok (Sum.inr assessment)
    | _, _ => .error (.missingField "MaterializePlanResponse" 1)

/-! ### Jobs -/

def WatchJobRequest := record "WatchJobRequest" [text "job_id", u64 "from_sequence"]

def JobSummary := record "JobSummary" [text "job_id", text "plan_id", bytes "plan_sha256",
  text "state", bool "terminal", text "current_step_id", u64 "completed_steps", u64 "total_steps",
  u64 "last_sequence", text "stopped_reason"]

def StepAdmissionSnapshot : MessageType StepAdmissionSnapshot StepAdmissionSnapshot where
  numbers := List.range' 1 21
  start := Snapshots.blank
  field := Snapshots.field
  finish := .ok
  other s n value h := by
    unfold Snapshots.field
    split <;> first | rfl | exact absurd (by decide) h
  rejects s n value h := by
    obtain ⟨hpos, hlt⟩ := List.mem_range'_1.mp h
    interval_cases n <;> rfl

def ManagedControlRequest := record "ManagedControlRequest" [text "job_id", text "step_id",
  text "request_id", single "action" .readBuildFacts (.enum ManagedControlAction.fromWire),
  text "permit_id", repeated "expected_facts" (.message KeyValue), u64 "deadline_epoch_ms"]

def ActionReceiptSummary := record "ActionReceiptSummary" [text "job_id", text "plan_id",
  text "step_id", text "action_id", text "attempt_id", text "permit_id", text "disposition",
  bytes "evidence_sha256", text "verification_outcome", text "verification_strength",
  u64 "verified_range_start", u64 "verified_range_length", text "typed_skip_reason",
  text "failure_classification", repeated "facts" (.message KeyValue)]

def JobEvent := record "JobEvent" [text "job_id", u64 "sequence",
  single "kind" .stateChanged (.enum JobEventKind.fromWire), u64 "at_epoch_ms",
  bytes "journal_record_sha256", text "job_state",
  optional "admission" (.message StepAdmissionSnapshot),
  optional "control_request" (.message ManagedControlRequest),
  optional "receipt" (.message ActionReceiptSummary), repeated "facts" (.message KeyValue)]

def SubmitStepPermitRequest := record "SubmitStepPermitRequest" [text "job_id", text "request_id",
  bytes "permit_cbor", bytes "integrity_tag", u64 "pairing_epoch", text "refusal"]

def SubmissionOutcome := record "SubmissionOutcome" [bool "accepted", text "rejection_code",
  text "rejection_message"]

def SubmitManagedControlReceiptRequest := record "SubmitManagedControlReceiptRequest" [text "job_id",
  text "request_id", single "action" .readBuildFacts (.enum ManagedControlAction.fromWire),
  bool "accepted", repeated "facts" (.message KeyValue), bytes "evidence_sha256",
  text "failure_reason"]

/-! ### Recovery -/

def ClosedControlEvidence := record "ClosedControlEvidence" [text "step_id", text "permit_id",
  text "request_id", required "action" (.enum ManagedControlAction.fromWire),
  text "dispatch_record_sha256", u64 "deadline_epoch_ms", u64 "dispatched_at_epoch_ms",
  text "attempt_id", text "controller_session_id"]

def RecoverySourceEvidence := record "RecoverySourceEvidence" [text "plan_id", text "plan_sha256",
  text "journal_head_sha256", u64 "journal_sequence",
  optional "closed_control" (.message ClosedControlEvidence)]

def SupersedingRecoveryAssessment := record "SupersedingRecoveryAssessment" [text "job_id",
  bool "eligible", text "blocker_code", text "blocker_reason", repeated "covered_effects" .text,
  text "recovery_contract_id", text "recovery_contract_version", text "recovery_contract_sha256",
  optional "source" (.message RecoverySourceEvidence), text "candidate_plan_id",
  text "candidate_plan_sha256", text "candidate_profile_sha256", text "candidate_artifact_sha256"]

/-! ### All of them -/

/-- A message type, with the types it goes through. -/
structure IpcMessage where
  State : Type
  Message : Type
  type : MessageType State Message

/-- The message types that are decoded. -/
def ipcMessages : List IpcMessage := [⟨_, _, Hello⟩, ⟨_, _, HelloAck⟩, ⟨_, _, Request⟩,
  ⟨_, _, Response⟩, ⟨_, _, ErrorBody⟩, ⟨_, _, KeyValue⟩, ⟨_, _, ImportArtifactResponse⟩,
  ⟨_, _, ArchiveMember⟩, ⟨_, _, PartitionEntry⟩, ⟨_, _, InspectArtifactResponse⟩, ⟨_, _, PublicStep⟩,
  ⟨_, _, Effect⟩, ⟨_, _, ExecutablePlan⟩, ⟨_, _, Assessment⟩, ⟨_, _, MaterializePlanResponse⟩,
  ⟨_, _, WatchJobRequest⟩, ⟨_, _, JobSummary⟩, ⟨_, _, StepAdmissionSnapshot⟩,
  ⟨_, _, ManagedControlRequest⟩, ⟨_, _, ActionReceiptSummary⟩, ⟨_, _, JobEvent⟩,
  ⟨_, _, SubmitStepPermitRequest⟩, ⟨_, _, SubmissionOutcome⟩,
  ⟨_, _, SubmitManagedControlReceiptRequest⟩, ⟨_, _, ClosedControlEvidence⟩,
  ⟨_, _, RecoverySourceEvidence⟩, ⟨_, _, SupersedingRecoveryAssessment⟩]

end ArkForge.Ipc.Messages
