import ArkForge.Ipc.Jobs
import ArkForge.Ipc.Wire

/-! # Admission snapshots on the wire

A snapshot is written field by field, with defaults left out, and read back as it was. -/

namespace ArkForge.Ipc.Snapshots

open Core.Cbor
open Receipt Jobs Wire

/-! ### Key and value -/

namespace KeyValue

def encode (pair : KeyValue) : List UInt8 := writeString 1 pair.key ++ writeString 2 pair.value

def field (pair : KeyValue) (field : ℕ) (value : FieldValue) : Except WireError KeyValue :=
  match field with
  | 1 => (value.asStr 1).map fun x => { pair with key := x }
  | 2 => (value.asStr 2).map fun x => { pair with value := x }
  | _ => .ok pair

def decode (input : List UInt8) : Except WireError KeyValue := foldFields id field ⟨"", ""⟩ input

end KeyValue

theorem KeyValue.decode_encode {pair : KeyValue} (h : (KeyValue.encode pair).length < 2 ^ 64) :
    KeyValue.decode (KeyValue.encode pair) = .ok pair := by
  rw [KeyValue.encode, List.length_append] at h
  have hkey := length_writeBytes_le 1 (utf8 pair.key)
  have hvalue := length_writeBytes_le 2 (utf8 pair.value)
  rw [writeString, writeString] at h
  calc KeyValue.decode (KeyValue.encode pair)
      = foldFields id KeyValue.field ⟨pair.key, ""⟩ (writeString 2 pair.value) :=
        foldFields_text (fun x => KeyValue.mk x "") ⟨by decide, by decide⟩ (by omega)
          (congrArg (Except.map _) (asStr_utf8 _)) _
    _ = foldFields id KeyValue.field pair [] := by
        rw [← List.append_nil (writeString 2 pair.value)]
        exact foldFields_text (KeyValue.mk pair.key) ⟨by decide, by decide⟩ (by omega)
          (congrArg (Except.map _) (asStr_utf8 _)) _
    _ = .ok pair := foldFields_nil _

/-! ### Snapshots -/

def fields (m : StepAdmissionSnapshot) : List (List UInt8) := [
  writeString 1 m.jobId, writeString 2 m.planId, writeBytes 3 m.planSha256, writeString 4 m.stepId,
  writeString 5 m.attemptId, writeBytes 6 m.publicStepSha256, writeBytes 7 m.privateActionSha256,
  writeBytes 8 m.effectSetSha256, writeBytes 9 m.admittedDeviceFactsSha256,
  writeString 10 m.observedMode, writeUint64 11 m.observedAtEpochMs,
  writeUint64 12 m.snapshotLifetimeMs, writeString 13 m.requestId, writeBytes 14 m.topologySha256,
  writeBytes 15 m.descriptorSha256, writeBytes 16 m.serialSha256,
  writeString 17 m.serialEvidenceKind,
  m.protocolIdentity.flatMap fun fact => writeMessage 18 (KeyValue.encode fact),
  writeString 19 m.identityStrength, writeBool 20 m.malformedDescriptor,
  writeBytes 21 m.transportSessionSha256]

def encode (m : StepAdmissionSnapshot) : List UInt8 := (fields m).flatten

def field (s : StepAdmissionSnapshot) (field : ℕ) (value : FieldValue) :
    Except WireError StepAdmissionSnapshot :=
  match field with
  | 1 => (value.asStr 1).map fun x => { s with jobId := x }
  | 2 => (value.asStr 2).map fun x => { s with planId := x }
  | 3 => value.asBytes.map fun x => { s with planSha256 := x }
  | 4 => (value.asStr 4).map fun x => { s with stepId := x }
  | 5 => (value.asStr 5).map fun x => { s with attemptId := x }
  | 6 => value.asBytes.map fun x => { s with publicStepSha256 := x }
  | 7 => value.asBytes.map fun x => { s with privateActionSha256 := x }
  | 8 => value.asBytes.map fun x => { s with effectSetSha256 := x }
  | 9 => value.asBytes.map fun x => { s with admittedDeviceFactsSha256 := x }
  | 10 => (value.asStr 10).map fun x => { s with observedMode := x }
  | 11 => value.asU64.map fun x => { s with observedAtEpochMs := x }
  | 12 => value.asU64.map fun x => { s with snapshotLifetimeMs := x }
  | 13 => (value.asStr 13).map fun x => { s with requestId := x }
  | 14 => value.asBytes.map fun x => { s with topologySha256 := x }
  | 15 => value.asBytes.map fun x => { s with descriptorSha256 := x }
  | 16 => value.asBytes.map fun x => { s with serialSha256 := x }
  | 17 => (value.asStr 17).map fun x => { s with serialEvidenceKind := x }
  | 18 => do
    let raw ← value.asBytes
    let fact ← KeyValue.decode raw
    return { s with protocolIdentity := s.protocolIdentity ++ [fact] }
  | 19 => (value.asStr 19).map fun x => { s with identityStrength := x }
  | 20 => value.asBool.map fun x => { s with malformedDescriptor := x }
  | 21 => value.asBytes.map fun x => { s with transportSessionSha256 := x }
  | _ => .ok s

/-- The first `k` fields of the snapshot, with defaults for the others. -/
def upTo (m : StepAdmissionSnapshot) (k : ℕ) : StepAdmissionSnapshot where
  jobId := if 1 ≤ k then m.jobId else ""
  planId := if 2 ≤ k then m.planId else ""
  planSha256 := if 3 ≤ k then m.planSha256 else []
  stepId := if 4 ≤ k then m.stepId else ""
  attemptId := if 5 ≤ k then m.attemptId else ""
  publicStepSha256 := if 6 ≤ k then m.publicStepSha256 else []
  privateActionSha256 := if 7 ≤ k then m.privateActionSha256 else []
  effectSetSha256 := if 8 ≤ k then m.effectSetSha256 else []
  admittedDeviceFactsSha256 := if 9 ≤ k then m.admittedDeviceFactsSha256 else []
  observedMode := if 10 ≤ k then m.observedMode else ""
  observedAtEpochMs := if 11 ≤ k then m.observedAtEpochMs else 0
  snapshotLifetimeMs := if 12 ≤ k then m.snapshotLifetimeMs else 0
  requestId := if 13 ≤ k then m.requestId else ""
  topologySha256 := if 14 ≤ k then m.topologySha256 else []
  descriptorSha256 := if 15 ≤ k then m.descriptorSha256 else []
  serialSha256 := if 16 ≤ k then m.serialSha256 else []
  serialEvidenceKind := if 17 ≤ k then m.serialEvidenceKind else ""
  protocolIdentity := if 18 ≤ k then m.protocolIdentity else []
  identityStrength := if 19 ≤ k then m.identityStrength else ""
  malformedDescriptor := if 20 ≤ k then m.malformedDescriptor else false
  transportSessionSha256 := if 21 ≤ k then m.transportSessionSha256 else []

def blank : StepAdmissionSnapshot :=
  upTo ⟨"", "", [], "", "", [], [], [], [], "", 0, 0, "", [], [], [], "", [], "", false, []⟩ 0

def decode (input : List UInt8) : Except WireError StepAdmissionSnapshot :=
  foldFields id field blank input

section Fields

variable {m : StepAdmissionSnapshot}

theorem read_text {k : ℕ} {text : String} {set : String → StepAdmissionSnapshot}
    (hlen : (writeString (k + 1) text).length < 2 ^ 64) (rest : List UInt8) (hk : k < 21 := by decide)
    (hstep : ∀ value, field (upTo m k) (k + 1) value =
      (value.asStr (k + 1)).map set := by exact fun _ => rfl)
    (hset : set text = upTo m (k + 1) := by rfl) (hdefault : set "" = upTo m k := by rfl) :
    foldFields id field (upTo m k) (writeString (k + 1) text ++ rest) =
      foldFields id field (upTo m (k + 1)) rest := by
  rw [← hdefault] at hstep ⊢
  rw [← hset]
  refine foldFields_text set ⟨by omega, by omega⟩ ((length_writeBytes_le _ _).trans_lt hlen) ?_ rest
  rw [hstep, asStr_utf8]
  rfl

theorem read_bytes {k : ℕ} {bytes : List UInt8} {set : List UInt8 → StepAdmissionSnapshot}
    (hlen : (writeBytes (k + 1) bytes).length < 2 ^ 64) (rest : List UInt8) (hk : k < 21 := by decide)
    (hstep : ∀ value, field (upTo m k) (k + 1) value = value.asBytes.map set := by exact fun _ => rfl)
    (hset : set bytes = upTo m (k + 1) := by rfl) (hdefault : set [] = upTo m k := by rfl) :
    foldFields id field (upTo m k) (writeBytes (k + 1) bytes ++ rest) =
      foldFields id field (upTo m (k + 1)) rest := by
  refine foldFields_bytes ⟨by omega, by omega⟩ ((length_writeBytes_le _ _).trans_lt hlen) ?_
    (fun hempty => ?_) rest
  · rw [hstep, ← hset]
    rfl
  · rw [← hset, hempty, hdefault]

theorem read_uint64 {k : ℕ} {n : UInt64} {set : UInt64 → StepAdmissionSnapshot}
    (rest : List UInt8) (hk : k < 21 := by decide)
    (hstep : ∀ value, field (upTo m k) (k + 1) value = value.asU64.map set := by exact fun _ => rfl)
    (hset : set n = upTo m (k + 1) := by rfl) (hdefault : set 0 = upTo m k := by rfl) :
    foldFields id field (upTo m k) (writeUint64 (k + 1) n ++ rest) =
      foldFields id field (upTo m (k + 1)) rest := by
  refine foldFields_uint64 ⟨by omega, by omega⟩ ?_ (fun hzero => ?_) rest
  · rw [hstep, ← hset]
    rfl
  · rw [← hset, hzero, hdefault]

theorem read_flag (rest : List UInt8) :
    foldFields id field (upTo m 19) (writeBool 20 m.malformedDescriptor ++ rest) =
      foldFields id field (upTo m 20) rest := by
  refine foldFields_uint64 ⟨by decide, by decide⟩ ?_ (fun hzero => ?_) rest
  · cases hflag : m.malformedDescriptor <;>
      simp [field, FieldValue.asBool, FieldValue.asU64, Except.map, upTo, hflag]
  · cases hflag : m.malformedDescriptor
    · simp [upTo, hflag]
    · rw [hflag] at hzero
      cases hzero

theorem read_facts (hlen : ∀ fact ∈ m.protocolIdentity, (KeyValue.encode fact).length < 2 ^ 64)
    (rest : List UInt8) :
    foldFields id field (upTo m 17)
      ((m.protocolIdentity.flatMap fun fact => writeMessage 18 (KeyValue.encode fact)) ++ rest) =
      foldFields id field (upTo m 18) rest := by
  let push : StepAdmissionSnapshot → KeyValue → StepAdmissionSnapshot := fun s fact =>
    { s with protocolIdentity := s.protocolIdentity ++ [fact] }
  have hpush : ∀ (facts : List KeyValue) (s : StepAdmissionSnapshot),
      facts.foldl push s = { s with protocolIdentity := s.protocolIdentity ++ facts } := by
    intro facts
    induction facts with
    | nil => intro s; simp
    | cons fact facts ih => intro s; simp [ih, push]
  have hread : ∀ s, ∀ fact ∈ m.protocolIdentity,
      field s 18 (.bytes (KeyValue.encode fact)) = .ok (push s fact) := by
    intro s fact hfact
    show (KeyValue.decode (KeyValue.encode fact) >>= fun fact => pure (push s fact)) = _
    rw [KeyValue.decode_encode (hlen fact hfact)]
    rfl
  rw [@foldFields_repeated _ _ id field 18 _ KeyValue.encode push ⟨by decide, by decide⟩ _ _ hlen
    hread, hpush]
  rfl

end Fields

/-- **A snapshot survives the wire.** -/
theorem decode_encode {m : StepAdmissionSnapshot} (h : (encode m).length < 2 ^ 64) :
    decode (encode m) = .ok m := by
  have hfits : ∀ part ∈ fields m, part.length < 2 ^ 64 := fun part hpart =>
    (List.sublist_flatten_of_mem hpart).length_le.trans_lt h
  simp only [fields, List.forall_mem_cons] at hfits
  obtain ⟨h1, h2, h3, h4, h5, h6, h7, h8, h9, h10, -, -, h13, h14, h15, h16, h17, h18, h19, -, h21,
    -⟩ := hfits
  have hfacts : ∀ fact ∈ m.protocolIdentity, (KeyValue.encode fact).length < 2 ^ 64 := by
    intro fact hfact
    have hpart : (KeyValue.encode fact).length ≤
        (writeMessage 18 (KeyValue.encode fact)).length := by
      simp only [writeMessage, List.length_append]
      omega
    have hmem : writeMessage 18 (KeyValue.encode fact) ∈
        m.protocolIdentity.map fun fact => writeMessage 18 (KeyValue.encode fact) :=
      List.mem_map_of_mem hfact
    exact hpart.trans_lt ((List.sublist_flatten_of_mem hmem).length_le.trans_lt h18)
  unfold decode encode fields
  simp only [List.flatten_cons, List.flatten_nil]
  show foldFields id field (upTo m 0) _ = _
  rw [read_text h1, read_text h2, read_bytes h3, read_text h4, read_text h5, read_bytes h6,
    read_bytes h7, read_bytes h8, read_bytes h9, read_text h10, read_uint64, read_uint64,
    read_text h13, read_bytes h14, read_bytes h15, read_bytes h16, read_text h17, read_facts hfacts,
    read_text h19, read_flag, read_bytes h21, foldFields_nil]
  rfl

end ArkForge.Ipc.Snapshots
