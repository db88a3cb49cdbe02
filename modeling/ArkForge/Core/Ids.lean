import ArkForge.Core.Cbor

/-! # Identifiers

An `OpaqueId` carries the proof that its text conforms: not empty, at most 128 bytes, and ASCII
letters, digits, `.`, `_`, `:` and `-` only. `OpaqueId.new` builds exactly these. The typed
identifiers of the source are one type here: nothing converts between them. -/

namespace ArkForge.Core.Ids

open Cbor

def MAX_ID_LEN : ℕ := 128

inductive IdError where
  | empty
  | tooLong (found : ℕ)
  | invalidCharacter (found : Char)

/-- `[A-Za-z0-9._:-]`. -/
def allowed (c : Char) : Bool :=
  c.isAlphanum || c == '.' || c == '_' || c == ':' || c == '-'

/-- The text may be an identifier. -/
def Conforming (value : String) : Prop :=
  value ≠ "" ∧ (utf8 value).length ≤ MAX_ID_LEN ∧ value.toList.all allowed = true

instance (value : String) : Decidable (Conforming value) :=
  inferInstanceAs (Decidable (_ ∧ _ ∧ _))

/-- An identifier that is stored and hashed but not interpreted. -/
@[ext] structure OpaqueId where
  value : String
  conforming : Conforming value
  deriving DecidableEq

/-- The checks of `OpaqueId::new`, in its order. -/
def checkId (value : String) : Except IdError Unit :=
  if value = "" then .error .empty
  else if MAX_ID_LEN < (utf8 value).length then .error (.tooLong (utf8 value).length)
  else
    match value.toList.find? fun c => !allowed c with
    | some c => .error (.invalidCharacter c)
    | none => .ok ()

variable {value : String}

theorem checkId_eq_ok : checkId value = .ok () ↔ Conforming value := by
  simp only [checkId, Conforming]
  split_ifs with hempty hlong
  · simp [hempty]
  · simp only [false_iff]
    omega
  · cases hfind : value.toList.find? fun c => !allowed c with
    | some c =>
      have hbad := List.find?_some hfind
      have hmem := List.mem_of_find?_eq_some hfind
      simp only [reduceCtorEq, false_iff]
      rintro ⟨_, _, hall⟩
      simp [List.all_eq_true.mp hall c hmem] at hbad
    | none =>
      simp only [List.find?_eq_none] at hfind
      simp only [true_iff]
      exact ⟨hempty, by omega, List.all_eq_true.mpr fun c hc => by simpa using hfind c hc⟩

namespace OpaqueId

def new (value : String) : Except IdError OpaqueId :=
  match h : checkId value with
  | .ok () => .ok ⟨value, checkId_eq_ok.mp h⟩
  | .error e => .error e

theorem new_value (o : OpaqueId) : new o.value = .ok o := by
  unfold new
  split
  · rfl
  next e h => rw [checkId_eq_ok.mpr o.conforming] at h; cases h

theorem value_of_new {o : OpaqueId} (h : new value = .ok o) : o.value = value := by
  unfold new at h
  split at h
  · cases h; rfl
  · cases h

theorem new_eq_ok {o : OpaqueId} : new value = .ok o ↔ o.value = value :=
  ⟨value_of_new, fun h => h ▸ new_value o⟩

def toCbor (o : OpaqueId) : CborValue := .text o.value

@[simp] theorem encodes (o : OpaqueId) : o.toCbor.Encodes := encodes_text _

end OpaqueId

abbrev JobId := OpaqueId
abbrev PlanId := OpaqueId
abbrev StepId := OpaqueId
abbrev ActionId := OpaqueId
abbrev AttemptId := OpaqueId
abbrev PermitId := OpaqueId
abbrev ControllerSessionId := OpaqueId
/-- A semantic partition name, never an address. -/
abbrev PartitionId := OpaqueId
abbrev RegionId := OpaqueId

end ArkForge.Core.Ids
