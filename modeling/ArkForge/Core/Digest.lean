import ArkForge.Core.Cbor
import ArkForge.Core.Sha256

/-! # Digests in a domain

Every digest is `SHA-256(domain ‖ payload)`. The domain strings are distinct and NUL-terminated, so
none of them is a prefix of another. -/

namespace ArkForge.Core.Digest

open Cbor Lib.Result

inductive Domain where
  | privateAction
  | providerExecutionPlan
  | publicProjection
  | publicStep
  | effectSet
  | plan
  | deviceObservation
  | admissionDeviceFacts
  | usbTopology
  | usbDescriptor
  | deviceSerial
  | rescueDeviceFacts
  | transportSession
  | providerFacts
  | toolchainFacts
  | artifactFacts
  | artifactManifest
  | deviceProfile
  | admissionSnapshot
  | actionReceipt
  | possibleEffectSet
  | journalRecord
  | transcript
  | recoveryCoverage
  | rescuePlan
  | rescueReceipt
  | authoritySupportKey
  deriving DecidableEq

namespace Domain

def label : Domain → String
  | privateAction => "private-action"
  | providerExecutionPlan => "provider-execution-plan"
  | publicProjection => "public-projection"
  | publicStep => "public-step"
  | effectSet => "effect-set"
  | plan => "plan"
  | deviceObservation => "device-observation"
  | admissionDeviceFacts => "admission-device-facts"
  | usbTopology => "usb-topology"
  | usbDescriptor => "usb-descriptor"
  | deviceSerial => "device-serial"
  | rescueDeviceFacts => "rescue-device-facts"
  | transportSession => "transport-session"
  | providerFacts => "provider-facts"
  | toolchainFacts => "toolchain-facts"
  | artifactFacts => "artifact-facts"
  | artifactManifest => "artifact-manifest"
  | deviceProfile => "device-profile"
  | admissionSnapshot => "admission-snapshot"
  | actionReceipt => "action-receipt"
  | possibleEffectSet => "possible-effect-set"
  | journalRecord => "journal-record"
  | transcript => "transcript"
  | recoveryCoverage => "recovery-coverage"
  | rescuePlan => "rescue-plan"
  | rescueReceipt => "rescue-receipt"
  | authoritySupportKey => "authority-support-key"

/-- The literal bytes in front of the payload. -/
def asBytes (domain : Domain) : List UInt8 :=
  utf8 "arkforge/v1/" ++ utf8 domain.label ++ [0]

end Domain

/-- `SHA-256(domain ‖ payload)`. -/
def digestInDomain (domain : Domain) (payload : List UInt8) : Sha256Digest :=
  ((Sha256.new.update domain.asBytes).update payload).finalize

/-- `SHA-256(domain ‖ deterministic_cbor(value))`. -/
def digestCanonical (domain : Domain) (value : CborValue) : Except CborError Sha256Digest := do
  let bytes ← value.toCanonicalBytes
  return digestInDomain domain bytes

theorem digestCanonical_eq_ok {domain : Domain} {value : CborValue} {d : Sha256Digest} :
    digestCanonical domain value = .ok d ↔
      ∃ bytes, value.toCanonicalBytes = .ok bytes ∧ digestInDomain domain bytes = d := by
  simp only [digestCanonical, bind_eq_ok]
  refine exists_congr fun bytes => and_congr_right fun _ => ?_
  exact ⟨fun h => by cases h; rfl, fun h => by rw [h]; rfl⟩

/-- `SHA-256(domain ‖ d₀ ‖ d₁ ‖ …)`. -/
def digestOrdered (domain : Domain) (digests : List Sha256Digest) : Sha256Digest :=
  (digests.foldl (fun hasher d => hasher.update d.bytes) (Sha256.new.update domain.asBytes)).finalize

/-- A digest inside a canonical structure. -/
def Sha256Digest.toCbor (d : Sha256Digest) : CborValue := .bytes d.bytes

@[simp] theorem Sha256Digest.encodes (d : Sha256Digest) : d.toCbor.Encodes := encodes_bytes _

/-! ### HMAC -/

/-- A key of one block: a long key is hashed, a short one is padded with zeros. -/
def paddedKey (key : List UInt8) : List UInt8 :=
  if 64 < key.length then (sha256 key).bytes ++ List.replicate 32 0
  else key ++ List.replicate (64 - key.length) 0

def hmacSha256 (key message : List UInt8) : Sha256Digest :=
  let innerKey := (paddedKey key).map (· ^^^ 0x36)
  let outerKey := (paddedKey key).map (· ^^^ 0x5c)
  let innerDigest := ((Sha256.new.update innerKey).update message).finalize
  ((Sha256.new.update outerKey).update innerDigest.bytes).finalize

/-- Equality that looks at every byte. -/
def constantTimeEq (left right : Sha256Digest) : Bool :=
  (List.zip left.bytes right.bytes).foldl (fun difference p => difference ||| (p.1 ^^^ p.2)) 0 == 0

theorem constantTimeEq_self (d : Sha256Digest) : constantTimeEq d d = true := by
  have key : ∀ l : List UInt8,
      (List.zip l l).foldl (fun difference p => difference ||| (p.1 ^^^ p.2)) 0 = (0 : UInt8) := by
    intro l
    induction l with
    | nil => rfl
    | cons a l ih => simpa using ih
  unfold constantTimeEq
  rw [key]
  rfl

/-- Digests that compare equal are equal: a difference in one byte stays in the accumulator. -/
theorem eq_of_constantTimeEq {d e : Sha256Digest} (h : constantTimeEq d e = true) : d = e := by
  have key : ∀ (l m : List UInt8) (acc : UInt8), l.length = m.length →
      (List.zip l m).foldl (fun difference p => difference ||| (p.1 ^^^ p.2)) acc = 0 →
        acc = 0 ∧ l = m := by
    intro l
    induction l with
    | nil => intro m acc hlen h; exact ⟨h, (List.length_eq_zero_iff.mp hlen.symm).symm⟩
    | cons a l ih =>
      intro m acc hlen h
      rcases m with _ | ⟨b, m⟩
      · cases hlen
      · obtain ⟨hacc, htail⟩ := ih m _ (Nat.succ.inj hlen) h
        obtain ⟨h0, hxor⟩ := UInt8.or_eq_zero_iff.mp hacc
        have hab : a = b := UInt8.xor_eq_zero_iff.mp hxor
        exact ⟨h0, by rw [hab, htail]⟩
  have hzero := eq_of_beq h
  exact Sha256Digest.ext (key d.bytes e.bytes 0 (by rw [d.length_eq, e.length_eq]) hzero).2

end ArkForge.Core.Digest
