import ArkForge.Core.CborMap
import ArkForge.Core.Digest
import ArkForge.Core.Ids

/-! # Step permits

An authority grants a single-use permit by signing its body with the pairing secret. `verifyPermit`
checks the tag and that the permit describes the dispatch about to happen, field by field. -/

namespace ArkForge.Authority.Permit

open Lib.Result
open Core.Cbor Core.CborMap Core.Digest Core.Ids

structure AuthorityBindingRef where
  authorityNamespace : OpaqueId
  bindingId : OpaqueId
  bindingRevision : UInt64
  stableIdentityDigest : Sha256Digest
  deriving DecidableEq

def AuthorityBindingRef.toCbor (b : AuthorityBindingRef) : CborValue := .textMap [
  ("authorityNamespace", b.authorityNamespace.toCbor),
  ("bindingId", b.bindingId.toCbor),
  ("bindingRevision", .unsigned b.bindingRevision),
  ("stableIdentityDigest", b.stableIdentityDigest.toCbor)]

/-- An HMAC over the permit body; the epoch names the secret. -/
structure PermitIntegrityTag where
  epoch : UInt64
  tag : Sha256Digest
  deriving DecidableEq

/-- A single-use permission to perform exactly one private action. -/
structure StepPermit where
  permitId : PermitId
  authorityNamespace : OpaqueId
  controllerSessionId : ControllerSessionId
  jobId : JobId
  planId : PlanId
  planDigest : Sha256Digest
  stepId : StepId
  attemptId : AttemptId
  publicStepDigest : Sha256Digest
  privateActionDigest : Sha256Digest
  effectSetDigest : Sha256Digest
  authorityBinding : AuthorityBindingRef
  admittedDeviceFactsDigest : Sha256Digest
  issuedAtEpochMs : UInt64
  expiresAtEpochMs : UInt64
  singleUse : Bool
  integrityTag : PermitIntegrityTag

def permitBody (permit : StepPermit) : CborValue := .textMap [
  ("permitId", permit.permitId.toCbor),
  ("authorityNamespace", permit.authorityNamespace.toCbor),
  ("controllerSessionId", permit.controllerSessionId.toCbor),
  ("jobId", permit.jobId.toCbor),
  ("planId", permit.planId.toCbor),
  ("planDigest", permit.planDigest.toCbor),
  ("stepId", permit.stepId.toCbor),
  ("attemptId", permit.attemptId.toCbor),
  ("publicStepDigest", permit.publicStepDigest.toCbor),
  ("privateActionDigest", permit.privateActionDigest.toCbor),
  ("effectSetDigest", permit.effectSetDigest.toCbor),
  ("authorityBinding", permit.authorityBinding.toCbor),
  ("admittedDeviceFactsDigest", permit.admittedDeviceFactsDigest.toCbor),
  ("issuedAtEpochMs", .unsigned permit.issuedAtEpochMs),
  ("expiresAtEpochMs", .unsigned permit.expiresAtEpochMs),
  ("singleUse", .bool permit.singleUse)]

/-- The bytes the integrity tag covers. -/
def StepPermit.signingBody (permit : StepPermit) : Except CborError (List UInt8) :=
  (permitBody permit).toCanonicalBytes

/-- The secret shared with the authority. -/
structure ControllerPairingSecret where
  epoch : UInt64
  secret : List UInt8

def ControllerPairingSecret.compute (s : ControllerPairingSecret) (body : List UInt8) :
    Sha256Digest :=
  hmacSha256 s.secret body

structure VerifiedStepPermit where
  permit : StepPermit

inductive PermitVerificationError where
  | integrityTagInvalid
  | stalePairingEpoch (permit current : UInt64)
  | expired (expiresAtEpochMs nowEpochMs : UInt64)
  | actionMismatch (expected found : Sha256Digest)
  | planMismatch (expected found : Sha256Digest)
  | contextMismatch (field : String)
  | alreadyConsumed
  | notSingleUse
  | cbor (error : CborError)

/-- What is about to happen, checked against what the permit allows. -/
structure DispatchIntent where
  controllerSessionId : ControllerSessionId
  jobId : JobId
  planId : PlanId
  planDigest : Sha256Digest
  stepId : StepId
  attemptId : AttemptId
  publicStepDigest : Sha256Digest
  privateActionDigest : Sha256Digest
  effectSetDigest : Sha256Digest
  authorityBinding : AuthorityBindingRef
  admittedDeviceFactsDigest : Sha256Digest
  nowEpochMs : UInt64

/-- The fields of the permit that have to be those of the intent, and their names. -/
def contextChecks (permit : StepPermit) (intent : DispatchIntent) : List (Bool × String) := [
  (permit.controllerSessionId = intent.controllerSessionId, "controllerSessionId"),
  (permit.jobId = intent.jobId, "jobId"),
  (permit.planId = intent.planId, "planId"),
  (permit.stepId = intent.stepId, "stepId"),
  (permit.attemptId = intent.attemptId, "attemptId"),
  (permit.publicStepDigest = intent.publicStepDigest, "publicStepDigest"),
  (permit.effectSetDigest = intent.effectSetDigest, "effectSetDigest"),
  (permit.authorityBinding = intent.authorityBinding, "authorityBinding"),
  (permit.admittedDeviceFactsDigest = intent.admittedDeviceFactsDigest,
    "admittedDeviceFactsDigest")]

def verifyPermit (permit : StepPermit) (secret : ControllerPairingSecret) (intent : DispatchIntent)
    (alreadyConsumed : Bool) : Except PermitVerificationError VerifiedStepPermit :=
  if alreadyConsumed then .error .alreadyConsumed
  else if !permit.singleUse then .error .notSingleUse
  else if permit.integrityTag.epoch ≠ secret.epoch then
    .error (.stalePairingEpoch permit.integrityTag.epoch secret.epoch)
  else do
    let body ← permit.signingBody.mapError .cbor
    if !constantTimeEq (secret.compute body) permit.integrityTag.tag then
      .error .integrityTagInvalid
    else if permit.expiresAtEpochMs ≤ intent.nowEpochMs then
      .error (.expired permit.expiresAtEpochMs intent.nowEpochMs)
    else if permit.planDigest ≠ intent.planDigest then
      .error (.planMismatch intent.planDigest permit.planDigest)
    else if permit.privateActionDigest ≠ intent.privateActionDigest then
      .error (.actionMismatch intent.privateActionDigest permit.privateActionDigest)
    else if permit.authorityNamespace ≠ intent.authorityBinding.authorityNamespace then
      .error (.contextMismatch "authorityNamespace")
    else
      match (contextChecks permit intent).find? fun c => !c.1 with
      | some c => .error (.contextMismatch c.2)
      | none => .ok ⟨permit⟩

variable {secret : ControllerPairingSecret} {intent : DispatchIntent} {permit : StepPermit}

theorem verifyPermit_ok {consumed : Bool} {v : VerifiedStepPermit}
    (h : verifyPermit permit secret intent consumed = .ok v) :
    v.permit = permit ∧ intent.nowEpochMs < permit.expiresAtEpochMs ∧
      (∃ body, permit.signingBody = .ok body ∧
        constantTimeEq (secret.compute body) permit.integrityTag.tag = true) ∧
      permit.planDigest = intent.planDigest ∧
      permit.privateActionDigest = intent.privateActionDigest ∧
      ∀ c ∈ contextChecks permit intent, c.1 = true := by
  obtain ⟨-, h⟩ := guard_eq_ok.mp h
  obtain ⟨-, h⟩ := guard_eq_ok.mp h
  obtain ⟨-, h⟩ := guard_eq_ok.mp h
  obtain ⟨body, hbody, h⟩ := bind_eq_ok.mp h
  split_ifs at h with htag hexpired hplan haction hnamespace
  split at h
  · contradiction
  · next hnone =>
    cases h
    exact ⟨rfl, UInt64.not_le.mp hexpired, ⟨body, mapError_eq_ok.mp hbody, by simpa using htag⟩,
      not_not.mp hplan, not_not.mp haction, by simpa using hnone⟩

/-! ### Minting -/

def mintIntegrityTag (permit : StepPermit) (secret : ControllerPairingSecret) :
    Except CborError PermitIntegrityTag := do
  let body ← permit.signingBody
  return ⟨secret.epoch, hmacSha256 secret.secret body⟩

@[simp] theorem AuthorityBindingRef.encodes (b : AuthorityBindingRef) : b.toCbor.Encodes := by
  simp [toCbor]

theorem StepPermit.signingBody_encodes (permit : StepPermit) :
    ∃ body, permit.signingBody = .ok body :=
  textMap_encodes.mpr (by simp)

/-- **A minted permit verifies** for the dispatch it describes, until it expires. -/
theorem verifyPermit_minted (hsingle : permit.singleUse = true)
    (hminted : mintIntegrityTag permit secret = .ok permit.integrityTag)
    (hexpires : intent.nowEpochMs < permit.expiresAtEpochMs)
    (hplan : permit.planDigest = intent.planDigest)
    (haction : permit.privateActionDigest = intent.privateActionDigest)
    (hnamespace : permit.authorityNamespace = intent.authorityBinding.authorityNamespace)
    (hcontext : ∀ c ∈ contextChecks permit intent, c.1 = true) :
    verifyPermit permit secret intent false = .ok ⟨permit⟩ := by
  obtain ⟨body, hbody, htag⟩ := bind_eq_ok.mp hminted
  have htag : (⟨secret.epoch, hmacSha256 secret.secret body⟩ : PermitIntegrityTag) =
      permit.integrityTag := Except.ok.inj htag
  have hfind : (contextChecks permit intent).find? (fun c => !c.1) = none :=
    List.find?_eq_none.mpr fun c hc => by simp [hcontext c hc]
  have hepoch : permit.integrityTag.epoch = secret.epoch := by rw [← htag]
  have hequal : constantTimeEq (secret.compute body) permit.integrityTag.tag = true := by
    rw [← htag]
    exact constantTimeEq_self _
  have hnot : ¬ permit.expiresAtEpochMs ≤ intent.nowEpochMs := UInt64.not_le.mpr hexpires
  unfold verifyPermit
  simp [hsingle, hepoch, hbody, Except.mapError, hequal, hnot, hplan, haction, hnamespace,
    hfind]

theorem signingBody_tag (permit : StepPermit) (tag : PermitIntegrityTag) :
    { permit with integrityTag := tag }.signingBody = permit.signingBody := by
  have hbody : permitBody { permit with integrityTag := tag } = permitBody permit := rfl
  unfold StepPermit.signingBody
  rw [hbody]

/-- A permit for the dispatch, with a tag that is still to be minted. -/
def draftPermit (intent : DispatchIntent) (permitId : PermitId) (expires : UInt64)
    (tag : PermitIntegrityTag) : StepPermit where
  permitId
  authorityNamespace := intent.authorityBinding.authorityNamespace
  controllerSessionId := intent.controllerSessionId
  jobId := intent.jobId
  planId := intent.planId
  planDigest := intent.planDigest
  stepId := intent.stepId
  attemptId := intent.attemptId
  publicStepDigest := intent.publicStepDigest
  privateActionDigest := intent.privateActionDigest
  effectSetDigest := intent.effectSetDigest
  authorityBinding := intent.authorityBinding
  admittedDeviceFactsDigest := intent.admittedDeviceFactsDigest
  issuedAtEpochMs := intent.nowEpochMs
  expiresAtEpochMs := expires
  singleUse := true
  integrityTag := tag

/-- For every dispatch there is a permit, whatever the secret and the id. -/
theorem exists_verified (intent : DispatchIntent) (secret : ControllerPairingSecret)
    (permitId : PermitId) {expires : UInt64} (hexpires : intent.nowEpochMs < expires) :
    ∃ permit, permit.permitId = permitId ∧ permit.jobId = intent.jobId ∧
      verifyPermit permit secret intent false = .ok ⟨permit⟩ := by
  obtain ⟨body, hbody⟩ :=
    (draftPermit intent permitId expires ⟨secret.epoch, intent.planDigest⟩).signingBody_encodes
  let tag : PermitIntegrityTag := ⟨secret.epoch, hmacSha256 secret.secret body⟩
  have hsame : (draftPermit intent permitId expires tag).signingBody = .ok body :=
    (signingBody_tag (draftPermit intent permitId expires ⟨secret.epoch, intent.planDigest⟩)
      tag).trans hbody
  have hminted : mintIntegrityTag (draftPermit intent permitId expires tag) secret = .ok tag := by
    unfold mintIntegrityTag
    rw [hsame]
    rfl
  exact ⟨draftPermit intent permitId expires tag, rfl, rfl,
    verifyPermit_minted rfl hminted hexpires rfl rfl rfl (by simp [contextChecks, draftPermit])⟩

/-- Facts read immediately before asking for a permit. -/
structure AuthoritySnapshot where
  capturedAtEpochMs : UInt64
  freshnessDeadlineEpochMs : UInt64
  deviceFactsDigest : Sha256Digest
  transportSessionDigest : Option Sha256Digest
  providerFactsDigest : Sha256Digest
  toolchainFactsDigest : Sha256Digest
  artifactFactsDigest : Sha256Digest

end ArkForge.Authority.Permit
