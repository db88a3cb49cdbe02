import ArkForge.Authority.Permit
import ArkForge.Core.CborFields

/-! # Permits on the wire

A permit travels as the bytes its tag was computed over, with the tag beside them.
`StepPermit.fromCanonicalBytes` reads the permit back and then encodes it again: bytes that are not
the signing body of what was read are refused. So the bytes, the permit and, as long as no two bodies
share a tag, the tag stand for one another; and since `verifyPermit` compares the permit with the
dispatch field by field, a permit stands for one dispatch. -/

namespace ArkForge.Authority.PermitBytes

open Lib.Result
open Core.Cbor Core.CborRead Core.CborMap Core.CborFields
open Core.Digest Core.Ids
open Permit

/-! ### Reading a permit back -/

inductive PermitDecodeError where
  | notAMap
  | field (name : String)
  | notCanonical
  | cbor (error : CborError)

theorem length_zeros : (List.replicate 32 (0 : UInt8)).length = 32 := List.length_replicate

/-- The tag of a permit that was read back, until the caller sets the one that came beside it. -/
def unsetTag : PermitIntegrityTag := ⟨0, ⟨List.replicate 32 0, length_zeros⟩⟩

section

variable (entries : List (CborValue × CborValue))

def permitField {α : Type} (name : String) (shape : Shape α) : Except PermitDecodeError α :=
  readField entries name shape (.field name)

/-- The binding whose fields stand in the map; whichever is malformed, the error names the binding. -/
def readBinding : Except PermitDecodeError AuthorityBindingRef := do
  let authorityNamespace ← readField entries "authorityNamespace" .id (.field "authorityBinding")
  let bindingId ← readField entries "bindingId" .id (.field "authorityBinding")
  let bindingRevision ← readField entries "bindingRevision" .unsigned (.field "authorityBinding")
  let stableIdentityDigest ←
    readField entries "stableIdentityDigest" .digest (.field "authorityBinding")
  return { authorityNamespace, bindingId, bindingRevision, stableIdentityDigest }

def bindingField : Except PermitDecodeError AuthorityBindingRef :=
  match field entries "authorityBinding" with
  | some (.map pairs) => readBinding pairs
  | _ => .error (.field "authorityBinding")

/-- The permit whose fields stand in the map. -/
def readPermit : Except PermitDecodeError StepPermit := do
  let authorityBinding ← bindingField entries
  let permitId ← permitField entries "permitId" .id
  let authorityNamespace ← permitField entries "authorityNamespace" .id
  let controllerSessionId ← permitField entries "controllerSessionId" .id
  let jobId ← permitField entries "jobId" .id
  let planId ← permitField entries "planId" .id
  let planDigest ← permitField entries "planDigest" .digest
  let stepId ← permitField entries "stepId" .id
  let attemptId ← permitField entries "attemptId" .id
  let publicStepDigest ← permitField entries "publicStepDigest" .digest
  let privateActionDigest ← permitField entries "privateActionDigest" .digest
  let effectSetDigest ← permitField entries "effectSetDigest" .digest
  let admittedDeviceFactsDigest ← permitField entries "admittedDeviceFactsDigest" .digest
  let issuedAtEpochMs ← permitField entries "issuedAtEpochMs" .unsigned
  let expiresAtEpochMs ← permitField entries "expiresAtEpochMs" .unsigned
  let singleUse ← permitField entries "singleUse" .bool
  return { permitId, authorityNamespace, controllerSessionId, jobId, planId, planDigest, stepId,
           attemptId, publicStepDigest, privateActionDigest, effectSetDigest, authorityBinding,
           admittedDeviceFactsDigest, issuedAtEpochMs, expiresAtEpochMs, singleUse,
           integrityTag := unsetTag }

end

def mapEntries : CborValue → Except PermitDecodeError (List (CborValue × CborValue))
  | .map entries => .ok entries
  | _ => .error .notAMap

def StepPermit.fromCanonicalBytes (input : List UInt8) : Except PermitDecodeError StepPermit := do
  let value ← (decodeCanonical input).mapError .cbor
  let entries ← mapEntries value
  let permit ← readPermit entries
  -- the round trip is the check
  let reencoded ← permit.signingBody.mapError .cbor
  if reencoded ≠ input then .error .notCanonical else .ok permit

/-! ### The bytes stand for the permit -/

variable {p : StepPermit} {b : List UInt8}

theorem signingBody_of_fromCanonicalBytes (h : StepPermit.fromCanonicalBytes b = .ok p) :
    p.signingBody = .ok b := by
  obtain ⟨value, -, h⟩ := bind_eq_ok.mp h
  obtain ⟨entries, -, h⟩ := bind_eq_ok.mp h
  obtain ⟨permit, -, h⟩ := bind_eq_ok.mp h
  obtain ⟨reencoded, hbody, h⟩ := bind_eq_ok.mp h
  split_ifs at h with hsame
  obtain rfl : permit = p := Except.ok.inj h
  rw [← not_not.mp hsame]
  exact mapError_eq_ok.mp hbody

def bindingEntries (b : AuthorityBindingRef) : List (String × CborValue) := [
  ("authorityNamespace", b.authorityNamespace.toCbor),
  ("bindingId", b.bindingId.toCbor),
  ("bindingRevision", .unsigned b.bindingRevision),
  ("stableIdentityDigest", b.stableIdentityDigest.toCbor)]

theorem toCbor_eq (b : AuthorityBindingRef) : b.toCbor = .textMap (bindingEntries b) := rfl

theorem readBinding_sorted (b : AuthorityBindingRef) :
    readBinding (sortedEntries (bindingEntries b)) = .ok b := by
  obtain ⟨bytes, hbytes⟩ := b.encodes
  have hn := (textMap_encodes.mp ⟨bytes, hbytes⟩).1
  have hfield : ∀ e ∈ bindingEntries b,
      field (sortedEntries (bindingEntries b)) e.1 = some e.2.sortKeys :=
    fun e he => field_sortKeys hn he
  simp only [bindingEntries, List.forall_mem_cons] at hfield
  obtain ⟨h1, h2, h3, h4, -⟩ := hfield
  simp only [readBinding, bind_eq_ok, readField_eq_ok]
  exact ⟨_, h1, _, h2, _, h3, _, h4, rfl⟩

def permitEntries (p : StepPermit) : List (String × CborValue) := [
  ("permitId", p.permitId.toCbor),
  ("authorityNamespace", p.authorityNamespace.toCbor),
  ("controllerSessionId", p.controllerSessionId.toCbor),
  ("jobId", p.jobId.toCbor),
  ("planId", p.planId.toCbor),
  ("planDigest", p.planDigest.toCbor),
  ("stepId", p.stepId.toCbor),
  ("attemptId", p.attemptId.toCbor),
  ("publicStepDigest", p.publicStepDigest.toCbor),
  ("privateActionDigest", p.privateActionDigest.toCbor),
  ("effectSetDigest", p.effectSetDigest.toCbor),
  ("authorityBinding", p.authorityBinding.toCbor),
  ("admittedDeviceFactsDigest", p.admittedDeviceFactsDigest.toCbor),
  ("issuedAtEpochMs", .unsigned p.issuedAtEpochMs),
  ("expiresAtEpochMs", .unsigned p.expiresAtEpochMs),
  ("singleUse", .bool p.singleUse)]

/-- The permit as it is read back: without its tag. -/
def withoutTag (p : StepPermit) : StepPermit := { p with integrityTag := unsetTag }

/-- A map that holds the fields of a permit reads as the permit. -/
theorem readPermit_of_fields {entries : List (CborValue × CborValue)}
    (h : ∀ e ∈ permitEntries p, field entries e.1 = some e.2.sortKeys) :
    readPermit entries = .ok (withoutTag p) := by
  simp only [permitEntries, List.forall_mem_cons] at h
  obtain ⟨h1, h2, h3, h4, h5, h6, h7, h8, h9, h10, h11, h12, h13, h14, h15, h16, -⟩ := h
  have hbinding : bindingField entries = .ok p.authorityBinding := by
    unfold bindingField
    rw [h12, toCbor_eq, sortKeys_textMap]
    exact readBinding_sorted p.authorityBinding
  simp only [readPermit, permitField, bind_eq_ok, readField_eq_ok]
  exact ⟨_, hbinding, _, h1, _, h2, _, h3, _, h4, _, h5, _, h6, _, h7, _, h8, _, h9, _, h10, _, h11,
    _, h13, _, h14, _, h15, _, h16, rfl⟩

theorem fits_id (o : OpaqueId) : o.toCbor.Fits := by
  have hlen : (utf8 o.value).length ≤ 128 := o.conforming.2.1
  show (utf8 o.value).length < 2 ^ 64
  omega

theorem fits_digest (d : Sha256Digest) : d.toCbor.Fits := by
  show d.bytes.length < 2 ^ 64
  rw [d.length_eq]
  decide

theorem fits_binding (b : AuthorityBindingRef) : b.toCbor.Fits := by
  refine fits_textMap (by show 4 < 2 ^ 64; decide) ?_
  simp +decide [CborValue.Fits, fits_id, fits_digest]

theorem fits_permitBody (p : StepPermit) : (permitBody p).Fits := by
  refine fits_textMap (by show 16 < 2 ^ 64; decide) ?_
  simp +decide [CborValue.Fits, fits_id, fits_digest, fits_binding]

theorem depth_permitBody (p : StepPermit) : (permitBody p).depth ≤ 2 := by
  have hbinding : p.authorityBinding.toCbor.depth ≤ 1 := by
    refine depth_textMap_le ?_
    simp
  refine depth_textMap_le ?_
  simp [hbinding]

/-- **The signing body reads back as the permit**, without its tag. -/
theorem fromCanonicalBytes_signingBody (h : p.signingBody = .ok b) :
    StepPermit.fromCanonicalBytes b = .ok (withoutTag p) := by
  have hdepth : (permitBody p).depth ≤ maxDepth := (depth_permitBody p).trans (by decide)
  have hdecode := decode_textMap (l := permitEntries p) hdepth (fits_permitBody p) h
  have hn := (textMap_encodes.mp ⟨b, h⟩).1
  have hread : readPermit (sortedEntries (permitEntries p)) = .ok (withoutTag p) :=
    readPermit_of_fields fun e he => field_sortKeys hn he
  have hbody : (withoutTag p).signingBody = .ok b := (signingBody_tag p unsetTag).trans h
  have hmap : mapEntries (.textMap (sortedFields (permitEntries p))) =
    .ok (sortedEntries (permitEntries p)) := rfl
  unfold StepPermit.fromCanonicalBytes
  rw [hdecode]
  simp [Except.mapError, hmap, hread, hbody]

/-! ### The permit stands for a dispatch -/

/-- The permit names the session, the job, the plan, the step, the attempt, the action, the effects,
the binding and the device facts of the dispatch. -/
structure Describes (permit : StepPermit) (intent : DispatchIntent) : Prop where
  controllerSessionId : permit.controllerSessionId = intent.controllerSessionId
  jobId : permit.jobId = intent.jobId
  planId : permit.planId = intent.planId
  planDigest : permit.planDigest = intent.planDigest
  stepId : permit.stepId = intent.stepId
  attemptId : permit.attemptId = intent.attemptId
  publicStepDigest : permit.publicStepDigest = intent.publicStepDigest
  privateActionDigest : permit.privateActionDigest = intent.privateActionDigest
  effectSetDigest : permit.effectSetDigest = intent.effectSetDigest
  authorityBinding : permit.authorityBinding = intent.authorityBinding
  admittedDeviceFactsDigest : permit.admittedDeviceFactsDigest = intent.admittedDeviceFactsDigest

variable {secret : ControllerPairingSecret} {v : VerifiedStepPermit} {intent : DispatchIntent}
  {permit : StepPermit} {consumed : Bool}

/-- What a permit that verifies has passed: its tag is that of its body, and it describes the
dispatch. -/
theorem verifyPermit_eq_ok (h : verifyPermit permit secret intent consumed = .ok v) :
    (∃ body, permit.signingBody = .ok body ∧ secret.compute body = permit.integrityTag.tag) ∧
      Describes permit intent := by
  obtain ⟨-, -, ⟨body, hbody, hequal⟩, hplan, haction, hcontext⟩ := verifyPermit_ok h
  simp only [contextChecks, List.forall_mem_cons, decide_eq_true_eq] at hcontext
  obtain ⟨h1, h2, h3, h4, h5, h6, h7, h8, h9, -⟩ := hcontext
  exact ⟨⟨body, hbody, eq_of_constantTimeEq hequal⟩, h1, h2, h3, hplan, h4, h5, h6, haction, h7, h8, h9⟩

theorem Describes.unique {i₁ i₂ : DispatchIntent} (h₁ : Describes permit i₁)
    (h₂ : Describes permit i₂) : { i₁ with nowEpochMs := i₂.nowEpochMs } = i₂ := by
  obtain ⟨⟩ := h₁
  obtain ⟨⟩ := h₂
  rcases i₂ with ⟨_, _, _, _, _, _, _, _, _, _, _, _⟩
  simp_all

/-- Submitted bytes that verify under a tag have the tag as their code. -/
theorem compute_of_submission {epoch : UInt64} {tag : Sha256Digest}
    (hread : StepPermit.fromCanonicalBytes b = .ok p)
    (h : verifyPermit { p with integrityTag := ⟨epoch, tag⟩ } secret intent consumed = .ok v) :
    secret.compute b = tag := by
  obtain ⟨⟨body, hbody, htag⟩, -⟩ := verifyPermit_eq_ok h
  rw [signingBody_tag, signingBody_of_fromCanonicalBytes hread] at hbody
  rw [Except.ok.inj hbody]
  exact htag

/-- **A verified permit authorises exactly one intent.** A permit that verifies has the eleven fields
of the intent. Bytes that read as a permit are its signing body, and every permit has a signing body,
which reads back as the permit without its tag. Two submissions that verify under one secret with one
tag are the same bytes and the same permit, if the code tells their bytes apart; and the intents a
permit verifies against differ at most in their time. -/
theorem permit_authorises_one_intent :
    (∀ (permit : StepPermit) (secret : ControllerPairingSecret) (intent : DispatchIntent)
      (consumed : Bool) (v : VerifiedStepPermit),
      verifyPermit permit secret intent consumed = .ok v → Describes permit intent) ∧
    (∀ (b : List UInt8) (p : StepPermit),
      StepPermit.fromCanonicalBytes b = .ok p → p.signingBody = .ok b) ∧
    (∀ p : StepPermit, ∃ b, p.signingBody = .ok b ∧
      StepPermit.fromCanonicalBytes b = .ok { p with integrityTag := unsetTag }) ∧
    (∀ (secret : ControllerPairingSecret) (tag : Sha256Digest) (b₁ b₂ : List UInt8)
      (p₁ p₂ : StepPermit) (epoch₁ epoch₂ : UInt64) (i₁ i₂ : DispatchIntent) (c₁ c₂ : Bool)
      (v₁ v₂ : VerifiedStepPermit),
      StepPermit.fromCanonicalBytes b₁ = .ok p₁ → StepPermit.fromCanonicalBytes b₂ = .ok p₂ →
      verifyPermit { p₁ with integrityTag := ⟨epoch₁, tag⟩ } secret i₁ c₁ = .ok v₁ →
      verifyPermit { p₂ with integrityTag := ⟨epoch₂, tag⟩ } secret i₂ c₂ = .ok v₂ →
      (secret.compute b₁ = secret.compute b₂ → b₁ = b₂) → b₁ = b₂ ∧ p₁ = p₂) ∧
    (∀ (permit : StepPermit) (s₁ s₂ : ControllerPairingSecret) (i₁ i₂ : DispatchIntent)
      (c₁ c₂ : Bool) (v₁ v₂ : VerifiedStepPermit),
      verifyPermit permit s₁ i₁ c₁ = .ok v₁ → verifyPermit permit s₂ i₂ c₂ = .ok v₂ →
      { i₁ with nowEpochMs := i₂.nowEpochMs } = i₂) := by
  refine ⟨fun permit secret intent consumed v h => (verifyPermit_eq_ok h).2,
    fun b p h => signingBody_of_fromCanonicalBytes h, ?_, ?_, ?_⟩
  · intro p
    obtain ⟨b, hb⟩ := p.signingBody_encodes
    exact ⟨b, hb, fromCanonicalBytes_signingBody hb⟩
  · intro secret tag b₁ b₂ p₁ p₂ epoch₁ epoch₂ i₁ i₂ c₁ c₂ v₁ v₂ hread₁ hread₂ h₁ h₂ hcollision
    have htag₁ := compute_of_submission hread₁ h₁
    have htag₂ := compute_of_submission hread₂ h₂
    have hbytes : b₁ = b₂ := hcollision (htag₁.trans htag₂.symm)
    refine ⟨hbytes, ?_⟩
    rw [hbytes, hread₂] at hread₁
    exact (Except.ok.inj hread₁).symm
  · intro permit s₁ s₂ i₁ i₂ c₁ c₂ v₁ v₂ h₁ h₂
    exact (verifyPermit_eq_ok h₁).2.unique (verifyPermit_eq_ok h₂).2

end ArkForge.Authority.PermitBytes
