import ArkForge.Core.CborMap
import ArkForge.Core.FlashStep
import ArkForge.Lib.Matching
import ArkForge.Lib.OrdMap
import Mathlib.Data.String.Basic

/-! # The projection of the private plan

Every private action belongs to one public step, and every public step has exactly one primary
action, which may do no more than the step declares. `validateProjection` checks this step by step,
then that the effectful steps and the declared effects claim each other one to one
(`validateEffectCoverage`), and returns the digests that cross the authority boundary. -/

namespace ArkForge.Core.Projection

open Lib.Result Lib.Ordered Lib.Matching
open Cbor CborMap Digest Ids
open Effect FlashStep

variable {steps : List PublicFlashStep}

/-! ### Private actions -/

inductive PrivateActionRole where
  | primaryEffect
  | readOnlyTransportSubAction
  deriving DecidableEq

def PrivateActionRole.asStr : PrivateActionRole → String
  | primaryEffect => "primaryEffect"
  | readOnlyTransportSubAction => "readOnlyTransportSubAction"

def PrivateActionRole.toCbor (role : PrivateActionRole) : CborValue := .text role.asStr

structure PrivateActionRecord where
  actionId : ActionId
  stepId : StepId
  role : PrivateActionRole
  effectClass : WorkflowEffect
  declaredTarget : Option SemanticTarget
  declaredRange : Option ByteRange
  contentDigest : Option Sha256Digest
  body : CborValue

/-- A field that may be missing. -/
def orNull {α : Type} (toCbor : α → CborValue) : Option α → CborValue
  | some a => toCbor a
  | none => .null

namespace PrivateActionRecord

def toCbor (a : PrivateActionRecord) : CborValue := .textMap [
  ("actionId", a.actionId.toCbor),
  ("stepId", a.stepId.toCbor),
  ("role", a.role.toCbor),
  ("effectClass", a.effectClass.toCbor),
  ("declaredTarget", orNull SemanticTarget.toCbor a.declaredTarget),
  ("declaredRange", orNull ByteRange.toCbor a.declaredRange),
  ("contentDigest", orNull Sha256Digest.toCbor a.contentDigest),
  ("body", a.body)]

/-- The digest a public step and the authority know the action by. -/
def digest (a : PrivateActionRecord) : Except CborError Sha256Digest :=
  digestCanonical .privateAction a.toCbor

end PrivateActionRecord

structure ActionDigestBinding where
  stepId : StepId
  actionId : ActionId
  role : PrivateActionRole
  privateActionDigest : Sha256Digest
  deriving DecidableEq

def ActionDigestBinding.toCbor (b : ActionDigestBinding) : CborValue := .textMap [
  ("stepId", b.stepId.toCbor),
  ("actionId", b.actionId.toCbor),
  ("role", b.role.toCbor),
  ("privateActionDigest", b.privateActionDigest.toCbor)]

structure ProjectionDigests where
  perAction : List ActionDigestBinding
  providerExecutionPlanDigest : Sha256Digest
  publicProjectionDigest : Sha256Digest
  deriving DecidableEq

structure StoredProviderPlan where
  actions : List PrivateActionRecord

inductive ProjectionError where
  | emptyPlan
  | duplicateStepId (step : String)
  | duplicateActionId (action : String)
  | actionWithoutPublicStep (action step : String)
  | multiplePrimaryActions (step : String)
  | stepWithoutPrimaryAction (step : String)
  | subActionNotReadOnly (action : String) (effect : WorkflowEffect)
  | stepActionDigestMismatch (step : String) (declared computed : Sha256Digest)
  | privateEffectExceedsPublic (step : String) (privateEffect publicEffect : WorkflowEffect)
  | privateTargetOutsidePublicTarget (step action : String)
  | contentDigestMismatch (step : String) (publicContent privateContent : Sha256Digest)
  | privateActionMissingContentDigest (step action : String)
  | effectfulStepWithoutTarget (step : String)
  | stepEffectNotDeclared (step : String) (kind : FlashStepKind)
  | unclaimedPersistentEffect (index : ℕ)
  | unclaimedTransientEffect (index : ℕ)
  | step (error : StepError)
  | cbor (error : CborError)

/-! ### The checks of steps and actions -/

/-- The loop over the public steps: their ids are distinct and each step is consistent. -/
def checkSteps : List String → List PublicFlashStep → Except ProjectionError (List String)
  | seen, [] => .ok seen
  | seen, step :: steps =>
    if step.stepId.value ∈ seen then .error (.duplicateStepId step.stepId.value)
    else do
      step.validateSelfConsistent.mapError .step
      checkSteps (step.stepId.value :: seen) steps

/-- The loop over the private actions: their ids are distinct and their steps exist. -/
def checkActions (seenSteps : List String) :
    List String → List PrivateActionRecord → Except ProjectionError Unit
  | _, [] => .ok ()
  | seen, a :: actions =>
    if a.actionId.value ∈ seen then .error (.duplicateActionId a.actionId.value)
    else if a.stepId.value ∉ seenSteps then
      .error (.actionWithoutPublicStep a.actionId.value a.stepId.value)
    else checkActions seenSteps (a.actionId.value :: seen) actions

/-- The primary action of each step. The other actions have to be read-only. -/
def collectPrimaries : OrdMap String PrivateActionRecord → List PrivateActionRecord →
    Except ProjectionError (OrdMap String PrivateActionRecord)
  | primaryByStep, [] => .ok primaryByStep
  | primaryByStep, a :: actions =>
    match a.role with
    | .primaryEffect =>
      if (primaryByStep.get a.stepId.value).isSome then
        .error (.multiplePrimaryActions a.stepId.value)
      else collectPrimaries (primaryByStep.alter a.stepId.value fun _ => a) actions
    | .readOnlyTransportSubAction =>
      if a.effectClass ≠ .readOnly then
        .error (.subActionNotReadOnly a.actionId.value a.effectClass)
      else collectPrimaries primaryByStep actions

/-- A step and its primary action. The source looks the action up again where it needs it. -/
structure BoundStep where
  step : PublicFlashStep
  primary : PrivateActionRecord

/-- A primary action may not do more than its step declares. -/
def checkPrimary (step : PublicFlashStep) (primary : PrivateActionRecord) :
    Except ProjectionError Unit :=
  if step.effect < primary.effectClass then
    .error (.privateEffectExceedsPublic step.stepId.value primary.effectClass step.effect)
  else if primary.declaredTarget ≠ none ∧ primary.declaredTarget ≠ step.semanticTarget then
    .error (.privateTargetOutsidePublicTarget step.stepId.value primary.actionId.value)
  else
    match step.contentDigest, primary.contentDigest with
    | some publicContent, some privateContent =>
      if publicContent ≠ privateContent then
        .error (.contentDigestMismatch step.stepId.value publicContent privateContent)
      else .ok ()
    | some _, none =>
      .error (.privateActionMissingContentDigest step.stepId.value primary.actionId.value)
    | none, _ => .ok ()

def bindAction (step : PublicFlashStep) (a : PrivateActionRecord) :
    Except ProjectionError ActionDigestBinding := do
  let d ← a.digest.mapError .cbor
  return ⟨step.stepId, a.actionId, a.role, d⟩

/-- The checks of one step, and the bindings of its actions: the primary action first. -/
def bindStep (plan : StoredProviderPlan) (primaryByStep : OrdMap String PrivateActionRecord)
    (step : PublicFlashStep) : Except ProjectionError (BoundStep × List ActionDigestBinding) :=
  match primaryByStep.get step.stepId.value with
  | none => .error (.stepWithoutPrimaryAction step.stepId.value)
  | some primary => do
    let primaryDigest ← primary.digest.mapError .cbor
    if primaryDigest ≠ step.privateActionDigest then
      .error (.stepActionDigestMismatch step.stepId.value step.privateActionDigest primaryDigest)
    else do
      checkPrimary step primary
      let others ← (plan.actions.filter fun a =>
        a.stepId = step.stepId ∧ a.role ≠ .primaryEffect).mapM (bindAction step)
      return (⟨step, primary⟩,
        ⟨step.stepId, primary.actionId, .primaryEffect, primaryDigest⟩ :: others)

/-- Everything that is checked before the effects. -/
def bindSteps (publicSteps : List PublicFlashStep) (plan : StoredProviderPlan) :
    Except ProjectionError (List (BoundStep × List ActionDigestBinding)) :=
  if publicSteps = [] then .error .emptyPlan
  else do
    let seenSteps ← checkSteps [] publicSteps
    checkActions seenSteps [] plan.actions
    let primaryByStep ← collectPrimaries .empty plan.actions
    publicSteps.mapM (bindStep plan primaryByStep)

/-! ### The effects -/

/-- The declared effect is the one of the step, and its range holds that of the primary action. -/
def persistentEffectMatches (effect : PersistentEffect) (step : PublicFlashStep)
    (target : SemanticTarget) (primary : PrivateActionRecord) : Bool :=
  match effect, target with
  | .writePartition partition range content, .partition stepPartition =>
    decide (step.kind = .writeTarget) && decide (step.contentDigest = some content) &&
      decide (partition = stepPartition) && inRange range
  | .erasePartition partition range, .partition stepPartition =>
    decide (step.kind = .eraseTarget) && decide (partition = stepPartition) && inRange range
  | .writeRawRegion region range content, .rawRegion stepRegion =>
    decide (step.kind = .writeTarget) && decide (step.contentDigest = some content) &&
      decide (region = stepRegion) && inRange range
  | _, _ => false
where
  /-- An action that declares no range is not held to one. -/
  inRange (effectRange : ByteRange) : Bool :=
    match primary.declaredRange with
    | some privateRange => effectRange.containsRange privateRange
    | none => true

def transientEffectMatches (effect : TransientEffect) (step : PublicFlashStep) : Bool :=
  match effect, step.kind with
  | .enterMode fromMode toMode, .ensureMode =>
    decide (step.expectedModeBefore = some fromMode) && decide (step.expectedModeAfter = some toMode)
  | .reboot targetMode, .reboot => decide (step.expectedModeAfter = some targetMode)
  | .loadEphemeralAgent _ _ _, .loadEphemeralAgent => true
  | _, _ => false

/-- Which declared effects have been claimed. -/
structure Claims where
  persistent : List Bool
  transient : List Bool
  deriving DecidableEq

def Claims.none (effectSet : EffectSet) : Claims where
  persistent := List.replicate effectSet.persistent.length false
  transient := List.replicate effectSet.transient.length false

/-- Claims the first effect that is the step's own and that no earlier step claimed. -/
def claimFirst {ε : Type} (claimed : List Bool) (effects : List ε) (own : ε → Bool)
    (step : PublicFlashStep) : Except ProjectionError (List Bool) :=
  match firstFree claimed effects own with
  | none => .error (.stepEffectNotDeclared step.stepId.value step.kind)
  | some index => .ok (claimed.set index true)

def claimStep (effectSet : EffectSet) (claims : Claims) (b : BoundStep) :
    Except ProjectionError Claims :=
  match b.step.kind with
  | .writeTarget | .eraseTarget =>
    match b.step.semanticTarget with
    | none => .error (.effectfulStepWithoutTarget b.step.stepId.value)
    | some target => do
      let persistent ← claimFirst claims.persistent effectSet.persistent
        (fun effect => persistentEffectMatches effect b.step target b.primary) b.step
      return { claims with persistent }
  | .ensureMode | .reboot | .loadEphemeralAgent => do
    let transient ← claimFirst claims.transient effectSet.transient
      (fun effect => transientEffectMatches effect b.step) b.step
    return { claims with transient }
  | _ => .ok claims

def claimSteps (effectSet : EffectSet) : Claims → List BoundStep → Except ProjectionError Claims
  | claims, [] => .ok claims
  | claims, b :: bound => do
    let claims ← claimStep effectSet claims b
    claimSteps effectSet claims bound

/-- No declared effect is left over. -/
def checkUnclaimed (claims : Claims) : Except ProjectionError Unit :=
  match claims.persistent.findIdx? (!·) with
  | some index => .error (.unclaimedPersistentEffect index)
  | none =>
    match claims.transient.findIdx? (!·) with
    | some index => .error (.unclaimedTransientEffect index)
    | none => .ok ()

/-- Every declared effect is claimed by one step, and every effectful step claims one. -/
def validateEffectCoverage (bound : List BoundStep) (effectSet : EffectSet) :
    Except ProjectionError Unit := do
  let claims ← claimSteps effectSet (.none effectSet) bound
  checkUnclaimed claims

/-- The digests over the bindings. -/
def projectionDigests (perAction : List ActionDigestBinding) :
    Except ProjectionError ProjectionDigests := do
  let mappingBytes ←
    (CborValue.array (perAction.map (·.toCbor))).toCanonicalBytes.mapError .cbor
  return {
    perAction
    providerExecutionPlanDigest :=
      digestOrdered .providerExecutionPlan (perAction.map (·.privateActionDigest))
    publicProjectionDigest := digestInDomain .publicProjection mappingBytes }

/-- Validates the projection of a private plan onto public steps and a declared effect set. -/
def validateProjection (publicSteps : List PublicFlashStep) (privatePlan : StoredProviderPlan)
    (effectSet : EffectSet) : Except ProjectionError ProjectionDigests := do
  let bound ← bindSteps publicSteps privatePlan
  validateEffectCoverage (bound.map (·.1)) effectSet
  projectionDigests (bound.flatMap (·.2))

/-! ### What the checks before the effects establish -/

variable {plan : StoredProviderPlan} {step : PublicFlashStep}

theorem checkPrimary_ok {primary : PrivateActionRecord} (h : checkPrimary step primary = .ok ()) :
    (∀ target, primary.declaredTarget = some target → step.semanticTarget = some target) ∧
      (∀ content, step.contentDigest = some content → primary.contentDigest = some content) := by
  unfold checkPrimary at h
  split_ifs at h with heffect htarget
  refine ⟨fun target hdeclared => ?_, fun content hcontent => ?_⟩
  · by_contra hne
    exact htarget ⟨by simp [hdeclared], fun heq => hne (heq ▸ hdeclared)⟩
  · rw [hcontent] at h
    rcases hprivate : primary.contentDigest with _ | privateContent
    · rw [hprivate] at h
      contradiction
    · rw [hprivate] at h
      by_cases heq : content = privateContent
      · rw [heq]
      · simp [heq] at h

/-- **What holds of the steps and the actions of a plan** once the checks before the effects have
passed. -/
structure Projected (steps : List PublicFlashStep) (plan : StoredProviderPlan)
    (bound : List BoundStep) : Prop where
  steps_eq : bound.map (·.step) = steps
  nodup : (steps.map (·.stepId)).Nodup
  consistent : ∀ s ∈ steps, s.validateSelfConsistent = .ok ()
  primary : ∀ b ∈ bound, b.primary ∈ plan.actions ∧ b.primary.role = .primaryEffect ∧
    b.primary.stepId = b.step.stepId ∧ checkPrimary b.step b.primary = .ok ()
  /-- An action is the primary action of a step, or it is read-only. -/
  action : ∀ a ∈ plan.actions, (a.role = .primaryEffect ∧ ∃ b ∈ bound, b.primary = a) ∨
    (a.role = .readOnlyTransportSubAction ∧ a.effectClass = .readOnly)

theorem Projected.nodup_bound {bound : List BoundStep} (h : Projected steps plan bound) :
    (bound.map fun b => b.step.stepId).Nodup := by
  have hnodup := h.nodup
  rw [← h.steps_eq, List.map_map] at hnodup
  exact hnodup

theorem Projected.eq_of_stepId {bound : List BoundStep} (h : Projected steps plan bound)
    {b b' : BoundStep} (hb : b ∈ bound) (hb' : b' ∈ bound) (hid : b.step.stepId = b'.step.stepId) :
    b = b' :=
  List.inj_on_of_nodup_map h.nodup_bound hb hb' hid

/-! ### The digests -/

theorem ActionDigestBinding.encodes (b : ActionDigestBinding) : b.toCbor.Encodes := by
  simp [toCbor, PrivateActionRole.toCbor]

theorem exists_projectionDigests (perAction : List ActionDigestBinding) :
    ∃ digests, projectionDigests perAction = .ok digests := by
  obtain ⟨bytes, hbytes⟩ :=
      array_encodes (List.forall_mem_map.mpr fun b (_ : b ∈ perAction) => b.encodes)
  exact ⟨_, bind_eq_ok.mpr ⟨bytes, mapError_eq_ok.mpr hbytes, rfl⟩⟩

/-- An optional field has an encoding exactly if its value has one. -/
@[simp] theorem orNull_encodes {α : Type} {toCbor : α → CborValue} {o : Option α} :
    (orNull toCbor o).Encodes ↔ ∀ a ∈ o, (toCbor a).Encodes := by
  cases o <;> simp [orNull]

@[simp] theorem semanticTarget_encodes (t : SemanticTarget) : t.toCbor.Encodes := by
  cases t <;> simp [SemanticTarget.toCbor]

@[simp] theorem byteRange_encodes (r : ByteRange) : r.toCbor.Encodes := by
  simp [ByteRange.toCbor]

variable {a : PrivateActionRecord}

theorem PrivateActionRecord.toCbor_encodes (h : a.body.Encodes) : a.toCbor.Encodes := by
  simp [toCbor, PrivateActionRole.toCbor, WorkflowEffect.toCbor, h]

theorem PrivateActionRecord.exists_digest (h : a.body.Encodes) :
    ∃ d, a.digest = .ok d := by
  obtain ⟨bytes, hbytes⟩ := toCbor_encodes h
  exact ⟨_, digestCanonical_eq_ok.mpr ⟨bytes, hbytes, rfl⟩⟩

theorem validateProjection_of_binds {effectSet : EffectSet}
    {bindings : List (BoundStep × List ActionDigestBinding)}
    (hbind : bindSteps steps plan = .ok bindings)
    (hcover : validateEffectCoverage (bindings.map (·.1)) effectSet = .ok ()) :
    ∃ digests, validateProjection steps plan effectSet = .ok digests := by
  obtain ⟨digests, hdigests⟩ := exists_projectionDigests (bindings.flatMap (·.2))
  exact ⟨digests, bind_eq_ok.mpr ⟨_, hbind, bind_eq_ok.mpr ⟨_, hcover, hdigests⟩⟩⟩

end ArkForge.Core.Projection
