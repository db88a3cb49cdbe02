import ArkForge.Authority.Permit
import ArkForge.Core.Projection

/-! # Plans

The part of a sealed plan that a job reads while it runs: the ordered public steps, the declared
effects and the digests by which the authority knows them. -/

namespace ArkForge.Core.Plan

open Cbor Digest Ids Effect
open FlashStep Projection
open Authority.Permit

/-! ### Names -/

/-- The value of an enumeration that has the name: `parse` of the source. -/
def parseName {α : Type} (all : List α) (asStr : α → String) (value : String) : Option α :=
  all.find? fun a => asStr a = value

/-! ### Steps in canonical form -/

inductive CancellationPolicy where
  | nonInterruptible
  | cancellableAtBoundary
  | cancellableImmediately

def CancellationPolicy.asStr : CancellationPolicy → String
  | nonInterruptible => "nonInterruptible"
  | cancellableAtBoundary => "cancellableAtBoundary"
  | cancellableImmediately => "cancellableImmediately"

def CancellationPolicy.parse : String → Option CancellationPolicy :=
  parseName [nonInterruptible, cancellableAtBoundary, cancellableImmediately] asStr

inductive BindingRequirement where
  | exactBoundTarget
  | exactBoundTargetWithModeLineage
  deriving DecidableEq

def BindingRequirement.asStr : BindingRequirement → String
  | exactBoundTarget => "exactBoundTarget"
  | exactBoundTargetWithModeLineage => "exactBoundTargetWithModeLineage"

def BindingRequirement.parse : String → Option BindingRequirement :=
  parseName [exactBoundTarget, exactBoundTargetWithModeLineage] asStr

def kindName : FlashStepKind → String
  | .ensureMode => "ensureMode"
  | .probeDevice => "probeDevice"
  | .validateLayout => "validateLayout"
  | .loadEphemeralAgent => "loadEphemeralAgent"
  | .eraseTarget => "eraseTarget"
  | .writeTarget => "writeTarget"
  | .verifyTarget => "verifyTarget"
  | .awaitRebind => "awaitRebind"
  | .reboot => "reboot"
  | .postflightProbe => "postflightProbe"

/-- `FlashStepKind::ALL`. -/
def allKinds : List FlashStepKind := [.ensureMode, .probeDevice, .validateLayout,
  .loadEphemeralAgent, .eraseTarget, .writeTarget, .verifyTarget, .awaitRebind, .reboot,
  .postflightProbe]

/-- `FlashStepKind::parse`. -/
def kindNamed : String → Option FlashStepKind := parseName allKinds kindName

/-- `WorkflowEffect::parse`. -/
def effectNamed : String → Option WorkflowEffect :=
  parseName [.readOnly, .transient, .mutating, .destructive] WorkflowEffect.asStr

def modeCbor (mode : DeviceMode) : CborValue := .text mode.value

structure PlanStep extends PublicFlashStep where
  cancellation : CancellationPolicy
  binding : BindingRequirement

namespace PlanStep

def toCbor (step : PlanStep) : CborValue := .textMap [
  ("stepId", step.stepId.toCbor),
  ("kind", .text (kindName step.kind)),
  ("effect", step.effect.toCbor),
  ("cancellation", .text step.cancellation.asStr),
  ("binding", .text step.binding.asStr),
  ("privateActionDigest", step.privateActionDigest.toCbor),
  ("semanticTarget", orNull SemanticTarget.toCbor step.semanticTarget),
  ("contentDigest", orNull Sha256Digest.toCbor step.contentDigest),
  ("expectedModeBefore", orNull modeCbor step.expectedModeBefore),
  ("expectedModeAfter", orNull modeCbor step.expectedModeAfter)]

def digest (step : PlanStep) : Except CborError Sha256Digest :=
  digestCanonical .publicStep step.toCbor

end PlanStep

/-! ### Effects in canonical form -/

def integerCbor (value : Int64) : CborValue :=
  if value < 0 then .negative value else .unsigned value.toUInt64

def typedValueCbor : TypedValue → CborValue
  | .text value => .textMap [("text", .text value)]
  | .integer value => .textMap [("integer", integerCbor value)]
  | .bool value => .textMap [("bool", .bool value)]

def persistentCbor : PersistentEffect → CborValue
  | .erasePartition partition range => .textMap [
      ("kind", .text "erasePartition"), ("partition", partition.toCbor), ("range", range.toCbor)]
  | .writePartition partition range content => .textMap [
      ("kind", .text "writePartition"), ("partition", partition.toCbor), ("range", range.toCbor),
      ("content", content.toCbor)]
  | .writeRawRegion region range content => .textMap [
      ("kind", .text "writeRawRegion"), ("region", region.toCbor), ("range", range.toCbor),
      ("content", content.toCbor)]
  | .replacePartitionTable layoutDigest => .textMap [
      ("kind", .text "replacePartitionTable"), ("layoutDigest", layoutDigest.toCbor)]
  | .changeBootMetadata field expectedValue => .textMap [
      ("kind", .text "changeBootMetadata"), ("field", .text field.asStr),
      ("expectedValue", typedValueCbor expectedValue)]

def memoryRegionCbor (region : MemoryRegion) : CborValue := .textMap [
  ("baseAddress", .unsigned region.baseAddress),
  ("length", .unsigned region.length)]

def transientCbor : TransientEffect → CborValue
  | .enterMode fromMode toMode => .textMap [
      ("kind", .text "enterMode"), ("from", modeCbor fromMode), ("to", modeCbor toMode)]
  | .loadEphemeralAgent stage memoryRegion content => .textMap [
      ("kind", .text "loadEphemeralAgent"), ("stage", .text stage.value),
      ("memoryRegion", memoryRegionCbor memoryRegion), ("content", content.toCbor)]
  | .usbDetachReattach expectationDigest => .textMap [
      ("kind", .text "usbDetachReattach"), ("expectationDigest", expectationDigest.toCbor)]
  | .reboot targetMode => .textMap [("kind", .text "reboot"), ("targetMode", modeCbor targetMode)]

def impactName : DataImpactState → String
  | .preserved => "preserved"
  | .overwritten => "overwritten"
  | .unknown => "unknown"

def dataImpactCbor (impact : DataImpact) : CborValue := .textMap [
  ("userdata", .text (impactName impact.userdata)),
  ("calibration", .text (impactName impact.calibration)),
  ("nonVolatileConfig", .text (impactName impact.nonVolatileConfig)),
  ("secureStorage", .text (impactName impact.secureStorage))]

def effectSetCbor (effects : EffectSet) : CborValue := .textMap [
  ("persistent", .array (effects.persistent.map persistentCbor)),
  ("transient", .array (effects.transient.map transientCbor)),
  ("dataImpact", dataImpactCbor effects.dataImpact)]

/-- `EffectSet::digest`. -/
def effectSetDigest (effects : EffectSet) : Except CborError Sha256Digest :=
  digestCanonical .effectSet (effectSetCbor effects)

/-! ### The envelope -/

/-- An immutable, executable plan, as far as a job reads it. -/
structure FlashPlanEnvelope where
  planId : PlanId
  planDigest : Sha256Digest
  authorityBinding : AuthorityBindingRef
  /-- `artifact.content_digest`. -/
  artifactDigest : Sha256Digest
  publicSteps : List PlanStep
  effectSet : EffectSet

end ArkForge.Core.Plan
