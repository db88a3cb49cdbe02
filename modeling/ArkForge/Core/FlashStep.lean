import ArkForge.Core.Effect

/-! # Public steps

The vocabulary of public steps, and the check a step makes on itself: it may not claim a lower effect
class than its kind implies, and a step that writes, erases or verifies names what. -/

namespace ArkForge.Core.FlashStep

open Cbor Digest Ids Effect

inductive WorkflowEffect where
  | readOnly
  | transient
  | mutating
  | destructive
  deriving DecidableEq

namespace WorkflowEffect

def asStr : WorkflowEffect → String
  | readOnly => "readOnly"
  | transient => "transient"
  | mutating => "mutating"
  | destructive => "destructive"

def severity : WorkflowEffect → ℕ
  | readOnly => 0
  | transient => 1
  | mutating => 2
  | destructive => 3

instance : LT WorkflowEffect := ⟨fun a b => a.severity < b.severity⟩

instance (a b : WorkflowEffect) : Decidable (a < b) :=
  inferInstanceAs (Decidable (a.severity < b.severity))

def toCbor (e : WorkflowEffect) : CborValue := .text e.asStr

end WorkflowEffect

inductive FlashStepKind where
  | ensureMode
  | probeDevice
  | validateLayout
  | loadEphemeralAgent
  | eraseTarget
  | writeTarget
  | verifyTarget
  | awaitRebind
  | reboot
  | postflightProbe
  deriving DecidableEq

/-- The lowest effect class the kind can declare. -/
def FlashStepKind.minimumEffect : FlashStepKind → WorkflowEffect
  | probeDevice | validateLayout | verifyTarget | awaitRebind | postflightProbe => .readOnly
  | ensureMode | loadEphemeralAgent | reboot => .transient
  | eraseTarget | writeTarget => .destructive

/-- What a step acts on, in semantic terms. -/
inductive SemanticTarget where
  | partition (id : PartitionId)
  | rawRegion (id : RegionId)
  | bootMetadata (field : BootMetadataField)
  | device
  deriving DecidableEq

def SemanticTarget.toCbor : SemanticTarget → CborValue
  | partition id => .textMap [("partition", id.toCbor)]
  | rawRegion id => .textMap [("rawRegion", id.toCbor)]
  | bootMetadata field => .textMap [("bootMetadata", .text field.asStr)]
  | device => .textMap [("device", .null)]

structure PublicFlashStep where
  stepId : StepId
  kind : FlashStepKind
  effect : WorkflowEffect
  semanticTarget : Option SemanticTarget
  contentDigest : Option Sha256Digest
  expectedModeBefore : Option DeviceMode
  expectedModeAfter : Option DeviceMode
  /-- Binds the step to the private action that implements it. -/
  privateActionDigest : Sha256Digest

inductive StepError where
  | effectBelowKindMinimum (step : String) (kind : FlashStepKind) (declared minimum : WorkflowEffect)
  | writeWithoutContentDigest (step : String)
  | targetedStepWithoutTarget (step : String) (kind : FlashStepKind)
  deriving DecidableEq

/-- The kinds that need a partition or a region. -/
def FlashStepKind.isTargeted : FlashStepKind → Bool
  | writeTarget | eraseTarget | verifyTarget => true
  | _ => false

def isStorage : Option SemanticTarget → Bool
  | some (.partition _) | some (.rawRegion _) => true
  | _ => false

def PublicFlashStep.validateSelfConsistent (step : PublicFlashStep) : Except StepError Unit :=
  if step.effect < step.kind.minimumEffect then
    .error (.effectBelowKindMinimum step.stepId.value step.kind step.effect step.kind.minimumEffect)
  else if step.kind = .writeTarget ∧ step.contentDigest = none then
    .error (.writeWithoutContentDigest step.stepId.value)
  else if step.kind.isTargeted = true ∧ isStorage step.semanticTarget = false then
    .error (.targetedStepWithoutTarget step.stepId.value step.kind)
  else .ok ()

theorem PublicFlashStep.validateSelfConsistent_eq_ok {step : PublicFlashStep} :
    step.validateSelfConsistent = .ok () ↔
      ¬ step.effect < step.kind.minimumEffect ∧
      (step.kind = .writeTarget → ∃ content, step.contentDigest = some content) ∧
      (step.kind.isTargeted = true → isStorage step.semanticTarget = true) := by
  unfold PublicFlashStep.validateSelfConsistent
  split_ifs with hbelow hcontent htarget
  · simp [hbelow]
  · simp [hcontent.1, hcontent.2]
  · simp [htarget.1, htarget.2]
  · simp only [true_iff]
    refine ⟨hbelow, fun hkind => ?_, fun hkind => ?_⟩
    · exact Option.ne_none_iff_exists'.mp fun hnone => hcontent ⟨hkind, hnone⟩
    · by_contra hnot
      exact htarget ⟨hkind, by simpa using hnot⟩

end ArkForge.Core.FlashStep
