import ArkForge.Engine.PlanCodec
import ArkForge.Ipc.Jobs
import ArkForge.Provider.Rockchip

/-! # Assessing a recovery

A job whose outcome is unknown may be superseded by another plan, which overwrites everything the old
one may have written. The assessment never makes an old action anew. It looks at the sealed
replacement and compares it with the published profile and with what may have happened. -/

namespace ArkForge.Daemon.RecoveryAssessment

open Core.Digest Core.Ids Core.Effect Core.FlashStep
open Core.Plan Core.Envelope Core.Profile
open Engine.PlanCodec Ipc.Jobs
open Provider.Rockchip (PROVIDER_ID)

/-! ### The replacement -/

def checkedMul (a b : UInt64) : Option UInt64 :=
  if a.toNat * b.toNat < 2 ^ 64 then some (a * b) else none

def checkedAdd (a b : UInt64) : Option UInt64 :=
  if a.toNat + b.toNat < 2 ^ 64 then some (a + b) else none

/-- The steps of the kind on the partition with the content, by their positions. -/
def matching (steps : List PlanStep) (partition : PartitionId) (content : Sha256Digest)
    (kind : FlashStepKind) : List ℕ :=
  (steps.zipIdx.filter fun (step, _) => step.kind = kind ∧
    step.semanticTarget = some (.partition partition) ∧ step.contentDigest = some content).map (·.2)

/-- One target is written and verified. The position of its verification. -/
def checkTarget (plan : PlanEnvelope) (profile : DeviceProfile) (blockSize : UInt64)
    (target : AllowedTarget) : Except String ℕ :=
  if profile.recovery.coveredEffects.any (fun name => name.value = target.partition.value) = false then
    .error "a writable target is outside the published recovery coverage"
  else
    match plan.effectSet.persistent.filter fun e => e.partition = some target.partition with
    | [.writePartition _ range content] =>
      if checkedMul target.offsetSectors blockSize ≠ some range.start ∨ range.length = 0 then
        .error "the recovery write does not match the published partition offset"
      else
        match matching plan.publicSteps target.partition content .writeTarget,
          matching plan.publicSteps target.partition content .verifyTarget with
        | [write], [verify] =>
          if verify ≤ write then
            .error "every recovery write requires its own later content-bound verification"
          else .ok verify
        | _, _ => .error "every recovery write requires its own later content-bound verification"
    | _ => .error "each recovery target requires exactly one content-bound partition write"

/-- Every target. The position of the last verification. -/
def checkTargets (plan : PlanEnvelope) (profile : DeviceProfile) (blockSize : UInt64) :
    ℕ → List AllowedTarget → Except String ℕ
  | last, [] => .ok last
  | last, target :: rest => do
    let verify ← checkTarget plan profile blockSize target
    checkTargets plan profile blockSize (max last verify) rest

def covers (old new : PersistentEffect) : Bool :=
  old.partition.isSome && decide (new.partition = old.partition) &&
    match old.range, new.range with
    | some old, some new =>
      decide (new.start ≤ old.start) &&
        match checkedAdd new.start new.length, checkedAdd old.start old.length with
        | some newEnd, some oldEnd => decide (oldEnd ≤ newEnd)
        | _, _ => false
    | _, _ => false

/-- The replacement performs the mode change that may have happened. -/
def checkControl (plan : PlanEnvelope) (profile : DeviceProfile) (control : ClosedControlEvidence) :
    Except String Unit :=
  match plan.publicSteps with
  | [] => .error "missing recovery entry step"
  | first :: _ =>
    if control.action ≠ .enterUpdater ∨ first.kind ≠ .ensureMode ∨ first.effect < .mutating ∨
        first.expectedModeBefore ≠ plan.postflight.requireMode ∨
        profile.modeTransitions.any (fun transition =>
          decide (transition.action.value = control.action.asStr) &&
          decide (some transition.fromMode = first.expectedModeBefore) &&
          decide (some transition.toMode = first.expectedModeAfter) &&
          transition.rebind.requireDisconnect) = false then
      .error "the replacement does not cover the original closed mode-control semantics"
    else .ok ()

/-- The candidate is refused if the condition holds. -/
def refuseIf (condition : Prop) [Decidable condition] (message : String) : Except String Unit :=
  if condition then .error message else .ok ()

/-- A value that has to be there. -/
def expect {α : Type} (value : Option α) (message : String) : Except String α :=
  match value with
  | some a => .ok a
  | none => .error message

def validateCandidate (candidate : StoredPlan) (profile : DeviceProfile)
    (source : RecoverySourceEvidence) (possible : List PersistentEffect) (now : UInt64) :
    Except String Unit := do
  let plan := candidate.envelope
  refuseIf (plan.executionPurpose ≠ .supersedingRecovery ∨ plan.planId.value = source.planId ∨
      plan.planDigest.toHex = source.planSha256 ∨ now < plan.createdAtEpochMs ∨
      plan.expiresAtEpochMs ≤ now)
    "the replacement must be a fresh, distinct supersedingRecovery plan"
  refuseIf (profile.identity.toOption ≠ some plan.profile ∨
      profile.recovery.supportsCompleteOverwrite = false ∨
      profile.recovery.unsupportedStates ≠ [] ∨ plan.provider.id ≠ PROVIDER_ID ∨
      profile.allowedTargets = [])
    "the exact published profile does not provide this recovery recipe"
  let contract ← expect plan.recoveryContract "missing recovery contract"
  refuseIf (contract.id.value ≠ "arkforge.rockchip.complete-overwrite" ∨
      contract.version ≠ profile.recovery.version ∨
      (digestCanonical .recoveryCoverage profile.recovery.toCbor).toOption ≠ some contract.digest)
    "the sealed recovery contract does not match published coverage"
  refuseIf (plan.effectSet.persistent.length ≠ profile.allowedTargets.length ∨
      (plan.publicSteps.filter (·.kind = .writeTarget)).length ≠ profile.allowedTargets.length ∨
      (plan.publicSteps.filter (·.kind = .verifyTarget)).length ≠ profile.allowedTargets.length)
    "the replacement does not cover the complete published target set"
  let blockSize ← expect profile.storage.logicalBlockSize "unknown block size"
  let lastVerification ← checkTargets plan profile blockSize.toUInt64 0 profile.allowedTargets
  refuseIf (∃ old ∈ possible, plan.effectSet.persistent.any (covers old) = false)
    "the replacement does not cover every possible persistent byte range"
  let postflight ← expect plan.publicSteps.getLast? "missing postflight"
  let reboot ← expect plan.publicSteps[plan.publicSteps.length - 2]? "missing reboot"
  refuseIf (postflight.kind ≠ .postflightProbe ∨ reboot.kind ≠ .reboot ∨
      plan.publicSteps.length - 2 ≤ lastVerification ∨
      plan.postflight.requireExactTargetLineage = false ∨ plan.postflight.requireMode = none ∨
      plan.postflight.requiredRuntimeFacts = [] ∨
      reboot.expectedModeAfter ≠ plan.postflight.requireMode ∨
      postflight.expectedModeBefore ≠ plan.postflight.requireMode)
    "recovery requires reset, exact rebind and complete runtime postflight"
  match source.closedControl with
  | some control => checkControl plan profile control
  | none => .ok ()

end ArkForge.Daemon.RecoveryAssessment
