import ArkForge.Engine.Recovery

/-! # Job states

The transitions a job may make. -/

namespace ArkForge.Engine.Recovery.JobState

def asStr : JobState → String
  | .planned => "planned"
  | .awaitingStart => "awaitingStart"
  | .preflight => "preflight"
  | .awaitingPermit => "awaitingPermit"
  | .stepIntentDurable => "stepIntentDurable"
  | .dispatching => "dispatching"
  | .receiptDurable => "receiptDurable"
  | .checkpointed => "checkpointed"
  | .rebindWait => "rebindWait"
  | .postflight => "postflight"
  | .succeeded => "succeeded"
  | .confirmedFailed => "confirmedFailed"
  | .cancelledSafe => "cancelledSafe"
  | .outcomeUnknown => "outcomeUnknown"
  | .reconciling => "reconciling"
  | .recoveryAssessable => "recoveryAssessable"

def successors : JobState → List JobState
  | .planned => [.awaitingStart]
  | .awaitingStart => [.preflight]
  | .preflight => [.awaitingPermit, .cancelledSafe]
  | .awaitingPermit => [.stepIntentDurable, .cancelledSafe]
  | .stepIntentDurable => [.dispatching, .outcomeUnknown]
  | .dispatching => [.receiptDurable, .cancelledSafe, .outcomeUnknown]
  | .receiptDurable => [.checkpointed, .outcomeUnknown]
  | .checkpointed => [.rebindWait, .preflight, .postflight, .confirmedFailed, .cancelledSafe]
  | .rebindWait => [.preflight, .cancelledSafe, .outcomeUnknown]
  | .postflight => [.succeeded, .confirmedFailed]
  | .outcomeUnknown => [.reconciling, .recoveryAssessable]
  | .reconciling => [.succeeded, .confirmedFailed, .outcomeUnknown]
  | .succeeded | .confirmedFailed | .cancelledSafe | .recoveryAssessable => []

def mayTransitionTo (state next : JobState) : Bool := next ∈ successors state

end ArkForge.Engine.Recovery.JobState
