import ArkForge.Core.Effect

/-! # How an action ended

The disposition of an action and the verdict of a verification step. -/

namespace ArkForge.Core.Verification

open Effect

inductive ActionDisposition where
  | semanticSuccess
  | confirmedNoEffect
  | confirmedPartialEffect
  | outcomeUnknown
  deriving DecidableEq

inductive VerificationStrength where
  | semanticOnly
  | prefixHash
  | sampledRanges
  | fullHash
  deriving DecidableEq

def VerificationStrength.asStr : VerificationStrength → String
  | semanticOnly => "semanticOnly"
  | prefixHash => "prefixHash"
  | sampledRanges => "sampledRanges"
  | fullHash => "fullHash"

inductive TypedSkipReason where
  | outsideReadDomain
  | profileDeclaresUnreachable
  deriving DecidableEq

inductive FailureClassification where
  | contentMismatch
  | erasedMediumFiller
  deriving DecidableEq

/-- The verdict for one verification step. -/
inductive VerificationOutcome where
  | verified (strength : VerificationStrength) (range : ByteRange)
  | typedSkip (range : ByteRange) (reason : TypedSkipReason) (detail : String)
  | failed (range : ByteRange) (classification : FailureClassification)
  deriving DecidableEq

end ArkForge.Core.Verification
