import ArkForge.Core.Plan

/-! # Device observations

One observation of one device at one moment. Two digests are taken of it: `factsDigest` covers the
whole observation, `admissionFactsDigest` only what identifies the device now, so that reading the same
device again gives the same digest. -/

namespace ArkForge.Transport.Observation

open Core.Cbor Core.Digest Core.Ids Core.Effect
open Core.Plan

/-- How much the observation proves about which device this is. -/
inductive IdentityEvidenceStrength where
  | classOnly
  | serialAsserted
  | serialAndTopology
  | protocolConfirmed
  deriving DecidableEq

def IdentityEvidenceStrength.asStr : IdentityEvidenceStrength → String
  | classOnly => "classOnly"
  | serialAsserted => "serialAsserted"
  | serialAndTopology => "serialAndTopology"
  | protocolConfirmed => "protocolConfirmed"

/-- What the device said its serial is. -/
inductive SerialEvidence where
  | absent
  | descriptor (digest : Sha256Digest)
  | protocolUnique (digest : Sha256Digest)
  deriving DecidableEq

namespace SerialEvidence

/-- The name of the evidence and the bytes of its digest, as a snapshot shows them. -/
def kindAndBytes : SerialEvidence → String × List UInt8
  | absent => ("absent", [])
  | descriptor digest => ("descriptor", digest.bytes)
  | protocolUnique digest => ("protocolUnique", digest.bytes)

def toCbor : SerialEvidence → CborValue
  | absent => .textMap [("kind", .text "absent"), ("digest", .null)]
  | descriptor digest => .textMap [("kind", .text "descriptor"), ("digest", digest.toCbor)]
  | protocolUnique digest => .textMap [("kind", .text "protocolUnique"), ("digest", digest.toCbor)]

end SerialEvidence

/-- One typed fact the protocol answered with. -/
structure ProtocolIdentityFact where
  key : OpaqueId
  value : String
  deriving DecidableEq

def ProtocolIdentityFact.toCbor (f : ProtocolIdentityFact) : CborValue := .textMap [
  ("key", f.key.toCbor),
  ("value", .text f.value)]

/-- A provider that could plausibly drive the device. -/
structure ProviderCandidateRef where
  providerId : OpaqueId
  confidence : OpaqueId
  deriving DecidableEq

structure DeviceObservation where
  observationId : OpaqueId
  observedAtEpochMs : UInt64
  mode : DeviceMode
  topologyDigest : Sha256Digest
  descriptorDigest : Sha256Digest
  serialEvidence : SerialEvidence
  protocolIdentity : List ProtocolIdentityFact
  providerCandidates : List ProviderCandidateRef
  identityStrength : IdentityEvidenceStrength
  malformedDescriptor : Bool

namespace DeviceObservation

/-- The facts that identify the device, without the observation's own id and time. -/
def admissionFacts (o : DeviceObservation) : CborValue := .textMap [
  ("mode", modeCbor o.mode),
  ("topologyDigest", o.topologyDigest.toCbor),
  ("descriptorDigest", o.descriptorDigest.toCbor),
  ("serialEvidence", o.serialEvidence.toCbor),
  ("protocolIdentity", .array (o.protocolIdentity.map (·.toCbor))),
  ("identityStrength", .text o.identityStrength.asStr),
  ("malformedDescriptor", .bool o.malformedDescriptor)]

def admissionFactsDigest (o : DeviceObservation) : Except CborError Sha256Digest := do
  let bytes ← o.admissionFacts.toCanonicalBytes
  return digestInDomain .admissionDeviceFacts bytes

end DeviceObservation

end ArkForge.Transport.Observation
