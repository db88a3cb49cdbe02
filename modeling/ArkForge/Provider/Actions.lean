import ArkForge.Core.Projection
import ArkForge.Core.Verification

/-! # Stored actions

A provider stores what a private action does in the action's body. `StoredAction.decode` reads a body
back; a body the provider did not write is an error. -/

namespace ArkForge.Provider.Actions

open Core.Cbor Core.Digest Core.Projection Core.Verification

/-- What one action turned out to be. -/
inductive StoredAction where
  /-- Performed by the authority's control port; `expect` holds the facts it must answer with. -/
  | managedControl (controlAction : String) (expect : List (String × String))
  | probeLoader
  | validatePartitionTable (expectedLayoutDigest : Sha256Digest)
  | writePartition (partition member : String) (beginSector : UInt64)
  | readbackPartition (partition : String) (beginSector : UInt64)
      (maxStrengthWhenReadable : VerificationStrength) (erasedMediumFiller : Option UInt8)
  | characterizeReadDomain
  | resetDevice

/-- Why a body is not an action, told apart as the messages of the source are. -/
inductive ActionUndecodable where
  | bodyNotAMap
  | notText (field : String)
  | notUnsigned (field : String)
  | notADigest (field : String)
  | expectEntryNotText
  | noExpectMap
  | fillerNotAByteOrNull
  | unknownStrength (text : String)
  | unknownAction (action : String)
  deriving DecidableEq

def bodyEntries : CborValue → Except ActionUndecodable (List (CborValue × CborValue))
  | .map entries => .ok entries
  | _ => .error .bodyNotAMap

/-- The value of the first entry whose key is the text `name`. -/
def field (entries : List (CborValue × CborValue)) (name : String) : Option CborValue :=
  (entries.find? fun e => match e.1 with
    | .text key => key = name
    | _ => false).map Prod.snd

def textField (entries : List (CborValue × CborValue)) (name : String) :
    Except ActionUndecodable String :=
  match field entries name with
  | some (.text value) => .ok value
  | _ => .error (.notText name)

def unsignedField (entries : List (CborValue × CborValue)) (name : String) :
    Except ActionUndecodable UInt64 :=
  match field entries name with
  | some (.unsigned value) => .ok value
  | _ => .error (.notUnsigned name)

def digestField (entries : List (CborValue × CborValue)) (name : String) :
    Except ActionUndecodable Sha256Digest :=
  match field entries name with
  | some (.bytes bytes) =>
    if h : bytes.length = 32 then .ok ⟨bytes, h⟩ else .error (.notADigest name)
  | _ => .error (.notADigest name)

def expectEntry : CborValue × CborValue → Except ActionUndecodable (String × String)
  | (.text key, .text value) => .ok (key, value)
  | _ => .error .expectEntryNotText

def expectField (entries : List (CborValue × CborValue)) :
    Except ActionUndecodable (List (String × String)) :=
  match field entries "expect" with
  | some (.map pairs) => pairs.mapM expectEntry
  | _ => .error .noExpectMap

def fillerField (entries : List (CborValue × CborValue)) :
    Except ActionUndecodable (Option UInt8) :=
  match field entries "erasedMediumFiller" with
  | some (.unsigned byte) =>
    if byte ≤ 0xFF then .ok (some byte.toUInt8) else .error .fillerNotAByteOrNull
  | some .null => .ok none
  | _ => .error .fillerNotAByteOrNull

def parseStrength (text : String) : Except ActionUndecodable VerificationStrength :=
  if text = "fullHash" then .ok .fullHash
  else if text = "sampledRanges" then .ok .sampledRanges
  else if text = "prefixHash" then .ok .prefixHash
  else if text = "semanticOnly" then .ok .semanticOnly
  else .error (.unknownStrength text)

def decodeNamed (entries : List (CborValue × CborValue)) (action : String) :
    Except ActionUndecodable StoredAction :=
  if action = "enter-loader" then do
    return .managedControl (← textField entries "controlAction") []
  else if action = "verify-hdc-postflight" then do
    return .managedControl (← textField entries "controlAction") (← expectField entries)
  else if action = "probe-loader" then .ok .probeLoader
  else if action = "validate-partition-table" then do
    return .validatePartitionTable (← digestField entries "expectedLayoutDigest")
  else if action = "write-partition" then do
    return .writePartition (← textField entries "partition") (← textField entries "member")
      (← unsignedField entries "beginSector")
  else if action = "readback-partition" then do
    return .readbackPartition (← textField entries "partition") (← unsignedField entries "beginSector")
      (← parseStrength (← textField entries "maxStrengthWhenReadable")) (← fillerField entries)
  else if action = "characterize-read-domain" then .ok .characterizeReadDomain
  else if action = "reset-device" then .ok .resetDevice
  else .error (.unknownAction action)

/-- Decodes the provider's own stored body. -/
def StoredAction.decode (record : PrivateActionRecord) : Except ActionUndecodable StoredAction := do
  let entries ← bodyEntries record.body
  decodeNamed entries (← textField entries "action")

end ArkForge.Provider.Actions
