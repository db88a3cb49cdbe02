import ArkForge.Core.HashStandard
import ArkForge.Lib.Codes
import ArkForge.Standalone.Authority

/-! # What a stable identity binds

The identity of a device is the digest of labelled fields, each written with the lengths of its
label and of its value. The facts of an observation end where a field with another label begins. So
what is hashed determines the observation and the probe.

A migration replaces the observation id and the topology of a device by those that were recorded for
it, and is granted only if the identity is then the recorded one. -/

namespace ArkForge.Standalone.StableIdentity

open Lib.Codes Lib.Result
open Core.Cbor Core.Digest Core.HashStandard
open Ipc.Receipt Ipc.Wire Standalone.Authority

/-! ### Migrations of the topology -/

def POLICY : String := "windows-location-paths-to-connector-v1"

def blocked (reason : String) : StandaloneError :=
  ⟨"RECOVERY_PROOF_REQUIRED", reason, none, 3, false⟩

def blockedWire (error : WireError) : StandaloneError :=
  ⟨"RECOVERY_PROOF_REQUIRED", "", some (.wire error), 3, false⟩

structure Migration where
  sourceDevice : String
  sourceTopology : String
  sourceStable : List UInt8
  targetDevice : String
  targetTopology : String
  targetStable : List UInt8
  deriving DecidableEq

def Migration.encode (m : Migration) : List UInt8 :=
  writeString 1 POLICY ++ writeString 2 m.sourceDevice ++ writeString 3 m.sourceTopology ++
    writeBytes 4 m.sourceStable ++ writeString 5 m.targetDevice ++ writeString 6 m.targetTopology ++
    writeBytes 7 m.targetStable

def migrationField (out : Migration) (field : ℕ) (value : FieldValue) :
    Except StandaloneError Migration :=
  let text := (value.asStr field).mapError blockedWire
  let bytes := value.asBytes.mapError blockedWire
  match field with
  | 1 => do
    if (← text) = POLICY then return out
    else .error (blocked "Unknown topology migration policy or field.")
  | 2 => do return { out with sourceDevice := ← text }
  | 3 => do return { out with sourceTopology := ← text }
  | 4 => do return { out with sourceStable := ← bytes }
  | 5 => do return { out with targetDevice := ← text }
  | 6 => do return { out with targetTopology := ← text }
  | 7 => do return { out with targetStable := ← bytes }
  | _ => .error (blocked "Unknown topology migration policy or field.")

/-- The prefix of a device in normal mode, and eight digits. -/
def isCanonicalNormal (id : String) : Bool :=
  let digits := (utf8 id).drop 14
  (utf8 id).take 14 = utf8 "USB-2207-5000-" ∧ digits.length = 8 ∧
    digits.all fun byte => 48 ≤ byte ∧ byte ≤ 57 ∨ 97 ≤ byte ∧ byte ≤ 102

def Migration.decode (bytes : List UInt8) : Except StandaloneError Migration := do
  let out ← foldFields blockedWire migrationField ⟨"", "", [], "", "", []⟩ bytes
  if ¬ (isCanonicalNormal out.sourceDevice ∧ isCanonicalNormal out.targetDevice) then
    .error (blocked "Topology migration is limited to a canonical Normal USB identity.")
  else if out.encode ≠ bytes ∨ out.sourceStable.length ≠ 32 ∨ out.targetStable.length ≠ 32 ∨
      out.sourceDevice = out.targetDevice ∨ out.sourceTopology = out.targetTopology ∨
      ¬ (parseHex out.sourceTopology).isOk ∨ ¬ (parseHex out.targetTopology).isOk then
    .error (blocked "Incomplete or noncanonical topology migration proof.")
  else return out

def validateObservations (lineage : ActiveTargetLineage) (observation : DeviceObservationView)
    (probe : DeviceProbeView) : Except StandaloneError Unit :=
  if [observation, probe.observation].any fun value =>
      value.identityStrength ≠ "serialAndTopology" ∨ value.serialSha256 = "" ∨
      value.descriptorSha256 = "" ∨ value.topologySha256 ≠ lineage.topologySha256 ∨
      value.malformedDescriptor then
    .error (blocked "Recovery requires fresh, strong serial, descriptor and topology identity.")
  else if (stableIdentityDigest observation probe).bytes ≠ lineage.currentStableIdentitySha256 then
    .error (blocked "Fresh device facts differ from the original durable target lineage.")
  else .ok ()

/-- The observation with the id and the topology that are given. -/
def projected (o : DeviceObservationView) (id topology : String) : DeviceObservationView :=
  { o with observationId := id, topologySha256 := topology }

def projectedProbe (probe : DeviceProbeView) (id topology : String) : DeviceProbeView :=
  { probe with observation := projected probe.observation id topology }

def prove (lineage : ActiveTargetLineage) (observation : DeviceObservationView)
    (probe : DeviceProbeView) (legacyId legacyTopology : String) :
    Except StandaloneError Migration := do
  let probed := probe.observation
  if observation.mode ≠ "hdc-normal" ∨ probed.mode ≠ observation.mode ∨
      probed.observationId ≠ observation.observationId ∨
      probed.topologySha256 ≠ observation.topologySha256 ∨
      probed.descriptorSha256 ≠ observation.descriptorSha256 ∨
      probed.serialSha256 ≠ observation.serialSha256 ∨
      probed.serialEvidenceKind ≠ "descriptor" ∨ observation.serialEvidenceKind ≠ "descriptor" then
    .error (blocked "Topology projection requires identical fresh Normal identity facts.")
  else do
    let before := projected observation legacyId legacyTopology
    let probedBefore := projectedProbe probe legacyId legacyTopology
    validateObservations lineage before probedBefore
    Migration.decode (Migration.encode {
      sourceDevice := legacyId, sourceTopology := legacyTopology
      sourceStable := (stableIdentityDigest before probedBefore).bytes
      targetDevice := observation.observationId, targetTopology := observation.topologySha256
      targetStable := (stableIdentityDigest observation probe).bytes })

/-- A migration that a proof may state. -/
structure Migration.Canonical (m : Migration) : Prop where
  source : isCanonicalNormal m.sourceDevice = true
  target : isCanonicalNormal m.targetDevice = true
  device : m.sourceDevice ≠ m.targetDevice
  topology : m.sourceTopology ≠ m.targetTopology
  sourceTopology : ∃ d : Sha256Digest, m.sourceTopology = d.toHex
  targetTopology : ∃ d : Sha256Digest, m.targetTopology = d.toHex
  sourceStable : m.sourceStable.length = 32
  targetStable : m.targetStable.length = 32

theorem fold_migration {m : Migration} (h : m.Canonical) :
    foldFields blockedWire migrationField ⟨"", "", [], "", "", []⟩ m.encode = .ok m := by
  have hdevice : ∀ {id : String}, isCanonicalNormal id = true → Short id := by
    intro id hid
    obtain ⟨-, hdigits, -⟩ := of_decide_eq_true hid
    rw [List.length_drop] at hdigits
    exact (by omega : (utf8 id).length ≤ 22).trans_lt (by decide)
  have hhex : ∀ {text : String}, (∃ d : Sha256Digest, text = d.toHex) → Short text := by
    rintro _ ⟨d, rfl⟩
    obtain ⟨hlength, -⟩ := exists_parseHex.mp ⟨d, parseHex_eq_ok.mpr rfl⟩
    exact hlength.trans_lt (by decide)
  have hstable : ∀ {bytes : List UInt8}, bytes.length = 32 → bytes.length < 2 ^ 64 :=
    fun hlength => hlength ▸ by decide
  have hencode : m.encode = writeString 1 POLICY ++ (writeString 2 m.sourceDevice ++
      (writeString 3 m.sourceTopology ++ (writeBytes 4 m.sourceStable ++
        (writeString 5 m.targetDevice ++ (writeString 6 m.targetTopology ++
          (writeBytes 7 m.targetStable ++ [])))))) := by
    simp only [Migration.encode, List.append_assoc, List.append_nil]
  rw [hencode]
  refine (foldFields_text (fun _ => Migration.mk "" "" [] "" "" []) ⟨by decide, by decide⟩
    (by decide)
    (by simp only [migrationField, asStr_utf8, mapError_ok, ok_bind, if_true]; rfl) _).trans ?_
  refine (foldFields_text (Migration.mk · "" [] "" "" []) ⟨by decide, by decide⟩ (hdevice h.source)
    (by simp [migrationField, asStr_utf8, mapError_ok]) _).trans ?_
  refine (foldFields_text (Migration.mk m.sourceDevice · [] "" "" []) ⟨by decide, by decide⟩
    (hhex h.sourceTopology) (by simp [migrationField, asStr_utf8, mapError_ok]) _).trans ?_
  refine (foldFields_bytes ⟨by decide, by decide⟩ (hstable h.sourceStable) rfl
    (fun hempty => by rw [hempty]) _).trans ?_
  refine (foldFields_text (Migration.mk m.sourceDevice m.sourceTopology _ · "" [])
    ⟨by decide, by decide⟩ (hdevice h.target)
    (by simp [migrationField, asStr_utf8, mapError_ok]) _).trans ?_
  refine (foldFields_text (Migration.mk m.sourceDevice m.sourceTopology _ m.targetDevice · [])
    ⟨by decide, by decide⟩ (hhex h.targetTopology)
    (by simp [migrationField, asStr_utf8, mapError_ok]) _).trans ?_
  refine (foldFields_bytes ⟨by decide, by decide⟩ (hstable h.targetStable) rfl
    (fun hempty => by rw [hempty]) _).trans ?_
  exact foldFields_nil m

theorem Migration.decode_encode {m : Migration} (h : m.Canonical) : decode m.encode = .ok m := by
  have hhex : ∀ {text : String}, (∃ d : Sha256Digest, text = d.toHex) →
      (parseHex text).isOk = true := by
    rintro _ ⟨d, rfl⟩
    rw [parseHex_eq_ok.mpr rfl]
    rfl
  rw [decode, fold_migration h, ok_bind, if_neg (by simp [h.source, h.target]),
    if_neg (by simp [h.device, h.topology, h.sourceStable, h.targetStable, hhex h.sourceTopology,
      hhex h.targetTopology])]
  rfl

/-! ### The fields of an identity -/

/-- A label and a value. -/
abbrev Field := String × List UInt8

def factFields (key value : String) (fact : KeyValue) : List Field :=
  [(key, utf8 fact.key), (value, utf8 fact.value)]

def observationFields (source : String) (o : DeviceObservationView) : List Field := [
  ("observation.source", utf8 source), ("observation.id", utf8 o.observationId),
  ("observation.mode", utf8 o.mode), ("observation.topology", utf8 o.topologySha256),
  ("observation.descriptor", utf8 o.descriptorSha256), ("observation.serial", utf8 o.serialSha256),
  ("observation.serial-evidence-kind", utf8 o.serialEvidenceKind),
  ("observation.identity-strength", utf8 o.identityStrength),
  ("observation.malformed-descriptor", [if o.malformedDescriptor then 1 else 0])] ++
  o.protocolIdentity.flatMap (factFields "observation.fact.key" "observation.fact.value")

def identityFields (o : DeviceObservationView) (p : DeviceProbeView) : List Field :=
  observationFields "discovery" o ++ (observationFields "same-handle-probe" p.observation ++
    ("probe.profile", utf8 p.profileId) ::
      p.protocolFacts.flatMap (factFields "probe.fact.key" "probe.fact.value"))

/-- What the identity is the digest of. -/
def identityBytes (o : DeviceObservationView) (p : DeviceProbeView) : List UInt8 :=
  utf8 "arkforge.cli-stable-identity/v2" ++
    (identityFields o p).flatMap fun f => stableField f.1 f.2

theorem stableIdentityDigest_eq (o : DeviceObservationView) (p : DeviceProbeView) :
    stableIdentityDigest o p = sha256 (identityBytes o p) := by
  simp [stableIdentityDigest, identityBytes, identityFields, observationFields, stableObservation,
    List.flatMap_assoc, factFields]

/-- Every length is one of a slice in memory. -/
def InMemory (o : DeviceObservationView) (p : DeviceProbeView) : Prop :=
  ∀ f ∈ identityFields o p, (utf8 f.1).length < 2 ^ 64 ∧ f.2.length < 2 ^ 64

theorem sized_inj {a b rest rest' : List UInt8} (ha : a.length < 2 ^ 64) (hb : b.length < 2 ^ 64)
    (h : beBytes a.length ++ (a ++ rest) = beBytes b.length ++ (b ++ rest')) :
    a = b ∧ rest = rest' := by
  obtain ⟨hlength, hrest⟩ := List.append_inj h rfl
  have hsame := congrArg Lib.Bytes.beNat hlength
  change Lib.Bytes.beNat (Lib.Bytes.beBytes 8 a.length) =
    Lib.Bytes.beNat (Lib.Bytes.beBytes 8 b.length) at hsame
  rw [Lib.Bytes.beNat_beBytes ha, Lib.Bytes.beNat_beBytes hb] at hsame
  exact List.append_inj hrest hsame

theorem delimited_stableField : Delimited
    (fun f : Field => (utf8 f.1).length < 2 ^ 64 ∧ f.2.length < 2 ^ 64)
    fun f => stableField f.1 f.2 := by
  rintro ⟨label, value⟩ ⟨label', value'⟩ rest rest' ⟨hl, hv⟩ ⟨hl', hv'⟩ h
  simp only [stableField, List.append_assoc] at h
  obtain ⟨hlabel, h'⟩ := sized_inj hl hl' h
  obtain ⟨hvalue, hrest⟩ := sized_inj hv hv' h'
  exact ⟨Prod.ext (utf8_injective hlabel) hvalue, hrest⟩

theorem delimited_factFields (key value : String) :
    Delimited (fun _ => True) (factFields key value) := by
  rintro ⟨k, v⟩ ⟨k', v'⟩ rest rest' - - h
  simp only [factFields, List.cons_append, List.cons.injEq, Prod.mk.injEq, true_and] at h
  exact ⟨by rw [utf8_injective h.1, utf8_injective h.2.1], h.2.2⟩

theorem ends_factFields {key value label : String} (h : key ≠ label) (content : List UInt8)
    (rest : List Field) : Ends (factFields key value) ((label, content) :: rest) := by
  intro fact rest' heq
  exact h (congrArg Prod.fst (List.head_eq_of_cons_eq heq))

theorem observationFields_inj {o o' : DeviceObservationView} {source : String}
    {rest rest' : List Field}
    (hrest : Ends (factFields "observation.fact.key" "observation.fact.value") rest)
    (hrest' : Ends (factFields "observation.fact.key" "observation.fact.value") rest')
    (h : observationFields source o ++ rest = observationFields source o' ++ rest') :
    o = o' ∧ rest = rest' := by
  simp only [observationFields, List.cons_append, List.cons.injEq, Prod.mk.injEq, true_and,
    utf8_injective.eq_iff] at h
  obtain ⟨hid, hmode, htopology, hdescriptor, hserial, hevidence, hstrength, ⟨hmalformed, -⟩,
    hfacts⟩ := h
  obtain ⟨hprotocol, hrest⟩ := Delimited.flatMap_inj (delimited_factFields _ _) (fun _ _ => trivial)
    (fun _ _ => trivial) hrest hrest' hfacts
  have hflag : o.malformedDescriptor = o'.malformedDescriptor := by
    cases hm : o.malformedDescriptor <;> cases hm' : o'.malformedDescriptor <;> simp_all
  cases o
  simp_all

theorem identityFields_inj {o o' : DeviceObservationView} {p p' : DeviceProbeView}
    (h : identityFields o p = identityFields o' p') : o = o' ∧ p = p' := by
  obtain ⟨rfl, hprobe⟩ := observationFields_inj (ends_factFields (by decide) _ _)
    (ends_factFields (by decide) _ _) h
  obtain ⟨hobservation, hprofile⟩ := observationFields_inj (ends_factFields (by decide) _ _)
    (ends_factFields (by decide) _ _) hprobe
  simp only [List.cons.injEq, Prod.mk.injEq, utf8_injective.eq_iff] at hprofile
  have hfacts := Delimited.eq_of_flatMap (delimited_factFields _ _) nofun (fun _ _ => trivial)
    (fun _ _ => trivial) hprofile.2
  cases p
  simp_all

/-- The two identities are those of one device, or they are a collision. -/
def OneDeviceOrCollision (o : DeviceObservationView) (p : DeviceProbeView)
    (o' : DeviceObservationView) (p' : DeviceProbeView) : Prop :=
  o = o' ∧ p = p' ∨
    identityBytes o p ≠ identityBytes o' p' ∧
    sha256 (identityBytes o p) = sha256 (identityBytes o' p')

theorem oneDevice_of_digest {o o' : DeviceObservationView} {p p' : DeviceProbeView}
    (hm : InMemory o p) (hm' : InMemory o' p')
    (h : stableIdentityDigest o p = stableIdentityDigest o' p') :
    OneDeviceOrCollision o p o' p' := by
  rw [stableIdentityDigest_eq, stableIdentityDigest_eq] at h
  by_cases hbytes : identityBytes o p = identityBytes o' p'
  · refine .inl (identityFields_inj ?_)
    exact delimited_stableField.eq_of_flatMap (fun f => by simp [stableField, beBytes]) hm hm'
      (List.append_cancel_left hbytes)
  · exact .inr ⟨hbytes, h⟩

/-- **Identity digests bind identities, and a migration changes only the topology.** Equal digests
are those of one observation and one probe, or a collision. If a migration is granted, then the
lineage holds the digest of what is seen now with only the id and the topology replaced; so the
device that the lineage was recorded for differs from it in nothing else. -/
theorem identity_binds :
    (∀ o p o' p', InMemory o p → InMemory o' p' →
      stableIdentityDigest o p = stableIdentityDigest o' p' → OneDeviceOrCollision o p o' p') ∧
    ∀ lineage o p legacyId legacyTopology m,
      prove lineage o p legacyId legacyTopology = .ok m →
      let before := projected o legacyId legacyTopology
      let probedBefore := projectedProbe p legacyId legacyTopology
      lineage.currentStableIdentitySha256 = (stableIdentityDigest before probedBefore).bytes ∧
      ∀ original probed, InMemory original probed → InMemory before probedBefore →
        lineage.currentStableIdentitySha256 = (stableIdentityDigest original probed).bytes →
        OneDeviceOrCollision original probed before probedBefore := by
  refine ⟨fun o p o' p' hm hm' h => oneDevice_of_digest hm hm' h, ?_⟩
  intro lineage o p legacyId legacyTopology m h
  unfold prove at h
  dsimp only at h
  split_ifs at h
  obtain ⟨_, hvalid, -⟩ := bind_eq_ok.mp h
  unfold validateObservations at hvalid
  split_ifs at hvalid with hweak hsame
  have hdigest := (not_not.mp hsame).symm
  exact ⟨hdigest, fun original probed hm hm' horiginal =>
    oneDevice_of_digest hm hm' (Sha256Digest.ext (horiginal.symm.trans hdigest))⟩

/-! ### A device whose port is named anew -/

/-- The board in normal mode, under an id and at a port. -/
def normalBoard (id topology : String) : DeviceObservationView where
  observationId := id
  mode := "hdc-normal"
  topologySha256 := topology
  descriptorSha256 := "d1"
  identityStrength := "serialAndTopology"
  malformedDescriptor := false
  protocolIdentity := [⟨"product", "DAYU200"⟩]
  serialSha256 := "s1"
  serialEvidenceKind := "descriptor"

def normalProbe (id topology : String) : DeviceProbeView :=
  ⟨normalBoard id topology, [⟨"product", "DAYU200"⟩], "dayu200"⟩

def legacyId : String := "USB-2207-5000-00000001"

def connectorId : String := "USB-2207-5000-0000000a"

/-- The name of a port, as an encoding has it. -/
def portNamed (byte : UInt8) : String :=
  Sha256Digest.toHex ⟨List.replicate 32 byte, List.length_replicate⟩

def legacyLineage : ActiveTargetLineage where
  planId := "PLAN-1"
  currentDeviceId := legacyId
  currentStableIdentitySha256 := (stableIdentityDigest (normalBoard legacyId (portNamed 0))
    (normalProbe legacyId (portNamed 0))).bytes
  topologySha256 := portNamed 0
  revision := 1

/-- The migration of the board to the new name of its port is granted, and its lineage holds the
identity under the old one. -/
theorem identity_binds_board : ∃ m,
    prove legacyLineage (normalBoard connectorId (portNamed 1)) (normalProbe connectorId (portNamed 1))
      legacyId (portNamed 0) = .ok m ∧
    OneDeviceOrCollision (normalBoard legacyId (portNamed 0)) (normalProbe legacyId (portNamed 0))
      (projected (normalBoard connectorId (portNamed 1)) legacyId (portNamed 0))
      (projectedProbe (normalProbe connectorId (portNamed 1)) legacyId (portNamed 0)) := by
  have hvalid : validateObservations legacyLineage
      (projected (normalBoard connectorId (portNamed 1)) legacyId (portNamed 0))
      (projectedProbe (normalProbe connectorId (portNamed 1)) legacyId (portNamed 0)) = .ok () := by
    rw [validateObservations, if_neg (by decide +kernel)]
    exact if_neg (not_not.mpr rfl)
  have hmem : InMemory (normalBoard legacyId (portNamed 0)) (normalProbe legacyId (portNamed 0)) := by
    have hfields : ∀ f ∈ identityFields (normalBoard legacyId (portNamed 0))
        (normalProbe legacyId (portNamed 0)), (utf8 f.1).length < 2 ^ 64 ∧ f.2.length < 2 ^ 64 := by
      decide +kernel
    exact hfields
  have hproved : ∃ m, prove legacyLineage (normalBoard connectorId (portNamed 1))
      (normalProbe connectorId (portNamed 1)) legacyId (portNamed 0) = .ok m := by
    rw [prove, if_neg (by decide +kernel)]
    dsimp only
    rw [hvalid, ok_bind]
    refine ⟨_, Migration.decode_encode {
      source := by decide +kernel
      target := by decide +kernel
      device := by decide +kernel
      topology := by decide +kernel
      sourceTopology := ⟨_, rfl⟩
      targetTopology := ⟨_, rfl⟩
      sourceStable := Sha256Digest.length_eq _
      targetStable := Sha256Digest.length_eq _ }⟩
  obtain ⟨m, hm⟩ := hproved
  exact ⟨m, hm, (identity_binds.2 _ _ _ _ _ m hm).2 _ _ hmem hmem rfl⟩

end ArkForge.Standalone.StableIdentity
