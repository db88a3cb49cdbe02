import ArkForge.Daemon.Starts
import ArkForge.Engine.PlanCommitment
import ArkForge.Ipc.Snapshots
import ArkForge.Standalone.Authority

/-! # One device, two digests

The daemon digests the device it observed, the authority digests the device it is shown. The two agree
on every snapshot that is published, and the digest tells devices apart. -/

namespace ArkForge.Standalone.AdmittedDevice

open Lib.Result Lib.Transaction
open Core.Cbor Core.CborCanon Core.CborMap Core.CborFields Core.Digest
open Core.Effect Core.Ids Core.Plan Core.Projection
open Engine.Durable Engine.PlanCodec Engine.PlanCommitment Engine.Handle Engine.Replay
open Ipc.Jobs Transport.Observation
open Daemon.Jobs Daemon.Admission Daemon.Registry Daemon.Starts Standalone.Authority

/-! ### What is published -/

/-- An admission was requested under these facts, and this snapshot is what its event carries. -/
def Publishes (facts : AdmissionFacts) (snapshot : StepAdmissionSnapshot) : Prop :=
  ∃ (io : AppendIo) (envelope : FlashPlanEnvelope) (privatePlan : StoredProviderPlan) (now : UInt64)
    (job job' : Job) (event : JobEvent),
    (requestAdmission io envelope privatePlan facts now).exec job = (.ok (), job') ∧
    job'.events = job.events ++ [event] ∧ event.admission = some snapshot

structure Shows (snapshot : StepAdmissionSnapshot) (o : DeviceObservation) : Prop where
  mode : snapshot.observedMode = o.mode.value
  topology : snapshot.topologySha256 = o.topologyDigest.bytes
  descriptor : snapshot.descriptorSha256 = o.descriptorDigest.bytes
  serial : (snapshot.serialEvidenceKind, snapshot.serialSha256) = o.serialEvidence.kindAndBytes
  identity : snapshot.protocolIdentity = o.protocolIdentity.map fun f => ⟨f.key.value, f.value⟩
  strength : snapshot.identityStrength = o.identityStrength.asStr
  malformed : snapshot.malformedDescriptor = o.malformedDescriptor

variable {snapshot : StepAdmissionSnapshot} {facts : AdmissionFacts}

theorem shows_of_admissionSnapshot {job : Job} {envelope : FlashPlanEnvelope}
    {privatePlan : StoredProviderPlan} {freshness : Authority.Permit.AuthoritySnapshot}
    (h : admissionSnapshot job envelope privatePlan facts = .ok (snapshot, freshness)) :
    Shows snapshot facts.observation ∧ ∃ digest, facts.observation.admissionFactsDigest = .ok digest ∧
      snapshot.admittedDeviceFactsSha256 = digest.bytes := by
  unfold admissionSnapshot at h
  simp only [bind_eq_ok] at h
  obtain ⟨step, -, primary, -, -, -, fresh, hfresh, publicStep, -, privateAction, -, effectSet, -,
    h⟩ := h
  obtain ⟨digest, hdigest, hfresh⟩ := bind_eq_ok.mp hfresh
  cases h
  cases hfresh
  exact ⟨⟨rfl, rfl, rfl, rfl, rfl, rfl, rfl⟩, digest, mapError_eq_ok.mp hdigest, rfl⟩

theorem shows_of_publishes (h : Publishes facts snapshot) : Shows snapshot facts.observation ∧
      ∃ digest, facts.observation.admissionFactsDigest = .ok digest ∧
        snapshot.admittedDeviceFactsSha256 = digest.bytes := by
  obtain ⟨io, envelope, privatePlan, now, job, job', event, hrun, hevents, hevent⟩ := h
  have hrequest : Ensures (requestAdmission io envelope privatePlan facts now) job
      fun result job' => result = .ok () → ∃ snapshot freshness,
        admissionSnapshot job envelope privatePlan facts = .ok (snapshot, freshness) ∧
        ∃ event, job'.events = job.events ++ [event] ∧ event.admission = some snapshot := by
    refine ensures_get_bind (ensures_liftExcept_bind (fun _ _ hok => ?_) fun shown hshown => ?_)
    · cases hok
    · obtain ⟨snapshot, freshness⟩ := shown
      refine ensures_bind (ensures_record fun result journal => ?_)
      cases result with
      | error e =>
        intro hok
        cases hok
      | ok digest => exact fun _ => ⟨snapshot, freshness, hshown, _, rfl, rfl⟩
  obtain ⟨published, freshness, hsnapshot, event', hevents', hevent'⟩ := hrequest.of_exec hrun rfl
  rw [hevents, List.append_cancel_left_eq] at hevents'
  cases hevents'
  rw [hevent] at hevent'
  cases hevent'
  exact shows_of_admissionSnapshot hsnapshot

/-! ### What the authority computes -/

variable {o : DeviceObservation}

theorem serialEvidence_of_shows (h : Shows snapshot o) :
    serialEvidence snapshot = .ok o.serialEvidence := by
  have hserial := h.serial
  unfold serialEvidence
  rcases hkind : o.serialEvidence with _ | digest | digest <;> rw [hkind] at hserial <;>
    obtain ⟨hname, hbytes⟩ := Prod.mk.inj hserial <;> rw [hname, hbytes]
  · rfl
  all_goals
    rw [digestBytes_eq_ok.mpr rfl]
    rfl

theorem recompute_of_shows (h : Shows snapshot o) : recomputeAdmittedDeviceDigest snapshot =
      o.admissionFactsDigest.mapError fun e => permitInvalid (.cbor e) := by
  have hidentity : (snapshot.protocolIdentity.mapM fun fact => do
      let key ← (OpaqueId.new fact.key).mapError fun e => permitInvalid (.id e)
      return { key, value := fact.value : ProtocolIdentityFact }) = .ok o.protocolIdentity := by
    rw [h.identity, mapM_eq_ok, List.forall₂_map_left_iff, List.forall₂_same]
    intro fact _
    rw [OpaqueId.new_value]
    rfl
  have hstrength :
      IdentityEvidenceStrength.parse snapshot.identityStrength = some o.identityStrength := by
    rw [h.strength]
    cases o.identityStrength <;> rfl
  unfold recomputeAdmittedDeviceDigest
  rw [serialEvidence_of_shows h, h.mode, DeviceMode.new_value, digestBytes_eq_ok.mpr
    h.topology.symm,
    digestBytes_eq_ok.mpr h.descriptor.symm, hidentity, hstrength, h.malformed]
  rfl

/-! ### What the digest says -/

def SameDevice (o o' : DeviceObservation) : Prop :=
  o.mode = o'.mode ∧ o.topologyDigest = o'.topologyDigest ∧
  o.descriptorDigest = o'.descriptorDigest ∧ o.serialEvidence = o'.serialEvidence ∧
  o.protocolIdentity = o'.protocolIdentity ∧ o.identityStrength = o'.identityStrength ∧
  o.malformedDescriptor = o'.malformedDescriptor

/-- The facts of the two observations are hashed to one digest only if they are the same bytes. -/
def CollisionFree (o o' : DeviceObservation) : Prop :=
  ∀ b b', o.admissionFacts.toCanonicalBytes = .ok b → o'.admissionFacts.toCanonicalBytes = .ok b' →
    digestInDomain .admissionDeviceFacts b = digestInDomain .admissionDeviceFacts b' → b = b'

/-- What is hashed fits in memory. -/
def InMemory (o : DeviceObservation) : Prop :=
  ∀ b, o.admissionFacts.toCanonicalBytes = .ok b → b.length < 2 ^ 64

theorem serialEvidence_of_sortKeys {s s' : SerialEvidence}
    (h : s.toCbor.sortKeys = s'.toCbor.sortKeys) : s = s' := by
  have hfields : ∀ {kind kind' : String} {digest digest' : CborValue},
      s.toCbor = .textMap [("kind", .text kind), ("digest", digest)] →
      s'.toCbor = .textMap [("kind", .text kind'), ("digest", digest')] →
      kind = kind' ∧ digest.sortKeys = digest'.sortKeys := by
    intro kind kind' digest digest' hs hs'
    rw [hs, hs'] at h
    exact ⟨eq_of_reads text_reads (sortKeys_eq_of_fields h "kind"), sortKeys_eq_of_fields h "digest"⟩
  cases s <;> cases s' <;> obtain ⟨hkind, hdigest⟩ := hfields rfl rfl <;>
    first | exact absurd hkind (by decide) | rfl | rw [eq_of_reads digest_reads hdigest]

theorem fact_of_sortKeys {f f' : ProtocolIdentityFact}
    (h : f.toCbor.sortKeys = f'.toCbor.sortKeys) : f = f' := by
  have hkey : f.key = f'.key := eq_of_reads opaqueId_reads (sortKeys_eq_of_fields h "key")
  have hvalue : f.value = f'.value := eq_of_reads text_reads (sortKeys_eq_of_fields h "value")
  cases f
  simp_all

theorem sameDevice_of_sortKeys {o' : DeviceObservation}
    (h : o.admissionFacts.sortKeys = o'.admissionFacts.sortKeys) : SameDevice o o' := by
  refine ⟨eq_of_reads mode_reads (sortKeys_eq_of_fields h "mode"),
    eq_of_reads digest_reads (sortKeys_eq_of_fields h "topologyDigest"),
    eq_of_reads digest_reads (sortKeys_eq_of_fields h "descriptorDigest"),
    serialEvidence_of_sortKeys (sortKeys_eq_of_fields h "serialEvidence"), ?_, ?_,
    eq_of_reads boolean_reads (sortKeys_eq_of_fields h "malformedDescriptor")⟩
  · have hfacts : (CborValue.array (o.protocolIdentity.map (·.toCbor))).sortKeys =
        (CborValue.array (o'.protocolIdentity.map (·.toCbor))).sortKeys :=
      sortKeys_eq_of_fields h "protocolIdentity"
    rw [sortKeys_array, sortKeys_array, List.map_map, List.map_map] at hfacts
    exact List.map_injective_iff.mpr (fun _ _ hf => fact_of_sortKeys hf) (CborValue.array.inj hfacts)
  · have hname : o.identityStrength.asStr = o'.identityStrength.asStr :=
      eq_of_reads text_reads (sortKeys_eq_of_fields h "identityStrength")
    cases hs : o.identityStrength <;> cases hs' : o'.identityStrength <;> rw [hs, hs'] at hname <;>
      first | rfl | exact absurd hname (by decide)

/-- **Daemon and authority digest the same device.** The snapshot of an admission survives the wire,
and what the authority computes from it is the digest of the observation, which the snapshot carries.
Observations that are shown with one digest are of one device. -/
theorem recomputes_admitted_device :
    (∀ (facts : AdmissionFacts) (snapshot : StepAdmissionSnapshot), Publishes facts snapshot →
      (Ipc.Snapshots.encode snapshot).length < 2 ^ 64 → ∃ decoded digest,
        Ipc.Snapshots.decode (Ipc.Snapshots.encode snapshot) = .ok decoded ∧
        recomputeAdmittedDeviceDigest decoded = .ok digest ∧
        facts.observation.admissionFactsDigest = .ok digest ∧
        snapshot.admittedDeviceFactsSha256 = digest.bytes ∧ Shows decoded facts.observation) ∧
    ∀ (o o' : DeviceObservation) (snapshot snapshot' : StepAdmissionSnapshot) (digest : Sha256Digest),
      Shows snapshot o → Shows snapshot' o' → InMemory o → InMemory o' → CollisionFree o o' →
      recomputeAdmittedDeviceDigest snapshot = .ok digest →
      recomputeAdmittedDeviceDigest snapshot' = .ok digest → SameDevice o o' := by
  constructor
  · intro facts snapshot hpublishes hlen
    obtain ⟨hshows, digest, hdigest, hcarried⟩ := shows_of_publishes hpublishes
    refine ⟨snapshot, digest, Ipc.Snapshots.decode_encode hlen, ?_, hdigest, hcarried, hshows⟩
    rw [recompute_of_shows hshows, hdigest]
    rfl
  · intro o o' snapshot snapshot' digest hshows hshows' hmem hmem' hfree hdigest hdigest'
    rw [recompute_of_shows hshows, mapError_eq_ok] at hdigest
    rw [recompute_of_shows hshows', mapError_eq_ok] at hdigest'
    obtain ⟨b, hb, hdigest⟩ := bind_eq_ok.mp hdigest
    obtain ⟨b', hb', hdigest'⟩ := bind_eq_ok.mp hdigest'
    have hbytes := hfree b b' hb hb' (Except.ok.inj (hdigest.trans hdigest'.symm))
    subst hbytes
    exact sameDevice_of_sortKeys (sortKeys_eq_of_encodes (fits_of_length _ hb (hmem b hb))
      (fits_of_length _ hb' (hmem' b hb')) hb hb')

/-! ### The first admission of a job -/

theorem exists_publishes {envelope : FlashPlanEnvelope} {privatePlan : StoredProviderPlan}
    (h : Admits envelope privatePlan facts) {job : Job} (hp : job.journal.poisoned = false)
    (hzero : job.stepIndex = 0) : ∃ snapshot freshness,
      admissionSnapshot job envelope privatePlan facts = .ok (snapshot, freshness) ∧
      Publishes facts snapshot := by
  obtain ⟨hok, snapshot, freshness, event, hshown, hevents, hevent⟩ :=
    requestAdmission_ok envelope privatePlan facts 0 hp hzero h
  exact ⟨snapshot, freshness, hshown, flawless, envelope, privatePlan, 0, job, _, event,
    Prod.ext hok rfl, hevents, hevent⟩

def firstJob : Job := plannedJob "JOB" firstId firstStart.envelope (opened "" [] [] 0)

/-- The device of the first start, seen again later. -/
def seenAgain : DeviceObservation :=
  { firstStart.facts.observation with
    observationId := ⟨"AGAIN", by decide⟩, observedAtEpochMs := 60000 }

/-- The first admission of a job is recomputed by the authority. A later observation of the device has
the digest that it shows, and is of the same device. -/
theorem recomputes_admitted_device_first : ∃ snapshot decoded digest,
    Publishes firstStart.facts snapshot ∧
    Ipc.Snapshots.decode (Ipc.Snapshots.encode snapshot) = .ok decoded ∧
    recomputeAdmittedDeviceDigest decoded = .ok digest ∧
    firstStart.facts.observation.admissionFactsDigest = .ok digest ∧
    SameDevice firstStart.facts.observation seenAgain := by
  obtain ⟨snapshot, freshness, hshown, hpublishes⟩ :=
    @exists_publishes firstStart.facts _ _ admits_first firstJob rfl rfl
  have hlength : ∀ shown ∈ (admissionSnapshot firstJob firstStart.envelope firstStart.privatePlan
      firstStart.facts).toOption, (Ipc.Snapshots.encode shown.1).length < 2 ^ 64 := by
    decide +kernel
  obtain ⟨decoded, digest, hdecoded, hdigest, hobserved, -, hshows⟩ :=
    recomputes_admitted_device.1 _ _ hpublishes (hlength _ (by rw [hshown]; rfl))
  have hmem : InMemory firstStart.facts.observation := by
    intro b hb
    have hshort : ∀ bytes ∈ firstStart.facts.observation.admissionFacts.toCanonicalBytes.toOption,
        bytes.length < 2 ^ 64 := by decide +kernel
    exact hshort b (by rw [hb]; rfl)
  have hagain : Shows decoded seenAgain := ⟨hshows.mode, hshows.topology, hshows.descriptor,
    hshows.serial, hshows.identity, hshows.strength, hshows.malformed⟩
  have hfree : CollisionFree firstStart.facts.observation seenAgain :=
    fun b b' hb hb' _ => Except.ok.inj (hb.symm.trans hb')
  exact ⟨snapshot, decoded, digest, hpublishes, hdecoded, hdigest, hobserved,
    recomputes_admitted_device.2 _ _ _ _ _ hshows hagain hmem hmem hfree hdigest hdigest⟩

end ArkForge.Standalone.AdmittedDevice
