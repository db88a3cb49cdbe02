import ArkForge.Daemon.PlanRouting
import ArkForge.Provider.BuiltProjection

/-! # The provider's plans pass its own gates

A plan that the provider builds is accepted by the projection, survives storage, is decoded action by
action into what its declarations say, and is routed by where its bodies are addressed to. -/

namespace ArkForge.Daemon.OwnPlans

open Lib.Result
open Core.Cbor Core.Digest Core.Ids Core.Effect
open Core.CborFields
open Core.CborMap hiding field
open Core.Projection Core.ProjectionSpec
open Core.Envelope Core.Profile Core.Verification
open Engine.PlanCodec Engine.PlanRoundTrip
open Provider.Actions Provider.Lowering Provider.LoweringSpec
open Provider.BuiltProjection Admission PlanRouting

variable {a : PrivateActionRecord} {entries : List (CborValue × CborValue)} {r : ResolvedTarget}

/-! ### Bodies -/

def Addressed (body : CborValue) : Prop :=
  ∃ entries, body = .map entries ∧
    Provider.Actions.field entries "via" = some (.text "managed-device-control-port")

theorem parseStrength_asStr (s : VerificationStrength) : parseStrength s.asStr = .ok s := by
  cases s <;> rfl

variable {filler : Option UInt8}

theorem fillerField_orNull
    (h : Provider.Actions.field entries "erasedMediumFiller" =
      some (orNull (fun byte : UInt8 => .unsigned byte.toUInt64) filler)) :
    fillerField entries = .ok filler := by
  unfold fillerField
  rw [h]
  rcases filler with _ | byte
  · rfl
  · have hbyte : byte.toUInt64 ≤ 0xFF := by
      have hlt := byte.toNat_lt
      show byte.toUInt64.toNat ≤ 255
      rw [UInt8.toNat_toUInt64]
      omega
    simp [orNull, hbyte]

theorem digestField_bytes {name : String} {digest : Sha256Digest}
    (h : Provider.Actions.field entries name = some (.bytes digest.bytes)) :
    digestField entries name = .ok digest := by
  unfold digestField
  rw [h]
  exact dif_pos digest.length_eq

theorem mapM_expect (facts : List (OpaqueId × String)) :
    (facts.map fun fact => (fact.1.toCbor, CborValue.text fact.2)).mapM expectEntry =
      .ok (facts.map fun fact => (fact.1.value, fact.2)) := by
  rw [mapM_eq_ok, List.forall₂_map_left_iff, List.forall₂_map_right_iff, List.forall₂_same]
  exact fun _ _ => rfl

section

variable (stepId : StepId) (actionId : ActionId)

theorem decode_write (loader : DeviceMode) (r : ResolvedTarget) :
    StoredAction.decode ((writeTarget loader r).primary stepId actionId) =
      .ok (.writePartition r.target.partition.value r.memberName r.target.offsetSectors) := rfl

theorem decode_verify (profile : DeviceProfile) (loader : DeviceMode) (r : ResolvedTarget) :
    StoredAction.decode ((verifyTarget profile loader r).primary stepId actionId) =
      .ok (.readbackPartition r.target.partition.value r.target.offsetSectors
        r.target.verification.maxStrengthWhenReadable profile.readDomain.erasedMediumFiller) := by
  show (parseStrength r.target.verification.maxStrengthWhenReadable.asStr >>= fun strength =>
    fillerField _ >>= fun filler => Except.ok (StoredAction.readbackPartition r.target.partition.value
      r.target.offsetSectors strength filler)) = _
  rw [parseStrength_asStr, ok_bind, fillerField_orNull rfl, ok_bind]

theorem decode_postflight (normal : DeviceMode) (facts : List (OpaqueId × String)) :
    StoredAction.decode ((postflightProbe normal facts).primary stepId actionId) =
      .ok (.managedControl "read-build-facts" (facts.map fun fact => (fact.1.value, fact.2))) := by
  show (List.mapM expectEntry _ >>= fun expect =>
    Except.ok (StoredAction.managedControl "read-build-facts" expect)) = _
  rw [mapM_expect, ok_bind]

end

/-- What the daemon makes of a draft. -/
structure Understood (d : Draft) : Prop where
  decodes : ∀ stepId actionId, ∃ action, StoredAction.decode (d.primary stepId actionId) = .ok action
  sub : ∀ body, d.subAction = some body → ∀ stepId actionId,
    StoredAction.decode (Draft.sub stepId actionId body) = .ok .characterizeReadDomain
  shallow : d.body.depth ≤ 61 ∧ ∀ body, d.subAction = some body → body.depth ≤ 61
  /-- Only what is addressed to the control port is sent there. -/
  routed : (Addressed d.body ∧ d.subAction = none ∧ ∀ stepId actionId, ∃ control,
      controlOf (d.primary stepId actionId) = .ok (some control)) ∨
    (¬ Addressed d.body ∧ ∀ stepId actionId, controlOf (d.primary stepId actionId) = .ok none)

theorem not_addressed (h : Provider.Actions.field entries "via" = none) :
    ¬ Addressed (.map entries) := by
  rintro ⟨es, heq, hvia⟩
  obtain rfl := CborValue.map.inj heq
  rw [h] at hvia
  cases hvia

theorem understood_ensureMode (normal loader : DeviceMode) : Understood (ensureMode normal loader) where
  decodes _ _ := ⟨_, rfl⟩
  sub := by simp [ensureMode]
  shallow := ⟨by simp [ensureMode], by simp [ensureMode]⟩
  routed := .inl ⟨⟨_, rfl, rfl⟩, rfl, fun _ _ => ⟨_, rfl⟩⟩

theorem understood_probeDevice (loader : DeviceMode) : Understood (probeDevice loader) where
  decodes _ _ := ⟨_, rfl⟩
  sub := by simp [probeDevice]
  shallow := ⟨by simp [probeDevice], by simp [probeDevice]⟩
  routed := .inr ⟨not_addressed rfl, fun _ _ => rfl⟩

theorem decode_layout (stepId : StepId) (actionId : ActionId) (loader : DeviceMode)
    (layout : Sha256Digest) :
    StoredAction.decode ((validateLayout loader layout).primary stepId actionId) =
      .ok (.validatePartitionTable layout) := by
  show (digestField _ "expectedLayoutDigest" >>= fun d =>
    Except.ok (StoredAction.validatePartitionTable d)) = _
  rw [digestField_bytes rfl, ok_bind]

theorem understood_validateLayout (loader : DeviceMode) (layout : Sha256Digest) :
    Understood (validateLayout loader layout) where
  decodes stepId actionId := ⟨_, decode_layout stepId actionId loader layout⟩
  sub := by simp [validateLayout]
  shallow := ⟨by simp [validateLayout], by simp [validateLayout]⟩
  routed := .inr ⟨not_addressed rfl, fun stepId actionId => by
    rw [controlOf, decode_layout]⟩

theorem understood_writeTarget (loader : DeviceMode) (r : ResolvedTarget) :
    Understood (writeTarget loader r) where
  decodes _ _ := ⟨_, rfl⟩
  sub := by simp [writeTarget]
  shallow := ⟨by simp [writeTarget], by simp [writeTarget]⟩
  routed := .inr ⟨not_addressed rfl, fun _ _ => rfl⟩

theorem understood_verifyTarget (profile : DeviceProfile) (loader : DeviceMode) (r : ResolvedTarget) :
    Understood (verifyTarget profile loader r) where
  decodes stepId actionId := ⟨_, decode_verify stepId actionId profile loader r⟩
  sub := by
    rintro body ⟨⟩ stepId actionId
    rfl
  shallow := by
    refine ⟨?_, ?_⟩
    · simp [verifyTarget]
    · rintro body ⟨⟩
      simp
  routed := .inr ⟨not_addressed rfl, fun stepId actionId => by
    rw [controlOf, decode_verify]⟩

theorem understood_reboot (loader normal : DeviceMode) : Understood (reboot loader normal) where
  decodes _ _ := ⟨_, rfl⟩
  sub := by simp [reboot]
  shallow := ⟨by simp [reboot], by simp [reboot]⟩
  routed := .inr ⟨not_addressed rfl, fun _ _ => rfl⟩

theorem understood_postflightProbe (normal : DeviceMode) (facts : List (OpaqueId × String)) :
    Understood (postflightProbe normal facts) where
  decodes stepId actionId := ⟨_, decode_postflight stepId actionId normal facts⟩
  sub := by simp [postflightProbe]
  shallow := by
    have hfacts := depth_entries_le CborValue.text (fun _ => rfl) facts
    refine ⟨?_, by simp [postflightProbe]⟩
    simp only [postflightProbe, depth_textMap_succ_le, List.forall_mem_cons]
    refine ⟨by decide, by decide, by decide, ?_, List.forall_mem_nil _⟩
    rw [CborValue.textMap, List.map_map] at hfacts
    exact hfacts.trans (by decide)
  routed := .inl ⟨⟨_, rfl, rfl⟩, rfl, fun stepId actionId => by
    rw [controlOf, decode_postflight]
    exact ⟨_, rfl⟩⟩

theorem understood_of_mem {request : MaterializeRequest} {p : Blueprint} :
    ∀ d ∈ p.workflow request, Understood d :=
  p.forall_mem_workflow request (understood_ensureMode _ _) (understood_probeDevice _)
    (understood_validateLayout _ _) (fun r _ => understood_writeTarget _ r)
    (fun r _ => understood_verifyTarget _ _ r) (understood_reboot _ _)
    (understood_postflightProbe _ _)

/-! ### Actions -/

section

variable {request : MaterializeRequest} {p : Blueprint} {built : BuiltPlan}

/-- The action is at a target: the partition, the first sector, the range and the content that it
declares are those of the target in the profile and of its member in the artifact. -/
structure At (request : MaterializeRequest) (r : ResolvedTarget) (a : PrivateActionRecord) : Prop where
  allowed : r.target ∈ request.profile.allowedTargets
  resolved : Resolves request r.target r
  declaredTarget : a.declaredTarget = some (.partition r.target.partition)
  declaredRange : a.declaredRange = some r.range
  contentDigest : a.contentDigest = some r.member.sha256

theorem write_mem_workflow (hr : r ∈ p.targets) : writeTarget p.loader r ∈ p.workflow request :=
  List.mem_append_right _ (List.mem_append_left _ (List.mem_map_of_mem hr))

theorem verify_mem_workflow (hr : r ∈ p.targets) :
    verifyTarget request.profile p.loader r ∈ p.workflow request :=
  List.mem_append_right _ (List.mem_append_right _ (List.mem_append_left _ (List.mem_map_of_mem hr)))

/-- Only a target is written, and only a target is read back. -/
structure AtTargets (request : MaterializeRequest) (p : Blueprint) (stepId : StepId)
    (actionId : ActionId) (d : Draft) : Prop where
  write : ∀ partition member beginSector, StoredAction.decode (d.primary stepId actionId) =
    .ok (.writePartition partition member beginSector) → ∃ r ∈ p.targets, d = writeTarget p.loader r
  readback : ∀ partition beginSector strength filler, StoredAction.decode (d.primary stepId actionId) =
    .ok (.readbackPartition partition beginSector strength filler) →
    ∃ r ∈ p.targets, d = verifyTarget request.profile p.loader r

theorem draft_cases {stepId : StepId} {actionId : ActionId} :
    ∀ d ∈ p.workflow request, AtTargets request p stepId actionId d := by
  have hother : ∀ {d : Draft} {action : StoredAction},
      StoredAction.decode (d.primary stepId actionId) = .ok action →
      (∀ p m b, action ≠ .writePartition p m b) → (∀ p b s f, action ≠ .readbackPartition p b s f) →
      AtTargets request p stepId actionId d := fun hd hw hr =>
    ⟨fun p m b h => absurd (Except.ok.inj (hd.symm.trans h)) (hw p m b),
      fun p b s f h => absurd (Except.ok.inj (hd.symm.trans h)) (hr p b s f)⟩
  refine p.forall_mem_workflow request ?_ ?_ ?_ ?_ ?_ ?_ ?_
  · exact hother rfl (by simp) (by simp)
  · exact hother rfl (by simp) (by simp)
  · exact hother (decode_layout _ _ _ _) (by simp) (by simp)
  · refine fun r hr => ⟨fun _ _ _ _ => ⟨r, hr, rfl⟩, fun p b s f h => ?_⟩
    cases h
  · refine fun r hr => ⟨fun p m b h => ?_, fun _ _ _ _ _ => ⟨r, hr, rfl⟩⟩
    rw [decode_verify] at h
    cases h
  · exact hother rfl (by simp) (by simp)
  · exact hother (decode_postflight _ _ _ _) (by simp) (by simp)

variable {l : Lowered} {partition : String} {beginSector : UInt64} (h : Follows request p built)

include h

theorem exists_decode (ha : a ∈ built.privatePlan.actions) :
    ∃ action, StoredAction.decode a = .ok action := by
  obtain ⟨l, hl, rfl | ⟨body, id, hbody, rfl⟩⟩ := action_cases h ha
  · exact (understood_of_mem l.draft (h.draft_mem hl)).decodes _ _
  · exact ⟨_, (understood_of_mem l.draft (h.draft_mem hl)).sub body hbody _ _⟩

theorem depth_le (ha : a ∈ built.privatePlan.actions) :
    a.body.depth ≤ 61 := by
  obtain ⟨l, hl, rfl | ⟨body, id, hbody, rfl⟩⟩ := action_cases h ha
  · exact (understood_of_mem l.draft (h.draft_mem hl)).shallow.1
  · exact (understood_of_mem l.draft (h.draft_mem hl)).shallow.2 body hbody

theorem at_of_draft (hr : r ∈ p.targets)
    (hdraft : l.draft = writeTarget p.loader r ∨ l.draft = verifyTarget request.profile p.loader r) :
    At request r l.primary := by
  obtain ⟨hallowed, hresolves⟩ := h.resolves hr
  rcases hdraft with hdraft | hdraft <;>
    exact ⟨hallowed, hresolves, by rw [Lowered.primary, hdraft]; rfl,
      by rw [Lowered.primary, hdraft]; rfl, by rw [Lowered.primary, hdraft]; rfl⟩

theorem primary_mem (hl : l ∈ p.lowered) :
    l.primary ∈ built.privatePlan.actions := by
  rw [h.actions]
  exact List.mem_flatMap.mpr ⟨l, hl, List.mem_append_right _ (List.mem_singleton_self _)⟩

theorem exists_lowered {d : Draft} (hd : d ∈ p.workflow request) :
    ∃ l ∈ p.lowered, l.draft = d := by
  rw [← h.drafts] at hd
  obtain ⟨l, hl, rfl⟩ := List.mem_map.mp hd
  exact ⟨l, hl, rfl⟩

/-- Every write agrees with its declarations, and has a readback that does. -/
theorem write_agrees (ha : a ∈ built.privatePlan.actions)
    {member : String}
    (hdecode : StoredAction.decode a = .ok (.writePartition partition member beginSector)) :
    ∃ r, At request r a ∧ partition = r.target.partition.value ∧ member = r.memberName ∧
      beginSector = r.target.offsetSectors ∧ ∃ v ∈ built.privatePlan.actions, At request r v ∧
      ∃ strength filler, StoredAction.decode v =
        .ok (.readbackPartition partition beginSector strength filler) := by
  obtain ⟨l, hl, rfl | ⟨body, id, hbody, rfl⟩⟩ := action_cases h ha
  · obtain ⟨r, hr, hdraft⟩ := (draft_cases l.draft (h.draft_mem hl)).write _ _ _ hdecode
    rw [Lowered.primary, hdraft] at hdecode
    obtain ⟨rfl, rfl, rfl⟩ := StoredAction.writePartition.inj (Except.ok.inj hdecode)
    obtain ⟨m, hm, hverify⟩ := exists_lowered h (verify_mem_workflow hr)
    have hread := decode_verify m.stepId m.actionId request.profile p.loader r
    rw [← hverify] at hread
    exact ⟨r, at_of_draft h hr (.inl hdraft), rfl, rfl, rfl, m.primary, primary_mem h hm,
      at_of_draft h hr (.inr hverify), _, _, hread⟩
  · rw [(understood_of_mem l.draft (h.draft_mem hl)).sub body hbody] at hdecode
    cases hdecode

/-- Every readback agrees with its declarations, and has a write that does. -/
theorem readback_agrees {v : PrivateActionRecord}
    (hv : v ∈ built.privatePlan.actions) {strength : VerificationStrength}
    (hdecode : StoredAction.decode v = .ok (.readbackPartition partition beginSector strength filler)) :
    ∃ r, At request r v ∧ partition = r.target.partition.value ∧
      beginSector = r.target.offsetSectors ∧ ∃ a ∈ built.privatePlan.actions, At request r a ∧
      StoredAction.decode a = .ok (.writePartition partition r.memberName beginSector) := by
  obtain ⟨l, hl, rfl | ⟨body, id, hbody, rfl⟩⟩ := action_cases h hv
  · obtain ⟨r, hr, hdraft⟩ := (draft_cases l.draft (h.draft_mem hl)).readback _ _ _ _ hdecode
    rw [Lowered.primary, hdraft, decode_verify] at hdecode
    obtain ⟨rfl, rfl, -, -⟩ := StoredAction.readbackPartition.inj (Except.ok.inj hdecode)
    obtain ⟨m, hm, hwrite⟩ := exists_lowered h (write_mem_workflow hr)
    refine ⟨r, at_of_draft h hr (.inr hdraft), rfl, rfl, m.primary, primary_mem h hm,
      at_of_draft h hr (.inl hwrite), ?_⟩
    rw [Lowered.primary, hwrite]
    exact decode_write _ _ _ _
  · rw [(understood_of_mem l.draft (h.draft_mem hl)).sub body hbody] at hdecode
    cases hdecode

/-! ### Routing and storage -/

/-- A step goes to the control port exactly when its primary action is addressed to it. -/
theorem routed (hl : l ∈ p.lowered) :
    (Addressed l.primary.body ∧ ∃ control,
      managedControlFor built.privatePlan l.stepId.value = .ok (some control)) ∨
    (¬ Addressed l.primary.body ∧ managedControlFor built.privatePlan l.stepId.value = .ok none) := by
  have hunderstood := understood_of_mem l.draft (h.draft_mem hl)
  obtain ⟨n, hn⟩ := h.exists_number l hl
  have hfirst : built.privatePlan.actions.find? (fun a => a.stepId.value = l.stepId.value) =
      l.actions.head? := by
    rw [← List.head?_filter, h.actions, filter_actions h.pairwise h.exists_number hl]
  rw [managedControlFor_eq, hfirst]
  obtain ⟨hnone, hnil⟩ | ⟨body, id, hbody, -, hsubs⟩ := hn.subs
  · have hhead : l.actions.head? = some l.primary := by rw [Lowered.actions, hnil]; rfl
    rw [hhead]
    rcases hunderstood.routed with ⟨haddressed, -, hcontrol⟩ | ⟨hnot, hcontrol⟩
    · exact .inl ⟨haddressed, hcontrol _ _⟩
    · exact .inr ⟨hnot, hcontrol _ _⟩
  · have hhead : l.actions.head? = some (Draft.sub l.stepId id body) := by
      rw [Lowered.actions, hsubs]
      rfl
    rw [hhead]
    rcases hunderstood.routed with ⟨-, hnone, -⟩ | ⟨hnot, -⟩
    · rw [hnone] at hbody
      cases hbody
    · refine .inr ⟨hnot, ?_⟩
      show controlOf _ = _
      rw [controlOf, hunderstood.sub body hbody]

theorem actions_encode (ha : a ∈ built.privatePlan.actions) : a.toCbor.Encodes := by
  have hdigest : ∃ d, a.digest = .ok d := by
    obtain ⟨l, hl, rfl | ⟨body, id, hbody, rfl⟩⟩ := action_cases h ha
    · obtain ⟨n, hn⟩ := h.exists_number l hl
      exact ⟨_, hn.digest⟩
    · exact PrivateActionRecord.exists_digest
        ((sound_of_mem l.draft (h.draft_mem hl)).sub body hbody)
  obtain ⟨d, hd⟩ := hdigest
  obtain ⟨bytes, hbytes, -⟩ := digestCanonical_eq_ok.mp hd
  exact ⟨bytes, hbytes⟩

theorem exists_stored {envelope : PlanEnvelope}
    (hdigest : envelope.recomputeDigest = .ok envelope.planDigest) :
    ∃ body bytes, envelope.digestBodyBytes = .ok body ∧
      (CborValue.textMap (storageFields ⟨envelope, built.privatePlan⟩ body)).toCanonicalBytes =
        .ok bytes := by
  obtain ⟨body, hbody, -⟩ := PlanEnvelope.recomputeDigest_eq_ok.mp hdigest
  have hactions : (CborValue.array (built.privatePlan.actions.map (·.toCbor))).Encodes :=
    array_encodes (List.forall_mem_map.mpr fun a ha => actions_encode h ha)
  obtain ⟨bytes, hbytes⟩ :
      (CborValue.textMap (storageFields ⟨envelope, built.privatePlan⟩ body)).Encodes := by
    simp [storageFields, hactions]
  exact ⟨body, bytes, hbody, hbytes⟩

end

/-- **The provider's plans pass its own gates.** A plan built from an accepted profile, for any
artifact, intent and starting mode: the projection accepts it; once it is sealed and if its stored
form is within the bound, it is stored and loaded again; each of its actions is decoded; the decoded
partition, first sector and member of each write, and of the readback that goes with it, are those of
the target, the range and the content they declare; and a step is sent to the managed control port
exactly if its primary action is addressed to it. -/
theorem built_plans_pass_their_gates (request : MaterializeRequest) (built : BuiltPlan)
    (hprofile : request.profile.validate = .ok ()) (hbuild : buildSteps request = .ok built) :
    (∃ digests, validateProjection (projected built.publicSteps) built.privatePlan built.effectSet =
      .ok digests) ∧
    (∀ (input : PlanSealInput) (envelope : PlanEnvelope), input.schemaVersion = .CURRENT →
      input.publicSteps = built.publicSteps → input.effectSet = built.effectSet →
      validateProjection (projected built.publicSteps) built.privatePlan built.effectSet =
        .ok input.projection →
      PlanEnvelope.sealPlan input = .ok envelope →
      ∃ body bytes, envelope.digestBodyBytes = .ok body ∧
        (CborValue.textMap (storageFields ⟨envelope, built.privatePlan⟩ body)).toCanonicalBytes =
          .ok bytes ∧
        (bytes.length ≤ MAX_BYTES → encode ⟨envelope, built.privatePlan⟩ = .ok bytes ∧
          ∃ loaded, decode bytes = .ok loaded ∧ SamePlan ⟨envelope, built.privatePlan⟩ loaded)) ∧
    (∀ a ∈ built.privatePlan.actions, ∃ action, StoredAction.decode a = .ok action) ∧
    (∀ a ∈ built.privatePlan.actions, ∀ partition member beginSector,
      StoredAction.decode a = .ok (.writePartition partition member beginSector) →
      ∃ r, At request r a ∧ partition = r.target.partition.value ∧ member = r.memberName ∧
        beginSector = r.target.offsetSectors ∧ ∃ v ∈ built.privatePlan.actions, At request r v ∧
        ∃ strength filler, StoredAction.decode v =
          .ok (.readbackPartition partition beginSector strength filler)) ∧
    (∀ v ∈ built.privatePlan.actions, ∀ partition beginSector strength filler,
      StoredAction.decode v = .ok (.readbackPartition partition beginSector strength filler) →
      ∃ r, At request r v ∧ partition = r.target.partition.value ∧
        beginSector = r.target.offsetSectors ∧ ∃ a ∈ built.privatePlan.actions, At request r a ∧
        StoredAction.decode a = .ok (.writePartition partition r.memberName beginSector)) ∧
    (∀ s ∈ built.publicSteps, ∃ primary,
      primariesOf built.privatePlan.actions s.stepId.value = [primary] ∧
      ((Addressed primary.body ∧
          ∃ control, managedControlFor built.privatePlan s.stepId.value = .ok (some control)) ∨
        (¬ Addressed primary.body ∧
          managedControlFor built.privatePlan s.stepId.value = .ok none))) := by
  obtain ⟨p, h⟩ := buildSteps_ok hbuild
  refine ⟨exists_projection h (h.distinct (accepted_of_validate hprofile)), ?_,
    fun a ha => exists_decode h ha, fun a ha _ _ _ hdecode => write_agrees h ha hdecode,
    fun v hv _ _ _ _ hdecode => readback_agrees h hv hdecode, ?_⟩
  · intro input envelope hschema hsteps heffects hprojection hseal
    obtain ⟨hexpiry, hexecutable, rfl, hdigest⟩ := PlanEnvelope.sealPlan_eq_ok.mp hseal
    obtain ⟨body, bytes, hbody, hbytes⟩ := exists_stored h hdigest
    refine ⟨body, bytes, hbody, hbytes, fun hlength => ?_⟩
    have hvalid : validate ⟨envelope, built.privatePlan⟩ = .ok () := by
      refine validate_eq_ok.mpr ⟨hschema, hdigest, hexecutable, hexpiry, ?_⟩
      rw [hsteps, heffects]
      exact hprojection
    have hencode : encode ⟨envelope, built.privatePlan⟩ = .ok bytes :=
      encode_eq_ok.mpr ⟨hvalid, hlength, body, hbody, hbytes⟩
    exact ⟨hencode, _, decode_encode hencode fun a ha => depth_le h ha, samePlan_sortedPlan _⟩
  · intro s hs
    rw [h.publicSteps] at hs
    obtain ⟨l, hl, rfl⟩ := List.mem_map.mp hs
    refine ⟨l.primary, ?_, routed h hl⟩
    rw [h.actions]
    exact primariesOf_lowered h.pairwise h.exists_number hl

/-- A restore of one partition. -/
def systemRequest : MaterializeRequest :=
  boardRequest (boardArtifact [boardMember "system.img" 1000] 512 [boardEntry "system" 64 (some 8)])
    (boardProfile 512 [boardTarget systemId 1 64] [])

theorem systemRequest_builds : (buildSteps systemRequest).isOk = true := by decide +kernel

theorem built_plans_pass_their_gates_system : ∃ built, buildSteps systemRequest = .ok built ∧
    systemRequest.profile.validate = .ok () ∧
    (∃ digests, validateProjection (projected built.publicSteps) built.privatePlan built.effectSet =
      .ok digests) ∧
    ∀ a ∈ built.privatePlan.actions, ∃ action, StoredAction.decode a = .ok action := by
  obtain ⟨built, hbuilt⟩ := exists_of_isOk systemRequest_builds
  have hvalid : systemRequest.profile.validate = .ok () := by decide +kernel
  have hgates := built_plans_pass_their_gates systemRequest built hvalid hbuilt
  exact ⟨built, hbuilt, hvalid, hgates.1, hgates.2.2.1⟩

end ArkForge.Daemon.OwnPlans
