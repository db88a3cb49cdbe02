import ArkForge.Core.ProjectionSpec
import ArkForge.Engine.PlanCodec

/-! # Stored plans survive storage

Storing a plan and loading it gives the plan back with the entries of its maps sorted
(`decode_encode`): the maps in the bodies of its actions, and the two lists that are written as maps.
None of this shows in the bytes, so the digests are the same and the loaded plan is stored as the
same bytes again. -/

namespace ArkForge.Engine.PlanRoundTrip

open Lib.Result Lib.KeySort
open Core.Cbor Core.CborRead Core.CborCanon Core.CborFields
open Core.CborMap hiding field
open Core.Digest Core.Ids Core.Effect Core.FlashStep
open Core.Projection Core.ProjectionSpec Core.Plan
open Core.Envelope PlanCodec

variable {plan : StoredPlan} {bytes : List UInt8} {envelope : PlanEnvelope}

/-! ### The plan that is loaded -/

def sortedInput (input : PlanSealInput) : PlanSealInput :=
  { input with
    negotiatedCapabilities := ⟨sortedById input.negotiatedCapabilities.entries⟩
    postflight := sortedPolicy input.postflight }

def sortedEnvelope (envelope : PlanEnvelope) : PlanEnvelope :=
  { toPlanSealInput := sortedInput envelope.toPlanSealInput, planDigest := envelope.planDigest }

/-- The plan with the entries of its maps in the order of their encoded keys. -/
def sortedPlan (plan : StoredPlan) : StoredPlan where
  envelope := sortedEnvelope plan.envelope
  privatePlan := ⟨plan.privatePlan.actions.map sortedAction⟩

/-- Two envelopes are equal up to the order of the lists that are written as maps. -/
structure SameEnvelope (e e' : PlanEnvelope) : Prop where
  same : { e' with
    negotiatedCapabilities := e.negotiatedCapabilities
    postflight := { e'.postflight with
      requiredRuntimeFacts := e.postflight.requiredRuntimeFacts } } = e
  capabilities : e'.negotiatedCapabilities.entries.Perm e.negotiatedCapabilities.entries
  facts : e'.postflight.requiredRuntimeFacts.Perm e.postflight.requiredRuntimeFacts

/-- Two actions are equal up to the order of map entries in their bodies. -/
structure SameAction (a b : PrivateActionRecord) : Prop where
  same : { b with body := a.body } = a
  body : MapOrderEq a.body b.body

/-- Two plans are equal up to the order of map entries. -/
structure SamePlan (p q : StoredPlan) : Prop where
  envelope : SameEnvelope p.envelope q.envelope
  actions : List.Forall₂ SameAction p.privatePlan.actions q.privatePlan.actions

theorem samePlan_sortedPlan (p : StoredPlan) : SamePlan p (sortedPlan p) := by
  refine ⟨⟨rfl, sortByKey_perm _, sortByKey_perm _⟩, ?_⟩
  show List.Forall₂ _ _ (p.privatePlan.actions.map sortedAction)
  rw [List.forall₂_map_right_iff, List.forall₂_same]
  exact fun a _ => ⟨rfl, mapOrderEq_sortKeys a.body⟩

/-! ### Sorting does not show in the bytes -/

variable {α : Type}

theorem mapOrderEq_sortedById (write : α → CborValue) (l : List (OpaqueId × α)) :
    MapOrderEq (.textMap (l.map fun e => (e.1.value, write e.2)))
      (.textMap ((sortedById l).map fun e => (e.1.value, write e.2))) := by
  exact .permute (((sortByKey_perm l).symm.map _).map _)

theorem mapOrderEq_sortedPolicy (p : PostflightPolicy) :
    MapOrderEq p.toCbor (sortedPolicy p).toCbor := by
  refine mapOrderEq_textMap (.cons ⟨rfl, .refl _⟩ (.cons ⟨rfl, .refl _⟩ (.cons ⟨rfl, ?_⟩ .nil)))
  exact mapOrderEq_sortedById CborValue.text p.requiredRuntimeFacts

theorem mapOrderEq_sortedInput (input : PlanSealInput) :
    MapOrderEq (planDigestBody input) (planDigestBody (sortedInput input)) := by
  refine mapOrderEq_textMap ?_
  unfold planDigestFields sortedInput
  simp only [List.forall₂_cons, List.forall₂_nil_left_iff, MapOrderEq.refl, true_and, and_true]
  exact ⟨mapOrderEq_sortedById CborValue.bool _, mapOrderEq_sortedPolicy _⟩

theorem mapOrderEq_sortedAction (a : PrivateActionRecord) :
    MapOrderEq a.toCbor (sortedAction a).toCbor := by
  refine mapOrderEq_textMap ?_
  simp only [sortedAction, List.forall₂_cons, List.forall₂_nil_left_iff, MapOrderEq.refl, true_and,
    and_true]
  exact mapOrderEq_sortKeys a.body

theorem like_sortedAction (a : PrivateActionRecord) : Like a (sortedAction a) := by
  refine ⟨rfl, rfl, rfl, rfl, rfl, rfl, fun d hd => ?_⟩
  obtain ⟨bytes, hbytes, hdigest⟩ := digestCanonical_eq_ok.mp hd
  exact digestCanonical_eq_ok.mpr
    ⟨bytes, (toCanonicalBytes_congr (mapOrderEq_sortedAction a) bytes).mp hbytes, hdigest⟩

theorem digestBodyBytes_sorted (h : envelope.digestBodyBytes = .ok bytes) :
    (sortedEnvelope envelope).digestBodyBytes = .ok bytes := by
  rw [PlanEnvelope.digestBodyBytes_eq_ok] at h ⊢
  exact (toCanonicalBytes_congr (mapOrderEq_sortedInput _) bytes).mp h

theorem recomputeDigest_sorted {d : Sha256Digest} (h : envelope.recomputeDigest = .ok d) :
    (sortedEnvelope envelope).recomputeDigest = .ok d := by
  obtain ⟨bytes, hbytes, hdigest⟩ := PlanEnvelope.recomputeDigest_eq_ok.mp h
  exact PlanEnvelope.recomputeDigest_eq_ok.mpr ⟨bytes, digestBodyBytes_sorted hbytes, hdigest⟩

/-- The private plan with sorted bodies has the same projection. -/
theorem validateProjection_sorted {steps : List PublicFlashStep} {plan : StoredProviderPlan}
    {effectSet : EffectSet} {p : ProjectionDigests}
    (h : validateProjection steps plan effectSet = .ok p) :
    validateProjection steps ⟨plan.actions.map sortedAction⟩ effectSet = .ok p := by
  obtain ⟨bound, hbound, -⟩ := validateProjection_eq_ok.mp h
  obtain ⟨-, -, -, hfiled, -⟩ := bindSteps_eq_ok.mp hbound
  have hlike : ∀ l : List PrivateActionRecord, List.Forall₂ Like l (l.map sortedAction) := by
    intro l
    rw [List.forall₂_map_right_iff, List.forall₂_same]
    exact fun a _ => like_sortedAction a
  refine validateProjection_transfer ⟨?_, ?_, ?_⟩ (fun s _ => ?_) (fun s _ => ?_) h
  · rw [List.map_map]
    exact hfiled.nodup
  · rw [List.forall_mem_map]
    exact hfiled.step
  · rw [List.forall_mem_map]
    exact hfiled.readOnly
  · rw [primariesOf, primariesOf, List.filter_map]
    exact hlike _
  · rw [subActionsOf, subActionsOf, List.filter_map]
    exact hlike _

/-! ### Accepted plans -/

/-- **When a plan is accepted**: its digest is that of its contents, and the private plan has the
projection that was sealed. -/
theorem validate_eq_ok : validate plan = .ok () ↔
    plan.envelope.schemaVersion = .CURRENT ∧
    plan.envelope.recomputeDigest = .ok plan.envelope.planDigest ∧
    plan.envelope.effectSet.validateExecutable = .ok () ∧
    plan.envelope.createdAtEpochMs < plan.envelope.expiresAtEpochMs ∧
    validateProjection (projected plan.envelope.publicSteps) plan.privatePlan
      plan.envelope.effectSet = .ok plan.envelope.projection := by
  unfold validate
  constructor
  · intro h
    obtain ⟨hschema, h⟩ := guard_eq_ok.mp h
    obtain ⟨_, hself, h⟩ := bind_eq_ok.mp h
    obtain ⟨_, heffects, h⟩ := bind_eq_ok.mp h
    split_ifs at h with hexpiry
    obtain ⟨projection, hprojection, h⟩ := bind_eq_ok.mp h
    split_ifs at h with hsame
    rw [← not_not.mp hsame]
    exact ⟨not_not.mp hschema, PlanEnvelope.verifySelfDigest_eq_ok.mp (mapError_eq_ok.mp hself),
      mapError_eq_ok.mp heffects, UInt64.not_le.mp hexpiry, mapError_eq_ok.mp hprojection⟩
  · rintro ⟨hschema, hdigest, heffects, hexpiry, hprojection⟩
    rw [if_neg (not_not.mpr hschema), PlanEnvelope.verifySelfDigest_eq_ok.mpr hdigest, heffects]
    rw [if_neg (UInt64.not_le.mpr hexpiry), hprojection]
    simp only [mapError_ok, ok_bind]
    rw [if_neg (not_not.mpr rfl)]

/-- The actions of an accepted plan belong to its steps, and its steps are bound to them. -/
theorem binds_of_validate (h : validate plan = .ok ()) :
    Filed (projected plan.envelope.publicSteps) plan.privatePlan.actions ∧
      ∀ s ∈ plan.envelope.publicSteps, ∃ r, Binds plan.privatePlan.actions s.toPublicFlashStep r := by
  obtain ⟨-, -, -, -, hprojection⟩ := validate_eq_ok.mp h
  obtain ⟨bound, hbound, -⟩ := validateProjection_eq_ok.mp hprojection
  obtain ⟨-, -, -, hfiled, hbinds⟩ := bindSteps_eq_ok.mp hbound
  refine ⟨hfiled, fun s hs => ?_⟩
  obtain ⟨r, -, hr⟩ := exists_of_forall₂ hbinds (List.mem_map.mpr ⟨s, hs, rfl⟩)
  exact ⟨r, hr⟩

theorem conforming_plain : Conforming "plain" := by decide

theorem length_plain : (List.replicate 32 (0 : UInt8)).length = 32 := List.length_replicate

def plainId : OpaqueId := ⟨"plain", conforming_plain⟩

def plainDigest : Sha256Digest := ⟨List.replicate 32 0, length_plain⟩

/-- An envelope around the steps, with one name for everything in it. -/
def plainInput (steps : List PlanStep) (effects : EffectSet) (projection : ProjectionDigests) :
    PlanSealInput where
  schemaVersion := .CURRENT
  planId := plainId
  executionPurpose := .primaryFlash
  authorityBinding := ⟨plainId, plainId, 1, plainDigest⟩
  provider := ⟨plainId, ⟨1, 0, 0⟩, plainDigest⟩
  profile := ⟨plainId, ⟨1, 0, 0⟩, plainDigest⟩
  artifact := ⟨plainId, ⟨plainId, ⟨1, 0, 0⟩⟩, plainDigest, 0, plainDigest⟩
  toolchain := ⟨plainId, .nativeProtocol, ⟨1, 0, 0⟩, plainDigest, none⟩
  maturity := .productionVerified
  authoritySupport := ⟨plainDigest, .productionVerified⟩
  negotiatedCapabilities := ⟨[]⟩
  publicSteps := steps
  effectSet := effects
  projection
  recoveryContract := none
  postflight := ⟨false, none, []⟩
  createdAtEpochMs := 0
  expiresAtEpochMs := 1

/-- What projects onto its actions is sealed as an accepted plan. -/
theorem exists_sealed {input : PlanSealInput} {privatePlan : StoredProviderPlan}
    (hschema : input.schemaVersion = .CURRENT)
    (hcapabilities : (input.negotiatedCapabilities.entries.map Prod.fst).Nodup)
    (hfacts : (input.postflight.requiredRuntimeFacts.map Prod.fst).Nodup)
    (heffects : input.effectSet.validateExecutable = .ok ())
    (hexpiry : input.createdAtEpochMs < input.expiresAtEpochMs)
    (hprojection : validateProjection (projected input.publicSteps) privatePlan input.effectSet =
      .ok input.projection) :
    ∃ envelope : PlanEnvelope, envelope.toPlanSealInput = input ∧
      validate ⟨envelope, privatePlan⟩ = .ok () := by
  obtain ⟨bytes, hbytes⟩ := planDigestBody_encodes hcapabilities hfacts
  refine ⟨⟨input, digestInDomain .plan bytes⟩, rfl, ?_⟩
  refine validate_eq_ok.mpr ⟨hschema, ?_, heffects, hexpiry, hprojection⟩
  exact PlanEnvelope.recomputeDigest_eq_ok.mpr
    ⟨bytes, PlanEnvelope.digestBodyBytes_eq_ok.mpr hbytes, rfl⟩

variable {privatePlan : StoredProviderPlan}

/-- Steps and actions that project onto each other are those of an accepted plan. -/
theorem exists_validated {steps : List PlanStep} {effects : EffectSet}
    {projection : ProjectionDigests} (heffects : effects.validateExecutable = .ok ())
    (hprojection : validateProjection (projected steps) privatePlan effects = .ok projection) :
    ∃ envelope : PlanEnvelope, envelope.toPlanSealInput = plainInput steps effects projection ∧
      validate ⟨envelope, privatePlan⟩ = .ok () :=
  exists_sealed rfl List.nodup_nil List.nodup_nil heffects (by decide : (0 : UInt64) < 1) hprojection

theorem encode_eq_ok : encode plan = .ok bytes ↔
    validate plan = .ok () ∧ bytes.length ≤ MAX_BYTES ∧
    ∃ body, plan.envelope.digestBodyBytes = .ok body ∧
      (CborValue.textMap (storageFields plan body)).toCanonicalBytes = .ok bytes := by
  unfold encode
  simp only [bind_eq_ok, mapError_eq_ok]
  constructor
  · rintro ⟨_, hvalid, body, hbody, out, hout, h⟩
    split_ifs at h with hlen
    obtain rfl := Except.ok.inj h
    exact ⟨hvalid, not_lt.mp hlen, body, hbody, hout⟩
  · rintro ⟨hvalid, hlen, body, hbody, hout⟩
    exact ⟨(), hvalid, body, hbody, bytes, hout, by rw [if_neg (not_lt.mpr hlen)]⟩

theorem validate_sorted (h : validate plan = .ok ()) : validate (sortedPlan plan) = .ok () := by
  obtain ⟨hschema, hdigest, heffects, hexpiry, hprojection⟩ := validate_eq_ok.mp h
  exact validate_eq_ok.mpr ⟨hschema, recomputeDigest_sorted hdigest, heffects, hexpiry,
    validateProjection_sorted hprojection⟩

theorem encode_sorted (h : encode plan = .ok bytes) : encode (sortedPlan plan) = .ok bytes := by
  obtain ⟨hvalid, hlen, body, hbody, hout⟩ := encode_eq_ok.mp h
  refine encode_eq_ok.mpr ⟨validate_sorted hvalid, hlen, body, digestBodyBytes_sorted hbody, ?_⟩
  refine (toCanonicalBytes_congr (mapOrderEq_textMap ?_) bytes).mp hout
  refine .cons ⟨rfl, .refl _⟩ (.cons ⟨rfl, .refl _⟩ (.cons ⟨rfl, .refl _⟩ (.cons ⟨rfl, ?_⟩ .nil)))
  refine mapOrderEq_array ?_ []
  show List.Forall₂ MapOrderEq _ ((plan.privatePlan.actions.map sortedAction).map _)
  rw [List.map_map, List.forall₂_map_left_iff, List.forall₂_map_right_iff, List.forall₂_same]
  exact fun a _ => mapOrderEq_sortedAction a

/-! ### How deep a plan nests -/

@[simp] theorem depth_orNull_le {toCbor : α → CborValue} {o : Option α} {n : ℕ} :
    (orNull toCbor o).depth ≤ n ↔ ∀ a, o = some a → (toCbor a).depth ≤ n := by
  cases o <;> simp [orNull]

@[simp] theorem depth_list_le {toCbor : α → CborValue} {l : List α} {n : ℕ} :
    depthValues (l.map toCbor) ≤ n + 1 ↔ ∀ a ∈ l, (toCbor a).depth ≤ n := by
  simp [depthValues_le]

theorem depth_target_le (t : SemanticTarget) : t.toCbor.depth ≤ 1 := by
  cases t <;> simp [SemanticTarget.toCbor]

@[simp] theorem depth_range_le (r : ByteRange) : r.toCbor.depth ≤ 1 := by
  simp [ByteRange.toCbor]

theorem depth_action_le {a : PrivateActionRecord} {n : ℕ} (hn : 1 ≤ n) (h : a.body.depth ≤ n) :
    a.toCbor.depth ≤ n + 1 := by
  have htarget := fun t => (depth_target_le t).trans hn
  have hrange := fun r => (depth_range_le r).trans hn
  simp [PrivateActionRecord.toCbor, PrivateActionRole.toCbor, WorkflowEffect.toCbor, h, htarget, hrange]

theorem depth_persistent_le (e : PersistentEffect) : (persistentCbor e).depth ≤ 2 := by
  have hinteger : ∀ n, (integerCbor n).depth = 0 := by
    intro n
    unfold integerCbor
    split_ifs <;> rfl
  have hvalue : ∀ t : TypedValue, (typedValueCbor t).depth ≤ 1 := by
    intro t
    cases t <;> simp [typedValueCbor, hinteger]
  cases e <;> simp [persistentCbor, hvalue]

theorem depth_transient_le (e : TransientEffect) : (transientCbor e).depth ≤ 2 := by
  cases e <;> simp [transientCbor, modeCbor, memoryRegionCbor]

theorem depth_effects_le (e : EffectSet) : (effectSetCbor e).depth ≤ 4 := by
  simp [effectSetCbor, dataImpactCbor, depth_persistent_le, depth_transient_le]

theorem depth_step_le (s : PlanStep) : s.toCbor.depth ≤ 2 := by
  simp [PlanStep.toCbor, WorkflowEffect.toCbor, modeCbor, depth_target_le]

theorem depth_version_le (v : Version) : v.toCbor.depth ≤ 1 := by
  simp [Version.toCbor, depthValues_le]

theorem depth_entries_le (write : α → CborValue) (h : ∀ a, (write a).depth = 0)
    (l : List (OpaqueId × α)) :
    (CborValue.textMap (l.map fun e => (e.1.value, write e.2))).depth ≤ 1 := by
  refine depth_textMap_le ?_
  rw [List.forall_mem_map]
  exact fun e _ => (h e.2).le

theorem depth_body_le (input : PlanSealInput) : (planDigestBody input).depth ≤ 5 := by
  have hversion : ∀ n, ∀ v : Version, v.toCbor.depth ≤ n + 1 :=
    fun n v => (depth_version_le v).trans (Nat.le_add_left 1 n)
  have hstep : ∀ s : PlanStep, s.toCbor.depth ≤ 3 := fun s => (depth_step_le s).trans (by decide)
  have hcapabilities : input.negotiatedCapabilities.toCbor.depth ≤ 4 :=
    (depth_entries_le CborValue.bool (fun _ => rfl) _).trans (by decide)
  have hpostflight : input.postflight.toCbor.depth ≤ 4 := by
    have hfacts := depth_entries_le CborValue.text (fun _ => rfl) input.postflight.requiredRuntimeFacts
    refine depth_textMap_le ?_
    simp [modeCbor, hfacts.trans]
  simp [planDigestBody, planDigestFields, hversion, hstep, depth_effects_le,
    Authority.Permit.AuthorityBindingRef.toCbor, ProviderIdentity.toCbor, DeviceProfileIdentity.toCbor,
    ArtifactIdentity.toCbor, ArtifactFormat.toCbor, ToolchainIdentity.toCbor,
    RecoveryContractRef.toCbor, MaturityState.toCbor, AuthoritySupportBinding.toCbor,
    AuthoritySupportState.toCbor, hcapabilities, hpostflight]

theorem depth_storage_le (h : ∀ a ∈ plan.privatePlan.actions, a.body.depth ≤ 61)
    (body : List UInt8) : (CborValue.textMap (storageFields plan body)).depth ≤ 64 := by
  have haction : ∀ a ∈ plan.privatePlan.actions, a.toCbor.depth ≤ 62 :=
    fun a ha => depth_action_le (by decide) (h a ha)
  simpa [storageFields] using haction

/-! ### Loading what was stored -/

variable {input : PlanSealInput} {body : CborValue}

theorem sealInput_reads (h : ∀ e ∈ planDigestFields input, field body e.1 = .ok e.2.sortKeys) :
    sealInput body input.schemaVersion input.publicSteps input.effectSet input.projection =
      .ok (sortedInput input) := by
  have hcapabilities : entries input.negotiatedCapabilities.toCbor.sortKeys boolean =
      .ok (sortedById input.negotiatedCapabilities.entries) := entries_reads boolean_reads _
  simp only [planDigestFields, List.forall_mem_cons] at h
  simp [sealInput, h, hcapabilities, optional_reads recoveryContract_reads fun c => textMap_ne_null _,
    postflight_reads, sortedInput]

theorem checkProjection_reads (h : ∀ e ∈ planDigestFields input, field body e.1 = .ok e.2.sortKeys) :
    checkProjection body input.projection = .ok () := by
  simp only [planDigestFields, List.forall_mem_cons] at h
  simp [checkProjection, h]

theorem openEnvelope_reads (hschema : envelope.schemaVersion = .CURRENT)
    (hdigest : envelope.recomputeDigest = .ok envelope.planDigest)
    (heffects : envelope.effectSet.validateExecutable = .ok ())
    (hexpiry : envelope.createdAtEpochMs < envelope.expiresAtEpochMs)
    (hprojection : validateProjection (projected envelope.publicSteps) privatePlan
      envelope.effectSet = .ok envelope.projection) :
    openEnvelope (planDigestBody envelope.toPlanSealInput).sortKeys privatePlan =
      .ok (sortedEnvelope envelope) := by
  have hfields := fields_read (show ((planDigestFields envelope.toPlanSealInput).map
    Prod.fst).Nodup by simp [planDigestFields])
  have hinput := sealInput_reads hfields
  have hcheck := checkProjection_reads hfields
  have hseal : PlanEnvelope.sealPlan (sortedInput envelope.toPlanSealInput) =
      .ok (sortedEnvelope envelope) :=
    PlanEnvelope.sealPlan_eq_ok.mpr ⟨hexpiry, heffects, rfl, recomputeDigest_sorted hdigest⟩
  have hsteps : list (CborValue.array (envelope.publicSteps.map (·.toCbor))).sortKeys step =
      .ok envelope.publicSteps := by simpa using list_reads step_reads envelope.publicSteps
  unfold planDigestBody
  generalize (CborValue.textMap (planDigestFields envelope.toPlanSealInput)).sortKeys = body
    at hfields hinput hcheck
  simp only [planDigestFields, List.forall_mem_cons] at hfields
  unfold openEnvelope
  simp only [hfields, ok_bind, hsteps, effects_reads, hprojection, mapError_ok, hcheck,
    u32Value_reads]
  rw [if_neg (not_not.mpr hschema), hinput, ok_bind, hseal, mapError_ok]

/-- **A stored plan is loaded** with the entries of its maps sorted. -/
theorem decode_encode (h : encode plan = .ok bytes)
    (hdepth : ∀ a ∈ plan.privatePlan.actions, a.body.depth ≤ 61) :
    decode bytes = .ok (sortedPlan plan) := by
  obtain ⟨hvalid, hlen, body, hbody, hout⟩ := encode_eq_ok.mp h
  obtain ⟨hschema, hdigest, heffects, hexpiry, hprojection⟩ := validate_eq_ok.mp hvalid
  have hlt : bytes.length < 2 ^ 64 := lt_of_le_of_lt hlen (by decide)
  have hfits := fits_of_length _ hout hlt
  have hstorage := decode_toCanonicalBytes (depth_storage_le hdepth body) hfits hout
  have hfields := fields_read (show ((storageFields plan body).map Prod.fst).Nodup by
    simp [storageFields])
  -- the bytes of the body are among those of the stored plan
  have hbodyLength : body.length < 2 ^ 64 := by
    have hmem := (fits_map.mp hfits).2 (.text "envelope", .bytes body) (by simp [storageFields])
    exact hmem.2
  have hencodes := PlanEnvelope.digestBodyBytes_eq_ok.mp hbody
  have hopen : decodeCanonical body = .ok (planDigestBody plan.envelope.toPlanSealInput).sortKeys :=
    decode_toCanonicalBytes ((depth_body_le _).trans (by decide))
      (fits_of_length _ hencodes hbodyLength) hencodes
  have henvelope := openEnvelope_reads hschema hdigest heffects hexpiry
    (validateProjection_sorted hprojection)
  have hagain : encode ⟨sortedEnvelope plan.envelope,
      ⟨plan.privatePlan.actions.map sortedAction⟩⟩ = .ok bytes := encode_sorted h
  have hbytes := digestBodyBytes_sorted hbody
  unfold decode
  rw [if_neg (not_lt.mpr hlen), hstorage]
  generalize (CborValue.textMap (storageFields plan body)).sortKeys = storage at hfields
  simp only [storageFields, List.forall_mem_cons] at hfields
  have hcheck : checkEnvelope (sortedEnvelope plan.envelope) storage body = .ok () := by
    have hsame : (sortedEnvelope plan.envelope).planDigest = plan.envelope.planDigest := rfl
    simp [checkEnvelope, hfields, hbytes, mapError_ok, hsame]
  simp only [mapError_ok, ok_bind, hfields, byteString_reads, hopen,
    list_reads action_reads, henvelope, hcheck, hagain]
  simp [sortedPlan]

theorem encode_decode (h : decode bytes = .ok plan) : encode plan = .ok bytes := by
  obtain ⟨hlen, h⟩ := guard_eq_ok.mp h
  obtain ⟨storage, -, h⟩ := bind_eq_ok.mp h
  obtain ⟨_, -, h⟩ := bind_eq_ok.mp h
  obtain ⟨_, -, h⟩ := bind_eq_ok.mp h
  split at h
  · cases h
  simp only [bind_eq_ok] at h
  obtain ⟨_, -, _, -, _, -, _, -, _, -, _, -, _, -, out, hout, h⟩ := h
  split_ifs at h with hsame
  rw [← Except.ok.inj h, ← not_not.mp hsame]
  exact hout

/-- **Sealed plans survive storage.** A plan that is stored, with action bodies nested at most 61
deep, is loaded as an equal plan up to the order of map entries: its digest is again that of its
contents, and it is stored as the same bytes. And bytes that are loaded are the bytes the loaded plan
is stored as. -/
theorem sealed_plans_survive_storage :
    (∀ (plan : StoredPlan) (bytes : List UInt8), encode plan = .ok bytes →
      (∀ a ∈ plan.privatePlan.actions, a.body.depth ≤ 61) →
      ∃ loaded, decode bytes = .ok loaded ∧ SamePlan plan loaded ∧
        loaded.envelope.recomputeDigest = .ok plan.envelope.planDigest ∧
        loaded.envelope.planDigest = plan.envelope.planDigest ∧ encode loaded = .ok bytes) ∧
    (∀ (bytes : List UInt8) (plan : StoredPlan), decode bytes = .ok plan →
      encode plan = .ok bytes) := by
  refine ⟨fun plan bytes h hdepth => ?_, fun bytes plan h => encode_decode h⟩
  obtain ⟨hvalid, -⟩ := encode_eq_ok.mp h
  obtain ⟨-, hdigest, -⟩ := validate_eq_ok.mp hvalid
  exact ⟨sortedPlan plan, decode_encode h hdepth, samePlan_sortedPlan plan,
    recomputeDigest_sorted hdigest, rfl, encode_sorted h⟩

end ArkForge.Engine.PlanRoundTrip
