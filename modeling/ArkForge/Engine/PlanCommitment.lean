import ArkForge.Engine.PlanRoundTrip

/-! # What a plan digest commits to

The digest of a plan is taken over its envelope, which holds the digest of the list that binds every
private action to its step, which holds the digests of the actions. As long as no two payloads that
were hashed collide, two accepted plans of one digest have the same envelope (`committed_envelope`)
and, step by step, the same actions (`committed_actions`). The list of actions itself is not
committed to: how the actions of different steps interleave, and where a primary action stands among
the others, no digest sees. -/

namespace ArkForge.Engine.PlanCommitment

open Lib.Result Lib.KeySort
open Core.Cbor Core.CborCanon Core.CborFields Core.Digest Core.Ids
open Core.FlashStep Core.Projection
open Core.ProjectionSpec Core.Plan Core.Envelope
open PlanCodec PlanRoundTrip

/-! ### What is hashed -/

/-- The list of bindings in canonical form. -/
def bindingsCbor (perAction : List ActionDigestBinding) : CborValue :=
  .array (perAction.map (·.toCbor))

/-- The payloads that are hashed when a plan is validated, with their domains. -/
inductive Hashed (p : StoredPlan) : Domain → List UInt8 → Prop where
  | plan {b : List UInt8} : p.envelope.digestBodyBytes = .ok b → Hashed p .plan b
  | projection {b : List UInt8} :
      (bindingsCbor p.envelope.projection.perAction).toCanonicalBytes = .ok b →
      Hashed p .publicProjection b
  | action {a : PrivateActionRecord} {b : List UInt8} : a ∈ p.privatePlan.actions →
      a.toCbor.toCanonicalBytes = .ok b → Hashed p .privateAction b

/-- No two different payloads of the two plans have one digest in their domain. -/
def CollisionFree (p q : StoredPlan) : Prop :=
  ∀ (domain : Domain) (b c : List UInt8), Hashed p domain b → Hashed q domain c →
    digestInDomain domain b = digestInDomain domain c → b = c

/-- Every length in what is hashed is a `usize`. -/
structure InMemory (p : StoredPlan) : Prop where
  body : (planDigestBody p.envelope.toPlanSealInput).Fits
  projection : (bindingsCbor p.envelope.projection.perAction).Fits
  action : ∀ a ∈ p.privatePlan.actions, a.toCbor.Fits

/-! ### The envelope -/

theorem eq_of_reads {α : Type} {write : α → CborValue} {read : CborValue → Except CodecError α}
    (hread : ∀ a, read (write a).sortKeys = .ok a) {a b : α}
    (h : (write a).sortKeys = (write b).sortKeys) : a = b := by
  have ha := hread a
  rw [h, hread b] at ha
  exact (Except.ok.inj ha).symm

section Fields

variable {i i' : PlanSealInput} (h : (planDigestBody i).sortKeys = (planDigestBody i').sortKeys)
include h

/-- The fields of two bodies with one sorted form, read through one value. -/
theorem exists_fields : ∃ body, (∀ e ∈ planDigestFields i, field body e.1 = .ok e.2.sortKeys) ∧
    ∀ e ∈ planDigestFields i', field body e.1 = .ok e.2.sortKeys := by
  have hn : ∀ i, ((planDigestFields i).map Prod.fst).Nodup := fun i => by simp [planDigestFields]
  refine ⟨(planDigestBody i).sortKeys, fields_read (hn i), ?_⟩
  rw [h]
  exact fields_read (hn i')

theorem field_eq {α : Type} {write : α → CborValue} {r : CborValue → Except CodecError α}
    (hread : ∀ a, r (write a).sortKeys = .ok a) (name : String) {a b : α}
    (ha : (name, write a) ∈ planDigestFields i := by simp [planDigestFields])
    (hb : (name, write b) ∈ planDigestFields i' := by simp [planDigestFields]) : a = b :=
  eq_of_reads hread (sortKeys_eq_of_fields h name ha hb (by simp [planDigestFields])
    (by simp [planDigestFields]))

theorem committed_steps : i.publicSteps = i'.publicSteps ∧ i.effectSet = i'.effectSet ∧
    i.schemaVersion = i'.schemaVersion ∧
    i.projection.providerExecutionPlanDigest = i'.projection.providerExecutionPlanDigest ∧
    i.projection.publicProjectionDigest = i'.projection.publicProjectionDigest := by
  have hsteps : ∀ l : List PlanStep, list (CborValue.array (l.map (·.toCbor))).sortKeys step = .ok l :=
    fun l => by simpa using list_reads step_reads l
  have hversion : i.schemaVersion.value = i'.schemaVersion.value :=
    field_eq h u32Value_reads "schemaVersion"
  exact ⟨field_eq h (r := (list · step)) hsteps "publicSteps", field_eq h effects_reads "effectSet",
    congrArg PlanSchemaVersion.mk hversion, field_eq h digest_reads "providerExecutionPlanDigest",
    field_eq h digest_reads "publicProjectionDigest"⟩

/-- The rest of the envelope, once the bindings are known to be the same. -/
theorem committed_input (hbindings : i.projection.perAction = i'.projection.perAction) :
    sortedInput i = sortedInput i' := by
  obtain ⟨body, hi, hi'⟩ := exists_fields h
  obtain ⟨hsteps, heffects, hschema, hplan, hpublic⟩ := committed_steps h
  have hprojection : i.projection = i'.projection := by
    cases hp : i.projection
    simp_all
  have hinput := sealInput_reads hi
  rw [hsteps, heffects, hschema, hprojection, sealInput_reads hi'] at hinput
  exact (Except.ok.inj hinput).symm

end Fields

theorem sameEnvelope_of_sorted {e e' : PlanEnvelope}
    (h : sortedInput e.toPlanSealInput = sortedInput e'.toPlanSealInput)
    (hdigest : e.planDigest = e'.planDigest) : SameEnvelope e e' := by
  have hcapabilities : sortedById e.negotiatedCapabilities.entries =
      sortedById e'.negotiatedCapabilities.entries :=
    congrArg (fun i => i.negotiatedCapabilities.entries) h
  have hfacts : sortedById e.postflight.requiredRuntimeFacts =
      sortedById e'.postflight.requiredRuntimeFacts :=
    congrArg (fun i => i.postflight.requiredRuntimeFacts) h
  have hperm : ∀ {α : Type} {l l' : List (OpaqueId × α)}, sortedById l = sortedById l' →
      l'.Perm l := by
    intro α l l' hl
    have hl' : (sortedById l').Perm l' := sortByKey_perm l'
    rw [← hl] at hl'
    exact hl'.symm.trans (sortByKey_perm l)
  refine ⟨?_, ?_, ?_⟩
  · have hrestore : ({ e' with
        negotiatedCapabilities := e.negotiatedCapabilities
        postflight := { e'.postflight with
          requiredRuntimeFacts := e.postflight.requiredRuntimeFacts } } : PlanEnvelope) =
        ⟨{ sortedInput e'.toPlanSealInput with
          negotiatedCapabilities := e.negotiatedCapabilities
          postflight := { (sortedInput e'.toPlanSealInput).postflight with
            requiredRuntimeFacts := e.postflight.requiredRuntimeFacts } }, e'.planDigest⟩ := rfl
    rw [hrestore, ← h, ← hdigest]
    rfl
  · exact hperm hcapabilities
  · exact hperm hfacts

theorem binding_of_sortKeys {b b' : ActionDigestBinding} (h : b.toCbor.sortKeys = b'.toCbor.sortKeys) :
    b = b' := by
  have hstep : b.stepId = b'.stepId := eq_of_reads opaqueId_reads (sortKeys_eq_of_fields h "stepId")
  have haction : b.actionId = b'.actionId :=
    eq_of_reads opaqueId_reads (sortKeys_eq_of_fields h "actionId")
  have hrole : b.role = b'.role := eq_of_reads role_reads (sortKeys_eq_of_fields h "role")
  have hdigest : b.privateActionDigest = b'.privateActionDigest :=
    eq_of_reads digest_reads (sortKeys_eq_of_fields h "privateActionDigest")
  cases b
  simp_all

theorem bindings_of_sortKeys {l l' : List ActionDigestBinding}
    (h : (bindingsCbor l).sortKeys = (bindingsCbor l').sortKeys) : l = l' := by
  rw [bindingsCbor, bindingsCbor, sortKeys_array, sortKeys_array, List.map_map, List.map_map] at h
  exact List.map_injective_iff.mpr (fun b b' hb => binding_of_sortKeys hb) (CborValue.array.inj h)

/-- The digest of the bindings is taken over the list that was validated. -/
theorem hashed_projection {p : StoredPlan} (h : validate p = .ok ()) :
    ∃ b, (bindingsCbor p.envelope.projection.perAction).toCanonicalBytes = .ok b ∧
      digestInDomain .publicProjection b = p.envelope.projection.publicProjectionDigest := by
  obtain ⟨-, -, -, -, hprojection⟩ := validate_eq_ok.mp h
  obtain ⟨bound, -, -, hdigests⟩ := validateProjection_eq_ok.mp hprojection
  have hperAction := projectionDigests_perAction hdigests
  obtain ⟨b, hb, hdigests⟩ := bind_eq_ok.mp hdigests
  rw [← hperAction] at hb
  refine ⟨b, mapError_eq_ok.mp hb, ?_⟩
  rw [← Except.ok.inj hdigests]

section Committed

variable {p q : StoredPlan} (hp : validate p = .ok ()) (hq : validate q = .ok ())
  (hmp : InMemory p) (hmq : InMemory q) (hfree : CollisionFree p q)
  (hdigest : p.envelope.planDigest = q.envelope.planDigest)
include hp hq hmp hmq hfree hdigest

/-- **The digest commits to the envelope.** -/
theorem committed_envelope : SameEnvelope p.envelope q.envelope := by
  obtain ⟨-, hself, -⟩ := validate_eq_ok.mp hp
  obtain ⟨-, hself', -⟩ := validate_eq_ok.mp hq
  obtain ⟨b, hb, hbd⟩ := PlanEnvelope.recomputeDigest_eq_ok.mp hself
  obtain ⟨c, hc, hcd⟩ := PlanEnvelope.recomputeDigest_eq_ok.mp hself'
  have hbytes : b = c := hfree .plan b c (.plan hb) (.plan hc) (by rw [hbd, hcd, hdigest])
  rw [PlanEnvelope.digestBodyBytes_eq_ok] at hb hc
  have hsorted := sortKeys_eq_of_encodes hmp.body hmq.body hb (hbytes ▸ hc)
  obtain ⟨-, -, -, -, hpublic⟩ := committed_steps hsorted
  obtain ⟨d, hd, hdd⟩ := hashed_projection hp
  obtain ⟨e, he, hed⟩ := hashed_projection hq
  have hmapping : d = e :=
    hfree .publicProjection d e (.projection hd) (.projection he) (by rw [hdd, hed, hpublic])
  have hbindings := bindings_of_sortKeys
    (sortKeys_eq_of_encodes hmp.projection hmq.projection hd (hmapping ▸ he))
  exact sameEnvelope_of_sorted (committed_input hsorted hbindings) hdigest

omit hp hq hdigest in
/-- Two actions of one digest are the same up to the order of map entries. -/
theorem sameAction_of_digest {a a' : PrivateActionRecord} (ha : a ∈ p.privatePlan.actions)
    (ha' : a' ∈ q.privatePlan.actions) {d : Sha256Digest} (hd : a.digest = .ok d)
    (hd' : a'.digest = .ok d) : SameAction a a' := by
  obtain ⟨b, hb, hbd⟩ := digestCanonical_eq_ok.mp hd
  obtain ⟨c, hc, hcd⟩ := digestCanonical_eq_ok.mp hd'
  have hbytes : b = c :=
    hfree .privateAction b c (.action ha hb) (.action ha' hc) (by rw [hbd, hcd])
  have hsorted := sortKeys_eq_of_encodes (hmp.action a ha) (hmq.action a' ha') hb (hbytes ▸ hc)
  have hread := action_reads a
  rw [hsorted, action_reads a'] at hread
  have hsame : sortedAction a' = sortedAction a := Except.ok.inj hread
  refine ⟨?_, ?_⟩
  · show ({ sortedAction a' with body := a.body } : PrivateActionRecord) = a
    rw [hsame]
    rfl
  · have hbody : a'.body.sortKeys = a.body.sortKeys := congrArg PrivateActionRecord.body hsame
    exact (mapOrderEq_sortKeys a.body).trans (hbody ▸ (mapOrderEq_sortKeys a'.body).symm)

omit hp hq hdigest in
theorem sameActions_of_bindings {s : PublicFlashStep} {l l' : List PrivateActionRecord}
    {bs : List ActionDigestBinding} (hl : ∀ a ∈ l, a ∈ p.privatePlan.actions)
    (hl' : ∀ a ∈ l', a ∈ q.privatePlan.actions)
    (h : List.Forall₂ (fun a b => bindAction s a = .ok b) l bs)
    (h' : List.Forall₂ (fun a b => bindAction s a = .ok b) l' bs) :
    List.Forall₂ SameAction l l' := by
  induction h generalizing l' with
  | nil =>
    rw [List.forall₂_nil_right_iff.mp h']
    exact .nil
  | @cons a b l bs ha _ ih =>
    obtain ⟨a', l', ha', hrest, rfl⟩ := List.forall₂_cons_right_iff.mp h'
    rw [List.forall_mem_cons] at hl hl'
    have hsame := sameAction_of_digest hmp hmq hfree hl.1 hl'.1 (bindAction_eq_ok ha).2
      (bindAction_eq_ok ha').2
    exact .cons hsame (ih hl.2 hl'.2 hrest)

/-- **The digest commits to the actions of each step**: the primary action, and the others in their
order. -/
theorem committed_actions : ∀ s ∈ p.envelope.publicSteps,
    (∃ a a', primariesOf p.privatePlan.actions s.stepId.value = [a] ∧
      primariesOf q.privatePlan.actions s.stepId.value = [a'] ∧ SameAction a a') ∧
    List.Forall₂ SameAction (subActionsOf p.privatePlan.actions s.stepId.value)
      (subActionsOf q.privatePlan.actions s.stepId.value) := by
  intro s hs
  have henvelope := (committed_envelope hp hq hmp hmq hfree hdigest).same
  have hsteps : q.envelope.publicSteps = p.envelope.publicSteps :=
    congrArg (fun e => e.publicSteps) henvelope
  have hprojections : q.envelope.projection = p.envelope.projection :=
    congrArg (fun e => e.projection) henvelope
  obtain ⟨-, -, -, -, hprojection⟩ := validate_eq_ok.mp hp
  obtain ⟨-, -, -, -, hprojection'⟩ := validate_eq_ok.mp hq
  rw [hsteps, hprojections] at hprojection'
  obtain ⟨bound, hbound, -, hdigests⟩ := validateProjection_eq_ok.mp hprojection
  obtain ⟨bound', hbound', -, hdigests'⟩ := validateProjection_eq_ok.mp hprojection'
  obtain ⟨-, hnodup, -, -, hbinds⟩ := bindSteps_eq_ok.mp hbound
  obtain ⟨-, -, -, -, hbinds'⟩ := bindSteps_eq_ok.mp hbound'
  have hmem : s.toPublicFlashStep ∈ projected p.envelope.publicSteps :=
    List.mem_map.mpr ⟨s, hs, rfl⟩
  obtain ⟨r, hr, hfilter⟩ := filter_bindings hbinds hnodup _ hmem
  obtain ⟨r', hr', hfilter'⟩ := filter_bindings hbinds' hnodup _ hmem
  -- both plans have the bindings of the sealed projection
  have hbindings : r.2 = r'.2 := by
    rw [← hfilter, ← hfilter', ← projectionDigests_perAction hdigests,
      ← projectionDigests_perAction hdigests']
  obtain ⟨others, hothers, hr2⟩ := hr.bindings
  obtain ⟨others', hothers', hr2'⟩ := hr'.bindings
  rw [hr2, hr2'] at hbindings
  obtain rfl : others = others' := List.tail_eq_of_cons_eq hbindings
  have hprimary := mem_primariesOf.mp (hr.primary ▸ List.mem_singleton_self r.1.primary)
  have hprimary' := mem_primariesOf.mp (hr'.primary ▸ List.mem_singleton_self r'.1.primary)
  refine ⟨⟨_, _, hr.primary, hr'.primary, ?_⟩, ?_⟩
  · exact sameAction_of_digest hmp hmq hfree hprimary.1 hprimary'.1 hr.digest hr'.digest
  · exact sameActions_of_bindings hmp hmq hfree (fun a ha => (mem_subActionsOf.mp ha).1)
      (fun a ha => (mem_subActionsOf.mp ha).1) hothers hothers'

end Committed

end ArkForge.Engine.PlanCommitment
