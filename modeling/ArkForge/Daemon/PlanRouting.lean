import ArkForge.Authority.PermitBytes
import ArkForge.Daemon.Admission
import ArkForge.Engine.PlanCommitment

/-! # Plans of one digest

What the daemon takes out of a stored plan for a step: the list of actions it hands to the dispatcher
(`orderedActions`) and whether the step is sent to the authority's control port instead
(`managedControlFor`). The first depends on what the plan digest commits to. The second reads the
action that happens to be stored first for the step, which the digest does not fix. -/

namespace ArkForge.Daemon.PlanRouting

open Lib.Result Lib.KeySort
open Core.Cbor Core.CborCanon Core.CborBounds
open Core.CborMap hiding field
open Core.Digest Core.Ids Core.Effect Core.FlashStep
open Core.Projection Core.ProjectionSpec Core.Plan
open Core.Envelope Authority.PermitBytes
open Engine.PlanCodec Engine.PlanRoundTrip Engine.PlanCommitment
open Provider.Actions Ipc.Jobs Jobs Admission

variable {step : String} {a : PrivateActionRecord} {p : StoredPlan}

/-! ### The actions in another order -/

section Reordered

-- The primary actions are in the order of the plan, and so are the others.
variable {actions l : List PrivateActionRecord}
  (hprimary : l.filter (·.role = .primaryEffect) = actions.filter (·.role = .primaryEffect))
  (hsub : l.filter (·.role ≠ .primaryEffect) = actions.filter (·.role ≠ .primaryEffect))

theorem filter_primaries (actions : List PrivateActionRecord) (step : String) :
    (actions.filter (·.role = .primaryEffect)).filter (·.stepId.value = step) =
      primariesOf actions step := by
  rw [List.filter_filter, primariesOf]
  simp only [Bool.decide_and]

theorem filter_subActions (actions : List PrivateActionRecord) (step : String) :
    (actions.filter (·.role ≠ .primaryEffect)).filter (·.stepId.value = step) =
      subActionsOf actions step := by
  rw [List.filter_filter, subActionsOf]
  simp only [Bool.decide_and]

include hprimary hsub

theorem perm_of_filter : l.Perm actions := by
  have hsplit : ∀ l : List PrivateActionRecord, (l.filter (·.role = .primaryEffect) ++
      l.filter (·.role ≠ .primaryEffect)).Perm l := by
    intro l
    have h := List.filter_append_perm (fun a : PrivateActionRecord => a.role = .primaryEffect) l
    simpa only [decide_not] using h
  have hl := hsplit l
  rw [hprimary, hsub] at hl
  exact hl.symm.trans (hsplit actions)

theorem validate_reordered {envelope : PlanEnvelope} (hp : validate ⟨envelope, ⟨actions⟩⟩ = .ok ()) :
    validate ⟨envelope, ⟨l⟩⟩ = .ok () := by
  obtain ⟨hschema, hdigest, heffects, hexpiry, hprojection⟩ := validate_eq_ok.mp hp
  refine validate_eq_ok.mpr ⟨hschema, hdigest, heffects, hexpiry, ?_⟩
  have hfiled := (binds_of_validate hp).1
  have hperm := perm_of_filter hprimary hsub
  refine validateProjection_transfer ⟨?_, ?_, ?_⟩ (fun s _ => ?_) (fun s _ => ?_) hprojection
  · exact (hperm.map (·.actionId)).nodup_iff.mpr hfiled.nodup
  · exact fun a ha => hfiled.step a (hperm.mem_iff.mp ha)
  · exact fun a ha => hfiled.readOnly a (hperm.mem_iff.mp ha)
  · rw [← filter_primaries l, hprimary, filter_primaries, List.forall₂_same]
    exact fun a _ => .refl a
  · rw [← filter_subActions l, hsub, filter_subActions, List.forall₂_same]
    exact fun a _ => .refl a

theorem inMemory_reordered {envelope : PlanEnvelope} (h : InMemory ⟨envelope, ⟨actions⟩⟩) :
    InMemory ⟨envelope, ⟨l⟩⟩ :=
  ⟨h.body, h.projection, fun a ha => h.action a ((perm_of_filter hprimary hsub).mem_iff.mp ha)⟩

theorem collisionFree_reordered {envelope : PlanEnvelope}
    (h : CollisionFree p ⟨envelope, ⟨actions⟩⟩) : CollisionFree p ⟨envelope, ⟨l⟩⟩ := by
  intro domain b c hb hc
  refine h domain b c hb ?_
  cases hc with
  | plan hc => exact .plan hc
  | projection hc => exact .projection hc
  | action ha hc => exact .action ((perm_of_filter hprimary hsub).mem_iff.mp ha) hc

end Reordered

/-! ### A plan of one step -/

def probeAction (id : ActionId) (role : PrivateActionRole) (body : CborValue) :
    PrivateActionRecord where
  actionId := id
  stepId := plainId
  role
  effectClass := .readOnly
  declaredTarget := none
  declaredRange := none
  contentDigest := none
  body

def probeStep (digest : Sha256Digest) : PlanStep where
  stepId := plainId
  kind := .probeDevice
  effect := .readOnly
  semanticTarget := none
  contentDigest := none
  expectedModeBefore := none
  expectedModeAfter := none
  privateActionDigest := digest
  cancellation := .cancellableAtBoundary
  binding := .exactBoundTarget

/-- The body of a primary action that is for the native dispatcher. -/
def probeBody : CborValue := .textMap [("action", .text "probe-loader")]

theorem conforming_second : Conforming "second" := by decide

def secondId : OpaqueId := ⟨"second", conforming_second⟩

/-- A probe with any read-only actions, the first of them primary, is a plan that is accepted. -/
theorem exists_probePlan (body : CborValue) {subs : List (ActionId × CborValue)}
    (hnodup : (plainId :: subs.map Prod.fst).Nodup) (hbody : body.Encodes)
    (hsubs : ∀ s ∈ subs, s.2.Encodes) :
    ∃ (envelope : PlanEnvelope) (d : Sha256Digest) (projection : ProjectionDigests),
      envelope.toPlanSealInput = plainInput [probeStep d] .readOnly projection ∧
      projection.perAction.length = subs.length + 1 ∧
      validate ⟨envelope, ⟨probeAction plainId .primaryEffect body ::
        subs.map fun s => probeAction s.1 .readOnlyTransportSubAction s.2⟩⟩ = .ok () := by
  have hdigest : ∀ id role v, v.Encodes → ∃ d, (probeAction id role v).digest = .ok d :=
    fun _ _ _ h => PrivateActionRecord.exists_digest h
  obtain ⟨d, hd⟩ := hdigest plainId .primaryEffect body hbody
  have : Nonempty Sha256Digest := ⟨d⟩
  choose! e he using fun s hs => hdigest s.1 .readOnlyTransportSubAction s.2 (hsubs s hs)
  set actions := probeAction plainId .primaryEffect body ::
    subs.map fun s => probeAction s.1 .readOnlyTransportSubAction s.2 with hactions
  have hprimary : primariesOf actions plainId.value = [probeAction plainId .primaryEffect body] := by
    simp [hactions, primariesOf, probeAction, List.filter_map]
  have hsub : subActionsOf actions plainId.value =
      subs.map fun s => probeAction s.1 .readOnlyTransportSubAction s.2 := by
    simp [hactions, subActionsOf, probeAction, List.filter_map, Function.comp_def]
  have hmem : ∀ a ∈ actions, a.stepId = plainId ∧ a.effectClass = .readOnly :=
    List.forall_mem_cons.mpr ⟨⟨rfl, rfl⟩, List.forall_mem_map.mpr fun s _ => ⟨rfl, rfl⟩⟩
  have hbinds : bindSteps (projected [probeStep d]) ⟨actions⟩ = .ok [(⟨(probeStep d).toPublicFlashStep,
      probeAction plainId .primaryEffect body⟩, ⟨plainId, plainId, .primaryEffect, d⟩ ::
      subs.map fun s => ⟨plainId, s.1, .readOnlyTransportSubAction, e s⟩)] := by
    refine bindSteps_eq_ok.mpr ⟨List.cons_ne_nil _ _, List.nodup_singleton _, ?_, ⟨?_, ?_, ?_⟩, ?_⟩
    · intro s hs
      rw [List.mem_singleton.mp hs]
      rfl
    · have hids : actions.map (·.actionId) = plainId :: subs.map Prod.fst := by
        simp [hactions, probeAction]
      exact hids ▸ hnodup
    · exact fun a ha => ⟨_, List.mem_singleton_self _, (hmem a ha).1.symm⟩
    · exact fun a ha _ => (hmem a ha).2
    · refine .cons ⟨rfl, hprimary, hd, rfl, _, ?_, rfl⟩ .nil
      show List.Forall₂ _ (subActionsOf actions plainId.value) _
      rw [hsub, List.forall₂_map_left_iff, List.forall₂_map_right_iff, List.forall₂_same]
      intro s hs
      rw [bindAction, he s hs]
      rfl
  obtain ⟨projection, hprojection⟩ := validateProjection_of_binds hbinds
    (show validateEffectCoverage _ EffectSet.readOnly = .ok () from rfl)
  have hlength : projection.perAction.length = subs.length + 1 := by
    obtain ⟨bound, hbound, -, hdigests⟩ := validateProjection_eq_ok.mp hprojection
    rw [hbinds] at hbound
    rw [projectionDigests_perAction hdigests, ← Except.ok.inj hbound]
    simp
  obtain ⟨envelope, henvelope, hvalid⟩ := exists_validated (by rfl) hprojection
  exact ⟨envelope, d, projection, henvelope, hlength, hvalid⟩

/-- The body that such a plan is sealed by is short. -/
theorem length_probeBody_le {input : PlanSealInput} {d : Sha256Digest} {projection : ProjectionDigests}
    (h : input = plainInput [probeStep d] .readOnly projection) {b : List UInt8}
    (hb : (planDigestBody input).toCanonicalBytes = .ok b) : b.length ≤ 1000000 := by
  refine (length_le_boundValue _ hb).trans ?_
  rw [h]
  simp [planDigestBody, planDigestFields, CborValue.textMap, plainInput, boundValue,
    boundValues, boundEntries, OpaqueId.toCbor, Sha256Digest.toCbor, orNull, PlanStep.toCbor,
    effectSetCbor, probeStep, Sha256Digest.length_eq]
  decide

/-- The probe and another action of its step that probes as well. -/
def probes : List PrivateActionRecord :=
  [probeAction plainId .primaryEffect probeBody,
    probeAction secondId .readOnlyTransportSubAction probeBody]

theorem mem_probes : a ∈ probes ↔ a = probeAction plainId .primaryEffect probeBody ∨
    a = probeAction secondId .readOnlyTransportSubAction probeBody := by
  simp [probes]

theorem fits_probes : ∀ a ∈ probes, a.toCbor.Fits := by
  simp +decide [probes, probeAction, probeBody, plainId, secondId, PrivateActionRecord.toCbor,
    CborValue.textMap, CborValue.Fits, FitEntries, OpaqueId.toCbor, PrivateActionRole.toCbor,
    WorkflowEffect.toCbor, orNull]

/-- The two actions have different digests, so that nothing hashed for them collides. -/
theorem digest_probes : ∀ a ∈ probes, ∀ c ∈ probes, a.digest = c.digest → a = c := by
  have hne : (probeAction plainId .primaryEffect probeBody).digest.toOption ≠
      (probeAction secondId .readOnlyTransportSubAction probeBody).digest.toOption := by
    decide +kernel
  intro a ha c hc h
  rcases mem_probes.mp ha with rfl | rfl <;> rcases mem_probes.mp hc with rfl | rfl
  · rfl
  · exact absurd (congrArg Except.toOption h) hne
  · exact absurd (congrArg Except.toOption h.symm) hne
  · rfl

/-- The two probes are the actions of an accepted plan whose payloads are short and do not
collide. -/
theorem exists_probesPlan : ∃ envelope : PlanEnvelope,
    (∃ d, envelope.publicSteps = [probeStep d]) ∧ validate ⟨envelope, ⟨probes⟩⟩ = .ok () ∧
    InMemory ⟨envelope, ⟨probes⟩⟩ ∧
    CollisionFree ⟨envelope, ⟨probes⟩⟩ ⟨envelope, ⟨probes⟩⟩ := by
  obtain ⟨envelope, d, projection, henvelope, hlength, hvalid⟩ := exists_probePlan probeBody
    (show (plainId :: List.map Prod.fst [(secondId, probeBody)]).Nodup by decide)
    (by simp [probeBody]) (by simp [probeBody])
  have hid : ∀ o : OpaqueId, (utf8 o.value).length < 18446744073709551616 := fits_id
  have hdigest : ∀ d : Sha256Digest, d.bytes.length < 18446744073709551616 := fits_digest
  refine ⟨envelope, ⟨d, congrArg (fun i => i.publicSteps) henvelope⟩, hvalid,
    ⟨?_, ?_, fits_probes⟩, ?_⟩
  · obtain ⟨-, hself, -⟩ := validate_eq_ok.mp hvalid
    obtain ⟨b, hb, -⟩ := PlanEnvelope.recomputeDigest_eq_ok.mp hself
    have hbytes := PlanEnvelope.digestBodyBytes_eq_ok.mp hb
    exact fits_of_length _ hbytes ((length_probeBody_le henvelope hbytes).trans_lt (by decide))
  · rw [henvelope]
    refine fits_array.mpr ⟨by rw [List.length_map]; exact hlength ▸ by decide, fun v hv => ?_⟩
    obtain ⟨b, -, rfl⟩ := List.mem_map.mp hv
    cases hrole : b.role <;>
      simp +decide [ActionDigestBinding.toCbor, CborValue.textMap, CborValue.Fits, FitEntries,
        OpaqueId.toCbor, Sha256Digest.toCbor, PrivateActionRole.toCbor, hrole, hid, hdigest]
  · intro domain b c hb hc h
    -- the plan and its projection are one payload each, the actions are two
    cases hb with
    | plan hb =>
      obtain hc | _ | _ := hc
      exact Except.ok.inj (hb.symm.trans hc)
    | projection hb =>
      obtain _ | hc | _ := hc
      exact Except.ok.inj (hb.symm.trans hc)
    | action ha hb =>
      obtain _ | _ | ⟨hc, hbytes⟩ := hc
      obtain rfl := digest_probes _ ha _ hc ((digestCanonical_eq_ok.mpr ⟨b, hb, h⟩).trans
        (digestCanonical_eq_ok.mpr ⟨c, hbytes, rfl⟩).symm)
      exact Except.ok.inj (hb.symm.trans hbytes)

/-! ### The actions handed to the dispatcher -/

variable {primary : PrivateActionRecord}

theorem orderedActions_eq {plan : StoredProviderPlan}
    (h : primariesOf plan.actions step = [primary]) :
    orderedActions plan step = .ok (subActionsOf plan.actions step ++ [primary]) := by
  have hprimary : ((plan.actions.filter fun a => a.stepId.value = step).filter fun a =>
      a.role = .primaryEffect) = [primary] := by
    rw [List.filter_filter, ← h, primariesOf]
    simp only [Bool.decide_and, Bool.and_comm]
  have hsub : ((plan.actions.filter fun a => a.stepId.value = step).filter fun a =>
      a.role = .readOnlyTransportSubAction) = subActionsOf plan.actions step := by
    have hrole : ∀ r : PrivateActionRole, r = .readOnlyTransportSubAction ↔ r ≠ .primaryEffect :=
      fun r => by cases r <;> simp
    rw [List.filter_filter, subActionsOf]
    simp only [hrole, Bool.decide_and, Bool.and_comm]
  unfold orderedActions
  simp only [hprimary, hsub, List.getLast?_singleton]

theorem step_of_action (hp : validate p = .ok ()) (ha : a ∈ p.privatePlan.actions) :
    ∃ s ∈ p.envelope.publicSteps, a.stepId = s.stepId := by
  obtain ⟨s, hs, hid⟩ := (binds_of_validate hp).1.step a ha
  obtain ⟨t, ht, rfl⟩ := List.mem_map.mp hs
  exact ⟨t, ht, hid.symm⟩

/-- **Plan digest commitment.** Two accepted plans of one digest, none of whose payloads collide, have
the same envelope up to the order of the entries of maps: the same steps in the same order, the same
effects, identities, binding, purpose and expiry. The dispatcher is handed the same actions for every
step. So the stored lists of actions hold, for every step, the same primary action and the same
others in the same order, and nothing else. -/
theorem plan_digest_commits (p q : StoredPlan) (hp : validate p = .ok ()) (hq : validate q = .ok ())
    (hmp : InMemory p) (hmq : InMemory q) (hfree : CollisionFree p q)
    (hdigest : p.envelope.planDigest = q.envelope.planDigest) :
    SameEnvelope p.envelope q.envelope ∧
    (∀ s ∈ p.envelope.publicSteps, ∃ l l', orderedActions p.privatePlan s.stepId.value = .ok l ∧
      orderedActions q.privatePlan s.stepId.value = .ok l' ∧ List.Forall₂ SameAction l l') ∧
    (∀ s ∈ p.envelope.publicSteps,
      List.Forall₂ SameAction (primariesOf p.privatePlan.actions s.stepId.value)
        (primariesOf q.privatePlan.actions s.stepId.value) ∧
      List.Forall₂ SameAction (subActionsOf p.privatePlan.actions s.stepId.value)
        (subActionsOf q.privatePlan.actions s.stepId.value)) ∧
    (∀ a, a ∈ p.privatePlan.actions ∨ a ∈ q.privatePlan.actions →
      ∃ s ∈ p.envelope.publicSteps, a.stepId = s.stepId) := by
  have henvelope := committed_envelope hp hq hmp hmq hfree hdigest
  have hactions := committed_actions hp hq hmp hmq hfree hdigest
  have hsteps : q.envelope.publicSteps = p.envelope.publicSteps :=
    congrArg (fun e => e.publicSteps) henvelope.same
  refine ⟨henvelope, fun s hs => ?_, fun s hs => ?_, ?_⟩
  · obtain ⟨⟨a, a', ha, ha', hsame⟩, hsub⟩ := hactions s hs
    refine ⟨_, _, orderedActions_eq ha, orderedActions_eq ha', ?_⟩
    exact List.rel_append hsub (.cons hsame .nil)
  · obtain ⟨⟨a, a', ha, ha', hsame⟩, hsub⟩ := hactions s hs
    rw [ha, ha']
    exact ⟨.cons hsame .nil, hsub⟩
  · rintro a (ha | ha)
    · exact step_of_action hp ha
    · exact hsteps ▸ step_of_action hq ha

theorem plan_digest_commits_probe : ∃ p q : StoredPlan, (validate p = .ok () ∧
      validate q = .ok () ∧ InMemory p ∧ InMemory q ∧ CollisionFree p q ∧
      p.envelope.planDigest = q.envelope.planDigest) ∧
    p.privatePlan.actions = probes ∧ q.privatePlan.actions = probes.reverse ∧
    ∃ l l', orderedActions p.privatePlan "plain" = .ok l ∧
      orderedActions q.privatePlan "plain" = .ok l' ∧ List.Forall₂ SameAction l l' := by
  obtain ⟨envelope, ⟨d, hsteps⟩, hvalid, hmem, hfree⟩ := exists_probesPlan
  have hprimary : probes.reverse.filter (·.role = .primaryEffect) =
      probes.filter (·.role = .primaryEffect) := rfl
  have hsub : probes.reverse.filter (·.role ≠ .primaryEffect) =
      probes.filter (·.role ≠ .primaryEffect) := rfl
  have hvalid' := validate_reordered hprimary hsub hvalid
  have hmem' := inMemory_reordered hprimary hsub hmem
  have hfree' := collisionFree_reordered hprimary hsub hfree
  obtain ⟨-, hactions, -⟩ := plan_digest_commits _ _ hvalid hvalid' hmem hmem' hfree' rfl
  exact ⟨_, _, ⟨hvalid, hvalid', hmem, hmem', hfree', rfl⟩, rfl, rfl,
    hactions _ (hsteps ▸ List.mem_singleton_self _)⟩

/-! ### What an action asks of the control port -/

/-- What the action asks of the authority's control port, if it is addressed to it. -/
def controlOf (action : PrivateActionRecord) :
    Except JobError (Option (ManagedControlAction × List (String × String))) :=
  match StoredAction.decode action with
  | .ok (.managedControl controlAction expect) => do
    let action ← controlActionNamed controlAction
    return some (action, expect)
  | _ => .ok none

/-- The step is sent where the action stored first for it is addressed to. -/
theorem managedControlFor_eq (plan : StoredProviderPlan) (step : String) :
    managedControlFor plan step =
      match plan.actions.find? fun a => a.stepId.value = step with
      | none => .error (.stepHasNoAction step)
      | some action => controlOf action := rfl

/-- An answer without the order of the facts it names: they stand in a map. -/
def unordered (x : Except JobError (Option (ManagedControlAction × List (String × String)))) :
    Except JobError (Option (ManagedControlAction × Multiset (String × String))) :=
  x.map (Option.map fun r => (r.1, (r.2 : Multiset (String × String))))

/-- Where an action is addressed to. -/
def routeOf (action : PrivateActionRecord) :
    Except JobError (Option (ManagedControlAction × Multiset (String × String))) :=
  unordered (controlOf action)

theorem field_sortedMap {es : List (CborValue × CborValue)} (hn : (es.map Prod.fst).Nodup)
    (hs : ((sortByKey (fun e => encodedKey e.1)
      (es.map fun e => (e.1.sortKeys, e.2.sortKeys))).map Prod.fst).Nodup) (name : String) :
    Provider.Actions.field (sortByKey (fun e => encodedKey e.1)
      (es.map fun e => (e.1.sortKeys, e.2.sortKeys))) name =
      (Provider.Actions.field es name).map CborValue.sortKeys := by
  have htext : ∀ k : CborValue, k.sortKeys = .text name ↔ k = .text name := by
    intro k
    cases k <;> simp [CborValue.sortKeys]
  refine Option.ext fun v => ?_
  rw [Option.map_eq_some_iff]
  show Core.CborMap.field _ name = some v ↔ ∃ w, Core.CborMap.field es name = some w ∧ _
  simp only [field_eq_some hs, field_eq_some hn, mem_sortByKey, List.mem_map, Prod.mk.injEq, htext,
    Prod.exists]
  constructor
  · rintro ⟨k, w, hmem, rfl, rfl⟩
    exact ⟨w, hmem, rfl⟩
  · rintro ⟨w, hmem, rfl⟩
    exact ⟨_, w, hmem, rfl, rfl⟩

section Sorted

-- The two maps have the same fields, those of the second sorted.
variable {es fs : List (CborValue × CborValue)}
  (hfield : ∀ name, Provider.Actions.field fs name =
    (Provider.Actions.field es name).map CborValue.sortKeys)
include hfield

theorem fields_sorted (name : String) : textField fs name = textField es name ∧
    unsignedField fs name = unsignedField es name ∧ digestField fs name = digestField es name := by
  unfold textField unsignedField digestField
  rw [hfield]
  rcases Provider.Actions.field es name with _ | v
  · simp
  · cases v <;> simp [CborValue.sortKeys]

theorem fillerField_sorted : fillerField fs = fillerField es := by
  unfold fillerField
  rw [hfield]
  rcases Provider.Actions.field es "erasedMediumFiller" with _ | v
  · rfl
  · cases v <;> simp [CborValue.sortKeys]

theorem expectField_sorted :
    (∃ r r', expectField es = .ok r ∧ expectField fs = .ok r' ∧ r'.Perm r) ∨
      (∃ e e', expectField es = .error e ∧ expectField fs = .error e') := by
  have hentry : ∀ e : CborValue × CborValue,
      expectEntry (e.1.sortKeys, e.2.sortKeys) = expectEntry e := by
    rintro ⟨k, v⟩
    cases k <;> cases v <;> simp [CborValue.sortKeys, expectEntry]
  unfold expectField
  rw [hfield]
  rcases Provider.Actions.field es "expect" with _ | v
  · exact .inr ⟨_, _, rfl, rfl⟩
  rcases v with _ | _ | _ | _ | _ | pairs | _ | _
  case some.map =>
    rw [Option.map_some, sortKeys_map]
    have hperm : (sortByKey (fun e : CborValue × CborValue => encodedKey e.1)
        (pairs.map fun e => (e.1.sortKeys, e.2.sortKeys))).Perm
        (pairs.map fun e => (e.1.sortKeys, e.2.sortKeys)) := sortByKey_perm _
    have hmap : ∀ r, (pairs.map fun e => (e.1.sortKeys, e.2.sortKeys)).mapM expectEntry = .ok r ↔
        pairs.mapM expectEntry = .ok r := by
      intro r
      simp only [mapM_eq_ok, List.forall₂_map_left_iff, hentry]
    rcases hr : pairs.mapM expectEntry with e | r
    · refine .inr ⟨e, ?_⟩
      rcases hr' : (sortByKey (fun e : CborValue × CborValue => encodedKey e.1)
        (pairs.map fun e => (e.1.sortKeys, e.2.sortKeys))).mapM expectEntry with e' | r'
      · exact ⟨e', hr, hr'⟩
      · obtain ⟨r, hforall, -⟩ := List.perm_comp_forall₂ hperm.symm (mapM_eq_ok.mp hr')
        rw [(hmap r).mp (mapM_eq_ok.mpr hforall)] at hr
        cases hr
    · obtain ⟨r', hforall, hperm'⟩ :=
        List.perm_comp_forall₂ hperm (mapM_eq_ok.mp ((hmap r).mpr hr))
      exact .inl ⟨r, r', hr, mapM_eq_ok.mpr hforall, hperm'⟩
  all_goals exact .inr ⟨_, _, rfl, rfl⟩

theorem decodeNamed_sorted {action : String} (h : action ≠ "verify-hdc-postflight") :
    decodeNamed fs action = decodeNamed es action := by
  unfold decodeNamed
  simp only [fields_sorted hfield, fillerField_sorted hfield, if_neg h]

end Sorted

theorem decodeNamed_postflight (entries : List (CborValue × CborValue)) :
    decodeNamed entries "verify-hdc-postflight" = do
      return .managedControl (← textField entries "controlAction") (← expectField entries) := by
  rw [decodeNamed, if_neg (by decide), if_pos rfl]

variable {d : Sha256Digest}

theorem exists_body_encodes (h : a.digest = .ok d) : a.body.Encodes := by
  obtain ⟨b, hb, -⟩ := digestCanonical_eq_ok.mp h
  exact (textMap_encodes.mp ⟨b, hb⟩).2 ("body", a.body) (by simp)

/-- An action is addressed alike when its body is sorted. -/
theorem routeOf_sorted {b : List UInt8} (h : a.body.toCanonicalBytes = .ok b) :
    routeOf (sortedAction a) = routeOf a := by
  have hnotMap : ∀ c : PrivateActionRecord, (∀ es, c.body ≠ .map es) → routeOf c = .ok none := by
    intro c hc
    have hdecode : StoredAction.decode c = .error .bodyNotAMap := by
      unfold StoredAction.decode bodyEntries
      split
      · next es hes => exact absurd hes (hc es)
      · rfl
    rw [routeOf, controlOf, hdecode]
    rfl
  by_cases hbody : ∃ es, a.body = .map es
  · obtain ⟨es, hes⟩ := hbody
    have hsorted : (sortedAction a).body = .map (sortByKey (fun e => encodedKey e.1)
        (es.map fun e => (e.1.sortKeys, e.2.sortKeys))) := by
      rw [sortedAction, hes, sortKeys_map]
    have hb : (sortedAction a).body.toCanonicalBytes = .ok b :=
      (toCanonicalBytes_congr (mapOrderEq_sortKeys a.body) b).mp h
    rw [hes] at h
    rw [hsorted] at hb
    have hfield := field_sortedMap (nodup_keys_of_encodes h) (nodup_keys_of_encodes hb)
    unfold routeOf controlOf StoredAction.decode
    rw [hsorted, hes]
    simp only [bodyEntries, ok_bind, fields_sorted hfield]
    rcases haction : textField es "action" with e | action
    · rfl
    simp only [ok_bind]
    by_cases hpost : action = "verify-hdc-postflight"
    · subst hpost
      simp only [decodeNamed_postflight, fields_sorted hfield]
      rcases textField es "controlAction" with e | control
      · rfl
      rcases expectField_sorted hfield with ⟨r, r', hr, hr', hperm⟩ | ⟨e, e', he, he'⟩
      · rw [hr, hr']
        show unordered (controlActionNamed control >>= fun c => .ok (some (c, r'))) =
          unordered (controlActionNamed control >>= fun c => .ok (some (c, r)))
        rcases controlActionNamed control with e | c
        · rfl
        · show Except.ok (some (c, (r' : Multiset (String × String)))) =
            Except.ok (some (c, (r : Multiset (String × String))))
          rw [Multiset.coe_eq_coe.mpr hperm]
      · rw [he, he']
        rfl
    · rw [decodeNamed_sorted hfield hpost]
  · have hnone : ∀ es, a.body ≠ .map es := fun es hes => hbody ⟨es, hes⟩
    rw [hnotMap a hnone, hnotMap (sortedAction a)]
    intro es hes
    have hsort : a.body.sortKeys = .map es := hes
    rcases hb : a.body with _ | _ | _ | _ | _ | es' | _ | _ <;> rw [hb] at hsort <;>
      simp [CborValue.sortKeys] at hsort
    exact hnone es' hb

/-- Actions that are the same up to the order of map entries are addressed alike. -/
theorem routeOf_same {a' : PrivateActionRecord} (h : SameAction a a') (hd : a.digest = .ok d)
    (hfits : a.toCbor.Fits) (hfits' : a'.toCbor.Fits) : routeOf a' = routeOf a := by
  have hbody : ∀ {c : PrivateActionRecord}, c.toCbor.Fits → c.body.Fits := by
    intro c hc
    exact ((fits_map.mp hc).2 (.text "body", c.body) (by simp)).2
  obtain ⟨b, hb⟩ := exists_body_encodes hd
  have hb' := (toCanonicalBytes_congr h.body b).mp hb
  have hsorted : a'.body.sortKeys = a.body.sortKeys :=
    sortKeys_eq_of_encodes (hbody hfits') (hbody hfits) hb' hb
  have haction : sortedAction a' = sortedAction a := by
    rw [sortedAction, hsorted, sortedAction, ← h.same]
  rw [← routeOf_sorted hb', haction, routeOf_sorted hb]

/-! ### The action stored first -/

/-- The action of a step that is stored first is its primary action or its first other one. -/
theorem first_action {actions : List PrivateActionRecord}
    (h : actions.find? (fun a => a.stepId.value = step) = some a) :
    a ∈ primariesOf actions step ∨ (subActionsOf actions step).head? = some a := by
  obtain ⟨hstep, before, after, rfl, hbefore⟩ := List.find?_eq_some_iff_append.mp h
  have hstep : a.stepId.value = step := by simpa using hstep
  by_cases hrole : a.role = .primaryEffect
  · exact .inl (mem_primariesOf.mpr ⟨by simp, hstep, hrole⟩)
  · right
    have hnone : subActionsOf before step = [] := by
      refine List.filter_eq_nil_iff.mpr fun c hc => ?_
      simp_all
    unfold subActionsOf at hnone ⊢
    rw [List.filter_append, hnone, List.filter_cons, if_pos (by simp [hstep, hrole])]
    rfl

/-- The primary actions before the others. -/
def primariesFirst (actions : List PrivateActionRecord) : List PrivateActionRecord :=
  actions.filter (·.role = .primaryEffect) ++ actions.filter (·.role ≠ .primaryEffect)

/-- The primary actions after the others. -/
def primariesLast (actions : List PrivateActionRecord) : List PrivateActionRecord :=
  actions.filter (·.role ≠ .primaryEffect) ++ actions.filter (·.role = .primaryEffect)

theorem managedControlFor_head {actions : List PrivateActionRecord}
    (h : (actions.filter (·.stepId.value = step)).head? = some a) :
    unordered (managedControlFor ⟨actions⟩ step) = routeOf a := by
  rw [List.head?_filter] at h
  rw [managedControlFor_eq, h]
  rfl

/-- What an accepted plan says of one of its steps: there is one primary action, and the digests of
its actions are those of the sealed projection. -/
theorem exists_primary (hp : validate p = .ok ()) {s : PlanStep} (hs : s ∈ p.envelope.publicSteps) :
    ∃ primary, primariesOf p.privatePlan.actions s.stepId.value = [primary] ∧
      (∃ d, primary.digest = .ok d) ∧
      ∀ a ∈ subActionsOf p.privatePlan.actions s.stepId.value, ∃ d, a.digest = .ok d := by
  obtain ⟨r, hr⟩ := (binds_of_validate hp).2 s hs
  obtain ⟨others, hothers, -⟩ := hr.bindings
  refine ⟨r.1.primary, hr.primary, ⟨_, hr.digest⟩, fun a ha => ?_⟩
  obtain ⟨b, -, hb⟩ := exists_of_forall₂ hothers ha
  exact ⟨_, (bindAction_eq_ok hb).2⟩

theorem managedControlFor_unknown (hp : validate p = .ok ())
    (h : ∀ s ∈ p.envelope.publicSteps, s.stepId.value ≠ step) :
    managedControlFor p.privatePlan step = .error (.stepHasNoAction step) := by
  have hnone : (p.privatePlan.actions.find? fun a => a.stepId.value = step) = none := by
    refine List.find?_eq_none.mpr fun a ha hstep => ?_
    obtain ⟨s, hs, hid⟩ := step_of_action hp ha
    have hstep : a.stepId.value = step := by simpa using hstep
    exact h s hs (by rw [← hstep, hid])
  rw [managedControlFor_eq, hnone]

/-- In a plan whose first sub-actions are addressed where the primary actions are, every step is sent
where its primary action is addressed to. -/
theorem managedControlFor_primary (hprimary : primariesOf p.privatePlan.actions step = [primary])
    (h : ∀ sub, (subActionsOf p.privatePlan.actions step).head? = some sub →
      routeOf sub = routeOf primary) :
    unordered (managedControlFor p.privatePlan step) = routeOf primary := by
  have hmem : primary ∈ primariesOf p.privatePlan.actions step := hprimary ▸ List.mem_singleton_self _
  rw [managedControlFor_eq]
  rcases hfind : p.privatePlan.actions.find? (fun a => a.stepId.value = step) with _ | a
  · obtain ⟨hin, hstep, -⟩ := mem_primariesOf.mp hmem
    exact absurd (List.find?_eq_none.mp hfind primary hin) (by simp [hstep])
  · rw [hfind]
    rcases first_action hfind with ha | ha
    · rw [hprimary, List.mem_singleton] at ha
      rw [ha]
      rfl
    · exact h a ha

theorem head_same {actions actions' : List PrivateActionRecord} {first' : PrivateActionRecord}
    (h : List.Forall₂ SameAction actions actions') (hfirst : actions'.head? = some first') :
    ∃ first, actions.head? = some first ∧ SameAction first first' := by
  cases h with
  | nil => cases hfirst
  | cons hsame _ =>
    cases hfirst
    exact ⟨_, rfl, hsame⟩

/-- **Where routing follows the authorised action.** Every accepted plan of `p`'s digest sends every
step to the same place, with the same control action and the same expected facts, exactly when no step
of `p` has a first sub-action that is addressed elsewhere than its primary action. -/
theorem routing_determined_iff (p : StoredPlan) (hp : validate p = .ok ()) (hmp : InMemory p)
    (hfree : CollisionFree p p) :
    (∀ q : StoredPlan, validate q = .ok () → InMemory q → CollisionFree p q →
      q.envelope.planDigest = p.envelope.planDigest →
      ∀ step, unordered (managedControlFor q.privatePlan step) =
        unordered (managedControlFor p.privatePlan step)) ↔
    ∀ s ∈ p.envelope.publicSteps,
      ∀ primary ∈ primariesOf p.privatePlan.actions s.stepId.value,
      ∀ sub, (subActionsOf p.privatePlan.actions s.stepId.value).head? = some sub →
        routeOf sub = routeOf primary := by
  constructor
  · intro h s hs primary hprimary sub hsub
    obtain ⟨a, ha, -⟩ := exists_primary hp hs
    obtain rfl : primary = a := by simpa [ha] using hprimary
    -- the same actions in two orders, both of `p`'s digest
    have horder : ∀ {l : List PrivateActionRecord},
        l.filter (·.role = .primaryEffect) = p.privatePlan.actions.filter (·.role = .primaryEffect) →
        l.filter (·.role ≠ .primaryEffect) = p.privatePlan.actions.filter (·.role ≠ .primaryEffect) →
        unordered (managedControlFor ⟨l⟩ s.stepId.value) =
          unordered (managedControlFor p.privatePlan s.stepId.value) := by
      intro l hlprimary hlsub
      exact h ⟨p.envelope, ⟨l⟩⟩ (validate_reordered hlprimary hlsub hp)
        (inMemory_reordered hlprimary hlsub hmp) (collisionFree_reordered hlprimary hlsub hfree) rfl _
    have hfirst := @horder (primariesFirst p.privatePlan.actions) (by simp [primariesFirst])
      (by simp [primariesFirst])
    have hlast := @horder (primariesLast p.privatePlan.actions) (by simp [primariesLast])
      (by simp [primariesLast])
    rw [managedControlFor_head] at hfirst
    · rw [managedControlFor_head] at hlast
      · exact hlast.trans hfirst.symm
      · rw [primariesLast, List.filter_append, filter_subActions, List.head?_append, hsub]
        rfl
    · rw [primariesFirst, List.filter_append, filter_primaries, ha]
      rfl
  · intro h q hq hmq hfree' hdigest step
    have hsteps : q.envelope.publicSteps = p.envelope.publicSteps :=
      congrArg (fun e => e.publicSteps)
        (committed_envelope hp hq hmp hmq hfree' hdigest.symm).same
    by_cases hstep : ∃ s ∈ p.envelope.publicSteps, s.stepId.value = step
    · obtain ⟨s, hs, rfl⟩ := hstep
      obtain ⟨⟨a, a', ha, ha', hsame⟩, hsubs⟩ :=
        committed_actions hp hq hmp hmq hfree' hdigest.symm s hs
      obtain ⟨primary, hprimary, ⟨d, hd⟩, hsubDigest⟩ := exists_primary hp hs
      obtain rfl : primary = a := by simpa [ha] using hprimary.symm
      have hroute : ∀ {c c' : PrivateActionRecord}, SameAction c c' → (∃ d, c.digest = .ok d) →
          c ∈ p.privatePlan.actions → c' ∈ q.privatePlan.actions → routeOf c' = routeOf c := by
        rintro c c' hcc ⟨d, hd⟩ hc hc'
        exact routeOf_same hcc hd (hmp.action c hc) (hmq.action c' hc')
      have hmem : primary ∈ p.privatePlan.actions :=
        (mem_primariesOf.mp (ha ▸ List.mem_singleton_self _)).1
      have hmem' : a' ∈ q.privatePlan.actions :=
        (mem_primariesOf.mp (ha' ▸ List.mem_singleton_self _)).1
      have hsub := h s hs primary (ha ▸ List.mem_singleton_self _)
      rw [managedControlFor_primary ha hsub, managedControlFor_primary ha' ?_,
        hroute hsame ⟨d, hd⟩ hmem hmem']
      -- the first sub-action of the other plan is the same action
      intro sub' hsub'
      rw [hroute hsame ⟨d, hd⟩ hmem hmem']
      obtain ⟨sub, hfirst, hsame'⟩ := head_same hsubs hsub'
      have hin := List.mem_of_mem_head? hfirst
      have hin' := List.mem_of_mem_head? hsub'
      rw [hroute hsame' (hsubDigest sub hin) (mem_subActionsOf.mp hin).1 (mem_subActionsOf.mp hin').1]
      exact hsub sub hfirst
    · have hnone : ∀ s ∈ p.envelope.publicSteps, s.stepId.value ≠ step :=
        fun s hs hid => hstep ⟨s, hs, hid⟩
      rw [managedControlFor_unknown hp hnone, managedControlFor_unknown hq (hsteps ▸ hnone)]

theorem routing_determined_iff_probe : ∃ p : StoredPlan, (validate p = .ok () ∧ InMemory p ∧
      CollisionFree p p) ∧ p.privatePlan.actions = probes ∧
    ∀ q : StoredPlan, validate q = .ok () → InMemory q → CollisionFree p q →
      q.envelope.planDigest = p.envelope.planDigest →
      ∀ step, unordered (managedControlFor q.privatePlan step) =
        unordered (managedControlFor p.privatePlan step) := by
  obtain ⟨envelope, ⟨d, hsteps⟩, hvalid, hmem, hfree⟩ := exists_probesPlan
  refine ⟨_, ⟨hvalid, hmem, hfree⟩, rfl, (routing_determined_iff _ hvalid hmem hfree).mpr ?_⟩
  have hroute : ∀ a ∈ probes, routeOf a = .ok none := by
    intro a ha
    rcases mem_probes.mp ha with rfl | rfl <;> rfl
  intro s _ primary hprimary sub hsub
  rw [hroute sub (mem_subActionsOf.mp (List.mem_of_mem_head? hsub)).1,
    hroute primary (mem_primariesOf.mp hprimary).1]

/-- The body of another action of the step that is addressed to the control port. -/
def updaterBody : CborValue :=
  .textMap [("action", .text "enter-loader"), ("controlAction", .text "enter-updater")]

/-- **Routing is not determined by the plan digest.** A step whose primary action probes the loader
and that has a sub-action addressed to the control port is sent to the native dispatcher when the
primary action is stored first, and to the control port when it is stored second. -/
theorem routing_depends_on_order : ∃ p q : StoredPlan, validate p = .ok () ∧ validate q = .ok () ∧
    q.envelope = p.envelope ∧ q.privatePlan.actions.Perm p.privatePlan.actions ∧
    managedControlFor p.privatePlan "plain" = .ok none ∧
    managedControlFor q.privatePlan "plain" = .ok (some (.enterUpdater, [])) := by
  obtain ⟨envelope, d, projection, -, -, hvalid⟩ := exists_probePlan probeBody
    (show (plainId :: List.map Prod.fst [(secondId, updaterBody)]).Nodup by decide)
    (by simp [probeBody]) (by simp [updaterBody])
  refine ⟨_, ⟨envelope, ⟨[probeAction secondId .readOnlyTransportSubAction updaterBody,
    probeAction plainId .primaryEffect probeBody]⟩⟩, hvalid, validate_reordered ?_ ?_ hvalid, rfl,
    .swap _ _ _, rfl, rfl⟩
  · simp [probeAction]
  · simp [probeAction]

end ArkForge.Daemon.PlanRouting
