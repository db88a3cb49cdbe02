import ArkForge.Core.Projection

/-! # What the projection accepts

`validateProjection` reads a private plan step by step: of the stored list it sees, for each step,
the primary action and the other actions in their order. `validateProjection_eq_ok` says so, and
`validateProjection_transfer` draws the consequence: a plan in which every step has the same actions
is accepted with the same digests, wherever they stand in the list. -/

namespace ArkForge.Core.ProjectionSpec

open Lib.Result Lib.Ordered
open Ids Effect FlashStep
open Projection

variable {a : PrivateActionRecord} {actions : List PrivateActionRecord} {plan : StoredProviderPlan}
  {steps : List PublicFlashStep} {effectSet : EffectSet} {s : PublicFlashStep}
  {p : ProjectionDigests}

/-! ### The actions of a step -/

def primariesOf (actions : List PrivateActionRecord) (step : String) : List PrivateActionRecord :=
  actions.filter fun a => a.stepId.value = step ∧ a.role = .primaryEffect

/-- The other actions stored for a step, in their order. -/
def subActionsOf (actions : List PrivateActionRecord) (step : String) : List PrivateActionRecord :=
  actions.filter fun a => a.stepId.value = step ∧ a.role ≠ .primaryEffect

variable {step : String}

theorem mem_primariesOf : a ∈ primariesOf actions step ↔
      a ∈ actions ∧ a.stepId.value = step ∧ a.role = .primaryEffect := by
  simp [primariesOf]

theorem mem_subActionsOf : a ∈ subActionsOf actions step ↔
      a ∈ actions ∧ a.stepId.value = step ∧ a.role ≠ .primaryEffect := by
  simp [subActionsOf]

theorem primariesOf_cons (a : PrivateActionRecord) (actions : List PrivateActionRecord)
    (step : String) : primariesOf (a :: actions) step =
      (if a.stepId.value = step ∧ a.role = .primaryEffect then [a] else []) ++
        primariesOf actions step := by
  unfold primariesOf
  split_ifs <;> simp_all

/-- The filter `bindStep` collects the other actions with. -/
theorem subActionsOf_eq (actions : List PrivateActionRecord) (step : StepId) :
    (actions.filter fun a => a.stepId = step ∧ a.role ≠ .primaryEffect) =
      subActionsOf actions step.value := by
  unfold subActionsOf
  simp only [OpaqueId.ext_iff]

/-! ### The loops -/

theorem checkSteps_eq_ok : ∀ {steps : List PublicFlashStep} {seen : List String},
    (∃ seen', checkSteps seen steps = .ok seen') ↔
      (∀ s ∈ steps, s.stepId.value ∉ seen) ∧ (steps.map (·.stepId)).Nodup ∧
        ∀ s ∈ steps, s.validateSelfConsistent = .ok ()
  | [], seen => by simp [checkSteps]
  | step :: steps, seen => by
    have hrest := @checkSteps_eq_ok steps (step.stepId.value :: seen)
    have hhead : step.stepId ∉ steps.map (·.stepId) ↔
        ∀ s ∈ steps, s.stepId.value ≠ step.stepId.value := by
      simp only [List.mem_map, not_exists, not_and, OpaqueId.ext_iff]
    simp only [checkSteps, guard_eq_ok, bind_eq_ok, mapError_eq_ok]
    grind

theorem mem_checkSteps : ∀ {steps : List PublicFlashStep} {seen seen' : List String},
    checkSteps seen steps = .ok seen' →
      ∀ x, x ∈ seen' ↔ x ∈ seen ∨ ∃ s ∈ steps, s.stepId.value = x
  | [], seen, seen', h, x => by
    obtain rfl : seen = seen' := Except.ok.inj h
    simp
  | step :: steps, seen, seen', h, x => by
    unfold checkSteps at h
    split_ifs at h
    obtain ⟨-, -, hrest⟩ := bind_eq_ok.mp h
    rw [mem_checkSteps hrest x, List.mem_cons, List.exists_mem_cons_iff]
    tauto

theorem checkActions_eq_ok {seenSteps : List String} :
    ∀ {actions : List PrivateActionRecord} {seen : List String},
    checkActions seenSteps seen actions = .ok () ↔
      (∀ a ∈ actions, a.actionId.value ∉ seen ∧ a.stepId.value ∈ seenSteps) ∧
        (actions.map (·.actionId)).Nodup
  | [], seen => by simp [checkActions]
  | a :: actions, seen => by
    unfold checkActions
    rw [List.forall_mem_cons, List.map_cons, List.nodup_cons]
    split_ifs with hseen hstep
    · simp [hseen]
    · rw [checkActions_eq_ok]
      have hhead : a.actionId ∉ actions.map (·.actionId) ↔
          ∀ b ∈ actions, b.actionId.value ≠ a.actionId.value := by
        simp only [List.mem_map, not_exists, not_and, OpaqueId.ext_iff]
      rw [hhead]
      constructor
      · rintro ⟨hall, hnodup⟩
        refine ⟨⟨⟨hseen, hstep⟩, fun b hb => ?_⟩, fun b hb hid => ?_, hnodup⟩
        · exact ⟨fun hmem => (hall b hb).1 (List.mem_cons_of_mem _ hmem), (hall b hb).2⟩
        · exact (hall b hb).1 (hid ▸ List.mem_cons_self)
      · rintro ⟨⟨-, hall⟩, hfresh, hnodup⟩
        refine ⟨fun b hb => ⟨fun hmem => ?_, (hall b hb).2⟩, hnodup⟩
        rcases List.mem_cons.mp hmem with hid | hmem
        · exact hfresh b hb hid
        · exact (hall b hb).1 hmem
    · simp [hstep]

/-- **What the loop over the roles finds**: the primary actions of each step, of which there may be
one. -/
theorem collectPrimaries_spec :
    ∀ {actions : List PrivateActionRecord} {m m' : OrdMap String PrivateActionRecord},
    collectPrimaries m actions = .ok m' →
      (∀ a ∈ actions, a.role ≠ .primaryEffect → a.effectClass = .readOnly) ∧
        ∀ k, (m'.get k).toList = (m.get k).toList ++ primariesOf actions k
  | [], m, m', h => by
    obtain rfl : m = m' := Except.ok.inj h
    simp [primariesOf]
  | a :: actions, m, m', h => by
    unfold collectPrimaries at h
    split at h
    next hrole =>
      split_ifs at h with hsome
      obtain ⟨hread, hget⟩ := collectPrimaries_spec h
      have hnone : m.get a.stepId.value = none := by simpa using hsome
      refine ⟨List.forall_mem_cons.mpr ⟨fun hne => absurd hrole hne, hread⟩, fun k => ?_⟩
      rw [hget, primariesOf_cons, OrdMap.get_alter]
      by_cases hk : k = a.stepId.value
      · rw [if_pos hk, if_pos ⟨hk.symm, hrole⟩, hk, hnone]
        rfl
      · rw [if_neg hk, if_neg fun h => hk h.1.symm, List.nil_append]
    next hrole =>
      split_ifs at h with hread
      obtain ⟨hreads, hget⟩ := collectPrimaries_spec h
      refine ⟨List.forall_mem_cons.mpr ⟨fun _ => not_not.mp hread, hreads⟩, fun k => ?_⟩
      rw [hget, primariesOf_cons, if_neg fun h => by simp [hrole] at h, List.nil_append]

theorem exists_collectPrimaries :
    ∀ {actions : List PrivateActionRecord} {m : OrdMap String PrivateActionRecord},
    (∀ a ∈ actions, a.role ≠ .primaryEffect → a.effectClass = .readOnly) →
    (∀ k, ((m.get k).toList ++ primariesOf actions k).length ≤ 1) →
      ∃ m', collectPrimaries m actions = .ok m'
  | [], m, _, _ => ⟨m, rfl⟩
  | a :: actions, m, hread, hone => by
    rw [List.forall_mem_cons] at hread
    unfold collectPrimaries
    split
    next hrole =>
      have hnone : m.get a.stepId.value = none := by
        have hlen := hone a.stepId.value
        rw [primariesOf_cons, if_pos ⟨rfl, hrole⟩] at hlen
        rcases hm : m.get a.stepId.value with _ | b
        · rfl
        · rw [hm] at hlen
          simp at hlen
      rw [if_neg (by simp [hnone])]
      refine exists_collectPrimaries hread.2 fun k => ?_
      have hlen := hone k
      rw [primariesOf_cons] at hlen
      rw [OrdMap.get_alter]
      by_cases hk : k = a.stepId.value
      · rw [if_pos ⟨hk.symm, hrole⟩, hk, hnone] at hlen
        simpa [hk] using hlen
      · rw [if_neg fun h => hk h.1.symm] at hlen
        rwa [if_neg hk]
    next hrole =>
      rw [if_neg (by simp [hread.1 (by simp [hrole])])]
      refine exists_collectPrimaries hread.2 fun k => ?_
      have hlen := hone k
      rwa [primariesOf_cons, if_neg fun h => by simp [hrole] at h] at hlen

/-! ### Steps and their bindings -/

/-- A step is bound: it has one primary action, which it names and which does no more than it
declares, and every action of the step has a binding. -/
structure Binds (actions : List PrivateActionRecord) (step : PublicFlashStep)
    (r : BoundStep × List ActionDigestBinding) : Prop where
  step_eq : r.1.step = step
  primary : primariesOf actions step.stepId.value = [r.1.primary]
  digest : r.1.primary.digest = .ok step.privateActionDigest
  checked : checkPrimary step r.1.primary = .ok ()
  bindings : ∃ others, List.Forall₂ (fun a b => bindAction step a = .ok b)
    (subActionsOf actions step.stepId.value) others ∧
    r.2 = ⟨step.stepId, r.1.primary.actionId, .primaryEffect, step.privateActionDigest⟩ :: others

variable {r : BoundStep × List ActionDigestBinding}

theorem bindStep_eq_ok {m : OrdMap String PrivateActionRecord} {step : PublicFlashStep}
    (hm : (m.get step.stepId.value).toList = primariesOf plan.actions step.stepId.value) :
    bindStep plan m step = .ok r ↔ Binds plan.actions step r := by
  unfold bindStep
  constructor
  · intro h
    split at h
    · contradiction
    next primary hget =>
      obtain ⟨d, hd, h⟩ := bind_eq_ok.mp h
      split_ifs at h with hsame
      obtain ⟨_, hcheck, h⟩ := bind_eq_ok.mp h
      obtain ⟨others, hothers, h⟩ := bind_eq_ok.mp h
      obtain rfl := Except.ok.inj h
      obtain rfl : d = step.privateActionDigest := not_not.mp hsame
      rw [subActionsOf_eq] at hothers
      rw [hget] at hm
      exact ⟨rfl, hm.symm, mapError_eq_ok.mp hd, hcheck, others, mapM_eq_ok.mp hothers, rfl⟩
  · rintro ⟨rfl, hprimary, hdigest, hcheck, others, hothers, hr⟩
    rw [hprimary] at hm
    have hget : m.get r.1.step.stepId.value = some r.1.primary := by
      rcases hg : m.get r.1.step.stepId.value with _ | b
      · rw [hg] at hm
        cases hm
      · rw [hg] at hm
        rw [List.head_eq_of_cons_eq hm]
    simp only [hget]
    refine bind_eq_ok.mpr ⟨_, mapError_eq_ok.mpr hdigest, ?_⟩
    rw [if_neg (not_not.mpr rfl), hcheck]
    refine bind_eq_ok.mpr ⟨(), rfl, bind_eq_ok.mpr ⟨others, ?_, ?_⟩⟩
    · rw [subActionsOf_eq]
      exact mapM_eq_ok.mpr hothers
    · rw [← hr]
      rfl

/-- The actions of a plan whose steps are distinct: their ids are distinct, their steps exist, and
only a primary action has an effect. -/
structure Filed (steps : List PublicFlashStep) (actions : List PrivateActionRecord) : Prop where
  nodup : (actions.map (·.actionId)).Nodup
  step : ∀ a ∈ actions, ∃ s ∈ steps, s.stepId = a.stepId
  readOnly : ∀ a ∈ actions, a.role ≠ .primaryEffect → a.effectClass = .readOnly

variable {bound : List (BoundStep × List ActionDigestBinding)}

theorem bindSteps_eq_ok : bindSteps steps plan = .ok bound ↔
      steps ≠ [] ∧ (steps.map (·.stepId)).Nodup ∧ (∀ s ∈ steps, s.validateSelfConsistent = .ok ()) ∧
        Filed steps plan.actions ∧ List.Forall₂ (Binds plan.actions) steps bound := by
  unfold bindSteps
  constructor
  · intro h
    split_ifs at h with hempty
    obtain ⟨seenSteps, hsteps, h⟩ := bind_eq_ok.mp h
    obtain ⟨_, hactions, h⟩ := bind_eq_ok.mp h
    obtain ⟨m, hprimaries, h⟩ := bind_eq_ok.mp h
    obtain ⟨-, hnodup, hself⟩ := checkSteps_eq_ok.mp ⟨_, hsteps⟩
    obtain ⟨hfiled, hids⟩ := checkActions_eq_ok.mp hactions
    obtain ⟨hread, hget⟩ := collectPrimaries_spec hprimaries
    have hm : ∀ k, (m.get k).toList = primariesOf plan.actions k := fun k => by simpa using hget k
    refine ⟨hempty, hnodup, hself, ⟨hids, fun a ha => ?_, hread⟩, ?_⟩
    · rcases (mem_checkSteps hsteps _).mp (hfiled a ha).2 with hseen | ⟨s, hs, hid⟩
      · simp at hseen
      · exact ⟨s, hs, OpaqueId.ext hid⟩
    · exact (mapM_eq_ok.mp h).imp fun s r hr => (bindStep_eq_ok (hm _)).mp hr
  · rintro ⟨hempty, hnodup, hself, hfiled, hbinds⟩
    obtain ⟨seenSteps, hsteps⟩ := checkSteps_eq_ok.mpr ⟨fun s _ => List.not_mem_nil, hnodup, hself⟩
    have hactions : checkActions seenSteps [] plan.actions = .ok () := by
      refine checkActions_eq_ok.mpr ⟨fun a ha => ⟨List.not_mem_nil, ?_⟩, hfiled.nodup⟩
      obtain ⟨s, hs, hid⟩ := hfiled.step a ha
      exact (mem_checkSteps hsteps _).mpr (.inr ⟨s, hs, by rw [hid]⟩)
    have hone : ∀ k, (((OrdMap.empty : OrdMap String PrivateActionRecord).get k).toList ++
        primariesOf plan.actions k).length ≤ 1 := by
      intro k
      rcases hk : primariesOf plan.actions k with _ | ⟨a, rest⟩
      · simp
      · have ha : a ∈ primariesOf plan.actions k := hk ▸ List.mem_cons_self
        obtain ⟨hmem, hid, -⟩ := mem_primariesOf.mp ha
        obtain ⟨s, hs, hstep⟩ := hfiled.step a hmem
        obtain ⟨r, -, hr⟩ := exists_of_forall₂ hbinds hs
        have hprimary := hr.primary
        rw [hstep, hid, hk] at hprimary
        simp [List.tail_eq_of_cons_eq hprimary]
    obtain ⟨m, hprimaries⟩ := exists_collectPrimaries hfiled.readOnly hone
    have hget := (collectPrimaries_spec hprimaries).2
    have hm : ∀ k, (m.get k).toList = primariesOf plan.actions k := fun k => by simpa using hget k
    rw [if_neg hempty]
    refine bind_eq_ok.mpr ⟨_, hsteps, bind_eq_ok.mpr ⟨_, hactions, bind_eq_ok.mpr ⟨_, hprimaries, ?_⟩⟩⟩
    exact mapM_eq_ok.mpr (hbinds.imp fun s r hr => (bindStep_eq_ok (hm _)).mpr hr)

theorem bindSteps_projected (h : bindSteps steps plan = .ok bound) :
    Projected steps plan (bound.map (·.1)) := by
  obtain ⟨-, hnodup, hself, hfiled, hbinds⟩ := bindSteps_eq_ok.mp h
  refine ⟨?_, hnodup, hself, ?_, fun a ha => ?_⟩
  · rw [List.map_map, ← List.forall₂_eq_eq_eq, List.forall₂_map_left_iff]
    exact hbinds.flip.imp fun _ _ hr => hr.step_eq
  · rw [List.forall_mem_map]
    intro r hr
    obtain ⟨s, -, rfl, hprimary, -, hchecked, -⟩ := exists_of_forall₂ hbinds.flip hr
    obtain ⟨hmem, hid, hrole⟩ := mem_primariesOf.mp (hprimary ▸ List.mem_singleton_self _)
    exact ⟨hmem, hrole, OpaqueId.ext hid, hchecked⟩
  · by_cases hrole : a.role = .primaryEffect
    · obtain ⟨s, hs, hid⟩ := hfiled.step a ha
      obtain ⟨r, hr, hb⟩ := exists_of_forall₂ hbinds hs
      have hmem : a ∈ [r.1.primary] := hb.primary ▸ mem_primariesOf.mpr ⟨ha, by rw [hid], hrole⟩
      exact .inl ⟨hrole, r.1, List.mem_map_of_mem hr, (List.mem_singleton.mp hmem).symm⟩
    · refine .inr ⟨?_, hfiled.readOnly a ha hrole⟩
      cases hr : a.role with
      | primaryEffect => exact absurd hr hrole
      | readOnlyTransportSubAction => rfl

/-- A step and its one action that pass the checks before the effects. -/
structure Paired (b : BoundStep) : Prop where
  consistent : b.step.validateSelfConsistent = .ok ()
  role : b.primary.role = .primaryEffect
  stepId : b.primary.stepId = b.step.stepId
  checked : checkPrimary b.step b.primary = .ok ()
  digest : b.primary.digest = .ok b.step.privateActionDigest

/-- The checks before the effects, where every step has one action. -/
theorem bindSteps_paired (pairs : List BoundStep) (hne : pairs ≠ [])
    (hpaired : ∀ b ∈ pairs, Paired b) (hsteps : (pairs.map (·.step.stepId)).Nodup)
    (hactions : (pairs.map (·.primary.actionId)).Nodup) :
    bindSteps (pairs.map (·.step)) ⟨pairs.map (·.primary)⟩ = .ok (pairs.map fun b =>
      (b, [⟨b.step.stepId, b.primary.actionId, .primaryEffect, b.step.privateActionDigest⟩])) := by
  have hrole : ∀ a ∈ pairs.map (·.primary), a.role = .primaryEffect :=
    List.forall_mem_map.mpr fun b hb => (hpaired b hb).role
  refine bindSteps_eq_ok.mpr ⟨by simpa using hne, by rwa [List.map_map],
    List.forall_mem_map.mpr fun b hb => (hpaired b hb).consistent, ⟨by rwa [List.map_map],
      List.forall_mem_map.mpr fun b hb => ⟨_, List.mem_map_of_mem hb, (hpaired b hb).stepId.symm⟩,
      fun a ha hnot => absurd (hrole a ha) hnot⟩, ?_⟩
  rw [List.forall₂_map_left_iff, List.forall₂_map_right_iff, List.forall₂_same]
  intro b hb
  refine ⟨rfl, ?_, (hpaired b hb).digest, (hpaired b hb).checked, [], ?_, rfl⟩
  · -- the step is the only one with its id
    have hnodup : (primariesOf (pairs.map (·.primary)) b.step.stepId.value).Nodup :=
      List.Nodup.filter _ (List.Nodup.of_map _ (by rwa [List.map_map]))
    refine List.perm_singleton.mp ((List.perm_ext_iff_of_nodup hnodup (List.nodup_singleton _)).mpr
      fun a => ?_)
    rw [mem_primariesOf, List.mem_singleton]
    constructor
    · rintro ⟨ha, hid, -⟩
      obtain ⟨c, hc, rfl⟩ := List.mem_map.mp ha
      have heq : c.step.stepId = b.step.stepId :=
        (hpaired c hc).stepId ▸ OpaqueId.ext hid
      rw [List.inj_on_of_nodup_map hsteps hc hb heq]
    · rintro rfl
      exact ⟨List.mem_map_of_mem hb, by rw [(hpaired b hb).stepId], (hpaired b hb).role⟩
  · rw [show subActionsOf (pairs.map (·.primary)) b.step.stepId.value = [] from
      List.filter_eq_nil_iff.mpr fun a ha => by simp [hrole a ha]]
    exact .nil

/-! ### The projection as a whole -/

theorem projectionDigests_perAction {perAction : List ActionDigestBinding}
    (h : projectionDigests perAction = .ok p) : p.perAction = perAction := by
  obtain ⟨bytes, -, h⟩ := bind_eq_ok.mp h
  rw [← Except.ok.inj h]

/-- **When a private plan is accepted**, and with which digests. -/
theorem validateProjection_eq_ok : validateProjection steps plan effectSet = .ok p ↔
      ∃ bound, bindSteps steps plan = .ok bound ∧
        validateEffectCoverage (bound.map (·.1)) effectSet = .ok () ∧
        projectionDigests (bound.flatMap (·.2)) = .ok p := by
  simp only [validateProjection, bind_eq_ok]
  constructor
  · rintro ⟨bound, hbound, _, hcover, hp⟩
    exact ⟨bound, hbound, hcover, hp⟩
  · rintro ⟨bound, hbound, hcover, hp⟩
    exact ⟨bound, hbound, (), hcover, hp⟩

variable {b : ActionDigestBinding}

theorem bindAction_eq_ok (h : bindAction s a = .ok b) :
    b.stepId = s.stepId ∧ a.digest = .ok b.privateActionDigest := by
  obtain ⟨d, hd, h⟩ := bind_eq_ok.mp h
  obtain rfl := Except.ok.inj h
  exact ⟨rfl, mapError_eq_ok.mp hd⟩

theorem Binds.stepId (h : Binds actions s r) : ∀ b ∈ r.2, b.stepId = s.stepId := by
  obtain ⟨others, hothers, hr⟩ := h.bindings
  rw [hr, List.forall_mem_cons]
  refine ⟨rfl, fun b hb => ?_⟩
  obtain ⟨a, -, ha⟩ := exists_of_forall₂ hothers.flip hb
  exact (bindAction_eq_ok ha).1

theorem filter_bindings (h : List.Forall₂ (Binds actions) steps bound)
    (hnodup : (steps.map (·.stepId)).Nodup) : ∀ s ∈ steps, ∃ r, Binds actions s r ∧
      (bound.flatMap (·.2)).filter (fun b => b.stepId = s.stepId) = r.2 := by
  induction h with
  | nil => simp
  | @cons s r steps bound hr hrest ih =>
    rw [List.map_cons, List.nodup_cons] at hnodup
    -- the bindings of the other steps carry other ids
    have hother : ∀ b ∈ bound.flatMap (·.2), ∃ s' ∈ steps, b.stepId = s'.stepId := by
      intro b hb
      obtain ⟨r', hr', hb⟩ := List.mem_flatMap.mp hb
      obtain ⟨s', hs', hbinds⟩ := exists_of_forall₂ hrest.flip hr'
      exact ⟨s', hs', hbinds.stepId b hb⟩
    intro s' hs'
    rw [List.flatMap_cons, List.filter_append]
    rcases List.mem_cons.mp hs' with rfl | hs'
    · refine ⟨r, hr, ?_⟩
      have hall : r.2.filter (fun b => b.stepId = s'.stepId) = r.2 :=
        List.filter_eq_self.mpr fun b hb => decide_eq_true (hr.stepId b hb)
      have hnone : (bound.flatMap (·.2)).filter (fun b => b.stepId = s'.stepId) = [] := by
        refine List.filter_eq_nil_iff.mpr fun b hb hid => ?_
        obtain ⟨t, ht, hbt⟩ := hother b hb
        exact hnodup.1 (List.mem_map.mpr ⟨t, ht, hbt.symm.trans (of_decide_eq_true hid)⟩)
      rw [hall, hnone, List.append_nil]
    · obtain ⟨r', hr', hfilter⟩ := ih hnodup.2 s' hs'
      refine ⟨r', hr', ?_⟩
      have hnone : r.2.filter (fun b => b.stepId = s'.stepId) = [] := by
        refine List.filter_eq_nil_iff.mpr fun b hb hid => ?_
        have hsame : s.stepId = s'.stepId := (hr.stepId b hb).symm.trans (of_decide_eq_true hid)
        exact hnodup.1 (List.mem_map.mpr ⟨s', hs', hsame.symm⟩)
      rw [hnone, List.nil_append, hfilter]

/-! ### Plans with the same actions -/

/-- Two actions differ at most in bodies that have one digest. -/
structure Like (a a' : PrivateActionRecord) : Prop where
  actionId : a'.actionId = a.actionId
  role : a'.role = a.role
  effectClass : a'.effectClass = a.effectClass
  declaredTarget : a'.declaredTarget = a.declaredTarget
  declaredRange : a'.declaredRange = a.declaredRange
  contentDigest : a'.contentDigest = a.contentDigest
  digest : ∀ d, a.digest = .ok d → a'.digest = .ok d

theorem Like.refl (a : PrivateActionRecord) : Like a a :=
  ⟨rfl, rfl, rfl, rfl, rfl, rfl, fun _ h => h⟩

variable {a' : PrivateActionRecord}

theorem Like.checkPrimary (h : Like a a') (s : PublicFlashStep) :
    checkPrimary s a' = checkPrimary s a := by
  unfold Projection.checkPrimary
  rw [h.effectClass, h.declaredTarget, h.contentDigest, h.actionId]

theorem Like.bindAction (h : Like a a') (hb : bindAction s a = .ok b) :
    bindAction s a' = .ok b := by
  obtain ⟨d, hd, hb⟩ := bind_eq_ok.mp hb
  refine bind_eq_ok.mpr ⟨d, mapError_eq_ok.mpr (h.digest d (mapError_eq_ok.mp hd)), ?_⟩
  rw [h.actionId, h.role]
  exact hb

theorem bindActions_like {l l' : List PrivateActionRecord} {bs : List ActionDigestBinding}
    (hl : List.Forall₂ Like l l') (h : List.Forall₂ (fun a b => bindAction s a = .ok b) l bs) :
    List.Forall₂ (fun a b => bindAction s a = .ok b) l' bs := by
  induction hl generalizing bs with
  | nil => exact h
  | cons ha _ ih =>
    obtain _ | ⟨hb, hbs⟩ := h
    exact .cons (ha.bindAction hb) (ih hbs)

/-- Of the primary action, coverage reads the declared range only. -/
theorem claimStep_congr {claims : Claims} {b b' : BoundStep} (hstep : b'.step = b.step)
    (hrange : b'.primary.declaredRange = b.primary.declaredRange) :
    claimStep effectSet claims b' = claimStep effectSet claims b := by
  have hmatch : ∀ effect target, persistentEffectMatches effect b'.step target b'.primary =
      persistentEffectMatches effect b.step target b.primary := by
    intro effect target
    unfold persistentEffectMatches persistentEffectMatches.inRange
    rw [hstep, hrange]
  unfold claimStep
  simp only [hmatch]
  rw [hstep]

theorem claimSteps_congr {bound bound' : List BoundStep}
    (h : List.Forall₂ (fun b b' => b'.step = b.step ∧
      b'.primary.declaredRange = b.primary.declaredRange) bound bound') :
    ∀ claims, claimSteps effectSet claims bound' = claimSteps effectSet claims bound := by
  induction h with
  | nil => exact fun _ => rfl
  | cons hb _ ih =>
    intro claims
    simp only [claimSteps, claimStep_congr hb.1 hb.2, ih]

/-- **A plan whose steps have the same actions is accepted with the same digests.** -/
theorem validateProjection_transfer {plan' : StoredProviderPlan}
    (hfiled : Filed steps plan'.actions)
    (hprimary : ∀ s ∈ steps, List.Forall₂ Like (primariesOf plan.actions s.stepId.value)
      (primariesOf plan'.actions s.stepId.value))
    (hsub : ∀ s ∈ steps, List.Forall₂ Like (subActionsOf plan.actions s.stepId.value)
      (subActionsOf plan'.actions s.stepId.value))
    (h : validateProjection steps plan effectSet = .ok p) :
    validateProjection steps plan' effectSet = .ok p := by
  obtain ⟨bound, hbound, hcover, hp⟩ := validateProjection_eq_ok.mp h
  obtain ⟨hempty, hnodup, hself, -, hbinds⟩ := bindSteps_eq_ok.mp hbound
  -- step by step, the same bindings around a primary action that is like the old one
  have hstep : ∀ s ∈ steps, ∀ r, Binds plan.actions s r → ∃ r', Binds plan'.actions s r' ∧
      r'.2 = r.2 ∧ r'.1.step = r.1.step ∧
      r'.1.primary.declaredRange = r.1.primary.declaredRange := by
    rintro s hs r ⟨rfl, hone, hdigest, hcheck, others, hothers, hr⟩
    have hlike := hprimary _ hs
    rw [hone] at hlike
    obtain ⟨primary', rest, hlike, hrest, hone'⟩ := List.forall₂_cons_left_iff.mp hlike
    rw [List.forall₂_nil_left_iff.mp hrest] at hone'
    refine ⟨⟨⟨r.1.step, primary'⟩, r.2⟩, ⟨rfl, hone', hlike.digest _ hdigest, ?_, others,
      bindActions_like (hsub _ hs) hothers, ?_⟩, rfl, rfl, hlike.declaredRange⟩
    · exact (hlike.checkPrimary _).trans hcheck
    · rw [hr, hlike.actionId]
  have hall : ∀ {l : List PublicFlashStep} {bs : List (BoundStep × List ActionDigestBinding)},
      (∀ s ∈ l, s ∈ steps) → List.Forall₂ (Binds plan.actions) l bs →
      ∃ bs', List.Forall₂ (Binds plan'.actions) l bs' ∧ bs'.flatMap (·.2) = bs.flatMap (·.2) ∧
        List.Forall₂ (fun b b' => b'.step = b.step ∧
          b'.primary.declaredRange = b.primary.declaredRange) (bs.map (·.1)) (bs'.map (·.1)) := by
    intro l bs hl hbs
    induction hbs with
    | nil => exact ⟨[], .nil, rfl, .nil⟩
    | @cons s r l bs hr _ ih =>
      obtain ⟨bs', hbs', hflat, hranges⟩ := ih fun s hs => hl s (List.mem_cons_of_mem _ hs)
      obtain ⟨r', hr', hbindings, hsame⟩ := hstep s (hl s List.mem_cons_self) r hr
      exact ⟨r' :: bs', .cons hr' hbs', by rw [List.flatMap_cons, List.flatMap_cons, hbindings, hflat],
        .cons hsame hranges⟩
  obtain ⟨bound', hbinds', hflat, hranges⟩ := hall (fun s hs => hs) hbinds
  refine validateProjection_eq_ok.mpr ⟨bound', ?_, ?_, ?_⟩
  · exact bindSteps_eq_ok.mpr ⟨hempty, hnodup, hself, hfiled, hbinds'⟩
  · unfold validateEffectCoverage at hcover ⊢
    rw [claimSteps_congr hranges]
    exact hcover
  · rw [hflat]
    exact hp

end ArkForge.Core.ProjectionSpec
