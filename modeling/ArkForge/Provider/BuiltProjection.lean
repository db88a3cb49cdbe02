import ArkForge.Core.Coverage
import ArkForge.Provider.LoweringSpec

/-! # The projection of a built plan

A built plan passes the checks of its projection: every step has its own primary action, which does
no more than the step declares, and the steps and the declared effects claim each other. -/

namespace ArkForge.Provider.BuiltProjection

open Lib.Result Lib.Matching
open Core.CborMap Core.Digest Core.Ids
open Core.Effect Core.FlashStep Core.Projection
open Core.ProjectionSpec Core.Coverage Core.Profile
open Lowering LoweringSpec

/-! ### Steps and their actions -/

variable {l : Lowered}

theorem filter_actions {ls : List Lowered} (hls : ls.Pairwise Distinct)
    (hnumbered : ∀ l ∈ ls, ∃ n, Numbered n l) (hl : l ∈ ls) :
    (ls.flatMap (·.actions)).filter (fun a => a.stepId.value = l.stepId.value) = l.actions := by
  have hown : ∀ m ∈ ls, m.actions.filter (fun a => decide (a.stepId.value = l.stepId.value)) =
      if m.stepId = l.stepId then m.actions else [] := by
    intro m hm
    obtain ⟨n, hn⟩ := hnumbered m hm
    split_ifs with hsame
    · refine List.filter_eq_self.mpr fun a ha => ?_
      rw [hn.stepId_of_mem ha, hsame]
      exact decide_eq_true rfl
    · refine List.filter_eq_nil_iff.mpr fun a ha => ?_
      rw [hn.stepId_of_mem ha, decide_eq_true_eq]
      exact fun h => hsame (OpaqueId.ext h)
  rw [List.filter_flatMap]
  induction ls with
  | nil => cases hl
  | cons m ls ih =>
    obtain ⟨hfirst, hrest⟩ := List.pairwise_cons.mp hls
    rw [List.flatMap_cons, hown m List.mem_cons_self]
    rcases List.mem_cons.mp hl with rfl | hl
    · rw [if_pos rfl, List.append_right_eq_self, List.flatMap_eq_nil_iff]
      intro m hm
      rw [hown m (List.mem_cons_of_mem _ hm), if_neg (hfirst m hm).stepId.symm]
    · rw [if_neg (hfirst l hl).stepId]
      exact ih hrest (fun l hl => hnumbered l (List.mem_cons_of_mem _ hl)) hl
        fun m hm => hown m (List.mem_cons_of_mem _ hm)

theorem Numbered.subs_role {n : ℕ} (h : Numbered n l) {a : PrivateActionRecord}
    (ha : a ∈ l.subs) : a.role = .readOnlyTransportSubAction ∧ a.effectClass = .readOnly := by
  obtain ⟨-, hnil⟩ | ⟨body, id, -, -, hsubs⟩ := h.subs
  · rw [hnil] at ha
    cases ha
  · rw [hsubs, List.mem_singleton] at ha
    rw [ha]
    exact ⟨rfl, rfl⟩

section

variable {ls : List Lowered} (hls : ls.Pairwise Distinct) (hnumbered : ∀ l ∈ ls, ∃ n, Numbered n l)
  {l : Lowered} (hl : l ∈ ls)

include hls hnumbered hl

theorem primariesOf_lowered :
    primariesOf (ls.flatMap (·.actions)) l.stepId.value = [l.primary] := by
  obtain ⟨n, hn⟩ := hnumbered l hl
  have hsubs : l.subs.filter (fun a => decide (a.role = .primaryEffect)) = [] :=
    List.filter_eq_nil_iff.mpr fun a ha => by simp [(Numbered.subs_role hn ha).1]
  have hsplit : primariesOf (ls.flatMap (·.actions)) l.stepId.value =
      l.actions.filter fun a => decide (a.role = .primaryEffect) := by
    rw [← filter_actions hls hnumbered hl, List.filter_filter, primariesOf]
    simp only [Bool.decide_and, Bool.and_comm]
  rw [hsplit, Lowered.actions, List.filter_append, hsubs]
  rfl

theorem subActionsOf_lowered :
    subActionsOf (ls.flatMap (·.actions)) l.stepId.value = l.subs := by
  obtain ⟨n, hn⟩ := hnumbered l hl
  have hsubs : l.subs.filter (fun a => decide (a.role ≠ .primaryEffect)) = l.subs :=
    List.filter_eq_self.mpr fun a ha => by simp [(Numbered.subs_role hn ha).1]
  have hsplit : subActionsOf (ls.flatMap (·.actions)) l.stepId.value =
      l.actions.filter fun a => decide (a.role ≠ .primaryEffect) := by
    rw [← filter_actions hls hnumbered hl, List.filter_filter, subActionsOf]
    simp only [Bool.decide_and, Bool.and_comm]
  rw [hsplit, Lowered.actions, List.filter_append, hsubs, List.append_right_eq_self]
  rfl

end

/-! ### Drafts -/

/-- A draft makes a step that is consistent, and an action that does no more than the step. -/
structure Sound (d : Draft) : Prop where
  consistent : ∀ stepId digest, (d.step stepId digest).validateSelfConsistent = .ok ()
  primary : ∀ stepId actionId digest,
    checkPrimary (d.step stepId digest).toPublicFlashStep (d.primary stepId actionId) = .ok ()
  sub : ∀ body, d.subAction = some body → ∃ bytes, body.toCanonicalBytes = .ok bytes

theorem sound_ensureMode (normal loader : DeviceMode) : Sound (ensureMode normal loader) :=
  ⟨fun _ _ => rfl, fun _ _ _ => rfl, by simp [ensureMode]⟩

theorem sound_probeDevice (loader : DeviceMode) : Sound (probeDevice loader) :=
  ⟨fun _ _ => rfl, fun _ _ _ => rfl, by simp [probeDevice]⟩

theorem sound_validateLayout (loader : DeviceMode) (layout : Sha256Digest) :
    Sound (validateLayout loader layout) :=
  ⟨fun _ _ => rfl, fun _ _ _ => rfl, by simp [validateLayout]⟩

theorem sound_reboot (loader normal : DeviceMode) : Sound (reboot loader normal) :=
  ⟨fun _ _ => rfl, fun _ _ _ => rfl, by simp [reboot]⟩

theorem sound_postflightProbe (normal : DeviceMode) (facts : List (OpaqueId × String)) :
    Sound (postflightProbe normal facts) :=
  ⟨fun _ _ => rfl, fun _ _ _ => rfl, by simp [postflightProbe]⟩

theorem sound_writeTarget (loader : DeviceMode) (r : ResolvedTarget) :
    Sound (writeTarget loader r) where
  consistent _ _ := rfl
  primary _ _ _ := by
    have hleast : ¬ WorkflowEffect.destructive < .destructive := by decide
    simp [checkPrimary, writeTarget, Draft.step, Draft.primary, hleast]
  sub := by simp [writeTarget]

theorem sound_verifyTarget (profile : DeviceProfile) (loader : DeviceMode) (r : ResolvedTarget) :
    Sound (verifyTarget profile loader r) where
  consistent _ _ := rfl
  primary _ _ _ := by
    have hleast : ¬ WorkflowEffect.readOnly < .readOnly := by decide
    simp [checkPrimary, verifyTarget, Draft.step, Draft.primary, hleast]
  sub := by
    rintro body ⟨⟩
    exact textMap_encodes.mpr (by simp)

theorem sound_of_mem {request : MaterializeRequest} {p : Blueprint} :
    ∀ d ∈ p.workflow request, Sound d :=
  p.forall_mem_workflow request (sound_ensureMode _ _) (sound_probeDevice _)
    (sound_validateLayout _ _) (fun r _ => sound_writeTarget _ r)
    (fun r _ => sound_verifyTarget _ _ r) (sound_reboot _ _) (sound_postflightProbe _ _)

/-! ### The bindings -/

def Lowered.bound (l : Lowered) : BoundStep := ⟨l.step.toPublicFlashStep, l.primary⟩

/-- Steps that a plan can consist of: they are numbered, and their drafts are sound. -/
structure Laid (ls : List Lowered) : Prop where
  pairwise : ls.Pairwise Distinct
  numbered : ∀ l ∈ ls, ∃ n, Numbered n l
  sound : ∀ l ∈ ls, Sound l.draft

namespace Laid

variable {ls : List Lowered}

theorem exists_binds (h : Laid ls) (hl : l ∈ ls) :
    ∃ bindings, Binds (ls.flatMap (·.actions)) l.step.toPublicFlashStep
      (Lowered.bound l, bindings) := by
  obtain ⟨n, hn⟩ := h.numbered l hl
  have hsound := h.sound l hl
  have hothers : ∃ others, List.Forall₂ (fun a b => bindAction l.step.toPublicFlashStep a = .ok b)
      l.subs others := by
    obtain ⟨-, hnil⟩ | ⟨body, id, hsub, -, hsubs⟩ := hn.subs
    · exact ⟨[], hnil ▸ .nil⟩
    · have hdigest : ∃ d, (Draft.sub l.stepId id body).digest = .ok d :=
        PrivateActionRecord.exists_digest (hsound.sub body hsub)
      obtain ⟨d, hd⟩ := hdigest
      rw [hsubs]
      exact ⟨[_], .cons (bind_eq_ok.mpr ⟨d, mapError_eq_ok.mpr hd, rfl⟩) .nil⟩
  obtain ⟨others, hothers⟩ := hothers
  refine ⟨⟨l.stepId, l.actionId, .primaryEffect, l.digest⟩ :: others, rfl, ?_, hn.digest,
    hsound.primary _ _ _, others, ?_, rfl⟩
  · exact primariesOf_lowered h.pairwise h.numbered hl
  · exact (subActionsOf_lowered h.pairwise h.numbered hl).symm ▸ hothers

theorem nodup_steps (h : Laid ls) :
    ((ls.map (·.step.toPublicFlashStep)).map (·.stepId)).Nodup := by
  rw [List.map_map]
  exact List.pairwise_map.mpr (h.pairwise.imp fun hd => hd.stepId)

theorem filed (h : Laid ls) :
    Filed (ls.map (·.step.toPublicFlashStep)) (ls.flatMap (·.actions)) where
  nodup := by
    rw [List.map_flatMap]
    refine List.nodup_flatMap.mpr ⟨fun l hl => ?_, ?_⟩
    · obtain ⟨n, hn⟩ := h.numbered l hl
      exact hn.nodup_actions
    · refine h.pairwise.imp fun hd => ?_
      intro id hid hid'
      obtain ⟨a, ha, rfl⟩ := List.mem_map.mp hid
      obtain ⟨b, hb, heq⟩ := List.mem_map.mp hid'
      exact hd.actionId ha hb heq.symm
  step a ha := by
    obtain ⟨l, hl, ha⟩ := List.mem_flatMap.mp ha
    obtain ⟨n, hn⟩ := h.numbered l hl
    exact ⟨l.step.toPublicFlashStep, List.mem_map_of_mem hl, (hn.stepId_of_mem ha).symm⟩
  readOnly a ha hrole := by
    obtain ⟨l, hl, ha⟩ := List.mem_flatMap.mp ha
    obtain ⟨n, hn⟩ := h.numbered l hl
    rcases List.mem_append.mp ha with hsub | hprimary
    · exact (Numbered.subs_role hn hsub).2
    · rw [List.mem_singleton.mp hprimary] at hrole
      exact absurd rfl hrole

theorem exists_bindSteps (h : Laid ls) (hne : ls ≠ []) :
    ∃ bindings, bindSteps (ls.map (·.step.toPublicFlashStep)) ⟨ls.flatMap (·.actions)⟩ =
      .ok bindings ∧ bindings.map (·.1) = ls.map Lowered.bound := by
  choose! f hf using fun l hl => h.exists_binds (l := l) hl
  refine ⟨ls.map fun l => (Lowered.bound l, f l), bindSteps_eq_ok.mpr ⟨?_, h.nodup_steps, ?_,
    h.filed, ?_⟩, ?_⟩
  · simpa using hne
  · intro s hs
    obtain ⟨l, hl, rfl⟩ := List.mem_map.mp hs
    exact (h.sound l hl).consistent _ _
  · rw [List.forall₂_map_left_iff, List.forall₂_map_right_iff, List.forall₂_same]
    exact hf
  · rw [List.map_map]
    rfl

end Laid

section

variable {request : MaterializeRequest} {p : Blueprint} {built : BuiltPlan}

/-- An action of a built plan is the primary action of a step, or the one in front of it. -/
theorem action_cases (h : Follows request p built) {a : PrivateActionRecord}
    (ha : a ∈ built.privatePlan.actions) : ∃ l ∈ p.lowered, a = l.primary ∨
      ∃ body id, l.draft.subAction = some body ∧ a = Draft.sub l.stepId id body := by
  rw [h.actions] at ha
  obtain ⟨l, hl, ha⟩ := List.mem_flatMap.mp ha
  refine ⟨l, hl, ?_⟩
  rcases List.mem_append.mp ha with hsub | hprimary
  · obtain ⟨n, hn⟩ := h.exists_number l hl
    obtain ⟨-, hnil⟩ | ⟨body, id, hbody, -, hsubs⟩ := hn.subs
    · rw [hnil] at hsub
      cases hsub
    · rw [hsubs, List.mem_singleton] at hsub
      exact .inr ⟨body, id, hbody, hsub⟩
  · exact .inl (List.mem_singleton.mp hprimary)

theorem laid (h : Follows request p built) : Laid p.lowered :=
  ⟨h.pairwise, h.exists_number, fun l hl => sound_of_mem l.draft (h.draft_mem hl)⟩

theorem lowered_ne_nil (h : Follows request p built) : p.lowered ≠ [] := by
  intro hnil
  have hdrafts := h.drafts
  simp [hnil, Blueprint.workflow, Blueprint.closing] at hdrafts

/-! ### The effects -/

theorem filter_workflow_writes :
    (p.workflow request).filter (fun d => decide (d.kind = .writeTarget ∨ d.kind = .eraseTarget)) =
      p.targets.map (writeTarget p.loader) := by
  unfold Blueprint.workflow Blueprint.opening Blueprint.closing
  split_ifs <;> simp [List.filter_map, ensureMode, probeDevice, validateLayout, reboot,
    postflightProbe, writeTarget, verifyTarget, Function.comp_def]

theorem filter_workflow_moves :
    (p.workflow request).filter
        (fun d => decide (d.kind = .ensureMode ∨ d.kind = .reboot ∨ d.kind = .loadEphemeralAgent)) =
      (if p.startsInLoader request then [] else [ensureMode p.normal p.loader]) ++
        [reboot p.loader p.normal] := by
  unfold Blueprint.workflow Blueprint.opening Blueprint.closing
  split_ifs <;> simp [List.filter_map, ensureMode, probeDevice, validateLayout, reboot,
    postflightProbe, writeTarget, verifyTarget, Function.comp_def]

/-- The steps of one sort are those of the drafts of that sort. -/
theorem forall₂_filter (h : Follows request p built) {β : Type} {sort : Draft → Bool}
    {f : β → Draft} {bs : List β} (hsort : (p.workflow request).filter sort = bs.map f) :
    List.Forall₂ (fun l b => l.draft = f b) (p.lowered.filter fun l => sort l.draft) bs := by
  refine forall₂_of_map_eq ?_
  rw [← hsort, ← h.drafts, List.filter_map]
  rfl

theorem writers_lowered (ls : List Lowered) : writers (ls.map Lowered.bound) =
    (ls.filter fun l => decide (l.draft.kind = .writeTarget ∨ l.draft.kind = .eraseTarget)).map
      Lowered.bound := by
  rw [writers, List.filter_map]
  rfl

theorem movers_lowered (ls : List Lowered) : movers (ls.map Lowered.bound) =
    (ls.filter fun l => decide (l.draft.kind = .ensureMode ∨ l.draft.kind = .reboot ∨
      l.draft.kind = .loadEphemeralAgent)).map Lowered.bound := by
  rw [movers, List.filter_map]
  rfl

theorem declares_write {loader : DeviceMode} {r : ResolvedTarget}
    (h : l.draft = writeTarget loader r) : declares (Lowered.bound l) r.effect = true := by
  have hself : r.range.containsRange r.range = true := by simp [ByteRange.containsRange]
  have hrange : l.primary.declaredRange = some r.range := by
    rw [Lowered.primary, h]
    rfl
  refine declares_eq_true.mpr ⟨.partition r.target.partition, ?_, .writePartition ?_ ?_ ?_⟩
  · rw [Lowered.bound, Lowered.step, h]
    rfl
  · rw [Lowered.bound, Lowered.step, h]
    rfl
  · rw [Lowered.bound, Lowered.step, h]
    rfl
  · intro range hdeclared
    rw [← Option.some.inj (hrange.symm.trans hdeclared)]
    exact hself

theorem transient_matches {d : Draft} {e : TransientEffect} (h : l.draft = d)
    (hown : ∀ stepId digest,
      transientEffectMatches e (d.step stepId digest).toPublicFlashStep = true) :
    transientEffectMatches e (Lowered.bound l).step = true := by
  rw [Lowered.bound, Lowered.step, h]
  exact hown _ _

theorem forall₂_moves (h : Follows request p built) : List.Forall₂
    (fun (b : BoundStep) e => transientEffectMatches e b.step = true)
    (movers (p.lowered.map Lowered.bound))
    (transientEffects (p.startsInLoader request) p.normal p.loader) := by
  have henter : ∀ stepId digest, transientEffectMatches (.enterMode p.normal p.loader)
      ((ensureMode p.normal p.loader).step stepId digest).toPublicFlashStep = true := by
    simp [transientEffectMatches, ensureMode, Draft.step]
  have hreboot : ∀ stepId digest, transientEffectMatches (.reboot p.normal)
      ((reboot p.loader p.normal).step stepId digest).toPublicFlashStep = true := by
    simp [transientEffectMatches, reboot, Draft.step]
  have hmoves := forall₂_filter h (filter_workflow_moves.trans (List.map_id _).symm)
  rw [movers_lowered]
  unfold transientEffects
  generalize p.lowered.filter _ = ls at hmoves ⊢
  split_ifs at hmoves ⊢ with hstart
  · obtain _ | ⟨hlast, hnil⟩ := hmoves
    cases hnil
    exact .cons (transient_matches hlast hreboot) .nil
  · obtain _ | ⟨hfirst, hmoves⟩ := hmoves
    obtain _ | ⟨hlast, hnil⟩ := hmoves
    cases hnil
    exact .cons (transient_matches hfirst henter) (.cons (transient_matches hlast hreboot) .nil)

theorem apart_effects {rs : List ResolvedTarget} (h : (rs.map (·.target.partition)).Nodup) :
    (rs.map (·.effect)).Pairwise Apart := by
  refine List.pairwise_map.mpr ((List.pairwise_map.mp h).imp fun hne htarget => ?_)
  exact absurd (SemanticTarget.partition.inj (Option.some.inj htarget)) hne

/-- **A built plan is accepted by the projection.** -/
theorem exists_projection (h : Follows request p built)
    (hdistinct : (p.targets.map (·.target.partition)).Nodup) :
    ∃ digests, validateProjection (built.publicSteps.map (·.toPublicFlashStep)) built.privatePlan
      built.effectSet = .ok digests := by
  obtain ⟨bindings, hbind, hbound⟩ := (laid h).exists_bindSteps (lowered_ne_nil h)
  rw [h.publicSteps, List.map_map,
    show built.privatePlan = ⟨_⟩ from congrArg StoredProviderPlan.mk h.actions]
  refine validateProjection_of_binds hbind ?_
  have hwrites := forall₂_filter h filter_workflow_writes
  have htargeted : ∀ b ∈ p.lowered.map Lowered.bound, Targeted b := by
    intro b hb _
    obtain ⟨l, -, rfl⟩ := List.mem_map.mp hb
    exact ⟨_, rfl⟩
  rw [hbound, h.effects]
  refine (validateEffectCoverage_eq_ok htargeted ?_ (apart_effects hdistinct)).mpr
    ⟨perfect_of_pointwise ?_, perfect_of_pointwise (forall₂_moves h)⟩
  · intro b hb
    rw [writers_lowered] at hb
    obtain ⟨l, hl, rfl⟩ := List.mem_map.mp hb
    obtain ⟨r, -, hdraft⟩ := exists_of_forall₂ hwrites hl
    rw [Lowered.bound, Lowered.primary, hdraft]
    simp [Draft.primary, writeTarget]
  · rw [writers_lowered, List.forall₂_map_left_iff, List.forall₂_map_right_iff]
    exact hwrites.imp fun _ _ hdraft => declares_write hdraft

end

end ArkForge.Provider.BuiltProjection
