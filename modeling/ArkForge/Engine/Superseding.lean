import ArkForge.Core.Coverage
import ArkForge.Engine.Recovery

/-! # Possible effects and superseding recovery

`possibleEffects` is the union of what the actions of every unresolved permit's step may have done, as
far as that can be named; where it cannot, the set is unbounded. `assessSupersedingRecovery` decides
whether a recovery plan could cover the union. -/

namespace ArkForge.Engine.Superseding

open Core.Ids Core.Effect
open Core.Projection Core.Coverage
open Chain Recovery

/-! ### The effect of an action -/

inductive EffectBound where
  /-- Contributes nothing to the union. -/
  | none
  | persistent (effect : PersistentEffect)
  /-- The action declares an effect that cannot be named. -/
  | unbounded
  deriving DecidableEq

/-- The effect that recovery attributes to an action. -/
def effectOf (action : PrivateActionRecord) : EffectBound :=
  match action.effectClass with
  | .readOnly => .none
  | .transient | .mutating => .none
  | .destructive =>
    match action.declaredTarget, action.declaredRange with
    | some (.partition partition), some range =>
      match action.contentDigest with
      | some content => .persistent (.writePartition partition range content)
      | none => .persistent (.erasePartition partition range)
    | some (.rawRegion region), some range =>
      match action.contentDigest with
      | some content => .persistent (.writeRawRegion region range content)
      | none => .unbounded
    | _, _ => .unbounded

variable {a : PrivateActionRecord} {e : PersistentEffect}

/-- **The effect of an action is exact**: its target, its range and its content are those the action
declares. -/
theorem effectOf_persistent (h : effectOf a = .persistent e) :
    a.declaredTarget = effectTarget e ∧ a.declaredRange = e.range ∧
      a.contentDigest = effectContent e ∧
      ∃ target range, effectTarget e = some target ∧ e.range = some range := by
  unfold effectOf at h
  split at h
  · contradiction
  · contradiction
  · contradiction
  · split at h
    next htarget hrange =>
      split at h
      next hcontent =>
        obtain rfl := EffectBound.persistent.inj h
        exact ⟨htarget, hrange, hcontent, _, _, rfl, rfl⟩
      next hcontent =>
        obtain rfl := EffectBound.persistent.inj h
        exact ⟨htarget, hrange, hcontent, _, _, rfl, rfl⟩
    next htarget hrange =>
      split at h
      next hcontent =>
        obtain rfl := EffectBound.persistent.inj h
        exact ⟨htarget, hrange, hcontent, _, _, rfl, rfl⟩
      · contradiction
    · contradiction

/-! ### The union -/

inductive EffectSetCompleteness where
  | bounded
  | unbounded
  deriving DecidableEq

/-- What the unresolved actions might have done. -/
structure PossibleEffectSet where
  effects : EffectSet
  completeness : EffectSetCompleteness
  sourceActionIds : List ActionId
  deriving DecidableEq

/-- The step of the first record that names the permit and a step. -/
def stepForPermit (journal : Journal) (permitId : String) : Option String :=
  journal.records.findSome? fun record =>
    if record.facts.any fun f => f.1.value = Fact.PERMIT_ID ∧ f.2 = permitId then
      factValue record.facts Fact.STEP_ID
    else none

/-- What the loop over the unresolved permits has gathered. -/
structure Union where
  persistent : List PersistentEffect
  sourceActionIds : List ActionId
  completeness : EffectSetCompleteness

def Union.addAction (u : Union) (action : PrivateActionRecord) : Union where
  persistent :=
    match effectOf action with
    | .persistent effect =>
      if effect ∈ u.persistent then u.persistent else u.persistent ++ [effect]
    | _ => u.persistent
  sourceActionIds := u.sourceActionIds ++ [action.actionId]
  completeness :=
    match effectOf action with
    | .unbounded => .unbounded
    | _ => u.completeness

def actionsOf (plan : StoredProviderPlan) (stepId : String) : List PrivateActionRecord :=
  plan.actions.filter fun a => a.stepId.value = stepId

def Union.addPermit (journal : Journal) (plan : StoredProviderPlan) (u : Union) (permitId : String) :
    Union :=
  match stepForPermit journal permitId with
  | none => { u with completeness := .unbounded }
  | some stepId =>
    if actionsOf plan stepId = [] then { u with completeness := .unbounded }
    else (actionsOf plan stepId).foldl addAction u

/-- The union of what every unresolved action might have done. -/
def possibleEffects (journal : Journal) (plan : StoredProviderPlan) (declaredDataImpact : DataImpact) :
    PossibleEffectSet :=
  let u := (PermitLedger.fromJournal journal).unresolved.foldl (Union.addPermit journal plan)
    ⟨[], [], .bounded⟩
  let dataImpact :=
    if u.persistent = [] ∧ u.completeness = .bounded then
      ⟨.preserved, .preserved, .preserved, .preserved⟩
    else declaredDataImpact
  ⟨⟨u.persistent, [], dataImpact⟩, u.completeness, u.sourceActionIds⟩

/-! ### Eligibility -/

structure RecoveryDeclaration where
  supportsCompleteOverwrite : Bool
  coveredEffects : List OpaqueId
  unsupportedStates : List String

inductive RecoveryBlocker where
  | effectsUnbounded
  | noPublishedCoverage (unsupportedStates : List String)
  | effectOutsideCoverage (effects : List String)
  | nothingToRecover
  deriving DecidableEq

inductive SupersedingRecoveryAssessment where
  | eligible (covers : List PersistentEffect)
  | ineligible (blocker : RecoveryBlocker)
  deriving DecidableEq

/-- Only effects on a partition can be matched against the published list. -/
def covered (effect : PersistentEffect) (recovery : RecoveryDeclaration) : Bool :=
  match effect.partition with
  | none => false
  | some partition => recovery.coveredEffects.any fun c => c.value = partition.value

def describeEffect (effect : PersistentEffect) : String :=
  match effect.partition with
  | some partition => partition.value
  | none => "<non-partition effect>"

/-- The possible effects that the published recipe does not cover, as the blocker names them. -/
def uncovered (possible : PossibleEffectSet) (recovery : RecoveryDeclaration) : List String :=
  (possible.effects.persistent.filter fun e => !covered e recovery).map describeEffect

/-- Whether a distinct recovery plan could be offered. -/
def assessSupersedingRecovery (possible : PossibleEffectSet) (recovery : RecoveryDeclaration) :
    SupersedingRecoveryAssessment :=
  if possible.completeness = .unbounded then .ineligible .effectsUnbounded
  else if possible.effects.persistent = [] then .ineligible .nothingToRecover
  else if recovery.supportsCompleteOverwrite = false then
    .ineligible (.noPublishedCoverage recovery.unsupportedStates)
  else if uncovered possible recovery ≠ [] then
    .ineligible (.effectOutsideCoverage (uncovered possible recovery))
  else .eligible possible.effects.persistent

/-! ### What the union holds -/

/-- The union of the effects of the actions in `S`; it is bounded if each can be named and `located`
holds. -/
structure Gathers (u : Union) (S : PrivateActionRecord → Prop) (located : Prop) : Prop where
  source : ∀ id, id ∈ u.sourceActionIds ↔ ∃ a, S a ∧ a.actionId = id
  persistent : ∀ e, e ∈ u.persistent ↔ ∃ a, S a ∧ effectOf a = .persistent e
  bounded : u.completeness = .bounded ↔ located ∧ ∀ a, S a → effectOf a ≠ .unbounded

theorem gathers_nil : Gathers ⟨[], [], .bounded⟩ (fun _ => False) True := by
  refine ⟨fun id => ?_, fun e => ?_, ?_⟩
  · simp
  · simp
  · simp

variable {u : Union} {located : Prop}

theorem Gathers.congr {S S' : PrivateActionRecord → Prop} {located' : Prop}
    (h : Gathers u S located) (hS : ∀ a, S a ↔ S' a) (hl : located ↔ located') :
    Gathers u S' located' := by
  obtain rfl : S = S' := funext fun a => propext (hS a)
  obtain rfl : located = located' := propext hl
  exact h

/-- **One action** adds itself, and its effect if it has one that can be named. -/
theorem Gathers.addAction {S : PrivateActionRecord → Prop}
    (h : Gathers u S located) (a : PrivateActionRecord) :
    Gathers (u.addAction a) (fun a' => S a' ∨ a' = a) located := by
  have hor : ∀ P : PrivateActionRecord → Prop,
      (∃ a', (S a' ∨ a' = a) ∧ P a') ↔ (∃ a', S a' ∧ P a') ∨ P a := by
    intro P
    constructor
    · rintro ⟨a', hS | rfl, hP⟩
      · exact Or.inl ⟨a', hS, hP⟩
      · exact Or.inr hP
    · rintro (⟨a', hS, hP⟩ | hP)
      · exact ⟨a', Or.inl hS, hP⟩
      · exact ⟨a, Or.inr rfl, hP⟩
  have hpersistent : ∀ e, e ∈ (u.addAction a).persistent ↔
      e ∈ u.persistent ∨ effectOf a = .persistent e := by
    intro e
    rcases heffect : effectOf a with _ | effect | _
    · simp [Union.addAction, heffect]
    · simp only [Union.addAction, heffect, EffectBound.persistent.injEq]
      split_ifs with hmem
      · constructor
        · exact Or.inl
        · rintro (hold | rfl)
          · exact hold
          · exact hmem
      · rw [List.mem_append, List.mem_singleton, eq_comm]
    · simp [Union.addAction, heffect]
  have hbounded : (u.addAction a).completeness = .bounded ↔
      u.completeness = .bounded ∧ effectOf a ≠ .unbounded := by
    rcases heffect : effectOf a with _ | effect | _
    · simp [Union.addAction, heffect]
    · simp [Union.addAction, heffect]
    · simp [Union.addAction, heffect]
  refine ⟨fun id => ?_, fun e => ?_, ?_⟩
  · unfold Union.addAction
    rw [List.mem_append, List.mem_singleton, hor, h.source, eq_comm]
  · rw [hpersistent, hor, h.persistent]
  · rw [hbounded, h.bounded, and_assoc]
    refine and_congr_right fun _ => ⟨fun hand a' ha' => ?_, fun hall => ?_⟩
    · rcases ha' with hS | rfl
      · exact hand.1 a' hS
      · exact hand.2
    · exact ⟨fun a' hS => hall a' (Or.inl hS), hall a (Or.inr rfl)⟩

theorem Gathers.foldl_addAction {S : PrivateActionRecord → Prop} :
    ∀ {l : List PrivateActionRecord} {u : Union}, Gathers u S located →
      Gathers (l.foldl Union.addAction u) (fun a => S a ∨ a ∈ l) located
  | [], u, h => h.congr (by simp) Iff.rfl
  | a :: l, u, h => by
    refine (h.addAction a).foldl_addAction.congr (fun a' => ?_) Iff.rfl
    rw [List.mem_cons, or_assoc]

/-- The actions of the step that the permit is for. -/
def ActionOf (journal : Journal) (plan : StoredProviderPlan) (p : String) (a : PrivateActionRecord) :
    Prop :=
  a ∈ plan.actions ∧ stepForPermit journal p = some a.stepId.value

/-- The journal tells the step of the permit, and the plan has actions for it. -/
def Located (journal : Journal) (plan : StoredProviderPlan) (p : String) : Prop :=
  ∃ a, ActionOf journal plan p a

variable {plan : StoredProviderPlan} {journal : Journal}

/-- **One permit** adds the actions of its step; if there are none, the union is unbounded. -/
theorem Gathers.addPermit {S : PrivateActionRecord → Prop} (h : Gathers u S located) (p : String) :
    Gathers (u.addPermit journal plan p) (fun a => S a ∨ ActionOf journal plan p a)
      (located ∧ Located journal plan p) := by
  -- a permit without actions adds nothing to the lists
  have hlost : (∀ a, ¬ ActionOf journal plan p a) →
      Gathers { u with completeness := .unbounded } (fun a => S a ∨ ActionOf journal plan p a)
        (located ∧ Located journal plan p) := by
    intro hnone
    have hS : ∀ a, S a ↔ S a ∨ ActionOf journal plan p a := fun a => by simp [hnone a]
    have hsame := h.congr hS Iff.rfl
    refine ⟨hsame.source, hsame.persistent, ?_⟩
    simp only [reduceCtorEq, false_iff]
    rintro ⟨⟨-, a, ha⟩, -⟩
    exact hnone a ha
  unfold Union.addPermit
  rcases hstep : stepForPermit journal p with _ | stepId
  · exact hlost fun a ha => by simp [ActionOf, hstep] at ha
  · have hmem : ∀ a, a ∈ actionsOf plan stepId ↔ ActionOf journal plan p a := by
      intro a
      unfold actionsOf ActionOf
      rw [hstep, List.mem_filter, decide_eq_true_eq, Option.some.injEq, eq_comm]
    show Gathers (if actionsOf plan stepId = [] then _ else _) _ _
    split_ifs with hempty
    · exact hlost fun a ha => by simp [hempty] at hmem; exact hmem a ha
    · obtain ⟨a, ha⟩ := List.exists_mem_of_ne_nil _ hempty
      have hlocated : Located journal plan p := ⟨a, (hmem a).mp ha⟩
      refine h.foldl_addAction.congr (fun a => ?_) ?_
      · rw [hmem]
      · exact ⟨fun hl => ⟨hl, hlocated⟩, fun hl => hl.1⟩

theorem Gathers.foldl_addPermit :
    ∀ {ps : List String} {u : Union} {S : PrivateActionRecord → Prop} {located : Prop},
      Gathers u S located →
      Gathers (ps.foldl (Union.addPermit journal plan) u)
        (fun a => S a ∨ ∃ p ∈ ps, ActionOf journal plan p a)
        (located ∧ ∀ p ∈ ps, Located journal plan p)
  | [], u, S, located, h => h.congr (by simp) (by simp)
  | p :: ps, u, S, located, h => by
    refine (Gathers.foldl_addPermit (h.addPermit p)).congr (fun a => ?_) ?_
    · simp only [List.mem_cons, exists_eq_or_imp, or_assoc]
    · simp only [List.mem_cons, forall_eq_or_imp, and_assoc]

/-- **The possible effects** are those of the actions of the unresolved permits' steps. -/
theorem possibleEffects_gathers (journal : Journal) (plan : StoredProviderPlan) (impact : DataImpact) :
    Gathers ⟨(possibleEffects journal plan impact).effects.persistent,
        (possibleEffects journal plan impact).sourceActionIds,
        (possibleEffects journal plan impact).completeness⟩
      (fun a => ∃ p ∈ (PermitLedger.fromJournal journal).unresolved, ActionOf journal plan p a)
      (∀ p ∈ (PermitLedger.fromJournal journal).unresolved, Located journal plan p) := by
  have hfold : Gathers ((PermitLedger.fromJournal journal).unresolved.foldl
      (Union.addPermit journal plan) ⟨[], [], .bounded⟩) _ _ := gathers_nil.foldl_addPermit
  exact hfold.congr (fun a => by simp) (by simp)

/-- A destructive action has an effect, or it cannot be named. -/
theorem exists_effect_of_destructive (hd : a.effectClass = .destructive)
    (hb : effectOf a ≠ .unbounded) : ∃ e, effectOf a = .persistent e := by
  rcases heffect : effectOf a with _ | e | _
  · unfold effectOf at heffect
    rw [hd] at heffect
    split at heffect
    · contradiction
    · contradiction
    · contradiction
    · split at heffect
      · split at heffect <;> contradiction
      · split at heffect <;> contradiction
      · contradiction
  · exact ⟨e, rfl⟩
  · exact absurd heffect hb

variable {recovery : RecoveryDeclaration}

theorem covered_eq_true : covered e recovery = true ↔
      ∃ partition, e.partition = some partition ∧ partition ∈ recovery.coveredEffects := by
  unfold covered
  rcases e.partition with _ | partition
  · simp
  · simp only [List.any_eq_true, decide_eq_true_eq, Option.some.injEq, exists_eq_left']
    constructor
    · rintro ⟨c, hc, heq⟩
      rw [← OpaqueId.ext heq]
      exact hc
    · intro hmem
      exact ⟨partition, hmem, rfl⟩

theorem assess_eligible {possible : PossibleEffectSet} {covers : List PersistentEffect}
    (h : assessSupersedingRecovery possible recovery = .eligible covers) :
    possible.completeness = .bounded ∧ covers = possible.effects.persistent ∧
      ∀ e ∈ covers, covered e recovery = true := by
  unfold assessSupersedingRecovery at h
  split_ifs at h with hunbounded hempty hsupports huncovered
  obtain rfl := SupersedingRecoveryAssessment.eligible.inj h
  refine ⟨?_, rfl, fun e he => ?_⟩
  · rcases hc : possible.completeness with _ | _
    · rfl
    · exact absurd hc hunbounded
  · have hnil := List.map_eq_nil_iff.mp (not_not.mp huncovered)
    simpa using List.filter_eq_nil_iff.mp hnil e he

end ArkForge.Engine.Superseding
