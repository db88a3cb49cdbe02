import ArkForge.Core.ProjectionSpec

/-! # Declared effects and effectful steps

The coverage loop is two greedy runs: the steps that write or erase claim persistent effects, the
steps that change the mode or load an agent claim transient ones (`claimSteps_eq_ok`). Two steps that
compete for a transient effect have the same transient effects; two that compete for a persistent one
do so if the ranges declared on one target are disjoint. So the loop accepts exactly when there is a
perfect claim, in whatever order the effects are listed. -/

namespace ArkForge.Core.Coverage

open Lib.Result Lib.Matching
open Digest Ids
open Effect FlashStep Projection ProjectionSpec

variable {step : PublicFlashStep} {a : PrivateActionRecord} {b : BoundStep}
  {target : SemanticTarget} {e : PersistentEffect}

/-! ### Matches -/

/-- The step writes or erases. -/
def claimsPersistent (step : PublicFlashStep) : Bool :=
  decide (step.kind = .writeTarget ∨ step.kind = .eraseTarget)

/-- The step changes the mode, reboots or loads an agent. -/
def claimsTransient (step : PublicFlashStep) : Bool :=
  decide (step.kind = .ensureMode ∨ step.kind = .reboot ∨ step.kind = .loadEphemeralAgent)

/-- The range of the action, if it declares one, is inside `range`. -/
def Inside (a : PrivateActionRecord) (range : ByteRange) : Prop :=
  ∀ r, a.declaredRange = some r → range.containsRange r = true

/-- The effect is the one of a step on a partition or on a region. -/
inductive OwnEffect (step : PublicFlashStep) (a : PrivateActionRecord) :
    SemanticTarget → PersistentEffect → Prop where
  | writePartition {partition range content} : step.kind = .writeTarget →
      step.contentDigest = some content → Inside a range →
      OwnEffect step a (.partition partition) (.writePartition partition range content)
  | erasePartition {partition range} : step.kind = .eraseTarget → Inside a range →
      OwnEffect step a (.partition partition) (.erasePartition partition range)
  | writeRawRegion {region range content} : step.kind = .writeTarget →
      step.contentDigest = some content → Inside a range →
      OwnEffect step a (.rawRegion region) (.writeRawRegion region range content)

theorem inRange_eq_true {range : ByteRange} :
    persistentEffectMatches.inRange a range = true ↔ Inside a range := by
  unfold persistentEffectMatches.inRange Inside
  rcases a.declaredRange with _ | r
  · simp
  · simp

theorem persistentEffectMatches_eq_true {effect : PersistentEffect} :
    persistentEffectMatches effect step target a = true ↔ OwnEffect step a target effect := by
  constructor
  · intro h
    unfold persistentEffectMatches at h
    split at h
    · simp only [Bool.and_eq_true, decide_eq_true_eq, inRange_eq_true] at h
      obtain ⟨⟨⟨hkind, hcontent⟩, rfl⟩, hin⟩ := h
      exact .writePartition hkind hcontent hin
    · simp only [Bool.and_eq_true, decide_eq_true_eq, inRange_eq_true] at h
      obtain ⟨⟨hkind, rfl⟩, hin⟩ := h
      exact .erasePartition hkind hin
    · simp only [Bool.and_eq_true, decide_eq_true_eq, inRange_eq_true] at h
      obtain ⟨⟨⟨hkind, hcontent⟩, rfl⟩, hin⟩ := h
      exact .writeRawRegion hkind hcontent hin
    · contradiction
  · intro h
    rcases h with ⟨hkind, hcontent, hin⟩ | ⟨hkind, hin⟩ | ⟨hkind, hcontent, hin⟩
    · simp [persistentEffectMatches, hkind, hcontent, inRange_eq_true.mpr hin]
    · simp [persistentEffectMatches, hkind, inRange_eq_true.mpr hin]
    · simp [persistentEffectMatches, hkind, hcontent, inRange_eq_true.mpr hin]

/-- The effect is the one of a step that changes the mode or loads an agent. -/
inductive OwnTransient (step : PublicFlashStep) : TransientEffect → Prop where
  | enterMode {fromMode toMode} : step.kind = .ensureMode →
      step.expectedModeBefore = some fromMode → step.expectedModeAfter = some toMode →
      OwnTransient step (.enterMode fromMode toMode)
  | reboot {targetMode} : step.kind = .reboot → step.expectedModeAfter = some targetMode →
      OwnTransient step (.reboot targetMode)
  | loadEphemeralAgent {stage memoryRegion content} : step.kind = .loadEphemeralAgent →
      OwnTransient step (.loadEphemeralAgent stage memoryRegion content)

theorem transientEffectMatches_eq_true {effect : TransientEffect} :
    transientEffectMatches effect step = true ↔ OwnTransient step effect := by
  constructor
  · intro h
    unfold transientEffectMatches at h
    split at h
    next hkind =>
      rw [Bool.and_eq_true, decide_eq_true_eq, decide_eq_true_eq] at h
      exact .enterMode hkind h.1 h.2
    next hkind => exact .reboot hkind (of_decide_eq_true h)
    next hkind => exact .loadEphemeralAgent hkind
    · contradiction
  · intro h
    rcases h with ⟨hkind, hbefore, hafter⟩ | ⟨hkind, hafter⟩ | hkind
    · simp [transientEffectMatches, hkind, hbefore, hafter]
    · simp [transientEffectMatches, hkind, hafter]
    · simp [transientEffectMatches, hkind]

/-- Steps that compete for a transient effect have the same transient effects. -/
theorem OwnTransient.compete {s s' : PublicFlashStep} {effect other : TransientEffect}
    (h : OwnTransient s effect) (h' : OwnTransient s' effect) (ho : OwnTransient s other) :
    OwnTransient s' other := by
  rcases h with ⟨hkind, hbefore, hafter⟩ | ⟨hkind, hafter⟩ | hkind
  · obtain ⟨hkind', hbefore', hafter'⟩ := h'
    rcases ho with ⟨-, hb, ha⟩ | ⟨hk, -⟩ | hk
    · rw [hbefore] at hb
      rw [hafter] at ha
      exact .enterMode hkind' (hbefore'.trans hb) (hafter'.trans ha)
    · simp [hkind] at hk
    · simp [hkind] at hk
  · obtain _ | ⟨hkind', hafter'⟩ := h'
    rcases ho with ⟨hk, -, -⟩ | ⟨-, ha⟩ | hk
    · simp [hkind] at hk
    · rw [hafter] at ha
      exact .reboot hkind' (hafter'.trans ha)
    · simp [hkind] at hk
  · obtain _ | _ | hkind' := h'
    rcases ho with ⟨hk, -, -⟩ | ⟨hk, -⟩ | -
    · simp [hkind] at hk
    · simp [hkind] at hk
    · exact .loadEphemeralAgent hkind'

def effectTarget : PersistentEffect → Option SemanticTarget
  | .erasePartition partition _ => some (.partition partition)
  | .writePartition partition _ _ => some (.partition partition)
  | .writeRawRegion region _ _ => some (.rawRegion region)
  | .replacePartitionTable _ => some .device
  | .changeBootMetadata field _ => some (.bootMetadata field)

def effectContent : PersistentEffect → Option Sha256Digest
  | .writePartition _ _ content => some content
  | .writeRawRegion _ _ content => some content
  | _ => none

/-- Effects on one target have disjoint ranges. -/
def Apart (e e' : PersistentEffect) : Prop :=
  effectTarget e = effectTarget e' →
    ∀ r r', e.range = some r → e'.range = some r' → r.overlaps r' = false

instance : Std.Symm Apart where
  symm e e' h heq r r' hr hr' := by
    have hnot := h heq.symm r' r hr' hr
    unfold ByteRange.overlaps at hnot ⊢
    rw [Bool.and_comm]
    exact hnot

theorem OwnEffect.place (h : OwnEffect step a target e) :
    effectTarget e = some target ∧ ∃ r, e.range = some r ∧ Inside a r := by
  rcases h with ⟨-, -, hin⟩ | ⟨-, hin⟩ | ⟨-, -, hin⟩
  · exact ⟨rfl, _, rfl, hin⟩
  · exact ⟨rfl, _, rfl, hin⟩
  · exact ⟨rfl, _, rfl, hin⟩

/-- A step whose action declares a range has at most one effect among disjoint ones. -/
theorem OwnEffect.unique {effects : List PersistentEffect} (hapart : effects.Pairwise Apart)
    (hrange : a.declaredRange ≠ none) {e' : PersistentEffect} (he : e ∈ effects)
    (he' : e' ∈ effects) (h : OwnEffect step a target e) (h' : OwnEffect step a target e') :
    e = e' := by
  obtain ⟨inner, hinner⟩ := Option.ne_none_iff_exists'.mp hrange
  obtain ⟨ht, r, hr, hin⟩ := h.place
  obtain ⟨ht', r', hr', hin'⟩ := h'.place
  have hover : r.overlaps r' = true :=
    ByteRange.overlaps_of_contains (hin inner hinner) (hin' inner hinner)
  by_contra hne
  have hnot := hapart.forall he he' hne (ht.trans ht'.symm) r r' hr hr'
  rw [hover] at hnot
  contradiction

/-! ### The loop -/

/-- The declared effect is the one of the bound step. -/
def declares (b : BoundStep) (e : PersistentEffect) : Bool :=
  match b.step.semanticTarget with
  | none => false
  | some target => persistentEffectMatches e b.step target b.primary

theorem declares_eq_true : declares b e = true ↔
      ∃ target, b.step.semanticTarget = some target ∧ OwnEffect b.step b.primary target e := by
  unfold declares
  rcases b.step.semanticTarget with _ | target
  · simp
  · simp [persistentEffectMatches_eq_true]

/-- The bound steps that claim a persistent effect. -/
def writers (bound : List BoundStep) : List BoundStep := bound.filter (claimsPersistent ·.step)

/-- The bound steps that claim a transient effect. -/
def movers (bound : List BoundStep) : List BoundStep := bound.filter (claimsTransient ·.step)

/-- A step that writes or erases names a target. -/
def Targeted (b : BoundStep) : Prop :=
  claimsPersistent b.step = true → ∃ target, b.step.semanticTarget = some target

/-- **The claim of one step**: a persistent effect, a transient effect, or none. -/
theorem claimStep_eq (ht : Targeted b) :
    (claimsPersistent b.step = true ∧ claimsTransient b.step = false ∧
      ∀ effectSet claims, claimStep effectSet claims b = (do
        let persistent ← claimFirst claims.persistent effectSet.persistent (declares b) b.step
        return { claims with persistent })) ∨
    (claimsPersistent b.step = false ∧ claimsTransient b.step = true ∧
      ∀ effectSet claims, claimStep effectSet claims b = (do
        let transient ← claimFirst claims.transient effectSet.transient
          (fun e => transientEffectMatches e b.step) b.step
        return { claims with transient })) ∨
    (claimsPersistent b.step = false ∧ claimsTransient b.step = false ∧
      ∀ effectSet claims, claimStep effectSet claims b = .ok claims) := by
  unfold Targeted claimsPersistent at ht
  unfold claimsPersistent claimsTransient claimStep
  have hwrite : ∀ {k : FlashStepKind}, b.step.kind = k → k = .writeTarget ∨ k = .eraseTarget →
      ∃ target, b.step.semanticTarget = some target ∧
        declares b = fun e => persistentEffectMatches e b.step target b.primary := by
    intro k hk hor
    obtain ⟨target, htarget⟩ := ht (by simp [hk, hor])
    exact ⟨target, htarget, by funext e; unfold declares; rw [htarget]⟩
  split
  next hkind =>
    obtain ⟨target, htarget, hdeclares⟩ := hwrite hkind (Or.inl rfl)
    rw [htarget, hdeclares]
    exact Or.inl ⟨by simp [hkind], by simp [hkind], fun _ _ => rfl⟩
  next hkind =>
    obtain ⟨target, htarget, hdeclares⟩ := hwrite hkind (Or.inr rfl)
    rw [htarget, hdeclares]
    exact Or.inl ⟨by simp [hkind], by simp [hkind], fun _ _ => rfl⟩
  next hkind => exact Or.inr (Or.inl ⟨by simp [hkind], by simp [hkind], fun _ _ => rfl⟩)
  next hkind => exact Or.inr (Or.inl ⟨by simp [hkind], by simp [hkind], fun _ _ => rfl⟩)
  next hkind => exact Or.inr (Or.inl ⟨by simp [hkind], by simp [hkind], fun _ _ => rfl⟩)
  next h1 h2 h3 h4 h5 => exact Or.inr (Or.inr ⟨by simp_all, by simp_all, fun _ _ => rfl⟩)

variable {effectSet : EffectSet} {claims claims' : Claims}

theorem claimFirst_eq_ok {ε : Type} {claimed claimed' : List Bool} {effects : List ε}
    {own : ε → Bool} : claimFirst claimed effects own step = .ok claimed' ↔
      ∃ i, firstFree claimed effects own = some i ∧ claimed.set i true = claimed' := by
  unfold claimFirst
  rcases firstFree claimed effects own with _ | i
  · simp
  · simp

/-- A step that claims goes on with what it has claimed. -/
theorem exists_claim {ε : Type} {claimed : List Bool} {effects : List ε} {own : ε → Bool}
    {put : List Bool → Claims} {P : Claims → Prop} :
    (∃ c, (claimFirst claimed effects own step >>= fun l => pure (put l)) = .ok c ∧ P c) ↔
      ∃ i, firstFree claimed effects own = some i ∧ P (put (claimed.set i true)) := by
  unfold claimFirst
  rcases firstFree claimed effects own with _ | i
  · simp
  · simp

variable {bound : List BoundStep}

/-- **The loop is two greedy runs**, one over each list of effects. -/
theorem claimSteps_eq_ok (ht : ∀ b ∈ bound, Targeted b) :
    claimSteps effectSet claims bound = .ok claims' ↔
      (∃ is, greedy declares effectSet.persistent claims.persistent (writers bound) =
        some (is, claims'.persistent)) ∧
      (∃ js, greedy (fun b e => transientEffectMatches e b.step) effectSet.transient
        claims.transient (movers bound) = some (js, claims'.transient)) := by
  induction bound generalizing claims with
  | nil =>
    simp only [claimSteps, writers, movers, List.filter_nil, greedy, Except.ok.injEq,
      Option.some.injEq, Prod.mk.injEq]
    constructor
    · rintro rfl
      exact ⟨⟨[], rfl, rfl⟩, ⟨[], rfl, rfl⟩⟩
    · rcases claims with ⟨p, t⟩
      simp_all
  | cons b bound ih =>
    replace ih := fun c => @ih c fun b hb => ht b (List.mem_cons_of_mem _ hb)
    unfold claimSteps
    rw [bind_eq_ok]
    rcases claimStep_eq (ht b List.mem_cons_self) with
      ⟨hp, htr, hstep⟩ | ⟨hp, htr, hstep⟩ | ⟨hp, htr, hstep⟩
    · have hw : writers (b :: bound) = b :: writers bound := by simp [writers, hp]
      have hm : movers (b :: bound) = movers bound := by simp [movers, htr]
      simp only [hstep, hw, exists_claim, exists_greedy_cons]
      grind
    · have hw : writers (b :: bound) = writers bound := by simp [writers, hp]
      have hm : movers (b :: bound) = b :: movers bound := by simp [movers, htr]
      simp only [hstep, hm, exists_claim, exists_greedy_cons]
      grind
    · have hw : writers (b :: bound) = writers bound := by simp [writers, hp]
      have hm : movers (b :: bound) = movers bound := by simp [movers, htr]
      rw [hstep, hw, hm, ← ih claims]
      simp

theorem checkUnclaimed_eq_ok :
    checkUnclaimed claims = .ok () ↔ free claims.persistent = [] ∧ free claims.transient = [] := by
  rw [free_eq_nil, free_eq_nil]
  unfold checkUnclaimed
  rcases claims.persistent.findIdx? (!·) with _ | i
  · rcases claims.transient.findIdx? (!·) with _ | j
    · simp
    · simp
  · simp

/-! ### Perfect claims -/

/-- Each action of a step that writes or erases declares its range. -/
def Ranged (bound : List BoundStep) : Prop :=
  ∀ b ∈ writers bound, b.primary.declaredRange ≠ none

theorem classed_declares (hrange : Ranged bound)
    (hapart : effectSet.persistent.Pairwise Apart) :
    Classed declares effectSet.persistent (writers bound) := by
  intro b hb b' _ e he hbe hbe' e' he' hown
  obtain ⟨target, htarget, h⟩ := declares_eq_true.mp hbe
  obtain ⟨target', htarget', h'⟩ := declares_eq_true.mp hown
  obtain rfl : target = target' := Option.some.inj (htarget.symm.trans htarget')
  -- the ranges are disjoint, so the step has only one effect
  have heq : e = e' := h.unique hapart (hrange b hb) he he' h'
  rw [← heq]
  exact hbe'

theorem classed_transient (effects : List TransientEffect) (bound : List BoundStep) :
    Classed (fun (b : BoundStep) e => transientEffectMatches e b.step) effects bound := by
  intro b _ b' _ e _ hbe hbe' e' _ hown
  simp only [transientEffectMatches_eq_true] at hbe hbe' hown ⊢
  exact hbe.compete hbe' hown

/-- **The coverage check accepts exactly the perfect claims.** -/
theorem validateEffectCoverage_eq_ok (ht : ∀ b ∈ bound, Targeted b)
    (hrange : Ranged bound) (hapart : effectSet.persistent.Pairwise Apart) :
    validateEffectCoverage bound effectSet = .ok () ↔
      Perfect (fun b e => declares b e = true) effectSet.persistent (writers bound) ∧
      Perfect (fun (b : BoundStep) e => transientEffectMatches e b.step = true) effectSet.transient
        (movers bound) := by
  rw [← greedy_iff_perfect (classed_declares hrange hapart),
    ← greedy_iff_perfect (classed_transient effectSet.transient (movers bound))]
  unfold validateEffectCoverage
  rw [bind_eq_ok]
  constructor
  · rintro ⟨claims, hclaims, hnone⟩
    obtain ⟨⟨is, his⟩, ⟨js, hjs⟩⟩ := (claimSteps_eq_ok ht).mp hclaims
    obtain ⟨hp, htr⟩ := checkUnclaimed_eq_ok.mp hnone
    exact ⟨⟨is, _, his, hp⟩, ⟨js, _, hjs, htr⟩⟩
  · rintro ⟨⟨is, p, his, hp⟩, ⟨js, t, hjs, htr⟩⟩
    exact ⟨⟨p, t⟩, (claimSteps_eq_ok ht).mpr ⟨⟨is, his⟩, ⟨js, hjs⟩⟩,
      checkUnclaimed_eq_ok.mpr ⟨hp, htr⟩⟩

/-! ### The order of the effects -/

/-- The error, without the place in the effect set that it may name. -/
def withoutIndex : ProjectionError → ProjectionError
  | .unclaimedPersistentEffect _ => .unclaimedPersistentEffect 0
  | .unclaimedTransientEffect _ => .unclaimedTransientEffect 0
  | e => e

/-- The errors differ at most in the place they name. -/
def SameError (e e' : ProjectionError) : Prop := withoutIndex e = withoutIndex e'

/-- The two sets declare the same effects. -/
structure Reordered (effectSet effectSet' : EffectSet) : Prop where
  persistent : effectSet.persistent.Perm effectSet'.persistent
  transient : effectSet.transient.Perm effectSet'.transient

/-- The loop has come equally far over two orders of the effects. -/
structure AlikeClaims (bound : List BoundStep) (effectSet effectSet' : EffectSet)
    (claims claims' : Claims) : Prop where
  persistent : Alike declares (writers bound) effectSet.persistent effectSet'.persistent
    claims.persistent claims'.persistent
  transient : Alike (fun (b : BoundStep) e => transientEffectMatches e b.step) (movers bound)
    effectSet.transient effectSet'.transient claims.transient claims'.transient

theorem claimFirst_alike {σ ε : Type} {m : σ → ε → Bool} {ss : List σ} {effects effects' : List ε}
    {claimed claimed' : List Bool} {s : σ} (h : Alike m ss effects effects' claimed claimed')
    (hclass : Classed m effects ss) (hperm : effects.Perm effects') (hs : s ∈ ss)
    (step : PublicFlashStep) :
    Agree SameError (Alike m ss effects effects') (claimFirst claimed effects (m s) step)
      (claimFirst claimed' effects' (m s) step) := by
  unfold claimFirst
  rcases hfirst : firstFree claimed effects (m s) with _ | i
  · rw [h.none hs hfirst]
    exact .error rfl
  · obtain ⟨i', hi', halike⟩ := h.claim hclass hperm hs hfirst
    rw [hi']
    exact .ok halike

variable {effectSet' : EffectSet} {all : List BoundStep}

theorem checkUnclaimed_alike (h : AlikeClaims all effectSet effectSet' claims claims') :
    Agree SameError Eq (checkUnclaimed claims) (checkUnclaimed claims') := by
  have hside : ∀ {l l' : List Bool}, (free l).length = (free l').length →
      (l.findIdx? (!·) = none ↔ l'.findIdx? (!·) = none) := by
    intro l l' hlen
    rw [← free_eq_nil, ← free_eq_nil, ← List.length_eq_zero_iff, ← List.length_eq_zero_iff, hlen]
  have hp := hside h.persistent.left
  have htr := hside h.transient.left
  unfold checkUnclaimed
  rcases hi : claims.persistent.findIdx? (!·) with _ | i
  · rw [hp.mp hi]
    rcases hj : claims.transient.findIdx? (!·) with _ | j
    · rw [htr.mp hj]
      exact .ok rfl
    · have hne : claims'.transient.findIdx? (!·) ≠ none := fun hn => by simp [htr.mpr hn] at hj
      obtain ⟨j', hj'⟩ := Option.ne_none_iff_exists'.mp hne
      rw [hj']
      exact .error rfl
  · have hne : claims'.persistent.findIdx? (!·) ≠ none := fun hn => by simp [hp.mpr hn] at hi
    obtain ⟨i', hi'⟩ := Option.ne_none_iff_exists'.mp hne
    rw [hi']
    exact .error rfl

section Reordered

variable (hre : Reordered effectSet effectSet') (hrange : Ranged all)
  (hapart : effectSet.persistent.Pairwise Apart)

include hre hrange hapart

theorem claimStep_alike (hb : b ∈ all) (ht : Targeted b)
    (h : AlikeClaims all effectSet effectSet' claims claims') :
    Agree SameError (AlikeClaims all effectSet effectSet') (claimStep effectSet claims b)
      (claimStep effectSet' claims' b) := by
  rcases claimStep_eq ht with ⟨hp, -, hstep⟩ | ⟨-, htr, hstep⟩ | ⟨-, -, hstep⟩
  · have hmem : b ∈ writers all := List.mem_filter.mpr ⟨hb, hp⟩
    rw [hstep, hstep]
    exact (claimFirst_alike h.persistent (classed_declares hrange hapart) hre.persistent hmem
      b.step).bind fun p p' hpp => .ok ⟨hpp, h.transient⟩
  · have hmem : b ∈ movers all := List.mem_filter.mpr ⟨hb, htr⟩
    rw [hstep, hstep]
    exact (claimFirst_alike h.transient (classed_transient _ _) hre.transient hmem
      b.step).bind fun t t' htt => .ok ⟨h.persistent, htt⟩
  · rw [hstep, hstep]
    exact .ok h

theorem claimSteps_alike (ht : ∀ b ∈ all, Targeted b) :
    ∀ {bound : List BoundStep} {claims claims' : Claims}, (∀ b ∈ bound, b ∈ all) →
      AlikeClaims all effectSet effectSet' claims claims' →
      Agree SameError (AlikeClaims all effectSet effectSet') (claimSteps effectSet claims bound)
        (claimSteps effectSet' claims' bound)
  | [], _, _, _, h => .ok h
  | b :: bound, _, _, hsub, h => by
    have hb := hsub b List.mem_cons_self
    refine (claimStep_alike hre hrange hapart hb (ht b hb) h).bind fun c c' hc => ?_
    exact claimSteps_alike ht (fun b hb => hsub b (List.mem_cons_of_mem _ hb)) hc

theorem validateEffectCoverage_alike (ht : ∀ b ∈ all, Targeted b) :
    Agree SameError Eq (validateEffectCoverage all effectSet)
      (validateEffectCoverage all effectSet') := by
  have hinitial : AlikeClaims all effectSet effectSet' (.none effectSet) (.none effectSet') :=
    ⟨.initial hre.persistent _, .initial hre.transient _⟩
  exact (claimSteps_alike hre hrange hapart ht (fun _ hb => hb) hinitial).bind
    fun _ _ hc => checkUnclaimed_alike hc

end Reordered

/-! ### Acceptance -/

/-- The effect is the one of the step, judged by the primary action the plan has for the step. -/
def Declared (plan : StoredProviderPlan) (s : PublicFlashStep) (e : PersistentEffect) : Prop :=
  ∃ a ∈ plan.actions, a.role = .primaryEffect ∧ a.stepId = s.stepId ∧
    ∃ target, s.semanticTarget = some target ∧ persistentEffectMatches e s target a = true

variable {steps : List PublicFlashStep} {plan : StoredProviderPlan} {bound : List BoundStep}

theorem declared_iff (h : Projected steps plan bound) (hb : b ∈ bound) (e : PersistentEffect) :
    Declared plan b.step e ↔ declares b e = true := by
  unfold Declared
  simp only [declares_eq_true, persistentEffectMatches_eq_true]
  constructor
  · rintro ⟨a, ha, hrole, hid, hown⟩
    rcases h.action a ha with ⟨-, b', hb', rfl⟩ | ⟨hsub, -⟩
    · obtain rfl : b' = b := h.eq_of_stepId hb' hb ((h.primary b' hb').2.2.1.symm.trans hid)
      exact hown
    · simp [hrole] at hsub
  · intro hown
    obtain ⟨hmem, hrole, hid, -⟩ := h.primary b hb
    exact ⟨b.primary, hmem, hrole, hid, hown⟩

theorem targeted_of_projected (h : Projected steps plan bound) : ∀ b ∈ bound, Targeted b := by
  intro b hb hclaims
  have hmem : b.step ∈ steps := h.steps_eq ▸ List.mem_map_of_mem hb
  obtain ⟨-, -, hstorage⟩ :=
    PublicFlashStep.validateSelfConsistent_eq_ok.mp (h.consistent b.step hmem)
  have hkind : b.step.kind.isTargeted = true := by
    rcases of_decide_eq_true hclaims with hk | hk
    · rw [hk]
      rfl
    · rw [hk]
      rfl
  have hsome := hstorage hkind
  rcases htarget : b.step.semanticTarget with _ | target
  · simp [htarget, isStorage] at hsome
  · exact ⟨target, rfl⟩

theorem filter_steps (h : Projected steps plan bound) (p : PublicFlashStep → Bool) :
    steps.filter p = (bound.filter (p ·.step)).map (·.step) := by
  rw [← h.steps_eq, List.filter_map]
  rfl

/-! ### A plan that enters a mode, writes a partition in two parts and leaves the mode -/

def bootPartition : PartitionId := ⟨"boot", by decide⟩

def bootRange : ByteRange := ⟨0, 4096, by decide, by decide⟩

def bootContent : Sha256Digest := ⟨List.replicate 32 0, rfl⟩

def bootEffect : PersistentEffect := .writePartition bootPartition bootRange bootContent

def bootEffects : EffectSet := { EffectSet.readOnly with persistent := [bootEffect] }

def bootWrite : PrivateActionRecord where
  actionId := ⟨"ACT-1", by decide⟩
  stepId := ⟨"STEP-1", by decide⟩
  role := .primaryEffect
  effectClass := .destructive
  declaredTarget := some (.partition bootPartition)
  declaredRange := some bootRange
  contentDigest := some bootContent
  body := .null

def bootStep : PublicFlashStep where
  stepId := ⟨"STEP-1", by decide⟩
  kind := .writeTarget
  effect := .destructive
  semanticTarget := some (.partition bootPartition)
  contentDigest := some bootContent
  expectedModeBefore := none
  expectedModeAfter := none
  privateActionDigest := bootWrite.digest.toOption.getD bootContent

theorem paired_boot : Paired ⟨bootStep, bootWrite⟩ where
  consistent := rfl
  role := rfl
  stepId := rfl
  checked := rfl
  digest := rfl

theorem bootStep_binds : bindSteps [bootStep] ⟨[bootWrite]⟩ = .ok [(⟨bootStep, bootWrite⟩,
    [⟨bootStep.stepId, bootWrite.actionId, .primaryEffect, bootStep.privateActionDigest⟩])] :=
  bindSteps_paired [⟨bootStep, bootWrite⟩] (List.cons_ne_nil _ _)
    (List.forall_mem_singleton.mpr paired_boot) (List.nodup_singleton _) (List.nodup_singleton _)

theorem bootEffect_matches :
    persistentEffectMatches bootEffect bootStep (.partition bootPartition) bootWrite = true := by
  refine persistentEffectMatches_eq_true.mpr (.writePartition rfl rfl fun r hr => ?_)
  rw [← Option.some.inj hr]
  decide

theorem rest_nonEmpty : (512 : UInt64) ≠ 0 := by decide

theorem rest_noOverflow : (4096 : UInt64).toNat + (512 : UInt64).toNat < 2 ^ 64 := by decide

def restRange : ByteRange := ⟨4096, 512, rest_nonEmpty, rest_noOverflow⟩

def restEffect : PersistentEffect := .writePartition bootPartition restRange bootContent

def restWrite : PrivateActionRecord :=
  { bootWrite with
    actionId := ⟨"ACT-2", by decide⟩, stepId := ⟨"STEP-2", by decide⟩
    declaredRange := some restRange }

def restStep : PublicFlashStep :=
  { bootStep with
    stepId := ⟨"STEP-2", by decide⟩
    privateActionDigest := restWrite.digest.toOption.getD bootContent }

def modeAction (actionId : ActionId) (stepId : StepId) : PrivateActionRecord where
  actionId
  stepId
  role := .primaryEffect
  effectClass := .transient
  declaredTarget := none
  declaredRange := none
  contentDigest := none
  body := .null

def modeStep (kind : FlashStepKind) (before after : DeviceMode) (action : PrivateActionRecord) :
    PublicFlashStep where
  stepId := action.stepId
  kind
  effect := .transient
  semanticTarget := none
  contentDigest := none
  expectedModeBefore := some before
  expectedModeAfter := some after
  privateActionDigest := action.digest.toOption.getD bootContent

def hdcMode : DeviceMode := ⟨"hdc", by decide, by decide, by decide⟩

def flashMode : DeviceMode := ⟨"flash", by decide, by decide, by decide⟩

def enterAction : PrivateActionRecord := modeAction ⟨"ACT-0", by decide⟩ ⟨"STEP-0", by decide⟩

def leaveAction : PrivateActionRecord := modeAction ⟨"ACT-3", by decide⟩ ⟨"STEP-3", by decide⟩

/-- The steps with their actions, in the order of the plan. -/
def twoWrites : List BoundStep := [⟨modeStep .ensureMode hdcMode flashMode enterAction, enterAction⟩,
  ⟨bootStep, bootWrite⟩, ⟨restStep, restWrite⟩,
  ⟨modeStep .reboot flashMode hdcMode leaveAction, leaveAction⟩]

/-- The effects of the steps, those of each kind in the opposite order. -/
def twoWritesEffects : EffectSet :=
  { EffectSet.readOnly with
    persistent := [restEffect, bootEffect]
    transient := [.reboot hdcMode, .enterMode hdcMode flashMode] }

theorem twoWrites_binds : bindSteps (twoWrites.map (·.step)) ⟨twoWrites.map (·.primary)⟩ =
    .ok (twoWrites.map fun b => (b, [⟨b.step.stepId, b.primary.actionId, .primaryEffect,
      b.step.privateActionDigest⟩])) := by
  refine bindSteps_paired twoWrites (List.cons_ne_nil _ _) ?_ (by decide) (by decide)
  simp only [twoWrites, List.forall_mem_cons]
  exact ⟨⟨rfl, rfl, rfl, rfl, rfl⟩, paired_boot, ⟨rfl, rfl, rfl, rfl, rfl⟩,
    ⟨rfl, rfl, rfl, rfl, rfl⟩, List.forall_mem_nil _⟩

/-! ### Acceptance and perfect claims -/

/-- **A projection is accepted exactly when there is a perfect claim**: one of the persistent effects
by the steps that write or erase, and one of the transient effects by the steps that change the mode
or load an agent. This is for plans that have passed the other checks, whose writing and erasing
actions declare a range, and for effects whose ranges on one target are disjoint. The answer, up to
the place an error may name, does not depend on the order of the effects. -/
theorem accepted_iff_perfect_claim
    {bindings : List (BoundStep × List ActionDigestBinding)} {effectSet : EffectSet}
    (hbind : bindSteps steps plan = .ok bindings)
    (hrange : ∀ s ∈ steps, claimsPersistent s = true → ∀ a ∈ plan.actions,
      a.role = .primaryEffect → a.stepId = s.stepId → ∃ r, a.declaredRange = some r)
    (hapart : effectSet.persistent.Pairwise Apart) :
    ((∃ digests, validateProjection steps plan effectSet = .ok digests) ↔
      Perfect (Declared plan) effectSet.persistent (steps.filter claimsPersistent) ∧
      Perfect (fun s e => transientEffectMatches e s = true) effectSet.transient
        (steps.filter claimsTransient)) ∧
    ∀ effectSet', Reordered effectSet effectSet' →
      (validateProjection steps plan effectSet').mapError withoutIndex =
        (validateProjection steps plan effectSet).mapError withoutIndex := by
  have hproj := bindSteps_projected hbind
  have ht := targeted_of_projected hproj
  have hranged : Ranged (bindings.map (·.1)) := by
    intro b hb
    obtain ⟨hb, hclaims⟩ := List.mem_filter.mp hb
    obtain ⟨hmem, hrole, hid, -⟩ := hproj.primary b hb
    have hs : b.step ∈ steps := hproj.steps_eq ▸ List.mem_map_of_mem hb
    obtain ⟨r, hr⟩ := hrange b.step hs hclaims b.primary hmem hrole hid
    simp [hr]
  have hrun : ∀ es, validateProjection steps plan es =
      (validateEffectCoverage (bindings.map (·.1)) es >>= fun _ =>
        projectionDigests (bindings.flatMap (·.2))) := by
    intro es
    unfold validateProjection
    rw [hbind]
    rfl
  refine ⟨?_, fun effectSet' hre => ?_⟩
  · rw [filter_steps hproj, filter_steps hproj,
      perfect_map fun b hb e => declared_iff hproj (List.mem_of_mem_filter hb) e,
      perfect_map fun b _ e => Iff.rfl, hrun]
    have hcover := validateEffectCoverage_eq_ok ht hranged hapart
    unfold writers movers at hcover
    rw [← hcover]
    simp only [bind_eq_ok]
    constructor
    · rintro ⟨digests, _, hok, -⟩
      exact hok
    · intro hok
      obtain ⟨digests, hdigests⟩ := exists_projectionDigests (bindings.flatMap (·.2))
      exact ⟨digests, (), hok, hdigests⟩
  · obtain ⟨digests, hdigests⟩ := exists_projectionDigests (bindings.flatMap (·.2))
    rw [hrun, hrun, hdigests]
    have hagree := validateEffectCoverage_alike hre hranged hapart ht
    exact (hagree.bind fun _ _ _ => Agree.ok rfl).mapError_eq.symm

/-- The plan is accepted, as each of its steps claims its own effect. -/
theorem accepted_iff_perfect_claim_two_writes :
    ∃ digests, validateProjection (twoWrites.map (·.step)) ⟨twoWrites.map (·.primary)⟩
      twoWritesEffects = .ok digests := by
  have hapart : twoWritesEffects.persistent.Pairwise Apart := by
    refine List.pairwise_pair.mpr fun _ r r' hr hr' => ?_
    cases hr
    cases hr'
    decide
  have hrange : ∀ s ∈ twoWrites.map (·.step), claimsPersistent s = true →
      ∀ a ∈ twoWrites.map (·.primary), a.role = .primaryEffect → a.stepId = s.stepId →
        ∃ r, a.declaredRange = some r := by
    simp only [← Option.isSome_iff_exists]
    decide
  have hpersistent : Perfect (Declared ⟨twoWrites.map (·.primary)⟩) [restEffect, bootEffect]
      [bootStep, restStep] := by
    refine ⟨Equiv.swap 0 1, Fin.forall_fin_two.mpr ⟨?_, ?_⟩⟩
    · exact ⟨bootWrite, by simp [twoWrites], rfl, rfl, _, rfl, bootEffect_matches⟩
    · exact ⟨restWrite, by simp [twoWrites], rfl, rfl, _, rfl, rfl⟩
  have htransient : Perfect (fun s e => transientEffectMatches e s = true)
      [.reboot hdcMode, .enterMode hdcMode flashMode]
      [modeStep .ensureMode hdcMode flashMode enterAction,
        modeStep .reboot flashMode hdcMode leaveAction] :=
    ⟨Equiv.swap 0 1, Fin.forall_fin_two.mpr ⟨rfl, rfl⟩⟩
  exact (accepted_iff_perfect_claim twoWrites_binds hrange hapart).1.mpr ⟨hpersistent, htransient⟩

end ArkForge.Core.Coverage
