import ArkForge.Engine.Superseding

/-! # Destructive actions and declared effects

Superseding recovery attributes an effect to every destructive action of the private plan
(`effectOf`). Whether that effect is one the plan declares is decided by the projection: the action's
step has to claim an entry of the effect set that covers it. The claims are read off the coverage
loop: a step claims the entry whose flag it raises. -/

namespace ArkForge.Engine.DeclaredEffects

open Lib.Result Lib.Matching
open Core.Ids Core.Effect Core.FlashStep
open Core.Projection Core.ProjectionSpec Core.Coverage
open Superseding

variable {b : BoundStep} {claims claims' : Claims}

/-! ### Who claims what -/

/-- The step at `k` raises the flag of the entry at `i`. -/
def ClaimsAt (effectSet : EffectSet) (bound : List BoundStep) (k i : ℕ) : Prop :=
  ∃ b claims claims', bound[k]? = some b ∧
    claimSteps effectSet (.none effectSet) (bound.take k) = .ok claims ∧
    claimStep effectSet claims b = .ok claims' ∧
    claims.persistent[i]? = some false ∧ claims'.persistent[i]? = some true

variable {effectSet : EffectSet} {bound : List BoundStep}

theorem claimSteps_append {more : List BoundStep} :
    claimSteps effectSet claims (bound ++ more) = .ok claims' ↔
      ∃ c, claimSteps effectSet claims bound = .ok c ∧ claimSteps effectSet c more = .ok claims' := by
  induction bound generalizing claims with
  | nil => simp [claimSteps]
  | cons b bound ih =>
    have hcons : ∀ l, claimSteps effectSet claims (b :: l) =
        (claimStep effectSet claims b >>= fun c => claimSteps effectSet c l) := fun _ => rfl
    rw [List.cons_append, hcons, hcons]
    simp only [bind_eq_ok, ih]
    constructor
    · rintro ⟨c, hc, d, hd, hrest⟩
      exact ⟨d, ⟨c, hc, hd⟩, hrest⟩
    · rintro ⟨d, ⟨c, hc, hd⟩, hrest⟩
      exact ⟨c, hc, d, hd, hrest⟩

/-- **What a step does to the flags**: it raises the one of an entry that is its own, or none. -/
theorem claimStep_flags (ht : Targeted b) (h : claimStep effectSet claims b = .ok claims') :
    (claimsPersistent b.step = true ∧ ∃ i e, claims.persistent[i]? = some false ∧
      claims'.persistent = claims.persistent.set i true ∧ effectSet.persistent[i]? = some e ∧
      declares b e = true) ∨
    (claimsPersistent b.step = false ∧ claims'.persistent = claims.persistent) := by
  rcases claimStep_eq ht with ⟨hp, -, hstep⟩ | ⟨hp, -, hstep⟩ | ⟨hp, -, hstep⟩
  · rw [hstep] at h
    obtain ⟨persistent, hfirst, h⟩ := bind_eq_ok.mp h
    obtain rfl := Except.ok.inj h
    obtain ⟨i, hi, rfl⟩ := claimFirst_eq_ok.mp hfirst
    obtain ⟨hfree, e, he, hown⟩ := firstFree_eq_some hi
    exact Or.inl ⟨hp, i, e, mem_free.mp hfree, rfl, he, hown⟩
  · rw [hstep] at h
    obtain ⟨transient, -, h⟩ := bind_eq_ok.mp h
    obtain rfl := Except.ok.inj h
    exact Or.inr ⟨hp, rfl⟩
  · rw [hstep] at h
    obtain rfl := Except.ok.inj h
    exact Or.inr ⟨hp, rfl⟩

variable {i : ℕ}

theorem claimStep_raised (ht : Targeted b) (h : claimStep effectSet claims b = .ok claims')
    (hi : claims.persistent[i]? = some true) : claims'.persistent[i]? = some true := by
  rcases claimStep_flags ht h with ⟨-, j, e, -, hset, -, -⟩ | ⟨-, hsame⟩
  · have hlt := (List.getElem?_eq_some_iff.mp hi).1
    rw [hset]
    by_cases hij : j = i
    · simp [hij, hlt]
    · simp [hij, hi]
  · rw [hsame]
    exact hi

theorem claimSteps_raised :
    ∀ {bound : List BoundStep} {claims claims' : Claims}, (∀ b ∈ bound, Targeted b) →
      claimSteps effectSet claims bound = .ok claims' → claims.persistent[i]? = some true →
      claims'.persistent[i]? = some true
  | [], _, _, _, h, hi => by
    obtain rfl := Except.ok.inj h
    exact hi
  | b :: bound, _, _, ht, h, hi => by
    obtain ⟨c, hc, hrest⟩ := bind_eq_ok.mp h
    exact claimSteps_raised (fun b hb => ht b (List.mem_cons_of_mem _ hb)) hrest
      (claimStep_raised (ht b List.mem_cons_self) hc hi)

/-- **An entry is claimed once.** -/
theorem ClaimsAt.step_unique
    (ht : ∀ b ∈ bound, Targeted b) {k k' : ℕ} (h : ClaimsAt effectSet bound k i)
    (h' : ClaimsAt effectSet bound k' i) : k = k' := by
  -- after the earlier claim the flag is up, so the later one does not find it down
  have hlt : ∀ {k k' : ℕ}, k < k' → ClaimsAt effectSet bound k i →
      ¬ ClaimsAt effectSet bound k' i := by
    rintro k k' hkk ⟨b, c, c₁, hb, hc, hstep, -, hup⟩ ⟨b', d, d₁, -, hd, -, hdown, -⟩
    obtain ⟨hk, rfl⟩ := List.getElem?_eq_some_iff.mp hb
    have hsplit :
        bound.take k' = bound.take k ++ bound[k] :: (bound.drop (k + 1)).take (k' - k - 1) := by
      rw [← List.take_append_drop (k + 1) (bound.take k'), List.take_take, Nat.min_eq_left hkk,
        List.take_succ_eq_append_getElem hk, List.append_assoc, List.drop_take]
      congr 2
    rw [hsplit] at hd
    obtain ⟨c', hc', hrest⟩ := claimSteps_append.mp hd
    obtain rfl : c = c' := Except.ok.inj (hc.symm.trans hc')
    obtain ⟨c₂, hstep', hrest⟩ := bind_eq_ok.mp hrest
    obtain rfl : c₁ = c₂ := Except.ok.inj (hstep.symm.trans hstep')
    have hmem : ∀ b ∈ (bound.drop (k + 1)).take (k' - k - 1), Targeted b := fun b hb =>
      ht b (List.mem_of_mem_drop (List.mem_of_mem_take hb))
    have htrue := claimSteps_raised hmem hrest hup
    rw [hdown] at htrue
    contradiction
  rcases Nat.lt_trichotomy k k' with hkk | rfl | hkk
  · exact absurd h' (hlt hkk h)
  · rfl
  · exact absurd h (hlt hkk h')

theorem ClaimsAt.entry_unique
    (ht : ∀ b ∈ bound, Targeted b) {k i' : ℕ} (h : ClaimsAt effectSet bound k i)
    (h' : ClaimsAt effectSet bound k i') : i = i' := by
  obtain ⟨b, c, c₁, hb, hc, hstep, hdown, hup⟩ := h
  obtain ⟨b', c', c₁', hb', hc', hstep', hdown', hup'⟩ := h'
  obtain rfl : b = b' := Option.some.inj (hb.symm.trans hb')
  obtain rfl : c = c' := Except.ok.inj (hc.symm.trans hc')
  obtain rfl : c₁ = c₁' := Except.ok.inj (hstep.symm.trans hstep')
  rcases claimStep_flags (ht b (List.mem_of_getElem? hb)) hstep with
    ⟨-, j, e, -, hset, -, -⟩ | ⟨-, hsame⟩
  · have hone : ∀ {n : ℕ}, c.persistent[n]? = some false → c₁.persistent[n]? = some true → j = n := by
      intro n hfalse htrue
      by_contra hne
      rw [hset, List.getElem?_set_ne hne, hfalse] at htrue
      simp at htrue
    exact (hone hdown hup).symm.trans (hone hdown' hup')
  · rw [hsame, hdown] at hup
    simp at hup

/-! ### What is declared -/

/-- The steps of a plan with their primary actions, if the checks before the effects pass. -/
def boundSteps (steps : List PublicFlashStep) (plan : StoredProviderPlan) : List BoundStep :=
  match bindSteps steps plan with
  | .ok bindings => bindings.map (·.1)
  | .error _ => []

/-- The step with this id claims the entry at `i`. -/
def StepClaims (effectSet : EffectSet) (bound : List BoundStep) (stepId : StepId) (i : ℕ) : Prop :=
  ∃ k b, bound[k]? = some b ∧ b.step.stepId = stepId ∧ ClaimsAt effectSet bound k i

/-- The declared effect is of the kind of `e`, on the target of `e` with the content of `e`, and its
range contains that of `e`. -/
inductive Covers : PersistentEffect → PersistentEffect → Prop where
  | erasePartition {partition declared range} : declared.containsRange range = true →
      Covers (.erasePartition partition declared) (.erasePartition partition range)
  | writePartition {partition declared range content} : declared.containsRange range = true →
      Covers (.writePartition partition declared content) (.writePartition partition range content)
  | writeRawRegion {region declared range content} : declared.containsRange range = true →
      Covers (.writeRawRegion region declared content) (.writeRawRegion region range content)

/-- The action has a single effect, and its step claims one entry, which covers the effect. -/
def ActionDeclared (effectSet : EffectSet) (bound : List BoundStep) (a : PrivateActionRecord) : Prop :=
  ∃ e, effectOf a = .persistent e ∧ ∃ i declared, StepClaims effectSet bound a.stepId i ∧
    effectSet.persistent[i]? = some declared ∧ Covers declared e ∧
    ∀ j, StepClaims effectSet bound a.stepId j → j = i

/-- Every destructive action is declared, and no two of them by one entry. -/
structure DestructiveDeclared (steps : List PublicFlashStep) (plan : StoredProviderPlan)
    (effectSet : EffectSet) : Prop where
  declared : ∀ a ∈ plan.actions, a.effectClass = .destructive →
    ActionDeclared effectSet (boundSteps steps plan) a
  apart : ∀ a ∈ plan.actions, ∀ a' ∈ plan.actions, a.effectClass = .destructive →
    a'.effectClass = .destructive → a.actionId ≠ a'.actionId →
    ∀ i, StepClaims effectSet (boundSteps steps plan) a.stepId i →
      ¬ StepClaims effectSet (boundSteps steps plan) a'.stepId i

/-- The destructive actions are those of steps that write or erase, name their target and their
range, and carry no content where the step erases. -/
def Describable (steps : List PublicFlashStep) (plan : StoredProviderPlan) : Prop :=
  ∀ a ∈ plan.actions, a.effectClass = .destructive → ∀ s ∈ steps, s.stepId = a.stepId →
    claimsPersistent s = true ∧ (∃ target, a.declaredTarget = some target) ∧
    (∃ range, a.declaredRange = some range) ∧ (s.kind = .eraseTarget → a.contentDigest = none)

variable {steps : List PublicFlashStep} {plan : StoredProviderPlan} {effectSet : EffectSet}
  {bound : List BoundStep}

theorem accepted_claims {digests : ProjectionDigests}
    (h : validateProjection steps plan effectSet = .ok digests) :
    Projected steps plan (boundSteps steps plan) ∧
      ∃ claims, claimSteps effectSet (.none effectSet) (boundSteps steps plan) = .ok claims := by
  obtain ⟨bindings, hbind, h⟩ := bind_eq_ok.mp h
  obtain ⟨_, hcover, -⟩ := bind_eq_ok.mp h
  obtain ⟨claims, hclaims, -⟩ := bind_eq_ok.mp hcover
  have heq : boundSteps steps plan = bindings.map (·.1) := by
    unfold boundSteps
    rw [hbind]
  rw [heq]
  exact ⟨bindSteps_projected hbind, claims, hclaims⟩

/-- A destructive action is the primary action of its step. -/
theorem exists_bound_of_destructive (h : Projected steps plan bound) {a : PrivateActionRecord}
    (ha : a ∈ plan.actions) (hd : a.effectClass = .destructive) :
    ∃ b ∈ bound, b.primary = a ∧ b.step.stepId = a.stepId := by
  rcases h.action a ha with ⟨-, b, hb, rfl⟩ | ⟨-, hread⟩
  · exact ⟨b, hb, rfl, (h.primary b hb).2.2.1.symm⟩
  · simp [hd] at hread

theorem place_unique (h : Projected steps plan bound) {k k' : ℕ} {b' : BoundStep}
    (hb : bound[k]? = some b) (hb' : bound[k']? = some b') (hid : b.step.stepId = b'.step.stepId) :
    k = k' := by
  have hk := (List.getElem?_eq_some_iff.mp hb).1
  refine (List.getElem?_inj (by simpa using hk) h.nodup_bound).mp ?_
  rw [List.getElem?_map, List.getElem?_map, hb, hb']
  exact congrArg some hid

theorem StepClaims.entry_unique (h : Projected steps plan bound) {id : StepId} {j : ℕ}
    (hi : StepClaims effectSet bound id i) (hj : StepClaims effectSet bound id j) : i = j := by
  obtain ⟨k, b, hb, hid, hclaims⟩ := hi
  obtain ⟨k', b', hb', hid', hclaims'⟩ := hj
  obtain rfl := place_unique h hb hb' (hid.trans hid'.symm)
  exact hclaims.entry_unique (targeted_of_projected h) hclaims'

theorem StepClaims.step_unique (h : Projected steps plan bound) {id id' : StepId}
    (hi : StepClaims effectSet bound id i) (hj : StepClaims effectSet bound id' i) : id = id' := by
  obtain ⟨k, b, hb, hid, hclaims⟩ := hi
  obtain ⟨k', b', hb', hid', hclaims'⟩ := hj
  obtain rfl := hclaims.step_unique (targeted_of_projected h) hclaims'
  obtain rfl : b = b' := Option.some.inj (hb.symm.trans hb')
  exact hid.symm.trans hid'

/-! ### When every destructive action is declared -/

/-- The effect of an action that names its target and its range, against the entry of its step. -/
theorem covers_of_own {target : SemanticTarget} {declared : PersistentEffect}
    (hcheck : checkPrimary b.step b.primary = .ok ()) (hd : b.primary.effectClass = .destructive)
    (htarget : b.primary.declaredTarget = some target)
    (hstep : b.step.semanticTarget = some target) {range : ByteRange}
    (hrange : b.primary.declaredRange = some range)
    (herase : b.step.kind = .eraseTarget → b.primary.contentDigest = none)
    (hown : declares b declared = true) :
    ∃ e, effectOf b.primary = .persistent e ∧ Covers declared e := by
  obtain ⟨-, hcontent⟩ := checkPrimary_ok hcheck
  obtain ⟨target', htarget', hown⟩ := declares_eq_true.mp hown
  obtain rfl : target = target' := Option.some.inj (hstep.symm.trans htarget')
  unfold effectOf
  rw [hd, htarget, hrange]
  rcases hown with ⟨-, hc, hin⟩ | ⟨hkind, hin⟩ | ⟨-, hc, hin⟩
  · rw [hcontent _ hc]
    exact ⟨_, rfl, .writePartition (hin range hrange)⟩
  · rw [herase hkind]
    exact ⟨_, rfl, .erasePartition (hin range hrange)⟩
  · rw [hcontent _ hc]
    exact ⟨_, rfl, .writeRawRegion (hin range hrange)⟩

/-- A step that writes or erases claims an entry that is its own. -/
theorem exists_stepClaims (h : Projected steps plan bound)
    (hclaims : claimSteps effectSet (.none effectSet) bound = .ok claims) (hb : b ∈ bound)
    (hwrites : claimsPersistent b.step = true) :
    ∃ i declared, StepClaims effectSet bound b.step.stepId i ∧
      effectSet.persistent[i]? = some declared ∧ declares b declared = true := by
  obtain ⟨k, hk, rfl⟩ := List.getElem_of_mem hb
  have hsplit : bound = bound.take k ++ bound[k] :: bound.drop (k + 1) := by
    rw [List.getElem_cons_drop, List.take_append_drop]
  rw [hsplit] at hclaims
  obtain ⟨c, hbefore, hrest⟩ := claimSteps_append.mp hclaims
  obtain ⟨c', hstep, -⟩ := bind_eq_ok.mp hrest
  have ht := targeted_of_projected h bound[k] hb
  rcases claimStep_flags ht hstep with ⟨-, i, declared, hdown, hset, he, hown⟩ | ⟨hno, -⟩
  · have hlt := (List.getElem?_eq_some_iff.mp hdown).1
    have hup : c'.persistent[i]? = some true := by
      rw [hset]
      simp [hlt]
    have hget : bound[k]? = some bound[k] := List.getElem?_eq_getElem hk
    exact ⟨i, declared, ⟨k, bound[k], hget, rfl, bound[k], c, c', hget, hbefore, hstep, hdown, hup⟩,
      he, hown⟩
  · rw [hwrites] at hno
    contradiction

/-- What a step claims is its own, and only steps that write or erase claim. -/
theorem StepClaims.own (h : Projected steps plan bound) (hb : b ∈ bound)
    (hi : StepClaims effectSet bound b.step.stepId i) : claimsPersistent b.step = true ∧
      ∀ declared, effectSet.persistent[i]? = some declared → declares b declared = true := by
  obtain ⟨k, b', hb', hid, b'', c, c', hb'', -, hstep, hdown, hup⟩ := hi
  obtain rfl : b' = b'' := Option.some.inj (hb'.symm.trans hb'')
  obtain rfl : b' = b := h.eq_of_stepId (List.mem_of_getElem? hb') hb hid
  rcases claimStep_flags (targeted_of_projected h b' hb) hstep with
    ⟨hwrites, j, e, -, hset, he, hown⟩ | ⟨-, hsame⟩
  · refine ⟨hwrites, fun declared hdeclared => ?_⟩
    obtain rfl : j = i := by
      by_contra hne
      rw [hset, List.getElem?_set_ne hne, hdown] at hup
      simp at hup
    rw [he] at hdeclared
    obtain rfl := Option.some.inj hdeclared
    exact hown
  · rw [hsame, hdown] at hup
    simp at hup

/-- **Destructive actions are declared exactly where they are describable.** For every accepted
projection, each destructive action is covered by an entry of its own exactly when the destructive
actions are those of steps that write or erase, name their target and their range, and carry no
content where the step erases. -/
theorem destructive_declared_iff_describable {digests : ProjectionDigests}
    (haccepted : validateProjection steps plan effectSet = .ok digests) :
    DestructiveDeclared steps plan effectSet ↔ Describable steps plan := by
  obtain ⟨hproj, claims, hclaims⟩ := accepted_claims haccepted
  constructor
  · intro h a ha hd s hs hid
    obtain ⟨b, hb, rfl, hbid⟩ := exists_bound_of_destructive hproj ha hd
    obtain rfl : b.step = s := by
      obtain ⟨b', hb', rfl⟩ := List.mem_map.mp (hproj.steps_eq ▸ hs)
      rw [hproj.eq_of_stepId hb hb' (hbid.trans hid.symm)]
    obtain ⟨e, heffect, i, declared, hi, hget, hcovers, -⟩ := h.declared b.primary ha hd
    rw [← hbid] at hi
    obtain ⟨hwrites, hown⟩ := hi.own hproj hb
    obtain ⟨htarget, hrange, hcontent, hplace⟩ := effectOf_persistent heffect
    obtain ⟨target, range, he⟩ := hplace
    refine ⟨hwrites, ⟨target, htarget.trans he.1⟩, ⟨range, hrange.trans he.2⟩, fun herase => ?_⟩
    -- the entry of a step that erases is an erasure, and so is the effect it covers
    obtain ⟨_, -, hdeclared⟩ := declares_eq_true.mp (hown declared hget)
    rcases hdeclared with ⟨hkind, -, -⟩ | - | ⟨hkind, -, -⟩
    · simp [herase] at hkind
    · cases hcovers
      exact hcontent
    · simp [herase] at hkind
  · intro h
    refine ⟨fun a ha hd => ?_, fun a ha a' ha' hd hd' hne i hi hi' => ?_⟩
    · obtain ⟨b, hb, rfl, hbid⟩ := exists_bound_of_destructive hproj ha hd
      have hs : b.step ∈ steps := by
        rw [← hproj.steps_eq]
        exact List.mem_map_of_mem hb
      obtain ⟨hwrites, ⟨target, htarget⟩, ⟨range, hrange⟩, herase⟩ := h b.primary ha hd b.step hs hbid
      obtain ⟨-, -, -, hcheck⟩ := hproj.primary b hb
      have hstep := (checkPrimary_ok hcheck).1 target htarget
      obtain ⟨i, declared, hi, hget, hown⟩ := exists_stepClaims hproj hclaims hb hwrites
      obtain ⟨e, heffect, hcovers⟩ := covers_of_own hcheck hd htarget hstep hrange herase hown
      rw [hbid] at hi
      exact ⟨e, heffect, i, declared, hi, hget, hcovers, fun j hj => hj.entry_unique hproj hi⟩
    · obtain ⟨b, hb, rfl, hbid⟩ := exists_bound_of_destructive hproj ha hd
      obtain ⟨b', hb', rfl, hbid'⟩ := exists_bound_of_destructive hproj ha' hd'
      have hsame := hi.step_unique hproj hi'
      obtain rfl := hproj.eq_of_stepId hb hb' (hbid.trans (hsame.trans hbid'.symm))
      exact hne rfl

/-- The plan that writes one partition declares what it does. -/
theorem destructive_declared_iff_describable_boot :
    (∃ digests, validateProjection [bootStep] ⟨[bootWrite]⟩ bootEffects = .ok digests) ∧
      DestructiveDeclared [bootStep] ⟨[bootWrite]⟩ bootEffects := by
  have hcover : validateEffectCoverage [⟨bootStep, bootWrite⟩] bootEffects = .ok () := by
    rfl
  obtain ⟨digests, hdigests⟩ := validateProjection_of_binds bootStep_binds hcover
  refine ⟨⟨digests, hdigests⟩, (destructive_declared_iff_describable hdigests).mpr ?_⟩
  intro a ha _ s hs _
  rw [List.mem_singleton.mp ha, List.mem_singleton.mp hs]
  exact ⟨rfl, ⟨_, rfl⟩, ⟨_, rfl⟩, fun hkind => by simp [bootStep] at hkind⟩

/-! ### A plan that hides an erasure -/

def userdata : PartitionId := ⟨"userdata", by decide⟩

/-- The action of the plan that writes one partition, made to erase another. -/
def hiddenErase : PrivateActionRecord :=
  { bootWrite with declaredTarget := some (.partition userdata), contentDigest := none }

/-- A step that says it verifies, with a higher effect class than its kind needs. -/
def verifyStep : PublicFlashStep :=
  { bootStep with
    kind := .verifyTarget
    semanticTarget := some (.partition userdata)
    contentDigest := none
    privateActionDigest := hiddenErase.digest.toOption.getD bootContent }

/-- **An erasure behind a verification is accepted with the effect set that declares nothing.** -/
theorem hidden_erase_undeclared :
    (∃ digests, validateProjection [verifyStep] ⟨[hiddenErase]⟩ .readOnly = .ok digests) ∧
      hiddenErase.effectClass = .destructive ∧
      ¬ DestructiveDeclared [verifyStep] ⟨[hiddenErase]⟩ .readOnly := by
  have hdigest : hiddenErase.digest = .ok verifyStep.privateActionDigest := by
    rfl
  have hself : verifyStep.validateSelfConsistent = .ok () := by
    decide
  have hcheck : checkPrimary verifyStep hiddenErase = .ok () := by
    have hsevere : ¬ (WorkflowEffect.destructive < WorkflowEffect.destructive) := by decide
    simp [checkPrimary, verifyStep, bootStep, hiddenErase, bootWrite, hsevere]
  have hbinds := bindSteps_paired [⟨verifyStep, hiddenErase⟩] (List.cons_ne_nil _ _)
    (List.forall_mem_singleton.mpr ⟨hself, rfl, rfl, hcheck, hdigest⟩) (List.nodup_singleton _)
    (List.nodup_singleton _)
  refine ⟨validateProjection_of_binds hbinds rfl, rfl, fun h => ?_⟩
  obtain ⟨e, -, i, declared, -, hget, -⟩ := h.declared hiddenErase (List.mem_singleton_self _) rfl
  simp [EffectSet.readOnly] at hget

end ArkForge.Engine.DeclaredEffects
