import ArkForge.Provider.Lowering

/-! # What a lowered plan consists of

A plan that is built is the workflow of its request (`workflow`): a list of drafts, each with the
identifiers of its position (`Lowered`, `NumberedFrom`). Everything about built plans is read off
from this. -/

namespace ArkForge.Provider.LoweringSpec

open Lib.Result Lib.Numerals Lib.KeySort
open Core.Digest Core.Ids Core.Effect
open Core.Projection Core.Plan
open Core.Profile Artifact.Manifest
open Lowering

/-! ### Numbered steps -/

/-- A draft with its identifiers, the digest of its action and what goes in front of it. -/
structure Lowered where
  draft : Draft
  stepId : StepId
  actionId : ActionId
  subs : List PrivateActionRecord
  digest : Sha256Digest

namespace Lowered

def primary (l : Lowered) : PrivateActionRecord := l.draft.primary l.stepId l.actionId

def step (l : Lowered) : PlanStep := l.draft.step l.stepId l.digest

/-- The actions of the step, in the order they are stored. -/
def actions (l : Lowered) : List PrivateActionRecord := l.subs ++ [l.primary]

end Lowered

def idText (pre : String) (n : ℕ) : String := pre ++ "-" ++ zeroPadded 3 n

theorem idText_injective (pre : String) : Function.Injective (idText pre) := by
  intro m n h
  refine zeroPadded_injective 3 (String.toList_inj.mp ?_)
  have := congrArg String.toList h
  simpa [idText] using this

structure Numbered (n : ℕ) (l : Lowered) : Prop where
  stepId : l.stepId.value = idText "STEP" n
  actionId : l.actionId.value = idText "ACT" n
  subs : (l.draft.subAction = none ∧ l.subs = []) ∨
    ∃ body id, l.draft.subAction = some body ∧ id.value = idText "SUB" n ∧
      l.subs = [Draft.sub l.stepId id body]
  digest : l.primary.digest = .ok l.digest

/-- The steps have the numbers behind `n`. -/
def NumberedFrom : ℕ → List Lowered → Prop
  | _, [] => True
  | n, l :: ls => Numbered (n + 1) l ∧ NumberedFrom (n + 1) ls

variable {ls : List Lowered} {n : ℕ}

theorem numberedFrom_append {ms : List Lowered} :
    NumberedFrom n (ls ++ ms) ↔ NumberedFrom n ls ∧ NumberedFrom (n + ls.length) ms := by
  induction ls generalizing n with
  | nil => simp [NumberedFrom]
  | cons l ls ih =>
    rw [List.cons_append, NumberedFrom, NumberedFrom, ih, and_assoc, List.length_cons,
      Nat.add_right_comm, Nat.add_assoc]

/-- Two steps have different numbers. -/
def Distinct (l m : Lowered) : Prop := ∃ i j, i ≠ j ∧ Numbered i l ∧ Numbered j m

variable {l : Lowered}

theorem NumberedFrom.exists_later (h : NumberedFrom n ls) (hl : l ∈ ls) :
    ∃ k, n < k ∧ Numbered k l := by
  induction ls generalizing n with
  | nil => cases hl
  | cons m ls ih =>
    rcases List.mem_cons.mp hl with rfl | hl
    · exact ⟨n + 1, n.lt_succ_self, h.1⟩
    · obtain ⟨k, hk, hnumbered⟩ := ih h.2 hl
      exact ⟨k, by omega, hnumbered⟩

theorem NumberedFrom.pairwise (h : NumberedFrom n ls) : ls.Pairwise Distinct := by
  induction ls generalizing n with
  | nil => exact .nil
  | cons l ls ih =>
    refine .cons (fun m hm => ?_) (ih h.2)
    obtain ⟨k, hk, hnumbered⟩ := h.2.exists_later hm
    exact ⟨n + 1, k, by omega, h.1, hnumbered⟩

theorem Distinct.stepId {m : Lowered} (h : Distinct l m) : l.stepId ≠ m.stepId := by
  obtain ⟨i, j, hne, hl, hm⟩ := h
  intro heq
  have hvalue := congrArg OpaqueId.value heq
  rw [hl.stepId, hm.stepId] at hvalue
  exact hne (idText_injective _ hvalue)

variable {a : PrivateActionRecord}

/-- Every action of a step bears the identifier of the step. -/
theorem Numbered.stepId_of_mem (h : Numbered n l) (ha : a ∈ l.actions) :
    a.stepId = l.stepId := by
  rcases List.mem_append.mp ha with hsub | hprimary
  · obtain ⟨-, hnil⟩ | ⟨body, id, -, -, hsubs⟩ := h.subs
    · rw [hnil] at hsub
      cases hsub
    · rw [hsubs, List.mem_singleton] at hsub
      rw [hsub]
      rfl
  · rw [List.mem_singleton.mp hprimary]
    rfl

/-- The identifiers of the actions of a step come from its number. -/
theorem Numbered.actionId_of_mem (h : Numbered n l) (ha : a ∈ l.actions) :
    a.actionId.value = idText "ACT" n ∨ a.actionId.value = idText "SUB" n := by
  rcases List.mem_append.mp ha with hsub | hprimary
  · obtain ⟨-, hnil⟩ | ⟨body, id, -, hid, hsubs⟩ := h.subs
    · rw [hnil] at hsub
      cases hsub
    · rw [hsubs, List.mem_singleton] at hsub
      rw [hsub]
      exact .inr hid
  · rw [List.mem_singleton.mp hprimary]
    exact .inl h.actionId

theorem idText_act_ne_sub (m n : ℕ) : idText "ACT" m ≠ idText "SUB" n := by
  intro h
  have hhead := congrArg (fun s => s.toList.head?) h
  simp [idText] at hhead

theorem Numbered.nodup_actions (h : Numbered n l) : (l.actions.map (·.actionId)).Nodup := by
  obtain ⟨-, hnil⟩ | ⟨body, id, -, hid, hsubs⟩ := h.subs
  · simp [Lowered.actions, hnil]
  · have hne : id ≠ l.primary.actionId := by
      intro heq
      have hvalue := congrArg OpaqueId.value heq
      exact idText_act_ne_sub n n ((h.actionId.symm.trans hvalue.symm).trans hid)
    simpa [Lowered.actions, hsubs, Draft.sub] using hne

theorem Distinct.actionId {m : Lowered} (h : Distinct l m) {b : PrivateActionRecord}
    (ha : a ∈ l.actions) (hb : b ∈ m.actions) : a.actionId ≠ b.actionId := by
  obtain ⟨i, j, hne, hl, hm⟩ := h
  intro heq
  have hvalue := congrArg OpaqueId.value heq
  rcases hl.actionId_of_mem ha with ha | ha <;> rcases hm.actionId_of_mem hb with hb | hb <;>
    rw [ha, hb] at hvalue
  · exact hne (idText_injective _ hvalue)
  · exact idText_act_ne_sub _ _ hvalue
  · exact idText_act_ne_sub _ _ hvalue.symm
  · exact hne (idText_injective _ hvalue)

structure Grown (b b' : Building) (ls : List Lowered) : Prop where
  numbered : NumberedFrom b.sequence ls
  steps : b'.publicSteps = b.publicSteps ++ ls.map (·.step)
  actions : b'.actions = b.actions ++ ls.flatMap (·.actions)
  sequence : b'.sequence = b.sequence + ls.length

theorem Grown.refl (b : Building) : Grown b b [] := ⟨trivial, by simp, by simp, rfl⟩

theorem Grown.trans {b b' b'' : Building} {ms : List Lowered} (h : Grown b b' ls)
    (h' : Grown b' b'' ms) : Grown b b'' (ls ++ ms) where
  numbered := numberedFrom_append.mpr ⟨h.numbered, h.sequence ▸ h'.numbered⟩
  steps := by rw [h'.steps, h.steps, List.map_append, List.append_assoc]
  actions := by rw [h'.actions, h.actions, List.flatMap_append, List.append_assoc]
  sequence := by rw [h'.sequence, h.sequence, List.length_append, Nat.add_assoc]

variable {pre : String}

theorem generatedId_ok {id : OpaqueId} (h : generatedId pre n = .ok id) :
    id.value = idText pre n := OpaqueId.value_of_new (mapError_eq_ok.mp h)

theorem nextIds_ok {m : ℕ} {stepId : StepId} {actionId : ActionId}
    (h : nextIds n pre = .ok (m, stepId, actionId)) :
    m = n + 1 ∧ stepId.value = idText "STEP" (n + 1) ∧ actionId.value = idText pre (n + 1) := by
  unfold nextIds at h
  split_ifs at h
  obtain ⟨s, hs, h⟩ := bind_eq_ok.mp h
  obtain ⟨a, ha, h⟩ := bind_eq_ok.mp h
  cases h
  exact ⟨rfl, generatedId_ok hs, generatedId_ok ha⟩

variable {d : Draft}

theorem subs_ok {stepId : StepId} {subs : List PrivateActionRecord}
    (h : d.subs stepId n = .ok subs) : (d.subAction = none ∧ subs = []) ∨
      ∃ body id, d.subAction = some body ∧ id.value = idText "SUB" n ∧
        subs = [Draft.sub stepId id body] := by
  unfold Draft.subs at h
  split at h
  · next hnone => exact .inl ⟨hnone, (Except.ok.inj h).symm⟩
  · next body hsome =>
    obtain ⟨id, hid, h⟩ := bind_eq_ok.mp h
    exact .inr ⟨body, id, hsome, generatedId_ok hid, (Except.ok.inj h).symm⟩

/-- **One more step.** -/
theorem add_ok {b b' : Building} (h : b.add d = .ok b') : ∃ l, l.draft = d ∧ Grown b b' [l] := by
  obtain ⟨⟨n, stepId, actionId⟩, hids, h⟩ := bind_eq_ok.mp h
  obtain ⟨subs, hsubs, h⟩ := bind_eq_ok.mp h
  obtain ⟨digest, hdigest, h⟩ := bind_eq_ok.mp h
  obtain ⟨rfl, hstep, haction⟩ := nextIds_ok hids
  refine ⟨⟨d, stepId, actionId, subs, digest⟩, rfl, ⟨⟨⟨hstep, haction, subs_ok hsubs, ?_⟩,
    trivial⟩, ?_, ?_, ?_⟩⟩
  · exact mapError_eq_ok.mp hdigest
  · rw [← Except.ok.inj h]
    rfl
  · rw [← Except.ok.inj h]
    simp [Lowered.actions, Lowered.primary]
  · rw [← Except.ok.inj h]
    rfl

theorem foldlM_add_ok : ∀ {ds : List Draft} {b b' : Building}, ds.foldlM Building.add b = .ok b' →
    ∃ ls, ls.map (·.draft) = ds ∧ Grown b b' ls
  | [], b, _, h => by
    cases h
    exact ⟨[], rfl, Grown.refl b⟩
  | d :: ds, b, b', h => by
    obtain ⟨b₁, hadd, hrest⟩ := bind_eq_ok.mp h
    obtain ⟨l, hl, hgrown⟩ := add_ok hadd
    obtain ⟨ls, hls, hmore⟩ := foldlM_add_ok hrest
    exact ⟨l :: ls, by rw [List.map_cons, hl, hls], hgrown.trans hmore⟩

/-! ### Targets -/

theorem blockSize_ok {profile : DeviceProfile} {size : UInt64} (h : blockSize profile = .ok size) :
    ∃ s, profile.storage.logicalBlockSize = some s ∧ size = s.toUInt64 := by
  unfold blockSize at h
  split at h
  · next s hs => exact ⟨s, hs, (Except.ok.inj h).symm⟩
  · cases h

/-- The target resolves: where its member goes, and how long it is. -/
structure Resolves (request : MaterializeRequest) (t : AllowedTarget) (r : ResolvedTarget) :
    Prop where
  target : r.target = t
  sourceMember : t.sourceMember = some r.memberName
  member : request.artifact.member r.memberName = some r.member
  start : ∃ size, request.profile.storage.logicalBlockSize = some size ∧
    r.range.start.toNat = t.offsetSectors.toNat * size.toNat
  length : r.range.length = r.member.sizeBytes

theorem byteRange_ok {start length : UInt64} {range : ByteRange}
    (h : byteRange start length = .ok range) : range.start = start ∧ range.length = length := by
  have hnew := mapError_eq_ok.mp h
  unfold ByteRange.new at hnew
  split_ifs at hnew
  cases hnew
  exact ⟨rfl, rfl⟩

variable {r : ResolvedTarget} {target : AllowedTarget} {request : MaterializeRequest}

theorem resolveWrite_ok (h : resolveWrite request target = .ok r) :
    Resolves request target r := by
  unfold resolveWrite at h
  split at h
  · cases h
  next memberName hsource =>
  split at h
  · cases h
  next member hmember =>
  obtain ⟨size, hsize, h⟩ := bind_eq_ok.mp h
  obtain ⟨s, hs, rfl⟩ := blockSize_ok hsize
  split_ifs at h with hfits
  on_goal 2 => cases h
  obtain ⟨range, hrange, h⟩ := bind_eq_ok.mp h
  obtain ⟨hstart, hlength⟩ := byteRange_ok hrange
  cases h
  refine ⟨rfl, hsource, hmember, ⟨s, hs, ?_⟩, hlength⟩
  rw [UInt32.toNat_toUInt64] at hfits
  rw [hstart, UInt64.toNat_mul, UInt32.toNat_toUInt64, Nat.mod_eq_of_lt hfits]

/-- What was written is read back: the unchecked arithmetic is the one that was checked. -/
theorem resolveVerify_of_resolveWrite
    (h : resolveWrite request target = .ok r) : resolveVerify request target = .ok r := by
  unfold resolveWrite at h
  unfold resolveVerify
  split at h
  · cases h
  next memberName hsource =>
  split at h
  · cases h
  next member hmember =>
  rw [hsource]
  simp only [expected, ok_bind]
  rw [hmember]
  obtain ⟨size, hsize, h⟩ := bind_eq_ok.mp h
  rw [hsize]
  simp only [ok_bind]
  split_ifs at h with hfits
  on_goal 2 => cases h
  rw [if_pos hfits]
  exact h

variable {loader : DeviceMode}

theorem addWrites_ok :
    ∀ {targets : List AllowedTarget} {b b' : Building} {persistent persistent' : List PersistentEffect},
    addWrites request loader targets b persistent = .ok (b', persistent') →
    ∃ rs ls, List.Forall₂ (fun t r => resolveWrite request t = .ok r) targets rs ∧
      ls.map (·.draft) = rs.map (writeTarget loader) ∧ Grown b b' ls ∧
      persistent' = persistent ++ rs.map (·.effect)
  | [], b, _, persistent, _, h => by
    cases h
    exact ⟨[], [], .nil, rfl, Grown.refl b, by simp⟩
  | target :: rest, b, b', persistent, persistent', h => by
    obtain ⟨r, hr, h⟩ := bind_eq_ok.mp h
    obtain ⟨b₁, hadd, h⟩ := bind_eq_ok.mp h
    obtain ⟨l, hl, hgrown⟩ := add_ok hadd
    obtain ⟨rs, ls, hrs, hls, hrest, heffects⟩ := addWrites_ok h
    refine ⟨r :: rs, l :: ls, .cons hr hrs, ?_, hgrown.trans hrest, ?_⟩
    · rw [List.map_cons, List.map_cons, hl, hls]
    · rw [heffects, List.append_assoc]
      rfl

theorem addVerifies_ok :
    ∀ {targets : List AllowedTarget} {rs : List ResolvedTarget} {b b' : Building},
    List.Forall₂ (fun t r => resolveWrite request t = .ok r) targets rs →
    addVerifies request loader targets b = .ok b' →
    ∃ ls, ls.map (·.draft) = rs.map (verifyTarget request.profile loader) ∧ Grown b b' ls
  | [], _, b, _, .nil, h => by
    cases h
    exact ⟨[], rfl, Grown.refl b⟩
  | target :: rest, r :: rs, b, b', .cons hr hrs, h => by
    unfold addVerifies at h
    rw [resolveVerify_of_resolveWrite hr] at h
    obtain ⟨_, hsame, h⟩ := bind_eq_ok.mp h
    obtain rfl := Except.ok.inj hsame
    obtain ⟨b₁, hadd, h⟩ := bind_eq_ok.mp h
    obtain ⟨l, hl, hgrown⟩ := add_ok hadd
    obtain ⟨ls, hls, hrest⟩ := addVerifies_ok hrs h
    exact ⟨l :: ls, by rw [List.map_cons, List.map_cons, hl, hls], hgrown.trans hrest⟩

/-! ### The workflow -/

/-- What a built plan was built from. -/
structure Blueprint where
  normal : DeviceMode
  loader : DeviceMode
  layout : Sha256Digest
  targets : List ResolvedTarget
  lowered : List Lowered

namespace Blueprint

variable (request : MaterializeRequest) (p : Blueprint)

def startsInLoader : Bool := decide (request.probe.observedMode = p.loader)

/-- What comes before the writes. -/
def opening : List Draft :=
  (if p.startsInLoader request then [] else [ensureMode p.normal p.loader]) ++
    [probeDevice p.loader, validateLayout p.loader p.layout]

/-- What comes behind the readbacks. -/
def closing : List Draft :=
  [reboot p.loader p.normal, postflightProbe p.normal (buildFacts request.artifact)]

def workflow : List Draft :=
  p.opening request ++ (p.targets.map (writeTarget p.loader) ++
    (p.targets.map (verifyTarget request.profile p.loader) ++ p.closing request))

theorem forall_mem_workflow {P : Draft → Prop} (hensure : P (ensureMode p.normal p.loader))
    (hprobe : P (probeDevice p.loader)) (hlayout : P (validateLayout p.loader p.layout))
    (hwrite : ∀ r ∈ p.targets, P (writeTarget p.loader r))
    (hverify : ∀ r ∈ p.targets, P (verifyTarget request.profile p.loader r))
    (hreboot : P (reboot p.loader p.normal))
    (hpostflight : P (postflightProbe p.normal (buildFacts request.artifact))) :
    ∀ d ∈ p.workflow request, P d := by
  have henter : ∀ d ∈ (if p.startsInLoader request then [] else [ensureMode p.normal p.loader]),
      P d := by
    split_ifs
    · exact List.forall_mem_nil _
    · exact List.forall_mem_singleton.mpr hensure
  unfold workflow opening closing
  simp only [List.forall_mem_append, List.forall_mem_map, List.forall_mem_cons]
  exact ⟨⟨henter, hprobe, hlayout, List.forall_mem_nil _⟩, hwrite, hverify, hreboot, hpostflight,
    List.forall_mem_nil _⟩

end Blueprint

structure Follows (request : MaterializeRequest) (p : Blueprint) (built : BuiltPlan) : Prop where
  loader : p.loader.value = LOADER_MODE
  resolved : List.Forall₂ (Resolves request) (orderedTargets request) p.targets
  drafts : p.lowered.map (·.draft) = p.workflow request
  numbered : NumberedFrom 0 p.lowered
  publicSteps : built.publicSteps = p.lowered.map (·.step)
  actions : built.privatePlan.actions = p.lowered.flatMap (·.actions)
  effects : built.effectSet = {
    persistent := p.targets.map (·.effect)
    transient := transientEffects (p.startsInLoader request) p.normal p.loader
    dataImpact := dataImpact request }

namespace Follows

variable {request : MaterializeRequest} {p : Blueprint} {built : BuiltPlan}

theorem draft_mem (h : Follows request p built) (hl : l ∈ p.lowered) :
    l.draft ∈ p.workflow request := h.drafts ▸ List.mem_map_of_mem hl

theorem pairwise (h : Follows request p built) : p.lowered.Pairwise Distinct := h.numbered.pairwise

theorem exists_number (h : Follows request p built) : ∀ l ∈ p.lowered, ∃ n, Numbered n l :=
  fun _ hl => (h.numbered.exists_later hl).imp fun _ hn => hn.2

/-- Every target of the plan is one of the profile, resolved. -/
theorem resolves (h : Follows request p built) (hr : r ∈ p.targets) :
    r.target ∈ request.profile.allowedTargets ∧ Resolves request r.target r := by
  obtain ⟨t, ht, hresolves⟩ := exists_of_forall₂ h.resolved.flip hr
  rw [hresolves.target]
  exact ⟨(List.mem_filter.mp (mem_sortByKey.mp ht)).1, hresolves⟩

theorem map_target (h : Follows request p built) :
    p.targets.map (·.target) = orderedTargets request := by
  have hsame : List.Forall₂ (· = ·) (orderedTargets request) (p.targets.map (·.target)) :=
    List.forall₂_map_right_iff.mpr (h.resolved.imp fun _ _ hr => hr.target.symm)
  exact (List.forall₂_eq_eq_eq ▸ hsame : orderedTargets request = _).symm

/-- The targets of an accepted profile are different partitions. -/
theorem distinct (h : Follows request p built) (haccepted : Accepted request.profile) :
    (p.targets.map (·.target.partition)).Nodup := by
  have hmap : p.targets.map (·.target.partition) = (orderedTargets request).map (·.partition) := by
    rw [← h.map_target, List.map_map]
    rfl
  rw [hmap, orderedTargets, ((sortByKey_perm _).map _).nodup_iff]
  exact haccepted.distinct.sublist (List.filter_sublist.map _)

end Follows

theorem mode_ok {name : String} {m : DeviceMode} (h : mode name = .ok m) : m.value = name := by
  have hnew := mapError_eq_ok.mp h
  unfold DeviceMode.new at hnew
  split_ifs at hnew
  cases hnew
  rfl

/-- **A built plan is the workflow of its request.** -/
theorem buildSteps_ok {built : BuiltPlan}
    (h : buildSteps request = .ok built) : ∃ p, Follows request p built := by
  unfold buildSteps at h
  simp only [bind_eq_ok] at h
  obtain ⟨_, -, normal, -, loader, hloader, b₁, henter, b₂, hprobe, layout, -, b₃, hvalidate,
    ⟨b₄, persistent⟩, hwrites, b₅, hverifies, b₆, hreboot, b₇, hpostflight, h⟩ := h
  have hfirst : ∃ ls, ls.map (·.draft) =
      (if decide (request.probe.observedMode = loader) = true then []
        else [ensureMode normal loader]) ∧ Grown ⟨[], [], 0⟩ b₁ ls := by
    unfold Building.enter at henter
    split_ifs at henter ⊢
    · cases henter
      exact ⟨[], rfl, Grown.refl _⟩
    · obtain ⟨l, hl, hgrown⟩ := add_ok henter
      exact ⟨[l], by rw [List.map_singleton, hl], hgrown⟩
  obtain ⟨ls₁, hls₁, hg₁⟩ := hfirst
  obtain ⟨l₂, hl₂, hg₂⟩ := add_ok hprobe
  obtain ⟨l₃, hl₃, hg₃⟩ := add_ok hvalidate
  obtain ⟨rs, ls₄, hrs, hls₄, hg₄, hpersistent⟩ := addWrites_ok hwrites
  obtain ⟨ls₅, hls₅, hg₅⟩ := addVerifies_ok hrs hverifies
  obtain ⟨l₆, hl₆, hg₆⟩ := add_ok hreboot
  obtain ⟨l₇, hl₇, hg₇⟩ := add_ok hpostflight
  have hgrown := hg₁.trans (hg₂.trans (hg₃.trans (hg₄.trans (hg₅.trans (hg₆.trans hg₇)))))
  cases h
  refine ⟨⟨normal, loader, layout, rs, _⟩, mode_ok hloader, hrs.imp fun _ _ => resolveWrite_ok, ?_,
    hgrown.numbered, ?_, ?_, ?_⟩
  · simp [Blueprint.workflow, Blueprint.opening, Blueprint.closing, Blueprint.startsInLoader, hls₁,
      hl₂, hl₃, hls₄, hls₅, hl₆, hl₇]
  · simpa using hgrown.steps
  · simpa using hgrown.actions
  · rw [hpersistent]
    rfl

/-! ### A request for the board -/

theorem length_zeros : (List.replicate 32 (0 : UInt8)).length = 32 := List.length_replicate

def zeroDigest : Sha256Digest := ⟨List.replicate 32 0, length_zeros⟩

def boardMember (path : String) (sizeBytes : UInt64) : ArchiveMemberFact where
  path
  sizeBytes
  sha256 := zeroDigest
  role := .imageCandidate

def boardEntry (name : String) (offsetSectors : UInt64) (sizeSectors : Option UInt64) :
    PartitionEntryFact where
  index := 0
  name
  offsetSectors
  sizeSectors
  partitionAttribute := none
  grammarBranch := .fixed

def boardArtifact (members : List ArchiveMemberFact) (blockSize : UInt32)
    (entries : List PartitionEntryFact) : ArtifactManifest where
  format := ⟨imagesId, ⟨1, 0, 0⟩⟩
  contentDigest := zeroDigest
  sizeBytes := 0
  members
  partitionTable := some ⟨"board", blockSize, entries⟩
  buildFacts := []
  unclassifiedMembers := []
  executionRelevantUnknowns := []
  confidence := .productionManifest

/-- A full restore of the board, which is in its normal mode. -/
def boardRequest (artifact : ArtifactManifest) (profile : DeviceProfile) : MaterializeRequest where
  planId := boardId
  executionPurpose := .primaryFlash
  intent := .fullRestore
  artifact
  artifactId := boardId
  profile
  probe := ⟨normalMode⟩
  authorityBinding := ⟨boardId, boardId, 1, zeroDigest⟩
  authoritySupport := ⟨zeroDigest, .productionVerified⟩
  toolchain := ⟨boardId, .nativeProtocol, ⟨1, 0, 0⟩, zeroDigest, none⟩
  hostPlatform := ⟨boardId, boardId⟩
  driverFactsDigest := zeroDigest
  evidenceSetDigest := zeroDigest
  createdAtEpochMs := 0
  planLifetimeMs := 1

end ArkForge.Provider.LoweringSpec
