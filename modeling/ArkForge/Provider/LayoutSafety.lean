import ArkForge.Provider.BuiltProjection
import ArkForge.Provider.Rockchip

/-! # Where an executable plan writes

The order of the steps of an executable plan is right by construction. Where they write depends on
two block sizes, the one of the profile and the one of the artifact's table: the offsets are
multiplied by the first, the extents are checked with the second. -/

namespace ArkForge.Provider.LayoutSafety

open Lib.Result Lib.KeySort
open Core.Ids Core.Effect
open Core.Projection Core.ProjectionSpec
open Core.Plan Core.Envelope Core.Profile Artifact.Manifest
open Execute (Halt)
open Lowering LoweringSpec BuiltProjection
open Rockchip

variable {table : PartitionTableFact} {artifact : ArtifactManifest} {t : AllowedTarget}
  {e : PartitionEntryFact}

/-! ### What is asked of a plan -/

/-- Two spans of bytes, by their start and their end, do not meet. -/
def Clear (a b : ℕ × ℕ) : Prop := a.2 ≤ b.1 ∨ b.2 ≤ a.1

def span (r : ByteRange) : ℕ × ℕ := (r.start.toNat, r.start.toNat + r.length.toNat)

/-- The span is before the extent of the entry, or behind it. -/
def Outside (table : PartitionTableFact) (e : PartitionEntryFact) (s : ℕ × ℕ) : Prop :=
  s.2 ≤ e.offsetSectors.toNat * table.logicalBlockSize.toNat ∨
    ∃ size, e.sizeSectors = some size ∧
      (e.offsetSectors.toNat + size.toNat) * table.logicalBlockSize.toNat ≤ s.1

/-- The span meets no protected target. -/
def Unprotected (request : MaterializeRequest) (s : ℕ × ℕ) : Prop :=
  ∀ q ∈ request.profile.protectedTargets, ∀ table e, request.artifact.partitionTable = some table →
    table.entry q.value = some e → Outside table e s

structure Writes (plan : StoredProviderPlan) (t : AllowedTarget) (s : PlanStep) : Prop where
  kind : s.kind = .writeTarget
  target : s.semanticTarget = some (.partition t.partition)
  primary : ∃ a, primariesOf plan.actions s.stepId.value = [a] ∧ a.effectClass = .destructive

/-- The step verifies what the other one wrote, with the same content and the same range. -/
structure Verifies (plan : StoredProviderPlan) (w v : PlanStep) : Prop where
  kind : v.kind = .verifyTarget
  target : v.semanticTarget = w.semanticTarget
  content : v.contentDigest = w.contentDigest
  range : ∃ a b range, primariesOf plan.actions w.stepId.value = [a] ∧
    primariesOf plan.actions v.stepId.value = [b] ∧
    a.declaredRange = some range ∧ b.declaredRange = some range

/-- The steps are in order: the mode change, the probe and the validation of the table, then the
targets of the profile by their write order, then their readbacks, then the reboot. -/
def InOrder (request : MaterializeRequest) (steps : List PlanStep) (plan : StoredProviderPlan) :
    Prop :=
  ∃ opening writes verifies closing, steps = opening ++ (writes ++ (verifies ++ closing)) ∧
    opening.map (·.kind) = (if request.probe.observedMode.value = LOADER_MODE then []
      else [.ensureMode]) ++ [.probeDevice, .validateLayout] ∧
    List.Forall₂ (Writes plan) request.profile.writeOrdered writes ∧
    List.Forall₂ (Verifies plan) writes verifies ∧
    closing.map (·.kind) = [.reboot, .postflightProbe] ∧
    ∀ a ∈ plan.actions, a.effectClass = .destructive →
      ∃ s ∈ writes, primariesOf plan.actions s.stepId.value = [a]

def destructive (plan : StoredProviderPlan) : List PrivateActionRecord :=
  plan.actions.filter fun a => a.effectClass = .destructive

/-- The spans that the destructive actions declare do not meet, and meet no protected target. -/
def Separated (request : MaterializeRequest) (plan : StoredProviderPlan) : Prop :=
  ((destructive plan).Pairwise fun a b => ∀ r r', a.declaredRange = some r →
    b.declaredRange = some r' → Clear (span r) (span r')) ∧
  ∀ a ∈ destructive plan, ∀ r, a.declaredRange = some r → Unprotected request (span r)

/-- None of the arithmetic of ranges and sizes overflows: the checks come to an end, and what is
computed for a write is computed again for its readback. -/
def NoOverflow (request : MaterializeRequest) : Prop :=
  (∃ violations, validate request.artifact request.profile request.probe = .ok violations) ∧
  ∀ t, resolveWrite request t ≠ .error .panic ∧
    ∀ r, resolveWrite request t = .ok r → resolveVerify request t = .ok r

def Executable (request : MaterializeRequest) (registry : MaturityRegistry) (envelope : PlanEnvelope)
    (plan : StoredProviderPlan) : Prop :=
  buildMaterializedPlan request registry = .ok ⟨.executable envelope, plan⟩ ∧
    request.intent = .fullRestore

/-- Executable plans are safe, and nothing overflows on an accepted artifact. -/
def LayoutSafe (request : MaterializeRequest) (registry : MaturityRegistry) : Prop :=
  (request.artifact.validate = .ok () → NoOverflow request) ∧
  ∀ envelope plan, Executable request registry envelope plan →
    InOrder request envelope.publicSteps plan ∧ Separated request plan

/-! ### When it holds -/

/-- The extents of the targets are `u64` numbers of bytes. -/
def ExtentsFit (request : MaterializeRequest) : Prop :=
  ∀ table, request.artifact.partitionTable = some table → ∀ t ∈ request.profile.allowedTargets,
    ∀ e name m size, table.entry t.partition.value = some e → t.sourceMember = some name →
      request.artifact.member name = some m → e.sizeSectors = some size →
      size.toNat * table.logicalBlockSize.toNat < 2 ^ 64

/-- Where a target is written, in bytes. -/
def placement (request : MaterializeRequest) (t : AllowedTarget) : Option (ℕ × ℕ) := do
  let size ← request.profile.storage.logicalBlockSize
  let name ← t.sourceMember
  let m ← request.artifact.member name
  return (t.offsetSectors.toNat * size.toNat,
    t.offsetSectors.toNat * size.toNat + m.sizeBytes.toNat)

def placements (request : MaterializeRequest) : List (ℕ × ℕ) :=
  request.profile.writeOrdered.filterMap (placement request)

/-- The targets are apart, in bytes, from each other and from what is protected. -/
def Apart (request : MaterializeRequest) : Prop :=
  (placements request).Pairwise Clear ∧ ∀ s ∈ placements request, Unprotected request s

/-! ### Overflow -/

theorem extentBytes_ok {size : UInt64} : (∃ n, extentBytes size table = .ok n) ↔
      size.toNat * table.logicalBlockSize.toNat < 2 ^ 64 := by
  unfold extentBytes
  split_ifs with h
  · exact ⟨fun _ => h, fun _ => ⟨_, rfl⟩⟩
  · refine ⟨?_, fun h' => absurd h' h⟩
    rintro ⟨_, ⟨⟩⟩

theorem targetViolations_ok : (∃ vs, targetViolations artifact table t = .ok vs) ↔
      ∀ e name m size, table.entry t.partition.value = some e → t.sourceMember = some name →
        artifact.member name = some m → e.sizeSectors = some size →
        size.toNat * table.logicalBlockSize.toNat < 2 ^ 64 := by
  unfold targetViolations entryViolations memberViolations
  rcases hentry : table.entry t.partition.value with _ | e
  · exact iff_of_true ⟨_, rfl⟩ (by simp)
  rcases hsource : t.sourceMember with _ | name
  · exact iff_of_true ⟨_, rfl⟩ (by simp)
  dsimp only
  rcases hmember : artifact.member name with _ | m
  · exact iff_of_true ⟨_, rfl⟩ (by grind)
  rcases hsize : e.sizeSectors with _ | size
  · exact iff_of_true ⟨_, rfl⟩ (by grind)
  · refine exists_bind_ok.trans (exists_bind_ok.trans (extentBytes_ok.trans ?_))
    grind

theorem exists_mapM_ok {ε α β : Type} {f : α → Except ε β} {l : List α} :
    (∃ r, l.mapM f = .ok r) ↔ ∀ a ∈ l, ∃ b, f a = .ok b := by
  constructor
  · rintro ⟨r, hr⟩ a ha
    obtain ⟨b, -, hb⟩ := exists_of_forall₂ (mapM_eq_ok.mp hr) ha
    exact ⟨b, hb⟩
  · intro h
    induction l with
    | nil => exact ⟨[], rfl⟩
    | cons a l ih =>
      obtain ⟨b, hb⟩ := h a List.mem_cons_self
      obtain ⟨r, hr⟩ := ih fun a ha => h a (List.mem_cons_of_mem _ ha)
      exact ⟨b :: r, mapM_eq_ok.mpr (.cons hb (mapM_eq_ok.mp hr))⟩

variable {request : MaterializeRequest}

theorem validate_ok :
    (∃ vs, validate request.artifact request.profile request.probe = .ok vs) ↔
      ExtentsFit request := by
  unfold validate ExtentsFit
  cases request.artifact.partitionTable with
  | none => exact ⟨fun _ _ h => (by cases h), fun _ => ⟨_, rfl⟩⟩
  | some table =>
    have hall : (∃ vs, request.profile.allowedTargets.mapM (targetViolations request.artifact table) =
        .ok vs) ↔ ∀ t ∈ request.profile.allowedTargets, ∀ e name m size,
        table.entry t.partition.value = some e → t.sourceMember = some name →
        request.artifact.member name = some m → e.sizeSectors = some size →
        size.toNat * table.logicalBlockSize.toNat < 2 ^ 64 :=
      exists_mapM_ok.trans (forall₂_congr fun _ _ => targetViolations_ok)
    simp only [Option.some.injEq, forall_eq']
    exact exists_bind_ok.trans hall

theorem resolveWrite_ne_panic (request : MaterializeRequest) (t : AllowedTarget) :
    resolveWrite request t ≠ .error .panic := by
  unfold resolveWrite blockSize byteRange refuse
  split
  · simp
  split
  · simp
  split
  · rw [ok_bind]
    split_ifs
    · cases ByteRange.new _ _ <;> simp [Except.mapError]
    · simp
  · simp

theorem noOverflow_iff : NoOverflow request ↔ ExtentsFit request :=
  ⟨fun h => validate_ok.mp h.1, fun h => ⟨validate_ok.mpr h, fun t =>
    ⟨resolveWrite_ne_panic request t, fun _ hr => resolveVerify_of_resolveWrite hr⟩⟩⟩

/-! ### The steps -/

theorem materialized_ok {registry : MaturityRegistry}
    {envelope : PlanEnvelope} {plan : StoredProviderPlan}
    (h : buildMaterializedPlan request registry = .ok ⟨.executable envelope, plan⟩) :
    ∃ built, buildSteps request = .ok built ∧ plan = built.privatePlan ∧
      envelope.publicSteps = built.publicSteps ∧
      validate request.artifact request.profile request.probe = .ok [] := by
  obtain ⟨profile, hprofile, h⟩ := bind_eq_ok.mp h
  obtain ⟨violations, hviolations, h⟩ := bind_eq_ok.mp h
  obtain ⟨built, hbuilt, h⟩ := bind_eq_ok.mp h
  split_ifs at h with hblocked
  · cases h
  · obtain ⟨sealed, hsealed, h⟩ := bind_eq_ok.mp h
    cases h
    obtain ⟨projection, -, h⟩ := bind_eq_ok.mp hsealed
    obtain ⟨manifest, -, h⟩ := bind_eq_ok.mp h
    obtain ⟨contract, -, h⟩ := bind_eq_ok.mp h
    obtain ⟨expires, -, h⟩ := bind_eq_ok.mp h
    obtain ⟨-, -, hinput, -⟩ := PlanEnvelope.sealPlan_eq_ok.mp (mapError_eq_ok.mp h)
    refine ⟨built, hbuilt, rfl, congrArg (fun i => i.publicSteps) hinput, ?_⟩
    have hnone : violations = [] := by
      have hempty := not_not.mp hblocked
      unfold blockers at hempty
      simp only [List.append_eq_nil_iff, List.map_eq_nil_iff] at hempty
      exact hempty.1.1.1
    rw [hviolations, hnone]

section

variable {request : MaterializeRequest} {p : Blueprint} {built : BuiltPlan}

/-- The destructive actions are those of the drafts that are. -/
theorem filter_destructive {ls : List Lowered} (h : ∀ l ∈ ls, ∃ n, Numbered n l) :
    (ls.flatMap (·.actions)).filter (fun a => a.effectClass = .destructive) =
      (ls.filter fun l => decide (l.draft.effectClass = .destructive)).map (·.primary) := by
  induction ls with
  | nil => rfl
  | cons l ls ih =>
    obtain ⟨n, hn⟩ := h l List.mem_cons_self
    have hsubs : l.subs.filter (fun a => decide (a.effectClass = .destructive)) = [] :=
      List.filter_eq_nil_iff.mpr fun a ha => by simp [(Numbered.subs_role hn ha).2]
    rw [List.flatMap_cons, List.filter_append, ih fun l hl => h l (List.mem_cons_of_mem _ hl),
      Lowered.actions, List.filter_append, hsubs]
    by_cases hd : l.draft.effectClass = .destructive
    · simp [hd, Lowered.primary, Draft.primary]
    · simp [hd, Lowered.primary, Draft.primary]

theorem filter_workflow_destructive :
    (p.workflow request).filter (fun d => decide (d.effectClass = .destructive)) =
      p.targets.map (writeTarget p.loader) := by
  unfold Blueprint.workflow Blueprint.opening Blueprint.closing
  split_ifs <;> simp [List.filter_map, ensureMode, probeDevice, validateLayout, reboot,
    postflightProbe, writeTarget, verifyTarget, Function.comp_def]

/-- The destructive actions declare the ranges of the targets. -/
theorem destructive_ranges (h : Follows request p built) :
    (destructive built.privatePlan).map (·.declaredRange) = p.targets.map fun r => some r.range := by
  have hwrites := forall₂_filter h filter_workflow_destructive
  rw [destructive, h.actions, filter_destructive h.exists_number, List.map_map,
    ← List.forall₂_eq_eq_eq, List.forall₂_map_left_iff, List.forall₂_map_right_iff]
  refine hwrites.imp fun l r hdraft => ?_
  show l.primary.declaredRange = _
  rw [Lowered.primary, hdraft]
  rfl

theorem writeOrdered_of_full (h : request.intent = .fullRestore) :
    orderedTargets request = request.profile.writeOrdered := by
  unfold orderedTargets DeviceProfile.writeOrdered
  simp [h]

theorem placements_eq (h : Follows request p built) (hfull : request.intent = .fullRestore) :
    placements request = p.targets.map fun r => span r.range := by
  have hplaced : List.Forall₂ (fun t r => placement request t = some (span r.range))
      request.profile.writeOrdered p.targets := by
    rw [← writeOrdered_of_full hfull]
    refine h.resolved.imp fun t r hr => ?_
    obtain ⟨size, hsize, hstart⟩ := hr.start
    unfold placement span
    rw [hsize, hr.sourceMember]
    simp [hr.member, hstart, hr.length]
  unfold placements
  generalize request.profile.writeOrdered = ts at hplaced
  generalize p.targets = rs at hplaced
  induction hplaced with
  | nil => rfl
  | cons hfirst _ ih => rw [List.filterMap_cons, hfirst, List.map_cons, ih]

/-- The plan is separated exactly when the targets are apart. -/
theorem separated_iff (h : Follows request p built) (hfull : request.intent = .fullRestore) :
    Separated request built.privatePlan ↔ Apart request := by
  have hranges := destructive_ranges h
  have hpairwise : ((destructive built.privatePlan).Pairwise fun a b => ∀ r r',
      a.declaredRange = some r → b.declaredRange = some r' → Clear (span r) (span r')) ↔
      (p.targets.map fun r => span r.range).Pairwise Clear := by
    rw [← List.pairwise_map
      (R := fun o o' => ∀ r r', o = some r → o' = some r' → Clear (span r) (span r')), hranges,
      List.pairwise_map, List.pairwise_map]
    simp
  have hall : (∀ a ∈ destructive built.privatePlan, ∀ r, a.declaredRange = some r →
      Unprotected request (span r)) ↔
      ∀ s ∈ p.targets.map fun r => span r.range, Unprotected request s := by
    rw [← List.forall_mem_map
      (P := fun o => ∀ r, o = some r → Unprotected request (span r)), hranges]
    simp
  rw [Separated, Apart, placements_eq h hfull, hpairwise, hall]

theorem exists_parts (h : Follows request p built) : ∃ opening writes verifies closing,
    p.lowered = opening ++ (writes ++ (verifies ++ closing)) ∧
    opening.map (·.draft) = p.opening request ∧
    List.Forall₂ (fun l r => l.draft = writeTarget p.loader r) writes p.targets ∧
    List.Forall₂ (fun l r => l.draft = verifyTarget request.profile p.loader r) verifies p.targets ∧
    closing.map (·.draft) = p.closing request := by
  obtain ⟨opening, rest, hsplit, hopening, hrest⟩ := List.map_eq_append_iff.mp h.drafts
  obtain ⟨writes, rest', rfl, hwrites, hrest⟩ := List.map_eq_append_iff.mp hrest
  obtain ⟨verifies, closing, rfl, hverifies, hclosing⟩ := List.map_eq_append_iff.mp hrest
  exact ⟨opening, writes, verifies, closing, hsplit, hopening, forall₂_of_map_eq hwrites,
    forall₂_of_map_eq hverifies, hclosing⟩

theorem not_destructive : (∀ d ∈ p.opening request, d.effectClass ≠ .destructive) ∧
    ∀ d ∈ p.closing request, d.effectClass ≠ .destructive := by
  unfold Blueprint.opening Blueprint.closing
  split_ifs <;> simp [ensureMode, probeDevice, validateLayout, reboot, postflightProbe]

theorem kinds_of_drafts {ls : List Lowered} {ds : List Draft} (h : ls.map (·.draft) = ds) :
    (ls.map (·.step)).map (·.kind) = ds.map (·.kind) := by
  rw [← h, List.map_map, List.map_map]
  rfl

/-- **A built plan is in order.** -/
theorem inOrder (h : Follows request p built) (hfull : request.intent = .fullRestore) :
    InOrder request built.publicSteps built.privatePlan := by
  obtain ⟨opening, writes, verifies, closing, hsplit, hopening, hwrites, hverifies, hclosing⟩ :=
    exists_parts h
  have hprimary : ∀ l ∈ p.lowered,
      primariesOf built.privatePlan.actions l.step.stepId.value = [l.primary] := fun l hl => by
    rw [h.actions]
    exact primariesOf_lowered h.pairwise h.exists_number hl
  replace hwrites := (List.forall₂_and_left _ _).mpr
    ⟨fun l hl => show l ∈ p.lowered by simp [hsplit, hl], hwrites⟩
  replace hverifies := (List.forall₂_and_left _ _).mpr
    ⟨fun l hl => show l ∈ p.lowered by simp [hsplit, hl], hverifies⟩
  have hstart : p.startsInLoader request = decide (request.probe.observedMode.value = LOADER_MODE) := by
    rw [← h.loader]
    refine decide_eq_decide.mpr ⟨fun heq => by rw [heq], fun heq => ?_⟩
    rcases hm : request.probe.observedMode with ⟨v, _, _, _⟩
    rcases hl : p.loader with ⟨w, _, _, _⟩
    rw [hm, hl] at heq
    cases heq
    rfl
  refine ⟨opening.map (·.step), writes.map (·.step), verifies.map (·.step), closing.map (·.step),
    ?_, ?_, ?_, ?_, ?_, ?_⟩
  · rw [h.publicSteps, hsplit]
    simp
  · rw [kinds_of_drafts hopening, Blueprint.opening, hstart]
    by_cases hloader : request.probe.observedMode.value = LOADER_MODE
    · simp [hloader, probeDevice, validateLayout]
    · simp [hloader, probeDevice, validateLayout, ensureMode]
  · rw [← writeOrdered_of_full hfull, ← h.map_target, List.forall₂_map_left_iff,
      List.forall₂_map_right_iff]
    refine hwrites.flip.imp ?_
    rintro r l ⟨hl, hdraft⟩
    refine ⟨?_, ?_, l.primary, hprimary l hl, ?_⟩ <;> simp only [Lowered.step, Lowered.primary, hdraft]
    all_goals rfl
  · rw [List.forall₂_map_left_iff, List.forall₂_map_right_iff]
    refine (forall₂_through hwrites hverifies).imp ?_
    rintro l m ⟨r, -, ⟨hl, hdraft⟩, hm, hdraft'⟩
    refine ⟨?_, ?_, ?_, l.primary, m.primary, r.range, hprimary l hl, hprimary m hm, ?_, ?_⟩ <;>
      simp only [Lowered.step, Lowered.primary, hdraft, hdraft']
    all_goals rfl
  · rw [kinds_of_drafts hclosing]
    rfl
  · intro a ha hd
    obtain ⟨l, hl, rfl | ⟨body, id, -, rfl⟩⟩ := action_cases h ha
    · obtain ⟨hno, hnc⟩ := @not_destructive request p
      refine ⟨l.step, List.mem_map_of_mem ?_, hprimary l hl⟩
      rw [hsplit, List.mem_append, List.mem_append, List.mem_append] at hl
      rcases hl with hl | hl | hl | hl
      · exact absurd hd (hno _ (hopening ▸ List.mem_map_of_mem hl))
      · exact hl
      · obtain ⟨r, -, -, hdraft⟩ := exists_of_forall₂ hverifies hl
        rw [Lowered.primary, hdraft] at hd
        cases hd
      · exact absurd hd (hnc _ (hclosing ▸ List.mem_map_of_mem hl))
    · cases hd

end

/-! ### Tables that agree with the profile -/

/-- One of the entries ends, and the other begins behind it. -/
def Beside (e e' : PartitionEntryFact) : Prop :=
  (∃ size, e.sizeSectors = some size ∧ e.offsetSectors.toNat + size.toNat ≤ e'.offsetSectors.toNat) ∨
  (∃ size, e'.sizeSectors = some size ∧ e'.offsetSectors.toNat + size.toNat ≤ e.offsetSectors.toNat)

theorem checkOverlap_ok {left : PartitionEntryFact} {leftEnd : ℕ} : ∀ {l : List PartitionEntryFact},
    checkOverlap left leftEnd l = .ok () → ∀ right ∈ l,
      ¬ (left.offsetSectors.toNat < right.endSectorExclusive.getD (2 ^ 64 - 1) ∧
        right.offsetSectors.toNat < leftEnd)
  | [], _, _, hr => nomatch hr
  | right :: rest, h, r, hr => by
    unfold checkOverlap at h
    split_ifs at h with hmeet
    rcases List.mem_cons.mp hr with rfl | hr
    · exact hmeet
    · exact checkOverlap_ok h r hr

theorem checkOverlaps_cons (left : PartitionEntryFact) (rest : List PartitionEntryFact) :
    checkOverlaps (left :: rest) = (match left.endSectorExclusive with
      | none => Except.ok ()
      | some leftEnd => checkOverlap left leftEnd rest) >>= fun _ => checkOverlaps rest := by
  rw [checkOverlaps]
  cases left.endSectorExclusive <;> rfl

theorem endSectorExclusive_of_fits {size : UInt64} (hsize : e.sizeSectors = some size)
    (hfits : e.offsetSectors.toNat + size.toNat < 2 ^ 64) :
    e.endSectorExclusive = some (e.offsetSectors.toNat + size.toNat) := by
  unfold PartitionEntryFact.endSectorExclusive
  rw [hsize]
  exact if_pos hfits

/-- The end of the entry is no `u64` sector. -/
def Overflows (e : PartitionEntryFact) : Prop :=
  ∃ size, e.sizeSectors = some size ∧ 2 ^ 64 ≤ e.offsetSectors.toNat + size.toNat

/-- What an accepted table has established of an entry and one that is listed behind it. -/
structure Checked (e e' : PartitionEntryFact) : Prop where
  sized : ∃ size, e.sizeSectors = some size ∧ 0 < size.toNat
  nonempty : ∀ size, e'.sizeSectors = some size → 0 < size.toNat
  beside : ¬ Overflows e → Beside e e'

theorem nonempty_of_checkSizes : ∀ {l : List PartitionEntryFact}, checkSizes l = .ok () →
    ∀ e ∈ l, ∀ size, e.sizeSectors = some size → 0 < size.toNat
  | [], _, _, he => nomatch he
  | e :: rest, h, e', he' => by
    unfold checkSizes at h
    split_ifs at h with hopen hempty
    rcases List.mem_cons.mp he' with rfl | he'
    · intro size hsize
      refine Nat.pos_of_ne_zero fun hzero => hempty ?_
      rw [hsize, UInt64.toNat_inj.mp (hzero.trans UInt64.toNat_zero.symm)]
    · exact nonempty_of_checkSizes h e' he'

/-- An entry with a `u64` end is beside one that it was compared with. An end that is not known counts
as the last `u64` sector there, which no such entry reaches. -/
theorem beside_of_checkOverlap {right : PartitionEntryFact} {size : UInt64}
    (hsize : e.sizeSectors = some size) (hpos : 0 < size.toNat)
    (hfits : e.offsetSectors.toNat + size.toNat < 2 ^ 64)
    (hmeet : ¬ (e.offsetSectors.toNat < right.endSectorExclusive.getD (2 ^ 64 - 1) ∧
      right.offsetSectors.toNat < e.offsetSectors.toNat + size.toNat)) : Beside e right := by
  by_cases hbehind : right.offsetSectors.toNat < e.offsetSectors.toNat + size.toNat
  · have hbefore := not_lt.mp fun hlt => hmeet ⟨hlt, hbehind⟩
    cases hend : right.endSectorExclusive with
    | none =>
      rw [hend, Option.getD_none] at hbefore
      omega
    | some rightEnd =>
      rw [hend, Option.getD_some] at hbefore
      obtain ⟨rsize, hrsize, hsum⟩ := Option.bind_eq_some_iff.mp hend
      split_ifs at hsum
      exact .inr ⟨rsize, hrsize, (Option.some.inj hsum).le.trans hbefore⟩
  · exact .inl ⟨size, hsize, not_lt.mp hbehind⟩

theorem pairwise_checked : ∀ {l : List PartitionEntryFact}, checkSizes l = .ok () →
    checkOverlaps l = .ok () → l.Pairwise Checked
  | [], _, _ => .nil
  | e :: rest, hsizes, hoverlaps => by
    have hpos := nonempty_of_checkSizes hsizes
    unfold checkSizes at hsizes
    split_ifs at hsizes with hopen
    obtain ⟨_, hfirst, hrest⟩ := bind_eq_ok.mp (checkOverlaps_cons e rest ▸ hoverlaps)
    refine .cons (fun right hright => ?_) (pairwise_checked hsizes hrest)
    obtain ⟨size, hsize⟩ := Option.ne_none_iff_exists'.mp fun hnone =>
      hopen ⟨hnone, List.ne_nil_of_mem hright⟩
    have hsizepos := hpos e List.mem_cons_self size hsize
    refine ⟨⟨size, hsize, hsizepos⟩, hpos right (List.mem_cons_of_mem e hright), fun hover => ?_⟩
    have hfits := not_le.mp fun hle => hover ⟨size, hsize, hle⟩
    rw [endSectorExclusive_of_fits hsize hfits] at hfirst
    exact beside_of_checkOverlap hsize hsizepos hfits (checkOverlap_ok hfirst right hright)

theorem checks_of_validate (h : table.validate = .ok ()) : (table.entries.map (·.name)).Nodup ∧
    checkSizes table.entries = .ok () ∧ checkOverlaps table.entries = .ok () := by
  unfold PartitionTableFact.validate at h
  split at h
  · cases h
  next hnodup =>
    obtain ⟨_, hsizes, hoverlaps⟩ := bind_eq_ok.mp h
    exact ⟨firstRepeat_nil_eq_none.mp hnodup, hsizes, hoverlaps⟩

theorem table_of_validate (h : artifact.validate = .ok ())
    (htable : artifact.partitionTable = some table) : table.validate = .ok () := by
  unfold ArtifactManifest.validate at h
  split_ifs at h
  rw [htable] at h
  obtain ⟨_, hvalid, -⟩ := bind_eq_ok.mp h
  exact hvalid

/-! ### Accepted tables -/

/-- The sectors of an entry. One with an open end has all from its offset on. -/
def Holds (e : PartitionEntryFact) (sector : ℕ) : Prop :=
  e.offsetSectors.toNat ≤ sector ∧
    ∀ size, e.sizeSectors = some size → sector < e.offsetSectors.toNat + size.toNat

theorem sized_of_checkSizes : ∀ {l : List PartitionEntryFact}, checkSizes l = .ok () →
    ∀ e ∈ l.dropLast, e.sizeSectors ≠ none
  | [], _, _, he => nomatch he
  | [_], _, _, he => nomatch he
  | e :: next :: rest, h, e', he' => by
    unfold checkSizes at h
    split_ifs at h with hopen
    rcases List.mem_cons.mp he' with rfl | he'
    · exact fun hnone => hopen ⟨hnone, List.cons_ne_nil _ _⟩
    · exact sized_of_checkSizes h e' he'

def EndsBefore (e : PartitionEntryFact) (sector : ℕ) : Prop :=
  ∃ size, e.sizeSectors = some size ∧ e.offsetSectors.toNat + size.toNat ≤ sector

/-- The entries have no sector in common. -/
def Separate (e e' : PartitionEntryFact) : Prop := ∀ sector, ¬ (Holds e sector ∧ Holds e' sector)

/-- The first entry lies in front of the second. -/
def Ascends (e e' : PartitionEntryFact) : Prop := ∀ s s', Holds e s → Holds e' s' → s < s'

section Pairs

variable {e' : PartitionEntryFact}

theorem holds_offset (h : ∀ size, e.sizeSectors = some size → 0 < size.toNat) :
    Holds e e.offsetSectors.toNat := by
  refine ⟨le_rfl, fun size hsize => ?_⟩
  have := h size hsize
  omega

theorem separate_of_beside (h : Beside e e') : Separate e e' := by
  rintro sector ⟨hin, hin'⟩
  rcases h with ⟨size, hsize, hle⟩ | ⟨size, hsize, hle⟩
  · have := hin.2 size hsize
    have := hin'.1
    omega
  · have := hin.1
    have := hin'.2 size hsize
    omega

/-- An entry whose end overflows reaches every offset behind its own, so the other one has to lie in
front of it. -/
theorem separate_iff (h : Checked e e') :
    Separate e e' ↔ (Overflows e → EndsBefore e' e.offsetSectors.toNat) := by
  constructor
  · rintro hseparate ⟨size, hsize, hover⟩
    by_contra hends
    -- Otherwise both hold the larger of the two offsets.
    refine hseparate (max e.offsetSectors.toNat e'.offsetSectors.toNat)
      ⟨⟨le_max_left _ _, fun size' hsize' => ?_⟩, le_max_right _ _, fun size' hsize' => ?_⟩
    · obtain rfl := Option.some.inj (hsize.symm.trans hsize')
      have hlt := e.offsetSectors.toNat_lt
      have hlt' := e'.offsetSectors.toNat_lt
      omega
    · have hpos := h.nonempty size' hsize'
      have hreach := not_le.mp fun hle => hends ⟨size', hsize', hle⟩
      omega
  · intro hends
    by_cases hover : Overflows e
    · exact separate_of_beside (.inr (hends hover))
    · exact separate_of_beside (h.beside hover)

theorem ascends_iff (h : Checked e e') :
    Ascends e e' ↔ ¬ Overflows e ∧ e.offsetSectors < e'.offsetSectors := by
  obtain ⟨size, hsize, hpos⟩ := h.sized
  constructor
  · intro hascends
    have hlast : Holds e (e.offsetSectors.toNat + size.toNat - 1) := by
      refine ⟨by omega, fun size' hsize' => ?_⟩
      obtain rfl := Option.some.inj (hsize.symm.trans hsize')
      omega
    have hbefore := hascends _ _ hlast (holds_offset h.nonempty)
    refine ⟨?_, UInt64.lt_iff_toNat_lt.mpr (by omega)⟩
    rintro ⟨size', hsize', hover⟩
    obtain rfl := Option.some.inj (hsize.symm.trans hsize')
    have hlt' := e'.offsetSectors.toNat_lt
    omega
  · rintro ⟨hover, hlt⟩ s s' hs hs'
    have hlt := UInt64.lt_iff_toNat_lt.mp hlt
    rcases h.beside hover with ⟨size', hsize', hle⟩ | ⟨size', hsize', hle⟩
    · have := hs.2 size' hsize'
      have := hs'.1
      omega
    · omega

end Pairs

/-- **What an accepted table is.** Its names are distinct, and only the last entry may be open-ended.
No two entries have a sector in common just if each entry whose end overflows is followed only by ones
that end in front of it. The extents ascend just if the offsets do and only the last end overflows. -/
theorem accepted_table_layout (h : table.validate = .ok ()) :
    (table.entries.map (·.name)).Nodup ∧ (∀ e ∈ table.entries.dropLast, e.sizeSectors ≠ none) ∧
    (table.entries.Pairwise Separate ↔
      table.entries.Pairwise fun e e' => Overflows e → EndsBefore e' e.offsetSectors.toNat) ∧
    (table.entries.Pairwise Ascends ↔
      table.entries.Pairwise fun e e' => ¬ Overflows e ∧ e.offsetSectors < e'.offsetSectors) := by
  obtain ⟨hnodup, hsizes, hoverlaps⟩ := checks_of_validate h
  have hchecked := pairwise_checked hsizes hoverlaps
  refine ⟨hnodup, sized_of_checkSizes hsizes, ⟨?_, ?_⟩, ?_, ?_⟩
  · exact hchecked.imp₂ fun _ _ hpair => (separate_iff hpair).mp
  · exact hchecked.imp₂ fun _ _ hpair => (separate_iff hpair).mpr
  · exact hchecked.imp₂ fun _ _ hpair => (ascends_iff hpair).mp
  · exact hchecked.imp₂ fun _ _ hpair => (ascends_iff hpair).mpr

def twoEntries (offset size offset' size' : UInt64) : PartitionTableFact where
  device := "rk29xxnand"
  logicalBlockSize := 512
  entries := [⟨0, "a", offset, some size, none, .fixed⟩, ⟨1, "b", offset', some size', none, .fixed⟩]

/-- The end of one entry overflows. Where it is listed last, the extents ascend; where it is listed
first, they are disjoint still. -/
theorem accepted_table_layout_two :
    ((twoEntries 0 8 0xffffffffffffffff 2).validate = .ok () ∧
      (twoEntries 0 8 0xffffffffffffffff 2).entries.Pairwise Ascends) ∧
    (twoEntries 0xffffffffffffffff 2 0 8).validate = .ok () ∧
    (twoEntries 0xffffffffffffffff 2 0 8).entries.Pairwise Separate := by
  refine ⟨⟨by decide, (accepted_table_layout (by decide)).2.2.2.mpr ?_⟩, by decide,
    (accepted_table_layout (by decide)).2.2.1.mpr ?_⟩
  · simp [twoEntries, Overflows]
  · simp [twoEntries, EndsBefore]

/-- Nothing checks the order of the entries, and an entry whose end is not a `u64` sector is checked
against none behind it. -/
theorem accepted_table_unordered :
    ((twoEntries 8 8 0 8).validate = .ok () ∧ ¬ (twoEntries 8 8 0 8).entries.Pairwise Ascends) ∧
    (twoEntries 0xffffffffffffffff 2 0xffffffffffffffff 1).validate = .ok () ∧
    ¬ (twoEntries 0xffffffffffffffff 2 0xffffffffffffffff 1).entries.Pairwise Separate := by
  refine ⟨⟨by decide, fun h => ?_⟩, by decide, fun h => ?_⟩
  · have := List.rel_of_pairwise_cons h List.mem_cons_self 8 0 (by simp [Holds]) (by simp [Holds])
    omega
  · exact List.rel_of_pairwise_cons h List.mem_cons_self 0xffffffffffffffff (by simp [Holds])

structure Agrees (artifact : ArtifactManifest) (table : PartitionTableFact) (t : AllowedTarget)
    (e : PartitionEntryFact) (m : ArchiveMemberFact) : Prop where
  entry : table.entry t.partition.value = some e
  offset : e.offsetSectors = t.offsetSectors
  member : ∃ name, t.sourceMember = some name ∧ artifact.member name = some m
  fits : ∀ size, e.sizeSectors = some size →
    m.sizeBytes.toNat ≤ size.toNat * table.logicalBlockSize.toNat

theorem violationIf_eq_nil {p : Prop} [Decidable p] {code : BlockerCode} {detail : String} :
    violationIf p code detail = [] ↔ ¬ p := by
  unfold violationIf
  split_ifs with h <;> simp [h]

theorem agrees_of_clean (h : targetViolations artifact table t = .ok []) :
    ∃ e m, Agrees artifact table t e m := by
  unfold targetViolations at h
  split at h
  · cases h
  next e hentry =>
  unfold entryViolations at h
  split at h
  · have hnil := Except.ok.inj h
    simp at hnil
  next name hsource =>
  split at h
  · have hnil := Except.ok.inj h
    simp at hnil
  next m hmember =>
  obtain ⟨vs, hvs, h⟩ := bind_eq_ok.mp h
  obtain ⟨hoffset, rfl⟩ := List.append_eq_nil_iff.mp (Except.ok.inj h)
  refine ⟨e, m, hentry, not_not.mp (violationIf_eq_nil.mp hoffset), ⟨name, hsource, hmember⟩, ?_⟩
  intro size hsize
  unfold memberViolations at hvs
  rw [hsize] at hvs
  obtain ⟨extent, hextent, hvs⟩ := bind_eq_ok.mp hvs
  have hle := not_lt.mp (violationIf_eq_nil.mp (Except.ok.inj hvs))
  unfold extentBytes at hextent
  split_ifs at hextent
  rwa [← Except.ok.inj hextent] at hle

theorem agrees_of_validate (h : validate request.artifact request.profile request.probe = .ok [])
    (htable : request.artifact.partitionTable = some table)
    (ht : t ∈ request.profile.allowedTargets) : ∃ e m, Agrees request.artifact table t e m := by
  unfold validate at h
  rw [htable] at h
  obtain ⟨vs, hvs, h⟩ := bind_eq_ok.mp h
  have hnil := Except.ok.inj h
  simp only [List.append_eq_nil_iff, List.flatten_eq_nil_iff] at hnil
  obtain ⟨v, hv, htarget⟩ := exists_of_forall₂ (mapM_eq_ok.mp hvs) ht
  rw [hnil.1.1.2 v hv] at htarget
  exact agrees_of_clean htarget

theorem mem_of_entry {name : String} (h : table.entry name = some e) :
    e ∈ table.entries ∧ e.name = name :=
  ⟨List.mem_of_find?_eq_some h, by simpa using List.find?_some h⟩

/-- A target that agrees with the table is outside every other entry. -/
theorem outside_of_beside {e' : PartitionEntryFact} {m : ArchiveMemberFact}
    (h : Agrees artifact table t e m) (hbeside : Beside e e') :
    Outside table e' (t.offsetSectors.toNat * table.logicalBlockSize.toNat,
      t.offsetSectors.toNat * table.logicalBlockSize.toNat + m.sizeBytes.toNat) := by
  rcases hbeside with ⟨size, hsize, hle⟩ | ⟨size, hsize, hle⟩
  · refine .inl ?_
    calc t.offsetSectors.toNat * table.logicalBlockSize.toNat + m.sizeBytes.toNat
      _ ≤ (e.offsetSectors.toNat + size.toNat) * table.logicalBlockSize.toNat := by
        rw [h.offset, Nat.add_mul]
        exact Nat.add_le_add_left (h.fits size hsize) _
      _ ≤ e'.offsetSectors.toNat * table.logicalBlockSize.toNat := Nat.mul_le_mul_right _ hle
  · refine .inr ⟨size, hsize, ?_⟩
    rw [← h.offset]
    exact Nat.mul_le_mul_right _ hle

/-- The entries of an accepted table lie beside one another, if no end of an entry overflows. -/
theorem beside_of_validate {e' : PartitionEntryFact} (hartifact : request.artifact.validate = .ok ())
    (htable : request.artifact.partitionTable = some table)
    (hends : ∀ e ∈ table.entries, ∀ size, e.sizeSectors = some size →
      e.offsetSectors.toNat + size.toNat < 2 ^ 64)
    (he : e ∈ table.entries) (he' : e' ∈ table.entries) (hne : e.name ≠ e'.name) : Beside e e' := by
  obtain ⟨-, hsizes, hoverlaps⟩ := checks_of_validate (table_of_validate hartifact htable)
  have hsymm : Std.Symm Beside := ⟨fun _ _ h => h.symm⟩
  have hpairs : table.entries.Pairwise Beside :=
    (pairwise_checked hsizes hoverlaps).imp_of_mem fun hmem _ hpair => hpair.beside fun hover => by
      obtain ⟨size, hsize, hle⟩ := hover
      exact absurd (hends _ hmem size hsize) (not_lt.mpr hle)
  exact hpairs.forall he he' fun heq => hne (by rw [heq])

/-- **The targets are apart** when the block sizes agree and no end of an entry overflows. -/
theorem apart_of_agreement
    (hprofile : request.profile.validate = .ok ()) (hartifact : request.artifact.validate = .ok ())
    (hclean : validate request.artifact request.profile request.probe = .ok [])
    (htable : request.artifact.partitionTable = some table)
    (hblock : request.profile.storage.logicalBlockSize = some table.logicalBlockSize)
    (hends : ∀ e ∈ table.entries, ∀ size, e.sizeSectors = some size →
      e.offsetSectors.toNat + size.toNat < 2 ^ 64) : Apart request := by
  have haccepted := accepted_of_validate hprofile
  have hplaced : ∀ {t e m}, Agrees request.artifact table t e m → placement request t =
      some (t.offsetSectors.toNat * table.logicalBlockSize.toNat,
        t.offsetSectors.toNat * table.logicalBlockSize.toNat + m.sizeBytes.toNat) := by
    intro t e m h
    obtain ⟨name, hsource, hmember⟩ := h.member
    simp [placement, hblock, hsource, hmember]
  have hdistinct : request.profile.writeOrdered.Pairwise fun t t' => t.partition ≠ t'.partition := by
    rw [← List.pairwise_map]
    exact ((sortByKey_perm _).map _).nodup_iff.mpr haccepted.distinct
  refine ⟨List.pairwise_filterMap.mpr (hdistinct.imp_of_mem ?_),
    fun s hs q hq table' e' htable' hentry' => ?_⟩
  · intro t t' ht ht' hne s hs s' hs'
    obtain ⟨e, m, h⟩ := agrees_of_validate hclean htable (mem_writeOrdered.mp ht)
    obtain ⟨e', m', h'⟩ := agrees_of_validate hclean htable (mem_writeOrdered.mp ht')
    obtain rfl := Option.some.inj ((hplaced h).symm.trans hs)
    obtain rfl := Option.some.inj ((hplaced h').symm.trans hs')
    obtain ⟨hmem, hname⟩ := mem_of_entry h.entry
    obtain ⟨hmem', hname'⟩ := mem_of_entry h'.entry
    have hbeside := beside_of_validate hartifact htable hends hmem hmem' fun heq =>
      hne (OpaqueId.ext (by rw [← hname, heq, hname']))
    have houtside := outside_of_beside h hbeside
    rw [Outside, h'.offset] at houtside
    rcases houtside with hbefore | ⟨size, hsize, hbehind⟩
    · exact .inl hbefore
    · refine .inr (le_trans ?_ hbehind)
      rw [Nat.add_mul]
      exact Nat.add_le_add_left (h'.fits size hsize) _
  · obtain rfl : table = table' := Option.some.inj (htable.symm.trans htable')
    obtain ⟨t, ht, hplacement⟩ := List.mem_filterMap.mp hs
    have hallowed := mem_writeOrdered.mp ht
    obtain ⟨e, m, h⟩ := agrees_of_validate hclean htable hallowed
    obtain rfl := Option.some.inj ((hplaced h).symm.trans hplacement)
    obtain ⟨hmem, hname⟩ := mem_of_entry h.entry
    obtain ⟨hmem', hname'⟩ := mem_of_entry hentry'
    refine outside_of_beside h (beside_of_validate hartifact htable hends hmem hmem' fun heq => ?_)
    rw [hname, hname'] at heq
    exact haccepted.unprotected t hallowed (OpaqueId.ext heq ▸ hq)

/-! ### Layout safety -/

/-- **Executable plans are layout-safe exactly when** the extents of the targets are `u64` numbers of
bytes, if the artifact is accepted, and the targets of what is executable are apart in bytes. This is
so when profile and artifact are accepted and use one block size, and the ends and the extents of the
table do not overflow. The order of the steps is never at stake. -/
theorem layout_safe_iff (request : MaterializeRequest) (registry : MaturityRegistry) :
    (LayoutSafe request registry ↔
      (request.artifact.validate = .ok () → ExtentsFit request) ∧
      ∀ envelope plan, Executable request registry envelope plan → Apart request) ∧
    (∀ table, request.profile.validate = .ok () → request.artifact.validate = .ok () →
      request.artifact.partitionTable = some table →
      request.profile.storage.logicalBlockSize = some table.logicalBlockSize →
      (∀ e ∈ table.entries, ∀ size, e.sizeSectors = some size →
        e.offsetSectors.toNat + size.toNat < 2 ^ 64 ∧
        size.toNat * table.logicalBlockSize.toNat < 2 ^ 64) →
      LayoutSafe request registry) := by
  have hiff : LayoutSafe request registry ↔
      (request.artifact.validate = .ok () → ExtentsFit request) ∧
      ∀ envelope plan, Executable request registry envelope plan → Apart request := by
    have hplan : ∀ envelope plan, Executable request registry envelope plan →
        InOrder request envelope.publicSteps plan ∧ (Separated request plan ↔ Apart request) := by
      rintro envelope plan ⟨hexecutable, hfull⟩
      obtain ⟨built, hbuilt, rfl, hsteps, -⟩ := materialized_ok hexecutable
      obtain ⟨p, h⟩ := buildSteps_ok hbuilt
      rw [hsteps]
      exact ⟨inOrder h hfull, separated_iff h hfull⟩
    refine and_congr (imp_congr_right fun _ => noOverflow_iff)
      (forall_congr' fun envelope => forall_congr' fun plan => imp_congr_right fun h => ?_)
    rw [(hplan envelope plan h).2, and_iff_right (hplan envelope plan h).1]
  refine ⟨hiff, fun table hprofile hartifact htable hblock hentries => hiff.mpr ⟨fun _ => ?_, ?_⟩⟩
  · intro table' htable' t _ e name m size hentry _ _ hsize
    obtain rfl := Option.some.inj (htable.symm.trans htable')
    exact (hentries e (mem_of_entry hentry).1 size hsize).2
  · rintro envelope plan ⟨hexecutable, -⟩
    obtain ⟨built, -, -, -, hclean⟩ := materialized_ok hexecutable
    exact apart_of_agreement hprofile hartifact hclean htable hblock fun e he size hsize =>
      (hentries e he size hsize).1

/-- A table whose only entry has `2 ^ 55` sectors of 512 bytes. -/
def hugeRequest : MaterializeRequest :=
  boardRequest (boardArtifact [boardMember "system.img" 1000] 512
    [boardEntry "system" 64 (some 0x80000000000000)]) (boardProfile 512 [boardTarget systemId 1 64] [])

/-- **Not layout-safe**: the profile and the artifact are accepted, and the provider panics. -/
theorem huge_extent_panics :
    hugeRequest.profile.validate = .ok () ∧ hugeRequest.artifact.validate = .ok () ∧
    ∀ registry, buildMaterializedPlan hugeRequest registry = .error .panic ∧
      ¬ LayoutSafe hugeRequest registry := by
  have hprofile : hugeRequest.profile.validate = .ok () := by decide +kernel
  have hartifact : hugeRequest.artifact.validate = .ok () := by decide +kernel
  have hpanic : validate hugeRequest.artifact hugeRequest.profile hugeRequest.probe =
      .error .panic := by rfl
  have hidentity : hugeRequest.profile.identity.isOk = true := by decide +kernel
  obtain ⟨identity, hidentity⟩ := exists_of_isOk hidentity
  refine ⟨hprofile, hartifact, fun registry => ⟨?_, fun h => ?_⟩⟩
  · unfold buildMaterializedPlan
    rw [hidentity, mapError_ok, ok_bind]
    simp only [hpanic, error_bind]
  · obtain ⟨⟨violations, hviolations⟩, -⟩ := h.1 hartifact
    cases hviolations

end ArkForge.Provider.LayoutSafety
