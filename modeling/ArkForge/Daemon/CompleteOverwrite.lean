import ArkForge.Daemon.RecoveryAssessment
import ArkForge.Engine.PlanRoundTrip
import ArkForge.Provider.BuiltProjection

/-! # A replacement overwrites everything

A candidate that passes rewrites the targets of the profile one by one: each has its own effect, its
own write and its own verification, and what may have been written before lies inside an effect. The
effects are what the candidate declares. What its actions write is another matter. -/

namespace ArkForge.Daemon.CompleteOverwrite

open Lib.Result Lib.Matching
open Core.Digest Core.Ids Core.Effect
open Core.FlashStep Core.Projection Core.ProjectionSpec
open Core.Coverage (validateEffectCoverage_eq_ok declares declares_eq_true Ranged writers
  movers)
open Core.Plan Core.Envelope Core.Profile
open Engine.PlanCodec Engine.PlanRoundTrip
open Provider.Lowering Provider.LoweringSpec Provider.BuiltProjection
open Ipc.Jobs (RecoverySourceEvidence)
open Provider.Rockchip (PROVIDER_ID)
open RecoveryAssessment

/-! ### The checks -/

variable {message : String}

theorem refuseIf_eq_ok {condition : Prop} [Decidable condition] {u : Unit} :
    refuseIf condition message = .ok u ↔ ¬ condition := by
  unfold refuseIf
  split_ifs with h
  · simp [h]
  · simp [h]

theorem expect_eq_ok {α : Type} {value : Option α} {a : α} :
    expect value message = .ok a ↔ value = some a := by
  rcases value with _ | b
  · simp [expect]
  · simp [expect]

/-- A target, the effect on it, and where it is written and verified. -/
structure Rewrite where
  target : AllowedTarget
  range : ByteRange
  content : Sha256Digest
  write : ℕ
  verify : ℕ

namespace Rewrite

def effect (r : Rewrite) : PersistentEffect := .writePartition r.target.partition r.range r.content

end Rewrite

/-- The step at the position does this to the target. -/
def Does (plan : PlanEnvelope) (r : Rewrite) (kind : FlashStepKind) (position : ℕ) : Prop :=
  ∃ s, plan.publicSteps[position]? = some s ∧ s.kind = kind ∧
    s.semanticTarget = some (.partition r.target.partition) ∧ s.contentDigest = some r.content

structure Rewritten (plan : PlanEnvelope) (r : Rewrite) : Prop where
  effect : plan.effectSet.persistent.filter (fun e => e.partition = some r.target.partition) =
    [r.effect]
  write : matching plan.publicSteps r.target.partition r.content .writeTarget = [r.write]
  verify : matching plan.publicSteps r.target.partition r.content .verifyTarget = [r.verify]
  later : r.write < r.verify

variable {kind : FlashStepKind} {steps : List PlanStep} {partition : PartitionId}

theorem mem_matching {content : Sha256Digest} {i : ℕ} : i ∈ matching steps partition content kind ↔
      ∃ s, steps[i]? = some s ∧ s.kind = kind ∧ s.semanticTarget = some (.partition partition) ∧
        s.contentDigest = some content := by
  simp [matching, List.mem_zipIdx_iff_getElem?]

variable {r : Rewrite} {plan : PlanEnvelope}

theorem Rewritten.does_write (h : Rewritten plan r) :
    Does plan r .writeTarget r.write :=
  mem_matching.mp (h.write ▸ List.mem_singleton_self r.write)

theorem Rewritten.does_verify (h : Rewritten plan r) :
    Does plan r .verifyTarget r.verify :=
  mem_matching.mp (h.verify ▸ List.mem_singleton_self r.verify)

variable {blockSize : UInt64} {profile : DeviceProfile}

theorem checkTarget_ok {target : AllowedTarget}
    {position : ℕ} (h : checkTarget plan profile blockSize target = .ok position) :
    ∃ r : Rewrite, r.target = target ∧ r.verify = position ∧ Rewritten plan r := by
  unfold checkTarget at h
  split_ifs at h
  split at h
  · next partition range content heffects =>
    split_ifs at h
    split at h
    · next write verify hwrite hverify =>
      split_ifs at h with hlater
      cases h
      have hmem := List.mem_filter.mp (heffects ▸ List.mem_singleton_self _ :
        PersistentEffect.writePartition partition range content ∈ plan.effectSet.persistent.filter _)
      have hname : partition = target.partition := by
        simpa [PersistentEffect.partition] using hmem.2
      subst hname
      exact ⟨⟨target, range, content, write, position⟩, rfl, rfl, heffects, hwrite, hverify,
        not_le.mp hlater⟩
    · cases h
  · cases h

theorem checkTargets_ok :
    ∀ {targets : List AllowedTarget} {last last' : ℕ},
    checkTargets plan profile blockSize last targets = .ok last' →
    last ≤ last' ∧ ∃ rs : List Rewrite, rs.map (·.target) = targets ∧
      ∀ r ∈ rs, Rewritten plan r ∧ r.verify ≤ last'
  | [], last, last', h => by
    cases h
    exact ⟨le_rfl, [], rfl, List.forall_mem_nil _⟩
  | target :: rest, last, last', h => by
    obtain ⟨position, hposition, h⟩ := bind_eq_ok.mp h
    obtain ⟨r, rfl, rfl, hr⟩ := checkTarget_ok hposition
    obtain ⟨hle, rs, hrs, hall⟩ := checkTargets_ok h
    refine ⟨(le_max_left _ _).trans hle, r :: rs, by rw [List.map_cons, hrs], ?_⟩
    exact List.forall_mem_cons.mpr ⟨⟨hr, (le_max_right _ _).trans hle⟩, hall⟩

/-! ### Counting -/

def positions (steps : List PlanStep) (kind : FlashStepKind) : List ℕ :=
  (steps.zipIdx.filter fun s => s.1.kind = kind).map (·.2)

theorem mem_positions {i : ℕ} :
    i ∈ positions steps kind ↔ ∃ s, steps[i]? = some s ∧ s.kind = kind := by
  simp [positions, List.mem_zipIdx_iff_getElem?]

theorem length_positions (steps : List PlanStep) (kind : FlashStepKind) :
    (positions steps kind).length = (steps.filter (·.kind = kind)).length := by
  have hfirst : (steps.zipIdx.map Prod.fst).filter (fun s => decide (s.kind = kind)) =
      (steps.zipIdx.filter fun s => decide (s.1.kind = kind)).map Prod.fst := List.filter_map
  rw [List.zipIdx_map_fst] at hfirst
  rw [hfirst, positions, List.length_map, List.length_map]

section

variable {rs : List Rewrite} {plan : PlanEnvelope}

variable {position : Rewrite → ℕ}

/-- Steps that do something to different targets are at different positions. -/
theorem nodup_positions (hrs : (rs.map (·.target.partition)).Nodup)
    (hdoes : ∀ r ∈ rs, Does plan r kind (position r)) : (rs.map position).Nodup := by
  refine List.pairwise_map.mpr ((List.pairwise_map.mp hrs).imp_of_mem fun hr hr' hne heq => hne ?_)
  obtain ⟨s, hs, -, htarget, -⟩ := hdoes _ hr
  obtain ⟨s', hs', -, htarget', -⟩ := hdoes _ hr'
  rw [heq, hs'] at hs
  cases hs
  exact SemanticTarget.partition.inj (Option.some.inj (htarget.symm.trans htarget'))

/-- As many steps as targets: no step of the kind is left over. -/
theorem perm_positions (hrs : (rs.map (·.target.partition)).Nodup)
    (hdoes : ∀ r ∈ rs, Does plan r kind (position r))
    (hcount : (plan.publicSteps.filter (·.kind = kind)).length = rs.length) :
    (rs.map position).Perm (positions plan.publicSteps kind) := by
  refine ((nodup_positions hrs hdoes).subperm ?_).perm_of_length_le ?_
  · intro i hi
    obtain ⟨r, hr, rfl⟩ := List.mem_map.mp hi
    obtain ⟨s, hs, hkind, -⟩ := hdoes r hr
    exact mem_positions.mpr ⟨s, hs, hkind⟩
  · rw [length_positions, hcount, List.length_map]

theorem mem_effects (h : Rewritten plan r) : r.effect ∈ plan.effectSet.persistent :=
  (List.mem_filter.mp (h.effect ▸ List.mem_singleton_self r.effect)).1

theorem perm_effects (hrs : (rs.map (·.target.partition)).Nodup) (hall : ∀ r ∈ rs, Rewritten plan r)
    (hcount : plan.effectSet.persistent.length = rs.length) :
    (rs.map (·.effect)).Perm plan.effectSet.persistent := by
  have hnodup : (rs.map (·.effect)).Nodup := by
    refine List.pairwise_map.mpr ((List.pairwise_map.mp hrs).imp fun hne heq => hne ?_)
    exact Option.some.inj (congrArg PersistentEffect.partition heq)
  refine (hnodup.subperm ?_).perm_of_length_le ?_
  · intro e he
    obtain ⟨r, hr, rfl⟩ := List.mem_map.mp he
    exact mem_effects (hall r hr)
  · rw [hcount, List.length_map]

end

/-! ### What may have been written before -/

theorem containsRange_iff {r r' : ByteRange} : r.containsRange r' = true ↔
    r.start.toNat ≤ r'.start.toNat ∧
      r'.start.toNat + r'.length.toNat ≤ r.start.toNat + r.length.toNat := by
  have hend : ∀ r : ByteRange, r.endExclusive.toNat = r.start.toNat + r.length.toNat := by
    intro r
    rw [ByteRange.endExclusive, UInt64.toNat_add, Nat.mod_eq_of_lt r.noOverflow]
  simp [ByteRange.containsRange, UInt64.le_iff_toNat_le, hend]

theorem checkedAdd_range (r : ByteRange) : checkedAdd r.start r.length = some r.endExclusive :=
  if_pos r.noOverflow

theorem covers_eq_true {old new : PersistentEffect} : covers old new = true ↔
    ∃ partition range range', old.partition = some partition ∧ new.partition = some partition ∧
      old.range = some range ∧ new.range = some range' ∧ range'.containsRange range = true := by
  unfold covers
  rcases hp : old.partition with _ | partition
  · simp
  rcases hr : old.range with _ | range
  · simp
  rcases hr' : new.range with _ | range'
  · simp
  · simp [checkedAdd_range, ByteRange.containsRange]

/-! ### Complete overwrites -/

/-- The plan rewrites the targets of the profile, and nothing else. -/
structure Overwrites (plan : PlanEnvelope) (profile : DeviceProfile) (rs : List Rewrite) : Prop where
  targets : rs.map (·.target) = profile.allowedTargets
  effects : (rs.map (·.effect)).Perm plan.effectSet.persistent
  writes : (rs.map (·.write)).Perm (positions plan.publicSteps .writeTarget)
  verifies : (rs.map (·.verify)).Perm (positions plan.publicSteps .verifyTarget)
  does_write : ∀ r ∈ rs, Does plan r .writeTarget r.write
  does_verify : ∀ r ∈ rs, Does plan r .verifyTarget r.verify
  later : ∀ r ∈ rs, r.write < r.verify ∧ r.verify + 2 < plan.publicSteps.length
  reboot : ∃ s, plan.publicSteps[plan.publicSteps.length - 2]? = some s ∧ s.kind = .reboot
  postflight : ∃ s, plan.publicSteps.getLast? = some s ∧ s.kind = .postflightProbe

variable {candidate : StoredPlan}

theorem exists_overwrites
    {source : RecoverySourceEvidence} {possible : List PersistentEffect} {now : UInt64}
    (hprofile : profile.validate = .ok ())
    (h : validateCandidate candidate profile source possible now = .ok ()) :
    (∃ rs, Overwrites candidate.envelope profile rs) ∧
      ∀ old ∈ possible, ∃ new ∈ candidate.envelope.effectSet.persistent, covers old new = true := by
  have hdistinct := (accepted_of_validate hprofile).distinct
  unfold validateCandidate at h
  simp only [bind_eq_ok, refuseIf_eq_ok, expect_eq_ok, exists_const] at h
  obtain ⟨-, -, contract, -, -, hcounts, blockSize, -, last, htargets, hcovered, postflight,
    hpostflight, reboot, hreboot, hclosing, -⟩ := h
  push Not at hcounts hcovered hclosing
  obtain ⟨-, rs, hrs, hall⟩ := checkTargets_ok htargets
  have hlength : profile.allowedTargets.length = rs.length := by rw [← hrs, List.length_map]
  have hnodup : (rs.map (·.target.partition)).Nodup := by
    rw [← hrs, List.map_map] at hdistinct
    exact hdistinct
  have hwrite : ∀ r ∈ rs, Does candidate.envelope r .writeTarget r.write :=
    fun r hr => (hall r hr).1.does_write
  have hverify : ∀ r ∈ rs, Does candidate.envelope r .verifyTarget r.verify :=
    fun r hr => (hall r hr).1.does_verify
  refine ⟨⟨rs, hrs, ?_, ?_, ?_, hwrite, hverify, fun r hr => ⟨(hall r hr).1.later, ?_⟩, ?_, ?_⟩, ?_⟩
  · exact perm_effects hnodup (fun r hr => (hall r hr).1) (hcounts.1.trans hlength)
  · exact perm_positions hnodup hwrite (hcounts.2.1.trans hlength)
  · exact perm_positions hnodup hverify (hcounts.2.2.trans hlength)
  · have hlast := (hall r hr).2
    omega
  · exact ⟨reboot, hreboot, hclosing.2.1⟩
  · exact ⟨postflight, hpostflight, hclosing.1⟩
  · intro old hold
    have hany := hcovered old hold
    rw [ne_eq, Bool.not_eq_false, List.any_eq_true] at hany
    exact hany

/-- **An eligible candidate rewrites everything**: its effects, its writes and its verifications are
those of the targets of the profile, each write before its verification and all of them before the
reboot, and what may have been written before is inside the effect on its partition. -/
theorem eligible_candidates_overwrite (candidate : StoredPlan) (profile : DeviceProfile)
    (source : RecoverySourceEvidence) (possible : List PersistentEffect) (now : UInt64)
    (hprofile : profile.validate = .ok ())
    (h : validateCandidate candidate profile source possible now = .ok ()) :
    ∃ rs, Overwrites candidate.envelope profile rs ∧ ∀ old ∈ possible, ∃ r ∈ rs, ∃ range,
      old.partition = some r.target.partition ∧ old.range = some range ∧
        r.range.containsRange range = true := by
  obtain ⟨⟨rs, hrs⟩, hcovered⟩ := exists_overwrites hprofile h
  refine ⟨rs, hrs, fun old hold => ?_⟩
  obtain ⟨new, hnew, hcovers⟩ := hcovered old hold
  obtain ⟨r, hr, rfl⟩ := List.mem_map.mp (hrs.effects.mem_iff.mpr hnew)
  obtain ⟨partition, range, range', hpartition, hname, hrange, hrange', hcontains⟩ :=
    covers_eq_true.mp hcovers
  refine ⟨r, hr, range, hpartition.trans hname.symm, hrange, ?_⟩
  rw [Option.some.inj hrange']
  exact hcontains

/-! ### What is written -/

/-- The primary action of a write of the partition declares to write the byte. -/
def WrittenAt (candidate : StoredPlan) (partition : PartitionId) (byte : ℕ) : Prop :=
  ∃ a ∈ candidate.privatePlan.actions, ∃ s ∈ candidate.envelope.publicSteps, ∃ r,
    a.role = .primaryEffect ∧ a.effectClass = .destructive ∧ a.stepId = s.stepId ∧
      s.kind = .writeTarget ∧ s.semanticTarget = some (.partition partition) ∧
      a.contentDigest = s.contentDigest ∧ a.declaredRange = some r ∧ r.start.toNat ≤ byte ∧
      byte < r.start.toNat + r.length.toNat

/-- Every byte that may have been written before is written. -/
def ReallyWritten (candidate : StoredPlan) (possible : List PersistentEffect) : Prop :=
  ∀ old ∈ possible, ∀ partition range, old.partition = some partition → old.range = some range →
    ∀ byte, range.start.toNat ≤ byte → byte < range.start.toNat + range.length.toNat →
      WrittenAt candidate partition byte

/-- The actions that write where something may have been written declare as much. -/
def DeclaredInFull (candidate : StoredPlan) (possible : List PersistentEffect) : Prop :=
  ∀ old ∈ possible, ∀ partition range, old.partition = some partition → old.range = some range →
    ∀ s ∈ candidate.envelope.publicSteps, s.kind = .writeTarget →
      s.semanticTarget = some (.partition partition) →
      ∀ a ∈ primariesOf candidate.privatePlan.actions s.stepId.value,
        a.effectClass = .destructive ∧ ∃ r, a.declaredRange = some r ∧ r.containsRange range = true

variable {s : PlanStep}

theorem Overwrites.eq_of_partition
    {rs : List Rewrite} (h : Overwrites plan profile rs) (hprofile : Accepted profile)
    {s' : PlanStep} (hs : s ∈ plan.publicSteps) (hs' : s' ∈ plan.publicSteps)
    (hkind : s.kind = .writeTarget) (hkind' : s'.kind = .writeTarget)
    (htarget : s.semanticTarget = some (.partition partition))
    (htarget' : s'.semanticTarget = some (.partition partition)) : s = s' := by
  have hrow : ∀ s ∈ plan.publicSteps, s.kind = .writeTarget →
      s.semanticTarget = some (.partition partition) →
      ∃ r ∈ rs, r.target.partition = partition ∧ plan.publicSteps[r.write]? = some s := by
    intro s hs hkind htarget
    obtain ⟨i, hi⟩ := List.getElem?_of_mem hs
    obtain ⟨r, hr, rfl⟩ := List.mem_map.mp
      (h.writes.mem_iff.mpr (mem_positions.mpr ⟨s, hi, hkind⟩))
    obtain ⟨t, ht, -, hpartition, -⟩ := h.does_write r hr
    rw [hi] at ht
    cases ht
    exact ⟨r, hr, SemanticTarget.partition.inj (Option.some.inj (hpartition.symm.trans htarget)), hi⟩
  have hnodup : (rs.map (·.target.partition)).Nodup := by
    have hdistinct := hprofile.distinct
    rw [← h.targets, List.map_map] at hdistinct
    exact hdistinct
  obtain ⟨r, hr, hname, hi⟩ := hrow s hs hkind htarget
  obtain ⟨r', hr', hname', hi'⟩ := hrow s' hs' hkind' htarget'
  rw [List.inj_on_of_nodup_map hnodup hr hr' (hname.trans hname'.symm)] at hi
  exact Option.some.inj (hi.symm.trans hi')

/-- A step of an accepted plan has one primary action, which carries the content of the step. -/
theorem exists_primary (h : validate candidate = .ok ())
    (hs : s ∈ candidate.envelope.publicSteps) :
    ∃ a ∈ candidate.privatePlan.actions, a.role = .primaryEffect ∧ a.stepId = s.stepId ∧
      primariesOf candidate.privatePlan.actions s.stepId.value = [a] ∧
      ∀ content, s.contentDigest = some content → a.contentDigest = some content := by
  obtain ⟨b, hb⟩ := (binds_of_validate h).2 s hs
  obtain ⟨hmem, hid, hrole⟩ := mem_primariesOf.mp (hb.primary ▸ List.mem_singleton_self b.1.primary)
  exact ⟨b.1.primary, hmem, hrole, OpaqueId.ext hid, hb.primary, (checkPrimary_ok hb.checked).2⟩

section

variable {candidate : StoredPlan} {profile : DeviceProfile} {source : RecoverySourceEvidence}
  {possible : List PersistentEffect} {now : UInt64} (hprofile : profile.validate = .ok ())
  (hplan : validate candidate = .ok ())
  (h : validateCandidate candidate profile source possible now = .ok ())

include hprofile hplan h

/-- The first and the last byte of a range are written by the one action that there is. -/
theorem declaredInFull_of_written (hwritten : ReallyWritten candidate possible) :
    DeclaredInFull candidate possible := by
  obtain ⟨⟨rs, hrs⟩, -⟩ := exists_overwrites hprofile h
  intro old hold partition range hpartition hrange s hs hkind htarget a ha
  have haction : ∀ byte, range.start.toNat ≤ byte →
      byte < range.start.toNat + range.length.toNat →
      a.effectClass = .destructive ∧ ∃ r, a.declaredRange = some r ∧ r.start.toNat ≤ byte ∧
        byte < r.start.toNat + r.length.toNat := by
    intro byte hlow hhigh
    obtain ⟨b, hb, s', hs', r, hrole, hclass, hid, hkind', htarget', -, hdeclared, hbyte⟩ :=
      hwritten old hold partition range hpartition hrange byte hlow hhigh
    obtain rfl := hrs.eq_of_partition (accepted_of_validate hprofile) hs hs' hkind hkind' htarget
      htarget'
    obtain ⟨c, -, -, -, hone, -⟩ := exists_primary hplan hs
    have hb' : b ∈ primariesOf candidate.privatePlan.actions s.stepId.value :=
      mem_primariesOf.mpr ⟨hb, congrArg OpaqueId.value hid, hrole⟩
    rw [hone, List.mem_singleton] at ha hb'
    rw [ha, ← hb']
    exact ⟨hclass, r, hdeclared, hbyte⟩
  have hpositive : 0 < range.length.toNat := Nat.pos_of_ne_zero fun hzero =>
    range.nonEmpty (UInt64.toNat_inj.mp hzero)
  obtain ⟨hclass, r, hdeclared, hfirst, -⟩ := haction range.start.toNat le_rfl (by omega)
  obtain ⟨-, r', hdeclared', -, hlast⟩ :=
    haction (range.start.toNat + range.length.toNat - 1) (by omega) (by omega)
  obtain rfl := Option.some.inj (hdeclared.symm.trans hdeclared')
  exact ⟨hclass, r, hdeclared, containsRange_iff.mpr ⟨hfirst, by omega⟩⟩

/-- The write of a partition has a primary action, which declares what is needed. -/
theorem written_of_declaredInFull (hdeclared : DeclaredInFull candidate possible) :
    ReallyWritten candidate possible := by
  obtain ⟨⟨rs, hrs⟩, hcovered⟩ := exists_overwrites hprofile h
  intro old hold partition range hpartition hrange byte hlow hhigh
  obtain ⟨new, hnew, hcovers⟩ := hcovered old hold
  obtain ⟨r, hr, rfl⟩ := List.mem_map.mp (hrs.effects.mem_iff.mpr hnew)
  obtain ⟨partition', -, -, hpartition', hname, -⟩ := covers_eq_true.mp hcovers
  have hsame : r.target.partition = partition := Option.some.inj
    (hname.trans (hpartition'.symm.trans hpartition))
  obtain ⟨s, hs, hkind, htarget, hcontent⟩ := hrs.does_write r hr
  have hmem := List.mem_of_getElem? hs
  obtain ⟨a, ha, hrole, hid, hone, hcarries⟩ := exists_primary hplan hmem
  rw [hsame] at htarget
  obtain ⟨hclass, declared, hrange', hcontains⟩ := hdeclared old hold partition range hpartition
    hrange s hmem hkind htarget a (hone ▸ List.mem_singleton_self a)
  obtain ⟨hstart, hend⟩ := containsRange_iff.mp hcontains
  exact ⟨a, ha, s, hmem, declared, hrole, hclass, hid, hkind, htarget,
    (hcarries _ hcontent).trans hcontent.symm, hrange', by omega, by omega⟩

end

/-- **What an eligible candidate declares to overwrite is written exactly when** the actions declare
as much: the primary action of every write of a partition that may have been written is destructive,
and the range it declares contains the one that may have been written. -/
theorem coverage_written_iff (candidate : StoredPlan) (profile : DeviceProfile)
    (source : RecoverySourceEvidence) (possible : List PersistentEffect) (now : UInt64)
    (hprofile : profile.validate = .ok ()) (hplan : validate candidate = .ok ())
    (h : validateCandidate candidate profile source possible now = .ok ()) :
    ReallyWritten candidate possible ↔ DeclaredInFull candidate possible :=
  ⟨declaredInFull_of_written hprofile hplan h, written_of_declaredInFull hprofile hplan h⟩

/-! ### A candidate -/

/-- The board, which a complete overwrite recovers. -/
def recoveryProfile : DeviceProfile :=
  { boardProfile 512 [boardTarget systemId 1 64] [] with
    recovery := ⟨true, ⟨1, 0, 0⟩, [systemId], []⟩ }

theorem system_nonEmpty : (4096 : UInt64) ≠ 0 := by decide

theorem system_noOverflow : (32768 : UInt64).toNat + (4096 : UInt64).toNat < 2 ^ 64 := by decide

/-- The first eight sectors of the system partition. -/
def systemRange : ByteRange := ⟨32768, 4096, system_nonEmpty, system_noOverflow⟩

theorem sector_nonEmpty : (512 : UInt64) ≠ 0 := by decide

theorem sector_noOverflow : (32768 : UInt64).toNat + (512 : UInt64).toNat < 2 ^ 64 := by decide

/-- The first one of them. -/
def sectorRange : ByteRange := ⟨32768, 512, sector_nonEmpty, sector_noOverflow⟩

def systemImage : ResolvedTarget where
  target := boardTarget systemId 1 64
  memberName := "system.img"
  member := boardMember "system.img" 4096
  range := systemRange

def runtimeFacts : List (OpaqueId × String) := [(boardId, "1")]

/-- Write, verify, reboot and look. The action that writes declares the range it is given. -/
def recoveryDrafts (declared : ByteRange) : List Draft := [
  { writeTarget loaderMode systemImage with declaredRange := some declared },
  verifyTarget recoveryProfile loaderMode systemImage, reboot loaderMode normalMode,
  postflightProbe normalMode runtimeFacts]

def recoveryEffects : EffectSet where
  persistent := [systemImage.effect]
  transient := [.reboot normalMode]
  dataImpact := ⟨.overwritten, .preserved, .preserved, .preserved⟩

theorem conforming_contract : Conforming "arkforge.rockchip.complete-overwrite" := by decide

def contractId : OpaqueId := ⟨"arkforge.rockchip.complete-overwrite", conforming_contract⟩

def recoveryInput (steps : List PlanStep) (projection : ProjectionDigests)
    (identity : DeviceProfileIdentity) (contract : Sha256Digest) : PlanSealInput :=
  { plainInput steps recoveryEffects projection with
    executionPurpose := .supersedingRecovery
    provider := ⟨PROVIDER_ID, ⟨1, 0, 0⟩, plainDigest⟩
    profile := identity
    recoveryContract := some ⟨contractId, ⟨1, 0, 0⟩, contract⟩
    postflight := ⟨true, some normalMode, runtimeFacts⟩ }

/-- A job whose plan has no name. -/
def unnamedSource : RecoverySourceEvidence := ⟨"", "", "", 0, none⟩

theorem sound_recovery (declared : ByteRange) : ∀ d ∈ recoveryDrafts declared, Sound d := by
  have hwrite := sound_writeTarget loaderMode systemImage
  simp only [recoveryDrafts, List.forall_mem_cons]
  exact ⟨⟨hwrite.consistent, hwrite.primary, hwrite.sub⟩, sound_verifyTarget _ _ _, sound_reboot _ _,
    sound_postflightProbe _ _, List.forall_mem_nil _⟩

/-- The steps of the candidate. -/
structure Recovers (declared : ByteRange) (l₁ l₂ l₃ l₄ : Lowered) : Prop where
  writes : l₁.draft = { writeTarget loaderMode systemImage with declaredRange := some declared }
  verifies : l₂.draft = verifyTarget recoveryProfile loaderMode systemImage
  reboots : l₃.draft = reboot loaderMode normalMode
  looks : l₄.draft = postflightProbe normalMode runtimeFacts
  laid : Laid [l₁, l₂, l₃, l₄]

theorem exists_recovers {declared : ByteRange}
    (hfold : ((recoveryDrafts declared).foldlM Building.add ⟨[], [], 0⟩).isOk = true) :
    ∃ l₁ l₂ l₃ l₄, Recovers declared l₁ l₂ l₃ l₄ := by
  obtain ⟨b, hb⟩ := exists_of_isOk hfold
  obtain ⟨ls, hdrafts, hgrown⟩ := foldlM_add_ok hb
  have hlaid : Laid ls := by
    refine ⟨hgrown.numbered.pairwise, fun l hl => ?_, fun l hl => ?_⟩
    · obtain ⟨n, -, hn⟩ := hgrown.numbered.exists_later hl
      exact ⟨n, hn⟩
    · exact sound_recovery declared l.draft (hdrafts ▸ List.mem_map_of_mem hl)
  obtain ⟨l₁, ls, rfl, h₁, hdrafts⟩ := List.map_eq_cons_iff.mp hdrafts
  obtain ⟨l₂, ls, rfl, h₂, hdrafts⟩ := List.map_eq_cons_iff.mp hdrafts
  obtain ⟨l₃, ls, rfl, h₃, hdrafts⟩ := List.map_eq_cons_iff.mp hdrafts
  obtain ⟨l₄, ls, rfl, h₄, hdrafts⟩ := List.map_eq_cons_iff.mp hdrafts
  obtain rfl := List.map_eq_nil_iff.mp hdrafts
  exact ⟨l₁, l₂, l₃, l₄, h₁, h₂, h₃, h₄, hlaid⟩

section

variable {declared : ByteRange} {l₁ l₂ l₃ l₄ : Lowered} (h : Recovers declared l₁ l₂ l₃ l₄)

include h

theorem Recovers.first : l₁.step.kind = .writeTarget ∧
    l₁.step.semanticTarget = some (.partition systemId) ∧
    l₁.step.contentDigest = some systemImage.member.sha256 ∧
    l₁.primary.effectClass = .destructive ∧ l₁.primary.declaredRange = some declared := by
  simp only [Lowered.step, Lowered.primary, h.writes]
  exact ⟨rfl, rfl, rfl, rfl, rfl⟩

/-- The steps of the candidate project onto their actions. -/
theorem Recovers.exists_projection (hinside : systemRange.containsRange declared = true) :
    ∃ projection, validateProjection (projected ([l₁, l₂, l₃, l₄].map (·.step)))
      ⟨[l₁, l₂, l₃, l₄].flatMap (·.actions)⟩ recoveryEffects = .ok projection := by
  obtain ⟨bindings, hbind, hbound⟩ := h.laid.exists_bindSteps (List.cons_ne_nil _ _)
  have hwriters : writers ([l₁, l₂, l₃, l₄].map Lowered.bound) = [Lowered.bound l₁] := by
    rw [writers_lowered]
    simp [h.writes, h.verifies, h.reboots, h.looks, writeTarget, verifyTarget, reboot, postflightProbe]
  have hmovers : movers ([l₁, l₂, l₃, l₄].map Lowered.bound) = [Lowered.bound l₃] := by
    rw [movers_lowered]
    simp [h.writes, h.verifies, h.reboots, h.looks, writeTarget, verifyTarget, reboot, postflightProbe]
  obtain ⟨hkind, htarget, hcontent, -, hrange⟩ := h.first
  have hdeclares : declares (Lowered.bound l₁) systemImage.effect = true := by
    refine declares_eq_true.mpr ⟨.partition systemId, htarget, .writePartition hkind hcontent ?_⟩
    intro range hdeclared
    rw [← Option.some.inj (hrange.symm.trans hdeclared)]
    exact hinside
  have hreboot : transientEffectMatches (.reboot normalMode) (Lowered.bound l₃).step = true := by
    refine transient_matches h.reboots fun stepId digest => ?_
    simp [transientEffectMatches, reboot, Draft.step]
  refine validateProjection_of_binds hbind ?_
  rw [hbound]
  refine (validateEffectCoverage_eq_ok ?_ ?_ (List.pairwise_singleton _ _)).mpr
    ⟨perfect_of_pointwise ?_, perfect_of_pointwise ?_⟩
  · intro b hb _
    obtain ⟨l, -, rfl⟩ := List.mem_map.mp hb
    exact ⟨_, rfl⟩
  · rw [Ranged, hwriters, List.forall_mem_singleton]
    exact hrange ▸ Option.some_ne_none _
  · rw [hwriters]
    exact .cons hdeclares .nil
  · rw [hmovers]
    exact .cons hreboot .nil

theorem Recovers.eligible {envelope : PlanEnvelope} {projection : ProjectionDigests}
    {identity : DeviceProfileIdentity} {contract : Sha256Digest}
    (hidentity : recoveryProfile.identity = .ok identity)
    (hcontract : digestCanonical .recoveryCoverage recoveryProfile.recovery.toCbor = .ok contract)
    (henvelope : envelope.toPlanSealInput =
      recoveryInput ([l₁, l₂, l₃, l₄].map (·.step)) projection identity contract)
    (privatePlan : StoredProviderPlan) :
    validateCandidate ⟨envelope, privatePlan⟩ recoveryProfile unnamedSource [systemImage.effect] 0 =
      .ok () := by
  obtain ⟨input, planDigest⟩ := envelope
  obtain rfl : input = _ := henvelope
  obtain ⟨d₁, s₁, a₁, b₁, g₁⟩ := l₁
  obtain ⟨d₂, s₂, a₂, b₂, g₂⟩ := l₂
  obtain ⟨d₃, s₃, a₃, b₃, g₃⟩ := l₃
  obtain ⟨d₄, s₄, a₄, b₄, g₄⟩ := l₄
  obtain ⟨rfl, rfl, rfl, rfl, -⟩ := h
  unfold validateCandidate
  simp only [bind_eq_ok, refuseIf_eq_ok, exists_const]
  refine ⟨?_, ?_, ⟨contractId, ⟨1, 0, 0⟩, contract⟩, rfl, ?_, ?_, 512, rfl, 1, rfl, ?_, _, rfl, _, rfl,
    ?_, rfl⟩
  · simp [recoveryInput, plainInput, plainId, unnamedSource, Sha256Digest.toHex_ne_empty]
  · rw [hidentity]
    simp [recoveryInput, recoveryProfile, boardProfile, Except.toOption]
  · rw [hcontract]
    simp [contractId, recoveryProfile, Except.toOption]
  · simp [recoveryInput, plainInput, recoveryEffects, recoveryProfile, boardProfile, Lowered.step,
      Draft.step, writeTarget, verifyTarget, reboot, postflightProbe]
  · rintro ⟨old, hold, hnone⟩
    obtain rfl := List.mem_singleton.mp hold
    cases hnone
  · simp [recoveryInput, plainInput, runtimeFacts, Lowered.step, Draft.step, reboot, postflightProbe]

/-- The candidate is accepted and eligible, whatever part of the effect its action declares. -/
theorem Recovers.exists_candidate (hinside : systemRange.containsRange declared = true) :
    ∃ candidate : StoredPlan,
      candidate.envelope.publicSteps = [l₁, l₂, l₃, l₄].map (·.step) ∧
      candidate.privatePlan.actions = [l₁, l₂, l₃, l₄].flatMap (·.actions) ∧
      validate candidate = .ok () ∧
      validateCandidate candidate recoveryProfile unnamedSource [systemImage.effect] 0 = .ok () := by
  obtain ⟨projection, hprojection⟩ := h.exists_projection hinside
  have hidentity : recoveryProfile.identity.isOk = true := by decide +kernel
  obtain ⟨identity, hidentity⟩ := exists_of_isOk hidentity
  have hcontract : (digestCanonical .recoveryCoverage recoveryProfile.recovery.toCbor).isOk = true := by
    decide +kernel
  obtain ⟨contract, hcontract⟩ := exists_of_isOk hcontract
  have heffects : recoveryEffects.validateExecutable = .ok () := by decide
  obtain ⟨envelope, henvelope, hvalid⟩ := @exists_sealed (recoveryInput _ projection identity contract)
    _ rfl List.nodup_nil (List.nodup_singleton _) heffects (by decide : (0 : UInt64) < 1) hprojection
  exact ⟨_, congrArg PlanSealInput.publicSteps henvelope, rfl, hvalid,
    h.eligible hidentity hcontract henvelope _⟩

theorem Recovers.primary (hs : s ∈ [l₁, l₂, l₃, l₄].map (·.step)) (hkind : s.kind = .writeTarget) :
    primariesOf ([l₁, l₂, l₃, l₄].flatMap (·.actions)) s.stepId.value = [l₁.primary] := by
  obtain ⟨l, hl, rfl⟩ := List.mem_map.mp hs
  have hfirst : l = l₁ := by
    simp only [List.mem_cons, List.not_mem_nil, or_false] at hl
    rcases hl with rfl | rfl | rfl | rfl
    · rfl
    · rw [Lowered.step, h.verifies] at hkind
      cases hkind
    · rw [Lowered.step, h.reboots] at hkind
      cases hkind
    · rw [Lowered.step, h.looks] at hkind
      cases hkind
  rw [hfirst] at hl ⊢
  exact primariesOf_lowered h.laid.pairwise h.laid.numbered hl

theorem Recovers.declaredInFull_iff
    (hsteps : candidate.envelope.publicSteps = [l₁, l₂, l₃, l₄].map (·.step))
    (hactions : candidate.privatePlan.actions = [l₁, l₂, l₃, l₄].flatMap (·.actions)) :
    DeclaredInFull candidate [systemImage.effect] ↔ declared.containsRange systemRange = true := by
  obtain ⟨hkind, htarget, -, hclass, hrange⟩ := h.first
  unfold DeclaredInFull
  rw [hsteps, hactions]
  constructor
  · intro hfull
    have hfirst : l₁.step ∈ [l₁, l₂, l₃, l₄].map (·.step) := List.mem_cons_self
    obtain ⟨-, r, hr, hcontains⟩ := hfull _ (List.mem_singleton_self _) systemId systemRange rfl rfl
      l₁.step hfirst hkind htarget l₁.primary
      (h.primary hfirst hkind ▸ List.mem_singleton_self l₁.primary)
    rw [Option.some.inj (hrange.symm.trans hr)]
    exact hcontains
  · intro hcontains old hold partition range _ hold' s hs hkind _ a ha
    obtain rfl := List.mem_singleton.mp hold
    cases hold'
    rw [h.primary hs hkind, List.mem_singleton] at ha
    rw [ha]
    exact ⟨hclass, declared, hrange, hcontains⟩

end

theorem recoveryProfile_valid : recoveryProfile.validate = .ok () := by decide

/-- The candidate that declares its write in full rewrites the board. -/
theorem eligible_candidates_overwrite_system : ∃ candidate, recoveryProfile.validate = .ok () ∧
    validateCandidate candidate recoveryProfile unnamedSource [systemImage.effect] 0 = .ok () ∧
    ∃ rs, Overwrites candidate.envelope recoveryProfile rs ∧ rs.length = 1 := by
  obtain ⟨l₁, l₂, l₃, l₄, h⟩ := exists_recovers
    (by decide +kernel : ((recoveryDrafts systemRange).foldlM Building.add ⟨[], [], 0⟩).isOk = true)
  obtain ⟨candidate, -, -, -, heligible⟩ := h.exists_candidate (by decide)
  obtain ⟨rs, hrs, -⟩ := eligible_candidates_overwrite candidate recoveryProfile unnamedSource
    [systemImage.effect] 0 recoveryProfile_valid heligible
  refine ⟨candidate, recoveryProfile_valid, heligible, rs, hrs, ?_⟩
  rw [← List.length_map (·.target), hrs.targets]
  rfl

/-- What the candidate with the full range declares is written. -/
theorem coverage_written_iff_system : ∃ candidate, recoveryProfile.validate = .ok () ∧
    validate candidate = .ok () ∧
    validateCandidate candidate recoveryProfile unnamedSource [systemImage.effect] 0 = .ok () ∧
    ReallyWritten candidate [systemImage.effect] := by
  obtain ⟨l₁, l₂, l₃, l₄, h⟩ := exists_recovers
    (by decide +kernel : ((recoveryDrafts systemRange).foldlM Building.add ⟨[], [], 0⟩).isOk = true)
  obtain ⟨candidate, hsteps, hactions, hvalid, heligible⟩ := h.exists_candidate (by decide)
  exact ⟨candidate, recoveryProfile_valid, hvalid, heligible,
    (coverage_written_iff candidate recoveryProfile unnamedSource [systemImage.effect] 0
      recoveryProfile_valid hvalid heligible).mpr
        ((h.declaredInFull_iff hsteps hactions).mpr (by decide))⟩

/-- **A candidate that writes one sector of eight is eligible**: its action declares the first sector
of the effect, and the effect covers what may have been written. -/
theorem short_write_eligible : ∃ candidate, recoveryProfile.validate = .ok () ∧
    validate candidate = .ok () ∧
    validateCandidate candidate recoveryProfile unnamedSource [systemImage.effect] 0 = .ok () ∧
    ¬ ReallyWritten candidate [systemImage.effect] := by
  obtain ⟨l₁, l₂, l₃, l₄, h⟩ := exists_recovers
    (by decide +kernel : ((recoveryDrafts sectorRange).foldlM Building.add ⟨[], [], 0⟩).isOk = true)
  obtain ⟨candidate, hsteps, hactions, hvalid, heligible⟩ := h.exists_candidate (by decide)
  refine ⟨candidate, recoveryProfile_valid, hvalid, heligible, fun hwritten => ?_⟩
  -- the last byte of the effect is in no range that an action declares
  have hfull : DeclaredInFull candidate [systemImage.effect] := declaredInFull_of_written
    recoveryProfile_valid hvalid heligible hwritten
  exact absurd ((h.declaredInFull_iff hsteps hactions).mp hfull) (by decide)

end ArkForge.Daemon.CompleteOverwrite
