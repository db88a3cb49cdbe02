import ArkForge.Daemon.Staging
import ArkForge.Provider.ExecuteSpec

/-! # What staging does

Staging touches the host alone, and what it hands out is what the plan declares: under each member an
image with the length and the digest of every write of that member. -/

namespace ArkForge.Daemon.StagingSpec

open Lib.Fallible Lib.Ordered
open Core.Digest Core.Projection Core.Profile
open Provider.Actions Provider.Device Provider.Execute
open Provider.ExecuteSpec Staging

variable {ω : Type} {host : DispatchHost ω} {J : ω → Prop}

/-! ### What a plan declares -/

variable {profile : DeviceProfile} {record : PrivateActionRecord} {beginSector : UInt64}

/-- Nothing that staging asks of the host disturbs `J`. -/
structure HostKept (host : DispatchHost ω) (J : ω → Prop) : Prop where
  createDirAll : ∀ path w, J w → J (host.createDirAll path w).2
  openFile : ∀ path w, J w → J (host.openFile path w).2
  createDir : ∀ path w, J w → J (host.createDir path w).2
  setPermissions : ∀ path mode w, J w → J (host.setPermissions path mode w).2
  rename : ∀ temporary directory w, J w → J (host.rename temporary directory w).2
  discard : ∀ path w, J w → J (host.discard path w)
  syncDirectory : ∀ path w, J w → J (host.syncDirectory path w).2
  readDir : ∀ path w, J w → J (host.readDir path w).2
  symlinkMetadata : ∀ path w, J w → J (host.symlinkMetadata path w).2
  stageMembers : ∀ storeRoot digest members path w, J w →
    J (host.stageMembers storeRoot digest members path w).2

theorem meets_kept_mapError {ε δ α : Type} {f : ε → δ} {x : Exec ω ε α} (h : ∀ w, J w → J (x w).2) :
    Ends J (x.mapError f) J :=
  (meets_of_state h).mapError

/-- What is known of an image that was loaded for `name`. -/
def Loaded (required : ExpectedImage) (image : StagedImage) : Prop :=
  image.sizeBytes = required.sizeBytes ∧ image.sha256 = required.sha256

theorem HostKept.loadImage (h : HostKept host J) (directory name : String)
    (required : ExpectedImage) :
    Meets J (loadImage host directory name required)
      (fun image w => J w ∧ Loaded required image) fun _ => J := by
  unfold Staging.loadImage
  refine meets_ite (fun _ => fail_keeps) fun _ => ?_
  refine (meets_kept_mapError (h.symlinkMetadata _)).bind fun metadata => ?_
  refine meets_ite (fun _ => fail_keeps) fun _ => ?_
  refine meets_ite (fun _ => fail_keeps) fun _ => ?_
  exact meets_pure fun _ hw => ⟨hw, rfl, rfl⟩

/-- A name with an entry gets an image of its length and its digest; the others keep what they had. -/
theorem HostKept.loadImages (h : HostKept host J) (directory : String) :
    ∀ (entries : List (String × ExpectedImage)) (images : OrdMap String StagedImage) (bytes : ℕ),
    Meets J (loadImages host directory entries images bytes)
      (fun r w => J w ∧ ∀ name,
        (∃ required image, (name, required) ∈ entries ∧ r.1.get name = some image ∧
          Loaded required image) ∨
        ((∀ required, (name, required) ∉ entries) ∧ r.1.get name = images.get name))
      fun _ => J
  | [], images, bytes => meets_pure fun _ hw => ⟨hw, fun _ => .inr ⟨fun _ => List.not_mem_nil, rfl⟩⟩
  | (name, required) :: entries, images, bytes => by
    unfold Staging.loadImages
    refine (h.loadImage directory name required).bind fun image => ?_
    refine meets_ite (fun _ => meets_fail fun _ hw => hw.1) fun _ => ?_
    rintro w ⟨hw, hloaded⟩
    refine ((h.loadImages directory entries _ _).post ?_) w hw
    rintro r w ⟨hw, hr⟩
    refine ⟨hw, fun other => ?_⟩
    obtain ⟨required', image', hmem, hget, hother⟩ | ⟨hnone, hget⟩ := hr other
    · exact .inl ⟨required', image', List.mem_cons_of_mem _ hmem, hget, hother⟩
    rw [OrdMap.get_alter] at hget
    split_ifs at hget with hsame
    · exact .inl ⟨required, image, by simp [hsame], hget, hloaded⟩
    · refine .inr ⟨fun required' hmem => ?_, hget⟩
      rcases List.mem_cons.mp hmem with heq | hmem
      · exact hsame (congrArg Prod.fst heq)
      · exact hnone required' hmem

/-- There is an image for every name that is expected and for no other, with the length and the digest
that are expected. -/
def Provides (expected : OrdMap String ExpectedImage) (images : OrdMap String StagedImage) : Prop :=
  ∀ name, Option.Rel Loaded (expected.get name) (images.get name)

theorem HostKept.loadStagingCache (h : HostKept host J) (directory : String)
    (expected : OrdMap String ExpectedImage) (cacheHit : Bool) :
    Meets J (loadStagingCache host directory expected cacheHit)
      (fun use w => J w ∧ Provides expected use.images) fun _ => J := by
  unfold Staging.loadStagingCache
  refine meets_getState.bind fun world => ?_
  refine meets_ite (fun _ => meets_fail fun _ hw => hw.2) fun _ => ?_
  refine ((meets_kept_mapError (h.readDir _)).pre (fun _ hw => hw.2)).bind fun entries => ?_
  refine lift_keeps.bind fun observed => ?_
  refine meets_ite (fun _ => fail_keeps) fun _ => ?_
  refine (h.loadImages directory expected.entries .empty 0).bind fun r => meets_pure ?_
  rintro w ⟨hw, hr⟩
  refine ⟨hw, fun name => ?_⟩
  obtain ⟨required, image, hmem, hget, hloaded⟩ | ⟨hnone, hget⟩ := hr name
  · rw [OrdMap.mem_entries.mp hmem, hget]
    exact .some hloaded
  · have hunexpected : expected.get name = none :=
      Option.eq_none_iff_forall_ne_some.mpr fun required h =>
        hnone required (OrdMap.mem_entries.mpr h)
    rw [hunexpected, hget]
    exact .none

theorem HostKept.adoptMembers (h : HostKept host J) (report : OrdMap String StagedImage) :
    ∀ entries : List (String × ExpectedImage),
    Meets J (adoptMembers host report entries) (fun _ => J) fun _ => J
  | [] => pure_keeps
  | (name, required) :: entries => by
    unfold Staging.adoptMembers
    rcases report.get name with _ | staged
    · exact fail_keeps
    · refine meets_ite (fun _ => fail_keeps) fun _ => ?_
      exact (meets_kept_mapError (h.setPermissions _ _)).bind fun _ => h.adoptMembers report entries

theorem HostKept.buildCache (h : HostKept host J) (storeRoot : String)
    (artifactDigest : Sha256Digest) (expected : OrdMap String ExpectedImage) (temporary : String) :
    Ends J (buildCache host storeRoot artifactDigest expected temporary) J := by
  unfold Staging.buildCache
  refine (meets_kept_mapError (h.stageMembers _ _ _ _)).bind fun report => ?_
  refine meets_ite (fun _ => fail_keeps) fun _ => ?_
  refine (h.adoptMembers report _).bind fun _ => ?_
  refine (meets_kept_mapError (h.syncDirectory _)).bind fun _ => ?_
  exact meets_kept_mapError (h.setPermissions _ _)

theorem HostKept.publishCache (h : HostKept host J) (cacheRoot temporary directory : String) :
    Ends J (publishCache host cacheRoot temporary directory) J := by
  unfold Staging.publishCache
  refine Meets.bind (Q := fun _ => J) (Meets.handle (R := fun _ => J)
    ((meets_of_state (h.rename _ _)).bind fun _ => pure_keeps)
    fun _ => pure_keeps) fun renamed => ?_
  rcases renamed with _ | detail
  · exact meets_kept_mapError (h.syncDirectory _)
  · refine meets_getState.bind fun world => ?_
    refine (meets_modifyState (Q := fun _ => J) fun w hw => h.discard _ w hw.2).bind fun _ => ?_
    refine meets_getState.bind fun after => ?_
    exact meets_ite (fun _ => meets_pure fun _ hw => hw.2) fun _ => meets_fail fun _ hw => hw.2

/-- **Staging keeps to the host and hands out what is expected.** -/
theorem HostKept.materializeStagingCache (h : HostKept host J) (storeRoot cacheRoot : String)
    (artifactDigest : Sha256Digest) (expected : OrdMap String ExpectedImage) :
    Meets J (materializeStagingCache host storeRoot cacheRoot artifactDigest expected)
      (fun use w => J w ∧ Provides expected use.images) fun _ => J := by
  unfold Staging.materializeStagingCache
  refine Meets.bind (Q := fun _ => J) ?_ fun _ => ?_
  · exact (meets_kept_mapError (h.createDirAll _)).bind fun _ =>
      meets_kept_mapError (h.setPermissions _ _)
  refine meets_getState.bind fun world => ?_
  refine meets_ite (fun _ => ?_) fun _ => ?_
  · exact (h.loadStagingCache _ expected true).pre (fun _ hw => hw.2)
  refine ((meets_kept_mapError (h.createDir _)).pre (fun _ hw => hw.2)).bind fun _ => ?_
  refine (meets_kept_mapError (h.setPermissions _ _)).bind fun _ => ?_
  refine Meets.bind (Q := fun _ => J) ((h.buildCache _ _ _ _).handle fun failure => ?_) fun _ => ?_
  · exact (meets_modifyState fun w hw => h.discard _ w hw).bind (Q := fun _ => J)
      fun _ => fail_keeps
  exact (h.publishCache _ _ _).bind fun _ => h.loadStagingCache _ expected false

/-! ### Validating -/

theorem HostKept.spawn (h : HostKept host J) (image : StagedImage) {w : ω} (hw : J w) :
    J (spawn host.toExecutionHost image w).2 := by
  unfold Provider.Execute.spawn
  split_ifs
  · exact hw
  · exact (openAndRevalidate_keeps h.openFile image).state hw

theorem HostKept.spawnAll (h : HostKept host J) :
    ∀ (entries : List (String × StagedImage)) (validating : OrdMap String Worker) {w : ω}, J w →
    J (spawnAll host.toExecutionHost entries validating w).2
  | [], validating, w, hw => hw
  | (member, image) :: entries, validating, w, hw => by
    unfold Provider.Execute.spawnAll
    split_ifs
    · exact h.spawnAll entries validating hw
    · exact h.spawnAll entries _ (h.spawn image hw)

/-- The host, on a part of a larger world. -/
def onPart {τ : Type} (host : DispatchHost ω) (part : τ → ω) (put : τ → ω → τ) : DispatchHost τ where
  createDirAll := fun path => (host.createDirAll path).within part put
  openFile := fun path => (host.openFile path).within part put
  workerPanics := fun path t => host.workerPanics path (part t)
  now := fun t => host.now (part t)
  pathExists := fun path t => host.pathExists path (part t)
  isDir := fun path t => host.isDir path (part t)
  createDir := fun path => (host.createDir path).within part put
  setPermissions := fun path mode => (host.setPermissions path mode).within part put
  rename := fun temporary directory => (host.rename temporary directory).within part put
  removeDirAll := fun path => (host.removeDirAll path).within part put
  discard := fun path t => put t (host.discard path (part t))
  syncDirectory := fun path => (host.syncDirectory path).within part put
  readDir := fun path => (host.readDir path).within part put
  symlinkMetadata := fun path => (host.symlinkMetadata path).within part put
  stageMembers := fun storeRoot digest members path =>
    (host.stageMembers storeRoot digest members path).within part put
  nonce := fun t => host.nonce (part t)

theorem hostKept_onPart {τ : Type} (host : DispatchHost ω) {part : τ → ω} {put : τ → ω → τ}
    {K : τ → Prop} (h : ∀ t w, K t → K (put t w)) : HostKept (onPart host part put) K where
  createDirAll := fun _ t => h t _
  openFile := fun _ t => h t _
  createDir := fun _ t => h t _
  setPermissions := fun _ _ t => h t _
  rename := fun _ _ t => h t _
  discard := fun _ t => h t _
  syncDirectory := fun _ t => h t _
  readDir := fun _ t => h t _
  symlinkMetadata := fun _ t => h t _
  stageMembers := fun _ _ _ _ t => h t _

/-- A host on which directories can be made, and which has no files. -/
def bareHost {ω : Type} : DispatchHost ω where
  createDirAll := fun _ => pure ()
  openFile := fun _ => Exec.fail "no such file"
  workerPanics := fun _ _ => false
  now := fun _ => 0
  pathExists := fun _ _ => false
  isDir := fun _ _ => false
  createDir := fun _ => pure ()
  setPermissions := fun _ _ => pure ()
  rename := fun _ _ => pure ()
  removeDirAll := fun _ => pure ()
  discard := fun _ => id
  syncDirectory := fun _ => pure ()
  readDir := fun _ => pure []
  symlinkMetadata := fun _ => Exec.fail "no such file"
  stageMembers := fun _ _ _ _ => Exec.fail "no such artifact"
  nonce := fun _ => ""

end ArkForge.Daemon.StagingSpec
