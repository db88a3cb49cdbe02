import ArkForge.Daemon.Dispatcher
import ArkForge.Daemon.StagingSpec

/-! # What the dispatcher does to a job

Staging gives the session of one job its images, and workers for them. A run stages if it has to and
then executes the actions in the session of its job; the sessions of the other jobs stay as they
are. -/

namespace ArkForge.Daemon.DispatcherSpec

open Lib.Fallible Lib.Ordered Lib.Result
open Core.Digest Core.Projection Core.Profile
open Provider.Actions Provider.Device Provider.Execute
open Jobs Staging StagingSpec
open Dispatcher

variable {ω : Type} {host : DispatchHost ω} {port : RockUsbPort ω} {J : ω → Prop}
variable {storeRoot workRoot : String}

/-! ### Sessions -/

theorem session_putSession (d : DispatcherState) (jobId other : String) (s : ExecutionSession) :
    (d.putSession jobId s).session other = if other = jobId then s else d.session other := by
  unfold DispatcherState.session DispatcherState.putSession
  rw [OrdMap.get_alter]
  split_ifs <;> rfl

/-- The actions of a run, each with the record it was decoded from. -/
theorem decodeAll_zip : ∀ {actions : List PrivateActionRecord} {decoded : List StoredAction},
    decodeAll actions = .ok decoded →
    (decoded.zip actions).map Prod.snd = actions ∧
      ∀ p ∈ decoded.zip actions, StoredAction.decode p.2 = .ok p.1
  | [], decoded, h => by
    obtain rfl := Except.ok.inj h
    exact ⟨rfl, fun _ hp => nomatch hp⟩
  | record :: rest, decoded, h => by
    unfold decodeAll at h
    rcases hdecode : StoredAction.decode record with reason | action <;> rw [hdecode] at h
    · contradiction
    rcases hrest : decodeAll rest with f | actions <;> simp only [hrest] at h
    · contradiction
    obtain rfl := Except.ok.inj h
    obtain ⟨hmap, hall⟩ := decodeAll_zip hrest
    exact ⟨by simp [hmap], List.forall_mem_cons.mpr ⟨hdecode, hall⟩⟩

/-! ### Staging -/

theorem stage_entries : ∀ (entries : List (String × StagedImage)) (s : ExecutionSession)
    (member : String),
    let s' := entries.foldl (fun s (name, image) => s.stage name image) s
    (∃ image, (member, image) ∈ entries ∧ s'.staged.get member = some image) ∨
      ((∀ image, (member, image) ∉ entries) ∧ s'.staged.get member = s.staged.get member)
  | [], s, member => .inr ⟨fun _ => List.not_mem_nil, rfl⟩
  | (name, image) :: entries, s, member => by
    obtain ⟨image', hmem, hget⟩ | ⟨hnone, hget⟩ := stage_entries entries (s.stage name image) member
    · exact .inl ⟨image', List.mem_cons_of_mem _ hmem, hget⟩
    unfold ExecutionSession.stage at hget
    rw [OrdMap.get_alter] at hget
    split_ifs at hget with hsame
    · exact .inl ⟨image, by simp [hsame], hget⟩
    · refine .inr ⟨fun image' hmem => ?_, hget⟩
      rcases List.mem_cons.mp hmem with heq | hmem
      · exact hsame (congrArg Prod.fst heq)
      · exact hnone image' hmem

/-- The session has the images besides what it had. -/
theorem get_stage_entries (images : OrdMap String StagedImage) (s : ExecutionSession)
    (member : String) :
    (images.entries.foldl (fun s (name, image) => s.stage name image) s).staged.get member =
      (images.get member).or (s.staged.get member) := by
  obtain ⟨image, hmem, hget⟩ | ⟨hnone, hget⟩ := stage_entries images.entries s member
  · rw [OrdMap.mem_entries.mp hmem]
    exact hget
  · have hother : images.get member = none :=
      Option.eq_none_iff_forall_ne_some.mpr fun image h => hnone image (OrdMap.mem_entries.mpr h)
    rw [hother]
    exact hget

/-- What staging leaves of `d₀`. -/
structure Staged (jobId : String) (planActions : List PrivateActionRecord) (profile : DeviceProfile)
    (d₀ d : Dispatching ω) : Prop where
  images : ∃ expected images, expectedImages planActions profile = .ok expected ∧
    Provides expected images ∧ ∀ member, (d.dispatcher.session jobId).staged.get member =
      (images.get member).or ((d₀.dispatcher.session jobId).staged.get member)
  others : ∀ other, other ≠ jobId → d.dispatcher.session other = d₀.dispatcher.session other
  calls : d.calls = d₀.calls

variable {d₀ : Dispatching ω}

/-- **Staging a job**: its session gets what the plan declares; a failure leaves the dispatcher. -/
theorem meets_stageJob (h : HostKept host J) (jobId : String) (artifactDigest : Sha256Digest)
    (planActions : List PrivateActionRecord) (profile : DeviceProfile) (mode : String)
    (hJ : J d₀.world) : Meets (fun d => d = d₀)
      (stageJob host storeRoot workRoot jobId artifactDigest planActions profile mode)
      (fun _ d => J d.world ∧ Staged jobId planActions profile d₀ d)
      fun _ d => J d.world ∧ d.dispatcher = d₀.dispatcher ∧ d.calls = d₀.calls := by
  have hsame : ∀ d : Dispatching ω, d = d₀ →
      J d.world ∧ d.dispatcher = d₀.dispatcher ∧ d.calls = d₀.calls := by
    rintro _ rfl
    exact ⟨hJ, rfl, rfl⟩
  refine meets_getState_bind fun started => meets_ite (fun _ => meets_fail hsame) fun _ => ?_
  refine meets_lift_bind (fun expected hexpected => ?_) fun _ _ => hsame
  refine Meets.bind (Q := fun staging d => Provides expected staging.images ∧ J d.world ∧
    d.dispatcher = d₀.dispatcher ∧ d.calls = d₀.calls) (Meets.within ?_) fun staging => ?_
  · rintro _ rfl
    exact (h.materializeStagingCache storeRoot _ artifactDigest expected).weaken (fun _ hw => hw ▸ hJ)
      (fun _ _ hs => ⟨hs.2, hs.1, rfl, rfl⟩) fun _ _ hw => ⟨hw, rfl, rfl⟩
  refine Meets.bind (Q := fun _ d => J d.world ∧
    Staged jobId planActions profile d₀ d) ?_ fun _ => ?_
  · rintro d ⟨hprovides, hw, hdispatcher, hcalls⟩
    refine ⟨h.spawnAll _ _ hw, ⟨expected, staging.images, hexpected, hprovides, fun member => ?_⟩,
      fun other hne => ?_, ?_⟩
    · rw [session_putSession, if_pos rfl, ← hdispatcher]
      exact get_stage_entries staging.images _ member
    · rw [session_putSession, if_neg hne, hdispatcher]
    · rw [← hcalls]
      exact Function.update_eq_self _ _
  refine Meets.bind (Q := fun _ d => J d.world ∧
    Staged jobId planActions profile d₀ d) (meets_modifyState ?_) fun _ => ?_
  · rintro d ⟨hw, himages, hothers, hcalls⟩
    exact ⟨hw, himages, hothers, hcalls⟩
  · exact meets_getState_bind fun ended => pure_keeps

variable {planActions : List PrivateActionRecord} {profile : DeviceProfile} {jobId : String}

theorem stagingFor_keeps (h : HostKept host J) (work : DispatchWork) (isWrite : Bool) :
    Ends (fun d => J d.world) (stagingFor host storeRoot workRoot work isWrite) fun d => J d.world := by
  refine meets_ite (fun _ => pure_keeps) fun _ => meets_getState_bind fun s => ?_
  rcases s.dispatcher.preparationFailures.get work.jobId with _ | failure
  · refine meets_ite (fun _ _ hd => hd) fun _ => ?_
    refine Meets.bind (Q := fun _ d => J d.world) (fun d hd => ?_) fun stats => pure_keeps
    exact (meets_stageJob h work.jobId work.artifactDigest work.planActions work.profile _
      hd).weaken (fun _ hd => hd) (fun _ _ hd => hd.1) (fun _ _ hd => hd.1) d rfl
  · exact fun _ hd => hd

/-- **A run**: it fails before anything is executed, or it executes the actions in the session of the
job and reports on the last of them. -/
theorem meets_tryRun (h : HostKept host J) (work : DispatchWork)
    {Q : Option ActionOutcome → Dispatching ω → Prop}
    {R : Halt ExecutionError → Dispatching ω → Prop}
    (hexec : ∀ decoded, decodeAll work.actions = .ok decoded →
      Meets (fun d => J d.world) (onSession work.jobId (executeAll host port
        (jobRoot workRoot work.jobId ++ "/scratch") work.profile (decoded.zip work.actions) none))
        Q R) :
    Meets (fun d => J d.world) (tryRun host port storeRoot workRoot work)
      (fun o d => ∃ last, Q (some last) d ∧ o.disposition = last.disposition)
      fun halt d => J d.world ∨ (∃ halt', halt = halt'.map classify ∧ R halt' d) ∨ Q none d := by
  refine meets_lift_bind (fun decoded hdecoded => ?_) fun _ _ _ hd => .inl hd
  refine ((stagingFor_keeps h work _).failing fun _ _ hd => .inl hd).mapError.bind fun staging => ?_
  refine Meets.bind (Q := fun _ d => J d.world) (Meets.mapError ?_) fun _ => ?_
  · exact (meets_of_state fun d hd => h.createDirAll _ d.world hd).failing fun _ _ hd => .inl hd
  refine ((hexec decoded (mapError_eq_ok.mp hdecoded)).failing fun halt _ hd =>
    .inr (.inl ⟨halt, rfl, hd⟩)).mapError.bind fun last => ?_
  rcases last with _ | last
  · exact meets_fail fun _ hd => .inr (.inr hd)
  · exact meets_getState_bind fun ended => meets_pure fun _ hd => ⟨last, hd, rfl⟩

end ArkForge.Daemon.DispatcherSpec
