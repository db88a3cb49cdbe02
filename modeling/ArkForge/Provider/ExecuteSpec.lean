import ArkForge.Provider.Execute

/-! # What executing an action can do

An action that only reads leaves every property of the world alone that the reads of the port and the
files of the host leave alone. A write refuses, or it makes exactly one call, at the sector that was
asked for; a reset makes at most one call. -/

namespace ArkForge.Provider.ExecuteSpec

open Lib.Fallible Lib.Result
open Core.Digest Core.Projection Core.Verification
open Core.Profile Artifact.Manifest
open Device Execute

variable {ω : Type} {host : ExecutionHost ω} {port : RockUsbPort ω}

/-! ### Calls -/

section Calls

variable {I : Execution ω → Prop} {R : Halt ExecutionError → Execution ω → Prop}

/-- The execution, once a call has been made. -/
def afterCall {α : Type} (call : Except RockUsbPortFailure α → PortCall)
    (x : Exec ω RockUsbPortFailure α) (e : Execution ω) : Execution ω :=
  { e with world := (x e.world).2, calls := e.calls ++ [call (x e.world).1] }

theorem meets_callPort {α : Type} (operation : String)
    (call : Except RockUsbPortFailure α → PortCall) (x : Exec ω RockUsbPortFailure α) :
    Meets I (callPort operation call x)
      (fun a e => ∃ e₀, I e₀ ∧ (x e₀.world).1 = .ok a ∧ e = afterCall call x e₀)
      fun h e => ∃ e₀ f, I e₀ ∧ (x e₀.world).1 = .error f ∧ h = .error (portError operation f) ∧
        e = afterCall call x e₀ := by
  intro e he
  unfold callPort
  rcases hx : (x e.world).1 with f | a
  · exact ⟨e, f, he, hx, rfl, by simp [afterCall, hx]⟩
  · exact ⟨e, he, hx, by simp [afterCall, hx]⟩

theorem meets_getSession :
    Meets I getSession (fun session e => session = e.session ∧ I e) R :=
  fun _ he => ⟨rfl, he⟩

theorem require_keeps {α : Type} {value : Option α} {error : ExecutionError} :
    Ends I (require value error) I :=
  lift_keeps

theorem meets_onHost {ε α : Type} {f : ε → ExecutionError} {x : Exec ω ε α}
    (h : ∀ e, I e → I { e with world := (x e.world).2 }) :
    Ends I (onHost f x) I := by
  refine (Meets.within fun e he => ?_).mapError
  intro w hw
  subst hw
  have := h e he
  rcases hx : x e.world with ⟨r, w⟩
  rw [hx] at this
  rcases r with _ | _ <;> exact this

end Calls

/-! ### Reading -/

/-- Nothing that an action does short of a mutation disturbs `J`. -/
structure Kept (host : ExecutionHost ω) (port : RockUsbPort ω) (J : ω → Prop) : Prop where
  createDirAll : ∀ path w, J w → J (host.createDirAll path w).2
  openFile : ∀ path w, J w → J (host.openFile path w).2
  discover : ∀ w, J w → J (port.discover w).2
  readPartitionTable : ∀ w, J w → J (port.readPartitionTable w).2
  readSectors : ∀ beginSector sectors path w, J w → J (port.readSectors beginSector sectors path w).2

variable {J : ω → Prop}

abbrev Within (J : ω → Prop) (e : Execution ω) : Prop := J e.world

theorem meets_read {α : Type} {operation : String} {call : Except RockUsbPortFailure α → PortCall}
    {x : Exec ω RockUsbPortFailure α} (h : ∀ w, J w → J (x w).2) :
    Ends (Within J) (callPort operation call x) (Within J) := by
  refine (meets_callPort operation call x).weaken (fun _ he => he) ?_ ?_
  · rintro _ _ ⟨e₀, he₀, -, rfl⟩
    exact h _ he₀
  · rintro _ _ ⟨e₀, f, he₀, -, -, rfl⟩
    exact h _ he₀

theorem getSession_keeps : Ends (Within J) getSession (Within J) := fun _ he => he

theorem modifySession_keeps {f : ExecutionSession → ExecutionSession} :
    Ends (Within J) (modifySession f) (Within J) := fun _ he => he

namespace Kept

variable (h : Kept host port J) (record : PrivateActionRecord) (scratch : String)

include h

theorem readsSectors (beginSector sectors : ℕ) (label : String) :
    Ends (Within J) (Execute.readSectors host port scratch beginSector sectors label) (Within J) :=
  (meets_onHost fun e => h.createDirAll _ e.world).bind fun _ =>
    (meets_read (h.readSectors _ _ _)).bind fun _ => pure_keeps

theorem probeLoader : Ends (Within J) (probeLoader port record) (Within J) :=
  (meets_read h.discover).bind fun _ => pure_keeps

theorem validatePartitionTable (profile : DeviceProfile) (expected : Sha256Digest) :
    Ends (Within J) (validatePartitionTable port record profile expected) (Within J) := by
  refine lift_keeps.bind fun digest => meets_ite (fun _ => fail_keeps) fun _ => ?_
  refine (meets_read h.readPartitionTable).bind fun receipt => lift_keeps.bind fun _ => ?_
  exact modifySession_keeps.bind fun _ => pure_keeps

theorem characterizeReadDomain :
    Ends (Within J) (characterizeReadDomain host port scratch record) (Within J) := by
  refine (h.readsSectors scratch 1 1 "primary-table").bind fun primary => ?_
  refine meets_ite (fun _ => fail_keeps) fun _ => ?_
  refine modifySession_keeps.bind fun _ => getSession_keeps.bind fun session => ?_
  refine require_keeps.bind fun table => lift_keeps.bind fun far => ?_
  refine (h.readsSectors scratch far 1 "far-end").bind fun bytes => ?_
  exact modifySession_keeps.bind fun _ => pure_keeps

theorem readbackPartition (partition : String) (beginSector : UInt64)
    (maxStrength : VerificationStrength) (filler : Option UInt8) :
    Ends (Within J)
      (readbackPartition host port scratch record partition beginSector maxStrength filler)
      (Within J) := by
  refine require_keeps.bind fun range => require_keeps.bind fun expected => ?_
  refine getSession_keeps.bind fun session => require_keeps.bind fun domain => ?_
  have hwhole : Ends (Within J) (readWholeRange host port scratch record partition beginSector
      maxStrength filler range expected domain) (Within J) :=
    (h.readsSectors scratch _ _ _).bind fun bytes => pure_keeps
  cases domain with
  | full => exact hwhole
  | windowed detail =>
    refine meets_ite (fun _ => fail_keeps) fun _ => (h.readsSectors scratch _ _ _).bind fun bytes => ?_
    exact meets_ite (fun _ => pure_keeps) fun _ => hwhole

end Kept

/-! ### Images -/

/-- Opening and hashing change the world by the opening of the file alone. -/
theorem openAndRevalidate_keeps {host : ExecutionHost ω}
    (h : ∀ path w, J w → J (host.openFile path w).2)
    (staged : StagedImage) : Ends J (openAndRevalidate host staged) J := by
  refine meets_getState_bind fun started => (meets_of_state (h _)).mapError.bind fun file => ?_
  refine lift_keeps.bind fun before => meets_ite (fun _ => fail_keeps) fun _ => ?_
  refine lift_keeps.bind fun hashed => meets_ite (fun _ => fail_keeps) fun _ => ?_
  refine meets_ite (fun _ => fail_keeps) fun _ => lift_keeps.bind fun after => ?_
  exact meets_ite (fun _ => fail_keeps) fun _ => meets_getState_bind fun ended => pure_keeps

theorem join_keeps {I : Execution ω → Prop} (member : String) (worker : Worker) :
    Ends I (worker.join member) I := by
  rcases worker with _ | _ | image
  · exact fail_keeps
  · exact fail_keeps
  · exact pure_keeps

theorem Kept.takeValidatedImage (h : Kept host port J) (member : String) :
    Ends (Within J) (takeValidatedImage host member) (Within J) := by
  have hjoin : ∀ session, Ends (Within J) (joinOrOpen host member session) (Within J) := by
    intro session
    unfold joinOrOpen
    rcases session.validating.get member with _ | worker
    · -- there is no worker, so the staged image is opened now
      refine require_keeps.bind fun staged => (meets_onHost fun e he => ?_).bind fun _ => pure_keeps
      exact (openAndRevalidate_keeps h.openFile staged).state he
    · exact modifySession_keeps.bind fun _ => (join_keeps member worker).bind fun _ => pure_keeps
  exact meets_getState_bind fun waited => (hjoin _).bind fun r =>
    meets_getState_bind fun ended => pure_keeps

/-! ### Mutations -/

theorem offset_of_checkWrite {session : ExecutionSession} {profile : DeviceProfile}
    {partition member : String} {beginSector : UInt64} {entry : PartitionEntryFact}
    (h : checkWrite session profile partition member beginSector = .ok entry) :
    entry.offsetSectors = beginSector := by
  unfold checkWrite at h
  split at h
  · cases h
  split_ifs at h
  split at h
  · cases h
  split at h
  · cases h
  split_ifs at h with hoffset
  split at h
  · cases h
  dsimp only at h
  split at h
  · split_ifs at h
    exact Except.ok.inj h ▸ not_not.mp hoffset
  · exact Except.ok.inj h ▸ not_not.mp hoffset

variable {R : Halt ExecutionError → Execution ω → Prop} {Q : ActionOutcome → Execution ω → Prop}

/-- **A write refuses, or it makes one call.** -/
theorem Kept.writePartition (h : Kept host port J) (record : PrivateActionRecord)
    (profile : DeviceProfile) (partition member : String) (beginSector : UInt64)
    (hrefused : ∀ halt e, Within J e → R halt e)
    (hcalled : ∀ image e, Within J e →
      let x := port.writePartition partition beginSector.toNat image
      let e' := afterCall (fun _ => .writePartition partition beginSector.toNat image) x e
      (∀ f, (x e.world).1 = .error f → R (.error (portError "writePartition" f)) e') ∧
        ∀ receipt, (x e.world).1 = .ok receipt →
          (∀ fault, R (.error (.externalIo "writePartition" fault)) e') ∧
          ∀ o : ActionOutcome, o.disposition =
            (if receipt.semanticSuccess then .semanticSuccess else .outcomeUnknown) → Q o e') :
    Meets (Within J) (writePartition host port record profile partition member beginSector) Q R := by
  refine (getSession_keeps.failing hrefused).bind fun session => ?_
  refine meets_lift_bind (fun entry hentry => ?_) fun halt _ => hrefused halt
  obtain rfl := offset_of_checkWrite (mapError_eq_ok.mp hentry)
  refine ((h.takeValidatedImage member).failing hrefused).bind fun r => ?_
  obtain ⟨image, waitMs, parallel⟩ := r
  refine ((meets_callPort _ _ _).failing ?_).bind fun receipt => ?_
  · rintro _ _ ⟨e, f, he, hf, rfl, rfl⟩
    exact (hcalled image e he).1 f hf
  · rintro _ ⟨e, he, hreceipt, rfl⟩
    obtain ⟨hfault, hok⟩ := (hcalled image e he).2 receipt hreceipt
    rcases receipt.progress.filter _ with _ | progress
    · exact hok _ rfl
    · exact hfault _

theorem meets_resetDevice {I : Execution ω → Prop} (record : PrivateActionRecord)
    (hcalled : ∀ e, I e →
      let e' := afterCall (fun _ => .resetDevice) port.resetDevice e
      (∀ f, (port.resetDevice e.world).1 = .error f → R (.error (portError "resetDevice" f)) e') ∧
        ∀ receipt, (port.resetDevice e.world).1 = .ok receipt →
          ∀ o : ActionOutcome, o.disposition =
            (if receipt.semanticSuccess then .semanticSuccess else .outcomeUnknown) → Q o e') :
    Meets I (resetDevice port record) Q R := by
  refine ((meets_callPort _ _ _).failing ?_).bind fun receipt => ?_
  · rintro _ _ ⟨e, f, he, hf, rfl, rfl⟩
    exact (hcalled e he).1 f hf
  · rintro _ ⟨e, he, hreceipt, rfl⟩
    exact (hcalled e he).2 receipt hreceipt _ rfl

end ArkForge.Provider.ExecuteSpec
