import ArkForge.Lib.Folder
import ArkForge.Standalone.Authority

/-! # The file of a job's lineage

The supervisor writes a lineage to a temporary file, with the revision and the process in its name,
and moves that file to the place of the old one. Before that it looks at the old one, if there is a
file: an older revision does not take the place of a newer one. -/

namespace ArkForge.Standalone.LineageFiles

open Lib.Fallible Lib.Ordered Lib.Folder Lib.Result
open Core.Cbor Core.Digest
open Standalone.Authority
open Exec

def jobLineagePath (jobId : String) : String := journalName jobId ".binding"

def temporaryPath (process : ℕ) (jobId : String) (revision : UInt64) : String :=
  "." ++ (sha256 (utf8 jobId)).toHex ++ "." ++ toString revision.toNat ++ "." ++ toString process ++
    ".tmp"

theorem path_ne_temporary {process : ℕ} {jobId : String} {revision : UInt64} :
    jobLineagePath jobId ≠ temporaryPath process jobId revision := by
  intro h
  have hlast := congrArg (fun name => name.toList.reverse.head?) h
  simp [jobLineagePath, journalName, temporaryPath] at hlast

def ioText : IoError → String
  | .alreadyExists => "already exists"
  | .notFound => "not found"
  | .other => "failed"

def attempt {α : Type} (context : String) (op : Operation α) : Io StandaloneError α :=
  io (fun e => internal context (.io (ioText e))) op

/-- What the bytes of the job's file say. -/
def decodeJobLineage (jobId : String) (encoded : List UInt8) :
    Except StandaloneError ActiveTargetLineage :=
  Authority.loadJobLineage (OrdMap.empty.alter (jobLineagePath jobId) fun _ => encoded) jobId

def loadJobLineage (jobId : String) : Io StandaloneError ActiveTargetLineage := do
  let encoded ← attempt "read the authority job lineage" (readFile (jobLineagePath jobId))
  lift ((decodeJobLineage jobId encoded).mapError .error)

/-- The last half of `persist_job_lineage`. -/
def publish (process : ℕ) (jobId : String) (lineage : ActiveTargetLineage) :
    Io StandaloneError Unit := do
  let temporary := temporaryPath process jobId lineage.revision
  attempt "create a target-lineage transaction" (createNew temporary)
  attempt "protect a target-lineage transaction" touch
  attempt "commit target-lineage bytes" (writeAll temporary (encodeJobLineage lineage))
  attempt "commit target-lineage bytes" (syncAll temporary)
  attempt "publish target-lineage revision" (rename temporary (jobLineagePath jobId))

/-- An older revision does not take the place of a newer one. -/
def replaceExisting (process : ℕ) (jobId : String) (lineage : ActiveTargetLineage) :
    Io StandaloneError Unit := do
  let existing ← loadJobLineage jobId
  if lineage.revision < existing.revision then
    fail (.error ⟨"TARGET_LINEAGE_STALE",
      "A stale target-lineage revision cannot replace newer durable evidence.", none, 6, false⟩)
  else if existing.revision = lineage.revision then
    if existing = lineage then pure ()
    else fail (.error ⟨"TARGET_LINEAGE_CONFLICT",
      "The same target-lineage revision already names different facts.", none, 6, false⟩)
  else publish process jobId lineage

/-- `Path::exists`, which answers no where it cannot tell: then the file is `unseen`. -/
def pathExists (unseen : Bool) (name : String) : Io StandaloneError Bool := fun disk =>
  (.ok (!unseen && (content disk.files name).isSome), disk)

def persistJobLineage (unseen : Bool) (process : ℕ) (jobId : String) (lineage : ActiveTargetLineage) :
    Io StandaloneError Unit := do
  attempt "create the authority job journal" touch
  attempt "protect the authority job journal" touch
  let there ← pathExists unseen (jobLineagePath jobId)
  if there then replaceExisting process jobId lineage else publish process jobId lineage

/-! ### What a load returns -/

variable {jobId : String} {files : Files} {lineage old : ActiveTargetLineage} {process : ℕ}
  {unseen : Bool}

/-- The bytes in the job's file. -/
def stored (jobId : String) (files : Files) : Option (List UInt8) :=
  content files (jobLineagePath jobId)

/-- What a load returns that can read the file. -/
def loads (jobId : String) (files : Files) : Option ActiveTargetLineage :=
  (stored jobId files).bind fun bytes => (decodeJobLineage jobId bytes).toOption

/-- What a load asks for, beyond a digest of 32 bytes. -/
def Complete (lineage : ActiveTargetLineage) : Prop :=
  lineage.planId ≠ "" ∧ lineage.currentDeviceId ≠ "" ∧ lineage.topologySha256 ≠ "" ∧
    lineage.revision ≠ 0

instance (lineage : ActiveTargetLineage) : Decidable (Complete lineage) := by
  unfold Complete
  infer_instance

theorem reads_loadJobLineage :
    Reads files (loadJobLineage jobId) fun l => loads jobId files = some l := by
  refine (reads_readFile _).bind fun bytes hbytes => reads_lift fun l hl => ?_
  rcases hdecode : decodeJobLineage jobId bytes with e | l' <;> rw [hdecode] at hl <;> cases hl
  simp [loads, stored, hbytes, hdecode, Except.toOption]

theorem loads_of_stored (h : Storable lineage)
    (hstored : stored jobId files = some (encodeJobLineage lineage)) :
    loads jobId files = if Complete lineage then some lineage else none := by
  rw [loads, hstored]
  show (decodeJobLineage jobId (encodeJobLineage lineage)).toOption = _
  unfold decodeJobLineage Authority.loadJobLineage jobLineagePath
  rw [OrdMap.get_alter, if_pos rfl]
  dsimp only
  rw [fold_lineage h, ok_bind]
  by_cases hcomplete : Complete lineage
  · rw [if_pos hcomplete, if_neg (by simpa [Complete, h.identity] using hcomplete)]
    rfl
  · rw [if_neg hcomplete, if_pos (by simpa [Complete, h.identity, imp_iff_not_or] using hcomplete)]
    rfl

/-! ### What a call does to the file -/

/-- The file of the job holds the lineage. -/
def Published (jobId : String) (lineage : ActiveTargetLineage) (files : Files) : Prop :=
  stored jobId files = some (encodeJobLineage lineage)

/-- Until the file is moved the old one stays. -/
theorem runs_publish :
    Runs (· = files) (publish process jobId lineage) (fun _ => Published jobId lineage)
      fun fs => stored jobId fs = stored jobId files ∨ Published jobId lineage fs := by
  have hne := @path_ne_temporary process jobId lineage.revision
  set temporary := temporaryPath process jobId lineage.revision
  -- what is written so far, while the old file stays
  let W (written : Option (List UInt8)) (fs : Files) : Prop :=
    stored jobId fs = stored jobId files ∧ content fs temporary = written
  have hstep : ∀ {op : Operation Unit} {context : String} {a b : Option (List UInt8)},
      op.Only temporary → (∀ fs, content fs temporary = a → content (op.effect fs) temporary = b) →
      Runs (W a) (attempt context op) (fun _ => W b) fun fs =>
        stored jobId fs = stored jobId files ∨ Published jobId lineage fs := by
    intro op context a b honly hwritten
    refine runs_io (fun fs h _ _ => ⟨(honly fs _ hne).1.trans h.1, hwritten fs h.2⟩)
      (fun _ h => .inl h.1) fun fs h extent => ?_
    exact .inl (((honly fs _ hne).2 extent).trans h.1)
  have hmoved : ∀ fs, W (some (encodeJobLineage lineage)) fs →
      Published jobId lineage (renamed temporary (jobLineagePath jobId) fs) := by
    intro fs h
    rw [Published, stored, content_renamed, h.2]
    rfl
  refine Meets.pre (P := fun disk => W (content files temporary) disk.files) ?_ ?_
  · refine Runs.bind (hstep (b := some []) (only_createNew _) fun fs _ => ?_) fun _ => ?_
    · rw [createNew, content_alter, if_pos rfl]
    refine Runs.bind (hstep (fun _ _ _ => ⟨rfl, fun _ => rfl⟩) fun _ h => h) fun _ => ?_
    refine Runs.bind (hstep (b := some (encodeJobLineage lineage)) (only_writeAll _ _) fun fs h => ?_)
      fun _ => ?_
    · rw [writeAll, content_appended, if_pos rfl, h]
      rfl
    refine Runs.bind (hstep (only_syncAll _) fun fs h => (content_withSynced ..).trans h) fun _ => ?_
    refine runs_io (fun fs h _ _ => hmoved fs h) (fun _ h => .inl h.1) fun fs h extent => ?_
    show stored _ (if _ then _ else _) = _ ∨ Published _ _ (if _ then _ else _)
    split_ifs
    · exact .inl h.1
    · exact .inr (hmoved fs h)
  · rintro ⟨_, _⟩ rfl
    exact ⟨rfl, rfl⟩

/-- The new lineage took the place of nothing or of one with a lower revision, if that was seen. -/
def Replaced (jobId : String) (unseen : Bool) (lineage : ActiveTargetLineage) (files files' : Files) :
    Prop :=
  Published jobId lineage files' ∧ (unseen = false → stored jobId files = none ∨
    ∃ old, loads jobId files = some old ∧ old.revision < lineage.revision)

theorem Replaced.lower {files' : Files} (h : Replaced jobId unseen lineage files files')
    (hseen : unseen = false) (hold : loads jobId files = some old) :
    old.revision < lineage.revision := by
  rcases h.2 hseen with hnone | ⟨old', hold', hlower⟩
  · rw [loads, hnone] at hold
    cases hold
  · rwa [Option.some.inj (hold.symm.trans hold')]

/-- **What a call does.** -/
theorem runs_persistJobLineage : Runs (· = files) (persistJobLineage unseen process jobId lineage)
    (fun _ fs => Replaced jobId unseen lineage files fs ∨
      fs = files ∧ loads jobId files = some lineage)
    fun fs => stored jobId fs = stored jobId files ∨ Replaced jobId unseen lineage files fs := by
  have hexists : Reads files (pathExists unseen (jobLineagePath jobId))
      (· = (!unseen && (stored jobId files).isSome)) := by
    rintro _ rfl
    exact ⟨rfl, rfl⟩
  refine reads_touch.bind_runs (.inl rfl) fun _ _ => reads_touch.bind_runs (.inl rfl) fun _ _ => ?_
  refine hexists.bind_runs (.inl rfl) fun there hthere => runs_ite (fun _ => ?_) fun hnone => ?_
  · refine reads_loadJobLineage.bind_runs (.inl rfl) fun existing hexisting => ?_
    refine runs_ite (fun _ => ?_) fun hstale => runs_ite (fun _ => ?_) fun hrevision => ?_
    · exact meets_fail fun _ hs => .inl (hs ▸ rfl)
    · refine runs_ite (fun hsame => ?_) fun _ => meets_fail fun _ hs => .inl (hs ▸ rfl)
      exact meets_pure fun _ hs => .inr ⟨hs, hsame ▸ hexisting⟩
    · have hlower : existing.revision < lineage.revision :=
        UInt64.lt_of_le_of_ne (UInt64.not_lt.mp hstale) hrevision
      have hnew : unseen = false → stored jobId files = none ∨
          ∃ old, loads jobId files = some old ∧ old.revision < lineage.revision :=
        fun _ => .inr ⟨existing, hexisting, hlower⟩
      exact Meets.weaken runs_publish (fun _ hs => hs) (fun _ _ hs => .inl ⟨hs, hnew⟩)
        fun _ _ hs => hs.imp_right fun hp => ⟨hp, hnew⟩
  · have hnew : unseen = false → stored jobId files = none ∨
        ∃ old, loads jobId files = some old ∧ old.revision < lineage.revision := by
      intro hunseen
      left
      simpa [hthere, hunseen] using hnone
    exact Meets.weaken runs_publish (fun _ hs => hs) (fun _ _ hs => .inl ⟨hs, hnew⟩)
      fun _ _ hs => hs.imp_right fun hp => ⟨hp, hnew⟩

/-! ### One outcome of the call as a whole -/

/-- Where the new file cannot be written nothing changes. -/
theorem unwritten_keeps {e : StandaloneError} {P : OrdMap String (List UInt8) → Prop} :
    Ends P (Authority.persistJobLineage (.error e) jobId lineage) P := by
  refine meets_getState_bind fun jobs => ?_
  split
  · exact meets_lift_bind nofun fun _ _ _ hs => hs
  refine lift_keeps.bind fun existing => ?_
  refine meets_ite (fun _ => fail_keeps) fun _ => ?_
  refine meets_ite (fun _ => meets_ite (fun _ => pure_keeps) fun _ => fail_keeps) fun _ => ?_
  exact meets_lift_bind nofun fun _ _ _ hs => hs

section Whole

-- The job's file as it stands among the bytes of all jobs.
variable {jobs : OrdMap String (List UInt8)}
  (hjobs : jobs.get (jobLineagePath jobId) = stored jobId files)
include hjobs

theorem load_of_loads (h : loads jobId files = some old) :
    Authority.loadJobLineage jobs jobId = .ok old := by
  obtain ⟨bytes, hbytes, hdecode⟩ := Option.bind_eq_some_iff.mp h
  have hsame : Authority.loadJobLineage jobs jobId = decodeJobLineage jobId bytes := by
    unfold decodeJobLineage Authority.loadJobLineage
    rw [show jobs.get (journalName jobId ".binding") = some bytes from hjobs.trans hbytes,
      show journalName jobId ".binding" = jobLineagePath jobId from rfl, OrdMap.get_alter, if_pos rfl]
  rw [hsame]
  rcases hd : decodeJobLineage jobId bytes with _ | l <;> rw [hd] at hdecode <;> cases hdecode
  rfl

theorem persist_new (h : stored jobId files = none ∨
      ∃ old, loads jobId files = some old ∧ old.revision < lineage.revision) :
    Authority.persistJobLineage (.ok ()) jobId lineage jobs =
      (.ok (), jobs.alter (jobLineagePath jobId) fun _ => encodeJobLineage lineage) := by
  unfold Authority.persistJobLineage
  rw [getState_bind, show jobs.get (journalName jobId ".binding") = _ from hjobs]
  rcases h with hnone | ⟨old, hold, hlower⟩
  · rw [hnone]
    rfl
  · obtain ⟨bytes, hbytes, -⟩ := Option.bind_eq_some_iff.mp hold
    rw [hbytes]
    dsimp only
    rw [load_of_loads hjobs hold, lift_ok_bind, if_neg (UInt64.lt_asymm hlower),
      if_neg (UInt64.ne_of_lt hlower)]
    rfl

theorem persist_same (h : loads jobId files = some lineage) :
    Authority.persistJobLineage (.ok ()) jobId lineage jobs = (.ok (), jobs) := by
  obtain ⟨bytes, hbytes, -⟩ := Option.bind_eq_some_iff.mp h
  unfold Authority.persistJobLineage
  rw [getState_bind, show jobs.get (journalName jobId ".binding") = _ from hjobs, hbytes]
  dsimp only
  rw [load_of_loads hjobs h, lift_ok_bind, if_neg (UInt64.lt_irrefl _), if_pos rfl, if_pos rfl]
  rfl

/-- **The call as a whole is `Authority.persistJobLineage`.** If the question for the old file works,
then whatever becomes of the operations, the job's file is left as by a call that could or could not
write it, and a call that answers is one that answers. -/
theorem persistJobLineage_refines (process : ℕ) (fates : List Fate) : ∃ written,
    (Authority.persistJobLineage written jobId lineage jobs).2.get (jobLineagePath jobId) =
      stored jobId (persistJobLineage false process jobId lineage ⟨files, fates⟩).2.files ∧
    ((persistJobLineage false process jobId lineage ⟨files, fates⟩).1 = .ok () →
      (Authority.persistJobLineage written jobId lineage jobs).1 = .ok ()) := by
  rcases hrun : persistJobLineage false process jobId lineage ⟨files, fates⟩ with ⟨result, disk⟩
  have hreplaced : ∀ {fs}, Replaced jobId false lineage files fs →
      (Authority.persistJobLineage (.ok ()) jobId lineage jobs).2.get (jobLineagePath jobId) =
        stored jobId fs ∧ (Authority.persistJobLineage (.ok ()) jobId lineage jobs).1 = .ok () := by
    rintro fs ⟨hpublished, hnew⟩
    rw [persist_new hjobs (hnew rfl), hpublished]
    exact ⟨(OrdMap.get_alter _ _ _ _).trans (if_pos rfl), rfl⟩
  cases result with
  | ok =>
    rcases runs_persistJobLineage.ok rfl hrun with h | ⟨hsame, hloads⟩
    · exact ⟨.ok (), (hreplaced h).1, fun _ => (hreplaced h).2⟩
    · refine ⟨.ok (), ?_, fun _ => ?_⟩ <;> rw [persist_same hjobs hloads]
      exact hjobs.trans (congrArg (stored jobId) hsame.symm)
  | error e =>
    rcases runs_persistJobLineage.error rfl hrun with hsame | h
    · refine ⟨.error (internal "commit target-lineage bytes" (.io "failed")), ?_, nofun⟩
      have hkept := Meets.state (@unwritten_keeps jobId lineage (internal
        "commit target-lineage bytes" (.io "failed")) (· = jobs)) rfl
      exact (congrArg (OrdMap.get · (jobLineagePath jobId)) hkept).trans (hjobs.trans hsame.symm)
    · exact ⟨.ok (), (hreplaced h).1, nofun⟩

end Whole

/-! ### Sequences of calls -/

/-- One call for the job, and what becomes of its operations. -/
structure Call where
  process : ℕ
  lineage : ActiveTargetLineage
  unseen : Bool
  fates : List Fate

def Call.run (jobId : String) (files : Files) (call : Call) :
    Except (Stop StandaloneError) Unit × Disk :=
  persistJobLineage call.unseen call.process jobId call.lineage ⟨files, call.fates⟩

/-- The files after the call, also where it failed or the process died. -/
def Call.after (jobId : String) (files : Files) (call : Call) : Files := (call.run jobId files).2.files

/-- The call stores what can be loaded, and the question for the old file works. -/
def Call.Proper (call : Call) : Prop :=
  Storable call.lineage ∧ Complete call.lineage ∧ call.unseen = false

variable {call : Call}

theorem Call.after_cases : stored jobId (call.after jobId files) = stored jobId files ∨
    Replaced jobId call.unseen call.lineage files (call.after jobId files) := by
  refine Meets.state
    (runs_persistJobLineage.post fun _ _ h => ?_) rfl
  rcases h with h | h
  · exact .inr h
  · exact .inl (h.1 ▸ rfl)

/-- What a load returned stays, or one of a higher revision follows it. -/
theorem forward_foldl : ∀ {calls : List Call} {files : Files} {l : ActiveTargetLineage},
    (∀ call ∈ calls, call.Proper) → loads jobId files = some l →
    ∃ l', loads jobId (calls.foldl (Call.after jobId) files) = some l' ∧
      (l' = l ∨ l.revision < l'.revision)
  | [], _, l, _, hl => ⟨l, hl, .inl rfl⟩
  | call :: later, files, l, h, hl => by
    obtain ⟨⟨hstorable, hcomplete, hseen⟩, hlater⟩ := List.forall_mem_cons.mp h
    rcases @Call.after_cases jobId files call with hsame | hreplaced
    · rw [loads, ← hsame] at hl
      rw [List.foldl_cons]
      exact forward_foldl hlater hl
    · have hnext := loads_of_stored hstorable hreplaced.1
      rw [if_pos hcomplete] at hnext
      obtain ⟨l', hl', hor⟩ := forward_foldl hlater hnext
      refine ⟨l', hl', .inr ?_⟩
      rcases hor with rfl | hlt
      · exact hreplaced.lower hseen hl
      · exact UInt64.lt_trans (hreplaced.lower hseen hl) hlt

/-- **A lineage moves forward.** From whatever files a call leaves the old lineage or the new one in
its place. If the lineages are complete and no question for the old file fails, a call that answered
is seen by the next load, and what a load returns is followed by higher revisions only. -/
theorem lineage_moves_forward (jobId : String) (files : Files) (call : Call) (later : List Call) :
    (stored jobId (call.after jobId files) = stored jobId files ∨
      Published jobId call.lineage (call.after jobId files)) ∧
    ((∀ c ∈ call :: later, c.Proper) →
      ((call.run jobId files).1 = .ok () →
        loads jobId (call.after jobId files) = some call.lineage) ∧
      ∀ l, loads jobId files = some l →
        ∃ l', loads jobId ((call :: later).foldl (Call.after jobId) files) = some l' ∧
          (l' = l ∨ l.revision < l'.revision)) := by
  refine ⟨call.after_cases.imp_right And.left, fun h => ⟨fun hok => ?_, fun l => forward_foldl h⟩⟩
  obtain ⟨hstorable, hcomplete, -⟩ := h call List.mem_cons_self
  have hrun : call.run jobId files = (.ok (), (call.run jobId files).2) := Prod.ext hok rfl
  rcases runs_persistJobLineage.ok rfl hrun with h | ⟨hsame, hloads⟩
  · exact (loads_of_stored hstorable h.1).trans (if_pos hcomplete)
  · exact (congrArg (loads jobId) hsame).trans hloads

/-! ### Calls without trouble -/

theorem publish_works (h : files.get (temporaryPath process jobId lineage.revision) = none) :
    ∃ files', publish process jobId lineage ⟨files, []⟩ = (.ok (), ⟨files', []⟩) := by
  unfold publish attempt
  rw [bind_apply_ok (io_works (a := ()) (by simp [createNew, h])), bind_apply_ok (io_works rfl),
    bind_apply_ok (io_works (a := ()) (by simp [createNew, writeAll, touch, inspect,
    OrdMap.get_alter]))]
  refine ⟨_, io_works (if_pos ?_)⟩
  rw [← content_isSome]
  simp [syncAll, writeAll, createNew, touch, inspect, content_withSynced, content_appended,
    content_alter]

theorem publish_refused (h : files.get (temporaryPath process jobId lineage.revision) ≠ none) :
    publish process jobId lineage ⟨files, []⟩ =
      (.error (.error (internal "create a target-lineage transaction" (.io "already exists"))),
        ⟨files, []⟩) := by
  refine bind_apply_error (io_refused (e := .alreadyExists) ?_)
  simp [createNew, h]

theorem persist_works : persistJobLineage unseen process jobId lineage ⟨files, []⟩ =
    (if !unseen && (stored jobId files).isSome then replaceExisting process jobId lineage
    else publish process jobId lineage) ⟨files, []⟩ := rfl

theorem persist_of_absent (h : unseen = true ∨ stored jobId files = none) :
    persistJobLineage unseen process jobId lineage ⟨files, []⟩ =
      publish process jobId lineage ⟨files, []⟩ := by
  rw [persist_works]
  rcases h with h | h <;> simp [h]

theorem persist_ok_iff {bytes : List UInt8} (h : stored jobId files = some bytes) :
    (persistJobLineage false process jobId lineage ⟨files, []⟩).1 = .ok () ↔
      ∃ old, loads jobId files = some old ∧ (old = lineage ∨
        old.revision < lineage.revision ∧ (publish process jobId lineage ⟨files, []⟩).1 = .ok ()) := by
  have hload : loadJobLineage jobId ⟨files, []⟩ =
      ((decodeJobLineage jobId bytes).mapError .error, ⟨files, []⟩) := by
    have hread : (readFile (jobLineagePath jobId)).answer files = .ok bytes := by
      simp only [readFile, inspect, show content files (jobLineagePath jobId) = _ from h]
    unfold loadJobLineage attempt
    rw [bind_apply_ok (io_works hread)]
    rfl
  rw [persist_works, if_pos (by simp [h]), replaceExisting, loads, h, Option.bind_some]
  rcases hdecode : decodeJobLineage jobId bytes with e | old <;> rw [hdecode] at hload
  · rw [bind_apply_error hload]
    simp [Except.toOption]
  rw [bind_apply_ok hload, show (Except.ok old : Except StandaloneError _).toOption = some old from rfl]
  simp only [Option.some.injEq, exists_eq_left']
  by_cases hstale : lineage.revision < old.revision
  · rw [if_pos hstale]
    have hne : old ≠ lineage := fun heq => UInt64.lt_irrefl _ (heq ▸ hstale)
    simp [fail, hne, UInt64.lt_asymm hstale]
  rw [if_neg hstale]
  by_cases hrevision : old.revision = lineage.revision
  · rw [if_pos hrevision, hrevision]
    by_cases hsame : old = lineage
    · rw [if_pos hsame]
      exact iff_of_true rfl (.inl hsame)
    · rw [if_neg hsame]
      simp [fail, hsame]
  · rw [if_neg hrevision]
    have hlower : old.revision < lineage.revision :=
      UInt64.lt_of_le_of_ne (UInt64.not_lt.mp hstale) hrevision
    have hne : old ≠ lineage := fun heq => hrevision (congrArg _ heq)
    simp [hne, hlower]

def lineageAt (planId : String) (revision : UInt64) : ActiveTargetLineage :=
  ⟨planId, "usb:1-4", List.replicate 32 0, "topology", revision⟩

theorem storable_lineageAt {planId : String} {revision : UInt64} (h : Short planId) :
    Storable (lineageAt planId revision) :=
  ⟨h, show (utf8 "usb:1-4").length < 2 ^ 64 by decide, List.length_replicate,
    show (utf8 "topology").length < 2 ^ 64 by decide⟩

theorem storable_plan {revision : UInt64} : Storable (lineageAt "PLAN-1" revision) :=
  storable_lineageAt (show (utf8 "PLAN-1").length < 2 ^ 64 by decide)

/-- A first call answers, and its lineage is loaded. A second one with the next revision dies before it
has moved its file: the first lineage is still the one that is loaded, or the second is. -/
theorem lineage_moves_forward_second :
    let first : Call := ⟨7, lineageAt "PLAN-1" 1, false, []⟩
    let second : Call := ⟨7, lineageAt "PLAN-1" 2, false, [.works, .works, .works, .dies 0]⟩
    (first.run "JOB-1" .empty).1 = .ok () ∧
    loads "JOB-1" (first.after "JOB-1" .empty) = some first.lineage ∧
    ∃ l', loads "JOB-1" (second.after "JOB-1" (first.after "JOB-1" .empty)) = some l' ∧
      (l' = first.lineage ∨ first.lineage.revision < l'.revision) := by
  intro first second
  have hproper : first.Proper ∧ second.Proper :=
    ⟨⟨storable_plan, by decide, rfl⟩, storable_plan, by decide, rfl⟩
  obtain ⟨_, hempty⟩ := @publish_works "JOB-1" .empty first.lineage 7 rfl
  rw [← @persist_of_absent _ _ _ _ false (.inr rfl)] at hempty
  have hok : (first.run "JOB-1" .empty).1 = .ok () := congrArg Prod.fst hempty
  have hloads := ((lineage_moves_forward "JOB-1" .empty first []).2
    (List.forall_mem_singleton.mpr hproper.1)).1 hok
  exact ⟨hok, hloads, ((lineage_moves_forward "JOB-1" (first.after "JOB-1" .empty) second []).2
    (List.forall_mem_singleton.mpr hproper.2)).2 _ hloads⟩

/-- A call that does not see the old file puts a lower revision in its place, and a call with an
incomplete lineage answers although no load returns it. -/
theorem lower_revision_replaces : ∃ (files : Files) (call other : Call) (old : ActiveTargetLineage),
    (call.run "JOB-1" files).1 = .ok () ∧ loads "JOB-1" files = some old ∧
    loads "JOB-1" (call.after "JOB-1" files) = some call.lineage ∧
    call.lineage.revision < old.revision ∧
    (other.run "JOB-1" .empty).1 = .ok () ∧ other.unseen = false ∧
      loads "JOB-1" (other.after "JOB-1" .empty) = none := by
  let files : Files := OrdMap.empty.alter (jobLineagePath "JOB-1") fun _ =>
    ⟨encodeJobLineage (lineageAt "PLAN-1" 2), true, true⟩
  obtain ⟨_, hrun⟩ := @publish_works "JOB-1" files (lineageAt "PLAN-1" 1) 7
    (by rw [OrdMap.get_alter, if_neg path_ne_temporary.symm]; rfl)
  obtain ⟨_, hempty⟩ := @publish_works "JOB-1" .empty (lineageAt "" 1) 7 rfl
  have hpublished := runs_publish.ok rfl hrun
  have hother := runs_publish.ok rfl hempty
  rw [← persist_of_absent (.inl rfl)] at hrun
  rw [← @persist_of_absent _ _ _ _ false (.inr rfl)] at hempty
  refine ⟨files, ⟨7, lineageAt "PLAN-1" 1, true, []⟩, ⟨7, lineageAt "" 1, false, []⟩,
    lineageAt "PLAN-1" 2, congrArg Prod.fst hrun, ?_, ?_, by decide, congrArg Prod.fst hempty, rfl, ?_⟩
  · refine (loads_of_stored storable_plan ?_).trans (if_pos (by decide))
    rw [stored, content_alter, if_pos rfl]
  · unfold Call.after Call.run
    rw [hrun]
    exact (loads_of_stored storable_plan hpublished).trans (if_pos (by decide))
  · unfold Call.after Call.run
    rw [hempty]
    exact (loads_of_stored (storable_lineageAt (show (utf8 "").length < 2 ^ 64 by decide)) hother).trans
      (if_neg (by decide))

/-- **A second call**, with the lineage of the first and all operations working, returns exactly if
the lineage is there, or the first one left no temporary file and the job has no lineage or an older
one. -/
theorem retry_iff_no_temporary (jobId : String) (files : Files) (call : Call) :
    (Call.run jobId (call.after jobId files) { call with unseen := false, fates := [] }).1 = .ok () ↔
      loads jobId (call.after jobId files) = some call.lineage ∨
        ((call.after jobId files).get (temporaryPath call.process jobId call.lineage.revision) = none ∧
          (stored jobId (call.after jobId files) = none ∨
            ∃ old, loads jobId (call.after jobId files) = some old ∧
              old.revision < call.lineage.revision)) := by
  set files' := call.after jobId files
  have hpublish : (publish call.process jobId call.lineage ⟨files', []⟩).1 = .ok () ↔
      files'.get (temporaryPath call.process jobId call.lineage.revision) = none := by
    by_cases h : files'.get (temporaryPath call.process jobId call.lineage.revision) = none
    · obtain ⟨_, hrun⟩ := publish_works h
      simp [hrun, h]
    · simp [publish_refused h, h]
  unfold Call.run
  rcases hstored : stored jobId files' with _ | bytes
  · rw [persist_of_absent (.inr hstored), hpublish]
    simp [loads, hstored]
  · rw [persist_ok_iff hstored, hpublish]
    rcases loads jobId files' with _ | old
    · simp
    · simp [and_comm]

theorem retry_works : (Call.run "JOB-1" (Call.after "JOB-1" .empty
    ⟨7, lineageAt "PLAN-1" 1, false, [.works, .works, .fails 0]⟩)
    ⟨7, lineageAt "PLAN-1" 1, false, []⟩).1 = .ok () :=
  (retry_iff_no_temporary "JOB-1" .empty
    ⟨7, lineageAt "PLAN-1" 1, false, [.works, .works, .fails 0]⟩).mpr (.inr ⟨rfl, .inl rfl⟩)

/-- A write that fails leaves the temporary file, and every later call meets it. -/
theorem failed_write_blocks : ∃ call : Call,
    (call.run "JOB-1" .empty).1 =
      .error (.error (internal "commit target-lineage bytes" (.io "failed"))) ∧
    stored "JOB-1" (call.after "JOB-1" .empty) = none ∧
    Call.run "JOB-1" (call.after "JOB-1" .empty) { call with fates := [] } =
      (.error (.error (internal "create a target-lineage transaction" (.io "already exists"))),
        ⟨call.after "JOB-1" .empty, []⟩) := by
  let call : Call := ⟨7, lineageAt "PLAN-1" 1, false, [.works, .works, .works, .works, .fails 0]⟩
  have hafter : call.after "JOB-1" .empty = appended (temporaryPath 7 "JOB-1" 1)
      ((encodeJobLineage call.lineage).take 0)
      ((createNew (temporaryPath 7 "JOB-1" 1)).effect .empty) := rfl
  have hnone : stored "JOB-1" (call.after "JOB-1" .empty) = none := by
    rw [hafter, stored, content_appended, if_neg path_ne_temporary, createNew, content_alter,
      if_neg path_ne_temporary]
    rfl
  refine ⟨call, rfl, hnone, (persist_of_absent (.inr hnone)).trans (publish_refused ?_)⟩
  rw [← Option.isSome_iff_ne_none, ← content_isSome, hafter]
  simp [createNew, content_appended, content_alter, call, lineageAt]

end ArkForge.Standalone.LineageFiles
