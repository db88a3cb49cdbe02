import ArkForge.Engine.SealedPlans

/-! # Plan files

The daemon keeps each sealed plan in a file of its own, named after the digest of the plan's
identifier. A plan is written to a file with another name first and published under its own name by a
hard link, which never replaces a file. Files that were not published are passed over when the store
is opened. -/

namespace ArkForge.Daemon.PlanStorage

open Lib.Fallible Lib.Ordered Lib.Folder
open Core.Cbor Core.Digest
open Engine.PlanCodec Engine.PlanRoundTrip Engine.SealedPlans
open Exec

/-! ### File names -/

/-- What stands behind the last dot of a name, unless the name begins with that dot. -/
def extension (name : String) : Option String :=
  match name.toList.reverse.dropWhile (· ≠ '.') with
  | '.' :: _ :: _ => some (String.ofList (name.toList.reverse.takeWhile (· ≠ '.')).reverse)
  | _ => none

theorem extension_append {stem ext : String} (hstem : stem ≠ "") (hext : '.' ∉ ext.toList) :
    extension (stem ++ "." ++ ext) = some ext := by
  have hreverse : (stem ++ "." ++ ext).toList.reverse =
      ext.toList.reverse ++ '.' :: stem.toList.reverse := by
    simp
  have hall : ∀ c ∈ ext.toList.reverse, (decide (c ≠ '.')) = true := by
    intro c hc
    have hne : c ≠ '.' := fun h => hext (h ▸ List.mem_reverse.mp hc)
    exact decide_eq_true hne
  obtain ⟨c, rest, hrest⟩ := List.exists_cons_of_ne_nil
    (show stem.toList.reverse ≠ [] by simpa using hstem)
  unfold extension
  rw [hreverse, List.dropWhile_append_of_pos hall, List.takeWhile_append_of_pos hall,
    hrest]
  simp

def planFile (planId : String) : String := (sha256 (utf8 planId)).toHex ++ "." ++ "cbor"

def filename (plan : StoredPlan) : String := planFile plan.envelope.planId.value

def pendingFile (nonce : List UInt8) : String := (sha256 nonce).toHex ++ "." ++ "pending"

/-- Files that are passed over. -/
def Pending (name : String) : Prop := extension name = some "pending"

instance (name : String) : Decidable (Pending name) := decEq _ _

theorem extension_planFile (planId : String) : extension (planFile planId) = some "cbor" :=
  extension_append (Sha256Digest.toHex_ne_empty _) (by decide)

theorem pending_pendingFile (nonce : List UInt8) : Pending (pendingFile nonce) :=
  extension_append (Sha256Digest.toHex_ne_empty _) (by decide)

theorem not_pending_planFile (planId : String) : ¬ Pending (planFile planId) := by
  unfold Pending
  rw [extension_planFile]
  decide

/-! ### Opening -/

def failure (e : IoError) : EngineError := .planStorage (.io e)

def refuse (text : String) : Stop EngineError := .error (.planStorage (.message text))

/-- One operation on the files. -/
def attempt {α : Type} (op : Operation α) : Io EngineError α := io failure op

/-- The path is a plain file or directory. Nothing else is on the disk of this model, so that only the
question itself can fail. -/
def requirePlain : Io EngineError Unit := attempt touch

def read (name : String) : Io EngineError (List UInt8) := do
  requirePlain
  -- opening the file and asking for its length
  attempt touch
  let bytes ← attempt (readFile name)
  if MAX_BYTES < bytes.length then fail (refuse "private plan exceeds the storage size bound")
  else pure bytes

def loadFile (name : String) : Io EngineError StoredPlan := do
  let bytes ← read name
  let plan ← lift (coded (decode bytes))
  if name ≠ filename plan then
    fail (refuse "private plan filename does not match its sealed identifier")
  else do
    attempt touch -- protect_path
    pure plan

/-- The loop of `open` over the entries of the directory. -/
def loadEntries : List String → Io EngineError (List StoredPlan)
  | [] => pure []
  | name :: rest => do
    attempt touch -- the next entry
    requirePlain
    -- A crash before the immutable filename was published.
    if Pending name then loadEntries rest
    else if extension name ≠ some "cbor" then
      fail (refuse "unrecognized file in private plan storage")
    else do
      let plan ← loadFile name
      let plans ← loadEntries rest
      pure (plan :: plans)

def openFolder : Io EngineError (List StoredPlan) := do
  attempt touch -- create_dir_all
  requirePlain
  attempt touch -- protect_path
  let names ← attempt listFiles
  loadEntries names

/-! ### Writing -/

def verifyExisting (name : String) (bytes : List UInt8) : Io EngineError Unit := do
  let existing ← read name
  if existing ≠ bytes then fail (refuse "a different sealed plan already owns this identifier")
  else pure ()

/-- The answer to a hard link that failed. -/
def linkFailed (target : String) (bytes : List UInt8) : Stop IoError → Io EngineError Unit
  | .error .alreadyExists => verifyExisting target bytes
  | .error e => fail (.error (failure e))
  | .died => fail .died

/-- Publishes fully synced bytes without ever replacing a plan. -/
def publish (temporary target : String) (bytes : List UInt8) : Io EngineError Unit := do
  attempt touch -- protect_path
  attempt (writeAll temporary bytes)
  attempt (syncAll temporary)
  (hardLink temporary target).run.handle (linkFailed target bytes)
  attempt (syncDirectory fun _ => true)

def persist (nonce : List UInt8) (plan : StoredPlan) (bytes : List UInt8) : Io EngineError Unit := do
  requirePlain
  let target := filename plan
  let taken ← attempt (fileExists target)
  if taken then verifyExisting target bytes
  else do
    attempt touch -- fill_random
    let temporary := pendingFile nonce
    attempt (createNew temporary)
    thenIgnoring (publish temporary target bytes) (attempt (removeFile temporary))

/-- The daemon's storage of sealed plans. The nonce is what `fill_random` returns. -/
def filePlanStorage (nonce : List UInt8) : PlanStorage Disk := ⟨openFolder, persist nonce⟩

/-! ### What opening finds -/

variable {name : String}

section Opening

variable {files : Files}

/-- The file holds the plan it is named after. -/
def Holds (files : Files) (name : String) (plan : StoredPlan) : Prop :=
  ∃ bytes, content files name = some bytes ∧ decode bytes = .ok plan ∧ name = filename plan

theorem reads_read (name : String) :
    Reads files (read name) fun bytes => content files name = some bytes := by
  refine reads_touch.bind fun _ _ => reads_touch.bind fun _ _ => (reads_readFile name).bind ?_
  intro bytes hbytes
  exact reads_ite (fun _ => reads_fail) fun _ => reads_pure hbytes

theorem reads_loadFile (name : String) : Reads files (loadFile name) (Holds files name) := by
  refine (reads_read name).bind fun bytes hbytes => ?_
  refine (reads_lift fun plan hplan => coded_eq_ok.mp hplan).bind fun plan hplan => ?_
  refine reads_ite (fun _ => reads_fail) fun hname => reads_touch.bind fun _ _ => ?_
  exact reads_pure ⟨bytes, hbytes, hplan, not_not.mp hname⟩

theorem reads_loadEntries : ∀ names : List String, Reads files (loadEntries names)
    (List.Forall₂ (Holds files) (names.filter fun name => ¬ Pending name))
  | [] => reads_pure .nil
  | name :: rest => by
    refine reads_touch.bind fun _ _ => reads_touch.bind fun _ _ => reads_ite ?_ ?_
    · intro hpending
      rw [List.filter_cons_of_neg (by simpa using hpending)]
      exact reads_loadEntries rest
    · intro hpending
      rw [List.filter_cons_of_pos (by simpa using hpending)]
      refine reads_ite (fun _ => reads_fail) fun _ => (reads_loadFile name).bind fun plan hplan => ?_
      exact (reads_loadEntries rest).bind fun plans hplans => reads_pure (.cons hplan hplans)

def names (files : Files) : List String := files.entries.map Prod.fst

def published (files : Files) : List String := (names files).filter fun name => ¬ Pending name

theorem mem_names : name ∈ names files ↔ (content files name).isSome := by
  rw [content_isSome, Option.isSome_iff_exists]
  simp only [names, List.mem_map, Prod.exists, exists_and_right, exists_eq_right, OrdMap.mem_entries]

theorem mem_published :
    name ∈ published files ↔ (content files name).isSome ∧ ¬ Pending name := by
  simp [published, mem_names]

theorem reads_openFolder :
    Reads files openFolder (List.Forall₂ (Holds files) (published files)) := by
  refine reads_touch.bind fun _ _ => reads_touch.bind fun _ _ => reads_touch.bind fun _ _ => ?_
  have hlist : Reads files (attempt listFiles) (names files = ·) :=
    reads_inspect fun _ hns => Except.ok.inj hns
  refine hlist.bind ?_
  rintro _ rfl
  exact reads_loadEntries (names files)

theorem attempt_touch_works : attempt touch ⟨files, []⟩ = (.ok (), ⟨files, []⟩) := io_works rfl

theorem loadFile_works {plan : StoredPlan} (h : Holds files name plan) :
    loadFile name ⟨files, []⟩ = (.ok plan, ⟨files, []⟩) := by
  obtain ⟨bytes, hbytes, hplan, hname⟩ := h
  have hlen : bytes.length ≤ MAX_BYTES := (encode_eq_ok.mp (encode_decode hplan)).2.1
  have hcontent : attempt (readFile name) ⟨files, []⟩ = (.ok bytes, ⟨files, []⟩) := by
    refine io_works ?_
    simp only [readFile, inspect, hbytes]
  have hcoded : coded (decode bytes) = .ok plan := coded_eq_ok.mpr hplan
  have hread : read name ⟨files, []⟩ = (.ok bytes, ⟨files, []⟩) := by
    unfold read requirePlain
    rw [bind_apply_ok attempt_touch_works, bind_apply_ok attempt_touch_works, bind_apply_ok hcontent,
      if_neg (not_lt.mpr hlen)]
    rfl
  unfold loadFile
  rw [bind_apply_ok hread, hcoded, lift_ok_bind, if_neg (not_not.mpr hname)]
  rfl

theorem loadEntries_works : ∀ {ns : List String},
    (∀ name ∈ ns, ¬ Pending name → ∃ plan, Holds files name plan) →
    ∃ plans, loadEntries ns ⟨files, []⟩ = (.ok plans, ⟨files, []⟩)
  | [], _ => ⟨[], rfl⟩
  | name :: rest, h => by
    obtain ⟨hname, hrest⟩ := List.forall_mem_cons.mp h
    obtain ⟨plans, hplans⟩ := loadEntries_works hrest
    unfold loadEntries requirePlain
    rw [bind_apply_ok attempt_touch_works, bind_apply_ok attempt_touch_works]
    by_cases hpending : Pending name
    · rw [if_pos hpending]
      exact ⟨plans, hplans⟩
    · obtain ⟨plan, hplan⟩ := hname hpending
      have hextension : extension name = some "cbor" := by
        obtain ⟨_, -, -, rfl⟩ := hplan
        exact extension_planFile _
      rw [if_neg hpending, if_neg (not_not.mpr hextension), bind_apply_ok (loadFile_works hplan),
        bind_apply_ok hplans]
      exact ⟨plan :: plans, rfl⟩

theorem openFolder_works (h : ∀ name ∈ published files, ∃ plan, Holds files name plan) :
    ∃ plans, openFolder ⟨files, []⟩ = (.ok plans, ⟨files, []⟩) := by
  exact loadEntries_works fun name hname hpending =>
    h name (mem_published.mpr ⟨mem_names.mp hname, hpending⟩)

end Opening

/-! ### What writing changes -/

/-- At most the file of the plan is published, where there was none. -/
def Adds (plan : StoredPlan) (files files' : Files) : Prop :=
  ∀ name, ¬ Pending name → content files' name = content files name ∨
    name = filename plan ∧ content files name = none ∧
      ∃ bytes, encode plan = .ok bytes ∧ content files' name = some bytes

section Writing

variable {plan : StoredPlan} {bytes : List UInt8} {files₀ files files' : Files} {temporary : String}

theorem Adds.refl (plan : StoredPlan) (files : Files) : Adds plan files files := fun _ _ => .inl rfl

theorem Adds.of_pending (h : Adds plan files₀ files) (htemporary : Pending temporary)
    (hagree : ∀ name, name ≠ temporary → content files' name = content files name) :
    Adds plan files₀ files' := by
  intro name hname
  rw [hagree name fun hsame => hname (hsame ▸ htemporary)]
  exact h name hname

theorem Adds.grows (h : Adds plan files files') (hname : ¬ Pending name)
    (hbytes : content files name = some bytes) : content files' name = some bytes := by
  rcases h name hname with hsame | ⟨-, hnone, -⟩
  · rw [hsame, hbytes]
  · rw [hbytes] at hnone
    cases hnone

/-- The link publishes the plan, unless there is a file already. -/
theorem Adds.linked (h : Adds plan files₀ files) (hbytes : encode plan = .ok bytes)
    (htemporary : content files temporary = some bytes) :
    Adds plan files₀ (linked temporary (filename plan) files) := by
  intro name hname
  rw [content_linked]
  split_ifs with hsame
  · subst hsame
    rcases hthere : content files (filename plan) with _ | there
    · rcases h _ hname with hbefore | ⟨-, -, _, -, hafter⟩
      · exact .inr ⟨rfl, hbefore ▸ hthere, bytes, hbytes, htemporary⟩
      · rw [hthere] at hafter
        cases hafter
    · rw [← hthere]
      simpa [hthere] using h _ hname
  · exact h name hname

theorem runs_verifyExisting (P : Files → Prop) (name : String) (bytes : List UInt8) :
    Runs P (verifyExisting name bytes) (fun _ fs => P fs ∧ content fs name = some bytes) P := by
  refine runs_of_reads fun files _ => (reads_read name).bind fun existing hexisting => ?_
  refine reads_ite (fun _ => reads_fail) fun hsame => reads_pure ?_
  rw [← not_not.mp hsame]
  exact hexisting

/-- A file of the plan, while the files grow by at most that of the plan. -/
def Grown (plan : StoredPlan) (files₀ : Files) (name : String) (bytes : List UInt8) (files : Files) :
    Prop :=
  Adds plan files₀ files ∧ content files name = some bytes

theorem Grown.of_content (h : Grown plan files₀ name bytes files)
    (hagree : ∀ other, content files' other = content files other) :
    Grown plan files₀ name bytes files' :=
  ⟨fun other hother => by rw [hagree other]; exact h.1 other hother, (hagree name).trans h.2⟩

theorem runs_pending {op : Operation Unit} {P : Files → Prop} (bytes : List UInt8)
    (htemporary : Pending temporary) (honly : op.Only temporary)
    (hP : ∀ files, P files → Adds plan files₀ files)
    (hbytes : ∀ files, P files → content (op.effect files) temporary = some bytes) :
    Runs P (attempt op) (fun _ => Grown plan files₀ temporary bytes) (Adds plan files₀) := by
  refine runs_io (fun files h _ _ => ⟨?_, hbytes files h⟩) hP fun files h extent => ?_
  · exact (hP files h).of_pending htemporary fun name hname => (honly files name hname).1
  · exact (hP files h).of_pending htemporary fun name hname => (honly files name hname).2 extent

theorem runs_hardLink (hbytes : encode plan = .ok bytes) : Runs (Grown plan files₀ temporary bytes)
    ((hardLink temporary (filename plan)).run.handle (linkFailed (filename plan) bytes))
    (fun _ => Grown plan files₀ (filename plan) bytes) (Adds plan files₀) := by
  have hrun : Runs (Grown plan files₀ temporary bytes) (hardLink temporary (filename plan)).run
      (fun _ => Grown plan files₀ (filename plan) bytes) (Adds plan files₀) := by
    refine runs_run (fun files h _ hanswer => ⟨h.1.linked hbytes h.2, ?_⟩) (fun _ h => h.1) ?_
    · have hnone : content files (filename plan) = none := by
        rw [content_eq_none, ← Option.not_isSome_iff_eq_none]
        intro hsome
        simp [hardLink, hsome] at hanswer
      show content (linked temporary (filename plan) files) (filename plan) = _
      rw [content_linked, if_pos rfl, hnone, h.2]
      rfl
    · intro files h extent
      show Adds plan files₀ (if _ then _ else _)
      split_ifs
      · exact h.1
      · exact h.1.linked hbytes h.2
  refine Meets.handle hrun ?_
  rintro (_ | _ | _ | _)
  · exact fail_keeps
  · exact runs_verifyExisting (Adds plan files₀) _ bytes
  · exact fail_keeps
  · exact fail_keeps

theorem runs_publish (hbytes : encode plan = .ok bytes) (htemporary : Pending temporary) :
    Runs (Grown plan files₀ temporary []) (publish temporary (filename plan) bytes)
      (fun _ => Grown plan files₀ (filename plan) bytes) (Adds plan files₀) := by
  refine Runs.bind (runs_io (fun _ h _ _ => h) (fun _ h => h.1) fun _ h _ => h.1) fun _ => ?_
  refine (runs_pending bytes htemporary (only_writeAll _ _) (fun _ h => h.1) fun files h => ?_).bind
    fun _ => ?_
  · rw [writeAll, content_appended, if_pos rfl, h.2]
    rfl
  refine (runs_pending bytes htemporary (only_syncAll _) (fun _ h => h.1) fun files h =>
    (content_withSynced ..).trans h.2).bind fun _ => (runs_hardLink hbytes).bind fun _ => ?_
  have hentered {files : Files} (h : Grown plan files₀ (filename plan) bytes files) :=
    h.of_content (content_withEntered (fun _ => true) files)
  refine runs_io (fun _ h _ _ => hentered h) (fun _ h => h.1) fun files h extent => ?_
  show Adds plan files₀ (if _ then _ else _)
  split_ifs
  · exact h.1
  · exact (hentered h).1

/-- Removing the pending file again touches no published one. -/
theorem runs_removeFile {P : Files → Prop} (hP : ∀ files files', P files →
      (∀ name, name ≠ temporary → content files' name = content files name) → P files') :
    Runs P (attempt (removeFile temporary)) (fun _ => P) P :=
  runs_io_keeps (fun files h => hP files _ h fun name hname => (only_removeFile _ files name hname).1)
    fun files h extent => hP files _ h fun name hname => (only_removeFile _ files name hname).2 extent

/-- **Persisting a plan** publishes its file and no other, and where it answers the file is there. -/
theorem runs_persist (nonce : List UInt8) (hbytes : encode plan = .ok bytes) (files₀ : Files) :
    Runs (· = files₀) (persist nonce plan bytes) (fun _ => Grown plan files₀ (filename plan) bytes)
      (Adds plan files₀) := by
  have htemporary := pending_pendingFile nonce
  have hne : filename plan ≠ pendingFile nonce := fun h => not_pending_planFile _ (h ▸ htemporary)
  have htouch :
      Runs (Adds plan files₀) (attempt touch) (fun _ => Adds plan files₀) (Adds plan files₀) :=
    runs_io_keeps (fun _ h => h) fun _ h _ => h
  refine Runs.bind (Q := fun _ => Adds plan files₀) ?_ fun _ => ?_
  · exact runs_io (fun _ h _ _ => h ▸ Adds.refl _ _) (fun _ h => h ▸ Adds.refl _ _) fun _ h _ =>
      h ▸ Adds.refl _ _
  refine Runs.bind
    (runs_io_keeps (fun _ h => h) fun _ h _ => h) fun _ => runs_ite (fun _ => ?_) fun _ => ?_
  · exact runs_verifyExisting (Adds plan files₀) _ bytes
  · refine htouch.bind fun _ => Runs.bind (runs_pending [] htemporary (only_createNew _)
      (fun _ h => h) fun files _ => ?_) fun _ => ?_
    · rw [createNew, content_alter, if_pos rfl]
    refine (runs_publish hbytes htemporary).thenIgnoring (fun _ => ?_) ?_ fun _ _ h => h.1
    · exact runs_removeFile fun _ _ h hagree =>
        ⟨h.1.of_pending htemporary hagree, (hagree _ hne).trans h.2⟩
    · exact runs_removeFile fun _ _ h hagree => h.of_pending htemporary hagree

end Writing

end ArkForge.Daemon.PlanStorage
