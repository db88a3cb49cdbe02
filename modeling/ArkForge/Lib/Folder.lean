import ArkForge.Lib.Fallible
import ArkForge.Lib.OrdMap
import Mathlib.Data.String.Basic

/-! # Files under operations that may fail

A disk holds files under names. Every operation may work, report an error or be the last thing the
process does; in the last two cases a part of it may have taken place. What becomes of the coming
operations is part of the state, so that a statement about every disk is one about all of it.

A process that dies leaves the files as they are. When the power fails a file survives as it is only
if its contents and its name have been synced. -/

namespace ArkForge.Lib.Folder

open Fallible Ordered Exec

/-- A file. `synced` says that the contents are on the medium, `entered` that the name is. -/
structure File where
  content : List UInt8
  synced : Bool
  entered : Bool
  deriving DecidableEq

abbrev Files : Type := OrdMap String File

def content (files : Files) (name : String) : Option (List UInt8) := (files.get name).map File.content

inductive IoError where
  | alreadyExists
  | notFound
  | other

/-- What becomes of an operation. Where it does not work, `extent` is how much of it takes place all
the same. -/
inductive Fate where
  | works
  | fails (extent : ℕ)
  | dies (extent : ℕ)

/-- The files, and the fates of the coming operations. Operations after the last one listed work. -/
structure Disk where
  files : Files
  fates : List Fate

/-- Why a computation ends without an answer. -/
inductive Stop (ε : Type) where
  | died
  | error (e : ε)

def Stop.map {ε δ : Type} (f : ε → δ) : Stop ε → Stop δ
  | died => died
  | error e => error (f e)

/-- A computation of a process with a disk. -/
abbrev Io (ε α : Type) : Type := Exec Disk (Stop ε) α

variable {ε δ α β : Type}

/-! ### Operations -/

/-- An operation: what it answers, what it does to the files, and what is left of that when it does
not work. -/
structure Operation (α : Type) where
  answer : Files → Except IoError α
  effect : Files → Files
  partly : ℕ → Files → Files

/-- The operation is carried out, unless it is refused. -/
def Operation.carryOut (op : Operation α) : Io IoError α := fun disk =>
  match op.answer disk.files with
  | .ok a => (.ok a, ⟨op.effect disk.files, disk.fates⟩)
  | .error e => (.error (.error e), disk)

def Operation.run (op : Operation α) : Io IoError α := fun disk =>
  match disk.fates with
  | [] => op.carryOut ⟨disk.files, []⟩
  | .works :: rest => op.carryOut ⟨disk.files, rest⟩
  | .fails extent :: rest => (.error (.error .other), ⟨op.partly extent disk.files, rest⟩)
  | .dies extent :: rest => (.error .died, ⟨op.partly extent disk.files, rest⟩)

/-- An operation that only looks. -/
def inspect (answer : Files → Except IoError α) : Operation α := ⟨answer, id, fun _ => id⟩

/-- An operation on what is not modelled: permissions, metadata, a directory that is there. -/
def touch : Operation Unit := inspect fun _ => .ok ()

def fileExists (name : String) : Operation Bool := inspect fun files => .ok (files.get name).isSome

def readFile (name : String) : Operation (List UInt8) := inspect fun files =>
  match content files name with
  | some bytes => .ok bytes
  | none => .error .notFound

def listFiles : Operation (List String) := inspect fun files => .ok (files.entries.map Prod.fst)

/-- Creates an empty file. A file that is there is left alone. -/
def createNew (name : String) : Operation Unit where
  answer files := if (files.get name).isSome then .error .alreadyExists else .ok ()
  effect files := files.alter name fun _ => ⟨[], false, false⟩
  partly extent files :=
    if extent = 0 ∨ (files.get name).isSome then files else files.alter name fun _ => ⟨[], false, false⟩

/-- The file with more bytes at its end. -/
def appended (name : String) (bytes : List UInt8) (files : Files) : Files :=
  match files.get name with
  | some file => files.alter name fun _ =>
    { file with content := file.content ++ bytes, synced := false }
  | none => files

/-- Writes to the end of a file. Some of the bytes may be written when it fails. -/
def writeAll (name : String) (bytes : List UInt8) : Operation Unit where
  answer files := if (files.get name).isSome then .ok () else .error .notFound
  effect := appended name bytes
  partly extent := appended name (bytes.take extent)

/-- The file with its contents on the medium. -/
def withSynced (name : String) (files : Files) : Files :=
  match files.get name with
  | some file => files.alter name fun _ => { file with synced := true }
  | none => files

def syncAll (name : String) : Operation Unit where
  answer _ := .ok ()
  effect := withSynced name
  partly extent files := if extent = 0 then files else withSynced name files

/-- The names of a directory on the medium. -/
def withEntered (inside : String → Bool) (files : Files) : Files :=
  files.map fun name file => if inside name then { file with entered := true } else file

def syncDirectory (inside : String → Bool) : Operation Unit where
  answer _ := .ok ()
  effect := withEntered inside
  partly extent files := if extent = 0 then files else withEntered inside files

/-- The file under a second name. -/
def linked (source target : String) (files : Files) : Files :=
  match files.get source, files.get target with
  | some file, none => files.alter target fun _ => { file with entered := false }
  | _, _ => files

/-- Gives a file a second name. A file that has the name is left alone. The two names share their
contents, which no writer of this development changes any more. -/
def hardLink (source target : String) : Operation Unit where
  answer files :=
    if (files.get target).isSome then .error .alreadyExists
    else if (files.get source).isSome then .ok () else .error .notFound
  effect := linked source target
  partly extent files := if extent = 0 then files else linked source target files

/-- The file under another name, where it takes the place of what was there. -/
def renamed (source target : String) (files : Files) : Files :=
  match files.get source with
  | some file => (files.erase source).alter target fun _ => { file with entered := false }
  | none => files

/-- Moves a file. It has the one name or the other, also when the operation is cut short. -/
def rename (source target : String) : Operation Unit where
  answer files := if (files.get source).isSome then .ok () else .error .notFound
  effect := renamed source target
  partly extent files := if extent = 0 then files else renamed source target files

def removeFile (name : String) : Operation Unit where
  answer files := if (files.get name).isSome then .ok () else .error .notFound
  effect files := files.erase name
  partly extent files := if extent = 0 then files else files.erase name

/-- A computation whose answer is kept while another one tidies up. Nothing is tidied by a process
that died. -/
def thenIgnoring (x : Io ε α) (tidy : Io δ Unit) : Io ε α := fun disk =>
  match x disk with
  | (.error .died, disk') => (.error .died, disk')
  | (result, disk') => match tidy disk' with
    | (.error .died, disk'') => (.error .died, disk'')
    | (_, disk'') => (result, disk'')

/-- The operation's error, as another component tells it. -/
def io (f : IoError → ε) (op : Operation α) : Io ε α := op.run.mapError (Stop.map f)

/-! ### What a computation does to the files -/

/-- From files in `P` the computation answers with files in `Q`, or stops with files in `R`. -/
def Runs (P : Files → Prop) (x : Io ε α) (Q : α → Files → Prop) (R : Files → Prop) : Prop :=
  Meets (fun disk => P disk.files) x (fun a disk => Q a disk.files) fun _ disk => R disk.files

/-- The computation leaves the files alone, and what it answers satisfies `Q`. -/
def Reads (files : Files) (x : Io ε α) (Q : α → Prop) : Prop :=
  Runs (· = files) x (fun a fs => fs = files ∧ Q a) (· = files)

variable {f : IoError → ε} {x : Io ε α} {op : Operation α}

section Rules

variable {P R : Files → Prop} {Q : α → Files → Prop} {S : β → Files → Prop}

theorem Runs.bind {f : α → Io ε β} (hx : Runs P x Q R) (hf : ∀ a, Runs (Q a) (f a) S R) :
    Runs P (x >>= f) S R :=
  Meets.bind hx hf

theorem runs_ite {c : Prop} [Decidable c] {y : Io ε α} (hx : c → Runs P x Q R)
    (hy : ¬ c → Runs P y Q R) : Runs P (if c then x else y) Q R :=
  meets_ite hx hy

/-- An operation works, is refused, or is cut short. -/
theorem runs_run (hok : ∀ files, P files → ∀ a, op.answer files = .ok a →
      Q a (op.effect files)) (hrefused : ∀ files, P files → R files)
    (hpartly : ∀ files, P files → ∀ extent, R (op.partly extent files)) : Runs P op.run Q R := by
  have hcarry : Runs P op.carryOut Q R := by
    intro disk hP
    unfold Operation.carryOut
    rcases ha : op.answer disk.files with e | a
    · exact hrefused disk.files hP
    · exact hok disk.files hP a ha
  rintro ⟨files, fates⟩ hP
  rcases fates with _ | ⟨_ | extent | extent, rest⟩
  · exact hcarry ⟨files, []⟩ hP
  · exact hcarry ⟨files, rest⟩ hP
  · exact hpartly files hP extent
  · exact hpartly files hP extent

theorem runs_io (hok : ∀ files, P files → ∀ a,
      op.answer files = .ok a → Q a (op.effect files)) (hrefused : ∀ files, P files → R files)
    (hpartly : ∀ files, P files → ∀ extent, R (op.partly extent files)) : Runs P (io f op) Q R :=
  Meets.mapError (runs_run hok hrefused hpartly)

/-- An operation that keeps what `P` says, however it ends. -/
theorem runs_io_keeps (heffect : ∀ files, P files → P (op.effect files))
    (hpartly : ∀ files, P files → ∀ extent, P (op.partly extent files)) :
    Runs P (io f op) (fun _ => P) P :=
  runs_io (fun files h _ _ => heffect files h) (fun _ h => h) hpartly

/-- Tidying up keeps the answer. -/
theorem Runs.thenIgnoring {tidy : Io δ Unit} (hx : Runs P x Q R)
    (hanswered : ∀ a, Runs (Q a) tidy (fun _ => Q a) (Q a)) (hstopped : Runs R tidy (fun _ => R) R)
    (hQR : ∀ a files, Q a files → R files) : Runs P (thenIgnoring x tidy) Q R := by
  intro disk hP
  unfold Folder.thenIgnoring
  rcases hrun : x disk with ⟨(_ | e) | a, disk'⟩
  · exact hx.error hP hrun
  · have hR := hx.error hP hrun
    dsimp only
    rcases htidy : tidy disk' with ⟨(_ | e') | _, disk''⟩
    · exact hstopped.error hR htidy
    · exact hstopped.error hR htidy
    · exact hstopped.ok hR htidy
  · have hQ := hx.ok hP hrun
    dsimp only
    rcases htidy : tidy disk' with ⟨(_ | e') | _, disk''⟩
    · exact hQR a _ ((hanswered a).error hQ htidy)
    · exact (hanswered a).error hQ htidy
    · exact (hanswered a).ok hQ htidy

variable {files : Files} {T : α → Prop} {U : β → Prop}

theorem Reads.bind {f : α → Io ε β} (hx : Reads files x T)
    (hf : ∀ a, T a → Reads files (f a) U) : Reads files (x >>= f) U := by
  refine Meets.bind hx fun a disk h => ?_
  exact hf a h.2 disk h.1

theorem Reads.bind_runs {f : α → Io ε β} (hx : Reads files x T) (hR : R files)
    (hf : ∀ a, T a → Runs (· = files) (f a) S R) : Runs (· = files) (x >>= f) S R := by
  refine (Meets.failing hx fun _ _ hs => hs ▸ hR).bind fun a disk h => ?_
  exact hf a h.2 disk h.1

theorem reads_pure {a : α} (h : T a) : Reads files (pure a : Io ε α) T := fun _ hs => ⟨hs, h⟩

theorem reads_fail {e : Stop ε} : Reads files (fail e : Io ε α) T := fun _ hs => hs

theorem reads_ite {c : Prop} [Decidable c] {y : Io ε α} (hx : c → Reads files x T)
    (hy : ¬ c → Reads files y T) : Reads files (if c then x else y) T :=
  meets_ite hx hy

theorem reads_lift {r : Except (Stop ε) α} (h : ∀ a, r = .ok a → T a) : Reads files (lift r) T :=
  meets_lift (fun a ha _ hs => ⟨hs, h a ha⟩) fun _ _ _ hs => hs

theorem reads_inspect {answer : Files → Except IoError α}
    (h : ∀ a, answer files = .ok a → T a) : Reads files (io f (inspect answer)) T := by
  refine runs_io ?_ (fun _ hs => hs) fun _ hs _ => hs
  rintro _ rfl a ha
  exact ⟨rfl, h a ha⟩

theorem reads_touch : Reads files (io f touch) fun _ => True :=
  reads_inspect fun _ _ => trivial

theorem reads_readFile (name : String) :
    Reads files (io f (readFile name)) fun bytes => content files name = some bytes := by
  refine reads_inspect fun bytes h => ?_
  rcases hc : content files name with _ | there <;> rw [hc] at h <;> cases h
  rfl

/-- Files that are only read stay in `P`. -/
theorem runs_of_reads (h : ∀ files, P files → Reads files x fun a => Q a files) :
    Runs P x (fun a fs => P fs ∧ Q a fs) P := by
  intro disk hP
  exact (h disk.files hP).weaken (fun _ h => h) (fun a d hd => hd.1 ▸ ⟨hP, hd.2⟩)
    (fun _ d hd => hd ▸ hP) disk rfl

end Rules

variable {files : Files}

/-- Without trouble ahead an operation does what it says. -/
theorem io_works {a : α}
    (h : op.answer files = .ok a) : io f op ⟨files, []⟩ = (.ok a, ⟨op.effect files, []⟩) := by
  show Exec.mapError _ op.run _ = _
  unfold Exec.mapError Operation.run Operation.carryOut
  simp only [h]
  rfl

theorem io_refused {e : IoError}
    (h : op.answer files = .error e) : io f op ⟨files, []⟩ = (.error (.error (f e)), ⟨files, []⟩) := by
  show Exec.mapError _ op.run _ = _
  unfold Exec.mapError Operation.run Operation.carryOut
  simp only [h]
  rfl

/-- Without trouble ahead tidying up keeps the answer. -/
theorem thenIgnoring_works {op : Operation Unit} {f : IoError → δ} {disk : Disk}
    {a : α} (hx : x disk = (.ok a, ⟨files, []⟩)) :
    ∃ files', thenIgnoring x (io f op) disk = (.ok a, ⟨files', []⟩) := by
  unfold thenIgnoring
  rw [hx]
  rcases h : op.answer files with e | _
  · refine ⟨files, ?_⟩
    simp only [io_refused h]
  · refine ⟨op.effect files, ?_⟩
    simp only [io_works h]

/-! ### Contents -/

theorem content_eq_some {name : String} {bytes : List UInt8} :
    content files name = some bytes ↔ ∃ file, files.get name = some file ∧ file.content = bytes :=
  Option.map_eq_some_iff

theorem content_eq_none {name : String} :
    content files name = none ↔ files.get name = none :=
  Option.map_eq_none_iff

theorem content_isSome (files : Files) (name : String) :
    (content files name).isSome = (files.get name).isSome :=
  Option.isSome_map

theorem content_alter (files : Files) (name other : String) (file : File) :
    content (files.alter name fun _ => file) other =
      if other = name then some file.content else content files other := by
  unfold content
  rw [OrdMap.get_alter]
  split_ifs <;> rfl

theorem content_erase (files : Files) (name other : String) :
    content (files.erase name) other = if other = name then none else content files other := by
  unfold content
  rw [OrdMap.get_erase]
  split_ifs <;> rfl

theorem content_appended (name : String) (bytes : List UInt8) (files : Files) (other : String) :
    content (appended name bytes files) other =
      if other = name then (content files name).map (· ++ bytes) else content files other := by
  unfold appended
  rcases h : files.get name with _ | file
  · have hnone : content files name = none := content_eq_none.mpr h
    by_cases hname : other = name
    · rw [hname]
      simp [hnone]
    · rw [if_neg hname]
  · have hsome : content files name = some file.content := content_eq_some.mpr ⟨file, h, rfl⟩
    rw [content_alter, hsome]
    rfl

theorem content_withSynced (name : String) (files : Files) (other : String) :
    content (withSynced name files) other = content files other := by
  unfold withSynced
  rcases h : files.get name with _ | file
  · rfl
  · have hsome : content files name = some file.content := content_eq_some.mpr ⟨file, h, rfl⟩
    rw [content_alter]
    by_cases hname : other = name
    · rw [if_pos hname, hname, hsome]
    · rw [if_neg hname]

theorem content_withEntered (inside : String → Bool) (files : Files) (name : String) :
    content (withEntered inside files) name = content files name := by
  unfold content withEntered
  rw [OrdMap.get_map]
  rcases files.get name with _ | file
  · rfl
  · by_cases h : inside name <;> simp [h]

theorem content_linked (source target : String) (files : Files) (other : String) :
    content (linked source target files) other =
      if other = target then (content files target).or (content files source)
      else content files other := by
  unfold linked
  rcases hs : files.get source with _ | file <;> rcases ht : files.get target with _ | there
  all_goals by_cases hname : other = target
  all_goals simp [content, OrdMap.get_alter, hs, ht, hname]

theorem content_renamed (source target : String) (files : Files) :
    content (renamed source target files) target =
      (content files source).or (content files target) := by
  unfold renamed
  rcases h : files.get source with _ | file <;> simp [content, OrdMap.get_alter, h]

/-- However it ends, the operation changes the contents of no other file. -/
def Operation.Only (op : Operation α) (name : String) : Prop :=
  ∀ files other, other ≠ name → content (op.effect files) other = content files other ∧
    ∀ extent, content (op.partly extent files) other = content files other

theorem only_of_effect {name : String}
    (heffect : ∀ files other, other ≠ name → content (op.effect files) other = content files other)
    (hpartly : ∀ extent files, op.partly extent files = files ∨
      op.partly extent files = op.effect files) :
    op.Only name := by
  refine fun files other hne => ⟨heffect files other hne, fun extent => ?_⟩
  rcases hpartly extent files with h | h <;> rw [h]
  exact heffect files other hne

theorem only_createNew (name : String) : (createNew name).Only name :=
  only_of_effect (fun files other hne => by rw [createNew, content_alter, if_neg hne]) fun _ _ =>
    ite_eq_or_eq ..

theorem only_writeAll (name : String) (bytes : List UInt8) : (writeAll name bytes).Only name :=
  fun files other hne => ⟨by rw [writeAll, content_appended, if_neg hne],
    fun extent => by rw [writeAll, content_appended, if_neg hne]⟩

theorem only_syncAll (name : String) : (syncAll name).Only name :=
  only_of_effect (fun _ _ _ => content_withSynced ..) fun _ _ => ite_eq_or_eq ..

theorem only_removeFile (name : String) : (removeFile name).Only name :=
  only_of_effect (fun files other hne => by rw [removeFile, content_erase, if_neg hne]) fun _ _ =>
    ite_eq_or_eq ..

end ArkForge.Lib.Folder
