import ArkForge.Core.Profile
import ArkForge.Daemon.Registry
import ArkForge.Daemon.Verdict

/-! # Starting jobs

A start takes its id from the clock and from the counter, opens the journal of that id and records the
job. The counter starts again with every restart, so it is the clock that keeps ids apart; and a start
that fails after it has made its file leaves the file to the next restart. -/

namespace ArkForge.Daemon.Starts

open Lib.Ordered Lib.Result Lib.Transaction
open Core.Cbor Core.Digest Core.Ids Core.Plan
open Core.Projection
open Engine.Record Engine.Durable Engine.Handle Engine.Recovery
open Engine.Replay
open Jobs Admission Calls Recover
open Registry Verdict

/-! ### Job ids -/

def hexDigits (n : ℕ) : List Char := (Nat.toDigits 16 n).map Char.toUpper

def hexValue (digits : List Char) : ℕ :=
  digits.foldl (fun value c => 16 * value + "0123456789ABCDEF".toList.idxOf c) 0

theorem digit_hex : ∀ d < 16, "0123456789ABCDEF".toList.idxOf (Nat.digitChar d).toUpper = d ∧
    (Nat.digitChar d).toUpper ≠ '-' ∧ allowed (Nat.digitChar d).toUpper = true := by decide

theorem hexDigits_spec (n : ℕ) : hexValue (hexDigits n) = n ∧
    ∀ c ∈ hexDigits n, c ≠ '-' ∧ allowed c = true := by
  induction n using Nat.strongRecOn with
  | ind n ih =>
    unfold hexDigits hexValue
    rcases Nat.lt_or_ge n 16 with hlt | hge
    · obtain ⟨hvalue, hchar⟩ := digit_hex n hlt
      rw [Nat.toDigits_of_lt_base hlt]
      refine ⟨?_, by simpa using hchar⟩
      simpa using hvalue
    · obtain ⟨hvalue, hchar⟩ := digit_hex (n % 16) (Nat.mod_lt _ (by decide))
      obtain ⟨ihvalue, ihchar⟩ := ih (n / 16) (by omega)
      rw [Nat.toDigits_of_base_le (by decide) hge, List.map_append, List.foldl_append]
      constructor
      · show 16 * hexValue (hexDigits (n / 16)) + _ = n
        omega
      · exact forall_mem_concat.mpr ⟨ihchar, hchar⟩

theorem hexValue_zeroPadded (n : ℕ) : hexValue (zeroPadded 16 (hexDigits n)) = n := by
  have hzeros : ∀ k, hexValue (List.replicate k '0' ++ hexDigits n) = hexValue (hexDigits n) := by
    intro k
    induction k with
    | zero => rfl
    | succ k ih => exact ih
  exact (hzeros _).trans (hexDigits_spec n).1

theorem mem_zeroPadded {p : Char → Prop} (hzero : p '0') {width : ℕ} {digits : List Char}
    (h : ∀ c ∈ digits, p c) : ∀ c ∈ zeroPadded width digits, p c := by
  refine List.forall_mem_append.mpr ⟨fun c hc => ?_, h⟩
  rw [List.eq_of_mem_replicate hc]
  exact hzero

theorem now_of_jobIdText {now now' : UInt64} {k k' : ℕ} (h : jobIdText now k = jobIdText now' k') :
    now = now' := by
  let read := fun text : String => hexValue ((text.toList.drop 4).takeWhile (· ≠ '-'))
  have hread : ∀ (now : UInt64) (k : ℕ), read (jobIdText now k) = now.toNat := by
    intro now k
    have hdigits : ∀ c ∈ zeroPadded 16 (hexDigits now.toNat), decide (c ≠ '-') = true :=
      mem_zeroPadded (by decide) fun c hc => decide_eq_true ((hexDigits_spec now.toNat).2 c hc).1
    have hdrop : (jobIdText now k).toList.drop 4 = zeroPadded 16 (hexDigits now.toNat) ++
        '-' :: zeroPadded 4 (Nat.toDigits 10 k) := by
      unfold jobIdText
      rw [String.toList_ofList]
      exact @List.drop_left _ "JOB-".toList _
    show hexValue _ = _
    rw [hdrop, List.takeWhile_append_of_pos hdigits, List.takeWhile_cons_of_neg (by simp),
      List.append_nil, hexValue_zeroPadded]
  exact UInt64.toNat_inj.mp ((hread now k).symm.trans ((congrArg read h).trans (hread now' k')))

theorem utf8Size_of_allowed {c : Char} (h : allowed c = true) : c.utf8Size = 1 := by
  have hbelow : ∀ {high : UInt32}, high.toNat ≤ 127 → c.val ≤ high → c.val.toNat ≤ 127 :=
    fun hhigh h => (UInt32.le_iff_toNat_le.mp h).trans hhigh
  have hle : c.val.toNat ≤ 127 := by
    have h : (((((c.isUpper || c.isLower) || c.isDigit) || c == '.') || c == '_') || c == ':' ||
      c == '-') = true := h
    simp only [Bool.or_eq_true, beq_iff_eq] at h
    rcases h with (((((h | h) | h) | rfl) | rfl) | rfl) | rfl
    · exact hbelow (by decide) (of_decide_eq_true h).2
    · exact hbelow (by decide) (of_decide_eq_true (Bool.and_eq_true_iff.mp h).2)
    · exact hbelow (by decide) (of_decide_eq_true (Bool.and_eq_true_iff.mp h).2)
    all_goals decide
  exact if_pos (UInt32.le_iff_toNat_le.mpr hle)

theorem conforming_jobIdText (now : UInt64) {k : ℕ} (hk : k < 2 ^ 64) :
    Conforming (jobIdText now k) := by
  have hzero : allowed '0' = true := by decide
  have hjob : "JOB-".toList.all allowed = true := by decide
  have hhex : ∀ c ∈ zeroPadded 16 (hexDigits now.toNat), allowed c = true :=
    mem_zeroPadded hzero fun c hc => ((hexDigits_spec now.toNat).2 c hc).2
  have hcounter : ∀ c ∈ zeroPadded 4 (Nat.toDigits 10 k), allowed c = true := by
    refine mem_zeroPadded hzero fun c hc => ?_
    have hdigit := Nat.isDigit_of_mem_toDigits (by decide) (by decide) hc
    show (((((c.isAlpha || c.isDigit) || _) || _) || _) || _) = true
    simp only [hdigit, Bool.or_true, Bool.true_or]
  have hall : ∀ c ∈ (jobIdText now k).toList, allowed c = true := by
    intro c hc
    unfold jobIdText at hc
    rw [String.toList_ofList, List.mem_append, List.mem_append, List.mem_cons] at hc
    rcases hc with (hc | hc) | rfl | hc
    · exact List.all_eq_true.mp hjob c hc
    · exact hhex c hc
    · decide
    · exact hcounter c hc
  have hhexLength : (Nat.toDigits 16 now.toNat).length ≤ 16 :=
    (Nat.length_toDigits_le_iff (by decide) (by decide)).mpr (now.toNat_lt.trans_eq (by decide))
  have hcounterLength : (Nat.toDigits 10 k).length ≤ 20 :=
    (Nat.length_toDigits_le_iff (by decide) (by decide)).mpr (hk.trans (by decide))
  have hlen : 0 < (jobIdText now k).toList.length ∧ (jobIdText now k).toList.length ≤ 41 := by
    unfold jobIdText
    rw [String.toList_ofList]
    simp only [List.length_append, List.length_cons, zeroPadded, List.length_replicate,
      List.length_map, show "JOB-".toList.length = 4 from rfl]
    omega
  refine ⟨fun hempty => ?_, ?_, List.all_eq_true.mpr hall⟩
  · rw [hempty] at hlen
    exact absurd hlen.1 (by decide)
  · refine (length_utf8_le_mul fun c hc => (utf8Size_of_allowed (hall c hc)).le).trans ?_
    rw [Nat.one_mul]
    exact hlen.2.trans (by decide)

/-! ### One start -/

/-- What an append leaves, and what it recorded if it succeeded. -/
theorem ensures_recorded (io : AppendIo) (kind : JournalRecordKind) (now : UInt64) (subject : String)
    (facts : List (String × String)) (job : Job) :
    Ensures (record io kind now subject facts) job fun result job' => ∃ journal,
      job' = job.withJournal journal ∧ journal.path = job.journal.path ∧
      ∀ d, result = .ok d → ∃ r, journal.journal.records = job.records ++ [r] ∧ r.kind = kind := by
  refine ensures_liftExcept_bind (fun e _ => ⟨job.journal, rfl, rfl, by rintro _ ⟨⟩⟩) fun o _ => ?_
  refine ensures_liftExcept_bind (fun e _ => ⟨job.journal, rfl, rfl, by rintro _ ⟨⟩⟩)
    fun entries _ => ?_
  refine ensures_mk ⟨_, rfl, path_append _ _ _, fun d hd => ?_⟩
  rcases happ : job.journal.append io ⟨kind, now, 1, o, entries⟩ with ⟨e | d', dj'⟩
  · rw [happ] at hd
    cases hd
  · obtain ⟨r, hwrote⟩ := exists_wrote happ
    exact ⟨r, hwrote.records, hwrote.carries.kind⟩

variable {job : Job}

/-- An operating system that does what it is asked records a few facts of moderate size. -/
theorem ensures_record_flawless {kind : JournalRecordKind} {now : UInt64} {subject : String}
    {facts : List (String × String)} {post : Except JobError Sha256Digest → Job → Prop}
    (hp : job.journal.poisoned = false) (hsubject : Conforming subject)
    (hnames : ∀ f ∈ facts, Conforming f.1) (hn : (facts.map Prod.fst).Nodup)
    (hlen : facts.length ≤ 10) (hv : ∀ f ∈ facts, (utf8 f.2).length ≤ 4096)
    (h : ∀ d journal, journal.poisoned = false → post (.ok d) (job.withJournal journal)) :
    Ensures (record flawless kind now subject facts) job post := by
  obtain ⟨entries, hentries⟩ := exists_factEntries facts hnames
  refine ensures_known (identifier_eq_ok.mpr (rfl : (OpaqueId.mk subject hsubject).value = subject))
    (ensures_known hentries (ensures_mk ?_))
  obtain ⟨d, dj', happ⟩ := append_named hp ⟨kind, now, 1, ⟨subject, hsubject⟩, entries⟩
    (factEntries_eq_ok.mp hentries) hn hlen hv
  obtain ⟨r, hwrote⟩ := exists_wrote happ
  rw [happ]
  exact h d dj' hwrote.alive

/-- The plan's first step can be admitted under the facts. -/
def Admits (envelope : FlashPlanEnvelope) (privatePlan : StoredProviderPlan) (facts : AdmissionFacts) :
    Prop :=
  ∃ job shown, job.stepIndex = 0 ∧ admissionSnapshot job envelope privatePlan facts = .ok shown

theorem exists_admissionSnapshot {envelope : FlashPlanEnvelope} {privatePlan : StoredProviderPlan}
    {facts : AdmissionFacts} (h : Admits envelope privatePlan facts) {job : Job}
    (hjob : job.stepIndex = 0) : ∃ snapshot freshness,
      admissionSnapshot job envelope privatePlan facts = .ok (snapshot, freshness) ∧
        Conforming snapshot.stepId := by
  obtain ⟨job', shown, hzero, h⟩ := h
  unfold admissionSnapshot at h ⊢
  rw [hzero] at h
  rw [hjob]
  simp only [bind_eq_ok] at h
  obtain ⟨step, hstep, primary, hprimary, _, hmode, fresh, hfresh, publicStep, hpublic, privateAction,
    hprivate, effectSet, heffect, h⟩ := h
  simp only [hstep, hprimary, hmode, hfresh, hpublic, hprivate, heffect, ok_bind]
  exact ⟨_, _, rfl, step.stepId.conforming⟩

section StartJob

variable (io : ℕ → AppendIo) (envelope : FlashPlanEnvelope) (privatePlan : StoredProviderPlan)
  (facts : AdmissionFacts) (now : UInt64)

/-- The job keeps its file, and one that was started has recorded itself and its first admission. -/
theorem ensures_startJob (job : Job) :
    Ensures (startJob io envelope privatePlan facts now) job fun result job' =>
      job'.journal.path = job.journal.path ∧ (result = .ok () → ∃ created asked,
        job'.records = job.records ++ [created, asked] ∧ created.kind = .jobCreated ∧
        asked.kind = .stepAdmissionRequested) := by
  refine ensures_get_bind (ensures_bind ((ensures_recorded _ _ _ _ _ job).imp ?_))
  rintro (error | d) _ ⟨journal, rfl, hpath, hrecords⟩
  · exact ⟨hpath, by rintro ⟨⟩⟩
  obtain ⟨created, hcreated, hkind⟩ := hrecords d rfl
  refine ensures_bind (ensures_moved _ _ ?_)
  rintro (error | _) state
  · exact ⟨hpath, by rintro ⟨⟩⟩
  refine ensures_bind (ensures_moved _ _ ?_)
  rintro (error | _) state'
  · exact ⟨hpath, by rintro ⟨⟩⟩
  refine ensures_bind (ensures_publish ?_)
  refine ensures_get_bind (ensures_liftExcept_bind (fun _ _ => ⟨hpath, by rintro ⟨⟩⟩)
    fun shown _ => ?_)
  refine ensures_bind ((ensures_recorded _ _ _ _ _ _).imp ?_)
  rintro (error | d) _ ⟨journal', rfl, hpath', hrecords'⟩
  · exact ⟨hpath'.trans hpath, by rintro ⟨⟩⟩
  obtain ⟨asked, hasked, hkind'⟩ := hrecords' d rfl
  refine ⟨hpath'.trans hpath, fun _ => ⟨created, asked, ?_, hkind, hkind'⟩⟩
  refine hasked.trans ?_
  show journal.journal.records ++ [asked] = _
  rw [hcreated, List.append_assoc]
  rfl

/-- Nothing stops the admission of a job's first step from being published. -/
theorem requestAdmission_ok {job : Job} (hp : job.journal.poisoned = false)
    (hzero : job.stepIndex = 0) (hadmits : Admits envelope privatePlan facts) :
    Ensures (requestAdmission flawless envelope privatePlan facts now) job fun result job' =>
      result = .ok () ∧ ∃ snapshot freshness event,
        admissionSnapshot job envelope privatePlan facts = .ok (snapshot, freshness) ∧
        job'.events = job.events ++ [event] ∧ event.admission = some snapshot := by
  obtain ⟨snapshot, freshness, hshown, hstep⟩ := exists_admissionSnapshot hadmits hzero
  refine ensures_get_bind (ensures_known hshown (ensures_bind (ensures_record_flawless hp hstep ?_
    ?_ ?_ ?_ ?_)))
  · exact List.forall_mem_singleton.mpr (show Conforming Fact.STEP_ID by decide)
  · exact List.nodup_singleton _
  · exact Nat.le_of_ble_eq_true rfl
  · exact List.forall_mem_singleton.mpr (hstep.2.1.trans (by decide))
  exact fun _ _ _ => ⟨rfl, snapshot, freshness, _, hshown, rfl, rfl⟩

/-- Nothing stops a job that may be admitted from being started. -/
theorem startJob_ok {job : Job} (hp : job.journal.poisoned = false) (hid : Conforming job.jobId)
    (hplan : Conforming job.planId) (hsteps : job.totalSteps < 2 ^ 64) (hstate : job.state = .planned)
    (hzero : job.stepIndex = 0) (hadmits : Admits envelope privatePlan facts) :
    Ensures (startJob (fun _ => flawless) envelope privatePlan facts now) job fun result _ =>
      result = .ok () := by
  have hnames : ∀ name ∈ [Fact.JOB_ID, Fact.PLAN_ID, "planDigest", "totalSteps",
      "controllerSessionId"], Conforming name := by decide
  have hshort : ∀ {value : String}, Conforming value → (utf8 value).length ≤ 4096 := fun h =>
    h.2.1.trans (by decide)
  refine ensures_get_bind (ensures_bind (ensures_record_flawless hp hid ?_ ?_ ?_ ?_ ?_))
  · simp only [List.forall_mem_cons] at hnames ⊢
    exact ⟨hnames.1, hnames.2.1, hnames.2.2.1, hnames.2.2.2.1, hnames.2.2.2.2.1,
      List.forall_mem_nil _⟩
  · simp [Fact.JOB_ID, Fact.PLAN_ID]
  · exact Nat.le_of_ble_eq_true rfl
  · simp only [List.forall_mem_cons]
    refine ⟨hshort hid, hshort hplan, ?_, length_utf8_toString_le hsteps,
      hshort job.controllerSessionId.conforming, List.forall_mem_nil _⟩
    have hle := length_utf8_le job.planDigest.toHex
    rw [length_toHex] at hle
    exact hle.trans (by decide)
  intro d journal hp'
  refine ensures_bind (ensures_moveTo (hstate ▸ rfl : job.state.mayTransitionTo _ = true) ?_)
  refine ensures_bind (ensures_moveTo rfl ?_)
  refine ensures_bind (ensures_publish ?_)
  refine Ensures.imp (requestAdmission_ok envelope privatePlan facts now ?_ ?_ hadmits)
    fun _ _ h => h.1
  · exact hp'
  · exact hzero

end StartJob

/-! ### Lives of the registry -/

/-- A start, with what the operating system answers to it. -/
structure Start where
  fault : OpenFault
  io : ℕ → AppendIo
  envelope : FlashPlanEnvelope
  privatePlan : StoredProviderPlan
  controllerSessionId : ControllerSessionId
  facts : AdmissionFacts
  now : UInt64

def Start.run (c : Start) (registry : JobRegistry) : Except JobError String × JobRegistry :=
  (start c.fault c.io c.envelope c.privatePlan c.controllerSessionId c.facts c.now).exec registry

def files (directory : Directory) : Directory := directory.filter fun f => f.2.existed

/-- The starts that were called since the directory was made, the ids they returned, the directory, and
the registry that is open. A restart finds files under their names; what a crash has made of their
contents is left open. The counter is a `u64`, and a start that would overflow it does not return. -/
inductive Life : List Start → List String → Directory → Option JobRegistry → Prop where
  | fresh : Life [] [] [] none
  | reopen {starts ids directory serving} (unreadable : Option String) (visits : List Visit) :
      Life starts ids directory serving → (∀ v ∈ visits, ∃ f ∈ directory, f.1 = v.name) →
      Life starts ids (openRegistry unreadable visits).directory
        (openRegistry unreadable visits).registry.toOption
  | start {starts ids directory registry} (c : Start) : Life starts ids directory (some registry) →
      registry.counter + 1 < 2 ^ 64 →
      Life (c :: starts) (ids ++ (c.run registry).1.toOption.toList) (c.run registry).2.directory
        (some (c.run registry).2)

/-- Every file is of an earlier start. -/
def Named (starts : List Start) (directory : Directory) : Prop :=
  ∀ f ∈ directory, ∃ c ∈ starts, ∃ k, f.1 = journalPath (jobIdText c.now k)

/-- The names of the files. -/
abbrev names (directory : Directory) : List String := directory.map Prod.fst

theorem mem_names_alter {registry : JobRegistry} {jobId : String} {name : String}
    (h : name ∈ (registry.jobs.alter jobId fun _ => job).entries.map fun e => e.2.journal.path) :
    name = job.journal.path ∨ name ∈ registry.jobs.entries.map fun e => e.2.journal.path := by
  obtain ⟨⟨key, other⟩, he, rfl⟩ := List.mem_map.mp h
  rw [OrdMap.mem_entries, OrdMap.get_alter] at he
  split_ifs at he with hkey
  · cases he
    exact .inl rfl
  · exact .inr (List.mem_map.mpr ⟨(key, other), OrdMap.mem_entries.mpr he, rfl⟩)

theorem names_directory (registry : JobRegistry) : names registry.directory =
    (registry.jobs.entries.map fun e => e.2.journal.path) ++ names registry.strays := by
  simp [JobRegistry.directory]

variable {report : RecoveryReport} {fault : OpenFault} {path : String} {disk : Disk}

theorem path_of_openAt {dj : DurableJournal}
    (h : DurableJournal.openAt path fault disk = .ok (dj, report)) : dj.path = path := by
  simp only [DurableJournal.openAt, bind_eq_ok] at h
  obtain ⟨_, -, _, -, _, -, _, -, _, -, h⟩ := h
  cases h
  rfl

theorem path_of_recoverJob {io : AppendIo} (h : recoverJob path fault io disk = .ok job) :
    job.journal.path = path := by
  obtain ⟨dj, report, hopen, hrecovered⟩ := recoverJob_eq_ok h
  exact hrecovered.path.trans (path_of_openAt hopen)

theorem recoverAll_names : ∀ (visits : List Visit) (registry : JobRegistry),
    names (recoverAll registry visits).directory ⊆ names registry.directory ++ visits.map Visit.name ∧
    ∀ r, (recoverAll registry visits).registry = .ok r →
      (recoverAll registry visits).directory = r.directory
  | [], registry => by
    refine ⟨by simp [recoverAll], fun r hr => ?_⟩
    cases hr
    rfl
  | v :: visits, registry => by
    -- The visited file and those behind it, when the registry stops there.
    have hstop : ∀ disk, names (registry.directory ++ (v.name, disk) :: visits.map fun v => (v.name,
        v.disk)) ⊆ names registry.directory ++ (v :: visits).map Visit.name := by
      simp [Function.comp_def]
    -- The visited file joins the registry, and the others are visited.
    have hnext : ∀ registry' : JobRegistry,
        names registry'.directory ⊆ v.name :: names registry.directory →
        names (recoverAll registry' visits).directory ⊆
          names registry.directory ++ (v :: visits).map Visit.name := by
      intro registry' hsub name hname
      have hrest := (recoverAll_names visits registry').1 hname
      grind
    unfold recoverAll
    split
    · exact ⟨hstop v.disk, by rintro _ ⟨⟩⟩
    split_ifs
    · refine ⟨hnext _ ?_, (recoverAll_names visits _).2⟩
      simp [names_directory]
    split
    · next error disk _ => exact ⟨hstop disk, by rintro _ ⟨⟩⟩
    next job hrecover =>
    refine ⟨hnext _ fun name hname => ?_, (recoverAll_names visits _).2⟩
    rw [names_directory] at hname ⊢
    rcases List.mem_append.mp hname with hname | hname
    · have hpath := path_of_recoverJob hrecover
      have hjob := mem_names_alter hname
      grind
    · cases hold : registry.jobs.get job.jobId with
      | none => simp_all
      | some old =>
        have hmem := List.mem_map_of_mem (f := fun e => e.2.journal.path) (OrdMap.mem_entries.mpr hold)
        grind

def Start.id (c : Start) (registry : JobRegistry) : String := jobIdText c.now (registry.counter + 1)

theorem Start.run_eq (c : Start) (registry : JobRegistry) (h : c.envelope.publicSteps ≠ []) :
    c.run registry =
      match DurableJournal.openAt (journalPath (c.id registry)) c.fault
        (diskAt registry.directory (journalPath (c.id registry))) with
      | .error (error, disk) => (.error (.journal error),
          ({ registry with counter := registry.counter + 1 } : JobRegistry).leave
            (journalPath (c.id registry)) disk)
      | .ok (journal, _) =>
        match (startJob c.io c.envelope c.privatePlan c.facts c.now).exec
          (plannedJob (c.id registry) c.controllerSessionId c.envelope journal) with
        | (.error error, job) => (.error error,
            ({ registry with counter := registry.counter + 1 } : JobRegistry).leave
              (journalPath (c.id registry)) job.journal.file.disk)
        | (.ok _, job) => (.ok (c.id registry),
            ({ registry with counter := registry.counter + 1 } : JobRegistry).insert
              (c.id registry) job) :=
  if_neg h

/-- How a start ends: refused for its plan, with a journal that was not opened, or with the job. -/
theorem Start.run_cases (c : Start) (registry : JobRegistry) :
    (c.run registry = (.error .planHasNoSteps, registry) ∧ c.envelope.publicSteps = []) ∨
    (∃ error disk, DurableJournal.openAt (journalPath (c.id registry)) c.fault
        (diskAt registry.directory (journalPath (c.id registry))) = .error (error, disk) ∧
      c.run registry = (.error (.journal error),
        ({ registry with counter := registry.counter + 1 } : JobRegistry).leave
          (journalPath (c.id registry)) disk)) ∨
    ∃ journal report result job, DurableJournal.openAt (journalPath (c.id registry)) c.fault
        (diskAt registry.directory (journalPath (c.id registry))) = .ok (journal, report) ∧
      (startJob c.io c.envelope c.privatePlan c.facts c.now).exec
        (plannedJob (c.id registry) c.controllerSessionId c.envelope journal) = (result, job) ∧
      c.run registry = match result with
        | .error error => (.error error, ({ registry with counter := registry.counter + 1 } :
            JobRegistry).leave (journalPath (c.id registry)) job.journal.file.disk)
        | .ok () => (.ok (c.id registry), ({ registry with counter := registry.counter + 1 } :
            JobRegistry).insert (c.id registry) job) := by
  by_cases hsteps : c.envelope.publicSteps = []
  · exact .inl ⟨if_pos hsteps, hsteps⟩
  have hrun := c.run_eq registry hsteps
  rcases hopen : DurableJournal.openAt (journalPath (c.id registry)) c.fault
    (diskAt registry.directory (journalPath (c.id registry))) with ⟨error, disk⟩ | ⟨journal, report⟩
  · rw [hopen] at hrun
    exact .inr (.inl ⟨error, disk, rfl, hrun⟩)
  · rcases hstart : (startJob c.io c.envelope c.privatePlan c.facts c.now).exec
      (plannedJob (c.id registry) c.controllerSessionId c.envelope journal) with ⟨result, job⟩
    simp only [hopen, hstart] at hrun
    refine .inr (.inr ⟨journal, report, result, job, rfl, hstart, hrun.trans ?_⟩)
    cases result <;> rfl

theorem Start.run_names (c : Start) (registry : JobRegistry) :
    names (c.run registry).2.directory ⊆ journalPath (c.id registry) :: names registry.directory ∧
      ∀ id, (c.run registry).1 = .ok id → id = c.id registry := by
  have hstrays : ∀ {path name}, name ∈ names (registry.strays.filter fun f => f.1 ≠ path) →
      name ∈ names registry.strays := fun h => (List.filter_sublist.map _).subset h
  have hleave : ∀ disk, names (({ registry with counter := registry.counter + 1 } :
      JobRegistry).leave (journalPath (c.id registry)) disk).directory ⊆
      journalPath (c.id registry) :: names registry.directory := by
    intro disk name hname
    simp only [names_directory, JobRegistry.leave] at hname ⊢
    grind
  rcases c.run_cases registry with ⟨hrun, -⟩ | ⟨error, disk, -, hrun⟩ |
    ⟨journal, report, result, job, hopen, hstart, hrun⟩
  · rw [hrun]
    exact ⟨List.subset_cons_self _ _, by rintro _ ⟨⟩⟩
  · rw [hrun]
    exact ⟨hleave disk, by rintro _ ⟨⟩⟩
  · have hpath := ((ensures_startJob c.io c.envelope c.privatePlan c.facts c.now _).of_exec
      hstart).1.trans (path_of_openAt hopen)
    rw [hrun]
    cases result with
    | error error => exact ⟨hleave _, by rintro _ ⟨⟩⟩
    | ok _ =>
      refine ⟨fun name hname => ?_, by rintro _ ⟨⟩; rfl⟩
      rw [names_directory] at hname ⊢
      rcases List.mem_append.mp hname with hname | hname
      · have hjob := mem_names_alter hname
        grind
      · have := hstrays hname
        grind

theorem Life.invariant {starts : List Start} {ids : List String} {directory : Directory}
    {serving : Option JobRegistry} (h : Life starts ids directory serving) :
    Named starts directory ∧ (∀ id ∈ ids, ∃ c ∈ starts, ∃ k, id = jobIdText c.now k) ∧
      ∀ r, serving = some r → directory = r.directory := by
  have hnamed : ∀ {starts directory}, Named starts directory ↔ ∀ name ∈ names directory,
      ∃ c ∈ starts, ∃ k, name = journalPath (jobIdText c.now k) := by simp [Named]
  simp only [hnamed]
  induction h with
  | fresh => exact ⟨List.forall_mem_nil _, List.forall_mem_nil _, by rintro _ ⟨⟩⟩
  | @reopen starts ids directory serving unreadable visits _ hvisits ih =>
    have hvisited : ∀ name ∈ visits.map Visit.name, name ∈ names directory := by
      intro name hname
      obtain ⟨v, hv, rfl⟩ := List.mem_map.mp hname
      exact List.mem_map.mpr (hvisits v hv)
    cases unreadable with
    | some message =>
      refine ⟨fun name hname => ih.1 name (hvisited name ?_), ih.2.1, by rintro _ ⟨⟩⟩
      simpa [openRegistry] using hname
    | none =>
      obtain ⟨hnames, hdirectory⟩ := recoverAll_names visits .empty
      refine ⟨fun name hname => ih.1 name (hvisited name (hnames hname)), ih.2.1, fun r hr => ?_⟩
      refine hdirectory r ?_
      have hopened : (recoverAll .empty visits).registry.toOption = some r := hr
      revert hopened
      rcases (recoverAll .empty visits).registry with error | r' <;> intro hopened
      · cases hopened
      · rw [Option.some.inj hopened]
  | @start starts ids directory registry c _ _ ih =>
    obtain ⟨hold, hids, hdirectory⟩ := ih
    obtain ⟨hnames, hid⟩ := c.run_names registry
    rw [hdirectory _ rfl] at hold
    refine ⟨fun name hname => ?_, fun id hid' => ?_, by rintro _ ⟨⟩; rfl⟩
    · rcases List.mem_cons.mp (hnames hname) with rfl | hname
      · exact ⟨c, List.mem_cons_self, _, rfl⟩
      · exact List.exists_mem_cons_of_exists (hold name hname)
    · rcases List.mem_append.mp hid' with hid' | hid'
      · exact List.exists_mem_cons_of_exists (hids id hid')
      · refine ⟨c, List.mem_cons_self, registry.counter + 1, hid id ?_⟩
        rcases hresult : (c.run registry).1 with error | id' <;>
          simp_all [Except.toOption]

/-! ### All or nothing -/

/-- Nothing goes wrong once the file of the journal is made: the operating system opens it, or fails
before that, and takes every record, and the first step can be admitted. -/
structure Sound (c : Start) : Prop where
  fault : c.fault = .none ∨ (∃ parent message, c.fault = .createDir parent message) ∨
    ∃ message, c.fault = .openFile message
  io : ∀ n, c.io n = flawless
  admits : Admits c.envelope c.privatePlan c.facts
  steps : c.envelope.publicSteps.length < 2 ^ 64

theorem Sound.openAt_absent {c : Start} (h : Sound c) (path : String) :
    (∃ error, DurableJournal.openAt path c.fault absent = .error (error, absent)) ∨
    ∃ journal report, DurableJournal.openAt path c.fault absent = .ok (journal, report) := by
  rcases h.fault with hfault | ⟨parent, message, hfault⟩ | ⟨message, hfault⟩
  · rw [hfault]
    exact .inr ⟨_, _, open_of_empty rfl path⟩
  · rw [hfault]
    exact .inl ⟨_, rfl⟩
  · rw [hfault]
    exact .inl ⟨_, rfl⟩

theorem opened_absent {journal : DurableJournal}
    (h : DurableJournal.openAt path fault absent = .ok (journal, report)) :
    journal.journal.records = [] ∧ journal.poisoned = false := by
  rcases open_eq_ok h with ⟨-, rfl, -⟩ | ⟨bodies, tail, rs, hholds, -⟩
  · exact ⟨rfl, rfl⟩
  · have hlen := congrArg List.length hholds.eq
    have hmagic : MAGIC.length = 8 := by decide
    simp only [absent, List.length_nil, List.length_append] at hlen
    omega

theorem Sound.startJob_ok {c : Start} (h : Sound c) {registry : JobRegistry}
    (hcounter : registry.counter + 1 < 2 ^ 64) {journal : DurableJournal}
    (hp : journal.poisoned = false) :
    Ensures (startJob c.io c.envelope c.privatePlan c.facts c.now)
      (plannedJob (c.id registry) c.controllerSessionId c.envelope journal)
      fun result _ => result = .ok () := by
  rw [funext h.io]
  exact Starts.startJob_ok _ _ _ _ hp (conforming_jobIdText _ hcounter)
    c.envelope.planId.conforming h.steps rfl rfl h.admits

section Fresh

variable {starts : List Start} {ids : List String} {directory : Directory} {registry : JobRegistry}
  {c : Start} (h : Life starts ids directory (some registry)) (hclock : ∀ e ∈ starts, e.now ≠ c.now)
include h hclock

theorem id_notMem : c.id registry ∉ ids := by
  intro hid
  obtain ⟨e, he, k, heq⟩ := h.invariant.2.1 _ hid
  exact hclock e he (now_of_jobIdText heq).symm

theorem file_ne : ∀ f ∈ registry.directory, f.1 ≠ journalPath (c.id registry) := by
  intro f hf heq
  rw [← h.invariant.2.2 _ rfl] at hf
  obtain ⟨e, he, k, hname⟩ := h.invariant.1 f hf
  have hlist := congrArg String.toList (hname.symm.trans heq)
  rw [journalPath, journalPath, String.toList_append, String.toList_append] at hlist
  exact hclock e he (now_of_jobIdText (String.toList_inj.mp (List.append_cancel_right hlist)))

theorem diskAt_eq_absent : diskAt registry.directory (journalPath (c.id registry)) = absent := by
  have hnone : registry.directory.find? (fun f => f.1 = journalPath (c.id registry)) = none :=
    List.find?_eq_none.mpr fun f hf => by simpa using file_ne h hclock f hf
  rw [diskAt, hnone]
  rfl

/-- A start that returns an id has made a new journal, which begins with the record of the job. -/
theorem started_new {id : String} (hrun : (c.run registry).1 = .ok id) :
    id ∉ ids ∧ ∃ job created rest, (c.run registry).2.jobs.get id = some job ∧
      job.records = created :: rest ∧ created.kind = .jobCreated ∧
      ∀ r ∈ rest, r.kind ≠ .jobCreated := by
  obtain rfl := (c.run_names registry).2 id hrun
  refine ⟨id_notMem h hclock, ?_⟩
  rcases c.run_cases registry with ⟨hcase, -⟩ | ⟨error, disk, -, hcase⟩ |
    ⟨journal, report, result, job, hopen, hstart, hcase⟩
  · rw [hcase] at hrun
    cases hrun
  · rw [hcase] at hrun
    cases hrun
  rw [diskAt_eq_absent h hclock] at hopen
  cases result with
  | error error =>
    rw [hcase] at hrun
    cases hrun
  | ok _ =>
    obtain ⟨created, asked, hrecords, hcreated, hasked⟩ :=
      ((ensures_startJob c.io c.envelope c.privatePlan c.facts c.now _).of_exec hstart).2 rfl
    have hempty : (plannedJob (c.id registry) c.controllerSessionId c.envelope journal).records = [] :=
      (opened_absent hopen).1
    refine ⟨job, created, [asked], ?_, by rw [hrecords, hempty]; rfl, hcreated, ?_⟩
    · rw [hcase]
      show (registry.jobs.alter _ _).get _ = _
      rw [OrdMap.get_alter, if_pos rfl]
    · rw [List.forall_mem_singleton, hasked]
      decide

/-- A sound start that fails has left every file as it was. -/
theorem failed_unchanged (hcounter : registry.counter + 1 < 2 ^ 64) (hsound : Sound c)
    {error : JobError} (hrun : (c.run registry).1 = .error error) :
    files (c.run registry).2.directory = files registry.directory := by
  rcases c.run_cases registry with ⟨hcase, -⟩ | ⟨error, disk, hopen, hcase⟩ |
    ⟨journal, report, result, job, hopen, hstart, hcase⟩
  · rw [hcase]
  · rw [diskAt_eq_absent h hclock] at hopen
    have hdisk : disk = absent := by
      rcases hsound.openAt_absent (journalPath (c.id registry)) with ⟨e, he⟩ | ⟨j, r, hok⟩
      · rw [he] at hopen
        cases hopen
        rfl
      · rw [hok] at hopen
        cases hopen
    have hstrays : registry.strays.filter (fun f => f.1 ≠ journalPath (c.id registry)) =
        registry.strays := List.filter_eq_self.mpr fun f hf => by
      simpa using file_ne h hclock f (List.mem_append_right _ hf)
    rw [hcase, hdisk]
    show files (_ ++ (registry.strays.filter _ ++ [_])) = _
    rw [hstrays]
    simp only [files, JobRegistry.directory, absent, List.filter_append, List.filter_cons,
      List.filter_nil, Bool.false_eq_true, if_false, List.append_nil]
    rfl
  · rw [diskAt_eq_absent h hclock] at hopen
    have hresult := (hsound.startJob_ok hcounter (opened_absent hopen).2).of_exec hstart
    rw [hcase, hresult] at hrun
    cases hrun

end Fresh

/-- **Starting is all or nothing** if the clock has not shown this time to a start before. Then an id
that is returned is new, and its journal begins with the only record of its creation; and a start
that fails has changed no file, so that a restart lists what it would have listed, provided nothing
goes wrong after its file is made. -/
theorem start_all_or_nothing (c : Start) :
    (∀ starts ids directory registry, Life starts ids directory (some registry) →
      (∀ e ∈ starts, e.now ≠ c.now) → ∀ id, (c.run registry).1 = .ok id →
        id ∉ ids ∧ ∃ job created rest, (c.run registry).2.jobs.get id = some job ∧
          job.records = created :: rest ∧ created.kind = .jobCreated ∧
          ∀ r ∈ rest, r.kind ≠ .jobCreated) ∧
    ∀ starts ids directory registry, Life starts ids directory (some registry) →
      registry.counter + 1 < 2 ^ 64 → (∀ e ∈ starts, e.now ≠ c.now) → Sound c →
      ∀ error, (c.run registry).1 = .error error →
        files (c.run registry).2.directory = files registry.directory :=
  ⟨fun _ _ _ _ h hclock _ hrun => started_new h hclock hrun,
    fun _ _ _ _ h hcounter hclock hsound _ hrun => failed_unchanged h hclock hcounter hsound hrun⟩

/-! ### Starts that fail -/

theorem conforming_first : Conforming "FIRST" := by decide

def firstId : OpaqueId := ⟨"FIRST", conforming_first⟩

def zeros : Sha256Digest := ⟨List.replicate 32 0, Authority.PermitBytes.length_zeros⟩

def firstStep : PlanStep where
  stepId := firstId
  kind := .probeDevice
  effect := .readOnly
  semanticTarget := none
  contentDigest := none
  expectedModeBefore := none
  expectedModeAfter := none
  privateActionDigest := zeros
  cancellation := .cancellableAtBoundary
  binding := .exactBoundTarget

/-- The disk is full when the header of the journal is written. -/
def fullDisk : Start where
  fault := .header 0 "no space left on device"
  io := fun _ => flawless
  envelope := ⟨firstId, zeros, ⟨firstId, firstId, 1, zeros⟩, zeros, [firstStep], .readOnly⟩
  privatePlan := ⟨[]⟩
  controllerSessionId := firstId
  facts := ⟨⟨firstId, 0, Core.Profile.normalMode, zeros, zeros, .absent, [], [], .classOnly, false⟩,
    zeros, zeros, zeros, zeros⟩
  now := 0

def firstAction : PrivateActionRecord where
  actionId := firstId
  stepId := firstId
  role := .primaryEffect
  effectClass := .readOnly
  declaredTarget := none
  declaredRange := none
  contentDigest := none
  body := .null

/-- A start that nothing stands in the way of. -/
def firstStart : Start := { fullDisk with fault := .none, privatePlan := ⟨[firstAction]⟩ }

/-- A start at a later time, which is not allowed to make its file. -/
def secondStart : Start := { firstStart with fault := .openFile "permission denied", now := 1 }

theorem admits_first : Admits firstStart.envelope firstStart.privatePlan firstStart.facts :=
  ⟨plannedJob "" firstId firstStart.envelope (opened "" [] [] 0), _, rfl, rfl⟩

theorem firstStart_run : ∃ job, firstStart.run .empty = (.ok (firstStart.id .empty),
    ({ JobRegistry.empty with counter := 1 } : JobRegistry).insert (firstStart.id .empty) job) := by
  have hsound : Sound firstStart := ⟨.inl rfl, fun _ => rfl, admits_first, by decide⟩
  rcases hstart : (startJob firstStart.io firstStart.envelope firstStart.privatePlan firstStart.facts
    firstStart.now).exec (plannedJob (firstStart.id .empty) firstStart.controllerSessionId
      firstStart.envelope (opened (journalPath (firstStart.id .empty)) [] [] MAGIC.length))
    with ⟨result, job⟩
  have hresult := (hsound.startJob_ok (by decide) rfl).of_exec hstart
  refine ⟨job, ?_⟩
  rw [firstStart.run_eq .empty (List.cons_ne_nil _ _)]
  rw [show DurableJournal.openAt (journalPath (firstStart.id .empty)) firstStart.fault
    (diskAt JobRegistry.empty.directory (journalPath (firstStart.id .empty))) = _ from
      open_of_empty rfl _]
  simp only [hstart, hresult]
  rfl

/-- The first start returns a new id, and the second one fails and changes no file. -/
theorem start_all_or_nothing_second : ∃ id, (firstStart.run .empty).1 = .ok id ∧
    (∃ job created rest, (firstStart.run .empty).2.jobs.get id = some job ∧
      job.records = created :: rest ∧ created.kind = .jobCreated) ∧
    (∃ error, (secondStart.run (firstStart.run .empty).2).1 = .error error) ∧
    files (secondStart.run (firstStart.run .empty).2).2.directory =
      files (firstStart.run .empty).2.directory := by
  obtain ⟨job, hrun⟩ := firstStart_run
  have hempty : Life [] [] [] (some .empty) := Life.reopen none [] .fresh (List.forall_mem_nil _)
  have hlife := hempty.start firstStart (by decide)
  have hcounter : (firstStart.run .empty).2.counter + 1 < 2 ^ 64 := by
    rw [hrun]
    exact (by decide : 1 + 1 < 2 ^ 64)
  have hclock : ∀ e ∈ [firstStart], e.now ≠ secondStart.now := by
    rw [List.forall_mem_singleton]
    decide
  have hsound : Sound secondStart := ⟨.inr (.inr ⟨_, rfl⟩), fun _ => rfl, admits_first, by decide⟩
  obtain ⟨-, job', created, rest, hjob, hrecords, hkind, -⟩ := (start_all_or_nothing firstStart).1
    _ _ _ _ hempty (List.forall_mem_nil _) _ (congrArg Prod.fst hrun)
  obtain ⟨error, hfails⟩ : ∃ error,
      (secondStart.run (firstStart.run .empty).2).1 = .error error := by
    rw [secondStart.run_eq _ (List.cons_ne_nil _ _)]
    exact ⟨_, rfl⟩
  exact ⟨_, congrArg Prod.fst hrun, ⟨job', created, rest, hjob, hrecords, hkind⟩, ⟨error, hfails⟩,
    (start_all_or_nothing secondStart).2 _ _ _ _ hlife hcounter hclock hsound error hfails⟩

def leftFile : Visit :=
  ⟨"JOB-0000000000000000-0001.journal", ⟨true, [], 0⟩, none, .none, flawless⟩

/-- A start fails for want of space, and the registry cannot be opened again. Without it, it opens. -/
theorem failed_start_stops_restart :
    Life [] [] [] (some .empty) ∧
    (fullDisk.run .empty).1 =
      .error (.journal (.io "JOB-0000000000000000-0001.journal" "no space left on device")) ∧
    files (fullDisk.run .empty).2.directory = [(leftFile.name, leftFile.disk)] ∧
    (openRegistry none [leftFile]).registry = .error
      (.registryIo "JOB-0000000000000000-0001.journal has no jobCreated record") ∧
    (openRegistry none []).registry = .ok .empty := by
  have hrecover : recoverJob leftFile.name .none flawless leftFile.disk = .error
      (.registryIo "JOB-0000000000000000-0001.journal has no jobCreated record",
        (opened leftFile.name [] [] MAGIC.length).file.disk) := by
    unfold recoverJob
    rw [open_of_empty rfl]
    rfl
  refine ⟨Life.reopen none [] .fresh (List.forall_mem_nil _), rfl, rfl, ?_, rfl⟩
  show (recoverAll .empty [leftFile]).registry = _
  have hjournal : isJournal leftFile.name = true := by decide +kernel
  simp only [recoverAll, show leftFile.unreadable = none from rfl, hjournal, Bool.not_true,
    Bool.false_eq_true, if_false, show leftFile.fault = .none from rfl,
    show leftFile.io = flawless from rfl, hrecover]

end ArkForge.Daemon.Starts
