import ArkForge.Daemon.PlanRouting
import ArkForge.Daemon.PlanStorage

/-! # Runs of the plan store

A process opens the store over its files, inserts and fetches plans, dies and is started again; every
operation on the files may fail or be the last one. The files tell what the store is: a published file
never changes, and every plan in memory is the one in its file. -/

namespace ArkForge.Daemon.PlanStoreRuns

open Lib.Result Lib.Fallible Lib.Ordered Lib.Folder
open Core.Cbor Core.Cbor.CborValue Core.CborMap Core.CborBounds
open Core.Digest
open Core.Envelope Core.Projection
open Engine.PlanCodec Engine.PlanRoundTrip Engine.SealedPlans
open Daemon.PlanStorage PlanRouting
open Exec

/-! ### Calls -/

/-- The files, and the plans in memory while a store is open. -/
structure World where
  files : Files
  store : Option Plans

def World.plan (w : World) (id : String) : Option StoredPlan := w.store.bind fun plans => plans.get id

inductive Call where
  | insert (plan : StoredPlan) (nonce : List UInt8) (fates : List Fate)
  | get (planId : String) (expected : Sha256Digest)
  | reopen (fates : List Fate)
  | crash

inductive Answer where
  | done
  | returned (plan : StoredPlan)
  | refused (error : EngineError)
  | died
  /-- There is no store to ask. -/
  | closed

/-- How a computation over the open store ends. A process that died has no store any more. -/
def finish : Except (Stop EngineError) Unit × PlanStore Disk → Answer × World
  | (.ok (), store) => (.done, ⟨store.storage.files, some store.plans⟩)
  | (.error (.error e), store) => (.refused e, ⟨store.storage.files, some store.plans⟩)
  | (.error .died, store) => (.died, ⟨store.storage.files, none⟩)

/-- How opening the store ends. -/
def opened : Except (Stop EngineError) Plans × Disk → Answer × World
  | (.ok plans, disk) => (.done, ⟨disk.files, some plans⟩)
  | (.error (.error e), disk) => (.refused e, ⟨disk.files, none⟩)
  | (.error .died, disk) => (.died, ⟨disk.files, none⟩)

def perform (w : World) : Call → Answer × World
  | .insert plan nonce fates => match w.store with
    | none => (.closed, w)
    | some plans => finish (insert (some (filePlanStorage nonce)) plan ⟨plans, ⟨w.files, fates⟩⟩)
  | .get planId expected => match w.store with
    | none => (.closed, w)
    | some plans => match get plans planId expected with
      | .ok plan => (.returned plan, w)
      | .error e => (.refused e, w)
  | .reopen fates => opened (openStore (filePlanStorage []) ⟨w.files, fates⟩)
  | .crash => (.died, ⟨w.files, none⟩)

/-- No files, and no process yet. -/
def fresh : World := ⟨.empty, none⟩

def run (w : World) (calls : List Call) : World := calls.foldl (fun w call => (perform w call).2) w

theorem run_append (w : World) (calls more : List Call) :
    run w (calls ++ more) = run (run w calls) more :=
  List.foldl_append

/-- The plan's own file holds it. -/
def Published (w : World) (plan : StoredPlan) : Prop :=
  ∃ bytes, encode plan = .ok bytes ∧ content w.files (filename plan) = some bytes

/-! ### What one call does -/

/-- **What inserting a plan does**: where it answers, the plan is in its file and in memory; where it
fails, the memory is as it was. -/
theorem meets_insert (nonce : List UInt8) (plan : StoredPlan) (plans : Plans) (files : Files)
    (fates : List Fate) : Meets (fun store => store = ⟨plans, ⟨files, fates⟩⟩)
      (insert (some (filePlanStorage nonce)) plan)
      (fun _ store => store.plans = plans.alter plan.envelope.planId.value (fun _ => plan) ∧
        Adds plan files store.storage.files ∧
        ∃ bytes, encode plan = .ok bytes ∧ content store.storage.files (filename plan) = some bytes ∧
          ∀ existing, plans.get plan.envelope.planId.value = some existing →
            encode existing = .ok bytes)
      fun _ store => store.plans = plans ∧ Adds plan files store.storage.files := by
  rintro _ rfl
  unfold Engine.SealedPlans.insert
  rcases hcoded : coded (encode plan) with e | bytes
  · exact ⟨rfl, Adds.refl plan files⟩
  have hbytes := coded_eq_ok.mp hcoded
  rw [lift_ok_bind, getState_bind]
  rcases howner : checkOwner plans plan bytes with e | _
  · exact ⟨rfl, Adds.refl plan files⟩
  have hkeep : Meets (· = ⟨plans, ⟨files, fates⟩⟩) (keep (some (filePlanStorage nonce)) plan bytes)
      (fun _ store => store.plans = plans ∧ Grown plan files (filename plan) bytes store.storage.files)
      fun _ store => store.plans = plans ∧ Adds plan files store.storage.files := by
    refine Meets.within fun store hstore => ?_
    obtain rfl := hstore
    exact (runs_persist nonce hbytes files).weaken (fun _ h => h ▸ rfl) (fun _ _ h => ⟨rfl, h⟩)
      fun _ _ h => ⟨rfl, h⟩
  rw [lift_ok_bind]
  refine hkeep.bind (fun _ => meets_modifyState fun store h => ?_) _ rfl
  obtain ⟨rfl, hadds, hcontent⟩ := h
  exact ⟨rfl, hadds, bytes, hbytes, hcontent, checkOwner_eq_ok.mp howner⟩

/-- The plans in memory are the published ones. -/
structure Loads (files : Files) (plans : Plans) : Prop where
  found : ∀ name ∈ PlanStorage.published files, ∃ plan, Holds files name plan ∧
    plans.get plan.envelope.planId.value = some plan
  held : ∀ id plan, plans.get id = some plan →
    plan.envelope.planId.value = id ∧ Holds files (filename plan) plan

variable {bytes : List UInt8} {plans : Plans} {files : Files}

theorem Loads.loaded (h : Loads files plans) {plan : StoredPlan}
    (hcontent : content files (filename plan) = some bytes) :
    ∃ loaded, decode bytes = .ok loaded ∧ plans.get loaded.envelope.planId.value = some loaded := by
  obtain ⟨loaded, ⟨there, hthere, hdecode, -⟩, hget⟩ := h.found (filename plan)
    (mem_published.mpr ⟨by rw [hcontent]; rfl, not_pending_planFile _⟩)
  rw [hcontent] at hthere
  exact ⟨loaded, Option.some.inj hthere ▸ hdecode, hget⟩

/-- **What opening the store finds**: every published plan and no other. -/
theorem reads_openStore (nonce : List UInt8) (files : Files) :
    Reads files (openStore (filePlanStorage nonce)) (Loads files) := by
  refine reads_openFolder.bind fun loaded h => reads_lift fun plans hplans => ?_
  obtain ⟨hloaded, hplans⟩ := indexPlans_eq_ok hplans
  constructor
  · intro name hname
    obtain ⟨plan, hplan, hholds⟩ := exists_of_forall₂ h hname
    exact ⟨plan, hholds, (hloaded plan hplan).2.2⟩
  · intro id plan hplan
    rcases (hplans id plan).mp hplan with hempty | ⟨hmem, hid⟩
    · cases hempty
    · obtain ⟨name, -, hholds⟩ := exists_of_forall₂ h.flip hmem
      obtain ⟨bytes, hbytes, hdecode, rfl⟩ := hholds
      exact ⟨hid, bytes, hbytes, hdecode, rfl⟩

/-- Opening succeeds, when the operations do, if every published file holds a plan. -/
theorem openStore_works (nonce : List UInt8) {files : Files}
    (h : ∀ name ∈ PlanStorage.published files, ∃ plan, Holds files name plan) :
    ∃ plans, openStore (filePlanStorage nonce) ⟨files, []⟩ = (.ok plans, ⟨files, []⟩) := by
  obtain ⟨loaded, hloaded⟩ := openFolder_works h
  have hall : List.Forall₂ (Holds files) (PlanStorage.published files) loaded :=
    ((@reads_openFolder files).ok rfl hloaded).2
  -- plans in different files have different identifiers
  have hnames : (PlanStorage.published files).Pairwise (· ≠ ·) :=
    (List.pairwise_map.mpr (files.ascending.imp fun h => ne_of_lt h)).filter _
  have hmap : PlanStorage.published files = loaded.map filename := by
    rw [← List.forall₂_eq_eq_eq, List.forall₂_map_right_iff]
    exact hall.imp fun _ _ h => h.choose_spec.2.2
  have hpairs : loaded.Pairwise fun p q => p.envelope.planId.value ≠ q.envelope.planId.value := by
    rw [hmap, List.pairwise_map] at hnames
    exact hnames.imp fun hne hid => hne (congrArg planFile hid)
  have hvalid : ∀ plan ∈ loaded, validate plan = .ok () ∧
      (OrdMap.empty : Plans).get plan.envelope.planId.value = none := by
    intro plan hplan
    obtain ⟨_, -, bytes, -, hdecode, -⟩ := exists_of_forall₂ hall.flip hplan
    exact ⟨(encode_eq_ok.mp (encode_decode hdecode)).1, rfl⟩
  obtain ⟨plans, hplans⟩ := exists_indexPlans hvalid hpairs
  refine ⟨plans, ?_⟩
  show (openFolder >>= fun loaded => lift (indexPlans .empty loaded)) _ = _
  rw [bind_apply_ok hloaded, hplans]
  rfl

/-! ### The files tell what the store is -/

/-- What is always so, after the plans in `inserted` were handed to the store. -/
structure Sound (inserted : StoredPlan → Prop) (w : World) : Prop where
  /-- A published file holds the whole of a plan, under the plan's name. -/
  files : ∀ name bytes, content w.files name = some bytes → Pending name ∨
    ∃ plan, inserted plan ∧ name = filename plan ∧ encode plan = .ok bytes
  /-- A plan in memory is in its file. -/
  store : ∀ id plan, w.plan id = some plan → plan.envelope.planId.value = id ∧ Published w plan

/-- The plan was stored, and is still: in its file, and in memory while a store is open. -/
def Kept (plan : StoredPlan) (w : World) : Prop :=
  ∃ bytes, encode plan = .ok bytes ∧ content w.files (filename plan) = some bytes ∧
    (w.store.isSome → ∃ q, w.plan plan.envelope.planId.value = some q ∧ encode q = .ok bytes)

/-- What one call leaves: the files with at most the file of the plan it inserts, and the memory as it
was, with that plan, as it is loaded from the files, or none. -/
structure Leaves (w w' : World) (inserts : Option StoredPlan) : Prop where
  files : w'.files = w.files ∨ ∃ plan, inserts = some plan ∧ Adds plan w.files w'.files
  store : w'.store = none ∨ w'.store = w.store ∨
    (∃ plans, w'.store = some plans ∧ w'.files = w.files ∧ Loads w.files plans) ∨
    ∃ plan plans bytes, inserts = some plan ∧ w.store = some plans ∧
      w'.store = some (plans.alter plan.envelope.planId.value fun _ => plan) ∧
      encode plan = .ok bytes ∧ content w'.files (filename plan) = some bytes ∧
      ∀ existing, plans.get plan.envelope.planId.value = some existing → encode existing = .ok bytes

/-- The plan a call hands to the store. -/
def Call.inserts : Call → Option StoredPlan
  | .insert plan _ _ => some plan
  | _ => none

variable {w : World}

theorem open_of_answer {call : Call} (hcall : call.inserts.isSome ∨ ∃ id d, call = .get id d)
    (h : (perform w call).1 ≠ .closed) : ∃ plans, w.store = some plans := by
  rcases hstore : w.store with _ | plans
  · refine absurd ?_ h
    cases call <;> simp_all [perform, Call.inserts]
  · exact ⟨plans, rfl⟩

theorem leaves_insert {w : World} {plans : Plans} (hstore : w.store = some plans) (plan : StoredPlan)
    (nonce : List UInt8) (fates : List Fate) :
    Leaves w (perform w (.insert plan nonce fates)).2 (some plan) ∧
      (∀ e, (perform w (.insert plan nonce fates)).1 = .refused e →
        (perform w (.insert plan nonce fates)).2.store = w.store) ∧
      ((perform w (.insert plan nonce fates)).1 = .done →
        Kept plan (perform w (.insert plan nonce fates)).2) := by
  have hmeets := meets_insert nonce plan plans w.files fates ⟨plans, ⟨w.files, fates⟩⟩ rfl
  have hperform : perform w (.insert plan nonce fates) =
      finish (insert (some (filePlanStorage nonce)) plan ⟨plans, ⟨w.files, fates⟩⟩) := by
    unfold perform
    rw [hstore]
  rw [hperform]
  rcases hrun : insert (some (filePlanStorage nonce)) plan ⟨plans, ⟨w.files, fates⟩⟩ with
    ⟨(_ | e) | _, store⟩
  · rw [hrun] at hmeets
    exact ⟨⟨.inr ⟨plan, rfl, hmeets.2⟩, .inl rfl⟩, fun _ h => (nomatch h), fun h => (nomatch h)⟩
  · rw [hrun] at hmeets
    have hsame : some store.plans = w.store := by rw [hstore, hmeets.1]
    exact ⟨⟨.inr ⟨plan, rfl, hmeets.2⟩, .inr (.inl hsame)⟩, fun _ _ => hsame, fun h => (nomatch h)⟩
  · rw [hrun] at hmeets
    obtain ⟨hplans, hadds, bytes, hbytes, hcontent, howner⟩ := hmeets
    refine ⟨⟨.inr ⟨plan, rfl, hadds⟩,
      .inr (.inr (.inr ⟨plan, plans, bytes, rfl, hstore, ?_, hbytes, hcontent, howner⟩))⟩,
      fun _ h => (nomatch h), fun _ => ⟨bytes, hbytes, hcontent, fun _ => ⟨plan, ?_, hbytes⟩⟩⟩
    · exact congrArg some hplans
    · show store.plans.get _ = _
      rw [hplans, OrdMap.get_alter, if_pos rfl]

theorem leaves_reopen (w : World) (fates : List Fate) :
    Leaves w (perform w (.reopen fates)).2 none ∧
      (∀ plans, (perform w (.reopen fates)).2.store = some plans → Loads w.files plans) ∧
      ((perform w (.reopen fates)).1 = .done → ∃ plans, Loads w.files plans) := by
  have hmeets := reads_openStore [] w.files ⟨w.files, fates⟩ rfl
  simp only [perform]
  generalize openStore (filePlanStorage []) ⟨w.files, fates⟩ = out at hmeets
  rcases out with ⟨e | plans, disk⟩
  · have hfiles : disk.files = w.files := hmeets
    rcases e with _ | e
    all_goals exact ⟨⟨.inl hfiles, .inl rfl⟩, fun _ h => (nomatch h), fun h => (nomatch h)⟩
  · obtain ⟨hfiles, hloads⟩ : disk.files = w.files ∧ Loads w.files plans := hmeets
    exact ⟨⟨.inl hfiles, .inr (.inr (.inl ⟨plans, rfl, hfiles, hloads⟩))⟩,
      fun _ h => Option.some.inj h ▸ hloads, fun _ => ⟨plans, hloads⟩⟩

theorem leaves_refl (w : World) (inserts : Option StoredPlan) : Leaves w w inserts :=
  ⟨.inl rfl, .inr (.inl rfl)⟩

theorem leaves_perform (w : World) (call : Call) : Leaves w (perform w call).2 call.inserts := by
  cases call with
  | insert plan nonce fates =>
    rcases hstore : w.store with _ | plans
    · have hclosed : (perform w (.insert plan nonce fates)).2 = w := by
        unfold perform
        rw [hstore]
      rw [hclosed]
      exact leaves_refl w _
    · exact (leaves_insert hstore plan nonce fates).1
  | get planId expected =>
    have hsame : (perform w (.get planId expected)).2 = w := by
      unfold perform
      rcases w.store with _ | plans
      · rfl
      · dsimp only
        rcases get plans planId expected with _ | _ <;> rfl
    rw [hsame]
    exact leaves_refl w _
  | reopen fates => exact (leaves_reopen w fates).1
  | crash => exact ⟨.inl rfl, .inl rfl⟩

variable {inserts : Option StoredPlan} {w' : World}

theorem Leaves.grows (h : Leaves w w' inserts)
    {name : String} (hname : ¬ Pending name) (hbytes : content w.files name = some bytes) :
    content w'.files name = some bytes := by
  rcases h.files with hsame | ⟨plan, -, hadds⟩
  · rw [hsame, hbytes]
  · exact hadds.grows hname hbytes

theorem Leaves.published (h : Leaves w w' inserts)
    {plan : StoredPlan} (hplan : Published w plan) : Published w' plan := by
  obtain ⟨bytes, hbytes, hcontent⟩ := hplan
  exact ⟨bytes, hbytes, h.grows (not_pending_planFile _) hcontent⟩

/-- What a file holds is what the plan in it is stored as. -/
theorem Holds.published {store : Option Plans} {plan : StoredPlan}
    (h : Holds files (filename plan) plan) : Published ⟨files, store⟩ plan := by
  obtain ⟨bytes, hcontent, hdecode, -⟩ := h
  exact ⟨bytes, encode_decode hdecode, hcontent⟩

theorem Sound.step {inserted : StoredPlan → Prop}
    (h : Sound inserted w) (hleaves : Leaves w w' inserts)
    (hinserts : ∀ plan, inserts = some plan → inserted plan) : Sound inserted w' := by
  constructor
  · intro name bytes hbytes
    by_cases hname : Pending name
    · exact .inl hname
    rcases hleaves.files with hsame | ⟨plan, hplan, hadds⟩
    · exact h.files name bytes (hsame ▸ hbytes)
    rcases hadds name hname with hsame | ⟨hfile, -, there, hthere, hcontent⟩
    · exact h.files name bytes (hsame ▸ hbytes)
    · rw [hbytes] at hcontent
      rw [Option.some.inj hcontent]
      exact .inr ⟨plan, hinserts plan hplan, hfile, hthere⟩
  · intro id plan hplan
    rcases hleaves.store with hnone | hsame | ⟨plans, hplans, hfiles, hloads⟩ |
      ⟨new, plans, bytes, -, hplans, hplans', hbytes, hcontent, -⟩
    · rw [World.plan, hnone] at hplan
      cases hplan
    · rw [World.plan, hsame] at hplan
      obtain ⟨hid, hpublished⟩ := h.store id plan hplan
      exact ⟨hid, hleaves.published hpublished⟩
    · rw [World.plan, hplans] at hplan
      obtain ⟨hid, hholds⟩ := hloads.held id plan hplan
      exact ⟨hid, hleaves.published (Holds.published hholds)⟩
    · rw [World.plan, hplans'] at hplan
      have hget : (plans.alter new.envelope.planId.value fun _ => new).get id = some plan := hplan
      rw [OrdMap.get_alter] at hget
      split_ifs at hget with hid
      · obtain rfl := Option.some.inj hget
        exact ⟨hid.symm, bytes, hbytes, hcontent⟩
      · obtain ⟨hid, hpublished⟩ := h.store id plan (by rw [World.plan, hplans]; exact hget)
        exact ⟨hid, hleaves.published hpublished⟩

theorem Kept.step {plan : StoredPlan} (h : Kept plan w)
    (hleaves : Leaves w w' inserts) : Kept plan w' := by
  obtain ⟨bytes, hbytes, hcontent, hmemory⟩ := h
  refine ⟨bytes, hbytes, hleaves.grows (not_pending_planFile _) hcontent, fun hopen => ?_⟩
  rcases hleaves.store with hnone | hsame | ⟨plans, hplans, hfiles, hloads⟩ |
    ⟨new, plans, newBytes, -, hplans, hplans', hnew, -, howner⟩
  · rw [hnone] at hopen
    cases hopen
  · rw [hsame] at hopen
    rw [World.plan, hsame]
    exact hmemory hopen
  · -- the plan is loaded from its file
    obtain ⟨loaded, hdecode, hget⟩ := hloads.loaded hcontent
    have hsorted := decode_eq_sorted hbytes hdecode
    refine ⟨loaded, ?_, encode_decode hdecode⟩
    rw [World.plan, hplans]
    rw [hsorted] at hget ⊢
    exact hget
  · obtain ⟨q, hq, hqbytes⟩ := hmemory (by rw [hplans]; rfl)
    rw [World.plan, hplans] at hq
    have hget : plans.get plan.envelope.planId.value = some q := hq
    rw [World.plan, hplans']
    show ∃ q, (plans.alter new.envelope.planId.value fun _ => new).get plan.envelope.planId.value =
        some q
      ∧ _
    rw [OrdMap.get_alter]
    by_cases hid : plan.envelope.planId.value = new.envelope.planId.value
    · rw [if_pos hid]
      have hsame := howner q (hid ▸ hget)
      rw [hqbytes] at hsame
      exact ⟨new, rfl, hnew.trans hsame.symm⟩
    · rw [if_neg hid]
      exact ⟨q, hget, hqbytes⟩

/-! ### Runs -/

/-- The plan is handed to the store in one of the calls. -/
def Inserted (calls : List Call) (plan : StoredPlan) : Prop := ∃ call ∈ calls, call.inserts = some plan

theorem sound_run {inserted : StoredPlan → Prop} : ∀ {calls : List Call} {w : World}, Sound inserted w →
    (∀ plan, Inserted calls plan → inserted plan) → Sound inserted (run w calls)
  | [], _, h, _ => h
  | call :: calls, w, h, hall =>
    @sound_run _ calls _
      (h.step (leaves_perform w call) fun plan hplan => hall plan ⟨call, List.mem_cons_self, hplan⟩)
      fun plan hplan =>
        hall plan (hplan.imp fun _ hlater => ⟨List.mem_cons_of_mem _ hlater.1, hlater.2⟩)

theorem sound_fresh (inserted : StoredPlan → Prop) : Sound inserted fresh := by
  constructor
  · intro name bytes h
    cases h
  · intro id plan h
    cases h

theorem run_keeps {P : World → Prop} (hstep : ∀ {w w' inserts}, P w → Leaves w w' inserts → P w') :
    ∀ {calls : List Call} {w : World}, P w → P (run w calls)
  | [], _, h => h
  | call :: calls, w, h => @run_keeps P hstep calls _ (hstep h (leaves_perform w call))

/-- **When the store opens again**, if the operations work: every published plan can be loaded. -/
theorem reopen_iff {inserted : StoredPlan → Prop} (h : Sound inserted w) :
    (perform w (.reopen [])).1 = .done ↔ ∀ plan, Published w plan → Nested plan := by
  constructor
  · intro hdone plan hplan
    obtain ⟨bytes, hbytes, hcontent⟩ := hplan
    obtain ⟨plans, hloads⟩ := (leaves_reopen w []).2.2 hdone
    obtain ⟨loaded, hdecode, -⟩ := hloads.loaded hcontent
    exact (decode_isOk_iff hbytes).mp ⟨loaded, hdecode⟩
  · intro hall
    obtain ⟨plans, hplans⟩ := @openStore_works [] w.files fun name hname => by
      obtain ⟨hsome, hpending⟩ := mem_published.mp hname
      obtain ⟨bytes, hbytes⟩ := Option.isSome_iff_exists.mp hsome
      rcases h.files name bytes hbytes with hpending' | ⟨plan, -, rfl, hencode⟩
      · exact absurd hpending' hpending
      · have hnested := hall plan ⟨bytes, hencode, hbytes⟩
        exact ⟨sortedPlan plan, bytes, hbytes, decode_encode hencode hnested, rfl⟩
    show (opened (openStore (filePlanStorage []) ⟨w.files, []⟩)).1 = .done
    rw [hplans]
    rfl

theorem perform_get (hstore : w.store = some plans) {planId : String} {expected : Sha256Digest}
    {plan : StoredPlan} :
    (perform w (.get planId expected)).1 = .returned plan ↔ get plans planId expected = .ok plan := by
  unfold perform
  rw [hstore]
  dsimp only
  rcases get plans planId expected with e | found <;> simp

/-- **Stored plans are immutable, and survive.** In every run an identifier keeps its plan; a refused
insert leaves the memory as it was; a plan whose insert was answered is returned, with equal content,
by every later fetch with its digest; what is fetched has the digest that was asked for; and the files
are whole plans under their names and pending files, which are passed over: a store that was opened
holds the published plans and no other. When the operations work it opens exactly if the bodies of
the published plans nest at most 61 deep. -/
theorem stored_plans_immutable (calls : List Call) :
    (∀ earlier later, earlier ++ later = calls → ∀ id p q, (run fresh earlier).plan id = some p →
      (run fresh calls).plan id = some q → ∃ bytes, encode p = .ok bytes ∧ encode q = .ok bytes) ∧
    (∀ plan nonce fates e, (perform (run fresh calls) (.insert plan nonce fates)).1 = .refused e →
      (perform (run fresh calls) (.insert plan nonce fates)).2.store = (run fresh calls).store) ∧
    (∀ earlier plan nonce fates later, earlier ++ .insert plan nonce fates :: later = calls →
      (perform (run fresh earlier) (.insert plan nonce fates)).1 = .done →
      (run fresh calls).store.isSome → ∃ q bytes, (perform (run fresh calls)
        (.get plan.envelope.planId.value plan.envelope.planDigest)).1 = .returned q ∧
        encode plan = .ok bytes ∧ encode q = .ok bytes) ∧
    (∀ planId expected q, (perform (run fresh calls) (.get planId expected)).1 = .returned q →
      q.envelope.recomputeDigest = .ok expected) ∧
    (∀ name bytes, content (run fresh calls).files name = some bytes → Pending name ∨
      ∃ plan, Inserted calls plan ∧ name = filename plan ∧ encode plan = .ok bytes) ∧
    (∀ fates plans, (perform (run fresh calls) (.reopen fates)).2.store = some plans →
      ∀ id q, plans.get id = some q ↔ q.envelope.planId.value = id ∧
        ∃ bytes, content (run fresh calls).files (filename q) = some bytes ∧ decode bytes = .ok q) ∧
    ((perform (run fresh calls) (.reopen [])).1 = .done ↔
      ∀ plan, Published (run fresh calls) plan → Nested plan) := by
  have hsound : Sound (Inserted calls) (run fresh calls) := sound_run (sound_fresh _) fun _ h => h
  refine ⟨?_, ?_, ?_, ?_, hsound.files, ?_, reopen_iff hsound⟩
  · rintro earlier later rfl id p q hp hq
    have hearlier : Sound (Inserted earlier) (run fresh earlier) :=
      sound_run (sound_fresh _) fun _ h => h
    obtain ⟨hpid, hpublished⟩ := hearlier.store id p hp
    obtain ⟨bytes, hbytes, hcontent⟩ : Published (run fresh (earlier ++ later)) p := by
      rw [run_append]
      exact run_keeps (fun h hleaves => hleaves.published h) hpublished
    obtain ⟨hqid, there, hthere, hcontent'⟩ := hsound.store id q hq
    have hname : filename q = filename p := congrArg planFile (hqid.trans hpid.symm)
    rw [hname, hcontent] at hcontent'
    exact ⟨bytes, hbytes, Option.some.inj hcontent' ▸ hthere⟩
  · intro plan nonce fates e hrefused
    obtain ⟨plans, hstore⟩ := open_of_answer (.inl rfl) (by rw [hrefused]; simp)
    exact (leaves_insert hstore plan nonce fates).2.1 e hrefused
  · rintro earlier plan nonce fates later rfl hdone hopen
    have hkept : Kept plan (run fresh (earlier ++ .insert plan nonce fates :: later)) := by
      obtain ⟨plans, hstore⟩ := open_of_answer (.inl rfl) (by rw [hdone]; simp)
      rw [run_append]
      exact @run_keeps (Kept plan) Kept.step later _ ((leaves_insert hstore plan nonce fates).2.2 hdone)
    obtain ⟨bytes, hbytes, -, hmemory⟩ := hkept
    obtain ⟨q, hq, hqbytes⟩ := hmemory hopen
    obtain ⟨plans, hplans⟩ := Option.isSome_iff_exists.mp hopen
    rw [World.plan, hplans] at hq
    refine ⟨q, bytes, (perform_get hplans).mpr (get_eq_ok.mpr ⟨hq, ?_, ?_⟩), hbytes, hqbytes⟩
    · obtain ⟨-, hdigest, -⟩ := validate_eq_ok.mp (encode_eq_ok.mp hqbytes).1
      rw [hdigest, planDigest_of_encode hbytes hqbytes]
    · exact (encode_eq_ok.mp hqbytes).1
  · intro planId expected q hreturned
    obtain ⟨plans, hstore⟩ := open_of_answer (.inr ⟨_, _, rfl⟩) (by rw [hreturned]; simp)
    exact (get_eq_ok.mp ((perform_get hstore).mp hreturned)).2.1
  · intro fates plans hplans id q
    have hloads := (leaves_reopen (run fresh calls) fates).2.1 plans hplans
    constructor
    · intro hq
      obtain ⟨hid, bytes, hcontent, hdecode, -⟩ := hloads.held id q hq
      exact ⟨hid, bytes, hcontent, hdecode⟩
    · rintro ⟨rfl, bytes, hcontent, hdecode⟩
      obtain ⟨loaded, hdecode', hget⟩ := hloads.loaded hcontent
      obtain rfl : loaded = q := Except.ok.inj (hdecode'.symm.trans hdecode)
      exact hget

/-! ### A plan that is stored and not loaded -/

/-- Without trouble a plan that is new to the store is written. -/
theorem persist_works {nonce : List UInt8} {plan : StoredPlan} {bytes : List UInt8} {files : Files}
    (htarget : files.get (filename plan) = none) (htemporary : files.get (pendingFile nonce) = none) :
    ∃ files', persist nonce plan bytes ⟨files, []⟩ = (.ok (), ⟨files', []⟩) := by
  have hne : filename plan ≠ pendingFile nonce := fun h =>
    not_pending_planFile plan.envelope.planId.value (h ▸ pending_pendingFile nonce :)
  set temporary := pendingFile nonce
  let created : Files := (createNew temporary).effect files
  let written : Files := (syncAll temporary).effect ((writeAll temporary bytes).effect created)
  have hthere : ∀ name, (written.get name).isSome = (content created name).isSome := by
    intro name
    show (OrdMap.get (withSynced temporary (appended temporary bytes created)) name).isSome = _
    rw [← content_isSome, content_withSynced, content_appended]
    by_cases hname : name = temporary
    · rw [if_pos hname, hname, Option.isSome_map]
    · rw [if_neg hname]
  have hlink : ((hardLink temporary (filename plan)).run.handle (linkFailed (filename plan) bytes))
      ⟨written, []⟩ = (.ok (), ⟨linked temporary (filename plan) written, []⟩) := by
    have hsource : (written.get temporary).isSome = true := by
      simp [hthere, created, createNew, content_alter]
    have hfree : (written.get (filename plan)).isSome = false := by
      simp [hthere, created, createNew, content, OrdMap.get_alter, hne, htarget]
    unfold Exec.handle Operation.run Operation.carryOut
    simp [hardLink, hsource, hfree]
  have hpublish : publish temporary (filename plan) bytes ⟨created, []⟩ =
      (.ok (), ⟨withEntered (fun _ => true) (linked temporary (filename plan) written), []⟩) := by
    unfold publish
    rw [bind_apply_ok attempt_touch_works, attempt,
      bind_apply_ok (io_works (a := ()) (by simp [writeAll, created, createNew, OrdMap.get_alter])),
      attempt, bind_apply_ok (io_works rfl), bind_apply_ok hlink]
    exact io_works rfl
  unfold persist requirePlain
  rw [bind_apply_ok attempt_touch_works, attempt,
    bind_apply_ok (io_works (a := false) (by simp [fileExists, inspect, htarget])),
    if_neg Bool.false_ne_true, bind_apply_ok attempt_touch_works, attempt,
    bind_apply_ok
      (io_works (a := ()) (by simp [createNew, fileExists, inspect, temporary, htemporary]))]
  exact thenIgnoring_works hpublish

/-- Without trouble a plan that is new to the store is inserted. -/
theorem insert_works {nonce : List UInt8} {plan : StoredPlan} (hstore : w.store = some plans)
    (hbytes : encode plan = .ok bytes) (hnew : plans.get plan.envelope.planId.value = none)
    (htarget : w.files.get (filename plan) = none)
    (htemporary : w.files.get (pendingFile nonce) = none) :
    (perform w (.insert plan nonce [])).1 = .done := by
  obtain ⟨files', hpersist⟩ := @persist_works nonce plan bytes w.files htarget htemporary
  have hcoded : coded (encode plan) = .ok bytes := coded_eq_ok.mpr hbytes
  have howner : checkOwner plans plan bytes = .ok () :=
    checkOwner_eq_ok.mpr fun existing h => by
      rw [hnew] at h
      cases h
  have hkeep : keep (some (filePlanStorage nonce)) plan bytes ⟨plans, ⟨w.files, []⟩⟩ =
      (.ok (), ⟨plans, ⟨files', []⟩⟩) := by
    show ((persist nonce plan bytes ⟨w.files, []⟩).1,
      (⟨plans, (persist nonce plan bytes ⟨w.files, []⟩).2⟩ : PlanStore Disk)) = _
    rw [hpersist]
  unfold perform
  rw [hstore]
  dsimp only
  unfold Engine.SealedPlans.insert
  rw [hcoded, lift_ok_bind, getState_bind, howner, lift_ok_bind, bind_apply_ok hkeep]
  rfl

/-- `n` arrays, one inside the other. -/
def nestedArrays : ℕ → CborValue
  | 0 => .null
  | n + 1 => .array [nestedArrays n]

theorem depth_nestedArrays : ∀ n, (nestedArrays n).depth = n
  | 0 => rfl
  | n + 1 => by simp [nestedArrays, CborValue.depth, depthValues, depth_nestedArrays n]

theorem nestedArrays_encodes : ∀ n, (nestedArrays n).Encodes
  | 0 => ⟨_, rfl⟩
  | n + 1 => array_encodes (List.forall_mem_singleton.mpr (nestedArrays_encodes n))

/-- A plan is stored whose body nests deeper than the decoder goes. -/
theorem exists_deepPlan : ∃ (plan : StoredPlan) (bytes : List UInt8), encode plan = .ok bytes ∧
    ¬ Nested plan := by
  obtain ⟨envelope, d, projection, henvelope, -, hvalid⟩ := exists_probePlan (nestedArrays 62)
    (show (plainId :: List.map Prod.fst []).Nodup from List.nodup_singleton plainId)
    (nestedArrays_encodes 62) (List.forall_mem_nil _)
  set plan : StoredPlan := ⟨envelope, ⟨[probeAction plainId .primaryEffect (nestedArrays 62)]⟩⟩
  obtain ⟨-, hdigest, -⟩ := validate_eq_ok.mp hvalid
  obtain ⟨body, hbody, -⟩ := PlanEnvelope.recomputeDigest_eq_ok.mp hdigest
  have hbodyLength : body.length ≤ 1000000 :=
    length_probeBody_le henvelope (PlanEnvelope.digestBodyBytes_eq_ok.mp hbody)
  have haction : (probeAction plainId .primaryEffect (nestedArrays 62)).toCbor.Encodes :=
    PrivateActionRecord.toCbor_encodes (nestedArrays_encodes 62)
  obtain ⟨bytes, hbytes⟩ : (CborValue.textMap (storageFields plan body)).Encodes := by
    simp [storageFields, plan, haction]
  have hlength : bytes.length ≤ MAX_BYTES := by
    refine (length_le_boundValue _ hbytes).trans ((boundValue_textMap_le (m := 100) (n := 1009900)
      ?_).trans (show 9 + 4 * 1010000 ≤ 8 * 1024 * 1024 by decide))
    simp only [storageFields, List.forall_mem_cons]
    refine ⟨by decide, ⟨by decide, ?_⟩, ⟨by decide, ?_⟩, ⟨by decide, ?_⟩, List.forall_mem_nil _⟩
    · show 9 + plan.envelope.planDigest.bytes.length ≤ _
      rw [Sha256Digest.length_eq]
      decide
    · exact (Nat.add_le_add_left hbodyLength 9).trans (by decide)
    · show boundValue (.array [(probeAction plainId .primaryEffect (nestedArrays 62)).toCbor]) ≤ _
      decide +kernel
  refine ⟨plan, bytes, encode_eq_ok.mpr ⟨hvalid, hlength, body, hbody, hbytes⟩, fun hnested => ?_⟩
  have := hnested _ (List.mem_singleton_self _)
  rw [show (probeAction plainId .primaryEffect (nestedArrays 62)).body = nestedArrays 62 from rfl,
    depth_nestedArrays] at this
  exact absurd this (by decide)

/-- A plan is inserted, and the store never opens again. -/
theorem deep_plan_closes_store : ∃ (plan : StoredPlan) (nonce : List UInt8),
    (perform fresh (.reopen [])).1 = .done ∧
    (perform (run fresh [.reopen []]) (.insert plan nonce [])).1 = .done ∧
    (perform (run fresh [.reopen [], .insert plan nonce []]) (.reopen [])).1 ≠ .done := by
  obtain ⟨plan, bytes, hbytes, hdeep⟩ := exists_deepPlan
  have hopened : perform fresh (.reopen []) = (.done, ⟨.empty, some .empty⟩) := rfl
  have hdone : (perform (run fresh [.reopen []]) (.insert plan [] [])).1 = .done := by
    show (perform (perform fresh (.reopen [])).2 _).1 = _
    rw [hopened]
    exact insert_works rfl hbytes rfl rfl rfl
  refine ⟨plan, [], congrArg Prod.fst hopened, hdone, fun hreopened => hdeep ?_⟩
  have hsound : Sound (Inserted [.reopen [], .insert plan [] []])
      (run fresh [.reopen [], .insert plan [] []]) := sound_run (sound_fresh _) fun _ h => h
  refine (reopen_iff hsound).mp hreopened plan ?_
  have hkept : Kept plan (run fresh [.reopen [], .insert plan [] []]) :=
    (@leaves_insert (run fresh [.reopen []]) .empty rfl plan [] []).2.2 hdone
  obtain ⟨there, hthere, hcontent, -⟩ := hkept
  exact ⟨there, hthere, hcontent⟩

end ArkForge.Daemon.PlanStoreRuns
