import ArkForge.Core.CborBounds
import ArkForge.Engine.PlanRoundTrip
import ArkForge.Lib.Folder

/-! # The store of sealed plans

The engine keeps sealed plans in memory under their identifiers, and hands each of them to a storage
before it counts as stored. A plan is looked up under its identifier and its digest. -/

namespace ArkForge.Engine.SealedPlans

open Lib.Result Lib.Fallible Lib.Ordered Lib.Folder
open Core.Cbor Core.Cbor.CborValue Core.CborCanon
open Core.CborMap Core.CborBounds
open Core.Digest Core.Envelope
open Core.Projection PlanCodec PlanRoundTrip
open Exec

variable {plan : StoredPlan} {bytes : List UInt8}

/-! ### Plans that are loaded again -/

/-- The bodies of the plan's actions nest no deeper than those of a plan that is loaded. -/
def Nested (plan : StoredPlan) : Prop := ∀ a ∈ plan.privatePlan.actions, a.body.depth ≤ 61

theorem depth_body_of_action {a : PrivateActionRecord} {n : ℕ} (h : a.toCbor.depth ≤ n + 1) :
    a.body.depth ≤ n := by
  have hentry := depth_map_le.mp h (.text "body", a.body) (by simp)
  exact Nat.le_of_succ_le_succ hentry.2

theorem nested_of_storage {plan : StoredPlan} {body : List UInt8}
    (h : (CborValue.textMap (storageFields plan body)).depth ≤ 64) : Nested plan := by
  have hentry := depth_map_le.mp h
    (.text "privateActions", .array (plan.privatePlan.actions.map (·.toCbor))) (by simp [storageFields])
  have hactions := depth_array_le.mp (Nat.le_of_succ_le_succ hentry.2)
  intro a ha
  refine depth_body_of_action (Nat.le_of_succ_le_succ (hactions a.toCbor ?_))
  exact List.mem_map_of_mem ha

/-- **When a stored plan is loaded again**: its bodies nest at most 61 deep. -/
theorem decode_isOk_iff (h : encode plan = .ok bytes) :
    (∃ loaded, decode bytes = .ok loaded) ↔ Nested plan := by
  refine ⟨?_, fun hnested => ⟨sortedPlan plan, decode_encode h hnested⟩⟩
  rintro ⟨loaded, hloaded⟩
  obtain ⟨-, hlen, body, -, hout⟩ := encode_eq_ok.mp h
  have hlt : bytes.length < 2 ^ 64 := lt_of_le_of_lt hlen (by decide)
  unfold decode at hloaded
  rw [if_neg (not_lt.mpr hlen)] at hloaded
  obtain ⟨storage, hstorage, -⟩ := bind_eq_ok.mp hloaded
  have hread := mapError_eq_ok.mp hstorage
  have hbytes := toCanonicalBytes_of_decode hread
  -- both values are written as the same bytes, so they agree once their maps are sorted
  have hsorted := sortKeys_eq_of_encodes (fits_of_length _ hbytes hlt) (fits_of_length _ hout hlt)
    hbytes hout
  refine @nested_of_storage plan body ((depth_sortKeys_le _).mp ?_)
  rw [← hsorted]
  exact (depth_sortKeys_le storage).mpr (depth_of_decodeCanonical hread)

/-- What is loaded from the bytes of a plan is that plan, with its maps sorted. -/
theorem decode_eq_sorted {loaded : StoredPlan} (h : encode plan = .ok bytes)
    (hloaded : decode bytes = .ok loaded) : loaded = sortedPlan plan :=
  Except.ok.inj (hloaded.symm.trans (decode_encode h ((decode_isOk_iff h).mp ⟨loaded, hloaded⟩)))

theorem planDigest_of_encode {other : StoredPlan} (h : encode plan = .ok bytes)
    (hother : encode other = .ok bytes) : other.envelope.planDigest = plan.envelope.planDigest := by
  obtain ⟨-, hlen, body, -, hout⟩ := encode_eq_ok.mp h
  obtain ⟨-, -, body', -, hout'⟩ := encode_eq_ok.mp hother
  have hlt : bytes.length < 2 ^ 64 := lt_of_le_of_lt hlen (by decide)
  have hsorted := sortKeys_eq_of_encodes (fits_of_length _ hout hlt) (fits_of_length _ hout' hlt)
    hout hout'
  have hread : ∀ (p : StoredPlan) (body : List UInt8),
      PlanCodec.field (CborValue.textMap (storageFields p body)).sortKeys "planDigest" =
        .ok p.envelope.planDigest.toCbor.sortKeys := fun p body => by simp [storageFields]
  have hdigest := hread other body'
  rw [← hsorted, hread plan body] at hdigest
  have hbytes : CborValue.bytes plan.envelope.planDigest.bytes =
      .bytes other.envelope.planDigest.bytes := Except.ok.inj hdigest
  exact Sha256Digest.ext (CborValue.bytes.inj hbytes).symm

/-! ### The store -/

/-- The source's text of a storage failure, by what it tells of. -/
inductive StorageFailure where
  | codec (error : CodecError)
  | io (error : IoError)
  | message (text : String)

inductive EngineError where
  | unknownPlan (planId : String)
  | planDigestMismatch (planId : String) (expected stored : Sha256Digest)
  | storeCorruption (planId : String) (stored recomputed : Sha256Digest)
  | plan (error : PlanError)
  | planStorage (failure : StorageFailure)

/-- Where sealed plans are kept. -/
structure PlanStorage (σ : Type) where
  load : Exec σ (Stop EngineError) (List StoredPlan)
  persist : StoredPlan → List UInt8 → Exec σ (Stop EngineError) Unit

abbrev Plans : Type := OrdMap String StoredPlan

/-- The plans in memory, and what the storage keeps. -/
structure PlanStore (σ : Type) where
  plans : Plans
  storage : σ

variable {σ : Type}

def coded {α : Type} (r : Except CodecError α) : Except (Stop EngineError) α :=
  r.mapError fun e => .error (.planStorage (.codec e))

/-- The loop of `open` over the plans that were loaded. -/
def indexPlans : Plans → List StoredPlan → Except (Stop EngineError) Plans
  | plans, [] => .ok plans
  | plans, plan :: rest => do
    coded (validate plan)
    let id := plan.envelope.planId.value
    if (plans.get id).isSome then
      .error (.error (.planStorage (.message "duplicate sealed plan identifier")))
    else indexPlans (plans.alter id fun _ => plan) rest

def openStore (storage : PlanStorage σ) : Exec σ (Stop EngineError) Plans := do
  let loaded ← storage.load
  lift (indexPlans .empty loaded)

def checkOwner (plans : Plans) (plan : StoredPlan) (bytes : List UInt8) :
    Except (Stop EngineError) Unit :=
  match plans.get plan.envelope.planId.value with
  | none => .ok ()
  | some existing => do
    let owned ← coded (encode existing)
    if owned ≠ bytes then
      .error (.error (.planStorage (.message "a different sealed plan already owns this identifier")))
    else .ok ()

/-- Hands the plan to the storage, if there is one. -/
def keep (storage : Option (PlanStorage σ)) (plan : StoredPlan) (bytes : List UInt8) :
    Exec (PlanStore σ) (Stop EngineError) Unit :=
  match storage with
  | none => pure ()
  | some storage =>
    (storage.persist plan bytes).within PlanStore.storage fun store s => { store with storage := s }

def insert (storage : Option (PlanStorage σ)) (plan : StoredPlan) :
    Exec (PlanStore σ) (Stop EngineError) Unit := do
  let bytes ← lift (coded (encode plan))
  let store ← getState
  lift (checkOwner store.plans plan bytes)
  keep storage plan bytes
  modifyState fun store =>
    { store with plans := store.plans.alter plan.envelope.planId.value fun _ => plan }

def checkFound (planId : String) (expected : Sha256Digest) (stored : StoredPlan) :
    Except EngineError StoredPlan := do
  let recomputed ← stored.envelope.recomputeDigest.mapError .plan
  if recomputed ≠ stored.envelope.planDigest then
    .error (.storeCorruption planId stored.envelope.planDigest recomputed)
  else if stored.envelope.planDigest ≠ expected then
    .error (.planDigestMismatch planId expected stored.envelope.planDigest)
  else do
    (validate stored).mapError fun e => .planStorage (.codec e)
    .ok stored

/-- Fetches a plan, checking its digest and the caller's expectation. -/
def get (plans : Plans) (planId : String) (expected : Sha256Digest) : Except EngineError StoredPlan :=
  match plans.get planId with
  | none => .error (.unknownPlan planId)
  | some stored => checkFound planId expected stored

/-! ### What the store does -/

theorem coded_eq_ok {α : Type} {r : Except CodecError α} {a : α} : coded r = .ok a ↔ r = .ok a :=
  mapError_eq_ok

/-- **When a plan is fetched**: it is stored under the identifier, has the digest that is asked for,
and passes the checks of a sealed plan. -/
theorem get_eq_ok {plans : Plans} {planId : String} {expected : Sha256Digest} :
    get plans planId expected = .ok plan ↔
      plans.get planId = some plan ∧ plan.envelope.recomputeDigest = .ok expected ∧
        validate plan = .ok () := by
  unfold get
  rcases hfound : plans.get planId with _ | stored
  · exact iff_of_false (fun h => nomatch h) fun h => nomatch h.1
  · unfold checkFound
    simp only [bind_eq_ok, mapError_eq_ok]
    constructor
    · rintro ⟨recomputed, hrecomputed, h⟩
      split_ifs at h with hsame hexpected
      obtain ⟨_, hvalid, h⟩ := bind_eq_ok.mp h
      obtain rfl := Except.ok.inj h
      rw [not_not.mp hsame, not_not.mp hexpected] at hrecomputed
      exact ⟨rfl, hrecomputed, mapError_eq_ok.mp hvalid⟩
    · rintro ⟨hplan, hrecomputed, hvalid⟩
      obtain rfl := Option.some.inj hplan
      obtain ⟨-, hdigest, -⟩ := validate_eq_ok.mp hvalid
      have hexpected : stored.envelope.planDigest = expected :=
        Except.ok.inj (hdigest.symm.trans hrecomputed)
      refine ⟨expected, hrecomputed, ?_⟩
      rw [if_neg (not_not.mpr hexpected.symm), if_neg (not_not.mpr hexpected), hvalid]
      rfl

/-- The plans that were loaded, each under its identifier, once. -/
theorem indexPlans_eq_ok {loaded : List StoredPlan} : ∀ {plans result : Plans},
    indexPlans plans loaded = .ok result →
      (∀ plan ∈ loaded, validate plan = .ok () ∧ plans.get plan.envelope.planId.value = none ∧
        result.get plan.envelope.planId.value = some plan) ∧
      ∀ id plan, result.get id = some plan ↔
        plans.get id = some plan ∨ plan ∈ loaded ∧ plan.envelope.planId.value = id := by
  induction loaded with
  | nil =>
    intro plans result h
    obtain rfl := Except.ok.inj h
    exact ⟨List.forall_mem_nil _, fun id plan => by simp⟩
  | cons first rest ih =>
    intro plans result h
    obtain ⟨_, hvalid, h⟩ := bind_eq_ok.mp h
    dsimp only at h
    split_ifs at h with htaken
    have hfree : plans.get first.envelope.planId.value = none := by
      simpa using htaken
    obtain ⟨hrest, hresult⟩ := ih h
    have hfirst : result.get first.envelope.planId.value = some first := by
      refine (hresult _ _).mpr (.inl ?_)
      rw [OrdMap.get_alter, if_pos rfl]
    refine ⟨List.forall_mem_cons.mpr ⟨⟨coded_eq_ok.mp hvalid, hfree, hfirst⟩, fun plan hplan => ?_⟩, ?_⟩
    · obtain ⟨hv, hnone, hsome⟩ := hrest plan hplan
      rw [OrdMap.get_alter] at hnone
      split_ifs at hnone
      exact ⟨hv, hnone, hsome⟩
    · intro id plan
      rw [hresult, OrdMap.get_alter, List.mem_cons]
      by_cases hid : id = first.envelope.planId.value
      · rw [if_pos hid, hid, hfree]
        have : some first = some plan ↔ plan = first := by
          rw [Option.some_inj, eq_comm]
        rw [this]
        constructor
        · rintro (rfl | ⟨hplan, hsame⟩)
          · exact .inr ⟨.inl rfl, rfl⟩
          · exact .inr ⟨.inr hplan, hsame⟩
        · rintro (hnone | ⟨rfl | hplan, hsame⟩)
          · cases hnone
          · exact .inl rfl
          · exact .inr ⟨hplan, hsame⟩
      · rw [if_neg hid]
        constructor
        · rintro (hold | ⟨hplan, hsame⟩)
          · exact .inl hold
          · exact .inr ⟨.inr hplan, hsame⟩
        · rintro (hold | ⟨rfl | hplan, hsame⟩)
          · exact .inl hold
          · exact absurd hsame.symm hid
          · exact .inr ⟨hplan, hsame⟩

/-- Plans that pass their checks and have identifiers of their own are indexed. -/
theorem exists_indexPlans {loaded : List StoredPlan} : ∀ {plans : Plans},
    (∀ plan ∈ loaded, validate plan = .ok () ∧ plans.get plan.envelope.planId.value = none) →
    loaded.Pairwise (fun p q => p.envelope.planId.value ≠ q.envelope.planId.value) →
    ∃ result, indexPlans plans loaded = .ok result := by
  induction loaded with
  | nil => exact fun _ _ => ⟨_, rfl⟩
  | cons first rest ih =>
    intro plans hall hpairs
    obtain ⟨⟨hvalid, hfree⟩, hrest⟩ := List.forall_mem_cons.mp hall
    obtain ⟨hfirst, hpairs⟩ := List.pairwise_cons.mp hpairs
    have hcoded : coded (validate first) = .ok () := coded_eq_ok.mpr hvalid
    obtain ⟨result, hresult⟩ := @ih (plans.alter first.envelope.planId.value fun _ => first)
      (fun plan hplan => by
        rw [OrdMap.get_alter, if_neg (hfirst plan hplan).symm]
        exact hrest plan hplan) hpairs
    refine ⟨result, ?_⟩
    show (coded (validate first) >>= _) = _
    rw [hcoded]
    show (if _ then _ else _) = _
    rw [hfree]
    exact hresult

theorem checkOwner_eq_ok {plans : Plans} : checkOwner plans plan bytes = .ok () ↔
      ∀ existing, plans.get plan.envelope.planId.value = some existing →
        encode existing = .ok bytes := by
  unfold checkOwner
  rcases plans.get plan.envelope.planId.value with _ | existing
  · exact iff_of_true rfl fun _ h => nomatch h
  · simp only [bind_eq_ok, coded_eq_ok, Option.some_inj, forall_eq']
    constructor
    · rintro ⟨owned, howned, h⟩
      split_ifs at h with hsame
      rw [← not_not.mp hsame]
      exact howned
    · intro h
      exact ⟨bytes, h, if_neg (not_not.mpr rfl)⟩

end ArkForge.Engine.SealedPlans
