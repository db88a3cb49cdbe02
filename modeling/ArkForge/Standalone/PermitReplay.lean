import ArkForge.Standalone.Permits

/-! # Requests that are asked again

The permit that answers a request is read back from its file, however often the request is asked. So
the answer is the permit of the first snapshot that was published under the request, whatever the
snapshot of this call says: it answers this one exactly when the two are about the same step and the
first has not expired. -/

namespace ArkForge.Standalone.PermitReplay

open Lib.Fallible Lib.Ordered Lib.Result
open Core.CborMap Core.CborBounds Core.Digest Core.Ids
open Ipc.Jobs Ipc.Wire
open Authority.Permit Authority.PermitBytes
open Standalone.Authority Permits
open Exec

/-! ### A new permit -/

/-- The permit is for the step of the snapshot, on the device it shows. -/
structure PermitsStep (permit : StepPermit) (snapshot : StepAdmissionSnapshot) : Prop where
  planDigest : permit.planDigest.bytes = snapshot.planSha256
  stepId : permit.stepId.value = snapshot.stepId
  attemptId : permit.attemptId.value = snapshot.attemptId
  publicStepDigest : permit.publicStepDigest.bytes = snapshot.publicStepSha256
  privateActionDigest : permit.privateActionDigest.bytes = snapshot.privateActionSha256
  effectSetDigest : permit.effectSetDigest.bytes = snapshot.effectSetSha256
  admittedDeviceFactsDigest :
    permit.admittedDeviceFactsDigest.bytes = snapshot.admittedDeviceFactsSha256

theorem permitText_eq_ok {text : String} {id : OpaqueId} :
    permitText text = .ok id ↔ id.value = text := by
  rw [permitText, mapError_eq_ok, OpaqueId.new_eq_ok]

section Draft

variable {epoch : UInt64} {snapshot : StepAdmissionSnapshot} {record : AuthorityPlanRecord}
  {admitted : Sha256Digest} {issued expires : UInt64} {permit : StepPermit}

theorem permitsStep_of_draft (hadmitted : admitted.bytes = snapshot.admittedDeviceFactsSha256)
    (h : draftStepPermit epoch snapshot record admitted issued expires = .ok permit) :
    PermitsStep permit snapshot ∧ permit.expiresAtEpochMs = expires := by
  unfold draftStepPermit at h
  -- the text is a digest, which is not to be computed here
  generalize permitIdText epoch snapshot.requestId = text at h
  simp only [bind_eq_ok, guard_eq_ok] at h
  obtain ⟨planDigest, hplan, -, _, -, _, -, _, -, _, -, _, -, _, -, _, -, stepId, hstep, attemptId,
    hattempt, publicStep, hpublic, privateAction, hprivate, effectSet, heffect, h⟩ := h
  obtain rfl := Except.ok.inj h
  exact ⟨⟨digestBytes_eq_ok.mp hplan, permitText_eq_ok.mp hstep, permitText_eq_ok.mp hattempt,
    digestBytes_eq_ok.mp hpublic, digestBytes_eq_ok.mp hprivate, digestBytes_eq_ok.mp heffect,
    hadmitted⟩, rfl⟩

/-- There is a draft if the texts conform and the digests have their length. -/
theorem exists_draft {planDigest : Sha256Digest} (hplan : planDigest.bytes = snapshot.planSha256)
    (hsame : planDigest.toHex = record.plan.planSha256)
    (hpermit : Conforming (permitIdText epoch snapshot.requestId))
    (hbinding : Conforming record.bindingId) (hstable : record.stableIdentitySha256.length = 32)
    (hsession : Conforming ("CLI-SESSION-" ++ toString epoch.toNat))
    (hjob : Conforming snapshot.jobId) (hplanId : Conforming snapshot.planId)
    (hstep : Conforming snapshot.stepId) (hattempt : Conforming snapshot.attemptId)
    (hpublic : snapshot.publicStepSha256.length = 32)
    (hprivate : snapshot.privateActionSha256.length = 32)
    (heffect : snapshot.effectSetSha256.length = 32) :
    ∃ permit, draftStepPermit epoch snapshot record admitted issued expires = .ok permit := by
  have htext : ∀ {text : String} (h : Conforming text), permitText text = .ok ⟨text, h⟩ :=
    fun h => permitText_eq_ok.mpr rfl
  have hdigest : ∀ {bytes : List UInt8} (name : String) (h : bytes.length = 32),
      digestBytes bytes name = .ok ⟨bytes, h⟩ := fun _ h => digestBytes_eq_ok.mpr rfl
  have hnamespace : Conforming "arkforge.cli" := by decide
  unfold draftStepPermit
  rw [digestBytes_eq_ok.mpr hplan, ok_bind, if_neg (not_not.mpr hsame), htext hpermit,
    htext hnamespace, htext hbinding, hdigest _ hstable, htext hsession, htext hjob, htext hplanId,
    htext hstep, ok_bind, htext hattempt, hdigest _ hpublic, ok_bind, hdigest _ hprivate, ok_bind,
    hdigest _ heffect, ok_bind]
  exact ⟨_, rfl⟩

end Draft

theorem length_signingBody_le {p : StepPermit} {b : List UInt8} (h : p.signingBody = .ok b) :
    b.length ≤ 9 + 16 * 5000 := by
  have hid : ∀ {n} (o : OpaqueId), 137 ≤ n → boundValue o.toCbor ≤ n := fun o =>
    (Nat.add_le_add_left o.conforming.2.1 9).trans
  have hdigest : ∀ {n} (d : Sha256Digest), 41 ≤ n → boundValue d.toCbor ≤ n := fun d =>
    (Nat.add_le_add_left d.length_eq.le 9).trans
  have hbinding : boundValue p.authorityBinding.toCbor ≤ 9 + 4 * (100 + 137) := by
    refine boundValue_textMap_le ?_
    simp +decide [hid, hdigest]
  refine (length_le_boundValue _ h).trans
    (boundValue_textMap_le (n := 4900) ?_)
  simp +decide [hid, hdigest, hbinding.trans]

/-- The submission carries a signed permit of the epoch. -/
structure Carries (submission : SubmitStepPermitRequest) (epoch : UInt64) (permit : StepPermit) :
    Prop where
  body : permit.signingBody = .ok submission.permitCbor
  tag : submission.integrityTag.length = 32
  epoch : submission.pairingEpoch = epoch

namespace Carries

variable {submission : SubmitStepPermitRequest} {epoch : UInt64} {permit : StepPermit}

theorem ne_nil (h : Carries submission epoch permit) : submission.permitCbor ≠ [] :=
  List.ne_nil_of_length_pos (toCanonicalBytes_length_pos h.body)

theorem length_lt (h : Carries submission epoch permit) : submission.permitCbor.length < 2 ^ 64 :=
  (length_signingBody_le h.body).trans_lt (by decide)

theorem tag_ne_nil (h : Carries submission epoch permit) : submission.integrityTag ≠ [] := by
  intro hnil
  have htag := h.tag
  rw [hnil] at htag
  cases htag

theorem reads (h : Carries submission epoch permit) :
    StepPermit.fromCanonicalBytes submission.permitCbor = .ok (withoutTag permit) :=
  fromCanonicalBytes_signingBody h.body

end Carries

variable {submission : SubmitStepPermitRequest} {snapshot : StepAdmissionSnapshot}

theorem carries_of_create {epoch : UInt64} {pairing : ControllerPairingSecret}
    {record : AuthorityPlanRecord} {admitted : Sha256Digest}
    {issued expires : UInt64}
    (h : createPermit epoch pairing snapshot record admitted issued expires = .ok submission) :
    ∃ permit, draftStepPermit epoch snapshot record admitted issued expires = .ok permit ∧
      Carries submission epoch permit := by
  obtain ⟨permit, hdraft, h⟩ := bind_eq_ok.mp h
  obtain ⟨body, hbody, h⟩ := bind_eq_ok.mp h
  obtain ⟨tag, -, h⟩ := bind_eq_ok.mp h
  cases h
  exact ⟨permit, hdraft, mapError_eq_ok.mp hbody, tag.tag.length_eq, rfl⟩

variable {permit : StepPermit}

theorem create_of_draft {epoch : UInt64}
    {record : AuthorityPlanRecord} {admitted : Sha256Digest} {issued expires : UInt64}
    (hdraft : draftStepPermit epoch snapshot record admitted issued expires = .ok permit)
    (pairing : ControllerPairingSecret) : ∃ submission,
      createPermit epoch pairing snapshot record admitted issued expires = .ok submission := by
  obtain ⟨body, hbody⟩ := permit.signingBody_encodes
  unfold createPermit mintIntegrityTag
  rw [hdraft, ok_bind, hbody]
  exact ⟨_, rfl⟩

/-! ### A permit on disk -/

section Persisted

variable {submission : SubmitStepPermitRequest} {epoch : UInt64} {permit : StepPermit}

theorem fold_persisted (h : Carries submission epoch permit) (wire : WireError → StandaloneError) :
    foldFields wire persistedField ⟨[], [], 0⟩ (encodePersistedPermit submission) =
      .ok ⟨submission.permitCbor, submission.integrityTag, epoch⟩ := by
  have hlong : submission.integrityTag.length < 2 ^ 64 := by
    rw [h.tag]
    decide
  rw [encodePersistedPermit,
    (writes_bytes ⟨by decide, by decide⟩ h.ne_nil h.length_lt).foldFields]
  show foldFields wire persistedField ⟨submission.permitCbor, [], 0⟩ _ = _
  rw [(writes_bytes ⟨by decide, by decide⟩ h.tag_ne_nil hlong).foldFields]
  show foldFields wire persistedField ⟨submission.permitCbor, submission.integrityTag, 0⟩ _ = _
  rw [h.epoch]
  by_cases hzero : epoch = 0
  · rw [writeUint64, if_pos hzero, foldFields_nil, hzero]
  · rw [← List.append_nil (writeUint64 3 epoch),
      (writes_uint64 ⟨by decide, by decide⟩ hzero).foldFields]
    exact foldFields_nil _

/-- **A permit on disk is read back** as it was written. -/
theorem decode_encode (h : Carries submission epoch permit) (snapshot : StepAdmissionSnapshot) :
    decodePersistedPermit snapshot epoch (encodePersistedPermit submission) = .ok {
      jobId := snapshot.jobId
      requestId := snapshot.requestId
      permitCbor := submission.permitCbor
      integrityTag := submission.integrityTag
      pairingEpoch := epoch
      refusal := "" } := by
  unfold decodePersistedPermit
  rw [fold_persisted h, ok_bind, replayPermit, if_neg]
  rintro (hnil | hlen | hepoch)
  · exact h.ne_nil hnil
  · exact hlen h.tag
  · exact hepoch rfl

theorem decode_take (h : Carries submission epoch permit) (snapshot : StepAdmissionSnapshot) {n : ℕ}
    (hn : n < (encodePersistedPermit submission).length) :
    ∃ e, decodePersistedPermit snapshot epoch ((encodePersistedPermit submission).take n) =
      .error e := by
  have hlong : submission.integrityTag.length < 2 ^ 64 := by
    rw [h.tag]
    decide
  have hfirst := @writes_bytes 1 ⟨by decide, by decide⟩ _ h.ne_nil h.length_lt
  have hsecond := @writes_bytes 2 ⟨by decide, by decide⟩ _ h.tag_ne_nil hlong
  unfold decodePersistedPermit
  rw [encodePersistedPermit, List.length_append, List.length_append] at hn
  rw [encodePersistedPermit]
  -- the file ends in the first field, in the second or in the third, or between two of them
  rcases Nat.lt_or_ge n (writeBytes 1 submission.permitCbor).length with hlt | hge
  · rw [List.take_append_of_le_length hlt.le]
    rcases Nat.eq_zero_or_pos n with rfl | hpos
    · rw [List.take_zero, foldFields_nil]
      exact ⟨_, rfl⟩
    · obtain ⟨e, he⟩ := hfirst.foldFields_cut _ hpos hlt
      rw [he]
      exact ⟨e, rfl⟩
  obtain ⟨m, rfl⟩ := Nat.exists_eq_add_of_le hge
  rw [List.take_length_add_append, hfirst.foldFields]
  show ∃ e, (foldFields _ persistedField ⟨submission.permitCbor, [], 0⟩ _ >>= _) = _
  rcases Nat.lt_or_ge m (writeBytes 2 submission.integrityTag).length with hlt | hge
  · rw [List.take_append_of_le_length hlt.le]
    rcases Nat.eq_zero_or_pos m with rfl | hpos
    · have hempty : ([] : List UInt8).length ≠ 32 := by decide
      rw [List.take_zero, foldFields_nil, ok_bind, replayPermit, if_pos (Or.inr (Or.inl hempty))]
      exact ⟨_, rfl⟩
    · obtain ⟨e, he⟩ := hsecond.foldFields_cut _ hpos hlt
      rw [he]
      exact ⟨e, rfl⟩
  obtain ⟨k, rfl⟩ := Nat.exists_eq_add_of_le hge
  rw [List.take_length_add_append, hsecond.foldFields]
  show ∃ e, (foldFields _ persistedField ⟨submission.permitCbor, submission.integrityTag, 0⟩ _ >>=
    _) = _
  have hk : k < (writeUint64 3 submission.pairingEpoch).length := by omega
  have hzero : submission.pairingEpoch ≠ 0 := by
    intro hzero
    rw [writeUint64, if_pos hzero] at hk
    cases hk
  have hthird := @writes_uint64 3 ⟨by decide, by decide⟩ _ hzero
  rcases Nat.eq_zero_or_pos k with rfl | hpos
  · rw [List.take_zero, foldFields_nil, ok_bind, replayPermit,
      if_pos (Or.inr (Or.inr fun hsame => hzero (h.epoch.trans hsame.symm)))]
    exact ⟨_, rfl⟩
  · obtain ⟨e, he⟩ := hthird.foldFields_cut _ hpos hk
    rw [he]
    exact ⟨e, rfl⟩

end Persisted

/-! ### Calls -/

/-- A call for a snapshot, as an admission makes it: the device facts were recomputed and the snapshot
has not expired. -/
structure Call where
  snapshot : StepAdmissionSnapshot
  record : AuthorityPlanRecord
  admittedDevice : Sha256Digest
  now : UInt64
  fate : PermitFate
  admitted : admittedDevice.bytes = snapshot.admittedDeviceFactsSha256
  fresh : now < expiresAt snapshot

section Calls

variable (epoch : UInt64) (pairing : ControllerPairingSecret)

namespace Call

def answer (c : Call) : Exec PermitJournal StandaloneError SubmitStepPermitRequest :=
  loadOrCreatePermit c.fate epoch pairing c.snapshot c.record c.admittedDevice c.now
    (expiresAt c.snapshot)

/-- The permit the call makes if there is none on disk. -/
def creates (c : Call) : Except StandaloneError SubmitStepPermitRequest :=
  createPermit epoch pairing c.snapshot c.record c.admittedDevice c.now (expiresAt c.snapshot)

def path (c : Call) : String := permitPath epoch c.snapshot.requestId

/-- What the call leaves in its file if there is no such file yet. -/
def leaves (c : Call) : Option (List UInt8) :=
  match c.creates epoch pairing with
  | .error _ => none
  | .ok submission =>
    match c.fate with
    | .directoryFails _ | .createFails _ => none
    | .stops written _ => some ((encodePersistedPermit submission).take written)
    | .works | .readFails _ => some (encodePersistedPermit submission)

end Call

/-- The permits on disk after the calls, one after the other. -/
def journalAfter (calls : List Call) : PermitJournal :=
  calls.foldl (fun journal c => (c.answer epoch pairing journal).2) OrdMap.empty

/-- The first of the calls that left a file for the request. -/
def original (calls : List Call) (requestId : String) : Option Call :=
  calls.find? fun c =>
    decide (c.path epoch = permitPath epoch requestId) && (c.leaves epoch pairing).isSome

variable {epoch pairing} {c : Call}

theorem answer_eq_of_some {journal : PermitJournal} {persisted : List UInt8}
    (h : journal.get (c.path epoch) = some persisted) :
    c.answer epoch pairing journal = (match c.fate with
      | .directoryFails error => (.error error, journal)
      | .readFails error => (.error error, journal)
      | _ => (decodePersistedPermit c.snapshot epoch persisted, journal)) := by
  have hpath : journal.get (permitPath epoch c.snapshot.requestId) = _ := h
  unfold Call.answer loadOrCreatePermit
  rw [getState_bind, hpath]
  cases c.fate <;> rfl

theorem answer_of_some {journal : PermitJournal} {persisted : List UInt8}
    (h : journal.get (c.path epoch) = some persisted) :
    (c.answer epoch pairing journal).2 = journal ∧
      ∀ submission, (c.answer epoch pairing journal).1 = .ok submission →
        decodePersistedPermit c.snapshot epoch persisted = .ok submission := by
  rw [answer_eq_of_some h]
  cases c.fate with
  | directoryFails | readFails => exact ⟨rfl, nofun⟩
  | works | createFails | stops => exact ⟨rfl, fun _ h => h⟩

/-- A request whose file is not there is answered with a new permit. -/
theorem answer_eq_of_none {journal : PermitJournal}
    (h : journal.get (c.path epoch) = none) :
    c.answer epoch pairing journal = (match c.fate with
      | .directoryFails error => fail error
      | fate => do
        let submission ← lift (c.creates epoch pairing)
        commitPermit fate (c.path epoch) (encodePersistedPermit submission)
        return submission : Exec PermitJournal StandaloneError SubmitStepPermitRequest) journal := by
  have hpath : journal.get (permitPath epoch c.snapshot.requestId) = _ := h
  unfold Call.answer loadOrCreatePermit
  rw [getState_bind, hpath]
  cases c.fate <;> rfl

/-- What the files are then, and which permit is returned. -/
theorem answer_of_none {journal : PermitJournal}
    (h : journal.get (c.path epoch) = none) :
    (c.answer epoch pairing journal).2 = (match c.leaves epoch pairing with
      | none => journal
      | some bytes => journal.alter (c.path epoch) fun _ => bytes) ∧
    ∀ submission, (c.answer epoch pairing journal).1 = .ok submission →
      c.creates epoch pairing = .ok submission := by
  rw [answer_eq_of_none h]
  unfold Call.leaves
  cases hcreates : c.creates epoch pairing with
  | error e => cases c.fate <;> exact ⟨rfl, nofun⟩
  | ok submission =>
    cases c.fate with
    | directoryFails | createFails | stops => exact ⟨rfl, nofun⟩
    | works | readFails => exact ⟨rfl, fun _ h => h⟩

/-- A call leaves the files as they are, but for its own if that is not there. -/
theorem get_answer (c : Call) (journal : PermitJournal) (path : String) :
    (c.answer epoch pairing journal).2.get path =
      (journal.get path).or (if c.path epoch = path then c.leaves epoch pairing else none) := by
  rcases hget : journal.get (c.path epoch) with _ | persisted
  · rw [(answer_of_none hget).1]
    cases hleaves : c.leaves epoch pairing with
    | none => simp
    | some bytes =>
      rw [OrdMap.get_alter]
      by_cases hpath : c.path epoch = path
      · simp [← hpath, hget]
      · simp [hpath, Ne.symm hpath]
  · rw [(answer_of_some hget).1]
    by_cases hpath : c.path epoch = path
    · simp [← hpath, hget]
    · simp [hpath]

/-- **A file holds what the first call for it left.** -/
theorem get_journalAfter (calls : List Call) (requestId : String) :
    (journalAfter epoch pairing calls).get (permitPath epoch requestId) =
      (original epoch pairing calls requestId).bind (Call.leaves epoch pairing) := by
  induction calls using List.reverseRecOn with
  | nil => rfl
  | append_singleton calls c ih =>
    have hstep : journalAfter epoch pairing (calls ++ [c]) =
        (c.answer epoch pairing (journalAfter epoch pairing calls)).2 := by
      rw [journalAfter, List.foldl_append]
      rfl
    rw [hstep, get_answer, ih, original, original, List.find?_append]
    cases hfind : calls.find? fun c =>
      decide (c.path epoch = permitPath epoch requestId) && (c.leaves epoch pairing).isSome with
    | some first =>
      have hleft := List.find?_some hfind
      simp only [Bool.and_eq_true, Option.isSome_iff_exists] at hleft
      obtain ⟨bytes, hbytes⟩ := hleft.2
      simp [hbytes]
    | none =>
      by_cases hpath : c.path epoch = permitPath epoch requestId
      · cases hleaves : c.leaves epoch pairing with
        | none => simp [hleaves]
        | some bytes => simp [hpath, hleaves]
      · simp [hpath]

/-- A file that reads as a permit holds the whole permit of the call that left it. -/
theorem permit_of_leaves {first : Call} {bytes : List UInt8} (snapshot : StepAdmissionSnapshot)
    (hleaves : first.leaves epoch pairing = some bytes)
    (h : decodePersistedPermit snapshot epoch bytes = .ok submission) :
    ∃ permit, PermitsStep permit first.snapshot ∧
      permit.expiresAtEpochMs = expiresAt first.snapshot ∧
      StepPermit.fromCanonicalBytes submission.permitCbor = .ok (withoutTag permit) := by
  unfold Call.leaves at hleaves
  cases hcreates : first.creates epoch pairing with
  | error e =>
    rw [hcreates] at hleaves
    cases hleaves
  | ok created =>
    rw [hcreates] at hleaves
    obtain ⟨permit, hdraft, hcarries⟩ := carries_of_create hcreates
    obtain ⟨hstep, hexpires⟩ := permitsStep_of_draft first.admitted hdraft
    refine ⟨permit, hstep, hexpires, ?_⟩
    have hwhole : decodePersistedPermit snapshot epoch (encodePersistedPermit created) =
        .ok submission → StepPermit.fromCanonicalBytes submission.permitCbor =
          .ok (withoutTag permit) := by
      intro h
      rw [decode_encode hcarries] at h
      obtain rfl := Except.ok.inj h
      exact hcarries.reads
    cases hfate : first.fate with
    | directoryFails | createFails =>
      rw [hfate] at hleaves
      cases hleaves
    | works | readFails =>
      rw [hfate] at hleaves
      cases hleaves
      exact hwhole h
    | stops written =>
      rw [hfate] at hleaves
      cases hleaves
      rcases Nat.lt_or_ge written (encodePersistedPermit created).length with hlt | hge
      · obtain ⟨e, he⟩ := decode_take hcarries snapshot hlt
        rw [he] at h
        cases h
      · rw [List.take_of_length_le hge] at h
        exact hwhole h

def Answers (submission : SubmitStepPermitRequest) (snapshot : StepAdmissionSnapshot) (now : UInt64) :
    Prop :=
  ∃ permit, StepPermit.fromCanonicalBytes submission.permitCbor = .ok permit ∧
    PermitsStep permit snapshot ∧ now < permit.expiresAtEpochMs

/-- The two snapshots are about one step, on one device. -/
structure SameStep (a b : StepAdmissionSnapshot) : Prop where
  planSha256 : a.planSha256 = b.planSha256
  stepId : a.stepId = b.stepId
  attemptId : a.attemptId = b.attemptId
  publicStepSha256 : a.publicStepSha256 = b.publicStepSha256
  privateActionSha256 : a.privateActionSha256 = b.privateActionSha256
  effectSetSha256 : a.effectSetSha256 = b.effectSetSha256
  admittedDeviceFactsSha256 : a.admittedDeviceFactsSha256 = b.admittedDeviceFactsSha256

/-- A permit for one snapshot is for another exactly if they are about the same step. -/
theorem PermitsStep.iff_sameStep {a b : StepAdmissionSnapshot}
    (h : PermitsStep permit a) : PermitsStep permit b ↔ SameStep a b := by
  constructor
  · intro h'
    exact ⟨h.1.symm.trans h'.1, h.2.symm.trans h'.2, h.3.symm.trans h'.3, h.4.symm.trans h'.4,
      h.5.symm.trans h'.5, h.6.symm.trans h'.6, h.7.symm.trans h'.7⟩
  · intro hsame
    exact ⟨h.1.trans hsame.1, h.2.trans hsame.2, h.3.trans hsame.3, h.4.trans hsame.4,
      h.5.trans hsame.5, h.6.trans hsame.6, h.7.trans hsame.7⟩

/-- What a submission answers if its permit was made for the first snapshot. -/
theorem answers_iff_sameStep
    {first : StepAdmissionSnapshot} {now : UInt64} (hstep : PermitsStep permit first)
    (hexpires : permit.expiresAtEpochMs = expiresAt first)
    (hreads : StepPermit.fromCanonicalBytes submission.permitCbor = .ok (withoutTag permit)) :
    Answers submission snapshot now ↔ SameStep first snapshot ∧ now < expiresAt first := by
  have hplain : PermitsStep (withoutTag permit) first := ⟨hstep.1, hstep.2, hstep.3, hstep.4,
    hstep.5, hstep.6, hstep.7⟩
  constructor
  · rintro ⟨p, hp, hpermits, hnow⟩
    rw [hreads] at hp
    obtain rfl := Except.ok.inj hp
    exact ⟨hplain.iff_sameStep.mp hpermits, hexpires ▸ hnow⟩
  · rintro ⟨hsame, hnow⟩
    refine ⟨_, hreads, hplain.iff_sameStep.mpr hsame, ?_⟩
    show now < permit.expiresAtEpochMs
    rw [hexpires]
    exact hnow

/-- **What a request that is asked again is answered with.** After any calls of one epoch, a call that
returns a permit returns one for the step of its snapshot that has not expired, exactly if the first
call that left a file for the request was about the same step and its snapshot has not expired: the
permit is made for that snapshot, once and for all. -/
theorem reasked_answered_iff (epoch : UInt64) (pairing : ControllerPairingSecret)
    (calls : List Call) (call : Call) (submission : SubmitStepPermitRequest)
    (journal : PermitJournal)
    (h : call.answer epoch pairing (journalAfter epoch pairing calls) = (.ok submission, journal)) :
    Answers submission call.snapshot call.now ↔
      ∀ first, original epoch pairing calls call.snapshot.requestId = some first →
        SameStep first.snapshot call.snapshot ∧ call.now < expiresAt first.snapshot := by
  have hget := @get_journalAfter epoch pairing calls call.snapshot.requestId
  have hok : (call.answer epoch pairing (journalAfter epoch pairing calls)).1 = .ok submission := by
    rw [h]
  cases horiginal : original epoch pairing calls call.snapshot.requestId with
  | none =>
    rw [horiginal] at hget
    obtain ⟨permit, hdraft, hcarries⟩ := carries_of_create ((answer_of_none hget).2 submission hok)
    obtain ⟨hstep, hexpires⟩ := permitsStep_of_draft call.admitted hdraft
    rw [answers_iff_sameStep hstep hexpires hcarries.reads]
    constructor
    · rintro - first ⟨⟩
    · exact fun _ => ⟨⟨rfl, rfl, rfl, rfl, rfl, rfl, rfl⟩, call.fresh⟩
  | some first =>
    rw [horiginal] at hget
    have hleft := List.find?_some horiginal
    simp only [Bool.and_eq_true, Option.isSome_iff_exists] at hleft
    obtain ⟨bytes, hbytes⟩ := hleft.2
    rw [Option.bind_some, hbytes] at hget
    obtain ⟨permit, hstep, hexpires, hreads⟩ :=
      permit_of_leaves call.snapshot hbytes ((answer_of_some hget).2 submission hok)
    rw [answers_iff_sameStep hstep hexpires hreads]
    constructor
    · rintro hsame _ ⟨⟩
      exact hsame
    · exact fun h => h first rfl

end Calls

/-! ### A request that outlives its snapshot -/

def zeroDigest : Sha256Digest := ⟨List.replicate 32 0, Authority.PermitBytes.length_zeros⟩

def sampleSnapshot (observedAt : UInt64) : StepAdmissionSnapshot where
  jobId := "JOB-1"
  planId := "PLAN-1"
  planSha256 := zeroDigest.bytes
  stepId := "STEP-1"
  attemptId := "ATTEMPT-1"
  publicStepSha256 := zeroDigest.bytes
  privateActionSha256 := zeroDigest.bytes
  effectSetSha256 := zeroDigest.bytes
  admittedDeviceFactsSha256 := zeroDigest.bytes
  observedMode := "loader"
  observedAtEpochMs := observedAt
  snapshotLifetimeMs := 60000
  requestId := "JOB-1-1"
  topologySha256 := zeroDigest.bytes
  descriptorSha256 := zeroDigest.bytes
  serialSha256 := []
  serialEvidenceKind := "absent"
  protocolIdentity := []
  identityStrength := "classOnly"
  malformedDescriptor := false
  transportSessionSha256 := zeroDigest.bytes

def sampleRecord : AuthorityPlanRecord where
  plan := ⟨"PLAN-1", zeroDigest.toHex, []⟩
  bindingId := "BINDING-1"
  stableIdentitySha256 := zeroDigest.bytes
  deviceId := "DEVICE-1"
  profileId := "PROFILE-1"
  supersedesJobId := ""
  topologySha256 := zeroDigest.toHex
  toolchainId := "TOOLCHAIN-1"

def firstAsked : Call where
  snapshot := sampleSnapshot 1000
  record := sampleRecord
  admittedDevice := zeroDigest
  now := 1001
  fate := .works
  admitted := rfl
  fresh := by decide

/-- The daemon has dropped the first snapshot, and shows the device again under the same request. -/
def askedAgain : Call where
  snapshot := sampleSnapshot 100000
  record := sampleRecord
  admittedDevice := zeroDigest
  now := 100001
  fate := .works
  admitted := rfl
  fresh := by decide

/-- The request is asked again while the first snapshot is fresh. -/
def askedSoon : Call where
  snapshot := sampleSnapshot 1000
  record := sampleRecord
  admittedDevice := zeroDigest
  now := 2000
  fate := .works
  admitted := rfl
  fresh := by decide

def samplePairing : ControllerPairingSecret := ⟨1, []⟩

theorem conforming_samplePermit : Conforming (permitIdText 1 "JOB-1-1") := by decide +kernel

/-- The first call leaves its permit, and the next one returns it. -/
theorem exists_replayed (call : Call) (hfate : call.fate = .works)
    (hrequest : call.snapshot.requestId = "JOB-1-1") : ∃ submission permit journal,
    call.answer 1 samplePairing (journalAfter 1 samplePairing [firstAsked]) =
      (.ok submission, journal) ∧ PermitsStep permit firstAsked.snapshot ∧
      permit.expiresAtEpochMs = expiresAt firstAsked.snapshot ∧
      StepPermit.fromCanonicalBytes submission.permitCbor = .ok (withoutTag permit) := by
  obtain ⟨permit, hdraft⟩ : ∃ permit, draftStepPermit 1 (sampleSnapshot 1000) sampleRecord
      zeroDigest 1001 (expiresAt (sampleSnapshot 1000)) = .ok permit :=
    exists_draft (show zeroDigest.bytes = _ from rfl) rfl conforming_samplePermit (by decide)
      (by decide) (by decide) (by decide) (by decide) (by decide) (by decide) (by decide) (by decide)
      (by decide)
  obtain ⟨created, hcreates⟩ : ∃ created, firstAsked.creates 1 samplePairing = .ok created :=
    create_of_draft hdraft samplePairing
  obtain ⟨permit, hdraft, hcarries⟩ := carries_of_create hcreates
  obtain ⟨hstep, hexpires⟩ := permitsStep_of_draft firstAsked.admitted hdraft
  have hleaves : firstAsked.leaves 1 samplePairing = some (encodePersistedPermit created) := by
    unfold Call.leaves
    rw [hcreates]
    rfl
  have hpath : firstAsked.path 1 = permitPath 1 "JOB-1-1" := rfl
  have hfind : original 1 samplePairing [firstAsked] "JOB-1-1" = some firstAsked := by
    refine List.find?_cons_of_pos ?_
    rw [hleaves, hpath]
    simp
  have hget : (journalAfter 1 samplePairing [firstAsked]).get (call.path 1) =
      some (encodePersistedPermit created) := by
    rw [Call.path, hrequest, get_journalAfter, hfind]
    exact hleaves
  have hanswer := @answer_eq_of_some 1 samplePairing call _ _ hget
  rw [hfate, decode_encode hcarries] at hanswer
  exact ⟨_, permit, _, hanswer, hstep, hexpires, hcarries.reads⟩

theorem reasked_answered_iff_soon : ∃ submission journal,
    askedSoon.answer 1 samplePairing (journalAfter 1 samplePairing [firstAsked]) =
      (.ok submission, journal) ∧
    (Answers submission askedSoon.snapshot askedSoon.now ↔
      ∀ first, original 1 samplePairing [firstAsked] "JOB-1-1" = some first →
        SameStep first.snapshot askedSoon.snapshot ∧
          askedSoon.now < expiresAt first.snapshot) := by
  obtain ⟨submission, permit, journal, h, -⟩ := exists_replayed askedSoon rfl rfl
  exact ⟨submission, journal, h,
    reasked_answered_iff 1 samplePairing [firstAsked] askedSoon submission journal h⟩

/-- The request is asked again after its first snapshot has expired. The call succeeds with the permit
of the first snapshot, which has expired: it verifies for no dispatch at that time, under any tag. -/
theorem stale_permit_replayed : ∃ submission permit journal,
    askedAgain.answer 1 samplePairing (journalAfter 1 samplePairing [firstAsked]) =
      (.ok submission, journal) ∧
    StepPermit.fromCanonicalBytes submission.permitCbor = .ok permit ∧
    ¬ Answers submission askedAgain.snapshot askedAgain.now ∧
    ∀ tag secret (intent : DispatchIntent) consumed v, intent.nowEpochMs = askedAgain.now →
      verifyPermit { permit with integrityTag := tag } secret intent consumed ≠ .ok v := by
  obtain ⟨submission, permit, journal, h, hstep, hexpires, hreads⟩ :=
    exists_replayed askedAgain rfl rfl
  have hexpired : ¬ askedAgain.now < expiresAt firstAsked.snapshot := by decide
  refine ⟨submission, withoutTag permit, journal, h, hreads, ?_, ?_⟩
  · rw [answers_iff_sameStep hstep hexpires hreads]
    exact fun h => hexpired h.2
  · intro tag secret intent consumed v hnow hverified
    have hlt := (verifyPermit_ok hverified).2.1
    rw [hnow] at hlt
    exact hexpired (hexpires ▸ hlt)

end ArkForge.Standalone.PermitReplay
