import ArkForge.Transport.Rebind

/-! # One session, one port

A session is opened for one observed device and reads its identity again and again. Each reading
replaces the observation of the session and is only compared with the port of the one before, so the
session follows the port. It follows the device as long as nothing else is attached there. -/

namespace ArkForge.Transport.Session

open Core.Cbor Core.Digest Core.Ids Core.Effect
open Observation Rebind

inductive TransportError where
  | noDevice
  | ambiguous (count : ℕ)
  | closed
  | unsupported (detail : String)
  | evidence (detail : String)
  | cbor (error : CborError)

/-- What the operating system answers when it is asked for the attached devices. -/
abbrev Enumeration := Except TransportError (List UsbDeviceRecord)

structure UsbObservationSession where
  sessionDigest : Sha256Digest
  observation : DeviceObservation
  identities : List (UInt16 × UInt16 × DeviceMode)
  profileId : OpaqueId
  detached : Bool

def transportSessionDigest (o : DeviceObservation) : Sha256Digest :=
  digestInDomain .transportSession (o.descriptorDigest.bytes ++ o.topologyDigest.bytes)

/-- Confirms that the device is still there, and starts a session over it. -/
def openExact (identities : List (UInt16 × UInt16 × DeviceMode)) (profileId : OpaqueId)
    (attached : Enumeration) (observation : DeviceObservation) :
    Except TransportError UsbObservationSession := do
  let records ← attached
  match (records.filterMap fun record => observeRecord identities profileId record
    observation.observedAtEpochMs).find? fun candidate =>
      candidate.descriptorDigest = observation.descriptorDigest ∧
        candidate.topologyDigest = observation.topologyDigest with
  | some observation =>
    return ⟨transportSessionDigest observation, observation, identities, profileId, false⟩
  | none => .error .noDevice

namespace UsbObservationSession

/-- The devices at the port of the session that the profile has an identity for. -/
def atSameTopology (session : UsbObservationSession) (records : List UsbDeviceRecord) (now : UInt64) :
    List DeviceObservation :=
  (records.filter fun record => record.topologyDigest = session.observation.topologyDigest).filterMap
    fun record => observeRecord session.identities session.profileId record now

def rereadIdentity (session : UsbObservationSession) (attached : Enumeration) (now : UInt64) :
    Except TransportError DeviceObservation × UsbObservationSession :=
  match attached with
  | .error e => (.error e, session)
  | .ok records =>
    match session.atSameTopology records now with
    | [] => (.error .noDevice, { session with detached := true })
    | [observation] => (.ok observation, { session with observation })
    | _ => (.error (.ambiguous 2), { session with detached := true })

def sawDetach (session : UsbObservationSession) : Bool := session.detached

/-- The session after it was read again, at these times. -/
def rereads (session : UsbObservationSession) (sweeps : List (Enumeration × UInt64)) :
    UsbObservationSession :=
  sweeps.foldl (fun session sweep => (session.rereadIdentity sweep.1 sweep.2).2) session

end UsbObservationSession

/-! ### What a session follows -/

/-- The observation is of the device of `o`, as far as its port, descriptor and serial show. -/
structure Follows (o x : DeviceObservation) : Prop where
  topology : x.topologyDigest = o.topologyDigest
  descriptor : x.descriptorDigest = o.descriptorDigest
  serial : x.serialEvidence = o.serialEvidence

/-- Whatever is attached at the port of `o` has its descriptor and its serial. -/
def Unreplaced (o : DeviceObservation) (attached : Enumeration) : Prop :=
  ∀ records, attached = .ok records → ∀ r ∈ records, r.topologyDigest = o.topologyDigest →
    r.descriptorDigest = o.descriptorDigest ∧ r.serialEvidence = o.serialEvidence

/-- The devices are read, and there is not exactly one at the port of `o` that the profile has an
identity for. -/
def Misses (identities : List (UInt16 × UInt16 × DeviceMode)) (profileId : OpaqueId)
    (o : DeviceObservation) (sweep : Enumeration × UInt64) : Prop :=
  ∃ records, sweep.1 = .ok records ∧
    ((records.filter fun record => record.topologyDigest = o.topologyDigest).filterMap
      fun record => observeRecord identities profileId record sweep.2).length ≠ 1

variable {session : UsbObservationSession} {attached : Enumeration} {now : UInt64}
  {o x : DeviceObservation}

/-- What one reading does: it returns the observation of a record at the port and keeps it, or it
returns none and keeps the old one. -/
theorem rereadIdentity_cases :
    (∃ records r x, attached = .ok records ∧ r ∈ records ∧
      r.topologyDigest = session.observation.topologyDigest ∧
      observeRecord session.identities session.profileId r now = some x ∧
      session.rereadIdentity attached now = (.ok x, { session with observation := x })) ∨
    ∃ e detached, session.rereadIdentity attached now = (.error e, { session with detached }) := by
  unfold UsbObservationSession.rereadIdentity
  cases attached with
  | error e => exact .inr ⟨e, _, rfl⟩
  | ok records =>
    dsimp only
    split
    · exact .inr ⟨_, _, rfl⟩
    next x hone =>
      have hx : x ∈ session.atSameTopology records now := by simp [hone]
      obtain ⟨r, hr, hobserved⟩ := List.mem_filterMap.mp hx
      obtain ⟨hr, hport⟩ := List.mem_filter.mp hr
      exact .inl ⟨records, r, x, rfl, hr, of_decide_eq_true hport, hobserved, rfl⟩
    · exact .inr ⟨_, _, rfl⟩

theorem identities_reread (attached : Enumeration) (now : UInt64) :
    (session.rereadIdentity attached now).2.identities = session.identities ∧
      (session.rereadIdentity attached now).2.profileId = session.profileId := by
  obtain ⟨_, _, x, -, -, -, -, heq⟩ | ⟨_, _, heq⟩ := @rereadIdentity_cases session attached now
  · rw [heq]
    exact ⟨rfl, rfl⟩
  · rw [heq]
    exact ⟨rfl, rfl⟩

theorem identities_rereads (sweeps : List (Enumeration × UInt64)) :
    (session.rereads sweeps).identities = session.identities ∧
      (session.rereads sweeps).profileId = session.profileId := by
  induction sweeps generalizing session with
  | nil => exact ⟨rfl, rfl⟩
  | cons sweep sweeps ih =>
    obtain ⟨hidentities, hprofile⟩ := @identities_reread session sweep.1 sweep.2
    exact ⟨ih.1.trans hidentities, ih.2.trans hprofile⟩

/-- A reading sees a detach when it misses the device. -/
theorem sawDetach_reread (hport : session.observation.topologyDigest = o.topologyDigest) :
    (session.rereadIdentity attached now).2.sawDetach = true ↔
      session.sawDetach = true ∨ Misses session.identities session.profileId o (attached, now) := by
  unfold UsbObservationSession.rereadIdentity UsbObservationSession.sawDetach Misses
  cases attached with
  | error e => simp
  | ok records =>
    rw [← hport]
    change _ ↔ _ ∨ ∃ records', Except.ok records = .ok records' ∧
      (session.atSameTopology records' now).length ≠ 1
    simp only [Except.ok.injEq, exists_eq_left']
    rcases session.atSameTopology records now with _ | ⟨x, _ | ⟨x', rest⟩⟩ <;> simp

/-- The session is that of the device of `o`, and reads at its port. -/
structure AtPort (o : DeviceObservation) (session : UsbObservationSession) : Prop where
  digest : session.sessionDigest = transportSessionDigest o
  topology : session.observation.topologyDigest = o.topologyDigest

theorem AtPort.reread (h : AtPort o session) (attached : Enumeration) (now : UInt64) :
    AtPort o (session.rereadIdentity attached now).2 := by
  obtain ⟨_, _, x, -, -, hport, hx, heq⟩ | ⟨_, _, heq⟩ := @rereadIdentity_cases session attached now
  · rw [heq]
    exact ⟨h.digest, (observeRecord_eq_some hx).2.1.trans (hport.trans h.topology)⟩
  · rw [heq]
    exact ⟨h.digest, h.topology⟩

theorem AtPort.rereads (h : AtPort o session) (sweeps : List (Enumeration × UInt64)) :
    AtPort o (session.rereads sweeps) := by
  induction sweeps generalizing session with
  | nil => exact h
  | cons sweep sweeps ih => exact ih (h.reread sweep.1 sweep.2)

/-- The session has seen a detach exactly when one of the readings missed the device. -/
theorem AtPort.sawDetach_rereads (h : AtPort o session) (sweeps : List (Enumeration × UInt64)) :
    (session.rereads sweeps).sawDetach = true ↔ session.sawDetach = true ∨
      ∃ sweep ∈ sweeps, Misses session.identities session.profileId o sweep := by
  induction sweeps generalizing session with
  | nil => simp [UsbObservationSession.rereads]
  | cons sweep sweeps ih =>
    obtain ⟨hidentities, hprofile⟩ := @identities_reread session sweep.1 sweep.2
    have hrest := ih (h.reread sweep.1 sweep.2)
    rw [sawDetach_reread h.topology, hidentities, hprofile, or_assoc] at hrest
    rw [List.exists_mem_cons_iff]
    exact hrest

theorem atPort_openExact {identities : List (UInt16 × UInt16 × DeviceMode)} {profileId : OpaqueId}
    (h : openExact identities profileId attached o = .ok session) :
    AtPort o session ∧ session.identities = identities ∧ session.profileId = profileId ∧
      session.sawDetach = false := by
  obtain ⟨records, -, h⟩ := Lib.Result.bind_eq_ok.mp h
  split at h
  next x hfind =>
    obtain rfl := Except.ok.inj h
    have hsame := List.find?_some hfind
    obtain ⟨hdescriptor, htopology⟩ := of_decide_eq_true hsame
    refine ⟨⟨?_, htopology⟩, rfl, rfl, rfl⟩
    unfold transportSessionDigest
    rw [hdescriptor, htopology]
  · cases h

/-- **What a session follows.** After any readings its digest is the one of the device it was opened
for, and what it reads next is at the port of that device. It has seen a detach exactly when a reading
did not find one device at the port. If nothing else is attached there, what it reads has the
descriptor and the serial of the device, and the digest is the one of what it reads. -/
theorem session_follows_port {identities : List (UInt16 × UInt16 × DeviceMode)} {profileId : OpaqueId}
    (hopen : openExact identities profileId attached o = .ok session)
    (sweeps : List (Enumeration × UInt64)) {next : Enumeration}
    (h : ((session.rereads sweeps).rereadIdentity next now).1 = .ok x) :
    (session.rereads sweeps).sessionDigest = transportSessionDigest o ∧
    x.topologyDigest = o.topologyDigest ∧
    ((session.rereads sweeps).sawDetach = true ↔
      ∃ sweep ∈ sweeps, Misses identities profileId o sweep) ∧
    (Unreplaced o next →
      Follows o x ∧ (session.rereads sweeps).sessionDigest = transportSessionDigest x) := by
  obtain ⟨hopened, rfl, rfl, hfresh⟩ := atPort_openExact hopen
  have hport := hopened.rereads sweeps
  have hdetach := hopened.sawDetach_rereads sweeps
  rw [hfresh, Bool.false_eq_true, false_or] at hdetach
  obtain ⟨records, r, x', hnext, hr, hsame, hx', heq⟩ | ⟨_, _, heq⟩ :=
    @rereadIdentity_cases (session.rereads sweeps) next now
  · rw [heq] at h
    obtain rfl := Except.ok.inj h
    obtain ⟨-, htopology, hdescriptor, hserial, -⟩ := observeRecord_eq_some hx'
    have hthere := hsame.trans hport.topology
    refine ⟨hport.digest, htopology.trans hthere, hdetach, fun hnone => ?_⟩
    obtain ⟨hdescriptor', hserial'⟩ := hnone records hnext r hr hthere
    have hfollows : Follows o x' :=
      ⟨htopology.trans hthere, hdescriptor.trans hdescriptor', hserial.trans hserial'⟩
    refine ⟨hfollows, hport.digest.trans ?_⟩
    unfold transportSessionDigest
    rw [hfollows.descriptor, hfollows.topology]
  · rw [heq] at h
    cases h

/-! ### A board that is replaced -/

/-- Another device, at the port of the board. -/
def otherBoard : UsbDeviceRecord := { board 1 "B" with productName := some "Other" }

theorem exists_session : ∃ o session,
    observeRecord boardIdentities boardProfile (board 1 "A") 0 = some o ∧
    openExact boardIdentities boardProfile (.ok [board 1 "A"]) o = .ok session := by
  obtain ⟨o, ho⟩ := Option.isSome_iff_exists.mp
    (show (observeRecord boardIdentities boardProfile (board 1 "A") 0).isSome by decide +kernel)
  obtain ⟨-, -, -, -, -, htime⟩ := observeRecord_eq_some ho
  refine ⟨o, ⟨transportSessionDigest o, o, boardIdentities, boardProfile, false⟩, ho, ?_⟩
  unfold openExact
  simp [htime, ho]
  rfl

/-- What it reads when one device is attached at the port. -/
theorem rereadIdentity_one {r : UsbDeviceRecord}
    (hport : r.topologyDigest = session.observation.topologyDigest)
    (hx : observeRecord session.identities session.profileId r now = some x) :
    session.rereadIdentity (.ok [r]) now = (.ok x, { session with observation := x }) := by
  simp [UsbObservationSession.rereadIdentity, UsbObservationSession.atSameTopology, hport, hx]

/-- The board is read, is away for one reading and comes back: the session follows it, and has seen
the detach. -/
theorem session_follows_board : ∃ o session x,
    openExact boardIdentities boardProfile (.ok [board 1 "A"]) o = .ok session ∧
    ((session.rereads [(.ok [board 1 "A"], 1), (.ok [], 2)]).rereadIdentity
      (.ok [board 1 "A"]) 3).1 = .ok x ∧
    (session.rereads [(.ok [board 1 "A"], 1), (.ok [], 2)]).sawDetach = true ∧ Follows o x := by
  obtain ⟨o, session, ho, hopen⟩ := exists_session
  obtain ⟨x, hx⟩ := Option.isSome_iff_exists.mp
    (show (observeRecord boardIdentities boardProfile (board 1 "A") 3).isSome by decide +kernel)
  obtain ⟨-, htopology, hdescriptor, hserial, -⟩ := observeRecord_eq_some ho
  obtain ⟨hopened, hidentities, hprofile, -⟩ := atPort_openExact hopen
  set sweeps : List (Enumeration × UInt64) := [(.ok [board 1 "A"], 1), (.ok [], 2)] with hsweeps
  obtain ⟨hidentities', hprofile'⟩ := @identities_rereads session sweeps
  rw [← hidentities, ← hprofile, ← hidentities', ← hprofile'] at hx
  have hread := congrArg Prod.fst
    (rereadIdentity_one ((hopened.rereads sweeps).topology.trans htopology).symm hx)
  obtain ⟨-, -, hdetach, hfollows⟩ := session_follows_port hopen sweeps hread
  refine ⟨o, session, x, hopen, hread, hdetach.mpr ?_, (hfollows ?_).1⟩
  · exact ⟨(.ok [], 2), by simp [hsweeps], [], rfl, by simp⟩
  · rintro _ ⟨⟩ r hr -
    rw [List.mem_singleton.mp hr, hdescriptor, hserial]
    exact ⟨rfl, rfl⟩

/-- The board is unplugged and another device is plugged in at its port. The session reads it, sees no
detach, and its digest is not the one of what it has read. -/
theorem replaced_board_followed : ∃ o session x,
    openExact boardIdentities boardProfile (.ok [board 1 "A"]) o = .ok session ∧
    (session.rereadIdentity (.ok [otherBoard]) 1).1 = .ok x ∧
    (session.rereadIdentity (.ok [otherBoard]) 1).2.sawDetach = false ∧
    x.serialEvidence ≠ o.serialEvidence ∧ session.sessionDigest ≠ transportSessionDigest x := by
  obtain ⟨o, session, ho, hopen⟩ := exists_session
  obtain ⟨x, hx⟩ := Option.isSome_iff_exists.mp
    (show (observeRecord boardIdentities boardProfile otherBoard 1).isSome by decide +kernel)
  obtain ⟨-, hot, hod, hos, -⟩ := observeRecord_eq_some ho
  obtain ⟨-, hxt, hxd, hxs, -⟩ := observeRecord_eq_some hx
  obtain ⟨hopened, hidentities, hprofile, hfresh⟩ := atPort_openExact hopen
  rw [← hidentities, ← hprofile] at hx
  have hread := rereadIdentity_one (show otherBoard.topologyDigest = _ from
    (hopened.topology.trans hot).symm) hx
  refine ⟨o, session, x, hopen, congrArg Prod.fst hread, ?_, ?_, ?_⟩
  · rw [hread]
    exact hfresh
  · rw [hos, hxs]
    decide +kernel
  · rw [hopened.digest, transportSessionDigest, transportSessionDigest, hot, hod, hxt, hxd]
    decide +kernel

end ArkForge.Transport.Session
