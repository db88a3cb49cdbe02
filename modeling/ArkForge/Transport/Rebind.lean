import ArkForge.Core.Profile
import ArkForge.Transport.Observation

/-! # Finding a device again

After a change of mode the device is looked for among the observations of one sweep over the bus.
`evaluateRebind` settles on the first stable observation in the expected mode if every other one has
the same descriptor digest. That digest says nothing of the port and the serial. -/

namespace ArkForge.Transport.Rebind

open Lib.Bytes
open Core.Cbor Core.Digest Core.Ids Core.Effect
open Core.Profile
open Observation

/-! ### The decision -/

inductive SerialPolicy where
  | mustMatch
  | mayChange
  deriving DecidableEq

inductive TopologyPolicy where
  | mustMatch
  | mayChange
  deriving DecidableEq

/-- What a rebind must produce for the operation to continue. -/
structure RebindExpectation where
  toMode : DeviceMode
  /-- Mode names that count as `toMode`. -/
  toModeAliases : List DeviceMode
  serialPolicy : SerialPolicy
  topologyPolicy : TopologyPolicy
  identityStrengthFloor : IdentityEvidenceStrength
  tolerance : RebindTolerance

inductive RebindOutcome where
  | settled (observation : DeviceObservation)
  | noCandidate
  | ambiguous (count : ℕ)
  | identityWeakened (before after : IdentityEvidenceStrength)
  | serialChanged
  | topologyChanged
  | expectedModeNotReached (observed : Option DeviceMode)
  | toleranceWindowExhausted (transientObservations : ℕ)

def rank : IdentityEvidenceStrength → ℕ
  | .classOnly => 0
  | .serialAsserted => 1
  | .serialAndTopology => 2
  | .protocolConfirmed => 3

def serialDigest : SerialEvidence → Option Sha256Digest
  | .absent => none
  | .descriptor digest => some digest
  | .protocolUnique digest => some digest

/-- A stable observation in the mode or one of its aliases. -/
def Candidate (toMode : DeviceMode) (aliases : List DeviceMode) (o : DeviceObservation) : Prop :=
  o.malformedDescriptor = false ∧ (o.mode = toMode ∨ o.mode ∈ aliases)

instance (toMode : DeviceMode) (aliases : List DeviceMode) (o : DeviceObservation) :
    Decidable (Candidate toMode aliases o) := inferInstanceAs (Decidable (_ ∧ _))

/-- The candidates with another descriptor. -/
def others (e : RebindExpectation) (observations : List DeviceObservation) (o : DeviceObservation) :
    List DeviceObservation :=
  (observations.filter (Candidate e.toMode e.toModeAliases ·)).filter
    (·.descriptorDigest ≠ o.descriptorDigest)

/-- The identity rules for the first candidate, and whether another one is in the way. -/
def settle (e : RebindExpectation) (previous : DeviceObservation)
    (observations : List DeviceObservation) (o : DeviceObservation) : RebindOutcome :=
  if rank o.identityStrength < rank e.identityStrengthFloor ∨
      rank o.identityStrength < rank previous.identityStrength then
    .identityWeakened previous.identityStrength o.identityStrength
  else if e.serialPolicy = .mustMatch ∧
      serialDigest o.serialEvidence ≠ serialDigest previous.serialEvidence then .serialChanged
  else if e.topologyPolicy = .mustMatch ∧ o.topologyDigest ≠ previous.topologyDigest then
    .topologyChanged
  else if 0 < (others e observations o).length then .ambiguous ((others e observations o).length + 1)
  else .settled o

def evaluateFrom (e : RebindExpectation) (previous : DeviceObservation)
    (observations : List DeviceObservation) (transient : ℕ) (windowStart : Option UInt64) :
    List DeviceObservation → RebindOutcome
  | [] => if 0 < transient then .toleranceWindowExhausted transient else .noCandidate
  | o :: rest =>
    let start := windowStart.getD o.observedAtEpochMs
    let inWindow := o.observedAtEpochMs.toNat - start.toNat ≤ e.tolerance.toleranceWindowMs.toNat
    if o.malformedDescriptor then
      if e.tolerance.tolerateTransientMalformed ∧ inWindow then
        evaluateFrom e previous observations (transient + 1) (some start) rest
      else .toleranceWindowExhausted transient
    else if ¬ (o.mode = e.toMode ∨ o.mode ∈ e.toModeAliases) then
      if inWindow then evaluateFrom e previous observations (transient + 1) (some start) rest
      else .expectedModeNotReached (some o.mode)
    else settle e previous observations o

def evaluateRebind (e : RebindExpectation) (previous : DeviceObservation)
    (observations : List DeviceObservation) : RebindOutcome :=
  evaluateFrom e previous observations 0 none observations

/-! ### The USB transport -/

/-- One USB device as the operating system describes it. -/
structure UsbDeviceRecord where
  vendorId : UInt16
  productId : UInt16
  /-- The port path. -/
  locationId : UInt32
  serial : Option String
  productName : Option String
  vendorName : Option String
  bcdDevice : Option UInt16

namespace UsbDeviceRecord

variable (record : UsbDeviceRecord)

def topologyDigest : Sha256Digest := digestInDomain .usbTopology (beBytes 4 record.locationId.toNat)

/-- The descriptor without the serial, which may change between modes. -/
def descriptorDigest : Sha256Digest := digestInDomain .usbDescriptor
  (beBytes 2 record.vendorId.toNat ++ beBytes 2 record.productId.toNat ++
    beBytes 2 (record.bcdDevice.getD 0).toNat ++ 0 :: utf8 (record.vendorName.getD "") ++
    0 :: utf8 (record.productName.getD ""))

def serialEvidence : SerialEvidence :=
  match record.serial with
  | none => .absent
  | some serial => .descriptor (digestInDomain .deviceSerial (utf8 serial))

end UsbDeviceRecord

/-- A number in hexadecimal, with zeros in front of it up to the width. -/
def hexPadded (width n : ℕ) : String :=
  String.ofList (List.replicate (width - (Nat.toDigits 16 n).length) '0' ++ Nat.toDigits 16 n)

theorem conforming_usb : ∀ key ∈ ["profile", "usb.identity", "usb.productName", "usb.vendorName"],
    Conforming key := by decide

/-- The facts of a record, in the order of their keys. -/
def protocolIdentity (profileId : OpaqueId) (record : UsbDeviceRecord) : List ProtocolIdentityFact :=
  [⟨⟨"profile", conforming_usb _ (by simp)⟩, profileId.value⟩,
    ⟨⟨"usb.identity", conforming_usb _ (by simp)⟩, "0x" ++ hexPadded 4 record.vendorId.toNat ++ ":0x" ++
      hexPadded 4 record.productId.toNat⟩] ++
  (record.productName.map fun name => ⟨⟨"usb.productName", conforming_usb _ (by simp)⟩, name⟩).toList ++
  (record.vendorName.map fun name => ⟨⟨"usb.vendorName", conforming_usb _ (by simp)⟩, name⟩).toList

/-- The observation of a device the profile has an identity for. -/
def observeRecord (identities : List (UInt16 × UInt16 × DeviceMode)) (profileId : OpaqueId)
    (record : UsbDeviceRecord) (atEpochMs : UInt64) : Option DeviceObservation := do
  let (_, _, mode) ← identities.find? fun i => i.1 = record.vendorId ∧ i.2.1 = record.productId
  let observationId ← (OpaqueId.new ("USB-" ++ hexPadded 4 record.vendorId.toNat ++ "-" ++
    hexPadded 4 record.productId.toNat ++ "-" ++ hexPadded 8 record.locationId.toNat)).toOption
  return {
    observationId
    observedAtEpochMs := atEpochMs
    mode
    topologyDigest := record.topologyDigest
    descriptorDigest := record.descriptorDigest
    serialEvidence := record.serialEvidence
    protocolIdentity := protocolIdentity profileId record
    providerCandidates := []
    identityStrength := match record.serial with
      | none => .classOnly
      | some _ => .serialAndTopology
    malformedDescriptor := false }

/-- One sweep over the devices that are attached. -/
def waitForRebind (identities : List (UInt16 × UInt16 × DeviceMode)) (profileId : OpaqueId)
    (records : List UsbDeviceRecord) (e : RebindExpectation) (previous : DeviceObservation) :
    RebindOutcome :=
  evaluateRebind e previous
    (records.filterMap fun r => observeRecord identities profileId r previous.observedAtEpochMs)

/-! ### What a rebind settles on -/

def SameDevice (x y : DeviceObservation) : Prop :=
  x.topologyDigest = y.topologyDigest ∧ x.serialEvidence = y.serialEvidence

/-- The observation is a candidate that meets the strengths and the policies. -/
structure Meets (e : RebindExpectation) (previous : DeviceObservation)
    (observations : List DeviceObservation) (o : DeviceObservation) : Prop where
  mem : o ∈ observations
  candidate : Candidate e.toMode e.toModeAliases o
  floor : rank e.identityStrengthFloor ≤ rank o.identityStrength
  notWeaker : rank previous.identityStrength ≤ rank o.identityStrength
  serial : e.serialPolicy = .mustMatch →
    serialDigest o.serialEvidence = serialDigest previous.serialEvidence
  topology : e.topologyPolicy = .mustMatch → o.topologyDigest = previous.topologyDigest
  descriptor : ∀ x ∈ observations, Candidate e.toMode e.toModeAliases x →
    x.descriptorDigest = o.descriptorDigest

section

variable {e : RebindExpectation} {previous o : DeviceObservation}
  {observations : List DeviceObservation}

theorem settle_eq_settled {o' : DeviceObservation} (hmem : o ∈ observations)
    (hcandidate : Candidate e.toMode e.toModeAliases o)
    (h : settle e previous observations o = .settled o') :
    o = o' ∧ Meets e previous observations o := by
  unfold settle at h
  split_ifs at h with hweak hserial htopology hothers
  obtain rfl : o = o' := by
    cases h
    rfl
  simp only [not_or, not_lt] at hweak
  refine ⟨rfl, hmem, hcandidate, hweak.1, hweak.2, fun hpolicy => ?_, fun hpolicy => ?_, ?_⟩
  · by_contra hne
    exact hserial ⟨hpolicy, hne⟩
  · by_contra hne
    exact htopology ⟨hpolicy, hne⟩
  · intro x hx hcand
    by_contra hne
    refine hothers (List.length_pos_of_mem (List.mem_filter.mpr ⟨List.mem_filter.mpr ⟨hx, ?_⟩, ?_⟩))
    · exact decide_eq_true hcand
    · exact decide_eq_true hne

theorem meets_of_settled : ∀ {rest : List DeviceObservation} {transient : ℕ} {start : Option UInt64},
    rest ⊆ observations → evaluateFrom e previous observations transient start rest = .settled o →
    Meets e previous observations o
  | [], transient, start, _, h => by
    unfold evaluateFrom at h
    split_ifs at h
  | first :: rest, transient, start, hsub, h => by
    obtain ⟨hfirst, hrest⟩ := List.cons_subset.mp hsub
    unfold evaluateFrom at h
    dsimp only at h
    split_ifs at h with hmalformed htolerated hmode hwindow
    · exact meets_of_settled hrest h
    · obtain ⟨rfl, hmeets⟩ := settle_eq_settled hfirst ⟨Bool.eq_false_iff.mpr hmalformed, hmode⟩ h
      exact hmeets
    · exact meets_of_settled hrest h

/-- A device is found if nothing is asked of it but the mode, and all candidates look the same. -/
theorem exists_settled (hfloor : rank e.identityStrengthFloor = 0)
    (hprevious : rank previous.identityStrength = 0) (hserial : e.serialPolicy = .mayChange)
    (htopology : e.topologyPolicy = .mayChange)
    (htolerate : e.tolerance.tolerateTransientMalformed = true)
    (hwindow : ∀ t : UInt64, t.toNat ≤ e.tolerance.toleranceWindowMs.toNat)
    (hsame : ∀ x ∈ observations, Candidate e.toMode e.toModeAliases x → ∀ y ∈ observations,
      Candidate e.toMode e.toModeAliases y → x.descriptorDigest = y.descriptorDigest) :
    ∀ {rest : List DeviceObservation} {transient : ℕ} {start : Option UInt64}, rest ⊆ observations →
    (∃ x ∈ rest, Candidate e.toMode e.toModeAliases x) →
    ∃ o, evaluateFrom e previous observations transient start rest = .settled o
  | [], _, _, _, h => absurd h (by simp)
  | first :: rest, transient, start, hsub, h => by
    obtain ⟨hfirst, hrest⟩ := List.cons_subset.mp hsub
    have hin : first.observedAtEpochMs.toNat - (start.getD first.observedAtEpochMs).toNat ≤
        e.tolerance.toleranceWindowMs.toNat := (Nat.sub_le _ _).trans (hwindow _)
    by_cases hcandidate : Candidate e.toMode e.toModeAliases first
    · have hothers : others e observations first = [] := by
        refine List.filter_eq_nil_iff.mpr fun x hx => ?_
        obtain ⟨hx, hcand⟩ := List.mem_filter.mp hx
        simpa using hsame x hx (of_decide_eq_true hcand) first hfirst hcandidate
      unfold evaluateFrom settle
      simp [hcandidate.1, hcandidate.2, hfloor, hprevious, hserial, htopology, hothers]
    · have hlater : ∃ x ∈ rest, Candidate e.toMode e.toModeAliases x := by
        obtain ⟨x, hx, hcand⟩ := h
        rcases List.mem_cons.mp hx with rfl | hx
        · exact absurd hcand hcandidate
        · exact ⟨x, hx, hcand⟩
      obtain ⟨o, ho⟩ := @exists_settled hfloor hprevious hserial htopology htolerate hwindow hsame rest
        (transient + 1) (some (start.getD first.observedAtEpochMs)) hrest hlater
      refine ⟨o, ?_⟩
      unfold evaluateFrom
      by_cases hmalformed : first.malformedDescriptor = true
      · rw [if_pos hmalformed, if_pos ⟨htolerate, hin⟩, ho]
      · have hmode : ¬ (first.mode = e.toMode ∨ first.mode ∈ e.toModeAliases) := fun hmode =>
          hcandidate ⟨Bool.eq_false_iff.mpr hmalformed, hmode⟩
        rw [if_neg hmalformed, if_pos hmode, if_pos hin, ho]

end

/-- **What a rebind settles on** is a candidate that meets the strengths and the policies. That it is
the only device in sight is true, whatever else is expected, exactly for the observations in which
candidates that all have one descriptor digest are one device. -/
theorem settles_on_one_device_iff (toMode : DeviceMode) (aliases : List DeviceMode)
    (observations : List DeviceObservation) :
    (∀ (e : RebindExpectation) (previous o : DeviceObservation), e.toMode = toMode →
      e.toModeAliases = aliases → evaluateRebind e previous observations = .settled o →
      Meets e previous observations o ∧
        ∀ x ∈ observations, Candidate toMode aliases x → SameDevice x o) ↔
    ((∀ x ∈ observations, Candidate toMode aliases x → ∀ y ∈ observations,
        Candidate toMode aliases y → x.descriptorDigest = y.descriptorDigest) →
      ∀ x ∈ observations, Candidate toMode aliases x → ∀ y ∈ observations,
        Candidate toMode aliases y → SameDevice x y) := by
  constructor
  · intro h hsame x hx hxc y hy hyc
    let e : RebindExpectation := ⟨toMode, aliases, .mayChange, .mayChange, .classOnly,
      ⟨false, UInt64.ofNat (2 ^ 64 - 1), true⟩⟩
    have hwindow : ∀ t : UInt64, t.toNat ≤ e.tolerance.toleranceWindowMs.toNat := by
      intro t
      have hlt := t.toNat_lt
      rw [UInt64.toNat_ofNat']
      omega
    obtain ⟨o, ho⟩ := @exists_settled e { x with identityStrength := .classOnly } observations rfl rfl
      rfl rfl rfl hwindow hsame observations 0 none (List.Subset.refl _) ⟨x, hx, hxc⟩
    have hall := (h e _ o rfl rfl ho).2
    have hxo := hall x hx hxc
    have hyo := hall y hy hyc
    exact ⟨hxo.1.trans hyo.1.symm, hxo.2.trans hyo.2.symm⟩
  · rintro h e previous o rfl rfl hsettled
    have hmeets := meets_of_settled (List.Subset.refl _) hsettled
    refine ⟨hmeets, fun x hx hxc => h ?_ x hx hxc o hmeets.mem hmeets.candidate⟩
    intro x hx hxc y hy hyc
    rw [hmeets.descriptor x hx hxc, hmeets.descriptor y hy hyc]

/-! ### Two boards -/

theorem observeRecord_eq_some {identities : List (UInt16 × UInt16 × DeviceMode)} {profileId : OpaqueId}
    {record : UsbDeviceRecord} {now : UInt64} {o : DeviceObservation}
    (h : observeRecord identities profileId record now = some o) :
    (∃ i ∈ identities, i.2.2 = o.mode) ∧ o.topologyDigest = record.topologyDigest ∧
      o.descriptorDigest = record.descriptorDigest ∧ o.serialEvidence = record.serialEvidence ∧
      o.malformedDescriptor = false ∧ o.observedAtEpochMs = now := by
  obtain ⟨i, hi, h⟩ := Option.bind_eq_some_iff.mp h
  obtain ⟨observationId, -, h⟩ := Option.bind_eq_some_iff.mp h
  obtain rfl := Option.some.inj h
  exact ⟨⟨i, List.mem_of_find?_eq_some hi, rfl⟩, rfl, rfl, rfl, rfl, rfl⟩

def normalMode : DeviceMode := ⟨"hdc-normal", by decide, by decide, by decide⟩

/-- A board of one model, at a port. -/
def board (locationId : UInt32) (serial : String) : UsbDeviceRecord :=
  ⟨0x2207, 0x5000, locationId, some serial, some "HDC Device", some "Rockchip", some 547⟩

def boardProfile : OpaqueId := ⟨"openharmony.dayu200", by decide⟩

def boardIdentities : List (UInt16 × UInt16 × DeviceMode) := [(0x2207, 0x5000, normalMode)]

/-- Nothing is expected of a device but its mode. -/
def anyNormal : RebindExpectation :=
  ⟨normalMode, [], .mayChange, .mayChange, .classOnly, ⟨false, 30000, false⟩⟩

/-- Two boards of one model are attached, at different ports and with different serials, and the rebind
settles on the first. -/
theorem two_boards_settle : ∃ o x : DeviceObservation,
    observeRecord boardIdentities boardProfile (board 1 "A") 0 = some o ∧
    observeRecord boardIdentities boardProfile (board 2 "B") 0 = some x ∧
    waitForRebind boardIdentities boardProfile [board 1 "A", board 2 "B"] anyNormal
      { o with identityStrength := .classOnly } = .settled o ∧
    Candidate normalMode [] x ∧ ¬ SameDevice x o := by
  obtain ⟨o, ho⟩ := Option.isSome_iff_exists.mp
    (show (observeRecord boardIdentities boardProfile (board 1 "A") 0).isSome by decide +kernel)
  obtain ⟨x, hx⟩ := Option.isSome_iff_exists.mp
    (show (observeRecord boardIdentities boardProfile (board 2 "B") 0).isSome by decide +kernel)
  have hports : (board 2 "B").topologyDigest ≠ (board 1 "A").topologyDigest := by decide +kernel
  have hmode : ∀ {p : DeviceObservation}, (∃ i ∈ boardIdentities, i.2.2 = p.mode) →
      p.mode = normalMode := by
    rintro p ⟨i, hi, hmode⟩
    rw [← hmode, List.mem_singleton.mp hi]
  obtain ⟨homode, hot, hod, -, hos, htime⟩ := observeRecord_eq_some ho
  obtain ⟨hxmode, hxt, hxd, -, hxs, -⟩ := observeRecord_eq_some hx
  have hsame : x.descriptorDigest = o.descriptorDigest := by
    rw [hxd, hod]
    rfl
  have hothers : others anyNormal [o, x] o = [] := by
    refine List.filter_eq_nil_iff.mpr fun y hy => ?_
    have hy := (List.mem_filter.mp hy).1
    simp only [List.mem_cons, List.not_mem_nil, or_false] at hy
    rcases hy with rfl | rfl
    · simp
    · simpa using hsame
  refine ⟨o, x, ho, hx, ?_, ⟨hxs, .inl (hmode hxmode)⟩, fun h => hports (by rw [← hxt, ← hot, h.1])⟩
  unfold waitForRebind
  rw [show ({ o with identityStrength := .classOnly } : DeviceObservation).observedAtEpochMs =
    0 from htime]
  simp only [List.filterMap_cons, List.filterMap_nil, ho, hx]
  have hexpected : o.mode = anyNormal.toMode ∨ o.mode ∈ anyNormal.toModeAliases := .inl (hmode homode)
  unfold evaluateRebind evaluateFrom settle
  rw [if_neg (by rw [hos]; decide), if_neg (not_not.mpr hexpected), if_neg (by simp [anyNormal, rank]),
    if_neg (by simp [anyNormal]), if_neg (by simp [anyNormal]), hothers, if_neg (by simp)]

end ArkForge.Transport.Rebind
