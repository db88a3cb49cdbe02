import ArkForge.Core.Coverage
import ArkForge.Provider.ExecuteSpec

/-! # Verdicts about the medium

A readback is honest if its verdict is about the bytes that are on the medium, and the core has a
table of verdicts of its own. The executor looks for filler before it compares anything, and compares
what it has read through a window, so it can differ from both. -/

namespace ArkForge.Provider.ReadbackVerdict

open Lib.Fallible
open Core.Coverage (bootRange bootContent bootWrite)
open Core.Digest Core.Effect Core.Projection Core.Verification
open Device Execute ExecuteSpec
open RockUsb (ceilDiv)

/-! ### The verdict of the core -/

/-- A readback can be trusted where the read face reaches the whole medium. -/
def covers : MeasuredReadDomain → ByteRange → Bool
  | .full, _ => true
  | .windowed _, _ => false

def detail : MeasuredReadDomain → Option String
  | .full => none
  | .windowed detail => some detail

inductive ReadbackObservation where
  | contentMatched
  | uniformFiller (byte : UInt8)
  | contentMismatched (observed : Sha256Digest)

/-- The read domain comes first: outside it, the observation is not looked at. -/
def classifyVerification (range : ByteRange) (readDomain : MeasuredReadDomain)
    (maxStrengthWhenReadable : VerificationStrength) (observation : Option ReadbackObservation) :
    VerificationOutcome :=
  if !covers readDomain range then
    .typedSkip range .outsideReadDomain
      ((detail readDomain).getD "read domain does not cover this range")
  else
    match observation with
    | none => .typedSkip range .profileDeclaresUnreachable "no readback was performed for this target"
    | some .contentMatched => .verified maxStrengthWhenReadable range
    | some (.uniformFiller _) => .failed range .erasedMediumFiller
    | some (.contentMismatched _) => .failed range .contentMismatch

section Agreement

variable (read : List UInt8) (range : ByteRange) (expected : Sha256Digest) (filler : Option UInt8)

/-- What the core is told of a read. -/
def observation : ReadbackObservation :=
  match filler.filter fun byte => decide (uniformByte read = some byte) with
  | some byte => .uniformFiller byte
  | none =>
    if read.length = range.length.toNat ∧ sha256 read = expected then .contentMatched
    else .contentMismatched (sha256 read)

/-- What the executor takes for filler. -/
def LooksErased : Prop := ((uniformByte read).filter (isFiller filler)).isSome = true

/-- Through a window, filler or a short read. Otherwise a read of the whole range, and not the
expected content where any repeated byte counts as filler. -/
def Agree : MeasuredReadDomain → Prop
  | .windowed _ => LooksErased read filler ∨ read.length ≠ range.length.toNat
  | .full => (LooksErased read filler ∨ read.length = range.length.toNat) ∧
      ¬ (LooksErased read filler ∧ filler = none ∧ read.length = range.length.toNat ∧
        sha256 read = expected)

variable {read filler}

/-- A declared filler is the core's filler where it is the executor's. -/
theorem filler_observed : (filler.filter fun byte => decide (uniformByte read = some byte)).isSome ↔
    filler ≠ none ∧ LooksErased read filler := by
  cases filler with
  | none => simp
  | some byte =>
    cases huniform : uniformByte read with
    | none => simp [LooksErased, huniform]
    | some found => by_cases heq : byte = found <;> simp [LooksErased, huniform, isFiller, heq, Ne.symm]

/-- **The executor's verdict is of the kind of the core's exactly where they agree on what filler and
a short read mean.** -/
theorem verdict_refines_core (maxStrength : VerificationStrength) (domain : MeasuredReadDomain) :
    outcomeName (classifyReadback read range expected maxStrength filler domain) =
      outcomeName (classifyVerification range domain maxStrength
        (some (observation read range expected filler))) ↔
    Agree read range expected filler domain := by
  have hobserved := @filler_observed read filler
  unfold classifyReadback observation
  cases herased : (uniformByte read).filter (isFiller filler) with
  | some byte =>
    have hlooks : LooksErased read filler := Option.isSome_iff_exists.mpr ⟨byte, herased⟩
    cases hdeclared : filler.filter fun byte => decide (uniformByte read = some byte) with
    | some _ =>
      have hsome : filler ≠ none := (hobserved.mp (by rw [hdeclared]; rfl)).1
      cases domain <;> simp [classifyVerification, covers, outcomeName, Agree, hlooks, hsome]
    | none =>
      obtain rfl : filler = none := by simpa [hdeclared, hlooks] using hobserved
      by_cases hmatch : read.length = range.length.toNat ∧ sha256 read = expected <;>
        cases domain <;> simp [classifyVerification, covers, outcomeName, Agree, hlooks, hmatch]
  | none =>
    have hlooks : ¬ LooksErased read filler := by simp [LooksErased, herased]
    have hdeclared : filler.filter (fun byte => decide (uniformByte read = some byte)) = none :=
      Option.not_isSome_iff_eq_none.mp (hobserved.not.mpr fun h => hlooks h.2)
    rw [hdeclared]
    by_cases hlength : read.length = range.length.toNat <;> by_cases hhash : sha256 read = expected <;>
      cases domain <;> simp [classifyVerification, covers, outcomeName, Agree, hlooks, hlength, hhash]

end Agreement

/-- Content that was read through a window and has the digest is verified; the core skips it. -/
theorem verified_through_window : ∃ range : ByteRange,
    classifyReadback [1, 2] range (sha256 [1, 2]) .fullHash (some 0) (.windowed "") =
      .verified .fullHash range ∧
    outcomeName (classifyVerification range (.windowed "") .fullHash
      (some (observation [1, 2] range (sha256 [1, 2]) (some 0)))) = "typedSkip" := by
  refine ⟨⟨0, 2, by decide, by decide⟩, ?_, rfl⟩
  simp [classifyReadback, uniformByte]

/-! ### A medium behind a window -/

/-- The read face shows the medium inside the window, and the declared filler outside. -/
structure ReadFace where
  medium : ℕ → UInt8
  window : ℕ
  filler : UInt8

def address (sector : ℕ) : ℕ := sector * ROCKUSB_SECTOR_BYTES

/-- The last sector of so many bytes. -/
def lastOf (sector length : ℕ) : ℕ := sector + (ceilDiv length ROCKUSB_SECTOR_BYTES - 1)

namespace ReadFace

variable (face : ReadFace)

/-- The bytes of the medium from a sector on. -/
def onMedium (sector length : ℕ) : List UInt8 :=
  (List.range length).map fun i => face.medium (address sector + i)

/-- The bytes that are read from a sector on. -/
def shown (sector length : ℕ) : List UInt8 :=
  (List.range length).map fun i =>
    if address sector + i < face.window then face.medium (address sector + i) else face.filler

/-- A port that answers a read of sectors with what the face shows. -/
def Serves {ω : Type} (port : RockUsbPort ω) : Prop :=
  ∀ sector sectors path w o, (port.readSectors sector sectors path w).1 = .ok o →
    o.value = face.shown sector (address sectors)

/-- What shows is the filler throughout. -/
def ShowsFiller (sector length : ℕ) : Prop :=
  face.shown sector length = List.replicate length face.filler

/-- In a full domain, content that is the filler throughout is not the expected one. Through a window,
no verdict is given, since the last sector shows filler or all of the range does, or what shows has
the expected digest just if the medium has. -/
def Clear (sector length : ℕ) (expected : Sha256Digest) : MeasuredReadDomain → Prop
  | .full => face.onMedium sector length = List.replicate length face.filler →
      sha256 (face.onMedium sector length) ≠ expected
  | .windowed _ => face.ShowsFiller (lastOf sector length) ROCKUSB_SECTOR_BYTES ∨
      face.ShowsFiller sector length ∨
        (sha256 (face.shown sector length) = expected ↔ sha256 (face.onMedium sector length) = expected)

variable {face} {sector length : ℕ}

theorem shown_inside (h : address sector + length ≤ face.window) :
    face.shown sector length = face.onMedium sector length := by
  refine List.map_congr_left fun i hi => if_pos ?_
  have := List.mem_range.mp hi
  omega

end ReadFace

theorem uniformByte_replicate (n : ℕ) (byte : UInt8) :
    uniformByte (List.replicate (n + 1) byte) = some byte := by
  simp [List.replicate_succ, uniformByte]

theorem eq_replicate_of_uniformByte {read : List UInt8} {byte : UInt8}
    (h : uniformByte read = some byte) : read = List.replicate read.length byte := by
  cases read with
  | nil => cases h
  | cons first rest =>
    rw [uniformByte] at h
    split_ifs at h with hall
    cases h
    exact List.eq_replicate_of_mem (by simpa using hall)

/-- Verified content is the expected one, and failed content is not. -/
def Honest (content : List UInt8) (expected : Sha256Digest) (verdict : Option VerificationOutcome) :
    Prop :=
  (∀ strength range, verdict = some (.verified strength range) → sha256 content = expected) ∧
    ∀ range classification, verdict = some (.failed range classification) → sha256 content ≠ expected

theorem filter_isFiller {read : List UInt8} {filler : UInt8} (hread : read ≠ []) :
    (uniformByte read).filter (isFiller (some filler)) =
      if read = List.replicate read.length filler then some filler else none := by
  split_ifs with herased
  · obtain ⟨n, hn⟩ := Nat.exists_eq_succ_of_ne_zero (List.length_pos_iff.mpr hread).ne'
    rw [hn] at herased
    rw [herased, uniformByte_replicate]
    simp [isFiller]
  · refine Option.filter_eq_none_iff.mpr fun byte huniform hbyte => herased ?_
    obtain rfl : filler = byte := by simpa [isFiller] using hbyte
    exact eq_replicate_of_uniformByte huniform

/-- A read of the whole range is judged honestly just if one of filler is judged so in a full domain,
and any other one has the expected digest just if the content has. -/
theorem honest_classifyReadback {read content : List UInt8} {range : ByteRange} {filler : UInt8}
    {domain : MeasuredReadDomain} {expected : Sha256Digest} {maxStrength : VerificationStrength}
    (hlength : read.length = range.length.toNat) (hread : read ≠ []) :
    Honest content expected
        (some (classifyReadback read range expected maxStrength (some filler) domain)) ↔
      if read = List.replicate read.length filler then domain = .full → sha256 content ≠ expected
      else (sha256 read = expected ↔ sha256 content = expected) := by
  unfold classifyReadback
  rw [filter_isFiller hread]
  by_cases herased : read = List.replicate read.length filler
  · rw [if_pos herased, if_pos herased]
    cases domain <;> simp [Honest]
  · rw [if_neg herased, if_neg herased]
    by_cases hhash : sha256 read = expected <;> simp [Honest, hlength, hhash]

section Run

variable {ω : Type} {host : ExecutionHost ω} {port : RockUsbPort ω} {face : ReadFace}
  {record : PrivateActionRecord} {range : ByteRange} {expected : Sha256Digest} {beginSector : UInt64}
  {domain : MeasuredReadDomain} (scratch partition : String) (maxStrength : VerificationStrength)

theorem require_some_bind {α β : Type} (a : α) (error : ExecutionError) (f : α → Executes ω β) :
    require (some a) error >>= f = f a :=
  rfl

theorem meets_readSectors (h : face.Serves port) (sector sectors : ℕ) (label : String) :
    Meets (fun _ => True) (readSectors host port scratch sector sectors label)
      (fun bytes _ => bytes = face.shown sector (address sectors)) fun _ _ => True := by
  refine (meets_onHost fun _ _ => trivial).bind fun _ => ?_
  refine ((meets_callPort _ _ _).failing fun _ _ _ => trivial).bind fun receipt => meets_pure ?_
  rintro _ ⟨e₀, -, hreceipt, -⟩
  exact h _ _ _ _ _ hreceipt

/-- The range is judged by the bytes that show. -/
theorem meets_readWholeRange (h : face.Serves port) (filler : Option UInt8) :
    Meets (fun _ => True) (readWholeRange host port scratch record partition beginSector maxStrength
        filler range expected domain)
      (fun o _ => o.verification = some (classifyReadback
        (face.shown beginSector.toNat range.length.toNat) range expected maxStrength filler domain))
      fun _ _ => True := by
  refine (meets_readSectors scratch h _ _ _).bind fun bytes => meets_pure ?_
  rintro _ rfl
  have hlength : range.length.toNat ≤
      address (ceilDiv range.length.toNat ROCKUSB_SECTOR_BYTES) := by
    unfold address ceilDiv ROCKUSB_SECTOR_BYTES
    split_ifs <;> omega
  rw [outcome, ReadFace.shown, ← List.map_take, List.take_range, min_eq_left hlength, ReadFace.shown]

/-- The end of a range shows filler just if the probe of it finds filler. -/
theorem probe_eq_true {last : ℕ} :
    ((uniformByte (face.shown last (address 1))).map (isFiller (some face.filler))).getD false = true ↔
      face.ShowsFiller last ROCKUSB_SECTOR_BYTES := by
  have hlength : (face.shown last (address 1)).length = ROCKUSB_SECTOR_BYTES := by
    simp [ReadFace.shown, address]
  have hread : face.shown last (address 1) ≠ [] := by
    rw [← List.length_pos_iff, hlength]
    decide
  have hfilter := @filter_isFiller _ face.filler hread
  rw [hlength] at hfilter
  have hprobe : ∀ {o : Option UInt8} {p : UInt8 → Bool},
      (o.map p).getD false = true ↔ o.filter p ≠ none := by
    intro o p
    cases o <;> simp
  rw [hprobe, hfilter, ite_ne_right_iff, ReadFace.ShowsFiller]
  simp [address]

/-- **A verdict on a range is honest exactly where the medium can be told from filler.** -/
theorem readback_honest_iff (hserves : face.Serves port) (hrange : record.declaredRange = some range)
    (hexpected : record.contentDigest = some expected)
    (hfull : domain = .full → address beginSector.toNat + range.length.toNat ≤ face.window) :
    Meets (fun e => e.session.readDomain = some domain)
      (readbackPartition host port scratch record partition beginSector maxStrength (some face.filler))
      (fun o _ => Honest (face.onMedium beginSector.toNat range.length.toNat) expected o.verification ↔
        face.Clear beginSector.toNat range.length.toNat expected domain)
      fun _ _ => True := by
  set shown := face.shown beginSector.toNat range.length.toNat with hshown
  have hlength : shown.length = range.length.toNat := by simp [hshown, ReadFace.shown]
  have hread : shown ≠ [] := by
    rw [← List.length_pos_iff, hlength]
    exact Nat.pos_of_ne_zero fun hzero => range.nonEmpty (UInt64.toNat_inj.mp hzero)
  have hjudged := @honest_classifyReadback shown (face.onMedium beginSector.toNat range.length.toNat)
    range face.filler domain expected maxStrength hlength hread
  rw [hlength] at hjudged
  have hwhole := @meets_readWholeRange ω host port face record range expected beginSector domain
    scratch partition maxStrength hserves (some face.filler)
  unfold readbackPartition
  rw [hrange, hexpected, require_some_bind, require_some_bind]
  refine meets_getSession.bind fun session => ?_
  rintro e ⟨rfl, he⟩
  rw [he]
  cases domain with
  | full =>
    refine (hwhole.post fun o _ ho => ?_) e trivial
    have hsame : shown = face.onMedium beginSector.toNat range.length.toNat :=
      ReadFace.shown_inside (hfull rfl)
    rw [ho, hjudged, hsame]
    unfold ReadFace.Clear
    split_ifs with herased <;> simp [herased]
  | windowed detail =>
    refine (meets_ite (fun _ => meets_fail fun _ _ => trivial) fun _ => ?_ :
      Meets (fun _ => True) _ _ _) e trivial
    refine (meets_readSectors scratch hserves _ _ _).bind fun bytes => ?_
    intro e' hbytes
    refine (meets_ite (fun hprobe => meets_pure fun _ _ => ?_) fun hprobe => ?_ :
      Meets (fun _ => True) _ _ _) e' trivial
    all_goals rw [hbytes] at hprobe
    · have hskip := probe_eq_true.mp hprobe
      exact iff_of_true ⟨by simp [endProbeSkip, outcome], by simp [endProbeSkip, outcome]⟩
        (.inl hskip)
    · refine hwhole.post fun o _ ho => ?_
      have hskip := probe_eq_true.not.mp hprobe
      rw [ho, hjudged, ReadFace.Clear, lastOf, or_iff_right hskip]
      split_ifs with herased
      · exact iff_of_true (fun h => nomatch h) (.inl herased)
      · exact (or_iff_right herased).symm

end Run

/-! ### A port that reads -/

def quietHost : ExecutionHost Unit where
  createDirAll _ := pure ()
  openFile _ := .fail ""
  workerPanics _ _ := false
  now _ := 0

/-- A port that reads through the face, and does nothing else. -/
def facePort (face : ReadFace) : RockUsbPort Unit where
  discover := .fail (.beforeIo (.usb ""))
  capacitySectors := .fail (.beforeIo (.usb ""))
  readPartitionTable := .fail (.beforeIo (.usb ""))
  readSectors sector sectors _ := pure ⟨face.shown sector (address sectors), bootContent⟩
  writePartition _ _ _ := .fail (.beforeIo (.usb ""))
  resetDevice := .fail (.beforeIo (.usb ""))

theorem serves_facePort (face : ReadFace) : face.Serves (facePort face) := by
  intro _ _ _ _ _ h
  cases h
  rfl

def measured (domain : MeasuredReadDomain) : Execution Unit :=
  ⟨(), { ExecutionSession.new .empty with readDomain := some domain }, []⟩

/-! ### An image of filler -/

/-- A medium of one repeated byte. -/
def uniformFace (byte : UInt8) : ReadFace := ⟨fun _ => byte, 4096, 0⟩

/-- An erased medium is judged honestly in a full domain when other content is expected, and the end
of a range that shows is judged honestly through a window. -/
theorem readback_honest_boot : ∃ expected, sha256 ((uniformFace 0).onMedium 0 4096) ≠ expected ∧
    Meets (fun e => e.session.readDomain = some .full)
      (readbackPartition quietHost (facePort (uniformFace 0)) ""
        { bootWrite with contentDigest := some expected } "boot" 0 .fullHash (some 0))
      (fun o _ => Honest ((uniformFace 0).onMedium 0 4096) expected o.verification)
      (fun _ _ => True) ∧
    Meets (fun e => e.session.readDomain = some (.windowed ""))
      (readbackPartition quietHost (facePort (uniformFace 1)) "" bootWrite "boot" 0 .fullHash (some 0))
      (fun o _ => Honest ((uniformFace 1).onMedium 0 4096) bootContent o.verification)
      fun _ _ => True := by
  obtain ⟨expected, hother⟩ : ∃ expected, sha256 ((uniformFace 0).onMedium 0 4096) ≠ expected := by
    by_cases hboot : sha256 ((uniformFace 0).onMedium 0 4096) = bootContent
    · exact ⟨⟨List.replicate 32 1, rfl⟩, hboot ▸ by decide⟩
    · exact ⟨bootContent, hboot⟩
  refine ⟨expected, hother, ?_, ?_⟩
  · exact (@readback_honest_iff Unit quietHost (facePort (uniformFace 0)) (uniformFace 0)
      { bootWrite with contentDigest := some expected } bootRange expected 0 .full "" "boot" .fullHash
      (serves_facePort _) rfl rfl fun _ => by decide).post fun _ _ h => h.mpr fun _ => hother
  · have hclear : (uniformFace 1).Clear 0 4096 bootContent (.windowed "") := by
      refine .inr (.inr ?_)
      rw [ReadFace.shown_inside (by decide)]
    exact (@readback_honest_iff Unit quietHost (facePort (uniformFace 1)) (uniformFace 1) bootWrite
      bootRange bootContent 0 (.windowed "") "" "boot" .fullHash (serves_facePort _) rfl rfl
      nofun).post fun _ _ h => h.mpr hclear

/-- The boot partition, whose image is what the medium holds. -/
def fillerWrite : PrivateActionRecord :=
  { bootWrite with contentDigest := some (sha256 ((uniformFace 0).onMedium 0 4096)) }

/-- A partition that holds exactly its image, all of it the filler byte, is reported as failed. -/
theorem filler_image_fails :
    ∃ o e, readbackPartition quietHost (facePort (uniformFace 0)) "" fillerWrite "boot" 0 .fullHash
        (some 0) (measured .full) = (.ok o, e) ∧
      o.verification = some (.failed bootRange .erasedMediumFiller) := by
  have hread := @meets_readWholeRange Unit quietHost _ (uniformFace 0) fillerWrite bootRange
    (sha256 ((uniformFace 0).onMedium 0 4096)) 0 .full "" "boot" .fullHash (serves_facePort _)
    (some 0) (measured .full) trivial
  have hcontent : (uniformFace 0).shown 0 4096 = List.replicate (4095 + 1) 0 := by
    rw [ReadFace.shown_inside (by decide)]
    simp [ReadFace.onMedium, uniformFace]
  refine ⟨_, _, rfl, Eq.trans hread ?_⟩
  show some (classifyReadback ((uniformFace 0).shown 0 4096) _ _ _ _ _) = _
  unfold classifyReadback
  rw [hcontent, uniformByte_replicate]
  rfl

end ArkForge.Provider.ReadbackVerdict
