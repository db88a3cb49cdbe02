import ArkForge.Lib.Storage
import ArkForge.Provider.RockUsb

/-! # A device behind the bulk pipes

A sector array that executes commands. It reads a command out of a block by the positions of its
fields, takes or gives the data, and answers with a status. A write that it acknowledges has been
carried out; when a transfer is lost, or the status is not an acknowledgement, some of the first
sectors of the write may have been. The mishaps are given in advance and are arbitrary. -/

namespace ArkForge.Provider.SectorArray

open Lib.Bytes Lib.Fallible Lib.Storage
open RockUsb

/-! ### Commands -/

/-- A command, as the device reads it. -/
structure Command where
  tag : ℕ
  transferBytes : ℕ
  toHost : Bool
  opcode : UInt8
  address : ℕ
  sectors : ℕ
  deriving DecidableEq

def Command.read (block : List UInt8) : Option Command :=
  if block.length = 31 ∧ block.take 4 = CBW_SIGNATURE then some {
    tag := leNat ((block.drop 4).take 4)
    transferBytes := leNat ((block.drop 8).take 4)
    toHost := block.getD 12 0 = 0x80
    opcode := block.getD 15 0
    address := beNat ((block.drop 17).take 4)
    sectors := beNat ((block.drop 22).take 2) }
  else none

theorem exists_four {l : List UInt8} (hl : l.length = 4) : ∃ a b c d, l = [a, b, c, d] := by
  rcases l with _ | ⟨a, _ | ⟨b, _ | ⟨c, _ | ⟨d, _ | ⟨e, l⟩⟩⟩⟩⟩ <;> simp at hl
  exact ⟨a, b, c, d, rfl⟩

/-- The command that the host has in mind. -/
abbrev command (tag : UInt32) (opcode : UInt8) (address : UInt32) (sectors : UInt16)
    (transferBytes : UInt32) (directionIn : Bool) : Command where
  tag := tag.toNat
  transferBytes := transferBytes.toNat
  toHost := directionIn
  opcode := opcode
  address := address.toNat
  sectors := sectors.toNat

theorem read_commandBlock (tag : UInt32) (opcode : UInt8) (address : UInt32) (sectors : UInt16)
    (transferBytes : UInt32) (commandLength : UInt8) (directionIn : Bool) :
    Command.read (commandBlock tag opcode address sectors transferBytes commandLength directionIn) =
      some (command tag opcode address sectors transferBytes directionIn) := by
  have htag := leNat_leBytes (show tag.toNat < 256 ^ 4 from tag.toNat_lt)
  have htransfer := leNat_leBytes (show transferBytes.toNat < 256 ^ 4 from transferBytes.toNat_lt)
  have haddress := beNat_beBytes (show address.toNat < 256 ^ 4 from address.toNat_lt)
  have hsectors := beNat_beBytes (show sectors.toNat < 256 ^ 2 from sectors.toNat_lt)
  obtain ⟨t0, t1, t2, t3, ht⟩ := exists_four (length_leBytes 4 tag.toNat)
  obtain ⟨b0, b1, b2, b3, hb⟩ := exists_four (length_leBytes 4 transferBytes.toNat)
  obtain ⟨a0, a1, a2, a3, ha⟩ := exists_four (length_beBytes 4 address.toNat)
  obtain ⟨s0, s1, hs⟩ := List.length_eq_two.mp (length_beBytes 2 sectors.toNat)
  rw [ht] at htag
  rw [hb] at htransfer
  rw [ha] at haddress
  rw [hs] at hsectors
  unfold Command.read commandBlock
  rw [ht, hb, ha, hs]
  cases directionIn <;>
    simp [CBW_SIGNATURE, htag, htransfer, haddress, hsectors]

/-- The status acknowledges the command: it has the signature, the tag of the command and no
failure. -/
def Acknowledges (c : Command) (csw : List UInt8) : Prop :=
  csw.take 4 = CSW_SIGNATURE ∧ leNat ((csw.drop 4).take 4) = c.tag ∧ csw.getD 12 0 = 0

instance (c : Command) (csw : List UInt8) : Decidable (Acknowledges c csw) :=
  inferInstanceAs (Decidable (_ ∧ _ ∧ _))

theorem leNat_take_four_lt (l : List UInt8) : leNat (l.take 4) < 2 ^ 32 := by
  have hlt := beNat_lt (l.take 4).reverse
  have hle : 256 ^ (l.take 4).reverse.length ≤ 256 ^ 4 :=
    Nat.pow_le_pow_right (by decide) (by rw [List.length_reverse, List.length_take]; omega)
  rw [leNat]
  omega

/-- The host accepts a status exactly when it is an acknowledgement. -/
theorem validateCsw_eq_ok {csw : List UInt8} {tag : UInt32} {c : Command} (hc : c.tag = tag.toNat) :
    validateCsw csw tag = .ok () ↔ Acknowledges c csw := by
  have htag : UInt32.ofNat (leNat ((csw.drop 4).take 4)) = tag ↔
      leNat ((csw.drop 4).take 4) = c.tag := by
    rw [hc, ← UInt32.toNat_inj, UInt32.toNat_ofNat', Nat.mod_eq_of_lt (leNat_take_four_lt _)]
  unfold validateCsw Acknowledges
  rw [← htag]
  by_cases hsig : csw.take 4 = CSW_SIGNATURE
  · by_cases ht : UInt32.ofNat (leNat ((csw.drop 4).take 4)) = tag
    · by_cases hstatus : csw.getD 12 0 = 0
      · simp only [hsig, ht, hstatus, ne_eq, not_true_eq_false, if_false, and_self]
      · simp only [hsig, ht, hstatus, ne_eq, not_true_eq_false, not_false_eq_true, if_true, if_false,
          reduceCtorEq, and_false]
    · simp only [hsig, ht, ne_eq, not_true_eq_false, not_false_eq_true, if_true, if_false,
        reduceCtorEq, false_and, and_false]
  · simp only [hsig, ne_eq, not_false_eq_true, if_true, reduceCtorEq, false_and]

/-! ### The device -/

/-- How far a command has come. -/
inductive Stage where
  | idle
  /-- The data stage is due. -/
  | data (c : Command)
  /-- The status is due. `sound` is false when the data sent to the host were not the medium's. -/
  | status (c : Command) (received : List UInt8) (sound : Bool)
  deriving DecidableEq

/-- What happens to a transfer. -/
inductive Mishap where
  | none
  /-- It is reported as failed. Of a write that was under way so many sectors have been written. -/
  | lost (detail : String) (sectors : ℕ)
  /-- A read is answered with these bytes. -/
  | altered (bytes : List UInt8) (sectors : ℕ)
  deriving DecidableEq

structure SectorDevice where
  medium : Medium
  stage : Stage
  mishaps : List Mishap

/-- The medium once the first sectors of a write have been written. Other commands change nothing. -/
def carryOut (opcode : UInt8) (address : ℕ) (received : List UInt8) (sectors : ℕ) (m : Medium) :
    Medium :=
  if opcode = WRITE_LBA then
    m.write (LOGICAL_BLOCK_BYTES * address) (received.take (LOGICAL_BLOCK_BYTES * sectors))
  else m

@[simp] theorem carryOut_zero (opcode : UInt8) (address : ℕ) (received : List UInt8) (m : Medium) :
    carryOut opcode address received 0 m = m := by
  simp [carryOut]

@[simp] theorem carryOut_nil (opcode : UInt8) (address sectors : ℕ) (m : Medium) :
    carryOut opcode address [] sectors m = m := by
  simp [carryOut]

/-- Bytes cut or filled up to a length. -/
def fit (n : ℕ) (bytes : List UInt8) : List UInt8 :=
  bytes.take n ++ List.replicate (n - bytes.length) 0

@[simp] theorem length_fit (n : ℕ) (bytes : List UInt8) : (fit n bytes).length = n := by
  rw [fit, List.length_append, List.length_take, List.length_replicate]
  omega

variable {bytes : List UInt8}

theorem fit_of_length {n : ℕ} (h : bytes.length = n) : fit n bytes = bytes := by
  rw [fit, List.take_of_length_le h.le, h, Nat.sub_self, List.replicate_zero, List.append_nil]

def statusBlock (c : Command) (status : UInt8) : List UInt8 :=
  CSW_SIGNATURE ++ leBytes 4 c.tag ++ [0, 0, 0, 0, status]

theorem acknowledges_statusBlock {c : Command} (hc : c.tag < 2 ^ 32) (status : UInt8) :
    Acknowledges c (statusBlock c status) ↔ status = 0 := by
  have htag := leNat_leBytes (show c.tag < 256 ^ 4 from hc)
  obtain ⟨t0, t1, t2, t3, ht⟩ := exists_four (length_leBytes 4 c.tag)
  rw [ht] at htag
  unfold Acknowledges statusBlock
  rw [ht]
  simp [CSW_SIGNATURE, htag]

theorem length_statusBlock (c : Command) (status : UInt8) :
    (statusBlock c status).length = CSW_BYTES := by
  simp [statusBlock, CSW_SIGNATURE, CSW_BYTES]

/-- What the device sends for a command in its data stage. -/
def answerData (c : Command) (m : Medium) : List UInt8 :=
  if c.opcode = READ_LBA then
    m.read (LOGICAL_BLOCK_BYTES * c.address) (LOGICAL_BLOCK_BYTES * c.sectors)
  else []

namespace SectorDevice

def accept (bytes : List UInt8) (d : SectorDevice) : Except String Unit × SectorDevice :=
  match d.stage with
  | .idle =>
    match Command.read bytes with
    | some c =>
      (.ok (), { d with stage := if c.transferBytes = 0 then .status c [] true else .data c })
    | none => (.error "stalled", d)
  | .data c =>
    if c.toHost = false ∧ bytes.length = c.transferBytes then
      (.ok (), { d with stage := .status c bytes true })
    else (.error "stalled", { d with stage := .idle })
  | .status _ _ _ => (.error "stalled", { d with stage := .idle })

def writeAll (bytes : List UInt8) : Exec SectorDevice String Unit := fun d =>
  match d.mishaps with
  | .lost detail sectors :: mishaps =>
    (.error detail, {
      medium := match d.stage with
        | .data c => carryOut c.opcode c.address bytes sectors d.medium
        | _ => d.medium
      stage := .idle
      mishaps })
  | mishaps => accept bytes { d with mishaps := mishaps.tail }

/-- The device sends bytes. With `altered` these arrive at the host instead. -/
def send (n : ℕ) (altered : Option (List UInt8 × ℕ)) (d : SectorDevice) :
    Except String (List UInt8) × SectorDevice :=
  match d.stage, altered with
  | .data c, none => (.ok (fit n (answerData c d.medium)), { d with stage := .status c [] true })
  | .data c, some (bytes, _) => (.ok (fit n bytes), { d with stage := .status c [] false })
  -- data that were not the medium's are not acknowledged
  | .status c _ false, _ => (.ok (fit n (statusBlock c 1)), { d with stage := .idle })
  | .status c received true, none =>
    (.ok (fit n (statusBlock c 0)),
      { d with medium := carryOut c.opcode c.address received c.sectors d.medium, stage := .idle })
  | .status c received true, some (bytes, sectors) =>
    (.ok (fit n bytes), { d with
      medium := carryOut c.opcode c.address received
        (if Acknowledges c (fit n bytes) then c.sectors else sectors) d.medium
      stage := .idle })
  | .idle, _ => (.error "stalled", d)

def readExact (n : ℕ) : Exec SectorDevice String (List UInt8) := fun d =>
  match d.mishaps with
  | .lost detail sectors :: mishaps =>
    (.error detail, {
      medium := match d.stage with
        | .status c received _ => carryOut c.opcode c.address received sectors d.medium
        | _ => d.medium
      stage := .idle
      mishaps })
  | .altered bytes sectors :: mishaps => send n (some (bytes, sectors)) { d with mishaps }
  | mishaps => send n none { d with mishaps := mishaps.tail }

theorem length_send {n : ℕ} {altered : Option (List UInt8 × ℕ)} {d d' : SectorDevice}
    (h : send n altered d = (.ok bytes, d')) : bytes.length = n := by
  unfold send at h
  split at h <;> cases h <;> exact length_fit _ _

theorem writeAll_cases (bytes : List UInt8) (d : SectorDevice) :
    (∃ detail k mishaps, d.mishaps = .lost detail k :: mishaps ∧ writeAll bytes d =
      (.error detail, {
        medium := match d.stage with
          | .data c => carryOut c.opcode c.address bytes k d.medium
          | _ => d.medium
        stage := .idle
        mishaps })) ∨
    writeAll bytes d = accept bytes { d with mishaps := d.mishaps.tail } := by
  unfold writeAll
  split
  · rename_i detail k mishaps h
    exact .inl ⟨detail, k, mishaps, h, rfl⟩
  · exact .inr rfl

/-- A transfer from the device is lost, arrives altered or arrives. -/
theorem readExact_cases (n : ℕ) (d : SectorDevice) :
    (∃ detail k mishaps, d.mishaps = .lost detail k :: mishaps ∧ readExact n d =
      (.error detail, {
        medium := match d.stage with
          | .status c received _ => carryOut c.opcode c.address received k d.medium
          | _ => d.medium
        stage := .idle
        mishaps })) ∨
    (∃ bytes k mishaps, d.mishaps = .altered bytes k :: mishaps ∧
      readExact n d = send n (some (bytes, k)) { d with mishaps }) ∨
    readExact n d = send n none { d with mishaps := d.mishaps.tail } := by
  unfold readExact
  split
  · rename_i detail k mishaps h
    exact .inl ⟨detail, k, mishaps, h, rfl⟩
  · rename_i bytes k mishaps h
    exact .inr (.inl ⟨bytes, k, mishaps, h, rfl⟩)
  · exact .inr (.inr rfl)

/-- The device, as a pair of bulk pipes. -/
def bulk : BulkIo SectorDevice where
  writeAll := writeAll
  readSome := readExact
  readExact := readExact
  length_readExact := by
    intro n d bytes d' h
    obtain ⟨_, _, _, -, hlost⟩ | ⟨_, _, _, -, hsend⟩ | hsend := readExact_cases n d
    · rw [hlost] at h
      cases h
    · exact length_send (hsend ▸ h)
    · exact length_send (hsend ▸ h)

end SectorDevice

open SectorDevice

/-! ### What the transfers do -/

/-- No transfer will go wrong. -/
def Quiet (mishaps : List Mishap) : Prop := ∀ mishap ∈ mishaps, mishap = .none

variable {mishaps : List Mishap}

theorem Quiet.tail (h : Quiet mishaps) : Quiet mishaps.tail :=
  fun mishap hm => h mishap (List.mem_of_mem_tail hm)

/-- Where the device stands. Transfers go wrong only if `t` holds. -/
structure Stands (st : Stage) (m : Medium) (t : Prop) (d : SectorDevice) : Prop where
  stage : d.stage = st
  medium : d.medium = m
  quiet : t ∨ Quiet d.mishaps

/-- The device is idle again, with some of the first sectors of a command carried out. -/
def Broken (opcode : UInt8) (address : ℕ) (received : List UInt8) (m : Medium) (t : Prop)
    (d : SectorDevice) : Prop :=
  t ∧ ∃ k, Stands .idle (carryOut opcode address received k m) t d

variable {m : Medium} {t : Prop} {c : Command}

variable {d : SectorDevice}

theorem Stands.broken (h : Stands .idle m t d) (ht : t) (opcode : UInt8) (address : ℕ)
    (received : List UInt8) : Broken opcode address received m t d :=
  ⟨ht, 0, by rwa [carryOut_zero]⟩

/-- A mishap at the head of the list is one that `t` allows. -/
theorem Stands.trouble {st : Stage} (h : Stands st m t d) {mishap : Mishap}
    (hd : d.mishaps = mishap :: mishaps) (hne : mishap ≠ .none) : t := by
  refine h.quiet.resolve_right fun hq => hne (hq mishap ?_)
  rw [hd]
  exact List.mem_cons_self

theorem meets_command (tag : UInt32) (opcode : UInt8) (address : UInt32) (sectors : UInt16)
    (transferBytes : UInt32) (commandLength : UInt8) (directionIn : Bool)
    (hc : c = command tag opcode address sectors transferBytes directionIn) :
    Meets (Stands .idle m t)
      (SectorDevice.writeAll
        (commandBlock tag opcode address sectors transferBytes commandLength directionIn))
      (fun _ => Stands (if c.transferBytes = 0 then .status c [] true else .data c) m t)
      fun _ d => t ∧ Stands .idle m t d := by
  intro d hd
  obtain ⟨detail, k, mishaps, hmishaps, heq⟩ | heq := writeAll_cases _ d <;> rw [heq]
  · have ht := hd.trouble hmishaps (by simp)
    refine ⟨ht, rfl, ?_, .inl ht⟩
    rw [hd.stage]
    exact hd.medium
  · have hread := read_commandBlock tag opcode address sectors transferBytes commandLength directionIn
    unfold accept
    simp only [hd.stage, hread, ← hc]
    exact ⟨rfl, hd.medium, hd.quiet.imp_right Quiet.tail⟩

theorem meets_dataOut (hout : c.toHost = false) {data : List UInt8}
    (hlen : data.length = c.transferBytes) :
    Meets (Stands (.data c) m t) (SectorDevice.writeAll data)
      (fun _ => Stands (.status c data true) m t) fun _ => Broken c.opcode c.address data m t := by
  intro d hd
  obtain ⟨detail, k, mishaps, hmishaps, heq⟩ | heq := writeAll_cases _ d <;> rw [heq]
  · have ht := hd.trouble hmishaps (by simp)
    refine ⟨ht, k, rfl, ?_, .inl ht⟩
    rw [hd.stage, hd.medium]
  · unfold accept
    simp only [hd.stage, hout, hlen]
    exact ⟨rfl, hd.medium, hd.quiet.imp_right Quiet.tail⟩

theorem meets_dataIn (n : ℕ) :
    Meets (Stands (.data c) m t) (SectorDevice.readExact n)
      (fun bytes d => (bytes = fit n (answerData c m) ∧ Stands (.status c [] true) m t d) ∨
        (t ∧ Stands (.status c [] false) m t d))
      fun _ => Broken c.opcode c.address [] m t := by
  intro d hd
  obtain ⟨detail, k, mishaps, hmishaps, heq⟩ | ⟨bytes, k, mishaps, hmishaps, heq⟩ | heq :=
    readExact_cases _ d <;> rw [heq]
  · have ht := hd.trouble hmishaps (by simp)
    refine ⟨ht, 0, rfl, ?_, .inl ht⟩
    rw [hd.stage, carryOut_zero]
    exact hd.medium
  · have ht := hd.trouble hmishaps (by simp)
    simp only [hd.stage]
    exact .inr ⟨ht, rfl, hd.medium, .inl ht⟩
  · unfold send
    simp only [hd.stage, hd.medium]
    exact .inl ⟨trivial, rfl, rfl, hd.quiet.imp_right Quiet.tail⟩

/-- The device answers with its status. It acknowledges only what it has done. -/
theorem meets_status (hc : c.tag < 2 ^ 32) (received : List UInt8) {sound : Bool}
    (hsound : sound = true ∨ t) :
    Meets (Stands (.status c received sound) m t) (SectorDevice.readExact CSW_BYTES)
      (fun csw d => (Acknowledges c csw ∧ sound = true ∧
          Stands .idle (carryOut c.opcode c.address received c.sectors m) t d) ∨
        (¬ Acknowledges c csw ∧ Broken c.opcode c.address received m t d))
      fun _ => Broken c.opcode c.address received m t := by
  intro d hd
  have hfit : ∀ status, fit CSW_BYTES (statusBlock c status) = statusBlock c status := fun status =>
    fit_of_length (length_statusBlock c status)
  have hunsound : ∀ mishaps : List Mishap, t ∨ Quiet mishaps → sound = false →
      ¬ Acknowledges c (fit CSW_BYTES (statusBlock c 1)) ∧
        Broken c.opcode c.address received m t ⟨d.medium, .idle, mishaps⟩ := by
    intro mishaps hquiet hfalse
    have ht := hsound.resolve_left (by simp [hfalse])
    have hidle : Stands .idle m t ⟨d.medium, .idle, mishaps⟩ := ⟨rfl, hd.medium, hquiet⟩
    refine ⟨fun hack => ?_, hidle.broken ht _ _ _⟩
    rw [hfit, acknowledges_statusBlock hc] at hack
    exact absurd hack (by decide)
  obtain ⟨detail, k, mishaps, hmishaps, heq⟩ | ⟨bytes, k, mishaps, hmishaps, heq⟩ | heq :=
    readExact_cases _ d <;> rw [heq]
  · have ht := hd.trouble hmishaps (by simp)
    refine ⟨ht, k, rfl, ?_, .inl ht⟩
    rw [hd.stage, hd.medium]
  · have ht := hd.trouble hmishaps (by simp)
    cases sound with
    | false =>
      simp only [hd.stage]
      exact .inr (hunsound mishaps (.inl ht) rfl)
    | true =>
      simp only [hd.stage]
      by_cases hack : Acknowledges c (fit CSW_BYTES bytes)
      · refine .inl ⟨hack, trivial, rfl, ?_, .inl ht⟩
        rw [if_pos hack, hd.medium]
      · refine .inr ⟨hack, ht, k, rfl, ?_, .inl ht⟩
        rw [if_neg hack, hd.medium]
  · cases sound with
    | false =>
      simp only [hd.stage]
      exact .inr (hunsound _ (hd.quiet.imp_right Quiet.tail) rfl)
    | true =>
      simp only [hd.stage]
      refine .inl ⟨?_, trivial, rfl, ?_, hd.quiet.imp_right Quiet.tail⟩
      · rw [hfit, acknowledges_statusBlock hc]
      · rw [hd.medium]

end ArkForge.Provider.SectorArray
