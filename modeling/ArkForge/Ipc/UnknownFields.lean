import ArkForge.Ipc.Messages

/-! # Fields a message type does not have

A field with a number that a message type does not have is skipped wherever it stands, if it does not
become another one of the type when it is narrowed to 32 bits, and not zero. -/

namespace ArkForge.Ipc.UnknownFields

open Lib.Result
open Messages Wire

/-! ### Fields -/

/-- What can stand behind a key, by its wire type. -/
inductive Payload : ℕ → List UInt8 → Prop where
  | varint {bytes : List UInt8} : IsVarint bytes → Payload 0 bytes
  | fixed64 {bytes : List UInt8} : bytes.length = 8 → Payload 1 bytes
  | delimited {length body : List UInt8} : IsVarint length → denoted length = body.length →
      body.length < 2 ^ 64 → Payload 2 (length ++ body)
  | fixed32 {bytes : List UInt8} : bytes.length = 4 → Payload 5 bytes

/-- A well-formed field. -/
structure Field where
  key : List UInt8
  payload : List UInt8
  key_varint : IsVarint key
  number_pos : 0 < denoted key / 8
  payload_fits : Payload (denoted key % 8) payload

/-- The number of a field, without a bound. -/
def Field.number (f : Field) : ℕ := denoted f.key / 8

def Field.bytes (f : Field) : List UInt8 := f.key ++ f.payload

theorem readSlice_append {bytes : List UInt8} {n : ℕ} (h : bytes.length = n) (error : WireError)
    (rest : List UInt8) : readSlice n error (bytes ++ rest) = .ok (bytes, rest) := by
  subst h
  rw [readSlice, if_neg (by simp), List.take_left, List.drop_left]

theorem Payload.read {wireType : ℕ} {bytes : List UInt8} (h : Payload wireType bytes) :
    ∃ value, ∀ rest, readFieldValue (bytes ++ rest) wireType = .ok (value, rest) := by
  cases h with
  | varint h => exact ⟨_, fun rest => by rw [readFieldValue, h.read]; rfl⟩
  | fixed64 h => exact ⟨_, fun rest => by rw [readFieldValue, readSlice_append h]; rfl⟩
  | fixed32 h => exact ⟨_, fun rest => by rw [readFieldValue, readSlice_append h]; rfl⟩
  | @delimited length body h hlen hlt =>
    refine ⟨.bytes body, fun rest => ?_⟩
    rw [readFieldValue, List.append_assoc, h.read, ok_bind, hlen, Nat.mod_eq_of_lt hlt]
    dsimp only
    rw [readSlice_append rfl]
    rfl

/-- A field is read under the lowest 32 bits of its number. -/
theorem Field.next (f : Field) : ∃ value, ∀ rest, nextField (f.bytes ++ rest) =
    if f.number % 2 ^ 32 = 0 then .error .fieldZero
    else .ok (some (f.number % 2 ^ 32, value, rest)) := by
  obtain ⟨value, hvalue⟩ := f.payload_fits.read
  refine ⟨value, fun rest => ?_⟩
  rw [Field.bytes, List.append_assoc, f.key_varint.nextField, hvalue]
  rfl

variable {σ μ : Type} {step : σ → ℕ → FieldValue → Except WireError σ}

/-- What makes no difference behind the fields makes none with them. -/
theorem foldFields_front {x y : List UInt8}
    (h : ∀ s, foldFields id step s x = foldFields id step s y) : ∀ (front : List Field) (s : σ),
    foldFields id step s (front.flatMap Field.bytes ++ x) =
      foldFields id step s (front.flatMap Field.bytes ++ y)
  | [], s => h s
  | f :: front, s => by
    obtain ⟨value, hnext⟩ := f.next
    rw [List.flatMap_cons, List.append_assoc, List.append_assoc, foldFields_eq, hnext,
      foldFields_eq s (f.bytes ++ _), hnext]
    split_ifs
    · rfl
    · exact congrArg _ (funext fun s => foldFields_front h front s)

/-! ### Skipping -/

/-- The number is narrowed to one that the type does not have either, and that is not zero. -/
def Unread (t : MessageType σ μ) (number : ℕ) : Prop :=
  number % 2 ^ 32 ≠ 0 ∧ number % 2 ^ 32 ∉ t.numbers

/-- The field makes no difference between these and those. -/
def Skips (t : MessageType σ μ) (f : Field) (front : List Field) (back : List UInt8) : Prop :=
  t.decode (front.flatMap Field.bytes ++ (f.bytes ++ back)) =
    t.decode (front.flatMap Field.bytes ++ back)

variable {t : MessageType σ μ} {f : Field}

theorem skips_of_unread (h : Unread t f.number) (front : List Field) (back : List UInt8) :
    Skips t f front back := by
  obtain ⟨value, hnext⟩ := f.next
  have hread := hnext back
  rw [if_neg h.1] at hread
  rw [Skips, MessageType.decode, foldFields_front (fun s => ?_) front]
  · rfl
  · rw [foldFields_next hread, t.other s _ _ h.2]
    rfl

theorem denoted_lt : ∀ bytes : List UInt8, denoted bytes < 128 ^ bytes.length
  | [] => Nat.one_pos
  | byte :: bytes => by
    have := denoted_lt bytes
    rw [denoted, List.length_cons, pow_succ]
    omega

/-- A field of the same number, with eight bytes in it. -/
def fixed (f : Field) : Field where
  key := writeVarint (f.number * 8 + 1)
  payload := List.replicate 8 0
  key_varint := by
    refine ⟨(closes_writeVarint _).1, @length_writeVarint_le 9 _ ?_⟩
    have hkey := denoted_lt f.key
    have hpow := Nat.pow_le_pow_right (show 0 < 128 by decide) f.key_varint.length_le
    rw [Field.number]
    omega
  number_pos := by
    have := f.number_pos
    rw [(closes_writeVarint _).2, Field.number]
    omega
  payload_fits := by
    have htype : (f.number * 8 + 1) % 8 = 1 := by omega
    rw [(closes_writeVarint _).2, htype]
    exact .fixed64 List.length_replicate

theorem number_fixed (f : Field) : (fixed f).number = f.number := by
  have hkey : (f.number * 8 + 1) / 8 = f.number := by omega
  rw [Field.number, fixed, (closes_writeVarint _).2, hkey]

theorem next_fixed (rest : List UInt8) : nextField ((fixed f).bytes ++ rest) =
    if f.number % 2 ^ 32 = 0 then .error .fieldZero
    else .ok (some (f.number % 2 ^ 32, .fixed64 (List.replicate 8 0), rest)) := by
  have hdenoted : denoted (fixed f).key = f.number * 8 + 1 := (closes_writeVarint _).2
  have hkey : (f.number * 8 + 1) / 8 = f.number := by omega
  have htype : (f.number * 8 + 1) % 8 = 1 := by omega
  have hpayload : (fixed f).payload.length = 8 := List.length_replicate
  rw [Field.bytes, List.append_assoc, (fixed f).key_varint.nextField, hdenoted, hkey, htype,
    readFieldValue, readSlice_append hpayload]
  rfl

/-- A number that is read as zero or as one of the type's own makes a message an error. -/
theorem not_skips_fixed (h : ¬ Unread t f.number) {input : List UInt8} {m : μ}
    (hinput : t.decode input = .ok m) : ¬ Skips t (fixed f) [] input := by
  intro hskips
  rw [Skips, List.flatMap_nil, List.nil_append, List.nil_append, hinput, MessageType.decode,
    foldFields_eq, next_fixed] at hskips
  split_ifs at hskips with hzero
  · cases hskips
  · have hmem : f.number % 2 ^ 32 ∈ t.numbers := by
      by_contra hnew
      exact h ⟨hzero, hnew⟩
    dsimp only at hskips
    rw [t.rejects _ _ _ hmem] at hskips
    cases hskips

/-! ### Messages -/

theorem foldFields_field {input rest : List UInt8} {n : ℕ} {value : FieldValue} {s s' : σ}
    (hnext : nextField input = .ok (some (n, value, rest))) (hfield : t.field s n value = .ok s') :
    foldFields id t.field s input = foldFields id t.field s' rest := by
  rw [foldFields_next hnext, hfield]
  rfl

theorem decode_of_fold {input : List UInt8} {s : σ} {m : μ}
    (hfold : foldFields id t.field t.start input = .ok s) (hfinish : t.finish s = .ok m) :
    t.decode input = .ok m := by
  rw [MessageType.decode, hfold]
  exact hfinish

theorem decode_nil {m : μ} (h : t.finish t.start = .ok m) : t.decode [] = .ok m :=
  decode_of_fold (foldFields_nil _) h

theorem decode_one {input : List UInt8} {n : ℕ} {value : FieldValue} {s : σ} {m : μ}
    (hnext : nextField input = .ok (some (n, value, []))) (hfield : t.field t.start n value = .ok s)
    (h : t.finish s = .ok m) : t.decode input = .ok m :=
  decode_of_fold ((foldFields_field hnext hfield).trans (foldFields_nil _)) h

def HasMessage (t : MessageType σ μ) : Prop := ∃ input m, t.decode input = .ok m

/-- Five types cannot do with defaults alone. -/
theorem hasMessage_ipcMessages : ∀ m ∈ ipcMessages, HasMessage m.type := by
  have hhello : HasMessage Hello := ⟨_, _,
    decode_one (show nextField [0x18, 1] = .ok (some (3, .varint 1, [])) by decide) rfl rfl⟩
  have hrequest : HasMessage Request := ⟨_, _,
    decode_one (show nextField [0x10, 1] = .ok (some (2, .varint 1, [])) by decide) rfl rfl⟩
  have hresponse : HasMessage Response := by
    have hapi : nextField [0x10, 1, 0x18, 1] = .ok (some (2, .varint 1, [0x18, 1])) := by decide
    have hstatus : nextField [0x18, 1] = .ok (some (3, .varint 1, [])) := by decide
    exact ⟨_, _, decode_of_fold ((foldFields_field hapi rfl).trans
      ((foldFields_field hstatus rfl).trans (foldFields_nil _))) rfl⟩
  have hmaterialize : HasMessage MaterializePlanResponse := by
    have hplan : nextField [0x0a, 0] = .ok (some (1, .bytes [], [])) := by decide
    have hempty : ExecutablePlan.decode [] = .ok ExecutablePlan.start := decode_nil rfl
    exact ⟨_, _, decode_one hplan (congrArg (Except.map _) hempty) rfl⟩
  have hclosed : HasMessage ClosedControlEvidence := ⟨_, _,
    decode_one (show nextField [0x20, 1] = .ok (some (4, .varint 1, [])) by decide) rfl rfl⟩
  simp only [ipcMessages, List.forall_mem_cons, List.not_mem_nil, false_imp_iff, implies_true, and_true]
  refine ⟨hhello, ?_, hrequest, hresponse, ?_, ?_, ?_, ?_, ?_, ?_, ?_, ?_, ?_, ?_, hmaterialize,
    ?_, ?_, ?_, ?_, ?_, ?_, ?_, ?_, ?_, hclosed, ?_, ?_⟩
  all_goals exact ⟨[], _, decode_nil rfl⟩

/-- **Which fields are skipped.** Wherever a field stands between the others, what is decoded, or the
error, is the same as without it, if its number modulo `2 ^ 32` is neither zero nor one of the message
type's. Otherwise a field of that number, in front of a message, makes an error of it. -/
theorem unknown_skipped_iff (m : IpcMessage) (hm : m ∈ ipcMessages) (f : Field) :
    (Unread m.type f.number → ∀ front back, Skips m.type f front back) ∧
    ((∀ g : Field, g.number = f.number → ∀ front back,
      (∃ message, m.type.decode (front.flatMap Field.bytes ++ back) = .ok message) →
        Skips m.type g front back) ↔ Unread m.type f.number) := by
  refine ⟨skips_of_unread, fun h => ?_, fun h g hg front back _ => ?_⟩
  · by_contra hread
    obtain ⟨input, message, hinput⟩ := hasMessage_ipcMessages m hm
    exact not_skips_fixed hread hinput (h (fixed f) (number_fixed f) [] input ⟨message, hinput⟩)
  · rw [← hg] at h
    exact skips_of_unread h front back

/-! ### Numbers that do not fit -/

def varintField (key : List UInt8) (value : UInt8) (hkey : IsVarint key) (htype : denoted key % 8 = 0)
    (hpos : 0 < denoted key / 8) (hvalue : IsVarint [value]) : Field where
  key
  payload := [value]
  key_varint := hkey
  number_pos := hpos
  payload_fits := htype ▸ .varint hvalue

/-- The number is `2 ^ 32 + 100`. -/
def spare : Field := varintField [0xa0, 0x86, 0x80, 0x80, 0x80, 0x01] 7 ⟨rfl, by decide⟩ rfl (by decide)
  ⟨rfl, by decide⟩

/-- It is skipped between the fields of a plan. -/
theorem unknown_skipped_iff_spare : spare.number = 2 ^ 32 + 100 ∧
    ∀ front back, Skips ExecutablePlan spare front back :=
  ⟨by decide, (unknown_skipped_iff ⟨_, _, ExecutablePlan⟩ (by simp [ipcMessages]) spare).1
    ⟨by decide, by decide⟩⟩

/-- The number is `2 ^ 32 + 11`. -/
def strange : Field := varintField [0xd8, 0x80, 0x80, 0x80, 0x80, 0x01] 7 ⟨rfl, by decide⟩ rfl
  (by decide) ⟨rfl, by decide⟩

/-- A snapshot's reader takes it for the time of the observation. -/
theorem strange_misread : strange.number ∉ StepAdmissionSnapshot.numbers ∧
    Snapshots.encode Snapshots.blank = [] ∧
    StepAdmissionSnapshot.decode [] = .ok Snapshots.blank ∧
    StepAdmissionSnapshot.decode strange.bytes =
      .ok { Snapshots.blank with observedAtEpochMs := 7 } := by
  have hnext : nextField strange.bytes = .ok (some (11, .varint 7, [])) := by decide
  exact ⟨by decide, by decide, decode_nil rfl, decode_one hnext rfl rfl⟩

end ArkForge.Ipc.UnknownFields
