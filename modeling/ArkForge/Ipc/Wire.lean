import ArkForge.Core.Cbor

/-! # The wire format

The subset of protobuf that messages and local records are written in: varints and length-delimited
fields. A message is the concatenation of its fields, and a reader goes through them one by one
(`foldFields`). What was written is read back field by field. -/

namespace ArkForge.Ipc.Wire

open Lib.Result Core.Cbor

inductive WireError where
  | truncated
  | varintTooLong
  | unsupportedWireType (value : ℕ)
  | fieldZero
  | invalidUtf8 (field : ℕ)
  | lengthOverflow
  /-- A value that an enumeration does not have. -/
  | unknownEnumValue (field : ℕ) (value : ℤ)
  | missingField (message : String) (field : ℕ)
  deriving DecidableEq

/-! ### Writing -/

/-- Seven bits in a byte, the low ones first. -/
def writeVarint (value : ℕ) : List UInt8 :=
  if value < 128 then [UInt8.ofNat value]
  else UInt8.ofNat (value % 128 + 128) :: writeVarint (value / 128)
termination_by value
decreasing_by omega

def writeTag (field wireType : ℕ) : List UInt8 := writeVarint (field * 8 + wireType)

/-- Zero is the default, and not written. -/
def writeUint64 (field : ℕ) (value : UInt64) : List UInt8 :=
  if value = 0 then [] else writeTag field 0 ++ writeVarint value.toNat

/-- A nested message is written even if it is empty. -/
def writeMessage (field : ℕ) (body : List UInt8) : List UInt8 :=
  writeTag field 2 ++ (writeVarint body.length ++ body)

def writeBytes (field : ℕ) (value : List UInt8) : List UInt8 :=
  if value = [] then [] else writeMessage field value

def writeString (field : ℕ) (value : String) : List UInt8 := writeBytes field (utf8 value)

def writeBool (field : ℕ) (value : Bool) : List UInt8 := writeUint64 field (if value then 1 else 0)

/-! ### Reading -/

inductive FieldValue where
  | varint (value : UInt64)
  | bytes (value : List UInt8)
  | fixed64 (value : List UInt8)
  | fixed32 (value : List UInt8)
  deriving DecidableEq

namespace FieldValue

def asU64 : FieldValue → Except WireError UInt64
  | varint value => .ok value
  | _ => .error (.unsupportedWireType 9)

def asBool (v : FieldValue) : Except WireError Bool := v.asU64.map fun value => decide (value ≠ 0)

def asBytes : FieldValue → Except WireError (List UInt8)
  | bytes value => .ok value
  | _ => .error (.unsupportedWireType 9)

def asStr (v : FieldValue) (field : ℕ) : Except WireError String := do
  let raw ← v.asBytes
  match fromUtf8 raw with
  | some value => .ok value
  | none => .error (.invalidUtf8 field)

end FieldValue

/-- The number is read as an `i64`, and has to be an `i32`. -/
def decodeEnum {α : Type} (field : ℕ) (value : FieldValue) (parse : ℤ → Option α) :
    Except WireError α := do
  let raw := (← value.asU64).toInt64.toInt
  if raw < -2 ^ 31 ∨ 2 ^ 31 ≤ raw then .error (.unknownEnumValue field raw)
  else
    match parse raw with
    | some x => .ok x
    | none => .error (.unknownEnumValue field raw)

/-- The bits of a byte go above those of the bytes before it; what does not fit is lost. -/
def readVarint : ℕ → ℕ → List UInt8 → Except WireError (ℕ × List UInt8)
  | shift, _, [] => if 64 ≤ shift then .error .varintTooLong else .error .truncated
  | shift, value, byte :: rest =>
    if 64 ≤ shift then .error .varintTooLong
    else if byte.toNat < 128 then .ok ((value + byte.toNat % 128 * 2 ^ shift) % 2 ^ 64, rest)
    else readVarint (shift + 7) ((value + byte.toNat % 128 * 2 ^ shift) % 2 ^ 64) rest

def readSlice (length : ℕ) (error : WireError) (input : List UInt8) :
    Except WireError (List UInt8 × List UInt8) :=
  if input.length < length then .error error else .ok (input.take length, input.drop length)

def readFieldValue (input : List UInt8) : ℕ → Except WireError (FieldValue × List UInt8)
  | 0 => do
    let (value, input) ← readVarint 0 0 input
    return (.varint (UInt64.ofNat value), input)
  | 1 => do
    let (value, input) ← readSlice 8 .truncated input
    return (.fixed64 value, input)
  | 2 => do
    let (length, input) ← readVarint 0 0 input
    let (value, input) ← readSlice length .lengthOverflow input
    return (.bytes value, input)
  | 5 => do
    let (value, input) ← readSlice 4 .truncated input
    return (.fixed32 value, input)
  | other => .error (.unsupportedWireType other)

def nextField (input : List UInt8) : Except WireError (Option (ℕ × FieldValue × List UInt8)) :=
  if input = [] then .ok none
  else do
    let (key, input) ← readVarint 0 0 input
    if key / 8 % 2 ^ 32 = 0 then .error .fieldZero
    else do
      let (value, input) ← readFieldValue input (key % 8)
      return some (key / 8 % 2 ^ 32, value, input)

theorem readVarint_shorter : ∀ {input rest : List UInt8} {shift value n : ℕ},
    readVarint shift value input = .ok (n, rest) → rest.length < input.length
  | [], rest, shift, value, n, h => by
    unfold readVarint at h
    split_ifs at h
  | byte :: input, rest, shift, value, n, h => by
    unfold readVarint at h
    split_ifs at h
    · cases h
      exact Nat.lt_succ_self _
    · exact (readVarint_shorter h).trans (Nat.lt_succ_self _)

variable {input : List UInt8} {rest : List UInt8}

theorem readSlice_le {value : List UInt8} {length : ℕ} {error : WireError}
    (h : readSlice length error input = .ok (value, rest)) : rest.length ≤ input.length := by
  unfold readSlice at h
  split_ifs at h
  cases h
  rw [List.length_drop]
  exact Nat.sub_le _ _

variable {value : FieldValue} {wireType : ℕ}

theorem readFieldValue_le
    (h : readFieldValue input wireType = .ok (value, rest)) : rest.length ≤ input.length := by
  unfold readFieldValue at h
  split at h
  · obtain ⟨⟨n, input₂⟩, hn, h⟩ := bind_eq_ok.mp h
    cases h
    exact (readVarint_shorter hn).le
  · obtain ⟨⟨v, input₂⟩, hv, h⟩ := bind_eq_ok.mp h
    cases h
    exact readSlice_le hv
  · obtain ⟨⟨n, input₂⟩, hn, h⟩ := bind_eq_ok.mp h
    obtain ⟨⟨v, input₃⟩, hv, h⟩ := bind_eq_ok.mp h
    cases h
    exact (readSlice_le hv).trans (readVarint_shorter hn).le
  · obtain ⟨⟨v, input₂⟩, hv, h⟩ := bind_eq_ok.mp h
    cases h
    exact readSlice_le hv
  · cases h

variable {field : ℕ}

theorem nextField_shorter
    (h : nextField input = .ok (some (field, value, rest))) : rest.length < input.length := by
  unfold nextField at h
  by_cases hempty : input = []
  · rw [if_pos hempty] at h
    cases h
  rw [if_neg hempty] at h
  obtain ⟨⟨key, input₁⟩, hkey, h⟩ := bind_eq_ok.mp h
  dsimp only at h
  split_ifs at h
  obtain ⟨⟨v, input₂⟩, hv, h⟩ := bind_eq_ok.mp h
  cases h
  exact (readFieldValue_le hv).trans_lt (readVarint_shorter hkey)

section Fold

variable {σ ε : Type}

def foldFields (wire : WireError → ε) (step : σ → ℕ → FieldValue → Except ε σ) (s : σ)
    (input : List UInt8) : Except ε σ :=
  match _h : nextField input with
  | .error e => .error (wire e)
  | .ok none => .ok s
  | .ok (some (field, value, rest)) => do
    let s ← step s field value
    foldFields wire step s rest
termination_by input.length
decreasing_by exact nextField_shorter _h

end Fold

/-! ### Varints -/

/-- The number of a list of seven-bit groups, the low ones first, without a bound. -/
def denoted : List UInt8 → ℕ
  | [] => 0
  | byte :: bytes => byte.toNat % 128 + 128 * denoted bytes

/-- Only the last byte is without the bit that announces another one. -/
def closes : List UInt8 → Bool
  | [] => false
  | byte :: bytes => if byte.toNat < 128 then bytes.isEmpty else closes bytes

/-- A varint, the shortest one of its number or not. -/
structure IsVarint (bytes : List UInt8) : Prop where
  closes : closes bytes = true
  length_le : bytes.length ≤ 10

theorem readVarint_closes : ∀ {bytes rest : List UInt8} {shift below : ℕ}, closes bytes = true →
    shift + 7 * bytes.length ≤ 70 → readVarint shift below (bytes ++ rest) =
      .ok ((below + denoted bytes * 2 ^ shift) % 2 ^ 64, rest)
  | byte :: bytes, rest, shift, below, hcloses, hlen => by
    rw [closes] at hcloses
    rw [List.length_cons] at hlen
    rw [List.cons_append, readVarint, if_neg (by omega), denoted]
    split_ifs at hcloses ⊢
    · rw [List.isEmpty_iff.mp hcloses]
      rfl
    · rw [readVarint_closes hcloses (by omega), Nat.mod_add_mod]
      congr 3
      ring

theorem IsVarint.read {bytes : List UInt8} (h : IsVarint bytes) (rest : List UInt8) :
    readVarint 0 0 (bytes ++ rest) = .ok (denoted bytes % 2 ^ 64, rest) := by
  rw [readVarint_closes h.closes (by have := h.length_le; omega), zero_add, pow_zero, mul_one]

theorem closes_writeVarint (value : ℕ) :
    closes (writeVarint value) = true ∧ denoted (writeVarint value) = value := by
  induction value using Nat.strongRecOn with
  | ind value ih =>
    rw [writeVarint]
    split_ifs with hsmall
    · have hbyte : (UInt8.ofNat value).toNat = value := by
        rw [UInt8.toNat_ofNat']
        omega
      rw [closes, denoted, denoted, hbyte, if_pos hsmall]
      exact ⟨rfl, by omega⟩
    · have hbyte : (UInt8.ofNat (value % 128 + 128)).toNat = value % 128 + 128 := by
        rw [UInt8.toNat_ofNat']
        omega
      obtain ⟨hcloses, hdenoted⟩ := ih (value / 128) (by omega)
      rw [closes, denoted, hbyte]
      exact ⟨hcloses, by omega⟩

theorem length_writeVarint_le : ∀ {k value : ℕ}, value < 128 ^ (k + 1) →
    (writeVarint value).length ≤ k + 1
  | k, value, h => by
    rw [writeVarint]
    split_ifs with hsmall
    · exact Nat.succ_pos k
    · match k with
      | 0 => omega
      | k + 1 =>
        exact Nat.succ_le_succ (length_writeVarint_le (by omega))

theorem isVarint_writeVarint {value : ℕ} (h : value < 2 ^ 64) : IsVarint (writeVarint value) :=
  ⟨(closes_writeVarint value).1, @length_writeVarint_le 9 value (h.trans (by decide))⟩

theorem readVarint_written {value : ℕ} (h : value < 2 ^ 64) (rest : List UInt8) :
    readVarint 0 0 (writeVarint value ++ rest) = .ok (value, rest) := by
  rw [(isVarint_writeVarint h).read, (closes_writeVarint value).2, Nat.mod_eq_of_lt h]

/-- What is read is the number of the bytes that were consumed, as far as it fits. -/
theorem readVarint_denoted : ∀ {input rest : List UInt8} {shift below n : ℕ},
    readVarint shift below input = .ok (n, rest) →
    ∃ bytes, input = bytes ++ rest ∧ n = (below + denoted bytes * 2 ^ shift) % 2 ^ 64
  | [], rest, shift, below, n, h => by
    unfold readVarint at h
    split_ifs at h
  | byte :: input, rest, shift, below, n, h => by
    unfold readVarint at h
    split_ifs at h
    · cases h
      exact ⟨[byte], rfl, by simp [denoted]⟩
    · obtain ⟨bytes, rfl, rfl⟩ := readVarint_denoted h
      refine ⟨byte :: bytes, rfl, ?_⟩
      rw [Nat.mod_add_mod, denoted]
      congr 1
      ring

/-- **A varint is read as the number it stands for, if that number fits.** What was written is read
back. What is read is the number of the groups that were consumed exactly if it is below `2 ^ 64`:
a tenth byte has room for one bit, and its other bits are dropped. -/
theorem varint_exact (value : UInt64) (tail : List UInt8) :
    readVarint 0 0 (writeVarint value.toNat ++ tail) = .ok (value.toNat, tail) ∧
    ∀ input rest n, readVarint 0 0 input = .ok (n, rest) →
      ∃ bytes, input = bytes ++ rest ∧ n = denoted bytes % 2 ^ 64 ∧
        (n = denoted bytes ↔ denoted bytes < 2 ^ 64) := by
  refine ⟨readVarint_written value.toNat_lt tail, fun input rest n h => ?_⟩
  obtain ⟨bytes, hinput, hn⟩ := readVarint_denoted h
  rw [pow_zero, mul_one, zero_add] at hn
  exact ⟨bytes, hinput, hn, by omega⟩

/-- Ten bytes that stand for `2 ^ 64` are read as zero. -/
theorem varint_truncated :
    readVarint 0 0 (List.replicate 9 0x80 ++ [0x02]) = .ok (0, []) ∧
    denoted (List.replicate 9 0x80 ++ [0x02]) = 2 ^ 64 := by
  decide

/-! ### Fields -/

theorem writeVarint_ne_nil (value : ℕ) : writeVarint value ≠ [] := by
  unfold writeVarint
  split_ifs
  · exact List.cons_ne_nil _ _
  · exact List.cons_ne_nil _ _

/-- A field number that fits its tag. -/
def Numbers (field : ℕ) : Prop := 0 < field ∧ field < 2 ^ 29

theorem IsVarint.nextField {key : List UInt8} (h : IsVarint key) (input : List UInt8) :
    nextField (key ++ input) = if denoted key / 8 % 2 ^ 32 = 0 then .error .fieldZero
      else (readFieldValue input (denoted key % 8)).map fun r =>
        some (denoted key / 8 % 2 ^ 32, r.1, r.2) := by
  have hne : key ++ input ≠ [] := by
    rintro hnil
    rw [(List.append_eq_nil_iff.mp hnil).1] at h
    cases h.closes
  have hnumber : denoted key % 2 ^ 64 / 8 % 2 ^ 32 = denoted key / 8 % 2 ^ 32 := by omega
  have htype : denoted key % 2 ^ 64 % 8 = denoted key % 8 := by omega
  rw [Wire.nextField, if_neg hne, h.read, ok_bind]
  dsimp only
  rw [hnumber, htype]
  cases readFieldValue input (denoted key % 8) with
  | error e => rfl
  | ok r => rfl

theorem nextField_tag (hfield : Numbers field) (htype : wireType < 8)
    (input : List UInt8) : nextField (writeTag field wireType ++ input) =
      (readFieldValue input wireType).map fun r => some (field, r.1, r.2) := by
  obtain ⟨hpos, hlt⟩ := hfield
  have hkey : (field * 8 + wireType) / 8 % 2 ^ 32 = field := by omega
  have hmod : (field * 8 + wireType) % 8 = wireType := by omega
  rw [writeTag, (isVarint_writeVarint (by omega)).nextField, (closes_writeVarint _).2, hkey, hmod,
    if_neg (by omega)]

/-- The bytes are one field. They are read whatever comes behind them, and a part of them is not. -/
structure Writes (bytes : List UInt8) (field : ℕ) (value : FieldValue) : Prop where
  read : ∀ rest, nextField (bytes ++ rest) = .ok (some (field, value, rest))
  cut : ∀ n, 0 < n → n < bytes.length → ∃ e, nextField (bytes.take n) = .error e

theorem readVarint_take : ∀ {bytes : List UInt8} {shift below n : ℕ}, closes bytes = true →
    n < bytes.length → ∃ e, readVarint shift below (bytes.take n) = .error e
  | _ :: _, shift, below, 0, _, _ => by
    rw [List.take_zero, readVarint]
    split_ifs
    · exact ⟨_, rfl⟩
    · exact ⟨_, rfl⟩
  | byte :: bytes, shift, below, n + 1, hcloses, hn => by
    rw [closes] at hcloses
    rw [List.length_cons] at hn
    rw [List.take_succ_cons, readVarint]
    split_ifs at hcloses ⊢
    · exact ⟨_, rfl⟩
    · exact ⟨_, rfl⟩
    · rw [List.isEmpty_iff.mp hcloses] at hn
      exact absurd hn (by simp)
    · exact readVarint_take hcloses (by omega)

theorem readVarint_written_take {value n : ℕ} (h : n < (writeVarint value).length) :
    ∃ e, readVarint 0 0 ((writeVarint value).take n) = .error e :=
  readVarint_take (closes_writeVarint value).1 h

theorem writes_tag (hfield : Numbers field) (htype : wireType < 8)
    (hread : ∀ rest, readFieldValue (input ++ rest) wireType = .ok (value, rest))
    (hcut : ∀ n, n < input.length → ∃ e, readFieldValue (input.take n) wireType = .error e) :
    Writes (writeTag field wireType ++ input) field value where
  read rest := by
    rw [List.append_assoc, nextField_tag hfield htype, hread rest]
    rfl
  cut n hpos hn := by
    rw [List.length_append] at hn
    by_cases hlt : n < (writeTag field wireType).length
    · rw [List.take_append_of_le_length hlt.le]
      obtain ⟨e, he⟩ := readVarint_written_take hlt
      have hne : (writeTag field wireType).take n ≠ [] := by
        rw [ne_eq, List.take_eq_nil_iff]
        rintro (h | h)
        · omega
        · exact writeVarint_ne_nil _ h
      refine ⟨e, ?_⟩
      rw [nextField, if_neg hne, writeTag, he]
      rfl
    · obtain ⟨m, rfl⟩ := Nat.exists_eq_add_of_le (not_lt.mp hlt)
      obtain ⟨e, he⟩ := hcut m (by omega)
      rw [List.take_length_add_append, nextField_tag hfield htype, he]
      exact ⟨e, rfl⟩

theorem writes_message (hfield : Numbers field) {body : List UInt8}
    (hbody : body.length < 2 ^ 64) : Writes (writeMessage field body) field (.bytes body) := by
  refine writes_tag hfield (by decide) ?_ ?_
  · intro rest
    rw [readFieldValue, List.append_assoc, readVarint_written hbody, ok_bind]
    dsimp only
    rw [readSlice, if_neg (by simp), List.take_left, List.drop_left]
    rfl
  · intro n hn
    rw [List.length_append] at hn
    by_cases hlt : n < (writeVarint body.length).length
    · obtain ⟨e, he⟩ := readVarint_written_take hlt
      rw [List.take_append_of_le_length hlt.le, readFieldValue, he]
      exact ⟨e, rfl⟩
    · obtain ⟨m, rfl⟩ := Nat.exists_eq_add_of_le (not_lt.mp hlt)
      have hshort : (body.take m).length < body.length := by
        rw [List.length_take]
        omega
      rw [List.take_length_add_append, readFieldValue, readVarint_written hbody, ok_bind]
      dsimp only
      rw [readSlice, if_pos hshort]
      exact ⟨_, rfl⟩

theorem writes_bytes (hfield : Numbers field) {value : List UInt8} (hne : value ≠ [])
    (hvalue : value.length < 2 ^ 64) : Writes (writeBytes field value) field (.bytes value) := by
  rw [writeBytes, if_neg hne]
  exact writes_message hfield hvalue

theorem writes_uint64 (hfield : Numbers field) {value : UInt64} (hvalue : value ≠ 0) :
    Writes (writeUint64 field value) field (.varint value) := by
  rw [writeUint64, if_neg hvalue]
  refine writes_tag hfield (by decide) ?_ ?_
  · intro rest
    rw [readFieldValue, readVarint_written value.toNat_lt, ok_bind]
    dsimp only
    rw [UInt64.ofNat_toNat]
    rfl
  · intro n hn
    obtain ⟨e, he⟩ := readVarint_written_take hn
    rw [readFieldValue, he]
    exact ⟨e, rfl⟩

section Fold

variable {σ ε : Type} {wire : WireError → ε} {step : σ → ℕ → FieldValue → Except ε σ}

theorem foldFields_eq (s : σ) (input : List UInt8) : foldFields wire step s input =
    match nextField input with
    | .error e => .error (wire e)
    | .ok none => .ok s
    | .ok (some (field, value, rest)) =>
      step s field value >>= fun s => foldFields wire step s rest := by
  rw [foldFields]
  split
  · next h => rw [h]
  · next h => rw [h]
  · next h => rw [h]

theorem foldFields_nil (s : σ) : foldFields wire step s [] = .ok s := foldFields_eq s []

theorem foldFields_next {s : σ} (h : nextField input = .ok (some (field, value, rest))) :
    foldFields wire step s input = step s field value >>= fun s => foldFields wire step s rest := by
  rw [foldFields_eq, h]

variable {bytes : List UInt8}

theorem Writes.foldFields (h : Writes bytes field value) (s : σ) (rest : List UInt8) :
    foldFields wire step s (bytes ++ rest) =
      step s field value >>= fun s => Wire.foldFields wire step s rest :=
  foldFields_next (h.read rest)

theorem Writes.foldFields_cut (h : Writes bytes field value) (s : σ) {n : ℕ}
    (hpos : 0 < n) (hn : n < bytes.length) :
    ∃ e, Wire.foldFields wire step s (bytes.take n) = .error e := by
  obtain ⟨e, he⟩ := h.cut n hpos hn
  exact ⟨wire e, by rw [foldFields_eq, he]⟩

/-! ### Messages field by field -/

variable {s s' : σ} {field : ℕ}

/-- A default is not written, and another value is read back. -/
theorem foldFields_optional {bytes : List UInt8} {value : FieldValue}
    (h : bytes = [] ∧ s' = s ∨ Writes bytes field value ∧ step s field value = .ok s')
    (rest : List UInt8) :
    Wire.foldFields wire step s (bytes ++ rest) = Wire.foldFields wire step s' rest := by
  rcases h with ⟨rfl, rfl⟩ | ⟨hwrites, hstep⟩
  · rfl
  · rw [hwrites.foldFields, hstep]
    rfl

theorem length_writeBytes_le (field : ℕ) (value : List UInt8) :
    value.length ≤ (writeBytes field value).length := by
  unfold writeBytes writeMessage
  split_ifs with hempty
  · rw [hempty]
  · simp only [List.length_append]
    omega

theorem foldFields_bytes (hfield : Numbers field) {value : List UInt8}
    (hlen : value.length < 2 ^ 64) (hread : step s field (.bytes value) = .ok s')
    (hdefault : value = [] → s' = s) (rest : List UInt8) :
    Wire.foldFields wire step s (writeBytes field value ++ rest) =
      Wire.foldFields wire step s' rest := by
  refine @foldFields_optional σ ε wire step s s' field _ (.bytes value) ?_ rest
  by_cases hempty : value = []
  · exact .inl ⟨by rw [writeBytes, if_pos hempty], hdefault hempty⟩
  · exact .inr ⟨writes_bytes hfield hempty hlen, hread⟩

theorem foldFields_text (set : String → σ) (hfield : Numbers field) {text : String}
    (hlen : (utf8 text).length < 2 ^ 64)
    (hread : step (set "") field (.bytes (utf8 text)) = .ok (set text)) (rest : List UInt8) :
    Wire.foldFields wire step (set "") (writeString field text ++ rest) =
      Wire.foldFields wire step (set text) rest := by
  refine foldFields_bytes hfield hlen hread (fun hempty => ?_) rest
  rw [show text = "" from utf8_injective (hempty.trans (by decide))]

theorem foldFields_uint64 (hfield : Numbers field) {value : UInt64}
    (hread : step s field (.varint value) = .ok s') (hdefault : value = 0 → s' = s)
    (rest : List UInt8) :
    Wire.foldFields wire step s (writeUint64 field value ++ rest) =
      Wire.foldFields wire step s' rest := by
  refine @foldFields_optional σ ε wire step s s' field _ (.varint value) ?_ rest
  by_cases hzero : value = 0
  · exact .inl ⟨by rw [writeUint64, if_pos hzero], hdefault hzero⟩
  · exact .inr ⟨writes_uint64 hfield hzero, hread⟩

theorem foldFields_repeated {τ : Type} {encode : τ → List UInt8} {push : σ → τ → σ}
    (hfield : Numbers field) : ∀ {xs : List τ} {s : σ}, (∀ x ∈ xs, (encode x).length < 2 ^ 64) →
    (∀ s, ∀ x ∈ xs, step s field (.bytes (encode x)) = .ok (push s x)) → ∀ rest : List UInt8,
    Wire.foldFields wire step s (xs.flatMap (fun x => writeMessage field (encode x)) ++ rest) =
      Wire.foldFields wire step (xs.foldl push s) rest
  | [], _, _, _, _ => rfl
  | x :: xs, s, hlen, hread, rest => by
    rw [List.flatMap_cons, List.append_assoc,
      (writes_message hfield (hlen x List.mem_cons_self)).foldFields, hread s x List.mem_cons_self]
    exact foldFields_repeated hfield (fun y hy => hlen y (List.mem_cons_of_mem _ hy))
      (fun t y hy => hread t y (List.mem_cons_of_mem _ hy)) rest

theorem asStr_utf8 (text : String) : (FieldValue.bytes (utf8 text)).asStr field = .ok text := by
  simp [FieldValue.asStr, FieldValue.asBytes, fromUtf8_utf8]

end Fold

end ArkForge.Ipc.Wire
