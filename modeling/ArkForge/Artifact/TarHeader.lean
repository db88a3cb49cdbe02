import ArkForge.Core.Cbor
import Mathlib.Data.List.DropRight

/-! # Tar headers

What the tar reader does with one header block that is not part of the end marker: its checksum, its
numbers, its path and its type. A number field is meant to hold octal digits or, for larger numbers,
a base-256 number; `parseOctal` is compared with what such a field denotes. -/

namespace ArkForge.Artifact.TarHeader

open Lib.Result Lib.Bytes Core.Cbor

def BLOCK : ℕ := 512
def MAX_PATH_LEN : ℕ := 1024

/-- Why a header is refused. The first three are `ArchiveInvalid`, with what its message tells. -/
inductive ArchiveError where
  | overflows (name : String)
  | notOctal (name : String) (text : List UInt8)
  | checksumMismatch (declared computed : ℕ)
  | pathAbsolute (path : String)
  | pathTraversal (path : String)
  | pathInvalid (path : String)
  | pathDuplicate (path : String)
  | linkUnsupported (path : String)
  | memberTypeUnsupported (path : String) (typeFlag : Char)
  deriving DecidableEq

/-! ### Numbers

The text of a field is a list of bytes here, each of them the character of its number. -/

def checkedU64 (n : ℕ) : Option ℕ := if n < 2 ^ 64 then some n else none

/-- `char::is_whitespace`, on the characters that a byte can be. -/
def isWhitespace (c : UInt8) : Bool := 9 ≤ c ∧ c ≤ 13 ∨ c = 32 ∨ c = 0x85 ∨ c = 0xa0

def isOctalDigit (c : UInt8) : Bool := 48 ≤ c ∧ c ≤ 55

def octalValue (digits : List UInt8) : ℕ := digits.foldl (fun n c => n * 8 + (c.toNat - 48)) 0

/-- `u64::from_str_radix(text, 8)`: a plus sign may stand in front of the digits. -/
def fromOctal (text : List UInt8) : Option ℕ :=
  let digits := if text.head? = some 43 then text.tail else text
  if digits ≠ [] ∧ digits.all isOctalDigit then checkedU64 (octalValue digits) else none

/-- What is read as octal: the field up to a NUL or a space, trimmed. -/
def fieldText (field : List UInt8) : List UInt8 :=
  ((field.takeWhile fun byte => byte ≠ 0 ∧ byte ≠ 32).dropWhile isWhitespace).rdropWhile isWhitespace

def parseOctal (field : List UInt8) (name : String) : Except ArchiveError ℕ :=
  if field.headD 0 &&& 0x80 ≠ 0 then
    let value := field.tail.foldlM (fun value byte =>
      (checkedU64 (value * 256)).bind fun shifted => checkedU64 (shifted + byte.toNat)) 0
    value.elim (.error (.overflows name)) .ok
  else if fieldText field = [] then .ok 0
  else (fromOctal (fieldText field)).elim (.error (.notOctal name (fieldText field))) .ok

/-! ### Headers -/

variable (header : Vector UInt8 BLOCK)

def slice (start stop : ℕ) : List UInt8 := header.toList.extract start stop

def sizeField : List UInt8 := slice header 124 136

def verifyChecksum : Except ArchiveError Unit := do
  let declared ← parseOctal (slice header 148 156) "checksum"
  -- the field itself counts as spaces
  let values := slice header 0 148 ++ List.replicate 8 32 ++ slice header 156 BLOCK
  let unsignedSum := (values.map UInt8.toNat).sum
  let signedSum := (values.map fun value => value.toInt8.toInt).sum
  if declared = unsignedSum ∨ (declared : ℤ).bmod (2 ^ 64) = signedSum then .ok ()
  else .error (.checksumMismatch declared unsignedSum)

def stripNul (bytes : List UInt8) : List UInt8 := bytes.takeWhile (· ≠ 0)

def headerPath : Except ArchiveError String :=
  let pre := stripNul (slice header 345 500)
  let raw := (if slice header 257 262 = utf8 "ustar" ∧ pre ≠ [] then pre ++ utf8 "/" else []) ++
    stripNul (slice header 0 100)
  (fromUtf8 raw).elim (.error (.pathInvalid "<non-utf8 member path>")) .ok

def isControl (c : Char) : Bool := c.toNat < 0x20 ∨ 0x7f ≤ c.toNat ∧ c.toNat < 0xa0

/-- Whether a `..` leads out of the directory the components started in, `depth` levels up. -/
def escapes : ℕ → List (List Char) → Bool
  | _, [] => false
  | depth, component :: rest =>
    if component = [] ∨ component = ['.'] then escapes depth rest
    else if component = ['.', '.'] then depth = 0 || escapes (depth - 1) rest
    else escapes (depth + 1) rest

def validatePath (raw : String) : Except ArchiveError String :=
  let components := raw.toList.splitOn '/'
  let normalized := components.filter fun component => component ≠ [] ∧ component ≠ ['.']
  if raw.isEmpty then .error (.pathInvalid raw)
  else if (utf8 raw).length > MAX_PATH_LEN then
    .error (.pathInvalid s!"<{(utf8 raw).length} bytes>")
  else if raw.toList.head? = some '/' then .error (.pathAbsolute raw)
  else if '\\' ∈ raw.toList ∨ raw.toList.any isControl then .error (.pathInvalid raw)
  else if escapes 0 components then .error (.pathTraversal raw)
  else if normalized = [] then .error (.pathInvalid raw)
  else if ['.', '.'] ∈ normalized then .error (.pathTraversal raw)
  else .ok (String.ofList (['/'].intercalate normalized))

structure TarMemberHeader where
  path : String
  size : ℕ
  mode : ℕ
  deriving DecidableEq

/-- What earlier headers leave to the next one. -/
structure TarReader where
  seenPaths : List String := []
  nextPathOverride : Option String := none
  nextSizeOverride : Option ℕ := none

/-- What a header announces: a body that is about other members, or a member. -/
inductive Announced where
  | metadata (typeFlag : Char) (size : ℕ)
  | member (header : TarMemberHeader)
  deriving DecidableEq

def Announced.size : Announced → ℕ
  | metadata _ size => size
  | member header => header.size

/-- The part of `next_member` that looks at a header. -/
def readHeader (reader : TarReader) : Except ArchiveError Announced := do
  verifyChecksum header
  let typeFlag := Char.ofNat (header.get ⟨156, by decide⟩).toNat
  let declaredSize ← parseOctal (sizeField header) "size"
  if typeFlag ∈ ['x', 'X', 'g', 'L', 'K'] then return .metadata typeFlag declaredSize
  let rawPath ← reader.nextPathOverride.elim (headerPath header) .ok
  let size := reader.nextSizeOverride.getD declaredSize
  let path ← validatePath rawPath
  if typeFlag ∈ ['1', '2'] then .error (.linkUnsupported path)
  else if typeFlag ∉ ['0', '\x00', '7'] then .error (.memberTypeUnsupported path typeFlag)
  else if path ∈ reader.seenPaths then .error (.pathDuplicate path)
  else
    let mode ← parseOctal (slice header 100 108) "mode"
    return .member ⟨path, size, mode % 2 ^ 32⟩

/-! ### What a field denotes -/

/-- Octal digits with spaces in front of them and spaces and NULs behind them. -/
structure Octal (field spaces digits rest : List UInt8) : Prop where
  eq : field = spaces ++ (digits ++ rest)
  space : ∀ c ∈ spaces, c = 32
  digit : ∀ c ∈ digits, isOctalDigit c
  blank : ∀ c ∈ rest, c = 32 ∨ c = 0

/-- The number that a field stands for. The first byte of a base-256 number has a bit that marks it,
one for the sign and six of the value. -/
def Denotes (field : List UInt8) (n : ℕ) : Prop :=
  (∃ spaces digits rest, Octal field spaces digits rest ∧ n = octalValue digits) ∨
  ∃ first rest, field = first :: rest ∧ 128 ≤ first ∧ first < 192 ∧ n = beNat ((first - 128) :: rest)

theorem mark_iff : ∀ c : UInt8, c &&& 0x80 ≠ 0 ↔ 128 ≤ c := by
  decide +kernel

theorem digit_spec : ∀ c, isOctalDigit c →
    c < 128 ∧ c ≠ 0 ∧ c ≠ 32 ∧ c ≠ 43 ∧ isWhitespace c = false := by
  decide +kernel

theorem checkedU64_eq_some {m n : ℕ} (h : checkedU64 m = some n) : n = m := by
  unfold checkedU64 at h
  split at h
  · exact (Option.some.inj h).symm
  · cases h

theorem foldlM_checked {n : ℕ} : ∀ {rest : List UInt8} {value : ℕ},
    rest.foldlM (fun value byte =>
      (checkedU64 (value * 256)).bind fun shifted => checkedU64 (shifted + byte.toNat)) value = some n →
    n = value * 256 ^ rest.length + beNat rest
  | [], value, h => by
    cases h
    simp [beNat]
  | byte :: rest, value, h => by
    obtain ⟨next, hnext, h⟩ := Option.bind_eq_some_iff.mp h
    obtain ⟨shifted, hshifted, hnext⟩ := Option.bind_eq_some_iff.mp hnext
    rw [foldlM_checked h, checkedU64_eq_some hnext, checkedU64_eq_some hshifted, beNat,
      List.length_cons]
    ring

section Parse

variable {field spaces digits rest : List UInt8} {first : UInt8} {name : String} {n : ℕ}

/-- A base-256 number is read without the bits of its first byte. -/
theorem parseOctal_base256 (hf : 128 ≤ first) (h : parseOctal (first :: rest) name = .ok n) :
    n = beNat rest := by
  rw [parseOctal, List.headD_cons, if_pos ((mark_iff first).mpr hf)] at h
  simpa using foldlM_checked (elim_eq_ok.mp h)

theorem not_marked (ho : Octal field spaces digits rest) : ¬ field.headD 0 &&& 0x80 ≠ 0 := by
  have hlow : ∀ c ∈ field, c < 128 := by
    simp only [ho.eq, List.forall_mem_append]
    refine ⟨fun c hc => ?_, fun c hc => (digit_spec c (ho.digit c hc)).1, fun c hc => ?_⟩
    · cases ho.space c hc
      decide
    · rcases ho.blank c hc with rfl | rfl <;> decide
  rw [mark_iff, UInt8.not_le]
  rcases field with _ | ⟨c, tail⟩
  · decide
  · exact hlow c List.mem_cons_self

/-- A space in front of the digits hides them. -/
theorem fieldText_octal (ho : Octal field spaces digits rest) :
    fieldText field = if spaces = [] then digits else [] := by
  obtain ⟨rfl, hspace, hdigit, hblank⟩ := ho
  replace hdigit := fun c hc => digit_spec c (hdigit c hc)
  unfold fieldText
  rcases spaces with _ | ⟨c, spaces⟩
  · have htext : rest.takeWhile (fun byte => byte ≠ 0 ∧ byte ≠ 32) = [] := by
      rcases rest with _ | ⟨c, rest⟩
      · rfl
      · rcases hblank c List.mem_cons_self with rfl | rfl <;> simp
    have hdrop : digits.dropWhile isWhitespace = digits :=
      List.dropWhile_eq_self_iff.mpr fun hl => by simp [hdigit _ (List.getElem_mem hl)]
    have hrdrop : digits.rdropWhile isWhitespace = digits :=
      List.rdropWhile_eq_self_iff.mpr fun hl => by simp [hdigit _ (List.getLast_mem hl)]
    rw [List.nil_append, List.takeWhile_append_of_pos fun c hc => by simp [hdigit c hc], htext,
      List.append_nil, hdrop, hrdrop, if_pos rfl]
  · cases hspace c List.mem_cons_self
    simp

/-- Octal digits are read as they should be if no space comes before them, and as zero if one does. -/
theorem parseOctal_octal (ho : Octal field spaces digits rest) (h : parseOctal field name = .ok n) :
    n = if spaces = [] then octalValue digits else 0 := by
  rw [parseOctal, if_neg (not_marked ho), fieldText_octal ho] at h
  by_cases hs : spaces = []
  · rw [if_pos hs] at h ⊢
    split at h
    · next hnil =>
      cases h
      rw [hnil]
      rfl
    · have hplus : digits.head? ≠ some 43 := fun hp =>
        (digit_spec 43 (ho.digit 43 (List.mem_of_head? hp))).2.2.2.1 rfl
      have hread := elim_eq_ok.mp h
      simp only [fromOctal, if_neg hplus] at hread
      split at hread
      · exact checkedU64_eq_some hread
      · cases hread
  · rw [if_neg hs] at h
    rw [if_neg hs]
    exact (Except.ok.inj h).symm

end Parse

/-- The fields that are read right: no space comes before octal digits other than zeros, and the
first byte of a base-256 number is bare. -/
def Plain (field : List UInt8) : Prop :=
  (∃ spaces digits rest, Octal field spaces digits rest ∧ (spaces = [] ∨ octalValue digits = 0)) ∨
    field.head? = some 128

section Read

variable {header : Vector UInt8 BLOCK} {reader : TarReader} {read : Announced}

-- Where a member is announced no pax size is pending.
variable (hn : ∀ member, read = .member member → reader.nextSizeOverride = none)
include hn

theorem parseOctal_readHeader (h : readHeader header reader = .ok read) :
    parseOctal (sizeField header) "size" = .ok read.size := by
  obtain ⟨_, -, h⟩ := bind_eq_ok.mp h
  obtain ⟨size, hsize, h⟩ := bind_eq_ok.mp h
  rw [hsize]
  split at h
  · cases h
    rfl
  · obtain ⟨rawPath, -, h⟩ := bind_eq_ok.mp h
    obtain ⟨path, -, h⟩ := bind_eq_ok.mp h
    obtain ⟨-, h⟩ := guard_eq_ok.mp h
    obtain ⟨-, h⟩ := guard_eq_ok.mp h
    obtain ⟨-, h⟩ := guard_eq_ok.mp h
    obtain ⟨mode, -, h⟩ := bind_eq_ok.mp h
    cases h
    rw [Announced.size, hn _ rfl]
    rfl

/-- The size that is used for a header is the one its field denotes just if the field is plain. A pax
size takes the place of the size of a member, and of nothing else. -/
theorem size_denoted_iff (h : readHeader header reader = .ok read) :
    Denotes (sizeField header) read.size ↔ Plain (sizeField header) := by
  have hp := parseOctal_readHeader hn h
  constructor
  · rintro (⟨spaces, digits, rest, ho, hsize⟩ | ⟨first, rest, hfield, hfirst, hsign, hsize⟩)
    · refine .inl ⟨spaces, digits, rest, ho, ?_⟩
      have hread := parseOctal_octal ho hp
      grind
    · have hread := parseOctal_base256 hfirst (hfield ▸ hp)
      have hzero : (first - 128).toNat * 256 ^ rest.length = 0 := by
        rw [hsize, beNat] at hread
        omega
      have hbare : first - 128 = 0 := UInt8.toNat_inj.mp (by simpa using hzero)
      refine .inr ?_
      grind
  · rintro (⟨spaces, digits, rest, ho, hor⟩ | hfirst)
    · refine .inl ⟨spaces, digits, rest, ho, ?_⟩
      have hread := parseOctal_octal ho hp
      grind
    · obtain ⟨rest, hfield⟩ := List.head?_eq_some_iff.mp hfirst
      have hread := parseOctal_base256 (by decide) (hfield ▸ hp)
      exact .inr ⟨128, rest, hfield, by decide, by decide, by rw [hread]; simp [beNat]⟩

end Read

/-- The header of a member `a` with a size padded with spaces. -/
def spaced : Vector UInt8 BLOCK :=
  ⟨((97 : UInt8) :: List.replicate 99 0 ++ [48, 48, 48, 48, 54, 52, 52, 0] ++ List.replicate 16 0 ++
    List.replicate 9 32 ++ [49, 48, 0] ++ List.replicate 12 0 ++
    [48, 48, 50, 49, 54, 48, 0, 32, 48] ++ List.replicate 355 0).toArray, by decide +kernel⟩

theorem readHeader_spaced : readHeader spaced {} = .ok (.member ⟨"a", 0, 0o644⟩) := by
  decide +kernel

/-- The size is eight, and read as zero. -/
theorem spaced_misread :
    Denotes (sizeField spaced) 8 ∧ readHeader spaced {} = .ok (.member ⟨"a", 0, 0o644⟩) :=
  ⟨.inl ⟨List.replicate 9 32, [49, 48], [0], ⟨by decide, by simp, by simp [isOctalDigit], by simp⟩,
    by decide⟩, readHeader_spaced⟩

theorem spaced_denoted_iff : Denotes (sizeField spaced) 0 ↔ Plain (sizeField spaced) :=
  @size_denoted_iff spaced {} _ (fun _ _ => rfl) readHeader_spaced

end ArkForge.Artifact.TarHeader
