import ArkForge.Lib.Lines
import ArkForge.Provider.Execute
import ArkForge.Provider.GptExtents

/-! # The digest of a layout

A rescue write is planned against the digest of the table that was read, and is refused when the
digest has changed. What is hashed is a line `name@offset` for each entry. A name may contain what
looks like the end of a line, so one entry can look like two. -/

namespace ArkForge.Provider.LayoutDigest

open Lib.Bytes Lib.Lines Lib.Storage
open Core.Cbor Core.Digest
open Artifact.Manifest Execute RockUsb SectorArray

def observedLayoutDigest (table : PartitionTableFact) : Sha256Digest := layoutDigestOf table

/-- The names and first sectors, in table order. -/
def placements (table : PartitionTableFact) : List (String × UInt64) :=
  table.entries.map fun e => (e.name, e.offsetSectors)

def chars (p : String × UInt64) : List Char × List Char := (p.1.toList, (toString p.2.toNat).toList)

/-- What is hashed. -/
def layoutText (table : PartitionTableFact) : List UInt8 :=
  utf8 (String.ofList (text '@' '\n' ((placements table).map chars)))

theorem observedLayoutDigest_eq (table : PartitionTableFact) :
    observedLayoutDigest table = sha256 (layoutText table) := by
  unfold observedLayoutDigest layoutDigestOf layoutText placements
  congr 1
  induction table.entries with
  | nil => rfl
  | cons e entries ih =>
    have hline : String.ofList (text '@' '\n' (((e :: entries).map fun e =>
        (e.name, e.offsetSectors)).map chars)) = e.name ++ "@" ++ toString e.offsetSectors.toNat ++
          "\n" ++ String.ofList
            (text '@' '\n' ((entries.map fun e => (e.name, e.offsetSectors)).map chars)) := by
      rw [← String.toList_inj]
      simp [chars]
    rw [List.flatMap_cons, ih, hline]
    simp only [utf8_append]

theorem toList_toString (n : ℕ) : (toString n).toList = Nat.toDigits 10 n := String.toList_ofList

theorem chars_injective : Function.Injective chars := by
  rintro ⟨name, offset⟩ ⟨name', offset'⟩ h
  obtain ⟨hname, hoffset⟩ := Prod.mk.inj h
  simp only [toList_toString] at hoffset
  have hvalue := congrArg (Nat.ofDigitChars 10 · 0) hoffset
  simp only [Nat.ofDigitChars_toDigits (show 1 < 10 by decide) (by decide)] at hvalue
  exact Prod.ext (String.toList_inj.mp hname) (UInt64.toNat_inj.mp hvalue)

/-- What stands behind the at sign: the number of a sector. -/
def sectors : Set (List Char) := {v | ∃ d : UInt64, v = (toString d.toNat).toList}

theorem isDigit_of_mem {v : List Char} (hv : v ∈ sectors) {c : Char} (hc : c ∈ v) : c.isDigit := by
  obtain ⟨d, rfl⟩ := hv
  rw [toList_toString] at hc
  exact Nat.isDigit_of_mem_toDigits (by decide) (by decide) hc

theorem notMem_of_mem_sectors : ∀ v ∈ sectors, '@' ∉ v ∧ '\n' ∉ v := fun _ hv =>
  ⟨fun hmem => absurd (isDigit_of_mem hv hmem) (by decide),
    fun hmem => absurd (isDigit_of_mem hv hmem) (by decide)⟩

/-! ### Tables that are read -/

/-- The table is read from some device. -/
def Returned (table : PartitionTableFact) : Prop :=
  ∃ (ω : Type) (bulk : BulkIo ω) (s : RockUsbProtocol ω), (readPartitionTable bulk s).1 = .ok table

/-! ### Two layouts with one digest -/

/-- A partition entry with a name in ASCII. -/
def namedEntry (first last : ℕ) (name : String) : List UInt8 :=
  1 :: List.replicate 31 0 ++ leBytes 8 first ++ leBytes 8 last ++ List.replicate 8 0 ++
    (utf8 name).flatMap (fun c => [c, 0]) ++ List.replicate (72 - 2 * name.length) 0

def tableHeader (count : ℕ) (array : List UInt8) (crc : UInt32) : List UInt8 :=
  [0x45, 0x46, 0x49, 0x20, 0x50, 0x41, 0x52, 0x54, 0, 0, 1, 0] ++ leBytes 4 92 ++ leBytes 4 crc.toNat ++
    List.replicate 52 0 ++ leBytes 8 2 ++ leBytes 4 count ++ leBytes 4 128 ++
      leBytes 4 (crc32 array).toNat

/-- A device with a partition table in its sectors 1 and 2. -/
def tableDisk (count : ℕ) (array : List UInt8) : Medium := fun i =>
  if i < 512 then 0
  else if i < 1024 then (tableHeader count array (crc32 (tableHeader count array 0))).getD (i - 512) 0
  else array.getD (i - 1024) 0

/-! ### What the digest identifies -/

/-- No name of the table contains what a line ends with. -/
def Plain (table : PartitionTableFact) : Prop :=
  ∀ p ∈ placements table, ¬ Splits '@' '\n' sectors p.1.toList

def Over (characters : Set Char) (table : PartitionTableFact) : Prop :=
  ∀ p ∈ placements table, ∀ c ∈ p.1.toList, c ∈ characters

/-- If the tables have one digest, they have the same names and first sectors, or different texts of
theirs have one hash. -/
def Identified (table other : PartitionTableFact) : Prop :=
  observedLayoutDigest table = observedLayoutDigest other → placements table = placements other ∨
    layoutText table ≠ layoutText other ∧ sha256 (layoutText table) = sha256 (layoutText other)

variable {table other : PartitionTableFact}

theorem Plain.identified (hplain : Plain table) (hplain' : Plain other) : Identified table other := by
  intro h
  rw [observedLayoutDigest_eq, observedLayoutDigest_eq] at h
  have hlines : ∀ {t : PartitionTableFact}, Plain t →
      ∀ q ∈ (placements t).map chars, q.2 ∈ sectors ∧ ¬ Splits '@' '\n' sectors q.1 := fun hp =>
    List.forall_mem_map.mpr fun p hmem => ⟨⟨p.2, rfl⟩, hp p hmem⟩
  refine or_iff_not_imp_right.mpr fun hsame => ?_
  have htext : layoutText table = layoutText other := not_not.mp fun hne => hsame ⟨hne, h⟩
  refine List.map_injective_iff.mpr chars_injective ?_
  exact text_injective_of_not_splits (by decide) notMem_of_mem_sectors (hlines hplain)
    (hlines hplain') (String.ofList_inj.mp (utf8_injective htext))

theorem Over.plain {characters : Set Char} (hover : Over characters table)
    (hbreak : '\n' ∉ characters) : Plain table := by
  rintro p hp ⟨a, v, b, -, hname⟩
  refine hbreak (hover p hp _ ?_)
  simp [hname]

/-- One partition `a@40⏎b`. -/
def mergedTable : PartitionTableFact := ⟨DEVICE_STRING, 512, tableEntries [⟨0, 50, "a@40\nb"⟩]⟩

def pairTable : PartitionTableFact :=
  ⟨DEVICE_STRING, 512, tableEntries [⟨0, 40, "a"⟩, ⟨1, 50, "b"⟩]⟩

theorem read_merged : (readPartitionTable SectorDevice.bulk
    ⟨⟨tableDisk 1 (namedEntry 50 59 "a@40\nb"), .idle, []⟩, 1⟩).1 = .ok mergedTable := by
  decide +kernel

theorem read_pair : (readPartitionTable SectorDevice.bulk
    ⟨⟨tableDisk 2 (namedEntry 40 49 "a" ++ namedEntry 50 59 "b"), .idle, []⟩, 1⟩).1 =
      .ok pairTable := by
  decide +kernel

theorem digest_merged : observedLayoutDigest mergedTable = observedLayoutDigest pairTable := by
  rw [observedLayoutDigest_eq]
  congr 1

/-- **What the digest of a layout identifies.** Tables in which no name contains what a line ends with
are told apart by what is hashed. Of a set of characters for names, which has the printable ones of
ASCII at least, all tables that are read are told apart just if it is without the line break. -/
theorem layout_digest_identifies (characters : Set Char)
    (hascii : ∀ c, ' ' ≤ c → c ≤ '~' → c ∈ characters) :
    (∀ table other, Plain table → Plain other → Identified table other) ∧
    ((∀ table other, Returned table → Returned other → Over characters table → Over characters other →
      Identified table other) ↔ '\n' ∉ characters) := by
  refine ⟨fun table other hplain hplain' => hplain.identified hplain', fun hall hbreak => ?_,
    fun hbreak table other _ _ hover hover' =>
      (hover.plain hbreak).identified (hover'.plain hbreak)⟩
  have hover : Over characters mergedTable := by
    simp only [Over, placements, mergedTable, tableEntries, List.map_cons, List.map_nil,
      List.forall_mem_singleton]
    intro c hc
    by_cases hprintable : ' ' ≤ c ∧ c ≤ '~'
    · exact hascii c hprintable.1 hprintable.2
    · have : ∀ c ∈ "a@40\nb".toList, ¬ (' ' ≤ c ∧ c ≤ '~') → c = '\n' := by simp
      exact this c hc hprintable ▸ hbreak
  have hover' : Over characters pairTable := by
    have hnames : ∀ p ∈ placements pairTable, ∀ c ∈ p.1.toList, ' ' ≤ c ∧ c ≤ '~' := by
      simp [placements, pairTable, tableEntries]
    exact fun p hp c hc => hascii c (hnames p hp c hc).1 (hnames p hp c hc).2
  rcases hall mergedTable pairTable ⟨_, _, _, read_merged⟩ ⟨_, _, _, read_pair⟩ hover hover'
    digest_merged with hsame | ⟨hdiffer, -⟩
  · exact absurd hsame (by decide)
  · exact hdiffer rfl

/-- Two layouts that differ by an at sign in a name have different digests, but for a collision. -/
theorem layout_digest_identifies_at : ∃ table other,
    Returned table ∧ Returned other ∧ placements table ≠ placements other ∧
    (observedLayoutDigest table = observedLayoutDigest other →
      layoutText table ≠ layoutText other ∧ sha256 (layoutText table) = sha256 (layoutText other)) := by
  have hread : (readPartitionTable SectorDevice.bulk
      ⟨⟨tableDisk 1 (namedEntry 50 59 "a@40"), .idle, []⟩, 1⟩).1 =
        .ok ⟨DEVICE_STRING, 512, tableEntries [⟨0, 50, "a@40"⟩]⟩ := by decide +kernel
  have hdiffer : placements ⟨DEVICE_STRING, 512, tableEntries [⟨0, 50, "a@40"⟩]⟩ ≠
      placements pairTable := by decide
  refine ⟨_, pairTable, ⟨_, _, _, hread⟩, ⟨_, _, _, read_pair⟩, hdiffer, fun hdigest => ?_⟩
  have hidentified := (layout_digest_identifies {c | c ≠ '\n'} ?_).2.mpr (by simp) _ pairTable
    ⟨_, _, _, hread⟩ ⟨_, _, _, read_pair⟩ ?_ ?_ hdigest
  · exact hidentified.resolve_left hdiffer
  · rintro c hle - rfl
    exact absurd hle (by decide)
  · show ∀ p ∈ placements _, ∀ c ∈ p.1.toList, c ≠ '\n'
    simp [placements, tableEntries]
  · show ∀ p ∈ placements _, ∀ c ∈ p.1.toList, c ≠ '\n'
    simp [placements, pairTable, tableEntries]

/-- One partition `a@40⏎b` and two partitions `a` and `b` are read from devices and have one digest. -/
theorem layouts_share_digest : ∃ table other,
    (readPartitionTable SectorDevice.bulk
      ⟨⟨tableDisk 1 (namedEntry 50 59 "a@40\nb"), .idle, []⟩, 1⟩).1 = .ok table ∧
    (readPartitionTable SectorDevice.bulk
      ⟨⟨tableDisk 2 (namedEntry 40 49 "a" ++ namedEntry 50 59 "b"), .idle, []⟩, 1⟩).1 = .ok other ∧
    observedLayoutDigest table = observedLayoutDigest other ∧ placements table ≠ placements other :=
  ⟨mergedTable, pairTable, read_merged, read_pair, digest_merged, by decide⟩

end ArkForge.Provider.LayoutDigest
