import ArkForge.Provider.SectorProtocol

/-! # The extents of a partition table

What a GPT on the medium stores, read by the positions of its fields, next to what the engine reports
of it. Names and first sectors are the stored ones. A size is the distance to the next entry and not
the stored end, so the extents are true exactly when every entry ends before the next one begins. -/

namespace ArkForge.Provider.GptExtents

open Lib.Bytes Lib.Result Lib.Fallible Lib.Storage
open Artifact.Manifest RockUsb SectorArray SectorProtocol Chunking

/-! ### The stored table -/

/-- The little-endian number at an address. -/
def number (m : Medium) (address width : ℕ) : ℕ := leNat (m.read address width)

/-- A used entry: its first and its last sector, and its name when that is UTF-16. -/
structure StoredEntry where
  first : ℕ
  last : ℕ
  name : Option String
  deriving DecidableEq

/-- The entry at an address. One whose type is zero is not used. -/
def storedEntry (m : Medium) (address : ℕ) : Option StoredEntry :=
  if (m.read address 16).all (· = 0) then none
  else some {
    first := number m (address + 32) 8
    last := number m (address + 40) 8
    name := (fromUtf16 (nameUnits (m.read (address + 56) 72))).map String.ofList }

/-- The used entries of the table whose header is in sector 1, in their order. -/
def usedEntries (m : Medium) : List StoredEntry :=
  (List.range' 0 (number m (512 + 80) 4)).filterMap fun i =>
    storedEntry m (LOGICAL_BLOCK_BYTES * number m (512 + 72) 8 + i * number m (512 + 84) 4)

def StoredEntry.Has (e : StoredEntry) (sector : ℕ) : Prop := e.first ≤ sector ∧ sector ≤ e.last

/-- The sectors of a reported entry. One without a size takes the rest of the device. -/
def Covers (fact : PartitionEntryFact) (sector : ℕ) : Prop :=
  fact.offsetSectors.toNat ≤ sector ∧
    ∀ size ∈ fact.sizeSectors, sector < fact.offsetSectors.toNat + size.toNat

/-- The entries are reported in order, with their names and first sectors. -/
def Reported (used : List StoredEntry) (entries : List PartitionEntryFact) : Prop :=
  List.Forall₂ (fun e fact => e.name = some fact.name ∧ e.first = fact.offsetSectors.toNat) used entries

/-- Every stored extent is inside the reported one and apart from the others. -/
def TrueExtents (used : List StoredEntry) (entries : List PartitionEntryFact) : Prop :=
  List.Forall₂ (fun e fact => ∀ sector, e.Has sector → Covers fact sector) used entries ∧
    used.Pairwise fun e f => ∀ sector, ¬ (e.Has sector ∧ f.Has sector)

/-! ### What the parser reads -/

variable {m : Medium} {address size : ℕ}

theorem leAt_read {width count offset : ℕ} (h : offset + width ≤ count) :
    leAt width (m.read address count) offset = .ok (number m (address + offset) width) := by
  rw [leAt, Medium.length_read, if_pos h, Medium.slice_read h, number]

/-- The fields of the header, whatever they are read from. -/
theorem parse_eq_ok {block : List UInt8} {value : ℕ → ℕ → ℕ} {header : GptHeader}
    (hread : ∀ {width offset : ℕ}, offset + width ≤ 512 →
      leAt width block offset = .ok (value offset width))
    (h : GptHeader.parse block = .ok header) :
    header.entryLba = value 72 8 ∧ header.entryCount = value 80 4 ∧
      header.entrySize = value 84 4 ∧ 128 ≤ header.entrySize := by
  unfold GptHeader.parse at h
  split_ifs at h
  obtain ⟨headerSize, -, h⟩ := bind_eq_ok.mp h
  split_ifs at h
  obtain ⟨expectedCrc, -, h⟩ := bind_eq_ok.mp h
  rw [hread (by decide), hread (by decide), hread (by decide), hread (by decide)] at h
  simp only [ok_bind] at h
  split_ifs at h
  cases h
  exact ⟨rfl, rfl, rfl, by simp only; omega⟩

/-- The row is that of a used entry, which is not empty. -/
structure Reads (e : StoredEntry) (row : GptRow) : Prop where
  first : e.first = row.firstLba
  name : e.name = some row.name
  small : row.firstLba < 2 ^ 64
  nonempty : e.first ≤ e.last

theorem number_lt (width : ℕ) : number m address width < 256 ^ width := by
  have := beNat_lt (m.read address width).reverse
  rwa [List.length_reverse, Medium.length_read] at this

theorem parseRow_eq_ok {index : ℕ} (hsize : 128 ≤ size) {o : Option GptRow}
    (h : parseRow index (m.read address size) = .ok o) :
    Option.Rel Reads (storedEntry m address) o := by
  have htype : (m.read address size).take 16 = m.read address 16 :=
    Medium.slice_read (i := 0) (by omega)
  have hname : ((m.read address size).take 128).drop 56 = m.read (address + 56) 72 := by
    rw [List.drop_take, Medium.slice_read (by omega)]
  have hfirst := @number_lt m (address + 32) 8
  unfold parseRow at h
  rw [htype, hname, leAt_read (by omega), leAt_read (by omega), ok_bind, ok_bind] at h
  unfold storedEntry
  generalize nameUnits (m.read (address + 56) 72) = units at h ⊢
  split_ifs at h ⊢
  · cases h
    exact .none
  · rcases hunits : fromUtf16 units with _ | name <;> rw [hunits] at h
    · cases h
    · simp only at h
      split_ifs at h
      cases h
      exact .some ⟨rfl, rfl, hfirst, by simp only; omega⟩

variable {base : ℕ}

/-- The rows are those of the used entries, and each begins behind the one before it. -/
theorem parseRows_eq_ok (hsize : 128 ≤ size) {total count : ℕ} : ∀ {index : ℕ} {previous : Option ℕ}
    {rows : List GptRow}, index + count = total →
    parseRows size (m.read base (total * size)) previous index count = .ok rows →
    List.Forall₂ Reads
        ((List.range' index count).filterMap fun i => storedEntry m (base + i * size)) rows ∧
      (previous.toList ++ rows.map GptRow.firstLba).IsChain (· < ·) := by
  induction count with
  | zero =>
    rintro index previous rows - h
    cases h
    cases previous <;> simp
  | succ count ih =>
    intro index previous rows htotal h
    have hin : index * size + size ≤ total * size := by
      rw [← Nat.succ_mul]
      exact Nat.mul_le_mul_right _ (by omega)
    unfold parseRows at h
    rw [Medium.slice_read hin] at h
    obtain ⟨o, hrow, h⟩ := bind_eq_ok.mp h
    have hstored := parseRow_eq_ok hsize hrow
    rw [List.range'_succ, List.filterMap_cons]
    generalize storedEntry m (base + index * size) = stored at hstored ⊢
    cases hstored with
    | none => exact ih (by omega) h
    | @some e row hreads =>
      -- whether there was a row before or not, the rest goes on from this one
      obtain ⟨rest, hparse, rfl, hbehind⟩ : ∃ rest, parseRows size (m.read base (total * size))
          (some row.firstLba) (index + 1) count = .ok rest ∧ rows = row :: rest ∧
          ∀ before, previous = some before → before < row.firstLba := by
        cases previous with
        | none =>
          obtain ⟨rest, hparse, ⟨⟩⟩ := bind_eq_ok.mp h
          exact ⟨rest, hparse, rfl, fun _ hnone => nomatch hnone⟩
        | some before =>
          obtain ⟨hle, h⟩ := guard_eq_ok.mp h
          obtain ⟨rest, hparse, ⟨⟩⟩ := bind_eq_ok.mp h
          exact ⟨rest, hparse, rfl, fun _ hsome => Option.some.inj hsome ▸ Nat.lt_of_not_le hle⟩
      obtain ⟨hforall, hchain⟩ := ih (by omega) hparse
      refine ⟨.cons hreads hforall, ?_⟩
      cases previous with
      | none => exact hchain
      | some before => exact hchain.cons_cons (hbehind before rfl)

/-! ### What is reported -/

variable {used : List StoredEntry} {rows : List GptRow}

theorem reported_tableEntries (h : List.Forall₂ Reads used rows) :
    Reported used (tableEntries rows) := by
  induction h with
  | nil => exact .nil
  | @cons e row used rows hreads hrest ih =>
    have hfirst : e.first = (UInt64.ofNat row.firstLba).toNat := by
      rw [hreads.first, UInt64.toNat_ofNat_of_lt' hreads.small]
    cases rows with
    | nil => exact .cons ⟨hreads.name, hfirst⟩ ih
    | cons next rows => exact .cons ⟨hreads.name, hfirst⟩ ih

theorem covered_iff (h : List.Forall₂ Reads used rows)
    (hchain : (rows.map GptRow.firstLba).IsChain (· < ·)) :
    List.Forall₂ (fun e fact => ∀ sector, e.Has sector → Covers fact sector) used (tableEntries rows) ↔
      used.IsChain fun e f => e.last < f.first := by
  induction h with
  | nil => exact ⟨fun _ => .nil, fun _ => .nil⟩
  | @cons e row used rows hreads hrest ih =>
    have hfirst : (UInt64.ofNat row.firstLba).toNat = e.first := by
      rw [hreads.first, UInt64.toNat_ofNat_of_lt' hreads.small]
    have hne := hreads.nonempty
    cases hrest with
    | nil =>
      refine ⟨fun _ => .singleton _, fun _ => .cons (fun sector hsector => ⟨?_, ?_⟩) .nil⟩
      · exact hfirst.trans_le hsector.1
      · exact fun _ hsize => nomatch hsize
    | @cons f next used rows hnext hrest =>
      obtain ⟨hlt, hchain⟩ := List.isChain_cons_cons.mp hchain
      have hend : (UInt64.ofNat row.firstLba).toNat +
          (UInt64.ofNat (next.firstLba - row.firstLba)).toNat = f.first := by
        have hsmall := (Nat.sub_le next.firstLba row.firstLba).trans_lt hnext.small
        rw [hfirst, UInt64.toNat_ofNat_of_lt' hsmall, hnext.first, hreads.first]
        exact Nat.add_sub_cancel' (le_of_lt hlt)
      rw [tableEntries, List.forall₂_cons, List.isChain_cons_cons, ih hchain]
      refine and_congr_left fun _ => ⟨fun hcovers => ?_, fun hlast sector hsector => ?_⟩
      · exact ((hcovers e.last ⟨hne, le_rfl⟩).2 _ rfl).trans_eq hend
      · refine ⟨hfirst.trans_le hsector.1, ?_⟩
        rintro _ ⟨⟩
        exact (hsector.2.trans_lt hlast).trans_eq hend.symm

/-- Entries that end before the next one begins are apart. -/
theorem apart_of_chain (h : List.Forall₂ Reads used rows)
    (hchain : used.IsChain fun e f => e.last < f.first) :
    used.Pairwise fun e f => ∀ sector, ¬ (e.Has sector ∧ f.Has sector) := by
  have hbefore : used.Pairwise fun e f => e.last < f.first := by
    induction h with
    | nil => exact .nil
    | @cons e row used rows hreads hrest ih =>
      have hused := ih hchain.tail
      refine .cons (fun g hg => ?_) hused
      cases hrest with
      | nil => cases hg
      | @cons f next used rows hnext _ =>
        have hlt := (List.isChain_cons_cons.mp hchain).1
        rcases List.mem_cons.mp hg with rfl | hg
        · exact hlt
        · have := (List.pairwise_cons.mp hused).1 g hg
          have := hnext.nonempty
          omega
  refine hbefore.imp fun hlt sector hboth => ?_
  have := hboth.1.2
  have := hboth.2.1
  omega

theorem parsePartitionEntries_eq_ok {header : GptHeader} (hsize : 128 ≤ header.entrySize)
    {table : PartitionTableFact}
    (h : parsePartitionEntries header (m.read base (header.entryCount * header.entrySize)) =
      .ok table) :
    ∃ rows, table.entries = tableEntries rows ∧ (rows.map GptRow.firstLba).IsChain (· < ·) ∧
      List.Forall₂ Reads ((List.range' 0 header.entryCount).filterMap fun i =>
        storedEntry m (base + i * header.entrySize)) rows := by
  unfold parsePartitionEntries at h
  split_ifs at h
  obtain ⟨rows, hrows, h⟩ := bind_eq_ok.mp h
  split_ifs at h
  cases h
  obtain ⟨hreads, hchain⟩ := parseRows_eq_ok hsize (Nat.zero_add _) hrows
  exact ⟨rows, rfl, hchain, hreads⟩

/-- **What is reported of a table.** Every table that is read has the used entries in their order,
with their names and first sectors. Their extents are true exactly when every entry ends before the
next one begins. -/
theorem gpt_extents_true_iff (m : Medium) :
    Meets (At .idle m True) (readPartitionTable SectorDevice.bulk)
      (fun table _ => Reported (usedEntries m) table.entries ∧
        (TrueExtents (usedEntries m) table.entries ↔
          (usedEntries m).IsChain fun e f => e.last < f.first))
      fun _ _ => True := by
  refine ((meets_readLba 1 1 (.inl trivial)).failing fun _ _ _ => trivial).bind fun headerBlock => ?_
  refine Meets.bind (meets_lift_mapError.failing fun _ _ _ => trivial) fun header => ?_
  refine meets_ite (fun _ => meets_fail fun _ _ => trivial) fun _ => ?_
  refine meets_ite (fun _ => meets_fail fun _ _ => trivial) fun _ => ?_
  rintro p ⟨hparse, hblock, hp⟩
  obtain ⟨hlba, hcount, hsize, hlarge⟩ := parse_eq_ok (fun h => hblock ▸ leAt_read h) hparse
  refine (((meets_readLba _ _ (.inl trivial)).failing fun _ _ _ => trivial).bind fun entryBytes =>
    meets_lift (fun table htable p' hp' => ?_) fun _ _ _ _ => trivial) p hp
  have hbytes := @Medium.slice_read m (LOGICAL_BLOCK_BYTES * header.entryLba) _ 0
    (header.entryCount * header.entrySize) ((Nat.zero_add _).trans_le (le_ceilDiv_mul _))
  rw [hp'.1, ← List.drop_zero (l := m.read _ _), hbytes, Nat.add_zero] at htable
  obtain ⟨rows, hentries, hchain, hreads⟩ :=
      parsePartitionEntries_eq_ok hlarge (mapError_eq_ok.mp htable)
  rw [hlba, hcount, hsize] at hreads
  rw [hentries]
  exact ⟨reported_tableEntries hreads, fun h => (covered_iff hreads hchain).mp h.1, fun h =>
    ⟨(covered_iff hreads hchain).mpr h, apart_of_chain hreads h⟩⟩

/-! ### A table with two partitions that overlap -/

/-- An entry with a name of one letter. -/
def entryBytes (first last : ℕ) (letter : UInt8) : List UInt8 :=
  1 :: List.replicate 31 0 ++ leBytes 8 first ++ leBytes 8 last ++ List.replicate 8 0 ++
    letter :: List.replicate 71 0

/-- Sectors 100 to 300, and sectors 200 to 400. -/
def overlapArray : List UInt8 := entryBytes 100 300 97 ++ entryBytes 200 400 98

def overlapHeader (crc : UInt32) : List UInt8 :=
  [0x45, 0x46, 0x49, 0x20, 0x50, 0x41, 0x52, 0x54, 0, 0, 1, 0] ++ leBytes 4 92 ++ leBytes 4 crc.toNat ++
    List.replicate 52 0 ++ leBytes 8 2 ++ leBytes 4 2 ++ leBytes 4 128 ++
    leBytes 4 (crc32 overlapArray).toNat

def overlapDisk : Medium := fun i =>
  if i < 512 then 0
  else if i < 1024 then (overlapHeader (crc32 (overlapHeader 0))).getD (i - 512) 0
  else overlapArray.getD (i - 1024) 0

theorem overlap_accepted : ∃ table,
    (readPartitionTable SectorDevice.bulk ⟨⟨overlapDisk, .idle, []⟩, 1⟩).1 = .ok table ∧
      ¬ TrueExtents (usedEntries overlapDisk) table.entries := by
  have hused : usedEntries overlapDisk = [⟨100, 300, some "a"⟩, ⟨200, 400, some "b"⟩] := by
    decide +kernel
  refine ⟨⟨DEVICE_STRING, 512, tableEntries [⟨0, 100, "a"⟩, ⟨1, 200, "b"⟩]⟩, by decide +kernel,
    fun h => ?_⟩
  rw [hused] at h
  exact List.rel_of_pairwise_cons h.2 List.mem_cons_self 200
    ⟨⟨by decide, by decide⟩, ⟨by decide, by decide⟩⟩

end ArkForge.Provider.GptExtents
