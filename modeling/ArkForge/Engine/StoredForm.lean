import ArkForge.Engine.Handle

/-! # The stored form of a journal

The stored form of a list of records is the header and one frame per record. A journal file without a
torn tail is the stored form of the records it replays to exactly when its frames hold nothing but the
ten fields of a record: the reader looks those up and ignores any other entry, which no digest covers.
So a file can be changed without any check noticing (`extra_entry_accepted`). -/

namespace ArkForge.Engine.StoredForm

open Lib.Result Lib.Framing
open Core.Cbor Core.CborBounds Core.CborMap Core.CborRead
open Record Chain Durable Replay
open Handle
open JournalRecord (OnlyRecordFields)

variable {rs : List JournalRecord} {bodies : List (List UInt8)} {content : List UInt8}

/-- The bytes are the header and the stored forms of the records, each behind its length as a
`u32`. -/
def IsStoredForm (content : List UInt8) (rs : List JournalRecord) : Prop :=
  ∃ bodies, List.Forall₂ StoredAs rs bodies ∧ (∀ b ∈ bodies, b.length < 2 ^ 32) ∧
    content = MAGIC ++ frames bodies

/-- Every complete frame of the file holds a map with no other keys than the ten record fields. -/
def CleanFrames (content : List UInt8) : Prop :=
  ∀ bodies tail, content = MAGIC ++ (frames bodies ++ tail) →
    (∀ b ∈ bodies, ValidBody MAX_FRAME_BYTES b) → Incomplete MAX_FRAME_BYTES tail →
    ∀ b ∈ bodies, OnlyRecordFields b

theorem cleanFrames_iff {tail : List UInt8} (h : Holds content bodies tail rs) :
    CleanFrames content ↔ ∀ b ∈ bodies, OnlyRecordFields b := by
  constructor
  · intro hc
    exact hc bodies tail h.eq h.valid h.incomplete
  · intro hb bodies' tail' heq hvalid hinc
    have hs : Splits MAX_FRAME_BYTES (content.drop MAGIC.length) bodies' tail' :=
      ⟨by rw [heq, List.drop_left], hvalid, hinc⟩
    rw [← (h.splits.unique max_frame_lt hs).1]
    exact hb

theorem storedAs_iff {b : List UInt8} {r : JournalRecord} (hv : ValidBody MAX_FRAME_BYTES b)
    (hr : Reads b r) : StoredAs r b ↔ OnlyRecordFields b :=
  JournalRecord.toCanonicalBytes_of_read hr (Nat.lt_of_le_of_lt hv.2 (by decide))

/-- The records are stored as the bodies they were read from exactly when these are clean. -/
theorem forall₂_storedAs_iff (hreads : List.Forall₂ Reads bodies rs)
    (hvalid : ∀ b ∈ bodies, ValidBody MAX_FRAME_BYTES b) :
    List.Forall₂ StoredAs rs bodies ↔ ∀ b ∈ bodies, OnlyRecordFields b := by
  induction hreads with
  | nil => simp
  | @cons b r bodies rs hr _ ih =>
    obtain ⟨hb, hvalid⟩ := List.forall_mem_cons.mp hvalid
    rw [List.forall₂_cons, List.forall_mem_cons, storedAs_iff hb hr, ih hvalid]

theorem splits_stored (hstored : List.Forall₂ StoredAs rs bodies)
    (hlen : ∀ b ∈ bodies, b.length < 2 ^ 32) : Splits (2 ^ 32 - 1) (frames bodies) bodies [] := by
  refine ⟨by simp, fun b hb => ⟨?_, Nat.le_pred_of_lt (hlen b hb)⟩, incomplete_nil⟩
  obtain ⟨r, -, hr⟩ := exists_of_forall₂ hstored.flip hb
  exact toCanonicalBytes_length_pos hr

theorem storedForm_iff (h : Holds content bodies [] rs) :
    IsStoredForm content rs ↔ CleanFrames content := by
  have hlen : ∀ b ∈ bodies, b.length < 2 ^ 32 := fun b hb =>
    Nat.lt_of_le_of_lt (h.valid b hb).2 (by decide)
  have hcontent : content = MAGIC ++ frames bodies := by rw [h.eq, List.append_nil]
  rw [cleanFrames_iff h, ← forall₂_storedAs_iff h.reads h.valid]
  constructor
  · rintro ⟨bodies', hstored, hlen', heq⟩
    have hs : Splits (2 ^ 32 - 1) (frames bodies) bodies [] :=
      ⟨by simp, fun b hb => ⟨(h.valid b hb).1, Nat.le_pred_of_lt (hlen b hb)⟩, incomplete_nil⟩
    have hframes : frames bodies = frames bodies' :=
      List.append_cancel_left (hcontent.symm.trans heq)
    obtain ⟨rfl, -⟩ := (hframes ▸ hs).unique (by decide) (splits_stored hstored hlen')
    exact hstored
  · exact fun hstored => ⟨bodies, hstored, hlen, hcontent⟩

theorem storedForm_unique {content' : List UInt8} (h : IsStoredForm content rs)
    (h' : IsStoredForm content' rs) : content = content' := by
  obtain ⟨bodies, hs, -, rfl⟩ := h
  obtain ⟨bodies', hs', -, rfl⟩ := h'
  have hright : Relator.RightUnique StoredAs := by
    intro r b b' hb hb'
    rw [StoredAs, hb] at hb'
    exact Except.ok.inj hb'
  rw [hright.forall₂ hs hs']

/-- A journal of one stored plan, with these entries besides the ten fields of its map. -/
theorem exists_one_record {extra : List (String × CborValue)}
    (hextra : extra = [] ∨ extra = [("x", .null)]) :
    ∃ content b r, Holds content [b] [] [r] ∧ (OnlyRecordFields b ↔ extra = []) := by
  obtain ⟨r, hr⟩ := exists_prepareRecord .new .planStored 1000 1 ⟨"PLAN-1", by decide⟩ []
    List.nodup_nil
  obtain ⟨hg, -, -, -, -, hfacts⟩ := prepareRecord_eq_ok hr
  have hv : ∀ f ∈ r.facts, (utf8 f.2).length ≤ 0 := by simp [hfacts]
  obtain ⟨b, hb⟩ : (CborValue.textMap (r.storedEntries ++ extra)).Encodes := by
    rcases hextra with rfl | rfl
    all_goals simp [JournalRecord.storedEntries, JournalRecord.bodyEntries,
      JournalRecord.factsCbor_encodes, hfacts]
  have hlen : b.length ≤ 9 + 11 * 200 := by
    refine (length_le_boundValue _ hb).trans ((boundValue_textMap_le (m := 63) (n := 137) ?_).trans ?_)
    · refine List.forall_mem_append.mpr ⟨?_, ?_⟩
      · simpa [hfacts] using JournalRecord.boundValue_storedEntry_le hv
      · rcases hextra with rfl | rfl <;> decide
    · rcases hextra with rfl | rfl <;> simp [JournalRecord.storedEntries, JournalRecord.bodyEntries]
  have hvalid : ValidBody MAX_FRAME_BYTES b :=
    ⟨toCanonicalBytes_length_pos hb, hlen.trans (by decide)⟩
  have hdepth : ∀ p ∈ extra, p.2.depth < maxDepth := by
    rcases hextra with rfl | rfl <;> decide
  have hreads : Reads b r.sortFacts :=
    JournalRecord.fromCanonicalBytes_extra hdepth hb (by omega)
  refine ⟨MAGIC ++ frame b, b, r.sortFacts, ⟨by simp, by simpa using hvalid, incomplete_nil,
    .cons hreads .nil, ⟨?_, trivial⟩⟩, fun honly => ?_, ?_⟩
  · exact (genuine_congr (JournalRecord.sameUpToFactOrder_sortFacts r)).mp hg
  · refine hextra.resolve_right fun hx => ?_
    obtain ⟨name, hname, hkey⟩ := honly _ (JournalRecord.decode_extra hdepth hb (by omega))
      (.text "x", .null) (List.mem_map.mpr
        ⟨("x", .null), Core.CborFields.mem_sortedFields (e := ("x", .null)) (by simp [hx]), rfl⟩)
    rw [← CborValue.text.inj hkey] at hname
    revert hname
    decide
  · rintro rfl
    have hsorted : r.sortFacts = r := by
      cases r
      cases hfacts
      rfl
    rw [hsorted] at hreads
    rw [List.append_nil] at hb
    exact (storedAs_iff hvalid hreads).mp hb

/-- **When the journal bytes are canonical.** A journal file that `open` accepts with nothing torn is
the stored form of its records exactly when its frames hold only record fields; and two such files
that replay to the same records are the same. -/
theorem journal_bytes_canonical_iff (path : String) (fault : OpenFault) (disk : Disk)
    (dj : DurableJournal) (report : RecoveryReport) (hne : disk.content ≠ [])
    (hopen : DurableJournal.openAt path fault disk = .ok (dj, report))
    (htorn : report.tornTailBytes = 0) :
    (IsStoredForm disk.content dj.journal.records ↔ CleanFrames disk.content) ∧
    (CleanFrames disk.content → ∀ path' fault' disk' dj' report', disk'.content ≠ [] →
      DurableJournal.openAt path' fault' disk' = .ok (dj', report') → report'.tornTailBytes = 0 →
      CleanFrames disk'.content → dj'.journal.records = dj.journal.records →
      disk'.content = disk.content) := by
  -- an accepted file without a torn tail holds whole frames only
  have hholds : ∀ {path fault} {disk : Disk} {dj : DurableJournal} {report : RecoveryReport},
      disk.content ≠ [] → DurableJournal.openAt path fault disk = .ok (dj, report) →
      report.tornTailBytes = 0 → ∃ bodies, Holds disk.content bodies [] dj.journal.records := by
    intro path fault disk dj report hne hopen htorn
    rcases open_eq_ok hopen with ⟨hempty, -⟩ | ⟨bodies, tail, rs, hh, rfl, rfl⟩
    · exact absurd hempty hne
    · obtain rfl := List.eq_nil_of_length_eq_zero htorn
      exact ⟨bodies, hh⟩
  obtain ⟨bodies, hh⟩ := hholds hne hopen htorn
  refine ⟨storedForm_iff hh, fun hc path' fault' disk' dj' report' hne' hopen' htorn' hc' hrs => ?_⟩
  obtain ⟨bodies', hh'⟩ := hholds hne' hopen' htorn'
  have hform := (storedForm_iff hh).mpr hc
  have hform' := (storedForm_iff hh').mpr hc'
  exact storedForm_unique (hrs ▸ hform') hform

/-- An entry that is not a field of the record changes the file and nothing else. -/
theorem extra_entry_accepted :
    ¬ ∀ (path : String) (fault : OpenFault) (disk : Disk) (dj : DurableJournal)
      (report : RecoveryReport), disk.content ≠ [] →
      DurableJournal.openAt path fault disk = .ok (dj, report) → report.tornTailBytes = 0 →
      IsStoredForm disk.content dj.journal.records := by
  intro hall
  obtain ⟨content, b, r, hh, hb⟩ := @exists_one_record [("x", .null)] (.inr rfl)
  have hform := hall "journal.cbor" .none ⟨true, content, content.length⟩ _ _ hh.ne_nil
    (open_of_holds hh "journal.cbor") rfl
  exact nomatch hb.mp ((cleanFrames_iff hh).mp ((storedForm_iff hh).mp hform) b (by simp))

/-- A file with one record, as it was written. -/
theorem journal_bytes_canonical_iff_one : ∃ content r, IsStoredForm content [r] := by
  obtain ⟨content, b, r, hh, hb⟩ := @exists_one_record [] (.inl rfl)
  refine ⟨content, r, (journal_bytes_canonical_iff "journal.cbor" .none ⟨true, content, content.length⟩
    _ _ hh.ne_nil (open_of_holds hh "journal.cbor") rfl).1.mpr ((cleanFrames_iff hh).mpr ?_)⟩
  simpa using hb

end ArkForge.Engine.StoredForm
