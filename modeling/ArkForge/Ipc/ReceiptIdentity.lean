import ArkForge.Ipc.Receipt

/-! # The identity of a receipt

What the canonical body of a receipt tells, and what the reader accepts as one. The body leaves out
the verified range of a receipt without a verification outcome, so two receipts that differ only there
have one body and one digest, and the range is lost when the body is read back. The reader takes an
empty text for an absent one, and a range with or without an outcome, so not everything it accepts is
the body of what it returns. Apart from these two the body, the receipt (up to the order of its facts)
and the bytes stand for one another. -/

namespace ArkForge.Ipc.ReceiptIdentity

open Lib.KeySort Lib.TakeFields
open Core.Cbor Core.CborRead Core.CborCanon Core.CborMap
open Core.CborFields Core.Digest
open Receipt ActionReceiptSummary

variable {r : ActionReceiptSummary} {b : List UInt8} {fields : List (String × CborValue)}
  {value : String}

/-- The two receipts differ at most in the order of their facts. -/
def SameUpToFactOrder (r s : ActionReceiptSummary) : Prop :=
  ∃ facts, r.facts.Perm facts ∧ s = { r with facts }

/-! ### Which receipts have a digest -/

theorem factsCbor_eq (facts : List KeyValue) :
    factsCbor facts = .textMap (facts.map fun f => (f.key, .text f.value)) := by
  rw [CborValue.textMap, List.map_map]
  rfl

@[simp] theorem factsCbor_encodes {facts : List KeyValue} :
    (factsCbor facts).Encodes ↔ (facts.map KeyValue.key).Nodup := by
  rw [factsCbor_eq, textMap_encodes, List.map_map]
  exact and_iff_left (List.forall_mem_map.mpr fun f _ => encodes_text _)

@[simp] theorem optionalText_encodes (value : String) : (optionalText value).Encodes := by
  unfold optionalText
  split_ifs <;> simp

@[simp] theorem verifiedRange_encodes (r : ActionReceiptSummary) : r.verifiedRange.Encodes := by
  unfold verifiedRange
  split_ifs <;> simp [rangeEntries]

/-- The names of the fields, in the order they are written. -/
def fieldNames : List String := [
  "schemaVersion", "jobId", "planId", "stepId", "actionId", "attemptId", "permitId", "disposition",
  "evidenceSha256", "verificationOutcome", "verificationStrength", "verifiedRange",
  "typedSkipReason", "failureClassification", "facts"]

theorem nodup_fieldNames : fieldNames.Nodup := by decide

theorem map_fst_entries (r : ActionReceiptSummary) : r.entries.map Prod.fst = fieldNames := rfl

/-- Only a repeated fact keeps a receipt from having a body. -/
theorem toCanonicalBytes_encodes :
    (∃ b, r.toCanonicalBytes = .ok b) ↔ (r.facts.map KeyValue.key).Nodup := by
  show (CborValue.textMap r.entries).Encodes ↔ _
  simp [entries]

theorem exists_receiptDigest_iff :
    (∃ d, r.receiptDigest = .ok d) ↔ r.WellFormed ∧ ∃ b, r.toCanonicalBytes = .ok b := by
  simp only [receiptDigest_eq_ok, digestCanonical_eq_ok]
  constructor
  · rintro ⟨d, hr, b, hb, -⟩
    exact ⟨hr, b, hb⟩
  · rintro ⟨hr, b, hb⟩
    exact ⟨_, hr, b, hb, rfl⟩

/-! ### The receipt as it is stored -/

/-- The receipt as it is read back from its body: the range is there only if an outcome is, and the
facts are in canonical order. -/
def asStored (r : ActionReceiptSummary) : ActionReceiptSummary :=
  { r with
    verifiedRangeStart := if r.verificationOutcome = "" then 0 else r.verifiedRangeStart
    verifiedRangeLength := if r.verificationOutcome = "" then 0 else r.verifiedRangeLength
    facts := sortByKey (fun f => textBytes f.key) r.facts }

theorem wellFormed_asStored (h : r.WellFormed) : (asStored r).WellFormed := by
  obtain ⟨h1, h2, h3, h4, h5, h6, h7, h8⟩ := h
  exact ⟨h1, h2, h3, h4, h5, h6, h7, fun f hf => h8 f (mem_sortByKey.mp hf)⟩

theorem asStored_encodes (h : ∃ b, r.toCanonicalBytes = .ok b) :
    ∃ b, (asStored r).toCanonicalBytes = .ok b := by
  rw [toCanonicalBytes_encodes] at h ⊢
  exact ((sortByKey_perm r.facts).map KeyValue.key).nodup_iff.mpr h

theorem sortKeys_optionalText (value : String) :
    (optionalText value).sortKeys = optionalText value := by
  unfold optionalText
  split_ifs <;> rfl

theorem sortKeys_factsCbor (facts : List KeyValue) :
    (factsCbor facts).sortKeys = factsCbor (sortByKey (fun f => textBytes f.key) facts) := by
  rw [factsCbor_eq, sortKeys_textMap, factsCbor_eq, sortedFields, List.map_map]
  congr 1
  exact (map_sortByKey fun _ _ => rfl).symm

theorem sortedFields_range (start length : UInt64) :
    (rangeEntries start length).Perm (sortedFields (rangeEntries start length)) :=
  (sortByKey_perm _).symm

theorem readRange_verifiedRange (r : ActionReceiptSummary) :
    readRange r.verifiedRange.sortKeys =
      .ok ((asStored r).verifiedRangeStart, (asStored r).verifiedRangeLength) := by
  rw [readRange_eq_ok]
  unfold verifiedRange asStored
  by_cases h : r.verificationOutcome = ""
  · rw [if_pos h, if_pos h, if_pos h]
    exact Or.inl ⟨rfl, rfl, rfl⟩
  · rw [if_neg h, if_neg h, if_neg h]
    exact Or.inr ⟨_, sortKeys_textMap _, sortedFields_range _ _⟩

theorem holdsOptional_of_lookup {name : String}
    (h : fields.lookup name = some (optionalText value).sortKeys) :
    HoldsOptional fields name value := by
  rw [sortKeys_optionalText] at h
  refine ⟨_, h, ?_⟩
  by_cases hv : value = ""
  · exact Or.inr ⟨if_pos hv, hv⟩
  · exact Or.inl (if_neg hv)

theorem lookup_sortedFields {l : List (String × CborValue)} (hn : (l.map Prod.fst).Nodup) :
    ∀ e ∈ l, (sortedFields l).lookup e.1 = some e.2.sortKeys :=
  fun _ he => lookup_of_mem (nodup_sortedFields hn) (mem_sortedFields he)

/-- The sorted fields of a body hold the receipt as it is stored. -/
theorem holds_sortedFields (r : ActionReceiptSummary) :
    Holds (sortedFields r.entries) (asStored r) := by
  have hlook := lookup_sortedFields (map_fst_entries r ▸ nodup_fieldNames)
  simp only [entries, List.forall_mem_cons] at hlook
  obtain ⟨h1, h2, h3, h4, h5, h6, h7, h8, h9, h10, h11, h12, h13, h14, h15, -⟩ := hlook
  rw [sortKeys_factsCbor] at h15
  exact ⟨h1, ⟨_, h12, readRange_verifiedRange r⟩, h15, h2, h3, h4, holdsOptional_of_lookup h5, h6, h7,
    h8, h9, holdsOptional_of_lookup h10, holdsOptional_of_lookup h11, holdsOptional_of_lookup h13,
    holdsOptional_of_lookup h14⟩

theorem depth_optionalText (value : String) : (optionalText value).depth = 0 := by
  unfold optionalText
  split_ifs <;> rfl

theorem depth_toCbor (r : ActionReceiptSummary) : r.toCbor.depth ≤ 2 := by
  have hfacts : (factsCbor r.facts).depth ≤ 1 := by
    rw [factsCbor_eq]
    refine depth_textMap_le fun e he => ?_
    obtain ⟨f, -, rfl⟩ := List.mem_map.mp he
    exact le_rfl
  have hrange : r.verifiedRange.depth ≤ 1 := by
    unfold verifiedRange
    split_ifs
    · exact Nat.zero_le 1
    · simp [rangeEntries]
  refine depth_textMap_le ?_
  simp [entries, depth_optionalText, hfacts, hrange]

theorem decode_body (h : r.toCanonicalBytes = .ok b) (hb : b.length < 2 ^ 64) :
    decodeCanonical b = .ok (.textMap (sortedFields r.entries)) :=
  decode_textMap ((depth_toCbor r).trans (by decide)) (fits_of_length _ h hb) h

/-- **The body of a receipt reads back** as the receipt, as it is stored. -/
theorem fromCanonicalBytes_toCanonicalBytes (hr : r.WellFormed) (h : r.toCanonicalBytes = .ok b)
    (hb : b.length < 2 ^ 64) : fromCanonicalBytes b = .ok (asStored r) := by
  refine fromCanonicalBytes_eq_ok.mpr ⟨⟨_, decode_body h hb, ?_, holds_sortedFields r⟩, ?_⟩
  · rw [sortedFields, length_sortByKey]
    rfl
  · exact exists_receiptDigest_iff.mpr ⟨wellFormed_asStored hr, asStored_encodes ⟨b, h⟩⟩

/-- What is left of a receipt when it is stored: everything, if there is no range to leave out. -/
theorem sameUpToFactOrder_asStored : SameUpToFactOrder r (asStored r) ↔
      (r.verificationOutcome = "" → r.verifiedRangeStart = 0 ∧ r.verifiedRangeLength = 0) := by
  constructor
  · rintro ⟨facts, -, h⟩ hempty
    have hstart := congrArg verifiedRangeStart h
    have hlength := congrArg verifiedRangeLength h
    simp only [asStored, hempty] at hstart hlength
    exact ⟨hstart.symm, hlength.symm⟩
  · intro h
    refine ⟨sortByKey (fun f => textBytes f.key) r.facts, (sortByKey_perm _).symm, ?_⟩
    unfold asStored
    by_cases hempty : r.verificationOutcome = ""
    · obtain ⟨hstart, hlength⟩ := h hempty
      rw [if_pos hempty, if_pos hempty, hstart, hlength]
    · rw [if_neg hempty, if_neg hempty]

/-- Receipts that are stored alike differ at most in the order of their facts and in a range that is
left out. -/
theorem sameUpToFactOrder_of_asStored {s : ActionReceiptSummary} (h : asStored r = asStored s) :
    SameUpToFactOrder r s ↔ (r.verificationOutcome = "" →
      r.verifiedRangeStart = s.verifiedRangeStart ∧
        r.verifiedRangeLength = s.verifiedRangeLength) := by
  constructor
  · rintro ⟨facts, -, rfl⟩ -
    exact ⟨rfl, rfl⟩
  · intro hrange
    obtain ⟨j, p, st, ac, at', pe, di, ev, vo, vs, rs, rl, ts, fc, facts⟩ := r
    obtain ⟨j', p', st', ac', at'', pe', di', ev', vo', vs', rs', rl', ts', fc', facts'⟩ := s
    simp only [asStored, ActionReceiptSummary.mk.injEq] at h hrange
    obtain ⟨rfl, rfl, rfl, rfl, rfl, rfl, rfl, rfl, rfl, rfl, hstart, hlength, rfl, rfl, hfacts⟩ := h
    have hperm : facts.Perm facts' :=
      (sortByKey_perm facts).symm.trans (hfacts ▸ sortByKey_perm facts')
    refine ⟨facts', hperm, ?_⟩
    by_cases hempty : vo = ""
    · obtain ⟨rfl, rfl⟩ := hrange hempty
      rfl
    · rw [if_neg hempty, if_neg hempty] at hstart hlength
      rw [hstart, hlength]

theorem asStored_eq_of_body {s : ActionReceiptSummary} (hr : r.WellFormed) (hs : s.WellFormed)
    (hb : b.length < 2 ^ 64) (hrb : r.toCanonicalBytes = .ok b) (hsb : s.toCanonicalBytes = .ok b) :
    asStored r = asStored s := by
  have h1 := fromCanonicalBytes_toCanonicalBytes hr hrb hb
  have h2 := fromCanonicalBytes_toCanonicalBytes hs hsb hb
  rw [h1] at h2
  exact Except.ok.inj h2

/-! ### Bytes that are the body of what they read as -/

/-- The fields whose text may be absent. -/
def optionalNames : List String := ["actionId", "verificationOutcome", "verificationStrength",
  "typedSkipReason", "failureClassification"]

/-- The fields are written as `toCbor` writes them: an absent text is `null`, and the range is `null`
exactly when the outcome is. -/
def WrittenCanonically (fields : List (String × CborValue)) : Prop :=
  (∀ name ∈ optionalNames, fields.lookup name ≠ some (.text "")) ∧
    (fields.lookup "verifiedRange" = some .null ↔ fields.lookup "verificationOutcome" = some .null)

theorem optionalText_ne_empty (value : String) : optionalText value ≠ .text "" := by
  unfold optionalText
  split_ifs with h
  · simp
  · simpa using h

theorem optionalText_eq_null : optionalText value = .null ↔ value = "" := by
  unfold optionalText
  split_ifs with h
  · simp [h]
  · simp [h]

theorem verifiedRange_eq_null : r.verifiedRange.sortKeys = .null ↔ r.verificationOutcome = "" := by
  unfold verifiedRange
  split_ifs with h
  · simp [h, CborValue.sortKeys]
  · rw [sortKeys_textMap]
    simp [h, CborValue.textMap]

theorem writtenCanonically_sortedFields (r : ActionReceiptSummary) :
    WrittenCanonically (sortedFields r.entries) := by
  have hlook := lookup_sortedFields (map_fst_entries r ▸ nodup_fieldNames)
  generalize sortedFields r.entries = fields at hlook
  simp only [entries, List.forall_mem_cons, sortKeys_optionalText] at hlook
  obtain ⟨-, -, -, -, h5, -, -, -, -, h10, h11, h12, h13, h14, -⟩ := hlook
  constructor
  · simp only [optionalNames]
    simp [h5, h10, h11, h13, h14, optionalText_ne_empty]
  · rw [h12, h10, Option.some.injEq, Option.some.injEq, verifiedRange_eq_null, optionalText_eq_null]

theorem HoldsOptional.lookup {name : String} (h : HoldsOptional fields name value)
    (hne : fields.lookup name ≠ some (.text "")) :
    fields.lookup name = some (optionalText value) := by
  obtain ⟨v, hv, rfl | ⟨rfl, rfl⟩⟩ := h
  · have hvalue : value ≠ "" := fun he => hne (he ▸ hv)
    rw [hv, optionalText, if_neg hvalue]
  · exact hv

/-- The fields of a body, with another value in place of the range. -/
def entriesWith (range : CborValue) (r : ActionReceiptSummary) : List (String × CborValue) :=
  r.entries.take 11 ++ ("verifiedRange", range) :: r.entries.drop 12

/-- Fields that are written canonically encode to the body of the receipt they hold. -/
theorem toCanonicalBytes_of_holds (hlen : fields.length = 15) (hholds : Holds fields r)
    (hwritten : WrittenCanonically fields)
    (hb : (CborValue.textMap fields).toCanonicalBytes = .ok b) : r.toCanonicalBytes = .ok b := by
  obtain ⟨hnames, hnull⟩ := hwritten
  simp only [optionalNames, List.forall_mem_cons] at hnames
  obtain ⟨hn1, hn2, hn3, hn4, hn5, -⟩ := hnames
  have houtcome := HoldsOptional.lookup hholds.verificationOutcome hn2
  obtain ⟨range, hrange, hread⟩ := hholds.verifiedRange
  rw [hrange, houtcome, Option.some.injEq, Option.some.injEq, optionalText_eq_null] at hnull
  -- the range is the one `toCbor` writes, up to the order of its two fields
  have horder : MapOrderEq r.verifiedRange range := by
    unfold verifiedRange
    rcases readRange_eq_ok.mp hread with ⟨hr, -, -⟩ | ⟨bounds, hr, hperm⟩
    · rw [if_pos (hnull.mp hr), hr]
      exact .refl _
    · have hne : r.verificationOutcome ≠ "" := by
        intro he
        rw [hnull.mpr he] at hr
        cases hr
      rw [if_neg hne, hr]
      exact .permute (hperm.map _)
  have hperm : (entriesWith range r).Perm fields := by
    refine perm_of_lookup (by simp [entriesWith, entries]) ?_ ?_
    · rw [hlen]
      exact le_rfl
    · simp only [entriesWith, entries, List.take, List.drop, List.cons_append, List.nil_append,
        List.forall_mem_cons]
      exact ⟨hholds.schemaVersion, hholds.jobId, hholds.planId, hholds.stepId,
        HoldsOptional.lookup hholds.actionId hn1, hholds.attemptId, hholds.permitId,
        hholds.disposition, hholds.evidenceSha256, houtcome,
        HoldsOptional.lookup hholds.verificationStrength hn3, hrange,
        HoldsOptional.lookup hholds.typedSkipReason hn4,
        HoldsOptional.lookup hholds.failureClassification hn5, hholds.facts, nofun⟩
  have hbody : MapOrderEq r.toCbor (.textMap (entriesWith range r)) := by
    have hentry := MapOrderEq.entry
      ((r.entries.take 11).map fun e : String × CborValue => (CborValue.text e.1, e.2))
      ((r.entries.drop 12).map fun e : String × CborValue => (CborValue.text e.1, e.2))
      (.refl (.text "verifiedRange")) horder
    exact hentry
  exact (toCanonicalBytes_congr (hbody.trans (.permute (hperm.map _))) b).mpr hb

/-- **What is read is the body of the receipt** exactly when it was written canonically. -/
theorem toCanonicalBytes_of_read (hb : b.length < 2 ^ 64) (h : fromCanonicalBytes b = .ok r) :
    r.toCanonicalBytes = .ok b ↔
      ∃ fields, decodeCanonical b = .ok (.textMap fields) ∧ WrittenCanonically fields := by
  obtain ⟨⟨fields, hdecode, hlen, hholds⟩, -⟩ := fromCanonicalBytes_eq_ok.mp h
  constructor
  · intro hbody
    exact ⟨_, decode_body hbody hb, writtenCanonically_sortedFields r⟩
  · rintro ⟨fields', hdecode', hwritten⟩
    obtain rfl : fields = fields' := by
      rw [hdecode] at hdecode'
      exact textMap_injective (Except.ok.inj hdecode')
    exact toCanonicalBytes_of_holds hlen hholds hwritten (toCanonicalBytes_of_decode hdecode)

/-! ### Receipt identity -/

/-- **What the body of a receipt identifies, and which bytes are one.** For receipts that have a
digest: two of them with one body, or with one digest if the hash tells their bodies apart, are equal
up to the order of facts exactly when they agree on a range without an outcome; a body reads back as
the receipt exactly when there is no such range. Bytes that are read as a receipt are its body exactly
when they were written canonically. -/
theorem receipt_identity_iff (r₁ r₂ : ActionReceiptSummary) :
    (∀ (d₁ d₂ : Sha256Digest) (b : List UInt8),
      r₁.receiptDigest = .ok d₁ → r₂.receiptDigest = .ok d₂ → b.length < 2 ^ 64 →
      r₁.toCanonicalBytes = .ok b → r₂.toCanonicalBytes = .ok b →
      (SameUpToFactOrder r₁ r₂ ↔ (r₁.verificationOutcome = "" →
        r₁.verifiedRangeStart = r₂.verifiedRangeStart ∧
          r₁.verifiedRangeLength = r₂.verifiedRangeLength))) ∧
    (∀ (d : Sha256Digest) (b₁ b₂ : List UInt8),
      r₁.receiptDigest = .ok d → r₂.receiptDigest = .ok d → b₁.length < 2 ^ 64 →
      r₁.toCanonicalBytes = .ok b₁ → r₂.toCanonicalBytes = .ok b₂ →
      (digestInDomain .actionReceipt b₁ = digestInDomain .actionReceipt b₂ → b₁ = b₂) →
      (SameUpToFactOrder r₁ r₂ ↔ (r₁.verificationOutcome = "" →
        r₁.verifiedRangeStart = r₂.verifiedRangeStart ∧
          r₁.verifiedRangeLength = r₂.verifiedRangeLength))) ∧
    (∀ (d : Sha256Digest) (b : List UInt8),
      r₁.receiptDigest = .ok d → b.length < 2 ^ 64 → r₁.toCanonicalBytes = .ok b →
      ∃ r', fromCanonicalBytes b = .ok r' ∧ (SameUpToFactOrder r₁ r' ↔
        (r₁.verificationOutcome = "" → r₁.verifiedRangeStart = 0 ∧ r₁.verifiedRangeLength = 0))) ∧
    (∀ b : List UInt8, b.length < 2 ^ 64 →
      fromCanonicalBytes b = .ok r₁ → (r₁.toCanonicalBytes = .ok b ↔
        ∃ fields, decodeCanonical b = .ok (.textMap fields) ∧ WrittenCanonically fields)) := by
  have hsame : ∀ (d₁ d₂ : Sha256Digest) (b : List UInt8),
      r₁.receiptDigest = .ok d₁ → r₂.receiptDigest = .ok d₂ → b.length < 2 ^ 64 →
      r₁.toCanonicalBytes = .ok b → r₂.toCanonicalBytes = .ok b → asStored r₁ = asStored r₂ := by
    intro d₁ d₂ b h₁ h₂ hb hb₁ hb₂
    exact asStored_eq_of_body (receiptDigest_eq_ok.mp h₁).1 (receiptDigest_eq_ok.mp h₂).1 hb hb₁ hb₂
  refine ⟨?_, ?_, ?_, ?_⟩
  · intro d₁ d₂ b h₁ h₂ hb hb₁ hb₂
    exact sameUpToFactOrder_of_asStored (hsame d₁ d₂ b h₁ h₂ hb hb₁ hb₂)
  · intro d b₁ b₂ h₁ h₂ hb hb₁ hb₂ hcollision
    have hdigest : ∀ {r : ActionReceiptSummary} {b : List UInt8}, r.receiptDigest = .ok d →
        r.toCanonicalBytes = .ok b → digestInDomain .actionReceipt b = d := by
      intro r b hr hbody
      obtain ⟨b', hb', hd⟩ := digestCanonical_eq_ok.mp (receiptDigest_eq_ok.mp hr).2
      rw [toCanonicalBytes, hb'] at hbody
      rw [← Except.ok.inj hbody]
      exact hd
    have hbytes := hcollision ((hdigest h₁ hb₁).trans (hdigest h₂ hb₂).symm)
    exact sameUpToFactOrder_of_asStored (hsame d d b₁ h₁ h₂ hb hb₁ (hbytes ▸ hb₂))
  · intro d b h hb hbody
    have hr := (receiptDigest_eq_ok.mp h).1
    exact ⟨asStored r₁, fromCanonicalBytes_toCanonicalBytes hr hbody hb, sameUpToFactOrder_asStored⟩
  · intro b hb h
    exact toCanonicalBytes_of_read hb h

/-- A receipt without an action, a verification or facts. -/
def bareReceipt : ActionReceiptSummary where
  jobId := "job-1"
  planId := "plan-1"
  stepId := "step-1"
  actionId := ""
  attemptId := "attempt-1"
  permitId := "permit-1"
  disposition := "semanticSuccess"
  evidenceSha256 := List.replicate 32 0
  verificationOutcome := ""
  verificationStrength := ""
  verifiedRangeStart := 0
  verifiedRangeLength := 0
  typedSkipReason := ""
  failureClassification := ""
  facts := []

/-- The same, with a range that was not verified. -/
def rangedReceipt : ActionReceiptSummary := { bareReceipt with verifiedRangeLength := 4096 }

/-- The fields of the bare receipt, with an empty text in place of the absent action. -/
def looseFields : List (String × CborValue) := bareReceipt.entries.set 4 ("actionId", .text "")

theorem holds_looseFields : Holds (sortedFields looseFields) bareReceipt := by
  have hlook := lookup_sortedFields (l := looseFields) (by decide)
  simp only [looseFields, entries, List.set, List.forall_mem_cons] at hlook
  obtain ⟨h1, h2, h3, h4, h5, h6, h7, h8, h9, h10, h11, h12, h13, h14, h15, -⟩ := hlook
  exact ⟨h1, ⟨_, h12, rfl⟩, h15, h2, h3, h4, ⟨_, h5, Or.inl rfl⟩, h6, h7, h8, h9,
    ⟨_, h10, Or.inr ⟨rfl, rfl⟩⟩, ⟨_, h11, Or.inr ⟨rfl, rfl⟩⟩, ⟨_, h13, Or.inr ⟨rfl, rfl⟩⟩,
    ⟨_, h14, Or.inr ⟨rfl, rfl⟩⟩⟩

/-- **Receipt identity fails.** Two receipts that differ in their range have one body and one digest;
the body of one of them reads back as the other; and bytes that write the absent action as an empty
text are read as a receipt whose body is a different one. -/
theorem receipt_identity_ambiguous :
    (∃ d, bareReceipt.receiptDigest = .ok d ∧ rangedReceipt.receiptDigest = .ok d) ∧
    bareReceipt.toCanonicalBytes = rangedReceipt.toCanonicalBytes ∧
    ¬ SameUpToFactOrder bareReceipt rangedReceipt ∧
    (∃ b, rangedReceipt.toCanonicalBytes = .ok b ∧ fromCanonicalBytes b = .ok bareReceipt) ∧
    ∃ b, fromCanonicalBytes b = .ok bareReceipt ∧ bareReceipt.toCanonicalBytes ≠ .ok b := by
  have hbody : bareReceipt.toCanonicalBytes = rangedReceipt.toCanonicalBytes := rfl
  have hwell : bareReceipt.WellFormed := by decide
  have hlen : ∀ {v : CborValue} {b : List UInt8}, v.toCanonicalBytes = .ok b →
      (v.toCanonicalBytes.toOption.getD []).length < 2 ^ 64 → b.length < 2 ^ 64 := by
    intro v b hb h
    rw [hb] at h
    exact h
  obtain ⟨b, hb⟩ := (toCanonicalBytes_encodes (r := bareReceipt)).mpr (by decide)
  have hblen : b.length < 2 ^ 64 := hlen hb (by decide +kernel)
  have hread := fromCanonicalBytes_toCanonicalBytes hwell hb hblen
  refine ⟨?_, hbody, ?_, ⟨b, hbody ▸ hb, hread⟩, ?_⟩
  · have hdigest : ∀ r : ActionReceiptSummary, r.WellFormed → r.toCanonicalBytes = .ok b →
        r.receiptDigest = .ok (digestInDomain .actionReceipt b) := fun r hr h =>
      receiptDigest_eq_ok.mpr ⟨hr, digestCanonical_eq_ok.mpr ⟨b, h, rfl⟩⟩
    exact ⟨_, hdigest _ hwell hb, hdigest _ (by decide) (hbody ▸ hb)⟩
  · rintro ⟨facts, -, h⟩
    have hrange : (4096 : UInt64) = 0 := congrArg verifiedRangeLength h
    exact absurd hrange (by decide)
  · obtain ⟨c, hc⟩ : (CborValue.textMap looseFields).Encodes := by
      simp [looseFields, entries, bareReceipt]
    have hclen : c.length < 2 ^ 64 := hlen hc (by decide +kernel)
    have hdecode : decodeCanonical c = .ok (.textMap (sortedFields looseFields)) :=
      decode_textMap (by decide +kernel) (fits_of_length _ hc hclen) hc
    refine ⟨c,
      fromCanonicalBytes_eq_ok.mpr ⟨⟨_, hdecode, by decide +kernel, holds_looseFields⟩, ?_⟩, ?_⟩
    · exact exists_receiptDigest_iff.mpr ⟨hwell, b, hb⟩
    · intro hsame
      have hdecode' := decode_body hsame hclen
      rw [hdecode] at hdecode'
      have hfields := textMap_injective (Except.ok.inj hdecode')
      have hloose := lookup_sortedFields (l := looseFields) (by decide) ("actionId", .text "")
        (by simp [looseFields, entries])
      have hbare := lookup_sortedFields (l := bareReceipt.entries) (by decide) ("actionId", .null)
        (by simp [entries, bareReceipt, optionalText])
      rw [hfields] at hloose
      cases hloose.symm.trans hbare

end ArkForge.Ipc.ReceiptIdentity
