import ArkForge.Engine.Chain

/-! # What the head digest commits to

Two chains of the same length and head hold the same records, up to the order of facts, as long as no
two of their bodies collide. A record can not be put in front of another one, taken out from between
two, moved, or changed without `verify` noticing. The end of a chain is different: a prefix of a chain
is a chain, so `verify` alone says nothing about records that were never appended or were cut off. -/

namespace ArkForge.Engine.Commitment

open Lib.HashChain Lib.KeySort
open Core.Cbor Core.CborCanon Core.CborFields
open Core.Digest Core.Ids
open Record Chain JournalRecord

/-! ### The body determines the record -/

theorem factsCbor_injective : Function.Injective factsCbor := by
  intro a b h
  rw [factsCbor, factsCbor, CborValue.map.injEq] at h
  refine List.map_injective_iff.mpr ?_ h
  rintro ⟨k, v⟩ ⟨l, w⟩ he
  obtain ⟨hk, hv⟩ := Prod.mk.inj he
  exact Prod.ext (OpaqueId.ext (CborValue.text.inj hk)) (CborValue.text.inj hv)

theorem kind_asStr_injective : Function.Injective JournalRecordKind.asStr := by
  intro k l h
  have hk := JournalRecordKind.parse_eq_some.mpr h
  rw [JournalRecordKind.parse_eq_some.mpr rfl] at hk
  exact (Option.some.inj hk).symm

theorem fsyncPolicy_asStr_injective : Function.Injective FsyncPolicy.asStr := by
  intro k l h
  have hk := FsyncPolicy.parse_eq_some.mpr h
  rw [FsyncPolicy.parse_eq_some.mpr rfl] at hk
  exact (Option.some.inj hk).symm

theorem toUInt64_injective : Function.Injective UInt32.toUInt64 := by
  intro a b h
  rw [← UInt32.toUInt32_toUInt64 a, h, UInt32.toUInt32_toUInt64]

variable {r : JournalRecord}

/-- **Records with the same body bytes are the same**, but for their digest and the order of their
facts. -/
theorem same_of_body {s : JournalRecord} {b : List UInt8} (hr : r.body.Fits) (hs : s.body.Fits)
    (hrb : r.body.toCanonicalBytes = .ok b) (hsb : s.body.toCanonicalBytes = .ok b) :
    SameUpToFactOrder r { s with recordDigest := r.recordDigest } := by
  have hsort := sortKeys_eq_of_encodes hr hs hrb hsb
  have hval : ∀ p ∈ r.bodyEntries, ∀ q ∈ s.bodyEntries, p.1 = q.1 → p.2.sortKeys = q.2.sortKeys := by
    rintro ⟨name, v⟩ hp ⟨_, w⟩ hq rfl
    exact sortKeys_eq_of_fields hsort name hp hq (by simp [bodyEntries]) (by simp [bodyEntries])
  simp only [bodyEntries, List.forall_mem_cons, List.not_mem_nil, false_implies, implies_true,
    sortKeys_factsCbor] at hval
  simp only [CborValue.unsigned.injEq, CborValue.text.injEq, OpaqueId.toCbor, Sha256Digest.toCbor,
    CborValue.sortKeys, CborValue.bytes.injEq, forall_const, String.reduceEq, false_implies, true_and,
    and_true] at hval
  obtain ⟨h1, h2, h3, h4, h5, h6, h7, h8, h9⟩ := hval
  have hperm : r.facts.Perm s.facts := by
    have hp : (sortByKey (fun f => encodedKey (.text f.1.value)) r.facts).Perm r.facts :=
      sortByKey_perm _
    rw [factsCbor_injective h8] at hp
    exact hp.symm.trans (sortByKey_perm _)
  refine ⟨s.facts, hperm, ?_⟩
  simp only [mk.injEq, and_true, true_and]
  exact ⟨toUInt64_injective h1.symm, h2.symm, h3.symm, kind_asStr_injective h4.symm,
    fsyncPolicy_asStr_injective h5.symm, h6.symm, OpaqueId.ext h7.symm, Sha256Digest.ext h9.symm⟩

/-! ### Assumptions on the records -/

/-- Every length in the bodies of the records is a `usize`. -/
def InMemory (rs : List JournalRecord) : Prop := ∀ r ∈ rs, r.body.Fits

/-- No two different bodies among the records have the same digest. -/
def CollisionFree (rs : List JournalRecord) : Prop :=
  ∀ r ∈ rs, ∀ s ∈ rs, ∀ b c : List UInt8, r.body.toCanonicalBytes = .ok b →
    s.body.toCanonicalBytes = .ok c →
    digestInDomain .journalRecord b = digestInDomain .journalRecord c → b = c

/-- Consistent records of equal digest are the same up to the order of facts. -/
theorem same_of_digest {rs : List JournalRecord} (hm : InMemory rs) (hcf : CollisionFree rs)
    {s : JournalRecord} (hr : r ∈ rs) (hs : s ∈ rs) (hrc : SelfConsistent r)
    (hsc : SelfConsistent s) (hd : r.recordDigest = s.recordDigest) : SameUpToFactOrder r s := by
  obtain ⟨b, hb, hbd⟩ := digestCanonical_eq_ok.mp hrc.recordDigest
  obtain ⟨c, hc, hcd⟩ := digestCanonical_eq_ok.mp hsc.recordDigest
  have hbc : b = c := hcf r hr s hs b c hb hc (by rw [hbd, hcd, hd])
  have hsame := same_of_body (hm r hr) (hm s hs) hb (hbc ▸ hc)
  rwa [hd] at hsame

/-- A journal built record by record with `adopt`. -/
inductive AdoptBuilt : Journal → Prop where
  | new : AdoptBuilt .new
  | adopt {j j' : Journal} {r : JournalRecord} : AdoptBuilt j → j.adopt r = .ok j' → AdoptBuilt j'

variable {j : Journal}

theorem AdoptBuilt.wellChained (h : AdoptBuilt j) : WellChained j.records := by
  induction h with
  | new => trivial
  | adopt _ ha ih =>
    obtain ⟨hg, rfl⟩ := adopt_eq_ok.mp ha
    exact wellChained_concat.mpr ⟨ih, hg⟩

/-- The journal passes `verify` or was built by `adopt`. -/
def Trusted (j : Journal) : Prop := j.verify = .ok () ∨ AdoptBuilt j

theorem Trusted.wellChained (h : Trusted j) : WellChained j.records := by
  rcases h with h | h
  · exact verify_eq_ok.mp h
  · exact h.wellChained

/-! ### Tampering -/

/-- `r'` is `r` with one field changed, other than by reordering its facts. -/
inductive FieldChange (r : JournalRecord) : JournalRecord → Prop where
  | schemaVersion {x} : x ≠ r.schemaVersion → FieldChange r { r with schemaVersion := x }
  | sequence {x} : x ≠ r.sequence → FieldChange r { r with sequence := x }
  | jobRevision {x} : x ≠ r.jobRevision → FieldChange r { r with jobRevision := x }
  | kind {x} : x ≠ r.kind → FieldChange r { r with kind := x }
  | fsyncPolicy {x} : x ≠ r.fsyncPolicy → FieldChange r { r with fsyncPolicy := x }
  | atEpochMs {x} : x ≠ r.atEpochMs → FieldChange r { r with atEpochMs := x }
  | subject {x} : x ≠ r.subject → FieldChange r { r with subject := x }
  | facts {x} : ¬ r.facts.Perm x → FieldChange r { r with facts := x }
  | previousDigest {x} : x ≠ r.previousDigest → FieldChange r { r with previousDigest := x }
  | recordDigest {x} : x ≠ r.recordDigest → FieldChange r { r with recordDigest := x }

theorem FieldChange.not_same {r' : JournalRecord} (h : FieldChange r r') :
    ¬ SameUpToFactOrder r r' := by
  rintro ⟨facts, hp, he⟩
  cases h with
  | facts hx =>
    have hfacts := congrArg JournalRecord.facts he
    exact hx (hp.trans (.of_eq hfacts.symm))
  | schemaVersion hx => exact hx (congrArg JournalRecord.schemaVersion he)
  | sequence hx => exact hx (congrArg JournalRecord.sequence he)
  | jobRevision hx => exact hx (congrArg JournalRecord.jobRevision he)
  | kind hx => exact hx (congrArg JournalRecord.kind he)
  | fsyncPolicy hx => exact hx (congrArg JournalRecord.fsyncPolicy he)
  | atEpochMs hx => exact hx (congrArg JournalRecord.atEpochMs he)
  | subject hx => exact hx (congrArg JournalRecord.subject he)
  | previousDigest hx => exact hx (congrArg JournalRecord.previousDigest he)
  | recordDigest hx => exact hx (congrArg JournalRecord.recordDigest he)

/-- A changed field makes the record inconsistent with its digest. -/
theorem FieldChange.not_consistent {r' : JournalRecord} (h : FieldChange r r')
    (hm : InMemory [r, r']) (hcf : CollisionFree [r, r']) (hr : SelfConsistent r) :
    ¬ SelfConsistent r' := by
  intro hr'
  by_cases hd : r.recordDigest = r'.recordDigest
  · exact h.not_same (same_of_digest hm hcf (by simp) (by simp) hr hr' hd)
  · -- the digest itself was changed, which the body does not see
    cases h with
    | @recordDigest x hx =>
      have hx' : r.recomputeDigest = .ok x := hr'.recordDigest
      rw [hr.recordDigest] at hx'
      exact hd (Except.ok.inj hx')
    | _ => exact hd rfl

theorem sequence_inj {m n : ℕ} (h : UInt64.ofNat m + 1 = UInt64.ofNat n + 1) :
    m % 2 ^ 64 = n % 2 ^ 64 := by
  have h1 := congrArg UInt64.toNat ((UInt64.add_left_inj 1).mp h)
  rwa [UInt64.toNat_ofNat'] at h1

theorem sequence_middle {pre post : List JournalRecord} (h : WellChained (pre ++ r :: post)) :
    r.sequence = UInt64.ofNat pre.length + 1 := by
  have hg := Linked.check_middle h
  rw [Nat.zero_add] at hg
  exact hg.sequence

theorem not_wellChained_insert {pre post : List JournalRecord} (h : WellChained (pre ++ r :: post))
    (x : JournalRecord) : ¬ WellChained (pre ++ x :: r :: post) := by
  intro h'
  have hx : WellChained ((pre ++ [x]) ++ r :: post) := by rwa [List.append_assoc]
  have hseq := sequence_inj ((sequence_middle h).symm.trans (sequence_middle hx))
  rw [List.length_append, List.length_singleton] at hseq
  omega

/-- A chain of at most `2 ^ 64` records is in the only order its records can have. -/
theorem wellChained_perm {l l' : List JournalRecord} (h : WellChained l) (h' : WellChained l')
    (hp : l.Perm l') (hlen : l.length ≤ 2 ^ 64) : l = l' := by
  have hat : ∀ {l : List JournalRecord}, WellChained l → ∀ (i : ℕ) (hi : i < l.length),
      l[i].sequence = UInt64.ofNat i + 1 := by
    intro l hl i hi
    rw [← List.take_append_drop i l, List.drop_eq_getElem_cons hi] at hl
    have hseq := sequence_middle hl
    rwa [List.length_take, Nat.min_eq_left hi.le] at hseq
  refine List.ext_getElem hp.length_eq fun i hi hi' => ?_
  obtain ⟨k, hk, hke⟩ := List.mem_iff_getElem.mp (hp.symm.subset (List.getElem_mem hi'))
  -- the record at `i` in one list stands at some `k` in the other, and its sequence says `k = i`
  have hik := sequence_inj (((hat h k hk).symm.trans (by rw [hke])).trans (hat h' i hi'))
  have : k = i := by omega
  subst this
  exact hke

/-! ### Head commitment -/

/-- **Head commitment.** Trusted journals of equal length and head are the same up to the order of
facts. A record put in front of another, a record taken out in front of another, records reordered,
any other record than the last replaced, and any field of any record changed make `verify` fail. -/
theorem head_commitment :
    (∀ j k : Journal, Trusted j → Trusted k → j.records.length = k.records.length →
      j.headDigest = k.headDigest → InMemory (j.records ++ k.records) →
      CollisionFree (j.records ++ k.records) →
      List.Forall₂ SameUpToFactOrder j.records k.records) ∧
    (∀ (pre post : List JournalRecord) (x r : JournalRecord),
      Journal.verify ⟨pre ++ r :: post⟩ = .ok () →
      Journal.verify ⟨pre ++ x :: r :: post⟩ ≠ .ok ()) ∧
    (∀ (pre post : List JournalRecord) (x r : JournalRecord),
      Journal.verify ⟨pre ++ x :: r :: post⟩ = .ok () →
      Journal.verify ⟨pre ++ r :: post⟩ ≠ .ok ()) ∧
    (∀ l l' : List JournalRecord, l.length ≤ 2 ^ 64 → Journal.verify ⟨l⟩ = .ok () → l.Perm l' →
      l ≠ l' → Journal.verify ⟨l'⟩ ≠ .ok ()) ∧
    (∀ (pre post : List JournalRecord) (r r' s : JournalRecord), InMemory [r, r'] →
      CollisionFree [r, r'] → Journal.verify ⟨pre ++ r :: s :: post⟩ = .ok () →
      ¬ SameUpToFactOrder r r' → Journal.verify ⟨pre ++ r' :: s :: post⟩ ≠ .ok ()) ∧
    (∀ (pre post : List JournalRecord) (r r' : JournalRecord), InMemory [r, r'] →
      CollisionFree [r, r'] → Journal.verify ⟨pre ++ r :: post⟩ = .ok () → FieldChange r r' →
      Journal.verify ⟨pre ++ r' :: post⟩ ≠ .ok ()) := by
  simp only [ne_eq, verify_eq_ok]
  refine ⟨?_, ?_, ?_, ?_, ?_, ?_⟩
  · intro j k hj hk hlen hhead hm hcf
    have hjc := WellChained.consistent hj.wellChained
    have hkc := WellChained.consistent hk.wellChained
    refine linked_head_inj JournalRecord.previousDigest (fun _ _ _ h => h.previousDigest) ?_ hlen
      hj.wellChained hk.wellChained hhead ?_
    · rintro r s ⟨facts, -, rfl⟩; rfl
    · intro r hr s hs hd
      exact same_of_digest hm hcf (List.mem_append_left _ hr) (List.mem_append_right _ hs)
        (hjc r hr) (hkc s hs) hd
  · exact fun pre post x r h => not_wellChained_insert h x
  · exact fun pre post x r h h' => not_wellChained_insert h' x h
  · exact fun l l' hlen h hp hne h' => hne (wellChained_perm h h' hp hlen)
  · intro pre post r r' s hm hcf h hne h'
    have hs : ∀ x, WellChained (pre ++ x :: s :: post) →
        SelfConsistent x ∧ s.previousDigest = x.recordDigest := by
      intro x hx
      refine ⟨(Linked.check_middle hx).consistent, ?_⟩
      have hx' : WellChained ((pre ++ [x]) ++ s :: post) := by rwa [List.append_assoc]
      have := (Linked.check_middle hx').previousDigest
      rwa [head_concat] at this
    obtain ⟨hr, hrs⟩ := hs r h
    obtain ⟨hr', hrs'⟩ := hs r' h'
    exact hne (same_of_digest hm hcf (by simp) (by simp) hr hr' (hrs.symm.trans hrs'))
  · intro pre post r r' hm hcf h hch h'
    exact hch.not_consistent hm hcf (Linked.check_middle h).consistent
      (Linked.check_middle h').consistent

/-- The last record of a chain can be deleted, and one can be inserted behind it: here the only one. -/
theorem verify_without_last :
    ∃ r : JournalRecord, Journal.verify ⟨[] ++ [r]⟩ = .ok () ∧ Journal.verify ⟨[]⟩ = .ok () := by
  obtain ⟨r, hr⟩ := exists_prepareRecord .new .planStored 1000 1 ⟨"PLAN-1", by decide⟩ [] List.nodup_nil
  refine ⟨r, verify_eq_ok.mpr (wellChained_concat.mpr ⟨trivial, ?_⟩), rfl⟩
  exact (prepareRecord_eq_ok hr).1

end ArkForge.Engine.Commitment
