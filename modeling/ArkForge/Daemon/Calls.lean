import ArkForge.Authority.PermitBytes
import ArkForge.Daemon.Jobs
import ArkForge.Engine.LiveReplay
import Mathlib.Data.Nat.Digits.Defs

/-! # What calls append

The records that the calls on a job append: their facts by name, and that the journal accepts them. -/

namespace ArkForge.Daemon.Calls

open Lib.Result Lib.Transaction
open Core.Cbor Core.Digest Core.Ids
open Engine.Record Engine.Durable Engine.Handle
open Engine.Step
open Jobs

/-! ### Facts by name -/

theorem identifier_eq_ok {value : String} {o : OpaqueId} :
    identifier value = .ok o ↔ o.value = value := by
  rw [identifier, mapError_eq_ok, OpaqueId.new_eq_ok]

def named (facts : List (OpaqueId × String)) : List (String × String) :=
  facts.map fun f => (f.1.value, f.2)

variable {facts : List (String × String)}

theorem factEntries_eq_ok :
    ∀ {entries : List (OpaqueId × String)}, factEntries facts = .ok entries ↔
      named entries = facts := by
  induction facts with
  | nil =>
    intro entries
    rw [factEntries]
    cases entries <;> simp [named]
  | cons f facts ih =>
    obtain ⟨name, value⟩ := f
    intro entries
    simp only [factEntries, bind_eq_ok, identifier_eq_ok, ih]
    constructor
    · rintro ⟨o, rfl, rest, rfl, h⟩
      obtain rfl := Except.ok.inj h
      rfl
    · intro h
      cases entries with
      | nil => simp [named] at h
      | cons entry rest =>
        simp only [named, List.map_cons, List.cons.injEq, Prod.mk.injEq] at h
        exact ⟨entry.1, h.1.1, rest, h.2, by rw [← h.1.2]; rfl⟩

theorem exists_factEntries (facts : List (String × String)) (h : ∀ f ∈ facts, Conforming f.1) :
    ∃ entries, factEntries facts = .ok entries := by
  have hentries : ∃ entries, named entries = facts := by
    induction facts with
    | nil => exact ⟨[], rfl⟩
    | cons f facts ih =>
      obtain ⟨entries, rfl⟩ := ih fun g hg => h g (List.mem_cons_of_mem _ hg)
      exact ⟨(⟨f.1, h f List.mem_cons_self⟩, f.2) :: entries, rfl⟩
  obtain ⟨entries, hentries⟩ := hentries
  exact ⟨entries, factEntries_eq_ok.mpr hentries⟩

/-! ### Appends -/

/-- What an append that returned `Ok` has done. -/
structure Wrote (dj : DurableJournal) (e : Entry) (dj' : DurableJournal) (r : JournalRecord) :
    Prop where
  alive : dj'.poisoned = false
  carries : Carries e r
  records : dj'.journal.records = dj.journal.records ++ [r]

variable {dj : DurableJournal} {e : Entry}

theorem exists_wrote {dj' : DurableJournal} {io : AppendIo} {d : Sha256Digest}
    (h : dj.append io e = (.ok d, dj')) : ∃ r, Wrote dj e dj' r := by
  have hstep := append_step dj io e
  rw [h] at hstep
  generalize hres : (Except.ok d : Except DurableJournalError Sha256Digest) = res at hstep
  cases hstep with
  | refused _ => cases hres
  | torn _ _ _ _ => cases hres
  | unsynced _ _ _ => cases hres
  | @buffered r b hp hprep _ =>
    exact ⟨r, hp, (prepared_of_prepare hprep).carries, rfl⟩
  | @durable r b hp hprep _ =>
    exact ⟨r, hp, (prepared_of_prepare hprep).carries, rfl⟩

theorem path_append (dj : DurableJournal) (io : AppendIo) (e : Entry) :
    (dj.append io e).2.path = dj.path := by
  have hstep := append_step dj io e
  revert hstep
  generalize (dj.append io e).1 = result
  generalize (dj.append io e).2 = dj'
  intro hstep
  cases hstep <;> rfl

/-! ### Records that are always accepted -/

/-- A record with a few facts of moderate size is accepted. -/
theorem exists_prepare_named (dj : DurableJournal) (hfacts : named e.facts = facts)
    (hn : (facts.map Prod.fst).Nodup) (hlen : facts.length ≤ 10)
    (hv : ∀ f ∈ facts, (utf8 f.2).length ≤ 4096) : ∃ r b, dj.prepare e = .ok (r, b) := by
  subst hfacts
  have hkeys : (e.facts.map Prod.fst).Nodup := by
    rw [named, List.map_map] at hn
    refine List.Nodup.of_map OpaqueId.value ?_
    rw [List.map_map]
    exact hn
  have hle : e.facts.length ≤ 10 := by rwa [named, List.length_map] at hlen
  refine exists_prepare hkeys (fun f hf => hv (f.1.value, f.2) (List.mem_map_of_mem hf)) ?_
  have hmax : MAX_FRAME_BYTES = 1048576 := by decide
  have hid : MAX_ID_LEN = 128 := rfl
  rw [hid]
  omega

/-- It is appended if the operating system does what it is asked. -/
theorem append_named (hp : dj.poisoned = false) (e : Entry) (hfacts : named e.facts = facts)
    (hn : (facts.map Prod.fst).Nodup) (hlen : facts.length ≤ 10)
    (hv : ∀ f ∈ facts, (utf8 f.2).length ≤ 4096) :
    ∃ d dj', dj.append flawless e = (.ok d, dj') := by
  obtain ⟨r, b, hprep⟩ := exists_prepare_named dj hfacts hn hlen hv
  obtain ⟨dj', happ⟩ := append_flawless hp hprep
  exact ⟨_, dj', happ⟩

theorem length_utf8_le_mul {s : String} {k : ℕ} (h : ∀ c ∈ s.toList, c.utf8Size ≤ k) :
    (utf8 s).length ≤ k * s.toList.length := by
  show s.utf8ByteSize ≤ _
  rw [← s.ofList_toList, String.utf8ByteSize_ofList, String.toList_ofList]
  revert h
  induction s.toList with
  | nil => simp
  | cons c l ih =>
    intro h
    obtain ⟨hc, hl⟩ := List.forall_mem_cons.mp h
    exact Nat.add_le_add (ih hl) hc

theorem length_utf8_le (s : String) : (utf8 s).length ≤ 4 * s.toList.length :=
  length_utf8_le_mul fun c _ => c.utf8Size_le_four

theorem length_utf8_toString_le {n : ℕ} (h : n < 2 ^ 64) : (utf8 (toString n)).length ≤ 4096 := by
  have hdigits : (toString n).toList.length ≤ 20 :=
    Nat.repr_length n 20 (by decide) (h.trans (by decide))
  have hle := length_utf8_le (toString n)
  omega

theorem length_toHex (d : Sha256Digest) : d.toHex.toList.length = 64 := by
  simp [Sha256Digest.toHex, d.length_eq]

theorem length_receiptFactList_le (c : StepContext) (d : Sha256Digest) :
    ∀ f ∈ c.receiptFactList d, (utf8 f.2).length ≤ 256 := by
  intro f hf
  rcases List.mem_append.mp hf with hf | hf
  · exact (c.length_factList_le f hf).trans (by decide)
  · rw [List.mem_singleton.mp hf]
    have hle := length_utf8_le d.toHex
    rwa [length_toHex] at hle

theorem exists_prepare_receiptFactList (dj : DurableJournal) (c : StepContext) (d : Sha256Digest)
    (kind : JournalRecordKind) (now : UInt64) :
    ∃ r b, dj.prepare (c.entry kind now (c.receiptFactList d)) = .ok (r, b) :=
  exists_prepare (c.nodup_receiptFactList d) (length_receiptFactList_le c d)
    (show 9 + 10 * (200 + 6 * (MAX_ID_LEN + 256 + 18)) ≤ MAX_FRAME_BYTES by decide)

variable {now : UInt64}

theorem recordReceipt_flawless {t : DispatchInFlight} {receipt : Sha256Digest}
    (hp : dj.poisoned = false) :
    Ensures (recordReceiptWithFacts (flawless, flawless) t receipt [] now) dj fun result dj' =>
      dj'.poisoned = false ∧ ∃ done, result = .ok done := by
  apply ensures_known (subject_value _)
  apply ensures_append_flawless hp (exists_prepare_receiptFactList dj _ _ _ _)
  intro d dj₁ hp₁
  apply ensures_known (subject_value _)
  apply ensures_append_flawless hp₁ (exists_prepare_receiptFactList dj₁ _ _ _ _)
  intro d' dj' hp'
  exact ensures_pure ⟨hp', _, rfl⟩

theorem checkpoint_flawless {t : CompletedStep} (hp : dj.poisoned = false) :
    Ensures (checkpoint flawless t now) dj fun result dj' =>
      dj'.poisoned = false ∧ ∃ d, result = .ok d := by
  apply ensures_known (subject_value _)
  apply ensures_known (StepContext.factsWithReceipt_eq _ _)
  rw [← bind_pure (append flawless _ now _ _)]
  apply ensures_append_flawless hp (exists_prepare_receiptFactList dj _ _ _ _)
  intro d dj' hp'
  exact ensures_pure ⟨hp', d, rfl⟩

end ArkForge.Daemon.Calls
