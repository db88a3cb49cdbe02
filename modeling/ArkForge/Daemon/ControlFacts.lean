import ArkForge.Daemon.Jobs
import ArkForge.Lib.Lines

/-! # The facts of a control receipt

A control receipt's facts have distinct conforming keys and arbitrary values. Its evidence is the
SHA-256 of the lines `key=value`, keys in byte order. A value may contain a line break, so a line may
end before its fact does: the evidence of two facts or more is always the evidence of fewer facts
too. -/

namespace ArkForge.Daemon.ControlFacts

open Lib.KeySort Lib.Lines
open Core.Cbor Core.Digest Core.Ids
open Ipc.Receipt Jobs

/-! ### Checking the facts -/

/-- The keys of `facts` conform, and none repeats or is among `seen`. -/
def checkFactKeys (seen : List String) : List KeyValue → Except JobError Unit
  | [] => .ok ()
  | fact :: facts =>
    match OpaqueId.new fact.key with
    | .error _ => .error (.invalidReceiptFactKey fact.key)
    | .ok _ =>
      if fact.key ∈ seen then .error (.duplicateReceiptFactKey fact.key)
      else checkFactKeys (fact.key :: seen) facts

def validateReceiptFactKeys (facts : List KeyValue) : Except JobError Unit := checkFactKeys [] facts

/-- Facts with distinct conforming keys. -/
def Accepted (facts : List KeyValue) : Prop :=
  (∀ fact ∈ facts, Conforming fact.key) ∧ (facts.map (·.key)).Nodup

variable {facts : List KeyValue}

theorem checkFactKeys_eq_ok : ∀ {seen : List String},
    checkFactKeys seen facts = .ok () ↔
      (∀ fact ∈ facts, Conforming fact.key) ∧ (facts.map (·.key)).Nodup ∧
        ∀ fact ∈ facts, fact.key ∉ seen := by
  induction facts with
  | nil => simp [checkFactKeys]
  | cons fact facts ih =>
    intro seen
    rw [checkFactKeys]
    split
    next e hnew =>
      have hbad : ¬ Conforming fact.key := fun hc => by
        rw [OpaqueId.new_value ⟨fact.key, hc⟩] at hnew
        cases hnew
      simp [hbad]
    next o hnew =>
      have hgood : Conforming fact.key := by
        rw [← OpaqueId.value_of_new hnew]
        exact o.conforming
      by_cases hseen : fact.key ∈ seen
      · simp [hseen]
      · rw [if_neg hseen, ih, List.forall_mem_cons, List.forall_mem_cons, List.map_cons,
          List.nodup_cons]
        simp only [List.mem_cons, not_or, List.mem_map]
        constructor
        · rintro ⟨hconf, hnodup, hnot⟩
          refine ⟨⟨hgood, hconf⟩, ⟨?_, hnodup⟩, hseen, fun g hg => (hnot g hg).2⟩
          rintro ⟨g, hg, hkey⟩
          exact (hnot g hg).1 hkey
        · rintro ⟨⟨_, hconf⟩, ⟨hfresh, hnodup⟩, _, hnot⟩
          exact ⟨hconf, hnodup, fun g hg => ⟨fun hkey => hfresh ⟨g, hg, hkey⟩, hnot g hg⟩⟩

/-- **What the check accepts.** -/
theorem validateReceiptFactKeys_eq_ok :
    validateReceiptFactKeys facts = .ok () ↔ Accepted facts := by
  simp [validateReceiptFactKeys, checkFactKeys_eq_ok, Accepted]

/-! ### The evidence -/

/-- The facts by key and then by value, in byte order. -/
def orderedFacts (facts : List KeyValue) : List KeyValue :=
  sortByKey (fun fact => utf8 fact.key) (sortByKey (fun fact => utf8 fact.value) facts)

/-- The bytes `key=value\n` of one fact. -/
def factBytes (fact : KeyValue) : List UInt8 :=
  utf8 fact.key ++ [0x3D] ++ utf8 fact.value ++ [0x0A]

/-- What `canonicalFactsDigest` hashes. -/
def canonicalFactsBytes (facts : List KeyValue) : List UInt8 := (orderedFacts facts).flatMap factBytes

def canonicalFactsDigest (facts : List KeyValue) : Sha256Digest := sha256 (canonicalFactsBytes facts)

theorem orderedFacts_perm (facts : List KeyValue) : (orderedFacts facts).Perm facts :=
  (sortByKey_perm _).trans (sortByKey_perm _)

/-- A fact as characters. -/
def chars (fact : KeyValue) : List Char × List Char := (fact.key.toList, fact.value.toList)

theorem canonicalFactsBytes_eq (facts : List KeyValue) :
    canonicalFactsBytes facts =
      utf8 (String.ofList (text '=' '\n' ((orderedFacts facts).map chars))) := by
  unfold canonicalFactsBytes
  induction orderedFacts facts with
  | nil => rfl
  | cons fact facts ih =>
    have hsplit : text '=' '\n' ((fact :: facts).map chars) =
        fact.key.toList ++ ['='] ++ fact.value.toList ++ ['\n'] ++ text '=' '\n' (facts.map chars) := by
      simp [chars]
    have heq : utf8 (String.ofList ['=']) = [0x3D] := by decide
    have hnl : utf8 (String.ofList ['\n']) = [0x0A] := by decide
    rw [List.flatMap_cons, ih, hsplit]
    simp only [String.ofList_append, String.ofList_toList, utf8_append, heq, hnl, factBytes]

theorem canonicalFactsBytes_inj {other : List KeyValue} :
    canonicalFactsBytes other = canonicalFactsBytes facts ↔
      text '=' '\n' ((orderedFacts other).map chars) =
        text '=' '\n' ((orderedFacts facts).map chars) := by
  rw [canonicalFactsBytes_eq, canonicalFactsBytes_eq, utf8_injective.eq_iff, String.ofList_inj]

theorem chars_injective : Function.Injective chars := by
  rintro ⟨k, v⟩ ⟨k', v'⟩ h
  simpa [chars, String.toList_inj] using h

namespace Accepted

variable {facts other : List KeyValue}

theorem orderedFacts_pairwise (h : Accepted facts) :
    (orderedFacts facts).Pairwise fun a b => utf8 a.key < utf8 b.key := by
  refine sortByKey_pairwise_lt ?_
  have hkeys : ((sortByKey (fun fact => utf8 fact.value) facts).map (·.key)).Nodup :=
    ((sortByKey_perm facts).map _).nodup_iff.mpr h.2
  have hbytes := hkeys.map utf8_injective
  rwa [List.map_map] at hbytes

theorem of_pairwise (hc : ∀ fact ∈ facts, Conforming fact.key)
    (hp : facts.Pairwise fun a b => utf8 a.key < utf8 b.key) :
    Accepted facts ∧ orderedFacts facts = facts := by
  have hnodup : (facts.map fun fact => utf8 fact.key).Nodup := nodup_of_pairwise_lt hp
  have hacc : Accepted facts := by
    refine ⟨hc, List.Nodup.of_map utf8 ?_⟩
    rwa [List.map_map]
  exact ⟨hacc, eq_of_perm_of_pairwise hacc.orderedFacts_pairwise hp (orderedFacts_perm facts)⟩

theorem eq_notMem (h : Accepted facts) {pair : List Char × List Char}
    (hm : pair ∈ (orderedFacts facts).map chars) : '=' ∉ pair.1 := by
  obtain ⟨fact, hfact, rfl⟩ := List.mem_map.mp hm
  intro hmem
  have hall := (h.1 fact ((orderedFacts_perm facts).mem_iff.mp hfact)).2.2
  exact absurd (List.all_eq_true.mp hall '=' hmem) (by decide)

theorem eq_of_key {a b : KeyValue} (h : Accepted facts) (ha : a ∈ facts) (hb : b ∈ facts)
    (hkey : a.key = b.key) : a = b :=
  List.inj_on_of_nodup_map h.2 ha hb hkey

end Accepted

/-! ### When the evidence binds the facts -/

/-- No value contains a line break. -/
def OneLine (facts : List KeyValue) : Prop := ∀ fact ∈ facts, '\n' ∉ fact.value.toList

theorem mem_iff_of_oneLine {other : List KeyValue} (hf : Accepted facts) (ho : Accepted other)
    (hlf : OneLine facts) (hlo : OneLine other)
    (h : canonicalFactsBytes other = canonicalFactsBytes facts) :
    ∀ fact, fact ∈ other ↔ fact ∈ facts := by
  have lines : ∀ {l : List KeyValue}, Accepted l → OneLine l →
      ∀ p ∈ (orderedFacts l).map chars, '=' ∉ p.1 ∧ '\n' ∉ p.2 := by
    intro l hl hone p hp
    refine ⟨hl.eq_notMem hp, ?_⟩
    obtain ⟨fact, hfact, rfl⟩ := List.mem_map.mp hp
    exact hone fact ((orderedFacts_perm l).mem_iff.mp hfact)
  have heq : orderedFacts other = orderedFacts facts :=
    List.map_injective_iff.mpr chars_injective
      (text_injective (lines ho hlo) (lines hf hlf) (canonicalFactsBytes_inj.mp h))
  intro fact
  rw [← (orderedFacts_perm other).mem_iff, heq, (orderedFacts_perm facts).mem_iff]

/-- The fact cannot be taken for two: its value contains no line with a later key. -/
def Unsplittable (fact : KeyValue) : Prop :=
  ∀ x key y, Conforming key → utf8 fact.key < utf8 key →
    fact.value ≠ x ++ "\n" ++ key ++ "=" ++ y

/-- At most one fact, and that one cannot be taken for two. -/
def Unambiguous (facts : List KeyValue) : Prop :=
  facts = [] ∨ ∃ fact, facts = [fact] ∧ Unsplittable fact

/-- No other accepted facts have the same bytes. -/
def Binding (facts : List KeyValue) : Prop :=
  ∀ other, validateReceiptFactKeys other = .ok () →
    canonicalFactsBytes other = canonicalFactsBytes facts → ∀ fact, fact ∈ other ↔ fact ∈ facts

/-- A fact that takes the next one into its value. -/
def swallow (fact next : KeyValue) : KeyValue :=
  ⟨fact.key, fact.value ++ "\n" ++ next.key ++ "=" ++ next.value⟩

theorem chars_swallow (fact next : KeyValue) :
    chars (swallow fact next) = (fact.key.toList, merged '=' '\n' fact.value.toList (chars next)) := by
  simp [chars, swallow, merged]

/-- **Two facts or more are never bound**: the first can take the second into its value. -/
theorem not_binding_of_two {rest : List KeyValue} {a b : KeyValue} (hf : Accepted facts)
    (h : orderedFacts facts = a :: b :: rest) : ¬ Binding facts := by
  intro hbind
  have hp := hf.orderedFacts_pairwise
  rw [h] at hp
  obtain ⟨hab, hp⟩ := List.pairwise_cons.mp hp
  obtain ⟨_, hp⟩ := List.pairwise_cons.mp hp
  have hmem : ∀ fact ∈ a :: b :: rest, fact ∈ facts := fun fact hm =>
    (orderedFacts_perm facts).mem_iff.mp (h ▸ hm)
  obtain ⟨hacc, hord⟩ : Accepted (swallow a b :: rest) ∧
      orderedFacts (swallow a b :: rest) = swallow a b :: rest := by
    refine Accepted.of_pairwise ?_ (List.pairwise_cons.mpr ⟨fun c hc => ?_, hp⟩)
    · refine List.forall_mem_cons.mpr ⟨hf.1 a (hmem a (by simp)), fun c hc => ?_⟩
      exact hf.1 c (hmem c (by simp [hc]))
    · exact hab c (List.mem_cons_of_mem b hc)
  have hbytes : canonicalFactsBytes (swallow a b :: rest) = canonicalFactsBytes facts := by
    rw [canonicalFactsBytes_inj, hord, h, List.map_cons, chars_swallow, text_merged]
    rfl
  have hin : swallow a b ∈ facts :=
    (hbind _ (validateReceiptFactKeys_eq_ok.mpr hacc) hbytes (swallow a b)).mp (by simp)
  have hsame : swallow a b = a := hf.eq_of_key hin (hmem a (by simp)) rfl
  have hlen := congrArg (fun fact => fact.value.length) hsame
  simp only [swallow, String.length_append] at hlen
  have hnl : "\n".length = 1 := rfl
  omega

theorem unsplittable_of_binding {fact : KeyValue} (hf : Accepted [fact])
    (hbind : Binding [fact]) : Unsplittable fact := by
  intro x key y hkey hlt hvalue
  obtain ⟨hacc, hord⟩ : Accepted [⟨fact.key, x⟩, ⟨key, y⟩] ∧
      orderedFacts [⟨fact.key, x⟩, ⟨key, y⟩] = [⟨fact.key, x⟩, ⟨key, y⟩] := by
    refine Accepted.of_pairwise ?_ (by simpa using hlt)
    simpa using ⟨hf.1 fact (by simp), hkey⟩
  have hbytes : canonicalFactsBytes [⟨fact.key, x⟩, ⟨key, y⟩] = canonicalFactsBytes [fact] := by
    have hswallow : fact = swallow ⟨fact.key, x⟩ ⟨key, y⟩ := by
      rw [swallow, ← hvalue]
    rw [canonicalFactsBytes_inj, hord, List.perm_singleton.mp (orderedFacts_perm [fact])]
    conv_rhs => rw [hswallow]
    rw [List.map_singleton, chars_swallow, text_merged]
    rfl
  have hin := (hbind _ (validateReceiptFactKeys_eq_ok.mpr hacc) hbytes ⟨key, y⟩).mp (by simp)
  rw [List.mem_singleton] at hin
  rw [← hin] at hlt
  exact absurd hlt (Std.lt_irrefl)

theorem binding_of_unambiguous (hf : Accepted facts) (h : Unambiguous facts) : Binding facts := by
  intro other hother hbytes
  have ho := validateReceiptFactKeys_eq_ok.mp hother
  rw [canonicalFactsBytes_inj] at hbytes
  suffices hperm : other.Perm facts from fun fact => hperm.mem_iff
  rcases h with rfl | ⟨fact, rfl, hun⟩
  · have hnil : (orderedFacts other).map chars = [] := by
      cases hc : (orderedFacts other).map chars with
      | nil => rfl
      | cons p l =>
        rw [hc, List.perm_nil.mp (orderedFacts_perm [])] at hbytes
        simp at hbytes
    have hperm := orderedFacts_perm other
    rwa [List.map_eq_nil_iff.mp hnil, List.nil_perm, ← List.perm_nil] at hperm
  · have hone := List.perm_singleton.mp (orderedFacts_perm [fact])
    have hline : text '=' '\n' ((orderedFacts other).map chars) =
        line '=' '\n' (fact.key.toList, fact.value.toList) := by
      rw [hbytes, hone]
      simp [line, chars]
    have hkey : '=' ∉ fact.key.toList :=
      hf.eq_notMem (List.mem_map.mpr ⟨fact, by rw [hone]; simp, rfl⟩)
    rcases eq_or_merged_of_text_eq_line hkey (fun p hp => ho.eq_notMem hp) hline with
      hsame | ⟨x, next, l', y, hl, hvalue⟩
    · have heq : orderedFacts other = [fact] := by
        refine List.map_injective_iff.mpr chars_injective ?_
        simpa [chars] using hsame
      rw [← heq]
      exact (orderedFacts_perm other).symm
    · -- the other facts start with the key of `fact` and a later one: `fact` can be split there
      exfalso
      obtain ⟨a, m, ha, hchars, hm⟩ := List.map_eq_cons_iff.mp hl
      obtain ⟨b, m', hb, rfl, _⟩ := List.map_eq_cons_iff.mp hm
      have hp := ho.orderedFacts_pairwise
      rw [ha, hb] at hp
      have hlt := (List.pairwise_cons.mp hp).1 b (by simp)
      have hakey : a.key = fact.key := String.toList_inj.mp (congrArg Prod.fst hchars)
      have hconf : Conforming b.key :=
        ho.1 b ((orderedFacts_perm other).mem_iff.mp (by rw [ha, hb]; simp))
      refine hun (String.ofList x) b.key (String.ofList y) hconf (hakey ▸ hlt) ?_
      rw [← String.toList_inj, hvalue]
      simp [merged, chars]

/-- **When the evidence of a control receipt binds its facts.** Accepted facts are the only ones with
their bytes exactly when there is at most one and its value contains no line with a later key. Among
facts whose values contain no line break, the evidence determines the facts, if the hash tells their
bytes apart. -/
theorem control_evidence_binds_iff (facts : List KeyValue) :
    (validateReceiptFactKeys facts = .ok () → (Binding facts ↔ Unambiguous facts)) ∧
    (∀ other, validateReceiptFactKeys facts = .ok () → validateReceiptFactKeys other = .ok () →
      OneLine facts → OneLine other →
      (sha256 (canonicalFactsBytes other) = sha256 (canonicalFactsBytes facts) →
        canonicalFactsBytes other = canonicalFactsBytes facts) →
      canonicalFactsDigest other = canonicalFactsDigest facts →
      ∀ fact, fact ∈ other ↔ fact ∈ facts) := by
  refine ⟨fun hok => ⟨fun hbind => ?_, binding_of_unambiguous (validateReceiptFactKeys_eq_ok.mp hok)⟩,
    fun other hok hok' hone hone' hapart hdigest => ?_⟩
  · have hf := validateReceiptFactKeys_eq_ok.mp hok
    have hperm := orderedFacts_perm facts
    match hord : orderedFacts facts with
    | [] =>
      rw [hord] at hperm
      exact .inl (List.nil_perm.mp hperm)
    | [fact] =>
      rw [hord] at hperm
      have hone : facts = [fact] := (List.singleton_perm.mp hperm).symm
      subst hone
      exact .inr ⟨fact, rfl, unsplittable_of_binding hf hbind⟩
    | a :: b :: rest => exact absurd hbind (not_binding_of_two hf hord)
  · exact mem_iff_of_oneLine (validateReceiptFactKeys_eq_ok.mp hok)
      (validateReceiptFactKeys_eq_ok.mp hok') hone hone' (hapart hdigest)

/-- A value with a line break, and the two facts its line reads as. -/
theorem control_evidence_ambiguous :
    validateReceiptFactKeys [⟨"a", "1\nb=2"⟩] = .ok () ∧
    validateReceiptFactKeys [⟨"a", "1"⟩, ⟨"b", "2"⟩] = .ok () ∧
    canonicalFactsBytes [⟨"a", "1\nb=2"⟩] = canonicalFactsBytes [⟨"a", "1"⟩, ⟨"b", "2"⟩] ∧
    ¬ (∀ fact, fact ∈ [(⟨"a", "1\nb=2"⟩ : KeyValue)] ↔ fact ∈ [⟨"a", "1"⟩, ⟨"b", "2"⟩]) := by
  refine ⟨?_, ?_, by decide, fun h => ?_⟩
  · exact validateReceiptFactKeys_eq_ok.mpr ⟨by decide, by decide⟩
  · exact validateReceiptFactKeys_eq_ok.mpr ⟨by decide, by decide⟩
  · exact absurd ((h ⟨"b", "2"⟩).mpr (by simp)) (by decide)

end ArkForge.Daemon.ControlFacts
