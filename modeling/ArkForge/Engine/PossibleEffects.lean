import ArkForge.Engine.AtMostOnce
import ArkForge.Engine.Superseding

/-! # Possible effects over-approximate every unresolved dispatch

In a journal that the step transactions have written, every record of a permit names the step the
permit was accepted for (`Orderly`): an admission writes the first record of its permit, and the later
operations write what their token says. So the step that recovery looks up for an unresolved permit is
the step of its intent, and the union of possible effects holds every effect its actions may have
had. -/

namespace ArkForge.Engine.PossibleEffects

open Lib.Framing
open Core.Ids Core.Digest Core.Effect
open Core.Projection Core.Coverage
open Authority.Permit
open Record Chain Durable Replay
open Handle Recovery Step History
open AtMostOnce Superseding

variable {p s : String} {rs : List JournalRecord} {disk : Disk} {io : AppendIo × AppendIo}

/-! ### Mentions -/

/-- What a record says about permits. -/
structure Mention where
  kind : JournalRecordKind
  permit : Option String
  step : Option String

def mention (kind : JournalRecordKind) (facts : List (OpaqueId × String)) : Mention :=
  ⟨kind, factValue facts Fact.PERMIT_ID, factValue facts Fact.STEP_ID⟩

def mentions (rs : List JournalRecord) : List Mention := rs.map fun r => mention r.kind r.facts

/-- The permit `p` is mentioned, and always for the step `s`. -/
def IsFor (p s : String) (ms : List Mention) : Prop :=
  (∃ m ∈ ms, m.permit = some p) ∧ ∀ m ∈ ms, m.permit = some p → m.step = some s

/-- The mention `m` may follow `ms`: it accepts a permit that is not mentioned yet, or it is for the
step the permit is already mentioned for. -/
def Follows (ms : List Mention) (m : Mention) : Prop :=
  ∀ p, m.permit = some p → ∃ s, m.step = some s ∧
    ((∀ m' ∈ ms, m'.permit ≠ some p) ∧ m.kind = .stepPermitAccepted ∨ IsFor p s ms)

/-- Every mention follows those before it. -/
def Orderly (ms : List Mention) : Prop := ∀ ms' m, ms' ++ [m] <+: ms → Follows ms' m

theorem orderly_nil : Orderly [] := by
  intro ms' m h
  simpa using h.length_le

variable {ms : List Mention}

theorem Orderly.of_prefix {ms' : List Mention} (h : Orderly ms') (hp : ms <+: ms') : Orderly ms :=
  fun _ _ hm => h _ _ (hm.trans hp)

variable {m : Mention}

theorem orderly_concat : Orderly (ms ++ [m]) ↔ Orderly ms ∧ Follows ms m := by
  constructor
  · intro h
    exact ⟨h.of_prefix (List.prefix_append _ _), h ms m List.prefix_rfl⟩
  · rintro ⟨h, hm⟩ ms' m' hp
    rcases List.prefix_concat_iff.mp hp with heq | hp
    · obtain ⟨rfl, hlast⟩ := List.append_inj' heq rfl
      obtain rfl : m' = m := by simpa using hlast
      exact hm
    · exact h ms' m' hp

theorem IsFor.concat (h : IsFor p s ms) (hm : Follows ms m) : IsFor p s (ms ++ [m]) := by
  obtain ⟨⟨m₀, hm₀, hp₀⟩, hall⟩ := h
  refine ⟨⟨m₀, by simp [hm₀], hp₀⟩, List.forall_mem_append.mpr ⟨hall, List.forall_mem_singleton.mpr ?_⟩⟩
  intro hp
  obtain ⟨s', hs', ⟨hnew, -⟩ | ⟨-, hsame⟩⟩ := hm p hp
  · exact absurd hp₀ (hnew m₀ hm₀)
  · rw [hs', ← hall m₀ hm₀ hp₀, hsame m₀ hm₀ hp₀]

theorem follows_of_isFor (h : IsFor p s ms) {kind : JournalRecordKind}
    (hm : m = ⟨kind, some p, some s⟩) : Follows ms m := by
  subst hm
  intro q hq
  obtain rfl : p = q := Option.some.inj hq
  exact ⟨s, rfl, Or.inr h⟩

theorem isFor_concat_self (hm : Follows ms m) (hp : m.permit = some p) (hs : m.step = some s) :
    IsFor p s (ms ++ [m]) := by
  refine ⟨⟨m, by simp, hp⟩, List.forall_mem_append.mpr ⟨fun m' hmem hp' => ?_, by simp [hs]⟩⟩
  obtain ⟨s', hs', ⟨hnew, -⟩ | ⟨-, hsame⟩⟩ := hm p hp
  · exact absurd hp' (hnew m' hmem)
  · rw [hsame m' hmem hp', ← hs', hs]

theorem Orderly.isFor (h : Orderly ms) (hp : ∃ m ∈ ms, m.permit = some p) : ∃ s, IsFor p s ms := by
  induction ms using List.reverseRecOn with
  | nil =>
    obtain ⟨m, hm, -⟩ := hp
    simp at hm
  | append_singleton ms m ih =>
    obtain ⟨hms, hm⟩ := orderly_concat.mp h
    rcases exists_mem_concat.mp hp with hearlier | hlast
    · obtain ⟨s, hs⟩ := ih hms hearlier
      exact ⟨s, hs.concat hm⟩
    · obtain ⟨s, hs, -⟩ := hm p hlast
      exact ⟨s, isFor_concat_self hm hlast hs⟩

/-! ### Mentions and the journal -/

theorem mentions_append (rs rs' : List JournalRecord) :
    mentions (rs ++ rs') = mentions rs ++ mentions rs' := List.map_append

/-- A permit that a record names has been seen: its first record accepts it. -/
theorem one_le_rank_of_named (h : Orderly (mentions rs)) (hp : ∃ r ∈ rs, Names p r) :
    1 ≤ (standing p rs).rank := by
  induction rs using List.reverseRecOn with
  | nil =>
    obtain ⟨r, hr, -⟩ := hp
    simp at hr
  | append_singleton rs r ih =>
    rw [mentions_append] at h
    obtain ⟨hrs, hr⟩ := orderly_concat.mp h
    have hearlier : (∃ r ∈ rs, Names p r) → 1 ≤ (standing p (rs ++ [r])).rank := fun hnamed =>
      (ih hrs hnamed).trans (rank_standing_mono (List.prefix_append _ _) p)
    rcases exists_mem_concat.mp hp with hnamed | hlast
    · exact hearlier hnamed
    · obtain ⟨s, -, ⟨-, hkind⟩ | ⟨⟨m, hm, hpermit⟩, -⟩⟩ := hr p hlast
      · rw [standing_concat, if_pos hlast]
        exact one_le_advance hkind _
      · obtain ⟨r', hr', rfl⟩ := List.mem_map.mp hm
        exact hearlier ⟨r', hr', hpermit⟩

theorem not_mentioned_of_unseen (h : Orderly (mentions rs)) (hunseen : standing p rs = .unseen) :
    ∀ m ∈ mentions rs, m.permit ≠ some p := by
  intro m hm hpermit
  obtain ⟨r, hr, rfl⟩ := List.mem_map.mp hm
  have hrank := one_le_rank_of_named h ⟨r, hr, hpermit⟩
  rw [hunseen] at hrank
  exact absurd hrank (by simp [PermitDisposition.rank])

/-- **The lookup finds the step the permit is for.** -/
theorem stepForPermit_of_isFor (hnd : ∀ r ∈ rs, (r.facts.map Prod.fst).Nodup)
    (h : IsFor p s (mentions rs)) : stepForPermit ⟨rs⟩ p = some s := by
  have hany : ∀ r ∈ rs, (r.facts.any fun f => f.1.value = Fact.PERMIT_ID ∧ f.2 = p) = true ↔
      Names p r := by
    intro r hr
    unfold Names
    rw [factValue_eq_some (hnd r hr), List.any_eq_true]
    constructor
    · rintro ⟨⟨k, v⟩, hmem, hf⟩
      obtain ⟨hk, rfl⟩ := of_decide_eq_true hf
      exact ⟨k, hk, hmem⟩
    · rintro ⟨k, hk, hmem⟩
      exact ⟨(k, p), hmem, by simp [hk]⟩
  obtain ⟨⟨m, hm, hpermit⟩, hall⟩ := h
  obtain ⟨r₀, hr₀, rfl⟩ := List.mem_map.mp hm
  have hstep : ∀ r ∈ rs, Names p r → factValue r.facts Fact.STEP_ID = some s := fun r hr hn =>
    hall _ (List.mem_map_of_mem hr) hn
  unfold stepForPermit
  rcases hfind : List.findSome? _ rs with _ | s'
  · have hnone := List.findSome?_eq_none_iff.mp hfind r₀ hr₀
    rw [if_pos ((hany r₀ hr₀).mpr hpermit), hstep r₀ hr₀ hpermit] at hnone
    contradiction
  · obtain ⟨r, hr, hvalue⟩ := List.exists_of_findSome?_eq_some hfind
    split_ifs at hvalue with hnames
    rw [← hvalue]
    exact hstep r hr ((hany r hr).mp hnames)

/-- Records that differ in the order of their facts mention the same. -/
theorem mentions_congr {rs' : List JournalRecord}
    (h : List.Forall₂ JournalRecord.SameUpToFactOrder rs rs')
    (hnd : ∀ r ∈ rs, (r.facts.map Prod.fst).Nodup) : mentions rs = mentions rs' := by
  induction h with
  | nil => rfl
  | @cons r r' rs rs' hr _ ih =>
    obtain ⟨facts, hperm, rfl⟩ := hr
    have hvalue := factValue_perm hperm (hnd r List.mem_cons_self)
    have htail := ih fun r hr => hnd r (List.mem_cons_of_mem _ hr)
    unfold mentions at htail ⊢
    rw [List.map_cons, List.map_cons, htail]
    simp only [mention, hvalue]

/-! ### The invariant -/

/-- The steps the daemon holds tokens for. -/
def contexts (tokens : Tokens) : List StepContext :=
  tokens.admitted.map (fun s => StepContext.fromPermit s.permit) ++
    tokens.inFlight.map (·.context) ++ tokens.completed.map (·.context)

/-- An open journal whose file and whose chain are orderly, and whose tokens are for the steps that
their permits are for. -/
structure Coherent (dj : DurableJournal) (tokens : Tokens) : Prop where
  file : ∃ bodies tail rs n, Tracks dj bodies tail rs n ∧ Orderly (mentions rs)
  chain : Orderly (mentions dj.journal.records)
  distinct : ∀ r ∈ dj.journal.records, (r.facts.map Prod.fst).Nodup
  tokens : ∀ c ∈ contexts tokens,
    IsFor c.permitId.value c.stepId.value (mentions dj.journal.records)

section

variable {dj dj' : DurableJournal} {tokens tokens' : Tokens} {e : Entry}
  {res : Except DurableJournalError Sha256Digest}

theorem Coherent.retoken (h : Coherent dj tokens)
    (htokens : ∀ c ∈ contexts tokens', c ∈ contexts tokens ∨
      IsFor c.permitId.value c.stepId.value (mentions dj.journal.records)) : Coherent dj tokens' := by
  refine ⟨h.file, h.chain, h.distinct, fun c hc => ?_⟩
  rcases htokens c hc with hold | hnew
  · exact h.tokens c hold
  · exact hnew

theorem mentions_of_carries {r : JournalRecord} (h : Carries e r) :
    mentions [r] = [mention e.kind e.facts] := by
  unfold mentions
  rw [List.map_singleton, h.kind, h.facts]

theorem isFor_of_append (hstep : AppendStep dj e res dj')
    (hfollows : Follows (mentions dj.journal.records) (mention e.kind e.facts))
    (h : IsFor p s (mentions dj.journal.records)) : IsFor p s (mentions dj'.journal.records) := by
  rcases hstep.records with hrecords | ⟨r, hr, -, hrecords⟩
  · rw [hrecords]
    exact h
  · rw [hrecords, mentions_append, mentions_of_carries hr]
    exact h.concat hfollows

/-- **One append** of a mention that may follow. -/
theorem Coherent.append (h : Coherent dj tokens) (hstep : AppendStep dj e res dj')
    (hfollows : Follows (mentions dj.journal.records) (mention e.kind e.facts)) :
    Coherent dj' tokens := by
  by_cases hp : dj.poisoned = true
  · rw [hstep.of_poisoned hp]
    exact h
  have halive : dj.poisoned = false := by simpa using hp
  obtain ⟨bodies, tail, rs, n, ht, hrs⟩ := h.file
  have hsame : mentions dj.journal.records = mentions rs := mentions_congr (ht.same halive) h.distinct
  obtain ⟨bodies', tail', rs', n', ht', hgain, -, -, -⟩ := ht.append hstep
  have hfile : Orderly (mentions rs') := by
    rcases hgain with rfl | ⟨r, hr, rfl⟩
    · exact hrs
    · have hnd : (r.sortFacts.facts.map Prod.fst).Nodup :=
        (ht'.holds.chained.consistent _ (by simp)).nodup_facts
      have hlast : mentions [r.sortFacts] = mentions [r] :=
        mentions_congr (.cons (JournalRecord.sameUpToFactOrder_sortFacts r).symm .nil)
          (by simpa using hnd)
      rw [mentions_append, hlast, mentions_of_carries hr]
      exact orderly_concat.mpr ⟨hrs, hsame ▸ hfollows⟩
  have htokens := fun c hc => isFor_of_append hstep hfollows (h.tokens c hc)
  rcases hstep.records with hrecords | ⟨r, hr, hnd, hrecords⟩
  · exact ⟨⟨bodies', tail', rs', n', ht', hfile⟩, hrecords ▸ h.chain, hrecords ▸ h.distinct, htokens⟩
  · refine ⟨⟨bodies', tail', rs', n', ht', hfile⟩, ?_, ?_, htokens⟩
    · rw [hrecords, mentions_append, mentions_of_carries hr]
      exact orderly_concat.mpr ⟨h.chain, hfollows⟩
    · rw [hrecords]
      exact List.forall_mem_append.mpr ⟨h.distinct, List.forall_mem_singleton.mpr hnd⟩

/-- **The records of a step** whose permit is for that step. -/
theorem Coherent.appends {es : List Entry} {ok : Bool} (happends : Appends dj es ok dj')
    (h : Coherent dj tokens) (hfor : IsFor p s (mentions dj.journal.records))
    (hes : ∀ e ∈ es, mention e.kind e.facts = ⟨e.kind, some p, some s⟩) :
    Coherent dj' tokens ∧ IsFor p s (mentions dj'.journal.records) := by
  induction happends with
  | done dj => exact ⟨h, hfor⟩
  | stopped dj es => exact ⟨h, hfor⟩
  | @failed dj dj' e es error hstep =>
    have hfollows := follows_of_isFor hfor (hes e List.mem_cons_self)
    exact ⟨h.append hstep hfollows, isFor_of_append hstep hfollows hfor⟩
  | @next dj dj₁ dj' e es d ok hstep _ ih =>
    have hfollows := follows_of_isFor hfor (hes e List.mem_cons_self)
    exact ih (h.append hstep hfollows) (isFor_of_append hstep hfollows hfor)
      fun e he => hes e (List.mem_cons_of_mem _ he)

end

/-! ### Step transactions -/

theorem mention_entry (c : StepContext) (kind : JournalRecordKind) (now : UInt64)
    {facts : List (OpaqueId × String)} (hpre : c.factList <+: facts) :
    mention (c.entry kind now facts).kind (c.entry kind now facts).facts =
      ⟨kind, some c.permitId.value, some c.stepId.value⟩ := by
  obtain ⟨more, rfl⟩ := hpre
  have hpermit : factValue (c.factList ++ more) Fact.PERMIT_ID = some c.permitId.value :=
    factValue_append_of_some c.permitId_factList
  have hstep : factValue (c.factList ++ more) Fact.STEP_ID = some c.stepId.value :=
    factValue_append_of_some c.stepId_factList
  show (⟨kind, factValue (c.factList ++ more) Fact.PERMIT_ID,
    factValue (c.factList ++ more) Fact.STEP_ID⟩ : Mention) = _
  rw [hpermit, hstep]

theorem checkUnseen_eq_ok {d : PermitDisposition} (h : checkUnseen p d = .ok ()) : d = .unseen := by
  rcases d with _ | _ | _ | _ | receipt
  · rfl
  all_goals contradiction

section

variable {dj dj' : DurableJournal} {tokens : Tokens}

/-- **The records of a step** whose permit is accepted by the first of them. -/
theorem Coherent.accept (h : Coherent dj tokens) {e : Entry} {es : List Entry} {ok : Bool}
    (happends : Appends dj (e :: es) ok dj') {p s : String}
    (hnew : ∀ m ∈ mentions dj.journal.records, m.permit ≠ some p)
    (he : mention e.kind e.facts = ⟨.stepPermitAccepted, some p, some s⟩)
    (hes : ∀ e ∈ es, mention e.kind e.facts = ⟨e.kind, some p, some s⟩) :
    Coherent dj' tokens ∧ (ok = true → IsFor p s (mentions dj'.journal.records)) := by
  have hfollows : Follows (mentions dj.journal.records) (mention e.kind e.facts) := by
    rw [he]
    intro p' hp
    obtain rfl : p = p' := Option.some.inj hp
    exact ⟨s, rfl, Or.inl ⟨hnew, rfl⟩⟩
  obtain _ | _ | hstep | ⟨hstep, hrest⟩ := happends
  · exact ⟨h, nofun⟩
  · exact ⟨h.append hstep hfollows, nofun⟩
  · obtain ⟨r, hr, hrecords⟩ := hstep.added rfl
    have hfor : IsFor p s (mentions dj.journal.records ++ [mention e.kind e.facts]) :=
      isFor_concat_self hfollows (congrArg Mention.permit he) (congrArg Mention.step he)
    rw [← mentions_of_carries hr, ← mentions_append, ← hrecords] at hfor
    obtain ⟨hcoherent, hafter⟩ := (h.append hstep hfollows).appends hrest hfor hes
    exact ⟨hcoherent, fun _ => hafter⟩

/-- **An admission** accepts a permit that no record mentions. -/
theorem Coherent.admission (h : Coherent dj tokens) {permit : StepPermit}
    {secret : ControllerPairingSecret} {intent : DispatchIntent}
    {result : Except Step.StepError AdmittedStep}
    (hexec : (admitStep io permit secret intent).exec dj = (result, dj')) :
    Coherent dj' tokens ∧ ∀ t, result = .ok t →
      t.permit.permit = permit ∧
        IsFor permit.permitId.value permit.stepId.value (mentions dj'.journal.records) := by
  have hspec := (admitStep_spec io permit secret intent dj).of_exec hexec
  obtain ⟨happends, hok, hrefused⟩ := hspec
  rcases hcheck : checkUnseen permit.permitId.value
    (standing permit.permitId.value dj.journal.records) with error | _
  · obtain ⟨rfl, rfl⟩ := hrefused error hcheck
    exact ⟨h, nofun⟩
  have hnew := not_mentioned_of_unseen h.chain (checkUnseen_eq_ok hcheck)
  obtain ⟨hcoherent, hfor⟩ := h.accept happends hnew
    (mention_entry (.fromPermit ⟨permit⟩) _ _ List.prefix_rfl)
    (List.forall_mem_singleton.mpr (mention_entry (.fromPermit ⟨permit⟩) _ _ List.prefix_rfl))
  refine ⟨hcoherent, ?_⟩
  rintro t rfl
  exact ⟨(hok t rfl).1, hfor rfl⟩

theorem mem_contexts {c : StepContext} : c ∈ contexts tokens ↔
    (∃ s ∈ tokens.admitted, StepContext.fromPermit s.permit = c) ∨
      (∃ t ∈ tokens.inFlight, t.context = c) ∨ ∃ t ∈ tokens.completed, t.context = c := by
  simp only [contexts, List.mem_append, List.mem_map, or_assoc]

/-- Tokens that are used up, and new ones for steps that a token is already held for. -/
theorem Coherent.exchange (h : Coherent dj tokens) {tokens' : Tokens}
    (hadmitted : tokens'.admitted ⊆ tokens.admitted)
    (hinFlight : ∀ t ∈ tokens'.inFlight, t ∈ tokens.inFlight ∨ t.context ∈ contexts tokens)
    (hcompleted : ∀ t ∈ tokens'.completed, t ∈ tokens.completed ∨ t.context ∈ contexts tokens) :
    Coherent dj tokens' := by
  refine h.retoken fun c hc => Or.inl ?_
  rcases mem_contexts.mp hc with ⟨s, hs, rfl⟩ | ⟨t, ht, rfl⟩ | ⟨t, ht, rfl⟩
  · exact mem_contexts.mpr (Or.inl ⟨s, hadmitted hs, rfl⟩)
  · rcases hinFlight t ht with hold | hknown
    · exact mem_contexts.mpr (Or.inr (Or.inl ⟨t, hold, rfl⟩))
    · exact hknown
  · rcases hcompleted t ht with hold | hknown
    · exact mem_contexts.mpr (Or.inr (Or.inr ⟨t, hold, rfl⟩))
    · exact hknown

variable {extra : List (String × String)} {now : UInt64}

/-- **A dispatch** writes records of the step its token is for. -/
theorem Coherent.dispatch (h : Coherent dj tokens) {step : AdmittedStep}
    (htoken : step ∈ tokens.admitted) {result : Except Step.StepError DispatchInFlight}
    (hexec : (beginDispatchWithFacts io step now extra).exec dj = (result, dj')) :
    Coherent dj' tokens ∧ ∀ t, result = .ok t → t.context = .fromPermit step.permit := by
  have hspec := (beginDispatchWithFacts_spec io step now extra dj).of_exec hexec
  obtain ⟨c, facts, rfl, hlarge, happends, hok⟩ := hspec
  have hfor := h.tokens _ (mem_contexts.mpr (.inl ⟨step, htoken, rfl⟩))
  refine ⟨(h.appends happends hfor
    (List.forall_mem_cons.mpr ⟨?_, List.forall_mem_singleton.mpr ?_⟩)).1, hok⟩
  · exact mention_entry _ _ _ hlarge.1
  · exact mention_entry _ _ _ hlarge.1

/-- **Transport evidence.** -/
theorem Coherent.evidence (h : Coherent dj tokens) {t : DispatchInFlight}
    (htoken : t ∈ tokens.inFlight) (io : AppendIo) (now : UInt64) (extra : List (String × String)) :
    Coherent ((recordTransportEvidence io t now extra).exec dj).2 tokens := by
  obtain ⟨facts, hlarge, happends⟩ := recordTransportEvidence_spec io t now extra dj
  have hfor := h.tokens _ (mem_contexts.mpr (.inr (.inl ⟨t, htoken, rfl⟩)))
  exact (h.appends happends hfor (List.forall_mem_singleton.mpr (mention_entry _ _ _ hlarge.1))).1

theorem factList_prefix_receiptFactList (c : StepContext) (receipt : Sha256Digest) :
    c.factList <+: c.receiptFactList receipt :=
  List.prefix_append _ _

/-- **A receipt.** -/
theorem Coherent.receipt (h : Coherent dj tokens) {t : DispatchInFlight}
    (htoken : t ∈ tokens.inFlight) {digest : Sha256Digest}
    {result : Except Step.StepError CompletedStep}
    (hexec : (recordReceiptWithFacts io t digest extra now).exec dj = (result, dj')) :
    Coherent dj' tokens ∧ ∀ done, result = .ok done → done.context = t.context := by
  have hspec := (recordReceiptWithFacts_spec io t digest extra now dj).of_exec hexec
  obtain ⟨facts, hlarge, happends, hok⟩ := hspec
  have hfor := h.tokens _ (mem_contexts.mpr (.inr (.inl ⟨t, htoken, rfl⟩)))
  have hpre := factList_prefix_receiptFactList t.context digest
  refine ⟨(h.appends happends hfor (List.forall_mem_cons.mpr ⟨?_, List.forall_mem_singleton.mpr ?_⟩)).1,
    fun done hdone => (hok done hdone).1⟩
  · exact mention_entry _ _ _ (hpre.trans hlarge.1)
  · exact mention_entry _ _ _ hpre

/-- **A checkpoint.** -/
theorem Coherent.checkpoint (h : Coherent dj tokens) {t : CompletedStep}
    (htoken : t ∈ tokens.completed) (io : AppendIo) (now : UInt64) :
    Coherent ((checkpoint io t now).exec dj).2 tokens := by
  have happends := checkpoint_spec io t now dj
  have hfor := h.tokens _ (mem_contexts.mpr (.inr (.inr ⟨t, htoken, rfl⟩)))
  refine (h.appends happends hfor (List.forall_mem_singleton.mpr ?_)).1
  exact mention_entry _ _ _ (factList_prefix_receiptFactList t.context t.receiptDigest)

theorem Coherent.sync (h : Coherent dj tokens) (outcome : SyncOutcome) :
    Coherent (dj.sync outcome).2 tokens := by
  obtain ⟨bodies, tail, rs, n, ht, hrs⟩ := h.file
  unfold DurableJournal.sync
  split
  · exact h
  · split
    · exact ⟨⟨bodies, tail, rs, n, ht.poison, hrs⟩, h.chain, h.distinct, h.tokens⟩
    · exact ⟨⟨bodies, tail, rs, _, ht.synced 0, hrs⟩, h.chain, h.distinct, h.tokens⟩

end

/-! ### Files between two openings -/

/-- The file is too short for a journal, or its records are orderly. -/
def DiskOrderly (disk : Disk) : Prop :=
  disk.content.length < MAGIC.length ∨
    ∃ bodies tail rs, Holds disk.content bodies tail rs ∧ Orderly (mentions rs)

theorem diskOrderly_magic (h : disk.content = MAGIC) : DiskOrderly disk :=
  Or.inr ⟨[], [], [], h ▸ holds_magic, orderly_nil⟩

variable {dj : DurableJournal}

theorem Coherent.diskOrderly {tokens : Tokens} (h : Coherent dj tokens) :
    DiskOrderly dj.file.disk := by
  obtain ⟨bodies, tail, rs, n, ht, hrs⟩ := h.file
  exact Or.inr ⟨bodies, tail, rs, ht.holds, hrs⟩

theorem DiskOrderly.crash (h : DiskOrderly disk) (cut : ℕ) : DiskOrderly (crashed disk cut) := by
  rcases h with hshort | ⟨bodies, tail, rs, hh, hrs⟩
  · exact .inl ((List.length_take_le' _ _).trans_lt hshort)
  by_cases hcut : MAGIC.length ≤ max disk.synced cut
  · obtain ⟨k, -, tail', hh', -⟩ := hh.take hcut
    have hpre : mentions (rs.take k) <+: mentions rs := (List.take_prefix k rs).map _
    exact Or.inr ⟨_, tail', _, hh', hrs.of_prefix hpre⟩
  · exact .inl ((List.length_take_le _ _).trans_lt (not_le.mp hcut))

variable {fault : OpenFault} {path : String}

theorem DiskOrderly.open_failed {disk' : Disk} (h : DiskOrderly disk) {e : DurableJournalError}
    (hopen : DurableJournal.openAt path fault disk = .error (e, disk')) : DiskOrderly disk' := by
  rcases h with hshort | ⟨bodies, tail, rs, hh, hrs⟩
  · rcases open_error_short hshort hopen with hshort' | hmagic
    · exact Or.inl hshort'
    · exact diskOrderly_magic hmagic
  rcases open_error_disk hh hopen with ⟨hcontent, -⟩ | ⟨hcontent, -⟩
  · exact Or.inr ⟨bodies, tail, rs, hcontent ▸ hh, hrs⟩
  · have hcut : Holds disk'.content bodies [] rs :=
      ⟨by rw [hcontent, List.append_nil], hh.valid, incomplete_nil, hh.reads, hh.chained⟩
    exact Or.inr ⟨bodies, [], rs, hcut, hrs⟩

theorem coherent_opened {content tail : List UInt8} {bodies : List (List UInt8)}
    (hh : Holds content bodies tail rs) (hrs : Orderly (mentions rs)) (path : String) (synced : ℕ) :
    Coherent (opened path bodies rs synced) ⟨[], [], []⟩ where
  file := ⟨bodies, [], rs, 0, tracks_opened hh path (.inl rfl) (Nat.zero_le _), hrs⟩
  chain := hrs
  distinct r hr := (hh.chained.consistent r hr).nodup_facts
  tokens _ hc := absurd hc List.not_mem_nil

theorem DiskOrderly.open_ok (h : DiskOrderly disk) {report : RecoveryReport}
    (hopen : DurableJournal.openAt path fault disk = .ok (dj, report)) :
    Coherent dj ⟨[], [], []⟩ := by
  rcases open_eq_ok hopen with ⟨-, rfl, -⟩ | ⟨bodies, tail, rs, hh, rfl, -⟩
  · exact coherent_opened holds_magic orderly_nil path _
  rcases h with hshort | ⟨bodies', tail', rs', hh', hrs⟩
  · have hlong : MAGIC.length ≤ disk.content.length := by
      rw [hh.eq, List.length_append]
      omega
    omega
  · obtain ⟨rfl, rfl, rfl⟩ := hh.unique hh'
    exact coherent_opened hh hrs path _

/-! ### Histories -/

/-- A record appended outside the step transactions says nothing about a permit. -/
def Silent : Event → Prop
  | .append _ entry => factValue entry.facts Fact.PERMIT_ID = none
  | _ => True

def CoherentWorld : World → Prop
  | .down disk => DiskOrderly disk
  | .up dj tokens => Coherent dj tokens

variable {world : World}

/-- **Every event keeps the records orderly.** -/
theorem CoherentWorld.step (h : CoherentWorld world) (path : String) {e : Event}
    (hsilent : Silent e) : CoherentWorld (step path world e).2 := by
  rcases world with disk | ⟨dj, tokens⟩
  · -- only a crash and an `open` can happen to a file that is not open
    have hdisk : DiskOrderly disk := h
    rcases e with cut | fault | _ | _ | _ | _ | _ | _ | _
    · exact hdisk.crash cut
    · rcases hopen : DurableJournal.openAt path fault disk with ⟨error, disk'⟩ | ⟨dj, report⟩
      · simp only [History.step, hopen]
        exact hdisk.open_failed hopen
      · simp only [History.step, hopen]
        exact hdisk.open_ok hopen
    all_goals exact h
  have hc : Coherent dj tokens := h
  rcases e with cut | fault | ⟨io, entry⟩ | outcome | ⟨io, permit, secret, intent⟩ |
    ⟨io, i, now, extra⟩ | ⟨io, i, now, facts⟩ | ⟨io, i, digest, extra, now⟩ | ⟨io, i, now⟩
  · exact hc.diskOrderly.crash cut
  · exact hc
  · -- the entry mentions no permit, so it may follow anything
    refine hc.append (append_step dj io entry) fun p hp => ?_
    have hnone : factValue entry.facts Fact.PERMIT_ID = none := hsilent
    exact absurd (hnone.symm.trans hp) (by simp)
  · exact hc.sync outcome
  · rcases hexec : (admitStep io permit secret intent).exec dj with ⟨error | s, dj'⟩
    · simp only [History.step, hexec]
      exact (hc.admission hexec).1
    · simp only [History.step, hexec]
      obtain ⟨hc', hfor⟩ := hc.admission hexec
      obtain ⟨rfl, hfor⟩ := hfor s rfl
      exact hc'.retoken (List.forall_mem_cons.mpr ⟨.inr hfor, fun _ h => .inl h⟩)
  · rcases htoken : tokens.admitted[i]? with _ | s
    · simp only [History.step, htoken]
      exact hc
    have hmem : s ∈ tokens.admitted := List.mem_of_getElem? htoken
    rcases hexec : (beginDispatchWithFacts io s now extra).exec dj with ⟨error | t, dj'⟩
    · simp only [History.step, htoken, hexec]
      exact (hc.dispatch hmem hexec).1.exchange (List.eraseIdx_subset) (fun _ h => .inl h)
        fun _ h => .inl h
    · simp only [History.step, htoken, hexec]
      obtain ⟨hc', hcontext⟩ := hc.dispatch hmem hexec
      refine hc'.exchange List.eraseIdx_subset
        (List.forall_mem_cons.mpr ⟨.inr ?_, fun _ h => .inl h⟩) fun _ h => .inl h
      exact mem_contexts.mpr (.inl ⟨s, hmem, (hcontext t rfl).symm⟩)
  · rcases htoken : tokens.inFlight[i]? with _ | t
    · simp only [History.step, htoken]
      exact hc
    · simp only [History.step, htoken]
      exact hc.evidence (List.mem_of_getElem? htoken) io now facts
  · rcases htoken : tokens.inFlight[i]? with _ | t
    · simp only [History.step, htoken]
      exact hc
    have hmem : t ∈ tokens.inFlight := List.mem_of_getElem? htoken
    have hkeep : ∀ t' ∈ tokens.inFlight.eraseIdx i,
        t' ∈ tokens.inFlight ∨ t'.context ∈ contexts tokens :=
      fun t' ht' => Or.inl (List.eraseIdx_subset ht')
    rcases hexec : (recordReceiptWithFacts io t digest extra now).exec dj with ⟨error | done, dj'⟩
    · simp only [History.step, htoken, hexec]
      exact (hc.receipt hmem hexec).1.exchange (List.Subset.refl _) hkeep fun _ h => .inl h
    · simp only [History.step, htoken, hexec]
      obtain ⟨hc', hcontext⟩ := hc.receipt hmem hexec
      refine hc'.exchange (List.Subset.refl _) hkeep
        (List.forall_mem_cons.mpr ⟨.inr ?_, fun _ h => .inl h⟩)
      exact mem_contexts.mpr (.inr (.inl ⟨t, hmem, (hcontext done rfl).symm⟩))
  · rcases htoken : tokens.completed[i]? with _ | done
    · simp only [History.step, htoken]
      exact hc
    · simp only [History.step, htoken]
      have hc' := hc.checkpoint (List.mem_of_getElem? htoken) io now
      exact hc'.exchange (List.Subset.refl _) (fun _ h => .inl h)
        fun _ h => .inl (List.eraseIdx_subset h)

/-- **A history keeps the records orderly**: induction over the events. -/
theorem CoherentWorld.run (path : String) {events : List Event} (hsilent : ∀ e ∈ events, Silent e)
    (h : CoherentWorld world) : CoherentWorld (run path world events) := by
  induction events generalizing world with
  | nil => exact h
  | cons e events ih =>
    have hstep := h.step path (hsilent e List.mem_cons_self)
    exact ih (fun e he => hsilent e (List.mem_cons_of_mem _ he)) hstep

/-! ### The union of an orderly journal -/

/-- The intent recorded for the permit `p` names the step `s`. -/
def IntentNames (journal : Journal) (p s : String) : Prop :=
  ∃ r ∈ journal.records, r.kind = .stepIntentRecorded ∧ Names p r ∧
    factValue r.facts Fact.STEP_ID = some s

/-- `e` is the effect of the destructive action `a`: on its target, in its range, with its content. -/
structure Causes (a : PrivateActionRecord) (e : PersistentEffect) : Prop where
  destructive : a.effectClass = .destructive
  effect : effectOf a = .persistent e
  target : effectTarget e = a.declaredTarget
  range : e.range = a.declaredRange
  content : effectContent e = a.contentDigest

theorem causes_of_effectOf {a : PrivateActionRecord} {e : PersistentEffect}
    (h : effectOf a = .persistent e) : Causes a e := by
  obtain ⟨htarget, hrange, hcontent, -⟩ := effectOf_persistent h
  refine ⟨?_, h, htarget.symm, hrange.symm, hcontent.symm⟩
  unfold effectOf at h
  split at h
  · contradiction
  · contradiction
  · contradiction
  · next hclass => exact hclass

section

variable {dj : DurableJournal} {tokens : Tokens}

/-- **The step of an intent is the step recovery looks up.** -/
theorem Coherent.stepForPermit_of_intent (h : Coherent dj tokens)
    (hintent : IntentNames dj.journal p s) : stepForPermit dj.journal p = some s := by
  obtain ⟨r, hr, -, hnames, hstep⟩ := hintent
  obtain ⟨s', hfor⟩ := h.chain.isFor ⟨_, List.mem_map_of_mem hr, hnames⟩
  have hsame : some s = some s' := hstep.symm.trans (hfor.2 _ (List.mem_map_of_mem hr) hnames)
  rw [hsame]
  exact stepForPermit_of_isFor h.distinct hfor

theorem Coherent.isFor_of_unresolved (h : Coherent dj tokens)
    (hp : p ∈ (PermitLedger.fromJournal dj.journal).unresolved) :
    ∃ s, IsFor p s (mentions dj.journal.records) := by
  by_contra hnone
  have hunseen : standing p dj.journal.records = .unseen := by
    refine standing_eq_unseen fun r hr hnames => hnone ?_
    exact h.chain.isFor ⟨_, List.mem_map_of_mem hr, hnames⟩
  have hopen := PermitLedger.mem_unresolved.mp hp
  simp only [hunseen, reduceCtorEq, or_self] at hopen

end

theorem coherentWorld_start (h : disk.content = []) : CoherentWorld (.down disk) := by
  left
  rw [h]
  decide

/-- What recovery takes for the possible effects, compared with the actions of the unresolved permits:
nothing is missing, nothing is invented, and an eligible recovery covers it all. -/
structure OverApproximates (journal : Journal) (plan : StoredProviderPlan)
    (possible : PossibleEffectSet) : Prop where
  complete : ∀ p ∈ (PermitLedger.fromJournal journal).unresolved, ∀ s, IntentNames journal p s →
    possible.completeness = .unbounded ∨
      ∀ a ∈ plan.actions, a.stepId.value = s → a.actionId ∈ possible.sourceActionIds ∧
        (a.effectClass = .destructive → ∃ e ∈ possible.effects.persistent, Causes a e)
  sound : ∀ e ∈ possible.effects.persistent, ∃ p ∈ (PermitLedger.fromJournal journal).unresolved,
    ∃ a ∈ plan.actions, IsFor p a.stepId.value (mentions journal.records) ∧ Causes a e
  eligible : ∀ recovery covers, assessSupersedingRecovery possible recovery = .eligible covers →
    possible.completeness = .bounded ∧ covers = possible.effects.persistent ∧
      ∀ e ∈ possible.effects.persistent, ∃ partition ∈ recovery.coveredEffects,
        e.partition = some partition

/-- **Possible effects over-approximate every unresolved dispatch**, in every history of the step
transactions that starts with an empty file. If an unresolved permit's intent names a step, then the
union is unbounded, or it lists every action of the step and holds the exact effect of the destructive
ones; every effect in it is one of an action of the step that an unresolved permit is for. -/
theorem possibleEffects_overApproximates (path : String) {disk : Disk} (hempty : disk.content = [])
    {events : List Event} (hsilent : ∀ e ∈ events, Silent e) {dj : DurableJournal} {tokens : Tokens}
    (hrun : run path (.down disk) events = .up dj tokens) (plan : StoredProviderPlan)
    (impact : DataImpact) :
    OverApproximates dj.journal plan (possibleEffects dj.journal plan impact) := by
  have hworld := (coherentWorld_start hempty).run path hsilent
  rw [hrun] at hworld
  have h : Coherent dj tokens := hworld
  have hgathers := possibleEffects_gathers dj.journal plan impact
  set possible := possibleEffects dj.journal plan impact
  refine ⟨fun p hp s hintent => ?_, fun e he => ?_, fun recovery covers hassess => ?_⟩
  · rcases hcomplete : possible.completeness with _ | _
    · right
      intro a ha hs
      obtain ⟨-, hnamed⟩ := hgathers.bounded.mp hcomplete
      have hof : ∃ p ∈ (PermitLedger.fromJournal dj.journal).unresolved, ActionOf dj.journal plan p a :=
        ⟨p, hp, ha, by rw [h.stepForPermit_of_intent hintent, hs]⟩
      refine ⟨(hgathers.source _).mpr ⟨a, hof, rfl⟩, fun hd => ?_⟩
      obtain ⟨e, he⟩ := exists_effect_of_destructive hd (hnamed a hof)
      exact ⟨e, (hgathers.persistent e).mpr ⟨a, hof, he⟩, causes_of_effectOf he⟩
    · exact Or.inl rfl
  · obtain ⟨a, ⟨p, hp, ha, hstep⟩, heffect⟩ := (hgathers.persistent e).mp he
    obtain ⟨s, hfor⟩ := h.isFor_of_unresolved hp
    obtain rfl : s = a.stepId.value :=
      Option.some.inj ((stepForPermit_of_isFor h.distinct hfor).symm.trans hstep)
    exact ⟨p, hp, a, ha, hfor, causes_of_effectOf heffect⟩
  · obtain ⟨hbounded, rfl, hcovered⟩ := assess_eligible hassess
    refine ⟨hbounded, rfl, fun e he => ?_⟩
    obtain ⟨partition, hpartition, hmem⟩ := covered_eq_true.mp (hcovered e he)
    exact ⟨partition, hmem, hpartition⟩

/-- After an admission to a journal without records, the permit is unresolved, and its intent names
its step. -/
theorem intentNames_of_admission {dj' : DurableJournal} {permit : StepPermit}
    {secret : ControllerPairingSecret} {intent : DispatchIntent} {t : AdmittedStep}
    (hnil : dj.journal.records = [])
    (hexec : (admitStep io permit secret intent).exec dj = (.ok t, dj')) :
    permit.permitId.value ∈ (PermitLedger.fromJournal dj'.journal).unresolved ∧
      IntentNames dj'.journal permit.permitId.value permit.stepId.value := by
  have hspec := (admitStep_spec io permit secret intent dj).of_exec hexec
  obtain ⟨rs, hcarries, hrecords⟩ := hspec.1.added rfl
  rw [hnil] at hrecords
  obtain ⟨accepted, rest, haccepted, hrest, rfl⟩ := List.forall₂_cons_left_iff.mp hcarries
  obtain ⟨recorded, none, hintent, hnone, rfl⟩ := List.forall₂_cons_left_iff.mp hrest
  obtain rfl := List.forall₂_nil_left_iff.mp hnone
  set c := StepContext.fromPermit ⟨permit⟩
  have hnames : Names c.permitId.value accepted := names_of_carries List.prefix_rfl haccepted
  have hnames' : Names c.permitId.value recorded := names_of_carries List.prefix_rfl hintent
  have hstanding : standing c.permitId.value dj'.journal.records = .intentDurable := by
    have hkind : accepted.kind = .stepPermitAccepted := haccepted.kind
    have hkind' : recorded.kind = .stepIntentRecorded := hintent.kind
    rw [hrecords]
    show standing _ ([accepted] ++ [recorded]) = _
    rw [standing_concat, if_pos hnames', ← List.nil_append [accepted], standing_concat,
      if_pos hnames]
    unfold advance
    rw [hkind, hkind']
    rfl
  refine ⟨PermitLedger.mem_unresolved.mpr (Or.inl hstanding), recorded, ?_, hintent.kind, hnames', ?_⟩
  · rw [hrecords]
    exact List.mem_cons_of_mem _ List.mem_cons_self
  · rw [hintent.facts]
    exact c.stepId_factList

/-- A history whose permit is admitted and not dispatched. -/
theorem possibleEffects_overApproximates_admitted :
    ∃ (permit : StepPermit) (events : List Event) (dj : DurableJournal) (tokens : Tokens),
      (∀ e ∈ events, Silent e) ∧ run "journal" (.down ⟨false, [], 0⟩) events = .up dj tokens ∧
      permit.permitId.value ∈ (PermitLedger.fromJournal dj.journal).unresolved ∧
      IntentNames dj.journal permit.permitId.value permit.stepId.value ∧
      OverApproximates dj.journal ⟨[{ bootWrite with stepId := permit.stepId }]⟩
        (possibleEffects dj.journal ⟨[{ bootWrite with stepId := permit.stepId }]⟩
          EffectSet.readOnly.dataImpact) := by
  let id := bootWrite.stepId
  let zero := bootContent
  let intent : DispatchIntent :=
    ⟨id, id, id, zero, id, id, zero, zero, zero, ⟨id, id, 1, zero⟩, zero, 0⟩
  obtain ⟨permit, -, -, hverify⟩ :=
    exists_verified intent ⟨1, []⟩ id (show intent.nowEpochMs < 1 by decide)
  have hopen : DurableJournal.openAt "journal" .none ⟨false, [], 0⟩ = _ :=
    Replay.open_of_empty rfl "journal"
  set start := Replay.opened "journal" [] [] MAGIC.length
  rcases hexec : (admitStep (flawless, flawless) permit ⟨1, []⟩ intent).exec start with ⟨result, dj⟩
  obtain ⟨-, t, rfl, -⟩ := (admitStep_flawless rfl rfl hverify).of_exec hexec
  have hsilent : ∀ e ∈ [Event.openJournal .none,
      .admitStep (flawless, flawless) permit ⟨1, []⟩ intent], Silent e := by
    simp [Silent]
  have hrun : run "journal" (.down ⟨false, [], 0⟩) [.openJournal .none,
      .admitStep (flawless, flawless) permit ⟨1, []⟩ intent] = .up dj ⟨[t], [], []⟩ := by
    simp [run, History.step, hopen, hexec]
  obtain ⟨hunresolved, hintent⟩ := intentNames_of_admission rfl hexec
  exact ⟨permit, _, dj, _, hsilent, hrun, hunresolved, hintent,
    possibleEffects_overApproximates "journal" rfl hsilent hrun _ _⟩

end ArkForge.Engine.PossibleEffects
