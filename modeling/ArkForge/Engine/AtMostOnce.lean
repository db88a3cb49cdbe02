import ArkForge.Engine.History

/-! # At most one dispatch per permit

An admission is a ticket for one dispatch: it is issued only for a permit the ledger does not mention,
its records are on stable storage before it is issued, and it is used up by the dispatch. Hence over a
whole history there is at most one ticket or dispatch for a permit (`Budget`). -/

namespace ArkForge.Engine.AtMostOnce

open Lib.Transaction
open Core.Ids
open Authority.Permit
open Record Durable
open Handle Recovery Step History

/-! ### Records of a step -/

variable {r : JournalRecord}

theorem names_of_carries {c : StepContext} {kind : JournalRecordKind} {now : UInt64}
    {facts : List (OpaqueId × String)} (hpre : c.factList <+: facts)
    (h : Carries (c.entry kind now facts) r) : Names c.permitId.value r := by
  obtain ⟨more, rfl⟩ := hpre
  have hfacts : r.facts = c.factList ++ more := h.facts
  unfold Names
  rw [hfacts]
  exact factValue_append_of_some c.permitId_factList

theorem three_le_advance (h : r.kind = .permitConsuming) (d : PermitDisposition) :
    3 ≤ (advance r d).rank := by
  unfold advance
  rw [h]
  cases d <;> simp [PermitDisposition.rank]

theorem one_le_advance (h : r.kind = .stepPermitAccepted) (d : PermitDisposition) :
    1 ≤ (advance r d).rank := by
  unfold advance
  rw [h]
  cases d <;> simp [PermitDisposition.rank]

/-! ### The budget of a permit -/

/-- The records `stamped` are on stable storage in this world. -/
def Kept (stamped : List JournalRecord) : World → Prop
  | .down disk => DiskKeeps disk stamped
  | .up dj _ => Backed dj stamped

/-- The admissions for `p` not used up. -/
def tickets (p : String) : World → ℕ
  | .down _ => 0
  | .up _ tokens => tokens.admitted.countP fun s => permitOf s = p

def isDispatch (p : String) : Observation → Bool
  | .dispatched q => q = p
  | _ => false

/-- Tickets and dispatches so far, and what stable storage says about them. -/
structure Budget (used : String → ℕ) (world : World) (stamped : List JournalRecord) : Prop where
  kept : Kept stamped world
  once : ∀ p, used p + tickets p world ≤ 1
  seen : ∀ p, 1 ≤ used p + tickets p world → 1 ≤ (standing p stamped).rank
  spent : ∀ p, 1 ≤ used p → 3 ≤ (standing p stamped).rank

variable {world : World} {stamped : List JournalRecord} {used : String → ℕ}

theorem Budget.shrink {used' : String → ℕ} {world' : World}
    {stamped' : List JournalRecord} (h : Budget used world stamped)
    (hpre : stamped <+: stamped') (hkept : Kept stamped' world')
    (hle : ∀ p, used' p + tickets p world' ≤ used p + tickets p world)
    (hspent : ∀ p, 1 ≤ used' p → 1 ≤ used p ∨ 3 ≤ (standing p stamped').rank) :
    Budget used' world' stamped' := by
  refine ⟨hkept, fun p => (hle p).trans (h.once p), fun p hp => ?_, fun p hp => ?_⟩
  · exact (h.seen p (hp.trans (hle p))).trans (rank_standing_mono hpre p)
  · rcases hspent p hp with hold | hnew
    · exact (h.spent p hold).trans (rank_standing_mono hpre p)
    · exact hnew

/-- What an observation must not say once `p` has been dispatched. -/
structure Respects (p : String) (o : Observation) : Prop where
  opened : ∀ ledger, o = .opened ledger → ledger.disposition p = .consumingOutcomeUnknown ∨
    ∃ receipt, ledger.disposition p = .consumed receipt
  admission : ∀ result, o = .admission p result → result = .error (.outcomeUnknown p) ∨
    ∃ receipt, result = .error (.alreadyConsumed p receipt)

theorem respects_quiet (p : String) : Respects p .quiet := ⟨nofun, nofun⟩

theorem respects_dispatched (p q : String) : Respects p (.dispatched q) := ⟨nofun, nofun⟩

/-- What one event does: the budget stays, and what has been dispatched is respected. -/
structure StepKeeps (used : String → ℕ) (o : Observation) (world : World) : Prop where
  budget : ∃ stamped, Budget (fun p => used p + (isDispatch p o).toNat) world stamped
  respects : ∀ p, 1 ≤ used p → Respects p o

theorem Budget.quiet {world' : World} {stamped' : List JournalRecord}
    (h : Budget used world stamped) (hpre : stamped <+: stamped') (hkept : Kept stamped' world')
    (hle : ∀ p, tickets p world' ≤ tickets p world) : StepKeeps used .quiet world' where
  budget := ⟨stamped', h.shrink hpre hkept (fun p => Nat.add_le_add_left (hle p) (used p))
    fun _ hp => .inl hp⟩
  respects p _ := respects_quiet p

/-! ### One event -/

variable {p : String}

/-- A permit that may have been used is refused, with the reason. -/
theorem checkUnseen_spent {d : PermitDisposition} (h : 3 ≤ d.rank) :
    checkUnseen p d = .error (.outcomeUnknown p) ∨
      ∃ receipt, checkUnseen p d = .error (.alreadyConsumed p receipt) := by
  rcases PermitDisposition.three_le_rank.mp h with rfl | ⟨receipt, rfl⟩
  · exact .inl rfl
  · exact .inr ⟨receipt, rfl⟩

section

variable {used : String → ℕ} {stamped : List JournalRecord} {dj : DurableJournal} {tokens : Tokens}

variable {path : String}

theorem Budget.openJournal {disk : Disk} (h : Budget used (.down disk) stamped) {fault : OpenFault}
    {report : RecoveryReport} (hopen : DurableJournal.openAt path fault disk = .ok (dj, report)) :
    StepKeeps used (.opened (PermitLedger.fromJournal dj.journal)) (.up dj ⟨[], [], []⟩) := by
  have hb : Backed dj stamped := DiskKeeps.backed h.kept hopen
  refine ⟨⟨stamped, h.shrink List.prefix_rfl hb (fun p => le_rfl) fun p hp => .inl hp⟩, ?_⟩
  intro p hp
  refine ⟨?_, nofun⟩
  rintro _ ⟨⟩
  have hledger : (PermitLedger.fromJournal dj.journal).disposition p =
      standing p dj.journal.records := PermitLedger.disposition_fromRecords _ _
  rw [hledger]
  exact PermitDisposition.three_le_rank.mp ((h.spent p hp).trans (hb.rank_le p))

variable {secret : ControllerPairingSecret} {dj' : DurableJournal} {io : AppendIo × AppendIo}
  {intent : DispatchIntent} {permit : StepPermit}

theorem Budget.admission_error (h : Budget used (.up dj tokens) stamped) {e : StepError}
    (hexec : (admitStep io permit secret intent).exec dj = (.error e, dj')) :
    StepKeeps used (.admission permit.permitId.value (.error e)) (.up dj' tokens) := by
  have hspec := (admitStep_spec io permit secret intent dj).of_exec hexec
  obtain ⟨happends, -, hrefused⟩ := hspec
  have hb : Backed dj stamped := h.kept
  obtain ⟨stamped', hpre, hb'⟩ := hb.appends happends
  refine ⟨⟨stamped', h.shrink hpre hb' (fun p => le_rfl) fun p hp => .inl hp⟩, fun p hp => ⟨nofun, ?_⟩⟩
  rintro _ ⟨⟩
  have hrank := (h.spent _ hp).trans (hb.rank_le _)
  rcases checkUnseen_spent hrank with hcheck | ⟨receipt, hcheck⟩
  · have hres := (hrefused _ hcheck).2
    exact .inl (congrArg Except.error (Except.error.inj hres))
  · have hres := (hrefused _ hcheck).2
    exact .inr ⟨receipt, congrArg Except.error (Except.error.inj hres)⟩

/-- An admission issues the only ticket its permit ever gets. -/
theorem Budget.admission_ok (h : Budget used (.up dj tokens) stamped) {s : AdmittedStep}
    (hexec : (admitStep io permit secret intent).exec dj = (.ok s, dj')) :
    StepKeeps used (.admission permit.permitId.value (.ok ()))
      (.up dj' { tokens with admitted := s :: tokens.admitted }) := by
  have hspec := (admitStep_spec io permit secret intent dj).of_exec hexec
  obtain ⟨happends, hok, -⟩ := hspec
  obtain ⟨hpermit, -, hunseen⟩ := hok s rfl
  have hb : Backed dj stamped := h.kept
  -- the ledger has not seen the permit, so neither has stable storage
  have hzero : (standing permit.permitId.value stamped).rank = 0 := by
    have hle := hb.rank_le permit.permitId.value
    rw [hunseen] at hle
    exact Nat.le_zero.mp hle
  have hfresh : used permit.permitId.value + tickets permit.permitId.value (.up dj tokens) = 0 := by
    have hseen := h.seen permit.permitId.value
    omega
  obtain ⟨stamped', hpre, hb', hrank⟩ := hb.appends_durable happends rfl
    fun r hr =>
      ⟨names_of_carries List.prefix_rfl hr, one_le_advance hr.kind⟩
  have htickets : ∀ p, tickets p (.up dj' { tokens with admitted := s :: tokens.admitted }) =
      tickets p (.up dj tokens) + if permit.permitId.value = p then 1 else 0 := by
    intro p
    have hof : permitOf s = permit.permitId.value := by rw [permitOf, hpermit]
    simp only [tickets, List.countP_cons, hof, decide_eq_true_eq]
  refine ⟨⟨stamped', hb', fun p => ?_, fun p hp => ?_, fun p hp => ?_⟩, fun p hp => ⟨nofun, ?_⟩⟩
  · have honce := h.once p
    rw [htickets]
    simp only [isDispatch, Bool.toNat_false]
    by_cases heq : permit.permitId.value = p
    · subst heq
      simp
      omega
    · rw [if_neg heq]
      omega
  · by_cases heq : permit.permitId.value = p
    · subst heq
      exact hrank
    · rw [htickets, if_neg heq] at hp
      exact (h.seen p hp).trans (rank_standing_mono hpre p)
  · exact (h.spent p hp).trans (rank_standing_mono hpre p)
  · rintro _ ⟨⟩
    exact absurd hp (by omega)

theorem countP_eraseIdx_add {α : Type} {l : List α} {i : ℕ} {a : α} (h : l[i]? = some a)
    (f : α → Bool) : (l.eraseIdx i).countP f + (f a).toNat = l.countP f := by
  obtain ⟨hi, rfl⟩ := List.getElem?_eq_some_iff.mp h
  have hperm := (List.getElem_cons_eraseIdx_perm hi).countP_eq f
  rw [List.countP_cons] at hperm
  rw [← hperm]
  cases f l[i] <;> rfl

/-- A dispatch uses up the ticket, whether it succeeds or not. -/
theorem Budget.dispatch (h : Budget used (.up dj tokens) stamped) (io : AppendIo × AppendIo)
    (i : ℕ) (now : UInt64) (extra : List (String × String)) :
    StepKeeps used (step path (.up dj tokens) (.dispatch io i now extra)).1
      (step path (.up dj tokens) (.dispatch io i now extra)).2 := by
  have hb : Backed dj stamped := h.kept
  rcases htoken : tokens.admitted[i]? with _ | s
  · have hsame : step path (.up dj tokens) (.dispatch io i now extra) = (.quiet, .up dj tokens) := by
      simp only [step, htoken]
    rw [hsame]
    exact h.quiet List.prefix_rfl hb fun p => le_rfl
  have hspec := beginDispatchWithFacts_spec io s now extra dj
  unfold Ensures at hspec
  have hcount := fun p => countP_eraseIdx_add htoken fun s => decide (permitOf s = p)
  rcases hexec : (beginDispatchWithFacts io s now extra).exec dj with ⟨e | t, dj'⟩
  · have hstep : step path (.up dj tokens) (.dispatch io i now extra) =
        (.quiet, .up dj' { tokens with admitted := tokens.admitted.eraseIdx i }) := by
      simp only [step, htoken, hexec]
    rw [hexec] at hspec
    obtain ⟨c, facts, -, -, happends, -⟩ := hspec
    obtain ⟨stamped', hpre, hb'⟩ := hb.appends happends
    rw [hstep]
    refine h.quiet hpre hb' fun p => ?_
    have := hcount p
    simp only [tickets]
    omega
  · have hstep : step path (.up dj tokens) (.dispatch io i now extra) = (.dispatched (permitOf s),
        .up dj' ⟨tokens.admitted.eraseIdx i, t :: tokens.inFlight, tokens.completed⟩) := by
      simp only [step, htoken, hexec]
    rw [hexec] at hspec
    obtain ⟨c, facts, rfl, hlarge, happends, -⟩ := hspec
    obtain ⟨stamped', hpre, hb', hrank⟩ := hb.appends_durable happends rfl
      fun r hr =>
        ⟨names_of_carries hlarge.1 hr, three_le_advance hr.kind⟩
    rw [hstep]
    refine ⟨⟨stamped', h.shrink hpre hb' (fun p => ?_) fun p hp => ?_⟩,
      fun p _ => respects_dispatched p _⟩
    · have := hcount p
      simp only [tickets, isDispatch] at this ⊢
      omega
    · by_cases heq : permitOf s = p
      · subst heq
        exact .inr hrank
      · simp only [isDispatch, heq] at hp
        exact .inl hp

theorem Budget.appends (h : Budget used (.up dj tokens) stamped) {es : List Entry} {ok : Bool}
    (happends : Appends dj es ok dj') {tokens' : Tokens}
    (hadmitted : tokens'.admitted = tokens.admitted) : StepKeeps used .quiet (.up dj' tokens') := by
  have hb : Backed dj stamped := h.kept
  obtain ⟨stamped', hpre, hb'⟩ := hb.appends happends
  refine h.quiet hpre hb' fun p => ?_
  simp only [tickets, hadmitted]
  exact le_rfl

end

/-- **Every event keeps the budget.** -/
theorem Budget.step
    (h : Budget used world stamped) (path : String) (e : Event) :
    StepKeeps used (step path world e).1 (step path world e).2 := by
  rcases world with disk | ⟨dj, tokens⟩
  · -- only a crash and an `open` can happen to a file that is not open
    have hk : DiskKeeps disk stamped := h.kept
    rcases e with cut | fault | _ | _ | _ | _ | _ | _ | _
    · exact h.quiet List.prefix_rfl (hk.crash cut) fun p => le_rfl
    · rcases hopen : DurableJournal.openAt path fault disk with ⟨error, disk'⟩ | ⟨dj, report⟩
      · simp only [History.step, hopen]
        exact h.quiet List.prefix_rfl (hk.open_failed hopen) fun p => le_rfl
      · simp only [History.step, hopen]
        exact h.openJournal hopen
    all_goals exact h.quiet List.prefix_rfl hk fun p => le_rfl
  · have hb : Backed dj stamped := h.kept
    cases e with
    | crash cut => exact h.quiet List.prefix_rfl (hb.diskKeeps.crash cut) fun p => Nat.zero_le _
    | openJournal fault => exact h.quiet List.prefix_rfl hb fun p => le_rfl
    | append io entry =>
      obtain ⟨stamped', hpre, hb', -⟩ := hb.append (append_step dj io entry)
      exact h.quiet hpre hb' fun p => le_rfl
    | sync outcome =>
      obtain ⟨stamped', hpre, hb'⟩ := hb.sync outcome
      exact h.quiet hpre hb' fun p => le_rfl
    | admitStep io permit secret intent =>
      rcases hexec : (admitStep io permit secret intent).exec dj with ⟨error | s, dj'⟩
      · simp only [History.step, hexec]
        exact h.admission_error hexec
      · simp only [History.step, hexec]
        exact h.admission_ok hexec
    | dispatch io i now extra => exact h.dispatch io i now extra
    | evidence io i now facts =>
      rcases htoken : tokens.inFlight[i]? with _ | t
      · simp only [History.step, htoken]
        exact h.quiet List.prefix_rfl hb fun p => le_rfl
      · simp only [History.step, htoken]
        obtain ⟨_, -, happends⟩ := recordTransportEvidence_spec io t now facts dj
        exact h.appends happends rfl
    | receipt io i digest extra now =>
      rcases htoken : tokens.inFlight[i]? with _ | t
      · simp only [History.step, htoken]
        exact h.quiet List.prefix_rfl hb fun p => le_rfl
      · obtain ⟨_, -, happends, -⟩ := recordReceiptWithFacts_spec io t digest extra now dj
        rcases hexec : (recordReceiptWithFacts io t digest extra now).exec dj with ⟨error | c, dj'⟩
        · rw [hexec] at happends
          simp only [History.step, htoken, hexec]
          exact h.appends happends rfl
        · rw [hexec] at happends
          simp only [History.step, htoken, hexec]
          exact h.appends happends rfl
    | checkpoint io i now =>
      rcases htoken : tokens.completed[i]? with _ | c
      · simp only [History.step, htoken]
        exact h.quiet List.prefix_rfl hb fun p => le_rfl
      · simp only [History.step, htoken]
        exact h.appends (checkpoint_spec io c now dj) rfl

/-! ### Whole histories -/

/-- How often `p` has been dispatched. -/
def dispatches (p : String) (observations : List Observation) : ℕ :=
  observations.countP (isDispatch p)

/-- **A history keeps the budget**: induction over the events. -/
theorem Budget.run (path : String) : ∀ (events : List Event) {used : String → ℕ} {world : World}
    {stamped : List JournalRecord}, Budget used world stamped →
    (∃ stamped', Budget (fun p => used p + dispatches p (history path world events))
      (run path world events) stamped') ∧
    ∀ p, 1 ≤ used p → ∀ o ∈ history path world events, Respects p o
  | [], _, _, stamped, h => ⟨⟨stamped, h⟩, fun _ _ _ ho => absurd ho List.not_mem_nil⟩
  | e :: events, used, world, stamped, h => by
    obtain ⟨⟨stamped₁, h₁⟩, hrespects⟩ := h.step path e
    obtain ⟨⟨stamped', h'⟩, hlater⟩ := Budget.run path events h₁
    refine ⟨⟨stamped', ?_⟩, fun p hp o ho => ?_⟩
    · have hcount : (fun p => used p + dispatches p (history path world (e :: events))) =
          fun p => used p + (isDispatch p (History.step path world e).1).toNat +
            dispatches p (history path (History.step path world e).2 events) := by
        funext p
        simp only [history, dispatches, List.countP_cons]
        cases isDispatch p (History.step path world e).1
        · simp
        · simp only [Bool.toNat_true, if_true]
          omega
      rw [hcount]
      exact h'
    · rcases List.mem_cons.mp ho with rfl | ho
      · exact hrespects p hp
      · exact hlater p (Nat.le_add_right_of_le hp) o ho

theorem budget_start (disk : Disk) : Budget (fun _ => 0) (.down disk) [] where
  kept := .inl rfl
  once _ := Nat.zero_le 1
  seen _ hp := absurd hp (by simp [tickets])
  spent _ hp := absurd hp (by simp)

theorem dispatches_pos {observations : List Observation} (h : .dispatched p ∈ observations) :
    1 ≤ dispatches p observations :=
  List.countP_pos_iff.mpr ⟨_, h, by simp [isDispatch]⟩

/-- A file with a record on stable storage opens, if the operating system lets it. -/
theorem DiskKeeps.opens {disk : Disk} (h : DiskKeeps disk stamped)
    (hne : stamped ≠ []) (path : String) :
    ∃ dj report, DurableJournal.openAt path .none disk = .ok (dj, report) := by
  rcases h with rfl | ⟨bodies, tail, rs, n, hh, -⟩
  · exact absurd rfl hne
  · exact ⟨_, _, Replay.open_of_holds hh path⟩

/-- **At most one dispatch per permit, across crashes.** In every history from any file, a permit is
dispatched at most once. After it has been dispatched, the file opens at any time unless the operating
system makes it fail, every `open` that succeeds finds the permit in use or consumed, and every
admission for it is refused for that reason. -/
theorem dispatch_at_most_once (path : String) (disk : Disk) :
    (∀ events p, dispatches p (history path (.down disk) events) ≤ 1) ∧
      ∀ earlier p, .dispatched p ∈ history path (.down disk) earlier →
        (∀ later, ∀ o ∈ history path (run path (.down disk) earlier) later, Respects p o) ∧
        ∀ disk', run path (.down disk) earlier = .down disk' →
          ∃ dj report, DurableJournal.openAt path .none disk' = .ok (dj, report) := by
  refine ⟨fun events p => ?_, fun earlier p hp => ?_⟩
  · obtain ⟨⟨stamped, h⟩, -⟩ := (budget_start disk).run path events
    have honce := h.once p
    omega
  · obtain ⟨⟨stamped, h⟩, -⟩ := (budget_start disk).run path earlier
    have hused : 1 ≤ 0 + dispatches p (history path (.down disk) earlier) := by
      rw [Nat.zero_add]
      exact dispatches_pos hp
    refine ⟨fun later => (h.run path later).2 p hused, fun disk' hdown => ?_⟩
    have hkept := h.kept
    rw [hdown] at hkept
    refine DiskKeeps.opens hkept ?_ path
    rintro rfl
    exact absurd (h.spent p hused) (by simp [standing, standingFrom, PermitDisposition.rank])

end ArkForge.Engine.AtMostOnce
