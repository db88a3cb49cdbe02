import Mathlib.Data.Fintype.EquivFin
import Mathlib.Data.List.OfFn
import Mathlib.Data.List.Perm.Basic
import Mathlib.Data.List.Range

/-! # Claiming entries one after the other

Each of a list of claimants takes the first entry that is still free and that matches it. This is
greedy, so in general it may fail although every claimant could have been served. It does not if two
claimants that compete for one entry match the same entries (`Classed`): then the entry the greedy run
takes can be swapped for the one a perfect claim would have given, and the run succeeds exactly when a
perfect claim exists (`greedy_iff_perfect`). -/

namespace ArkForge.Lib.Matching

variable {σ ε : Type}

variable {claimed claimed' : List Bool} {js : List ℕ}

def firstFree (claimed : List Bool) (entries : List ε) (p : ε → Bool) : Option ℕ :=
  (claimed.zip entries).findIdx? fun c => !c.1 && p c.2

/-- The entries the claimants take, and which entries are claimed in the end. -/
def greedy (m : σ → ε → Bool) (entries : List ε) : List Bool → List σ → Option (List ℕ × List Bool)
  | claimed, [] => some ([], claimed)
  | claimed, s :: ss =>
    match firstFree claimed entries (m s) with
    | none => none
    | some i => (greedy m entries (claimed.set i true) ss).map fun r => (i :: r.1, r.2)

/-- The entry at `j` matches `s`. -/
def Fits (m : σ → ε → Bool) (entries : List ε) (s : σ) (j : ℕ) : Prop :=
  ∃ e, entries[j]? = some e ∧ m s e = true

/-- The entries that are free. -/
def free (claimed : List Bool) : List ℕ :=
  (List.range claimed.length).filter fun i => claimed[i]? = some false

variable {i : ℕ}

theorem mem_free : i ∈ free claimed ↔ claimed[i]? = some false := by
  unfold free
  rw [List.mem_filter, List.mem_range, decide_eq_true_eq]
  constructor
  · exact fun h => h.2
  · intro h
    exact ⟨(List.getElem?_eq_some_iff.mp h).1, h⟩

theorem nodup_free (claimed : List Bool) : (free claimed).Nodup := List.nodup_range.filter _

theorem free_replicate (n : ℕ) : free (List.replicate n false) = List.range n := by
  unfold free
  rw [List.length_replicate, List.filter_eq_self]
  intro i hi
  simp [List.mem_range.mp hi]

theorem free_eq_nil : free claimed = [] ↔ claimed.findIdx? (!·) = none := by
  rw [List.eq_nil_iff_forall_not_mem, List.findIdx?_eq_none_iff]
  constructor
  · intro h b hb
    obtain ⟨i, hi⟩ := List.mem_iff_getElem?.mp hb
    have hnot := h i
    rw [mem_free, hi] at hnot
    simpa using hnot
  · intro h i hi
    have hmem := List.mem_of_getElem? (mem_free.mp hi)
    have hb := h false hmem
    simp at hb

/-- Claiming a free entry. -/
theorem free_set (h : i ∈ free claimed) :
    (free claimed).Perm (i :: free (claimed.set i true)) := by
  have hi : i < claimed.length := (List.getElem?_eq_some_iff.mp (mem_free.mp h)).1
  have hnot : i ∉ free (claimed.set i true) := by
    rw [mem_free]
    simp [hi]
  rw [List.perm_ext_iff_of_nodup (nodup_free _) (List.nodup_cons.mpr ⟨hnot, nodup_free _⟩)]
  intro x
  rw [List.mem_cons, mem_free, mem_free]
  by_cases hx : i = x
  · subst hx
    rw [mem_free.mp h]
    simp
  · have hne : x ≠ i := fun heq => hx heq.symm
    simp [hx, hne]

theorem firstFree_eq_some {entries : List ε} {p : ε → Bool}
    (h : firstFree claimed entries p = some i) :
    i ∈ free claimed ∧ ∃ e, entries[i]? = some e ∧ p e = true := by
  obtain ⟨hi, hp, -⟩ := List.findIdx?_eq_some_iff_getElem.mp h
  have hlen : i < claimed.length ∧ i < entries.length := by
    rw [List.length_zip] at hi
    omega
  rw [List.getElem_zip, Bool.and_eq_true, Bool.not_eq_true'] at hp
  have hfree : claimed[i] = false := hp.1
  refine ⟨mem_free.mpr ?_, entries[i], List.getElem?_eq_getElem hlen.2, hp.2⟩
  rw [List.getElem?_eq_getElem hlen.1, hfree]

variable {j : ℕ}

/-- There is a first free match if there is a free match. -/
theorem exists_firstFree {entries : List ε} {p : ε → Bool} {e : ε} (hj : j ∈ free claimed)
    (he : entries[j]? = some e) (hp : p e = true) : ∃ i, firstFree claimed entries p = some i := by
  obtain ⟨hlc, hc⟩ := List.getElem?_eq_some_iff.mp (mem_free.mp hj)
  obtain ⟨hle, hv⟩ := List.getElem?_eq_some_iff.mp he
  have hmem : (false, e) ∈ claimed.zip entries := by
    have hl : j < (claimed.zip entries).length := by
      rw [List.length_zip]
      omega
    have hget : (claimed.zip entries)[j] = (false, e) := by rw [List.getElem_zip, hc, hv]
    exact hget ▸ List.getElem_mem hl
  unfold firstFree
  rw [← Option.isSome_iff_exists, List.findIdx?_isSome, List.any_eq_true]
  exact ⟨_, hmem, by simpa using hp⟩

/-! ### The greedy run -/

variable {m : σ → ε → Bool} {entries : List ε} {ss : List σ}

theorem greedy_cons {s : σ} {is : List ℕ} :
    greedy m entries claimed (s :: ss) = some (is, claimed') ↔
      ∃ i js, is = i :: js ∧ firstFree claimed entries (m s) = some i ∧
        greedy m entries (claimed.set i true) ss = some (js, claimed') := by
  have hdef : greedy m entries claimed (s :: ss) =
      match firstFree claimed entries (m s) with
      | none => none
      | some i => (greedy m entries (claimed.set i true) ss).map fun r => (i :: r.1, r.2) := rfl
  rw [hdef]
  rcases firstFree claimed entries (m s) with _ | i
  · simp
  · simp only [Option.map_eq_some_iff, Prod.exists, Prod.mk.injEq]
    constructor
    · rintro ⟨js, c, hrest, rfl, rfl⟩
      exact ⟨i, js, rfl, rfl, hrest⟩
    · rintro ⟨i', js, rfl, hi, hrest⟩
      obtain rfl : i = i' := Option.some.inj hi
      exact ⟨js, claimed', hrest, rfl, rfl⟩

theorem exists_greedy_cons {s : σ} : (∃ is, greedy m entries claimed (s :: ss) = some (is, claimed')) ↔
    ∃ i, firstFree claimed entries (m s) = some i ∧
      ∃ js, greedy m entries (claimed.set i true) ss = some (js, claimed') := by
  simp only [greedy_cons]
  grind

/-- **What the run takes is free, matches, and is taken once.** -/
theorem greedy_sound : ∀ {ss : List σ} {claimed claimed' : List Bool} {is : List ℕ},
    greedy m entries claimed ss = some (is, claimed') →
    List.Forall₂ (Fits m entries) ss is ∧ (free claimed).Perm (is ++ free claimed')
  | [], claimed, claimed', is, h => by
    obtain ⟨rfl, rfl⟩ : [] = is ∧ claimed = claimed' := by simpa [greedy] using h
    exact ⟨.nil, .refl _⟩
  | s :: ss, claimed, claimed', is, h => by
    obtain ⟨i, js, rfl, hfirst, hrest⟩ := greedy_cons.mp h
    obtain ⟨hfree, hfits⟩ := firstFree_eq_some hfirst
    obtain ⟨hall, hperm⟩ := greedy_sound hrest
    exact ⟨.cons hfits hall, (free_set hfree).trans (hperm.cons i)⟩

/-- Claimants that compete for one entry match the same entries. -/
def Classed (m : σ → ε → Bool) (entries : List ε) (ss : List σ) : Prop :=
  ∀ s ∈ ss, ∀ s' ∈ ss, ∀ e ∈ entries, m s e = true → m s' e = true →
    ∀ e' ∈ entries, m s e' = true → m s' e' = true

/-- The entry `j` in place of `i`. -/
def swap (i j x : ℕ) : ℕ := if x = i then j else x

/-- Giving the claimant of `i` the entry `j` instead. -/
theorem forall₂_swap (h : List.Forall₂ (Fits m entries) ss js)
    (hswap : ∀ s ∈ ss, Fits m entries s i → Fits m entries s j) :
    List.Forall₂ (Fits m entries) ss (js.map (swap i j)) := by
  induction h with
  | nil => exact .nil
  | @cons s x ss js hs _ ih =>
    refine .cons ?_ (ih fun t ht => hswap t (List.mem_cons_of_mem _ ht))
    unfold swap
    by_cases hx : x = i
    · rw [if_pos hx]
      exact hswap s List.mem_cons_self (hx ▸ hs)
    · rw [if_neg hx]
      exact hs

theorem map_swap_of_notMem (h : i ∉ js) : js.map (swap i j) = js := by
  have hid : ∀ x ∈ js, swap i j x = id x := by
    intro x hx
    have hne : x ≠ i := fun heq => h (heq ▸ hx)
    simp [swap, hne]
  rw [List.map_congr_left hid, List.map_id]

/-- The entries left for the others, after the swap. -/
theorem perm_swap {rest : List ℕ} (hnd : (j :: js).Nodup)
    (hperm : (j :: js).Perm (i :: rest)) : (js.map (swap i j)).Perm rest := by
  obtain ⟨hj, hjs⟩ := List.nodup_cons.mp hnd
  by_cases hij : j = i
  · subst hij
    rw [map_swap_of_notMem hj]
    exact (List.perm_cons j).mp hperm
  · have hi : i ∈ js := by
      rcases List.mem_cons.mp (hperm.symm.subset List.mem_cons_self) with heq | hmem
      · exact absurd heq.symm hij
      · exact hmem
    have hsplit : js.Perm (i :: js.erase i) := List.perm_cons_erase hi
    have hmap : (js.map (swap i j)).Perm (j :: js.erase i) := by
      have h := hsplit.map (swap i j)
      rw [List.map_cons, map_swap_of_notMem hjs.not_mem_erase] at h
      simpa [swap] using h
    have hrest : (i :: j :: js.erase i).Perm (i :: rest) :=
      (List.Perm.swap j i _).trans ((hsplit.symm.cons j).trans hperm)
    exact hmap.trans ((List.perm_cons i).mp hrest)

/-- **If everyone can be served, the greedy run serves everyone.** -/
theorem greedy_complete : ∀ {ss : List σ} {claimed : List Bool} {js : List ℕ},
    Classed m entries ss → List.Forall₂ (Fits m entries) ss js → js.Perm (free claimed) →
    ∃ is claimed', greedy m entries claimed ss = some (is, claimed') ∧ free claimed' = []
  | [], claimed, js, _, hall, hperm => by
    obtain _ | _ := hall
    exact ⟨[], claimed, rfl, List.nil_perm.mp hperm⟩
  | s :: ss, claimed, js, hclass, hall, hperm => by
    obtain _ | @⟨_, j, _, js, hs, hall⟩ := hall
    have hj : j ∈ free claimed := hperm.subset List.mem_cons_self
    obtain ⟨e, he, hm⟩ := hs
    obtain ⟨i, hi⟩ := exists_firstFree hj he hm
    obtain ⟨hifree, f, hf, hmf⟩ := firstFree_eq_some hi
    -- whoever could have had `i` competes with `s` for it, so it can have `j`
    have hswap : ∀ t ∈ ss, Fits m entries t i → Fits m entries t j := by
      rintro t ht ⟨f', hf', hmt⟩
      obtain rfl : f = f' := Option.some.inj (hf.symm.trans hf')
      exact ⟨e, he, hclass s List.mem_cons_self t (List.mem_cons_of_mem _ ht) f
        (List.mem_of_getElem? hf) hmf hmt e (List.mem_of_getElem? he) hm⟩
    have hrest := perm_swap (hperm.nodup_iff.mpr (nodup_free _)) (hperm.trans (free_set hifree))
    have hclass' : Classed m entries ss := fun t ht t' ht' =>
      hclass t (List.mem_cons_of_mem _ ht) t' (List.mem_cons_of_mem _ ht')
    obtain ⟨is, claimed', hgreedy, hnone⟩ :=
      greedy_complete hclass' (forall₂_swap hall hswap) hrest
    exact ⟨i :: is, claimed', greedy_cons.mpr ⟨i, is, rfl, hi, hgreedy⟩, hnone⟩

/-- A perfect claim: a bijection from the claimants to the entries that respects `R`. -/
def Perfect (R : σ → ε → Prop) (entries : List ε) (ss : List σ) : Prop :=
  ∃ f : Fin ss.length ≃ Fin entries.length, ∀ i, R (ss.get i) (entries.get (f i))

theorem perfect_map {τ : Type} {R : σ → ε → Prop} {R' : τ → ε → Prop} {g : τ → σ} {ts : List τ}
    (h : ∀ t ∈ ts, ∀ e, R (g t) e ↔ R' t e) :
    Perfect R entries (ts.map g) ↔ Perfect R' entries ts := by
  have hlen : (ts.map g).length = ts.length := List.length_map g
  have hget : ∀ i : Fin ts.length, (ts.map g).get (i.cast hlen.symm) = g (ts.get i) := by simp
  constructor
  · rintro ⟨f, hf⟩
    refine ⟨(finCongr hlen.symm).trans f, fun i => ?_⟩
    have hi := hf (i.cast hlen.symm)
    rw [hget] at hi
    exact (h _ (List.get_mem ts i) _).mp hi
  · rintro ⟨f, hf⟩
    refine ⟨(finCongr hlen).trans f, fun i => ?_⟩
    have hi := (h _ (List.get_mem ts (i.cast hlen)) _).mpr (hf (i.cast hlen))
    rw [← hget] at hi
    exact hi

/-- Claimants and entries that agree one by one. -/
theorem perfect_of_pointwise {R : σ → ε → Prop} (h : List.Forall₂ R ss entries) :
    Perfect R entries ss :=
  ⟨finCongr h.length_eq, fun i => (List.forall₂_iff_get.mp h).2 i i.2 (h.length_eq ▸ i.2)⟩

theorem perfect_of_forall₂ (hall : List.Forall₂ (Fits m entries) ss js)
    (hperm : js.Perm (List.range entries.length)) :
    Perfect (fun s e => m s e = true) entries ss := by
  have hnd : js.Nodup := hperm.nodup_iff.mpr List.nodup_range
  have hss : ss.length = js.length := hall.length_eq
  have hjs : js.length = entries.length := by simpa using hperm.length_eq
  have hlt : ∀ i : Fin ss.length, js.get (i.cast hss) < entries.length := fun i =>
    List.mem_range.mp (hperm.subset (List.get_mem js _))
  let f : Fin ss.length → Fin entries.length := fun i => ⟨js.get (i.cast hss), hlt i⟩
  have hinj : Function.Injective f := by
    intro a b hab
    have heq : js.get (a.cast hss) = js.get (b.cast hss) := congrArg Fin.val hab
    have hcast := List.nodup_iff_injective_get.mp hnd heq
    exact Fin.cast_injective hss hcast
  have hbij : Function.Bijective f :=
    (Fintype.bijective_iff_injective_and_card f).mpr ⟨hinj, by simp [hss, hjs]⟩
  refine ⟨Equiv.ofBijective f hbij, fun i => ?_⟩
  obtain ⟨e, he, hm⟩ := (List.forall₂_iff_get.mp hall).2 i i.2 (hss ▸ i.2)
  have hget : entries.get (f i) = e := (List.getElem?_eq_some_iff.mp he).2
  show m (ss.get i) (entries.get (f i)) = true
  rw [hget]
  exact hm

theorem forall₂_of_perfect (h : Perfect (fun s e => m s e = true) entries ss) :
    ∃ js, List.Forall₂ (Fits m entries) ss js ∧ js.Perm (List.range entries.length) := by
  obtain ⟨f, hf⟩ := h
  have hnd : (List.ofFn fun i => (f i).val).Nodup :=
    List.nodup_ofFn.mpr fun a b hab => f.injective (Fin.val_injective hab)
  refine ⟨List.ofFn fun i => (f i).val, List.forall₂_iff_get.mpr ⟨by simp, fun i hi hi' => ?_⟩, ?_⟩
  · refine ⟨entries.get (f ⟨i, hi⟩), ?_, hf ⟨i, hi⟩⟩
    simp
  · rw [List.perm_ext_iff_of_nodup hnd List.nodup_range]
    intro x
    rw [List.mem_ofFn, List.mem_range]
    constructor
    · rintro ⟨i, rfl⟩
      exact (f i).2
    · intro hx
      exact ⟨f.symm ⟨x, hx⟩, by simp⟩

/-- **The greedy run claims everything exactly when a perfect claim exists.** -/
theorem greedy_iff_perfect (hclass : Classed m entries ss) :
    (∃ is claimed', greedy m entries (List.replicate entries.length false) ss = some (is, claimed') ∧
      free claimed' = []) ↔ Perfect (fun s e => m s e = true) entries ss := by
  constructor
  · rintro ⟨is, claimed', hgreedy, hnone⟩
    obtain ⟨hall, hperm⟩ := greedy_sound hgreedy
    rw [free_replicate, hnone, List.append_nil] at hperm
    exact perfect_of_forall₂ hall hperm.symm
  · intro h
    obtain ⟨js, hall, hperm⟩ := forall₂_of_perfect h
    exact greedy_complete hclass hall (by rwa [free_replicate])

/-! ### The order of the entries -/

/-- How many free entries satisfy `p`. -/
def choices (claimed : List Bool) (entries : List ε) (p : ε → Bool) : ℕ :=
  (claimed.zip entries).countP fun c => !c.1 && p c.2

theorem exists_firstFree_iff {p : ε → Bool} :
    (∃ i, firstFree claimed entries p = some i) ↔ 0 < choices claimed entries p := by
  unfold firstFree choices
  rw [← Option.isSome_iff_exists, List.findIdx?_isSome, List.any_eq_true, List.countP_pos_iff]

theorem choices_replicate (p : ε → Bool) :
    choices (List.replicate entries.length false) entries p = entries.countP p := by
  unfold choices
  induction entries with
  | nil => rfl
  | cons e l ih => simpa [List.replicate_succ, List.countP_cons] using ih

theorem zip_set {e : ε} (he : entries[i]? = some e) (b : Bool) :
    (claimed.set i b).zip entries = (claimed.zip entries).set i (b, e) := by
  obtain ⟨hi, hv⟩ := List.getElem?_eq_some_iff.mp he
  refine List.ext_getElem (by simp) fun k hk hk' => ?_
  by_cases hik : i = k
  · subst hik
    simp [hv]
  · simp [hik]

/-- Claiming `e` leaves one choice less to those it satisfies. -/
theorem choices_set {e : ε} (hfree : i ∈ free claimed) (he : entries[i]? = some e)
    (p : ε → Bool) : choices claimed entries p =
      choices (claimed.set i true) entries p + if p e = true then 1 else 0 := by
  obtain ⟨hlc, hc⟩ := List.getElem?_eq_some_iff.mp (mem_free.mp hfree)
  obtain ⟨hle, hv⟩ := List.getElem?_eq_some_iff.mp he
  have hl : i < (claimed.zip entries).length := by
    rw [List.length_zip]
    omega
  have hget : (claimed.zip entries)[i] = (false, e) := by rw [List.getElem_zip, hc, hv]
  have hle := List.boole_getElem_le_countP (p := fun c : Bool × ε => !c.1 && p c.2) hl
  unfold choices
  rw [zip_set he, List.countP_set hl]
  rw [hget] at hle ⊢
  simp only [Bool.not_false, Bool.true_and, Bool.not_true, Bool.false_and] at hle ⊢
  simp only [Bool.false_eq_true, if_false]
  omega

/-- Two runs over the same entries in different orders have come equally far. -/
structure Alike (m : σ → ε → Bool) (ss : List σ) (entries entries' : List ε)
    (claimed claimed' : List Bool) : Prop where
  choices : ∀ s ∈ ss, choices claimed entries (m s) = choices claimed' entries' (m s)
  left : (free claimed).length = (free claimed').length

variable {entries' : List ε}

theorem Alike.initial (hperm : entries.Perm entries') (ss : List σ) :
    Alike m ss entries entries' (List.replicate entries.length false)
      (List.replicate entries'.length false) where
  choices s _ := by rw [choices_replicate, choices_replicate, hperm.countP_eq]
  left := by rw [free_replicate, free_replicate, hperm.length_eq]

/-- **A claim succeeds in both runs or in neither**, and leaves them equally far. -/
theorem Alike.claim {s : σ}
    (h : Alike m ss entries entries' claimed claimed') (hclass : Classed m entries ss)
    (hperm : entries.Perm entries') (hs : s ∈ ss) (hi : firstFree claimed entries (m s) = some i) :
    ∃ i', firstFree claimed' entries' (m s) = some i' ∧
      Alike m ss entries entries' (claimed.set i true) (claimed'.set i' true) := by
  have hpos : 0 < Matching.choices claimed' entries' (m s) := by
    rw [← h.choices s hs]
    exact exists_firstFree_iff.mp ⟨i, hi⟩
  obtain ⟨i', hi'⟩ := exists_firstFree_iff.mpr hpos
  obtain ⟨hfree, e, he, hm⟩ := firstFree_eq_some hi
  obtain ⟨hfree', e', he', hm'⟩ := firstFree_eq_some hi'
  have hmem : e ∈ entries := List.mem_of_getElem? he
  have hmem' : e' ∈ entries := hperm.symm.subset (List.mem_of_getElem? he')
  refine ⟨i', hi', ⟨fun t ht => ?_, ?_⟩⟩
  · -- whoever matches one of the two entries competes with `s` for it, and so matches the other
    have hsame : m t e = m t e' := by
      rw [Bool.eq_iff_iff]
      exact ⟨fun h => hclass s hs t ht e hmem hm h e' hmem' hm',
        fun h => hclass s hs t ht e' hmem' hm' h e hmem hm⟩
    have hcount := h.choices t ht
    rw [choices_set hfree he, choices_set hfree' he', hsame] at hcount
    exact Nat.add_right_cancel hcount
  · have hcount := h.left
    rw [(free_set hfree).length_eq, (free_set hfree').length_eq] at hcount
    exact Nat.succ.inj hcount

theorem Alike.none {s : σ} (h : Alike m ss entries entries' claimed claimed')
    (hs : s ∈ ss) (hnone : firstFree claimed entries (m s) = none) :
    firstFree claimed' entries' (m s) = none := by
  by_contra hne
  obtain ⟨i', hi'⟩ := Option.ne_none_iff_exists'.mp hne
  have hpos := exists_firstFree_iff.mp ⟨i', hi'⟩
  rw [← h.choices s hs] at hpos
  obtain ⟨i, hi⟩ := exists_firstFree_iff.mpr hpos
  rw [hnone] at hi
  contradiction

end ArkForge.Lib.Matching
