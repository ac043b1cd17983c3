import Mathlib.Data.Nat.Nth

/-!
Names that are given out one after the other.

A name is asked for as it is, or as the first candidate of a sequence that is neither reserved nor
given out yet. A name that is asked for as it is is not checked. So which candidates are given out
can be read off the asks: as many of the free ones of a sequence, from the front, as it was asked
for, until a name is asked for as it is that was given out before.
-/

namespace Naming

variable {N W : Type}

/-- What is asked for: a name as it is, or the first free candidate of a sequence. -/
inductive Ask (N W : Type) where
  | fixed (name : N)
  | search (start : W)
  deriving DecidableEq

variable [DecidableEq N] [DecidableEq W] (candidate : W → ℕ → N) (reserved : List N)

/-- A candidate is neither reserved nor asked for as it is. -/
def Free (asks : List (Ask N W)) (w : W) (m : ℕ) : Prop :=
  candidate w m ∉ reserved ∧ .fixed (candidate w m) ∉ asks

instance (asks : List (Ask N W)) (w : W) : DecidablePred (Free candidate reserved asks w) :=
  fun _ => inferInstanceAs (Decidable (_ ∧ _))

/-- How often a sequence is asked for. -/
def searches (asks : List (Ask N W)) (w : W) : ℕ := asks.count (.search w)

/-- A candidate is given out: of the free ones before it there are fewer than searches. -/
def Taken (asks : List (Ask N W)) (w : W) (m : ℕ) : Prop :=
  Free candidate reserved asks w m ∧
    Nat.count (Free candidate reserved asks w) m < searches asks w

instance (asks : List (Ask N W)) (w : W) : DecidablePred (Taken candidate reserved asks w) :=
  fun _ => inferInstanceAs (Decidable (_ ∧ _))

variable {candidate reserved} {asks : List (Ask N W)} {w : W} {bound : ℕ}

lemma not_taken_nil (m : ℕ) : ¬Taken candidate reserved [] w m := fun h => by
  have hlt := h.2
  simp [searches] at hlt

/-- Of one more candidate than there are names in use, a first one is not in use. -/
lemma exists_first_unused {candidate : ℕ → N} (inUse : Finset N)
    (hinj : ∀ m ≤ inUse.card, ∀ n ≤ inUse.card, candidate m = candidate n → m = n) :
    ∃ m ≤ inUse.card, candidate m ∉ inUse ∧ ∀ k < m, candidate k ∈ inUse := by
  have hsome : ∃ m, m ≤ inUse.card ∧ candidate m ∉ inUse := by
    by_contra hall
    push Not at hall
    have hcard : (Finset.range (inUse.card + 1)).card ≤ inUse.card := by
      refine Finset.card_le_card_of_injOn candidate (fun m hm => ?_) fun m hm n hn he => ?_
      · exact hall m (Nat.lt_succ_iff.mp (Finset.mem_range.mp hm))
      · have hm := Nat.lt_succ_iff.mp (Finset.mem_range.mp hm)
        have hn := Nat.lt_succ_iff.mp (Finset.mem_range.mp hn)
        exact hinj m hm n hn he
    rw [Finset.card_range] at hcard
    omega
  obtain ⟨hle, hnew⟩ := Nat.find_spec hsome
  refine ⟨Nat.find hsome, hle, hnew, fun k hk => ?_⟩
  by_contra hfree
  exact Nat.find_min hsome hk ⟨by omega, hfree⟩

/-- The free candidate that a search finds is given out, and no other one. -/
lemma taken_search {m : ℕ} (hfree : Free candidate reserved asks w m)
    (hm : Nat.count (Free candidate reserved asks w) m = searches asks w) {v : W} {j : ℕ} :
    Taken candidate reserved (asks ++ [.search w]) v j ↔
      Taken candidate reserved asks v j ∨ v = w ∧ j = m := by
  have hsame : Free candidate reserved (asks ++ [.search w]) = Free candidate reserved asks := by
    funext u k
    simp [Free]
  unfold Taken
  simp only [hsame]
  by_cases hv : v = w
  · -- the search uses up one candidate of its own sequence
    subst hv
    have hcount : searches (asks ++ [.search v]) v = searches asks v + 1 := by simp [searches]
    rw [hcount, Nat.lt_succ_iff_lt_or_eq, ← hm]
    constructor
    · rintro ⟨hj, hlt | heq⟩
      · exact .inl ⟨hj, hlt⟩
      · exact .inr ⟨rfl, Nat.count_injective hj hfree heq⟩
    · rintro (⟨hj, hlt⟩ | ⟨-, rfl⟩)
      · exact ⟨hj, .inl hlt⟩
      · exact ⟨hfree, .inr rfl⟩
  · have hcount : searches (asks ++ [.search w]) v = searches asks v := by
      simp [searches, List.count_append, Ne.symm hv]
    simp [hcount, hv]

lemma taken_fixed {x : N} (hinj : ∀ m < bound, ∀ n < bound, candidate w m = candidate w n → m = n)
    (hx : ∀ m < bound, candidate w m = x → ¬Taken candidate reserved asks w m) {j : ℕ}
    (hj : j < bound) :
    Taken candidate reserved (asks ++ [.fixed x]) w j ↔ Taken candidate reserved asks w j := by
  have hfree (k : ℕ) : Free candidate reserved (asks ++ [.fixed x]) w k ↔
      Free candidate reserved asks w k ∧ candidate w k ≠ x := by
    simp [Free, and_assoc]
  have hsearches : searches (asks ++ [.fixed x]) w = searches asks w := by
    simp [searches, List.count_append]
  have hcongr {n : ℕ} (h : ∀ k < n, Free candidate reserved asks w k → candidate w k ≠ x) :
      Nat.count (Free candidate reserved (asks ++ [.fixed x]) w) n =
        Nat.count (Free candidate reserved asks w) n :=
    le_antisymm (Nat.count_mono_left fun k _ hk => ((hfree k).mp hk).1)
      (Nat.count_mono_left fun k hk hf => (hfree k).mpr ⟨hf, h k hk hf⟩)
  unfold Taken
  rw [hsearches, hfree]
  by_cases hm : ∃ m < bound, Free candidate reserved asks w m ∧ candidate w m = x
  · obtain ⟨m, hmb, hmf, hmx⟩ := hm
    have hge : searches asks w ≤ Nat.count (Free candidate reserved asks w) m := by
      by_contra hlt
      exact hx m hmb hmx ⟨hmf, by omega⟩
    have hother {k : ℕ} (hk : k < bound) (hkm : k ≠ m) : candidate w k ≠ x := fun he =>
      hkm (hinj k hk m hmb (he.trans hmx.symm))
    rcases Nat.lt_trichotomy j m with hlt | rfl | hgt
    · rw [hcongr fun k hk _ => hother (by omega) (by omega)]
      simp [hother hj hlt.ne]
    · refine iff_of_false (fun h => h.1.2 hmx) fun h => ?_
      omega
    · -- the candidates after the name are not given out
      have hpast : Nat.count (Free candidate reserved (asks ++ [.fixed x]) w) m =
          Nat.count (Free candidate reserved asks w) m :=
        hcongr fun k hk _ => hother (by omega) (by omega)
      have h1 := Nat.count_monotone (Free candidate reserved asks w) hgt.le
      have h2 := Nat.count_monotone (Free candidate reserved (asks ++ [.fixed x]) w) hgt.le
      exact iff_of_false (fun h => by omega) fun h => by omega
  · have hno {k : ℕ} (hk : k < bound) (hf : Free candidate reserved asks w k) :
        candidate w k ≠ x := fun he => hm ⟨k, hk, hf, he⟩
    rw [hcongr fun k hk hf => hno (by omega) hf]
    exact and_congr_left fun _ => and_iff_left_of_imp (hno hj)

def Ask.fixedName : Ask N W → Option N
  | .fixed x => some x
  | .search _ => none

def fixedNames (asks : List (Ask N W)) : List N := asks.filterMap Ask.fixedName

omit [DecidableEq N] [DecidableEq W] in
lemma mem_fixedNames {x : N} : x ∈ fixedNames asks ↔ .fixed x ∈ asks := by
  unfold fixedNames
  rw [List.mem_filterMap]
  constructor
  · rintro ⟨ask, hask, hx⟩
    cases ask with
    | fixed y => exact Option.some.inj hx ▸ hask
    | search v => cases hx
  · exact fun h => ⟨_, h, rfl⟩

lemma length_fixedNames (asks : List (Ask N W)) (w : W) :
    (fixedNames asks).length + searches asks w ≤ asks.length := by
  induction asks with
  | nil => simp [fixedNames, searches]
  | cons ask asks ih =>
    unfold fixedNames searches at ih ⊢
    cases ask with
    | fixed x =>
      rw [List.filterMap_cons_some (f := Ask.fixedName) rfl, List.count_cons_of_ne (by simp)]
      simp only [List.length_cons]
      omega
    | search v =>
      rw [List.filterMap_cons_none (f := Ask.fixedName) rfl, List.count_cons]
      simp only [List.length_cons]
      split_ifs <;> omega

/-- Of more candidates than names are reserved or asked for, one is left for the next search. -/
lemma exists_next (hinj : ∀ m < bound, ∀ n < bound, candidate w m = candidate w n → m = n)
    (hbound : reserved.length + asks.length < bound) :
    ∃ m < bound, Free candidate reserved asks w m ∧
      Nat.count (Free candidate reserved asks w) m = searches asks w := by
  have hlost : (Finset.range bound).card ≤
      Nat.count (Free candidate reserved asks w) bound +
        (reserved ++ fixedNames asks).toFinset.card := by
    rw [Nat.count_eq_card_filter_range,
      ← Finset.card_filter_add_card_filter_not (Free candidate reserved asks w)]
    refine Nat.add_le_add_left ?_ _
    refine Finset.card_le_card_of_injOn (candidate w) (fun m hm => ?_) fun m hm n hn he => ?_
    · have hnot := (Finset.mem_filter.mp hm).2
      rw [Free, not_and_or, not_not, not_not] at hnot
      simpa [mem_fixedNames] using hnot
    · have hm := Finset.mem_range.mp (Finset.mem_filter.mp hm).1
      have hn := Finset.mem_range.mp (Finset.mem_filter.mp hn).1
      exact hinj m hm n hn he
  have hcard := List.toFinset_card_le (reserved ++ fixedNames asks)
  have hlength := length_fixedNames asks w
  rw [List.length_append] at hcard
  rw [Finset.card_range] at hlost
  have hlt : searches asks w < Nat.count (Free candidate reserved asks w) bound := by omega
  have hmany : ∀ hf : (Set.ofPred (Free candidate reserved asks w)).Finite,
      searches asks w < hf.toFinset.card := fun hf => hlt.trans_le (Nat.count_le_card hf bound)
  exact ⟨_, Nat.nth_lt_of_lt_count hlt, Nat.nth_mem _ hmany, Nat.count_nth hmany⟩

/-! ### Names that are given out -/

/-- The candidates of some sequences are apart, up to a bound. -/
def Apart (candidate : W → ℕ → N) (starts : W → Prop) (bound : ℕ) : Prop :=
  ∀ v w, starts v → starts w → ∀ m < bound, ∀ n < bound,
    candidate v m = candidate w n → v = w ∧ m = n

/-- A name is given out, as it is or as a candidate. -/
def Given (candidate : W → ℕ → N) (reserved : List N) (bound : ℕ) (asks : List (Ask N W)) (x : N) :
    Prop :=
  .fixed x ∈ asks ∨ ∃ w, ∃ m < bound, Taken candidate reserved asks w m ∧ candidate w m = x

lemma Taken.mem {m : ℕ} (h : Taken candidate reserved asks w m) : .search w ∈ asks := by
  have hlt := h.2
  exact List.count_pos_iff.mp (show 0 < searches asks w by omega)

lemma given_search {m : ℕ} (hmb : m < bound) (hfree : Free candidate reserved asks w m)
    (hm : Nat.count (Free candidate reserved asks w) m = searches asks w) {x : N} :
    Given candidate reserved bound (asks ++ [.search w]) x ↔
      Given candidate reserved bound asks x ∨ x = candidate w m := by
  simp only [Given, taken_search hfree hm, List.mem_append, List.mem_singleton, reduceCtorEq,
    or_false, or_assoc]
  refine or_congr_right ?_
  constructor
  · rintro ⟨v, j, hj, ht | ⟨rfl, rfl⟩, rfl⟩
    · exact .inl ⟨v, j, hj, ht, rfl⟩
    · exact .inr rfl
  · rintro (⟨v, j, hj, ht, rfl⟩ | rfl)
    · exact ⟨v, j, hj, .inl ht, rfl⟩
    · exact ⟨w, m, hmb, .inr ⟨rfl, rfl⟩, rfl⟩

/-- A name is not a candidate that was given out. -/
def Untaken (candidate : W → ℕ → N) (reserved : List N) (bound : ℕ) (asks : List (Ask N W))
    (x : N) : Prop :=
  ∀ w, ∀ m < bound, candidate w m = x → ¬Taken candidate reserved asks w m

section Apart

variable {starts : W → Prop} (hapart : Apart candidate starts bound)
  (hasks : ∀ w, .search w ∈ asks → starts w)
include hapart hasks

lemma taken_untaken {x : N} (hx : Untaken candidate reserved bound asks x) {v : W} {j : ℕ}
    (hj : j < bound) :
    Taken candidate reserved (asks ++ [.fixed x]) v j ↔ Taken candidate reserved asks v j := by
  by_cases hv : starts v
  · exact taken_fixed (fun m hm n hn he => (hapart v v hv hv m hm n hn he).2) (hx v) hj
  · refine iff_of_false (fun h => hv (hasks v ?_)) fun h => hv (hasks v h.mem)
    simpa using h.mem

lemma given_fixed {x : N} (hx : Untaken candidate reserved bound asks x) {y : N} :
    Given candidate reserved bound (asks ++ [.fixed x]) y ↔
      Given candidate reserved bound asks y ∨ y = x := by
  have htaken : (∃ w, ∃ m < bound,
      Taken candidate reserved (asks ++ [.fixed x]) w m ∧ candidate w m = y) ↔
        ∃ w, ∃ m < bound, Taken candidate reserved asks w m ∧ candidate w m = y :=
    exists_congr fun v => exists_congr fun j => and_congr_right fun hj =>
      and_congr_left fun _ => taken_untaken hapart hasks hx hj
  simp only [Given, htaken, List.mem_append, List.mem_singleton, Ask.fixed.injEq]
  exact or_right_comm

end Apart

variable {C : Type}

/-- The asks of owners without the owners. -/
abbrev asksOf (entries : List (Ask N W × C)) : List (Ask N W) := entries.map Prod.fst

/-- No name is asked for as it is by two owners, or after it was given out as a candidate. -/
def Clear (candidate : W → ℕ → N) (reserved : List N) (bound : ℕ) (entries : List (Ask N W × C)) :
    Prop :=
  ∀ before x c after, entries = before ++ (.fixed x, c) :: after →
    (∀ c', (.fixed x, c') ∈ before → c' = c) ∧
      Untaken candidate reserved bound (asksOf before) x

variable {entries : List (Ask N W × C)}

lemma clear_nil : Clear candidate reserved bound ([] : List (Ask N W × C)) := by
  intro before x c after h
  simp at h

lemma Clear.of_append {rest : List (Ask N W × C)}
    (h : Clear candidate reserved bound (entries ++ rest)) :
    Clear candidate reserved bound entries := fun before x c after heq =>
  h before x c (after ++ rest) (by rw [heq, List.append_assoc]; rfl)

lemma clear_concat {entry : Ask N W × C} :
    Clear candidate reserved bound (entries ++ [entry]) ↔
      Clear candidate reserved bound entries ∧ ∀ x, entry.1 = .fixed x →
        (∀ c', (.fixed x, c') ∈ entries → c' = entry.2) ∧
          Untaken candidate reserved bound (asksOf entries) x := by
  constructor
  · intro h
    refine ⟨h.of_append, fun x hx => h entries x entry.2 [] ?_⟩
    rw [← hx]
  · rintro ⟨h, hlast⟩ before x c after heq
    rcases List.eq_nil_or_concat after with rfl | ⟨after, e, rfl⟩
    · obtain ⟨rfl, hentry⟩ := List.append_inj' heq rfl
      obtain rfl := List.singleton_inj.mp hentry
      exact hlast x rfl
    · rw [List.concat_eq_append, ← List.cons_append, ← List.append_assoc] at heq
      obtain ⟨rfl, -⟩ := List.append_inj' heq rfl
      exact h before x c after rfl

/-- A table holds the names of the owners, and no others. -/
structure Records (candidate : W → ℕ → N) (reserved : List N) (bound : ℕ)
    (entries : List (Ask N W × C)) (table : N → C → Prop) : Prop where
  fixed : ∀ x c, (.fixed x, c) ∈ entries → table x c
  found : ∀ w, ∀ m < bound, Taken candidate reserved (asksOf entries) w m →
    ∃ c, (.search w, c) ∈ entries ∧ table (candidate w m) c
  only : ∀ x c, table x c → (.fixed x, c) ∈ entries ∨ ∃ w, ∃ m < bound,
    Taken candidate reserved (asksOf entries) w m ∧ candidate w m = x ∧ (.search w, c) ∈ entries

namespace Records

variable {table : N → C → Prop}

lemma nil : Records candidate reserved bound ([] : List (Ask N W × C)) fun _ _ => False :=
  ⟨nofun, fun _ m _ h => absurd h (not_taken_nil m), nofun⟩

lemma congr {table' : N → C → Prop} (h : Records candidate reserved bound entries table)
    (ht : ∀ x c, table' x c ↔ table x c) : Records candidate reserved bound entries table' := by
  have heq : table' = table := funext fun x => funext fun c => propext (ht x c)
  rwa [heq]

lemma given (h : Records candidate reserved bound entries table) {x : N} {c : C} (hx : table x c) :
    Given candidate reserved bound (asksOf entries) x := by
  rcases h.only x c hx with hfixed | ⟨w, m, hm, ht, he, -⟩
  · exact .inl (List.mem_map_of_mem hfixed)
  · exact .inr ⟨w, m, hm, ht, he⟩

lemma concat_search (h : Records candidate reserved bound entries table) {m : ℕ} (hmb : m < bound)
    (hfree : Free candidate reserved (asksOf entries) w m)
    (hm : Nat.count (Free candidate reserved (asksOf entries) w) m = searches (asksOf entries) w)
    (c : C) :
    Records candidate reserved bound (entries ++ [(.search w, c)])
      fun y d => table y d ∨ y = candidate w m ∧ d = c := by
  have hasks : asksOf (entries ++ [(Ask.search w, c)]) = asksOf entries ++ [.search w] := by simp
  refine ⟨fun x d hx => ?_, fun v j hj ht => ?_, fun x d hx => ?_⟩
  · exact .inl (h.fixed x d (by simpa using hx))
  · rw [hasks, taken_search hfree hm] at ht
    rcases ht with ht | ⟨rfl, rfl⟩
    · obtain ⟨d, hd, htable⟩ := h.found v j hj ht
      exact ⟨d, List.mem_append_left _ hd, .inl htable⟩
    · exact ⟨c, by simp, .inr ⟨rfl, rfl⟩⟩
  · rcases hx with hx | ⟨rfl, rfl⟩
    · refine (h.only x d hx).imp (List.mem_append_left _) fun ⟨v, j, hj, ht, he, hmem⟩ => ?_
      refine ⟨v, j, hj, ?_, he, List.mem_append_left _ hmem⟩
      rw [hasks, taken_search hfree hm]
      exact .inl ht
    · refine .inr ⟨w, m, hmb, ?_, rfl, by simp⟩
      rw [hasks, taken_search hfree hm]
      exact .inr ⟨rfl, rfl⟩

lemma concat_fixed {starts : W → Prop} (hapart : Apart candidate starts bound)
    (hstarts : ∀ v, .search v ∈ asksOf entries → starts v)
    (h : Records candidate reserved bound entries table) {x : N}
    (hx : Untaken candidate reserved bound (asksOf entries) x) (c : C) :
    Records candidate reserved bound (entries ++ [(.fixed x, c)])
      fun y d => table y d ∨ y = x ∧ d = c := by
  have hasks : asksOf (entries ++ [(Ask.fixed x, c)]) = asksOf entries ++ [.fixed x] := by simp
  refine ⟨fun y d hy => ?_, fun v j hj ht => ?_, fun y d hy => ?_⟩
  · rw [List.mem_append, List.mem_singleton, Prod.mk.injEq, Ask.fixed.injEq] at hy
    exact hy.imp (h.fixed y d) id
  · rw [hasks, taken_untaken hapart hstarts hx hj] at ht
    obtain ⟨d, hd, htable⟩ := h.found v j hj ht
    exact ⟨d, List.mem_append_left _ hd, .inl htable⟩
  · rcases hy with hy | ⟨rfl, rfl⟩
    · refine (h.only y d hy).imp (List.mem_append_left _) fun ⟨v, j, hj, ht, he, hmem⟩ => ?_
      refine ⟨v, j, hj, ?_, he, List.mem_append_left _ hmem⟩
      rwa [hasks, taken_untaken hapart hstarts hx hj]
    · exact .inl (by simp)

end Records

end Naming
