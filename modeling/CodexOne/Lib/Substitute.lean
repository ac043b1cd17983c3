import Mathlib.Data.List.Find
import Mathlib.Data.List.Infix
import Mathlib.Data.List.Nodup

/-!
Simultaneous substitution in a text.

A text is read from the left. Where it goes on with the left side of a rule, the first such rule
is applied and reading goes on behind the match, otherwise one character is copied.
-/

namespace CodexOne

variable {α : Type} [DecidableEq α]

/-- What is looked for and what takes its place. -/
abbrev Rules (α : Type) := List (List α × List α)

/-- The first rule that applies at the front of a text. -/
def Rules.first (rules : Rules α) (t : List α) : Option (List α × List α) :=
  rules.find? fun r => r.1.isPrefixOf t

/-- The text with its matches replaced, where the first characters of it have been read. -/
def substitute (rules : Rules α) : ℕ → List α → List α
  | _, [] => []
  | read + 1, _ :: t => substitute rules read t
  | 0, c :: t =>
    match rules.first (c :: t) with
    | some r => r.2 ++ substitute rules (r.1.length - 1) t
    | none => c :: substitute rules 0 t

variable {rules : Rules α} {t : List α}

@[simp] lemma substitute_nil (n : ℕ) : substitute rules n ([] : List α) = [] := by
  cases n <;> rfl

lemma first_eq_none : rules.first t = none ↔ ∀ r ∈ rules, ¬r.1 <+: t := by
  simp [Rules.first]

lemma first_eq_some {r : List α × List α} (h : rules.first t = some r) : r ∈ rules ∧ r.1 <+: t := by
  unfold Rules.first at h
  exact ⟨List.mem_of_find?_eq_some h,
    List.isPrefixOf_iff_prefix.mp (by simpa using List.find?_some h)⟩

lemma first_cons (s : List α × List α) (rules : Rules α) (t : List α) :
    Rules.first (s :: rules) t = if s.1 <+: t then some s else rules.first t := by
  rw [Rules.first, List.find?_cons]
  split_ifs with h
  · rw [List.isPrefixOf_iff_prefix.mpr h]
  · rw [Bool.eq_false_iff.mpr fun hc => h (List.isPrefixOf_iff_prefix.mp hc)]
    rfl

lemma first_eq_none_of_infix (h : ∀ r ∈ rules, ¬r.1 <:+: t) : rules.first t = none :=
  first_eq_none.mpr fun r hr hp => h r hr hp.isInfix

/-- **Texts without a match are left alone.** -/
theorem substitute_eq_self (h : ∀ r ∈ rules, ¬r.1 <:+: t) : substitute rules 0 t = t := by
  induction t with
  | nil => exact substitute_nil 0
  | cons c t ih =>
    rw [substitute, first_eq_none_of_infix h]
    dsimp only
    rw [ih fun r hr hi => h r hr (hi.trans (List.infix_cons_iff.mpr (.inr List.infix_rfl)))]

lemma substitute_congr {rules rules' : Rules α} (h : ∀ t, rules.first t = rules'.first t) (n : ℕ)
    (t : List α) : substitute rules n t = substitute rules' n t := by
  induction t generalizing n with
  | nil => rw [substitute_nil, substitute_nil]
  | cons c t ih =>
    cases n with
    | succ n => exact ih n
    | zero =>
      rw [substitute, substitute, ← h]
      cases rules.first (c :: t) with
      | none => exact congrArg (c :: ·) (ih 0)
      | some r => exact congrArg (r.2 ++ ·) (ih _)

/-- Of the rules that match, the one that is applied has the longest left side. -/
def Rules.Longest (rules : Rules α) : Prop :=
  ∀ t r, rules.first t = some r → ∀ r' ∈ rules, r'.1 <+: t → r'.1 <+: r.1

/-- The same rules with different left sides match alike where the longest one is applied. -/
lemma first_eq_of_longest {rules' : Rules α} (hperm : rules.Perm rules')
    (hd : (rules.map Prod.fst).Nodup) (hl : rules.Longest) (hl' : rules'.Longest) (t : List α) :
    rules.first t = rules'.first t := by
  cases h : rules.first t with
  | none =>
    rw [eq_comm, first_eq_none]
    exact fun r hr => first_eq_none.mp h r (hperm.mem_iff.mpr hr)
  | some r =>
    obtain ⟨hr, hpre⟩ := first_eq_some h
    cases h' : rules'.first t with
    | none => exact absurd hpre (first_eq_none.mp h' r (hperm.mem_iff.mp hr))
    | some r' =>
      obtain ⟨hr', hpre'⟩ := first_eq_some h'
      have h1 := hl t r h r' (hperm.mem_iff.mpr hr') hpre'
      have h2 := hl' t r' h' r (hperm.mem_iff.mp hr) hpre
      have heq : r.1 = r'.1 := h2.eq_of_length_le h1.length_le
      rw [List.inj_on_of_nodup_map hd hr (hperm.mem_iff.mpr hr') heq]

lemma first_self (hd : (rules.map Prod.fst).Nodup) (hl : rules.Longest) {r : List α × List α}
    (hr : r ∈ rules) : rules.first r.1 = some r := by
  cases h : rules.first r.1 with
  | none => exact absurd List.prefix_rfl (first_eq_none.mp h r hr)
  | some r' =>
    obtain ⟨hr', hpre⟩ := first_eq_some h
    have hle := hl r.1 r' h r hr List.prefix_rfl
    have heq : r'.1 = r.1 := hpre.eq_of_length_le hle.length_le
    rw [List.inj_on_of_nodup_map hd hr' hr heq]

section Sorted

/-- A size that tells a list from the longer ones that it begins. -/
structure PrefixSize (size : List α → ℕ) : Prop where
  eq_of_le : ∀ {p q : List α}, p <+: q → size q ≤ size p → p = q

variable {size : List α → ℕ}

def Rules.LongestFirst (size : List α → ℕ) (rules : Rules α) : Prop :=
  rules.Pairwise fun a b => size b.1 ≤ size a.1

/-- **The longest match.** The rule that is applied has the longest left side of those that
match. -/
theorem first_longest (hsize : PrefixSize size) (hs : rules.LongestFirst size)
    {r : List α × List α} (h : rules.first t = some r) {r' : List α × List α} (hr' : r' ∈ rules)
    (hmatch : r'.1 <+: t) : r'.1 <+: r.1 := by
  induction rules with
  | nil => cases hr'
  | cons s rules ih =>
    obtain ⟨h1, h2⟩ := List.pairwise_cons.mp hs
    rw [first_cons] at h
    by_cases hp : s.1 <+: t
    · rw [if_pos hp] at h
      obtain rfl := Option.some.inj h
      rcases List.mem_cons.mp hr' with rfl | hr'
      · exact List.prefix_rfl
      rcases List.prefix_or_prefix_of_prefix hmatch hp with hpre | hpre
      · -- the shorter left side begins the longer one
        exact hpre
      · rw [hsize.eq_of_le hpre (h1 r' hr')]
    · rw [if_neg hp] at h
      rcases List.mem_cons.mp hr' with rfl | hr'
      · exact absurd hmatch hp
      · exact ih h2 h hr'

lemma longest_of_longestFirst (hsize : PrefixSize size) (hs : rules.LongestFirst size) :
    rules.Longest := fun _ _ h _ hr' hmatch => first_longest hsize hs h hr' hmatch

/-- The order among rules of one size does not matter. -/
theorem first_perm (hsize : PrefixSize size) {rules' : Rules α} (hperm : rules.Perm rules')
    (hs : rules.LongestFirst size) (hs' : rules'.LongestFirst size)
    (hd : (rules.map Prod.fst).Nodup) (t : List α) : rules.first t = rules'.first t :=
  first_eq_of_longest hperm hd (longest_of_longestFirst hsize hs)
    (longest_of_longestFirst hsize hs') t

/-- **Order does not matter.** Rules with different left sides do the same in every order of their
size. -/
theorem substitute_perm (hsize : PrefixSize size) {rules' : Rules α} (hperm : rules.Perm rules')
    (hs : rules.LongestFirst size) (hs' : rules'.LongestFirst size)
    (hd : (rules.map Prod.fst).Nodup) (n : ℕ) (t : List α) :
    substitute rules n t = substitute rules' n t :=
  substitute_congr (first_perm hsize hperm hs hs' hd) n t

end Sorted

/-! ### Breaks -/

variable {b : α} {s : List α}

/-- A rule that does not look for a character matches in front of it or not at all. -/
lemma first_break (hb : ∀ r ∈ rules, b ∉ r.1) (s t : List α) :
    rules.first (s ++ b :: t) = rules.first s := by
  have hiff (r : List α × List α) (hr : r ∈ rules) : r.1 <+: s ++ b :: t ↔ r.1 <+: s := by
    refine ⟨fun h => ?_, fun h => h.trans (List.prefix_append _ _)⟩
    rcases List.prefix_or_prefix_of_prefix h (List.prefix_append s (b :: t)) with h' | ⟨u, hu⟩
    · exact h'
    · cases u with
      | nil => rw [← hu, List.append_nil]
      | cons c u =>
        rw [← hu] at h
        obtain ⟨rfl, -⟩ := List.cons_prefix_cons.mp ((List.prefix_append_right_inj s).mp h)
        exact absurd (hu ▸ List.mem_append_right _ List.mem_cons_self) (hb r hr)
  cases h : rules.first s with
  | none => exact first_eq_none.mpr fun r hr hpre => first_eq_none.mp h r hr ((hiff r hr).mp hpre)
  | some r =>
    have hfind := h
    unfold Rules.first at hfind ⊢
    rw [← hfind]
    refine List.find?_congr fun r hr => ?_
    rw [Bool.eq_iff_iff, List.isPrefixOf_iff_prefix, List.isPrefixOf_iff_prefix]
    exact hiff r hr

/-- **A break.** Where no rule looks for a character, a text is substituted before and behind it. -/
theorem substitute_break (hne : ∀ r ∈ rules, r.1 ≠ []) (hb : ∀ r ∈ rules, b ∉ r.1) {n : ℕ}
    (hn : n ≤ s.length) :
    substitute rules n (s ++ b :: t) = substitute rules n s ++ b :: substitute rules 0 t := by
  induction s generalizing n with
  | nil =>
    obtain rfl := Nat.le_zero.mp hn
    have hnone : rules.first (b :: t) = none := by
      rw [← List.nil_append (b :: t), first_break hb]
      exact first_eq_none.mpr fun r hr hpre => hne r hr (List.prefix_nil.mp hpre)
    rw [List.nil_append, substitute_nil, substitute, hnone]
    rfl
  | cons c s ih =>
    cases n with
    | succ n => exact ih (Nat.le_of_succ_le_succ hn)
    | zero =>
      rw [List.cons_append, substitute, substitute, ← List.cons_append, first_break hb]
      cases h : rules.first (c :: s) with
      | none => exact congrArg (c :: ·) (ih (Nat.zero_le _))
      | some r =>
        -- the match ends before the break
        have hlen := (first_eq_some h).2.length_le
        rw [List.length_cons] at hlen
        dsimp only
        rw [ih (by omega), List.append_assoc]

lemma not_mem_substitute (hb : ∀ r ∈ rules, b ∉ r.2) (h : b ∉ t) (n : ℕ) :
    b ∉ substitute rules n t := by
  induction t generalizing n with
  | nil => rwa [substitute_nil]
  | cons c t ih =>
    rw [List.mem_cons, not_or] at h
    cases n with
    | succ n => exact ih h.2 n
    | zero =>
      rw [substitute]
      cases hr : rules.first (c :: t) with
      | none => simpa [h.1] using ih h.2 0
      | some r =>
        dsimp only
        rw [List.mem_append, not_or]
        exact ⟨hb r (first_eq_some hr).1, ih h.2 _⟩

end CodexOne
