import Mathlib

/-!
Local clocks.

A zone has an offset at each instant, so its clock reads the instant plus the offset. A reading may
occur once, several times, or not at all where the clock is put forward. Instants and readings
are seconds; a function that finds the instant of a reading is free where the reading does not
occur once.
-/

namespace CodexOne

/-- A time zone, with offsets in some bounds. -/
structure Zone where
  offset : ℤ → ℤ
  bounded : ∃ b, ∀ t, -b ≤ offset t ∧ offset t ≤ b

namespace Zone

variable (z : Zone)

/-- What the clock reads at an instant. -/
def reads (t : ℤ) : ℤ := t + z.offset t

/-- The clock shows a reading at some instant. -/
def Occurs (l : ℤ) : Prop := ∃ t, z.reads t = l

/-- The clock is put forward past a reading at an instant. -/
def Skips (T l : ℤ) : Prop := z.reads (T - 1) < l ∧ l < z.reads T

/-- The instants that a reading may be taken for: those at which the clock shows it, or, where it
is skipped, those that it has with the offset before the skip or the one after it. -/
def MayBe (l t : ℤ) : Prop :=
  z.reads t = l ∨ ¬z.Occurs l ∧
    ∃ T, z.Skips T l ∧ (t = l - z.offset (T - 1) ∨ t = l - z.offset T)

/-- A function that takes each reading for one of its instants. -/
def Resolves (date : ℤ → ℤ) : Prop := ∀ l, z.MayBe l (date l)

variable {z} {date : ℤ → ℤ} {l m t D : ℤ}

lemma MayBe.reads (h : z.MayBe l t) (hl : z.Occurs l) : z.reads t = l :=
  h.resolve_right fun h => h.1 hl

lemma MayBe.exists_offset (h : z.MayBe l t) : ∃ t', t = l - z.offset t' := by
  rcases h with h | ⟨-, T, -, h | h⟩
  · exact ⟨t, by rw [← h, Zone.reads, add_sub_cancel_right]⟩
  · exact ⟨T - 1, h⟩
  · exact ⟨T, h⟩

lemma ne_of_not_occurs (h : ¬z.Occurs l) (t : ℤ) : z.reads t ≠ l := fun ht => h ⟨t, ht⟩

lemma exists_skips (h : ¬z.Occurs l) : ∃ T, z.Skips T l := by
  obtain ⟨b, hb⟩ := z.bounded
  have hlow : z.reads (l - b - 1) < l := by
    have := hb (l - b - 1)
    unfold Zone.reads
    omega
  have hhigh : l < z.reads (l + b + 1) := by
    have := hb (l + b + 1)
    unfold Zone.reads
    omega
  -- the first instant after an early one at which the clock is past the reading
  obtain ⟨T, ⟨hT, hpast⟩, hleast⟩ := Int.exists_least_of_bdd
    (P := fun t => l - b - 1 < t ∧ l < z.reads t) ⟨l - b - 1, fun t ht => ht.1.le⟩
    ⟨l + b + 1, by have := hb 0; omega, hhigh⟩
  refine ⟨T, ?_, hpast⟩
  by_cases hfirst : T - 1 = l - b - 1
  · rw [hfirst]
    exact hlow
  · have hnot : ¬l < z.reads (T - 1) := fun hlt => by
      have := hleast (T - 1) ⟨by omega, hlt⟩
      omega
    exact lt_of_le_of_ne (not_lt.mp hnot) (ne_of_not_occurs h _)

lemma exists_mayBe (l : ℤ) : ∃ t, z.MayBe l t := by
  by_cases h : z.Occurs l
  · exact h.imp fun t ht => .inl ht
  · obtain ⟨T, hT⟩ := exists_skips h
    exact ⟨_, .inr ⟨h, T, hT, .inl rfl⟩⟩

lemma exists_resolves : ∃ date, z.Resolves date :=
  ⟨fun l => (exists_mayBe l).choose, fun l => (exists_mayBe l).choose_spec⟩

lemma exists_mayBe_ne (h : ¬z.Occurs l) (t : ℤ) : ∃ t', t' ≠ t ∧ z.MayBe l t' := by
  obtain ⟨T, hT⟩ := exists_skips h
  have hne : l - z.offset (T - 1) ≠ l - z.offset T := by
    obtain ⟨hbefore, hafter⟩ := hT
    unfold Zone.reads at hbefore hafter
    omega
  by_cases ht : l - z.offset (T - 1) = t
  · exact ⟨_, ht ▸ hne.symm, .inr ⟨h, T, hT, .inr rfl⟩⟩
  · exact ⟨_, ht, .inr ⟨h, T, hT, .inl rfl⟩⟩

lemma Resolves.update (h : z.Resolves date) (ht : z.MayBe l t) :
    z.Resolves (Function.update date l t) := fun l' => by
  by_cases hl : l' = l
  · rw [hl, Function.update_self]
    exact ht
  · rw [Function.update_of_ne hl]
    exact h l'

/-- A reading that occurs, and its successor: found again from the instant of the first. -/
lemma Resolves.next (h : z.Resolves date) (hm : z.Occurs m) (D : ℤ) :
    date (z.reads (date m) + D) = date (m + D) := by
  rw [(h m).reads hm]

/-- A reading that is skipped, while the clock shows both readings that are compared later. -/
lemma Resolves.next_ne (h : z.Resolves date) (hm : ¬z.Occurs m) (hnext : z.Occurs (m + D))
    (hshift : z.Occurs (z.reads (date m) + D)) :
    date (z.reads (date m) + D) ≠ date (m + D) := fun heq => by
  have hreads := (h (z.reads (date m) + D)).reads hshift
  rw [heq, (h (m + D)).reads hnext] at hreads
  exact ne_of_not_occurs hm (date m) (by omega)

/-- **When a later reading can be found from the instant of an earlier one.** Whatever instants the
skipped readings are taken for, exactly when the earlier reading is not skipped. -/
theorem resolves_next_iff (hD : D ≠ 0) :
    (∀ date, z.Resolves date → date (z.reads (date m) + D) = date (m + D)) ↔ z.Occurs m := by
  refine ⟨fun hall => by_contra fun hm => ?_, fun hm date h => h.next hm D⟩
  obtain ⟨date, h⟩ := exists_resolves (z := z)
  have hne : z.reads (date m) ≠ m := ne_of_not_occurs hm _
  have heq := hall date h
  by_cases hnext : z.Occurs (m + D)
  · by_cases hshift : z.Occurs (z.reads (date m) + D)
    · exact h.next_ne hm hnext hshift heq
    · -- the shifted reading is skipped: take it for another instant
      have hm' : m ≠ z.reads (date m) + D := fun hm' => by
        have hreads := (h (m + D)).reads hnext
        rw [← heq, ← hm'] at hreads
        omega
      obtain ⟨t, ht, hmay⟩ := exists_mayBe_ne hshift (date (m + D))
      have heq' := hall _ (h.update hmay)
      rw [Function.update_of_ne hm', Function.update_self,
        Function.update_of_ne (by omega)] at heq'
      exact ht heq'
  · -- the later reading is skipped: take it for another instant
    obtain ⟨t, ht, hmay⟩ := exists_mayBe_ne hnext (date (m + D))
    have heq' := hall _ (h.update hmay)
    rw [Function.update_of_ne (show m ≠ m + D by omega), Function.update_self,
      Function.update_of_ne (by omega)] at heq'
    exact ht (heq'.symm.trans heq)

/-! ### Intervals -/

lemma add_le_of_strictMono {f : ℤ → ℤ} (hf : StrictMono f) (n : ℤ) (k : ℕ) :
    f n + k ≤ f (n + k) := by
  induction k with
  | zero => simp
  | succ k ih =>
    have hlt : f (n + k) < f (n + k + 1) := hf (by omega)
    push_cast
    rw [← add_assoc n]
    omega

/-- Growing starts divide the line. -/
theorem existsUnique_between {f : ℤ → ℤ} (hf : StrictMono f) (x : ℤ) :
    ∃! n, f n ≤ x ∧ x < f (n + 1) := by
  have hlow : ∃ n, f n ≤ x := by
    have h := add_le_of_strictMono hf (-(f 0 - x).toNat) (f 0 - x).toNat
    rw [neg_add_cancel] at h
    exact ⟨-(f 0 - x).toNat, by omega⟩
  have hbound : ∀ n, f n ≤ x → n ≤ (x - f 0).toNat := fun n hn => by
    by_contra hgt
    have h := add_le_of_strictMono hf 0 n.toNat
    rw [zero_add, Int.toNat_of_nonneg (by omega)] at h
    omega
  obtain ⟨n, hn, hgreatest⟩ := Int.exists_greatest_of_bdd ⟨_, hbound⟩ hlow
  refine ⟨n, ⟨hn, ?_⟩, fun m hm => ?_⟩
  · by_contra hnot
    have := hgreatest (n + 1) (not_lt.mp hnot)
    omega
  · have hle := hgreatest m hm.1
    have hge : n < m + 1 := hf.lt_iff_lt.mp (lt_of_le_of_lt hn hm.2)
    omega

end Zone

end CodexOne
