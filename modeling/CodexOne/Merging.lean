import CodexOne.Replay

/-!
Which items stay when the items of a conversation are joined.

Of the items with one id the last one that an output refers to stays, or else the last one. An item
therefore stays or not by what comes before and after it.
-/

namespace CodexOne

namespace Merge

variable {α : Type} {info : α → ItemMetadata} {calls : List String}

def Refers (calls : List String) (m : ItemMetadata) : Prop := m.callID ∈ calls ∧ m.callID ≠ ""

instance (calls : List String) (m : ItemMetadata) : Decidable (Refers calls m) :=
  inferInstanceAs (Decidable (_ ∧ _))

/-- An item stays between what comes before and after it. -/
def Stays (info : α → ItemMetadata) (calls : List String) (before : List α) (a : α)
    (after : List α) : Prop :=
  (info a).id = "" ∨
    (∀ b ∈ after, (info b).id = (info a).id → ¬Refers calls (info b)) ∧
    (Refers calls (info a) ∨
      (∀ b ∈ before, (info b).id = (info a).id → ¬Refers calls (info b)) ∧
      ∀ b ∈ after, (info b).id ≠ (info a).id)

instance (before : List α) (a : α) (after : List α) : Decidable (Stays info calls before a after) :=
  inferInstanceAs (Decidable (_ ∨ _ ∧ (_ ∨ _ ∧ _)))

/-- Those of the items that stay between what comes before and after them. -/
def staying (info : α → ItemMetadata) (calls : List String) :
    (before items after : List α) → List α
  | _, [], _ => []
  | before, a :: items, after =>
    if Stays info calls before a (items ++ after) then
      a :: staying info calls (before ++ [a]) items after
    else staying info calls (before ++ [a]) items after

/-! ### The index that is kept -/

/-- What one step of the loop does to the index of an id. -/
def stepOne (info : α → ItemMetadata) (calls : List String) (id : String) (kept : Option (ℕ × Bool))
    (entry : α × ℕ) : Option (ℕ × Bool) :=
  if (info entry.1).id ≠ id then kept
  else
    match kept with
    | some (q, true) =>
      if Refers calls (info entry.1) then some (entry.2, true) else some (q, true)
    | _ => some (entry.2, decide (Refers calls (info entry.1)))

lemma get_keepStep (keep : List (String × ℕ × Bool)) (entry : α × ℕ) {id : String} (hid : id ≠ "") :
    Members.get (keepStep info calls keep entry) id =
      stepOne info calls id (Members.get keep id) entry := by
  have href : (decide ((info entry.1).callID ∈ calls) && decide ((info entry.1).callID ≠ "")) =
      decide (Refers calls (info entry.1)) := by
    exact (Bool.decide_and _ _).symm
  unfold keepStep stepOne
  dsimp only
  rw [href]
  by_cases hne : (info entry.1).id = id
  · subst hne
    rw [if_neg hid, if_neg (not_not.mpr rfl)]
    rcases hk : Members.get keep (info entry.1).id with _ | ⟨q, _ | _⟩
    · -- no index yet
      exact Members.get_set_self _ _ _
    · -- an item that no output refers to
      dsimp only
      rw [if_pos (.inr rfl)]
      exact Members.get_set_self _ _ _
    · -- an item that an output refers to
      dsimp only
      by_cases hr : Refers calls (info entry.1)
      · rw [if_pos (.inl (decide_eq_true hr)), if_pos hr, decide_eq_true hr]
        exact Members.get_set_self _ _ _
      · rw [if_neg (by simp [hr]), if_neg hr, hk]
  · have hother : id ≠ (info entry.1).id := Ne.symm hne
    rw [if_pos hne]
    by_cases he : (info entry.1).id = ""
    · rw [if_pos he]
    · rw [if_neg he]
      rcases Members.get keep (info entry.1).id with _ | ⟨q, r⟩
      · exact Members.get_set_ne _ _ hother
      · dsimp only
        split_ifs
        · exact Members.get_set_ne _ _ hother
        · rfl

lemma get_foldl_keepStep_eq (entries : List (α × ℕ)) (keep : List (String × ℕ × Bool)) {id : String}
    (hid : id ≠ "") :
    Members.get (entries.foldl (keepStep info calls) keep) id =
      entries.foldl (stepOne info calls id) (Members.get keep id) := by
  induction entries generalizing keep with
  | nil => rfl
  | cons e entries ih => rw [List.foldl_cons, List.foldl_cons, ih, get_keepStep _ _ hid]

lemma stepOne_index {id : String} {kept : Option (ℕ × Bool)} {entry : α × ℕ} {x : ℕ × Bool}
    (h : stepOne info calls id kept entry = some x) :
    kept = some x ∨ entry.2 = x.1 ∧ (info entry.1).id = id := by
  unfold stepOne at h
  by_cases hid : (info entry.1).id = id
  · rw [if_neg (not_not.mpr hid)] at h
    rcases kept with _ | ⟨q, _ | _⟩
    · exact .inr ⟨by rw [← Option.some.inj h], hid⟩
    · exact .inr ⟨by rw [← Option.some.inj h], hid⟩
    · dsimp only at h
      split_ifs at h
      · exact .inr ⟨by rw [← Option.some.inj h], hid⟩
      · exact .inl h
  · rw [if_pos hid] at h
    exact .inl h

section Fold

variable {id : String} {entries : List (α × ℕ)}

lemma foldl_index {kept : Option (ℕ × Bool)} {x : ℕ × Bool}
    (h : entries.foldl (stepOne info calls id) kept = some x) :
    kept = some x ∨ ∃ e ∈ entries, e.2 = x.1 ∧ (info e.1).id = id := by
  induction entries generalizing kept with
  | nil => exact .inl h
  | cons e entries ih =>
    rcases ih h with hk | ⟨f, hf, hfx⟩
    · rcases stepOne_index hk with hk | hk
      · exact .inl hk
      · exact .inr ⟨e, List.mem_cons_self, hk⟩
    · exact .inr ⟨f, List.mem_cons_of_mem _ hf, hfx⟩

lemma foldl_flag (kept : Option (ℕ × Bool)) :
    (∃ q, entries.foldl (stepOne info calls id) kept = some (q, true)) ↔
      (∃ q, kept = some (q, true)) ∨
        ∃ e ∈ entries, (info e.1).id = id ∧ Refers calls (info e.1) := by
  induction entries generalizing kept with
  | nil => simp
  | cons e entries ih =>
    have hstep : (∃ q, stepOne info calls id kept e = some (q, true)) ↔
        (∃ q, kept = some (q, true)) ∨ (info e.1).id = id ∧ Refers calls (info e.1) := by
      unfold stepOne
      by_cases hid : (info e.1).id = id
      · rw [if_neg (not_not.mpr hid)]
        rcases kept with _ | ⟨q, _ | _⟩
        · simp [hid]
        · simp [hid]
        · dsimp only
          split_ifs <;> simp
      · rw [if_pos hid]
        simp [hid]
    rw [List.foldl_cons, ih, hstep, List.exists_mem_cons_iff, or_assoc]

lemma foldl_fixed {q : ℕ} {r : Bool}
    (h : ∀ e ∈ entries, (info e.1).id = id → r = true ∧ ¬Refers calls (info e.1)) :
    entries.foldl (stepOne info calls id) (some (q, r)) = some (q, r) := by
  induction entries with
  | nil => rfl
  | cons e entries ih =>
    obtain ⟨h1, h2⟩ := List.forall_mem_cons.mp h
    have hstep : stepOne info calls id (some (q, r)) e = some (q, r) := by
      unfold stepOne
      by_cases hid : (info e.1).id = id
      · obtain ⟨rfl, hr⟩ := h1 hid
        rw [if_neg (not_not.mpr hid)]
        exact if_neg hr
      · rw [if_pos hid]
    rw [List.foldl_cons, hstep, ih h2]

lemma foldl_moves {q : ℕ} {r : Bool} {x : ℕ × Bool}
    (h : ∃ e ∈ entries, (info e.1).id = id ∧ (r = true → Refers calls (info e.1)))
    (hx : entries.foldl (stepOne info calls id) (some (q, r)) = some x) :
    ∃ e ∈ entries, e.2 = x.1 := by
  induction entries with
  | nil => simp at h
  | cons e entries ih =>
    rw [List.foldl_cons] at hx
    by_cases he : (info e.1).id = id ∧ (r = true → Refers calls (info e.1))
    · -- the index moves to this entry
      have hstep : ∃ r', stepOne info calls id (some (q, r)) e = some (e.2, r') := by
        unfold stepOne
        rw [if_neg (not_not.mpr he.1)]
        cases r with
        | false => exact ⟨_, rfl⟩
        | true => exact ⟨true, if_pos (he.2 rfl)⟩
      obtain ⟨r', hr'⟩ := hstep
      rw [hr'] at hx
      rcases foldl_index hx with hk | ⟨f, hf, hfx, -⟩
      · exact ⟨e, List.mem_cons_self, congrArg Prod.fst (Option.some.inj hk)⟩
      · exact ⟨f, List.mem_cons_of_mem _ hf, hfx⟩
    · -- a later entry has to move it
      have hstep : stepOne info calls id (some (q, r)) e = some (q, r) := by
        unfold stepOne
        by_cases hid : (info e.1).id = id
        · rw [if_neg (not_not.mpr hid)]
          cases r with
          | false => exact absurd ⟨hid, nofun⟩ he
          | true => exact if_neg fun hr => he ⟨hid, fun _ => hr⟩
        · rw [if_pos hid]
      have hrest := (List.or_exists_of_exists_mem_cons h).resolve_left he
      rw [hstep] at hx
      obtain ⟨f, hf, hfx⟩ := ih hrest hx
      exact ⟨f, List.mem_cons_of_mem _ hf, hfx⟩

end Fold

/-- **The kept index.** It is that of an item exactly if the item stays. -/
lemma foldl_kept (before after : List (α × ℕ)) (a : α) (n : ℕ)
    (hb : ∀ e ∈ before, e.2 ≠ n) (ha : ∀ e ∈ after, e.2 ≠ n) (hid : (info a).id ≠ "") :
    ((before ++ (a, n) :: after).foldl (stepOne info calls (info a).id) none).map Prod.fst =
        some n ↔
      Stays info calls (before.map Prod.fst) a (after.map Prod.fst) := by
  rw [List.foldl_append, List.foldl_cons]
  obtain ⟨kp, hkp⟩ : ∃ kp, before.foldl (stepOne info calls (info a).id) none = kp := ⟨_, rfl⟩
  have hflag := @foldl_flag _ info calls (info a).id before none
  have hindex : ∀ x, kp = some x → x.1 ≠ n := by
    intro x hx he
    rcases foldl_index (hkp.trans hx) with h0 | ⟨e, hem, hex, -⟩
    · exact absurd h0 nofun
    · exact hb e hem (hex.trans he)
  rw [hkp] at hflag ⊢
  have hnone : ¬∃ q : ℕ, (none : Option (ℕ × Bool)) = some (q, true) := nofun
  rw [or_iff_right hnone] at hflag
  -- whether the entry itself is taken
  by_cases hlost : (∃ q, kp = some (q, true)) ∧ ¬Refers calls (info a)
  · obtain ⟨⟨q, rfl⟩, hr⟩ := hlost
    have hstep : stepOne info calls (info a).id (some (q, true)) (a, n) = some (q, true) := by
      unfold stepOne
      rw [if_neg (not_not.mpr rfl)]
      exact if_neg hr
    rw [hstep]
    refine iff_of_false (fun h => ?_) fun h => ?_
    · obtain ⟨x, hx, hxn⟩ := Option.map_eq_some_iff.mp h
      rcases foldl_index hx with h0 | ⟨e, hem, hex, -⟩
      · exact hindex x h0 hxn
      · exact ha e hem (hex.trans hxn)
    · obtain ⟨e, hem, hee, her⟩ := hflag.mp ⟨q, rfl⟩
      rcases h with h | ⟨-, h | ⟨h, -⟩⟩
      · exact hid h
      · exact hr h
      · exact h e.1 (List.mem_map_of_mem hem) hee her
  · have hstep : stepOne info calls (info a).id kp (a, n) =
        some (n, decide (Refers calls (info a))) := by
      unfold stepOne
      rw [if_neg (not_not.mpr rfl)]
      rcases kp with _ | ⟨q, _ | _⟩
      · rfl
      · rfl
      · have hr : Refers calls (info a) := not_not.mp fun hr => hlost ⟨⟨q, rfl⟩, hr⟩
        dsimp only
        rw [if_pos hr, decide_eq_true hr]
    rw [hstep]
    have hbefore : Refers calls (info a) ∨
        ∀ b ∈ before.map Prod.fst, (info b).id = (info a).id → ¬Refers calls (info b) := by
      by_cases hr : Refers calls (info a)
      · exact .inl hr
      · right
        intro b hbm hbe hbr
        obtain ⟨e, hem, rfl⟩ := List.mem_map.mp hbm
        exact hlost ⟨hflag.mpr ⟨e, hem, hbe, hbr⟩, hr⟩
    by_cases hfix : ∀ e ∈ after, (info e.1).id = (info a).id →
        decide (Refers calls (info a)) = true ∧ ¬Refers calls (info e.1)
    · rw [foldl_fixed hfix]
      refine iff_of_true rfl (.inr ⟨fun b hbm hbe => ?_, ?_⟩)
      · obtain ⟨e, hem, rfl⟩ := List.mem_map.mp hbm
        exact (hfix e hem hbe).2
      · by_cases hr : Refers calls (info a)
        · exact .inl hr
        · refine .inr ⟨hbefore.resolve_left hr, fun b hbm hbe => ?_⟩
          obtain ⟨e, hem, rfl⟩ := List.mem_map.mp hbm
          exact hr (of_decide_eq_true (hfix e hem hbe).1)
    · push Not at hfix
      obtain ⟨e, hem, hee, her⟩ := hfix
      refine iff_of_false (fun h => ?_) fun h => ?_
      · obtain ⟨x, hx, hxn⟩ := Option.map_eq_some_iff.mp h
        obtain ⟨f, hf, hfx⟩ := foldl_moves ⟨e, hem, hee, her⟩ hx
        exact ha f hf (hfx.trans hxn)
      · rcases h with h | ⟨hafter, h | ⟨-, h⟩⟩
        · exact hid h
        · exact hafter e.1 (List.mem_map_of_mem hem) hee (her (decide_eq_true h))
        · exact h e.1 (List.mem_map_of_mem hem) hee

lemma keepItems_eq_staying (items : List α) :
    keepItems info items = staying info (referencedCalls info items) [] items [] := by
  have hrun : ∀ before after : List α, before ++ after = items →
      ((after.zipIdx before.length).filter fun entry => (info entry.1).id = "" ∨
        (Members.get (keepByID info items) (info entry.1).id).map Prod.fst = some entry.2).map
          Prod.fst = staying info (referencedCalls info items) before after [] := by
    intro before after heq
    induction after generalizing before with
    | nil => rfl
    | cons a after ih =>
      have hrest := ih (before ++ [a]) (by rw [← heq, List.append_assoc]; rfl)
      rw [List.length_append, List.length_singleton] at hrest
      have hkept : ((info a).id = "" ∨
          (Members.get (keepByID info items) (info a).id).map Prod.fst = some before.length) ↔
            Stays info (referencedCalls info items) before a after := by
        by_cases hid : (info a).id = ""
        · exact iff_of_true (.inl hid) (.inl hid)
        · have hz : items.zipIdx =
              before.zipIdx ++ (a, before.length) :: after.zipIdx (before.length + 1) := by
            rw [← heq, List.zipIdx_append, List.zipIdx_cons, Nat.zero_add]
          have hk := @foldl_kept _ info (referencedCalls info items)
            before.zipIdx (after.zipIdx (before.length + 1)) a before.length ?_ ?_ hid
          · rw [List.zipIdx_map_fst, List.zipIdx_map_fst] at hk
            rw [or_iff_right hid, keepByID, get_foldl_keepStep_eq _ _ hid, hz]
            exact hk
          · intro e he
            have := List.mem_zipIdx he
            omega
          · intro e he
            have := List.mem_zipIdx he
            omega
      rw [List.zipIdx_cons, List.filter_cons, staying, ← hrest, List.append_nil]
      by_cases hs : Stays info (referencedCalls info items) before a after
      · rw [if_pos hs, if_pos (decide_eq_true (hkept.mpr hs)), List.map_cons]
      · rw [if_neg hs, if_neg fun h => hs (hkept.mp (of_decide_eq_true h))]
  exact hrun [] items rfl

lemma mergeItems_eq (items : List α) :
    mergeItems info items = keepItems info (dedupCalls info items []) := by
  unfold mergeItems
  split_ifs with hl
  · match items, hl with
    | [], _ => rfl
    | [a], _ =>
      have hdedup : dedupCalls info [a] [] = [a] := by
        by_cases ha : (info a).isToolCall <;> simp [dedupCalls, ha]
      have hstays (calls : List String) : Stays info calls [] a [] :=
        .inr ⟨nofun, .inr ⟨nofun, nofun⟩⟩
      rw [hdedup, keepItems_eq_staying, staying, List.append_nil, if_pos (hstays _)]
      rfl
  · rfl

lemma mem_staying {before items after : List α} {a : α} :
    a ∈ staying info calls before items after ↔
      ∃ l r, items = l ++ a :: r ∧ Stays info calls (before ++ l) a (r ++ after) := by
  induction items generalizing before with
  | nil => simp [staying]
  | cons b items ih =>
    have hrest : a ∈ staying info calls (before ++ [b]) items after ↔
        ∃ l r, items = l ++ a :: r ∧ Stays info calls (before ++ b :: l) a (r ++ after) := by
      simpa using @ih (before ++ [b])
    have hmem : a ∈ staying info calls before (b :: items) after ↔
        (a = b ∧ Stays info calls before b (items ++ after)) ∨
          a ∈ staying info calls (before ++ [b]) items after := by
      rw [staying]
      split_ifs with hs <;> simp [hs]
    rw [hmem, hrest]
    constructor
    · rintro (⟨rfl, hs⟩ | ⟨l, r, rfl, hs⟩)
      · exact ⟨[], items, rfl, by simpa using hs⟩
      · exact ⟨b :: l, r, rfl, hs⟩
    · rintro ⟨l, r, heq, hs⟩
      cases l with
      | nil =>
        obtain ⟨rfl, rfl⟩ := List.cons.inj heq
        exact .inl ⟨rfl, by simpa using hs⟩
      | cons c l =>
        obtain ⟨rfl, rfl⟩ := List.cons.inj heq
        exact .inr ⟨l, r, rfl, hs⟩

lemma staying_sublist (before items after : List α) :
    (staying info calls before items after).Sublist items := by
  induction items generalizing before with
  | nil => exact .slnil
  | cons a items ih =>
    rw [staying]
    split_ifs
    · exact (ih _).cons_cons _
    · exact (ih _).cons _

lemma Stays.alone {l m r : List α} {a b : α} (ha : Stays info calls l a (m ++ b :: r))
    (hb : Stays info calls (l ++ a :: m) b r) (hid : (info b).id = (info a).id) :
    (info a).id = "" := by
  rcases ha with ha | ⟨h1, h2⟩
  · exact ha
  · have hbr := h1 b (by simp) hid
    rcases hb with hb | ⟨-, hb | ⟨h3, -⟩⟩
    · exact hid ▸ hb
    · exact absurd hb hbr
    · have har := h3 a (by simp) hid.symm
      exact absurd hid ((h2.resolve_left har).2 b (by simp))

lemma exists_last {p : α → Prop} {items : List α} (h : ∃ a ∈ items, p a) :
    ∃ l a r, items = l ++ a :: r ∧ p a ∧ ∀ b ∈ r, ¬p b := by
  induction items with
  | nil => simp at h
  | cons x items ih =>
    by_cases hrest : ∃ a ∈ items, p a
    · obtain ⟨l, a, r, rfl, ha, hr⟩ := ih hrest
      exact ⟨x :: l, a, r, rfl, ha, hr⟩
    · have hx : p x := (List.or_exists_of_exists_mem_cons h).resolve_right hrest
      exact ⟨[], x, items, rfl, hx, fun b hb hpb => hrest ⟨b, hb, hpb⟩⟩

/-- The item is a tool call whose call id came before. -/
def Repeats (info : α → ItemMetadata) (before : List α) (a : α) : Prop :=
  (info a).isToolCall ∧ ∃ b ∈ before, (info b).isToolCall ∧ (info b).callID = (info a).callID

instance (before : List α) (a : α) : Decidable (Repeats info before a) :=
  inferInstanceAs (Decidable (_ ∧ _))

/-- The call ids of tool calls. -/
def calledIn (info : α → ItemMetadata) (items : List α) : List String :=
  (items.filter fun item => (info item).isToolCall).map fun item => (info item).callID

lemma mem_calledIn {items : List α} {k : String} :
    k ∈ calledIn info items ↔ ∃ a ∈ items, (info a).isToolCall ∧ (info a).callID = k := by
  simp [calledIn, and_assoc]

lemma calledIn_append (a b : List α) :
    calledIn info (a ++ b) = calledIn info a ++ calledIn info b := by
  simp [calledIn]

lemma dedupCalls_congr {items : List α} {s t : List String}
    (h : ∀ a ∈ items, (info a).isToolCall → ((info a).callID ∈ s ↔ (info a).callID ∈ t)) :
    dedupCalls info items s = dedupCalls info items t := by
  induction items generalizing s t with
  | nil => rfl
  | cons a items ih =>
    obtain ⟨ha, hitems⟩ := List.forall_mem_cons.mp h
    by_cases hcall : (info a).isToolCall
    · have hcons := ih (s := (info a).callID :: s) (t := (info a).callID :: t)
        fun b hb hbc => by rw [List.mem_cons, List.mem_cons, hitems b hb hbc]
      simp only [dedupCalls, if_pos hcall, ha hcall, ih hitems, hcons]
    · simp only [dedupCalls, if_neg hcall, ih hitems]

lemma dedupCalls_append (a b : List α) (seen : List String) :
    dedupCalls info (a ++ b) seen =
      dedupCalls info a seen ++ dedupCalls info b (calledIn info a ++ seen) := by
  induction a generalizing seen with
  | nil => rfl
  | cons x a ih =>
    by_cases hx : (info x).isToolCall
    · have hcalled : calledIn info (x :: a) = (info x).callID :: calledIn info a := by
        simp [calledIn, hx]
      by_cases hm : (info x).callID ∈ seen
      · have hsame : ∀ k, k ∈ calledIn info a ++ seen ↔ k ∈ calledIn info (x :: a) ++ seen := by
          intro k
          rw [hcalled]
          simp only [List.cons_append, List.mem_cons, List.mem_append]
          constructor
          · exact .inr
          · rintro (rfl | h)
            · exact .inr hm
            · exact h
        simp only [List.cons_append, dedupCalls, if_pos hx, if_pos hm, ih,
          dedupCalls_congr fun _ _ _ => hsame _]
      · have hsame : ∀ k, k ∈ calledIn info a ++ (info x).callID :: seen ↔
            k ∈ calledIn info (x :: a) ++ seen := by
          intro k
          rw [hcalled]
          simp only [List.cons_append, List.mem_cons, List.mem_append]
          tauto
        simp only [List.cons_append, dedupCalls, if_pos hx, if_neg hm, ih,
          dedupCalls_congr fun _ _ _ => hsame _]
    · have hcalled : calledIn info (x :: a) = calledIn info a := by simp [calledIn, hx]
      simp only [List.cons_append, dedupCalls, if_neg hx, ih, hcalled]

lemma dedupCalls_cons_fresh {a : α} {seen : List String} (items : List α)
    (h : ¬((info a).isToolCall ∧ (info a).callID ∈ seen)) :
    dedupCalls info (a :: items) seen = a :: dedupCalls info items (calledIn info [a] ++ seen) := by
  by_cases ha : (info a).isToolCall
  · have hcalled : calledIn info [a] = [(info a).callID] := by simp [calledIn, ha]
    rw [dedupCalls, if_pos ha, if_neg fun hm => h ⟨ha, hm⟩, hcalled]
    rfl
  · have hcalled : calledIn info [a] = [] := by simp [calledIn, ha]
    rw [dedupCalls, if_neg ha, hcalled]
    rfl

lemma dedupCalls_cons_repeat {a : α} {seen : List String} (items : List α)
    (h : (info a).isToolCall ∧ (info a).callID ∈ seen) :
    dedupCalls info (a :: items) seen = dedupCalls info items seen := by
  rw [dedupCalls, if_pos h.1, if_pos h.2]

lemma dedupCalls_split {items B A : List α} {a : α} {seen : List String} :
    dedupCalls info items seen = B ++ a :: A ↔
      ∃ l r, items = l ++ a :: r ∧ dedupCalls info l seen = B ∧
        dedupCalls info r (calledIn info (l ++ [a]) ++ seen) = A ∧
        ¬((info a).isToolCall ∧ (info a).callID ∈ calledIn info l ++ seen) := by
  constructor
  · intro h
    induction items generalizing B seen with
    | nil => simp [dedupCalls] at h
    | cons x items ih =>
      by_cases hx : (info x).isToolCall ∧ (info x).callID ∈ seen
      · rw [dedupCalls_cons_repeat _ hx] at h
        obtain ⟨l, r, rfl, rfl, rfl, hfresh⟩ := ih h
        have hsame (m : List α) (k : String) :
            k ∈ calledIn info (x :: m) ++ seen ↔ k ∈ calledIn info m ++ seen := by
          have hcalled : calledIn info (x :: m) = (info x).callID :: calledIn info m := by
            simp [calledIn, hx.1]
          rw [hcalled, List.cons_append, List.mem_cons]
          exact or_iff_right_of_imp fun hk => List.mem_append_right _ (hk ▸ hx.2)
        exact ⟨x :: l, r, rfl, dedupCalls_cons_repeat _ hx, dedupCalls_congr fun _ _ _ => hsame _ _,
          by rwa [hsame]⟩
      · rw [dedupCalls_cons_fresh _ hx] at h
        cases B with
        | nil =>
          obtain ⟨rfl, rfl⟩ := List.cons.inj h
          exact ⟨[], items, rfl, rfl, rfl, hx⟩
        | cons b B =>
          obtain ⟨rfl, hrest⟩ := List.cons.inj h
          obtain ⟨l, r, rfl, rfl, rfl, hfresh⟩ := ih hrest
          have hsame (m : List α) (k : String) : k ∈ calledIn info (x :: m) ++ seen ↔
              k ∈ calledIn info m ++ (calledIn info [x] ++ seen) := by
            rw [← List.singleton_append, calledIn_append]
            simp only [List.mem_append]
            tauto
          exact ⟨x :: l, r, rfl, dedupCalls_cons_fresh _ hx,
            dedupCalls_congr fun _ _ _ => hsame _ _,
            by rwa [hsame]⟩
  · rintro ⟨l, r, rfl, rfl, rfl, hfresh⟩
    have hsame (k : String) : k ∈ calledIn info [a] ++ (calledIn info l ++ seen) ↔
        k ∈ calledIn info (l ++ [a]) ++ seen := by
      rw [calledIn_append]
      simp only [List.mem_append]
      tauto
    rw [dedupCalls_append, dedupCalls_cons_fresh _ hfresh, dedupCalls_congr fun _ _ _ => hsame _]

lemma repeats_iff {before : List α} {a : α} :
    Repeats info before a ↔ (info a).isToolCall ∧ (info a).callID ∈ calledIn info before := by
  rw [Repeats, mem_calledIn]

lemma mem_dedupCalls {items before : List α} {a : α} :
    a ∈ dedupCalls info items (calledIn info before) ↔
      ∃ l r, items = l ++ a :: r ∧ ¬Repeats info (before ++ l) a := by
  have hsame (l : List α) : Repeats info (before ++ l) a ↔
      (info a).isToolCall ∧ (info a).callID ∈ calledIn info l ++ calledIn info before := by
    rw [repeats_iff, calledIn_append, List.mem_append, List.mem_append, or_comm]
  constructor
  · intro h
    obtain ⟨B, A, h⟩ := List.append_of_mem h
    obtain ⟨l, r, rfl, -, -, hfresh⟩ := dedupCalls_split.mp h
    exact ⟨l, r, rfl, by rwa [hsame]⟩
  · rintro ⟨l, r, rfl, hfresh⟩
    rw [hsame] at hfresh
    rw [dedupCalls_split.mpr ⟨l, r, rfl, rfl, rfl, hfresh⟩]
    simp

lemma not_isToolCall_of_isCallOutput {m : ItemMetadata} (h : m.isCallOutput) : ¬m.isToolCall := by
  rintro ⟨hcall | hcall, -⟩ <;> rcases h.1 with hout | hout <;> rw [hcall] at hout <;>
    exact absurd hout (by decide)

lemma referencedCalls_dedupCalls (items : List α) (seen : List String) :
    referencedCalls info (dedupCalls info items seen) = referencedCalls info items := by
  induction items generalizing seen with
  | nil => rfl
  | cons a items ih =>
    have hcons (m : List α) : referencedCalls info (a :: m) =
        if (info a).isCallOutput then (info a).callID :: referencedCalls info m
        else referencedCalls info m := by
      unfold referencedCalls
      rw [List.filter_cons]
      split_ifs with h1 h2 h2 <;> simp_all
    by_cases ha : (info a).isToolCall ∧ (info a).callID ∈ seen
    · rw [dedupCalls_cons_repeat _ ha, ih, hcons,
        if_neg fun h => not_isToolCall_of_isCallOutput h ha.1]
    · rw [dedupCalls_cons_fresh _ ha, hcons, hcons, ih]

lemma mem_referencedCalls {items : List α} {k : String} :
    k ∈ referencedCalls info items ↔
      ∃ a ∈ items, (info a).isCallOutput ∧ (info a).callID = k := by
  simp [referencedCalls, and_assoc]

/-- An item with the same id follows, which is no tool call whose call id came before. -/
def Followed (info : α → ItemMetadata) (before : List α) (a : α) (after : List α)
    (p : ItemMetadata → Prop) : Prop :=
  ∃ l b r, after = l ++ b :: r ∧ ¬Repeats info (before ++ a :: l) b ∧
    (info b).id = (info a).id ∧ p (info b)

/-- An item with the same id comes before, which is no tool call whose call id came before it. -/
def Preceded (info : α → ItemMetadata) (before : List α) (a : α) (p : ItemMetadata → Prop) : Prop :=
  ∃ l b r, before = l ++ b :: r ∧ ¬Repeats info l b ∧ (info b).id = (info a).id ∧ p (info b)

lemma followed_iff {before after : List α} {a : α} {p : ItemMetadata → Prop} :
    Followed info before a after p ↔
      ∃ b ∈ dedupCalls info after (calledIn info (before ++ [a])),
        (info b).id = (info a).id ∧ p (info b) := by
  simp only [mem_dedupCalls, Followed, List.append_assoc, List.singleton_append]
  constructor
  · rintro ⟨l, b, r, heq, hfresh, hb⟩
    exact ⟨b, ⟨l, r, heq, hfresh⟩, hb⟩
  · rintro ⟨b, ⟨l, r, heq, hfresh⟩, hb⟩
    exact ⟨l, b, r, heq, hfresh, hb⟩

lemma preceded_iff {before : List α} {a : α} {p : ItemMetadata → Prop} :
    Preceded info before a p ↔
      ∃ b ∈ dedupCalls info before [], (info b).id = (info a).id ∧ p (info b) := by
  have hmem (b : α) := @mem_dedupCalls _ info before [] b
  simp only [List.nil_append] at hmem
  have hnil : calledIn info [] = [] := rfl
  simp only [← hnil, hmem, Preceded]
  constructor
  · rintro ⟨l, b, r, heq, hfresh, hb⟩
    exact ⟨b, ⟨l, r, heq, hfresh⟩, hb⟩
  · rintro ⟨b, ⟨l, r, heq, hfresh⟩, hb⟩
    exact ⟨l, b, r, heq, hfresh, hb⟩

/-- What stays after the calls that came before are left out. -/
def Left (info : α → ItemMetadata) (calls : List String) (before : List α) (a : α)
    (after : List α) : Prop :=
  (info a).id = "" ∨ ¬Followed info before a after (Refers calls) ∧
    (Refers calls (info a) ∨
      ¬Preceded info before a (Refers calls) ∧ ¬Followed info before a after fun _ => True)

lemma left_iff {before after : List α} {a : α} :
    Left info calls before a after ↔ Stays info calls (dedupCalls info before []) a
      (dedupCalls info after (calledIn info (before ++ [a]))) := by
  simp only [Left, Stays, followed_iff, preceded_iff, not_exists, not_and, not_true, ne_eq]

lemma mem_mergeItems {items : List α} {a : α} :
    a ∈ mergeItems info items ↔
      ∃ before after, items = before ++ a :: after ∧ ¬Repeats info before a ∧
        Left info (referencedCalls info items) before a after := by
  simp only [mergeItems_eq, keepItems_eq_staying, referencedCalls_dedupCalls, mem_staying,
    List.nil_append, List.append_nil, left_iff, repeats_iff]
  constructor
  · rintro ⟨B, A, hsplit, hs⟩
    obtain ⟨l, r, heq, rfl, rfl, hfresh⟩ := dedupCalls_split.mp hsplit
    rw [List.append_nil] at hs hfresh
    exact ⟨l, r, heq, hfresh, hs⟩
  · rintro ⟨l, r, heq, hfresh, hs⟩
    refine ⟨_, _, dedupCalls_split.mpr ⟨l, r, heq, rfl, rfl, ?_⟩, ?_⟩
    · rwa [List.append_nil]
    · rwa [List.append_nil]

/-- A later item with the id of an item takes its place, one that an output refers to. -/
def Replaced (info : α → ItemMetadata) (items before : List α) (a : α) (after : List α) : Prop :=
  (info a).id ≠ "" ∧ Followed info before a after (Refers (referencedCalls info items))

/-- An item of a kind with a call id that is neither a repeated call nor replaced. -/
def Unreplaced (info : α → ItemMetadata) (kind : ItemMetadata → Prop) (items : List α)
    (k : String) : Prop :=
  ∃ before a after, items = before ++ a :: after ∧ kind (info a) ∧ (info a).callID = k ∧
    ¬Repeats info before a ∧ ¬Replaced info items before a after

lemma exists_mem_mergeItems {kind : ItemMetadata → Prop} {items : List α} {k : String}
    (hk : k ≠ "") (hout : k ∈ referencedCalls info items) :
    (∃ a ∈ mergeItems info items, kind (info a) ∧ (info a).callID = k) ↔
      Unreplaced info kind items k := by
  have hleft {before after : List α} {a : α} (ha : (info a).callID = k) :
      Left info (referencedCalls info items) before a after ↔
        ¬Replaced info items before a after := by
    have hr : Refers (referencedCalls info items) (info a) := ⟨ha ▸ hout, ha ▸ hk⟩
    rw [Left, Replaced, and_iff_left (Or.inl hr), not_and, imp_iff_not_or, ne_eq, not_not]
  simp only [mem_mergeItems]
  constructor
  · rintro ⟨a, ⟨before, after, heq, hfresh, hs⟩, hkind, ha⟩
    exact ⟨before, a, after, heq, hkind, ha, hfresh, (hleft ha).mp hs⟩
  · rintro ⟨before, a, after, heq, hkind, ha, hfresh, hs⟩
    exact ⟨a, ⟨before, after, heq, hfresh, (hleft ha).mpr hs⟩, hkind, ha⟩

lemma dedupCalls_pairwise (items : List α) (seen : List String) :
    (dedupCalls info items seen).Pairwise (fun a b => (info a).isToolCall → (info b).isToolCall →
      (info a).callID ≠ (info b).callID) ∧
    ∀ a ∈ dedupCalls info items seen, (info a).isToolCall → (info a).callID ∉ seen := by
  induction items generalizing seen with
  | nil => exact ⟨.nil, nofun⟩
  | cons x items ih =>
    by_cases hx : (info x).isToolCall ∧ (info x).callID ∈ seen
    · rw [dedupCalls_cons_repeat _ hx]
      exact ih seen
    · rw [dedupCalls_cons_fresh _ hx]
      obtain ⟨h1, h2⟩ := ih (calledIn info [x] ++ seen)
      refine ⟨.cons (fun b hb hxc hbc he => ?_) h1, fun a ha hac => ?_⟩
      · have hmem : (info b).callID ∈ calledIn info [x] :=
          mem_calledIn.mpr ⟨x, List.mem_cons_self, hxc, he⟩
        exact h2 b hb hbc (List.mem_append_left _ hmem)
      · rcases List.mem_cons.mp ha with rfl | ha
        · exact fun hm => hx ⟨hac, hm⟩
        · exact fun hm => h2 a ha hac (List.mem_append_right _ hm)

end Merge

open Merge

/-! ### Pairs of a call and an output -/

/-- A tool call with a call id is among the items. -/
def HasCall (items : List Raw) (k : String) : Prop :=
  ∃ a ∈ items, (ItemMetadata.ofRaw a).isToolCall ∧ (ItemMetadata.ofRaw a).callID = k

/-- An output of a call is among the items. -/
def HasOutput (items : List Raw) (k : String) : Prop :=
  ∃ a ∈ items, (ItemMetadata.ofRaw a).isCallOutput ∧ (ItemMetadata.ofRaw a).callID = k

instance (items : List Raw) (k : String) : Decidable (HasCall items k) :=
  inferInstanceAs (Decidable (∃ a ∈ items, _))

instance (items : List Raw) (k : String) : Decidable (HasOutput items k) :=
  inferInstanceAs (Decidable (∃ a ∈ items, _))

/-- A call and its output are not parted by joining the items. -/
def KeepsPair (groups : List (List Raw)) (k : String) : Prop :=
  HasCall groups.flatten k → HasOutput groups.flatten k →
    HasCall (mergeWebSocketItems groups) k ∧ HasOutput (mergeWebSocketItems groups) k

/-- **Calls and their outputs.** A pair is kept exactly if neither the first call with the call id
nor every output of it is replaced: no later item with the same id is one that an output refers
to, repeated calls apart. -/
theorem mergeWebSocketItems_pair_iff (groups : List (List Raw)) (k : String) :
    KeepsPair groups k ↔ (HasCall groups.flatten k → HasOutput groups.flatten k →
      Unreplaced ItemMetadata.ofRaw ItemMetadata.isToolCall groups.flatten k ∧
        Unreplaced ItemMetadata.ofRaw ItemMetadata.isCallOutput groups.flatten k) := by
  refine forall₂_congr fun _ hout => ?_
  obtain ⟨a, -, ha, hk⟩ := id hout
  have hne : k ≠ "" := hk ▸ ha.2
  have href := mem_referencedCalls.mpr hout
  exact and_congr (exists_mem_mergeItems hne href) (exists_mem_mergeItems hne href)

section Samples

def itemOf (id kind callID : String) : Raw :=
  .ofJson (.obj [("call_id", .str callID), ("id", .str id), ("type", .str kind)])

/-- Two calls with one id are both answered, and one of them is left out. -/
theorem mergeWebSocketItems_parts_pair :
    ¬KeepsPair [[itemOf "x" "function_call" "a", itemOf "x" "function_call" "b",
      itemOf "y" "function_call_output" "a", itemOf "z" "function_call_output" "b"]] "a" := by
  intro h
  have hcall : ¬HasCall (mergeWebSocketItems [[itemOf "x" "function_call" "a",
      itemOf "x" "function_call" "b", itemOf "y" "function_call_output" "a",
      itemOf "z" "function_call_output" "b"]]) "a" := by
    decide +kernel
  exact hcall (h (by decide +kernel) (by decide +kernel)).1

end Samples

end CodexOne
