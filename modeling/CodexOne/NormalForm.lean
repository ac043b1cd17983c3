import CodexOne.Merging

/-!
The normal form of joined items: what is left of them stays as it is when it is joined again.
-/

namespace CodexOne

namespace Merge

variable {α : Type} {info : α → ItemMetadata} {calls : List String}

/-- The items but the tool calls whose call id came before. -/
def unrepeated (info : α → ItemMetadata) : (before items : List α) → List α
  | _, [] => []
  | before, a :: items =>
    if Repeats info before a then unrepeated info (before ++ [a]) items
    else a :: unrepeated info (before ++ [a]) items

/-- Those of the items that have no id. -/
def unnamed (info : α → ItemMetadata) (items : List α) : List α :=
  items.filter fun a => (info a).id = ""

lemma dedupCalls_eq_unrepeated (before items : List α) :
    dedupCalls info items (calledIn info before) = unrepeated info before items := by
  induction items generalizing before with
  | nil => rfl
  | cons a items ih =>
    rw [unrepeated, ← ih]
    have hmem (k : String) : k ∈ calledIn info (before ++ [a]) ↔
        k ∈ calledIn info [a] ++ calledIn info before := by
      rw [calledIn_append, List.mem_append, List.mem_append, or_comm]
    by_cases hr : Repeats info before a
    · -- a repeated call adds no call id to those seen
      have hrep := repeats_iff.mp hr
      have hsame (k : String) : k ∈ calledIn info before ↔ k ∈ calledIn info (before ++ [a]) := by
        rw [hmem, List.mem_append]
        refine (or_iff_right_of_imp fun hk => ?_).symm
        obtain ⟨b, hb, -, rfl⟩ := mem_calledIn.mp hk
        rw [List.mem_singleton.mp hb]
        exact hrep.2
      rw [if_pos hr, dedupCalls_cons_repeat _ hrep, dedupCalls_congr fun _ _ _ => hsame _]
    · rw [if_neg hr, dedupCalls_cons_fresh _ fun h => hr (repeats_iff.mpr h),
        dedupCalls_congr fun _ _ _ => (hmem _).symm]

/-- What is left of the items, in terms of what comes before and after each of them. -/
lemma mergeItems_eq_staying (items : List α) :
    mergeItems info items =
      staying info (referencedCalls info items) [] (unrepeated info [] items) [] := by
  have hdedup : dedupCalls info items [] = unrepeated info [] items :=
    dedupCalls_eq_unrepeated [] items
  rw [mergeItems_eq, keepItems_eq_staying, referencedCalls_dedupCalls, hdedup]

lemma unnamed_staying (before items after : List α) :
    unnamed info (staying info calls before items after) = unnamed info items := by
  induction items generalizing before with
  | nil => rfl
  | cons a items ih =>
    have hrest := ih (before ++ [a])
    unfold unnamed at hrest ⊢
    rw [staying]
    by_cases hs : Stays info calls before a (items ++ after)
    · rw [if_pos hs, List.filter_cons, List.filter_cons, hrest]
    · have hid : (info a).id ≠ "" := fun h => hs (.inl h)
      rw [if_neg hs, hrest, List.filter_cons_of_neg (by simpa using hid)]

lemma staying_pairwise (before items after : List α) :
    (staying info calls before items after).Pairwise
      fun a b => (info a).id = (info b).id → (info a).id = "" := by
  induction items generalizing before with
  | nil => exact .nil
  | cons a items ih =>
    rw [staying]
    by_cases hs : Stays info calls before a (items ++ after)
    · rw [if_pos hs]
      refine .cons (fun b hb hid => ?_) (ih _)
      obtain ⟨l, r, rfl, hstays⟩ := mem_staying.mp hb
      rw [List.append_assoc] at hs hstays
      exact hs.alone hstays hid.symm
    · rw [if_neg hs]
      exact ih _

/-- Of the items with one id one stays: the last one that an output refers to, or the last one. -/
lemma exists_mem_staying {items : List α} {x : String} (h : ∃ a ∈ items, (info a).id = x) :
    ∃ a ∈ staying info calls [] items [], (info a).id = x := by
  by_cases hrefers : ∃ a ∈ items, (info a).id = x ∧ Refers calls (info a)
  · obtain ⟨l, a, r, heq, ⟨hid, hr⟩, hlast⟩ := exists_last hrefers
    refine ⟨a, mem_staying.mpr ⟨l, r, heq, .inr ⟨fun b hb hb' hbr => ?_, .inl hr⟩⟩, hid⟩
    rw [List.append_nil] at hb
    exact hlast b hb ⟨hb'.trans hid, hbr⟩
  · obtain ⟨l, a, r, heq, hid, hlast⟩ := exists_last h
    have hnone : ∀ b ∈ items, (info b).id = (info a).id → ¬Refers calls (info b) :=
      fun b hb hb' hbr => hrefers ⟨b, hb, hb'.trans hid, hbr⟩
    refine ⟨a, mem_staying.mpr ⟨l, r, heq, .inr ⟨?_, .inr ⟨?_, ?_⟩⟩⟩, hid⟩
    · intro b hb
      rw [List.append_nil] at hb
      exact hnone b (heq ▸ List.mem_append_right _ (List.mem_cons_of_mem _ hb))
    · exact fun b hb => hnone b (heq ▸ List.mem_append_left _ hb)
    · intro b hb he
      rw [List.append_nil] at hb
      exact hlast b hb (he.trans hid)

lemma distinct_mergeItems (items : List α) : Distinct info (mergeItems info items) := by
  have hcalls := (@dedupCalls_pairwise _ info items []).1
  refine ⟨?_, ?_⟩
  · rw [mergeItems_eq_staying]
    exact staying_pairwise _ _ _
  · rw [mergeItems_eq, keepItems_eq_staying]
    exact hcalls.sublist (staying_sublist _ _ _)

lemma mergeItems_mergeItems (items : List α) :
    mergeItems info (mergeItems info items) = mergeItems info items :=
  mergeItems_of_distinct (distinct_mergeItems items)

end Merge

open Merge

/-- **The normal form.** What is left of the items is some of them in their order, with ids and
call ids of their own. The items without an id are left but for the repeated calls, and so is one
item for each id of an item that is no repeated call. Joining what is left changes nothing. -/
theorem mergeWebSocketItems_normal_form (groups : List (List Raw)) :
    (mergeWebSocketItems groups).Sublist groups.flatten ∧
      Distinct ItemMetadata.ofRaw (mergeWebSocketItems groups) ∧
      unnamed ItemMetadata.ofRaw (mergeWebSocketItems groups) =
        unnamed ItemMetadata.ofRaw (unrepeated ItemMetadata.ofRaw [] groups.flatten) ∧
      (∀ before a after, groups.flatten = before ++ a :: after →
        ¬Repeats ItemMetadata.ofRaw before a →
          ((ItemMetadata.ofRaw a).id = "" → a ∈ mergeWebSocketItems groups) ∧
          ∃ b ∈ mergeWebSocketItems groups,
            (ItemMetadata.ofRaw b).id = (ItemMetadata.ofRaw a).id) ∧
      mergeWebSocketItems [mergeWebSocketItems groups] = mergeWebSocketItems groups := by
  have hunnamed : unnamed ItemMetadata.ofRaw (mergeWebSocketItems groups) =
      unnamed ItemMetadata.ofRaw (unrepeated ItemMetadata.ofRaw [] groups.flatten) := by
    rw [mergeWebSocketItems, mergeItems_eq_staying, unnamed_staying]
  refine ⟨mergeItems_sublist _, distinct_mergeItems _, hunnamed,
    fun before a after heq hfresh => ?_,
    ?_⟩
  · have hmem : a ∈ unrepeated ItemMetadata.ofRaw [] groups.flatten := by
      rw [← dedupCalls_eq_unrepeated, mem_dedupCalls]
      exact ⟨before, after, heq, hfresh⟩
    refine ⟨fun hid => ?_, ?_⟩
    · have hin : a ∈ unnamed ItemMetadata.ofRaw (mergeWebSocketItems groups) := by
        rw [hunnamed]
        exact List.mem_filter.mpr ⟨hmem, decide_eq_true hid⟩
      exact (List.mem_filter.mp hin).1
    · rw [mergeWebSocketItems, mergeItems_eq_staying]
      exact exists_mem_staying ⟨a, hmem, rfl⟩
  · rw [mergeWebSocketItems, mergeWebSocketItems, List.flatten_singleton]
    exact mergeItems_mergeItems _

end CodexOne
