import CodexOne.Merging
import CodexOne.Lib.Preferred

/-!
Joining the items of a conversation turn by turn.

Items are told apart by their places, since equal items may come several times. Of those with one id
the one that stays goes before the others, so that joining is choosing by id, and joining in stages
is choosing in rounds: the first stage does not know the outputs of the second one, and the second
one does not know the outputs that the first one has left out.
-/

namespace CodexOne

namespace Merge

open Preferred

variable {α : Type} (info : α → ItemMetadata)

def idOf (e : α × ℕ) : Option String :=
  if (info e.1).id = "" then none else some (info e.1).id

/-- The item is a tool call whose call id came before. -/
def Again (S : Set (α × ℕ)) (e : α × ℕ) : Prop :=
  (info e.1).isToolCall ∧
    ∃ f ∈ S, f.2 < e.2 ∧ (info f.1).isToolCall ∧ (info f.1).callID = (info e.1).callID

/-- An output among the items refers to the item. -/
def Answered (S : Set (α × ℕ)) (e : α × ℕ) : Prop :=
  (info e.1).callID ≠ "" ∧
    ∃ f ∈ S, (info f.1).isCallOutput ∧ (info f.1).callID = (info e.1).callID

/-- The items without the calls that came before. -/
def fresh (S : Set (α × ℕ)) : Set (α × ℕ) := {e | e ∈ S ∧ ¬Again info S e}

/-- The items that stay when `S` are joined. -/
def kept (S : Set (α × ℕ)) : Set (α × ℕ) :=
  chosen (idOf info) Prod.snd (Answered info S) (fresh info S)

/-- What is left of the items `X`, with those of `Y` that are no calls that came before. -/
def remaining (X Y : Set (α × ℕ)) : Set (α × ℕ) :=
  kept info X ∪ {e | e ∈ Y ∧ ¬Again info (X ∪ Y) e}

/-- The calls of `Y` that came before in `X`, but not in what is left of `X`. -/
def recalled (X Y : Set (α × ℕ)) : Set (α × ℕ) :=
  {e | e ∈ Y ∧ Again info (X ∪ Y) e ∧ ¬Again info (kept info X ∪ Y) e}

/-- The conditions under which items are joined in stages as at once. -/
structure StagedAt (X Y : Set (α × ℕ)) : Prop where
  /-- An item of `X` that only outputs of `Y` refer to, and that no such item with its id follows,
  is the last one of `X` with its id, and no output of `X` refers to one before it. -/
  later : Decided (idOf info) Prod.snd (Answered info X) (Answered info (X ∪ Y))
    (fresh info X) (fresh info (X ∪ Y))
  /-- An item that only outputs refer to that the first stage leaves out, and that no item follows
  with its id that an output refers to, is the last one that remains with its id, and no other
  output refers to one before it. -/
  earlier : Decided (idOf info) Prod.snd (Answered info (kept info X ∪ Y)) (Answered info (X ∪ Y))
    (remaining info X Y) (remaining info X Y)
  /-- A call that the first stage makes new again goes behind one that remains with its id. -/
  again : ∀ e ∈ recalled info X Y, idOf info e ≠ none ∧ ∃ f ∈ remaining info X Y,
    idOf info f = idOf info e ∧ Ahead Prod.snd (Answered info (kept info X ∪ Y)) f e

/-- Items that are joined in stages as at once, each of them at its place. -/
def Staged (X Y : List α) : Prop :=
  StagedAt info {e | e ∈ X.zipIdx} {e | e ∈ Y.zipIdx X.length}

variable {info} {S T X Y : Set (α × ℕ)} {e f : α × ℕ}

lemma idOf_eq_none : idOf info e = none ↔ (info e.1).id = "" := by
  unfold idOf
  split_ifs with h <;> simp [h]

lemma idOf_eq (h : (info e.1).id ≠ "") :
    idOf info f = idOf info e ↔ (info f.1).id = (info e.1).id := by
  unfold idOf
  rw [if_neg h]
  split_ifs with hf
  · exact iff_of_false nofun fun he => h (he ▸ hf)
  · exact Option.some_inj

lemma Again.mono (hST : S ⊆ T) (h : Again info S e) : Again info T e := by
  obtain ⟨hcall, f, hf, hfe⟩ := h
  exact ⟨hcall, f, hST hf, hfe⟩

lemma Answered.mono (hST : S ⊆ T) (h : Answered info S e) : Answered info T e := by
  obtain ⟨hne, f, hf, hfe⟩ := h
  exact ⟨hne, f, hST hf, hfe⟩

lemma kept_subset (S : Set (α × ℕ)) : kept info S ⊆ fresh info S := fun _ h => h.1

lemma fresh_subset (S : Set (α × ℕ)) : fresh info S ⊆ S := fun _ h => h.1

lemma kept_union_subset (X Y : Set (α × ℕ)) : kept info X ∪ Y ⊆ X ∪ Y :=
  Set.union_subset_union_left Y ((kept_subset X).trans (fresh_subset X))

section Rounds

variable (hlt : ∀ e ∈ X, ∀ f ∈ Y, e.2 < f.2)
include hlt

lemma again_union (he : e ∈ X) : Again info (X ∪ Y) e ↔ Again info X e := by
  refine ⟨fun ⟨hcall, f, hf, hfe, hf'⟩ => ⟨hcall, f, hf.resolve_right fun hfY => ?_, hfe, hf'⟩,
    Again.mono Set.subset_union_left⟩
  have := hlt e he f hfY
  omega

lemma fresh_union :
    fresh info (X ∪ Y) = fresh info X ∪ {e | e ∈ Y ∧ ¬Again info (X ∪ Y) e} := by
  ext e
  constructor
  · rintro ⟨he | he, hagain⟩
    · exact .inl ⟨he, fun h => hagain ((again_union hlt he).mpr h)⟩
    · exact .inr ⟨he, hagain⟩
  · rintro (⟨he, hagain⟩ | ⟨he, hagain⟩)
    · exact ⟨.inl he, fun h => hagain ((again_union hlt he).mp h)⟩
    · exact ⟨.inr he, hagain⟩

lemma fresh_kept_union :
    fresh info (kept info X ∪ Y) = remaining info X Y ∪ recalled info X Y := by
  ext e
  constructor
  · rintro ⟨he | he, hagain⟩
    · exact .inl (.inl he)
    · -- the call was made by an item of the first stage that did not stay
      by_cases hall : Again info (X ∪ Y) e
      · exact .inr ⟨he, hall, hagain⟩
      · exact .inl (.inr ⟨he, hall⟩)
  · rintro ((he | ⟨he, hall⟩) | ⟨he, -, hagain⟩)
    · refine ⟨.inl he, fun h => ?_⟩
      have hX := (kept_subset X he)
      exact hX.2 ((again_union hlt hX.1).mp (h.mono (kept_union_subset X Y)))
    · exact ⟨.inr he, fun h => hall (h.mono (kept_union_subset X Y))⟩
    · exact ⟨.inr he, hagain⟩

/-- **Joining in stages.** The same items stay as when all of them are joined at once exactly under
the conditions. -/
theorem kept_union_iff (hfin : (X ∪ Y).Finite) (hplace : (X ∪ Y).InjOn Prod.snd) :
    kept info (kept info X ∪ Y) = kept info (X ∪ Y) ↔ StagedAt info X Y := by
  have hall : fresh info X ∪ {e | e ∈ Y ∧ ¬Again info (X ∪ Y) e} ∪ recalled info X Y ⊆ X ∪ Y := by
    rintro e ((he | he) | he)
    · exact .inl he.1
    · exact .inr he.1
    · exact .inr he.1
  have hXY : ∀ e ∈ fresh info X, e ∉ {e | e ∈ Y ∧ ¬Again info (X ∪ Y) e} :=
    fun e he he' => lt_irrefl _ (hlt e he.1 e he'.1)
  have hagain : ∀ e ∈ fresh info X ∪ {e | e ∈ Y ∧ ¬Again info (X ∪ Y) e},
      e ∉ recalled info X Y := by
    rw [← fresh_union hlt]
    exact fun e he he' => he.2 he'.2.1
  have hrounds := @chosen_rounds_iff _ _ (idOf info) Prod.snd (Answered info X)
    (Answered info (kept info X ∪ Y)) (Answered info (X ∪ Y)) _ _ _ (hfin.subset hall)
    (hplace.mono hall) hXY hagain (fun _ => Answered.mono Set.subset_union_left)
    (fun _ => Answered.mono (kept_union_subset X Y))
  rw [← fresh_union hlt] at hrounds
  rw [kept, fresh_kept_union hlt, kept, remaining]
  exact hrounds.trans ⟨fun ⟨h1, h2, h3⟩ => ⟨h1, h2, h3⟩, fun h => ⟨h.later, h.earlier, h.again⟩⟩

lemma kept_eq_of_image (hdiffer : ∀ e ∈ X ∪ Y, ∀ f ∈ X ∪ Y, e.1 = f.1 → (info e.1).id ≠ "" → e = f)
    (h : Prod.fst '' kept info (kept info X ∪ Y) = Prod.fst '' kept info (X ∪ Y)) :
    kept info (kept info X ∪ Y) = kept info (X ∪ Y) := by
  have hfirst : kept info (kept info X ∪ Y) ⊆ X ∪ Y := fun e he =>
    kept_union_subset X Y (fresh_subset _ (kept_subset _ he))
  have hall : kept info (X ∪ Y) ⊆ X ∪ Y := (kept_subset _).trans (fresh_subset _)
  ext e
  by_cases hid : (info e.1).id = ""
  · have hkey := idOf_eq_none.mpr hid
    constructor
    · intro he
      refine chosen_of_none ?_ hkey
      rw [fresh_union hlt]
      have hfresh := kept_subset _ he
      rw [fresh_kept_union hlt] at hfresh
      rcases hfresh with (heX | heY) | ⟨heY, ⟨hcall, g, hg, hge, hgcall⟩, hagain⟩
      · exact .inl (kept_subset _ heX)
      · exact .inr heY
      · -- the call with its call id would have stayed
        exfalso
        have hgX : g ∈ X := hg.resolve_right fun hgY => hagain ⟨hcall, g, .inr hgY, hge, hgcall⟩
        obtain ⟨f, hf, hfe⟩ : e.1 ∈ Prod.fst '' kept info (X ∪ Y) := h ▸ ⟨e, he, rfl⟩
        obtain ⟨hfXY, hfagain⟩ := kept_subset _ hf
        rcases hfXY with hfX | hfY
        · have hfX' : f ∈ kept info X := chosen_of_none
            ⟨hfX, fun hx => hfagain (hx.mono Set.subset_union_left)⟩ (idOf_eq_none.mpr (hfe ▸ hid))
          exact hagain ⟨hcall, f, .inl hfX', hlt f hfX e heY, hfe ▸ hcall, by rw [hfe]⟩
        · exact hfagain ⟨hfe ▸ hcall, g, .inl hgX, hlt g hgX f hfY, hfe ▸ hgcall⟩
    · intro he
      refine chosen_of_none ?_ hkey
      have hfresh := kept_subset _ he
      rw [fresh_union hlt] at hfresh
      rw [fresh_kept_union hlt]
      exact .inl (hfresh.imp_left fun heX => chosen_of_none heX hkey)
  · constructor
    · intro he
      obtain ⟨f, hf, hfe⟩ : e.1 ∈ Prod.fst '' kept info (X ∪ Y) := h ▸ ⟨e, he, rfl⟩
      rwa [hdiffer e (hfirst he) f (hall hf) hfe.symm hid]
    · intro he
      obtain ⟨f, hf, hfe⟩ : e.1 ∈ Prod.fst '' kept info (kept info X ∪ Y) := h ▸ ⟨e, he, rfl⟩
      rwa [hdiffer e (hall he) f (hfirst hf) hfe.symm hid]

end Rounds

section Lists

variable {items : List (α × ℕ)} (hitems : items.Pairwise fun e f => e.2 < f.2)
include hitems

lemma mem_around {l r : List (α × ℕ)} (h : items = l ++ e :: r) (f : α × ℕ) :
    (f ∈ l ↔ f ∈ items ∧ f.2 < e.2) ∧ (f ∈ r ↔ f ∈ items ∧ e.2 < f.2) := by
  subst h
  obtain ⟨-, hr, hlr⟩ := List.pairwise_append.mp hitems
  have hl : ∀ g ∈ l, g.2 < e.2 := fun g hg => hlr g hg e List.mem_cons_self
  have hr : ∀ g ∈ r, e.2 < g.2 := (List.pairwise_cons.mp hr).1
  simp only [List.mem_append, List.mem_cons]
  refine ⟨⟨fun hf => ⟨.inl hf, hl f hf⟩, ?_⟩, fun hf => ⟨.inr (.inr hf), hr f hf⟩, ?_⟩
  · rintro ⟨hf | rfl | hf, hlt⟩
    · exact hf
    · exact absurd hlt (lt_irrefl _)
    · exact absurd (hr f hf) hlt.asymm
  · rintro ⟨hf | rfl | hf, hlt⟩
    · exact absurd (hl f hf) hlt.asymm
    · exact absurd hlt (lt_irrefl _)
    · exact hf

lemma injOn_place : {e | e ∈ items}.InjOn Prod.snd := by
  intro e he f hf hplace
  obtain ⟨l, r, rfl⟩ := List.append_of_mem he
  have haround := mem_around hitems rfl f
  rcases List.mem_append.mp hf with hl | hr
  · exact absurd hplace (haround.1.mp hl).2.ne'
  · rcases List.mem_cons.mp hr with heq | hr
    · exact heq.symm
    · exact absurd hplace (haround.2.mp hr).2.ne

lemma repeats_iff_again {l r : List (α × ℕ)} (h : items = l ++ e :: r) :
    Repeats (info ∘ Prod.fst) l e ↔ Again info {e | e ∈ items} e := by
  refine and_congr_right fun _ => exists_congr fun f => ?_
  rw [(mem_around hitems h f).1, and_assoc]
  rfl

lemma exists_fresh_after {l r : List (α × ℕ)} (h : items = l ++ e :: r)
    (p : ItemMetadata → Prop) : Followed (info ∘ Prod.fst) l e r p ↔
      ∃ f ∈ fresh info {e | e ∈ items}, e.2 < f.2 ∧ (info f.1).id = (info e.1).id ∧
        p (info f.1) := by
  constructor
  · rintro ⟨u, f, v, rfl, hfresh, hf⟩
    have hsplit : items = (l ++ e :: u) ++ f :: v := by rw [h, List.append_assoc]; rfl
    rw [repeats_iff_again hitems hsplit] at hfresh
    have hmem := ((mem_around hitems h f).2.mp (by simp))
    exact ⟨f, ⟨hmem.1, hfresh⟩, hmem.2, hf⟩
  · rintro ⟨f, ⟨hmem, hfresh⟩, hlt, hf⟩
    obtain ⟨u, v, rfl⟩ := List.append_of_mem ((mem_around hitems h f).2.mpr ⟨hmem, hlt⟩)
    have hsplit : items = (l ++ e :: u) ++ f :: v := by rw [h, List.append_assoc]; rfl
    exact ⟨u, f, v, rfl, by rwa [repeats_iff_again hitems hsplit], hf⟩

lemma exists_fresh_before {l r : List (α × ℕ)} (h : items = l ++ e :: r)
    (p : ItemMetadata → Prop) : Preceded (info ∘ Prod.fst) l e p ↔
      ∃ f ∈ fresh info {e | e ∈ items}, f.2 < e.2 ∧ (info f.1).id = (info e.1).id ∧
        p (info f.1) := by
  constructor
  · rintro ⟨u, f, v, rfl, hfresh, hf⟩
    have hsplit : items = u ++ f :: (v ++ e :: r) := by rw [h, List.append_assoc]; rfl
    rw [repeats_iff_again hitems hsplit] at hfresh
    have hmem := ((mem_around hitems h f).1.mp (by simp))
    exact ⟨f, ⟨hmem.1, hfresh⟩, hmem.2, hf⟩
  · rintro ⟨f, ⟨hmem, hfresh⟩, hlt, hf⟩
    obtain ⟨u, v, rfl⟩ := List.append_of_mem ((mem_around hitems h f).1.mpr ⟨hmem, hlt⟩)
    have hsplit : items = u ++ f :: (v ++ e :: r) := by rw [h, List.append_assoc]; rfl
    exact ⟨u, f, v, rfl, by rwa [repeats_iff_again hitems hsplit], hf⟩

omit hitems in
lemma refers_iff_answered :
    Refers (referencedCalls (info ∘ Prod.fst) items) (info e.1) ↔
      Answered info {e | e ∈ items} e := by
  rw [Refers, mem_referencedCalls, and_comm]
  rfl

lemma left_iff_ahead {l r : List (α × ℕ)} (h : items = l ++ e :: r) :
    Left (info ∘ Prod.fst) (referencedCalls (info ∘ Prod.fst) items) l e r ↔
      idOf info e = none ∨ ∀ f ∈ fresh info {e | e ∈ items}, idOf info f = idOf info e →
        f ≠ e → Ahead Prod.snd (Answered info {e | e ∈ items}) e f := by
  have hmem : e ∈ items := by simp [h]
  by_cases hid : (info e.1).id = ""
  · exact iff_of_true (.inl hid) (.inl (idOf_eq_none.mpr hid))
  have hkey : idOf info e ≠ none := fun hk => hid (idOf_eq_none.mp hk)
  rw [Left, Function.comp_apply, or_iff_right hid, or_iff_right hkey, exists_fresh_after hitems h,
    exists_fresh_after hitems h, exists_fresh_before hitems h]
  simp only [refers_iff_answered, idOf_eq hid]
  constructor
  · rintro ⟨hafter, hown⟩ f hf hfe hne
    rcases lt_trichotomy f.2 e.2 with hlt | heq | hgt
    · -- the other one is earlier, so it loses unless it alone is answered
      by_cases he : Answered info {e | e ∈ items} e
      · exact .inr ⟨fun _ => he, hlt⟩
      · exact .inr ⟨fun hans => absurd ⟨f, hf, hlt, hfe, hans⟩ (hown.resolve_left he).1, hlt⟩
    · exact absurd (injOn_place hitems hf.1 hmem heq) hne
    · -- the other one is later, so it has to be without an answer
      refine .inl ⟨?_, fun hans => hafter ⟨f, hf, hgt, hfe, hans⟩⟩
      exact hown.resolve_right fun hno => hno.2 ⟨f, hf, hgt, hfe, trivial⟩
  · intro hahead
    refine ⟨?_, ?_⟩
    · rintro ⟨f, hf, hgt, hfe, hans⟩
      rcases hahead f hf hfe (fun hfe => hgt.ne' (hfe ▸ rfl)) with ⟨-, hno⟩ | ⟨-, hlt⟩
      · exact hno hans
      · exact hlt.asymm hgt
    · refine or_iff_not_imp_left.mpr fun he => ⟨?_, ?_⟩
      · rintro ⟨f, hf, hlt, hfe, hans⟩
        rcases hahead f hf hfe (fun hfe => hlt.ne (hfe ▸ rfl)) with ⟨he', -⟩ | ⟨hans', -⟩
        · exact he he'
        · exact he (hans' hans)
      · rintro ⟨f, hf, hgt, hfe, -⟩
        rcases hahead f hf hfe (fun hfe => hgt.ne' (hfe ▸ rfl)) with ⟨he', -⟩ | ⟨-, hlt⟩
        · exact he he'
        · exact hlt.asymm hgt

/-- **What `mergeWebSocketItems` leaves.** Of the items with one id the one stays that goes before
the others. -/
lemma mem_mergeItems_iff :
    e ∈ mergeItems (info ∘ Prod.fst) items ↔ e ∈ kept info {e | e ∈ items} := by
  rw [mem_mergeItems]
  constructor
  · rintro ⟨l, r, h, hfresh, hleft⟩
    rw [repeats_iff_again hitems h] at hfresh
    exact ⟨⟨by simp [h], hfresh⟩, (left_iff_ahead hitems h).mp hleft⟩
  · rintro ⟨⟨hmem, hfresh⟩, hkey⟩
    obtain ⟨l, r, h⟩ := List.append_of_mem hmem
    exact ⟨l, r, h, by rwa [repeats_iff_again hitems h], (left_iff_ahead hitems h).mpr hkey⟩

end Lists

/-! ### Joining items at their places -/

/-- `mergeWebSocketItems` on items with their places. -/
def mergePlaced (info : α → ItemMetadata) (items : List (α × ℕ)) : List (α × ℕ) :=
  mergeItems (info ∘ Prod.fst) items

lemma staying_map {β : Type} (f : β → α) (calls : List String) (before items after : List β) :
    staying info calls (before.map f) (items.map f) (after.map f) =
      (staying (info ∘ f) calls before items after).map f := by
  induction items generalizing before with
  | nil => rfl
  | cons a items ih =>
    have hstays : Stays info calls (before.map f) (f a) (items.map f ++ after.map f) ↔
        Stays (info ∘ f) calls before a (items ++ after) := by
      rw [← List.map_append]
      simp only [Stays, List.forall_mem_map, Function.comp_apply]
    have hrest := ih (before ++ [a])
    rw [List.map_append] at hrest
    rw [List.map_cons, staying, staying]
    by_cases hs : Stays (info ∘ f) calls before a (items ++ after)
    · rw [if_pos hs, if_pos (hstays.mpr hs), List.map_cons, ← hrest]
      rfl
    · rw [if_neg hs, if_neg fun h => hs (hstays.mp h), ← hrest]
      rfl

lemma dedupCalls_map {β : Type} (f : β → α) (items : List β) (seen : List String) :
    dedupCalls info (items.map f) seen = (dedupCalls (info ∘ f) items seen).map f := by
  induction items generalizing seen with
  | nil => rfl
  | cons a items ih =>
    rw [List.map_cons, dedupCalls, dedupCalls, ih, ih, Function.comp_apply]
    split_ifs <;> rfl

lemma referencedCalls_map {β : Type} (f : β → α) (items : List β) :
    referencedCalls info (items.map f) = referencedCalls (info ∘ f) items := by
  unfold referencedCalls
  rw [List.filter_map, List.map_map]
  rfl

lemma mergeItems_map {β : Type} (f : β → α) (items : List β) :
    mergeItems info (items.map f) = (mergeItems (info ∘ f) items).map f := by
  rw [mergeItems_eq, mergeItems_eq, keepItems_eq_staying, keepItems_eq_staying, dedupCalls_map,
    referencedCalls_map]
  exact staying_map f _ [] _ []

lemma mergePlaced_fst (items : List (α × ℕ)) :
    (mergePlaced info items).map Prod.fst = mergeItems info (items.map Prod.fst) :=
  (mergeItems_map Prod.fst items).symm

lemma zipIdx_pairwise (X : List α) (n : ℕ) : (X.zipIdx n).Pairwise fun e f => e.2 < f.2 := by
  induction X generalizing n with
  | nil => exact .nil
  | cons a X ih =>
    refine .cons (fun e he => ?_) (ih (n + 1))
    have := List.mem_zipIdx he
    omega

lemma eq_of_places {A B : List (α × ℕ)} (hA : A.Pairwise fun e f => e.2 < f.2)
    (hB : B.Pairwise fun e f => e.2 < f.2) (h : {e | e ∈ A} = {e | e ∈ B}) : A = B := by
  have hnodup {A : List (α × ℕ)} (hA : A.Pairwise fun e f => e.2 < f.2) : A.Nodup :=
    hA.imp fun hlt heq => hlt.ne (congrArg Prod.snd heq)
  have hperm : A.Perm B := (List.perm_ext_iff_of_nodup (hnodup hA) (hnodup hB)).mpr fun e =>
    Set.ext_iff.mp h e
  exact hperm.eq_of_pairwise (fun e f _ _ hef hfe => absurd hef hfe.asymm) hA hB

lemma setOf_mem_append (A B : List (α × ℕ)) :
    {e | e ∈ A ++ B} = {e | e ∈ A} ∪ {e | e ∈ B} :=
  Set.ext fun _ => List.mem_append

lemma setOf_mem_mergePlaced {items : List (α × ℕ)} (h : items.Pairwise fun e f => e.2 < f.2) :
    {e | e ∈ mergePlaced info items} = kept info {e | e ∈ items} :=
  Set.ext fun _ => mem_mergeItems_iff h

lemma mergePlaced_sublist (items : List (α × ℕ)) : (mergePlaced info items).Sublist items :=
  mergeItems_sublist items

section

variable (X Y : List α)

lemma zipIdx_stages : (X ++ Y).zipIdx = X.zipIdx ++ Y.zipIdx X.length := by
  rw [List.zipIdx_append, Nat.zero_add]

lemma places_stages : (X.zipIdx ++ Y.zipIdx X.length).Pairwise fun e f => e.2 < f.2 :=
  zipIdx_stages X Y ▸ zipIdx_pairwise _ _

lemma places_mergePlaced :
    (mergePlaced info X.zipIdx ++ Y.zipIdx X.length).Pairwise fun e f => e.2 < f.2 :=
  (places_stages X Y).sublist ((mergePlaced_sublist _).append_right _)

lemma setOf_mem_stages :
    {e | e ∈ mergePlaced info (mergePlaced info X.zipIdx ++ Y.zipIdx X.length)} =
        kept info (kept info {e | e ∈ X.zipIdx} ∪ {e | e ∈ Y.zipIdx X.length}) ∧
      {e | e ∈ mergePlaced info (X ++ Y).zipIdx} =
        kept info ({e | e ∈ X.zipIdx} ∪ {e | e ∈ Y.zipIdx X.length}) := by
  rw [setOf_mem_mergePlaced (places_mergePlaced X Y), setOf_mem_mergePlaced (zipIdx_pairwise _ _),
    zipIdx_stages, setOf_mem_append, setOf_mem_append, setOf_mem_mergePlaced (zipIdx_pairwise _ _)]
  exact ⟨rfl, rfl⟩

/-- Items are joined in stages, each of them at its place, exactly under the conditions. -/
lemma mergePlaced_stages_iff :
    mergePlaced info (mergePlaced info X.zipIdx ++ Y.zipIdx X.length) =
      mergePlaced info (X ++ Y).zipIdx ↔ Staged info X Y := by
  have hset : mergePlaced info (mergePlaced info X.zipIdx ++ Y.zipIdx X.length) =
      mergePlaced info (X ++ Y).zipIdx ↔
        {e | e ∈ mergePlaced info (mergePlaced info X.zipIdx ++ Y.zipIdx X.length)} =
          {e | e ∈ mergePlaced info (X ++ Y).zipIdx} :=
    ⟨fun h => by rw [h], eq_of_places ((places_mergePlaced X Y).sublist (mergePlaced_sublist _))
      ((zipIdx_pairwise _ _).sublist (mergePlaced_sublist _))⟩
  rw [hset, (setOf_mem_stages X Y).1, (setOf_mem_stages X Y).2]
  refine kept_union_iff (fun e he f hf =>
    (List.pairwise_append.mp (places_stages X Y)).2.2 e he f hf) ?_ ?_
  · exact setOf_mem_append _ _ ▸ List.finite_toSet _
  · exact setOf_mem_append _ _ ▸ injOn_place (places_stages X Y)

end

lemma mergeItems_stages (X Y : List α) :
    mergeItems info (mergeItems info X ++ Y) =
      (mergePlaced info (mergePlaced info X.zipIdx ++ Y.zipIdx X.length)).map Prod.fst := by
  rw [mergePlaced_fst, List.map_append, mergePlaced_fst, List.zipIdx_map_fst, List.zipIdx_map_fst]

lemma mergeItems_zipIdx (X : List α) :
    mergeItems info X = (mergePlaced info X.zipIdx).map Prod.fst := by
  rw [mergePlaced_fst, List.zipIdx_map_fst]

lemma Staged.mergeItems_append {X Y : List α} (h : Staged info X Y) :
    mergeItems info (mergeItems info X ++ Y) = mergeItems info (X ++ Y) := by
  rw [mergeItems_stages, mergeItems_zipIdx (X ++ Y), (mergePlaced_stages_iff X Y).mpr h]

lemma pairwise_places {X Y : List α} {R : α → α → Prop} [Std.Symm R] (h : (X ++ Y).Pairwise R)
    {e f : α × ℕ} (he : e ∈ X.zipIdx ++ Y.zipIdx X.length)
    (hf : f ∈ X.zipIdx ++ Y.zipIdx X.length) (hne : e ≠ f) : R e.1 f.1 := by
  rw [← List.zipIdx_map_fst 0 (X ++ Y), List.pairwise_map, zipIdx_stages] at h
  have hsymm : Std.Symm fun e f : α × ℕ => R e.1 f.1 := ⟨fun _ _ h => Std.Symm.symm _ _ h⟩
  exact h.forall he hf hne

/-- When equal items have no id, the items are joined in stages as at once only under the
conditions. -/
lemma staged_of_eq {X Y : List α} (hdiffer : (X ++ Y).Pairwise fun x y => x = y → (info x).id = "")
    (h : mergeItems info (mergeItems info X ++ Y) = mergeItems info (X ++ Y)) :
    Staged info X Y := by
  have hsymm : Std.Symm fun x y : α => x = y → (info x).id = "" :=
    ⟨fun x y hxy heq => heq ▸ hxy heq.symm⟩
  have himage : Prod.fst '' {e | e ∈ mergePlaced info (mergePlaced info X.zipIdx ++
      Y.zipIdx X.length)} = Prod.fst '' {e | e ∈ mergePlaced info (X ++ Y).zipIdx} := by
    rw [mergeItems_stages, mergeItems_zipIdx (X ++ Y)] at h
    ext x
    simpa only [List.mem_map, Set.mem_image, Set.mem_ofPred_eq]
      using Iff.of_eq (congrArg (x ∈ ·) h)
  obtain ⟨hstages, hatOnce⟩ := @setOf_mem_stages _ info X Y
  rw [← mergePlaced_stages_iff]
  refine eq_of_places ((places_mergePlaced X Y).sublist (mergePlaced_sublist _))
    ((zipIdx_pairwise _ _).sublist (mergePlaced_sublist _)) ?_
  rw [hstages, hatOnce] at himage ⊢
  refine kept_eq_of_image (fun e he f hf => (List.pairwise_append.mp (places_stages X Y)).2.2 e he f
    hf) (fun e he f hf heq hid => ?_) himage
  rw [← setOf_mem_append] at he hf
  by_contra hne
  exact hid (pairwise_places hdiffer he hf hne heq)

lemma Distinct.staged {X Y : List α} (h : Distinct info (X ++ Y)) : Staged info X Y := by
  have hids : Std.Symm fun a b : α => (info a).id = (info b).id → (info a).id = "" :=
    ⟨fun a b hab heq => heq ▸ hab heq.symm⟩
  have hcalls : Std.Symm fun a b : α => (info a).isToolCall → (info b).isToolCall →
      (info a).callID ≠ (info b).callID := ⟨fun a b hab ha hb => (hab hb ha).symm⟩
  have hmem {e : α × ℕ} (he : e ∈ {e | e ∈ X.zipIdx} ∪ {e | e ∈ Y.zipIdx X.length}) :
      e ∈ X.zipIdx ++ Y.zipIdx X.length := by rwa [← setOf_mem_append] at he
  -- so no two of the items share an id
  have halone {e f : α × ℕ} (he : e ∈ {e | e ∈ X.zipIdx} ∪ {e | e ∈ Y.zipIdx X.length})
      (hf : f ∈ {e | e ∈ X.zipIdx} ∪ {e | e ∈ Y.zipIdx X.length}) (hkey : idOf info e ≠ none)
      (hfe : idOf info f = idOf info e) : f = e := by
    have hid : (info e.1).id ≠ "" := fun hid => hkey (idOf_eq_none.mpr hid)
    by_contra hne
    exact hid (pairwise_places h.ids (hmem he) (hmem hf) (Ne.symm hne) ((idOf_eq hid).mp hfe).symm)
  have hremaining {e : α × ℕ}
      (he : e ∈ remaining info {e | e ∈ X.zipIdx} {e | e ∈ Y.zipIdx X.length}) :
      e ∈ {e | e ∈ X.zipIdx} ∪ {e | e ∈ Y.zipIdx X.length} :=
    he.imp (fun heX => fresh_subset _ (kept_subset _ heX)) fun heY => heY.1
  refine ⟨fun e he hkey _ _ _ f hf hfe hne => absurd (halone (.inl he.1) (.inl hf.1) hkey hfe) hne,
    fun e he hkey _ _ _ f hf hfe hne =>
      absurd (halone (hremaining he) (hremaining hf) hkey hfe) hne, ?_⟩
  -- and no call comes again
  rintro e ⟨he, ⟨hcall, f, hf, hlt, hfcall, hfe⟩, -⟩
  have hne : e ≠ f := fun heq => hlt.ne (congrArg Prod.snd heq.symm)
  exact absurd hfe.symm (pairwise_places h.calls (hmem (.inr he)) (hmem hf) hne hcall hfcall)

end Merge

open Merge

/-! ### Turns -/

/-- A turn that goes on joins its items in stages, input before output. -/
def StagedTurn (_c : Conversation) (ledger : List CommittedTurn) (t : CommittedTurn) : Prop :=
  t.plan.reset = false →
    Staged ItemMetadata.ofRaw (transcript ledger) t.plan.currentInput ∧
      Staged ItemMetadata.ofRaw (transcript ledger ++ t.plan.currentInput) t.event.output

lemma mergeWebSocketItems_pair (a b : List Raw) :
    mergeWebSocketItems [a, b] = mergeItems ItemMetadata.ofRaw (a ++ b) := by
  simp [mergeWebSocketItems]

lemma history_committed {c : Conversation} {ledger : List CommittedTurn} {t : CommittedTurn}
    {generation : ℕ} (h : c.history = mergeItems ItemMetadata.ofRaw (transcript ledger))
    (ht : StagedTurn c ledger t) :
    (c.committed t.plan t.event generation).history =
      mergeItems ItemMetadata.ofRaw (transcript (Connection.nextLedger ledger (some t))) := by
  change c.nextHistory t.plan t.event.output = _
  unfold Conversation.nextHistory Connection.nextLedger
  dsimp only
  cases hr : t.plan.reset with
  | true =>
    rw [if_pos rfl, if_pos rfl, mergeWebSocketItems_pair]
    simp [transcript]
  | false =>
    obtain ⟨hinput, houtput⟩ := ht hr
    rw [if_neg Bool.false_ne_true, if_neg Bool.false_ne_true, h, mergeWebSocketItems_pair,
      mergeWebSocketItems_pair, hinput.mergeItems_append, houtput.mergeItems_append,
      transcript_concat, List.append_assoc]

lemma history_of_run {k : Connection} {c : Conversation} {ledger : List CommittedTurn}
    (h : k.Run StagedTurn c ledger) :
    c.history = mergeItems ItemMetadata.ofRaw (transcript ledger) := by
  induction h with
  | start => rfl
  | @step c ledger h t hgood ih =>
    have hstep := turn_step k c t
    generalize k.committedTurn c t = ct at hstep hgood
    generalize (k.turn c t).2 = c' at hstep
    cases hstep with
    | idle i => exact ih
    | commit => exact history_committed ih (hgood _ rfl)

/-- **Joining in stages.** Of the items at their places the same ones stay in stages as at once
exactly under the conditions, which items with ids of their own meet. So the items that are left are
the same under the conditions, and, where equal items have no id, only under them. The history of a
run whose turns meet the conditions, and the items a turn after it replays, are those of the whole
transcript joined at once. -/
theorem mergeWebSocketItems_staged (a b c : List Raw) :
    (mergePlaced ItemMetadata.ofRaw (mergePlaced ItemMetadata.ofRaw (a ++ b).zipIdx ++
          c.zipIdx (a ++ b).length) = mergePlaced ItemMetadata.ofRaw (a ++ b ++ c).zipIdx ↔
        Staged ItemMetadata.ofRaw (a ++ b) c) ∧
    (Distinct ItemMetadata.ofRaw (a ++ b ++ c) → Staged ItemMetadata.ofRaw (a ++ b) c) ∧
    (Staged ItemMetadata.ofRaw (a ++ b) c →
      mergeWebSocketItems [mergeWebSocketItems [a, b], c] = mergeWebSocketItems [a, b, c]) ∧
    ((a ++ b ++ c).Pairwise (fun x y => x = y → (ItemMetadata.ofRaw x).id = "") →
      (mergeWebSocketItems [mergeWebSocketItems [a, b], c] = mergeWebSocketItems [a, b, c] ↔
        Staged ItemMetadata.ofRaw (a ++ b) c)) ∧
    ∀ (k : Connection) (conversation : Conversation) (ledger : List CommittedTurn),
      k.Run StagedTurn conversation ledger →
        conversation.history = mergeWebSocketItems [transcript ledger] ∧
        ∀ (turn : Conversation.Turn) (input : List Raw), turn.reset = false →
          Staged ItemMetadata.ofRaw (transcript ledger) input →
            conversation.replayItems turn input =
              mergeWebSocketItems [transcript ledger, input] := by
  have hstaged : mergeWebSocketItems [mergeWebSocketItems [a, b], c] =
      mergeItems ItemMetadata.ofRaw (mergeItems ItemMetadata.ofRaw (a ++ b) ++ c) := by
    rw [mergeWebSocketItems_pair, mergeWebSocketItems_pair]
  have hall : mergeWebSocketItems [a, b, c] = mergeItems ItemMetadata.ofRaw (a ++ b ++ c) := by
    simp [mergeWebSocketItems]
  rw [hstaged, hall]
  refine ⟨mergePlaced_stages_iff _ _, Distinct.staged, Staged.mergeItems_append,
    fun hdiffer => ⟨staged_of_eq hdiffer, Staged.mergeItems_append⟩,
    fun k conversation ledger hrun => ?_⟩
  have hhistory := history_of_run hrun
  refine ⟨by simpa [mergeWebSocketItems] using hhistory, fun turn input hturn hinput => ?_⟩
  rw [Conversation.replayItems, hturn, if_neg Bool.false_ne_true, hhistory,
    mergeWebSocketItems_pair, mergeWebSocketItems_pair, hinput.mergeItems_append]

/-- A call that only the next turn answers is left out before its output comes. -/
theorem mergeWebSocketItems_stages_differ :
    mergeWebSocketItems [mergeWebSocketItems [[itemOf "x" "function_call" "k"],
        [itemOf "x" "message" ""]], [itemOf "y" "function_call_output" "k"]] ≠
      mergeWebSocketItems [[itemOf "x" "function_call" "k"], [itemOf "x" "message" ""],
        [itemOf "y" "function_call_output" "k"]] := by
  intro h
  have hmap := congrArg (List.map ItemMetadata.ofRaw) h
  revert hmap
  decide +kernel

end CodexOne
