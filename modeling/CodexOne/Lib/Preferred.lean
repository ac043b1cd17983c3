import Mathlib.Data.Set.Finite.Lemmas

/-!
Elements with keys, of which one of each key is chosen.

Of the elements with one key the last marked one is chosen, or else the last one; elements without
a key are all chosen. The elements may also be chosen in two rounds, with fewer marks: some of them
first, and what is chosen then together with the others. The result is the same exactly under the
conditions of `chosen_rounds_iff`.
-/

namespace CodexOne

namespace Preferred

variable {β κ : Type*}

/-- A marked element goes before one without a mark, and otherwise the later one before the
earlier one. -/
def Ahead (place : β → ℕ) (marked : β → Prop) (a b : β) : Prop :=
  marked a ∧ ¬marked b ∨ (marked b → marked a) ∧ place b < place a

/-- The elements that go before all others with their key. -/
def chosen (key : β → Option κ) (place : β → ℕ) (marked : β → Prop) (S : Set β) : Set β :=
  {a | a ∈ S ∧ (key a = none ∨ ∀ b ∈ S, key b = key a → b ≠ a → Ahead place marked a b)}

/-- An element that only the later marks mark, and that no element so marked follows, is the last
one with its key, and none before it has an earlier mark. -/
def Decided (key : β → Option κ) (place : β → ℕ) (few all : β → Prop) (S T : Set β) : Prop :=
  ∀ a ∈ S, key a ≠ none → all a → ¬few a →
    (∀ b ∈ T, key b = key a → place a < place b → ¬all b) →
      ∀ b ∈ S, key b = key a → b ≠ a → place b < place a ∧ ¬few b

variable {key : β → Option κ} {place : β → ℕ} {marked few mid all : β → Prop} {F G E S T : Set β}
  {a b c : β}

lemma Ahead.trans (hab : Ahead place marked a b) (hbc : Ahead place marked b c) :
    Ahead place marked a c := by
  rcases hab with ⟨ha, hb⟩ | ⟨hba, hlt⟩
  · rcases hbc with ⟨hb', -⟩ | ⟨hcb, -⟩
    · exact absurd hb' hb
    · exact .inl ⟨ha, fun hc => hb (hcb hc)⟩
  · rcases hbc with ⟨hb, hc⟩ | ⟨hcb, hlt'⟩
    · exact .inl ⟨hba hb, hc⟩
    · exact .inr ⟨fun hc => hba (hcb hc), hlt'.trans hlt⟩

lemma Ahead.asymm (hab : Ahead place marked a b) : ¬Ahead place marked b a := by
  rintro (⟨hb, ha⟩ | ⟨hba, hlt⟩)
  · rcases hab with ⟨ha', -⟩ | ⟨hba, -⟩
    · exact ha ha'
    · exact ha (hba hb)
  · rcases hab with ⟨ha, hb⟩ | ⟨-, hlt'⟩
    · exact hb (hba ha)
    · omega

lemma exists_chosen (hS : S.Finite) (hplace : S.InjOn place) (hb : b ∈ S) :
    ∃ a ∈ chosen key place marked S, key a = key b := by
  by_cases hmark : ∃ c ∈ S, key c = key b ∧ marked c
  · obtain ⟨c, hc⟩ := hmark
    obtain ⟨a, ⟨haS, hak, ham⟩, hmax⟩ := Set.exists_max_image
      {c | c ∈ S ∧ key c = key b ∧ marked c} place (hS.subset fun _ h => h.1) ⟨c, hc⟩
    refine ⟨a, ⟨haS, .inr fun d hd hdk hne => ?_⟩, hak⟩
    by_cases hdm : marked d
    · have hle := hmax d ⟨hd, hdk.trans hak, hdm⟩
      exact .inr ⟨fun _ => ham, lt_of_le_of_ne hle fun h => hne (hplace hd haS h)⟩
    · exact .inl ⟨ham, hdm⟩
  · obtain ⟨a, ⟨haS, hak⟩, hmax⟩ := Set.exists_max_image
      {c | c ∈ S ∧ key c = key b} place (hS.subset fun _ h => h.1) ⟨b, hb, rfl⟩
    refine ⟨a, ⟨haS, .inr fun d hd hdk hne => ?_⟩, hak⟩
    have hle := hmax d ⟨hd, hdk.trans hak⟩
    exact .inr ⟨fun hdm => absurd ⟨d, hd, hdk.trans hak, hdm⟩ hmark,
      lt_of_le_of_ne hle fun h => hne (hplace hd haS h)⟩

lemma chosen_unique (ha : a ∈ chosen key place marked S) (hb : b ∈ chosen key place marked S)
    (hkey : key a ≠ none) (hab : key b = key a) : a = b := by
  by_contra hne
  have h1 := ha.2.resolve_left hkey b hb.1 hab fun h => hne h.symm
  have h2 := hb.2.resolve_left (hab ▸ hkey) a ha.1 hab.symm hne
  exact h1.asymm h2

lemma chosen_anti (hST : S ⊆ T) (haS : a ∈ S) (ha : a ∈ chosen key place marked T) :
    a ∈ chosen key place marked S :=
  ⟨haS, ha.2.imp_right fun h b hb => h b (hST hb)⟩

lemma chosen_of_none (haS : a ∈ S) (hkey : key a = none) : a ∈ chosen key place marked S :=
  ⟨haS, .inl hkey⟩

lemma chosen_subset_iff (hT : T.Finite) (hplace : T.InjOn place) (hST : S ⊆ T)
    (hkept : ∀ a ∈ chosen key place marked T, key a ≠ none → a ∈ S) (haS : a ∈ S) :
    a ∈ chosen key place marked S ↔ a ∈ chosen key place marked T := by
  refine ⟨fun ha => ?_, chosen_anti hST haS⟩
  by_cases hkey : key a = none
  · exact chosen_of_none (hST haS) hkey
  · obtain ⟨c, hc, hck⟩ := exists_chosen hT hplace (hST haS)
    have hcS := chosen_anti hST (hkept c hc (hck ▸ hkey)) hc
    rwa [chosen_unique ha hcS hkey hck]

/-- Elements that others are ahead of make no difference. -/
lemma chosen_union_of_ahead (h : ∀ e ∈ E, ∃ f ∈ S, key f = key e ∧ Ahead place marked f e)
    (ha : a ∈ chosen key place marked S) : a ∈ chosen key place marked (S ∪ E) := by
  refine ⟨.inl ha.1, ha.2.imp_right fun hahead b hb hbk hne => ?_⟩
  rcases hb with hb | hb
  · exact hahead b hb hbk hne
  · obtain ⟨f, hf, hfb, hfirst⟩ := h b hb
    by_cases hfa : f = a
    · exact hfa ▸ hfirst
    · exact (hahead f hf (hfb.trans hbk) hfa).trans hfirst

lemma chosen_eq_of_keyed (hT : T.Finite) (hplace : T.InjOn place)
    (hkeys : ∀ a ∈ S, key a ≠ none → ∃ b ∈ T, key b = key a)
    (hplain : ∀ a, key a = none → (a ∈ S ↔ a ∈ T))
    (h : ∀ a ∈ chosen key place all T, key a ≠ none → a ∈ chosen key place mid S) :
    chosen key place mid S = chosen key place all T := by
  ext a
  by_cases hkey : key a = none
  · exact ⟨fun ha => chosen_of_none ((hplain a hkey).mp ha.1) hkey,
      fun ha => chosen_of_none ((hplain a hkey).mpr ha.1) hkey⟩
  · refine ⟨fun ha => ?_, fun ha => h a ha hkey⟩
    -- the element with its key that is chosen on the other side is chosen here, so it is this one
    obtain ⟨b, hb, hba⟩ := hkeys a ha.1 hkey
    obtain ⟨c, hc, hcb⟩ : ∃ c ∈ chosen key place all T, key c = key b :=
      exists_chosen hT hplace hb
    have hck : key c = key a := hcb.trans hba
    rwa [chosen_unique ha (h c hc (hck ▸ hkey)) hkey hck]

/-- **One round decides.** The elements that all marks choose are chosen by few of them. -/
lemma decided_iff (hST : S ⊆ T) (hplace : T.InjOn place) (hfew : ∀ a, few a → all a) :
    Decided key place few all S T ↔ ∀ a ∈ S, key a ≠ none →
      a ∈ chosen key place all T → a ∈ chosen key place few S := by
  constructor
  · intro h a haS hkey ha
    have hahead := ha.2.resolve_left hkey
    refine ⟨haS, .inr fun b hb hbk hne => ?_⟩
    by_cases hdecide : all a ∧ ¬few a
    · -- the mark of the element comes later
      have hb' := h a haS hkey hdecide.1 hdecide.2 (fun d hd hdk hlt hdm => by
        have hne' : d ≠ a := fun hda => absurd hlt (by rw [hda]; exact lt_irrefl _)
        rcases hahead d hd hdk hne' with ⟨-, hdn⟩ | ⟨-, hlt'⟩
        · exact hdn hdm
        · omega) b hb hbk hne
      exact .inr ⟨fun hbf => absurd hbf hb'.2, hb'.1⟩
    · have hsame : all a → few a := fun hall => not_not.mp fun hfa => hdecide ⟨hall, hfa⟩
      rcases hahead b (hST hb) hbk hne with ⟨haa, hban⟩ | ⟨hba, hlt⟩
      · exact .inl ⟨hsame haa, fun hbf => hban (hfew b hbf)⟩
      · exact .inr ⟨fun hbf => hsame (hba (hfew b hbf)), hlt⟩
  · intro h a haS hkey hall hfa hlast b hb hbk hne
    have ha : a ∈ chosen key place all T := by
      refine ⟨hST haS, .inr fun d hd hdk hdne => ?_⟩
      by_cases hdm : all d
      · have hnlt : ¬place a < place d := fun hlt => hlast d hd hdk hlt hdm
        have hne' : place d ≠ place a := fun hp => hdne (hplace hd (hST haS) hp)
        exact .inr ⟨fun _ => hall, by omega⟩
      · exact .inl ⟨hall, hdm⟩
    rcases (h a haS hkey ha).2.resolve_left hkey b hb hbk hne with ⟨hfa', -⟩ | ⟨hba, hlt⟩
    · exact absurd hfa' hfa
    · exact ⟨hlt, fun hbf => hfa (hba hbf)⟩

/-- **Two rounds.** Choosing first among `F`, and then among what is chosen, `G` and `E`, is
choosing among `F` and `G` at once, exactly if the marks of the first round decide over `F`, those
of the second one over what is left, and what is left has an element ahead of each one of `E`. -/
theorem chosen_rounds_iff (hfin : (F ∪ G ∪ E).Finite) (hplace : (F ∪ G ∪ E).InjOn place)
    (hG : ∀ a ∈ F, a ∉ G) (hE : ∀ a ∈ F ∪ G, a ∉ E) (hfew : ∀ a, few a → all a)
    (hmid : ∀ a, mid a → all a) :
    chosen key place mid (chosen key place few F ∪ G ∪ E) = chosen key place all (F ∪ G) ↔
      Decided key place few all F (F ∪ G) ∧
      Decided key place mid all (chosen key place few F ∪ G) (chosen key place few F ∪ G) ∧
      ∀ e ∈ E, key e ≠ none ∧
        ∃ f ∈ chosen key place few F ∪ G, key f = key e ∧ Ahead place mid f e := by
  obtain ⟨N, hN⟩ : ∃ N, chosen key place few F ∪ G = N := ⟨_, rfl⟩
  have hNsub : N ⊆ F ∪ G := by
    rw [← hN]
    exact Set.union_subset_union_left G fun a ha => ha.1
  have hplaceT : (F ∪ G).InjOn place := hplace.mono Set.subset_union_left
  have hfinT : (F ∪ G).Finite := hfin.subset Set.subset_union_left
  have hNE : N ∪ E ⊆ F ∪ G ∪ E := Set.union_subset_union_left E hNsub
  have hfinN : (N ∪ E).Finite := hfin.subset hNE
  have hplaceN : (N ∪ E).InjOn place := hplace.mono hNE
  rw [hN, decided_iff Set.subset_union_left hplaceT hfew,
    decided_iff subset_rfl (hplaceT.mono hNsub) hmid]
  -- when the first round decides, what it leaves out makes no difference
  have hleft (h1 : ∀ a ∈ F, key a ≠ none → a ∈ chosen key place all (F ∪ G) →
      a ∈ chosen key place few F) {a : β} (haN : a ∈ N) :
      a ∈ chosen key place all N ↔ a ∈ chosen key place all (F ∪ G) := by
    refine chosen_subset_iff hfinT hplaceT hNsub (fun c hc hck => ?_) haN
    rw [← hN]
    exact hc.1.imp_left fun hcF => h1 c hcF hck hc
  constructor
  · intro heq
    have h1 : ∀ a ∈ F, key a ≠ none → a ∈ chosen key place all (F ∪ G) →
        a ∈ chosen key place few F := by
      intro a haF hkey ha
      have haN : a ∈ N := (heq ▸ ha : a ∈ chosen key place mid (N ∪ E)).1.resolve_right
        (hE a ha.1)
      rw [← hN] at haN
      exact haN.resolve_right (hG a haF)
    refine ⟨h1, fun a haN hkey ha => ?_, fun e he => ?_⟩
    · have hall := (hleft h1 haN).mp ha
      rw [← heq] at hall
      exact chosen_anti Set.subset_union_left haN hall
    · have hkey : key e ≠ none := fun hkey => by
        have hmem : e ∈ chosen key place mid (N ∪ E) := chosen_of_none (.inr he) hkey
        rw [heq] at hmem
        exact hE e hmem.1 he
      obtain ⟨f, hf, hfe⟩ : ∃ f ∈ chosen key place mid (N ∪ E), key f = key e :=
        exists_chosen hfinN hplaceN (.inr he)
      have hfT : f ∈ F ∪ G := (heq ▸ hf : f ∈ chosen key place all (F ∪ G)).1
      have hne : e ≠ f := fun h => hE f hfT (h ▸ he)
      exact ⟨hkey, f, hf.1.resolve_right (hE f hfT), hfe,
        hf.2.resolve_left (hfe ▸ hkey) e (.inr he) hfe.symm hne⟩
  · rintro ⟨h1, h2, h3⟩
    refine chosen_eq_of_keyed hfinT hplaceT (fun a ha hkey => ?_) (fun a hkey => ?_)
      fun a ha hkey => ?_
    · rcases ha with haN | haE
      · exact ⟨a, hNsub haN, rfl⟩
      · obtain ⟨-, f, hf, hfa, -⟩ := h3 a haE
        exact ⟨f, hNsub hf, hfa⟩
    · refine ⟨fun ha => hNsub (ha.resolve_right fun haE => (h3 a haE).1 hkey), fun ha => .inl ?_⟩
      rw [← hN]
      exact ha.imp_left fun haF => chosen_of_none haF hkey
    · have haN : a ∈ N := by
        rw [← hN]
        exact ha.1.imp_left fun haF => h1 a haF hkey ha
      exact chosen_union_of_ahead (fun e he => (h3 e he).2) (h2 a haN hkey ((hleft h1 haN).mpr ha))

end Preferred

end CodexOne
