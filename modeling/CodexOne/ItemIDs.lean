import CodexOne.Submitted

/-!
The ids that the items of a connection are sent under.

Within one request the ids that are kept are reserved and the shortened ones are new, so that two
items are told apart. Across requests nothing is remembered of the ids that were used before.
-/

namespace CodexOne.Compat

open Members JsonOf GoStrings Identity

variable {d : Digests} {fuel : ℕ} {store remap : Bool} {keyID : String}
  {reserved used : List String}
  {items out : List Json}

/-- The item is sent under the id it has. -/
def Verbatim (item : Obj) : Prop :=
  canonicalCodexInputItemID item (Obj.val item "id").text = (Obj.val item "id").text ∧
    (Obj.val item "id").text.length ≤ codexInputItemIDLimit

instance : DecidablePred Verbatim := fun _ => inferInstanceAs (Decidable (_ ∧ _))

/-- The forms an id is rewritten to. -/
inductive Rewrites (d : Digests) (remap : Bool) (keyID : String) (item : Obj) : String → Prop
  | wanted : Rewrites d remap keyID item (wantedItemID d remap keyID item (Obj.val item "id").text)
  | shortened (attempt : ℕ) : Rewrites d remap keyID item
      (shortenCodexInputItemID d (wantedItemID d remap keyID item (Obj.val item "id").text) attempt)

lemma uuidString_length (raw : Fin 16 → UInt8) : (Digests.uuidString raw).length = 36 := by
  unfold Digests.uuidString
  have hl : (List.ofFn raw).length = 16 := List.length_ofFn
  generalize List.ofFn raw = bytes at hl
  dsimp only
  rw [String.length_ofList]
  simp only [List.length_append, List.length_cons, hex_length, List.length_take, List.length_drop,
    hl]
  omega

lemma hasPrefix_mapped (item : Obj) (itemID : String) :
    hasPrefix (mappedCodexInputItemID d keyID item itemID) (codexInputItemPrefix item) = true := by
  unfold mappedCodexInputItemID
  dsimp only
  split_ifs with hp
  · rw [hp]
    exact hasPrefix_empty _
  · rw [String.append_assoc]
    exact hasPrefix_append _ _

lemma canonical_of_hasPrefix {item : Obj} {itemID : String}
    (h : hasPrefix itemID (codexInputItemPrefix item) = true) :
    canonicalCodexInputItemID item itemID = itemID :=
  if_pos (.inr (.inr h))

lemma wanted_ne {item : Obj} (h : ¬Verbatim item)
    (hw : wantedItemID d remap keyID item (Obj.val item "id").text = (Obj.val item "id").text) :
    codexInputItemIDLimit < (Obj.val item "id").text.length := by
  by_contra hlen
  rw [not_lt] at hlen
  have hcanon : canonicalCodexInputItemID item (Obj.val item "id").text ≠
      (Obj.val item "id").text :=
    fun hc => h ⟨hc, hlen⟩
  unfold wantedItemID at hw
  dsimp only at hw
  split_ifs at hw with hc
  · refine hcanon (canonical_of_hasPrefix ?_)
    rw [← hw]
    exact hasPrefix_mapped item _
  · exact hcanon hw

lemma upstreamItemID_verbatim {item : Obj} {n : String} (hv : Verbatim item)
    (h : upstreamItemID d fuel remap keyID reserved used item (Obj.val item "id").text = some n) :
    n = (Obj.val item "id").text := by
  have hw : wantedItemID d remap keyID item (Obj.val item "id").text =
      (Obj.val item "id").text := by
    unfold wantedItemID
    dsimp only
    rw [hv.1, if_neg]
    rintro ⟨-, h | h⟩
    · exact h rfl
    · exact absurd hv.2 (not_le.mpr h)
  obtain ⟨m, ⟨hm, -⟩ | ⟨-, hne, -⟩, ⟨rfl, -⟩ | ⟨hlong, -⟩⟩ := upstreamItemID_ok h
  · rw [hm, hw]
  · rw [hm, hw] at hlong
    exact absurd hv.2 (not_le.mpr hlong)
  · exact absurd hw hne
  · exact absurd hw hne

/-- A rewritten id is not reserved, and it is new if it is shortened. -/
lemma upstreamItemID_rewritten {item : Obj} {n : String} (hv : ¬Verbatim item)
    (h : upstreamItemID d fuel remap keyID reserved used item (Obj.val item "id").text = some n) :
    n ∉ reserved ∧ (n = wantedItemID d remap keyID item (Obj.val item "id").text ∨
      n ∉ used ∧ ∃ a, n = shortenCodexInputItemID d
        (wantedItemID d remap keyID item (Obj.val item "id").text) a) := by
  obtain ⟨m, hm, hn⟩ := upstreamItemID_ok h
  obtain ⟨rfl, hres⟩ | ⟨-, -, hr, hu, a, rfl⟩ := hm
  · obtain ⟨rfl, hshort⟩ | ⟨-, hr, hu, a, rfl⟩ := hn
    · refine ⟨fun hmem => ?_, .inl rfl⟩
      have hw := hres hmem
      rw [hw] at hshort
      exact absurd hshort (not_le.mpr (wanted_ne hv hw))
    · exact ⟨hr, .inr ⟨hu, a, rfl⟩⟩
  · obtain ⟨rfl, -⟩ | ⟨hlong, -⟩ := hn
    · exact ⟨hr, .inr ⟨hu, a, rfl⟩⟩
    · exact absurd (shortenCodexInputItemID_length d _ a) (not_le.mpr hlong)

lemma isSpace_hex {bytes : List UInt8} {c : Char} (h : c ∈ Digests.hex bytes) :
    isSpace c = false := by
  obtain ⟨b, -, hc⟩ := List.mem_flatMap.mp h
  exact isSpace_hexDigits hc

lemma solid_uuidString (raw : Fin 16 → UInt8) : Solid (Digests.uuidString raw) := by
  intro c hc
  unfold Digests.uuidString at hc
  generalize List.ofFn raw = bytes at hc
  dsimp only at hc
  have hdash : isSpace '-' = false := by decide
  rw [String.toList_ofList] at hc
  simp only [List.mem_append, List.mem_cons, or_assoc] at hc
  rcases hc with hc | rfl | hc | rfl | hc | rfl | hc | rfl | hc
  all_goals first
    | exact isSpace_hex hc
    | exact hdash

lemma solid_shortenSuffix (d : Digests) (itemID : String) (attempt : ℕ) :
    Solid (shortenSuffix d itemID attempt) := by
  unfold shortenSuffix
  refine Solid.append (by decide) fun c hc => ?_
  rw [String.toList_ofList] at hc
  exact isSpace_hex hc

lemma solid_prefixText (item : Obj) : Solid (codexInputItemPrefix item) := by
  unfold codexInputItemPrefix
  dsimp only
  split_ifs <;> decide

lemma trimmed_canonical {item : Obj} {itemID : String} (hid : itemID ≠ "") (h : Trimmed itemID) :
    Trimmed (canonicalCodexInputItemID item itemID) := by
  unfold canonicalCodexInputItemID
  split_ifs with hc
  · exact h
  · rw [not_or] at hc
    exact .append (fun he => hc.1 (by
      rw [String.append_eq_empty_iff] at he
      exact he.1)) hid ((solid_prefixText item).append (by decide)).trimmed.head h.last

lemma trimmed_wanted {item : Obj} {itemID : String} (hid : itemID ≠ "") (h : Trimmed itemID) :
    Trimmed (wantedItemID d remap keyID item itemID) := by
  unfold wantedItemID
  dsimp only
  split_ifs
  · unfold mappedCodexInputItemID Digests.identityUUID
    dsimp only
    refine (Solid.append (Solid.append ?_ (by decide)) (solid_uuidString _)).trimmed
    split_ifs
    · decide
    · exact solid_prefixText item
  · exact trimmed_canonical hid h

lemma wanted_ne_empty {item : Obj} {itemID : String} (hid : itemID ≠ "") :
    wantedItemID d remap keyID item itemID ≠ "" := by
  unfold wantedItemID
  dsimp only
  split_ifs
  · unfold mappedCodexInputItemID
    simp [String.append_eq_empty_iff]
  · unfold canonicalCodexInputItemID
    split_ifs
    · exact hid
    · simp [String.append_eq_empty_iff]

lemma trimmed_shorten {itemID : String} (hid : itemID ≠ "") (h : Trimmed itemID) (attempt : ℕ) :
    Trimmed (shortenCodexInputItemID d itemID attempt) := by
  have hlist : itemID.toList ≠ [] := fun he => hid (String.toList_injective he)
  have hsuffix : shortenSuffix d itemID attempt ≠ "" := fun he => by
    have := shortenSuffix_length d itemID attempt
    rw [he] at this
    revert this
    decide
  unfold shortenCodexInputItemID takeRunes codexInputItemIDLimit
  dsimp only
  rw [shortenSuffix_length]
  obtain ⟨c, r, hcr⟩ := List.exists_cons_of_ne_nil hlist
  have hpos : 0 < min (64 - 17) itemID.length := by
    rw [← String.length_toList, hcr]
    simp
  obtain ⟨n, hn⟩ := Nat.exists_eq_add_of_lt hpos
  have htake : itemID.toList.take (min (64 - 17) itemID.length) = c :: r.take n := by
    rw [hn, hcr, Nat.zero_add, List.take_succ_cons]
  refine .append ?_ hsuffix ?_ (solid_shortenSuffix d itemID attempt).trimmed.last
  · intro he
    have := congrArg String.toList he
    rw [String.toList_ofList, htake] at this
    cases this
  · rw [String.toList_ofList, htake]
    intro x hx
    refine h.head x ?_
    rw [hcr]
    exact hx

lemma append_sep_inj {α : Type} (sep : α) {p q s t : List α} (hp : sep ∉ p) (hq : sep ∉ q)
    (h : p ++ sep :: s = q ++ sep :: t) : p = q ∧ s = t := by
  induction p generalizing q with
  | nil =>
    cases q with
    | nil => exact ⟨rfl, (List.cons.inj h).2⟩
    | cons y q => exact absurd ((List.cons.inj h).1 ▸ List.mem_cons_self) hq
  | cons x p ih =>
    cases q with
    | nil => exact absurd ((List.cons.inj h).1 ▸ List.mem_cons_self) hp
    | cons y q =>
      obtain ⟨rfl, htail⟩ := List.cons.inj h
      obtain ⟨rfl, rfl⟩ := ih (fun hm => hp (List.mem_cons_of_mem _ hm))
        (fun hm => hq (List.mem_cons_of_mem _ hm)) htail
      exact ⟨rfl, rfl⟩

lemma kind_inj {p q s t : String} (hp : '_' ∉ p.toList) (hq : '_' ∉ q.toList)
    (h : p ++ "_" ++ s = q ++ "_" ++ t) : p = q ∧ s = t := by
  have hl := congrArg String.toList h
  simp only [String.toList_append, List.append_assoc] at hl
  obtain ⟨h1, h2⟩ := append_sep_inj '_' hp hq hl
  exact ⟨String.toList_injective h1, String.toList_injective h2⟩

lemma underscore_not_mem_prefixText (item : Obj) : '_' ∉ (codexInputItemPrefix item).toList := by
  unfold codexInputItemPrefix
  dsimp only
  split_ifs <;> decide

/-- The kind of an item in the id it is mapped to. -/
def itemKind (item : Obj) : String :=
  if codexInputItemPrefix item = "" then "item" else codexInputItemPrefix item

lemma underscore_not_mem_kind (item : Obj) : '_' ∉ (itemKind item).toList := by
  unfold itemKind
  split_ifs
  · decide
  · exact underscore_not_mem_prefixText item

def UUIDsApart (d : Digests) (keyID : String) (a b : Obj) : Prop :=
  d.identityUUID keyID ("input-item:" ++ itemKind a) (Obj.val a "id").text =
      d.identityUUID keyID ("input-item:" ++ itemKind b) (Obj.val b "id").text →
    itemKind a = itemKind b ∧ trimSpace (Obj.val a "id").text = trimSpace (Obj.val b "id").text

lemma wanted_of_rewritten {item : Obj} (h : ¬Verbatim item)
    (hlen : (wantedItemID d remap keyID item (Obj.val item "id").text).length ≤
      codexInputItemIDLimit) :
    wantedItemID d remap keyID item (Obj.val item "id").text =
      if remap then itemKind item ++ "_" ++ d.identityUUID keyID ("input-item:" ++ itemKind item)
        (Obj.val item "id").text
      else codexInputItemPrefix item ++ "_" ++ (Obj.val item "id").text := by
  unfold wantedItemID at hlen ⊢
  dsimp only at hlen ⊢
  cases remap with
  | true =>
    rw [if_pos rfl, if_pos]
    · rfl
    refine ⟨rfl, ?_⟩
    by_contra hno
    rw [not_or, not_not, not_lt] at hno
    exact h ⟨hno.1, hno.1 ▸ hno.2⟩
  | false =>
    rw [if_neg (by simp)] at hlen ⊢
    rw [if_neg (by simp)]
    unfold canonicalCodexInputItemID at hlen ⊢
    split_ifs at hlen ⊢ with hc
    · refine absurd ⟨if_pos hc, hlen⟩ h
    · rfl

lemma wanted_injective {a b : Obj} (ha : ¬Verbatim a) (hb : ¬Verbatim b)
    (hlen : (wantedItemID d remap keyID a (Obj.val a "id").text).length ≤ codexInputItemIDLimit)
    (huuid : remap = true → UUIDsApart d keyID a b)
    (hta : trimSpace (Obj.val a "id").text = (Obj.val a "id").text)
    (htb : trimSpace (Obj.val b "id").text = (Obj.val b "id").text)
    (h : wantedItemID d remap keyID a (Obj.val a "id").text =
      wantedItemID d remap keyID b (Obj.val b "id").text) :
    (Obj.val a "id").text = (Obj.val b "id").text := by
  have hlen' := hlen
  rw [h] at hlen'
  rw [wanted_of_rewritten ha hlen, wanted_of_rewritten hb hlen'] at h
  cases remap with
  | true =>
    rw [if_pos rfl, if_pos rfl] at h
    obtain ⟨-, hu⟩ := kind_inj (underscore_not_mem_kind a) (underscore_not_mem_kind b) h
    obtain ⟨-, ht⟩ := huuid rfl hu
    rwa [hta, htb] at ht
  | false =>
    rw [if_neg (by simp), if_neg (by simp)] at h
    exact (kind_inj (underscore_not_mem_prefixText a) (underscore_not_mem_prefixText b) h).2

/-- Two ids of one request are not rewritten to one, the first standing before the second. -/
structure SeparateInTurn (d : Digests) (remap : Bool) (keyID : String) (a b : Obj) : Prop where
  shortened : ¬Verbatim a → ¬Verbatim b → ∀ n,
    shortenCodexInputItemID d (wantedItemID d remap keyID a (Obj.val a "id").text) n ≠
      wantedItemID d remap keyID b (Obj.val b "id").text

/-- Two ids of different requests are not rewritten to one, and neither is rewritten to the other
when that one is sent as it is. -/
structure SeparateTurns (d : Digests) (remap : Bool) (keyID : String) (a b : Obj) : Prop
    extends SeparateInTurn d remap keyID a b where
  shortened' : ¬Verbatim a → ¬Verbatim b → ∀ n,
    shortenCodexInputItemID d (wantedItemID d remap keyID b (Obj.val b "id").text) n ≠
      wantedItemID d remap keyID a (Obj.val a "id").text
  hashes : ¬Verbatim a → ¬Verbatim b → ∀ n m,
    shortenCodexInputItemID d (wantedItemID d remap keyID a (Obj.val a "id").text) n ≠
      shortenCodexInputItemID d (wantedItemID d remap keyID b (Obj.val b "id").text) m
  verbatim : Verbatim a → ¬Verbatim b → ¬Rewrites d remap keyID b (Obj.val a "id").text
  verbatim' : ¬Verbatim a → Verbatim b → ¬Rewrites d remap keyID a (Obj.val b "id").text

end CodexOne.Compat

namespace CodexOne

open Members JsonOf GoStrings Conversation Compat

/-! ### The items of one request -/

def idText (item : Json) : String := (Obj.val item.members "id").text

namespace Compat

variable {d : Digests} {fuel : ℕ} {remap : Bool} {keyID : String} {reserved used : List String}
  {items out : List Json}

lemma wantedItemID_congr {a b : Obj} (h : get a "type" = get b "type") (itemID : String) :
    wantedItemID d remap keyID a itemID = wantedItemID d remap keyID b itemID := by
  unfold wantedItemID canonicalCodexInputItemID mappedCodexInputItemID
  rw [codexInputItemPrefix_congr h]

lemma upstreamItemID_congr {a b : Obj} (h : get a "type" = get b "type") (itemID : String) :
    upstreamItemID d fuel remap keyID reserved used a itemID =
      upstreamItemID d fuel remap keyID reserved used b itemID := by
  unfold upstreamItemID
  rw [wantedItemID_congr h]

lemma id_keptObject {store : Bool} {item kept : Obj} (h : keptObject store item = some kept)
    (hid : (Obj.val kept "id").text ≠ "") :
    (Obj.val kept "id").text = (Obj.val item "id").text := by
  have herased (o : Obj) : (Obj.val (erase o "id") "id").text = "" := by
    rw [Obj.val, get_erase_self]
    rfl
  rcases keptObject_cases h with rfl | rfl | rfl | rfl
  · rfl
  · exact absurd (herased _) hid
  · rw [Obj.val_congr (get_erase_ne _ (by decide))]
  · exact absurd (herased _) hid

/-- An item is sent under an id that was found with some ids already used. -/
def SentUnder (d : Digests) (fuel : ℕ) (remap : Bool) (keyID : String) (reserved used : List String)
    (item sent : Json) : Prop :=
  idText sent ≠ "" → ∃ o used', item = obj o ∧ idText item ≠ "" ∧ used ⊆ used' ∧
    upstreamItemID d fuel remap keyID reserved used' o (idText item) = some (idText sent)

lemma SentUnder.mono {used' : List String} {item sent : Json}
    (h : SentUnder d fuel remap keyID reserved used' item sent) (hs : used ⊆ used') :
    SentUnder d fuel remap keyID reserved used item sent := fun hne => by
  obtain ⟨o, u, ho, hid, hu, hn⟩ := h hne
  exact ⟨o, u, ho, hid, fun x hx => hu (hs hx), hn⟩

lemma idText_renamed {kept : Obj} (n : String) (hid : (Obj.val kept "id").text ≠ "") :
    idText (obj (renamed kept n)) = n := by
  rw [idText, members_obj, Obj.val_of_get (get_renamed n hid)]
  rfl

lemma sentUnder_named {store : Bool} {item kept : Obj} {n : String}
    (hk : keptObject store item = some kept) (hid : (Obj.val kept "id").text ≠ "")
    (hn : upstreamItemID d fuel remap keyID reserved used kept (Obj.val kept "id").text = some n) :
    SentUnder d fuel remap keyID reserved used (obj item) (obj (renamed kept n)) := fun _ => by
  have hsame := id_keptObject hk hid
  refine ⟨item, used, rfl, ?_, List.Subset.refl _, ?_⟩
  · exact fun he => hid (hsame.trans he)
  · rw [idText_renamed n hid, ← hn, ← upstreamItemID_congr (get_keptObject hk (by decide)
      (by decide)), hsame]
    rfl

lemma idText_other {value : Json} (hv : ∀ o, value ≠ obj o) : idText value = "" := by
  cases value with
  | obj o => exact absurd rfl (hv o)
  | _ => rfl

lemma Sanitized.sentUnder {store : Bool}
    (h : Sanitized d fuel store remap keyID reserved used items out) :
    List.Forall₂ (SentUnder d fuel remap keyID reserved used)
      (items.filter fun item => !leftOut store item) out := by
  induction h with
  | nil => exact .nil
  | skip hk _ ih => rwa [List.filter_cons_of_neg (by simp [leftOut, hk])]
  | @other _ value _ _ hv _ ih =>
    have hl : leftOut store value = false := by
      cases value with
      | obj o => exact absurd rfl (hv o)
      | _ => rfl
    rw [List.filter_cons_of_pos (by simp [hl])]
    exact .cons (fun hne => absurd (idText_other hv) hne) ih
  | bare hk hid _ ih =>
    rw [List.filter_cons_of_pos (by simp [leftOut, hk])]
    exact .cons (fun hne => absurd hid hne) ih
  | named hk hid hn _ ih =>
    rw [List.filter_cons_of_pos (by simp [leftOut, hk])]
    refine .cons (sentUnder_named hk hid hn) (ih.imp fun _ _ hs => hs.mono ?_)
    exact List.subset_cons_self _ _

lemma Sanitized.pairwise {store : Bool}
    (h : Sanitized d fuel store remap keyID reserved used items out) :
    ((items.filter fun item => !leftOut store item).zip out).Pairwise fun x y =>
      idText x.2 ≠ "" → SentUnder d fuel remap keyID reserved [] x.1 x.2 ∧
        SentUnder d fuel remap keyID reserved [idText x.2] y.1 y.2 := by
  induction h with
  | nil => exact .nil
  | skip hk _ ih => rwa [List.filter_cons_of_neg (by simp [leftOut, hk])]
  | @other _ value _ _ hv _ ih =>
    have hl : leftOut store value = false := by
      cases value with
      | obj o => exact absurd rfl (hv o)
      | _ => rfl
    rw [List.filter_cons_of_pos (by simp [hl]), List.zip_cons_cons]
    exact .cons (fun _ _ hne => absurd (idText_other hv) hne) ih
  | bare hk hid _ ih =>
    rw [List.filter_cons_of_pos (by simp [leftOut, hk]), List.zip_cons_cons]
    exact .cons (fun _ _ hne => absurd hid hne) ih
  | @named used item kept n rest out hk hid hn h ih =>
    rw [List.filter_cons_of_pos (by simp [leftOut, hk]), List.zip_cons_cons]
    refine .cons (fun y hy _ => ⟨(sentUnder_named hk hid hn).mono (List.nil_subset _), ?_⟩) ih
    have hrest := (List.forall₂_iff_zip.mp h.sentUnder).2 (show (y.1, y.2) ∈ _ from hy)
    refine hrest.mono ?_
    dsimp only
    rw [idText_renamed n hid]
    simp

lemma mem_reservedIDs {o : Obj} (ho : obj o ∈ items) (hv : Verbatim o)
    (hid : idText (obj o) ≠ "") : idText (obj o) ∈ reservedIDs items := by
  refine List.mem_map.mpr ⟨obj o, List.mem_filter.mpr ⟨ho, ?_⟩, rfl⟩
  exact decide_eq_true ⟨hid, hv.2, hv.1⟩

lemma SentUnder.cases {item sent : Json} (h : SentUnder d fuel remap keyID reserved used item sent)
    (hne : idText sent ≠ "") :
    ∃ o, item = obj o ∧ idText item ≠ "" ∧
      (Verbatim o ∧ idText sent = idText item ∨
        ¬Verbatim o ∧ idText sent ∉ reserved ∧
          (idText sent = wantedItemID d remap keyID o (idText item) ∧
              (wantedItemID d remap keyID o (idText item)).length ≤ codexInputItemIDLimit ∨
            idText sent ∉ used ∧ ∃ a, idText sent = shortenCodexInputItemID d
              (wantedItemID d remap keyID o (idText item)) a)) := by
  obtain ⟨o, u, rfl, hid, hu, hn⟩ := h hne
  refine ⟨o, rfl, hid, ?_⟩
  by_cases hv : Verbatim o
  · exact .inl ⟨hv, upstreamItemID_verbatim hv hn⟩
  · obtain ⟨hr, hw | ⟨hnew, ha⟩⟩ := upstreamItemID_rewritten hv hn
    · refine .inr ⟨hv, hr, .inl ⟨hw, ?_⟩⟩
      have hlen := upstreamItemID_length hn
      rw [hw] at hlen
      exact hlen
    · exact .inr ⟨hv, hr, .inr ⟨fun hm => hnew (hu hm), ha⟩⟩

lemma SentUnder.trimmed {item sent : Json}
    (h : SentUnder d fuel remap keyID reserved used item sent)
    (ht : Trimmed (idText item)) (hne : idText sent ≠ "") : Trimmed (idText sent) := by
  obtain ⟨o, -, hid, ⟨-, hs⟩ | ⟨-, -, ⟨hs, -⟩ | ⟨-, a, hs⟩⟩⟩ := h.cases hne
  · rwa [hs]
  · rw [hs]
    exact trimmed_wanted hid ht
  · rw [hs]
    exact trimmed_shorten (wanted_ne_empty hid) (trimmed_wanted hid ht) a

/-- Two items with ids of their own are not sent under one id. -/
def Apart (x y : Json × Json) : Prop :=
  idText x.1 ≠ "" → idText y.1 ≠ "" → idText x.1 ≠ idText y.1 → idText x.2 = idText y.2 →
    idText x.2 = ""

lemma apart_in_turn {x y : Json × Json} (hx : SentUnder d fuel remap keyID (reservedIDs items) []
      x.1 x.2) (hy : SentUnder d fuel remap keyID (reservedIDs items) [idText x.2] y.1 y.2)
    (hxi : x.1 ∈ items) (hyi : y.1 ∈ items) (htx : Trimmed (idText x.1))
    (hty : Trimmed (idText y.1))
    (huuid : ∀ a b, x.1 = obj a → y.1 = obj b → remap = true → UUIDsApart d keyID a b)
    (hsep : ∀ a b, x.1 = obj a → y.1 = obj b → idText (obj a) ≠ "" → idText (obj b) ≠ "" →
      idText (obj a) ≠ idText (obj b) → SeparateInTurn d remap keyID a b) : Apart x y := by
  obtain ⟨x, sx⟩ := x
  obtain ⟨y, sy⟩ := y
  intro hxne hyne hne heq
  dsimp only at *
  by_contra hsx
  have hsy : idText sy ≠ "" := heq ▸ hsx
  obtain ⟨a, rfl, -, hcx⟩ := hx.cases hsx
  obtain ⟨b, rfl, -, hcy⟩ := hy.cases hsy
  rcases hcx with ⟨hva, hxa⟩ | ⟨hva, hxr, hxw⟩
  · rcases hcy with ⟨hvb, hyb⟩ | ⟨hvb, hyr, -⟩
    · exact hne (hxa.symm.trans (heq.trans hyb))
    · -- an id that is kept is reserved
      refine hyr ?_
      rw [← heq, hxa]
      exact mem_reservedIDs hxi hva hxne
  · rcases hcy with ⟨hvb, hyb⟩ | ⟨hvb, hyr, hyw⟩
    · refine hxr ?_
      rw [heq, hyb]
      exact mem_reservedIDs hyi hvb hyne
    · rcases hyw with ⟨hyw, -⟩ | ⟨hnew, -⟩
      · rcases hxw with ⟨hxw, hlen⟩ | ⟨-, n, hxw⟩
        · exact hne (wanted_injective hva hvb hlen (huuid a b rfl rfl) (trimmed_iff.mp htx)
            (trimmed_iff.mp hty) (hxw.symm.trans (heq.trans hyw)))
        · exact (hsep a b rfl rfl hxne hyne hne).shortened hva hvb n
            (hxw.symm.trans (heq.trans hyw))
      · exact hnew (heq ▸ List.mem_singleton.mpr rfl)

lemma apart_turns {reserved' : List String} {x y : Json × Json}
    (hx : SentUnder d fuel remap keyID reserved [] x.1 x.2)
    (hy : SentUnder d fuel remap keyID reserved' [] y.1 y.2) (htx : Trimmed (idText x.1))
    (hty : Trimmed (idText y.1))
    (huuid : ∀ a b, x.1 = obj a → y.1 = obj b → remap = true → UUIDsApart d keyID a b)
    (hsep : ∀ a b, x.1 = obj a → y.1 = obj b → idText (obj a) ≠ "" → idText (obj b) ≠ "" →
      idText (obj a) ≠ idText (obj b) → SeparateTurns d remap keyID a b) : Apart x y := by
  obtain ⟨x, sx⟩ := x
  obtain ⟨y, sy⟩ := y
  intro hxne hyne hne heq
  dsimp only at *
  by_contra hsx
  have hsy : idText sy ≠ "" := heq ▸ hsx
  obtain ⟨a, rfl, -, hcx⟩ := hx.cases hsx
  obtain ⟨b, rfl, -, hcy⟩ := hy.cases hsy
  have hs := hsep a b rfl rfl hxne hyne hne
  rcases hcx with ⟨hva, hxa⟩ | ⟨hva, -, hxw⟩
  · rcases hcy with ⟨hvb, hyb⟩ | ⟨hvb, -, hyw⟩
    · -- both are sent as they are
      exact hne (hxa.symm.trans (heq.trans hyb))
    · -- the second one is rewritten
      refine hs.verbatim hva hvb ?_
      have hid : (Obj.val a "id").text = idText sy := hxa.symm.trans heq
      rw [hid]
      rcases hyw with ⟨hyw, -⟩ | ⟨-, n, hyw⟩
      · rw [hyw]
        exact .wanted
      · rw [hyw]
        exact .shortened n
  · rcases hcy with ⟨hvb, hyb⟩ | ⟨hvb, -, hyw⟩
    · -- the first one is rewritten
      refine hs.verbatim' hva hvb ?_
      have hid : (Obj.val b "id").text = idText sx := hyb.symm.trans heq.symm
      rw [hid]
      rcases hxw with ⟨hxw, -⟩ | ⟨-, n, hxw⟩
      · rw [hxw]
        exact .wanted
      · rw [hxw]
        exact .shortened n
    · -- both are rewritten
      rcases hxw with ⟨hxw, hlen⟩ | ⟨-, n, hxw⟩ <;> rcases hyw with ⟨hyw, -⟩ | ⟨-, m, hyw⟩
      · exact hne (wanted_injective hva hvb hlen (huuid a b rfl rfl) (trimmed_iff.mp htx)
          (trimmed_iff.mp hty) (hxw.symm.trans (heq.trans hyw)))
      · exact hs.shortened' hva hvb m (hyw.symm.trans (heq.symm.trans hxw))
      · exact hs.shortened hva hvb n (hxw.symm.trans (heq.trans hyw))
      · exact hs.hashes hva hvb n m (hxw.symm.trans (heq.trans hyw))

end Compat

lemma cleanIdentityValue_trimmed {s : String} (h : Trimmed s) :
    cleanIdentityValue s = s ∨ cleanIdentityValue s = "" := by
  unfold cleanIdentityValue
  rw [trimmed_iff.mp h]
  split_ifs
  · exact .inl rfl
  · exact .inr rfl

lemma ofItem_id (raw : Raw) :
    (ItemMetadata.ofItem raw).id = cleanIdentityValue (idText raw.decode) := by
  dsimp only [ItemMetadata.ofItem, ItemMetadata.ofObj, jsonString, idText]

lemma ofRaw_id {sent : Json} (hc : sent.canon = sent) (h : Trimmed (idText sent)) :
    (ItemMetadata.ofRaw (Raw.ofJson sent)).id = idText sent ∨
      (ItemMetadata.ofRaw (Raw.ofJson sent)).id = "" := by
  rcases ofRaw_eq (Raw.ofJson sent) with he | he
  · rw [he, ofItem_id, Raw.decode_ofJson, hc]
    exact cleanIdentityValue_trimmed h
  · exact .inr (by rw [he])

/-! ### Accepted turns -/

namespace Connection

variable (k : Connection)

/-- The API key of the connection as an identity keeps it. -/
def keyID : String := trimSpace (k.request.keyID.getD "")

/-- The identity of the conversation, if it has one, belongs to the connection. -/
def Owns (c : Conversation) : Prop :=
  ∀ i, c.identity = some i → i.remap = k.cfg.codexIdentityRemap ∧ i.keyID = k.keyID

variable {k}

lemma Owns.uses {c : Conversation} {turn : Turn} {i : Identity} {fixed : Bool} (h : k.Owns c)
    (hu : Uses k.digests c k.request k.cfg.codexIdentityRemap turn i fixed) :
    i.remap = k.cfg.codexIdentityRemap ∧ i.keyID = k.keyID := by
  cases hu with
  | shared hi => exact h i hi
  | fresh hi hnew => exact Identity.new_owner _ hnew

/-- Every turn keeps the identity in the hands of the connection. -/
lemma Owns.turn {c : Conversation} (h : k.Owns c) (t : TurnInput) : k.Owns (k.turn c t).2 := by
  intro i hi
  rcases identity_turn k hi with hi | ⟨turn, j, fixed, hu, hext⟩
  · exact h i hi
  · rw [← hext.remap, ← hext.keyID]
    exact h.uses hu

variable (k)

/-- What was read from a message that is accepted, and its plan. -/
def accepted (c : Conversation) (t : TurnInput) : Option (Turn × Plan) :=
  match c.readTurn t.raw, (k.prepare c t.raw t.planType).1 with
  | .ok turn, .ok plan => some (turn, plan)
  | _, _ => none

def acceptedTurns (c : Conversation) : List TurnInput → List (Turn × Plan)
  | [] => []
  | t :: ts => (k.accepted c t).toList ++ acceptedTurns (k.turn c t).2 ts

/-- How the items of an accepted turn are sent. -/
structure SendsItems (turn : Turn) (plan : Plan) (sent : List Json) : Prop where
  input : plan.currentInput = sent.map Raw.ofJson
  canon : ∀ item ∈ sent, item.canon = item
  sanitized : Sanitized k.digests k.fuel false k.cfg.codexIdentityRemap k.keyID
    (reservedIDs (Obj.val turn.body "input").items) [] (Obj.val turn.body "input").items sent

variable {k}

lemma sendsItems_of_accepted {c : Conversation} (h : k.Owns c) {t : TurnInput} {x : Turn × Plan}
    (hx : k.accepted c t = some x) : ∃ sent, k.SendsItems x.1 x.2 sent := by
  unfold accepted at hx
  split at hx
  · rename_i turn plan hread hplan
    obtain rfl := Option.some.inj hx
    obtain ⟨object, turn', hd, hr, ⟨hp⟩⟩ := planned_of_prepare (pair_of_fst hplan)
    obtain rfl : turn' = turn := by
      obtain ⟨object', hd', hr'⟩ := readTurn_ok hread
      obtain rfl : object = object' := Option.some.inj (hd.symm.trans hd')
      exact Except.ok.inj (hr.symm.trans hr')
    obtain ⟨sent, hcur, hsan, -⟩ := hp.currentInput_eq hr
    obtain ⟨hremap, hkey⟩ := h.uses hp.identity
    rw [hremap, hkey] at hsan
    exact ⟨sent, hcur,
      hsan.canon (canon_items (canon_val (canon_turn (canon_decodeObject hd) hr) _)),
      hsan⟩
  · cases hx

lemma sendsItems_of_mem {c : Conversation} (h : k.Owns c) (ts : List TurnInput) {x : Turn × Plan}
    (hx : x ∈ k.acceptedTurns c ts) : ∃ sent, k.SendsItems x.1 x.2 sent := by
  induction ts generalizing c with
  | nil => cases hx
  | cons t ts ih =>
    rw [acceptedTurns, List.mem_append, Option.mem_toList] at hx
    exact hx.elim (sendsItems_of_accepted h) (ih (h.turn t))

end Connection

/-- The input items of accepted turns next to what is sent for them, numbered by the turn. -/
def sentItems (turns : List (Turn × Plan)) : List (ℕ × Json × Raw) :=
  turns.zipIdx.flatMap fun x =>
    ((keptInput x.1.1).zip x.1.2.currentInput).map fun y => (x.2, y)

/-- Two items that the client gives ids of their own are sent under ids of their own, and joining
the items does not take one for the other. -/
def ToldApart (x y : ℕ × Json × Raw) : Prop :=
  idText x.2.1 ≠ "" → idText y.2.1 ≠ "" → idText x.2.1 ≠ idText y.2.1 →
    (idText x.2.2.decode = idText y.2.2.decode → idText x.2.2.decode = "") ∧
    ((ItemMetadata.ofRaw x.2.2).id = (ItemMetadata.ofRaw y.2.2).id →
      (ItemMetadata.ofRaw x.2.2).id = "")

/-- The ids of two items are not rewritten to one. -/
def SeparateItems (k : Connection) (x y : ℕ × Json × Raw) : Prop :=
  ∀ a b, x.2.1 = obj a → y.2.1 = obj b → idText (obj a) ≠ "" → idText (obj b) ≠ "" →
    idText (obj a) ≠ idText (obj b) →
    if x.1 = y.1 then SeparateInTurn k.digests k.cfg.codexIdentityRemap k.keyID a b
    else SeparateTurns k.digests k.cfg.codexIdentityRemap k.keyID a b

/-- Two items that were sent in a run, the first before the second. -/
structure Linked (k : Connection) (x y : ℕ × Json × Raw) (sx sy : Json) : Prop where
  fst : x.2.2 = Raw.ofJson sx
  snd : y.2.2 = Raw.ofJson sy
  canon_fst : sx.canon = sx
  canon_snd : sy.canon = sy
  sent_fst : ∃ reserved, SentUnder k.digests k.fuel k.cfg.codexIdentityRemap k.keyID reserved []
    x.2.1 sx
  sent_snd : ∃ reserved, SentUnder k.digests k.fuel k.cfg.codexIdentityRemap k.keyID reserved []
    y.2.1 sy
  inTurn : x.1 = y.1 → idText sx ≠ "" → ∃ items, x.2.1 ∈ items ∧ y.2.1 ∈ items ∧
    SentUnder k.digests k.fuel k.cfg.codexIdentityRemap k.keyID (reservedIDs items) [] x.2.1 sx ∧
    SentUnder k.digests k.fuel k.cfg.codexIdentityRemap k.keyID (reservedIDs items) [idText sx]
      y.2.1 sy

namespace Connection.SendsItems

variable {k : Connection} {turn : Turn} {plan : Plan} {sent : List Json}

lemma zip_eq (h : k.SendsItems turn plan sent) :
    (keptInput turn).zip plan.currentInput =
      ((keptInput turn).zip sent).map fun x => (x.1, Raw.ofJson x.2) := by
  rw [h.input, List.zip_map_right]
  rfl

lemma of_mem (h : k.SendsItems turn plan sent) {x : Json × Json}
    (hx : x ∈ (keptInput turn).zip sent) :
    x.1 ∈ (Obj.val turn.body "input").items ∧ x.2.canon = x.2 ∧
      SentUnder k.digests k.fuel k.cfg.codexIdentityRemap k.keyID
        (reservedIDs (Obj.val turn.body "input").items) [] x.1 x.2 := by
  obtain ⟨h1, h2⟩ := List.of_mem_zip (show (x.1, x.2) ∈ _ from hx)
  exact ⟨List.mem_of_mem_filter h1, h.canon _ h2,
    (List.forall₂_iff_zip.mp h.sanitized.sentUnder).2 (show (x.1, x.2) ∈ _ from hx)⟩

end Connection.SendsItems

lemma linked_sentItems {k : Connection} {turns : List (Turn × Plan)}
    (h : ∀ x ∈ turns, ∃ sent, k.SendsItems x.1 x.2 sent) :
    (sentItems turns).Pairwise fun x y => ∃ sx sy, Linked k x y sx sy := by
  have hsends : ∀ x ∈ turns.zipIdx, ∃ sent, k.SendsItems x.1.1 x.1.2 sent := fun x hx =>
    h x.1 (List.fst_mem_of_mem_zipIdx hx)
  refine List.pairwise_flatMap.mpr ⟨fun x hx => ?_, ?_⟩
  · obtain ⟨sent, hs⟩ := hsends x hx
    rw [hs.zip_eq, List.map_map, List.pairwise_map]
    refine hs.sanitized.pairwise.imp_of_mem fun {a b} ha hb hab => ⟨a.2, b.2, ?_⟩
    obtain ⟨ha1, ha2, ha3⟩ := hs.of_mem ha
    obtain ⟨hb1, hb2, hb3⟩ := hs.of_mem hb
    exact ⟨rfl, rfl, ha2, hb2, ⟨_, ha3⟩, ⟨_, hb3⟩, fun _ hne => ⟨_, ha1, hb1, (hab hne).1,
      (hab hne).2⟩⟩
  · have hidx : turns.zipIdx.Pairwise fun x y => x.2 ≠ y.2 := by
      have : (List.range' 0 turns.length).Nodup := List.nodup_range'
      rw [← List.zipIdx_map_snd 0 turns] at this
      exact List.pairwise_map.mp this
    refine hidx.imp_of_mem fun {x y} hx hy hne a ha b hb => ?_
    obtain ⟨sx, hsx⟩ := hsends x hx
    obtain ⟨sy, hsy⟩ := hsends y hy
    rw [hsx.zip_eq, List.map_map] at ha
    rw [hsy.zip_eq, List.map_map] at hb
    obtain ⟨p, hp, rfl⟩ := List.mem_map.mp ha
    obtain ⟨q, hq, rfl⟩ := List.mem_map.mp hb
    obtain ⟨-, ha2, ha3⟩ := hsx.of_mem hp
    obtain ⟨-, hb2, hb3⟩ := hsy.of_mem hq
    exact ⟨p.2, q.2, rfl, rfl, ha2, hb2, ⟨_, ha3⟩, ⟨_, hb3⟩, fun he => absurd he hne⟩

lemma Linked.toldApart {k : Connection} {x y : ℕ × Json × Raw} {sx sy : Json}
    (h : Linked k x y sx sy) (htx : Trimmed (idText x.2.1)) (hty : Trimmed (idText y.2.1))
    (hapart : Apart (x.2.1, sx) (y.2.1, sy)) : ToldApart x y := by
  intro hx hy hne
  have heq := hapart hx hy hne
  dsimp only at heq
  have htrim {item s : Json} (hs : ∃ reserved, SentUnder k.digests k.fuel
      k.cfg.codexIdentityRemap k.keyID reserved [] item s) (ht : Trimmed (idText item)) :
      Trimmed (idText s) := by
    obtain ⟨reserved, hs⟩ := hs
    by_cases hne : idText s = ""
    · rw [hne]
      exact trimmed_iff.mpr trimSpace_empty
    · exact hs.trimmed ht hne
  refine ⟨?_, ?_⟩
  · rw [h.fst, h.snd, Raw.decode_ofJson, Raw.decode_ofJson, h.canon_fst, h.canon_snd]
    exact heq
  · rw [h.fst, h.snd]
    intro hid
    rcases ofRaw_id h.canon_fst (htrim h.sent_fst htx) with hx' | hx'
    · rcases ofRaw_id h.canon_snd (htrim h.sent_snd hty) with hy' | hy'
      · rw [hx', heq (hx'.symm.trans (hid.trans hy'))]
      · rw [hid, hy']
    · exact hx'

/-- **Items are told apart.** In a run whose items have ids without white space around them that
are not rewritten to one, no two items with ids of their own are sent under one id. -/
theorem items_told_apart (k : Connection) (ts : List TurnInput)
    (huuid : k.cfg.codexIdentityRemap = true →
      (sentItems (k.acceptedTurns k.start ts)).Pairwise fun x y =>
        ∀ a b, x.2.1 = obj a → y.2.1 = obj b → UUIDsApart k.digests k.keyID a b)
    (htrim : ∀ x ∈ sentItems (k.acceptedTurns k.start ts), Trimmed (idText x.2.1))
    (hsep : (sentItems (k.acceptedTurns k.start ts)).Pairwise (SeparateItems k)) :
    (sentItems (k.acceptedTurns k.start ts)).Pairwise ToldApart := by
  have howns : k.Owns k.start := fun i hi => by cases hi
  have hlink := linked_sentItems fun x hx => Connection.sendsItems_of_mem howns ts hx
  have huuid' : (sentItems (k.acceptedTurns k.start ts)).Pairwise fun x y =>
      ∀ a b, x.2.1 = obj a → y.2.1 = obj b → k.cfg.codexIdentityRemap = true →
        UUIDsApart k.digests k.keyID a b := by
    by_cases hr : k.cfg.codexIdentityRemap = true
    · exact (huuid hr).imp fun h a b ha hb _ => h a b ha hb
    · exact List.pairwise_of_forall fun _ _ _ _ _ _ h => absurd h hr
  refine (hlink.and (hsep.and huuid')).imp_of_mem fun {x y} hx hy ⟨hl, hs, hu⟩ => ?_
  obtain ⟨sx, sy, hl⟩ := hl
  refine hl.toldApart (htrim x hx) (htrim y hy) ?_
  by_cases hturn : x.1 = y.1
  · -- in one turn the loop sees both items
    by_cases hne : idText sx = ""
    · exact fun _ _ _ _ => hne
    · obtain ⟨items, hxi, hyi, h1, h2⟩ := hl.inTurn hturn hne
      refine apart_in_turn (x := (x.2.1, sx)) (y := (y.2.1, sy)) h1 h2 hxi hyi (htrim x hx)
        (htrim y hy) hu fun a b ha hb h3 h4 h5 => ?_
      have := hs a b ha hb h3 h4 h5
      rwa [if_pos hturn] at this
  · -- across turns only the digests tell them apart
    obtain ⟨reserved, h1⟩ := hl.sent_fst
    obtain ⟨reserved', h2⟩ := hl.sent_snd
    refine apart_turns (x := (x.2.1, sx)) (y := (y.2.1, sy)) h1 h2 (htrim x hx) (htrim y hy) hu
      fun a b ha hb h3 h4 h5 => ?_
    have := hs a b ha hb h3 h4 h5
    rwa [if_neg hturn] at this

/-- A turn with a message, which continues the response `previous` unless that is empty. -/
def idTurn (id previous response : String) : TurnInput :=
  { raw := marshal (.obj ([("input", .arr [.obj [("id", .str id), ("type", .str "message")]]),
      ("model", .str "m")] ++ (if previous = "" then [] else
        [("previous_response_id", .str previous)]) ++ [("type", .str "response.create")]))
    planType := "", uses := [], outcome := some (emptyTerminal response, 1) }

def idTurns (first second : String) : List TurnInput :=
  [idTurn first "" "r1", idTurn second "r1" "r2"]

instance (x y : ℕ × Json × Raw) : Decidable (ToldApart x y) :=
  inferInstanceAs (Decidable (_ → _ → _ → _ ∧ _))

lemma canonical_not_told_apart :
    ¬(sentItems ((Connection.sample false).acceptedTurns (Connection.sample false).start
      (idTurns "x" "msg_x"))).Pairwise ToldApart := by
  decide +kernel

/-- An id that one turn sends as it is can be the canonical form of an id of another turn. -/
theorem items_collapse :
    ¬∀ (k : Connection) (ts : List TurnInput), (k.cfg.codexIdentityRemap = true →
        (sentItems (k.acceptedTurns k.start ts)).Pairwise fun x y =>
          ∀ a b, x.2.1 = obj a → y.2.1 = obj b → UUIDsApart k.digests k.keyID a b) →
      (sentItems (k.acceptedTurns k.start ts)).Pairwise ToldApart :=
  fun h => canonical_not_told_apart (h _ _ fun hr => absurd hr (by decide))

/-- Two ids of different turns are rewritten to two short ids of one length. -/
def RewrittenApart (x y : ℕ × Json × Raw) : Prop :=
  let a := x.2.1.members
  let b := y.2.1.members
  let u := canonicalCodexInputItemID a (Obj.val a "id").text
  let v := canonicalCodexInputItemID b (Obj.val b "id").text
  x.1 ≠ y.1 ∧ ¬Verbatim a ∧ ¬Verbatim b ∧ u ≠ v ∧ u.length = v.length ∧ v.length ≤ 47

instance (x y : ℕ × Json × Raw) : Decidable (RewrittenApart x y) :=
  inferInstanceAs (Decidable (_ ∧ _))

lemma shorten_of_short {d : Digests} {u : String} (h : u.length ≤ 47) (n : ℕ) :
    shortenCodexInputItemID d u n = u ++ shortenSuffix d u n := by
  unfold shortenCodexInputItemID takeRunes codexInputItemIDLimit
  dsimp only
  rw [shortenSuffix_length, Nat.min_eq_right (by omega), ← String.length_toList, List.take_length,
    String.ofList_toList]

lemma separateItems_of_rewritten {k : Connection} (hremap : k.cfg.codexIdentityRemap = false)
    {x y : ℕ × Json × Raw} (h : RewrittenApart x y) : SeparateItems k x y := by
  intro a b ha hb _ _ _
  obtain ⟨hturn, hva, hvb, hne, hlen, hshort⟩ := h
  rw [ha] at hva
  rw [hb] at hvb hshort
  rw [ha, hb] at hne hlen
  dsimp only [members] at hva hvb hne hlen hshort
  have hwanted (item : Obj) : wantedItemID k.digests false k.keyID item (Obj.val item "id").text =
      canonicalCodexInputItemID item (Obj.val item "id").text := by
    simp [wantedItemID]
  -- the suffix makes an id longer, and keeps apart what differs before it
  have hlonger {u v : String} (hlen : u.length = v.length) (hu : u.length ≤ 47) (n : ℕ) :
      shortenCodexInputItemID k.digests u n ≠ v := by
    intro heq
    have hlength := congrArg String.length heq
    rw [shorten_of_short hu, String.length_append, shortenSuffix_length] at hlength
    omega
  rw [if_neg hturn, hremap]
  refine ⟨⟨fun _ _ n => ?_⟩, fun _ _ n => ?_, fun _ _ n m heq => hne ?_, fun h => absurd h hva,
    fun _ h => absurd h hvb⟩
  · rw [hwanted, hwanted]
    exact hlonger hlen (hlen ▸ hshort) n
  · rw [hwanted, hwanted]
    exact hlonger hlen.symm hshort n
  · rw [hwanted, hwanted, shorten_of_short (hlen ▸ hshort), shorten_of_short hshort] at heq
    rw [← String.toList_inj, String.toList_append, String.toList_append] at heq
    exact String.toList_inj.mp (List.append_inj_left heq hlen)

lemma messages_rewritten :
    (sentItems ((Connection.sample false).acceptedTurns (Connection.sample false).start
      (idTurns "x" "y"))).Pairwise RewrittenApart ∧
    ∀ x ∈ sentItems ((Connection.sample false).acceptedTurns (Connection.sample false).start
      (idTurns "x" "y")), trimSpace (idText x.2.1) = idText x.2.1 := by
  decide +kernel

/-- Two messages of two turns that are told apart under new ids. -/
theorem items_told_apart_messages :
    (sentItems ((Connection.sample false).acceptedTurns (Connection.sample false).start
      (idTurns "x" "y"))).map (fun x => (ItemMetadata.ofRaw x.2.2).id) = ["msg_x", "msg_y"] ∧
    (sentItems ((Connection.sample false).acceptedTurns (Connection.sample false).start
      (idTurns "x" "y"))).Pairwise ToldApart := by
  obtain ⟨hrewritten, htrimmed⟩ := messages_rewritten
  exact ⟨by decide +kernel, items_told_apart (Connection.sample false) (idTurns "x" "y")
    (fun hr => absurd hr (by decide)) (fun x hx => trimmed_iff.mpr (htrimmed x hx))
    (hrewritten.imp fun h => separateItems_of_rewritten rfl h)⟩

end CodexOne
