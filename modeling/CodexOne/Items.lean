import CodexOne.TurnBody

/-!
What sanitizing makes of the items of a request.

The loop of `sanitizeCodexInputItems` is a relation between the items before and after it. What
holds of every item that is sent, and what every item keeps, is read off its cases.
-/

namespace CodexOne.Compat

open Members JsonOf GoStrings Identity

/-- What is left of an item when the rules for reasoning have been applied. -/
def keptObject (store : Bool) (item : Obj) : Option Obj :=
  if (Obj.val item "type").text = "reasoning" then sanitizeCodexReasoningItem item store
  else some item

def leftOut (store : Bool) : Json → Bool
  | .obj item => (keptObject store item).isNone
  | _ => false

def renamed (item : Obj) (normalized : String) : Obj :=
  if normalized ≠ (Obj.val item "id").text then set item "id" (.str normalized) else item

lemma get_of_text {o : Obj} {k s : String} (h : (Obj.val o k).text = s) (hs : s ≠ "") :
    get o k = some (.str s) := by
  unfold Obj.val at h
  cases hg : get o k with
  | none => exact absurd (by rw [← h, hg]; rfl) hs
  | some v =>
    rw [hg] at h
    cases v with
    | str t => rw [← h]; rfl
    | _ => exact absurd h.symm hs

lemma get_renamed {item : Obj} (normalized : String) (h : (Obj.val item "id").text ≠ "") :
    get (renamed item normalized) "id" = some (.str normalized) := by
  unfold renamed
  split_ifs with hn
  · exact get_set_self _ _ _
  · rw [ne_eq, not_not] at hn
    exact get_of_text hn.symm (hn ▸ h)

lemma get_renamed_ne (item : Obj) (normalized : String) {k : String} (hk : k ≠ "id") :
    get (renamed item normalized) k = get item k := by
  unfold renamed
  split_ifs
  · exact get_set_ne _ _ hk
  · rfl

/-! ### The loop -/

/-- The loop of `sanitizeCodexInputItems` from the ids used so far. -/
inductive Sanitized (d : Digests) (fuel : ℕ) (store remap : Bool) (keyID : String)
    (reserved : List String) : List String → List Json → List Json → Prop
  | nil {used} : Sanitized d fuel store remap keyID reserved used [] []
  | skip {used item rest out} (hk : keptObject store item = none)
      (h : Sanitized d fuel store remap keyID reserved used rest out) :
      Sanitized d fuel store remap keyID reserved used (.obj item :: rest) out
  | other {used value rest out} (hv : ∀ o, value ≠ .obj o)
      (h : Sanitized d fuel store remap keyID reserved used rest out) :
      Sanitized d fuel store remap keyID reserved used (value :: rest) (value :: out)
  | bare {used item kept rest out} (hk : keptObject store item = some kept)
      (hid : (Obj.val kept "id").text = "")
      (h : Sanitized d fuel store remap keyID reserved used rest out) :
      Sanitized d fuel store remap keyID reserved used (.obj item :: rest) (.obj kept :: out)
  | named {used item kept normalized rest out} (hk : keptObject store item = some kept)
      (hid : (Obj.val kept "id").text ≠ "")
      (hn : upstreamItemID d fuel remap keyID reserved used kept (Obj.val kept "id").text =
        some normalized)
      (h : Sanitized d fuel store remap keyID reserved (normalized :: used) rest out) :
      Sanitized d fuel store remap keyID reserved used (.obj item :: rest)
        (.obj (renamed kept normalized) :: out)

variable {d : Digests} {fuel : ℕ} {store remap : Bool} {keyID : String}
  {reserved used : List String}
  {items out : List Json}

/-- What the loop does with the id of one item, and with the table. -/
lemma sanitizeItemID_ok {item : Obj} {x : Obj × List String} {i j : Identity}
    (h : (sanitizeItemID d fuel reserved used item).run i = (.ok x, j)) :
    (Obj.val item "id").text = "" ∧ x = (item, used) ∨
      (Obj.val item "id").text ≠ "" ∧ ∃ normalized, upstreamItemID d fuel i.remap i.keyID reserved
        used item (Obj.val item "id").text = some normalized ∧
        x = (renamed item normalized, normalized :: used) ∧
        (normalized ≠ (Obj.val item "id").text →
          j = i.remember normalized (Obj.val item "id").text) := by
  rw [sanitizeItemID, IdentityM.run_self_bind] at h
  dsimp only at h
  split_ifs at h with hid
  · exact .inl ⟨hid, (pure_ok h).1⟩
  · refine .inr ⟨hid, ?_⟩
    cases hu : upstreamItemID d fuel i.remap i.keyID reserved used item
        (Obj.val item "id").text with
    | none =>
      rw [hu] at h
      cases h
    | some normalized =>
      rw [hu] at h
      dsimp only at h
      refine ⟨normalized, rfl, ?_⟩
      unfold renamed
      split_ifs at h ⊢ with hne
      · obtain ⟨_, _, h1, h2⟩ := bind_ok h
        obtain ⟨rfl, rfl⟩ := pure_ok h2
        cases h1
        exact ⟨rfl, fun _ => rfl⟩
      · exact ⟨(pure_ok h).1, fun h => absurd h hne⟩

lemma leftOut_of_value {value : Json} (hv : ∀ o, value ≠ .obj o) : leftOut store value = false := by
  cases value with
  | obj o => exact absurd rfl (hv o)
  | _ => rfl

/-- What every turn of the loop makes of its item holds between the items and what is sent. -/
lemma sanitizeItems_forall₂ {R : Json → Json → Prop} {i j : Identity}
    (other : ∀ value, (∀ o, value ≠ .obj o) → R value value)
    (kept : ∀ {used item kept x l m}, keptObject store item = some kept →
      (sanitizeItemID d fuel reserved used kept).run l = (.ok x, m) → Extends m j →
        R (.obj item) (.obj x.1))
    (h : (sanitizeItems d fuel store reserved items used).run i = (.ok out, j)) :
    List.Forall₂ R (items.filter fun item => !leftOut store item) out := by
  induction items generalizing used out i with
  | nil =>
    rw [(pure_ok h).1]
    exact .nil
  | cons value rest ih =>
    -- what is no object goes through as it is
    have hskip (hv : ∀ o, value ≠ .obj o) (h : (do
        let rest ← sanitizeItems d fuel store reserved rest used
        pure (value :: rest) : IdentityM (List Json)).run i = (.ok out, j)) :
        List.Forall₂ R ((value :: rest).filter fun item => !leftOut store item) out := by
      obtain ⟨out', _, h1, h2⟩ := bind_ok h
      obtain ⟨rfl, rfl⟩ := pure_ok h2
      rw [List.filter_cons_of_pos (by simp [leftOut_of_value hv])]
      exact .cons (other value hv) (ih h1)
    cases value with
    | obj item =>
      rw [sanitizeItems, ← keptObject] at h
      cases hkept : keptObject store item with
      | none =>
        rw [hkept] at h
        rw [List.filter_cons_of_neg (by simp [leftOut, hkept])]
        exact ih h
      | some object =>
        rw [hkept] at h
        obtain ⟨x, l, h1, h2⟩ := bind_ok h
        obtain ⟨out', _, h3, h4⟩ := bind_ok h2
        obtain ⟨rfl, rfl⟩ := pure_ok h4
        -- the rest of the loop only adds to the table
        have hrest := (tracks_sanitizeItems d fuel store reserved rest x.2).run l
        rw [h3] at hrest
        rw [List.filter_cons_of_pos (by simp [leftOut, hkept])]
        exact .cons (kept hkept h1 hrest) (ih h3)
    | _ => exact hskip (by simp) h

lemma sanitizeItems_ok {i j : Identity}
    (h : (sanitizeItems d fuel store reserved items used).run i = (.ok out, j)) :
    Sanitized d fuel store i.remap i.keyID reserved used items out := by
  induction items generalizing used out i j with
  | nil =>
    rw [(pure_ok h).1]
    exact .nil
  | cons value rest ih =>
    -- what is no object goes through as it is
    have hskip (hv : ∀ o, value ≠ .obj o) (h : (do
        let rest ← sanitizeItems d fuel store reserved rest used
        pure (value :: rest) : IdentityM (List Json)).run i = (.ok out, j)) :
        Sanitized d fuel store i.remap i.keyID reserved used (value :: rest) out := by
      obtain ⟨out', _, h1, h2⟩ := bind_ok h
      rw [(pure_ok h2).1]
      exact .other hv (ih h1)
    cases value with
    | obj item =>
      rw [sanitizeItems] at h
      rw [← keptObject] at h
      cases hk : keptObject store item with
      | none =>
        rw [hk] at h
        exact .skip hk (ih h)
      | some kept =>
        rw [hk] at h
        obtain ⟨x, l, h1, h2⟩ := bind_ok h
        obtain ⟨out', _, h3, h4⟩ := bind_ok h2
        have hrun := (tracks_sanitizeItemID d fuel reserved used kept).run i
        rw [h1] at hrun
        have hnext := ih h3
        rw [← hrun.remap, ← hrun.keyID] at hnext
        rw [(pure_ok h4).1]
        rcases sanitizeItemID_ok h1 with ⟨hid, rfl⟩ | ⟨hid, normalized, hn, rfl, -⟩
        · exact .bare hk hid hnext
        · exact .named hk hid hn hnext
    | _ => exact hskip (by simp) h

lemma items_of_not_arr {o : Obj} {k : String} (h : ∀ items, get o k ≠ some (.arr items)) :
    (Obj.val o k).items = [] := by
  unfold Obj.val
  cases hg : get o k with
  | none => rfl
  | some v =>
    cases v with
    | arr items => exact absurd hg (h items)
    | _ => rfl

lemma sanitizeCodexInputItems_cases {object body : Obj} {i j : Identity}
    (h : (sanitizeCodexInputItems d fuel object).run i = (.ok body, j)) :
    (∃ items out, get object "input" = some (.arr items) ∧ get body "input" = some (.arr out) ∧
      Sanitized d fuel (Obj.val object "store").flag i.remap i.keyID (reservedIDs items) [] items
        out) ∨
      (∀ items, get object "input" ≠ some (.arr items)) ∧ body = object := by
  unfold sanitizeCodexInputItems at h
  split at h
  · rename_i items hitems
    obtain ⟨out, _, h1, h2⟩ := bind_ok h
    obtain ⟨_, _, -, h3⟩ := bind_ok h2
    obtain ⟨rfl, -⟩ := pure_ok h3
    exact .inl ⟨items, out, hitems, get_set_self _ _ _, sanitizeItems_ok h1⟩
  · rename_i hno
    exact .inr ⟨hno, (pure_ok h).1⟩

lemma Sanitized.forall₂ {R : Json → Json → Prop}
    (h : Sanitized d fuel store remap keyID reserved used items out)
    (other : ∀ value, (∀ o, value ≠ .obj o) → R value value)
    (bare : ∀ item kept, keptObject store item = some kept → (Obj.val kept "id").text = "" →
      R (.obj item) (.obj kept))
    (named : ∀ used item kept normalized, keptObject store item = some kept →
      (Obj.val kept "id").text ≠ "" → upstreamItemID d fuel remap keyID reserved used kept
        (Obj.val kept "id").text = some normalized →
          R (.obj item) (.obj (renamed kept normalized))) :
    List.Forall₂ R (items.filter fun item => !leftOut store item) out := by
  induction h with
  | nil => exact .nil
  | skip hk _ ih => rwa [List.filter_cons_of_neg (by simp [leftOut, hk])]
  | @other _ value _ _ hv _ ih =>
    rw [List.filter_cons_of_pos (by simp [leftOut_of_value hv])]
    exact .cons (other value hv) ih
  | bare hk hid _ ih =>
    rw [List.filter_cons_of_pos (by simp [leftOut, hk])]
    exact .cons (bare _ _ hk hid) ih
  | named hk hid hn _ ih =>
    rw [List.filter_cons_of_pos (by simp [leftOut, hk])]
    exact .cons (named _ _ _ _ hk hid hn) ih

lemma exists_of_mem_right {α β : Type} {R : α → β → Prop} {l : List α} {m : List β}
    (h : List.Forall₂ R l m) {b : β} (hb : b ∈ m) : ∃ a ∈ l, R a b := by
  induction h with
  | nil => cases hb
  | cons hr _ ih =>
    rcases List.mem_cons.mp hb with rfl | hb
    · exact ⟨_, List.mem_cons_self, hr⟩
    · obtain ⟨a, ha, hab⟩ := ih hb
      exact ⟨a, List.mem_cons_of_mem _ ha, hab⟩

/-- Two items agree in every field but the id and the encrypted content. -/
def SameFields : Json → Json → Prop
  | .obj a, .obj b => ∀ k, k ≠ "id" → k ≠ "encrypted_content" → get a k = get b k
  | a, b => a = b

lemma SameFields.refl (v : Json) : SameFields v v := by
  cases v with
  | obj o => exact fun _ _ _ => rfl
  | _ => rfl

lemma keptObject_cases {item kept : Obj} (h : keptObject store item = some kept) :
    kept = item ∨ kept = erase item "id" ∨ kept = erase item "encrypted_content" ∨
      kept = erase (erase item "encrypted_content") "id" := by
  unfold keptObject sanitizeCodexReasoningItem at h
  split at h
  · split at h
    · split_ifs at h <;> simp_all
    · split_ifs at h <;> simp_all
  · exact .inl (Option.some.inj h).symm

lemma get_keptObject {item kept : Obj} (h : keptObject store item = some kept) {k : String}
    (h1 : k ≠ "id") (h2 : k ≠ "encrypted_content") : get kept k = get item k := by
  rcases keptObject_cases h with rfl | rfl | rfl | rfl
  · rfl
  · exact get_erase_ne _ h1
  · exact get_erase_ne _ h2
  · rw [get_erase_ne _ h1, get_erase_ne _ h2]

lemma Sanitized.sameFields (h : Sanitized d fuel store remap keyID reserved used items out) :
    List.Forall₂ SameFields (items.filter fun item => !leftOut store item) out := by
  refine h.forall₂ (fun value _ => .refl value) (fun item kept hk _ k h1 h2 => ?_)
    fun _ item kept normalized hk _ _ k h1 h2 => ?_
  · exact (get_keptObject hk h1 h2).symm
  · rw [get_renamed_ne _ _ h1, get_keptObject hk h1 h2]

lemma canon_keptObject {item kept : Obj} (hc : (obj item).canon = obj item)
    (h : keptObject store item = some kept) : (obj kept).canon = obj kept := by
  rcases keptObject_cases h with rfl | rfl | rfl | rfl
  · exact hc
  · exact canon_erase hc _
  · exact canon_erase hc _
  · exact canon_erase (canon_erase hc _) _

lemma Sanitized.canon (h : Sanitized d fuel store remap keyID reserved used items out)
    (hc : ∀ item ∈ items, item.canon = item) : ∀ item ∈ out, item.canon = item := by
  induction h with
  | nil => exact hc
  | skip _ _ ih => exact ih fun item hm => hc item (List.mem_cons_of_mem _ hm)
  | other _ _ ih =>
    obtain ⟨h1, h2⟩ := List.forall_mem_cons.mp hc
    exact List.forall_mem_cons.mpr ⟨h1, ih h2⟩
  | bare hk _ _ ih =>
    obtain ⟨h1, h2⟩ := List.forall_mem_cons.mp hc
    exact List.forall_mem_cons.mpr ⟨canon_keptObject h1 hk, ih h2⟩
  | named hk _ _ _ ih =>
    obtain ⟨h1, h2⟩ := List.forall_mem_cons.mp hc
    refine List.forall_mem_cons.mpr ⟨?_, ih h2⟩
    unfold renamed
    exact Normalize.canon_obj_ite (canon_set (canon_keptObject h1 hk) _ rfl)
      (canon_keptObject h1 hk)

/-- The rules an item follows when it is not stored. -/
structure ItemRules (item : Obj) : Prop where
  short : (Obj.val item "id").text.length ≤ codexInputItemIDLimit
  named : (Obj.val item "id").text ≠ "" →
    hasPrefix (Obj.val item "id").text (codexInputItemPrefix item) = true
  encrypted : (Obj.val item "type").text = "reasoning" → has item "id" = true →
    validCodexReasoningEncryptedContent (Obj.val item "encrypted_content").text = true

instance (item : Obj) : Decidable (ItemRules item) :=
  decidable_of_iff
    ((Obj.val item "id").text.length ≤ codexInputItemIDLimit ∧
      ((Obj.val item "id").text ≠ "" →
        hasPrefix (Obj.val item "id").text (codexInputItemPrefix item) = true) ∧
      ((Obj.val item "type").text = "reasoning" → has item "id" = true →
        validCodexReasoningEncryptedContent (Obj.val item "encrypted_content").text = true))
    ⟨fun h => ⟨h.1, h.2.1, h.2.2⟩, fun h => ⟨h.short, h.named, h.encrypted⟩⟩

lemma hex_length (bytes : List UInt8) : (Digests.hex bytes).length = 2 * bytes.length := by
  rw [Digests.hex, List.length_flatMap]
  induction bytes with
  | nil => rfl
  | cons b bytes ih =>
    rw [List.map_cons, List.sum_cons, ih, List.length_cons]
    simp only [hexDigits, List.length_cons, List.length_nil]
    omega

lemma shortenSuffix_length (d : Digests) (itemID : String) (attempt : ℕ) :
    (shortenSuffix d itemID attempt).length = 17 := by
  unfold shortenSuffix
  simp only [String.length_append, String.length_ofList, hex_length, List.length_take,
    List.length_ofFn]
  decide

lemma shortenCodexInputItemID_length (d : Digests) (itemID : String) (attempt : ℕ) :
    (shortenCodexInputItemID d itemID attempt).length ≤ codexInputItemIDLimit := by
  unfold shortenCodexInputItemID takeRunes codexInputItemIDLimit
  dsimp only
  rw [String.length_append, shortenSuffix_length]
  simp

lemma uniqueCodexInputItemID_ok {itemID n : String} {reserved used : List String}
    (h : uniqueCodexInputItemID d fuel itemID reserved used = some n) :
    n ∉ reserved ∧ n ∉ used ∧ ∃ attempt, n = shortenCodexInputItemID d itemID attempt := by
  unfold uniqueCodexInputItemID at h
  generalize 0 = attempt at h
  induction fuel generalizing attempt with
  | zero => cases h
  | succ fuel ih =>
    rw [uniqueCodexInputItemIDFrom] at h
    split_ifs at h with hc
    · exact ih _ h
    · obtain rfl := Option.some.inj h
      rw [not_or] at hc
      exact ⟨hc.1, hc.2, _, rfl⟩

lemma hasPrefix_iff {s p : String} : hasPrefix s p = true ↔ p.toList <+: s.toList := by
  rw [hasPrefix, List.isPrefixOf_iff_prefix]

lemma hasPrefix_append (p s : String) : hasPrefix (p ++ s) p = true := by
  rw [hasPrefix_iff, String.toList_append]
  exact List.prefix_append _ _

lemma hasPrefix_empty (s : String) : hasPrefix s "" = true := by
  rw [hasPrefix_iff]
  exact List.nil_prefix

lemma prefix_length (item : Obj) : (codexInputItemPrefix item).length ≤ 4 := by
  unfold codexInputItemPrefix
  dsimp only
  split_ifs <;> decide

lemma hasPrefix_shorten {itemID p : String} (hp : p.length ≤ 47) (h : hasPrefix itemID p = true)
    (attempt : ℕ) : hasPrefix (shortenCodexInputItemID d itemID attempt) p = true := by
  rw [hasPrefix_iff] at h ⊢
  unfold shortenCodexInputItemID takeRunes codexInputItemIDLimit
  dsimp only
  rw [String.toList_append, shortenSuffix_length, String.toList_ofList]
  refine List.IsPrefix.trans ?_ (List.prefix_append _ _)
  have hl := h.length_le
  rw [List.prefix_take_iff]
  refine ⟨h, ?_⟩
  simp only [String.length_toList] at hl ⊢
  omega

lemma hasPrefix_canonical (item : Obj) {itemID : String} (h : itemID ≠ "") :
    hasPrefix (canonicalCodexInputItemID item itemID) (codexInputItemPrefix item) = true := by
  unfold canonicalCodexInputItemID
  split_ifs with hc
  · rcases hc with hc | hc | hc
    · rw [hc]
      exact hasPrefix_empty _
    · exact absurd hc h
    · exact hc
  · rw [String.append_assoc]
    exact hasPrefix_append _ _

lemma hasPrefix_wanted (item : Obj) {itemID : String} (h : itemID ≠ "") :
    hasPrefix (wantedItemID d remap keyID item itemID) (codexInputItemPrefix item) = true := by
  unfold wantedItemID
  dsimp only
  split_ifs
  · unfold mappedCodexInputItemID
    dsimp only
    split_ifs with hp
    · rw [hp]
      exact hasPrefix_empty _
    · rw [String.append_assoc]
      exact hasPrefix_append _ _
  · exact hasPrefix_canonical item h

lemma upstreamItemID_ok {item : Obj} {itemID n : String}
    (h : upstreamItemID d fuel remap keyID reserved used item itemID = some n) :
    ∃ m, (m = wantedItemID d remap keyID item itemID ∧ (m ∈ reserved → m = itemID) ∨
        wantedItemID d remap keyID item itemID ∈ reserved ∧
        wantedItemID d remap keyID item itemID ≠ itemID ∧ m ∉ reserved ∧ m ∉ used ∧
        ∃ a, m = shortenCodexInputItemID d (wantedItemID d remap keyID item itemID) a) ∧
      (n = m ∧ m.length ≤ codexInputItemIDLimit ∨
        codexInputItemIDLimit < m.length ∧ n ∉ reserved ∧ n ∉ used ∧
        ∃ a, n = shortenCodexInputItemID d m a) := by
  have hlast {m : String} (h : (if m.length > codexInputItemIDLimit then
      uniqueCodexInputItemID d fuel m reserved used else some m) = some n) :
      n = m ∧ m.length ≤ codexInputItemIDLimit ∨
        codexInputItemIDLimit < m.length ∧ n ∉ reserved ∧ n ∉ used ∧
        ∃ a, n = shortenCodexInputItemID d m a := by
    split_ifs at h with hc
    · exact .inr ⟨hc, uniqueCodexInputItemID_ok h⟩
    · exact .inl ⟨(Option.some.inj h).symm, not_lt.mp hc⟩
  unfold upstreamItemID at h
  dsimp only at h
  by_cases hc : wantedItemID d remap keyID item itemID ∈ reserved ∧
      wantedItemID d remap keyID item itemID ≠ itemID
  · rw [if_pos hc] at h
    obtain ⟨m, hm, h⟩ := Option.bind_eq_some_iff.mp h
    exact ⟨m, .inr ⟨hc.1, hc.2, uniqueCodexInputItemID_ok hm⟩, hlast h⟩
  · rw [if_neg hc] at h
    refine ⟨_, .inl ⟨rfl, fun hr => ?_⟩, hlast h⟩
    by_contra hne
    exact hc ⟨hr, hne⟩

lemma upstreamItemID_length {item : Obj} {itemID n : String}
    (h : upstreamItemID d fuel remap keyID reserved used item itemID = some n) :
    n.length ≤ codexInputItemIDLimit := by
  obtain ⟨m, -, ⟨rfl, hm⟩ | ⟨-, -, -, a, rfl⟩⟩ := upstreamItemID_ok h
  · exact hm
  · exact shortenCodexInputItemID_length d m a

lemma upstreamItemID_hasPrefix {item : Obj} {itemID n : String} (hid : itemID ≠ "")
    (h : upstreamItemID d fuel remap keyID reserved used item itemID = some n) :
    hasPrefix n (codexInputItemPrefix item) = true := by
  have hp : (codexInputItemPrefix item).length ≤ 47 := (prefix_length item).trans (by decide)
  obtain ⟨m, hm, hn⟩ := upstreamItemID_ok h
  have hmp : hasPrefix m (codexInputItemPrefix item) = true := by
    obtain ⟨rfl, -⟩ | ⟨-, -, -, -, a, rfl⟩ := hm
    · exact hasPrefix_wanted item hid
    · exact hasPrefix_shorten hp (hasPrefix_wanted item hid) a
  obtain ⟨rfl, -⟩ | ⟨-, -, -, a, rfl⟩ := hn
  · exact hmp
  · exact hasPrefix_shorten hp hmp a

lemma encrypted_keptObject {item kept : Obj} (h : keptObject false item = some kept)
    (ht : (Obj.val kept "type").text = "reasoning") (hid : has kept "id" = true) :
    validCodexReasoningEncryptedContent (Obj.val kept "encrypted_content").text = true := by
  have htype : Obj.val kept "type" = Obj.val item "type" :=
    Obj.val_congr (get_keptObject h (by decide) (by decide))
  rw [keptObject, if_pos (htype ▸ ht), sanitizeCodexReasoningItem] at h
  have herased (o : Obj) (ho : erase o "id" = kept) : False := by
    rw [← ho, has, get_erase_self] at hid
    cases hid
  cases hg : get item "encrypted_content" with
  | none =>
    rw [hg] at h
    exact (herased _ (Option.some.inj h)).elim
  | some value =>
    rw [hg] at h
    dsimp only at h
    by_cases hv : validCodexReasoningEncryptedContent value.text = true
    · rw [if_pos hv] at h
      split_ifs at h
      rw [← Option.some.inj h, Obj.val_of_get hg]
      exact hv
    · rw [if_neg hv, if_neg (by simp)] at h
      exact (herased _ (Option.some.inj h)).elim

lemma codexInputItemPrefix_congr {a b : Obj} (h : get a "type" = get b "type") :
    codexInputItemPrefix a = codexInputItemPrefix b := by
  unfold codexInputItemPrefix
  rw [Obj.val_congr h]

/-- An item follows the rules for items that are not stored. -/
def FollowsRules : Json → Prop
  | .obj item => ItemRules item
  | _ => True

instance : DecidablePred FollowsRules
  | .obj item => inferInstanceAs (Decidable (ItemRules item))
  | .null | .bool _ | .num _ | .str _ | .arr _ => inferInstanceAs (Decidable True)

lemma Sanitized.followsRules (h : Sanitized d fuel false remap keyID reserved used items out) :
    ∀ item ∈ out, FollowsRules item := by
  have hall : List.Forall₂ (fun _ item => FollowsRules item)
      (items.filter fun item => !leftOut false item) out := by
    refine h.forall₂ (fun value hv => ?_) (fun item kept hk hid => ?_)
      fun used item kept normalized hk hid hn => ?_
    · cases value with
      | obj o => exact absurd rfl (hv o)
      | _ => trivial
    · refine ⟨?_, fun hne => absurd hid hne, encrypted_keptObject hk⟩
      rw [hid]
      decide
    · have htext : (Obj.val (renamed kept normalized) "id").text = normalized := by
        rw [Obj.val_of_get (get_renamed normalized hid)]
        rfl
      have hpre := codexInputItemPrefix_congr
        (get_renamed_ne kept normalized (k := "type") (by decide))
      refine ⟨?_, fun _ => ?_, fun ht _ => ?_⟩
      · rw [htext]
        exact upstreamItemID_length hn
      · rw [htext, hpre]
        exact upstreamItemID_hasPrefix hid hn
      · rw [Obj.val_congr (get_renamed_ne kept normalized (by decide))] at ht ⊢
        refine encrypted_keptObject hk ht ?_
        rw [has, get_of_text rfl hid]
        rfl
  intro item hitem
  obtain ⟨_, -, hr⟩ := exists_of_mem_right hall hitem
  exact hr

end CodexOne.Compat

namespace CodexOne.Planned

open Members JsonOf Conversation Compat

variable {k : Connection} {c : Conversation} {planType : String} {object : Obj} {turn : Turn}
  {plan : Plan}

lemma currentInput_eq (h : Planned k c planType turn plan) (hr : c.readObject object = .ok turn) :
    ∃ sent, plan.currentInput = sent.map Raw.ofJson ∧
      Sanitized k.digests k.fuel false h.before.remap h.before.keyID
        (reservedIDs (Obj.val turn.body "input").items) [] (Obj.val turn.body "input").items sent ∧
      (Obj.val plan.incremental "input").items = sent := by
  obtain ⟨sanitized, sent, i, l, hb, -, hs, -, hl, -, hext, ha⟩ := planTurn_spec h.run
  obtain ⟨currentInput, hcur, -, hf⟩ := assemble_ok ha plan.identity
  have he := h.plan_eq.trans hf
  have hinput : get sanitized "input" = get turn.body "input" :=
    hb _ (by decide) (by decide) (by decide) (by decide)
  have hstore : (Obj.val sanitized "store").flag = false := by
    rw [Obj.val_congr (hb "store" (by decide) (by decide) (by decide) (by decide)), turn_body hr,
      Obj.val_of_get (Normalize.get_store _)]
    rfl
  have hsent : get l "input" = get sent "input" := by
    rw [hl, get_normalizeCodexParallelToolCalls _ _ _ (by decide)]
  have hinc : Obj.val plan.incremental "input" = Obj.val sent "input" := by
    refine Obj.val_congr ?_
    rw [congrArg Plan.incremental he]
    exact (get_set_ne _ _ (by decide)).trans hsent
  rw [congrArg Plan.currentInput he, hinc]
  rw [Obj.val_congr hsent] at hcur
  rcases sanitizeCodexInputItems_cases hs with ⟨items, out, hi, ho, hsan⟩ | ⟨hno, rfl⟩
  · rw [hinput] at hi
    rw [Obj.val_of_get ho] at hcur ⊢
    rw [Obj.val_of_get hi]
    rw [hstore, ← hext.remap, ← hext.keyID] at hsan
    exact ⟨out, (Except.ok.inj hcur).symm, hsan, rfl⟩
  · -- without items the input is `null`
    have hnull : Obj.val sent "input" = .null := by
      unfold Obj.val at hcur ⊢
      cases hg : get sent "input" with
      | none => rfl
      | some v =>
        rw [hg] at hcur
        cases v with
        | null => rfl
        | arr items => exact absurd hg (hno items)
        | _ => cases hcur
    rw [hnull] at hcur ⊢
    rw [← Obj.val_congr hinput, hnull]
    exact ⟨[], (Except.ok.inj hcur).symm, .nil, rfl⟩

end CodexOne.Planned
