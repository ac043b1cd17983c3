import CodexOne.ItemIDs

/-!
Sanitizing the items of one request, and sanitizing them twice.

An id that is kept is reserved before any other id is looked for, and a rewritten id that two
items would share is a collision in the reverse table. So two items share an id only when the
client gave them one. What has been sanitized is sent as it is, so the HTTP fallback may prepare
a body that was prepared for the WebSocket.
-/

namespace CodexOne.Compat

open Members JsonOf GoStrings Identity

variable {d : Digests} {fuel : ℕ} {store remap : Bool} {keyID : String}
  {reserved used : List String}
  {items out : List Json} {object body : Obj} {i j k : Identity}

lemma mem_of_remember {u c : String} (hext : Extends (i.remember u c) k) (hk : k.mappingErr = none)
    (hidle : ¬Idle u c) : (u, c) ∈ k.reverse := by
  have hrem : (i.remember u c).mappingErr = none := by
    by_contra he
    exact he (hext.stuck he ▸ hk)
  refine hext.reverse.subset ?_
  by_cases hi : i.mappingErr = none
  · rcases remember_cases hi u c with ⟨h, hidle' | hmem⟩ | ⟨_, _, -, -, h⟩ | ⟨-, e, h⟩
    · exact absurd hidle' hidle
    · rwa [h]
    · rw [h]
      simp [add]
    · rw [h] at hrem
      cases hrem
  · rw [remember_of_err hi] at hrem
    exact absurd hrem hi

/-- The table restores the id that an item was given. -/
def Restored (k : Identity) (item sent : Json) : Prop :=
  idText sent ≠ "" → idText sent ≠ idText item → (idText sent, idText item) ∈ k.reverse

lemma sanitizeItemID_restored {item : Obj} {x : Obj × List String}
    (h : (sanitizeItemID d fuel reserved used item).run i = (.ok x, j)) (hext : Extends j k)
    (hk : k.mappingErr = none) : Restored k (obj item) (obj x.1) := by
  rcases sanitizeItemID_ok h with ⟨-, rfl⟩ | ⟨hid, n, -, rfl, hj⟩
  · exact fun _ hne => absurd rfl hne
  · have htext : idText (obj (renamed item n)) = n := by
      rw [idText, members_obj, Obj.val_of_get (get_renamed n hid)]
      rfl
    rw [Restored, htext]
    intro hsent hdiff
    refine mem_of_remember (hj hdiff ▸ hext) hk ?_
    rintro (h | h | h)
    · exact hsent h
    · exact hid h
    · exact hdiff h

lemma Restored.of_kept {item kept : Obj} {sent : Json} (hkept : keptObject store item = some kept)
    (hid : idText (obj kept) = "" → idText sent = "") (h : Restored k (obj kept) sent) :
    Restored k (obj item) sent := fun hne hdiff => by
  have hsame : idText (obj kept) = idText (obj item) :=
    id_keptObject hkept fun he => hne (hid he)
  rw [← hsame] at hdiff ⊢
  exact h hne hdiff

lemma sanitizeItems_restored
    (h : (sanitizeItems d fuel store reserved items used).run i = (.ok out, j)) (hext : Extends j k)
    (hk : k.mappingErr = none) :
    List.Forall₂ (Restored k) (items.filter fun item => !leftOut store item) out := by
  refine sanitizeItems_forall₂ (fun _ _ _ hne => absurd rfl hne) ?_ h
  intro used item kept x l m hkept hid hm
  refine .of_kept hkept ?_ (sanitizeItemID_restored hid (hm.trans hext) hk)
  intro hempty
  rcases sanitizeItemID_ok hid with ⟨hid, hx⟩ | ⟨hid, -⟩
  · rw [hx]
    exact hid
  · exact absurd hempty hid

/-! ### Ids -/

/-- The id of an item, of any type. -/
def idOf (item : Json) : Option Json := get item.members "id"

structure SentFrom (k : Identity) (item sent : Json) : Prop where
  fields : SameFields item sent
  short : (idText sent).length ≤ codexInputItemIDLimit
  named : idText sent ≠ "" → hasPrefix (idText sent) (codexInputItemPrefix sent.members) = true
  keeps : (Obj.val item.members "type").text ≠ "reasoning" → (idOf sent).isSome = (idOf item).isSome
  restored : ∀ v, idOf sent = some v → idOf item = some v ∨ ∃ n c, v = .str n ∧
    idOf item = some (.str c) ∧ k.reverse.lookup n = some c

lemma get_id_keptObject {item kept : Obj} (h : keptObject store item = some kept) :
    get kept "id" = get item "id" ∨ get kept "id" = none := by
  rcases keptObject_cases h with rfl | rfl | rfl | rfl
  · exact .inl rfl
  · exact .inr (get_erase_self _ _)
  · exact .inl (get_erase_ne _ (by decide))
  · exact .inr (get_erase_self _ _)

lemma keptObject_other {item kept : Obj} (h : keptObject store item = some kept)
    (ht : (Obj.val item "type").text ≠ "reasoning") : kept = item := by
  rw [keptObject, if_neg ht] at h
  exact (Option.some.inj h).symm

lemma upstreamItemID_ne_empty {item : Obj} {itemID n : String} (hid : itemID ≠ "")
    (h : upstreamItemID d fuel remap keyID reserved used item itemID = some n) : n ≠ "" := by
  have hshort (m : String) (a : ℕ) : shortenCodexInputItemID d m a ≠ "" := fun he => by
    have hlen := congrArg String.length he
    rw [shortenCodexInputItemID, String.length_append, shortenSuffix_length] at hlen
    simp at hlen
  obtain ⟨m, hm, hn⟩ := upstreamItemID_ok h
  obtain ⟨rfl, -⟩ | ⟨-, -, -, a, rfl⟩ := hn
  · obtain ⟨rfl, -⟩ | ⟨-, -, -, -, a, rfl⟩ := hm
    · exact wanted_ne_empty hid
    · exact hshort _ a
  · exact hshort _ a

/-- What the loop alone makes of an item. -/
structure Shaped (item sent : Json) : Prop where
  fields : SameFields item sent
  short : (idText sent).length ≤ codexInputItemIDLimit
  named : idText sent ≠ "" → hasPrefix (idText sent) (codexInputItemPrefix sent.members) = true
  keeps : (Obj.val item.members "type").text ≠ "reasoning" → (idOf sent).isSome = (idOf item).isSome
  text : ∀ v, idOf sent = some v → idOf item = some v ∨ ∃ n c, n ≠ "" ∧ n ≠ c ∧ v = .str n ∧
    idOf item = some (.str c)

lemma Sanitized.shaped (h : Sanitized d fuel store remap keyID reserved used items out) :
    List.Forall₂ Shaped (items.filter fun item => !leftOut store item) out := by
  refine h.forall₂ (fun value hv => ?_) (fun item kept hkept hid => ?_)
    fun used item kept n hkept hid hn => ?_
  · have hno : idText value = "" := idText_other hv
    exact ⟨.refl value, hno ▸ Nat.zero_le _, fun hne => absurd hno hne, fun _ => rfl,
      fun v hv => .inl hv⟩
  · refine ⟨fun key h1 h2 => (get_keptObject hkept h1 h2).symm, ?_,
      fun hne => absurd hid hne, fun ht => ?_, fun v hv => ?_⟩
    · exact (congrArg String.length hid).trans_le (Nat.zero_le _)
    · rw [keptObject_other hkept ht]
    · rcases get_id_keptObject hkept with he | he
      · exact .inl (he.symm.trans hv)
      · exact absurd (he.symm.trans hv) (by simp)
  · have htext : idText (obj (renamed kept n)) = n := idText_renamed n hid
    have hpre : codexInputItemPrefix (renamed kept n) = codexInputItemPrefix kept :=
      codexInputItemPrefix_congr (get_renamed_ne kept n (by decide))
    have hgiven : get item "id" = some (.str (Obj.val kept "id").text) := by
      rcases get_id_keptObject hkept with he | he
      · rw [← he]
        exact get_of_text rfl hid
      · rw [Obj.val, he] at hid
        exact absurd rfl hid
    have hsent : idOf (obj (renamed kept n)) = some (.str n) := get_renamed n hid
    refine ⟨fun key h1 h2 => ?_, ?_, fun _ => ?_, fun _ => ?_, fun v hv => ?_⟩
    · rw [get_renamed_ne _ _ h1, get_keptObject hkept h1 h2]
    · rw [htext]
      exact upstreamItemID_length hn
    · rw [htext, members_obj, hpre]
      exact upstreamItemID_hasPrefix hid hn
    · rw [hsent, idOf, members_obj, hgiven]
      rfl
    · rw [hsent] at hv
      obtain rfl := Option.some.inj hv
      by_cases hsame : n = (Obj.val kept "id").text
      · left
        rw [idOf, members_obj, hgiven, hsame]
      · exact .inr ⟨n, _, upstreamItemID_ne_empty hid hn, hsame, rfl, hgiven⟩

lemma idText_of_idOf {item : Json} {n : String} (h : idOf item = some (.str n)) :
    idText item = n := by
  rw [idText, Obj.val_of_get h]
  rfl

lemma Shaped.sentFrom {item sent : Json} (h : Shaped item sent) (hr : Restored k item sent) :
    SentFrom k item sent := by
  refine ⟨h.fields, h.short, h.named, h.keeps, fun v hv => (h.text v hv).imp_right ?_⟩
  rintro ⟨n, c, hn, hne, rfl, hc⟩
  refine ⟨n, c, rfl, hc, (lookup_eq_some_iff k.distinct).mpr ?_⟩
  have h1 := idText_of_idOf hv
  have h2 := idText_of_idOf hc
  have hmem := hr (h1.symm ▸ hn) (by rw [h1, h2]; exact hne)
  rwa [h1, h2] at hmem

lemma Shaped.isReserved {item sent : Json} (h : Shaped item sent) (hitem : item ∈ items)
    (hne : idText sent ≠ "") (hsame : idText sent = idText item) :
    idText sent ∈ reservedIDs items := by
  cases item with
  | obj o =>
    cases sent with
    | obj s =>
      have hpre : codexInputItemPrefix s = codexInputItemPrefix o :=
        codexInputItemPrefix_congr (h.fields "type" (by decide) (by decide)).symm
      have hnamed := h.named hne
      rw [members_obj, hpre] at hnamed
      have hshort := h.short
      rw [hsame] at hne hnamed hshort ⊢
      exact mem_reservedIDs hitem ⟨canonical_of_hasPrefix hnamed, hshort⟩ hne
    | _ => exact absurd rfl hne
  | _ => exact absurd (hsame.trans rfl) hne

lemma not_reserved {item sent : Json} (h : SentUnder d fuel remap keyID reserved used item sent)
    (hne : idText sent ≠ "") (hdiff : idText sent ≠ idText item) : idText sent ∉ reserved := by
  obtain ⟨o, -, -, ⟨-, hsame⟩ | ⟨-, hres, -⟩⟩ := h.cases hne
  · exact absurd hsame hdiff
  · exact hres

lemma idOf_injective {x y : Json × Json} (hx : Shaped x.1 x.2) (hy : Shaped y.1 y.2)
    (hxr : Restored k x.1 x.2) (hyr : Restored k y.1 y.2) (hxi : x.1 ∈ items) (hyi : y.1 ∈ items)
    (hxs : SentUnder d fuel remap keyID (reservedIDs items) used x.1 x.2)
    (hys : SentUnder d fuel remap keyID (reservedIDs items) used y.1 y.2) {v : Json}
    (hxv : idOf x.2 = some v) (hyv : idOf y.2 = some v) : idOf x.1 = idOf y.1 := by
  rcases hx.text v hxv with hx' | ⟨n, c, hn, hnc, rfl, hxc⟩
  · rcases hy.text v hyv with hy' | ⟨n, c, hn, hnc, rfl, hyc⟩
    · exact hx'.trans hy'.symm
    · -- the first id is kept and the second is not
      have hxn := idText_of_idOf hxv
      have hyn := idText_of_idOf hyv
      refine absurd (hx.isReserved hxi (hxn ▸ hn) (hxn.trans (idText_of_idOf hx').symm)) ?_
      rw [hxn, ← hyn]
      exact not_reserved hys (hyn ▸ hn) (by rwa [hyn, idText_of_idOf hyc])
  · have hxn := idText_of_idOf hxv
    have hyn := idText_of_idOf hyv
    have hxdiff : idText x.2 ≠ idText x.1 := by rwa [hxn, idText_of_idOf hxc]
    rcases hy.text _ hyv with hy' | ⟨n', c', -, hnc', he, hyc⟩
    · refine absurd (hy.isReserved hyi (hyn ▸ hn) (hyn.trans (idText_of_idOf hy').symm)) ?_
      rw [hyn, ← hxn]
      exact not_reserved hxs (hxn ▸ hn) hxdiff
    · -- both are in the table, under one key
      obtain rfl : n = n' := by simpa using he
      have hmemx := hxr (hxn ▸ hn) hxdiff
      have hmemy := hyr (hyn ▸ hn) (by rwa [hyn, idText_of_idOf hyc])
      rw [hxn, ← lookup_eq_some_iff k.distinct] at hmemx
      rw [hyn, ← lookup_eq_some_iff k.distinct] at hmemy
      have hsame := Option.some.inj (hmemx.symm.trans hmemy)
      rw [idText_of_idOf hxc, idText_of_idOf hyc] at hsame
      rw [hxc, hyc, hsame]

lemma type_of_leftOut {item : Json} (h : leftOut store item = true) :
    (Obj.val item.members "type").text = "reasoning" := by
  cases item with
  | obj o =>
    by_contra hne
    rw [members_obj] at hne
    rw [leftOut, keptObject, if_neg hne] at h
    cases h
  | _ => cases h

/-- **Sanitizing the items of a request.** The items that are left stay in order, and only
reasoning is left out or loses its id. Every id is short and has the prefix of its type, two
items share an id only when the client gave them one, and the table restores every id that was
rewritten. -/
theorem sanitizeCodexInputItems_ids
    (h : (sanitizeCodexInputItems d fuel object).run i = (.ok body, j)) :
    (∀ item ∈ (Obj.val object "input").items, leftOut (Obj.val object "store").flag item = true →
      (Obj.val item.members "type").text = "reasoning") ∧
    List.Forall₂ (SentFrom j) ((Obj.val object "input").items.filter fun item =>
      !leftOut (Obj.val object "store").flag item) (Obj.val body "input").items ∧
    (((Obj.val object "input").items.filter fun item =>
      !leftOut (Obj.val object "store").flag item).zip (Obj.val body "input").items).Pairwise
        fun x y => ∀ v, idOf x.2 = some v → idOf y.2 = some v → idOf x.1 = idOf y.1 := by
  refine ⟨fun _ _ => type_of_leftOut, ?_⟩
  unfold sanitizeCodexInputItems at h
  split at h
  · rename_i items hitems
    obtain ⟨out, l, h1, h2⟩ := bind_ok h
    obtain ⟨_, _, h3, h4⟩ := bind_ok h2
    obtain ⟨rfl, rfl⟩ := pure_ok h4
    obtain ⟨rfl, herr⟩ := mappingError_ok h3
    rw [Obj.val_of_get hitems, Obj.val_of_get (get_set_self _ _ _)]
    have hsan := sanitizeItems_ok h1
    have hres := sanitizeItems_restored h1 (.refl _) herr
    have hshaped := hsan.shaped
    have hunder := List.forall₂_iff_zip.mp hsan.sentUnder
    refine ⟨hshaped.mp (fun _ _ hs hr => hs.sentFrom hr) hres, ?_⟩
    refine List.pairwise_of_forall_mem_list fun x hx y hy v hxv hyv => ?_
    have hmem {z : Json × Json} (hz : z ∈ (items.filter fun item =>
        !leftOut (Obj.val object "store").flag item).zip out) :
        Shaped z.1 z.2 ∧ Restored j z.1 z.2 ∧ z.1 ∈ items ∧ SentUnder d fuel i.remap i.keyID
          (reservedIDs items) [] z.1 z.2 :=
      ⟨(List.forall₂_iff_zip.mp hshaped).2 hz, (List.forall₂_iff_zip.mp hres).2 hz,
        List.mem_of_mem_filter (List.of_mem_zip hz).1, hunder.2 hz⟩
    obtain ⟨hx1, hx2, hx3, hx4⟩ := hmem hx
    obtain ⟨hy1, hy2, hy3, hy4⟩ := hmem hy
    exact idOf_injective hx1 hy1 hx2 hy2 hx3 hy3 hx4 hy4 hxv hyv
  · rename_i hno
    obtain ⟨rfl, rfl⟩ := pure_ok h
    rw [items_of_not_arr hno]
    exact ⟨.nil, .nil⟩

/-- Messages and a reasoning item that is not stored. -/
def threeItems : Obj :=
  [("input", .arr [.obj [("id", .str "x"), ("type", .str "message")],
    .obj [("id", .str "rs_1"), ("type", .str "reasoning")],
    .obj [("id", .str "msg_y"), ("type", .str "message")]])]

/-- One message gets the prefix of its type, and the reasoning loses its id. -/
theorem sanitizeCodexInputItems_ids_three :
    ∃ body j, (sanitizeCodexInputItems .zero 1 threeItems).run (blank false "key" "") =
        (.ok body, j) ∧
      (Obj.val body "input").items.map idOf = [some (.str "msg_x"), none, some (.str "msg_y")] ∧
      List.Forall₂ (SentFrom j) ((Obj.val threeItems "input").items.filter fun item =>
        !leftOut (Obj.val threeItems "store").flag item) (Obj.val body "input").items := by
  have hids : (((sanitizeCodexInputItems .zero 1 threeItems).run
      (blank false "key" "")).1.toOption.any fun body => decide ((Obj.val body "input").items.map
        idOf = [some (.str "msg_x"), none, some (.str "msg_y")])) = true := by decide
  rcases hrun : (sanitizeCodexInputItems .zero 1 threeItems).run (blank false "key" "") with
    ⟨_ | body, j⟩
  · rw [hrun] at hids
    cases hids
  · rw [hrun] at hids
    exact ⟨body, j, rfl, of_decide_eq_true hids, (sanitizeCodexInputItems_ids hrun).2.1⟩

/-- The rules for reasoning leave an item as it is. -/
def Settled (store : Bool) : Json → Prop
  | .obj item => keptObject store item = some item ∧ (idText (obj item) ≠ "" → Verbatim item)
  | _ => True

/-- An item that the rules for reasoning have been applied to. -/
def Ruled (store : Bool) (item : Obj) : Prop :=
  (Obj.val item "type").text = "reasoning" →
    get item "encrypted_content" = none ∧ (store = true ∨ get item "id" = none) ∨
    ∃ value, get item "encrypted_content" = some value ∧
      validCodexReasoningEncryptedContent value.text = true ∧
      (Obj.val item "id").text.length ≤ codexInputItemIDLimit

lemma ruled_of_kept {item kept : Obj} (h : keptObject store item = some kept) :
    Ruled store kept := by
  intro ht
  have htype : Obj.val kept "type" = Obj.val item "type" :=
    Obj.val_congr (get_keptObject h (by decide) (by decide))
  rw [keptObject, if_pos (htype ▸ ht), sanitizeCodexReasoningItem] at h
  cases hg : get item "encrypted_content" with
  | none =>
    rw [hg] at h
    dsimp only at h
    left
    split_ifs at h with hstore
    · rw [← Option.some.inj h]
      exact ⟨hg, .inl hstore⟩
    · rw [← Option.some.inj h]
      exact ⟨by rw [get_erase_ne _ (by decide), hg], .inr (get_erase_self _ _)⟩
  | some value =>
    rw [hg] at h
    dsimp only at h
    split_ifs at h with hvalid hlen hstore
    · rw [← Option.some.inj h]
      exact .inr ⟨value, hg, hvalid, hlen⟩
    · rw [← Option.some.inj h]
      exact .inl ⟨get_erase_self _ _, .inl hstore⟩
    · rw [← Option.some.inj h]
      exact .inl ⟨by rw [get_erase_ne _ (by decide), get_erase_self],
        .inr (get_erase_self _ _)⟩

lemma erase_of_get_none {o : Obj} {key : String} (h : get o key = none) : erase o key = o := by
  refine List.filter_eq_self.mpr fun m hm => decide_eq_true fun he => ?_
  have := List.lookup_eq_none_iff.mp h m hm
  rw [he] at this
  simp at this

lemma keptObject_of_ruled {item : Obj} (h : Ruled store item) :
    keptObject store item = some item := by
  unfold keptObject
  split_ifs with ht
  · unfold sanitizeCodexReasoningItem
    rcases h ht with ⟨hnone, hid⟩ | ⟨value, hsome, hvalid, hlen⟩
    · rw [hnone]
      dsimp only
      split_ifs with hstore
      · rfl
      · rw [erase_of_get_none (hid.resolve_left hstore)]
    · rw [hsome]
      dsimp only
      rw [if_pos hvalid, if_pos hlen]
  · rfl

lemma Ruled.renamed {item : Obj} (h : Ruled store item) (hid : (Obj.val item "id").text ≠ "")
    {n : String} (hn : n.length ≤ codexInputItemIDLimit) : Ruled store (renamed item n) := by
  intro ht
  rw [Obj.val_congr (get_renamed_ne item n (by decide))] at ht
  rw [get_renamed_ne _ _ (by decide), Obj.val_of_get (get_renamed n hid)]
  refine (h ht).imp (fun ⟨hnone, hstore⟩ => ⟨hnone, .inl ?_⟩)
    fun ⟨value, hsome, hvalid, _⟩ => ⟨value, hsome, hvalid, hn⟩
  refine hstore.resolve_right fun hno => hid ?_
  rw [Obj.val, hno]
  rfl

lemma Sanitized.settled (h : Sanitized d fuel store remap keyID reserved used items out) :
    ∀ item ∈ out, Settled store item := by
  have hall : List.Forall₂ (fun _ item => Settled store item)
      (items.filter fun item => !leftOut store item) out := by
    refine h.forall₂ (fun value hv => ?_) (fun item kept hkept hid => ?_)
      fun used item kept n hkept hid hn => ?_
    · cases value with
      | obj o => exact absurd rfl (hv o)
      | _ => trivial
    · exact ⟨keptObject_of_ruled (ruled_of_kept hkept), fun hne => absurd hid hne⟩
    · have hshort := upstreamItemID_length hn
      refine ⟨keptObject_of_ruled ((ruled_of_kept hkept).renamed hid hshort), fun _ => ?_⟩
      have htext : (Obj.val (renamed kept n) "id").text = n := idText_renamed n hid
      rw [Verbatim, htext]
      refine ⟨canonical_of_hasPrefix ?_, hshort⟩
      rw [codexInputItemPrefix_congr (get_renamed_ne kept n (by decide))]
      exact upstreamItemID_hasPrefix hid hn
  intro item hitem
  obtain ⟨_, _, hr⟩ := exists_of_mem_right hall hitem
  exact hr

lemma upstreamItemID_of_verbatim {item : Obj} (h : Verbatim item) :
    upstreamItemID d fuel remap keyID reserved used item (Obj.val item "id").text =
      some (Obj.val item "id").text := by
  have hw : wantedItemID d remap keyID item (Obj.val item "id").text =
      (Obj.val item "id").text := by
    unfold wantedItemID
    dsimp only
    rw [h.1, if_neg]
    rintro ⟨-, hne | hlen⟩
    · exact hne rfl
    · exact absurd h.2 (not_le.mpr hlen)
  unfold upstreamItemID
  dsimp only
  rw [hw, if_neg fun hc => hc.2 rfl]
  exact if_neg (not_lt.mpr h.2)

lemma sanitizeItems_of_settled (h : ∀ item ∈ items, Settled store item) (used : List String) :
    (sanitizeItems d fuel store reserved items used).run i = (.ok items, i) := by
  induction items generalizing used with
  | nil => rfl
  | cons value rest ih =>
    obtain ⟨h1, h2⟩ := List.forall_mem_cons.mp h
    cases value with
    | obj item =>
      obtain ⟨hkept, hverb⟩ := h1
      have hid : ∃ used', (sanitizeItemID d fuel reserved used item).run i =
          (.ok (item, used'), i) := by
        rw [sanitizeItemID, IdentityM.run_self_bind]
        dsimp only
        by_cases hempty : (Obj.val item "id").text = ""
        · exact ⟨used, by rw [if_pos hempty]; rfl⟩
        · refine ⟨(Obj.val item "id").text :: used, ?_⟩
          rw [if_neg hempty, upstreamItemID_of_verbatim (hverb hempty)]
          dsimp only
          rw [if_neg (not_not.mpr rfl)]
          rfl
      obtain ⟨used', hid⟩ := hid
      rw [sanitizeItems, ← keptObject, hkept]
      dsimp only
      rw [IdentityM.run_bind, hid]
      dsimp only
      rw [IdentityM.run_bind, ih h2]
      rfl
    | _ =>
      rw [sanitizeItems, IdentityM.run_bind, ih h2] <;> first | rfl | simp

lemma set_set (o : Obj) (key : String) (v w : Json) :
    Members.set (Members.set o key v) key w = Members.set o key w := by
  induction o with
  | nil => simp [Members.set]
  | cons m o ih =>
    obtain ⟨l, x⟩ := m
    rw [Members.set, Members.set]
    by_cases hk : key = l
    · rw [if_pos hk, if_pos hk, Members.set, if_pos rfl]
    · rw [if_neg hk, if_neg hk]
      by_cases hlt : key < l
      · rw [if_pos hlt, if_pos hlt, Members.set, if_pos rfl]
      · rw [if_neg hlt, if_neg hlt, Members.set, if_neg hk, if_neg hlt, ih]

lemma sanitizeCodexInputItems_again
    (h : (sanitizeCodexInputItems d fuel object).run i = (.ok body, j)) :
    (sanitizeCodexInputItems d fuel body).run j = (.ok body, j) := by
  unfold sanitizeCodexInputItems at h
  split at h
  · rename_i items hitems
    obtain ⟨out, l, h1, h2⟩ := bind_ok h
    obtain ⟨_, _, h3, h4⟩ := bind_ok h2
    obtain ⟨rfl, rfl⟩ := pure_ok h4
    obtain ⟨rfl, herr⟩ := mappingError_ok h3
    have hstore : Obj.val (set object "input" (.arr out)) "store" = Obj.val object "store" :=
      Obj.val_congr (get_set_ne _ _ (by decide))
    rw [sanitizeCodexInputItems, get_set_self]
    dsimp only
    rw [IdentityM.run_bind, hstore, sanitizeItems_of_settled (sanitizeItems_ok h1).settled]
    dsimp only
    rw [IdentityM.run_bind, run_mappingError, herr]
    dsimp only
    rw [set_set]
    rfl
  · rename_i hno
    obtain ⟨rfl, rfl⟩ := pure_ok h
    unfold sanitizeCodexInputItems
    split
    · rename_i items hitems
      exact absurd hitems (hno items)
    · rfl

/-! ### Preparing again -/

variable {model planType : String} {headers : Header} {a b : Obj}

/-- A request that gets no image tool. -/
def WithoutImageTool (model planType : String) (headers : Header) (object : Obj) : Prop :=
  isCodexResponsesLiteRequest object headers ∨ hasSuffix (toLower (trimSpace model)) "spark" ∨
    equalFold (trimSpace planType) "free"

lemma withoutImageTool_congr (h : get a "client_metadata" = get b "client_metadata") :
    WithoutImageTool model planType headers a ↔ WithoutImageTool model planType headers b := by
  rw [WithoutImageTool, WithoutImageTool, isCodexResponsesLiteRequest_congr headers h]

lemma ensure_of_without (h : WithoutImageTool model planType headers a) :
    ensureCodexImageGenerationTool a model planType headers = a := if_pos h

lemma ensure_of_with (h : ¬WithoutImageTool model planType headers a) :
    ensureCodexImageGenerationTool a model planType headers =
      match get a "tools" with
      | some (.arr items) =>
        if items.any fun value => codexToolIncludesImageGeneration value.members then a
        else Members.set a "tools" (.arr (items ++ [codexImageGenerationTool]))
      | _ => Members.set a "tools" (.arr [codexImageGenerationTool]) := if_neg h

lemma ensure_includes (h : ¬WithoutImageTool model planType headers a) :
    ∃ tools, get (ensureCodexImageGenerationTool a model planType headers) "tools" =
        some (.arr tools) ∧
      (tools.any fun value => codexToolIncludesImageGeneration value.members) = true := by
  have himage : codexToolIncludesImageGeneration codexImageGenerationTool.members = true := by
    decide
  rw [ensure_of_with h]
  split
  · rename_i tools htools
    split_ifs with hany
    · exact ⟨tools, htools, hany⟩
    · refine ⟨_, get_set_self _ _ _, ?_⟩
      rw [List.any_append, List.any_cons, himage, Bool.true_or, Bool.or_true]
  · exact ⟨_, get_set_self _ _ _, by rw [List.any_cons, himage, Bool.true_or]⟩

lemma ensure_again (model planType : String) (headers : Header)
    (hmeta : get b "client_metadata" = get a "client_metadata")
    (htools : get b "tools" =
      get (ensureCodexImageGenerationTool a model planType headers) "tools") :
    ensureCodexImageGenerationTool b model planType headers = b := by
  by_cases hw : WithoutImageTool model planType headers a
  · exact ensure_of_without ((withoutImageTool_congr hmeta).mpr hw)
  · obtain ⟨tools, ht, hany⟩ := ensure_includes hw
    rw [ensure_of_with fun hc => hw ((withoutImageTool_congr hmeta).mp hc), htools, ht]
    exact if_pos hany

lemma tools_ensure_congr (hmeta : get a "client_metadata" = get b "client_metadata")
    (htools : get a "tools" = get b "tools") :
    get (ensureCodexImageGenerationTool a model planType headers) "tools" =
      get (ensureCodexImageGenerationTool b model planType headers) "tools" := by
  by_cases hw : WithoutImageTool model planType headers a
  · rw [ensure_of_without hw, ensure_of_without ((withoutImageTool_congr hmeta).mp hw), htools]
  · rw [ensure_of_with hw, ensure_of_with fun hc => hw ((withoutImageTool_congr hmeta).mpr hc),
      ← htools]
    split
    · split_ifs
      · exact htools
      · rw [get_set_self, get_set_self]
    · rw [get_set_self, get_set_self]

lemma sanitizeCodexInputItems_congr (d : Digests) (fuel : ℕ) (i : Identity)
    (hinput : get a "input" = get b "input")
    (hstore : get a "store" = get b "store") :
    (∀ e j, (sanitizeCodexInputItems d fuel a).run i = (.error e, j) →
      (sanitizeCodexInputItems d fuel b).run i = (.error e, j)) ∧
    ∀ a' j, (sanitizeCodexInputItems d fuel a).run i = (.ok a', j) →
      ∃ b', (sanitizeCodexInputItems d fuel b).run i = (.ok b', j) ∧
        get b' "input" = get a' "input" := by
  unfold sanitizeCodexInputItems
  rw [← hinput, ← Obj.val_congr hstore]
  split
  · rename_i items hitems
    rw [IdentityM.run_bind, IdentityM.run_bind]
    rcases (sanitizeItems d fuel (Obj.val a "store").flag (reservedIDs items) items []).run i with
      ⟨_ | out, j⟩
    · exact ⟨fun e j h => h, fun a' j h => by cases h⟩
    · dsimp only
      rw [IdentityM.run_bind, IdentityM.run_bind, run_mappingError]
      cases j.mappingErr with
      | none =>
        refine ⟨fun e j h => (by cases h), fun a' j h => ?_⟩
        obtain ⟨rfl, rfl⟩ := pure_ok h
        exact ⟨_, rfl, by rw [get_set_self, get_set_self]⟩
      | some e => exact ⟨fun e j h => h, fun a' j h => by cases h⟩
  · refine ⟨fun e j h => (by cases h), fun a' j h => ?_⟩
    obtain ⟨rfl, rfl⟩ := pure_ok h
    exact ⟨b, rfl, hinput.symm⟩

lemma canon_ensureCodexImageGenerationTool (h : (obj object).canon = obj object) :
    (obj (ensureCodexImageGenerationTool object model planType headers)).canon =
      obj (ensureCodexImageGenerationTool object model planType headers) := by
  have himage : codexImageGenerationTool.canon = codexImageGenerationTool := by decide
  by_cases hw : WithoutImageTool model planType headers object
  · rwa [ensure_of_without hw]
  · rw [ensure_of_with hw]
    split
    · rename_i items hitems
      refine Normalize.canon_obj_ite h (canon_set h _ (canon_arr_iff.mpr fun tool htool => ?_))
      rcases List.mem_append.mp htool with htool | htool
      · have htools := (canon_obj_iff.mp h).2 _ (mem_of_get hitems)
        exact canon_arr_iff.mp htools tool htool
      · rwa [List.mem_singleton.mp htool]
    · refine canon_set h _ (canon_arr_iff.mpr fun tool htool => ?_)
      rwa [List.mem_singleton.mp htool]

lemma canon_sanitizeCodexInputItems (hc : (obj object).canon = obj object)
    (h : (sanitizeCodexInputItems d fuel object).run i = (.ok body, j)) :
    (obj body).canon = obj body := by
  unfold sanitizeCodexInputItems at h
  split at h
  · rename_i items hitems
    obtain ⟨out, l, h1, h2⟩ := bind_ok h
    obtain ⟨_, _, -, h4⟩ := bind_ok h2
    obtain ⟨rfl, rfl⟩ := pure_ok h4
    have hitems' := canon_arr_iff.mp ((canon_obj_iff.mp hc).2 _ (mem_of_get hitems))
    exact canon_set hc _ (canon_arr_iff.mpr ((sanitizeItems_ok h1).canon hitems'))
  · rwa [(pure_ok h).1]

lemma canon_normalizeCodexParallelToolCalls (headers : Header) (ws : Bool)
    (h : (obj object).canon = obj object) :
    (obj (normalizeCodexParallelToolCalls object headers ws)).canon =
      obj (normalizeCodexParallelToolCalls object headers ws) := by
  unfold normalizeCodexParallelToolCalls
  split_ifs
  · exact canon_set h _ rfl
  · exact h
  · exact canon_erase h _
  · exact h

lemma parallelToolCalls_http (object : Obj) (headers : Header) :
    get (normalizeCodexParallelToolCalls object headers false) "parallel_tool_calls" =
      if isCodexResponsesLiteRequest object headers then some (.bool false)
      else if (Obj.val object "tools").items = [] then none
      else get object "parallel_tool_calls" := by
  unfold normalizeCodexParallelToolCalls
  simp only [Bool.false_eq_true, if_false]
  split_ifs
  · exact get_set_self _ _ _
  · exact get_erase_self _ _
  · rfl

/-! ### Both preparations -/

/-- A body that is decoded, prepared and encoded. -/
def onBody (prepare : Obj → IdentityM Obj) (body : Text) : IdentityM Text :=
  match decodeObject body with
  | none => IdentityM.fail "request body must be a JSON object"
  | some object => do
    let object ← prepare object
    pure (marshal (.obj object))

lemma run_onBody {prepare : Obj → IdentityM Obj} {text : Text} (h : decodeObject text = some object)
    (i : Identity) : (onBody prepare text).run i =
      (((prepare object).run i).1.map fun o => marshal (.obj o), ((prepare object).run i).2) := by
  unfold onBody
  rw [h]
  dsimp only
  rw [IdentityM.run_bind]
  rcases (prepare object).run i with ⟨_ | _, _⟩ <;> rfl

/-- The fields that an HTTP request goes without. -/
def httpFields : List String :=
  ["previous_response_id", "generate", "safety_identifier", "stream_options"]

/-- The two bodies before their items are sanitized. -/
def webSocketObject (model planType : String) (headers : Header) (object : Obj) : Obj :=
  ensureCodexImageGenerationTool (erase object "safety_identifier") model planType headers

def httpObject (model planType : String) (headers : Header) (object : Obj) : Obj :=
  ensureCodexImageGenerationTool (httpFields.foldl erase object) model planType headers

lemma get_webSocketObject {key : String} (h1 : key ≠ "tools") (h2 : key ≠ "safety_identifier") :
    get (webSocketObject model planType headers object) key = get object key := by
  rw [webSocketObject, get_ensureCodexImageGenerationTool _ _ _ _ h1, get_erase_ne _ h2]

lemma get_httpObject {key : String} (h1 : key ≠ "tools") :
    get (httpObject model planType headers object) key =
      if key ∈ httpFields then none else get object key := by
  rw [httpObject, get_ensureCodexImageGenerationTool _ _ _ _ h1, Normalize.get_foldl_erase]

lemma canon_webSocketObject (h : (obj object).canon = obj object) :
    (obj (webSocketObject model planType headers object)).canon =
      obj (webSocketObject model planType headers object) := by
  unfold webSocketObject
  exact canon_ensureCodexImageGenerationTool (canon_erase h _)

lemma canon_httpObject (h : (obj object).canon = obj object) :
    (obj (httpObject model planType headers object)).canon =
      obj (httpObject model planType headers object) := by
  unfold httpObject
  exact canon_ensureCodexImageGenerationTool (Normalize.canon_foldl_erase h _)

lemma get_objects_eq (key : String) (h1 : key ≠ "tools") (h2 : key ∉ httpFields) :
    get (webSocketObject model planType headers object) key =
      get (httpObject model planType headers object) key := by
  rw [get_httpObject h1, if_neg h2, get_webSocketObject h1]
  rintro rfl
  exact h2 (by decide)

lemma prepareCodexWebSocketBody_eq :
    prepareCodexWebSocketBody d fuel object model planType headers = (do
      let object ← sanitizeCodexInputItems d fuel (webSocketObject model planType headers object)
      pure (normalizeCodexParallelToolCalls object headers true)) := by
  rw [prepareCodexWebSocketBody, prepareCodexInferenceObject, if_pos rfl, webSocketObject]

lemma prepareCodexHTTPBody_eq :
    prepareCodexHTTPBody d fuel object model planType headers = (do
      let object ← sanitizeCodexInputItems d fuel (httpObject model planType headers object)
      pure (normalizeCodexParallelToolCalls object headers false)) := by
  rw [prepareCodexHTTPBody, prepareCodexHTTPBodyWithImageTool, prepareCodexInferenceObject,
    if_pos rfl, httpObject, httpFields]

lemma run_then_pure {m : IdentityM Obj} (f : Obj → Obj) {r : Except String Obj}
    (h : m.run i = (r, j)) :
    (do
      let object ← m
      pure (f object) : IdentityM Obj).run i = (r.map f, j) := by
  rw [IdentityM.run_bind, h]
  cases r <;> rfl

/-- Bodies that agree in what an HTTP request is made of. -/
structure AgreeHTTP (headers : Header) (a b : Obj) : Prop where
  fields : ∀ key, key ≠ "parallel_tool_calls" → get a key = get b key
  flag : isCodexResponsesLiteRequest b headers = false → (Obj.val b "tools").items ≠ [] →
    get a "parallel_tool_calls" = get b "parallel_tool_calls"

lemma AgreeHTTP.normalize_eq (h : AgreeHTTP headers a b) (ha : (obj a).canon = obj a)
    (hb : (obj b).canon = obj b) : normalizeCodexParallelToolCalls a headers false =
      normalizeCodexParallelToolCalls b headers false := by
  have hsorted {o : Obj} (ho : (obj o).canon = obj o) :
      Sorted (normalizeCodexParallelToolCalls o headers false) :=
    (canon_obj_iff.mp (canon_normalizeCodexParallelToolCalls _ _ ho)).1
  refine eq_of_get (hsorted ha) (hsorted hb) fun key => ?_
  by_cases hp : key = "parallel_tool_calls"
  · rw [hp, parallelToolCalls_http, parallelToolCalls_http,
      isCodexResponsesLiteRequest_congr headers (h.fields "client_metadata" (by decide)),
      Obj.val_congr (h.fields "tools" (by decide))]
    split_ifs with hlite hempty
    · rfl
    · rfl
    · exact h.flag (Bool.not_eq_true _ ▸ hlite) hempty
  · rw [get_normalizeCodexParallelToolCalls _ _ _ hp, get_normalizeCodexParallelToolCalls _ _ _ hp,
      h.fields key hp]

lemma agreeHTTP_again {sanitized again direct : Obj} {j k l : Identity}
    (hws : (sanitizeCodexInputItems d fuel (webSocketObject model planType headers object)).run i =
      (.ok sanitized, j))
    (hagain : (sanitizeCodexInputItems d fuel (httpObject model planType headers
      (normalizeCodexParallelToolCalls sanitized headers true))).run j = (.ok again, k))
    (hdirect : (sanitizeCodexInputItems d fuel (httpObject model planType headers object)).run i =
      (.ok direct, l)) (hinput : get again "input" = get direct "input") :
    AgreeHTTP headers again direct := by
  have hmeta : get sanitized "client_metadata" = get object "client_metadata" := by
    rw [get_sanitizeCodexInputItems hws (by decide), get_webSocketObject (by decide) (by decide)]
  have htools : get again "tools" = get direct "tools" := by
    have hsan : get sanitized "tools" =
        get (webSocketObject model planType headers object) "tools" :=
      get_sanitizeCodexInputItems hws (by decide)
    rw [get_sanitizeCodexInputItems hagain (by decide),
      get_sanitizeCodexInputItems hdirect (by decide)]
    -- the image tool is there already
    have hbase : get (erase object "safety_identifier") "tools" =
        get (httpFields.foldl erase object) "tools" := by
      rw [get_erase_ne _ (by decide), Normalize.get_foldl_erase, if_neg (by decide)]
    have hbasemeta : get (erase object "safety_identifier") "client_metadata" =
        get (httpFields.foldl erase object) "client_metadata" := by
      rw [get_erase_ne _ (by decide), Normalize.get_foldl_erase, if_neg (by decide)]
    have hnext (key : String) (h1 : key ∉ httpFields) (h2 : key ≠ "parallel_tool_calls") :
        get (httpFields.foldl erase (normalizeCodexParallelToolCalls sanitized headers true)) key =
          get sanitized key := by
      rw [Normalize.get_foldl_erase, if_neg h1, get_normalizeCodexParallelToolCalls _ _ _ h2]
    have hsettled := ensure_again model planType headers
      (b := httpFields.foldl erase (normalizeCodexParallelToolCalls sanitized headers true))
      (a := httpFields.foldl erase object)
      (by rw [hnext _ (by decide) (by decide), hmeta, ← hbasemeta, get_erase_ne _ (by decide)])
      (by rw [hnext _ (by decide) (by decide), hsan, webSocketObject,
        tools_ensure_congr hbasemeta hbase])
    rw [httpObject, hsettled, hnext _ (by decide) (by decide), hsan, webSocketObject, httpObject,
      tools_ensure_congr hbasemeta hbase]
  refine ⟨fun key hp => ?_, fun hlite htools => ?_⟩
  · by_cases hi : key = "input"
    · rw [hi, hinput]
    by_cases ht : key = "tools"
    · rw [ht, htools]
    rw [get_sanitizeCodexInputItems hagain hi, get_sanitizeCodexInputItems hdirect hi,
      get_httpObject ht, get_httpObject ht, get_normalizeCodexParallelToolCalls _ _ _ hp,
      get_sanitizeCodexInputItems hws hi]
    split_ifs with hf
    · rfl
    · rw [get_objects_eq _ ht hf, get_httpObject ht, if_neg hf]
  · have hlite' : isCodexResponsesLiteRequest sanitized headers = false := by
      rw [← hlite]
      refine isCodexResponsesLiteRequest_congr headers ?_
      rw [hmeta, get_sanitizeCodexInputItems hdirect (by decide), get_httpObject (by decide),
        if_neg (by decide)]
    rw [get_sanitizeCodexInputItems hagain (by decide),
      get_sanitizeCodexInputItems hdirect (by decide), get_httpObject (by decide),
      get_httpObject (by decide), parallelToolCalls_webSocket, hlite',
      get_sanitizeCodexInputItems hws (by decide), get_webSocketObject (by decide) (by decide)]
    rfl

lemma http_of_webSocket (hc : (obj object).canon = obj object) {sanitized : Obj} {j : Identity}
    (hws : (sanitizeCodexInputItems d fuel (webSocketObject model planType headers object)).run i =
      (.ok sanitized, j)) :
    (prepareCodexHTTPBody d fuel (normalizeCodexParallelToolCalls sanitized headers true) model
        planType headers).run j =
      (prepareCodexHTTPBody d fuel object model planType headers).run i := by
  have hfields (key : String) (h1 : key ≠ "tools") (h2 : key ≠ "parallel_tool_calls")
      (h3 : key ∉ httpFields) : get sanitized key = get (httpObject model planType headers
        (normalizeCodexParallelToolCalls sanitized headers true)) key := by
    rw [get_httpObject h1, if_neg h3, get_normalizeCodexParallelToolCalls _ _ _ h2]
  obtain ⟨again, hagain, hinput⟩ := (sanitizeCodexInputItems_congr d fuel j
    (hfields "input" (by decide) (by decide) (by decide))
    (hfields "store" (by decide) (by decide) (by decide))).2 _ _ (sanitizeCodexInputItems_again hws)
  have hsame := sanitizeCodexInputItems_congr d fuel i
    (a := webSocketObject model planType headers object)
    (b := httpObject model planType headers object)
    (get_objects_eq "input" (by decide) (by decide))
    (get_objects_eq "store" (by decide) (by decide))
  obtain ⟨direct, hdirect, hinput'⟩ := hsame.2 sanitized j hws
  have hcs := canon_normalizeCodexParallelToolCalls headers true
    (canon_sanitizeCodexInputItems (canon_webSocketObject hc) hws)
  have heq := (agreeHTTP_again hws hagain hdirect (hinput.trans hinput'.symm)).normalize_eq
    (canon_sanitizeCodexInputItems (canon_httpObject hcs) hagain)
    (canon_sanitizeCodexInputItems (canon_httpObject hc) hdirect)
  rw [prepareCodexHTTPBody_eq, prepareCodexHTTPBody_eq, run_then_pure _ hagain,
    run_then_pure _ hdirect]
  simp only [Except.map, heq]

/-- **HTTP preparation absorbs WebSocket preparation.** An HTTP body prepared from a WebSocket body
is the one prepared from the original, with the same errors and the same table. Sanitizing and
adding the image tool a second time change nothing. -/
theorem prepareCodexHTTPBody_absorbs (model planType : String) (headers : Header) (i : Identity) :
    (∀ body, (do
        let body ← onBody (prepareCodexWebSocketBody d fuel · model planType headers) body
        onBody (prepareCodexHTTPBody d fuel · model planType headers) body).run i =
      (onBody (prepareCodexHTTPBody d fuel · model planType headers) body).run i) ∧
    (∀ object body j, (sanitizeCodexInputItems d fuel object).run i = (.ok body, j) →
      (sanitizeCodexInputItems d fuel body).run j = (.ok body, j)) ∧
    ∀ object, ensureCodexImageGenerationTool
        (ensureCodexImageGenerationTool object model planType headers) model planType headers =
      ensureCodexImageGenerationTool object model planType headers := by
  refine ⟨fun body => ?_, fun _ _ _ h => sanitizeCodexInputItems_again h, fun object =>
    ensure_again _ _ _ (get_ensureCodexImageGenerationTool _ _ _ _ (by decide)) rfl⟩
  cases hbody : decodeObject body with
  | none => simp [onBody, hbody, IdentityM.run_bind]
  | some object =>
    have hc := canon_decodeObject hbody
    rcases hws : (sanitizeCodexInputItems d fuel
      (webSocketObject model planType headers object)).run i with ⟨e | sanitized, j⟩
    · -- both fail, with the same error
      have hsame := (sanitizeCodexInputItems_congr d fuel i
        (a := webSocketObject model planType headers object)
        (b := httpObject model planType headers object) (get_objects_eq "input" (by decide)
          (by decide)) (get_objects_eq "store" (by decide) (by decide))).1 e j hws
      rw [IdentityM.run_bind, run_onBody hbody, run_onBody hbody, prepareCodexWebSocketBody_eq,
        prepareCodexHTTPBody_eq, run_then_pure _ hws, run_then_pure _ hsame]
      rfl
    · have hnext := http_of_webSocket hc hws
      have hcs := canon_normalizeCodexParallelToolCalls headers true
        (canon_sanitizeCodexInputItems (canon_webSocketObject hc) hws)
      rw [IdentityM.run_bind, run_onBody hbody, prepareCodexWebSocketBody_eq, run_then_pure _ hws]
      simp only [Except.map]
      rw [run_onBody (decodeObject_marshal hcs), hnext, run_onBody hbody]

end CodexOne.Compat
