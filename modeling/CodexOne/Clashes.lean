import CodexOne.Collisions

/-!
The requests whose identifiers collide in the reverse table.

The fields and headers of a request never collide as long as the digests are apart, and neither do
items with names that were shortened. What is left are ids that differ in white space, which have
one pseudonym, and ids that are rewritten to the very name an earlier item was given when its own
was too long or reserved.
-/

namespace CodexOne

open Members JsonOf GoStrings Naming

namespace Compat

open Identity

variable {d : Digests} {fuel : ℕ} {remap : Bool} {keyID : String} {reserved : List String}
  {bound : ℕ} {item : Obj} {i j k : Identity}

/-- No two items of a request are sent under one name with ids of their own. -/
structure NoClash (d : Digests) (remap : Bool) (keyID : String) (reserved : List String) (bound : ℕ)
    (rewritten : List Obj) : Prop where
  padded : remap = true → ∀ a ∈ rewritten, ∀ b ∈ rewritten, itemKind a = itemKind b →
    trimSpace (Obj.val a "id").text = trimSpace (Obj.val b "id").text →
      mappedCodexInputItemID d keyID a (Obj.val a "id").text ∉ reserved →
        (Obj.val a "id").text = (Obj.val b "id").text
  shaped : remap = false → ∀ before item after, rewritten = before ++ item :: after →
    (canonicalCodexInputItemID item (Obj.val item "id").text).length ≤ codexInputItemIDLimit →
      canonicalCodexInputItemID item (Obj.val item "id").text ∉ reserved →
        Untaken (shortenCodexInputItemID d) reserved bound
          (asksOf (entriesOf d false keyID reserved before))
          (canonicalCodexInputItemID item (Obj.val item "id").text)

variable {all : List Obj}

lemma clear_entriesOf : Clear (shortenCodexInputItemID d) reserved bound
      (entriesOf d remap keyID reserved all) ↔
    ∀ before item after, all = before ++ item :: after → ∀ x,
      askOf d remap keyID reserved item = .fixed x →
        (∀ o ∈ before, askOf d remap keyID reserved o = .fixed x →
          (Obj.val o "id").text = (Obj.val item "id").text) ∧
        Untaken (shortenCodexInputItemID d) reserved bound
          (asksOf (entriesOf d remap keyID reserved before)) x := by
  constructor
  · rintro h before item after rfl x hx
    obtain ⟨hsame, huntaken⟩ := h (entriesOf d remap keyID reserved before) x
      (Obj.val item "id").text (entriesOf d remap keyID reserved after) (by simp [entriesOf, hx])
    refine ⟨fun o ho hox => hsame _ ?_, huntaken⟩
    rw [← hox]
    exact List.mem_map_of_mem ho
  · intro h before x c after heq
    obtain ⟨front, back, rfl, rfl, hback⟩ := List.map_eq_append_iff.mp heq
    obtain ⟨item, rest, rfl, hitem, -⟩ := List.map_eq_cons_iff.mp hback
    obtain ⟨hask, rfl⟩ := Prod.mk.inj hitem
    obtain ⟨hsame, huntaken⟩ := h front item rest rfl x hask
    refine ⟨fun c' hc' => ?_, huntaken⟩
    obtain ⟨o, ho, hoa, rfl⟩ := mem_entriesOf hc'
    exact hsame o ho hoa

lemma askOf_eq_fixed {x : String}
    (hlen : (wanted d remap keyID item).length ≤ codexInputItemIDLimit)
    (hfree : wanted d remap keyID item ∉ reserved) (hx : wanted d remap keyID item = x) :
    askOf d remap keyID reserved item = .fixed x := by
  rw [← hx]
  exact if_pos ⟨hlen, hfree⟩

lemma clear_iff_padded (hall : ∀ o ∈ all, Rewritten o)
    (huuid : ∀ a ∈ all, ∀ b ∈ all, UUIDsApart d keyID a b) :
    Clear (shortenCodexInputItemID d) reserved bound (entriesOf d true keyID reserved all) ↔
      ∀ a ∈ all, ∀ b ∈ all, itemKind a = itemKind b →
        trimSpace (Obj.val a "id").text = trimSpace (Obj.val b "id").text →
          mappedCodexInputItemID d keyID a (Obj.val a "id").text ∉ reserved →
            (Obj.val a "id").text = (Obj.val b "id").text := by
  have hshort {o : Obj} (ho : o ∈ all) :
      (wanted d true keyID o).length ≤ codexInputItemIDLimit := by
    have hkind := itemKind_length o
    rw [length_wanted_mapped (hall o ho)]
    unfold codexInputItemIDLimit
    omega
  have hname {o : Obj} (ho : o ∈ all) : wanted d true keyID o =
      mappedCodexInputItemID d keyID o (Obj.val o "id").text := wanted_mapped (hall o ho)
  rw [clear_entriesOf]
  constructor
  · intro h
    -- of two items that are sent under one name, the later one has the id of the earlier one
    have hpair (before after : List Obj) (a b : Obj) (heq : all = before ++ b :: after)
        (ha : a ∈ before) (hw : wanted d true keyID a = wanted d true keyID b)
        (hfree : wanted d true keyID a ∉ reserved) :
        (Obj.val a "id").text = (Obj.val b "id").text := by
      have hb : b ∈ all := by simp [heq]
      have ha' : a ∈ all := by simp [heq, ha]
      exact (h before b after heq _ (askOf_eq_fixed (hshort hb) (hw ▸ hfree) rfl)).1 a ha
        (askOf_eq_fixed (hshort ha') hfree hw)
    intro a ha b hb hkind htrim hfree
    have hw : wanted d true keyID a = wanted d true keyID b := by
      rw [wanted_mapped (hall a ha), wanted_mapped (hall b hb), hkind, Digests.identityUUID,
        Digests.identityUUID, htrim]
    rw [← hname ha] at hfree
    obtain ⟨before, after, heq⟩ := List.append_of_mem hb
    rw [heq, List.mem_append, List.mem_cons] at ha
    rcases ha with ha | rfl | ha
    · exact hpair before after a b heq ha hw hfree
    · rfl
    · obtain ⟨mid, last, rfl⟩ := List.append_of_mem ha
      refine (hpair (before ++ b :: mid) last b a (by simp [heq]) (by simp) hw.symm ?_).symm
      rwa [← hw]
  · rintro h before b after heq x hx
    have hb : b ∈ all := by simp [heq]
    have hbefore : ∀ o ∈ before, o ∈ all := fun o ho => by simp [heq, ho]
    obtain ⟨rfl, -, hfree⟩ := askOf_fixed hx
    refine ⟨fun a ha hax => ?_, fun w m hm he ht => ?_⟩
    · have hw := (askOf_fixed hax).1
      have ha' := hbefore a ha
      rw [wanted_mapped (hall b hb), wanted_mapped (hall a ha')] at hw
      obtain ⟨hkind, hsame⟩ := kind_inj (underscore_not_mem_kind b) (underscore_not_mem_kind a) hw
      obtain ⟨-, htrim⟩ := huuid a ha' b hb hsame.symm
      refine h a ha' b hb hkind.symm htrim ?_
      rwa [← hname ha', ← (askOf_fixed hax).1]
    · obtain ⟨entry, hentry, hask⟩ := List.mem_map.mp ht.mem
      obtain ⟨o, ho, hoa, -⟩ := mem_entriesOf hentry
      obtain ⟨rfl, -⟩ := askOf_search (hoa.trans hask)
      exact shorten_ne_mapped (hall o (hbefore o ho)) (hall b hb) m he

/-- Without remapping, only an id that is rewritten to a shortened name clashes. -/
lemma clear_iff_shaped (hall : ∀ o ∈ all, Rewritten o) :
    Clear (shortenCodexInputItemID d) reserved bound (entriesOf d false keyID reserved all) ↔
      ∀ before item after, all = before ++ item :: after →
        (canonicalCodexInputItemID item (Obj.val item "id").text).length ≤ codexInputItemIDLimit →
          canonicalCodexInputItemID item (Obj.val item "id").text ∉ reserved →
            Untaken (shortenCodexInputItemID d) reserved bound
              (asksOf (entriesOf d false keyID reserved before))
              (canonicalCodexInputItemID item (Obj.val item "id").text) := by
  rw [clear_entriesOf]
  constructor
  · intro h before item after heq hlen hfree
    rw [← @wanted_canonical d keyID] at hlen hfree ⊢
    exact (h before item after heq _ (askOf_eq_fixed hlen hfree rfl)).2
  · intro h before b after heq x hx
    obtain ⟨rfl, hlen, hfree⟩ := askOf_fixed hx
    refine ⟨fun a ha hax => ?_, ?_⟩
    · have hw := (askOf_fixed hax).1
      have hal := (askOf_fixed hax).2.1
      rw [wanted_canonical] at hw hlen
      rw [wanted_canonical] at hw
      have ha' : Rewritten a := hall a (by simp [heq, ha])
      have hb : Rewritten b := hall b (by simp [heq])
      rw [wanted_canonical, hw] at hal
      rw [canonical_of_short hb hlen, canonical_of_short ha' hal] at hw
      exact (kind_inj (underscore_not_mem_prefixText b) (underscore_not_mem_prefixText a) hw).2.symm
    · rw [wanted_canonical] at hlen hfree ⊢
      exact h before b after heq hlen hfree

lemma clear_iff (hall : ∀ o ∈ all, Rewritten o)
    (huuid : remap = true → ∀ a ∈ all, ∀ b ∈ all, UUIDsApart d keyID a b) :
    Clear (shortenCodexInputItemID d) reserved bound (entriesOf d remap keyID reserved all) ↔
      NoClash d remap keyID reserved bound all := by
  cases remap with
  | true =>
    rw [clear_iff_padded hall (huuid rfl)]
    exact ⟨fun h => ⟨fun _ => h, nofun⟩, fun h => h.padded rfl⟩
  | false =>
    rw [clear_iff_shaped hall]
    exact ⟨fun h => ⟨nofun, fun _ => h⟩, fun h => h.shaped rfl⟩

lemma identityStringField_ne {object : Obj} :
    identityStringField object "prompt_cache_key" ≠ .error collision := by
  unfold identityStringField
  split
  · exact nofun
  · split_ifs
    · exact nofun
    · exact nofun
    · exact fun h => absurd (Except.error.inj h) (by decide)
  · exact fun h => absurd (Except.error.inj h) (by decide)

lemma mapValue_blank {client : String} (hr : i.reverse = []) (he : i.mappingErr = none)
    {kind : String} {m : Except String String}
    (h : (mapValue d kind client).run i = (m, j)) :
    (∃ up, m = .ok up) ∧ j.mappingErr ≠ some collision := by
  rw [mapValue, IdentityM.run_self_bind] at h
  dsimp only at h
  split_ifs at h
  · cases h
    exact ⟨⟨_, rfl⟩, by simp [he]⟩
  · cases h
    refine ⟨⟨_, rfl⟩, fun hc => ?_⟩
    obtain ⟨c', hmem, -⟩ := remember_collision (by simp [he]) hc
    rw [hr] at hmem
    cases hmem

lemma bind_eq_error {α β : Type} {x : Except String α} {f : α → Except String β} {e : String}
    (h : (x >>= f) = .error e) : x = .error e ∨ ∃ a, x = .ok a ∧ f a = .error e := by
  cases x with
  | error e' => exact .inl (congrArg Except.error (Except.error.inj h))
  | ok a => exact .inr ⟨a, rfl, h⟩

lemma new_ne_collision {key : Option String} {headers : Header} {object : Obj} :
    Identity.new d key headers object remap ≠ .error collision := by
  intro h
  rw [Identity.new] at h
  obtain hs | ⟨bodySessionID, -, h⟩ := bind_eq_error h
  · exact identityStringField_ne hs
  extract_lets keyID client i0 at h
  have hr : i0.reverse = [] := rfl
  have he : i0.mappingErr = none := rfl
  clear_value i0 client keyID
  by_cases hc : client ≠ "" ∧ validIdentityValue client = false
  · rw [if_pos hc] at h
    exact absurd (Except.error.inj h) (by decide)
  rw [if_neg hc] at h
  by_cases hne : client ≠ ""
  · -- the session is the first entry of the table, so it cannot clash
    rw [if_pos hne] at h
    rcases hrun : (mapValue d "prompt-cache" client).run i0 with ⟨m, k⟩
    obtain ⟨⟨up, rfl⟩, hk⟩ := mapValue_blank hr he hrun
    rw [hrun] at h
    obtain hup | ⟨up', -, h⟩ := bind_eq_error h
    · cases hup
    · split at h
      · rename_i e hk'
        exact hk (hk'.trans (congrArg some (Except.error.inj h)))
      · cases h
  · rw [if_neg hne] at h
    split_ifs at h
    · obtain hup | ⟨up', -, h⟩ := bind_eq_error h
      · cases hup
      · rw [he] at h
        cases h
    · obtain hup | ⟨up', -, h⟩ := bind_eq_error h
      · cases hup
      · rw [he] at h
        cases h

/-- An identity without remapping, and without a table. -/
structure Bare (i : Identity) : Prop where
  remap : i.remap = false
  reverse : i.reverse = []
  err : i.mappingErr = none

lemma bare_mapValue (kind value : String) : Preserves Bare (mapValue d kind value) := by
  refine .of_self fun i hi => ?_
  dsimp only
  rw [if_pos (.inr hi.remap)]
  exact hi

lemma bare_mapWindow (value : String) : Preserves Bare (mapWindow d value) := by
  refine .of_self fun i hi => ?_
  dsimp only
  rw [if_pos (.inr hi.remap)]
  exact hi

lemma bare_new {key : Option String} {headers : Header} {object : Obj}
    (h : Identity.new d key headers object false = .ok i) : Bare i := by
  obtain ⟨client, up, j, rfl, -, ⟨-, hrun⟩ | ⟨-, rfl, -⟩⟩ := new_ok d h
  · have hblank : Bare (blank false (trimSpace (key.getD "")) client) := ⟨rfl, rfl, rfl⟩
    have hj := bare_mapValue (d := d) "prompt-cache" client _ hblank
    rw [hrun] at hj
    exact ⟨hj.remap, hj.reverse, hj.err⟩
  · exact ⟨rfl, rfl, rfl⟩

lemma preserves_entries {P : String × String → Prop} (hP : ∀ u c, ItemName u → P (u, c))
    {object : Obj} :
    Preserves (fun i => i.remap = true ∧ ∀ e ∈ i.reverse, P e)
      (sanitizeCodexInputItems d fuel object) := by
  refine preserves_input fun reserved used _ _ item _ => .of_self fun i hi => ?_
  dsimp only
  split_ifs with hid
  · exact hi
  cases hu : upstreamItemID d fuel i.remap i.keyID reserved used item (Obj.val item "id").text with
  | none => exact hi
  | some n =>
    dsimp only
    split_ifs with hne
    · have hitem : Rewritten item := ⟨hid, fun hv => hne (upstreamItemID_verbatim hv hu)⟩
      have hname : ItemName n := by
        obtain ⟨-, rfl | ⟨-, a, rfl⟩⟩ := upstreamItemID_rewritten hitem.notVerbatim hu
        · exact (owned d i.remap i.keyID).fixed item hitem hi.1
        · exact (owned d i.remap i.keyID).found item hitem a hi.1
      have hext := extends_remember i n (Obj.val item "id").text
      refine ⟨hext.remap.symm.trans hi.1, fun e he => ?_⟩
      rcases mem_remember he with he | rfl
      · exact hi.2 e he
      · exact hP _ _ hname
    · exact hi

/-! ### Whole requests -/

/-- The identifiers of a request outside its items. -/
def requestPairs (client : String) (headers : Header) (body : Obj) : List (String × String) :=
  ("prompt-cache", cleanIdentityValue client) ::
    clientPairs (Obj.val body "client_metadata").members ++ headerPairs headers

/-- The ids of items, each with the kind of its item. -/
def itemPairs (items : List Obj) : List (String × String) :=
  items.map fun item => ("input-item:" ++ itemKind item, (Obj.val item "id").text)

structure DigestsApart (d : Digests) (remap : Bool) (keyID client : String) (headers : Header)
    (body : Obj) : Prop where
  uuids : UUIDsApartOn d keyID (requestPairs client headers body ++ itemPairs (rewrittenOf body))
  shortened : ShortenedApart d remap keyID body

variable {client : String} {headers : Header} {body : Obj}

lemma DigestsApart.items (h : DigestsApart d remap keyID client headers body) :
    ∀ a ∈ rewrittenOf body, ∀ b ∈ rewrittenOf body, UUIDsApart d keyID a b := by
  intro a ha b hb heq
  have hmem {o : Obj} (ho : o ∈ rewrittenOf body) :
      ("input-item:" ++ itemKind o, (Obj.val o "id").text) ∈
        requestPairs client headers body ++ itemPairs (rewrittenOf body) :=
    List.mem_append_right _ (List.mem_map_of_mem ho)
  obtain ⟨hkind, htrim⟩ := h.uuids _ (hmem ha) _ (hmem hb) (rewritten_of_mem ha).id
    (rewritten_of_mem hb).id heq
  have hl := congrArg String.toList hkind
  rw [String.toList_append, String.toList_append] at hl
  exact ⟨String.toList_injective (List.append_cancel_left hl), htrim⟩

lemma DigestsApart.request (h : DigestsApart d remap keyID client headers body) :
    UUIDsApartOn d keyID (requestPairs client headers body) :=
  fun p hp q hq => h.uuids p (List.mem_append_left _ hp) q (List.mem_append_left _ hq)

variable {key : Option String} {r : Request}

lemma familiar_prepared (hnew : Identity.new d key headers body true = .ok i)
    (hapart : UUIDsApartOn d i.keyID (requestPairs i.clientSessionID headers body)) :
    SessionOf d (requestPairs i.clientSessionID headers body) i.keyID i.clientSessionID
        i.upstreamSessionID ∧
      Familiar d (requestPairs i.clientSessionID headers body) i.keyID i.clientSessionID
        i.upstreamSessionID (fun _ => False) ((prepareBody d body false).run i).2 := by
  have hmem : ("prompt-cache", cleanIdentityValue i.clientSessionID) ∈
      requestPairs i.clientSessionID headers body := List.mem_append_left _ List.mem_cons_self
  obtain ⟨hs, hfamiliar⟩ := @new_familiar d _ (fun _ => False) i key headers body hnew hmem
  refine ⟨hs, Familiar.prepareBody hs hapart (fun _ => False.elim) ?_ i hfamiliar⟩
  exact fun p hp => List.mem_append_left _ (List.mem_cons_of_mem _ hp)

lemma bare_prepared (hnew : Identity.new d key headers body false = .ok i) :
    Bare ((prepareBody d body false).run i).2 :=
  (composes_preserves Bare).prepareBody bare_mapValue bare_mapWindow body false i (bare_new hnew)

lemma prepareBody_ne_collision (hnew : Identity.new d key headers body remap = .ok i)
    (hapart : DigestsApart d remap i.keyID i.clientSessionID headers body) :
    ((prepareBody d body false).run i).2.mappingErr ≠ some collision := by
  cases remap with
  | true => exact (familiar_prepared hnew hapart.request).2.err
  | false =>
    rw [(bare_prepared hnew).err]
    exact nofun

lemma no_items (hnew : Identity.new d key headers body remap = .ok i)
    (hapart : DigestsApart d remap i.keyID i.clientSessionID headers body) :
    ∀ e ∈ ((prepareBody d body false).run i).2.reverse, ¬(remap = true → ItemName e.1) := by
  intro e he hitem
  cases remap with
  | true =>
    obtain ⟨hs, hfamiliar⟩ := familiar_prepared hnew hapart.request
    exact ((hfamiliar.entries e he).resolve_right id).not_itemName hs (hitem rfl)
  | false =>
    rw [(bare_prepared hnew).reverse] at he
    cases he

lemma sanitizeCodexInputItems_err {object sent : Obj} (hi : i.mappingErr = none)
    (h : (sanitizeCodexInputItems d fuel object).run i = (.ok sent, j)) : j.mappingErr = none := by
  unfold sanitizeCodexInputItems at h
  split at h
  · obtain ⟨_, -, hiff⟩ := run_mappingError_ok h
    exact (hiff.mp ⟨_, rfl⟩).2
  · rw [(pure_ok h).2]
    exact hi

lemma applyHeaders_ne_collision (hnew : Identity.new d key headers body remap = .ok i)
    (hapart : DigestsApart d remap i.keyID i.clientSessionID headers body) {prepared : Obj}
    (hrun : ((sanitizeCodexInputItems d fuel prepared).run
      ((prepareBody d body false).run i).2).2 = j)
    (hj : j.mappingErr = none) (target : Header) (websocketTransport : Bool) :
    ((applyHeaders d target headers websocketTransport).run j).2.mappingErr ≠ some collision := by
  have hext := (tracks_sanitizeCodexInputItems d fuel prepared).run
    ((prepareBody d body false).run i).2
  rw [hrun] at hext
  cases remap with
  | true =>
    obtain ⟨hs, hfamiliar⟩ := familiar_prepared hnew hapart.request
    have hremap : ((prepareBody d body false).run i).2.remap = true := by
      rw [← ((tracks_prepareBody d body false).run i).remap]
      exact (new_owner d hnew).1
    obtain ⟨-, hentries⟩ := @preserves_entries d fuel
      (fun e => Known d (requestPairs i.clientSessionID headers body) i.keyID i.clientSessionID
        i.upstreamSessionID e ∨ ItemName e.1) (fun _ _ => .inr) prepared _
      ⟨hremap, fun e he => .inl ((hfamiliar.entries e he).resolve_right id)⟩
    rw [hrun] at hentries
    have hfinal : Familiar d (requestPairs i.clientSessionID headers body) i.keyID
        i.clientSessionID i.upstreamSessionID ItemName j :=
      ⟨hext.keyID ▸ hfamiliar.key, hext.clientSessionID ▸ hfamiliar.clientID,
        hext.upstreamSessionID ▸ hfamiliar.upstreamID, by rw [hj]; exact nofun, hentries⟩
    refine (Familiar.applyHeaders hs hapart.request (fun _ => id) ?_ j hfinal).err
    exact List.subset_append_right _ _
  | false =>
    have hoff : j.remap = false := hext.remap ▸ (bare_prepared hnew).remap
    rw [applyHeaders, IdentityM.run_self_bind]
    dsimp only
    rw [if_pos hoff, IdentityM.run_bind, run_mappingError, hj]
    exact fun h => absurd (hj.symm.trans h) nofun

end Compat

open Compat Identity

variable {d : Digests} {fuel : ℕ} {remap : Bool} {r : Request} {body : Obj}

/-- **Collisions.** Assume that the digests of a request are apart. A new identity, the body and
the headers of the request never collide in the reverse table. Within the budget its items are
accepted exactly when no two of them clash, and collide otherwise. -/
theorem mapping_collision_iff
    (hapart : ∀ i, Identity.new d r.keyID r.headers body remap = .ok i →
      DigestsApart d remap i.keyID i.clientSessionID r.headers body)
    (hfuel : (itemsOf body).length ≤ fuel) :
    Identity.new d r.keyID r.headers body remap ≠ .error collision ∧
    (∀ i, Identity.new d r.keyID r.headers body remap = .ok i →
      ((prepareBody d body false).run i).2.mappingErr ≠ some collision) ∧
    ∀ prepared i, prepareRequestIdentity d r body remap = .ok (prepared, i) →
      ∀ res j, (sanitizeCodexInputItems d fuel prepared).run i = (res, j) →
        j.mappingErr ≠ some budgetExceeded →
          ((∃ sent, res = .ok sent) ↔ NoClash d remap i.keyID (reservedIDs (itemsOf body))
            (itemsOf body).length (rewrittenOf body)) ∧
          (j.mappingErr = some collision ↔ ¬NoClash d remap i.keyID (reservedIDs (itemsOf body))
            (itemsOf body).length (rewrittenOf body)) ∧
          ((∃ sent, res = .ok sent) → ∀ target websocketTransport,
            ((applyHeaders d target r.headers websocketTransport).run j).2.mappingErr ≠
              some collision) := by
  refine ⟨new_ne_collision, fun i hi => prepareBody_ne_collision hi (hapart i hi), ?_⟩
  intro prepared k hp res j hrun hbudget
  obtain ⟨i, hnew, hbody⟩ := prepareRequestIdentity_ok hp
  have hdigests := hapart i hnew
  have hk : ((prepareBody d body false).run i).2 = k := by rw [hbody]
  have hext := (tracks_prepareBody d body false).run i
  rw [hk] at hext
  have hinput : itemsOf prepared = itemsOf body := by
    rw [itemsOf, itemsOf, Obj.val_congr (get_prepareBody hbody (by decide) (by decide))]
  have hstore : Obj.val prepared "store" = Obj.val body "store" :=
    Obj.val_congr (get_prepareBody hbody (by decide) (by decide))
  -- preparing leaves the items, so the condition is about the body as sent
  have hrewritten : rewrittenOf prepared = rewrittenOf body := by
    rw [rewrittenOf, rewrittenOf, hinput, hstore]
  have hshortened : ShortenedApart d remap k.keyID prepared := by
    unfold ShortenedApart
    rw [hrewritten, hinput, ← hext.keyID]
    exact hdigests.shortened
  have htable := no_items hnew hdigests
  rw [hk] at htable
  have hempty : k.mappingErr = none := prepareBody_ok d hbody
  have hends := sanitizeCodexInputItems_ends (hext.remap.symm.trans (new_owner d hnew).1) rfl
    hempty htable hshortened (hinput ▸ hfuel) hrun hbudget
  rw [hrewritten, hinput, ← hext.keyID] at hends
  have hclear := @clear_iff d remap i.keyID (reservedIDs (itemsOf body)) (itemsOf body).length
    (rewrittenOf body) (fun _ ho => rewritten_of_mem ho) fun _ => hdigests.items
  have hafter : ((sanitizeCodexInputItems d fuel prepared).run
      ((prepareBody d body false).run i).2).2 = j := by rw [hk, hrun]
  rw [← hext.keyID]
  rcases hends with ⟨hc, hok, hj⟩ | ⟨hc, hj⟩ <;> rw [hclear] at hc
  · refine ⟨iff_of_true hok hc, iff_of_false ?_ (not_not.mpr hc), fun _ => ?_⟩
    · simp [hj]
    · exact applyHeaders_ne_collision hnew hdigests hafter hj
  · have hfailed : ¬∃ sent, res = .ok sent := by
      rintro ⟨sent, rfl⟩
      have hnone := sanitizeCodexInputItems_err hempty hrun
      rw [hnone] at hj
      cases hj
    exact ⟨iff_of_false hfailed hc, iff_of_true hj hc, fun hok => absurd hok hfailed⟩

section Samples

/-- A request without headers and without an API key. -/
def bareRequest : Request := ⟨[], none⟩

def messages (ids : List String) : Obj :=
  [("input", .arr (ids.map fun itemID => .obj [("id", .str itemID), ("type", .str "message")]))]

/-- Digests that tell apart messages by their last characters. -/
def Digests.lastCharacter : Digests where
  sha256 _ _ := 0
  hmac _ message _ := .ofNat ((message.toList.getLast?.map Char.toNat).getD 0)

def sampleApart (d : Digests) (ids : List String) : Bool :=
  ((Identity.new d none [] (messages ids) true).toOption.all fun i => i.clientSessionID = "") &&
    decide (UUIDsApartOn d ""
      (requestPairs "" [] (messages ids) ++ itemPairs (rewrittenOf (messages ids)))) &&
    (rewrittenOf (messages ids)).all fun item =>
      (askOf d true "" (reservedIDs (itemsOf (messages ids))) item).fixedName.isSome

lemma digestsApart_sample {d : Digests} {ids : List String} (h : sampleApart d ids = true)
    {i : Identity} (hi : Identity.new d none [] (messages ids) true = .ok i) :
    DigestsApart d true i.keyID i.clientSessionID [] (messages ids) := by
  unfold sampleApart at h
  rw [Bool.and_eq_true, Bool.and_eq_true, hi] at h
  obtain ⟨⟨hclient, huuids⟩, hfixed⟩ := h
  have hkey : i.keyID = "" := (new_owner _ hi).2
  rw [hkey, show i.clientSessionID = "" from of_decide_eq_true hclient]
  refine ⟨of_decide_eq_true huuids, fun a ha b hb v w hv => ?_⟩
  have hname := List.all_eq_true.mp hfixed a ha
  rw [hv] at hname
  cases hname

/-- A request with two rewritten ids is accepted. -/
theorem mapping_collision_two : ∃ prepared i sent j,
    prepareRequestIdentity .lastCharacter bareRequest (messages ["x", "y"]) true =
        .ok (prepared, i) ∧
      (rewrittenOf (messages ["x", "y"])).length = 2 ∧
      (sanitizeCodexInputItems .lastCharacter 2 prepared).run i = (.ok sent, j) := by
  obtain ⟨⟨prepared, i⟩, hp, hbudget⟩ := ok_of_any
    (x := prepareRequestIdentity .lastCharacter bareRequest (messages ["x", "y"]) true)
    (p := fun x => decide (((sanitizeCodexInputItems .lastCharacter 2 x.1).run x.2).2.mappingErr ≠
      some budgetExceeded)) (by decide +kernel)
  obtain ⟨-, -, h⟩ := @mapping_collision_iff .lastCharacter 2 true bareRequest
    (messages ["x", "y"]) (fun i hi => digestsApart_sample (by decide +kernel) hi)
    (by decide +kernel)
  rcases hrun : (sanitizeCodexInputItems .lastCharacter 2 prepared).run i with ⟨res, j⟩
  rw [hrun] at hbudget
  have htrimmed : ∀ a ∈ rewrittenOf (messages ["x", "y"]), ∀ b ∈ rewrittenOf (messages ["x", "y"]),
      trimSpace (Obj.val a "id").text = trimSpace (Obj.val b "id").text →
        (Obj.val a "id").text = (Obj.val b "id").text := by
    decide +kernel
  obtain ⟨sent, rfl⟩ := (h prepared i hp res j hrun (of_decide_eq_true hbudget)).1.mpr
    ⟨fun _ a ha b hb _ hid _ => htrimmed a ha b hb hid, nofun⟩
  exact ⟨prepared, i, sent, j, hp, by decide +kernel, hrun⟩

set_option maxRecDepth 8000 in
/-- **Padded ids.** Two ids that differ in white space collide, though all digests are apart. -/
theorem mapping_collision_padded :
    (∀ i, Identity.new Digests.zero none [] (messages ["x", " x"]) true = .ok i →
      DigestsApart Digests.zero true i.keyID i.clientSessionID [] (messages ["x", " x"])) ∧
    ∃ prepared i j, prepareRequestIdentity Digests.zero bareRequest (messages ["x", " x"]) true =
      .ok (prepared, i) ∧ (sanitizeCodexInputItems Digests.zero 2 prepared).run i =
        (.error collision, j) := by
  refine ⟨fun i hi => digestsApart_sample (by decide) hi, ?_⟩
  obtain ⟨⟨prepared, i⟩, hp, hfail⟩ := ok_of_any
    (x := prepareRequestIdentity Digests.zero bareRequest (messages ["x", " x"]) true)
    (p := fun x => match ((sanitizeCodexInputItems Digests.zero 2 x.1).run x.2).1 with
      | .error e => e = collision
      | .ok _ => false) (by decide)
  rcases hrun : (sanitizeCodexInputItems Digests.zero 2 prepared).run i with ⟨e | sent, j⟩
  · rw [hrun] at hfail
    exact ⟨prepared, i, j, hp, by rw [hrun, of_decide_eq_true hfail]⟩
  · rw [hrun] at hfail
    cases hfail

end Samples

end CodexOne
