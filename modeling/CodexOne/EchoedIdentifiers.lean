import CodexOne.Exposure
import CodexOne.Items
import CodexOne.RestoredStrings

/-!
Identifiers that the upstream sends back.

Every identifier that is replaced in a request has its entry in the table, unless a mapping error
stops the request. So where the upstream repeats what it was sent, the client reads what it has
written itself, without the white space around it.
-/

namespace CodexOne

open GoStrings Members JsonOf IdentityM JsonString

namespace Identity

variable {d : Digests} {i j k l : Identity} {w t : String}

/-- Where the upstream writes `w` the client reads `t`. -/
structure Reads (k : Identity) (w t : String) : Prop where
  text : k.restoreText w = t
  payload : k.exposePayload (marshal (.str w)) = marshal (.str t)

/-- What has been replaced is in the table. -/
def Tabled (k : Identity) (w t : String) : Prop := w ≠ t → (w, t) ∈ k.reverse

lemma longest_codeRules (k : Identity) : k.codeRules.Longest :=
  longest_of_longestFirst prefixSize_writtenLen (longestFirst_sorted _ _)

lemma nodup_codeRules (k : Identity) : (k.codeRules.map Prod.fst).Nodup := by
  have hsort : k.codeRules.Perm k.runeTable := List.perm_insertionSort _ _
  rw [(hsort.map Prod.fst).nodup_iff, runeTable, List.map_map]
  have heq : Prod.fst ∘ (fun e : String × String => (e.1.toList, e.2.toList)) =
      String.toList ∘ Prod.fst := rfl
  rw [heq, ← List.map_map]
  exact k.distinct.map fun _ _ h => String.toList_injective h

lemma first_entry (h : (w, t) ∈ k.reverse) :
    k.codeRules.first w.toList = some (w.toList, t.toList) := by
  refine first_self (r := (w.toList, t.toList)) k.nodup_codeRules k.longest_codeRules ?_
  rw [codeRules, (List.perm_insertionSort _ _).mem_iff]
  exact List.mem_map_of_mem (f := fun e : String × String => (e.1.toList, e.2.toList)) h

lemma marshal_str (s : String) : marshal (.str s) = '"' :: (encodedText s ++ ['"']) := by
  simp [marshal, Raw.ofJson, Raw.render, Head.literal, encodedText]

/-- **An entry is read back.** Nothing longer than an id is found in it, and nothing before it in
the string that holds it alone. -/
lemma reads_of_mem (hfill : k.FilledTable) (h : (w, t) ∈ k.reverse) : Reads k w t := by
  have hne : w.toList ≠ [] := fun hw => (hfill _ h).1 (String.toList_injective hw)
  constructor
  · have hsub := substitute_match (r := (w.toList, t.toList)) (t := [])
      (by rw [List.append_nil, ← first_codeRules]; exact first_entry h) hne
    rw [restoreText, Raw.substituteString]
    rw [List.append_nil, substitute_nil, List.append_nil] at hsub
    rw [hsub, String.ofList_toList]
  · have hfirst : Rules.first (spelled k.codeRules) (w.toList.map ofRune) =
        some (w.toList.map ofRune, t.toList.map ofRune) := by
      rw [first_spelled (by rw [runes_map_ofRune, first_entry h]; simp), runes_map_ofRune,
        first_entry h]
      rfl
    have hnone (ps : Text) : Rules.first (written (spelled k.codeRules)) ('"' :: ps) = none := by
      have hempty : Rules.first (spelled k.codeRules) [] = none := by
        refine first_eq_none.mpr fun r hr hpre => ?_
        obtain ⟨s, hs, rfl⟩ := List.mem_map.mp hr
        exact (hfill.rules s hs).1 (by simpa using hpre)
      have hw := first_written (spelled k.codeRules) [] ps
      rw [hempty] at hw
      exact hw
    have hmatch := first_written (spelled k.codeRules) (w.toList.map ofRune) []
    rw [hfirst, Option.map_some] at hmatch
    have hsub := substitute_match
      (r := (renderPieces (w.toList.map ofRune), renderPieces (t.toList.map ofRune)))
      (t := ['"']) hmatch (renderPieces_ne_nil (by simpa using hne))
    rw [marshal_str, marshal_str, exposePayload_eq, substitute_copy (hnone _)]
    rw [substitute_copy (hnone _), substitute_nil] at hsub
    exact congrArg _ hsub

lemma Extends.ok (h : Extends i j) (hj : j.mappingErr = none) : i.mappingErr = none := by
  by_contra hi
  exact hi (h.stuck hi ▸ hj)

lemma mem_of_remember {u c : String} (hu : u ≠ "") (hc : c ≠ "") (hne : u ≠ c)
    (hok : (i.remember u c).mappingErr = none) : (u, c) ∈ (i.remember u c).reverse := by
  have hidle : ¬Idle u c := by
    rintro (h | h | h)
    · exact hu h
    · exact hc h
    · exact hne h
  rcases remember_cases ((extends_remember i u c).ok hok) u c with
    ⟨hr, h⟩ | ⟨_, _, -, -, hr⟩ | ⟨-, e, hr⟩
  · rw [hr]
    exact h.resolve_left hidle
  · rw [hr]
    exact List.mem_append_right _ (List.mem_singleton.mpr rfl)
  · rw [hr] at hok
    cases hok

lemma tabled_of_remember {u c : String} (hu : u ≠ "") (hc : c ≠ "")
    (hk : Extends (i.remember u c) k) (hok : k.mappingErr = none) : Tabled k u c := fun hne =>
  hk.reverse.subset (mem_of_remember hu hc hne (hk.ok hok))

lemma mapValue_tabled {kind value : String} (hremap : i.remap = true)
    (hne : cleanIdentityValue value ≠ "") (h : (mapValue d kind value).run i = (.ok w, j))
    (hk : Extends j k) (hok : k.mappingErr = none) : Tabled k w (cleanIdentityValue value) := by
  rw [mapValue, run_self_bind] at h
  dsimp only at h
  rw [if_neg (by rw [hremap]; simp [hne])] at h
  obtain ⟨_, j', h1, h2⟩ := bind_ok h
  obtain ⟨rfl, rfl⟩ := pure_ok h2
  rw [run_update, Prod.mk.injEq] at h1
  obtain ⟨-, rfl⟩ := h1
  exact tabled_of_remember (Digests.isUUID_identityUUID _ _ _).ne_empty hne hk hok

/-- The window is one of the session, or has no index. -/
def WholeWindow (i : Identity) (value : String) : Prop :=
  (windowParts (cleanIdentityValue value)).1 = i.clientSessionID ∧ i.upstreamSessionID ≠ "" ∨
    (windowParts (cleanIdentityValue value)).2 = ""

lemma mapWindow_tabled {value : String} (hremap : i.remap = true)
    (hvalid : validIdentityValue value = true) (hwhole : i.WholeWindow value)
    (h : (mapWindow d value).run i = (.ok w, j)) (hk : Extends j k)
    (hok : k.mappingErr = none) : Tabled k w (cleanIdentityValue value) := by
  have hne := clean_ne_empty hvalid
  rw [mapWindow, run_self_bind] at h
  dsimp only at h
  rw [if_neg (by rw [hremap]; simp [hne])] at h
  rw [WholeWindow] at hwhole
  rcases hparts : windowParts (cleanIdentityValue value) with ⟨base, suffix⟩
  obtain ⟨hvalue, hbase, -⟩ := windowParts_spec hparts hne
  rw [hparts] at h hwhole
  dsimp only at h hwhole
  by_cases hs : base = i.clientSessionID ∧ i.upstreamSessionID ≠ ""
  · rw [if_pos hs] at h
    obtain ⟨_, j', h1, h2⟩ := bind_ok h
    obtain ⟨rfl, rfl⟩ := pure_ok h2
    rw [run_update, Prod.mk.injEq] at h1
    obtain ⟨-, rfl⟩ := h1
    refine tabled_of_remember (fun hempty => hs.2 ?_) hne hk hok
    have hlength := congrArg String.length hempty
    rw [String.length_append, String.length_empty] at hlength
    exact String.length_eq_zero_iff.mp (by omega)
  · rw [if_neg hs] at h
    obtain rfl := hwhole.resolve_left hs
    rw [String.append_empty] at hvalue
    obtain ⟨mapped, j', h1, h2⟩ := bind_ok h
    obtain ⟨rfl, rfl⟩ := pure_ok h2
    have hclean : cleanIdentityValue base = base := by
      have hv := valid_of_append hbase (by rw [hvalue, String.append_empty]) hvalid
      rw [(clean_of_valid hv).1, ← hvalue, (clean_of_valid hvalid).1, trimSpace_idem]
    have htabled := mapValue_tabled hremap (by rwa [hclean]) h1 hk hok
    rw [String.append_empty, hvalue, ← hclean]
    exact htabled

/-! ### Parts of a method -/

/-- A part of a method, which changes one field of what the method works on. -/
structure Part (α : Type) where
  name : String
  change : List (String × α) → IdentityM (List (String × α))
  tracks : ∀ o, Tracks (change o)
  frame : ∀ {o out i j}, (change o).run i = (.ok out, j) →
    ∀ key ≠ name, Members.get out key = Members.get o key

section

variable {α β : Type} {o out : List (String × α)}

/-- The parts, one after the other, and what comes behind them. -/
def inTurn : List (Part α) → List (String × α) → (List (String × α) → IdentityM β) → IdentityM β
  | [], o, f => f o
  | p :: ps, o, f => p.change o >>= fun o => inTurn ps o f

/-- The part has been run on the field that it names as it was, and nothing has changed it since. -/
structure Part.Ran (p : Part α) (o out : List (String × α)) (l : Identity) : Prop where
  ran : ∃ o1 o2 i1 i2, Members.get o1 p.name = Members.get o p.name ∧
    (p.change o1).run i1 = (.ok o2, i2) ∧ SameOwner i1 l ∧ Extends i2 l ∧
    Members.get out p.name = Members.get o2 p.name

lemma inTurn_ok {ps : List (Part α)} (hd : (ps.map (·.name)).Nodup)
    {f : List (String × α) → IdentityM β} {a : β} (h : (inTurn ps o f).run i = (.ok a, j)) :
    ∃ out l, (f out).run l = (.ok a, j) ∧ Extends i l ∧ (∀ p ∈ ps, p.Ran o out l) ∧
      ∀ key ∉ ps.map (·.name), Members.get out key = Members.get o key := by
  induction ps generalizing o i with
  | nil => exact ⟨o, i, h, .refl i, fun _ hp => (List.not_mem_nil hp).elim, fun _ _ => rfl⟩
  | cons p ps ih =>
    obtain ⟨hp, hd⟩ := List.nodup_cons.mp hd
    obtain ⟨o', i', h1, h2⟩ := bind_ok h
    have hfirst := (p.tracks o).run i
    rw [h1] at hfirst
    obtain ⟨out, l, hf, hext, hran, hother⟩ := ih hd h2
    refine ⟨out, l, hf, hfirst.trans hext, fun q hq => ?_, fun key hkey => ?_⟩
    · rcases List.mem_cons.mp hq with rfl | hq
      · exact ⟨o, o', i, i', rfl, h1, (hfirst.trans hext).toSameOwner, hext, hother _ hp⟩
      · obtain ⟨o1, o2, i1, i2, hget, hrest⟩ := hran q hq
        have hne : q.name ≠ p.name := fun heq =>
          hp (List.mem_map.mpr ⟨q, hq, heq⟩)
        exact ⟨o1, o2, i1, i2, hget.trans (p.frame h1 _ hne), hrest⟩
    · rw [List.map_cons, List.mem_cons, not_or] at hkey
      rw [hother key hkey.2, p.frame h1 key hkey.1]

end

/-- A part of `remapClientMetadata` that replaces an identifier. -/
def clientPart (map : String → IdentityM String) (hmap : ∀ t, Tracks (map t)) (name : String) :
    Part Json where
  name := name
  change := remapClientField map name
  tracks := composes_tracks.remapClientField hmap name
  frame {o out i j} h key hkey := by
    unfold remapClientField at h
    split at h
    · rw [(pure_ok h).1]
    · split_ifs at h
      · rw [(pure_ok h).1]
      · cases h
      · obtain ⟨mapped, l, -, h2⟩ := bind_ok h
        rw [(pure_ok h2).1, get_set_ne _ _ hkey]
    · cases h

/-- A part of `remapClientMetadata` that replaces the session. -/
def sessionPart (name : String) : Part Json where
  name := name
  change := remapClientSession name
  tracks := composes_tracks.remapClientSession name
  frame {o out i j} h key hkey := by
    rw [remapClientSession, run_self_bind] at h
    split_ifs at h
    · rw [(pure_ok h).1, get_set_ne _ _ hkey]
    · rw [(pure_ok h).1]

/-- A part of `remapClientMetadata` that replaces what is in turn metadata. -/
def turnPart (d : Digests) (name : String) : Part Json where
  name := name
  change := remapClientTurn d name
  tracks := composes_tracks.remapClientTurn (tracks_mapValue d) (tracks_mapWindow d) name
  frame {_ _ i _} h := (remapClientTurn_ok (.refl i) h).1

def clientParts (d : Digests) : List (Part Json) :=
  [clientPart (mapValue d "installation") (tracks_mapValue d _) "x-codex-installation-id",
    clientPart (mapValue d "installation") (tracks_mapValue d _) "installation_id",
    clientPart (mapValue d "request") (tracks_mapValue d _) "x-client-request-id",
    clientPart (mapValue d "request") (tracks_mapValue d _) "request_id",
    clientPart (mapValue d "thread") (tracks_mapValue d _) "thread_id",
    clientPart (mapValue d "thread") (tracks_mapValue d _) "x-codex-thread-id",
    clientPart (mapWindow d) (tracks_mapWindow d) "x-codex-window-id",
    clientPart (mapWindow d) (tracks_mapWindow d) "window_id",
    sessionPart "session_id", sessionPart "x-codex-session-id", sessionPart "prompt_cache_key",
    turnPart d "x-codex-turn-metadata", turnPart d "turn_metadata"]

lemma nodup_clientParts (d : Digests) : ((clientParts d).map (·.name)).Nodup := by
  have hnames : (clientParts d).map (·.name) = clientIdentityFields := rfl
  rw [hnames]
  decide +kernel

lemma remapClientMetadata_parts {metadata out : Obj} (hremap : i.remap = true)
    (h : (remapClientMetadata d metadata).run i = (.ok out, j)) :
    ∀ p ∈ clientParts d, p.Ran metadata out j := by
  rw [remapClientMetadata, run_self_bind, if_neg (by simp [hremap])] at h
  have hturn : (inTurn (clientParts d) metadata fun metadata =>
      mappingError >>= fun _ => pure metadata).run i = (.ok out, j) := by
    simp only [clientParts, clientPart, sessionPart, turnPart, inTurn]
    with_reducible exact h
  obtain ⟨out', l, hf, -, hran, -⟩ := inTurn_ok (nodup_clientParts d) hturn
  obtain ⟨_, l', h1, h2⟩ := bind_ok hf
  obtain ⟨rfl, rfl⟩ := pure_ok h2
  rwa [(mappingError_ok h1).1]

lemma tabled_of_ran {map : String → IdentityM String} {hmap : ∀ t, Tracks (map t)} {name : String}
    {metadata out : Obj} (h : (clientPart map hmap name).Ran metadata out l)
    (hg : Members.get metadata name = some (.str t)) (hblank : trimSpace t ≠ "")
    (htabled : ∀ i j w, SameOwner i l → validIdentityValue t = true →
      (map t).run i = (.ok w, j) → Extends j l → Tabled k w (cleanIdentityValue t)) :
    ∃ w, Members.get out name = some (.str w) ∧ Tabled k w (cleanIdentityValue t) := by
  obtain ⟨o1, o2, i1, i2, hget, hrun, hs, hext, hout⟩ := h.ran
  simp only [clientPart] at hget hrun hout
  rw [remapClientField, hget, hg] at hrun
  dsimp only at hrun
  rw [if_neg hblank] at hrun
  split_ifs at hrun with hinvalid
  · cases hrun
  · obtain ⟨w, l', h1, h2⟩ := bind_ok hrun
    obtain ⟨rfl, rfl⟩ := pure_ok h2
    exact ⟨w, by rw [hout, get_set_self], htabled _ _ w hs (by simpa using hinvalid) h1 hext⟩

/-- The fields of client metadata with an identifier of their own, and the kinds of these. -/
def identifierKinds : List (String × String) :=
  [("x-codex-installation-id", "installation"), ("installation_id", "installation"),
    ("x-client-request-id", "request"), ("request_id", "request"), ("thread_id", "thread"),
    ("x-codex-thread-id", "thread")]

/-- The fields of client metadata with a window. -/
def windowFields : List String := ["x-codex-window-id", "window_id"]

/-- What is sent of a field of client metadata comes back as the client wrote it. -/
def FieldEchoes (k : Identity) (sent : Obj) (name t : String) : Prop :=
  ∃ w, Members.get (metadataOf sent) name = some (.str w) ∧ Tabled k w (cleanIdentityValue t)

lemma fields_tabled {body sent : Obj} {fixed : Bool} (hremap : i.remap = true)
    (h : (prepareBody d body fixed).run i = (.ok sent, j)) (hk : Extends j k)
    (hok : k.mappingErr = none) {name : String}
    (hg : Members.get (metadataOf body) name = some (.str t)) (hblank : trimSpace t ≠ "")
    (hname : name ∈ identifierKinds.map (·.1) ∨ name ∈ windowFields ∧ i.WholeWindow t) :
    FieldEchoes k sent name t := by
  obtain ⟨metadata, hmetadata⟩ : ∃ metadata,
      Members.get body "client_metadata" = some (.obj metadata) := by
    unfold metadataOf Obj.val at hg
    cases hm : Members.get body "client_metadata" with
    | none =>
      rw [hm] at hg
      cases hg
    | some v =>
      rw [hm] at hg
      cases v with
      | obj metadata => exact ⟨metadata, rfl⟩
      | _ => cases hg
  rw [metadataOf, Obj.val_of_get hmetadata] at hg
  have hparts := remapClientMetadata_parts hremap (prepareBody_remaps h hmetadata)
  have hs : SameOwner i j := (tracks_prepareBody d body fixed).owner (.refl i) h
  have hkind (kind : String) {name : String} (hg : Members.get metadata name = some (.str t))
      (hmem : clientPart (mapValue d kind) (tracks_mapValue d kind) name ∈ clientParts d) :
      FieldEchoes k sent name t :=
    tabled_of_ran (hparts _ hmem) hg hblank fun l l' w hl hvalid hrun hext =>
      mapValue_tabled ((hl.remap.trans (hs.remap.symm.trans hremap))) (clean_ne_empty hvalid) hrun
        (hext.trans hk) hok
  rcases hname with hname | ⟨hname, hwhole⟩
  · -- an identifier, under the kind of its field
    simp only [identifierKinds, List.map_cons, List.map_nil, List.mem_cons, List.not_mem_nil,
      or_false] at hname
    rcases hname with rfl | rfl | rfl | rfl | rfl | rfl
    · exact hkind "installation" hg (by simp [clientParts])
    · exact hkind "installation" hg (by simp [clientParts])
    · exact hkind "request" hg (by simp [clientParts])
    · exact hkind "request" hg (by simp [clientParts])
    · exact hkind "thread" hg (by simp [clientParts])
    · exact hkind "thread" hg (by simp [clientParts])
  · -- a window id, remembered as a whole
    have hwindow : clientPart (mapWindow d) (tracks_mapWindow d) name ∈ clientParts d := by
      simp only [windowFields, List.mem_cons, List.not_mem_nil, or_false] at hname
      rcases hname with rfl | rfl <;> simp [clientParts]
    refine tabled_of_ran (hparts _ hwindow) hg hblank fun l l' w hl hvalid hrun hext => ?_
    refine mapWindow_tabled (hl.remap.trans (hs.remap.symm.trans hremap)) hvalid ?_ hrun
      (hext.trans hk) hok
    rw [WholeWindow, hl.clientSessionID, hl.upstreamSessionID, ← hs.clientSessionID,
      ← hs.upstreamSessionID]
    exact hwhole

def SessionTabled (k : Identity) : Prop :=
  k.clientSessionID ≠ "" → Tabled k k.upstreamSessionID (cleanIdentityValue k.clientSessionID)

lemma SessionTabled.mono (h : SessionTabled j) (hk : Extends j k) : SessionTabled k := by
  intro hne
  rw [← hk.clientSessionID] at hne ⊢
  rw [← hk.upstreamSessionID]
  exact fun hw => hk.reverse.subset (h hne hw)

lemma sessionTabled_new {key : Option String} {headers : Header} {object : Obj}
    (h : Identity.new d key headers object true = .ok i) : SessionTabled i := by
  obtain ⟨client, up, j, rfl, hok, ⟨hvalid, hrun⟩ | ⟨rfl, rfl, -⟩⟩ := new_ok d h
  · have hclient : j.clientSessionID = client := by
      have hext := (tracks_mapValue d "prompt-cache" client).run
        (blank true (trimSpace (key.getD "")) client)
      rw [hrun] at hext
      exact hext.clientSessionID.symm
    intro _
    have htabled := mapValue_tabled rfl (clean_ne_empty hvalid) hrun (.refl j) hok
    rw [← hclient] at htabled
    exact htabled
  · exact fun hne => absurd rfl hne

/-! ### Headers -/

/-- A part of `applyHeaders` that replaces an identifier. -/
def headerPart (map : String → IdentityM String) (hmap : ∀ t, Tracks (map t)) (name : String)
    (source : Header) : Part (List String) where
  name := Header.canonicalKey name
  change := applyHeader map name source
  tracks := composes_tracks.applyHeader hmap name source
  frame {o out i j} h key hkey := by
    unfold applyHeader at h
    split_ifs at h
    · cases h
    · obtain ⟨_, _, -, h2⟩ := bind_ok h
      rw [(pure_ok h2).1, get_setHeader _ _ hkey]
    · rw [(pure_ok h).1]

/-- The part of `applyHeaders` that replaces what is in turn metadata. -/
def turnHeaderPart (d : Digests) (source : Header) : Part (List String) where
  name := turnHeader
  change := applyTurnHeader d source
  tracks := composes_tracks.applyTurnHeader (tracks_mapValue d) (tracks_mapWindow d) source
  frame {o out i j} h key hkey := by
    unfold applyTurnHeader at h
    split_ifs at h
    · obtain ⟨_, _, -, h2⟩ := bind_ok h
      rw [(pure_ok h2).1, get_setHeader _ _ hkey]
    · rw [(pure_ok h).1]

def headerParts (d : Digests) (source : Header) : List (Part (List String)) :=
  [headerPart (mapValue d "request") (tracks_mapValue d _) "X-Client-Request-Id" source,
    headerPart (mapValue d "thread") (tracks_mapValue d _) "Thread-Id" source,
    headerPart (mapWindow d) (tracks_mapWindow d) "X-Codex-Window-Id" source,
    turnHeaderPart d source]

lemma nodup_headerParts (d : Digests) (source : Header) :
    ((headerParts d source).map (·.name)).Nodup := by
  have hnames : (headerParts d source).map (·.name) =
      ["X-Client-Request-Id", "Thread-Id", "X-Codex-Window-Id"].map Header.canonicalKey ++
        [turnHeader] := rfl
  rw [hnames]
  decide +kernel

lemma applyHeaders_parts {target source out : Header} {websocketTransport : Bool}
    (hremap : i.remap = true)
    (h : (applyHeaders d target source websocketTransport).run i = (.ok out, j)) :
    ∀ p ∈ headerParts d source,
      p.Ran (i.sessionHeaders target source websocketTransport) out j := by
  rw [applyHeaders, run_self_bind] at h
  dsimp only at h
  rw [if_neg (by simp [hremap])] at h
  have hturn : (inTurn (headerParts d source) (i.sessionHeaders target source websocketTransport)
      fun target => mappingError >>= fun _ => pure target).run i = (.ok out, j) := by
    simp only [headerParts, headerPart, turnHeaderPart, inTurn]
    with_reducible exact h
  obtain ⟨out', l, hf, -, hran, -⟩ := inTurn_ok (nodup_headerParts d source) hturn
  obtain ⟨_, l', h1, h2⟩ := bind_ok hf
  obtain ⟨rfl, rfl⟩ := pure_ok h2
  rwa [(mappingError_ok h1).1]

/-- The headers with an identifier of their own, and the kinds of these. -/
def identifierHeaders : List (String × String) :=
  [("X-Client-Request-Id", "request"), ("Thread-Id", "thread")]

/-- What is sent of a header comes back as the client wrote it. -/
def HeaderEchoes (k : Identity) (out : Header) (name t : String) : Prop :=
  ∃ w, out.get name = w ∧ Tabled k w (cleanIdentityValue t)

lemma valid_of_clean (h : cleanIdentityValue t ≠ "") :
    validIdentityValue (cleanIdentityValue t) = true := by
  unfold cleanIdentityValue at h ⊢
  split_ifs at h ⊢ with hvalid
  · exact hvalid
  · exact absurd rfl h

lemma clean_idem (t : String) :
    cleanIdentityValue (cleanIdentityValue t) = cleanIdentityValue t := by
  by_cases h : cleanIdentityValue t = ""
  · rw [h]
    decide
  · have hvalid := valid_of_clean h
    rw [(clean_of_valid hvalid).1]
    unfold cleanIdentityValue at h ⊢
    split_ifs at h ⊢
    · exact trimSpace_idem t
    · exact absurd rfl h

lemma tabled_of_header {map : String → IdentityM String} {hmap : ∀ t, Tracks (map t)}
    {name : String}
    {source target out : Header} (h : (headerPart map hmap name source).Ran target out l)
    (hblank : trimSpace (source.get name) ≠ "")
    (htabled : ∀ i j w, SameOwner i l →
      validIdentityValue (cleanIdentityValue (trimSpace (source.get name))) = true →
      (map (cleanIdentityValue (trimSpace (source.get name)))).run i = (.ok w, j) → Extends j l →
        Tabled k w (cleanIdentityValue (cleanIdentityValue (trimSpace (source.get name))))) :
    HeaderEchoes k out name (trimSpace (source.get name)) := by
  obtain ⟨o1, o2, i1, i2, -, hrun, hs, hext, hout⟩ := h.ran
  simp only [headerPart] at hrun hout
  rw [applyHeader, if_pos hblank] at hrun
  split_ifs at hrun with hempty
  · cases hrun
  · obtain ⟨w, l', h1, h2⟩ := bind_ok hrun
    obtain ⟨rfl, rfl⟩ := pure_ok h2
    refine ⟨w, ?_, ?_⟩
    · rw [Header.get, hout, Header.set, get_set_self]
      rfl
    · have hw := htabled _ _ w hs (valid_of_clean hempty) h1 hext
      rwa [clean_idem] at hw

lemma headers_tabled {target source out : Header} {websocketTransport : Bool}
    (hremap : i.remap = true)
    (h : (applyHeaders d target source websocketTransport).run i = (.ok out, j)) (hk : Extends j k)
    (hok : k.mappingErr = none) {name : String} (hblank : trimSpace (source.get name) ≠ "")
    (hname : name ∈ identifierHeaders.map (·.1) ∨
      name = "X-Codex-Window-Id" ∧ i.WholeWindow (trimSpace (source.get name))) :
    HeaderEchoes k out name (trimSpace (source.get name)) := by
  have hparts := applyHeaders_parts hremap h
  have hs : SameOwner i j :=
    (tracks_applyHeaders d target source websocketTransport).owner (.refl i) h
  have hkind (kind : String) {name : String} (hblank : trimSpace (source.get name) ≠ "")
      (hmem : headerPart (mapValue d kind) (tracks_mapValue d kind) name source ∈
        headerParts d source) : HeaderEchoes k out name (trimSpace (source.get name)) :=
    tabled_of_header (hparts _ hmem) hblank fun l l' w hl hvalid hrun hext =>
      mapValue_tabled (hl.remap.trans (hs.remap.symm.trans hremap)) (clean_ne_empty hvalid) hrun
        (hext.trans hk) hok
  rcases hname with hname | ⟨rfl, hwhole⟩
  · simp only [identifierHeaders, List.map_cons, List.map_nil, List.mem_cons, List.not_mem_nil,
      or_false] at hname
    rcases hname with rfl | rfl
    · exact hkind "request" hblank (by simp [headerParts])
    · exact hkind "thread" hblank (by simp [headerParts])
  · refine tabled_of_header (hparts (headerPart (mapWindow d) (tracks_mapWindow d) _ source)
      (by simp [headerParts])) hblank fun l l' w hl hvalid hrun hext => ?_
    refine mapWindow_tabled (hl.remap.trans (hs.remap.symm.trans hremap)) hvalid ?_ hrun
      (hext.trans hk) hok
    rw [WholeWindow, clean_idem, hl.clientSessionID, hl.upstreamSessionID, ← hs.clientSessionID,
      ← hs.upstreamSessionID]
    exact hwhole

open Compat in
lemma keptObject_id {store : Bool} {item kept : Obj} (h : keptObject store item = some kept)
    (hid : (Obj.val kept "id").text ≠ "") :
    (Obj.val kept "id").text = (Obj.val item "id").text := by
  have hget := get_of_text rfl hid
  rcases keptObject_cases h with rfl | rfl | rfl | rfl
  · rfl
  · rw [get_erase_self] at hget
    cases hget
  · rw [Obj.val_congr (get_erase_ne _ (by decide))]
  · rw [get_erase_self] at hget
    cases hget

/-- The id that an item is sent under is in the table. -/
def ItemTabled (k : Identity) : Json → Json → Prop
  | .obj item, .obj sent => (Obj.val sent "id").text ≠ "" →
      Tabled k (Obj.val sent "id").text (Obj.val item "id").text
  | item, sent => sent = item

open Compat in
lemma itemID_tabled {fuel : ℕ} {reserved used : List String} {item : Obj} {x : Obj × List String}
    (h : (sanitizeItemID d fuel reserved used item).run i = (.ok x, j)) (hk : Extends j k)
    (hok : k.mappingErr = none) (hid : (Obj.val x.1 "id").text ≠ "") :
    (Obj.val item "id").text ≠ "" ∧ Tabled k (Obj.val x.1 "id").text (Obj.val item "id").text := by
  rcases sanitizeItemID_ok h with ⟨hempty, rfl⟩ | ⟨hempty, n, -, rfl, hj⟩
  · exact absurd hempty hid
  · dsimp only at hid ⊢
    rw [Obj.val_of_get (get_renamed n hempty)] at hid ⊢
    exact ⟨hempty, fun hne => tabled_of_remember hid hempty (hj hne ▸ hk) hok hne⟩

open Compat in
lemma items_tabled {fuel : ℕ} {store : Bool} {reserved used : List String} {items out : List Json}
    (h : (sanitizeItems d fuel store reserved items used).run i = (.ok out, j)) (hk : Extends j k)
    (hok : k.mappingErr = none) :
    List.Forall₂ (ItemTabled k) (items.filter fun item => !leftOut store item) out := by
  refine sanitizeItems_forall₂ (fun value hv => ?_) ?_ h
  · cases value with
    | obj o => exact absurd rfl (hv o)
    | _ => rfl
  · intro used item kept x l m hkept hid hm hne
    obtain ⟨hkeptNe, htabled⟩ := itemID_tabled hid (hm.trans hk) hok hne
    rwa [keptObject_id hkept hkeptNe] at htabled

/-- What has been replaced comes back. -/
def Echoed (k : Identity) (w t : String) : Prop := w ≠ t → Reads k w t

lemma Tabled.echoed (hfill : k.FilledTable) (h : Tabled k w t) : Echoed k w t := fun hne =>
  reads_of_mem hfill (h hne)

lemma extends_after (c : Call) (i : Identity) : Extends i (c.after d i) := by
  cases c with
  | prepareBody object fixed => exact (tracks_prepareBody d object fixed).run i
  | applyHeaders target source websocketTransport =>
    exact (tracks_applyHeaders d target source websocketTransport).run i
  | sanitizeCodexInputItems fuel object =>
    exact (Compat.tracks_sanitizeCodexInputItems d fuel object).run i

lemma extends_calls (calls : List Call) (i : Identity) :
    Extends i (calls.foldl (Call.after d) i) := by
  induction calls generalizing i with
  | nil => exact .refl i
  | cons c calls ih => exact (extends_after c i).trans (ih _)

/-- An id that an item is sent under comes back as that of the item it stems from. -/
def ItemEchoes (k : Identity) : Json → Json → Prop
  | .obj item, .obj sent => (Obj.val sent "id").text ≠ "" →
      Echoed k (Obj.val sent "id").text (Obj.val item "id").text
  | item, sent => sent = item

/-- Where the upstream repeats what a call has sent, the client reads in the end what it has
written: the session, the identifiers of the metadata and of the headers, and the ids of items. -/
def Call.Echoes (d : Digests) (i k : Identity) : Call → Prop
  | .prepareBody body fixed => ∀ sent, ((Identity.prepareBody d body fixed).run i).1 = .ok sent →
      (i.clientSessionID ≠ "" → i.upstreamSessionID ≠ "" → ∃ w,
        Members.get sent "prompt_cache_key" = some (.str w) ∧
          Echoed k w (cleanIdentityValue i.clientSessionID)) ∧
      ∀ name t, Members.get (metadataOf body) name = some (.str t) → trimSpace t ≠ "" →
        name ∈ identifierKinds.map (·.1) ∨ name ∈ windowFields ∧ i.WholeWindow t →
          ∃ w, Members.get (metadataOf sent) name = some (.str w) ∧
            Echoed k w (cleanIdentityValue t)
  | .applyHeaders target source websocketTransport => ∀ out,
      ((Identity.applyHeaders d target source websocketTransport).run i).1 = .ok out →
        ∀ name, trimSpace (source.get name) ≠ "" →
          name ∈ identifierHeaders.map (·.1) ∨
            name = "X-Codex-Window-Id" ∧ i.WholeWindow (trimSpace (source.get name)) →
              Echoed k (out.get name) (cleanIdentityValue (trimSpace (source.get name)))
  | .sanitizeCodexInputItems fuel object => ∀ out items,
      ((Compat.sanitizeCodexInputItems d fuel object).run i).1 = .ok out →
        Members.get object "input" = some (.arr items) → ∃ sent,
          Members.get out "input" = some (.arr sent) ∧ List.Forall₂ (ItemEchoes k)
            (items.filter fun item => !Compat.leftOut (Obj.val object "store").flag item) sent

def threadNamed (id : String) : Obj := [("client_metadata", .obj [("thread_id", .str id)])]

end Identity

end CodexOne
