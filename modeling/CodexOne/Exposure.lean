import CodexOne.Forwarded

/-!
What the upstream learns of the identifiers of a client.

A request is followed through `prepareRequestIdentity`, `copyCodexContextHeaders` and
`applyHeaders`. The fields of each container that are replaced hold pseudonyms afterwards, and
the others hold what the client wrote.
-/

namespace CodexOne

open GoStrings Members JsonOf IdentityM

/-- The containers that identity fields are forwarded in. -/
inductive Container
  | clientMetadata | codexTurnMetadata | turnMetadata | header
  deriving DecidableEq

/-- The object in a text of turn metadata, as the gateway decodes it. -/
def readTurn (raw : String) : Obj :=
  if trimSpace raw = "" then []
  else
    match (Raw.parse raw.toList).bind Raw.unmarshal with
    | some (.obj o) => o
    | _ => []

/-- The object in a text of turn metadata that is sent. -/
def sentTurn (text : String) : Obj :=
  if trimSpace text = "" then [] else (decodeObject text.toList).getD []

def metadataOf (body : Obj) : Obj := (Obj.val body "client_metadata").members

namespace Container

def client (c : Container) (body : Obj) (headers : Header) : Obj :=
  match c with
  | clientMetadata => metadataOf body
  | codexTurnMetadata => readTurn (Obj.val (metadataOf body) "x-codex-turn-metadata").text
  | turnMetadata => readTurn (Obj.val (metadataOf body) "turn_metadata").text
  | header => readTurn (trimSpace (headers.get "X-Codex-Turn-Metadata"))

def upstream (c : Container) (body : Obj) (headers : Header) : Obj :=
  match c with
  | clientMetadata => metadataOf body
  | codexTurnMetadata => sentTurn (Obj.val (metadataOf body) "x-codex-turn-metadata").text
  | turnMetadata => sentTurn (Obj.val (metadataOf body) "turn_metadata").text
  | header => sentTurn (headers.get "X-Codex-Turn-Metadata")

/-- The identity fields of a container that are not replaced. -/
def unmapped : Container → List String
  | clientMetadata => ["turn_id"]
  | _ => ["session_id", "request_id", "installation_id"]

def value (d : Digests) (i : Identity) : Container → String → Json → Json
  | clientMetadata => i.clientValue d
  | _ => i.turnValue d

end Container

def identityFields : List String :=
  ["session_id", "prompt_cache_key", "thread_id", "window_id", "request_id", "installation_id",
    "turn_id"]

/-- A request with an API key that `prepareRequestIdentity` and `applyHeaders` accept under
remapping: the body and the headers it is sent with. -/
structure Forwards (d : Digests) (r : Request) (body : Obj) (i : Identity) (sent : Obj)
    (headers : Header) : Prop where
  key : trimSpace (r.keyID.getD "") ≠ ""
  prepared : prepareRequestIdentity d r body true = .ok (sent, i)
  applied : ∃ base j websocketTransport k, Header.get base "X-Codex-Turn-Metadata" = "" ∧
    Identity.SameOwner i j ∧ (Identity.applyHeaders d (copyCodexContextHeaders base r.headers)
      r.headers websocketTransport).run j = (.ok headers, k)

namespace Identity

variable {d : Digests} {i j k : Identity}

lemma SameOwner.sessionValue (h : SameOwner i j) : i.sessionValue = j.sessionValue := by
  funext v
  rw [Identity.sessionValue, Identity.sessionValue, h.upstreamSessionID]

lemma SameOwner.containerValue (h : SameOwner i j) (c : Container) :
    c.value d i = c.value d j := by
  cases c <;> funext key v <;>
    simp only [Container.value, clientValue, turnValue, h.sessionValue, h.pseudonym,
      h.windowPseudonym]

lemma SentAs.get {raw text : String} (hremap : i.remap = true) (h : SentAs d i raw text)
    (key : String) :
    Members.get (sentTurn text) key = (Members.get (readTurn raw) key).map (i.turnValue d key) := by
  obtain ⟨j, k, hs, hrun⟩ := h
  have hvalue := hs.containerValue (d := d) .header
  rw [show i.turnValue d = j.turnValue d from hvalue]
  rcases remapTurnMetadata_ok hrun with ⟨hskip, rfl⟩ | ⟨-, hblank, r, o, out, hr, ho, rfl, hmaps⟩
  · have hblank : trimSpace text = "" := hskip.resolve_left (by simp [← hs.remap, hremap])
    rw [sentTurn, readTurn, if_pos hblank, if_pos hblank]
    rfl
  · have hdecode : decodeObject (String.ofList (marshal (.obj out))).toList = some out := by
      rw [String.toList_ofList]
      exact decodeObject_marshal (hmaps.canon (Conversation.canon_unmarshal ho))
    rw [sentTurn, if_neg (not_blank_of_object hdecode), hdecode, readTurn, if_neg hblank, hr,
      Option.bind_some, ho]
    exact hmaps.get key

lemma new_session_ne_empty {key : Option String} {headers : Header} {object : Obj}
    (hkey : trimSpace (key.getD "") ≠ "")
    (h : Identity.new d key headers object true = .ok i) : i.upstreamSessionID ≠ "" := by
  obtain ⟨client, up, j, rfl, -, ⟨hvalid, hrun⟩ | ⟨-, rfl, rfl⟩⟩ := new_ok d h
  · rw [mapValue_ok rfl hvalid hrun]
    exact (Digests.isUUID_identityUUID _ _ _).ne_empty
  · dsimp only
    rw [if_pos hkey]
    exact (Digests.isUUID_identityUUID _ _ _).ne_empty

lemma prepareBody_remaps {body sent metadata : Obj} {fixed : Bool}
    (h : (prepareBody d body fixed).run i = (.ok sent, j))
    (hmetadata : Members.get body "client_metadata" = some (.obj metadata)) :
    (remapClientMetadata d metadata).run i = (.ok (metadataOf sent), j) := by
  obtain ⟨hrun, -⟩ := prepareBody_sent d h
  rw [prepareMetadata, get_sessionBody i body (by decide), hmetadata] at hrun
  obtain ⟨out, k, hremap, h1⟩ := bind_ok hrun
  obtain ⟨rfl, rfl⟩ := pure_ok h1
  rw [metadataOf, Obj.val_of_get (get_set_self _ _ _)]
  exact hremap

lemma prepareBody_metadata {body sent : Obj} {fixed : Bool}
    (h : (prepareBody d body fixed).run i = (.ok sent, j)) :
    SameOwner i j ∧ (metadataOf body = [] ∧ metadataOf sent = [] ∨
      ∃ k, (remapClientMetadata d (metadataOf body)).run i = (.ok (metadataOf sent), k)) := by
  refine ⟨(tracks_prepareBody d body fixed).owner (.refl i) h, ?_⟩
  by_cases hobject : ∃ metadata, Members.get body "client_metadata" = some (.obj metadata)
  · obtain ⟨metadata, hmetadata⟩ := hobject
    refine .inr ⟨j, ?_⟩
    rw [metadataOf, Obj.val_of_get hmetadata]
    exact prepareBody_remaps h hmetadata
  · -- client metadata that is no object stays, and is read as empty
    have hempty : ∀ object : Obj, Members.get object "client_metadata" =
        Members.get body "client_metadata" → metadataOf object = [] := by
      intro object hget
      unfold metadataOf Obj.val
      rw [hget]
      cases hb : Members.get body "client_metadata" with
      | none => rfl
      | some v =>
        cases v with
        | obj metadata => exact absurd ⟨metadata, hb⟩ hobject
        | _ => rfl
    obtain ⟨hrun, -⟩ := prepareBody_sent d h
    have hget := get_sessionBody i body (k := "client_metadata") (by decide)
    unfold prepareMetadata at hrun
    split at hrun
    · rename_i metadata hg
      exact absurd ⟨metadata, hget.symm.trans hg⟩ hobject
    · exact .inl ⟨hempty body rfl, hempty sent (by rw [(pure_ok hrun).1, hget])⟩

abbrev turnHeader : String := "X-Codex-Turn-Metadata"

lemma get_setHeader (h : Header) {name key : String} (value : String)
    (hne : key ≠ Header.canonicalKey name) :
    Members.get (h.set name value) key = Members.get h key := get_set_ne _ _ hne

lemma get_copyCodexContextHeaders {target source : Header}
    (h : trimSpace (source.get turnHeader) = "") :
    Members.get (copyCodexContextHeaders target source) turnHeader =
      Members.get target turnHeader := by
  unfold copyCodexContextHeaders
  have hnames : ∀ name ∈ contextHeaderNames, Header.canonicalKey name = turnHeader →
      trimSpace (source.get name) = "" := by
    intro name hname hkey
    have : name = turnHeader := by
      revert hkey
      revert name
      decide
    rw [this]
    exact h
  generalize contextHeaderNames = names at hnames
  induction names generalizing target with
  | nil => rfl
  | cons name names ih =>
    rw [List.foldl_cons, ih fun n hn => hnames n (List.mem_cons_of_mem _ hn)]
    dsimp only
    split_ifs with hv
    · refine get_setHeader _ _ fun hkey => hv.1 (hnames name List.mem_cons_self hkey.symm)
    · rfl

lemma get_deleteFold (h : Header) {name key : String} (hne : equalFold key name = false) :
    Members.get (h.deleteFold name) key = Members.get h key := by
  unfold Header.deleteFold
  induction h with
  | nil => rfl
  | cons m h ih =>
    obtain ⟨l, v⟩ := m
    by_cases hl : equalFold l name = true
    · have hk : key ≠ l := by
        rintro rfl
        rw [hne] at hl
        cases hl
      rw [List.filter_cons_of_neg (by simp [hl]), ih, get_cons, if_neg hk]
    · rw [List.filter_cons_of_pos (by simp [hl]), get_cons, get_cons, ih]

lemma get_sessionHeaders (target source : Header) (websocketTransport : Bool) :
    Members.get (i.sessionHeaders target source websocketTransport) turnHeader =
      Members.get target turnHeader := by
  unfold sessionHeaders
  have hdelete : Members.get ((((target.deleteFold "Session-Id").deleteFold
      "Session_id").deleteFold "session_id").deleteFold "Conversation_id") turnHeader =
        Members.get target turnHeader := by
    rw [get_deleteFold _ (by decide), get_deleteFold _ (by decide), get_deleteFold _ (by decide),
      get_deleteFold _ (by decide)]
  split_ifs
  · exact (get_set_ne _ _ (by decide)).trans ((get_set_ne _ _ (by decide)).trans hdelete)
  · exact (get_set_ne _ _ (by decide)).trans ((get_setHeader _ _ (by decide)).trans hdelete)
  · exact (get_setHeader _ _ (by decide)).trans hdelete
  · rfl

lemma get_applyHeader {map : String → IdentityM String} {name : String} {source target out : Header}
    (hne : turnHeader ≠ Header.canonicalKey name)
    (h : (applyHeader map name source target).run i = (.ok out, j)) :
    Members.get out turnHeader = Members.get target turnHeader := by
  unfold applyHeader at h
  split_ifs at h
  · cases h
  · obtain ⟨_, _, -, h2⟩ := bind_ok h
    rw [(pure_ok h2).1]
    exact get_setHeader _ _ hne
  · rw [(pure_ok h).1]

lemma applyHeaders_turn {target source out : Header} {websocketTransport : Bool}
    (hremap : i.remap = true)
    (h : (applyHeaders d target source websocketTransport).run i = (.ok out, j)) :
    trimSpace (source.get turnHeader) = "" ∧
        Members.get out turnHeader = Members.get target turnHeader ∨
      trimSpace (source.get turnHeader) ≠ "" ∧
        SentAs d i (trimSpace (source.get turnHeader)) (out.get turnHeader) := by
  rw [applyHeaders, run_self_bind] at h
  dsimp only at h
  rw [if_neg (by simp [hremap])] at h
  obtain ⟨t1, j1, h1, h⟩ := bind_ok h
  obtain ⟨t2, j2, h2, h⟩ := bind_ok h
  obtain ⟨t3, j3, h3, h⟩ := bind_ok h
  obtain ⟨t4, j4, h4, h⟩ := bind_ok h
  obtain ⟨_, _, -, h⟩ := bind_ok h
  obtain ⟨rfl, -⟩ := pure_ok h
  have hs1 := (composes_tracks.applyHeader (tracks_mapValue d _) _ _ _).owner (.refl i) h1
  have hs2 := (composes_tracks.applyHeader (tracks_mapValue d _) _ _ _).owner hs1 h2
  have hs3 := (composes_tracks.applyHeader (tracks_mapWindow d) _ _ _).owner hs2 h3
  unfold applyTurnHeader at h4
  by_cases hturn : trimSpace (source.get turnHeader) = ""
  · rw [if_neg (not_not.mpr hturn)] at h4
    refine .inl ⟨hturn, ?_⟩
    rw [(pure_ok h4).1, get_applyHeader (by decide) h3, get_applyHeader (by decide) h2,
      get_applyHeader (by decide) h1, get_sessionHeaders]
  · rw [if_pos hturn] at h4
    obtain ⟨text, k, hm, h5⟩ := bind_ok h4
    refine .inr ⟨hturn, ?_⟩
    have hget : out.get turnHeader = text := by
      rw [(pure_ok h5).1, Header.get]
      exact congrArg (fun v => (v.getD []).headD "") (get_set_self _ _ _)
    rw [hget]
    have hsent := mapError_ok hm hs3
    exact hsent

end Identity

/-! ### What is sent -/

open Identity

variable {d : Digests} {r : Request} {body sent : Obj} {i : Identity} {headers : Header}

lemma not_mem_turnFields {name : String} (h : name ∈ identityFields) : name ∉ turnFields := by
  revert name
  decide

namespace Forwards

lemma fresh (h : Forwards d r body i sent headers) :
    ∃ i0, Identity.new d r.keyID r.headers body true = .ok i0 ∧
      (prepareBody d body false).run i0 = (.ok sent, i) := by
  have hp := h.prepared
  rw [prepareRequestIdentity] at hp
  obtain ⟨i0, hnew, hp⟩ := bind_eq_ok hp
  refine ⟨i0, hnew, ?_⟩
  rcases hrun : (prepareBody d body false).run i0 with ⟨_ | sent', i'⟩ <;> rw [hrun] at hp
  · cases hp
  · cases hp
    rfl

lemma owner (h : Forwards d r body i sent headers) :
    i.remap = true ∧ i.keyID = trimSpace (r.keyID.getD "") ∧ d.IsUUID i.upstreamSessionID := by
  obtain ⟨i0, hnew, hrun⟩ := h.fresh
  have hs := (prepareBody_metadata hrun).1
  obtain ⟨hremap, hkey⟩ := new_owner d hnew
  refine ⟨hs.remap ▸ hremap, hs.keyID ▸ hkey, hs.upstreamSessionID ▸ ?_⟩
  refine (pseudonymous_new hnew).session rfl ?_
  exact new_session_ne_empty h.key hnew

lemma get_upstream (h : Forwards d r body i sent headers) (c : Container) {name : String}
    (hname : name ∈ identityFields) :
    get (c.upstream sent headers) name =
      (get (c.client body r.headers) name).map (c.value d i name) := by
  obtain ⟨i0, hnew, hrun⟩ := h.fresh
  obtain ⟨hs, hbody⟩ := prepareBody_metadata hrun
  have hremap := (new_owner d hnew).1
  have hremap' := h.owner.1
  have hempty : ∀ c : Container, c ≠ .header → metadataOf body = [] → metadataOf sent = [] →
      get (c.upstream sent headers) name =
        (get (c.client body r.headers) name).map (c.value d i name) := by
    intro c hc hb hsent
    cases c with
    | header => exact absurd rfl hc
    | _ =>
      simp only [Container.upstream, Container.client, hb, hsent]
      rfl
  -- turn metadata in the body is a text, which may be missing
  have htext : ∀ field ∈ turnFields, ∀ k, (remapClientMetadata d (metadataOf body)).run i0 =
      (.ok (metadataOf sent), k) → ∀ name, get (sentTurn (Obj.val (metadataOf sent) field).text)
        name = (get (readTurn (Obj.val (metadataOf body) field).text) name).map
          (i.turnValue d name) := by
    intro field hfield k hrun name
    rcases (remapClientMetadata_ok hremap hrun).2 field hfield with
      ⟨h1, h2⟩ | ⟨raw, text, h1, h2, h3⟩
    · rw [Obj.val_congr (h2.trans h1.symm)]
      unfold Obj.val
      rw [h1]
      rfl
    · rw [Obj.val_of_get h1, Obj.val_of_get h2, text_str, text_str, h3.get hremap,
        show i.turnValue d = i0.turnValue d from hs.symm.containerValue .header]
  cases c with
  | clientMetadata =>
    rcases hbody with ⟨hb, hsent⟩ | ⟨k, hrun⟩
    · exact hempty _ (by decide) hb hsent
    · exact hs.containerValue (d := d) .clientMetadata ▸
        (remapClientMetadata_ok hremap hrun).1 name (not_mem_turnFields hname)
  | codexTurnMetadata =>
    rcases hbody with ⟨hb, hsent⟩ | ⟨k, hrun⟩
    · exact hempty _ (by decide) hb hsent
    · exact htext _ (by decide) k hrun name
  | turnMetadata =>
    rcases hbody with ⟨hb, hsent⟩ | ⟨k, hrun⟩
    · exact hempty _ (by decide) hb hsent
    · exact htext _ (by decide) k hrun name
  | header =>
    obtain ⟨base, j, ws, k, hbase, hij, happly⟩ := h.applied
    have hvalue : i.turnValue d = j.turnValue d := hij.containerValue .header
    change get (sentTurn (headers.get turnHeader)) name =
      (get (readTurn (trimSpace (r.headers.get turnHeader))) name).map (i.turnValue d name)
    rw [hvalue]
    rcases applyHeaders_turn (hij.remap ▸ hremap') happly with ⟨hblank, hget⟩ | ⟨-, hsent⟩
    · have hnone : headers.get turnHeader = "" := by
        rw [get_copyCodexContextHeaders hblank] at hget
        rw [← hbase, Header.get, Header.get]
        exact congrArg (fun v => (v.getD []).headD "") hget
      rw [hnone, hblank]
      rfl
    · exact hsent.get (hij.remap ▸ hremap') name

end Forwards

def sessionFields : List String := ["session_id", "prompt_cache_key"]

/-- The kind of the identifier in a field. -/
def kindOf (name : String) : String :=
  if name = "thread_id" then "thread"
  else if name = "request_id" then "request"
  else if name = "installation_id" then "installation"
  else "turn"

namespace Identity

/-- The pseudonym of the identifier in a field. A window id is an identifier with an index, which
its pseudonym keeps. -/
def pseudonymOf (d : Digests) (i : Identity) (name : String) : String → String :=
  if name ∈ sessionFields then fun _ => i.upstreamSessionID
  else if name = "window_id" then i.windowPseudonym d
  else i.pseudonym d (kindOf name)

/-- A text that says nothing but a pseudonym or the session. -/
def Hidden (d : Digests) (i : Identity) (w : String) : Prop :=
  w = i.upstreamSessionID ∨ ∃ kind value, w = d.identityUUID i.keyID kind value

/-- The same of a field, where the index of a window id may follow. -/
def HiddenIn (d : Digests) (i : Identity) (name w : String) : Prop :=
  if name = "window_id" then ∃ base suffix, w = base ++ suffix ∧ i.Hidden d base ∧
    (suffix = "" ∨ suffix.toList.head? = some ':')
  else i.Hidden d w

lemma hidden_pseudonym (kind value : String) : i.Hidden d (i.pseudonym d kind value) :=
  .inr ⟨kind, _, rfl⟩

lemma hidden_basePseudonym (base : String) : i.Hidden d (i.basePseudonym d base) := by
  unfold basePseudonym
  split_ifs
  · exact .inl rfl
  · exact hidden_pseudonym _ _

lemma Hidden.length {w : String} (hup : d.IsUUID i.upstreamSessionID) (h : i.Hidden d w) :
    w.length = 36 := by
  obtain rfl | ⟨kind, value, rfl⟩ := h
  · exact hup.length
  · exact (Digests.isUUID_identityUUID _ _ _).length

lemma windowParts_suffix (value : String) :
    (windowParts value).2 = "" ∨ (windowParts value).2.toList.head? = some ':' := by
  unfold windowParts
  split
  · rename_i a b hcut
    split_ifs
    · exact .inr (cutLast_some hcut).2
    · exact .inl rfl
  · exact .inl rfl

lemma hiddenIn_pseudonymOf (name v : String) : i.HiddenIn d name (i.pseudonymOf d name v) := by
  unfold HiddenIn pseudonymOf
  by_cases hw : name = "window_id"
  · subst hw
    rw [if_pos rfl, if_neg (by decide), if_pos rfl]
    exact ⟨_, _, rfl, hidden_basePseudonym _, windowParts_suffix _⟩
  · rw [if_neg hw, if_neg hw]
    split_ifs
    · exact .inl rfl
    · exact hidden_pseudonym _ _

lemma hidden_window_iff {v : String} (hup : d.IsUUID i.upstreamSessionID) :
    i.Hidden d (i.pseudonymOf d "window_id" v) ↔
      (windowParts (cleanIdentityValue v)).2 = "" := by
  have hw : i.pseudonymOf d "window_id" v =
      i.basePseudonym d (windowParts (cleanIdentityValue v)).1 ++
        (windowParts (cleanIdentityValue v)).2 := rfl
  rw [hw]
  constructor
  · intro h
    have hlen := h.length hup
    rw [String.length_append, (hidden_basePseudonym _).length hup] at hlen
    exact String.length_eq_zero_iff.mp (by omega)
  · intro h
    rw [h, String.append_empty]
    exact hidden_basePseudonym _

end Identity

namespace Container

lemma value_mapped (hup : i.upstreamSessionID ≠ "") {c : Container} {name : String}
    (hname : name ∈ identityFields) (hmapped : name ∉ c.unmapped) (v : Json) :
    c.value d i name v = if name ∈ sessionFields then .str i.upstreamSessionID
      else replaced (i.pseudonymOf d name) v := by
  simp only [identityFields, List.mem_cons, List.not_mem_nil, or_false] at hname
  rcases hname with rfl | rfl | rfl | rfl | rfl | rfl | rfl <;> cases c <;>
    first
      | exact absurd (by decide) hmapped
      | simp [value, clientValue, turnValue, only, sessionFields, pseudonymOf, kindOf,
          sessionValue, hup]

lemma value_unmapped {c : Container} {name : String} (hname : name ∈ c.unmapped) (v : Json) :
    c.value d i name v = v := by
  cases c <;> simp only [unmapped, List.mem_cons, List.not_mem_nil, or_false] at hname
  · subst hname
    simp [value, clientValue, only]
  all_goals
    rcases hname with rfl | rfl | rfl <;> simp [value, turnValue, only]

lemma identityFields_of_unmapped {c : Container} {name : String} (h : name ∈ c.unmapped) :
    name ∈ identityFields := by
  revert h
  revert name
  cases c <;> decide

end Container

/-! ### Identifiers -/

/-- The identifier in a field: a text that is not blank. -/
def identifier (o : Obj) (name : String) : Option String :=
  match get o name with
  | some (.str v) => if trimSpace v = "" then none else some v
  | _ => none

lemma identifier_eq_some {o : Obj} {name v : String} :
    identifier o name = some v ↔ get o name = some (.str v) ∧ trimSpace v ≠ "" := by
  unfold identifier
  split
  · rename_i w hw
    split_ifs with hblank
    · simp only [hw, Option.some.injEq, JsonOf.str.injEq, false_iff, not_and, not_not]
      rintro rfl
      exact hblank
    · simp only [hw, Option.some.injEq, JsonOf.str.injEq]
      exact ⟨fun h => ⟨h, h ▸ hblank⟩, fun h => h.1⟩
  · rename_i hne
    simp only [reduceCtorEq, false_iff, not_and]
    exact fun h => absurd h (hne v)

/-- Every identifier in the identity fields reaches the upstream as a text that is hidden. -/
def AllHidden (r : Request) (body sent : Obj) (headers : Header)
    (hidden : String → String → Prop) : Prop :=
  ∀ c : Container, ∀ name ∈ identityFields, ∀ v,
    identifier (c.client body r.headers) name = some v →
    ∃ w, get (c.upstream sent headers) name = some (.str w) ∧ hidden name w

/-- The identifiers in the fields that are not replaced are hidden as the client wrote them. -/
def UnmappedHidden (r : Request) (body : Obj) (hidden : String → String → Prop) : Prop :=
  ∀ c : Container, ∀ name ∈ c.unmapped, ∀ v,
    identifier (c.client body r.headers) name = some v → hidden name v

/-- No window id has an index. -/
def NoIndex (r : Request) (body : Obj) : Prop :=
  ∀ c : Container, ∀ v, identifier (c.client body r.headers) "window_id" = some v →
    (windowParts (cleanIdentityValue v)).2 = ""

/-- The upstream reads the same in all identity fields of two requests. -/
def LookSame (sent sent' : Obj) (headers headers' : Header) : Prop :=
  ∀ c : Container, ∀ name ∈ identityFields,
    get (c.upstream sent headers) name = get (c.upstream sent' headers') name

/-- Two requests have the same values in the fields that are not replaced. -/
def AgreeUnmapped (r r' : Request) (body body' : Obj) : Prop :=
  ∀ c : Container, ∀ name ∈ c.unmapped,
    get (c.client body r.headers) name = get (c.client body' r'.headers) name

/-- Two requests have the same pseudonyms: the same session, and fields that are the same once
each identifier is replaced by its pseudonym. -/
structure SamePseudonyms (d : Digests) (r r' : Request) (body body' : Obj) (i i' : Identity) :
    Prop where
  session : i.upstreamSessionID = i'.upstreamSessionID
  fields : ∀ c : Container, ∀ name ∈ identityFields,
    (get (c.client body r.headers) name).map (replaced (i.pseudonymOf d name)) =
      (get (c.client body' r'.headers) name).map (replaced (i'.pseudonymOf d name))

lemma map_const {α β : Type} {f : α → β} {b : β} (h : ∀ a, f a = b) (o : Option α) :
    o.map f = if o.isSome then some b else none := by
  cases o with
  | none => rfl
  | some a => simp [h]

namespace Forwards

lemma sent_mapped (h : Forwards d r body i sent headers) {c : Container} {name v : String}
    (hname : name ∈ identityFields) (hmapped : name ∉ c.unmapped)
    (hv : identifier (c.client body r.headers) name = some v) :
    get (c.upstream sent headers) name = some (.str (i.pseudonymOf d name v)) := by
  obtain ⟨hget, hblank⟩ := identifier_eq_some.mp hv
  rw [h.get_upstream c hname, hget, Option.map_some,
    Container.value_mapped h.owner.2.2.ne_empty hname hmapped]
  split_ifs with hsession
  · rw [pseudonymOf, if_pos hsession]
  · rw [replaced, if_neg hblank]

lemma sent_unmapped (h : Forwards d r body i sent headers) {c : Container} {name : String}
    (hname : name ∈ c.unmapped) :
    get (c.upstream sent headers) name = get (c.client body r.headers) name := by
  rw [h.get_upstream c (Container.identityFields_of_unmapped hname)]
  cases get (c.client body r.headers) name with
  | none => rfl
  | some v => rw [Option.map_some, Container.value_unmapped hname]

/-- What the upstream reads in every identity field is hidden as soon as it is in those fields
that are not replaced. -/
lemma hidden_iff (h : Forwards d r body i sent headers) (hidden : String → String → Prop)
    (hmapped : ∀ c : Container, ∀ name ∈ identityFields, name ∉ c.unmapped → ∀ v,
      identifier (c.client body r.headers) name = some v → hidden name (i.pseudonymOf d name v)) :
    AllHidden r body sent headers hidden ↔ UnmappedHidden r body hidden := by
  constructor
  · intro hall c name hname v hv
    obtain ⟨w, hw, hhidden⟩ := hall c name (Container.identityFields_of_unmapped hname) v hv
    rw [h.sent_unmapped hname, (identifier_eq_some.mp hv).1] at hw
    cases hw
    exact hhidden
  · intro hunmapped c name hname v hv
    by_cases hc : name ∈ c.unmapped
    · exact ⟨v, (h.sent_unmapped hc).trans (identifier_eq_some.mp hv).1, hunmapped c name hc v hv⟩
    · exact ⟨_, h.sent_mapped hname hc hv, hmapped c name hname hc v hv⟩

/-- Two requests with the same pseudonyms can be told apart only by the fields that are not
replaced. -/
lemma same_iff {r' : Request} {body' sent' : Obj} {i' : Identity} {headers' : Header}
    (h : Forwards d r body i sent headers) (h' : Forwards d r' body' i' sent' headers')
    (hsame : SamePseudonyms d r r' body body' i i') :
    LookSame sent sent' headers headers' ↔ AgreeUnmapped r r' body body' := by
  constructor
  · intro hall c name hname
    rw [← h.sent_unmapped hname, ← h'.sent_unmapped hname]
    exact hall c name (Container.identityFields_of_unmapped hname)
  · intro hunmapped c name hname
    by_cases hc : name ∈ c.unmapped
    · rw [h.sent_unmapped hc, h'.sent_unmapped hc]
      exact hunmapped c name hc
    · rw [h.get_upstream c hname, h'.get_upstream c hname]
      have hfields := hsame.fields c name hname
      have hv := Container.value_mapped (d := d) h.owner.2.2.ne_empty hname hc
      have hv' := Container.value_mapped (d := d) h'.owner.2.2.ne_empty hname hc
      revert hfields
      generalize get (c.client body r.headers) name = x
      generalize get (c.client body' r'.headers) name = y
      intro hfields
      by_cases hs : name ∈ sessionFields
      · have hconst : ∀ v, c.value d i name v = .str i.upstreamSessionID := fun v => by
          rw [hv, if_pos hs]
        have hconst' : ∀ v, c.value d i' name v = .str i.upstreamSessionID := fun v => by
          rw [hv', if_pos hs, hsame.session]
        have hsome := congrArg Option.isSome hfields
        rw [Option.isSome_map, Option.isSome_map] at hsome
        rw [map_const hconst, map_const hconst', hsome]
      · have hvalue : c.value d i name = replaced (i.pseudonymOf d name) := by
          funext v
          rw [hv, if_neg hs]
        have hvalue' : c.value d i' name = replaced (i'.pseudonymOf d name) := by
          funext v
          rw [hv', if_neg hs]
        rw [hvalue, hvalue']
        exact hfields

/-- **What the upstream learns.** Every identifier reaches the upstream as a pseudonym exactly
when the identifiers in the fields that are not replaced are pseudonyms already; without the
index that a window id keeps, when no window id has one. Two requests with the same pseudonyms
look the same exactly when they agree in the fields that are not replaced. -/
theorem identifiers_hidden_iff (h : Forwards d r body i sent headers) :
    (AllHidden r body sent headers (i.HiddenIn d) ↔ UnmappedHidden r body fun _ => i.Hidden d) ∧
    (AllHidden r body sent headers (fun _ => i.Hidden d) ↔
      (UnmappedHidden r body fun _ => i.Hidden d) ∧ NoIndex r body) ∧
    ∀ r' body' i' sent' headers', Forwards d r' body' i' sent' headers' →
      SamePseudonyms d r r' body body' i i' →
      (LookSame sent sent' headers headers' ↔ AgreeUnmapped r r' body body') := by
  have hwindow : ∀ c : Container, "window_id" ∉ c.unmapped := fun c => by cases c <;> decide
  refine ⟨?_, ⟨fun hall => ⟨?_, fun c v hv => ?_⟩, fun ⟨hunmapped, hplain⟩ => ?_⟩,
    fun r' body' i' sent' headers' h' hsame => h.same_iff h' hsame⟩
  · rw [h.hidden_iff (i.HiddenIn d) fun _ name _ _ v _ => hiddenIn_pseudonymOf name v]
    refine forall₂_congr fun c name => forall₂_congr fun hname v => ?_
    have hne : name ≠ "window_id" := fun hw => hwindow c (hw ▸ hname)
    rw [HiddenIn, if_neg hne]
  · intro c name hname v hv
    obtain ⟨w, hw, hhidden⟩ := hall c name (Container.identityFields_of_unmapped hname) v hv
    rw [h.sent_unmapped hname, (identifier_eq_some.mp hv).1] at hw
    cases hw
    exact hhidden
  · obtain ⟨w, hw, hhidden⟩ := hall c "window_id" (by decide) v hv
    rw [h.sent_mapped (by decide) (hwindow c) hv, Option.some_inj, JsonOf.str.injEq] at hw
    rw [← hw] at hhidden
    exact (hidden_window_iff h.owner.2.2).mp hhidden
  · refine (h.hidden_iff (fun _ => i.Hidden d) fun c name hname hc v hv => ?_).mpr hunmapped
    by_cases hw : name = "window_id"
    · subst hw
      exact (hidden_window_iff h.owner.2.2).mpr (hplain c v hv)
    · have hhidden := hiddenIn_pseudonymOf (d := d) (i := i) name v
      rwa [HiddenIn, if_neg hw] at hhidden

end Forwards

section Samples

def turnWith (name : String) : String :=
  String.ofList (marshal (.obj [(name, .str "raw")]))

def rawRequest : Request where
  headers := [("X-Codex-Turn-Metadata", [turnWith "request_id"])]
  keyID := some "key"

/-- Each container holds an identifier in a field that it does not replace. -/
def rawBody : Obj :=
  [("client_metadata", .obj [("thread_id", .str "thread"), ("turn_id", .str "raw"),
    ("turn_metadata", .str (turnWith "installation_id")),
    ("x-codex-turn-metadata", .str (turnWith "session_id"))])]

lemma exists_forwards (r : Request) (body : Obj) (hkey : trimSpace (r.keyID.getD "") ≠ "")
    (h : ((prepareRequestIdentity Digests.zero r body true).toOption.any fun x =>
      (Identity.applyHeaders Digests.zero (copyCodexContextHeaders [] r.headers) r.headers
        false |>.run x.2).1.toOption.isSome) = true) :
    ∃ i sent headers, Forwards Digests.zero r body i sent headers := by
  obtain ⟨⟨sent, i⟩, hprepared, happly⟩ := ok_of_any h
  rcases hrun : (Identity.applyHeaders Digests.zero (copyCodexContextHeaders [] r.headers)
    r.headers false).run i with ⟨_ | headers, k⟩
  · rw [hrun] at happly
    cases happly
  · exact ⟨i, sent, headers, hkey, hprepared, [], i, false, k, by decide, .refl i, hrun⟩

/-- A request whose identifiers are all in fields that are replaced. -/
def hiddenRequest : Request := { rawRequest with
  headers := [("X-Codex-Turn-Metadata", [turnWith "thread_id"])] }

def hiddenBody : Obj :=
  [("client_metadata", .obj [("session_id", .str "raw"),
    ("turn_metadata", .str (turnWith "turn_id")),
    ("x-codex-turn-metadata", .str (turnWith "prompt_cache_key"))])]

/-- Each container holds an identifier, and none is sent on as the client wrote it. -/
theorem identifiers_hidden_sample :
    (∀ x ∈ [(Container.clientMetadata, "session_id"), (.codexTurnMetadata, "prompt_cache_key"),
        (.turnMetadata, "turn_id"), (.header, "thread_id")],
      identifier (x.1.client hiddenBody hiddenRequest.headers) x.2 = some "raw") ∧
    ∃ i sent headers, Forwards Digests.zero hiddenRequest hiddenBody i sent headers ∧
      AllHidden hiddenRequest hiddenBody sent headers (i.HiddenIn Digests.zero) := by
  obtain ⟨i, sent, headers, h⟩ := exists_forwards hiddenRequest hiddenBody
    (by decide) (by decide +kernel)
  refine ⟨by decide +kernel, i, sent, headers, h, (Forwards.identifiers_hidden_iff h).1.mpr ?_⟩
  have hnone : ∀ c : Container, ∀ name ∈ c.unmapped,
      identifier (c.client hiddenBody hiddenRequest.headers) name = none := by
    intro c
    cases c <;> decide +kernel
  intro c name hname v hv
  rw [hnone c name hname] at hv
  cases hv

/-- **Raw identifiers.** In every container an identifier reaches the upstream as the client
wrote it. -/
theorem identifiers_leak :
    ∃ i sent headers, Forwards Digests.zero rawRequest rawBody i sent headers ∧
      ∀ x ∈ [(Container.clientMetadata, "turn_id"), (.codexTurnMetadata, "session_id"),
          (.turnMetadata, "installation_id"), (.header, "request_id")],
        x.2 ∈ identityFields ∧
          identifier (x.1.client rawBody rawRequest.headers) x.2 = some "raw" ∧
          get (x.1.upstream sent headers) x.2 = some (.str "raw") ∧
          ¬i.Hidden Digests.zero "raw" := by
  obtain ⟨i, sent, headers, h⟩ := exists_forwards rawRequest rawBody
    (by decide) (by decide +kernel)
  refine ⟨i, sent, headers, h, fun x hx => ?_⟩
  have hraw : x.2 ∈ x.1.unmapped ∧
      identifier (x.1.client rawBody rawRequest.headers) x.2 = some "raw" := by
    revert hx
    revert x
    decide +kernel
  refine ⟨Container.identityFields_of_unmapped hraw.1, hraw.2,
    (h.sent_unmapped hraw.1).trans (identifier_eq_some.mp hraw.2).1, fun hhidden => ?_⟩
  exact absurd (hhidden.length h.owner.2.2) (by decide)

end Samples

end CodexOne
