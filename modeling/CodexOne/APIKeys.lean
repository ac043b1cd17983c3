import CodexOne.Admin
import CodexOne.Identity
import CodexOne.Lib.Base64

/-!
API keys: their table, the handlers that make and revoke them, and the check that a request on `/v1`
goes through.

Every statement of the database is one step. A handler that makes or revokes a key runs one, and its
outcome may be reported as failed although it was carried out.
-/

namespace CodexOne

open GoStrings

structure APIKey where
  id : String
  name : String
  hash : String
  keyPrefix : String
  createdAt : ℤ
  lastUsedAt : Option ℤ
  revokedAt : Option ℤ
  deriving DecidableEq

/-- The table `api_keys`, with its primary key and its unique column. -/
structure APIKeys where
  rows : List APIKey
  ids : (rows.map (·.id)).Nodup
  hashes : (rows.map (·.hash)).Nodup

namespace APIKeys

def empty : APIKeys := ⟨[], List.nodup_nil, List.nodup_nil⟩

lemma nodup_insert {t : APIKeys} {β : Type} {f : APIKey → β} (h : (t.rows.map f).Nodup)
    {key : APIKey} (hnew : f key ∉ t.rows.map f) : ((t.rows ++ [key]).map f).Nodup := by
  rw [List.map_append, List.map_singleton]
  exact List.nodup_append_comm.mp (List.nodup_cons.mpr ⟨hnew, h⟩)

def createAPIKey (t : APIKeys) (key : APIKey) : Option APIKeys :=
  let row := { key with lastUsedAt := none, revokedAt := none }
  if h : row.id ∉ t.rows.map (·.id) ∧ row.hash ∉ t.rows.map (·.hash) then
    some ⟨t.rows ++ [row], nodup_insert t.ids h.1, nodup_insert t.hashes h.2⟩
  else none

/-- A change of one row that keeps its id and its hash. -/
def updateRow (t : APIKeys) (id : String) (f : APIKey → APIKey) (hid : ∀ r, (f r).id = r.id)
    (hhash : ∀ r, (f r).hash = r.hash) : APIKeys where
  rows := t.rows.map fun r => if r.id = id then f r else r
  ids := by
    rw [List.map_map, List.map_congr_left (g := (·.id)) fun r _ => by
      dsimp only [Function.comp_apply]; split_ifs <;> simp [hid]]
    exact t.ids
  hashes := by
    rw [List.map_map, List.map_congr_left (g := (·.hash)) fun r _ => by
      dsimp only [Function.comp_apply]; split_ifs <;> simp [hhash]]
    exact t.hashes

def touchAPIKey (t : APIKeys) (id : String) (at_ : ℤ) : APIKeys :=
  t.updateRow id (fun r => { r with lastUsedAt := some at_ }) (fun _ => rfl) fun _ => rfl

def revokeRow (now : ℤ) (r : APIKey) : APIKey :=
  if r.revokedAt = none then { r with revokedAt := some now } else r

lemma revokeRow_id (now : ℤ) (r : APIKey) : (revokeRow now r).id = r.id := by
  unfold revokeRow
  split_ifs <;> rfl

lemma revokeRow_hash (now : ℤ) (r : APIKey) : (revokeRow now r).hash = r.hash := by
  unfold revokeRow
  split_ifs <;> rfl

def revokeAPIKey (t : APIKeys) (id : String) (now : ℤ) : APIKeys × Bool :=
  (t.updateRow id (revokeRow now) (revokeRow_id now) (revokeRow_hash now),
    t.rows.any fun r => r.id = id ∧ r.revokedAt = none)

def found (r : APIKey) : APIKey := { r with hash := "", revokedAt := none }

def findActiveAPIKeyByHash (t : APIKeys) (hash : String) : Option APIKey :=
  (t.rows.find? fun r => r.hash = hash ∧ r.revokedAt = none).map found

def findActiveAPIKeyByID (t : APIKeys) (id : String) : Option APIKey :=
  (t.rows.find? fun r => r.id = id ∧ r.revokedAt = none).map found

end APIKeys

/-! ### Handlers -/

/-- What `writeError` answers. -/
structure WebError where
  status : ℕ
  code : String
  message : String
  deriving DecidableEq

/-- `RandomToken`, of the bytes that were drawn. -/
def randomToken (bytes : Bytes) : String :=
  String.ofList ((Base64.encode Base64.RawURLEncoding bytes).map fun b => Char.ofNat b.toNat)

/-- The key that `NewAPIKey` makes of a token. -/
def newAPIKey (token : String) : String := "sk-codexone-" ++ token

/-- The handler `createAPIKey`, of the bytes it draws for the key and for the id: the table and the
secret that is answered. -/
def createAPIKey (sec : Security) (t : APIKeys) (name : String) (bytes idBytes : Bytes) (now : ℤ)
    (access : Access) : APIKeys × Except WebError (APIKey × String) :=
  let name := trimSpace name
  if name = "" ∨ name.utf8ByteSize > 64 then
    (t, .error ⟨400, "invalid_name", "name must contain 1 to 64 characters"⟩)
  else
    let plain := newAPIKey (randomToken bytes)
    let key : APIKey :=
      { id := "key_" ++ randomToken idBytes, name, hash := sec.hashSecret plain
        keyPrefix := String.ofList (plain.toList.take 20), createdAt := now, lastUsedAt := none
        revokedAt := none }
    let unsaved : Except WebError (APIKey × String) :=
      .error ⟨500, "key_failed", "could not save API key"⟩
    match access, t.createAPIKey key with
    | .done, some t' => (t', .ok (key, plain))
    | .unacknowledged, some t' => (t', unsaved)
    | _, _ => (t, unsaved)

/-- The handler `revokeAPIKey`: the table and the error that is answered, if one is. -/
def revokeAPIKey (t : APIKeys) (id : String) (now : ℤ) (access : Access) :
    APIKeys × Option WebError :=
  if hasPrefix id "key_" = false then (t, some ⟨400, "invalid_key", "API key ID is invalid"⟩)
  else
    let failed : WebError := ⟨500, "key_failed", "could not revoke API key"⟩
    match access with
    | .failed => (t, some failed)
    | .unacknowledged => ((t.revokeAPIKey id now).1, some failed)
    | .done =>
      let (t, revoked) := t.revokeAPIKey id now
      (t, if revoked then none
        else some ⟨404, "key_not_found", "API key was not found or already revoked"⟩)

/-- The secret that `requireAPIKey` reads from the headers. The seven runes that are cut off are
seven bytes, since they are ASCII. -/
def providedKey (h : Header) : String :=
  let authorization := trimSpace (h.get "Authorization")
  if hasPrefix (toLower authorization) "bearer " then
    trimSpace (String.ofList (authorization.toList.drop 7))
  else trimSpace (h.get "X-API-Key")

/-- What a middleware does with a request: it answers, or hands it on with the key it has found. -/
inductive Served where
  | noContent
  | refused (e : WebError)
  | handled (key : Option APIKey)
  deriving DecidableEq

/-- `requireAPIKey`, up to `TouchAPIKey`. -/
def requireAPIKey (sec : Security) (t : APIKeys) (method : String) (h : Header)
    (available : Bool) : Served :=
  if method = "OPTIONS" then .handled none
  else if providedKey h = "" then .refused ⟨401, "invalid_api_key", "API key is required"⟩
  else if available = false then
    .refused ⟨503, "database_unavailable", "API key storage is unavailable"⟩
  else
    match t.findActiveAPIKeyByHash (sec.hashSecret (providedKey h)) with
    | some key => .handled (some key)
    | none => .refused ⟨401, "invalid_api_key", "API key is invalid or revoked"⟩

/-- The middleware of `/v1`: `v1CORS`, then `requireAPIKey`. -/
def serveV1 (sec : Security) (t : APIKeys) (method : String) (h : Header) (available : Bool) :
    Served :=
  if method = "OPTIONS" then .noContent else requireAPIKey sec t method h available

namespace APIKeys

inductive Event where
  | create (name : String) (bytes idBytes : Bytes) (now : ℤ) (access : Access)
  | revoke (id : String) (now : ℤ) (access : Access)
  | touch (id : String) (now : ℤ)

/-- What happens to keys: one is stored, with its secret, or revoked. -/
inductive Change where
  | stored (id plain : String)
  | revoked (id : String)
  deriving DecidableEq

def step (sec : Security) (t : APIKeys) : Event → APIKeys
  | .create name bytes idBytes now access =>
    (CodexOne.createAPIKey sec t name bytes idBytes now access).1
  | .revoke id now access => (CodexOne.revokeAPIKey t id now access).1
  | .touch id now => t.touchAPIKey id now

def system (sec : Security) : TransitionSystem APIKeys Event where
  start := empty
  step t e := some (step sec t e)

/-- The change that a step makes, read off the table. -/
def change (sec : Security) (t : APIKeys) : Event → Option Change
  | .create name bytes idBytes now access =>
    if (step sec t (.create name bytes idBytes now access)).rows.length = t.rows.length then none
    else some (.stored ("key_" ++ randomToken idBytes) (newAPIKey (randomToken bytes)))
  | .revoke id now access =>
    if (t.findActiveAPIKeyByID id).isSome ∧
        ((step sec t (.revoke id now access)).findActiveAPIKeyByID id).isNone then
      some (.revoked id)
    else none
  | .touch .. => none

variable {sec : Security} {t t' : APIKeys} {log : List Change} {id plain : String}

lemma find_unique {rows : List APIKey} {p : APIKey → Bool} {r : APIKey} (hr : r ∈ rows)
    (hp : p r = true) (hu : ∀ a ∈ rows, p a = true → a = r) : rows.find? p = some r := by
  cases h : rows.find? p with
  | none => exact absurd hp (List.find?_eq_none.mp h r hr)
  | some a => rw [hu a (List.mem_of_find?_eq_some h) (List.find?_some h)]

lemma found_some {rows : List APIKey} {p : APIKey → Bool} {key : APIKey}
    (h : (rows.find? p).map found = some key) : ∃ r ∈ rows, p r = true ∧ r.id = key.id := by
  obtain ⟨r, hr, rfl⟩ := Option.map_eq_some_iff.mp h
  exact ⟨r, List.mem_of_find?_eq_some hr, List.find?_some hr, rfl⟩

lemma findActiveAPIKeyByHash_some {hash : String} {key : APIKey}
    (h : t.findActiveAPIKeyByHash hash = some key) :
    ∃ r ∈ t.rows, r.hash = hash ∧ r.revokedAt = none ∧ r.id = key.id := by
  obtain ⟨r, hr, hp, hid⟩ := found_some h
  rw [decide_eq_true_eq] at hp
  exact ⟨r, hr, hp.1, hp.2, hid⟩

lemma findActiveAPIKeyByHash_mem {r : APIKey} (hr : r ∈ t.rows) (hactive : r.revokedAt = none) :
    t.findActiveAPIKeyByHash r.hash = some (found r) := by
  rw [findActiveAPIKeyByHash, find_unique hr (by simp [hactive]) fun a ha hp => ?_]
  · rfl
  · rw [decide_eq_true_eq] at hp
    exact List.inj_on_of_nodup_map t.hashes ha hr hp.1

lemma findActiveAPIKeyByID_isSome : (t.findActiveAPIKeyByID id).isSome = true ↔
    ∃ r ∈ t.rows, r.id = id ∧ r.revokedAt = none := by
  simp [findActiveAPIKeyByID]

/-! ### What the log says -/

/-- The key has been stored with the secret, and has not been revoked. -/
def Live (log : List Change) (id plain : String) : Prop :=
  .stored id plain ∈ log ∧ .revoked id ∉ log

instance (log : List Change) (id plain : String) : Decidable (Live log id plain) :=
  inferInstanceAs (Decidable (_ ∧ _))

structure Recorded (sec : Security) (t : APIKeys) (log : List Change) : Prop where
  row : ∀ r ∈ t.rows, ∃ plain, .stored r.id plain ∈ log ∧ r.hash = sec.hashSecret plain
  stored : ∀ id plain, .stored id plain ∈ log → (∃ bytes, plain = newAPIKey (randomToken bytes)) ∧
    ∃ r ∈ t.rows, r.id = id ∧ r.hash = sec.hashSecret plain
  active : ∀ r ∈ t.rows, r.revokedAt = none ↔ .revoked r.id ∉ log
  known : ∀ id, .revoked id ∈ log → ∃ r ∈ t.rows, r.id = id

lemma mem_updateRow {f : APIKey → APIKey} {hid : ∀ r, (f r).id = r.id}
    {hhash : ∀ r, (f r).hash = r.hash} {x : APIKey} : x ∈ (t.updateRow id f hid hhash).rows ↔
      ∃ r ∈ t.rows, (if r.id = id then f r else r) = x := List.mem_map

lemma Recorded.updateRow (h : Recorded sec t log) {f : APIKey → APIKey}
    (hid : ∀ r, (f r).id = r.id) (hhash : ∀ r, (f r).hash = r.hash)
    (hrevoked : ∀ r ∈ t.rows, r.id = id → ((f r).revokedAt = none ↔ r.revokedAt = none)) :
    Recorded sec (t.updateRow id f hid hhash) log where
  row x hx := by
    obtain ⟨r, hr, rfl⟩ := mem_updateRow.mp hx
    split_ifs
    · rw [hid, hhash]
      exact h.row r hr
    · exact h.row r hr
  stored id' plain hmem := by
    obtain ⟨hbytes, r, hr, h1, h2⟩ := h.stored id' plain hmem
    refine ⟨hbytes, _, mem_updateRow.mpr ⟨r, hr, rfl⟩, ?_⟩
    split_ifs
    · rw [hid, hhash]
      exact ⟨h1, h2⟩
    · exact ⟨h1, h2⟩
  active x hx := by
    obtain ⟨r, hr, rfl⟩ := mem_updateRow.mp hx
    split_ifs with hr'
    · rw [hrevoked r hr hr', hid]
      exact h.active r hr
    · exact h.active r hr
  known id' hmem := by
    obtain ⟨r, hr, h1⟩ := h.known id' hmem
    refine ⟨_, mem_updateRow.mpr ⟨r, hr, rfl⟩, ?_⟩
    split_ifs
    · rw [hid, h1]
    · exact h1

lemma Recorded.insert (h : Recorded sec t log) {key : APIKey} {bytes : Bytes}
    (hkey : key.hash = sec.hashSecret (newAPIKey (randomToken bytes)))
    (hcreate : t.createAPIKey key = some t') :
    Recorded sec t' (log ++ [.stored key.id (newAPIKey (randomToken bytes))]) := by
  unfold createAPIKey at hcreate
  dsimp only at hcreate
  split_ifs at hcreate with hnew
  obtain rfl := Option.some.inj hcreate
  -- the id is a new one, so the log cannot have revoked it before
  have hunknown : .revoked key.id ∉ log := fun hmem => by
    obtain ⟨r, hr, hid⟩ := h.known key.id hmem
    exact hnew.1 (List.mem_map.mpr ⟨r, hr, hid⟩)
  constructor
  · intro r hr
    rcases List.mem_append.mp hr with hr | hr
    · obtain ⟨plain, hmem, hhash⟩ := h.row r hr
      exact ⟨plain, List.mem_append_left _ hmem, hhash⟩
    · rw [List.mem_singleton.mp hr]
      exact ⟨_, List.mem_append_right _ (List.mem_singleton.mpr rfl), hkey⟩
  · intro id plain hmem
    rcases List.mem_append.mp hmem with hmem | hmem
    · obtain ⟨hbytes, r, hr, hrest⟩ := h.stored id plain hmem
      exact ⟨hbytes, r, List.mem_append_left _ hr, hrest⟩
    · obtain ⟨rfl, rfl⟩ := Change.stored.inj (List.mem_singleton.mp hmem)
      exact ⟨⟨bytes, rfl⟩, _, List.mem_append_right _ (List.mem_singleton.mpr rfl), rfl, hkey⟩
  · intro r hr
    have hlast : (.revoked r.id ∈ log ++ [.stored key.id (newAPIKey (randomToken bytes))]) ↔
        .revoked r.id ∈ log := by simp
    rw [hlast]
    rcases List.mem_append.mp hr with hr | hr
    · exact h.active r hr
    · rw [List.mem_singleton.mp hr]
      exact iff_of_true rfl hunknown
  · intro id hmem
    rcases List.mem_append.mp hmem with hmem | hmem
    · obtain ⟨r, hr, hid⟩ := h.known id hmem
      exact ⟨r, List.mem_append_left _ hr, hid⟩
    · cases List.mem_singleton.mp hmem

lemma Recorded.revoke (h : Recorded sec t log) {now : ℤ}
    (hactive : ∃ r ∈ t.rows, r.id = id ∧ r.revokedAt = none) :
    Recorded sec (t.revokeAPIKey id now).1 (log ++ [.revoked id]) := by
  have hid := revokeRow_id now
  have hhash := revokeRow_hash now
  have hkept : ∀ r ∈ t.rows, (if r.id = id then revokeRow now r else r) ∈
      (t.revokeAPIKey id now).1.rows := fun r hr => List.mem_map_of_mem hr
  constructor
  · intro x hx
    obtain ⟨r, hr, rfl⟩ := List.mem_map.mp hx
    obtain ⟨plain, hmem, hrow⟩ := h.row r hr
    refine ⟨plain, List.mem_append_left _ ?_, ?_⟩
    · split_ifs
      · rwa [hid]
      · exact hmem
    · split_ifs
      · rwa [hhash]
      · exact hrow
  · intro id' plain hmem
    have hold : .stored id' plain ∈ log := by simpa using hmem
    obtain ⟨hbytes, r, hr, h1, h2⟩ := h.stored id' plain hold
    refine ⟨hbytes, _, hkept r hr, ?_⟩
    split_ifs
    · rw [hid, hhash]
      exact ⟨h1, h2⟩
    · exact ⟨h1, h2⟩
  · intro x hx
    obtain ⟨r, hr, rfl⟩ := List.mem_map.mp hx
    split_ifs with hr'
    · -- the row is inactive now, as the last entry of the log says
      have hgone : (revokeRow now r).revokedAt ≠ none := by
        unfold revokeRow
        split_ifs with hnone
        · simp
        · exact hnone
      exact iff_of_false hgone (by simp [hid, hr'])
    · rw [h.active r hr]
      simp [hr']
  · intro id' hmem
    rcases List.mem_append.mp hmem with hmem | hmem
    · obtain ⟨r, hr, h1⟩ := h.known id' hmem
      refine ⟨_, hkept r hr, ?_⟩
      split_ifs
      · rw [hid, h1]
      · exact h1
    · obtain rfl := Change.revoked.inj (List.mem_singleton.mp hmem)
      obtain ⟨r, hr, h1, -⟩ := hactive
      refine ⟨_, hkept r hr, ?_⟩
      rw [if_pos h1, hid, h1]

lemma length_createAPIKey {key : APIKey} (h : t.createAPIKey key = some t') :
    t'.rows.length = t.rows.length + 1 := by
  unfold createAPIKey at h
  dsimp only at h
  split_ifs at h
  obtain rfl := Option.some.inj h
  exact List.length_append

variable (sec) in
/-- What `createAPIKey` does: nothing, with an error, or it stores the key, which it may not
know. -/
lemma createAPIKey_cases (t : APIKeys) (name : String) (bytes idBytes : Bytes) (now : ℤ)
    (access : Access) :
    ((CodexOne.createAPIKey sec t name bytes idBytes now access).1 = t ∧
      ∃ e, (CodexOne.createAPIKey sec t name bytes idBytes now access).2 = .error e) ∨
    ∃ key, key.id = "key_" ++ randomToken idBytes ∧
      key.hash = sec.hashSecret (newAPIKey (randomToken bytes)) ∧
      t.createAPIKey key = some (CodexOne.createAPIKey sec t name bytes idBytes now access).1 ∧
      ∀ key' plain, (CodexOne.createAPIKey sec t name bytes idBytes now access).2 =
        .ok (key', plain) → key' = key ∧ plain = newAPIKey (randomToken bytes) := by
  unfold CodexOne.createAPIKey
  dsimp only
  split_ifs
  · exact .inl ⟨rfl, _, rfl⟩
  · split
    · refine .inr ⟨_, rfl, rfl, ‹_›, fun key' plain h => ?_⟩
      obtain ⟨rfl, rfl⟩ := Prod.mk.inj (Except.ok.inj h)
      exact ⟨rfl, rfl⟩
    · exact .inr ⟨_, rfl, rfl, ‹_›, fun key' plain h => by cases h⟩
    · exact .inl ⟨rfl, _, rfl⟩

lemma change_of_created {name : String} {bytes idBytes : Bytes} {now : ℤ} {access : Access}
    {key : APIKey}
    (h : (CodexOne.createAPIKey sec t name bytes idBytes now access).2 = .ok (key, plain)) :
    change sec t (.create name bytes idBytes now access) = some (.stored key.id plain) := by
  rcases createAPIKey_cases sec t name bytes idBytes now access with
    ⟨-, e, herror⟩ | ⟨key', hid, -, hcreate, hanswer⟩
  · rw [h] at herror
    cases herror
  · obtain ⟨rfl, rfl⟩ := hanswer key plain h
    have hlength := length_createAPIKey hcreate
    rw [change, step, if_neg (by omega), hid]

lemma recorded_create (h : Recorded sec t log) (name : String) (bytes idBytes : Bytes) (now : ℤ)
    (access : Access) :
    Recorded sec (step sec t (.create name bytes idBytes now access))
      (log ++ (change sec t (.create name bytes idBytes now access)).toList) := by
  rcases createAPIKey_cases sec t name bytes idBytes now access with
    ⟨hsame, -⟩ | ⟨key, hid, hhash, hcreate, -⟩
  · rw [change, step, hsame, if_pos rfl, Option.toList_none, List.append_nil]
    exact h
  · have hlength := length_createAPIKey hcreate
    rw [change, step, if_neg (by omega), ← hid]
    exact h.insert hhash hcreate

lemma revokeAPIKey_gone (id : String) (now : ℤ) :
    ((t.revokeAPIKey id now).1.findActiveAPIKeyByID id).isNone = true := by
  rw [Option.isNone_iff_eq_none, ← Option.not_isSome_iff_eq_none, findActiveAPIKeyByID_isSome]
  rintro ⟨x, hx, hid, hnone⟩
  obtain ⟨r, hr, rfl⟩ := List.mem_map.mp hx
  by_cases hr' : r.id = id
  · rw [if_pos hr', revokeRow] at hnone
    split_ifs at hnone with hfree
    · exact hfree hnone
  · rw [if_neg hr'] at hid
    exact hr' hid

lemma revokeAPIKey_cases (t : APIKeys) (id : String) (now : ℤ) (access : Access) :
    ((CodexOne.revokeAPIKey t id now access).1 = t ∧
      (CodexOne.revokeAPIKey t id now access).2 ≠ none) ∨
    (CodexOne.revokeAPIKey t id now access).1 = (t.revokeAPIKey id now).1 ∧
      ((CodexOne.revokeAPIKey t id now access).2 = none → (t.revokeAPIKey id now).2 = true) := by
  unfold CodexOne.revokeAPIKey
  by_cases hprefix : hasPrefix id "key_" = false
  · rw [if_pos hprefix]
    exact .inl ⟨rfl, by simp⟩
  rw [if_neg hprefix]
  cases access with
  | done =>
    refine .inr ⟨rfl, fun h => ?_⟩
    dsimp only at h
    split_ifs at h with hcount
    exact hcount
  | failed => exact .inl ⟨rfl, by simp⟩
  | unacknowledged => exact .inr ⟨rfl, fun h => by cases h⟩

lemma change_of_revoked {now : ℤ} {access : Access}
    (h : (CodexOne.revokeAPIKey t id now access).2 = none) :
    change sec t (.revoke id now access) = some (.revoked id) := by
  rcases revokeAPIKey_cases t id now access with ⟨-, hne⟩ | ⟨htable, hcount⟩
  · exact absurd h hne
  · have hactive : (t.findActiveAPIKeyByID id).isSome = true := by
      rw [findActiveAPIKeyByID_isSome]
      simpa [revokeAPIKey] using hcount h
    rw [change, step, htable, if_pos ⟨hactive, revokeAPIKey_gone id now⟩]

lemma recorded_revoke (h : Recorded sec t log) (id : String) (now : ℤ) (access : Access) :
    Recorded sec (step sec t (.revoke id now access))
      (log ++ (change sec t (.revoke id now access)).toList) := by
  rw [change, step]
  rcases revokeAPIKey_cases t id now access with ⟨hsame, -⟩ | ⟨hrevoked, -⟩
  · have hsome : ¬((t.findActiveAPIKeyByID id).isSome = true ∧
        (t.findActiveAPIKeyByID id).isNone = true) := by
      cases t.findActiveAPIKeyByID id <;> simp
    rw [hsame, if_neg hsome, Option.toList_none, List.append_nil]
    exact h
  · rw [hrevoked]
    by_cases hactive : ∃ r ∈ t.rows, r.id = id ∧ r.revokedAt = none
    · rw [if_pos ⟨findActiveAPIKeyByID_isSome.mpr hactive, revokeAPIKey_gone id now⟩]
      exact h.revoke hactive
    · rw [if_neg fun hboth => hactive (findActiveAPIKeyByID_isSome.mp hboth.1), Option.toList_none,
        List.append_nil]
      refine h.updateRow (revokeRow_id now) (revokeRow_hash now) fun r hr hid => ?_
      have hset : r.revokedAt ≠ none := fun hnone => hactive ⟨r, hr, hid, hnone⟩
      rw [revokeRow, if_neg hset]

/-- Every step records what it changes. -/
theorem recorded_step (h : Recorded sec t log) (e : Event) :
    Recorded sec (step sec t e) (log ++ (change sec t e).toList) := by
  cases e with
  | create name bytes idBytes now access => exact recorded_create h name bytes idBytes now access
  | revoke id now access => exact recorded_revoke h id now access
  | touch id now =>
    rw [change, Option.toList_none, List.append_nil]
    exact h.updateRow (f := fun r => { r with lastUsedAt := some now }) (fun _ => rfl)
      (fun _ => rfl) fun _ _ _ => Iff.rfl

lemma recorded_start : Recorded sec empty [] where
  row _ hr := by cases hr
  stored _ _ hmem := by cases hmem
  active _ hr := by cases hr
  known _ hmem := by cases hmem

lemma recorded_run {es : List Event} (h : (system sec).run (system sec).start es = some t) :
    Recorded sec t ((system sec).trace (change sec) (system sec).start es) := by
  have hrun : Recorded sec t ([] ++ (system sec).trace (change sec) (system sec).start es) :=
    TransitionSystem.run_trace (Recorded sec)
      (fun s e t l hs hstep => Option.some.inj hstep ▸ recorded_step hs e) recorded_start h
  rwa [List.nil_append] at hrun

lemma digit_visible (n : ℕ) : isSpace (Char.ofNat (Base64.digit true n).toNat) = false := by
  have h1 : ∀ n < 26, isSpace (Char.ofNat (UInt8.ofNat (n + 65)).toNat) = false := by decide
  have h2 : ∀ n < 52, isSpace (Char.ofNat (UInt8.ofNat (n + 71)).toNat) = false ∨ n < 26 := by
    decide
  have h3 : ∀ n < 62, isSpace (Char.ofNat (UInt8.ofNat (n - 4)).toNat) = false ∨ n < 52 := by decide
  unfold Base64.digit
  split_ifs with hupper hlower hdigit
  · exact h1 n hupper
  · exact (h2 n hlower).resolve_right hupper
  · exact (h3 n hdigit).resolve_right hlower
  all_goals decide

lemma mem_encode {bytes : Bytes} {b : UInt8} (h : b ∈ Base64.encode Base64.RawURLEncoding bytes) :
    ∃ n, b = Base64.digit true n := by
  induction bytes using Base64.encode.induct with
  | case1 => cases h
  | case2 a =>
    simp only [Base64.encode, Base64.RawURLEncoding, Bool.false_eq_true, if_false, List.append_nil,
      List.mem_cons, List.not_mem_nil, or_false] at h
    rcases h with rfl | rfl <;> exact ⟨_, rfl⟩
  | case3 a b =>
    simp only [Base64.encode, Base64.RawURLEncoding, Bool.false_eq_true, if_false, List.append_nil,
      List.mem_cons, List.not_mem_nil, or_false] at h
    rcases h with rfl | rfl | rfl <;> exact ⟨_, rfl⟩
  | case4 a b c rest ih =>
    rw [Base64.encode] at h
    rcases List.mem_append.mp h with h | h
    · simp only [Base64.RawURLEncoding, List.mem_cons, List.not_mem_nil, or_false] at h
      rcases h with rfl | rfl | rfl | rfl <;> exact ⟨_, rfl⟩
    · exact ih h

lemma solid_newAPIKey (bytes : Bytes) : Solid (newAPIKey (randomToken bytes)) := by
  refine Solid.append (by decide) fun c hc => ?_
  rw [randomToken, String.toList_ofList] at hc
  obtain ⟨b, hb, rfl⟩ := List.mem_map.mp hc
  obtain ⟨n, rfl⟩ := mem_encode hb
  exact digit_visible n

lemma newAPIKey_ne_empty (token : String) : newAPIKey token ≠ "" := by
  intro h
  have hlength := congrArg String.length h
  rw [newAPIKey, String.length_append] at hlength
  exact absurd hlength (by simp)

lemma ascii_of_bearer {c : Char} (h : toLowerRune c ∈ "bearer ".toList) : c.toNat < 0x80 := by
  have hcodes : "bearer ".toList.all
      (fun d => decide (d.toNat < 0x80 ∧ d.toNat ≠ 0x69 ∧ d.toNat ≠ 0x6b)) = true := by decide
  obtain ⟨h1, h2, h3⟩ := of_decide_eq_true (List.all_eq_true.mp hcodes _ h)
  rw [toNat_toLowerRune] at h1 h2 h3
  exact ascii_of_lowerCode h1 h2 h3

lemma toList_toLower (s : String) : (toLower s).toList = s.toList.map toLowerRune :=
  String.toList_ofList

lemma bearer_scheme {scheme : String} (h : toLower scheme = "bearer") :
    scheme.toList.map toLowerRune = "bearer".toList ∧ scheme.toList.length = 6 ∧
      ∀ c ∈ scheme.toList, isSpace c = false := by
  have hmap : scheme.toList.map toLowerRune = "bearer".toList := by
    rw [← h, toList_toLower]
  refine ⟨hmap, ?_, fun c hc => ?_⟩
  · have hlength := congrArg List.length hmap
    rw [List.length_map] at hlength
    exact hlength
  · have hlower : toLowerRune c ∈ "bearer".toList := hmap ▸ List.mem_map_of_mem hc
    have hascii : c.toNat < 0x80 := ascii_of_bearer (List.mem_append_left [' '] hlower)
    have hall : ∀ n < 0x80, isSpace (Char.ofNat n) = true →
        toLowerRune (Char.ofNat n) ∉ "bearer".toList := by decide
    by_contra hspace
    have hnot := hall c.toNat hascii
    rw [Char.ofNat_toNat] at hnot
    exact hnot (by simpa using hspace) hlower

lemma providedKey_bearer {headers : Header} {scheme : String} (hscheme : toLower scheme = "bearer")
    (hsolid : Solid plain) (hne : plain ≠ "")
    (hget : headers.get "Authorization" = scheme ++ " " ++ plain) :
    providedKey headers = plain := by
  obtain ⟨hmap, hlength, hvisible⟩ := bearer_scheme hscheme
  have hlist : (scheme ++ " " ++ plain).toList = scheme.toList ++ [' '] ++ plain.toList := by
    simp [String.toList_append]
  have hhead : scheme.toList ≠ [] := by
    intro h
    rw [h] at hlength
    cases hlength
  have htrim : trimSpace (scheme ++ " " ++ plain) = scheme ++ " " ++ plain := by
    refine trimmed_iff.mp ⟨fun c hc => ?_, fun c hc => ?_⟩
    · rw [hlist, List.append_assoc, List.head?_append_of_ne_nil _ hhead] at hc
      exact hvisible c (List.mem_of_mem_head? hc)
    · rw [hlist, List.getLast?_append_of_ne_nil _ fun h => hne (String.toList_injective h)] at hc
      exact hsolid c (List.mem_of_mem_getLast? hc)
  have hprefix : hasPrefix (toLower (scheme ++ " " ++ plain)) "bearer " = true := by
    rw [hasPrefix, List.isPrefixOf_iff_prefix, toList_toLower, hlist, List.map_append,
      List.map_append, hmap]
    exact List.prefix_append _ _
  have hdrop : (scheme ++ " " ++ plain).toList.drop 7 = plain.toList := by
    rw [hlist, List.drop_left' (by rw [List.length_append, hlength]; rfl)]
  unfold providedKey
  dsimp only
  rw [hget, htrim, if_pos hprefix, hdrop, String.ofList_toList]
  exact trimmed_iff.mp hsolid.trimmed

lemma serveV1_provided {method : String} (hmethod : method ≠ "OPTIONS") {headers : Header}
    (hne : providedKey headers ≠ "") : serveV1 sec t method headers true =
      match t.findActiveAPIKeyByHash (sec.hashSecret (providedKey headers)) with
      | some key => .handled (some key)
      | none => .refused ⟨401, "invalid_api_key", "API key is invalid or revoked"⟩ := by
  rw [serveV1, if_neg hmethod, requireAPIKey, if_neg hmethod, if_neg hne, if_neg (by simp)]

lemma serveV1_missing {method : String} (hmethod : method ≠ "OPTIONS") {headers : Header}
    {available : Bool} (hempty : providedKey headers = "") :
    serveV1 sec t method headers available =
      .refused ⟨401, "invalid_api_key", "API key is required"⟩ := by
  rw [serveV1, if_neg hmethod, requireAPIKey, if_neg hmethod, if_pos hempty]

lemma handled_iff (h : Recorded sec t log) {method : String} (hmethod : method ≠ "OPTIONS")
    {headers : Header} : (∃ key, serveV1 sec t method headers true = .handled (some key) ∧
        key.id = id) ↔ providedKey headers ≠ "" ∧
      ∃ plain, Live log id plain ∧ sec.hashSecret plain = sec.hashSecret (providedKey headers) := by
  by_cases hempty : providedKey headers = ""
  · rw [serveV1_missing hmethod hempty]
    exact iff_of_false (fun ⟨_, hkey, _⟩ => Served.noConfusion hkey) fun hne => hne.1 hempty
  rw [serveV1_provided hmethod hempty]
  constructor
  · rintro ⟨key, hkey, rfl⟩
    cases hfind : t.findActiveAPIKeyByHash (sec.hashSecret (providedKey headers)) with
    | none =>
      rw [hfind] at hkey
      exact Served.noConfusion hkey
    | some key' =>
      rw [hfind] at hkey
      obtain rfl := Option.some.inj (Served.handled.inj hkey)
      obtain ⟨r, hr, hhash, hactive, hid⟩ := findActiveAPIKeyByHash_some hfind
      obtain ⟨plain, hstored, hrow⟩ := h.row r hr
      rw [← hid]
      exact ⟨hempty, plain, ⟨hstored, (h.active r hr).mp hactive⟩,
        hrow.symm.trans hhash⟩
  · rintro ⟨-, plain, ⟨hstored, hlive⟩, hhash⟩
    obtain ⟨-, r, hr, rfl, hrow⟩ := h.stored id plain hstored
    have hfind := findActiveAPIKeyByHash_mem hr ((h.active r hr).mpr hlive)
    rw [hrow, hhash] at hfind
    rw [hfind]
    exact ⟨_, rfl, rfl⟩

lemma serveV1_ne_keyless (method : String) (headers : Header) (available : Bool) :
    serveV1 sec t method headers available ≠ .handled none := by
  unfold serveV1 requireAPIKey
  split_ifs
  · exact Served.noConfusion
  · exact Served.noConfusion
  · exact Served.noConfusion
  · cases t.findActiveAPIKeyByHash (sec.hashSecret (providedKey headers)) with
    | none => exact Served.noConfusion
    | some key => exact fun h => by cases Served.handled.inj h

/-- **API keys.** After every run of creations, revocations and requests a request on `/v1` is
handed on with a key exactly when the secret that it provides has the hash of one that has been
stored with this key, and the key has not been revoked. Without a key none is handed on. And a key
that has been stored and not revoked is accepted with its scheme in any case. What a handler answers
has been recorded: a secret as stored with the key, a revocation as made. -/
theorem api_keys_checked {es : List Event} (h : (system sec).run (system sec).start es = some t) :
    (∀ method headers id, method ≠ "OPTIONS" →
      ((∃ key, serveV1 sec t method headers true = .handled (some key) ∧ key.id = id) ↔
        providedKey headers ≠ "" ∧ ∃ plain,
          Live ((system sec).trace (change sec) (system sec).start es) id plain ∧
            sec.hashSecret plain = sec.hashSecret (providedKey headers))) ∧
    (∀ method headers available, serveV1 sec t method headers available ≠ .handled none) ∧
    (∀ id plain, Live ((system sec).trace (change sec) (system sec).start es) id plain →
      ∀ method scheme headers, method ≠ "OPTIONS" → toLower scheme = "bearer" →
        headers.get "Authorization" = scheme ++ " " ++ plain →
          ∃ key, serveV1 sec t method headers true = .handled (some key) ∧ key.id = id) ∧
    (∀ name bytes idBytes now access key plain,
      (CodexOne.createAPIKey sec t name bytes idBytes now access).2 = .ok (key, plain) →
        change sec t (.create name bytes idBytes now access) = some (.stored key.id plain)) ∧
    ∀ id now access, (CodexOne.revokeAPIKey t id now access).2 = none →
      change sec t (.revoke id now access) = some (.revoked id) := by
  have hrecorded := recorded_run h
  refine ⟨fun method headers id hmethod => handled_iff hrecorded hmethod, serveV1_ne_keyless,
    fun id plain hlive method scheme headers hmethod hscheme hget => ?_,
    fun _ _ _ _ _ _ _ hanswer => change_of_created hanswer,
    fun _ _ _ hanswer => change_of_revoked hanswer⟩
  · obtain ⟨⟨bytes, rfl⟩, -⟩ := hrecorded.stored id plain hlive.1
    have hprovided := providedKey_bearer hscheme (solid_newAPIKey bytes) (newAPIKey_ne_empty _) hget
    rw [handled_iff hrecorded hmethod, hprovided]
    exact ⟨newAPIKey_ne_empty _, _, hlive, rfl⟩

/-- A key that is made in an empty table, and a request that comes with it. -/
theorem api_keys_checked_sample : ∃ key, serveV1 ⟨fun s => s, fun a b => a == b⟩
      (step ⟨fun s => s, fun a b => a == b⟩ empty (.create " laptop " [1, 2, 3] [4] 0 .done)) "POST"
      [("Authorization", ["BEARER sk-codexone-AQID"])] true = .handled (some key) ∧
      key.id = "key_BA" := by
  have hrun : (system ⟨fun s => s, fun a b => a == b⟩).run empty
      [.create " laptop " [1, 2, 3] [4] 0 .done] = some _ := rfl
  exact (api_keys_checked hrun).2.2.1 "key_BA" "sk-codexone-AQID" (by decide +kernel) "POST"
    "BEARER" _ (by decide) (by decide) (by decide)

end APIKeys

end CodexOne
