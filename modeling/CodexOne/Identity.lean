import CodexOne.Lib.JsonStruct

/-!
The identity a conversation shows upstream, `internal/proxy/identity.go`.

An identity replaces the identifiers of a client by pseudonyms and keeps the reverse table to
undo it. Its methods change the table in place, and a method that fails keeps what it has
written so far.
-/

namespace CodexOne

open GoStrings Members

/-- The digests of `crypto/sha256` and `crypto/hmac`. -/
structure Digests where
  sha256 : (message : String) → Fin 32 → UInt8
  hmac : (key message : String) → Fin 32 → UInt8

namespace Digests

/-- `hex.EncodeToString`. -/
def hex (bytes : List UInt8) : List Char :=
  bytes.flatMap fun b => hexDigits b.toNat

def uuidString (raw : Fin 16 → UInt8) : String :=
  let part (n k : ℕ) : List Char := hex (((List.ofFn raw).drop n).take k)
  String.ofList
    (part 0 4 ++ '-' :: part 4 2 ++ '-' :: part 6 2 ++ '-' :: part 8 2 ++ '-' :: part 10 6)

variable (d : Digests)

def identityUUID (secret kind value : String) : String :=
  let digest := d.hmac ("codexone:identity:" ++ trimSpace secret)
    (trimSpace kind ++ "\x00" ++ trimSpace value)
  uuidString fun n =>
    let b := digest (n.castLE (by decide))
    if n = 6 then (b &&& 0x0f) ||| 0x50 else if n = 8 then (b &&& 0x3f) ||| 0x80 else b

def stableSessionID (apiKeyID : String) : String :=
  d.identityUUID (trimSpace apiKeyID) "default-session"
    ("codexone:prompt-cache:" ++ trimSpace apiKeyID)

/-- Digests of zeros, to evaluate concrete runs with. -/
def zero : Digests := ⟨fun _ _ => 0, fun _ _ _ => 0⟩

end Digests

def maxIdentityBytes : ℕ := 1024
def maxIdentityMappings : ℕ := 256
def maxIdentityMappingBytes : ℕ := 256 * 1024

def validIdentityValue (value : String) : Bool :=
  trimSpace value ≠ "" && (trimSpace value).utf8ByteSize ≤ maxIdentityBytes &&
    !containsAny (trimSpace value) ['\r', '\n', '\x00']

def cleanIdentityValue (value : String) : String :=
  if validIdentityValue (trimSpace value) then trimSpace value else ""

def jsonString (value : Json) : String := cleanIdentityValue value.text

def firstNonEmpty (values : List String) : String :=
  (values.find? fun v => trimSpace v ≠ "").getD ""

def identityStringField (object : Obj) (name : String) : Except String String :=
  match Obj.val object name with
  | .null => .ok ""
  | .str text =>
    if trimSpace text = "" then .ok ""
    else if validIdentityValue (trimSpace text) then .ok (trimSpace text)
    else .error (name ++ " is invalid or too long")
  | _ => .error (name ++ " must be a string")

abbrev Header := List (String × List String)

namespace Header

/-- `validHeaderFieldByte` of `net/textproto`. -/
def validFieldRune (c : Char) : Bool := c.isAlphanum || "!#$%&'*+-.^_`|~".toList.contains c

/-- Upper case at the front and after a dash, lower case elsewhere. -/
def capitalize : Bool → List Char → List Char
  | _, [] => []
  | up, c :: r => (if up then c.toUpper else c.toLower) :: capitalize (c == '-') r

/-- `textproto.CanonicalMIMEHeaderKey`. -/
def canonicalKey (name : String) : String :=
  if name.toList.all validFieldRune then String.ofList (capitalize true name.toList) else name

def get (h : Header) (name : String) : String :=
  ((Members.get h (canonicalKey name)).getD []).headD ""

def set (h : Header) (name value : String) : Header := Members.set h (canonicalKey name) [value]

/-- `deleteHeaderFold`. -/
def deleteFold (h : Header) (name : String) : Header := h.filter fun m => !equalFold m.1 name

/-- The values of all keys that agree with a name up to case, in the order the map is walked. -/
def valuesFold (h : Header) (name : String) : List String :=
  (h.filter fun m => equalFold m.1 name).flatMap (·.2)

/-- `headerValueFold`. -/
def valueFold (h : Header) (name : String) : String :=
  (((h.valuesFold name).map cleanIdentityValue).find? (· ≠ "")).getD ""

end Header

def firstSessionHeader (headers : Header) : String :=
  ((["Session-Id", "Session_id", "session_id", "Conversation_id"].map fun name =>
    cleanIdentityValue (headers.valueFold name)).find? (· ≠ "")).getD ""

def promptCacheFromTurnMetadata (raw : String) : String :=
  if trimSpace raw = "" ∨ raw.utf8ByteSize > maxIdentityBytes * 8 then ""
  else
    match Decoder.unmarshal (Decoder.struct [("prompt_cache_key", Decoder.string)]) ""
      raw.toList with
    | some promptCacheKey => cleanIdentityValue promptCacheKey
    | none => ""

def clientMetadataSession (object : Obj) : String :=
  let metadata := (Obj.val object "client_metadata").members
  match ["session_id", "x-codex-session-id", "prompt_cache_key", "thread_id",
      "x-codex-window-id"].find? fun name => jsonString (Obj.val metadata name) ≠ "" with
  | some name => trimSuffix (jsonString (Obj.val metadata name)) ":0"
  | none => ""

/-! ### The identity -/

/-- The bytes an entry of the reverse table counts for. -/
def entryBytes (e : String × String) : ℕ := e.1.utf8ByteSize + e.2.utf8ByteSize

/-- `codexIdentity`. `reverse` maps an upstream identifier to the client's, in the order the
entries were made; it is a map, counted in `mappingBytes` and within its budget. -/
structure Identity where
  remap : Bool
  keyID : String
  clientSessionID : String
  upstreamSessionID : String
  reverse : List (String × String)
  mappingBytes : ℕ
  mappingErr : Option String
  distinct : (reverse.map Prod.fst).Nodup
  counted : mappingBytes = (reverse.map entryBytes).sum
  bounded : reverse.length ≤ maxIdentityMappings ∧ mappingBytes ≤ maxIdentityMappingBytes
  deriving DecidableEq

/-- A method of an identity: its result or its error, and the identity it leaves behind. -/
structure IdentityM (α : Type) where
  run : Identity → Except String α × Identity

namespace IdentityM

variable {α β : Type}

instance : Monad IdentityM where
  pure a := ⟨fun i => (.ok a, i)⟩
  bind m f := ⟨fun i => match m.run i with
    | (.ok a, j) => (f a).run j
    | (.error e, j) => (.error e, j)⟩

def fail (e : String) : IdentityM α := ⟨fun i => (.error e, i)⟩

def self : IdentityM Identity := ⟨fun i => (.ok i, i)⟩

def update (f : Identity → Identity) : IdentityM Unit := ⟨fun i => (.ok (), f i)⟩

/-- The method with the text of its error changed. -/
def mapError (g : String → String) (m : IdentityM α) : IdentityM α := ⟨fun i => match m.run i with
  | (.ok a, j) => (.ok a, j)
  | (.error e, j) => (.error (g e), j)⟩

@[simp] lemma run_pure (a : α) (i : Identity) : (pure a : IdentityM α).run i = (.ok a, i) := rfl

@[simp] lemma run_fail (e : String) (i : Identity) :
    (fail e : IdentityM α).run i = (.error e, i) := rfl

@[simp] lemma run_self (i : Identity) : self.run i = (.ok i, i) := rfl

@[simp] lemma run_update (f : Identity → Identity) (i : Identity) :
    (update f).run i = (.ok (), f i) := rfl

lemma run_bind (m : IdentityM α) (f : α → IdentityM β) (i : Identity) :
    (m >>= f).run i = match m.run i with
      | (.ok a, j) => (f a).run j
      | (.error e, j) => (.error e, j) := rfl

@[simp] lemma run_self_bind (f : Identity → IdentityM α) (i : Identity) :
    (self >>= f).run i = (f i).run i := rfl

end IdentityM

namespace Identity

open IdentityM

variable (d : Digests)

def collision : String := "identity mapping collision; start a new request"

def budgetExceeded : String :=
  "identity mapping budget exceeded; reconnect with a compact transcript"

lemma not_mem_keys {l : List (String × String)} {k : String} (h : l.lookup k = none) :
    k ∉ l.map Prod.fst := by
  intro hm
  obtain ⟨e, he, rfl⟩ := List.mem_map.mp hm
  simpa using List.lookup_eq_none_iff.mp h e he

/-- The identity with one more entry. -/
def add (i : Identity) (upstream client : String) (hnew : i.reverse.lookup upstream = none)
    (hfit : ¬(i.reverse.length ≥ maxIdentityMappings ∨
      i.mappingBytes + entryBytes (upstream, client) > maxIdentityMappingBytes)) : Identity :=
  { i with
    reverse := i.reverse ++ [(upstream, client)]
    mappingBytes := i.mappingBytes + entryBytes (upstream, client)
    distinct := by
      rw [List.map_append, List.nodup_append]
      refine ⟨i.distinct, by simp, ?_⟩
      rintro a ha b hb rfl
      exact not_mem_keys hnew (by simpa [List.mem_singleton.mp hb] using ha)
    counted := by simp [i.counted]
    bounded := by
      rw [List.length_append, List.length_singleton]
      omega }

def remember (i : Identity) (upstream client : String) : Identity :=
  if upstream = "" ∨ client = "" ∨ upstream = client then i
  else if i.mappingErr ≠ none then i
  else
    match h : i.reverse.lookup upstream with
    | some existing => if existing ≠ client then { i with mappingErr := some collision } else i
    | none =>
      if hfit : i.reverse.length ≥ maxIdentityMappings ∨
          i.mappingBytes + entryBytes (upstream, client) > maxIdentityMappingBytes then
        { i with mappingErr := some budgetExceeded }
      else i.add upstream client h hfit

def mappingError : IdentityM Unit := do
  match (← self).mappingErr with
  | some e => fail e
  | none => pure ()

def mapValue (kind value : String) : IdentityM String := do
  let i ← self
  let value := cleanIdentityValue value
  if value = "" ∨ i.remap = false then pure value
  else
    let mapped := d.identityUUID i.keyID kind value
    update (remember · mapped value)
    pure mapped

/-- The last colon of a window id that is not at its front: the text before it and from it on. -/
def windowParts (value : String) : String × String :=
  match cutLast value ':' with
  | some (base, suffix) => if base ≠ "" then (base, suffix) else (value, "")
  | none => (value, "")

def mapWindow (value : String) : IdentityM String := do
  let i ← self
  let value := cleanIdentityValue value
  if value = "" ∨ i.remap = false then pure value
  else
    let (base, suffix) := windowParts value
    if base = i.clientSessionID ∧ i.upstreamSessionID ≠ "" then
      update (remember · (i.upstreamSessionID ++ suffix) value)
      pure (i.upstreamSessionID ++ suffix)
    else
      let mapped ← mapValue d "window" base
      pure (mapped ++ suffix)

def remapTurnField (metadata : Obj) (name : String) (map : String → IdentityM String) :
    IdentityM Obj :=
  match Members.get metadata name with
  | none => pure metadata
  | some (.str text) =>
    if trimSpace text ≠ "" ∧ validIdentityValue text = false then
      fail (name ++ " is invalid or too long")
    else if trimSpace text ≠ "" then do
      let mapped ← map text
      pure (Members.set metadata name (.str mapped))
    else pure metadata
  -- `null` is refused like any other value that is no text
  | some _ => fail (name ++ " is invalid or too long")

/-- The session key that `remapTurnMetadata` overwrites. -/
def turnSessionKey (metadata : Obj) : IdentityM Obj := do
  let i ← self
  match Members.get metadata "prompt_cache_key" with
  | none => pure metadata
  | some (.str text) =>
    if trimSpace text ≠ "" ∧ validIdentityValue text = false then
      fail "prompt_cache_key is invalid or too long"
    -- without a session the key stays as it is
    else if i.upstreamSessionID ≠ "" then
      pure (Members.set metadata "prompt_cache_key" (.str i.upstreamSessionID))
    else pure metadata
  | some _ => fail "prompt_cache_key is invalid or too long"

def remapTurnMetadata (raw : String) : IdentityM String := do
  let i ← self
  if i.remap = false ∨ trimSpace raw = "" then pure raw
  else if raw.utf8ByteSize > maxIdentityBytes * 8 then fail "value is invalid or too long"
  else
    match (Raw.parse raw.toList).bind Raw.unmarshal with
    | some (.obj metadata) =>
      let metadata ← turnSessionKey metadata
      let metadata ← remapTurnField metadata "turn_id" (mapValue d "turn")
      let metadata ← remapTurnField metadata "thread_id" (mapValue d "thread")
      let metadata ← remapTurnField metadata "window_id" (mapWindow d)
      mappingError
      pure (String.ofList (marshal (.obj metadata)))
    | _ => fail "value must be a JSON object"

def remapClientField (map : String → IdentityM String) (name : String) (metadata : Obj) :
    IdentityM Obj :=
  match Members.get metadata name with
  | none => pure metadata
  | some (.str text) =>
    -- a blank text is not validated
    if trimSpace text = "" then pure metadata
    else if validIdentityValue text = false then
      fail ("client_metadata." ++ name ++ " is invalid or too long")
    else do
      let mapped ← map text
      pure (Members.set metadata name (.str mapped))
  | some _ => fail ("client_metadata." ++ name ++ " must be a string")

/-- One of the fields of `remapClientMetadata` that hold the session. -/
def remapClientSession (name : String) (metadata : Obj) : IdentityM Obj := do
  let i ← self
  if Members.has metadata name ∧ i.upstreamSessionID ≠ "" then
    pure (Members.set metadata name (.str i.upstreamSessionID))
  else pure metadata

/-- One of the fields of `remapClientMetadata` that hold turn metadata. -/
def remapClientTurn (name : String) (metadata : Obj) : IdentityM Obj :=
  match Members.get metadata name with
  | none => pure metadata
  | some (.str text) => do
    let mapped ← mapError (("client_metadata." ++ name ++ ": ") ++ ·) (remapTurnMetadata d text)
    pure (Members.set metadata name (.str mapped))
  | some _ => fail ("client_metadata." ++ name ++ " must be a string")

def remapClientMetadata (metadata : Obj) : IdentityM Obj := do
  let i ← self
  if i.remap = false then pure metadata
  else
    let metadata ← remapClientField (mapValue d "installation") "x-codex-installation-id" metadata
    let metadata ← remapClientField (mapValue d "installation") "installation_id" metadata
    let metadata ← remapClientField (mapValue d "request") "x-client-request-id" metadata
    let metadata ← remapClientField (mapValue d "request") "request_id" metadata
    let metadata ← remapClientField (mapValue d "thread") "thread_id" metadata
    let metadata ← remapClientField (mapValue d "thread") "x-codex-thread-id" metadata
    let metadata ← remapClientField (mapWindow d) "x-codex-window-id" metadata
    let metadata ← remapClientField (mapWindow d) "window_id" metadata
    let metadata ← remapClientSession "session_id" metadata
    let metadata ← remapClientSession "x-codex-session-id" metadata
    let metadata ← remapClientSession "prompt_cache_key" metadata
    let metadata ← remapClientTurn d "x-codex-turn-metadata" metadata
    let metadata ← remapClientTurn d "turn_metadata" metadata
    mappingError
    pure metadata

/-- What `prepareBody` does to the client metadata. -/
def prepareMetadata (object : Obj) : IdentityM Obj :=
  match Members.get object "client_metadata" with
  | some (.obj metadata) => do
    let metadata ← remapClientMetadata d metadata
    pure (Members.set object "client_metadata" (.obj metadata))
  | _ => pure object

def prepareBody (object : Obj) (fixed : Bool) : IdentityM Obj := do
  let i ← self
  match identityStringField object "prompt_cache_key" with
  | .error e => fail e
  | .ok explicitSession =>
    if fixed = true ∧ explicitSession ≠ "" ∧ explicitSession ≠ i.clientSessionID ∧
        explicitSession ≠ i.upstreamSessionID then
      fail "prompt_cache_key cannot change on an active WebSocket"
    else
      let object := if i.upstreamSessionID ≠ "" then
          Members.set object "prompt_cache_key" (.str i.upstreamSessionID)
        else object
      let object ← prepareMetadata d object
      mappingError
      pure object

/-- The session headers `applyHeaders` puts in place. -/
def sessionHeaders (i : Identity) (target source : Header) (websocketTransport : Bool) : Header :=
  if i.upstreamSessionID ≠ "" then
    let target := (((target.deleteFold "Session-Id").deleteFold "Session_id").deleteFold
      "session_id").deleteFold "Conversation_id"
    if websocketTransport then
      Members.set (Members.set target "session_id" [i.upstreamSessionID])
        "Conversation_id" [i.upstreamSessionID]
    else
      let target := target.set "Session-Id" i.upstreamSessionID
      if source.valueFold "Conversation_id" ≠ "" then
        Members.set target "Conversation_id" [i.upstreamSessionID]
      else target
  else target

def applyHeader (map : String → IdentityM String) (name : String) (source target : Header) :
    IdentityM Header :=
  if trimSpace (source.get name) ≠ "" then
    if cleanIdentityValue (trimSpace (source.get name)) = "" then
      fail (name ++ " is invalid or too long")
    else do
      let mapped ← map (cleanIdentityValue (trimSpace (source.get name)))
      pure (target.set name mapped)
  else pure target

/-- The turn metadata header of `applyHeaders`. -/
def applyTurnHeader (source target : Header) : IdentityM Header :=
  if trimSpace (source.get "X-Codex-Turn-Metadata") ≠ "" then do
    let mapped ← mapError ("X-Codex-Turn-Metadata: " ++ ·)
      (remapTurnMetadata d (trimSpace (source.get "X-Codex-Turn-Metadata")))
    pure (target.set "X-Codex-Turn-Metadata" mapped)
  else pure target

def applyHeaders (target source : Header) (websocketTransport : Bool) : IdentityM Header := do
  let i ← self
  let target := i.sessionHeaders target source websocketTransport
  if i.remap = false then
    mappingError
    pure target
  else
    let target ← applyHeader (mapValue d "request") "X-Client-Request-Id" source target
    let target ← applyHeader (mapValue d "thread") "Thread-Id" source target
    let target ← applyHeader (mapWindow d) "X-Codex-Window-Id" source target
    let target ← applyTurnHeader d source target
    mappingError
    pure target

/-- `newCodexIdentity`. -/
def new (key : Option String) (clientHeaders : Header) (object : Obj) (remap : Bool) :
    Except String Identity := do
  let bodySessionID ← identityStringField object "prompt_cache_key"
  let keyID := trimSpace (key.getD "")
  let clientSessionID := firstNonEmpty [bodySessionID, firstSessionHeader clientHeaders,
    promptCacheFromTurnMetadata (clientHeaders.get "X-Codex-Turn-Metadata"),
    cleanIdentityValue (clientHeaders.get "Thread-Id"), clientMetadataSession object]
  if clientSessionID ≠ "" ∧ validIdentityValue clientSessionID = false then
    .error "session identity is invalid or too long"
  else
    let identity : Identity :=
      { remap, keyID, clientSessionID, upstreamSessionID := "", reverse := [],
        mappingBytes := 0, mappingErr := none, distinct := by simp, counted := rfl,
        bounded := by decide }
    let (mapped, identity) :=
      if clientSessionID ≠ "" then (mapValue d "prompt-cache" clientSessionID).run identity
      else if keyID ≠ "" then (.ok (d.stableSessionID keyID), identity)
      else (.ok "", identity)
    let upstreamSessionID ← mapped
    match identity.mappingErr with
    | some e => .error e
    | none => .ok { identity with upstreamSessionID }

end Identity

/-- What a handler reads from its `*http.Request` and the context: the headers and the id of the
API key. -/
structure Request where
  headers : Header
  keyID : Option String

def prepareRequestIdentity (d : Digests) (r : Request) (body : Obj) (remap : Bool) :
    Except String (Obj × Identity) := do
  let identity ← Identity.new d r.keyID r.headers body remap
  match (Identity.prepareBody d body false).run identity with
  | (.ok body, identity) => .ok (body, identity)
  | (.error e, _) => .error e

end CodexOne
