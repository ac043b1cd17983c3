import CodexOne.Chat
import CodexOne.Compat

/-!
The requests that go upstream: the HTTP handlers of `service.go` and `chat.go`, and the two
transports of `websocket.go`.

A request is its headers and its body before it is encoded. What fails before a request is sent
is an error here.
-/

namespace CodexOne

open GoStrings Members

/-- The settings of `config.Config` the requests depend on. -/
structure Config where
  codexIdentityRemap : Bool
  codexWSHTTPFallback : Bool
  codexUserAgent : String
  codexClientVersion : String

/-- The parts of `codex.Credential` the requests depend on. -/
structure Credential where
  accountID : String
  accessToken : String
  planType : String

structure UpstreamRequest where
  headers : Header
  body : Obj

/-- The headers that `copyCodexContextHeaders` hands on. -/
def contextHeaderNames : List String :=
  ["X-Codex-Beta-Features", "X-Codex-Turn-Metadata", "X-Client-Request-Id", "X-Codex-Window-Id",
    "X-Codex-Turn-State", "X-ResponsesAPI-Include-Timing-Metrics", "Thread-Id", "Session-Id",
    "Session_id", "Conversation_id", "X-OpenAI-Internal-Codex-Responses-Lite"]

def copyCodexContextHeaders (target source : Header) : Header :=
  contextHeaderNames.foldl (fun target name =>
    let value := trimSpace (source.get name)
    if value ≠ "" ∧ containsAny value ['\r', '\n'] = false then target.set name value
    else target) target

def applyCodexHeaders (target : Header) (cfg : Config) (credential : Credential)
    (accept : String) : Header :=
  let target := target.set "Authorization" ("Bearer " ++ credential.accessToken)
  let target := target.set "Chatgpt-Account-Id" credential.accountID
  let target := target.set "User-Agent" cfg.codexUserAgent
  let target := target.set "Originator" "codex-tui"
  let target := target.set "Version" cfg.codexClientVersion
  target.set "Accept" accept

def codexResponsesWebSocketBeta : String := "responses_websockets=2026-02-06"

/-- The loop of `mergeWebSocketBetaHeader`. -/
def mergeBetaValues : (values : List String) → (found : Bool) → List String
  | [], found => if found then [] else [codexResponsesWebSocketBeta]
  | value :: rest, found =>
    let value := trimSpace value
    if value = "" then mergeBetaValues rest found
    else if hasPrefix (toLower value) "responses_websockets=" then
      if found then mergeBetaValues rest found
      else codexResponsesWebSocketBeta :: mergeBetaValues rest true
    else value :: mergeBetaValues rest found

def mergeWebSocketBetaHeader (clientValue : String) : String :=
  join (mergeBetaValues ((clientValue.toList.splitOn ',').map String.ofList) false) ","

section
variable (d : Digests)

def httpHeaders (cfg : Config) (r : Request) (credential : Credential) (accept : String) :
    IdentityM Header := do
  let target := copyCodexContextHeaders (Header.set [] "Content-Type" "application/json") r.headers
  let target ← Identity.applyHeaders d target r.headers false
  pure (applyCodexHeaders target cfg credential accept)

/-- The headers that `ensureUpstream` dials with. -/
def dialHeaders (cfg : Config) (r : Request) (credential : Credential) : IdentityM Header := do
  let target ← Identity.applyHeaders d (copyCodexContextHeaders [] r.headers) r.headers true
  pure ((applyCodexHeaders target cfg credential "application/json").set "OpenAI-Beta"
    (mergeWebSocketBetaHeader (r.headers.get "OpenAI-Beta")))

/-- The request that `executeHTTPFallback` sends for a replay body. -/
def fallbackRequest (fuel : ℕ) (cfg : Config) (r : Request) (credential : Credential)
    (model : String) (replay : Obj) : IdentityM UpstreamRequest := do
  let body ← Compat.prepareCodexHTTPBody d fuel (erase replay "type") model credential.planType
    r.headers
  let headers ← httpHeaders d cfg r credential "text/event-stream"
  pure { headers, body }

/-! ### Handlers -/

/-- `normalizeResponsesRequest` on the text of a request. -/
def normalizeRequestText (raw : Text) : Except String (Obj × Bool × String) :=
  if jsonValid raw = false then
    .error "invalid Responses request: body must contain one JSON value"
  else
    match (Raw.parse raw).map Raw.decode with
    | some (.obj body) => Normalize.normalizeResponsesRequest body
    -- `null` leaves a nil map, which is read like an empty one
    | some .null => Normalize.normalizeResponsesRequest []
    | _ => .error "invalid Responses request"

/-- The rest of an inference handler: from the normalized body to the request. -/
def inferenceRequest (cfg : Config) (r : Request) (credential : Credential) (body : Obj)
    (prepareBody : Obj → IdentityM Obj) : Except String UpstreamRequest := do
  let (body, identity) ← prepareRequestIdentity d r body cfg.codexIdentityRemap
  let send : IdentityM UpstreamRequest := do
    let body ← prepareBody body
    let headers ← httpHeaders d cfg r credential "text/event-stream"
    pure { headers, body }
  (send.run identity).1

def handleResponsesPath (fuel : ℕ) (cfg : Config) (r : Request) (credential : Credential)
    (raw : Text) : Except String UpstreamRequest := do
  let (body, _, model) ← normalizeRequestText raw
  inferenceRequest d cfg r credential body fun body =>
    Compat.prepareCodexHTTPBody d fuel body model credential.planType r.headers

def chatCompletions (fuel : ℕ) (cfg : Config) (r : Request) (credential : Credential)
    (raw : Text) : Except String UpstreamRequest := do
  let (body, _, _, model) ← Chat.convertChatRequest raw
  inferenceRequest d cfg r credential body fun body =>
    Compat.prepareCodexChatBody d fuel body model credential.planType r.headers

def handlePassthroughJSON (fuel : ℕ) (cfg : Config) (r : Request) (credential : Credential)
    (raw : Text) : Except String UpstreamRequest :=
  if jsonValid raw = false then .error "request body must be valid JSON"
  else
    match decodeObject raw with
    | none => .error "request body must be a JSON object"
    | some body => do
      let (body, identity) ← prepareRequestIdentity d r body cfg.codexIdentityRemap
      let send : IdentityM UpstreamRequest := do
        let body ← Compat.prepareCodexPassthroughBody d fuel body
        let headers ← httpHeaders d cfg r credential "application/json"
        pure { headers, body }
      (send.run identity).1

end

section
open Identity
variable (d : Digests)

lemma tracks_httpHeaders (cfg : Config) (r : Request) (credential : Credential)
    (accept : String) : Tracks (httpHeaders d cfg r credential accept) :=
  .of_bind (tracks_applyHeaders d _ _ _) fun _ => .of_pure _

lemma tracks_dialHeaders (cfg : Config) (r : Request) (credential : Credential) :
    Tracks (dialHeaders d cfg r credential) :=
  .of_bind (tracks_applyHeaders d _ _ _) fun _ => .of_pure _

lemma tracks_fallbackRequest (fuel : ℕ) (cfg : Config) (r : Request) (credential : Credential)
    (model : String) (replay : Obj) :
    Tracks (fallbackRequest d fuel cfg r credential model replay) :=
  .of_bind (Compat.tracks_prepareCodexInferenceObject d fuel _ _ _ _ _ _) fun _ =>
    .of_bind (tracks_httpHeaders d cfg r credential _) fun _ => .of_pure _

end

end CodexOne
