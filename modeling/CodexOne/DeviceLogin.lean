import CodexOne.APIKeys
import CodexOne.Lib.JsonStruct
import CodexOne.Tokens
import CodexOne.Truncation

/-!
Connecting an account with a device code, or with the text of an `auth.json`.

Any number of flows are started and polled at once. A flow is stored as JSON in the store of admin
sessions and of browser logins, under a key of its own. Beside it the system keeps what the
authorization server was asked, and what the credential was replaced with.
-/

namespace CodexOne.Codex

open GoStrings Utf8

structure DeviceFlow where
  deviceAuthID : String
  userCode : String
  expiresAt : ℤ
  interval : ℤ
  deriving DecidableEq

namespace DeviceFlow

def json (flow : DeviceFlow) : Json :=
  .obj [("device_auth_id", .str flow.deviceAuthID), ("user_code", .str flow.userCode),
    ("expires_at", .num (.ofInt flow.expiresAt)), ("interval", .num (.ofInt flow.interval))]

def decoder : Decoder DeviceFlow :=
  .struct
    [("device_auth_id",
      .into (·.deviceAuthID) (fun v f => { f with deviceAuthID := v }) .string),
     ("user_code", .into (·.userCode) (fun v f => { f with userCode := v }) .string),
     ("expires_at", .into (·.expiresAt) (fun v f => { f with expiresAt := v }) .int64),
     ("interval", .into (·.interval) (fun v f => { f with interval := v }) .int64)]

def encoded (flow : DeviceFlow) : String := String.ofList (marshal flow.json)

def decode (raw : String) : Option DeviceFlow := decoder.unmarshal ⟨"", "", 0, 0⟩ raw.toList

def key (flowID : String) : String := "oauth:" ++ flowID

end DeviceFlow

/-- Fifteen minutes. -/
def deviceFlowTTL : ℤ := 15 * 60 * 1000000000

/-- `strconv.Atoi`. -/
def atoi? (l : List Char) : Option ℤ :=
  let ds := if l.head? = some '-' ∨ l.head? = some '+' then l.tail else l
  ((Number.digits? ds).map fun n => if l.head? = some '-' then -n else n).filter fun n =>
    -2 ^ 63 ≤ n ∧ n < 2 ^ 63

def parsePollInterval (raw : Option Raw) : ℤ :=
  raw.elim 5 fun r =>
    let number := Decoder.int64 r 0
    if number.2 ∧ number.1 > 0 then number.1
    else
      let text := Decoder.string r ""
      let parsed := if text.2 then (atoi? (trimSpace text.1).toList).getD 0 else 0
      if parsed > 0 then parsed else 5

/-- What an HTTP request ends with: the message of an error, or the status and the body. -/
abbrev Reply := Except Bytes (ℤ × Text)

/-- `upstreamError`, given the text of each status. -/
def upstreamError (statusText : ℤ → String) (action : String) (status : ℤ) (body : Text) : Bytes :=
  let text := Truncation.compactError (encode body)
  encode (action ++ " failed (" ++ toString status ++ "): ").toList ++
    if text = [] then encode (statusText status).toList else text

def isSuccess (status : ℤ) : Prop := 200 ≤ status ∧ status < 300

instance (status : ℤ) : Decidable (isSuccess status) := inferInstanceAs (Decidable (_ ∧ _))

structure DevicePayload where
  deviceAuthID : String
  userCode : String
  userCodeAlt : String
  interval : Option Raw

def DevicePayload.decoder : Decoder DevicePayload :=
  .struct
    [("device_auth_id",
      .into (·.deviceAuthID) (fun v p => { p with deviceAuthID := v }) .string),
     ("user_code", .into (·.userCode) (fun v p => { p with userCode := v }) .string),
     ("usercode", .into (·.userCodeAlt) (fun v p => { p with userCodeAlt := v }) .string),
     ("interval", .into (·.interval) (fun v p => { p with interval := v }) .raw)]

def failure (message : String) : Bytes := encode message.toList

/-- The flow that `StartDeviceFlow` makes of an answer. -/
def readDeviceStart (statusText : ℤ → String) (now : ℤ) (status : ℤ) (body : Text) :
    Except Bytes DeviceFlow :=
  if ¬isSuccess status then .error (upstreamError statusText "device code request" status body)
  else
    (DevicePayload.decoder.unmarshal ⟨"", "", "", none⟩ body).elim
      (.error (failure "decode device code response"))
      fun payload =>
        let userCode := if payload.userCode = "" then payload.userCodeAlt else payload.userCode
        if trimSpace payload.deviceAuthID = "" ∨ trimSpace userCode = "" then
          .error (failure "device flow response is missing required fields")
        else .ok
          { deviceAuthID := payload.deviceAuthID, userCode
            expiresAt := toUnixMilli (now + deviceFlowTTL)
            interval := parsePollInterval payload.interval }

structure TokenCode where
  authorizationCode : String
  codeVerifier : String
  codeChallenge : String

def TokenCode.decoder : Decoder TokenCode :=
  .struct
    [("authorization_code",
      .into (·.authorizationCode) (fun v c => { c with authorizationCode := v }) .string),
     ("code_verifier", .into (·.codeVerifier) (fun v c => { c with codeVerifier := v }) .string),
     ("code_challenge", .into (·.codeChallenge) (fun v c => { c with codeChallenge := v }) .string)]

/-- What a poll finds: the login is pending, or has a code and a verifier. -/
inductive Polled where
  | pending
  | code (authorizationCode codeVerifier : String)

/-- What `PollDeviceFlow` makes of an answer. -/
def readPoll (statusText : ℤ → String) (status : ℤ) (body : Text) : Except Bytes Polled :=
  if status = 403 ∨ status = 404 then .ok .pending
  else if ¬isSuccess status then
    .error (upstreamError statusText "device login polling" status body)
  else
    (TokenCode.decoder.unmarshal ⟨"", "", ""⟩ body).elim
      (.error (failure "decode device login response"))
      fun c =>
        if c.authorizationCode = "" ∨ c.codeVerifier = "" then
          .error (failure "device login response is incomplete")
        else .ok (.code c.authorizationCode c.codeVerifier)

namespace TokenSet

def zero : TokenSet := ⟨"", "", "", "", "", "", 0, 0, ""⟩

def decoder : Decoder TokenSet :=
  .struct
    [("access_token", .into (·.accessToken) (fun v t => { t with accessToken := v }) .string),
     ("refresh_token", .into (·.refreshToken) (fun v t => { t with refreshToken := v }) .string),
     ("id_token", .into (·.idToken) (fun v t => { t with idToken := v }) .string),
     ("account_id", .into (·.accountID) (fun v t => { t with accountID := v }) .string),
     ("email", .into (·.email) (fun v t => { t with email := v }) .string),
     ("plan_type", .into (·.planType) (fun v t => { t with planType := v }) .string),
     ("expires_in", .into (·.expiresIn) (fun v t => { t with expiresIn := v }) .int64),
     ("expires_at", .into (·.expiresAt) (fun v t => { t with expiresAt := v }) .int64),
     ("expired", .into (·.expired) (fun v t => { t with expired := v }) .string)]

end TokenSet

/-- What `exchangeCode` makes of an answer, `requestTokens`. -/
def readTokens (statusText : ℤ → String) (action : String) (status : ℤ) (body : Text) :
    Except Bytes TokenSet :=
  if ¬isSuccess status then .error (upstreamError statusText action status body)
  else
    (TokenSet.decoder.unmarshal .zero body).elim
      (.error (failure (action ++ ": decode response"))) .ok

/-- `parseImportedTokens`, less the texts of `encoding/json`. -/
def parseImportedTokens (raw : Text) : Except Bytes TokenSet :=
  (TokenSet.decoder.unmarshal .zero raw).elim (.error []) fun topLevel =>
    let nested : Decoder TokenSet := .struct [("tokens", TokenSet.decoder)]
    (nested.unmarshal .zero raw).elim (.error []) fun inner =>
      let tokens := if inner.accessToken = "" then topLevel else inner
      if tokens.accessToken = "" then
        .error (failure "auth.json does not contain an access_token")
      else if tokens.refreshToken = "" then
        .error (failure "auth.json does not contain a refresh_token")
      else .ok tokens

/-- `ImportAuthJSON` up to the new credential. -/
def readImport (p : Platform) (now : ℤ) (raw : Text) : Except Bytes Credential :=
  if raw = [] ∨ jsonValid raw = false then .error (failure "auth.json is not valid JSON")
  else parseImportedTokens raw >>= fun tokens =>
    (credentialFromTokens p tokens now).mapError failure

/-! ### Calls -/

structure DeviceStart where
  flowID : String
  userCode : String
  verificationURL : String
  expiresAt : ℤ
  pollInterval : ℤ
  deriving DecidableEq

def deviceVerificationURL : String := "https://auth.openai.com/codex/device"

def DeviceFlow.start (flow : DeviceFlow) (flowID : String) : DeviceStart :=
  ⟨flowID, flow.userCode, deviceVerificationURL, flow.expiresAt, flow.interval⟩

/-- What a call answers, a failure with its message. -/
inductive DeviceAnswer where
  | started (start : DeviceStart)
  | pending
  | complete
  | imported
  | invalidFlow
  | failed (message : Bytes)
  deriving DecidableEq

/-- Where a credential comes from. -/
inductive Source where
  | device (flowID : String)
  | imported
  deriving DecidableEq

/-- How far a call of `StartDeviceFlow`, `PollDeviceFlow` or `ImportAuthJSON` has come: what it does
next, with what it needs for it. -/
inductive DeviceCall where
  | put (flowID : String) (flow : DeviceFlow)
  | check (flowID : String) (flow : DeviceFlow)
  | deleteExpired (flowID : String)
  | send (flowID : String) (flow : DeviceFlow) (checkedAt : ℤ)
  | exchange (flowID authorizationCode codeVerifier : String)
  | replace (source : Source) (credential : Credential)
  | deleteUsed (flowID : String)
  | ended (answer : DeviceAnswer)
  deriving DecidableEq

def DeviceCall.fails (message : Bytes) : DeviceCall := .ended (.failed message)

/-- A flow that has been stored, and when. -/
structure StoredFlow where
  flowID : String
  flow : DeviceFlow
  time : ℤ

/-- What the authorization server was sent for a flow, and when the flow's expiry was checked. -/
structure SentPoll where
  flowID : String
  deviceAuthID : String
  userCode : String
  checkedAt : ℤ

/-- The other keys of the store: those of admin sessions and of browser logins. -/
inductive OtherKey where
  | admin (hash : String)
  | browser (flowID : String)

def OtherKey.key : OtherKey → String
  | admin hash => "admin:" ++ hash
  | browser flowID => "oauth-browser:" ++ flowID

/-- The store, the calls, and what they have done: the flows that have been stored, what the
authorization server was sent, the codes and verifiers it has answered with for a flow, what the
credential was replaced with, and the flows that have been deleted. -/
structure DeviceLogins (σ : Type) where
  clock : ℤ
  store : σ
  calls : List DeviceCall
  stored : List StoredFlow
  sent : List SentPoll
  codes : List (String × String × String)
  replaced : List (Source × Credential)
  deleted : List String

namespace DeviceLogins

/-- A step of a call or of its surroundings. A fault is the message of an error of the store. -/
inductive Event where
  | tick (now : ℤ)
  | putOther (key : OtherKey) (value : String) (ttl : ℤ)
  | getOther (key : OtherKey)
  | deleteOther (key : OtherKey)
  | start (reply : Reply) (random : {b : Bytes // b.length = 24})
  | put (c : ℕ)
  | poll (flowID : String) (fault : Option Bytes)
  | check (c : ℕ)
  | send (c : ℕ) (reply : Reply)
  | exchange (c : ℕ) (reply : Reply)
  | importAuth (raw : Text)
  | replace (c : ℕ) (fault : Option Bytes)
  | delete (c : ℕ)

variable {σ : Type} (store : SessionStore σ) (p : Platform) (statusText : ℤ → String)

def setCall (s : DeviceLogins σ) (c : ℕ) (call : DeviceCall) : DeviceLogins σ :=
  { s with calls := s.calls.set c call }

def addCall (s : DeviceLogins σ) (call : DeviceCall) : DeviceLogins σ :=
  { s with calls := s.calls ++ [call] }

/-- `StartDeviceFlow` up to the new flow. -/
def start (s : DeviceLogins σ) (flowID : String) (reply : Reply) : DeviceLogins σ :=
  match reply >>= fun r => readDeviceStart statusText s.clock r.1 r.2 with
  | .error message => s.addCall (.fails message)
  | .ok flow => s.addCall (.put flowID flow)

/-- `StartDeviceFlow` from the store on. -/
def put (s : DeviceLogins σ) (c : ℕ) (flowID : String) (flow : DeviceFlow) : DeviceLogins σ :=
  let (after, err) := store.put s.store s.clock (DeviceFlow.key flowID) flow.encoded deviceFlowTTL
  if err.isSome then
    { s.setCall c (.fails (failure ("store device flow: " ++ err.getD ""))) with store := after }
  else
    { s.setCall c (.ended (.started (flow.start flowID))) with
      store := after, stored := s.stored ++ [⟨flowID, flow, s.clock⟩] }

/-- The length of a flow id that `pollDeviceLogin` takes. -/
def ValidFlowID (flowID : String) : Prop := 16 ≤ flowID.utf8ByteSize ∧ flowID.utf8ByteSize ≤ 128

instance (flowID : String) : Decidable (ValidFlowID flowID) := inferInstanceAs (Decidable (_ ∧ _))

/-- What a call does next once it has read the store. -/
def readFlow (flowID : String) (value : Option String) : DeviceCall :=
  value.elim (.fails (failure "device login expired or was not found")) fun raw =>
    (DeviceFlow.decode raw).elim (.fails (failure "decode device flow")) (.check flowID)

/-- `pollDeviceLogin` and `PollDeviceFlow` up to the flow. -/
def poll (s : DeviceLogins σ) (flowID : String) (fault : Option Bytes) : DeviceLogins σ :=
  if ¬ValidFlowID flowID then s.addCall (.ended .invalidFlow)
  else if fault.isSome then s.addCall (.fails (fault.getD []))
  else
    let (after, value) := store.get s.store s.clock (DeviceFlow.key flowID)
    { s.addCall (readFlow flowID value) with store := after }

def check (s : DeviceLogins σ) (c : ℕ) (flowID : String) (flow : DeviceFlow) : DeviceLogins σ :=
  if flow.expiresAt ≤ toUnixMilli s.clock then s.setCall c (.deleteExpired flowID)
  else s.setCall c (.send flowID flow s.clock)

def send (s : DeviceLogins σ) (c : ℕ) (flowID : String) (flow : DeviceFlow) (checkedAt : ℤ)
    (reply : Reply) : DeviceLogins σ :=
  let asked : DeviceLogins σ := { s with
    sent := s.sent ++ [⟨flowID, flow.deviceAuthID, flow.userCode, checkedAt⟩] }
  match reply >>= fun r => readPoll statusText r.1 r.2 with
  | .error message => asked.setCall c (.fails message)
  | .ok .pending => asked.setCall c (.ended .pending)
  -- the code is used without another look at the store
  | .ok (.code code verifier) =>
    { asked.setCall c (.exchange flowID code verifier) with
      codes := s.codes ++ [(flowID, code, verifier)] }

/-- `exchangeCode` and `credentialFromTokens`. -/
def exchange (s : DeviceLogins σ) (c : ℕ) (flowID : String) (reply : Reply) : DeviceLogins σ :=
  let credential := reply >>= fun r =>
    readTokens statusText "exchange Codex authorization code" r.1 r.2 >>= fun tokens =>
      (credentialFromTokens p tokens s.clock).mapError failure
  match credential with
  | .error message => s.setCall c (.fails message)
  | .ok credential => s.setCall c (.replace (.device flowID) credential)

/-- `ImportAuthJSON` up to the new credential. -/
def importAuth (s : DeviceLogins σ) (raw : Text) : DeviceLogins σ :=
  match readImport p s.clock raw with
  | .error message => s.addCall (.fails message)
  | .ok credential => s.addCall (.replace .imported credential)

/-- What a call does next once the credential has been replaced. -/
def afterwards : Source → DeviceCall
  | .device flowID => .deleteUsed flowID
  | .imported => .ended .imported

/-- `replaceCredential`. -/
def replace (s : DeviceLogins σ) (c : ℕ) (source : Source) (credential : Credential)
    (fault : Option Bytes) : DeviceLogins σ :=
  if fault.isSome then s.setCall c (.fails (fault.getD []))
  else { s.setCall c (afterwards source) with replaced := s.replaced ++ [(source, credential)] }

def delete (s : DeviceLogins σ) (c : ℕ) (flowID : String) (call : DeviceCall) : DeviceLogins σ :=
  { s.setCall c call with
    store := store.delete s.store (DeviceFlow.key flowID), deleted := s.deleted ++ [flowID] }

def step (s : DeviceLogins σ) : Event → Option (DeviceLogins σ)
  | .tick now => if s.clock ≤ now then some { s with clock := now } else none
  | .putOther key value ttl =>
    some { s with store := (store.put s.store s.clock key.key value ttl).1 }
  | .getOther key => some { s with store := (store.get s.store s.clock key.key).1 }
  | .deleteOther key => some { s with store := store.delete s.store key.key }
  | .start reply random => some (s.start statusText (randomToken random.1) reply)
  | .put c =>
    match s.calls[c]? with
    | some (.put flowID flow) => some (s.put store c flowID flow)
    | _ => none
  | .poll flowID fault => some (s.poll store flowID fault)
  | .check c =>
    match s.calls[c]? with
    | some (.check flowID flow) => some (s.check c flowID flow)
    | _ => none
  | .send c reply =>
    match s.calls[c]? with
    | some (.send flowID flow checkedAt) =>
      some (s.send statusText c flowID flow checkedAt reply)
    | _ => none
  | .exchange c reply =>
    match s.calls[c]? with
    | some (.exchange flowID _ _) => some (s.exchange p statusText c flowID reply)
    | _ => none
  | .importAuth raw => some (s.importAuth p raw)
  | .replace c fault =>
    match s.calls[c]? with
    | some (.replace source credential) => some (s.replace c source credential fault)
    | _ => none
  | .delete c =>
    match s.calls[c]? with
    | some (.deleteExpired flowID) =>
      some (s.delete store c flowID (.fails (failure "device login expired")))
    | some (.deleteUsed flowID) => some (s.delete store c flowID (.ended .complete))
    | _ => none

def system (now : ℤ) : TransitionSystem (DeviceLogins σ) Event where
  start := { clock := now, store := store.new, calls := [], stored := [], sent := [], codes := []
             replaced := [], deleted := [] }
  step := step store p statusText

end DeviceLogins

end CodexOne.Codex
