import CodexOne.Compat
import CodexOne.Merge
import CodexOne.Normalize

/-!
The conversation of one WebSocket connection, `internal/proxy/websocket_state.go`.

`prepare` turns a client message into the plan of a turn without touching the conversation, but
for the identity, which it shares with the plan. `commit` takes a plan and the terminal event of
its response and moves the conversation on.
-/

namespace CodexOne

open GoStrings Members

/-- `webSocketConversation`. -/
structure Conversation where
  identity : Option Identity
  model : String
  instructions : Option Raw
  turnSettings : List (String × Raw)
  history : List Raw
  lastResponseID : String
  lastGeneration : ℕ
  pendingCallIDs : List String
  hasCompleted : Bool
  maxReplayBytes : ℤ

def Conversation.initial (maxReplayBytes : ℤ) : Conversation :=
  { identity := none, model := "", instructions := none, turnSettings := [], history := [],
    lastResponseID := "", lastGeneration := 0, pendingCallIDs := [], hasCompleted := false,
    maxReplayBytes }

/-- `webSocketTurnPlan`; `incremental` and `replay` are the bodies before they are encoded. -/
structure Plan where
  model : String
  incremental : Obj
  replay : Obj
  currentInput : List Raw
  reset : Bool
  continuation : Bool
  identity : Identity
  turnSettings : List (String × Raw)
  instructionsSet : Bool

def webSocketInputLooksLikeTranscript (value : Json) : Bool :=
  value.items.any fun raw =>
    let kind := jsonString (Obj.val raw.members "type")
    kind = "function_call" || kind = "custom_tool_call" || kind = "compaction" ||
      kind = "compaction_trigger" ||
      (kind = "message" && jsonString (Obj.val raw.members "role") = "assistant")

/-- The call ids that the outputs among the items answer. -/
def answeredCallIDs (items : List Json) : List String :=
  (items.filter fun raw => (ItemMetadata.ofObj raw.members).isCallOutput).map
    fun raw => (ItemMetadata.ofObj raw.members).callID

def webSocketInputSatisfiesCalls (value : Json) (pending : List String) : Bool :=
  match pending, value with
  | [], _ => true
  | _, .arr items => pending.all (answeredCallIDs items).contains
  | _, _ => false

/-- The loop of `pendingWebSocketCallIDs`. -/
def pendingCalls : (items : List Raw) → (seen : List String) → List String
  | [], _ => []
  | raw :: rest, seen =>
    let item := ItemMetadata.ofRaw raw
    if item.isToolCall ∧ item.callID ∉ seen then
      item.callID :: pendingCalls rest (item.callID :: seen)
    else pendingCalls rest seen

def pendingWebSocketCallIDs (items : List Raw) : List String := pendingCalls items []

/-- What `json.Unmarshal` says about a value that is no array. -/
def notAnArray : Json → String
  | .bool _ => "bool"
  | .num _ => "number"
  | .str _ => "string"
  | _ => "object"

def rawMessageArray (value : Json) : Except String (List Raw) :=
  match value with
  | .arr items => .ok (items.map Raw.ofJson)
  | .null => .ok []
  | v => .error ("json: cannot unmarshal " ++ notAnArray v ++
      " into Go value of type []json.RawMessage")

def rawMessagesAsAny (items : List Raw) : List Json := items.filterMap Raw.unmarshal

def webSocketContinuationFields : List String := ["tools", "tool_choice", "parallel_tool_calls"]

def webSocketTurnSettings (object : Obj) : List (String × Raw) :=
  webSocketContinuationFields.filterMap fun name =>
    (get object name).map fun value => (name, Raw.ofJson value)

/-- One step of the loop of `prepare` over the continuation fields. -/
def carrySetting (turnSettings : List (String × Raw)) (object : Obj) (name : String) : Obj :=
  if has object name then object
  else
    match (get turnSettings name).bind Raw.unmarshal with
    | some value => set object name value
    | none => object

def carryInstructions (instructions : Option Raw) (object : Obj) : Obj :=
  if has object "instructions" then object
  else
    match instructions.bind Raw.unmarshal with
    | some value => set object "instructions" value
    | none => object

namespace Conversation

def defaultWebSocketReplayBytes : ℤ := 32 * 1024 * 1024

def replayLimit (c : Conversation) : ℤ :=
  if c.maxReplayBytes > 0 then c.maxReplayBytes else defaultWebSocketReplayBytes

def replayLimitError (c : Conversation) : String :=
  "conversation replay exceeds " ++ toString (c.replayLimit / 2 ^ 20) ++
    " MiB; send a compact response.create transcript"

/-- A replay body that is larger than the limit. -/
def overLimit (c : Conversation) (replay : Obj) : Prop :=
  ((marshal (.obj replay)).byteLen : ℤ) > c.replayLimit

instance (c : Conversation) (replay : Obj) : Decidable (c.overLimit replay) :=
  inferInstanceAs (Decidable (_ > _))

/-! ### `prepare` -/

/-- What the first half of `prepare` finds out about a message: the normalized body and how the
turn relates to the conversation. -/
structure Turn where
  body : Obj
  model : String
  reset : Bool
  continuation : Bool
  instructionsSet : Bool

/-- The checks that `prepare` makes on the type of a message and its input. -/
def checkType (c : Conversation) (object : Obj) : Except String Unit :=
  let requestType := jsonString (Obj.val object "type")
  if requestType ≠ "response.create" ∧ requestType ≠ "response.append" then
    .error ("unsupported WebSocket request type " ++ quote requestType)
  else if requestType = "response.append" ∧ c.hasCompleted = false then
    .error "response.append requires a completed response on this connection"
  else if has object "input" = false then .error "input is required"
  else if requestType = "response.append" then
    match get object "input" with
    | some (.arr _) => .ok ()
    | _ => .error "response.append requires an input array"
  else .ok ()

def inputLooksComplete (object : Obj) : Bool :=
  jsonString (Obj.val object "type") = "response.create" &&
    webSocketInputLooksLikeTranscript (Obj.val object "input")

/-- The message goes on from the last response. -/
def isContinuation (object : Obj) : Bool :=
  (jsonString (Obj.val object "type") = "response.append" ||
    jsonString (Obj.val object "previous_response_id") ≠ "") && !inputLooksComplete object

/-- The checks that `prepare` makes on the place of a message in the conversation. -/
def checkContinuation (c : Conversation) (object : Obj) : Except String Unit :=
  let previousResponseID := jsonString (Obj.val object "previous_response_id")
  if c.hasCompleted = false ∧ previousResponseID ≠ "" then
    .error "previous_response_id is not available on this WebSocket"
  else if isContinuation object ∧ previousResponseID ≠ "" ∧
      previousResponseID ≠ c.lastResponseID then
    .error "previous_response_id does not match the last response on this WebSocket"
  else if isContinuation object ∧
      webSocketInputSatisfiesCalls (Obj.val object "input") c.pendingCallIDs = false then
    .error "input is missing one or more required tool outputs"
  else .ok ()

def turnModel (c : Conversation) (object : Obj) : String :=
  let model := jsonString (Obj.val object "model")
  if model = "" then c.model else model

/-- The response that a continuation without one goes on from. -/
def carryResponse (c : Conversation) (previousResponseID : String) (object : Obj) : Obj :=
  if previousResponseID = "" then set object "previous_response_id" (.str c.lastResponseID)
  else object

/-- What `prepare` adds to the body of a continuation. -/
def carry (c : Conversation) (previousResponseID : String) (object : Obj) : Obj :=
  webSocketContinuationFields.foldl (carrySetting c.turnSettings)
    (c.carryResponse previousResponseID (carryInstructions c.instructions object))

/-- The message with the model of its turn, and without the response it names when its input is
complete. -/
def modelBody (c : Conversation) (object : Obj) : Obj :=
  set (if inputLooksComplete object then erase object "previous_response_id" else object)
    "model" (.str (c.turnModel object))

/-- The body that `prepare` hands to the normalization. -/
def requestBody (c : Conversation) (object : Obj) : Obj :=
  set (if isContinuation object then
      c.carry (jsonString (Obj.val object "previous_response_id")) (c.modelBody object)
    else c.modelBody object) "type" (.str "response.create")

/-- `prepare` from the decoded message up to the normalization. -/
def readObject (c : Conversation) (object : Obj) : Except String Turn := do
  c.checkType object
  c.checkContinuation object
  if c.turnModel object = "" then
    .error "model is required in the first response.create request"
  else
    let (body, _, _) ← Normalize.normalizeResponsesRequest (c.requestBody object)
    .ok { body
          model := c.turnModel object
          reset := !isContinuation object
          continuation := isContinuation object
          instructionsSet := has object "instructions" }

/-- `prepare` up to the normalization. -/
def readTurn (c : Conversation) (raw : Text) : Except String Turn :=
  if jsonValid raw = false then .error "WebSocket request must contain valid JSON"
  else
    match decodeObject raw with
    | none => .error "request body must be a JSON object"
    | some object => c.readObject object

variable (d : Digests)

def replayObject (normalized : Obj) (items : List Raw) : Obj :=
  set (erase (set normalized "input" (.arr (rawMessagesAsAny items))) "previous_response_id")
    "type" (.str "response.create")

def replayItems (c : Conversation) (turn : Turn) (currentInput : List Raw) : List Raw :=
  if turn.reset then currentInput else mergeWebSocketItems [c.history, currentInput]

/-- The last part of `prepare`: from the finished body to the plan, which holds on to the
identity. -/
def assemble (c : Conversation) (turn : Turn) (turnSettings : List (String × Raw))
    (normalized : Obj) : Except String (Identity → Plan) :=
  let incremental := set normalized "type" (.str "response.create")
  match rawMessageArray (Obj.val incremental "input") with
  | .error e => .error ("decode normalized input: " ++ e)
  | .ok currentInput =>
    let replay := replayObject incremental (c.replayItems turn currentInput)
    if c.overLimit replay then .error c.replayLimitError
    else .ok fun identity =>
      { model := turn.model, incremental, replay, currentInput, reset := turn.reset
        continuation := turn.continuation, identity, turnSettings
        instructionsSet := turn.instructionsSet }

/-- The second half of `prepare`, which works on the identity. -/
def planTurn (fuel : ℕ) (c : Conversation) (headers : Header) (planType : String) (turn : Turn)
    (fixed : Bool) : IdentityM (Identity → Plan) := do
  let normalized ← Identity.prepareBody d turn.body fixed
  let turnSettings := webSocketTurnSettings normalized
  let normalized ← Compat.prepareCodexWebSocketBody d fuel normalized turn.model planType headers
  match c.assemble turn turnSettings normalized with
  | .ok plan => pure plan
  | .error e => IdentityM.fail e

/-- `prepare`: the plan or the error, and the conversation, whose identity may have changed. -/
def prepare (fuel : ℕ) (c : Conversation) (r : Request) (raw : Text) (remap : Bool)
    (planType : String) : Except String Plan × Conversation :=
  match c.readTurn raw with
  | .error e => (.error e, c)
  | .ok turn =>
    match c.identity with
    -- the identity is shared: what planning adds to it stays when the turn fails
    | some identity =>
      let (result, identity) := (planTurn d fuel c r.headers planType turn true).run identity
      (result.map (· identity), { c with identity := some identity })
    -- a first turn has an identity of its own, which only a commit keeps
    | none =>
      match Identity.new d r.keyID r.headers turn.body remap with
      | .error e => (.error e, c)
      | .ok identity =>
        let (result, identity) := (planTurn d fuel c r.headers planType turn false).run identity
        (result.map (· identity), c)

def bodyFor (c : Conversation) (plan : Plan) (generation : ℕ) (httpFallback : Bool) : Obj :=
  if httpFallback = false ∧ plan.continuation ∧ generation ≠ 0 ∧ generation = c.lastGeneration then
    plan.incremental
  else plan.replay

def identityFor (c : Conversation) (plan : Plan) : Identity := c.identity.getD plan.identity

/-! ### `commit` -/

/-- The terminal event of a response, as `commit` decodes it. -/
structure Terminal where
  type : String
  id : String
  output : List Raw
  instructions : Option Raw

def Terminal.decoder : Decoder Terminal :=
  Decoder.struct
    [("type", Decoder.into (·.type) (fun v e => { e with type := v }) Decoder.string),
      ("response", Decoder.struct
        [("id", Decoder.into (·.id) (fun v e => { e with id := v }) Decoder.string),
          ("output", Decoder.into (·.output) (fun v e => { e with output := v })
            Decoder.rawArray),
          ("instructions", Decoder.into (·.instructions)
            (fun v e => { e with instructions := v }) Decoder.raw)])]

def Terminal.decode (payload : Text) : Option Terminal :=
  Decoder.unmarshal Terminal.decoder
    { type := "", id := "", output := [], instructions := none } payload

def nextHistory (c : Conversation) (plan : Plan) (output : List Raw) : List Raw :=
  let history := if plan.reset then plan.currentInput
    else mergeWebSocketItems [c.history, plan.currentInput]
  mergeWebSocketItems [history, output]

/-- A text that is not blank, or no text at all. -/
def speaks (value : Json) : Bool :=
  match value with
  | .str text => trimSpace text ≠ ""
  | _ => true

/-- The instructions of the conversation after a turn. -/
def nextInstructions (c : Conversation) (plan : Plan) (echoed : Option Raw) : Option Raw :=
  if plan.instructionsSet then
    let raw := Obj.val plan.incremental "instructions"
    if speaks raw then some (Raw.ofJson raw) else none
  else if plan.reset then
    match echoed.bind Raw.unmarshal with
    | some value => if speaks value then echoed else none
    | none => none
  else c.instructions

def nextSettings (c : Conversation) (plan : Plan) : List (String × Raw) :=
  plan.turnSettings.foldl (fun settings s => set settings s.1 s.2)
    (if plan.reset then [] else c.turnSettings)

/-- The conversation after a turn that is committed. -/
def committed (c : Conversation) (plan : Plan) (event : Terminal) (generation : ℕ) :
    Conversation :=
  { c with
    history := c.nextHistory plan event.output
    identity := some plan.identity
    model := plan.model
    lastResponseID := trimSpace event.id
    lastGeneration := generation
    pendingCallIDs := pendingWebSocketCallIDs event.output
    hasCompleted := true
    turnSettings := c.nextSettings plan
    instructions := c.nextInstructions plan event.instructions }

/-- The replay body that `commit` measures. -/
def replayAfter (c : Conversation) (plan : Plan) (event : Terminal) : Obj :=
  set plan.replay "input" (.arr (rawMessagesAsAny (c.nextHistory plan event.output)))

/-- `commit`; the conversation is as before when it fails. -/
def commit (c : Conversation) (plan : Plan) (terminal : Text) (generation : ℕ) :
    Except String Conversation :=
  match Terminal.decode terminal with
  | none => .error "decode terminal WebSocket response"
  | some event =>
    if trimSpace event.id = "" then .error "terminal WebSocket response is missing response.id"
    else if c.overLimit (c.replayAfter plan event) then .error c.replayLimitError
    else .ok (c.committed plan event generation)

/-- The terminal events that can be committed. -/
def Accepts (c : Conversation) (plan : Plan) (terminal : Text) (event : Terminal) : Prop :=
  Terminal.decode terminal = some event ∧ trimSpace event.id ≠ "" ∧
    ¬c.overLimit (c.replayAfter plan event)

lemma commit_ok_iff {c n : Conversation} {plan : Plan} {terminal : Text} {generation : ℕ} :
    c.commit plan terminal generation = .ok n ↔
      ∃ event, c.Accepts plan terminal event ∧ n = c.committed plan event generation := by
  unfold commit Accepts
  cases Terminal.decode terminal with
  | none => simp
  | some event =>
    dsimp only
    split_ifs with h1 h2
    · simp [h1]
    · simp [h2]
    · constructor
      · intro h
        exact ⟨event, ⟨rfl, h1, h2⟩, (Except.ok.inj h).symm⟩
      · rintro ⟨e, ⟨he, -, -⟩, rfl⟩
        cases he
        rfl

end Conversation

end CodexOne
