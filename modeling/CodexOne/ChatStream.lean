import CodexOne.Chat
import CodexOne.ResponseStream

/-!
The answers of Chat Completions: `convertChatResponse`, which turns a whole response into one
completion, and `translateChatEvent`, which turns its events into chunks, of
`internal/proxy/chat.go`.
-/

namespace CodexOne.Chat

open GoStrings SSE ResponseStream

/-- The sum of two `int64`. -/
def addInt64 (a b : Int) : Int := (a + b).bmod (2 ^ 64)

structure ChatUsage where
  promptTokens : Int
  completionTokens : Int
  totalTokens : Int
  reasoningTokens : Option Int
  deriving DecidableEq

def number (i : Int) : Json := .num (.ofInt i)

def ChatUsage.json (u : ChatUsage) : Json :=
  .obj (("completion_tokens", number u.completionTokens) ::
    (match u.reasoningTokens with
      | some n => [("completion_tokens_details", .obj [("reasoning_tokens", number n)])]
      | none => []) ++
    [("prompt_tokens", number u.promptTokens), ("total_tokens", number u.totalTokens)])

/-- The struct that a completed response is decoded into. -/
structure CompletedResponse where
  id : String
  model : String
  createdAt : Int
  output : List Raw
  inputTokens : Int
  outputTokens : Int
  totalTokens : Int
  reasoningTokens : Option Int

def CompletedResponse.zero : CompletedResponse := ⟨"", "", 0, [], 0, 0, 0, none⟩

def CompletedResponse.decoder : Decoder CompletedResponse :=
  .struct
    [("id", .into (·.id) (fun v r => { r with id := v }) .string),
     ("model", .into (·.model) (fun v r => { r with model := v }) .string),
     ("created_at", .into (·.createdAt) (fun v r => { r with createdAt := v }) .int64),
     ("output", .into (·.output) (fun v r => { r with output := v }) .rawArray),
     ("usage", .struct
      [("input_tokens", .into (·.inputTokens) (fun v r => { r with inputTokens := v }) .int64),
       ("output_tokens", .into (·.outputTokens) (fun v r => { r with outputTokens := v }) .int64),
       ("total_tokens", .into (·.totalTokens) (fun v r => { r with totalTokens := v }) .int64),
       ("output_tokens_details", .struct
        [("reasoning_tokens",
          .into (·.reasoningTokens) (fun v r => { r with reasoningTokens := v }) .int64Ptr)])])]

/-- `json.Unmarshal` of a response. -/
def CompletedResponse.decode (raw : Raw) : Option CompletedResponse :=
  if (decoder raw zero).2 then some (decoder raw zero).1 else none

/-- A tool call of a completion; the item may hold anything. -/
structure ToolCall where
  id : Json
  name : Json
  arguments : Json
  deriving DecidableEq

def ToolCall.json (c : ToolCall) : Json :=
  .obj [("function", .obj [("arguments", c.arguments), ("name", c.name)]), ("id", c.id),
    ("type", .str "function")]

structure Completion where
  id : String
  model : String
  created : Int
  content : String
  reasoning : Option String
  toolCalls : List ToolCall
  finishReason : String
  usage : ChatUsage
  deriving DecidableEq

def Completion.message (c : Completion) : Json :=
  .obj (("content", .str c.content) ::
    (match c.reasoning with
      | some text => [("reasoning_content", .str text)]
      | none => []) ++
    ("role", .str "assistant") ::
    (if c.toolCalls = [] then [] else [("tool_calls", .arr (c.toolCalls.map ToolCall.json))]))

def Completion.json (c : Completion) : Json :=
  .obj [("choices", .arr [.obj [("finish_reason", .str c.finishReason), ("index", number 0),
      ("message", c.message)]]), ("created", number c.created), ("id", .str c.id),
    ("model", .str c.model), ("object", .str "chat.completion"), ("usage", c.usage.json)]

/-- The texts of the parts of one type; with no type asked for, of all parts. -/
def partTexts (kind : Option String) (parts : Json) : List String :=
  (parts.items.filterMap fun part =>
    if kind.all fun kind => Obj.val part.members "type" = .str kind then
      some (Obj.val part.members "text").text
    else none).filter (· ≠ "")

def reasoningParts (item : Obj) : List String :=
  if Obj.val item "type" = .str "reasoning" then
    partTexts (some "summary_text") (Obj.val item "summary") ++
      partTexts (some "reasoning_text") (Obj.val item "content")
  else []

def textParts (item : Obj) : List String :=
  if Obj.val item "type" = .str "message" then
    match Obj.val item "content" with
    | .str content => [content].filter (· ≠ "")
    | content => partTexts none content
  else []

def toolCalls (item : Obj) : List ToolCall :=
  if Obj.val item "type" = .str "function_call" then
    [⟨Obj.val item "call_id", Obj.val item "name", Obj.val item "arguments"⟩]
  else []

/-- `convertChatResponse` once the response is decoded. -/
def convertCompleted (now : Int) (response : CompletedResponse) : Completion :=
  let items := response.output.filterMap Raw.unmarshalObject
  let reasoning := items.flatMap reasoningParts
  let calls := items.flatMap toolCalls
  { id := response.id
    model := response.model
    created := if response.createdAt = 0 then now else response.createdAt
    content := join (items.flatMap textParts) ""
    reasoning := if reasoning = [] then none else some (join reasoning "")
    toolCalls := calls
    finishReason := if calls = [] then "stop" else "tool_calls"
    usage :=
      { promptTokens := response.inputTokens
        completionTokens := response.outputTokens
        totalTokens := response.totalTokens
        reasoningTokens := response.reasoningTokens } }

/-- `convertChatResponse`, which fails on a response with a field of the wrong type. -/
def convertChatResponse (now : Int) (raw : Raw) : Option Completion :=
  (CompletedResponse.decode raw).map (convertCompleted now)

/-- What all chunks of a stream begin with. -/
structure ChunkHead where
  id : String
  model : String
  created : Int
  deriving DecidableEq

inductive Delta where
  | role
  | reasoning (text : String)
  | content (text : String)
  | toolCall (index : ℕ) (callID name : String)
  | arguments (index : ℕ) (text : String)
  | empty
  deriving DecidableEq

def Delta.json : Delta → Json
  | role => .obj [("content", .str ""), ("role", .str "assistant")]
  | reasoning text => .obj [("reasoning_content", .str text)]
  | content text => .obj [("content", .str text)]
  | toolCall index callID name =>
    .obj [("tool_calls", .arr [.obj [("function", .obj [("arguments", .str ""),
      ("name", .str name)]), ("id", .str callID), ("index", number index),
      ("type", .str "function")]])]
  | arguments index text =>
    .obj [("tool_calls", .arr [.obj [("function", .obj [("arguments", .str text)]),
      ("index", number index)]])]
  | empty => .obj []

/-- What is written in one go: a chunk, the chunk with the usage, an error, or the end marker. -/
inductive Frame where
  | chunk (head : ChunkHead) (delta : Delta) (finish : Option String)
  | usage (head : ChunkHead) (usage : ChatUsage)
  | error (message : String)
  | done
  deriving DecidableEq

def ChunkHead.json (head : ChunkHead) (choices : List Json) (usage : Obj) : Json :=
  .obj ([("choices", .arr choices), ("created", number head.created), ("id", .str head.id),
    ("model", .str head.model), ("object", .str "chat.completion.chunk")] ++ usage)

/-- `writeChatData` and `writeChatDone`. -/
def Frame.render : Frame → Text
  | chunk head delta finish => dataLine (head.json [.obj [("delta", delta.json),
      ("finish_reason", (finish.map JsonOf.str).getD .null), ("index", number 0)]] [])
  | usage head u => dataLine (head.json [] [("usage", u.json)])
  | error message => dataLine (.obj [("error", .obj [("message", .str message),
      ("type", .str "upstream_error")])])
  | done => "data: [DONE]\n\n".toList
where
  dataLine (value : Json) : Text := "data: ".toList ++ marshal value ++ "\n\n".toList

/-! ### `translateChatEvent` -/

structure ChatEvent where
  type : String
  delta : String
  outputIndex : Int
  response : Option Raw
  itemType : String
  itemCallID : String
  itemName : String
  itemArguments : String
  errorMessage : String

def ChatEvent.zero : ChatEvent := ⟨"", "", 0, none, "", "", "", "", ""⟩

def ChatEvent.decoder : Decoder ChatEvent :=
  .struct
    [("type", .into (·.type) (fun v e => { e with type := v }) .string),
     ("delta", .into (·.delta) (fun v e => { e with delta := v }) .string),
     ("output_index", .into (·.outputIndex) (fun v e => { e with outputIndex := v }) .int64),
     ("response", .into (·.response) (fun v e => { e with response := v }) .raw),
     ("item", .struct
      [("type", .into (·.itemType) (fun v e => { e with itemType := v }) .string),
       ("call_id", .into (·.itemCallID) (fun v e => { e with itemCallID := v }) .string),
       ("name", .into (·.itemName) (fun v e => { e with itemName := v }) .string),
       ("arguments", .into (·.itemArguments) (fun v e => { e with itemArguments := v })
         .string)]),
     ("error", .struct
      [("message", .into (·.errorMessage) (fun v e => { e with errorMessage := v }) .string)])]

def ChatEvent.decode (payload : Text) : Option ChatEvent := decoder.unmarshal zero payload

/-- The cases of the switch over the type of an event. -/
inductive EventKind where
  | created
  | reasoningDelta
  | textDelta
  | itemAdded
  | argumentsDelta
  | completion
  | failure
  | other
  deriving DecidableEq

def EventKind.of (type : String) : EventKind :=
  if type = "response.created" then created
  else if type = "response.reasoning_summary_text.delta" ∨ type = "response.reasoning_text.delta"
    then reasoningDelta
  else if type = "response.output_text.delta" then textDelta
  else if type = "response.output_item.added" then itemAdded
  else if type = "response.function_call_arguments.delta" then argumentsDelta
  else if isCompletion type then completion
  else if isFailure type then failure
  else other

def ChatEvent.kind (e : ChatEvent) : EventKind := .of e.type

/-- What `translateChatEvent` decodes the response of an event into. -/
structure ResponseMetadata where
  id : String
  model : String
  createdAt : Int

def ResponseMetadata.decoder : Decoder ResponseMetadata :=
  .struct
    [("id", .into (·.id) (fun v m => { m with id := v }) .string),
     ("model", .into (·.model) (fun v m => { m with model := v }) .string),
     ("created_at", .into (·.createdAt) (fun v m => { m with createdAt := v }) .int64)]

/-- `json.Unmarshal` with the error ignored. -/
def ResponseMetadata.decode (response : Raw) : ResponseMetadata :=
  (decoder response ⟨"", "", 0⟩).1

def responseFailureMessage (topLevel : String) (response : Option Raw) : String :=
  if trimSpace topLevel ≠ "" then trimSpace topLevel
  else
    let nested := response.bind fun response =>
      let decoded := Decoder.struct [("error", .struct [("message", .string)])] response ""
      if decoded.2 ∧ trimSpace decoded.1 ≠ "" then some (trimSpace decoded.1) else none
    nested.getD "upstream response failed"

/-- `chatStreamState`; the map of the tools as the list of its writes, the last one first. -/
structure ChatStreamState where
  id : String
  model : String
  created : Int
  roleSent : Bool
  terminalSent : Bool
  tools : List (Int × ℕ)
  nextTool : ℕ
  usage : TokenUsage

namespace ChatStreamState

def start (fallbackModel : String) (now : Int) : ChatStreamState :=
  ⟨"", fallbackModel, now, false, false, [], 0, .zero⟩

def head (s : ChatStreamState) : ChunkHead := ⟨s.id, s.model, s.created⟩

/-- What the response of an event changes. -/
def observe (s : ChatStreamState) (response : Option Raw) : ChatStreamState :=
  match response with
  | none => s
  | some response =>
    let metadata := ResponseMetadata.decode response
    { s with
      id := if metadata.id ≠ "" then metadata.id else s.id
      model := if metadata.model ≠ "" then metadata.model else s.model
      created := if metadata.createdAt ≠ 0 then metadata.createdAt else s.created
      usage := parseResponseUsage (some response) s.usage }

def ensureRole (s : ChatStreamState) : List Frame × ChatStreamState :=
  if s.roleSent then ([], s)
  else ([.chunk s.head .role none], { s with roleSent := true })

def sendAfterRole (s : ChatStreamState) (delta : Delta) : List Frame × ChatStreamState :=
  (s.ensureRole.1 ++ [.chunk s.head delta none], s.ensureRole.2)

def chatUsage (s : ChatStreamState) : ChatUsage where
  promptTokens := s.usage.inputTokens
  completionTokens := s.usage.outputTokens
  totalTokens := addInt64 s.usage.inputTokens s.usage.outputTokens
  reasoningTokens := if s.usage.hasReasoningTokens then some s.usage.reasoningTokens else none

/-- Give a tool call the next index. -/
def addTool (s : ChatStreamState) (outputIndex : Int) : ChatStreamState :=
  { s with tools := (outputIndex, s.nextTool) :: s.tools, nextTool := s.nextTool + 1 }

end ChatStreamState

/-- `translateChatEvent` on a decoded event: what it writes, and the state after it. -/
def translate (includeUsage : Bool) (e : ChatEvent) (s : ChatStreamState) :
    List Frame × ChatStreamState :=
  let s := s.observe e.response
  match e.kind with
  | .created => s.ensureRole
  | .reasoningDelta => if e.delta = "" then ([], s) else s.sendAfterRole (.reasoning e.delta)
  | .textDelta => s.sendAfterRole (.content e.delta)
  | .itemAdded =>
    if e.itemType ≠ "function_call" then ([], s)
    else
      let sent := s.sendAfterRole (.toolCall s.nextTool e.itemCallID e.itemName)
      (sent.1, sent.2.addTool e.outputIndex)
  | .argumentsDelta =>
    match s.tools.lookup e.outputIndex with
    | some index => ([.chunk s.head (.arguments index e.delta) none], s)
    -- arguments of a call that was not announced open one of their own
    | none =>
      ([.chunk s.head (.arguments s.nextTool e.delta) none], s.addTool e.outputIndex)
  | .completion =>
    let finish := if s.tools = [] then "stop" else "tool_calls"
    let usage := if includeUsage then [Frame.usage s.head s.chatUsage] else []
    (s.ensureRole.1 ++ .chunk s.head .empty (some finish) :: usage ++ [.done],
      { s.ensureRole.2 with terminalSent := true })
  | .failure =>
    ([.error (responseFailureMessage e.errorMessage e.response), .done],
      { s with terminalSent := true })
  | .other => ([], s)

/-- `translateChatEvent`, which skips a payload that does not decode. -/
def translateChatEvent (includeUsage : Bool) (payload : Text) (s : ChatStreamState) :
    List Frame × ChatStreamState :=
  match ChatEvent.decode payload with
  | some e => translate includeUsage e s
  | none => ([], s)

/-- The events one after another. -/
def translateAll (includeUsage : Bool) : List Text → ChatStreamState →
    List Frame × ChatStreamState
  | [], s => ([], s)
  | payload :: rest, s =>
    let first := translateChatEvent includeUsage payload s
    let others := translateAll includeUsage rest first.2
    (first.1 ++ others.1, others.2)

/-- What `streamChatResponse` writes for a stream that ends in EOF, to a client that takes every
write. -/
def streamChatFrames (expose : Text → Text) (fallbackModel : String) (now : Int)
    (includeUsage : Bool) (stream : Text) : List Frame :=
  let translated := translateAll includeUsage (payloads expose stream) (.start fallbackModel now)
  translated.1 ++ if translated.2.terminalSent then [] else [.done]

def streamChatResponse (expose : Text → Text) (fallbackModel : String) (now : Int)
    (includeUsage : Bool) (stream : Text) : Delivered where
  status := 200
  usage := (translateAll includeUsage (payloads expose stream) (.start fallbackModel now)).2.usage
  body := ((streamChatFrames expose fallbackModel now includeUsage stream).map Frame.render).flatten

/-- The status that `ChatCompletions` records for a stream delivered under a 2xx status. -/
def chatCompletionsStatus (expose : Text → Text) (model : String) (now : Int)
    (includeUsage stream : Bool) (upstream : Text) : Int :=
  if stream then (streamChatResponse expose model now includeUsage upstream).status
  else
    collectedStatus (fun final => if (convertChatResponse now final).isSome then 200 else 502)
      (collectResponse expose upstream).1

end CodexOne.Chat
