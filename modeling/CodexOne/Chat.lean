import CodexOne.Lib.JsonStruct
import CodexOne.Normalize

/-!
Chat Completions requests, `convertChatRequest` of `internal/proxy/chat.go`.
-/

namespace CodexOne.Chat

open GoStrings Members

/-- The struct that `convertChatRequest` decodes a request into. -/
structure ChatRequest where
  model : String
  messages : List Obj
  tools : List (Option Obj)
  toolChoice : Json
  stream : Bool
  streamOptions : Obj
  parallelToolCalls : Option Bool
  reasoningEffort : String
  effort : String
  promptCacheKey : String

def ChatRequest.decoder : Decoder ChatRequest :=
  Decoder.struct
    [("model", .into (·.model) (fun v r => { r with model := v }) .string),
      ("messages", .into (·.messages) (fun v r => { r with messages := v })
        (.array .map [])),
      ("tools", .into (·.tools) (fun v r => { r with tools := v }) (.array .mapOrNil none)),
      ("tool_choice", .into (·.toolChoice) (fun v r => { r with toolChoice := v }) .any),
      ("stream", .into (·.stream) (fun v r => { r with stream := v }) .bool),
      ("stream_options", .into (·.streamOptions) (fun v r => { r with streamOptions := v }) .map),
      ("parallel_tool_calls",
        .into (·.parallelToolCalls) (fun v r => { r with parallelToolCalls := v }) .boolPtr),
      ("reasoning_effort",
        .into (·.reasoningEffort) (fun v r => { r with reasoningEffort := v }) .string),
      ("reasoning", .struct [("effort", .into (·.effort) (fun v r => { r with effort := v })
        .string)]),
      ("prompt_cache_key",
        .into (·.promptCacheKey) (fun v r => { r with promptCacheKey := v }) .string)]

def ChatRequest.zero : ChatRequest :=
  { model := "", messages := [], tools := [], toolChoice := .null, stream := false,
    streamOptions := [], parallelToolCalls := none, reasoningEffort := "", effort := "",
    promptCacheKey := "" }

def flattenTextContent (value : Json) : String :=
  match value with
  | .str content => content
  | .null => ""
  | .arr content =>
    join ((content.map fun item =>
      let kind := (Obj.val item.members "type").text
      if kind = "text" ∨ kind = "input_text" ∨ kind = "output_text" then
        (Obj.val item.members "text").text
      else "").filter (· ≠ "")) "\n"
  | content => String.ofList (marshal content)

/-- One part of `convertUserContent`. -/
def convertUserPart (part : Obj) : Option Json :=
  let kind := Obj.val part "type"
  if kind = .str "text" ∨ kind = .str "input_text" then
    let text := (Obj.val part "text").text
    if text ≠ "" then some (.obj [("text", .str text), ("type", .str "input_text")]) else none
  else if kind = .str "image_url" then
    let image := (Obj.val part "image_url").members
    let location := (Obj.val image "url").text
    if location ≠ "" then
      let converted : Obj := [("image_url", .str location), ("type", .str "input_image")]
      let detail := (Obj.val image "detail").text
      some (.obj (if detail ≠ "" then set converted "detail" (.str detail) else converted))
    else none
  else if kind = .str "input_image" then some (.obj part)
  else none

def convertUserContent (value : Json) : List Json :=
  match value with
  | .str text => [.obj [("text", .str text), ("type", .str "input_text")]]
  | value => value.items.filterMap fun item => convertUserPart item.members

/-- The item of one tool call of an assistant message. -/
def convertToolCall (call : Obj) : Option Json :=
  let function := (Obj.val call "function").members
  let name := (Obj.val function "name").text
  let callID := (Obj.val call "id").text
  if name ≠ "" ∧ callID ≠ "" then
    some (.obj [("arguments", .str (Obj.val function "arguments").text), ("call_id", .str callID),
      ("name", .str name), ("type", .str "function_call")])
  else none

/-- The items of one message of `convertChatRequest`, and its instructions. -/
def convertMessage (message : Obj) : Except String (List Json × List String) :=
  let role := (Obj.val message "role").text
  let content := Obj.val message "content"
  if role = "system" ∨ role = "developer" then
    .ok ([], [flattenTextContent content].filter (· ≠ ""))
  else if role = "user" then
    match convertUserContent content with
    | [] => .ok ([], [])
    | content =>
      .ok ([.obj [("content", .arr content), ("role", .str "user"), ("type", .str "message")]], [])
  else if role = "assistant" then
    let text := flattenTextContent content
    let said : List Json := if text ≠ "" then
        [.obj [("content", .arr [.obj [("text", .str text), ("type", .str "output_text")]]),
          ("role", .str "assistant"), ("type", .str "message")]]
      else []
    .ok (said ++ (Obj.val message "tool_calls").items.filterMap fun call =>
      convertToolCall call.members, [])
  else if role = "tool" then
    let callID := (Obj.val message "tool_call_id").text
    if callID = "" then .error "tool message is missing tool_call_id"
    else .ok ([.obj [("call_id", .str callID), ("output", .str (flattenTextContent content)),
      ("type", .str "function_call_output")]], [])
  else .error ("unsupported message role " ++ quote role)

/-- The loop of `convertChatRequest` over the messages. -/
def convertMessages : List Obj → Except String (List Json × List String)
  | [] => .ok ([], [])
  | message :: rest => do
    let (input, instructions) ← convertMessage message
    let (input', instructions') ← convertMessages rest
    .ok (input ++ input', instructions ++ instructions')

/-- One tool of `convertChatRequest`. A nil map is encoded as `null`. -/
def convertTool (tool : Option Obj) : Option Json :=
  if Obj.val (tool.getD []) "type" ≠ .str "function" then some (tool.elim .null .obj)
  else
    let function := (Obj.val (tool.getD []) "function").members
    let name := (Obj.val function "name").text
    if name = "" then none
    else some (.obj (["description", "parameters", "strict"].foldl
      (fun converted field => match get function field with
        | some value => set converted field value
        | none => converted)
      [("name", .str name), ("type", .str "function")]))

def convertToolChoice (value : Json) : Json :=
  match value with
  | .obj choice =>
    let name := (Obj.val (Obj.val choice "function").members "name").text
    if Obj.val choice "type" = .str "function" ∧ name ≠ "" then
      .obj [("name", .str name), ("type", .str "function")]
    else value
  | value => value

def chatReasoningEffort (request : ChatRequest) : String :=
  let effort := Normalize.canonicalReasoningEffort request.reasoningEffort
  let effort := if effort = "" then Normalize.canonicalReasoningEffort request.effort else effort
  if effort = "" ∨ effort = "auto" then "medium" else effort

/-- The Responses body that `convertChatRequest` builds. -/
def responsesBody (request : ChatRequest) (input : List Json) (instructions : List String) : Obj :=
  let responses : Obj := [("model", .str request.model), ("stream", .bool request.stream)]
  let responses := set responses "input" (.arr input)
  let responses := set responses "instructions" (.str (join instructions "\n\n"))
  let responses := if request.tools ≠ [] then
      set responses "tools" (.arr (request.tools.filterMap convertTool))
    else responses
  let responses := if request.toolChoice ≠ .null then
      set responses "tool_choice" (convertToolChoice request.toolChoice)
    else responses
  let responses := match request.parallelToolCalls with
    | some b => set responses "parallel_tool_calls" (.bool b)
    | none => responses
  let effort := chatReasoningEffort request
  let reasoning : Obj := [("effort", .str effort)]
  let reasoning := if effort ≠ "none" then set reasoning "summary" (.str "auto") else reasoning
  let responses := set responses "reasoning" (.obj reasoning)
  if request.promptCacheKey ≠ "" then
    set responses "prompt_cache_key" (.str request.promptCacheKey)
  else responses

/-- `convertChatRequest`: the normalized body, whether the client asked for a stream and for the
usage, and the model. -/
def convertChatRequest (raw : Text) : Except String (Obj × Bool × Bool × String) :=
  if jsonValid raw = false then
    .error "invalid Chat Completions request: body must contain one JSON value"
  else
    match Decoder.unmarshal ChatRequest.decoder ChatRequest.zero raw with
    | none => .error "invalid Chat Completions request"
    | some request =>
      if trimSpace request.model = "" then .error "model is required"
      else if request.messages = [] then .error "messages is required"
      else do
        let (input, instructions) ← convertMessages request.messages
        if input = [] then .error "messages did not contain any usable input"
        else
          let (normalized, _, _) ← Normalize.normalizeResponsesRequest
            (responsesBody request input instructions)
          .ok (normalized, request.stream,
            (Obj.val request.streamOptions "include_usage").flag, request.model)

end CodexOne.Chat
