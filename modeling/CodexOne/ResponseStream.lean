import CodexOne.Identity
import CodexOne.Normalize
import CodexOne.SSE

/-!
The response events of the upstream, as the Responses handler takes them: the usage they report,
the failures, and the two ways in which a stream of them is delivered, `internal/proxy/service.go`.
-/

namespace CodexOne.ResponseStream

open GoStrings SSE

structure TokenUsage where
  inputTokens : Int
  outputTokens : Int
  reasoningTokens : Int
  hasReasoningTokens : Bool
  effectiveReasoningEffort : String

def TokenUsage.zero : TokenUsage := ⟨0, 0, 0, false, ""⟩

/-- What `parseResponseUsage` decodes a response into. -/
structure UsagePayload where
  effort : String
  inputTokens : Int
  outputTokens : Int
  reasoningTokens : Option Int

def UsagePayload.zero : UsagePayload := ⟨"", 0, 0, none⟩

def UsagePayload.decoder : Decoder UsagePayload :=
  .struct
    [("reasoning", .struct
      [("effort", .into (·.effort) (fun v p => { p with effort := v }) .string)]),
     ("usage", .struct
      [("input_tokens", .into (·.inputTokens) (fun v p => { p with inputTokens := v }) .int64),
       ("output_tokens", .into (·.outputTokens) (fun v p => { p with outputTokens := v }) .int64),
       ("output_tokens_details", .struct
        [("reasoning_tokens",
          .into (·.reasoningTokens) (fun v p => { p with reasoningTokens := v }) .int64Ptr)])])]

/-- What a payload adds to the usage seen so far. -/
def TokenUsage.merge (usage : TokenUsage) (payload : UsagePayload) : TokenUsage :=
  { inputTokens := if payload.inputTokens > 0 then payload.inputTokens else usage.inputTokens
    outputTokens := if payload.outputTokens > 0 then payload.outputTokens else usage.outputTokens
    reasoningTokens := payload.reasoningTokens.getD usage.reasoningTokens
    hasReasoningTokens := payload.reasoningTokens.isSome || usage.hasReasoningTokens
    effectiveReasoningEffort :=
      if payload.effort ≠ "" then Normalize.canonicalReasoningEffort payload.effort
      else usage.effectiveReasoningEffort }

def parseResponseUsage (response : Option Raw) (usage : TokenUsage) : TokenUsage :=
  match response with
  | none => usage
  | some response =>
    let payload := UsagePayload.decoder response .zero
    if payload.2 then usage.merge payload.1 else usage

/-! ### Failures -/

structure UpstreamResponseError where
  status : Int
  code : String
  type : String
  message : String

def UpstreamResponseError.httpStatus (e : UpstreamResponseError) : Int :=
  if 400 ≤ e.status ∧ e.status ≤ 599 then e.status
  else
    let classification := toLower (trimSpace (e.code ++ " " ++ e.type))
    if contains classification "rate_limit" || contains classification "insufficient_quota" then
      429
    else if contains classification "permission_denied" then 403
    else if contains classification "not_found" then 404
    else if contains classification "conflict" then 409
    else if contains classification "invalid_request" ||
        contains classification "invalid_prompt" || contains classification "context_length" ||
        contains classification "content_policy" then 400
    else 502

structure ResponseFailureFields where
  message : String
  code : String
  type : String
  status : Option Raw
  statusCode : Int
  httpStatus : Int

def ResponseFailureFields.zero : ResponseFailureFields := ⟨"", "", "", none, 0, 0⟩

def ResponseFailureFields.decoder : Decoder ResponseFailureFields :=
  .struct
    [("message", .into (·.message) (fun v f => { f with message := v }) .string),
     ("code", .into (·.code) (fun v f => { f with code := v }) .string),
     ("type", .into (·.type) (fun v f => { f with type := v }) .string),
     ("status", .into (·.status) (fun v f => { f with status := v }) .raw),
     ("status_code", .into (·.statusCode) (fun v f => { f with statusCode := v }) .int64),
     ("http_status", .into (·.httpStatus) (fun v f => { f with httpStatus := v }) .int64)]

/-- What `parseUpstreamResponseError` decodes an event and its response into; a response has no
response of its own. -/
structure FailureEvent where
  status : Option Raw
  statusCode : Int
  httpStatus : Int
  error : Option Raw
  response : Option Raw

def FailureEvent.zero : FailureEvent := ⟨none, 0, 0, none, none⟩

def FailureEvent.responseFields : List (String × Decoder FailureEvent) :=
  [("status", .into (·.status) (fun v f => { f with status := v }) .raw),
   ("status_code", .into (·.statusCode) (fun v f => { f with statusCode := v }) .int64),
   ("http_status", .into (·.httpStatus) (fun v f => { f with httpStatus := v }) .int64),
   ("error", .into (·.error) (fun v f => { f with error := v }) .raw)]

def FailureEvent.eventFields : List (String × Decoder FailureEvent) :=
  responseFields ++ [("response", .into (·.response) (fun v f => { f with response := v }) .raw)]

/-- `json.Unmarshal` of a `json.RawMessage` with the error ignored; an empty one is no JSON. -/
def unmarshalRaw {σ : Type} (d : Decoder σ) (zero : σ) (raw : Option Raw) : σ :=
  match raw with
  | some r => (d r zero).1
  | none => zero

def parseHTTPStatus (raw : Option Raw) : Int :=
  match raw with
  | none => 0
  | some r =>
    if r.tree = .null then 0
    else match Decoder.int64 r 0 with
      | (number, true) => number
      -- what is no integer is tried as a text
      | (number, false) => match Decoder.string r "" with
        | (text, true) => Number.atoi (trimRunes text.toList)
        | (_, false) => number

def firstHTTPStatus (values : List Int) : Int :=
  (values.find? fun v => 400 ≤ v ∧ v ≤ 599).getD 0

def parseUpstreamResponseError (raw : Text) : UpstreamResponseError :=
  let event := Decoder.unmarshalLoose (.struct FailureEvent.eventFields) .zero raw
  let topLevel := unmarshalRaw ResponseFailureFields.decoder .zero event.error
  let response :=
    unmarshalRaw (.struct FailureEvent.responseFields) FailureEvent.zero event.response
  let nested := unmarshalRaw ResponseFailureFields.decoder .zero response.error
  let message := firstNonEmpty [topLevel.message, nested.message]
  { status := firstHTTPStatus
      [parseHTTPStatus event.status, event.statusCode, event.httpStatus,
       parseHTTPStatus topLevel.status, topLevel.statusCode, topLevel.httpStatus,
       parseHTTPStatus response.status, response.statusCode, response.httpStatus,
       parseHTTPStatus nested.status, nested.statusCode, nested.httpStatus]
    code := firstNonEmpty [topLevel.code, nested.code]
    type := firstNonEmpty [topLevel.type, nested.type]
    message := if message = "" then "upstream response failed" else message }

def donePayload : Text := "[DONE]".toList

/-- `exposePayload`, which leaves an empty line alone. -/
def exposed (expose : Text → Text) (line : Text) : Text := if line = [] then [] else expose line

/-- The payloads that the consumers decode: those of the exposed lines, less the end marker. -/
def payloads (expose : Text → Text) (stream : Text) : List Text :=
  ((chunks stream).map fun line => ssePayload (exposed expose line)).filter fun payload =>
    payload ≠ [] ∧ payload ≠ donePayload

structure CollectedEvent where
  type : String
  response : Option Raw

def CollectedEvent.decoder : Decoder CollectedEvent :=
  .struct
    [("type", .into (·.type) (fun v e => { e with type := v }) .string),
     ("response", .into (·.response) (fun v e => { e with response := v }) .raw)]

def CollectedEvent.decode (payload : Text) : Option CollectedEvent :=
  decoder.unmarshal ⟨"", none⟩ payload

/-- The local variables of `collectResponse`. -/
structure Collected where
  final : Option Raw
  usage : TokenUsage
  upstreamErr : Option UpstreamResponseError

def Collected.start : Collected := ⟨none, .zero, none⟩

def isCompletion (type : String) : Bool :=
  type = "response.completed" || type = "response.incomplete"

def isFailure (type : String) : Bool := type = "error" || type = "response.failed"

def collectEvent (c : Collected) (payload : Text) : Collected :=
  match CollectedEvent.decode payload with
  | none => c
  | some event =>
    { final := if isCompletion event.type && event.response.isSome then event.response else c.final
      usage := parseResponseUsage event.response c.usage
      upstreamErr :=
        if isFailure event.type then some (parseUpstreamResponseError payload)
        else c.upstreamErr }

inductive CollectError where
  | upstream (failure : UpstreamResponseError)
  | incomplete (message : String)

/-- `collectResponse` on a stream that ends in EOF. -/
def collectResponse (expose : Text → Text) (stream : Text) :
    Except CollectError Raw × TokenUsage :=
  let c := (payloads expose stream).foldl collectEvent .start
  match c.upstreamErr, c.final with
  | some failure, _ => (.error (.upstream failure), c.usage)
  | none, none =>
    (.error (.incomplete "upstream stream ended without a completed response"), c.usage)
  | none, some final => (.ok final, c.usage)

structure ObservedEvent where
  type : String
  delta : String
  response : Option Raw

def ObservedEvent.decoder : Decoder ObservedEvent :=
  .struct
    [("type", .into (·.type) (fun v e => { e with type := v }) .string),
     ("delta", .into (·.delta) (fun v e => { e with delta := v }) .string),
     ("response", .into (·.response) (fun v e => { e with response := v }) .raw)]

/-- `observeSSE` on a payload, less the time of the first output. -/
def observe (usage : TokenUsage) (payload : Text) : TokenUsage :=
  match ObservedEvent.decoder.unmarshal ⟨"", "", none⟩ payload with
  | some event => parseResponseUsage event.response usage
  | none => usage

/-- What a handler leaves behind: the status it records, the usage and the body it has written. -/
structure Delivered where
  status : Int
  usage : TokenUsage
  body : Text

/-- `streamResponse` on a stream that ends in EOF, to a client that takes every write. -/
def streamResponse (expose : Text → Text) (stream : Text) : Delivered where
  status := 200
  usage := (payloads expose stream).foldl observe .zero
  body := ((chunks stream).map (exposed expose)).flatten

/-- The status that a handler records for what it has collected. -/
def collectedStatus (deliver : Raw → Int) : Except CollectError Raw → Int
  | .ok final => deliver final
  | .error (.upstream failure) => failure.httpStatus
  | .error (.incomplete _) => 502

/-- The status that the Responses handler records for a stream delivered under a 2xx status. -/
def handleResponsesStatus (expose : Text → Text) (requestedStream : Bool) (stream : Text) : Int :=
  if requestedStream then (streamResponse expose stream).status
  else collectedStatus (fun _ => 200) (collectResponse expose stream).1

end CodexOne.ResponseStream
