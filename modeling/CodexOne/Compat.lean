import CodexOne.Mapping

/-!
What the Codex upstream asks of a body, `internal/proxy/upstream_compat.go`.
-/

namespace CodexOne.Compat

open GoStrings Members

/-- The value of a digit of the URL alphabet of `encoding/base64`. -/
def sextet (c : Char) : Option ℕ :=
  if 'A' ≤ c ∧ c ≤ 'Z' then some (c.toNat - 65)
  else if 'a' ≤ c ∧ c ≤ 'z' then some (c.toNat - 71)
  else if '0' ≤ c ∧ c ≤ '9' then some (c.toNat + 4)
  else if c = '-' then some 62
  else if c = '_' then some 63
  else none

/-- The digits of a text without line breaks, with or without padding. The bits that are left
over at the end are ignored. -/
def base64Bytes (padded : Bool) : List Char → Option (List ℕ)
  | [] => some []
  | [_] => none
  -- a last group of two or three digits is only read without padding
  | [a, b] =>
    if padded then none
    else do
      let a ← sextet a
      let b ← sextet b
      some [a * 4 + b / 16]
  | [a, b, c] =>
    if padded then none
    else do
      let a ← sextet a
      let b ← sextet b
      let c ← sextet c
      some [a * 4 + b / 16, b % 16 * 16 + c / 4]
  | a :: b :: c :: e :: rest => do
    let a ← sextet a
    let b ← sextet b
    if padded ∧ c = '=' ∧ e = '=' then
      if rest = [] then some [a * 4 + b / 16] else none
    else do
      let c ← sextet c
      if padded ∧ e = '=' then
        if rest = [] then some [a * 4 + b / 16, b % 16 * 16 + c / 4] else none
      else do
        let e ← sextet e
        let rest ← base64Bytes padded rest
        some ([a * 4 + b / 16, b % 16 * 16 + c / 4, c % 4 * 64 + e] ++ rest)

/-- `Encoding.DecodeString`, which skips line breaks. -/
def base64Decode (padded : Bool) (s : String) : Option (List ℕ) :=
  base64Bytes padded (s.toList.filter fun c => c ≠ '\n' ∧ c ≠ '\r')

/-! ### Items -/

def codexInputItemIDLimit : ℕ := 64
def maxReasoningEncryptedBytes : ℕ := 32 * 1024 * 1024

def validCodexReasoningEncryptedContent (value : String) : Bool :=
  if value = "" ∨ value ≠ trimSpace value ∨ value.utf8ByteSize > maxReasoningEncryptedBytes ∨
      hasPrefix value "gAAAA" = false then false
  else
    match (base64Decode false value).or (base64Decode true value) with
    | some decoded =>
      decoded.length ≥ 73 && decoded.head? = some 0x80 &&
        (decoded.length - 57 > 0 && (decoded.length - 57) % 16 = 0)
    | none => false

def codexInputItemPrefix (item : Obj) : String :=
  let kind := (Obj.val item "type").text
  if kind = "message" then "msg"
  else if kind = "reasoning" then "rs"
  else if kind = "function_call" then "fc"
  else if kind = "custom_tool_call" then "ctc"
  else if kind = "custom_tool_call_output" then "ctco"
  else ""

def canonicalCodexInputItemID (item : Obj) (itemID : String) : String :=
  if codexInputItemPrefix item = "" ∨ itemID = "" ∨ hasPrefix itemID (codexInputItemPrefix item)
  then itemID
  else codexInputItemPrefix item ++ "_" ++ itemID

/-- `sanitizeCodexReasoningItem`; there is no item left when it returns `false`. -/
def sanitizeCodexReasoningItem (item : Obj) (store : Bool) : Option Obj :=
  match get item "encrypted_content" with
  | none => some (if store then item else erase item "id")
  | some value =>
    if validCodexReasoningEncryptedContent value.text then
      if (Obj.val item "id").text.length ≤ codexInputItemIDLimit then some item else none
    else
      let item := erase item "encrypted_content"
      some (if store then item else erase item "id")

variable (d : Digests)

def mappedCodexInputItemID (keyID : String) (item : Obj) (itemID : String) : String :=
  let kind := if codexInputItemPrefix item = "" then "item" else codexInputItemPrefix item
  kind ++ "_" ++ d.identityUUID keyID ("input-item:" ++ kind) itemID

def shortenSuffix (itemID : String) (attempt : ℕ) : String :=
  let hashInput := if attempt > 0 then itemID ++ "\x00" ++ toString attempt else itemID
  "_" ++ String.ofList (Digests.hex ((List.ofFn (d.sha256 hashInput)).take 8))

def shortenCodexInputItemID (itemID : String) (attempt : ℕ) : String :=
  let suffix := shortenSuffix d itemID attempt
  takeRunes itemID (min (codexInputItemIDLimit - suffix.length) itemID.length) ++ suffix

/-- `uniqueCodexInputItemID` from an attempt on, for at most `fuel` attempts. -/
def uniqueCodexInputItemIDFrom (itemID : String) (reserved used : List String) :
    (fuel attempt : ℕ) → Option String
  | 0, _ => none
  | fuel + 1, attempt =>
    let candidate := shortenCodexInputItemID d itemID attempt
    if candidate ∈ reserved ∨ candidate ∈ used then
      uniqueCodexInputItemIDFrom itemID reserved used fuel (attempt + 1)
    else some candidate

/-- `uniqueCodexInputItemID`. The search ends only when the digests let it, so it gets a number
of attempts. -/
def uniqueCodexInputItemID (fuel : ℕ) (itemID : String) (reserved used : List String) :
    Option String :=
  uniqueCodexInputItemIDFrom d itemID reserved used fuel 0

/-- The ids that the items of a request keep. -/
def reservedIDs (items : List Json) : List String :=
  (items.filter fun value =>
    let itemID := (Obj.val value.members "id").text
    itemID ≠ "" ∧ itemID.length ≤ codexInputItemIDLimit ∧
      canonicalCodexInputItemID value.members itemID = itemID).map
    fun value => (Obj.val value.members "id").text

/-- The id an item is sent under before clashes are looked for. -/
def wantedItemID (remap : Bool) (keyID : String) (item : Obj) (itemID : String) : String :=
  let normalized := canonicalCodexInputItemID item itemID
  if remap ∧ (normalized ≠ itemID ∨ normalized.length > codexInputItemIDLimit) then
    mappedCodexInputItemID d keyID item itemID
  else normalized

/-- The id an item is sent under. -/
def upstreamItemID (fuel : ℕ) (remap : Bool) (keyID : String) (reserved used : List String)
    (item : Obj) (itemID : String) : Option String := do
  let normalized := wantedItemID d remap keyID item itemID
  let normalized ← if normalized ∈ reserved ∧ normalized ≠ itemID then
      uniqueCodexInputItemID d fuel normalized reserved used
    else some normalized
  if normalized.length > codexInputItemIDLimit then
    uniqueCodexInputItemID d fuel normalized reserved used
  else some normalized

/-- What stands in for an error when the search for an id has not ended. -/
def noItemID : String := "uniqueCodexInputItemID has not returned"

/-- The part of the loop of `sanitizeCodexInputItems` that sets the id of an item: the item and
the id it used. -/
def sanitizeItemID (fuel : ℕ) (reserved used : List String) (item : Obj) :
    IdentityM (Obj × List String) := do
  let i ← IdentityM.self
  let itemID := (Obj.val item "id").text
  if itemID = "" then pure (item, used)
  else
    match upstreamItemID d fuel i.remap i.keyID reserved used item itemID with
    | none => IdentityM.fail noItemID
    | some normalized =>
      if normalized ≠ itemID then
        IdentityM.update (Identity.remember · normalized itemID)
        pure (set item "id" (.str normalized), normalized :: used)
      else pure (item, normalized :: used)

/-- The loop of `sanitizeCodexInputItems`. -/
def sanitizeItems (fuel : ℕ) (store : Bool) (reserved : List String) :
    (items : List Json) → (used : List String) → IdentityM (List Json)
  | [], _ => pure []
  | .obj item :: rest, used =>
    match if (Obj.val item "type").text = "reasoning" then sanitizeCodexReasoningItem item store
      else some item with
    | none => sanitizeItems fuel store reserved rest used
    | some item => do
      let (item, used) ← sanitizeItemID d fuel reserved used item
      let rest ← sanitizeItems fuel store reserved rest used
      pure (.obj item :: rest)
  | value :: rest, used => do
    let rest ← sanitizeItems fuel store reserved rest used
    pure (value :: rest)

def sanitizeCodexInputItems (fuel : ℕ) (object : Obj) : IdentityM Obj :=
  match get object "input" with
  | some (.arr items) => do
    let sanitized ← sanitizeItems d fuel (Obj.val object "store").flag (reservedIDs items) items []
    Identity.mappingError
    pure (set object "input" (.arr sanitized))
  | _ => pure object

def isCodexResponsesLiteRequest (object : Obj) (headers : Header) : Bool :=
  if equalFold (trimSpace (headers.valueFold "X-OpenAI-Internal-Codex-Responses-Lite")) "true"
  then true
  else
    match get (Obj.val object "client_metadata").members
      "ws_request_header_x_openai_internal_codex_responses_lite" with
    | some (.bool typed) => typed
    | some (.str typed) => equalFold (trimSpace typed) "true"
    | _ => false

def codexImageGenerationTool : Json :=
  .obj [("output_format", .str "png"), ("type", .str "image_generation")]

def codexToolIncludesImageGeneration (tool : Obj) : Bool :=
  let kind := (Obj.val tool "type").text
  if kind = "image_generation" then true
  else if kind = "function" then (Obj.val tool "name").text = "image_gen.imagegen"
  else if kind ≠ "namespace" ∨ (Obj.val tool "name").text ≠ "image_gen" then false
  else (Obj.val tool "tools").items.any fun value =>
    (Obj.val value.members "type").text = "function" &&
      (Obj.val value.members "name").text = "imagegen"

def ensureCodexImageGenerationTool (object : Obj) (model planType : String) (headers : Header) :
    Obj :=
  if isCodexResponsesLiteRequest object headers ∨
      hasSuffix (toLower (trimSpace model)) "spark" ∨ equalFold (trimSpace planType) "free" then
    object
  else
    match get object "tools" with
    | some (.arr items) =>
      if items.any fun value => codexToolIncludesImageGeneration value.members then object
      else set object "tools" (.arr (items ++ [codexImageGenerationTool]))
    | _ => set object "tools" (.arr [codexImageGenerationTool])

def normalizeCodexParallelToolCalls (object : Obj) (headers : Header)
    (websocketTransport : Bool) : Obj :=
  if isCodexResponsesLiteRequest object headers then
    set object "parallel_tool_calls" (.bool false)
  else if websocketTransport then object
  else if (Obj.val object "tools").items = [] then erase object "parallel_tool_calls"
  else object

/-! ### Bodies -/

def prepareCodexInferenceObject (fuel : ℕ) (object : Obj) (model planType : String)
    (headers : Header) (websocketTransport includeImageTool : Bool) : IdentityM Obj := do
  let object := if includeImageTool then
      ensureCodexImageGenerationTool object model planType headers
    else object
  let object ← sanitizeCodexInputItems d fuel object
  pure (normalizeCodexParallelToolCalls object headers websocketTransport)

def prepareCodexHTTPBodyWithImageTool (fuel : ℕ) (object : Obj) (model planType : String)
    (headers : Header) (includeImageTool : Bool) : IdentityM Obj :=
  prepareCodexInferenceObject d fuel
    (["previous_response_id", "generate", "safety_identifier", "stream_options"].foldl erase object)
    model planType headers false includeImageTool

def prepareCodexHTTPBody (fuel : ℕ) (object : Obj) (model planType : String)
    (headers : Header) : IdentityM Obj :=
  prepareCodexHTTPBodyWithImageTool d fuel object model planType headers true

def prepareCodexChatBody (fuel : ℕ) (object : Obj) (model planType : String)
    (headers : Header) : IdentityM Obj :=
  prepareCodexHTTPBodyWithImageTool d fuel object model planType headers false

def prepareCodexWebSocketBody (fuel : ℕ) (object : Obj) (model planType : String)
    (headers : Header) : IdentityM Obj :=
  prepareCodexInferenceObject d fuel (erase object "safety_identifier") model planType headers
    true true

def prepareCodexPassthroughBody (fuel : ℕ) (object : Obj) : IdentityM Obj :=
  sanitizeCodexInputItems d fuel object

open Identity

lemma tracks_sanitizeItemID (fuel : ℕ) (reserved used : List String) (item : Obj) :
    Tracks (sanitizeItemID d fuel reserved used item) := by
  refine .of_self (fun i => .of_ite (.of_pure _) ?_) fun i j h => by rw [h.remap, h.keyID]
  split
  · exact .of_fail _
  · exact .of_ite (.of_bind (.of_remember _ _) fun _ => .of_pure _) (.of_pure _)

lemma tracks_sanitizeItems (fuel : ℕ) (store : Bool) (reserved : List String) (items : List Json)
    (used : List String) : Tracks (sanitizeItems d fuel store reserved items used) := by
  induction items generalizing used with
  | nil => exact .of_pure _
  | cons value rest ih =>
    have hskip : Tracks (do
        let rest ← sanitizeItems d fuel store reserved rest used
        pure (value :: rest)) := .of_bind (ih used) fun _ => .of_pure _
    cases value with
    | obj item =>
      unfold sanitizeItems
      split
      · exact ih used
      · exact .of_bind (tracks_sanitizeItemID d fuel reserved used _) fun _ =>
          .of_bind (ih _) fun _ => .of_pure _
    | _ => exact hskip

lemma tracks_sanitizeCodexInputItems (fuel : ℕ) (object : Obj) :
    Tracks (sanitizeCodexInputItems d fuel object) := by
  unfold sanitizeCodexInputItems
  split
  · exact .of_bind (tracks_sanitizeItems d fuel _ _ _ _) fun _ =>
      .of_bind tracks_mappingError fun _ => .of_pure _
  · exact .of_pure _

lemma sanitizeCodexInputItems_ok {fuel : ℕ} {object body : Obj} {i j : Identity}
    (hi : i.mappingErr = none) (h : (sanitizeCodexInputItems d fuel object).run i = (.ok body, j)) :
    j.mappingErr = none := by
  unfold sanitizeCodexInputItems at h
  split at h
  · obtain ⟨_, _, -, h1⟩ := bind_ok h
    obtain ⟨_, _, hm, h2⟩ := bind_ok h1
    obtain ⟨hj, he⟩ := mappingError_ok hm
    cases h2
    exact hj ▸ he
  · cases h
    exact hi

lemma tracks_prepareCodexInferenceObject (fuel : ℕ) (object : Obj) (model planType : String)
    (headers : Header) (ws img : Bool) :
    Tracks (prepareCodexInferenceObject d fuel object model planType headers ws img) :=
  .of_bind (tracks_sanitizeCodexInputItems d fuel _) fun _ => .of_pure _

lemma prepareCodexInferenceObject_ok {fuel : ℕ} {object body : Obj} {model planType : String}
    {headers : Header} {ws img : Bool} {i j : Identity}
    (h : (prepareCodexInferenceObject d fuel object model planType headers ws img).run i =
      (.ok body, j)) :
    ∃ sanitized, (sanitizeCodexInputItems d fuel (if img then
        ensureCodexImageGenerationTool object model planType headers else object)).run i =
        (.ok sanitized, j) ∧
      body = normalizeCodexParallelToolCalls sanitized headers ws := by
  unfold prepareCodexInferenceObject at h
  obtain ⟨sanitized, _, h1, h2⟩ := bind_ok h
  obtain ⟨hb, rfl⟩ := pure_ok h2
  exact ⟨sanitized, h1, hb⟩

end CodexOne.Compat
