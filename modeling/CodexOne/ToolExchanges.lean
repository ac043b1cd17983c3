import CodexOne.Chat
import CodexOne.Normalized

/-!
Tool calls and their outputs in the input that a chat request is converted to.
-/

namespace CodexOne.Chat

open Members Normalize

/-- The items of the converted input that a message becomes. -/
def images (message : Obj) : List Json :=
  match convertMessage message with
  | .ok (input, _) => input.map (JsonOf.mapObj normalizeInputItem)
  | .error _ => []

def entryFunction (entry : Json) : Obj := (Obj.val entry.members "function").members

/-- A tool message answers an entry of an earlier assistant message. -/
structure Answers (before : List Obj) (entry : Json) (message : Obj) : Prop where
  called : ∃ m ∈ before, Obj.val m "role" = .str "assistant" ∧
    entry ∈ (Obj.val m "tool_calls").items
  tool : Obj.val message "role" = .str "tool"
  id : ∃ id, Obj.val message "tool_call_id" = .str id ∧ Obj.val entry.members "id" = .str id

/-- A call item carries an entry: its id, and the name and the arguments of its function. -/
structure Carries (entry call : Json) : Prop where
  type : Obj.val call.members "type" = .str "function_call"
  id : Obj.val call.members "call_id" = Obj.val entry.members "id"
  name : Obj.val call.members "name" = Obj.val (entryFunction entry) "name"
  arguments : Obj.val call.members "arguments" = Obj.val (entryFunction entry) "arguments"

/-- The input has the images of the messages in their order, and every output comes after the call
it belongs to. -/
structure Whole (messages : List Obj) (input : Json) : Prop where
  order : input = .arr (messages.flatMap images)
  called : ∀ before message after entry, messages = before ++ message :: after →
    Answers before entry message → ∃ output, images message = [output] ∧
      Obj.val output.members "type" = .str "function_call_output" ∧
      Obj.val output.members "call_id" = Obj.val message "tool_call_id" ∧
      ∃ call ∈ before.flatMap images, Carries entry call

/-- An entry calls a function by its name, with its arguments as text. -/
def CallsFunction (entry : Json) : Prop :=
  ∃ name arguments, name ≠ "" ∧ Obj.val (entryFunction entry) "name" = .str name ∧
    Obj.val (entryFunction entry) "arguments" = .str arguments

lemma convertMessages_ok {messages : List Obj} {input : List Json} {instructions : List String}
    (h : convertMessages messages = .ok (input, instructions)) :
    (∀ m ∈ messages, ∃ r, convertMessage m = .ok r) ∧
      input.map (JsonOf.mapObj normalizeInputItem) = messages.flatMap images := by
  induction messages generalizing input instructions with
  | nil =>
    cases h
    exact ⟨nofun, rfl⟩
  | cons m messages ih =>
    unfold convertMessages at h
    cases hm : convertMessage m with
    | error e =>
      rw [hm] at h
      cases h
    | ok r =>
      rw [hm] at h
      cases hrest : convertMessages messages with
      | error e =>
        rw [hrest] at h
        cases h
      | ok s =>
        rw [hrest] at h
        cases h
        obtain ⟨hall, himages⟩ := ih hrest
        have hfirst : images m = r.1.map (JsonOf.mapObj normalizeInputItem) := by
          rw [images, hm]
        refine ⟨fun m' hm' => ?_, ?_⟩
        · rcases List.mem_cons.mp hm' with rfl | hm'
          · exact ⟨r, hm⟩
          · exact hall m' hm'
        · rw [List.map_append, List.flatMap_cons, himages, hfirst]

lemma convertToolCall_iff {call : Obj} {item : Json} : convertToolCall call = some item ↔
    ((Obj.val (Obj.val call "function").members "name").text ≠ "" ∧
      (Obj.val call "id").text ≠ "") ∧
      item = .obj [("arguments", .str (Obj.val (Obj.val call "function").members "arguments").text),
        ("call_id", .str (Obj.val call "id").text),
        ("name", .str (Obj.val (Obj.val call "function").members "name").text),
        ("type", .str "function_call")] := by
  unfold convertToolCall
  dsimp only
  by_cases h : (Obj.val (Obj.val call "function").members "name").text ≠ "" ∧
      (Obj.val call "id").text ≠ ""
  · rw [if_pos h]
    simp [h, eq_comm]
  · rw [if_neg h]
    simp [h]

lemma convertMessage_kinds {message : Obj} {items : List Json} {instructions : List String}
    (h : convertMessage message = .ok (items, instructions)) {item : Json} (hitem : item ∈ items) :
    Obj.val item.members "type" = .str "message" ∨
      Obj.val item.members "type" = .str "function_call_output" ∨
      ∃ call, convertToolCall call = some item := by
  unfold convertMessage at h
  dsimp only at h
  have hcalls {entries : List Json}
      (hitem : item ∈ entries.filterMap fun call => convertToolCall call.members) :
      ∃ call, convertToolCall call = some item := by
    obtain ⟨entry, -, hcall⟩ := List.mem_filterMap.mp hitem
    exact ⟨_, hcall⟩
  -- one case for each role, and two for an assistant with and without a text
  split_ifs at h with hsystem huser hassistant hsaid htool hid
  · cases h
    cases hitem
  · split at h
    · cases h
      cases hitem
    · cases h
      rw [List.mem_singleton.mp hitem]
      exact .inl rfl
  · cases h
    rcases List.mem_append.mp hitem with hitem | hitem
    · rw [List.mem_singleton.mp hitem]
      exact .inl rfl
    · exact .inr (.inr (hcalls hitem))
  · cases h
    exact .inr (.inr (hcalls hitem))
  · cases h
    rw [List.mem_singleton.mp hitem]
    exact .inr (.inl rfl)

lemma normalizeInputItem_call (arguments id name : Json) :
    normalizeInputItem [("arguments", arguments), ("call_id", id), ("name", name),
      ("type", .str "function_call")] = [("arguments", arguments), ("call_id", id), ("name", name),
      ("type", .str "function_call")] := rfl

lemma val_type_normalizeInputItem (item : Json) :
    Obj.val (JsonOf.mapObj normalizeInputItem item).members "type" =
      Obj.val item.members "type" := by
  cases item with
  | obj o =>
    refine Obj.val_congr ?_
    change get (normalizeInputItem o) "type" = get o "type"
    unfold normalizeInputItem
    rw [get_modify_ne _ _ (by decide)]
    split_ifs
    · exact get_set_ne _ _ (by decide)
    · rfl
  | _ => rfl

lemma carried_of_callsFunction {message : Obj} {entry : Json} {id : String}
    (hrole : Obj.val message "role" = .str "assistant")
    (hentry : entry ∈ (Obj.val message "tool_calls").items)
    (hid : Obj.val entry.members "id" = .str id) (hne : id ≠ "") (h : CallsFunction entry) :
    ∃ call ∈ images message, Carries entry call := by
  obtain ⟨name, arguments, hname, hn, ha⟩ := h
  unfold entryFunction at hn ha
  have hcall := convertToolCall_iff.mpr ⟨(by rw [hn, hid]; exact ⟨hname, hne⟩), rfl⟩
  rw [hn, ha, hid] at hcall
  have hconvert : ∃ said instructions, convertMessage message = .ok (said ++
      (Obj.val message "tool_calls").items.filterMap fun call => convertToolCall call.members,
        instructions) := by
    unfold convertMessage
    rw [hrole]
    exact ⟨_, _, rfl⟩
  obtain ⟨said, instructions, hconvert⟩ := hconvert
  refine ⟨.obj [("arguments", .str arguments), ("call_id", .str id), ("name", .str name),
    ("type", .str "function_call")], ?_, rfl, hid.symm, hn.symm, ha.symm⟩
  rw [images, hconvert]
  have hmem := List.mem_append_right said
    (List.mem_filterMap (f := fun call : Json => convertToolCall call.members) |>.mpr
      ⟨entry, hentry, hcall⟩)
  exact List.mem_map.mpr ⟨_, hmem, congrArg JsonOf.obj (normalizeInputItem_call ..)⟩

lemma callsFunction_of_carried {message : Obj} {entry call : Json} (hcall : call ∈ images message)
    (h : Carries entry call) : CallsFunction entry := by
  unfold images at hcall
  cases hconvert : convertMessage message with
  | error e =>
    rw [hconvert] at hcall
    cases hcall
  | ok r =>
    rw [hconvert] at hcall
    obtain ⟨item, hitem, rfl⟩ := List.mem_map.mp hcall
    have htype := h.type
    rw [val_type_normalizeInputItem] at htype
    rcases convertMessage_kinds hconvert hitem with hkind | hkind | ⟨entry', hkind⟩
    · rw [hkind] at htype
      simp at htype
    · rw [hkind] at htype
      simp at htype
    · obtain ⟨⟨hname, -⟩, rfl⟩ := convertToolCall_iff.mp hkind
      exact ⟨_, _, hname, h.name.symm, h.arguments.symm⟩

lemma images_tool {message : Obj} {r : List Json × List String}
    (h : convertMessage message = .ok r) (hrole : Obj.val message "role" = .str "tool")
    {id : String}
    (hid : Obj.val message "tool_call_id" = .str id) :
    id ≠ "" ∧ ∃ output, images message = [output] ∧
      Obj.val output.members "type" = .str "function_call_output" ∧
      Obj.val output.members "call_id" = .str id := by
  have hconvert : convertMessage message =
      if id = "" then .error "tool message is missing tool_call_id"
      else .ok ([.obj [("call_id", .str id),
        ("output", .str (flattenTextContent (Obj.val message "content"))),
        ("type", .str "function_call_output")]], []) := by
    unfold convertMessage
    rw [hrole, hid]
    rfl
  by_cases hne : id = ""
  · rw [hconvert, if_pos hne] at h
    cases h
  · rw [if_neg hne] at hconvert
    refine ⟨hne, _, by rw [images, hconvert]; rfl, rfl, rfl⟩

/-! ### The converted input -/

lemma get_input_responsesBody (request : ChatRequest) (input : List Json)
    (instructions : List String) :
    get (responsesBody request input instructions) "input" = some (.arr input) := by
  unfold responsesBody
  dsimp only
  rw [get_ite_set, if_neg (by simp), get_set_ne _ _ (by decide)]
  cases request.parallelToolCalls with
  | none =>
    dsimp only
    rw [get_ite_set, if_neg (by simp), get_ite_set, if_neg (by simp), get_set_ne _ _ (by decide),
      get_set_self]
  | some b =>
    dsimp only
    rw [get_set_ne _ _ (by decide), get_ite_set, if_neg (by simp), get_ite_set, if_neg (by simp),
      get_set_ne _ _ (by decide), get_set_self]

lemma convertChatRequest_ok {raw : Text} {request : ChatRequest} {body : Obj}
    {r : Bool × Bool × String}
    (hrequest : Decoder.unmarshal ChatRequest.decoder ChatRequest.zero raw = some request)
    (h : convertChatRequest raw = .ok (body, r)) :
    (∀ m ∈ request.messages, ∃ r, convertMessage m = .ok r) ∧
      Obj.val body "input" = .arr (request.messages.flatMap images) := by
  unfold convertChatRequest at h
  rw [hrequest] at h
  dsimp only at h
  split_ifs at h with hvalid hmodel hmessages
  cases hm : convertMessages request.messages with
  | error e =>
    rw [hm] at h
    cases h
  | ok converted =>
    obtain ⟨input, instructions⟩ := converted
    rw [hm] at h
    dsimp only [bind, Except.bind] at h
    split_ifs at h with hempty
    cases hnorm : normalizeResponsesRequest (responsesBody request input instructions) with
    | error e =>
      rw [hnorm] at h
      cases h
    | ok normalized =>
      rw [hnorm] at h
      simp only [Except.ok.injEq, Prod.mk.injEq] at h
      obtain ⟨hall, himages⟩ := convertMessages_ok hm
      have hinput := get_input_responsesBody request input instructions
      refine ⟨hall, Obj.val_of_get ?_⟩
      rw [← h.1, (normalizeResponsesRequest_ok hnorm).1, get_input, ← himages]
      have hwrap : wrapInput (responsesBody request input instructions) =
          responsesBody request input instructions := by
        unfold wrapInput
        rw [Obj.val_of_get hinput]
      rw [hwrap, hinput]
      rfl

/-- **Tool exchanges.** The input of an accepted request has the images of its messages in order. A
tool message comes after the call it answers when the entry it names calls a function by its name
with its arguments as text: other entries are left out, or lose their arguments. -/
theorem tool_exchanges_iff {raw : Text} {request : ChatRequest} {body : Obj}
    {r : Bool × Bool × String}
    (hrequest : Decoder.unmarshal ChatRequest.decoder ChatRequest.zero raw = some request)
    (h : convertChatRequest raw = .ok (body, r)) :
    Whole request.messages (Obj.val body "input") ↔
      ∀ before message after entry, request.messages = before ++ message :: after →
        Answers before entry message → CallsFunction entry := by
  obtain ⟨hall, hinput⟩ := convertChatRequest_ok hrequest h
  constructor
  · intro hwhole before message after entry hsplit hanswers
    obtain ⟨output, -, -, -, call, hcall, hcarries⟩ :=
      hwhole.called before message after entry hsplit hanswers
    obtain ⟨m, -, hm⟩ := List.mem_flatMap.mp hcall
    exact callsFunction_of_carried hm hcarries
  · intro hcalls
    refine ⟨hinput, fun before message after entry hsplit hanswers => ?_⟩
    obtain ⟨id, hmessage, hentry⟩ := hanswers.id
    obtain ⟨r', hr'⟩ := hall message (by rw [hsplit]; simp)
    obtain ⟨hne, output, himages, htype, hid⟩ := images_tool hr' hanswers.tool hmessage
    refine ⟨output, himages, htype, hid.trans hmessage.symm, ?_⟩
    obtain ⟨m, hm, hrole, hmem⟩ := hanswers.called
    obtain ⟨call, hcall, hcarries⟩ := carried_of_callsFunction hrole hmem hentry hne
      (hcalls before message after entry hsplit hanswers)
    exact ⟨call, List.mem_flatMap.mpr ⟨m, hm, hcall⟩, hcarries⟩

/-- A conversation with one tool call and its output. -/
def exchange (call : Json) : List Obj :=
  [[("content", .str "hi"), ("role", .str "user")],
    [("role", .str "assistant"), ("tool_calls", .arr [call])],
    [("content", .str "found"), ("role", .str "tool"), ("tool_call_id", .str "c1")]]

def exchangeRequest (call : Json) : Text :=
  marshal (.obj [("messages", .arr ((exchange call).map .obj)), ("model", .str "m")])

/-- A function call, with arguments that are an empty object. -/
def functionCall : Json :=
  .obj [("function", .obj [("arguments", .str "\x7b\x7d"), ("name", .str "lookup")]),
    ("id", .str "c1"), ("type", .str "function")]

theorem tool_exchanges_sample : ∃ body r, convertChatRequest (exchangeRequest functionCall) =
    .ok (body, r) ∧ Whole (exchange functionCall) (Obj.val body "input") := by
  have hmessages : ((Decoder.unmarshal ChatRequest.decoder ChatRequest.zero
      (exchangeRequest functionCall)).any fun request =>
        request.messages = exchange functionCall) = true := by
    decide +kernel
  have hok : (convertChatRequest (exchangeRequest functionCall)).toOption.isSome = true := by
    decide +kernel
  obtain ⟨request, hrequest, heq⟩ := (Option.any_eq_true _ _).mp hmessages
  have heq : request.messages = exchange functionCall := of_decide_eq_true heq
  cases hconvert : convertChatRequest (exchangeRequest functionCall) with
  | error e =>
    rw [hconvert] at hok
    cases hok
  | ok converted =>
    obtain ⟨body, r⟩ := converted
    refine ⟨body, r, rfl, heq ▸ (tool_exchanges_iff hrequest hconvert).mpr ?_⟩
    intro before message after entry hsplit hanswers
    obtain ⟨m, hm, -, hentry⟩ := hanswers.called
    have hmem : m ∈ exchange functionCall := by
      rw [← heq, hsplit]
      exact List.mem_append_left _ hm
    have hall : ∀ m ∈ exchange functionCall,
        ∀ entry ∈ (Obj.val m "tool_calls").items, entry = functionCall := by decide +kernel
    rw [hall m hmem entry hentry]
    exact ⟨"lookup", "\x7b\x7d", by decide, rfl, rfl⟩

/-- A call of a custom tool, which has no function. -/
def customCall : Json :=
  .obj [("custom", .obj [("input", .str "x"), ("name", .str "grep")]), ("id", .str "c1"),
    ("type", .str "custom")]

/-- **An orphaned output.** The call of a custom tool is left out, its output is not. -/
theorem tool_exchange_orphaned : ∃ request body r,
    Decoder.unmarshal ChatRequest.decoder ChatRequest.zero (exchangeRequest customCall) =
      some request ∧
    convertChatRequest (exchangeRequest customCall) = .ok (body, r) ∧
    Obj.val body "input" = .arr [
      .obj [("content", .arr [.obj [("text", .str "hi"), ("type", .str "input_text")]]),
        ("role", .str "user"), ("type", .str "message")],
      .obj [("call_id", .str "c1"), ("output", .str "found"),
        ("type", .str "function_call_output")]] ∧
    ¬Whole request.messages (Obj.val body "input") := by
  have hmessages : ((Decoder.unmarshal ChatRequest.decoder ChatRequest.zero
      (exchangeRequest customCall)).any fun request => request.messages = exchange customCall) =
        true := by
    decide +kernel
  have hok : ((convertChatRequest (exchangeRequest customCall)).toOption.any fun converted =>
      Obj.val converted.1 "input" = .arr [
        .obj [("content", .arr [.obj [("text", .str "hi"), ("type", .str "input_text")]]),
          ("role", .str "user"), ("type", .str "message")],
        .obj [("call_id", .str "c1"), ("output", .str "found"),
          ("type", .str "function_call_output")]]) = true := by
    decide +kernel
  obtain ⟨request, hrequest, heq⟩ := (Option.any_eq_true _ _).mp hmessages
  have heq : request.messages = exchange customCall := of_decide_eq_true heq
  cases hconvert : convertChatRequest (exchangeRequest customCall) with
  | error e =>
    rw [hconvert] at hok
    cases hok
  | ok converted =>
    obtain ⟨body, r⟩ := converted
    rw [hconvert] at hok
    refine ⟨request, body, r, hrequest, rfl, of_decide_eq_true hok, fun hwhole => ?_⟩
    obtain ⟨output, -, -, -, call, hcall, hcarries⟩ :=
      hwhole.called [_, _] _ [] customCall heq
        ⟨⟨_, .tail _ (.head _), rfl, .head _⟩, rfl, _, rfl, rfl⟩
    obtain ⟨m, -, hm⟩ := List.mem_flatMap.mp hcall
    obtain ⟨name, -, -, hname, -⟩ := callsFunction_of_carried hm hcarries
    cases hname

end CodexOne.Chat
