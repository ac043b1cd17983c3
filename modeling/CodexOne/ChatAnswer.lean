import CodexOne.ChatStream
import CodexOne.Lib.JsonViews
import Mathlib.Data.List.Dedup
import Mathlib.Data.List.Sort

/-!
What a chat client makes of an answer, whole or in chunks, and the events that announce a response.
-/

namespace CodexOne.Chat

open GoStrings ResponseStream

/-- What an answer says to the client. -/
structure Answer where
  id : String
  model : String
  created : Int
  content : String
  reasoning : Option String
  toolCalls : List ToolCall
  finishReason : Option String
  usage : Option ChatUsage
  deriving DecidableEq

def Completion.answer (c : Completion) : Answer :=
  { id := c.id, model := c.model, created := c.created, content := c.content,
    reasoning := c.reasoning, toolCalls := c.toolCalls, finishReason := some c.finishReason,
    usage := some c.usage }

namespace Frame

def head? : Frame → Option ChunkHead
  | chunk head _ _ => some head
  | usage head _ => some head
  | _ => none

def delta? : Frame → Option Delta
  | chunk _ delta _ => some delta
  | _ => none

def finish? : Frame → Option String
  | chunk _ _ finish => finish
  | _ => none

def usage? : Frame → Option ChatUsage
  | usage _ u => some u
  | _ => none

end Frame

namespace Delta

def content? : Delta → Option String
  | content text => some text
  | _ => none

def reasoning? : Delta → Option String
  | reasoning text => some text
  | _ => none

/-- The index of the tool call that a chunk is about. -/
def index? : Delta → Option ℕ
  | toolCall index _ _ => some index
  | arguments index _ => some index
  | _ => none

/-- The id and the name that a chunk gives the call at an index. -/
def call? (index : ℕ) : Delta → Option (String × String)
  | toolCall i callID name => if i = index then some (callID, name) else none
  | _ => none

def arguments? (index : ℕ) : Delta → Option String
  | arguments i text => if i = index then some text else none
  | _ => none

end Delta

/-- The tool call that the chunks with one index make up. -/
def assembleCall (deltas : List Delta) (index : ℕ) : ToolCall :=
  let named := ((deltas.filterMap (Delta.call? index)).head?).getD ("", "")
  { id := .str named.1
    name := .str named.2
    arguments := .str (join (deltas.filterMap (Delta.arguments? index)) "") }

/-- The chunks put together: contents and reasoning one after another, tool calls by their index;
the last chunk names the response. -/
def assemble (frames : List Frame) : Answer :=
  let deltas := frames.filterMap Frame.delta?
  let head := (frames.filterMap Frame.head?).getLast?
  let reasoning := deltas.filterMap Delta.reasoning?
  { id := (head.map (·.id)).getD ""
    model := (head.map (·.model)).getD ""
    created := (head.map (·.created)).getD 0
    content := join (deltas.filterMap Delta.content?) ""
    reasoning := if reasoning = [] then none else some (join reasoning "")
    toolCalls := (((deltas.filterMap Delta.index?).dedup).insertionSort (· ≤ ·)).map
      (assembleCall deltas)
    finishReason := (frames.filterMap Frame.finish?).getLast?
    usage := (frames.filterMap Frame.usage?).getLast? }

/-! ### The items of a response -/

/-- An item of the output, as far as a chat client sees it. -/
inductive OutputItem where
  | reasoning (summary content : List String)
  | message (texts : List String)
  | functionCall (callID name arguments : String)

namespace OutputItem

def texts : OutputItem → List String
  | message texts => texts
  | _ => []

def reasoningTexts : OutputItem → List String
  | reasoning summary content => summary ++ content
  | _ => []

def call : OutputItem → Option ToolCall
  | functionCall callID name arguments => some ⟨.str callID, .str name, .str arguments⟩
  | _ => none

end OutputItem

def IsPart (type : String) (part : Json) (text : String) : Prop :=
  Obj.val part.members "type" = .str type ∧ Obj.val part.members "text" = .str text

instance (type : String) (part : Json) (text : String) : Decidable (IsPart type part text) :=
  inferInstanceAs (Decidable (_ ∧ _))

def OutputItem.IsIn (o : Obj) : OutputItem → Prop
  | reasoning summary content => Obj.val o "type" = .str "reasoning" ∧
      List.Forall₂ (IsPart "summary_text") (Obj.val o "summary").items summary ∧
      List.Forall₂ (IsPart "reasoning_text") (Obj.val o "content").items content
  | message texts => Obj.val o "type" = .str "message" ∧
      Obj.val o "content" = .arr (Obj.val o "content").items ∧
      List.Forall₂ (IsPart "output_text") (Obj.val o "content").items texts
  | functionCall callID name arguments => Obj.val o "type" = .str "function_call" ∧
      Obj.val o "call_id" = .str callID ∧ Obj.val o "name" = .str name ∧
      Obj.val o "arguments" = .str arguments

instance (o : Obj) (item : OutputItem) : Decidable (item.IsIn o) :=
  match item with
  | .reasoning _ _ => inferInstanceAs (Decidable (_ ∧ _ ∧ _))
  | .message _ => inferInstanceAs (Decidable (_ ∧ _ ∧ _))
  | .functionCall _ _ _ => inferInstanceAs (Decidable (_ ∧ _ ∧ _ ∧ _))

/-- The item is written so in the response. -/
def OutputItem.Reads (raw : Raw) (item : OutputItem) : Prop :=
  ∃ o, o ∈ raw.unmarshalObject ∧ item.IsIn o

instance (raw : Raw) (item : OutputItem) : Decidable (item.Reads raw) :=
  inferInstanceAs (Decidable (∃ o, o ∈ raw.unmarshalObject ∧ item.IsIn o))

/-- An event between the first and the last. -/
inductive Step where
  | added (index : ℕ)
  | text (delta : String)
  | reasoning (delta : String)
  | arguments (index : ℕ) (delta : String)

namespace Step

def text? : Step → Option String
  | text delta => some delta
  | _ => none

def reasoning? : Step → Option String
  | reasoning delta => some delta
  | _ => none

def arguments? (index : ℕ) : Step → Option String
  | arguments i delta => if i = index then some delta else none
  | _ => none

def IsAddedBy (e : ChatEvent) : Option OutputItem → Prop
  | some (.functionCall callID name _) =>
    e.itemType = "function_call" ∧ e.itemCallID = callID ∧ e.itemName = name
  | _ => e.itemType ≠ "function_call"

instance (e : ChatEvent) (item : Option OutputItem) : Decidable (IsAddedBy e item) :=
  match item with
  | some (.functionCall _ _ _) => inferInstanceAs (Decidable (_ ∧ _ ∧ _))
  | some (.reasoning _ _) => inferInstanceAs (Decidable (_ ≠ _))
  | some (.message _) => inferInstanceAs (Decidable (_ ≠ _))
  | none => inferInstanceAs (Decidable (_ ≠ _))

def IsSaidBy (items : List OutputItem) (e : ChatEvent) : Step → Prop
  | added index => e.response.isNone ∧ e.kind = .itemAdded ∧ e.outputIndex = index ∧
      IsAddedBy e items[index]?
  | text delta => e.response.isNone ∧ e.kind = .textDelta ∧ e.delta = delta
  | reasoning delta => e.response.isNone ∧ e.kind = .reasoningDelta ∧ e.delta = delta
  | arguments index delta =>
      e.response.isNone ∧ e.kind = .argumentsDelta ∧ e.outputIndex = index ∧ e.delta = delta

instance (items : List OutputItem) (e : ChatEvent) (step : Step) :
    Decidable (IsSaidBy items e step) :=
  match step with
  | added _ => inferInstanceAs (Decidable (_ ∧ _ ∧ _ ∧ _))
  | text _ => inferInstanceAs (Decidable (_ ∧ _ ∧ _))
  | reasoning _ => inferInstanceAs (Decidable (_ ∧ _ ∧ _))
  | arguments _ _ => inferInstanceAs (Decidable (_ ∧ _ ∧ _ ∧ _))

/-- The items are added in order, and the arguments of a call come after it: `n` items have been
added so far. -/
def Ordered (items : List OutputItem) : (n : ℕ) → List Step → Prop
  | n, [] => n = items.length
  | n, added index :: steps => index = n ∧ n < items.length ∧ Ordered items (n + 1) steps
  | n, arguments index _ :: steps =>
    index < n ∧ (items[index]?.bind OutputItem.call).isSome ∧ Ordered items n steps
  | n, _ :: steps => Ordered items n steps

instance decidableOrdered (items : List OutputItem) :
    (n : ℕ) → (steps : List Step) → Decidable (Ordered items n steps)
  | n, [] => inferInstanceAs (Decidable (n = items.length))
  | n, added index :: steps =>
    have := decidableOrdered items (n + 1) steps
    inferInstanceAs (Decidable (index = n ∧ n < items.length ∧ Ordered items (n + 1) steps))
  | n, arguments index _ :: steps =>
    have := decidableOrdered items n steps
    inferInstanceAs (Decidable (index < n ∧ (items[index]?.bind OutputItem.call).isSome ∧
      Ordered items n steps))
  | n, text _ :: steps => decidableOrdered items n steps
  | n, reasoning _ :: steps => decidableOrdered items n steps

end Step

/-- A response that the first event carries names what the last one does. -/
structure Foretells (raw : Raw) (response : CompletedResponse) : Prop where
  id : (ResponseMetadata.decode raw).id = response.id
  model : (ResponseMetadata.decode raw).model = response.model
  input : (parseResponseUsage (some raw) .zero).inputTokens = 0 ∨
    (parseResponseUsage (some raw) .zero).inputTokens = response.inputTokens
  output : (parseResponseUsage (some raw) .zero).outputTokens = 0 ∨
    (parseResponseUsage (some raw) .zero).outputTokens = response.outputTokens
  reasoning : (parseResponseUsage (some raw) .zero).hasReasoningTokens = true →
    response.reasoningTokens = some (parseResponseUsage (some raw) .zero).reasoningTokens

instance (raw : Raw) (response : CompletedResponse) : Decidable (Foretells raw response) :=
  decidable_of_iff (_ ∧ _ ∧ (_ ∨ _) ∧ (_ ∨ _) ∧ (_ → _))
    ⟨fun ⟨id, model, input, output, reasoning⟩ => ⟨id, model, input, output, reasoning⟩,
      fun h => ⟨h.id, h.model, h.input, h.output, h.reasoning⟩⟩

/-- **The events that announce a response.** The first creates it, the last completes it. Between
them the items are added, and the deltas, however they are cut, make up its texts, its reasoning
and the arguments of each call. -/
structure Announcement where
  raw : Raw
  response : CompletedResponse
  items : List OutputItem
  created : ChatEvent
  steps : List (Step × ChatEvent)
  completed : ChatEvent
  decoded : CompletedResponse.decode raw = some response
  listed : List.Forall₂ OutputItem.Reads response.output items
  creates : created.type = "response.created" ∧
    ∀ r ∈ created.response, Foretells r response
  said : ∀ s ∈ steps, Step.IsSaidBy items s.2 s.1
  ordered : Step.Ordered items 0 (steps.map Prod.fst)
  texts : join ((steps.map Prod.fst).filterMap Step.text?) "" = join (items.flatMap (·.texts)) ""
  reasoning : join ((steps.map Prod.fst).filterMap Step.reasoning?) "" =
    join (items.flatMap (·.reasoningTexts)) ""
  arguments : ∀ index callID name text, items[index]? = some (.functionCall callID name text) →
    join ((steps.map Prod.fst).filterMap (Step.arguments? index)) "" = text
  completes : completed.type = "response.completed" ∧ completed.response = some raw

namespace Announcement

def events (a : Announcement) : List ChatEvent :=
  a.created :: a.steps.map Prod.snd ++ [a.completed]

end Announcement

end CodexOne.Chat
