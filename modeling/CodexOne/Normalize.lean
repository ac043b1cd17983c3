import CodexOne.Lib.JsonFloat

/-!
Normalization of a Responses request, `internal/proxy/normalize.go`.

A body is taken and returned decoded; `decodeObject_marshal` makes this the same as handing on
its text. Go changes nested maps in place, here the changed value is stored back.
-/

namespace CodexOne.Normalize

open GoStrings Members

def canonicalReasoningEffort (value : String) : String :=
  let normalized := toLower (trimSpace value)
  let compact := String.ofList (normalized.toList.filter fun c => c ≠ '-' ∧ c ≠ '_' ∧ c ≠ ' ')
  if compact = "off" ∨ compact = "disabled" then "none"
  else if compact = "xhigh" ∨ compact = "extrahigh" then "xhigh"
  else if compact = "maximum" then "max"
  else normalized

/-- The part of `normalizeReasoningConfig` that rewrites the reasoning object. -/
def normalizeReasoningObject (reasoning : Obj) (flatEffort : String) : Obj :=
  let effort := (Obj.val reasoning "effort").text
  let effort := if trimSpace effort = "" then flatEffort else effort
  let effort := canonicalReasoningEffort effort
  let effort := if effort = "auto" then "medium" else effort
  let reasoning := if effort ≠ "" then set reasoning "effort" (.str effort) else reasoning
  let reasoning :=
    if has reasoning "summary" then reasoning
    else match Obj.val reasoning "generate_summary" with
      | .str legacy =>
        if trimSpace legacy ≠ "" then
          set reasoning "summary" (.str (toLower (trimSpace legacy)))
        else if effort ≠ "" ∧ effort ≠ "none" then set reasoning "summary" (.str "auto")
        else reasoning
      | _ => if effort ≠ "" ∧ effort ≠ "none" then set reasoning "summary" (.str "auto")
        else reasoning
  erase reasoning "generate_summary"

def normalizeReasoningConfig (body : Obj) : Obj :=
  let flatEffort := (Obj.val body "reasoning_effort").text
  let reasoning := Obj.val body "reasoning"
  let body := erase body "reasoning_effort"
  match reasoning with
  | .obj r => set body "reasoning" (.obj (normalizeReasoningObject r flatEffort))
  | _ =>
    if trimSpace flatEffort ≠ "" then
      set body "reasoning" (.obj (normalizeReasoningObject [] flatEffort))
    else body

def normalizeInputItem (item : Obj) : Obj :=
  let item := if Obj.val item "role" = .str "system" then set item "role" (.str "developer")
    else item
  modify item "content" (JsonOf.mapItems (JsonOf.mapObj (erase · "prompt_cache_breakpoint")))

def normalizeInput (value : Json) : Json := value.mapItems (JsonOf.mapObj normalizeInputItem)

def normalizeToolType (tool : Obj) : Obj :=
  let kind := Obj.val tool "type"
  if kind = .str "web_search_preview" ∨ kind = .str "web_search_preview_2025_03_11" then
    set tool "type" (.str "web_search")
  else tool

def normalizeTools (value : Json) : Json := value.mapItems (JsonOf.mapObj normalizeToolType)

/-- What `normalizeResponsesRequest` does with an object `tool_choice`. -/
def normalizeToolChoice (choice : Obj) : Obj :=
  modify (normalizeToolType choice) "tools" normalizeTools

/-- The options the upstream does not take. -/
def droppedFields : List String :=
  ["max_output_tokens", "max_completion_tokens", "temperature", "top_p", "truncation",
    "prompt_cache_options", "prompt_cache_retention", "context_management", "user"]

/-- The input item a string input stands for. -/
def inputMessage (input : String) : Json :=
  .obj [("content", .arr [.obj [("text", .str input), ("type", .str "input_text")]]),
    ("role", .str "user"), ("type", .str "message")]

/-- A string input becomes a list of one message. -/
def wrapInput (body : Obj) : Obj :=
  match Obj.val body "input" with
  | .str input => set body "input" (.arr [inputMessage input])
  | _ => body

/-- The fields that are defaulted, dropped when they are null, or forced. -/
def forceFields (body : Obj) : Obj :=
  let body := if Obj.val body "instructions" = .null then set body "instructions" (.str "")
    else body
  let body := if Obj.val body "tools" = .null then erase body "tools" else body
  let body := if Obj.val body "reasoning" = .null then erase body "reasoning" else body
  let body := set body "stream" (.bool true)
  let body := set body "store" (.bool false)
  let body := set body "parallel_tool_calls" (.bool true)
  set body "include" (.arr [.str "reasoning.encrypted_content"])

/-- The only service tier that is passed on is `priority`. -/
def dropServiceTier (body : Obj) : Obj :=
  match Obj.val body "service_tier" with
  | .str tier => if tier ≠ "priority" then erase body "service_tier" else body
  | _ => body

/-- The first half of `normalizeResponsesRequest`: the fields that are set or removed. -/
def normalizeFields (body : Obj) : Obj :=
  dropServiceTier (droppedFields.foldl erase
    (normalizeReasoningConfig (forceFields (wrapInput body))))

/-- The second half: the items, the tools and the tool choice. -/
def normalizeNested (body : Obj) : Obj :=
  let body := modify body "input" normalizeInput
  let body := modify body "tools" normalizeTools
  modify body "tool_choice" (JsonOf.mapObj normalizeToolChoice)

/-- `normalizeResponsesRequest`: the body to send, whether the client asked for a stream, and
the model. -/
def normalizeResponsesRequest (body : Obj) : Except String (Obj × Bool × String) :=
  let requestedStream := (Obj.val body "stream").flag
  let model := (Obj.val body "model").text
  if model = "" then .error "model is required"
  else if Obj.val body "input" = .null then .error "input is required"
  else .ok (normalizeNested (normalizeFields body), requestedStream, model)

/-! ### The fields of a normalized body -/

lemma normalizeResponsesRequest_ok {body b : Obj} {s : Bool} {m : String}
    (h : normalizeResponsesRequest body = .ok (b, s, m)) :
    b = normalizeNested (normalizeFields body) ∧ (Obj.val body "model").text ≠ "" ∧
      Obj.val body "input" ≠ .null := by
  unfold normalizeResponsesRequest at h
  dsimp only at h
  split_ifs at h with h1 h2
  simp only [Except.ok.injEq, Prod.mk.injEq] at h
  exact ⟨h.1.symm, h1, h2⟩

lemma get_foldl_erase (fields : List String) (body : Obj) (k : String) :
    get (fields.foldl erase body) k = if k ∈ fields then none else get body k := by
  induction fields generalizing body with
  | nil => simp
  | cons f fields ih =>
    rw [List.foldl_cons, ih, get_erase]
    by_cases h1 : k ∈ fields
    · simp [h1]
    · by_cases h2 : k = f <;> simp [h1, h2]

lemma get_normalizeReasoningConfig (body : Obj) {k : String} (h1 : k ≠ "reasoning")
    (h2 : k ≠ "reasoning_effort") : get (normalizeReasoningConfig body) k = get body k := by
  unfold normalizeReasoningConfig
  dsimp only
  split
  · rw [get_set_ne _ _ h1, get_erase_ne _ h2]
  · split_ifs
    · rw [get_set_ne _ _ h1, get_erase_ne _ h2]
    · rw [get_erase_ne _ h2]

lemma get_dropServiceTier (body : Obj) {k : String} (h : k ≠ "service_tier") :
    get (dropServiceTier body) k = get body k := by
  unfold dropServiceTier
  split
  · split_ifs
    · rw [get_erase_ne _ h]
    · rfl
  · rfl

lemma get_normalizeFields (body : Obj) {k : String} (h1 : k ≠ "reasoning")
    (h2 : k ≠ "reasoning_effort") (h3 : k ∉ droppedFields) (h4 : k ≠ "service_tier") :
    get (normalizeFields body) k = get (forceFields (wrapInput body)) k := by
  unfold normalizeFields
  rw [get_dropServiceTier _ h4, get_foldl_erase, if_neg h3, get_normalizeReasoningConfig _ h1 h2]

lemma get_wrapInput_ne (body : Obj) {k : String} (h : k ≠ "input") :
    get (wrapInput body) k = get body k := by
  unfold wrapInput
  split
  · rw [get_set_ne _ _ h]
  · rfl

lemma get_ite_set (p : Prop) [Decidable p] (body : Obj) (f : String) (v : Json) (k : String) :
    get (if p then set body f v else body) k = if k = f ∧ p then some v else get body k := by
  by_cases hp : p <;> simp [hp, get_set]

lemma get_ite_erase (p : Prop) [Decidable p] (body : Obj) (f : String) (k : String) :
    get (if p then erase body f else body) k = if k = f ∧ p then none else get body k := by
  by_cases hp : p <;> simp [hp, get_erase]

lemma get_forceFields_other (body : Obj) {k : String}
    (h : k ∉ ["instructions", "tools", "reasoning", "stream", "store", "parallel_tool_calls",
      "include"]) : get (forceFields body) k = get body k := by
  simp only [List.mem_cons, List.not_mem_nil, or_false, not_or] at h
  obtain ⟨h1, h2, h3, h4, h5, h6, h7⟩ := h
  unfold forceFields
  dsimp only
  rw [get_set_ne _ _ h7, get_set_ne _ _ h6, get_set_ne _ _ h5, get_set_ne _ _ h4, get_ite_erase,
    get_ite_erase, get_ite_set, if_neg (by simp [h3]), if_neg (by simp [h2]),
    if_neg (by simp [h1])]

lemma get_normalizeNested_ne (body : Obj) {k : String} (h1 : k ≠ "input") (h2 : k ≠ "tools")
    (h3 : k ≠ "tool_choice") : get (normalizeNested body) k = get body k := by
  unfold normalizeNested
  dsimp only
  rw [get_modify_ne _ _ h3, get_modify_ne _ _ h2, get_modify_ne _ _ h1]

section
open JsonOf

lemma canon_obj_ite {p : Prop} [Decidable p] {o q : Obj} (ho : (obj o).canon = obj o)
    (hq : (obj q).canon = obj q) : (obj (if p then o else q)).canon = obj (if p then o else q) := by
  split_ifs <;> assumption

lemma canon_foldl_erase {body : Obj} (h : (obj body).canon = obj body) (fields : List String) :
    (obj (fields.foldl erase body)).canon = obj (fields.foldl erase body) := by
  induction fields generalizing body with
  | nil => exact h
  | cons f fields ih => exact ih (canon_erase h f)

lemma canon_normalizeReasoningObject {r : Obj} (h : (obj r).canon = obj r) (flat : String) :
    (obj (normalizeReasoningObject r flat)).canon = obj (normalizeReasoningObject r flat) := by
  unfold normalizeReasoningObject
  dsimp only
  refine canon_erase ?_ _
  generalize (if canonicalReasoningEffort _ = "auto" then _ else _) = effort
  have he : (obj (if effort ≠ "" then set r "effort" (.str effort) else r)).canon =
      obj (if effort ≠ "" then set r "effort" (.str effort) else r) :=
    canon_obj_ite (canon_set h _ rfl) h
  revert he
  generalize (if effort ≠ "" then set r "effort" (.str effort) else r) = r'
  intro he
  refine canon_obj_ite he ?_
  split
  · exact canon_obj_ite (canon_set he _ rfl) (canon_obj_ite (canon_set he _ rfl) he)
  · exact canon_obj_ite (canon_set he _ rfl) he

lemma canon_normalizeReasoningConfig {body : Obj} (h : (obj body).canon = obj body) :
    (obj (normalizeReasoningConfig body)).canon = obj (normalizeReasoningConfig body) := by
  unfold normalizeReasoningConfig
  dsimp only
  have he := canon_erase h "reasoning_effort"
  split
  · rename_i r hr
    refine canon_set he _ (canon_normalizeReasoningObject ?_ _)
    unfold Obj.val at hr
    cases hg : get body "reasoning" with
    | none => rw [hg] at hr; cases hr
    | some v =>
      rw [hg] at hr
      cases (hr : v = .obj r)
      exact canon_get h hg
  · -- no object to begin with: a flat effort makes one
    exact canon_obj_ite (canon_set he _ (canon_normalizeReasoningObject rfl _)) he

lemma canon_normalizeToolType {tool : Obj} (h : (obj tool).canon = obj tool) :
    (obj (normalizeToolType tool)).canon = obj (normalizeToolType tool) :=
  canon_obj_ite (canon_set h _ rfl) h

lemma canon_normalizeTools {v : Json} (h : v.canon = v) :
    (normalizeTools v).canon = normalizeTools v :=
  canon_mapItems h fun _ hv => canon_mapObj hv fun _ => canon_normalizeToolType

lemma canon_normalizeInput {v : Json} (h : v.canon = v) :
    (normalizeInput v).canon = normalizeInput v :=
  canon_mapItems h fun _ hv => canon_mapObj hv fun _ ho =>
    canon_modify (canon_obj_ite (canon_set ho _ rfl) ho) _ fun _ hc =>
      canon_mapItems hc fun _ hp => canon_mapObj hp fun _ hq => canon_erase hq _

lemma canon_normalizeNested {body : Obj} (h : (obj body).canon = obj body) :
    (obj (normalizeNested body)).canon = obj (normalizeNested body) :=
  canon_modify (canon_modify (canon_modify h _ fun _ => canon_normalizeInput) _
    fun _ => canon_normalizeTools) _ fun _ hv => canon_mapObj hv fun _ ho =>
      canon_modify (canon_normalizeToolType ho) _ fun _ => canon_normalizeTools

lemma canon_inputMessage (input : String) : (inputMessage input).canon = inputMessage input := by
  have hpart : (obj [("text", str input), ("type", str "input_text")] : Json).canon =
      obj [("text", str input), ("type", str "input_text")] :=
    canon_obj_iff.mpr
      ⟨sorted_of_keys (show ["text", "type"].Pairwise (· < ·) by decide), by simp [canon]⟩
  refine canon_obj_iff.mpr
    ⟨sorted_of_keys (show ["content", "role", "type"].Pairwise (· < ·) by decide), ?_⟩
  simp only [List.mem_cons, List.not_mem_nil, or_false, forall_eq_or_imp, forall_eq, canon_arr,
    List.map_cons, List.map_nil, hpart]
  exact ⟨trivial, rfl, rfl⟩

lemma canon_wrapInput {body : Obj} (h : (obj body).canon = obj body) :
    (obj (wrapInput body)).canon = obj (wrapInput body) := by
  unfold wrapInput
  split
  · exact canon_set h _ (canon_arr_iff.mpr (by simp [canon_inputMessage]))
  · exact h

lemma canon_forceFields {body : Obj} (h : (obj body).canon = obj body) :
    (obj (forceFields body)).canon = obj (forceFields body) := by
  have hset := canon_obj_ite (p := Obj.val body "instructions" = .null)
    (canon_set h "instructions" (v := .str "") rfl) h
  have hdrop : ∀ {o : Obj} (k : String), (obj o).canon = obj o →
      (obj (if Obj.val o k = .null then erase o k else o)).canon =
        obj (if Obj.val o k = .null then erase o k else o) :=
    fun k ho => canon_obj_ite (canon_erase ho k) ho
  exact canon_set (canon_set (canon_set (canon_set (hdrop _ (hdrop _ hset)) _ rfl) _ rfl) _ rfl) _
    (canon_arr_iff.mpr (by simp [canon]))

lemma canon_dropServiceTier {body : Obj} (h : (obj body).canon = obj body) :
    (obj (dropServiceTier body)).canon = obj (dropServiceTier body) := by
  unfold dropServiceTier
  split
  · exact canon_obj_ite (canon_erase h _) h
  · exact h

lemma canon_normalizeFields {body : Obj} (h : (obj body).canon = obj body) :
    (obj (normalizeFields body)).canon = obj (normalizeFields body) :=
  canon_dropServiceTier (canon_foldl_erase
    (canon_normalizeReasoningConfig (canon_forceFields (canon_wrapInput h))) _)

lemma canon_normalizeResponsesRequest {body b : Obj} {s : Bool} {m : String}
    (h : (obj body).canon = obj body) (hn : normalizeResponsesRequest body = .ok (b, s, m)) :
    (obj b).canon = obj b := by
  rw [(normalizeResponsesRequest_ok hn).1]
  exact canon_normalizeNested (canon_normalizeFields h)

end

end CodexOne.Normalize
