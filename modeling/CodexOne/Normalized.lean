import CodexOne.Normalize

/-!
A normalized request, field by field, and what normalizing it again does.
-/

namespace CodexOne

open Members JsonOf

namespace Normalize

variable (body : Obj)

lemma get_normalizeNested (k : String) :
    get (normalizeNested body) k =
      if k = "tool_choice" then (get body k).map (mapObj normalizeToolChoice)
      else if k = "tools" then (get body k).map normalizeTools
      else if k = "input" then (get body k).map normalizeInput
      else get body k := by
  unfold normalizeNested
  dsimp only
  by_cases h1 : k = "tool_choice"
  · subst h1
    rw [get_modify, if_pos rfl, get_modify_ne _ _ (by decide), get_modify_ne _ _ (by decide),
      if_pos rfl]
  rw [get_modify_ne _ _ h1, if_neg h1]
  by_cases h2 : k = "tools"
  · subst h2
    rw [get_modify, if_pos rfl, get_modify_ne _ _ (by decide), if_pos rfl]
  rw [get_modify_ne _ _ h2, if_neg h2, get_modify]
  split_ifs with h3
  · rw [h3]
  · rfl

lemma get_forced {k : String} (h1 : k ≠ "reasoning") (h2 : k ≠ "reasoning_effort")
    (h3 : k ∉ droppedFields) (h4 : k ≠ "service_tier") (h5 : k ≠ "input") (h6 : k ≠ "tools")
    (h7 : k ≠ "tool_choice") :
    get (normalizeNested (normalizeFields body)) k = get (forceFields (wrapInput body)) k := by
  rw [get_normalizeNested, if_neg h7, if_neg h6, if_neg h5, get_normalizeFields _ h1 h2 h3 h4]

lemma get_store : get (normalizeNested (normalizeFields body)) "store" = some (.bool false) := by
  rw [get_forced _ (by decide) (by decide) (by decide) (by decide) (by decide) (by decide)
    (by decide)]
  unfold forceFields
  dsimp only
  rw [get_set_ne _ _ (by decide), get_set_ne _ _ (by decide), get_set_self]

lemma get_parallelToolCalls :
    get (normalizeNested (normalizeFields body)) "parallel_tool_calls" = some (.bool true) := by
  rw [get_forced _ (by decide) (by decide) (by decide) (by decide) (by decide) (by decide)
    (by decide)]
  unfold forceFields
  dsimp only
  rw [get_set_ne _ _ (by decide), get_set_self]

lemma get_instructions :
    get (normalizeNested (normalizeFields body)) "instructions" =
      some (if Obj.val body "instructions" = .null then .str ""
        else Obj.val body "instructions") := by
  rw [get_forced _ (by decide) (by decide) (by decide) (by decide) (by decide) (by decide)
    (by decide)]
  have hv : Obj.val (wrapInput body) "instructions" = Obj.val body "instructions" :=
    Obj.val_congr (get_wrapInput_ne _ (by decide))
  unfold forceFields
  dsimp only
  rw [get_set_ne _ _ (by decide), get_set_ne _ _ (by decide), get_set_ne _ _ (by decide),
    get_set_ne _ _ (by decide), get_ite_erase, get_ite_erase, get_ite_set, hv]
  rw [if_neg (by simp), if_neg (by simp)]
  split_ifs with h1 h2 h2
  · rfl
  · exact absurd h1.2 h2
  · exact absurd ⟨rfl, h2⟩ h1
  · rw [get_wrapInput_ne _ (by decide)]
    unfold Obj.val at h2 ⊢
    cases hg : get body "instructions" with
    | none => simp [hg] at h2
    | some v => rfl

lemma get_tools :
    get (normalizeNested (normalizeFields body)) "tools" =
      ((get body "tools").filter (· ≠ .null)).map normalizeTools := by
  rw [get_normalizeNested, if_neg (by decide), if_pos rfl,
    get_normalizeFields _ (by decide) (by decide) (by decide) (by decide)]
  congr 1
  have hb : get (if Obj.val (wrapInput body) "instructions" = .null then
      set (wrapInput body) "instructions" (.str "") else wrapInput body) "tools" =
      get body "tools" := by
    rw [get_ite_set, if_neg (by simp), get_wrapInput_ne _ (by decide)]
  unfold forceFields
  dsimp only
  rw [get_set_ne _ _ (by decide), get_set_ne _ _ (by decide), get_set_ne _ _ (by decide),
    get_set_ne _ _ (by decide), get_ite_erase, if_neg (by simp), get_ite_erase, hb,
    Obj.val_congr hb]
  unfold Obj.val
  cases hg : get body "tools" with
  | none => simp
  | some v => by_cases h : v = .null <;> simp [h, Option.filter]

lemma get_toolChoice :
    get (normalizeNested (normalizeFields body)) "tool_choice" =
      (get body "tool_choice").map (mapObj normalizeToolChoice) := by
  rw [get_normalizeNested, if_pos rfl,
    get_normalizeFields _ (by decide) (by decide) (by decide) (by decide),
    get_forceFields_other _ (by decide), get_wrapInput_ne _ (by decide)]

lemma get_input :
    get (normalizeNested (normalizeFields body)) "input" =
      (get (wrapInput body) "input").map normalizeInput := by
  rw [get_normalizeNested, if_neg (by decide), if_neg (by decide), if_pos rfl,
    get_normalizeFields _ (by decide) (by decide) (by decide) (by decide),
    get_forceFields_other _ (by decide)]

lemma modify_of_get {o : Obj} (h : Sorted o) {k : String} {f : Json → Json}
    (hf : ∀ v, get o k = some v → f v = v) : Members.modify o k f = o := by
  unfold Members.modify
  cases hv : get o k with
  | none => rfl
  | some v => exact (congrArg (set o k) (hf v hv)).trans (set_of_get h hv)

lemma erase_of_get {o : Obj} {k : String} (h : get o k = none) : erase o k = o := by
  refine List.filter_eq_self.mpr fun m hm => ?_
  have hne : m.1 ≠ k := by
    rintro rfl
    induction o with
    | nil => cases hm
    | cons n o ih =>
      rw [show n = (n.1, n.2) from rfl, get_cons] at h
      split_ifs at h with hk
      rcases List.mem_cons.mp hm with rfl | hm
      · exact hk rfl
      · exact ih hm h
  simpa using hne

lemma mapObj_idem {f : Obj → Obj} {v : Json} (h : ∀ o, v = .obj o → f (f o) = f o) :
    mapObj f (mapObj f v) = mapObj f v := by
  cases v with
  | obj o => exact congrArg obj (h o rfl)
  | _ => rfl

lemma mapItems_idem {f : Json → Json} {v : Json} (h : ∀ x ∈ v.items, f (f x) = f x) :
    mapItems f (mapItems f v) = mapItems f v := by
  cases v with
  | arr xs => simpa [mapItems] using h
  | _ => rfl

/-! ### Reasoning -/

lemma canonicalReasoningEffort_idem (value : String) :
    canonicalReasoningEffort (canonicalReasoningEffort value) = canonicalReasoningEffort value := by
  have htrim : GoStrings.trimSpace (GoStrings.toLower (GoStrings.trimSpace value)) =
      GoStrings.toLower (GoStrings.trimSpace value) :=
    GoStrings.trimmed_iff.mp (GoStrings.trimmed_iff.mpr (GoStrings.trimSpace_idem value)).toLower
  generalize hn : GoStrings.toLower (GoStrings.trimSpace value) = n at htrim
  have hagain : GoStrings.toLower (GoStrings.trimSpace n) = n := by
    rw [htrim, ← hn, GoStrings.toLower_idem]
  have hvalue : canonicalReasoningEffort value = canonicalReasoningEffort n := by
    unfold canonicalReasoningEffort
    rw [hn, hagain]
  rw [hvalue]
  generalize hc : String.ofList (n.toList.filter fun c => c ≠ '-' ∧ c ≠ '_' ∧ c ≠ ' ') = compact
  have hcanon : canonicalReasoningEffort n =
      if compact = "off" ∨ compact = "disabled" then "none"
      else if compact = "xhigh" ∨ compact = "extrahigh" then "xhigh"
      else if compact = "maximum" then "max"
      else n := by
    unfold canonicalReasoningEffort
    rw [hagain, ← hc]
  by_cases hoff : compact = "off" ∨ compact = "disabled"
  · rw [hcanon, if_pos hoff]
    decide
  by_cases hx : compact = "xhigh" ∨ compact = "extrahigh"
  · rw [hcanon, if_neg hoff, if_pos hx]
    decide
  by_cases hmax : compact = "maximum"
  · rw [hcanon, if_neg hoff, if_neg hx, if_pos hmax]
    decide
  · have hself : canonicalReasoningEffort n = n := by
      rw [hcanon, if_neg hoff, if_neg hx, if_neg hmax]
    rw [hself, hself]

lemma trimSpace_canonicalReasoningEffort (value : String) :
    GoStrings.trimSpace (canonicalReasoningEffort value) = canonicalReasoningEffort value ∧
      (canonicalReasoningEffort value = "" ↔ GoStrings.trimSpace value = "") := by
  have htrim : GoStrings.trimSpace (GoStrings.toLower (GoStrings.trimSpace value)) =
      GoStrings.toLower (GoStrings.trimSpace value) :=
    GoStrings.trimmed_iff.mp (GoStrings.trimmed_iff.mpr (GoStrings.trimSpace_idem value)).toLower
  have hempty : GoStrings.toLower (GoStrings.trimSpace value) = "" ↔
      GoStrings.trimSpace value = "" := GoStrings.toLower_eq_empty
  unfold canonicalReasoningEffort
  dsimp only
  split_ifs with hoff hx hmax
  · refine ⟨by decide, iff_of_false (by decide) fun h => ?_⟩
    rw [h] at hoff
    revert hoff
    decide
  · refine ⟨by decide, iff_of_false (by decide) fun h => ?_⟩
    rw [h] at hx
    revert hx
    decide
  · refine ⟨by decide, iff_of_false (by decide) fun h => ?_⟩
    rw [h] at hmax
    revert hmax
    decide
  · exact ⟨htrim, hempty⟩

def objectEffort (reasoning : Obj) (flatEffort : String) : String :=
  let effort := (Obj.val reasoning "effort").text
  let effort := canonicalReasoningEffort (if GoStrings.trimSpace effort = "" then flatEffort
    else effort)
  if effort = "auto" then "medium" else effort

/-- The summary that a reasoning object gets when it has none. -/
def addedSummary (reasoning : Obj) (effort : String) : Option String :=
  let default := if effort ≠ "" ∧ effort ≠ "none" then some "auto" else none
  if has reasoning "summary" then none
  else match Obj.val reasoning "generate_summary" with
    | .str legacy =>
      if GoStrings.trimSpace legacy ≠ "" then
        some (GoStrings.toLower (GoStrings.trimSpace legacy))
      else default
    | _ => default

def withSummary (reasoning : Obj) (effort : String) : Obj :=
  let reasoning := if effort ≠ "" then set reasoning "effort" (.str effort) else reasoning
  match addedSummary reasoning effort with
  | some summary => set reasoning "summary" (.str summary)
  | none => reasoning

lemma normalizeReasoningObject_eq (reasoning : Obj) (flatEffort : String) :
    normalizeReasoningObject reasoning flatEffort =
      erase (withSummary reasoning (objectEffort reasoning flatEffort)) "generate_summary" := by
  unfold normalizeReasoningObject objectEffort
  dsimp only
  generalize (if canonicalReasoningEffort _ = "auto" then _ else _) = effort
  congr 1
  unfold withSummary
  dsimp only
  generalize (if effort ≠ "" then set reasoning "effort" (.str effort) else reasoning) = r
  unfold addedSummary
  dsimp only
  by_cases hhas : has r "summary" = true
  · rw [if_pos hhas, if_pos hhas]
  · rw [if_neg hhas, if_neg hhas]
    cases Obj.val r "generate_summary" with
    | str legacy =>
      dsimp only
      split_ifs <;> rfl
    | _ =>
      dsimp only
      split_ifs <;> rfl

lemma objectEffort_canonical (reasoning : Obj) (flatEffort : String) :
    ∃ value, canonicalReasoningEffort value = objectEffort reasoning flatEffort ∧
      objectEffort reasoning flatEffort ≠ "auto" := by
  have hmedium : canonicalReasoningEffort "medium" = "medium" := by decide
  unfold objectEffort
  dsimp only
  generalize (if GoStrings.trimSpace _ = "" then _ else _) = value
  by_cases hauto : canonicalReasoningEffort value = "auto"
  · rw [if_pos hauto]
    exact ⟨"medium", hmedium, by decide⟩
  · rw [if_neg hauto]
    exact ⟨value, rfl, hauto⟩

lemma objectEffort_eq {reasoning written : Obj} {flatEffort : String}
    (h : get written "effort" = if objectEffort reasoning flatEffort ≠ "" then
      some (.str (objectEffort reasoning flatEffort)) else get reasoning "effort") :
    objectEffort written "" = objectEffort reasoning flatEffort := by
  have hblank : canonicalReasoningEffort "" = "" := by decide
  by_cases hempty : objectEffort reasoning flatEffort = ""
  · rw [if_neg (by simpa using hempty)] at h
    have hval : Obj.val written "effort" = Obj.val reasoning "effort" := Obj.val_congr h
    rw [hempty]
    unfold objectEffort at hempty ⊢
    dsimp only at hempty ⊢
    rw [hval]
    by_cases htext : GoStrings.trimSpace (Obj.val reasoning "effort").text = ""
    · rw [if_pos htext, hblank]
      rfl
    · rw [if_neg htext] at hempty ⊢
      exact hempty
  · rw [if_pos hempty] at h
    have hval : (Obj.val written "effort").text = objectEffort reasoning flatEffort := by
      rw [Obj.val_of_get h]
      exact text_str _
    obtain ⟨value, hvalue, hauto⟩ := objectEffort_canonical reasoning flatEffort
    have hcanon := canonicalReasoningEffort_idem value
    have htrim := (trimSpace_canonicalReasoningEffort value).1
    rw [hvalue] at hcanon htrim
    generalize objectEffort reasoning flatEffort = effort at *
    unfold objectEffort
    dsimp only
    rw [hval, htrim, if_neg hempty, hcanon, if_neg hauto]

lemma get_withSummary (reasoning : Obj) (effort : String) {k : String} (h : k ≠ "summary") :
    get (withSummary reasoning effort) k =
      if k = "effort" ∧ effort ≠ "" then some (.str effort) else get reasoning k := by
  rw [← get_ite_set]
  unfold withSummary
  dsimp only
  cases addedSummary _ effort with
  | none => rfl
  | some summary => exact get_set_ne _ _ h

lemma has_withSummary (reasoning : Obj) {effort : String} (h : effort ≠ "" ∧ effort ≠ "none") :
    has (withSummary reasoning effort) "summary" = true := by
  unfold withSummary
  dsimp only
  generalize (if effort ≠ "" then set reasoning "effort" (.str effort) else reasoning) = r
  by_cases hhas : has r "summary" = true
  · rw [addedSummary, if_pos hhas]
    exact hhas
  · have hadded : (addedSummary r effort).isSome = true := by
      rw [addedSummary, if_neg hhas, if_pos h]
      cases Obj.val r "generate_summary" with
      | str legacy =>
        dsimp only
        split_ifs <;> rfl
      | _ => rfl
    obtain ⟨summary, hsummary⟩ := Option.isSome_iff_exists.mp hadded
    rw [hsummary]
    exact has_set_self ..

/-- **Reasoning.** A normalized reasoning object is normalized to itself. -/
lemma normalizeReasoningObject_idem {reasoning : Obj} (h : (obj reasoning).canon = obj reasoning)
    (flatEffort : String) :
    normalizeReasoningObject (normalizeReasoningObject reasoning flatEffort) "" =
      normalizeReasoningObject reasoning flatEffort := by
  have hsorted : Sorted (normalizeReasoningObject reasoning flatEffort) :=
    (canon_obj_iff.mp (canon_normalizeReasoningObject h flatEffort)).1
  rw [normalizeReasoningObject_eq reasoning] at hsorted ⊢
  generalize heffort : objectEffort reasoning flatEffort = effort at hsorted ⊢
  generalize hwritten : erase (withSummary reasoning effort) "generate_summary" = written
    at hsorted ⊢
  have hget : get written "effort" = if effort ≠ "" then some (.str effort)
      else get reasoning "effort" := by
    rw [← hwritten, get_erase_ne _ (by decide), get_withSummary _ _ (by decide)]
    simp
  have hlegacy : get written "generate_summary" = none := by rw [← hwritten, get_erase_self]
  have hsame : objectEffort written "" = effort := by
    rw [← heffort] at hget ⊢
    exact objectEffort_eq hget
  have hkept : (if effort ≠ "" then set written "effort" (.str effort) else written) = written := by
    by_cases hne : effort ≠ ""
    · rw [if_pos hne] at hget ⊢
      exact set_of_get hsorted hget
    · rw [if_neg hne]
  rw [normalizeReasoningObject_eq, hsame]
  -- no summary is added: there is one already, or the effort asks for none
  have hadded : addedSummary written effort = none := by
    by_cases hhas : has written "summary" = true
    · rw [addedSummary, if_pos hhas]
    · have hnone : ¬(effort ≠ "" ∧ effort ≠ "none") := fun hreason => by
        have hset := has_withSummary reasoning hreason
        unfold has at hset hhas
        rw [← hwritten, get_erase_ne _ (by decide)] at hhas
        exact hhas hset
      have hval : Obj.val written "generate_summary" = .null := by rw [Obj.val, hlegacy]; rfl
      rw [addedSummary, if_neg hhas, hval]
      exact if_neg hnone
  have hsummary : withSummary written effort = written := by
    unfold withSummary
    dsimp only
    rw [hkept, hadded]
  rw [hsummary, erase_of_get hlegacy]

def IsPreview (kind : Json) : Prop :=
  kind = .str "web_search_preview" ∨ kind = .str "web_search_preview_2025_03_11"

lemma normalizeToolType_of_not {tool : Obj} (h : ¬IsPreview (Obj.val tool "type")) :
    normalizeToolType tool = tool := if_neg h

lemma type_normalizeToolType (tool : Obj) :
    ¬IsPreview (Obj.val (normalizeToolType tool) "type") := by
  by_cases h : IsPreview (Obj.val tool "type")
  · have hset : normalizeToolType tool = set tool "type" (.str "web_search") := if_pos h
    rw [hset, Obj.val_of_get (get_set_self ..)]
    simp [IsPreview]
  · rwa [normalizeToolType_of_not h]

lemma normalizeTools_idem (v : Json) : normalizeTools (normalizeTools v) = normalizeTools v :=
  mapItems_idem fun _ _ => mapObj_idem fun _ _ =>
    normalizeToolType_of_not (type_normalizeToolType _)

lemma normalizeToolChoice_idem {choice : Obj} (h : (obj choice).canon = obj choice) :
    normalizeToolChoice (normalizeToolChoice choice) = normalizeToolChoice choice := by
  have hcanon : (obj (normalizeToolChoice choice)).canon = obj (normalizeToolChoice choice) :=
    canon_modify (canon_normalizeToolType h) _ fun _ => canon_normalizeTools
  have htype : normalizeToolType (normalizeToolChoice choice) = normalizeToolChoice choice := by
    have hsame : Obj.val (normalizeToolChoice choice) "type" =
        Obj.val (normalizeToolType choice) "type" := Obj.val_congr (get_modify_ne _ _ (by decide))
    exact normalizeToolType_of_not (hsame ▸ type_normalizeToolType choice)
  have hagain : normalizeToolChoice (normalizeToolChoice choice) =
      Members.modify (normalizeToolChoice choice) "tools" normalizeTools := by
    rw [normalizeToolChoice, htype]
  rw [hagain]
  refine modify_of_get (canon_obj_iff.mp hcanon).1 fun v hv => ?_
  rw [normalizeToolChoice, get_modify, if_pos rfl] at hv
  obtain ⟨w, -, rfl⟩ := Option.map_eq_some_iff.mp hv
  exact normalizeTools_idem w

lemma normalizeInputItem_idem {item : Obj} (h : (obj item).canon = obj item) :
    normalizeInputItem (normalizeInputItem item) = normalizeInputItem item := by
  have hcanon : (obj (normalizeInputItem item)).canon = obj (normalizeInputItem item) :=
    canon_modify (canon_obj_ite (canon_set h _ rfl) h) _ fun _ hc =>
      canon_mapItems hc fun _ hp => canon_mapObj hp fun _ hq => canon_erase hq _
  have hrole : Obj.val (normalizeInputItem item) "role" ≠ .str "system" := by
    unfold normalizeInputItem
    rw [Obj.val_congr (get_modify_ne _ _ (by decide))]
    split_ifs with hsystem
    · rw [Obj.val_of_get (get_set_self ..)]
      simp
    · exact hsystem
  have hagain : normalizeInputItem (normalizeInputItem item) =
      Members.modify (normalizeInputItem item) "content"
        (mapItems (mapObj (erase · "prompt_cache_breakpoint"))) := by
    rw [normalizeInputItem, if_neg hrole]
  rw [hagain]
  refine modify_of_get (canon_obj_iff.mp hcanon).1 fun v hv => ?_
  rw [normalizeInputItem, get_modify, if_pos rfl] at hv
  obtain ⟨w, -, rfl⟩ := Option.map_eq_some_iff.mp hv
  exact mapItems_idem fun _ _ => mapObj_idem fun o _ => erase_of_get (get_erase_self o _)

lemma normalizeInput_idem {v : Json} (h : v.canon = v) :
    normalizeInput (normalizeInput v) = normalizeInput v := by
  refine mapItems_idem fun x hx => mapObj_idem fun o ho => normalizeInputItem_idem ?_
  cases v with
  | arr xs => exact ho ▸ canon_arr_iff.mp h x hx
  | _ => cases hx

/-! ### Every field -/

lemma get_stream : get (normalizeNested (normalizeFields body)) "stream" = some (.bool true) := by
  rw [get_forced _ (by decide) (by decide) (by decide) (by decide) (by decide) (by decide)
    (by decide)]
  unfold forceFields
  dsimp only
  rw [get_set_ne _ _ (by decide), get_set_ne _ _ (by decide), get_set_ne _ _ (by decide),
    get_set_self]

lemma get_include : get (normalizeNested (normalizeFields body)) "include" =
    some (.arr [.str "reasoning.encrypted_content"]) := by
  rw [get_forced _ (by decide) (by decide) (by decide) (by decide) (by decide) (by decide)
    (by decide)]
  exact get_set_self ..

lemma get_dropped {k : String} (h : k ∈ droppedFields ∨ k = "reasoning_effort") :
    get (normalizeNested (normalizeFields body)) k = none := by
  have hnested : ∀ k ∈ droppedFields ++ ["reasoning_effort"],
      k ≠ "input" ∧ k ≠ "tools" ∧ k ≠ "tool_choice" ∧ k ≠ "service_tier" ∧ k ≠ "reasoning" := by
    decide
  obtain ⟨h1, h2, h3, h4, h5⟩ := hnested k (by simpa using h)
  rw [get_normalizeNested_ne _ h1 h2 h3]
  unfold normalizeFields
  rw [get_dropServiceTier _ h4, get_foldl_erase]
  by_cases hdropped : k ∈ droppedFields
  · rw [if_pos hdropped]
  · obtain rfl := h.resolve_left hdropped
    rw [if_neg hdropped]
    unfold normalizeReasoningConfig
    dsimp only
    split
    · rw [get_set_ne _ _ h5, get_erase_self]
    · split_ifs
      · rw [get_set_ne _ _ h5, get_erase_self]
      · rw [get_erase_self]

def keptTier : Json → Bool
  | .str tier => tier = "priority"
  | _ => true

lemma get_serviceTier : get (normalizeNested (normalizeFields body)) "service_tier" =
    (get body "service_tier").filter keptTier := by
  rw [get_normalizeNested_ne _ (by decide) (by decide) (by decide)]
  unfold normalizeFields
  generalize hrest : droppedFields.foldl erase
    (normalizeReasoningConfig (forceFields (wrapInput body))) = rest
  have hget : get rest "service_tier" = get body "service_tier" := by
    rw [← hrest, get_foldl_erase, if_neg (by decide),
      get_normalizeReasoningConfig _ (by decide) (by decide), get_forceFields_other _ (by decide),
      get_wrapInput_ne _ (by decide)]
  unfold dropServiceTier
  rw [Obj.val, hget]
  cases htier : get body "service_tier" with
  | none => exact hget.trans htier
  | some v =>
    rw [htier] at hget
    cases v with
    | str tier =>
      by_cases h : tier = "priority"
      · simp [h, hget, keptTier, Option.filter]
      · simp [h, keptTier, Option.filter]
    | _ => simpa [keptTier, Option.filter] using hget

/-- The reasoning of a normalized request, from that of the request and its flat effort. -/
def reasoningOf (reasoning : Option Json) (flatEffort : String) : Option Json :=
  match reasoning.getD .null with
  | .obj r => some (.obj (normalizeReasoningObject r flatEffort))
  | _ =>
    if GoStrings.trimSpace flatEffort ≠ "" then
      some (.obj (normalizeReasoningObject [] flatEffort))
    else reasoning.filter (· ≠ .null)

lemma get_forced_reasoning : get (forceFields (wrapInput body)) "reasoning" =
      (get body "reasoning").filter (· ≠ .null) ∧
    get (forceFields (wrapInput body)) "reasoning_effort" = get body "reasoning_effort" := by
  constructor
  · have hget {o : Obj} (ho : get o "reasoning" = get body "reasoning") :
        get (if Obj.val o "reasoning" = .null then erase o "reasoning" else o) "reasoning" =
          (get body "reasoning").filter (· ≠ .null) := by
      rw [get_ite_erase, Obj.val, ho]
      cases get body "reasoning" with
      | none => simp
      | some v => by_cases hv : v = .null <;> simp [hv, Option.filter]
    unfold forceFields
    dsimp only
    rw [get_set_ne _ _ (by decide), get_set_ne _ _ (by decide), get_set_ne _ _ (by decide),
      get_set_ne _ _ (by decide)]
    refine hget ?_
    rw [get_ite_erase, if_neg (by simp), get_ite_set, if_neg (by simp),
      get_wrapInput_ne _ (by decide)]
  · rw [get_forceFields_other _ (by decide), get_wrapInput_ne _ (by decide)]

lemma get_reasoning : get (normalizeNested (normalizeFields body)) "reasoning" =
    reasoningOf (get body "reasoning") (Obj.val body "reasoning_effort").text := by
  rw [get_normalizeNested_ne _ (by decide) (by decide) (by decide)]
  unfold normalizeFields
  rw [get_dropServiceTier _ (by decide), get_foldl_erase, if_neg (by decide)]
  obtain ⟨hreasoning, heffort⟩ := get_forced_reasoning body
  generalize forceFields (wrapInput body) = forced at *
  unfold normalizeReasoningConfig reasoningOf
  dsimp only
  rw [Obj.val_congr heffort, Obj.val, hreasoning]
  have hsame : ((get body "reasoning").filter (· ≠ .null)).getD .null =
      (get body "reasoning").getD .null := by
    cases get body "reasoning" with
    | none => rfl
    | some v => by_cases hv : v = .null <;> simp [hv, Option.filter]
  rw [hsame]
  cases (get body "reasoning").getD .null with
  | obj r => exact get_set_self ..
  | _ =>
    dsimp only
    split_ifs
    · exact get_set_self ..
    · rw [get_erase_ne _ (by decide), hreasoning]

/-- The fields that `normalizeResponsesRequest` rewrites or removes. -/
def rewrittenFields : List String :=
  ["stream", "store", "parallel_tool_calls", "include", "instructions", "input", "tools",
    "tool_choice", "reasoning", "reasoning_effort", "service_tier"] ++ droppedFields

/-- **Frame.** Every other field is left alone. -/
lemma get_normalized_other {k : String} (h : k ∉ rewrittenFields) :
    get (normalizeNested (normalizeFields body)) k = get body k := by
  have hdropped : k ∉ droppedFields := fun hk => h (List.mem_append_right _ hk)
  simp only [rewrittenFields, List.mem_append, List.mem_cons, List.not_mem_nil, or_false,
    not_or] at h
  obtain ⟨⟨h1, h2, h3, h4, h5, h6, h7, h8, h9, h10, h11⟩, -⟩ := h
  rw [get_forced _ h9 h10 hdropped h11 h6 h7 h8, get_forceFields_other _ (by simp [*]),
    get_wrapInput_ne _ h6]

lemma reasoningOf_not {reasoning : Option Json} (h : ∀ r, reasoning ≠ some (.obj r))
    (flatEffort : String) : reasoningOf reasoning flatEffort =
      if GoStrings.trimSpace flatEffort ≠ "" then
        some (.obj (normalizeReasoningObject [] flatEffort))
      else reasoning.filter (· ≠ .null) := by
  cases reasoning with
  | none => rfl
  | some v =>
    cases v with
    | obj r => exact absurd rfl (h r)
    | _ => rfl

lemma reasoningOf_idem {reasoning : Option Json} (h : ∀ v ∈ reasoning, v.canon = v)
    (flatEffort : String) :
    reasoningOf (reasoningOf reasoning flatEffort) "" = reasoningOf reasoning flatEffort := by
  have hobj {r : Obj} (hr : (obj r).canon = obj r) (hval : reasoningOf reasoning flatEffort =
      some (obj (normalizeReasoningObject r flatEffort))) :
      reasoningOf (reasoningOf reasoning flatEffort) "" = reasoningOf reasoning flatEffort := by
    rw [hval]
    change some (obj (normalizeReasoningObject (normalizeReasoningObject r flatEffort) "")) = _
    rw [normalizeReasoningObject_idem hr]
  by_cases hnot : ∀ r, reasoning ≠ some (obj r)
  · have hval := reasoningOf_not hnot flatEffort
    by_cases hflat : GoStrings.trimSpace flatEffort ≠ ""
    · rw [if_pos hflat] at hval
      exact hobj rfl hval
    · rw [if_neg hflat] at hval
      have hnot' : ∀ r, reasoning.filter (· ≠ .null) ≠ some (obj r) := fun r hr =>
        hnot r (Option.filter_eq_some_iff.mp hr).1
      rw [hval, reasoningOf_not hnot', if_neg (by simp), Option.filter_filter]
      simp
  · push Not at hnot
    obtain ⟨r, rfl⟩ := hnot
    exact hobj (h _ rfl) rfl

lemma wrapInput_normalized :
    wrapInput (normalizeNested (normalizeFields body)) =
      normalizeNested (normalizeFields body) := by
  have hstr : ∀ input, Obj.val (wrapInput body) "input" ≠ .str input := by
    intro input
    unfold wrapInput
    split
    · rw [Obj.val_of_get (get_set_self ..)]
      simp
    · rename_i hnot
      exact hnot input
  have hval : Obj.val (normalizeNested (normalizeFields body)) "input" =
      normalizeInput (Obj.val (wrapInput body) "input") := by
    rw [Obj.val, Obj.val, get_input]
    cases get (wrapInput body) "input" <;> rfl
  unfold wrapInput
  split
  · rename_i input hinput
    rw [hval] at hinput
    cases hv : Obj.val (wrapInput body) "input" with
    | str s => exact absurd hv (hstr s)
    | _ =>
      rw [hv] at hinput
      cases hinput
  · rfl

lemma input_normalized {body : Obj} (h : Obj.val body "input" ≠ .null) :
    Obj.val (normalizeNested (normalizeFields body)) "input" ≠ .null := by
  have hwrap : Obj.val (wrapInput body) "input" ≠ .null := by
    unfold wrapInput
    split
    · rw [Obj.val_of_get (get_set_self ..)]
      simp
    · exact h
  rw [Obj.val, get_input]
  unfold Obj.val at hwrap
  cases hv : get (wrapInput body) "input" with
  | none =>
    rw [hv] at hwrap
    exact absurd rfl hwrap
  | some v =>
    rw [hv] at hwrap
    cases v with
    | null => exact absurd rfl hwrap
    | _ => simp [normalizeInput, mapItems]

/-- **Normalizing twice.** -/
lemma normalized_idem {body : Obj} (h : (obj body).canon = obj body) :
    normalizeNested (normalizeFields (normalizeNested (normalizeFields body))) =
      normalizeNested (normalizeFields body) := by
  have hcanon := canon_normalizeNested (canon_normalizeFields h)
  have hagain := canon_normalizeNested (canon_normalizeFields hcanon)
  have hget {k : String} {v : Json} (hv : get body k = some v) : v.canon = v := canon_get h hv
  have hfield {k : String} {f : Json → Json} (hf : ∀ v, v.canon = v → f (f v) = f v) :
      ((get body k).map f).map f = (get body k).map f := by
    cases hv : get body k with
    | none => rfl
    | some v => exact congrArg some (hf v (hget hv))
  refine eq_of_get (canon_obj_iff.mp hagain).1 (canon_obj_iff.mp hcanon).1 fun k => ?_
  by_cases hother : k ∈ rewrittenFields
  · simp only [rewrittenFields, List.cons_append, List.nil_append, List.mem_cons] at hother
    rcases hother with rfl | rfl | rfl | rfl | rfl | rfl | rfl | rfl | rfl | rfl | rfl | hdropped
    · rw [get_stream, get_stream]
    · rw [get_store, get_store]
    · rw [get_parallelToolCalls, get_parallelToolCalls]
    · rw [get_include, get_include]
    · rw [get_instructions, Obj.val_of_get (get_instructions body), get_instructions]
      split_ifs <;> simp_all
    · rw [get_input, wrapInput_normalized, get_input]
      have hwrap := canon_wrapInput h
      cases hv : get (wrapInput body) "input" with
      | none => rfl
      | some v => exact congrArg some (normalizeInput_idem (canon_get hwrap hv))
    · rw [get_tools, get_tools]
      cases get body "tools" with
      | none => rfl
      | some v =>
        -- a null list of tools is dropped both times
        have hnull : normalizeTools v = .null ↔ v = .null := by
          cases v <;> simp [normalizeTools, mapItems]
        by_cases hv : v = .null
        · simp [hv, Option.filter]
        · simp [hv, hnull, Option.filter, normalizeTools_idem]
    · rw [get_toolChoice, get_toolChoice]
      refine hfield fun v hv => mapObj_idem fun o ho => normalizeToolChoice_idem (ho ▸ hv)
    · have heffort :
          (Obj.val (normalizeNested (normalizeFields body)) "reasoning_effort").text = "" := by
        rw [Obj.val, get_dropped _ (.inr rfl)]
        rfl
      rw [get_reasoning, heffort, get_reasoning]
      exact reasoningOf_idem (fun v hv => hget hv) _
    · rw [get_dropped _ (.inr rfl), get_dropped _ (.inr rfl)]
    · rw [get_serviceTier, get_serviceTier, Option.filter_filter]
      simp
    · rw [get_dropped _ (.inl hdropped), get_dropped _ (.inl hdropped)]
  · rw [get_normalized_other _ hother]

end Normalize

end CodexOne
