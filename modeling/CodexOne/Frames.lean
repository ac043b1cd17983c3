import CodexOne.Turns

/-!
What the stages of a request leave alone.

Every stage names the fields it may change; the others come out as they went in.
-/

namespace CodexOne

open Members

namespace Identity

variable {d : Digests} {object body : Obj} {i j : Identity}

lemma get_prepareMetadata (h : (prepareMetadata d object).run i = (.ok body, j)) {k : String}
    (hk : k ≠ "client_metadata") : get body k = get object k := by
  unfold prepareMetadata at h
  split at h
  · obtain ⟨metadata, _, -, h⟩ := bind_ok h
    obtain ⟨rfl, -⟩ := pure_ok h
    exact get_set_ne _ _ hk
  · obtain ⟨rfl, -⟩ := pure_ok h
    rfl

lemma get_sessionBody (i : Identity) (object : Obj) {k : String} (hk : k ≠ "prompt_cache_key") :
    get (if i.upstreamSessionID ≠ "" then
      set object "prompt_cache_key" (.str i.upstreamSessionID) else object) k = get object k := by
  split_ifs
  · exact get_set_ne _ _ hk
  · rfl

lemma get_prepareBody {fixed : Bool} (h : (prepareBody d object fixed).run i = (.ok body, j))
    {k : String} (h1 : k ≠ "prompt_cache_key") (h2 : k ≠ "client_metadata") :
    get body k = get object k := by
  rw [get_prepareMetadata (prepareBody_sent d h).1 h2, get_sessionBody i object h1]

lemma promptCacheKey_prepareBody {fixed : Bool} (hup : i.upstreamSessionID ≠ "")
    (h : (prepareBody d object fixed).run i = (.ok body, j)) :
    get body "prompt_cache_key" = some (.str i.upstreamSessionID) := by
  rw [get_prepareMetadata (prepareBody_sent d h).1 (by decide), if_pos hup, get_set_self]

lemma prepareRequestIdentity_ok {r : Request} {remap : Bool}
    (h : prepareRequestIdentity d r object remap = .ok (body, j)) :
    ∃ i, Identity.new d r.keyID r.headers object remap = .ok i ∧
      (prepareBody d object false).run i = (.ok body, j) := by
  rw [prepareRequestIdentity] at h
  obtain ⟨i, hi, h⟩ := bind_eq_ok h
  refine ⟨i, hi, ?_⟩
  split at h
  · rename_i b l hb
    rw [Except.ok.injEq, Prod.mk.injEq] at h
    rw [hb, h.1, h.2]
  · cases h

end Identity

namespace Compat

open Identity

variable {d : Digests} {fuel : ℕ} {object body : Obj} {model planType : String}
  {headers : Header} {ws img : Bool} {i j : Identity}

lemma get_ensureCodexImageGenerationTool (object : Obj) (model planType : String)
    (headers : Header) {k : String} (hk : k ≠ "tools") :
    get (ensureCodexImageGenerationTool object model planType headers) k = get object k := by
  unfold ensureCodexImageGenerationTool
  split_ifs
  · rfl
  · split
    · split_ifs
      · rfl
      · exact get_set_ne _ _ hk
    · exact get_set_ne _ _ hk

lemma tools_ensureCodexImageGenerationTool (object : Obj) (model planType : String)
    (headers : Header) :
    get (ensureCodexImageGenerationTool object model planType headers) "tools" =
        get object "tools" ∨
      get (ensureCodexImageGenerationTool object model planType headers) "tools" =
        some (.arr ((Obj.val object "tools").items ++ [codexImageGenerationTool])) := by
  unfold ensureCodexImageGenerationTool
  split_ifs
  · exact .inl rfl
  · split
    · rename_i items hitems
      split_ifs
      · exact .inl rfl
      · right
        rw [get_set_self, Obj.val_of_get hitems]
        rfl
    · -- what is no list counts as an empty one
      rename_i hno
      right
      rw [get_set_self, Obj.val]
      cases hv : get object "tools" with
      | none => rfl
      | some v =>
        cases v with
        | arr items => exact absurd hv (hno items)
        | _ => rfl

lemma get_sanitizeCodexInputItems
    (h : (sanitizeCodexInputItems d fuel object).run i = (.ok body, j))
    {k : String} (hk : k ≠ "input") : get body k = get object k := by
  unfold sanitizeCodexInputItems at h
  split at h
  · obtain ⟨_, _, -, h1⟩ := bind_ok h
    obtain ⟨_, _, -, h2⟩ := bind_ok h1
    obtain ⟨rfl, -⟩ := pure_ok h2
    exact get_set_ne _ _ hk
  · obtain ⟨rfl, -⟩ := pure_ok h
    rfl

lemma get_normalizeCodexParallelToolCalls (object : Obj) (headers : Header) (ws : Bool)
    {k : String} (hk : k ≠ "parallel_tool_calls") :
    get (normalizeCodexParallelToolCalls object headers ws) k = get object k := by
  unfold normalizeCodexParallelToolCalls
  split_ifs
  · exact get_set_ne _ _ hk
  · rfl
  · exact get_erase_ne _ hk
  · rfl

lemma isCodexResponsesLiteRequest_congr {a b : Obj} (headers : Header)
    (h : get a "client_metadata" = get b "client_metadata") :
    isCodexResponsesLiteRequest a headers = isCodexResponsesLiteRequest b headers := by
  unfold isCodexResponsesLiteRequest
  rw [Obj.val_congr h]

lemma parallelToolCalls_webSocket (object : Obj) (headers : Header) :
    get (normalizeCodexParallelToolCalls object headers true) "parallel_tool_calls" =
      if isCodexResponsesLiteRequest object headers then some (.bool false)
      else get object "parallel_tool_calls" := by
  unfold normalizeCodexParallelToolCalls
  rw [if_pos rfl]
  split_ifs
  · exact get_set_self _ _ _
  · rfl

end Compat

/-! ### Plans -/

namespace Conversation

variable {c : Conversation} {turn : Turn} {turnSettings : List (String × Raw)} {sent : Obj}
  {f : Identity → Plan}

lemma assemble_ok (h : c.assemble turn turnSettings sent = .ok f) (i : Identity) :
    ∃ currentInput,
      rawMessageArray (Obj.val sent "input") = .ok currentInput ∧
      ¬c.overLimit (replayObject (set sent "type" (.str "response.create"))
        (c.replayItems turn currentInput)) ∧
      f i =
        { model := turn.model, incremental := set sent "type" (.str "response.create"),
          replay := replayObject (set sent "type" (.str "response.create"))
            (c.replayItems turn currentInput),
          currentInput, reset := turn.reset, continuation := turn.continuation, identity := i,
          turnSettings, instructionsSet := turn.instructionsSet } := by
  unfold assemble at h
  dsimp only at h
  have hin : Obj.val (set sent "type" (.str "response.create")) "input" = Obj.val sent "input" :=
    Obj.val_congr (get_set_ne _ _ (by decide))
  rw [hin] at h
  split at h
  · cases h
  · rename_i currentInput hcur
    split_ifs at h with hlim
    cases h
    exact ⟨currentInput, hcur, hlim, rfl⟩

lemma webSocketTurnSettings_congr {object body : Obj}
    (h : ∀ name ∈ webSocketContinuationFields, get body name = get object name) :
    webSocketTurnSettings body = webSocketTurnSettings object := by
  unfold webSocketTurnSettings
  exact List.filterMap_congr fun name hn => by rw [h name hn]

/-- What a planned turn says about the request: the identity is in the plan, the settings are
those of the normalized body, and apart from the items, the tools and the identifiers the body
that is sent is the normalized body. -/
lemma planTurn_spec {d : Digests} {fuel : ℕ} {headers : Header} {planType : String} {fixed : Bool}
    {i j : Identity}
    (h : (planTurn d fuel c headers planType turn fixed).run i = (.ok f, j)) :
    ∃ sanitized sent k l,
      (∀ n, n ≠ "prompt_cache_key" → n ≠ "client_metadata" → n ≠ "tools" →
        n ≠ "safety_identifier" → get sanitized n = get turn.body n) ∧
      (get sanitized "tools" = get turn.body "tools" ∨ get sanitized "tools" =
        some (.arr ((Obj.val turn.body "tools").items ++ [Compat.codexImageGenerationTool]))) ∧
      (Compat.sanitizeCodexInputItems d fuel sanitized).run k = (.ok sent, j) ∧
      (i.upstreamSessionID ≠ "" →
        get sanitized "prompt_cache_key" = some (.str i.upstreamSessionID)) ∧
      l = Compat.normalizeCodexParallelToolCalls sent headers true ∧
      k.mappingErr = none ∧ Identity.Extends i k ∧
      c.assemble turn (webSocketTurnSettings turn.body) l = .ok f := by
  obtain ⟨body, k, sent, h1, h2, h3⟩ := planTurn_ok h
  rw [Compat.prepareCodexWebSocketBody] at h2
  obtain ⟨sanitized, hs, hsent⟩ := Compat.prepareCodexInferenceObject_ok d h2
  rw [if_pos rfl] at hs
  -- the identity rewrites no setting
  have hset : webSocketTurnSettings body = webSocketTurnSettings turn.body := by
    refine webSocketTurnSettings_congr fun name hn => ?_
    have : name ≠ "prompt_cache_key" ∧ name ≠ "client_metadata" := by
      revert name
      decide
    exact Identity.get_prepareBody h1 this.1 this.2
  have htools : get (erase body "safety_identifier") "tools" = get turn.body "tools" := by
    rw [get_erase_ne _ (by decide), Identity.get_prepareBody h1 (by decide) (by decide)]
  refine ⟨_, sanitized, k, sent, fun n hn1 hn2 hn3 hn4 => ?_, ?_, hs, fun hup => ?_, hsent,
    Identity.prepareBody_ok d h1, ?_, hset ▸ h3⟩
  · rw [Compat.get_ensureCodexImageGenerationTool _ _ _ _ hn3, get_erase_ne _ hn4,
      Identity.get_prepareBody h1 hn1 hn2]
  · rw [← htools, ← Obj.val_congr htools]
    exact Compat.tools_ensureCodexImageGenerationTool _ _ _ _
  · rw [Compat.get_ensureCodexImageGenerationTool _ _ _ _ (by decide), get_erase_ne _ (by decide),
      Identity.promptCacheKey_prepareBody hup h1]
  · have := (Identity.tracks_prepareBody d turn.body fixed).run i
    rwa [h1] at this

end Conversation

end CodexOne
