import CodexOne.Ledger
import CodexOne.Normalized

/-!
The normalized body that a turn starts from, field by field.
-/

namespace CodexOne

open Members JsonOf Normalize

lemma get_carrySetting (turnSettings : List (String × Raw)) (object : Obj) (name k : String) :
    get (carrySetting turnSettings object name) k =
      if k = name then (get object name).or ((get turnSettings name).bind Raw.unmarshal)
      else get object k := by
  unfold carrySetting has
  cases h : get object name with
  | some v =>
    rw [Option.isSome_some, if_pos rfl]
    split_ifs with hk
    · rw [hk, h, Option.some_or]
    · rfl
  | none =>
    simp only [Option.isSome_none, Bool.false_eq_true, if_false, Option.none_or]
    cases hv : (get turnSettings name).bind Raw.unmarshal with
    | some v => simp only [get_set]
    | none =>
      split_ifs with hk
      · rw [hk, h]
      · rfl

lemma get_carryInstructions (instructions : Option Raw) (object : Obj) (k : String) :
    get (carryInstructions instructions object) k =
      if k = "instructions" then (get object k).or (instructions.bind Raw.unmarshal)
      else get object k := by
  unfold carryInstructions has
  cases h : get object "instructions" with
  | some v =>
    rw [Option.isSome_some, if_pos rfl]
    split_ifs with hk
    · rw [hk, h, Option.some_or]
    · rfl
  | none =>
    simp only [Option.isSome_none, Bool.false_eq_true, if_false]
    -- stored instructions that cannot be read are not carried over
    cases hv : instructions.bind Raw.unmarshal with
    | some v =>
      split_ifs with hk
      · rw [hk, get_set_self, h, Option.none_or]
      · rw [get_set_ne _ _ hk]
    | none =>
      split_ifs with hk
      · rw [hk, h]; rfl
      · rfl

namespace Conversation

variable {c : Conversation} {object : Obj} {turn : Turn}

lemma readObject_ok (h : c.readObject object = .ok turn) :
    c.checkType object = .ok () ∧ c.checkContinuation object = .ok () ∧
      c.turnModel object ≠ "" ∧
      turn = { body := normalizeNested (normalizeFields (c.requestBody object))
               model := c.turnModel object, reset := !isContinuation object
               continuation := isContinuation object
               instructionsSet := has object "instructions" } := by
  unfold readObject at h
  cases h1 : c.checkType object with
  | error e => rw [h1] at h; cases h
  | ok u =>
    rw [h1] at h
    cases h2 : c.checkContinuation object with
    | error e => rw [h2] at h; cases h
    | ok v =>
      rw [h2] at h
      by_cases h3 : c.turnModel object = ""
      · simp only [Except.bind, bind, if_pos h3] at h
        cases h
      · simp only [Except.bind, bind, if_neg h3] at h
        cases h4 : normalizeResponsesRequest (c.requestBody object) with
        | error e => rw [h4] at h; cases h
        | ok x =>
          obtain ⟨b, s, m⟩ := x
          rw [h4] at h
          have hb := (normalizeResponsesRequest_ok h4).1
          rw [← hb]
          exact ⟨rfl, rfl, h3, (Except.ok.inj h).symm⟩

lemma turn_body (h : c.readObject object = .ok turn) :
    turn.body = normalizeNested (normalizeFields (c.requestBody object)) := by
  rw [(readObject_ok h).2.2.2]

lemma turn_continuation (h : c.readObject object = .ok turn) :
    turn.continuation = isContinuation object := by
  rw [(readObject_ok h).2.2.2]

lemma turn_instructionsSet (h : c.readObject object = .ok turn) :
    turn.instructionsSet = has object "instructions" := by
  rw [(readObject_ok h).2.2.2]

lemma hasCompleted_of_continuation (h : c.readObject object = .ok turn)
    (hc : turn.continuation = true) : c.hasCompleted = true := by
  obtain ⟨h1, h2, -, rfl⟩ := readObject_ok h
  by_contra hn
  rw [Bool.not_eq_true] at hn
  simp only [isContinuation, Bool.and_eq_true, Bool.or_eq_true, decide_eq_true_eq] at hc
  rcases hc.1 with happ | hprev
  · rw [checkType, happ] at h1
    simp [hn] at h1
  · rw [checkContinuation, if_pos ⟨hn, hprev⟩] at h2
    cases h2

lemma reset_eq (h : c.readObject object = .ok turn) : turn.reset = !turn.continuation := by
  rw [(readObject_ok h).2.2.2]

lemma get_modelBody {k : String} (h1 : k ≠ "previous_response_id") (h2 : k ≠ "model") :
    get (c.modelBody object) k = get object k := by
  unfold modelBody
  rw [get_set_ne _ _ h2, get_ite_erase, if_neg (fun h => h1 h.1)]

lemma get_carryResponse (previousResponseID : String) {k : String}
    (h : k ≠ "previous_response_id") :
    get (c.carryResponse previousResponseID object) k = get object k := by
  unfold carryResponse
  split_ifs
  · exact get_set_ne _ _ h
  · rfl

lemma get_carry (previousResponseID : String) {k : String} (h : k ≠ "previous_response_id") :
    get (c.carry previousResponseID object) k =
      if k ∈ webSocketContinuationFields then
        (get object k).or ((get c.turnSettings k).bind Raw.unmarshal)
      else if k = "instructions" then (get object k).or (c.instructions.bind Raw.unmarshal)
      else get object k := by
  have hbase : get (c.carryResponse previousResponseID
      (carryInstructions c.instructions object)) k =
      if k = "instructions" then (get object k).or (c.instructions.bind Raw.unmarshal)
      else get object k := by
    rw [get_carryResponse _ h, get_carryInstructions]
  unfold carry
  simp only [webSocketContinuationFields, List.foldl_cons, List.foldl_nil, get_carrySetting,
    List.mem_cons, List.not_mem_nil, or_false]
  by_cases h1 : k = "tools"
  · subst h1
    rw [if_neg (by decide)] at hbase
    simp [hbase]
  by_cases h2 : k = "tool_choice"
  · subst h2
    rw [if_neg (by decide)] at hbase
    simp [hbase]
  by_cases h3 : k = "parallel_tool_calls"
  · subst h3
    rw [if_neg (by decide)] at hbase
    simp [hbase]
  simpa [h1, h2, h3] using hbase

lemma get_requestBody {k : String} (h1 : k ≠ "previous_response_id") (h2 : k ≠ "model")
    (h3 : k ≠ "type") :
    get (c.requestBody object) k =
      if isContinuation object then
        if k ∈ webSocketContinuationFields then
          (get object k).or ((get c.turnSettings k).bind Raw.unmarshal)
        else if k = "instructions" then (get object k).or (c.instructions.bind Raw.unmarshal)
        else get object k
      else get object k := by
  unfold requestBody
  rw [get_set_ne _ _ h3]
  split_ifs with hc hk hk'
  · rw [get_carry _ h1, if_pos hk, get_modelBody h1 h2]
  · rw [get_carry _ h1, if_neg hk, if_pos hk', get_modelBody h1 h2]
  · rw [get_carry _ h1, if_neg hk, if_neg hk', get_modelBody h1 h2]
  · exact get_modelBody h1 h2

lemma canon_unmarshal {r : Raw} {v : Json} (h : r.unmarshal = some v) : v.canon = v := by
  rw [Raw.unmarshal_eq] at h
  split_ifs at h
  cases h
  exact mapNum_canon _ r.canon_decode

lemma canon_carrySetting {o : Obj} (h : (obj o).canon = obj o) (turnSettings : List (String × Raw))
    (name : String) : (obj (carrySetting turnSettings o name)).canon =
      obj (carrySetting turnSettings o name) := by
  unfold carrySetting
  split_ifs
  · exact h
  · split
    · rename_i v hv
      obtain ⟨r, -, hr⟩ := Option.bind_eq_some_iff.mp hv
      exact canon_set h _ (canon_unmarshal hr)
    · exact h

lemma canon_carryInstructions {o : Obj} (h : (obj o).canon = obj o) (instructions : Option Raw) :
    (obj (carryInstructions instructions o)).canon = obj (carryInstructions instructions o) := by
  unfold carryInstructions
  split_ifs
  · exact h
  · split
    · rename_i v hv
      obtain ⟨r, -, hr⟩ := Option.bind_eq_some_iff.mp hv
      exact canon_set h _ (canon_unmarshal hr)
    · exact h

lemma canon_requestBody (h : (obj object).canon = obj object) :
    (obj (c.requestBody object)).canon = obj (c.requestBody object) := by
  have hbase : (obj (c.modelBody object)).canon = obj (c.modelBody object) :=
    canon_set (canon_obj_ite (canon_erase h _) h) _ rfl
  have hi := canon_carryInstructions hbase c.instructions
  refine canon_set (canon_obj_ite ?_ hbase) _ rfl
  unfold carry carryResponse
  simp only [webSocketContinuationFields, List.foldl_cons, List.foldl_nil]
  refine canon_carrySetting (canon_carrySetting (canon_carrySetting ?_ _ _) _ _) _ _
  exact canon_obj_ite (canon_set hi _ rfl) hi

lemma canon_turn (h : (obj object).canon = obj object) (hr : c.readObject object = .ok turn) :
    (obj turn.body).canon = obj turn.body := by
  rw [turn_body hr]
  exact canon_normalizeNested (canon_normalizeFields (canon_requestBody h))

end Conversation

/-! ### Plans -/

namespace Planned

variable {k : Connection} {c : Conversation} {planType : String} {turn : Conversation.Turn}
  {plan : Plan}

lemma fields (h : Planned k c planType turn plan) :
    plan.model = turn.model ∧ plan.reset = turn.reset ∧ plan.continuation = turn.continuation ∧
      plan.instructionsSet = turn.instructionsSet ∧
      plan.turnSettings = webSocketTurnSettings turn.body := by
  obtain ⟨_, _, _, _, -, -, -, -, -, -, -, ha⟩ := Conversation.planTurn_spec h.run
  obtain ⟨currentInput, -, -, hf⟩ := Conversation.assemble_ok ha plan.identity
  have he := h.plan_eq.trans hf
  refine ⟨?_, ?_, ?_, ?_, ?_⟩ <;> rw [he]

lemma get_incremental (h : Planned k c planType turn plan) {n : String}
    (hn : n ∉ ["prompt_cache_key", "client_metadata", "tools", "safety_identifier", "input",
      "parallel_tool_calls", "type"]) : get plan.incremental n = get turn.body n := by
  simp only [List.mem_cons, List.not_mem_nil, or_false, not_or] at hn
  obtain ⟨h1, h2, h3, h4, h5, h6, h7⟩ := hn
  obtain ⟨sanitized, sent, _, l, hb, -, hs, -, hl, -, -, ha⟩ := Conversation.planTurn_spec h.run
  obtain ⟨currentInput, -, -, hf⟩ := Conversation.assemble_ok ha plan.identity
  have he := congrArg Plan.incremental (h.plan_eq.trans hf)
  rw [he, get_set_ne _ _ h7, hl, Compat.get_normalizeCodexParallelToolCalls _ _ _ h6,
    Compat.get_sanitizeCodexInputItems hs h5, hb n h1 h2 h3 h4]

lemma tools_incremental (h : Planned k c planType turn plan) :
    get plan.incremental "tools" = get turn.body "tools" ∨
      get plan.incremental "tools" =
        some (.arr ((Obj.val turn.body "tools").items ++ [Compat.codexImageGenerationTool])) := by
  obtain ⟨sanitized, sent, _, l, -, ht, hs, -, hl, -, -, ha⟩ := Conversation.planTurn_spec h.run
  obtain ⟨currentInput, -, -, hf⟩ := Conversation.assemble_ok ha plan.identity
  have he := congrArg Plan.incremental (h.plan_eq.trans hf)
  rwa [he, get_set_ne _ _ (by decide), hl,
    Compat.get_normalizeCodexParallelToolCalls _ _ _ (by decide),
    Compat.get_sanitizeCodexInputItems hs (by decide)]

lemma parallelToolCalls_incremental (h : Planned k c planType turn plan) :
    get plan.incremental "parallel_tool_calls" =
      if Compat.isCodexResponsesLiteRequest plan.incremental k.request.headers then
        some (.bool false)
      else get turn.body "parallel_tool_calls" := by
  obtain ⟨sanitized, sent, _, l, hb, -, hs, -, hl, -, -, ha⟩ := Conversation.planTurn_spec h.run
  obtain ⟨currentInput, -, -, hf⟩ := Conversation.assemble_ok ha plan.identity
  have he := congrArg Plan.incremental (h.plan_eq.trans hf)
  have hmeta : get plan.incremental "client_metadata" = get sent "client_metadata" := by
    rw [he, get_set_ne _ _ (by decide), hl,
      Compat.get_normalizeCodexParallelToolCalls _ _ _ (by decide)]
  rw [Compat.isCodexResponsesLiteRequest_congr _ hmeta, he, get_set_ne _ _ (by decide), hl,
    Compat.parallelToolCalls_webSocket, Compat.get_sanitizeCodexInputItems hs (by decide),
    hb _ (by decide) (by decide) (by decide) (by decide)]

lemma get_replay (h : Planned k c planType turn plan) {n : String} (h1 : n ≠ "input")
    (h2 : n ≠ "previous_response_id") : get plan.replay n = get plan.incremental n := by
  obtain ⟨_, _, _, _, -, -, -, -, -, -, -, ha⟩ := Conversation.planTurn_spec h.run
  obtain ⟨currentInput, -, -, hf⟩ := Conversation.assemble_ok ha plan.identity
  have he := h.plan_eq.trans hf
  rw [congrArg Plan.replay he, congrArg Plan.incremental he]
  dsimp only
  rw [Conversation.replayObject, get_set]
  split_ifs with ht
  · rw [ht, get_set_self]
  · rw [get_erase_ne _ h2, get_set_ne _ _ h1]

end Planned

lemma planned_of_prepare {k : Connection} {c c' : Conversation} {raw : Text} {planType : String}
    {plan : Plan} (h : k.prepare c raw planType = (.ok plan, c')) :
    ∃ object turn, decodeObject raw = some object ∧ c.readObject object = .ok turn ∧
      Nonempty (Planned k c planType turn plan) := by
  have hp := Conversation.prepared k.digests k.fuel c k.request raw k.cfg.codexIdentityRemap
    planType
  rw [show c.prepare _ _ _ _ _ _ = _ from h] at hp
  generalize hx : ((Except.ok plan : Except String Plan), c') = x at hp
  cases hp with
  | unread => cases hx
  | unnamed => cases hx
  | refused => cases hx
  | @planned turn i fixed f j hr hu hrun =>
    obtain ⟨object, hd, hro⟩ := readTurn_ok hr
    simp only [Prod.mk.injEq, Except.ok.injEq] at hx
    refine ⟨object, turn, hd, hro, ⟨⟨fixed, i, j, f, hu, hrun, ?_⟩⟩⟩
    rw [hx.1]
    exact (Conversation.planTurn_plan hrun j (f j).identity).symm

lemma canon_decodeObject {t : Text} {o : Obj} (h : decodeObject t = some o) :
    (obj o).canon = obj o := by
  unfold decodeObject at h
  cases hp : Raw.parse t with
  | none => rw [hp] at h; cases h
  | some r =>
    rw [hp, Option.map_some] at h
    have hc := r.canon_decode
    cases hd : r.decode with
    | obj ms =>
      rw [hd] at h hc
      cases h
      exact hc
    | _ => rw [hd] at h; cases h

end CodexOne
