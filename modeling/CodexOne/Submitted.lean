import CodexOne.Replay

/-!
The bodies that are sent to the upstream.

Every path sanitizes the items of its request. The replay of a WebSocket turn also holds items of
earlier turns, among them what the upstream answered, and these are not sanitized again.
-/

namespace CodexOne

open Members JsonOf Conversation Compat

def SanitizedBody (body : Obj) : Prop := ∀ item ∈ (Obj.val body "input").items, FollowsRules item

instance (body : Obj) : Decidable (SanitizedBody body) := List.decidableBAll _ _

section
variable {d : Digests} {fuel : ℕ} {object body : Obj} {model planType : String} {headers : Header}
  {ws img : Bool} {i j : Identity}

lemma sanitized_inferenceObject (hstore : get object "store" = some (.bool false))
    (h : (prepareCodexInferenceObject d fuel object model planType headers ws img).run i =
      (.ok body, j)) : SanitizedBody body := by
  obtain ⟨sanitized, hs, hb⟩ := prepareCodexInferenceObject_ok d h
  -- the image tool does not touch `store`
  have hflag : (Obj.val (if img then ensureCodexImageGenerationTool object model planType headers
      else object) "store").flag = false := by
    rw [Obj.val_of_get (v := .bool false)]
    · rfl
    · split_ifs
      · rw [get_ensureCodexImageGenerationTool _ _ _ _ (by decide), hstore]
      · exact hstore
  have hinput : Obj.val body "input" = Obj.val sanitized "input" := by
    rw [hb]
    exact Obj.val_congr (get_normalizeCodexParallelToolCalls _ _ _ (by decide))
  intro item hitem
  rw [hinput] at hitem
  rcases sanitizeCodexInputItems_cases hs with ⟨items, out, -, hout, hsan⟩ | ⟨hno, rfl⟩
  · rw [Obj.val_of_get hout] at hitem
    rw [hflag] at hsan
    exact hsan.followsRules item hitem
  · rw [items_of_not_arr hno] at hitem
    cases hitem

lemma sanitized_httpBody (hstore : get object "store" = some (.bool false))
    (h : (prepareCodexHTTPBodyWithImageTool d fuel object model planType headers img).run i =
      (.ok body, j)) : SanitizedBody body := by
  refine sanitized_inferenceObject ?_ h
  rw [Normalize.get_foldl_erase, if_neg (by decide), hstore]

variable {cfg : Config} {r : Request} {credential : Credential} {req : UpstreamRequest}

lemma sanitized_fallback {replay : Obj} (hstore : get replay "store" = some (.bool false))
    (h : (fallbackRequest d fuel cfg r credential model replay).run i = (.ok req, j)) :
    SanitizedBody req.body := by
  rw [fallbackRequest] at h
  obtain ⟨body, _, h1, h2⟩ := Identity.bind_ok h
  obtain ⟨_, _, -, h3⟩ := Identity.bind_ok h2
  rw [(Identity.pure_ok h3).1]
  rw [prepareCodexHTTPBody] at h1
  refine sanitized_httpBody ?_ h1
  rw [get_erase_ne _ (by decide), hstore]

lemma sanitized_inferenceRequest (hstore : get object "store" = some (.bool false))
    (h : inferenceRequest d cfg r credential object
      (prepareCodexHTTPBodyWithImageTool d fuel · model
      planType r.headers img) = .ok req) :
    SanitizedBody req.body := by
  rw [inferenceRequest] at h
  obtain ⟨⟨body, i⟩, hp, h⟩ := Identity.bind_eq_ok h
  obtain ⟨i', -, hb⟩ := Identity.prepareRequestIdentity_ok hp
  dsimp only at h
  have hrun := pair_of_fst h
  obtain ⟨sent, _, h1, h2⟩ := Identity.bind_ok hrun
  obtain ⟨_, _, -, h3⟩ := Identity.bind_ok h2
  rw [(Identity.pure_ok h3).1]
  refine sanitized_httpBody ?_ h1
  rw [Identity.get_prepareBody hb (by decide) (by decide), hstore]

lemma store_normalizeResponsesRequest {s : Bool} {m : String}
    (h : Normalize.normalizeResponsesRequest object = .ok (body, s, m)) :
    get body "store" = some (.bool false) := by
  rw [(Normalize.normalizeResponsesRequest_ok h).1]
  exact Normalize.get_store _

lemma sanitized_responses {raw : Text}
    (h : handleResponsesPath d fuel cfg r credential raw = .ok req) : SanitizedBody req.body := by
  rw [handleResponsesPath] at h
  obtain ⟨⟨body, s, m⟩, hn, h⟩ := Identity.bind_eq_ok h
  refine sanitized_inferenceRequest ?_ h
  unfold normalizeRequestText at hn
  split_ifs at hn
  split at hn
  · exact store_normalizeResponsesRequest hn
  · exact store_normalizeResponsesRequest hn
  · cases hn

lemma sanitized_chat {raw : Text}
    (h : chatCompletions d fuel cfg r credential raw = .ok req) : SanitizedBody req.body := by
  rw [chatCompletions] at h
  obtain ⟨⟨body, s, u, m⟩, hn, h⟩ := Identity.bind_eq_ok h
  refine sanitized_inferenceRequest ?_ h
  unfold Chat.convertChatRequest at hn
  split_ifs at hn
  split at hn
  · cases hn
  · split_ifs at hn
    obtain ⟨⟨input, instructions⟩, -, hn⟩ := Identity.bind_eq_ok hn
    dsimp only at hn
    split_ifs at hn
    obtain ⟨⟨normalized, s', m'⟩, hnorm, hn⟩ := Identity.bind_eq_ok hn
    simp only [Except.ok.injEq, Prod.mk.injEq] at hn
    rw [← hn.1]
    exact store_normalizeResponsesRequest hnorm

end

/-! ### Replays -/

/-- A text is replayed as an item that follows the rules, if it is replayed. -/
def ReplaysWell (raw : Raw) : Prop := ∀ item ∈ raw.unmarshal, FollowsRules item

instance : DecidablePred ReplaysWell := fun raw => Option.decidableForallMem raw.unmarshal

lemma val_rounded (o : Obj) (name : String) :
    Obj.val (o.map fun m => (m.1, mapNum Number.rounded m.2)) name =
      mapNum Number.rounded (Obj.val o name) := by
  unfold Obj.val
  rw [get_map_mapNum]
  cases get o name <;> rfl

lemma text_rounded (v : Json) : (mapNum Number.rounded v).text = v.text := by
  cases v <;> simp [text]

lemma followsRules_rounded {item : Json} (h : FollowsRules item) :
    FollowsRules (item.mapNum Number.rounded) := by
  cases item with
  | obj o =>
    have htext (name : String) : (Obj.val (o.map fun m => (m.1, mapNum Number.rounded m.2))
        name).text = (Obj.val o name).text := by rw [val_rounded, text_rounded]
    have hpre : codexInputItemPrefix (o.map fun m => (m.1, mapNum Number.rounded m.2)) =
        codexInputItemPrefix o := by
      unfold codexInputItemPrefix
      rw [htext]
    rw [mapNum_obj]
    refine ⟨?_, fun hne => ?_, fun ht hid => ?_⟩
    · rw [htext]
      exact h.short
    · rw [htext] at hne ⊢
      rw [hpre]
      exact h.named hne
    · rw [htext] at ht ⊢
      refine h.encrypted ht ?_
      rw [has, get_map_mapNum, Option.isSome_map] at hid
      exact hid
  | _ => simp [FollowsRules]

lemma replaysWell_ofJson {item : Json} (hc : item.canon = item) (h : FollowsRules item) :
    ReplaysWell (Raw.ofJson item) := by
  intro v hv
  rw [Raw.unmarshal_ofJson hc] at hv
  split_ifs at hv
  · obtain rfl := Option.some.inj hv
    exact followsRules_rounded h
  · cases hv

lemma mem_mergeWebSocketItems {groups : List (List Raw)} {raw : Raw}
    (h : raw ∈ mergeWebSocketItems groups) : raw ∈ groups.flatten :=
  (Merge.mergeItems_sublist groups.flatten).subset h

/-- The history holds items of committed turns only. -/
theorem mem_transcript_of_run {good : Conversation → List CommittedTurn → CommittedTurn → Prop}
    {k : Connection} {c : Conversation} {ledger : List CommittedTurn} (h : k.Run good c ledger) :
    ∀ raw ∈ c.history, raw ∈ transcript ledger := by
  induction h with
  | start => simp [Connection.start, Conversation.initial]
  | @step c ledger h t hgood ih =>
    have hstep := turn_step k c t
    generalize k.committedTurn c t = ct at hstep
    generalize (k.turn c t).2 = c' at hstep
    cases hstep with
    | idle i => exact ih
    | @commit object turn plan event terminal generation =>
      intro raw hraw
      change raw ∈ c.nextHistory plan event.output at hraw
      unfold nextHistory at hraw
      unfold Connection.nextLedger
      dsimp only at hraw ⊢
      have hmem := mem_mergeWebSocketItems hraw
      simp only [List.flatten_cons, List.flatten_nil, List.append_nil, List.mem_append] at hmem
      split_ifs at hmem ⊢ with hreset
      · simpa [transcript] using hmem
      · -- joining the items of a turn adds none of its own
        rw [transcript_concat, List.mem_append, List.mem_append]
        rcases hmem with hmem | hmem
        · have hold := mem_mergeWebSocketItems hmem
          simp only [List.flatten_cons, List.flatten_nil, List.append_nil, List.mem_append] at hold
          exact hold.imp (ih raw) .inl
        · exact .inr (.inr hmem)

namespace Planned

variable {k : Connection} {c : Conversation} {planType : String} {object : Obj} {turn : Turn}
  {plan : Plan}

lemma replaysWell (h : Planned k c planType turn plan) (ho : (obj object).canon = obj object)
    (hr : c.readObject object = .ok turn) : ∀ raw ∈ plan.currentInput, ReplaysWell raw := by
  obtain ⟨sent, hcur, hsan, -⟩ := h.currentInput_eq hr
  have hcanon := hsan.canon (canon_items (canon_val (canon_turn ho hr) _))
  rw [hcur]
  intro raw hraw
  obtain ⟨item, hitem, rfl⟩ := List.mem_map.mp hraw
  exact replaysWell_ofJson (hcanon item hitem) (hsan.followsRules item hitem)

lemma sanitized_incremental (h : Planned k c planType turn plan)
    (hr : c.readObject object = .ok turn) : SanitizedBody plan.incremental := by
  obtain ⟨sent, -, hsan, hinput⟩ := h.currentInput_eq hr
  rw [SanitizedBody, hinput]
  exact hsan.followsRules

lemma store_replay (h : Planned k c planType turn plan) (hr : c.readObject object = .ok turn) :
    get plan.replay "store" = some (.bool false) := by
  rw [h.get_replay (by decide) (by decide), h.get_incremental (by decide), turn_body hr]
  exact Normalize.get_store _

lemma sanitized_replay (h : Planned k c planType turn plan) (ho : (obj object).canon = obj object)
    (hr : c.readObject object = .ok turn) (hhistory : ∀ raw ∈ c.history, ReplaysWell raw) :
    SanitizedBody plan.replay := by
  intro item hitem
  rw [Obj.val_of_get h.replay_input, items_arr, rawMessagesAsAny, List.mem_filterMap] at hitem
  obtain ⟨raw, hraw, hun⟩ := hitem
  have hcurrent := h.replaysWell ho hr
  unfold replayItems at hraw
  split_ifs at hraw
  · exact hcurrent raw hraw item hun
  · have hmem := mem_mergeWebSocketItems hraw
    simp only [List.flatten_cons, List.flatten_nil, List.append_nil, List.mem_append] at hmem
    rcases hmem with hmem | hmem
    · exact hhistory raw hmem item hun
    · exact hcurrent raw hmem item hun

end Planned

/-- The upstream answered with items that follow the rules. -/
def OutputFollows (t : CommittedTurn) : Prop := ∀ raw ∈ t.event.output, ReplaysWell raw

lemma replaysWell_transcript {good : Conversation → List CommittedTurn → CommittedTurn → Prop}
    {k : Connection} {c : Conversation} {ledger : List CommittedTurn} (hrun : k.Run good c ledger)
    (h : ∀ t ∈ ledger, OutputFollows t) : ∀ raw ∈ c.history, ReplaysWell raw := by
  have hinput : ∀ t ∈ ledger, ∀ raw ∈ t.plan.currentInput, ReplaysWell raw :=
    hrun.forall_ledger fun c object turn plan event planType hd hr hp => by
      obtain ⟨raw, hd⟩ := hd
      exact hp.replaysWell (canon_decodeObject hd) hr
  intro raw hraw
  have hmem := mem_transcript_of_run hrun raw hraw
  obtain ⟨t, ht, hraw⟩ := List.mem_flatMap.mp hmem
  rcases List.mem_append.mp hraw with hraw | hraw
  · exact hinput t ht raw hraw
  · exact h t ht raw hraw

/-- **Sanitized bodies.** The bodies of the HTTP handlers, the incremental bodies and the HTTP
fallback always follow the rules for items. So do the replays when the outputs committed since the
last reset follow them. -/
theorem bodies_sanitized {good : Conversation → List CommittedTurn → CommittedTurn → Prop}
    {k : Connection} {c : Conversation} {ledger : List CommittedTurn} (hrun : k.Run good c ledger) :
    (∀ (credential : Credential) (raw : Text) (req : UpstreamRequest),
        handleResponsesPath k.digests k.fuel k.cfg k.request credential raw = .ok req →
        SanitizedBody req.body) ∧
      (∀ (credential : Credential) (raw : Text) (req : UpstreamRequest),
        chatCompletions k.digests k.fuel k.cfg k.request credential raw = .ok req →
        SanitizedBody req.body) ∧
      ∀ (raw : Text) (planType : String) (plan : Plan) (c' : Conversation),
        k.prepare c raw planType = (.ok plan, c') →
        SanitizedBody plan.incremental ∧
        (∀ (credential : Credential) (i j : Identity) (req : UpstreamRequest),
          (fallbackRequest k.digests k.fuel k.cfg k.request credential plan.model plan.replay).run
            i = (.ok req, j) → SanitizedBody req.body) ∧
        ((∀ t ∈ ledger, OutputFollows t) → SanitizedBody plan.replay) := by
  refine ⟨fun _ _ _ h => sanitized_responses h, fun _ _ _ h => sanitized_chat h, ?_⟩
  intro raw planType plan c' hprep
  obtain ⟨object, turn, hd, hr, ⟨hp⟩⟩ := planned_of_prepare hprep
  refine ⟨hp.sanitized_incremental hr, fun _ _ _ _ h => ?_, fun houtput => ?_⟩
  · exact sanitized_fallback (hp.store_replay hr) h
  · exact hp.sanitized_replay (canon_decodeObject hd) hr (replaysWell_transcript hrun houtput)

/-- A first request that is answered with a message. -/
def messageTurn (id : String) : TurnInput :=
  .first (some (marshal (.obj [("response", .obj [("id", .str "r1"),
    ("output", .arr [.obj [("id", .str id), ("type", .str "message")]])]),
    ("type", .str "response.completed")]), 1))

/-- The conversation after a message has been answered. -/
def messageStart (id : String) : Conversation :=
  ((Connection.sample false).turn (Connection.sample false).start (messageTurn id)).2

/-- What a continuation after the message replays. -/
def MessageReplayed (id : String) (follows : Bool) : Prop :=
  ((Connection.sample false).committedTurn (Connection.sample false).start (messageTurn id)).any
    (fun t => ((Connection.sample false).prepare (messageStart id) nextMessage "").1.toOption.any
      fun plan => t.plan.reset &&
        (if follows then decide (∀ raw ∈ t.event.output, ReplaysWell raw)
          else !decide (SanitizedBody plan.replay))) = true

instance (id : String) (follows : Bool) : Decidable (MessageReplayed id follows) :=
  inferInstanceAs (Decidable (_ = true))

lemma unnamed_replayed : MessageReplayed "x" false := by
  decide +kernel

lemma named_replayed : MessageReplayed "msg_x" true := by
  decide +kernel

lemma MessageReplayed.run {id : String} {follows : Bool} (h : MessageReplayed id follows) :
    ∃ ledger plan c', (Connection.sample false).Run (fun _ _ _ => True) (messageStart id) ledger ∧
      (Connection.sample false).prepare (messageStart id) nextMessage "" = (.ok plan, c') ∧
      (if follows then ∀ t ∈ ledger, OutputFollows t else ¬SanitizedBody plan.replay) := by
  unfold MessageReplayed at h
  obtain ⟨t, ht, h⟩ := (Option.any_eq_true _ _).mp h
  obtain ⟨plan, hplan, h⟩ := (Option.any_eq_true _ _).mp h
  rw [Bool.and_eq_true] at h
  obtain ⟨hreset, hfollows⟩ := h
  have hstart : (Connection.sample false).Run (fun _ _ _ => True) (Connection.sample false).start
      [] := .start
  have hrun := hstart.turn (messageTurn id) (fun _ _ => trivial) (messageStart.eq_1 id)
  rw [ht, Connection.nextLedger, if_pos hreset] at hrun
  refine ⟨[t], plan, _, hrun, pair_of_fst (ok_of_toOption hplan), ?_⟩
  cases follows with
  | true =>
    rw [if_pos rfl] at hfollows ⊢
    have hall : ∀ raw ∈ t.event.output, ReplaysWell raw := of_decide_eq_true hfollows
    exact List.forall_mem_singleton.mpr hall
  | false =>
    rw [if_neg (by simp)] at hfollows ⊢
    simpa using hfollows

/-- A replay can hold an output item whose id lacks the prefix of its type. -/
theorem replay_not_sanitized :
    ¬∀ (k : Connection) (c c' : Conversation) (ledger : List CommittedTurn),
      k.Run (fun _ _ _ => True) c ledger → ∀ (raw : Text) (planType : String) (plan : Plan),
      k.prepare c raw planType = (.ok plan, c') → SanitizedBody plan.replay := by
  intro h
  obtain ⟨ledger, plan, c', hrun, hprep, hno⟩ := unnamed_replayed.run
  exact hno (h _ _ c' ledger hrun nextMessage "" plan hprep)

/-- The replay of a message whose id has its prefix. -/
theorem bodies_sanitized_named :
    ∃ ledger plan c', (Connection.sample false).Run (fun _ _ _ => True) (messageStart "msg_x")
      ledger ∧ (Connection.sample false).prepare (messageStart "msg_x") nextMessage "" =
        (.ok plan, c') ∧ SanitizedBody plan.incremental ∧ SanitizedBody plan.replay := by
  obtain ⟨ledger, plan, c', hrun, hprep, hfollows⟩ := named_replayed.run
  obtain ⟨hinc, -, hreplay⟩ := (bodies_sanitized hrun).2.2 nextMessage "" plan c' hprep
  exact ⟨ledger, plan, c', hrun, hprep, hinc, hreplay hfollows⟩

end CodexOne
