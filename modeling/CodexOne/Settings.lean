import CodexOne.TurnBody
import CodexOne.Normalized

/-!
The settings that a continuation takes over from the last committed turn.

The conversation keeps them encoded and decodes them again without exact numbers, and a committed
turn overlays only the settings it has. What is carried is compared with the settings in effect
at the last committed turn, which are defined on its request alone.
-/

namespace CodexOne

open Members JsonOf Normalize Conversation

/-- The settings that a continuation takes over. -/
def settingNames : List String := webSocketContinuationFields ++ ["instructions"]

/-- Instructions that say something. -/
def spoken (v : Json) : Bool := v ≠ .null && speaks v

/-- The value of a setting in a request, before the image tool is added. Blank instructions are
none. -/
def carriedBy (turn : Turn) (name : String) : Option Json :=
  if name = "instructions" then (get turn.body name).filter speaks else get turn.body name

/-- The value of a setting in effect at a committed turn: the one of its request, but a reset turn
without instructions takes those its response echoes. -/
def inEffect (t : CommittedTurn) (name : String) : Option Json :=
  if name = "instructions" ∧ t.turn.reset = true ∧ has t.object "instructions" = false then
    (t.event.instructions.map Raw.decode).filter spoken
  else carriedBy t.turn name

/-- Settings that go through the conversation unharmed: their numbers are held exactly by a
`float64`, and a continuation does not clear tools that are in effect with a `null`. -/
structure KeepsSettings (_ : Conversation) (ledger : List CommittedTurn) (t : CommittedTurn) :
    Prop where
  exact : ∀ name ∈ settingNames, ∀ v ∈ inEffect t name, Json.Exact v
  echoed : t.turn.reset = true → has t.object "instructions" = false →
    ∀ r ∈ t.event.instructions, Json.InRange r.tree
  tools : t.turn.continuation = true → get t.object "tools" = some .null →
    ∀ last ∈ ledger.getLast?, inEffect last "tools" = none

lemma normalizeToolType_rounded (f : Number → Number) (tool : Obj) :
    normalizeToolType (tool.map fun m => (m.1, mapNum f m.2)) =
      (normalizeToolType tool).map fun m => (m.1, mapNum f m.2) := by
  have hv : ∀ s, Obj.val (tool.map fun m => (m.1, mapNum f m.2)) "type" = .str s ↔
      Obj.val tool "type" = .str s := fun s => by
    unfold Obj.val
    rw [get_map_mapNum]
    cases get tool "type" with
    | none => simp
    | some v => cases v <;> simp
  unfold normalizeToolType
  simp only [hv]
  split_ifs
  · exact set_map_mapNum f tool "type" (.str "web_search")
  · rfl

lemma normalizeTools_rounded (f : Number → Number) (v : Json) :
    normalizeTools (v.mapNum f) = (normalizeTools v).mapNum f := by
  cases v with
  | arr xs =>
    simp only [normalizeTools, mapItems, mapNum_arr, List.map_map, arr.injEq, List.map_inj_left,
      Function.comp_apply]
    intro x _
    cases x <;> simp [mapObj, normalizeToolType_rounded]
  | _ => simp [normalizeTools, mapItems]

lemma normalizeToolChoice_rounded (f : Number → Number) (choice : Obj) :
    normalizeToolChoice (choice.map fun m => (m.1, mapNum f m.2)) =
      (normalizeToolChoice choice).map fun m => (m.1, mapNum f m.2) := by
  unfold normalizeToolChoice Members.modify
  rw [normalizeToolType_rounded, get_map_mapNum]
  cases get (normalizeToolType choice) "tools" with
  | none => rfl
  | some v =>
    simp only [Option.map_some]
    rw [normalizeTools_rounded, set_map_mapNum]

lemma mapObj_normalizeToolChoice_rounded {v : Json} (h : v.canon = v)
    (hv : mapObj normalizeToolChoice v = v) :
    mapObj normalizeToolChoice (v.mapNum Number.rounded) = v.mapNum Number.rounded := by
  cases v with
  | obj o =>
    rw [mapObj, obj.injEq] at hv
    rw [mapNum_obj, mapObj, normalizeToolChoice_rounded, hv]
  | _ => simp [mapObj]

/-- The turn was read from its message. -/
def Settled (t : CommittedTurn) : Prop :=
  (obj t.object).canon = obj t.object ∧ ∃ c : Conversation, c.readObject t.object = .ok t.turn

lemma Settled.canon {t : CommittedTurn} (h : Settled t) {name : String} {v : Json}
    (hv : get t.turn.body name = some v) : v.canon = v := by
  obtain ⟨ho, c, hr⟩ := h
  exact canon_get (canon_turn ho hr) hv

lemma Settled.tools {t : CommittedTurn} (h : Settled t) {v : Json}
    (hv : get t.turn.body "tools" = some v) : v ≠ .null ∧ normalizeTools v = v := by
  obtain ⟨-, c, hr⟩ := h
  rw [turn_body hr, get_tools, Option.map_eq_some_iff] at hv
  obtain ⟨w, hw, rfl⟩ := hv
  refine ⟨?_, normalizeTools_idem w⟩
  have hne : w ≠ .null := by simpa using (Option.filter_eq_some_iff.mp hw).2
  cases w <;> simp_all [normalizeTools, mapItems]

lemma Settled.toolChoice {t : CommittedTurn} (h : Settled t) {v : Json}
    (hv : get t.turn.body "tool_choice" = some v) : mapObj normalizeToolChoice v = v := by
  obtain ⟨ho, c, hr⟩ := h
  rw [turn_body hr, get_toolChoice, Option.map_eq_some_iff] at hv
  obtain ⟨w, hw, rfl⟩ := hv
  have hc := canon_get (canon_requestBody (c := c) ho) hw
  cases w with
  | obj o => rw [mapObj, mapObj, normalizeToolChoice_idem hc]
  | _ => rfl

/-! ### The invariant -/

/-- The instructions that a continuation takes from the conversation, if they say anything. -/
def storedInstructions (c : Conversation) : Option Json :=
  (c.instructions.bind Raw.unmarshal).filter spoken

/-- The conversation stores the settings in effect at a committed turn. -/
structure Stores (c : Conversation) (t : CommittedTurn) : Prop where
  settled : Settled t
  settings : ∀ name ∈ webSocketContinuationFields,
    get c.turnSettings name = (inEffect t name).map Raw.ofJson
  instructions : Option.Rel Json.Same (storedInstructions c) (inEffect t "instructions")
  exact : ∀ name ∈ settingNames, ∀ v ∈ inEffect t name, Json.Exact v

/-- The settings stored after a completed response are those of the last committed turn. -/
def SettingsKept (c : Conversation) (ledger : List CommittedTurn) : Prop :=
  c.hasCompleted = true → ∃ t, ledger.getLast? = some t ∧ Stores c t

lemma setting_ne : ∀ name ∈ webSocketContinuationFields, name ≠ "previous_response_id" ∧
    name ≠ "model" ∧ name ≠ "type" ∧ name ≠ "instructions" := by
  decide

lemma Stores.identity {c : Conversation} {t : CommittedTurn} (h : Stores c t)
    (i : Option Identity) : Stores { c with identity := i } t :=
  ⟨h.settled, h.settings, h.instructions, h.exact⟩

lemma inEffect_setting (t : CommittedTurn) {name : String}
    (h : name ∈ webSocketContinuationFields) : inEffect t name = get t.turn.body name := by
  obtain ⟨-, -, -, hne⟩ := setting_ne name h
  rw [inEffect, if_neg fun h => hne h.1, carriedBy, if_neg hne]

lemma Stores.unmarshal {c : Conversation} {t : CommittedTurn} (h : Stores c t) {name : String}
    (hn : name ∈ webSocketContinuationFields) :
    (get c.turnSettings name).bind Raw.unmarshal =
      (inEffect t name).map (mapNum Number.rounded) := by
  rw [h.settings name hn]
  cases he : inEffect t name with
  | none => rfl
  | some v =>
    have hexact := h.exact name (List.mem_append_left _ hn) v he
    rw [inEffect_setting t hn] at he
    rw [Option.map_some, Option.bind_some, Raw.unmarshal_ofJson (h.settled.canon he),
      if_pos hexact.inRange, Option.map_some]

section
variable {c : Conversation} {object : Obj} {turn : Turn} {t : CommittedTurn}

lemma Stores.get_setting (h : Stores c t) (hr : c.readObject object = .ok turn)
    (hc : turn.continuation = true) {name : String} (hn : name ∈ webSocketContinuationFields)
    (hlack : get object name = none) :
    get turn.body name = (inEffect t name).map (mapNum Number.rounded) := by
  have hcont : isContinuation object = true := (turn_continuation hr).symm.trans hc
  have hbody := turn_body hr
  obtain ⟨hprev, hmodel, htype, -⟩ := setting_ne name hn
  have hreq : get (c.requestBody object) name =
      (inEffect t name).map (mapNum Number.rounded) := by
    rw [get_requestBody hprev hmodel htype, if_pos hcont, if_pos hn, hlack, Option.none_or,
      h.unmarshal hn]
  simp only [webSocketContinuationFields, List.mem_cons, List.not_mem_nil, or_false] at hn
  rcases hn with rfl | rfl | rfl
  · -- a null list of tools is dropped, so the stored one is not null
    rw [hbody, get_tools, hreq]
    cases he : inEffect t "tools" with
    | none => rfl
    | some v =>
      rw [inEffect_setting t (by decide)] at he
      obtain ⟨hnull, hfix⟩ := h.settled.tools he
      have hnull' : mapNum Number.rounded v ≠ .null := by
        cases v <;> simp_all
      rw [Option.map_some, Option.filter_some, if_pos (by simpa using hnull'), Option.map_some,
        normalizeTools_rounded, hfix]
  · rw [hbody, get_toolChoice, hreq]
    cases he : inEffect t "tool_choice" with
    | none => rfl
    | some v =>
      rw [inEffect_setting t (by decide)] at he
      rw [Option.map_some, Option.map_some,
        mapObj_normalizeToolChoice_rounded (h.settled.canon he) (h.settled.toolChoice he)]
  · -- the flag goes through the normalization untouched
    obtain ⟨-, c', hr'⟩ := h.settled
    rw [hbody, get_parallelToolCalls, inEffect_setting t (by decide), turn_body hr',
      get_parallelToolCalls]
    rfl

/-- Instructions that a continuation leaves out are the ones stored. -/
lemma carriedBy_instructions (hr : c.readObject object = .ok turn)
    (hc : turn.continuation = true) (hlack : get object "instructions" = none) :
    carriedBy turn "instructions" = storedInstructions c := by
  have hcont : isContinuation object = true := (turn_continuation hr).symm.trans hc
  have hreq : get (c.requestBody object) "instructions" = c.instructions.bind Raw.unmarshal := by
    rw [get_requestBody (by decide) (by decide) (by decide), if_pos hcont, if_neg (by decide),
      if_pos rfl, hlack, Option.none_or]
  rw [carriedBy, if_pos rfl, turn_body hr, get_instructions, storedInstructions,
    Obj.val, hreq]
  cases c.instructions.bind Raw.unmarshal with
  | none => decide
  | some v =>
    by_cases hv : v = .null
    · subst hv
      decide
    · simp [hv, Option.filter_some, spoken]

lemma Same.rel_refl (o : Option Json) : Option.Rel Json.Same o o := by
  cases o with
  | none => exact .none
  | some v => exact .some (.refl v)

lemma Same.rel_map_rounded {o : Option Json} (h : ∀ v ∈ o, Json.Exact v) :
    Option.Rel Json.Same (o.map (mapNum Number.rounded)) o := by
  cases o with
  | none => exact .none
  | some v =>
    have := (Json.same_mapNum_rounded (h v rfl).inRange).mpr (h v rfl)
    exact .some this.symm

/-! ### Commits -/

lemma get_nextSettings (c : Conversation) {plan : Plan} {body : Obj} {name : String}
    (hs : plan.turnSettings = webSocketTurnSettings body)
    (hn : name ∈ webSocketContinuationFields) :
    get (c.nextSettings plan) name =
      ((get body name).map Raw.ofJson).or
        (if plan.reset then none else get c.turnSettings name) := by
  have hbase : (if plan.reset then none else get c.turnSettings name) =
      get (if plan.reset then [] else c.turnSettings) name := by
    split_ifs <;> rfl
  rw [hbase, nextSettings, hs]
  generalize (if plan.reset then [] else c.turnSettings) = base
  simp only [webSocketContinuationFields, List.mem_cons, List.not_mem_nil, or_false] at hn
  unfold webSocketTurnSettings webSocketContinuationFields
  rcases hn with rfl | rfl | rfl <;>
    cases h1 : get body "tools" <;> cases h2 : get body "tool_choice" <;>
    cases h3 : get body "parallel_tool_calls" <;>
    simp [h1, h2, h3, get_set]

lemma spoken_rounded (v : Json) : spoken (v.mapNum Number.rounded) = spoken v := by
  cases v <;> simp [spoken, speaks]

lemma rel_spoken_rounded {v : Json} (h : spoken v = true → v.Exact) :
    Option.Rel Json.Same ((some (v.mapNum Number.rounded)).filter spoken)
      ((some v).filter spoken) := by
  rw [Option.filter_some, Option.filter_some, spoken_rounded]
  split_ifs with hs
  · exact Same.rel_map_rounded (o := some v) fun w hw => by cases hw; exact h hs
  · exact .none

/-- A committed turn without tools has cleared them, or leaves them out when there are none. -/
lemma no_setting {ledger : List CommittedTurn} (hkept : SettingsKept c ledger)
    (hr : c.readObject t.object = .ok t.turn) (hgood : KeepsSettings c ledger t)
    (hc : t.turn.continuation = true) {name : String} (hn : name ∈ webSocketContinuationFields)
    (hbody : get t.turn.body name = none) : get c.turnSettings name = none := by
  obtain ⟨last, hlast, hstores⟩ := hkept (hasCompleted_of_continuation hr hc)
  suffices h : inEffect last name = none by rw [hstores.settings name hn, h, Option.map_none]
  cases hobj : get t.object name with
  | none =>
    rw [hstores.get_setting hr hc hn hobj, Option.map_eq_none_iff] at hbody
    exact hbody
  | some v =>
    -- the message has the field, and the normalized body does not: tools that are `null`
    have hcont : isContinuation t.object = true := (turn_continuation hr).symm.trans hc
    obtain ⟨hprev, hmodel, htype, -⟩ := setting_ne name hn
    have hreq : get (c.requestBody t.object) name = some v := by
      rw [get_requestBody hprev hmodel htype, if_pos hcont, if_pos hn, hobj, Option.some_or]
    rw [turn_body hr] at hbody
    simp only [webSocketContinuationFields, List.mem_cons, List.not_mem_nil, or_false] at hn
    rcases hn with rfl | rfl | rfl
    · rw [get_tools, hreq, Option.map_eq_none_iff, Option.filter_eq_none_iff] at hbody
      have hv : v = .null := by simpa using hbody v rfl
      exact hgood.tools hc (hv ▸ hobj) last hlast
    · rw [get_toolChoice, hreq] at hbody
      cases hbody
    · rw [get_parallelToolCalls] at hbody
      cases hbody

variable {plan : Plan} {event : Terminal} {k : Connection} {planType : String}

lemma body_instructions (hr : c.readObject object = .ok turn) :
    ∃ v, get turn.body "instructions" = some v ∧ v ≠ .null := by
  rw [turn_body hr, get_instructions]
  refine ⟨_, rfl, ?_⟩
  split_ifs with h
  · simp
  · exact h

lemma storedInstructions_committed {ledger : List CommittedTurn} {generation : ℕ}
    (ho : (obj object).canon = obj object) (hr : c.readObject object = .ok turn)
    (hp : Planned k c planType turn plan)
    (hgood : KeepsSettings c ledger { object, turn, plan, event }) :
    Option.Rel Json.Same (storedInstructions (c.committed plan event generation))
      (inEffect { object, turn, plan, event } "instructions") := by
  obtain ⟨-, hreset, -, hset, -⟩ := hp.fields
  obtain ⟨v, hv, hnull⟩ := body_instructions hr
  have hinc : Obj.val plan.incremental "instructions" = v :=
    Obj.val_of_get ((hp.get_incremental (by decide)).trans hv)
  have hexact := hgood.exact "instructions" (by decide)
  have hcar : carriedBy turn "instructions" = (some v).filter spoken := by
    rw [carriedBy, if_pos rfl, hv, Option.filter_some, Option.filter_some]
    simp [spoken, hnull]
  rw [storedInstructions, show (c.committed plan event generation).instructions =
    c.nextInstructions plan event.instructions from rfl, nextInstructions, hset, hreset,
    turn_instructionsSet hr]
  dsimp only
  cases hhas : has object "instructions" with
  | true =>
    -- the message sets the instructions
    have heff : inEffect { object, turn, plan, event } "instructions" = (some v).filter spoken := by
      rw [inEffect, if_neg (by simp [hhas]), hcar]
    rw [heff] at hexact ⊢
    rw [if_pos rfl, hinc]
    by_cases hs : speaks v = true
    · have hsp : spoken v = true := by simp [spoken, hnull, hs]
      rw [Option.filter_some, if_pos hsp] at hexact
      have hcanon : v.canon = v := canon_get (canon_turn ho hr) hv
      rw [if_pos hs, Option.bind_some, Raw.unmarshal_ofJson hcanon,
        if_pos (hexact v rfl).inRange]
      exact rel_spoken_rounded fun _ => hexact v rfl
    · rw [if_neg hs, Option.filter_some, if_neg (by simp [spoken, hs])]
      exact .none
  | false =>
    rw [if_neg (by simp)]
    cases hre : turn.reset with
    | true =>
      -- a reset without instructions takes those of the response
      have hin := hgood.echoed hre hhas
      dsimp only at hin
      have heff : inEffect { object, turn, plan, event } "instructions" =
          (event.instructions.map Raw.decode).filter spoken := by
        rw [inEffect, if_pos ⟨rfl, hre, hhas⟩]
      rw [heff] at hexact ⊢
      rw [if_pos rfl]
      cases he : event.instructions with
      | none => exact .none
      | some r =>
        rw [he] at hin hexact
        have hun : r.unmarshal = some (r.decode.mapNum Number.rounded) := by
          rw [Raw.unmarshal_eq, if_pos (hin r rfl)]
        have hsome : ((if speaks (r.decode.mapNum Number.rounded) then some r
            else none).bind Raw.unmarshal).filter spoken =
            (some (r.decode.mapNum Number.rounded)).filter spoken := by
          split_ifs with hs
          · rw [Option.bind_some, hun]
          · simp [spoken, hs, Option.filter_some]
        simp only [Option.bind_some, hun, hsome, Option.map_some]
        refine rel_spoken_rounded fun hs => hexact _ ?_
        rw [Option.map_some, Option.filter_some, if_pos hs]
        rfl
    | false =>
      -- a continuation without instructions leaves the stored ones as they are
      have hc : turn.continuation = true := by
        simpa [hre] using (reset_eq hr).symm
      have hlack : get object "instructions" = none := by
        simpa [has] using hhas
      rw [if_neg (by simp), inEffect, if_neg (by simp [hre]), carriedBy_instructions hr hc hlack]
      exact Same.rel_refl _

lemma stores_committed {ledger : List CommittedTurn} {generation : ℕ}
    (hkept : SettingsKept c ledger) (ho : (obj object).canon = obj object)
    (hr : c.readObject object = .ok turn) (hp : Planned k c planType turn plan)
    (hgood : KeepsSettings c ledger { object, turn, plan, event }) :
    Stores (c.committed plan event generation) { object, turn, plan, event } where
  settled := ⟨ho, c, hr⟩
  settings name hn := by
    obtain ⟨-, hreset, -, -, hsettings⟩ := hp.fields
    rw [show (c.committed plan event generation).turnSettings = c.nextSettings plan from rfl,
      get_nextSettings c hsettings hn, inEffect_setting _ hn, hreset]
    dsimp only
    cases hbody : get turn.body name with
    | some v => rw [Option.map_some, Option.some_or]
    | none =>
      rw [Option.map_none, Option.none_or]
      cases hre : turn.reset with
      | true => rfl
      | false =>
        have hc : turn.continuation = true := by simpa [hre] using (reset_eq hr).symm
        rw [if_neg (by simp)]
        exact no_setting (t := { object, turn, plan, event }) hkept hr hgood hc hn hbody
  instructions := storedInstructions_committed ho hr hp hgood
  exact := hgood.exact

end

/-- The settings of the last committed turn are stored after every run. -/
theorem settingsKept_of_run {k : Connection} {c : Conversation} {ledger : List CommittedTurn}
    (h : k.Run KeepsSettings c ledger) : SettingsKept c ledger := by
  induction h with
  | start => exact fun h => absurd h (by simp [Connection.start, Conversation.initial])
  | @step c ledger h t hgood ih =>
    have hstep := turn_step k c t
    revert hgood
    generalize k.committedTurn c t = ct at hstep
    generalize (k.turn c t).2 = c' at hstep
    intro hgood
    cases hstep with
    | idle i =>
      intro hcompleted
      obtain ⟨last, hlast, hstores⟩ := ih hcompleted
      exact ⟨last, hlast, hstores.identity i⟩
    | @commit object turn plan event terminal generation hd hr hp ho ha =>
      intro _
      obtain ⟨hp⟩ := hp
      refine ⟨_, Connection.getLast?_nextLedger ledger _, ?_⟩
      exact stores_committed ih (canon_decodeObject hd) hr hp (hgood _ rfl)

/-- A body sends a value for a setting. The image tool may be added to the tools, a Responses Lite
request never calls tools in parallel, and no instructions are blank ones. -/
def SentAs (headers : Header) (body : Obj) (name : String) (value : Option Json) : Prop :=
  if name = "tools" then
    get body name = value ∨
      get body name = some (.arr ((value.getD .null).items ++ [Compat.codexImageGenerationTool]))
  else if name = "parallel_tool_calls" then
    get body name = if Compat.isCodexResponsesLiteRequest body headers then some (.bool false)
      else value
  else if name = "instructions" then (get body name).filter speaks = value
  else get body name = value

lemma Planned.sentAs {k : Connection} {c : Conversation} {planType : String} {turn : Turn}
    {plan : Plan} (h : Planned k c planType turn plan) {name : String} (hn : name ∈ settingNames) :
    SentAs k.request.headers plan.incremental name (carriedBy turn name) := by
  rcases List.mem_append.mp hn with hfield | hins
  · obtain ⟨-, -, -, hne⟩ := setting_ne name hfield
    rw [carriedBy, if_neg hne]
    simp only [webSocketContinuationFields, List.mem_cons, List.not_mem_nil, or_false] at hfield
    unfold SentAs
    rcases hfield with rfl | rfl | rfl
    · rw [if_pos rfl]
      exact h.tools_incremental
    · rw [if_neg (by decide), if_neg (by decide), if_neg (by decide)]
      exact h.get_incremental (by decide)
    · rw [if_neg (by decide), if_pos rfl]
      exact h.parallelToolCalls_incremental
  · obtain rfl := List.mem_singleton.mp hins
    rw [SentAs, carriedBy, if_neg (by decide), if_neg (by decide), if_pos rfl, if_pos rfl,
      h.get_incremental (by decide)]

lemma SentAs.congr {headers : Header} {a b : Obj} {name : String} {value : Option Json}
    (h : SentAs headers a name value) (hab : get b name = get a name)
    (hmeta : get b "client_metadata" = get a "client_metadata") :
    SentAs headers b name value := by
  unfold SentAs at h ⊢
  rwa [hab, Compat.isCodexResponsesLiteRequest_congr headers hmeta]

/-- **Carried settings.** After a run that keeps the settings of its committed turns, a
continuation that leaves out a setting sends the one in effect at the last committed turn. -/
theorem carried_settings {k : Connection} {c c' : Conversation} {ledger : List CommittedTurn}
    (hrun : k.Run KeepsSettings c ledger) {raw : Text} {planType : String} {plan : Plan}
    (hprep : k.prepare c raw planType = (.ok plan, c')) (hcont : plan.continuation = true)
    {object : Obj} (hobject : decodeObject raw = some object) :
    ∃ last, ledger.getLast? = some last ∧ ∀ name ∈ settingNames, get object name = none →
      ∃ value, Option.Rel Json.Same value (inEffect last name) ∧
        ∀ body ∈ [plan.incremental, plan.replay], SentAs k.request.headers body name value := by
  obtain ⟨object', turn, hd, hr, ⟨hp⟩⟩ := planned_of_prepare hprep
  obtain rfl : object' = object := Option.some.inj (hd.symm.trans hobject)
  have hc : turn.continuation = true := hp.fields.2.2.1.symm.trans hcont
  obtain ⟨last, hlast, hstores⟩ := settingsKept_of_run hrun (hasCompleted_of_continuation hr hc)
  refine ⟨last, hlast, fun name hn hlack => ⟨carriedBy turn name, ?_, fun body hbody => ?_⟩⟩
  · rcases List.mem_append.mp hn with hfield | hins
    · obtain ⟨-, -, -, hne⟩ := setting_ne name hfield
      rw [carriedBy, if_neg hne, hstores.get_setting hr hc hfield hlack]
      exact Same.rel_map_rounded fun v hv => hstores.exact name hn v hv
    · -- the instructions have a place of their own in the conversation
      obtain rfl := List.mem_singleton.mp hins
      rw [carriedBy_instructions hr hc hlack]
      exact hstores.instructions
  · have hsent := hp.sentAs hn
    have hne : ∀ n ∈ settingNames, n ≠ "input" ∧ n ≠ "previous_response_id" := by decide
    obtain ⟨hinput, hprev⟩ := hne name hn
    rcases List.mem_pair.mp hbody with rfl | rfl
    · exact hsent
    · exact hsent.congr (hp.get_replay hinput hprev) (hp.get_replay (by decide) (by decide))

/-- A turn without items that is answered by an empty response. -/
def TurnInput.asking (members : Obj) (id : String) : TurnInput :=
  { raw := marshal (.obj members), planType := "free", uses := []
    outcome := some (emptyTerminal id, 1) }

def toolTurn : TurnInput :=
  .asking [("input", .arr []), ("model", .str "m"),
    ("tools", .arr [.obj [("type", .str "web_search")]]), ("type", .str "response.create")] "r1"

def clearTurn : TurnInput :=
  .asking [("input", .arr []), ("previous_response_id", .str "r1"), ("tools", .null),
    ("type", .str "response.create")] "r2"

def plainObject (previous : String) : Obj :=
  [("input", .arr []), ("previous_response_id", .str previous), ("type", .str "response.create")]

def toolStart : Conversation :=
  ((Connection.sample false).turn (Connection.sample false).start toolTurn).2

/-- The conversation after the tools have been cleared. -/
def clearedStart : Conversation := ((Connection.sample false).turn toolStart clearTurn).2

lemma cleared_inEffect :
    (((Connection.sample false).committedTurn toolStart clearTurn).map fun t =>
      inEffect t "tools") = some none := by
  decide +kernel

lemma cleared_plan :
    (((Connection.sample false).prepare clearedStart (marshal (.obj (plainObject "r2")))
      "free").1.toOption.map fun p => (p.continuation, get p.incremental "tools")) =
        some (true, some (.arr [.obj [("type", .str "web_search")]])) := by
  decide +kernel

lemma cleared_prepare : ∃ plan c', (Connection.sample false).prepare clearedStart
    (marshal (.obj (plainObject "r2"))) "free" = (.ok plan, c') ∧ plan.continuation = true ∧
      get plan.incremental "tools" = some (.arr [.obj [("type", .str "web_search")]]) := by
  obtain ⟨plan, hplan, hfields⟩ := Option.map_eq_some_iff.mp cleared_plan
  obtain ⟨hcont, htools⟩ := Prod.mk.inj hfields
  exact ⟨plan, _, pair_of_fst (ok_of_toOption hplan), hcont, htools⟩

lemma tool_run (good : Conversation → List CommittedTurn → CommittedTurn → Prop)
    (hgood : ∀ t, (Connection.sample false).committedTurn (Connection.sample false).start toolTurn =
      some t → good (Connection.sample false).start [] t) :
    ∃ ledger, (Connection.sample false).Run good toolStart ledger :=
  ⟨_, Connection.Run.start.turn toolTurn hgood toolStart.eq_1⟩

lemma cleared_run : ∃ ledger,
    (Connection.sample false).Run (fun _ _ _ => True) clearedStart ledger ∧
    ∃ last, ledger.getLast? = some last ∧ inEffect last "tools" = none := by
  obtain ⟨ledger, hrun⟩ := tool_run (fun _ _ _ => True) fun _ _ => trivial
  obtain ⟨t, ht, hin⟩ := Option.map_eq_some_iff.mp cleared_inEffect
  refine ⟨_, hrun.turn clearTurn (fun _ _ => trivial) clearedStart.eq_1, t, ?_, hin⟩
  rw [ht]
  exact Connection.getLast?_nextLedger ledger t

/-- Tools that a continuation has cleared come back in the next one. -/
theorem cleared_tools_come_back :
    ¬∀ (k : Connection) (c c' : Conversation) (ledger : List CommittedTurn),
      k.Run (fun _ _ _ => True) c ledger → ∀ (raw : Text) (planType : String) (plan : Plan),
      k.prepare c raw planType = (.ok plan, c') → plan.continuation = true →
      ∀ object, decodeObject raw = some object →
      ∃ last, ledger.getLast? = some last ∧ ∀ name ∈ settingNames, get object name = none →
        ∃ value, Option.Rel Json.Same value (inEffect last name) ∧
          ∀ body ∈ [plan.incremental, plan.replay], SentAs k.request.headers body name value := by
  intro h
  obtain ⟨plan, c', hprep, hcont, htools⟩ := cleared_prepare
  obtain ⟨ledger, hrun, last, hlast, hin⟩ := cleared_run
  obtain ⟨last', hlast', hall⟩ := h _ _ c' ledger hrun _ "free" plan hprep hcont
    (plainObject "r2") (decodeObject_marshal (by decide))
  obtain ⟨value, hvalue, hsent⟩ := hall "tools" (by decide) (by decide)
  obtain rfl : last' = last := Option.some.inj (hlast'.symm.trans hlast)
  rw [hin] at hvalue
  cases hvalue
  have hbody := hsent plan.incremental (by simp)
  rw [SentAs, if_pos rfl, htools] at hbody
  revert hbody
  decide

instance (t : CommittedTurn) (c : Conversation) (ledger : List CommittedTurn) :
    Decidable (KeepsSettings c ledger t) :=
  decidable_of_iff
    ((∀ name ∈ settingNames, ∀ v, v ∈ inEffect t name → Json.Exact v) ∧
      (t.turn.reset = true → has t.object "instructions" = false →
        ∀ r, r ∈ t.event.instructions → Json.InRange r.tree) ∧
      (t.turn.continuation = true → get t.object "tools" = some .null →
        ∀ last, last ∈ ledger.getLast? → inEffect last "tools" = none))
    ⟨fun ⟨h1, h2, h3⟩ => ⟨h1, h2, h3⟩, fun h => ⟨h.exact, h.echoed, h.tools⟩⟩

lemma toolTurn_keepsSettings :
    ∀ t, t ∈ (Connection.sample false).committedTurn (Connection.sample false).start toolTurn →
      KeepsSettings (Connection.sample false).start [] t := by
  decide +kernel

lemma tool_plan :
    (((Connection.sample false).prepare toolStart (marshal (.obj (plainObject "r1")))
      "free").1.toOption.map Plan.continuation) = some true := by
  decide +kernel

/-- A continuation that leaves the tools of the first request as they are. -/
theorem carried_settings_tools :
    ∃ (c' : Conversation) (ledger : List CommittedTurn) (plan : Plan),
      (Connection.sample false).Run KeepsSettings toolStart ledger ∧
      (Connection.sample false).prepare toolStart (marshal (.obj (plainObject "r1"))) "free" =
        (.ok plan, c') ∧
      ∃ last, ledger.getLast? = some last ∧ ∃ value,
        Option.Rel Json.Same value (inEffect last "tools") ∧
        SentAs [] plan.incremental "tools" value := by
  obtain ⟨plan, hplan, hcont⟩ := Option.map_eq_some_iff.mp tool_plan
  obtain ⟨ledger, hrun⟩ := tool_run _ toolTurn_keepsSettings
  have hprep := pair_of_fst (ok_of_toOption hplan)
  obtain ⟨last, hlast, hall⟩ := carried_settings hrun hprep hcont
    (decodeObject_marshal (o := plainObject "r1") (by decide))
  obtain ⟨value, hvalue, hsent⟩ := hall "tools" (by decide) (by decide)
  exact ⟨_, _, plan, hrun, hprep, last, hlast, value, hvalue, hsent _ (by simp)⟩

end CodexOne
