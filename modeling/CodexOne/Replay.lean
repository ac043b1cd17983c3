import CodexOne.Items

/-!
The replay of a conversation.

The conversation keeps its history as texts. While the items have ids of their own the history is
the transcript of the committed turns, and the replay that `prepare` builds is the transcript
followed by the new items, each as `json.Unmarshal` reads it without exact numbers.
-/

namespace CodexOne

open Members JsonOf Conversation

def ItemMetadata.ofItem (raw : Raw) : ItemMetadata := .ofObj raw.decode.members

/-- The items of committed turns in the order they were committed. -/
def transcript (ledger : List CommittedTurn) : List Raw :=
  ledger.flatMap fun t => t.plan.currentInput ++ t.event.output

lemma transcript_concat (ledger : List CommittedTurn) (t : CommittedTurn) :
    transcript (ledger ++ [t]) = transcript ledger ++ (t.plan.currentInput ++ t.event.output) := by
  rw [transcript, List.flatMap_append, List.flatMap_singleton]
  rfl

lemma jsonString_val_rounded (o : Obj) (name : String) :
    jsonString (Obj.val (o.map fun m => (m.1, mapNum Number.rounded m.2)) name) =
      jsonString (Obj.val o name) := by
  unfold Obj.val
  rw [get_map_mapNum]
  cases get o name with
  | none => rfl
  | some v => cases v <;> simp [jsonString, text]

lemma ofRaw_eq (raw : Raw) :
    ItemMetadata.ofRaw raw = .ofItem raw ∨ ItemMetadata.ofRaw raw = ⟨"", "", ""⟩ := by
  unfold ItemMetadata.ofRaw ItemMetadata.ofItem Raw.unmarshalObject
  rw [Raw.unmarshal_eq]
  by_cases h : Json.InRange raw.tree
  · rw [if_pos h]
    cases raw.decode with
    | obj o =>
      left
      simp only [mapNum_obj, Option.getD_some, members_obj, ItemMetadata.ofObj,
        jsonString_val_rounded]
    | _ => exact .inr (by simp [ItemMetadata.ofObj, Obj.val, jsonString, text]; decide)
  · rw [if_neg h]
    exact .inr (by decide)

lemma mergeWebSocketItems_of_distinct {groups : List (List Raw)}
    (h : Merge.Distinct ItemMetadata.ofItem groups.flatten) :
    mergeWebSocketItems groups = groups.flatten :=
  Merge.mergeItems_of_distinct (h.of_blank ofRaw_eq)

/-- The history is the transcript of the committed turns while their items are distinct. -/
def KeepsTranscript (c : Conversation) (ledger : List CommittedTurn) : Prop :=
  Merge.Distinct ItemMetadata.ofItem (transcript ledger) → c.history = transcript ledger

lemma keepsTranscript_committed {c : Conversation} {ledger : List CommittedTurn}
    {t : CommittedTurn} {generation : ℕ} (h : KeepsTranscript c ledger) :
    KeepsTranscript (c.committed t.plan t.event generation)
      (Connection.nextLedger ledger (some t)) := by
  intro hd
  rw [show (c.committed t.plan t.event generation).history =
    c.nextHistory t.plan t.event.output from rfl]
  unfold nextHistory
  unfold Connection.nextLedger at hd ⊢
  dsimp only at hd ⊢
  cases hr : t.plan.reset with
  -- a reset replaces the history by the input and the output of its turn
  | true =>
    rw [hr, if_pos rfl] at hd
    rw [if_pos rfl, if_pos rfl]
    have ht : transcript [t] = [t.plan.currentInput, t.event.output].flatten := by
      simp [transcript]
    rw [ht] at hd ⊢
    exact mergeWebSocketItems_of_distinct hd
  | false =>
    rw [hr, if_neg (by simp), transcript_concat] at hd
    rw [if_neg (by simp), if_neg (by simp), transcript_concat,
      h (hd.sublist (List.sublist_append_left _ _))]
    -- the two joins of a commit drop nothing, one after the other
    have hhead : mergeWebSocketItems [transcript ledger, t.plan.currentInput] =
        transcript ledger ++ t.plan.currentInput := by
      have hcur : [transcript ledger, t.plan.currentInput].flatten =
          transcript ledger ++ t.plan.currentInput := by simp
      rw [mergeWebSocketItems_of_distinct, hcur]
      rw [hcur]
      rw [← List.append_assoc] at hd
      exact hd.sublist (List.sublist_append_left _ _)
    rw [hhead, mergeWebSocketItems_of_distinct]
    · simp
    · simpa using hd

theorem keepsTranscript_of_run {good : Conversation → List CommittedTurn → CommittedTurn → Prop}
    {k : Connection} {c : Conversation} {ledger : List CommittedTurn} (h : k.Run good c ledger) :
    KeepsTranscript c ledger := by
  induction h with
  | start => exact fun _ => rfl
  | @step c ledger h t hgood ih =>
    have hstep := turn_step k c t
    generalize k.committedTurn c t = ct at hstep
    generalize (k.turn c t).2 = c' at hstep
    cases hstep with
    | idle i => exact ih
    | @commit object turn plan event terminal generation =>
      exact keepsTranscript_committed (t := { object, turn, plan, event }) ih

/-! ### Replays -/

lemma Planned.replay_input {k : Connection} {c : Conversation} {planType : String} {turn : Turn}
    {plan : Plan} (h : Planned k c planType turn plan) :
    get plan.replay "input" =
      some (.arr (rawMessagesAsAny (c.replayItems turn plan.currentInput))) := by
  obtain ⟨_, _, _, _, -, -, -, -, -, -, -, ha⟩ := Conversation.planTurn_spec h.run
  obtain ⟨currentInput, -, -, hf⟩ := Conversation.assemble_ok ha plan.identity
  have he := h.plan_eq.trans hf
  rw [congrArg Plan.replay he, congrArg Plan.currentInput he]
  dsimp only
  rw [replayObject, get_set_ne _ _ (by decide), get_erase_ne _ (by decide), get_set_self]

/-- A replay body sends the items as they are: no item is lost, repeated or moved, and each is the
same JSON value. -/
def Replays (body : Obj) (items : List Raw) : Prop :=
  ∃ sent, get body "input" = some (.arr sent) ∧ List.Forall₂ Json.Same sent (items.map Raw.decode)

lemma replays_iff {body : Obj} {items : List Raw}
    (h : get body "input" = some (.arr (rawMessagesAsAny items))) :
    Replays body items ↔ ∀ r ∈ items, r.Survives := by
  rw [← Raw.same_filterMap_unmarshal]
  constructor
  · rintro ⟨sent, hsent, hsame⟩
    obtain rfl : rawMessagesAsAny items = sent := by
      rw [h, Option.some.injEq, arr.injEq] at hsent
      exact hsent
    exact hsame
  · exact fun hsame => ⟨_, h, hsame⟩

/-- The items of the normalized input of a turn that are sent. Sanitizing leaves out reasoning
whose id is too long. -/
def keptInput (turn : Turn) : List Json :=
  (Obj.val turn.body "input").items.filter fun item => !Compat.leftOut false item

/-- The items of a plan are those of the normalized input, in every field but the id and the
encrypted content. -/
def FromInput (turn : Turn) (plan : Plan) : Prop :=
  List.Forall₂ Compat.SameFields (keptInput turn) (plan.currentInput.map Raw.decode)

lemma canon_items {v : Json} (h : v.canon = v) : ∀ item ∈ v.items, item.canon = item := by
  cases v with
  | arr xs => exact canon_arr_iff.mp h
  | _ => simp [items]

lemma canon_val {o : Obj} (h : (obj o).canon = obj o) (name : String) :
    (Obj.val o name).canon = Obj.val o name := by
  unfold Obj.val
  cases hg : get o name with
  | none => rfl
  | some v => exact canon_get h hg

lemma Planned.fromInput {k : Connection} {c : Conversation} {planType : String} {object : Obj}
    {turn : Turn} {plan : Plan} (h : Planned k c planType turn plan)
    (ho : (obj object).canon = obj object) (hr : c.readObject object = .ok turn) :
    FromInput turn plan := by
  obtain ⟨sent, hcur, hsan, -⟩ := h.currentInput_eq hr
  have hcanon := hsan.canon (canon_items (canon_val (canon_turn ho hr) _))
  have hdecode : (sent.map Raw.ofJson).map Raw.decode = sent := by
    rw [List.map_map]
    refine map_eq_self.mpr fun item hitem => ?_
    rw [Function.comp_apply, Raw.decode_ofJson, hcanon item hitem]
  rw [FromInput, hcur, hdecode]
  exact hsan.sameFields

lemma replay_input_transcript {good : Conversation → List CommittedTurn → CommittedTurn → Prop}
    {k : Connection} {c : Conversation} {ledger : List CommittedTurn} (hrun : k.Run good c ledger)
    {object : Obj} {turn : Turn} {planType : String} {plan : Plan}
    (hr : c.readObject object = .ok turn) (hp : Planned k c planType turn plan)
    (hcont : plan.continuation = true)
    (hdistinct : Merge.Distinct ItemMetadata.ofItem (transcript ledger ++ plan.currentInput)) :
    get plan.replay "input" =
      some (.arr (rawMessagesAsAny (transcript ledger ++ plan.currentInput))) := by
  have hreset : turn.reset = false := by
    rw [reset_eq hr, ← hp.fields.2.2.1, hcont]
    rfl
  have hhistory : c.history = transcript ledger :=
    keepsTranscript_of_run hrun (hdistinct.sublist (List.sublist_append_left _ _))
  have hitems : c.replayItems turn plan.currentInput = transcript ledger ++ plan.currentInput := by
    rw [replayItems, hreset, if_neg (by simp), hhistory, mergeWebSocketItems_of_distinct]
    · simp
    · simpa using hdistinct
  rw [hp.replay_input, hitems]

/-- **Replay fidelity.** While the items have ids of their own, the replay of a continuation is the
transcript followed by the new items exactly when all of them survive `json.Unmarshal`. The items
of the plans are those of the normalized inputs. -/
theorem replay_transcript {good : Conversation → List CommittedTurn → CommittedTurn → Prop}
    {k : Connection} {c c' : Conversation} {ledger : List CommittedTurn}
    (hrun : k.Run good c ledger)
    {raw : Text} {planType : String} {plan : Plan}
    (hprep : k.prepare c raw planType = (.ok plan, c')) (hcont : plan.continuation = true)
    (hdistinct : Merge.Distinct ItemMetadata.ofItem (transcript ledger ++ plan.currentInput)) :
    (Replays plan.replay (transcript ledger ++ plan.currentInput) ↔
        ∀ item ∈ transcript ledger ++ plan.currentInput, item.Survives) ∧
      (∀ t ∈ ledger, FromInput t.turn t.plan) ∧
      ∃ object turn, decodeObject raw = some object ∧ c.readObject object = .ok turn ∧
        FromInput turn plan := by
  obtain ⟨object, turn, hd, hr, ⟨hp⟩⟩ := planned_of_prepare hprep
  refine ⟨replays_iff (replay_input_transcript hrun hr hp hcont hdistinct), ?_, object, turn, hd,
    hr, hp.fromInput (canon_decodeObject hd) hr⟩
  refine hrun.forall_ledger fun c object turn plan event planType hd hr hp => ?_
  obtain ⟨raw, hd⟩ := hd
  exact hp.fromInput (canon_decodeObject hd) hr

instance (items : List Raw) : Decidable (Merge.Distinct ItemMetadata.ofItem items) :=
  decidable_of_iff
    (items.Pairwise (fun a b => (ItemMetadata.ofItem a).id = (ItemMetadata.ofItem b).id →
        (ItemMetadata.ofItem a).id = "") ∧
      items.Pairwise (fun a b => (ItemMetadata.ofItem a).isToolCall →
        (ItemMetadata.ofItem b).isToolCall →
        (ItemMetadata.ofItem a).callID ≠ (ItemMetadata.ofItem b).callID))
    ⟨fun h => ⟨h.1, h.2⟩, fun h => ⟨h.ids, h.calls⟩⟩

def numberTurn (n : Number) : TurnInput :=
  { raw := marshal (.obj [("input", .arr [.obj [("n", .num n), ("type", .str "message")]]),
      ("model", .str "m"), ("type", .str "response.create")])
    planType := "", uses := [], outcome := some (emptyTerminal "r1", 1) }

def nextMessage : Text :=
  marshal (.obj [("input", .arr []), ("previous_response_id", .str "r1"),
    ("type", .str "response.create")])

/-- An integer that lies halfway between two doubles. -/
def halfway : Number := ⟨"9007199254740993".toList, by decide⟩

/-- The conversation after a first request with the number. -/
def numberStart : Conversation :=
  ((Connection.sample false).turn (Connection.sample false).start (numberTurn halfway)).2

/-- A continuation after the number replays an item that does not survive. -/
def NumberReplayed : Prop :=
  ((Connection.sample false).committedTurn (Connection.sample false).start (numberTurn halfway)).any
    (fun t => ((Connection.sample false).prepare numberStart nextMessage "").1.toOption.any
      fun plan => t.plan.reset && plan.continuation &&
        decide (Merge.Distinct ItemMetadata.ofItem
          (t.plan.currentInput ++ t.event.output ++ plan.currentInput)) &&
        decide (¬∀ item ∈ t.plan.currentInput ++ t.event.output ++ plan.currentInput,
          item.Survives)) = true

lemma halfway_replayed : NumberReplayed := by
  unfold NumberReplayed
  decide +kernel

lemma NumberReplayed.run (h : NumberReplayed) :
    ∃ ledger plan c', (Connection.sample false).Run (fun _ _ _ => True) numberStart ledger ∧
      (Connection.sample false).prepare numberStart nextMessage "" = (.ok plan, c') ∧
      plan.continuation = true ∧
      Merge.Distinct ItemMetadata.ofItem (transcript ledger ++ plan.currentInput) ∧
      ¬∀ item ∈ transcript ledger ++ plan.currentInput, item.Survives := by
  unfold NumberReplayed at h
  obtain ⟨t, ht, h⟩ := (Option.any_eq_true _ _).mp h
  obtain ⟨plan, hplan, h⟩ := (Option.any_eq_true _ _).mp h
  simp only [Bool.and_eq_true, decide_eq_true_eq] at h
  obtain ⟨⟨⟨hreset, hcont⟩, hdistinct⟩, hlost⟩ := h
  have hledger : transcript [t] = t.plan.currentInput ++ t.event.output := by simp [transcript]
  have hstart : (Connection.sample false).Run (fun _ _ _ => True) (Connection.sample false).start
      [] := .start
  have hrun := hstart.turn (numberTurn halfway) (fun _ _ => trivial) numberStart.eq_1
  rw [ht, Connection.nextLedger, if_pos hreset] at hrun
  exact ⟨[t], plan, _, hrun, pair_of_fst (ok_of_toOption hplan), hcont, hledger ▸ hdistinct,
    hledger ▸ hlost⟩

/-- The replay of a continuation can change a number. -/
theorem replay_changes_number :
    ¬∀ (k : Connection) (c c' : Conversation) (ledger : List CommittedTurn),
      k.Run (fun _ _ _ => True) c ledger → ∀ (raw : Text) (planType : String) (plan : Plan),
      k.prepare c raw planType = (.ok plan, c') → plan.continuation = true →
      Merge.Distinct ItemMetadata.ofItem (transcript ledger ++ plan.currentInput) →
      Replays plan.replay (transcript ledger ++ plan.currentInput) := by
  intro h
  obtain ⟨ledger, plan, c', hrun, hprep, hcont, hdistinct, hlost⟩ := halfway_replayed.run
  obtain ⟨object, turn, -, hr, ⟨hp⟩⟩ := planned_of_prepare hprep
  have hreplays := h _ _ c' ledger hrun nextMessage "" plan hprep hcont hdistinct
  rw [replays_iff (replay_input_transcript hrun hr hp hcont hdistinct)] at hreplays
  exact hlost hreplays

/-- A message with one item, which continues the response `previous` unless that is empty. -/
def saidMessage (text previous : String) : Text :=
  marshal (.obj ([("input", .arr [.obj [("content", .str text), ("type", .str "message")]]),
    ("model", .str "m")] ++ (if previous = "" then [] else
      [("previous_response_id", .str previous)]) ++ [("type", .str "response.create")]))

/-- The end of a response with one item. -/
def saidTerminal (response : String) : Text :=
  marshal (.obj [("response", .obj [("id", .str response), ("output", .arr
    [.obj [("id", .str ("item-" ++ response)), ("type", .str "message")]])]),
    ("type", .str "response.completed")])

def saidTurn (text previous response : String) : TurnInput :=
  ⟨saidMessage text previous, "", [], some (saidTerminal response, 1)⟩

namespace Connection

variable (k : Connection)

def ledgerRun (x : Conversation × List CommittedTurn) (ts : List TurnInput) :
    Conversation × List CommittedTurn :=
  ts.foldl (fun x t => ((k.turn x.1 t).2, nextLedger x.2 (k.committedTurn x.1 t))) x

variable {k} in
lemma Run.ledgerRun {x : Conversation × List CommittedTurn}
    (h : k.Run (fun _ _ _ => True) x.1 x.2) (ts : List TurnInput) :
    k.Run (fun _ _ _ => True) (k.ledgerRun x ts).1 (k.ledgerRun x ts).2 := by
  induction ts generalizing x with
  | nil => exact h
  | cons t ts ih => exact ih (h.step t fun _ _ => trivial)

end Connection

/-- Two turns with an item and an answer each. -/
def saidTurns : List TurnInput := [saidTurn "one" "" "r1", saidTurn "two" "r1" "r2"]

/-- The replay of a third message is what was said in two turns and the new item. -/
theorem replay_transcript_said :
    ∃ c ledger plan c', (Connection.sample false).Run (fun _ _ _ => True) c ledger ∧
      (Connection.sample false).prepare c (saidMessage "three" "r2") "" = (.ok plan, c') ∧
      ledger.length = 2 ∧ (transcript ledger).length = 4 ∧ plan.currentInput.length = 1 ∧
      Replays plan.replay (transcript ledger ++ plan.currentInput) := by
  obtain ⟨x, hx⟩ : ∃ x, (Connection.sample false).ledgerRun
    ((Connection.sample false).start, []) saidTurns = x := ⟨_, rfl⟩
  have hsaid : ((Connection.sample false).prepare x.1 (saidMessage "three" "r2") "").1.toOption.any
      (fun plan => plan.continuation && decide (x.2.length = 2 ∧ (transcript x.2).length = 4 ∧
        plan.currentInput.length = 1 ∧
        Merge.Distinct ItemMetadata.ofItem (transcript x.2 ++ plan.currentInput) ∧
        ∀ item ∈ transcript x.2 ++ plan.currentInput, item.Survives)) = true := by
    rw [← hx]
    decide +kernel
  obtain ⟨plan, hplan, h⟩ := (Option.any_eq_true _ _).mp hsaid
  rw [Bool.and_eq_true, decide_eq_true_eq] at h
  obtain ⟨hcont, hturns, hitems, hnew, hdistinct, hsurvive⟩ := h
  have hrun : (Connection.sample false).Run (fun _ _ _ => True) x.1 x.2 :=
    hx ▸ Connection.Run.ledgerRun .start saidTurns
  have hprep := pair_of_fst (ok_of_toOption hplan)
  exact ⟨x.1, x.2, plan, _, hrun, hprep, hturns, hitems, hnew,
    (replay_transcript hrun hprep hcont hdistinct).1.mpr hsurvive⟩

end CodexOne
