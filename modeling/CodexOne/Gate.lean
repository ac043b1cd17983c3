import CodexOne.Ledger
import CodexOne.Submitted

/-!
The response that a message goes on from, `prepare` of `internal/proxy/websocket_state.go`.

The field `previous_response_id` is read through `jsonString`, which gives nothing for what is no
string and for what is no valid identity, and trims the rest. The field itself stays in the body.
-/

namespace CodexOne.Conversation

open Members JsonOf GoStrings Normalize

variable {c : Conversation} {object : Obj} {turn : Turn}

lemma get_carry_previous (previousResponseID : String) :
    get (c.carry previousResponseID object) "previous_response_id" =
      if previousResponseID = "" then some (.str c.lastResponseID)
      else get object "previous_response_id" := by
  unfold carry
  simp only [webSocketContinuationFields, List.foldl_cons, List.foldl_nil]
  rw [get_carrySetting, if_neg (by decide), get_carrySetting, if_neg (by decide), get_carrySetting,
    if_neg (by decide), carryResponse]
  split_ifs
  · exact get_set_self _ _ _
  · rw [get_carryInstructions, if_neg (by decide)]

lemma not_complete_of_continuation (h : isContinuation object = true) :
    inputLooksComplete object = false := by
  rw [isContinuation, Bool.and_eq_true, Bool.not_eq_true'] at h
  exact h.2

lemma get_previous_turn (hr : c.readObject object = .ok turn)
    (hc : isContinuation object = true) :
    get turn.body "previous_response_id" =
      if jsonString (Obj.val object "previous_response_id") = "" then some (.str c.lastResponseID)
      else get object "previous_response_id" := by
  rw [turn_body hr, get_forced _ (by decide) (by decide) (by decide) (by decide)
    (by decide) (by decide) (by decide), get_forceFields_other _ (by decide),
    get_wrapInput_ne _ (by decide),
    requestBody, get_set_ne _ _ (by decide), if_pos hc, get_carry_previous, modelBody,
    not_complete_of_continuation hc, if_neg Bool.false_ne_true, get_set_ne _ _ (by decide)]

/-! ### The gate -/

/-- The field of a message is neither missing nor null nor a blank string. -/
def NamesResponse (object : Obj) : Prop :=
  ∃ value, get object "previous_response_id" = some value ∧ value ≠ .null ∧
    ∀ s, value = .str s → trimSpace s ≠ ""

/-- A named response is the last one, of a conversation that has one, and is gone on from; and
what goes on sends its id. -/
structure Gate (c : Conversation) (object : Obj) (plan : Plan) : Prop where
  named : NamesResponse object → inputLooksComplete object = false →
    c.hasCompleted = true ∧
    (∃ s, get object "previous_response_id" = some (.str s) ∧ trimSpace s = c.lastResponseID) ∧
    plan.continuation = true
  sent : plan.continuation = true →
    get plan.incremental "previous_response_id" = some (.str c.lastResponseID)

/-- What a message may hold in the field: nothing, an id as it is kept, or in `response.append` the
last id although it is no valid one. -/
def WellNamed (c : Conversation) (object : Obj) : Prop :=
  inputLooksComplete object = true ∨ ¬NamesResponse object ∨
    ∃ s, get object "previous_response_id" = some (.str s) ∧
      (validIdentityValue s = true ∧ trimSpace s = s ∨
        validIdentityValue s = false ∧
          jsonString (Obj.val object "type") = "response.append" ∧ trimSpace s = c.lastResponseID)

lemma jsonString_of_valid {s : String} (h : validIdentityValue s = true) :
    jsonString (.str s) = trimSpace s := by
  rw [jsonString, text_str, cleanIdentityValue, if_pos]
  rwa [validIdentityValue, trimSpace_idem] at *

lemma jsonString_of_invalid {s : String} (h : validIdentityValue s = false) :
    jsonString (.str s) = "" := by
  rw [jsonString, text_str, cleanIdentityValue, if_neg]
  rw [validIdentityValue, trimSpace_idem]
  rw [validIdentityValue] at h
  rw [h]
  exact Bool.false_ne_true

lemma jsonString_of_not_names (h : ¬NamesResponse object) :
    jsonString (Obj.val object "previous_response_id") = "" := by
  unfold Obj.val
  cases hg : get object "previous_response_id" with
  | none => decide
  | some value =>
    by_cases hnull : value = .null
    · -- `null` is read as no id
      rw [hnull]
      decide
    by_cases hblank : ∃ s, value = .str s ∧ trimSpace s = ""
    · obtain ⟨s, rfl, hs⟩ := hblank
      rw [Option.getD_some, jsonString, text_str, cleanIdentityValue, hs]
      decide
    · refine absurd ⟨value, hg, hnull, fun s hs ht => hblank ⟨s, hs, ht⟩⟩ h

lemma isContinuation_iff (hcomplete : inputLooksComplete object = false) :
    isContinuation object = true ↔ jsonString (Obj.val object "type") = "response.append" ∨
      jsonString (Obj.val object "previous_response_id") ≠ "" := by
  simp [isContinuation, hcomplete]

lemma read_of_accepted (hr : c.readObject object = .ok turn)
    (hne : jsonString (Obj.val object "previous_response_id") ≠ "") :
    c.hasCompleted = true ∧ (isContinuation object = true →
      jsonString (Obj.val object "previous_response_id") = c.lastResponseID) := by
  obtain ⟨-, h, -, -⟩ := readObject_ok hr
  unfold checkContinuation at h
  dsimp only at h
  split_ifs at h with h1 h2 h3
  · refine ⟨?_, fun hc => ?_⟩
    · by_contra hno
      exact h1 ⟨Bool.not_eq_true _ ▸ hno, hne⟩
    · by_contra hno
      exact h2 ⟨hc, hne, hno⟩

end CodexOne.Conversation

namespace CodexOne

open Members JsonOf GoStrings Conversation

variable {k : Connection} {c : Conversation} {object : Obj} {turn : Turn} {plan : Plan}
  {planType : String}

lemma gate_iff (hr : c.readObject object = .ok turn) (hp : Planned k c planType turn plan) :
    Gate c object plan ↔ WellNamed c object := by
  have hcont : plan.continuation = isContinuation object :=
    hp.fields.2.2.1.trans (turn_continuation hr)
  have hsent (hc : isContinuation object = true) := get_previous_turn hr hc
  rw [← hp.get_incremental (by decide)] at hsent
  by_cases hcomplete : inputLooksComplete object = true
  · refine iff_of_true ⟨fun _ hno => ?_, fun hc => ?_⟩ (.inl hcomplete)
    · rw [hcomplete] at hno
      cases hno
    · rw [hcont] at hc
      rw [not_complete_of_continuation hc] at hcomplete
      cases hcomplete
  rw [Bool.not_eq_true] at hcomplete
  by_cases hnames : NamesResponse object
  swap
  · refine iff_of_true ⟨fun h => absurd h hnames, fun hc => ?_⟩ (.inr (.inl hnames))
    rw [hsent (hcont ▸ hc), if_pos (jsonString_of_not_names hnames)]
  obtain ⟨value, hg, hnull, hblank⟩ := id hnames
  have hval : Obj.val object "previous_response_id" = value := Obj.val_of_get hg
  have hiff := isContinuation_iff hcomplete
  rw [hval] at hiff hsent
  have hread := read_of_accepted hr
  rw [hval] at hread
  have hwell : WellNamed c object ↔ ∃ s, value = .str s ∧
      (validIdentityValue s = true ∧ trimSpace s = s ∨ validIdentityValue s = false ∧
        jsonString (Obj.val object "type") = "response.append" ∧
          trimSpace s = c.lastResponseID) := by
    rw [WellNamed, hcomplete]
    simp only [Bool.false_eq_true, hnames, not_true, false_or, hg, Option.some_inj]
  have hgate : Gate c object plan ↔ c.hasCompleted = true ∧
      (∃ s, value = .str s ∧ trimSpace s = c.lastResponseID) ∧ isContinuation object = true ∧
      get plan.incremental "previous_response_id" = some (.str c.lastResponseID) := by
    constructor
    · intro h
      obtain ⟨h1, ⟨s, hs, ht⟩, h3⟩ := h.named hnames hcomplete
      rw [hg, Option.some_inj] at hs
      exact ⟨h1, ⟨s, hs, ht⟩, hcont ▸ h3, h.sent h3⟩
    · rintro ⟨h1, ⟨s, rfl, ht⟩, h3, h4⟩
      exact ⟨fun _ _ => ⟨h1, ⟨s, hg, ht⟩, hcont ▸ h3⟩, fun _ => h4⟩
  rw [hgate, hwell]
  by_cases hstr : ∃ s, value = .str s
  swap
  · exact iff_of_false (fun ⟨_, ⟨s, hs, _⟩, _⟩ => hstr ⟨s, hs⟩) fun ⟨s, hs, _⟩ => hstr ⟨s, hs⟩
  obtain ⟨s, rfl⟩ := hstr
  simp only [str.injEq, exists_eq_left']
  cases hvalid : validIdentityValue s with
  | true =>
    -- the id is read, so it is the last one but for white space
    rw [jsonString_of_valid hvalid] at hiff hsent hread
    have hc := hiff.mpr (.inr (hblank s rfl))
    obtain ⟨hdone, hlast⟩ := hread (hblank s rfl)
    rw [hsent hc, if_neg (hblank s rfl), hg, ← hlast hc]
    simp [hdone, hc, eq_comm]
  | false =>
    -- nothing is read, and the message goes on only by its type
    rw [jsonString_of_invalid hvalid] at hiff hsent
    constructor
    · rintro ⟨-, ht, hc, -⟩
      exact .inr ⟨rfl, (hiff.mp hc).resolve_right (fun h => h rfl), ht⟩
    · rintro (⟨h, -⟩ | ⟨-, happend, ht⟩)
      · cases h
      · have hc := hiff.mpr (.inl happend)
        refine ⟨hasCompleted_of_continuation hr ((turn_continuation hr).trans hc), ht, hc, ?_⟩
        rw [hsent hc, if_pos rfl]

/-- **The response a message goes on from.** Of the messages that are planned, those that hold
nothing in the field, an id as it is kept, or an append with the last id although it is no valid
one go on from the last response, and no others. -/
theorem previous_response_id_gate_iff {raw : Text} {c' : Conversation}
    (hd : decodeObject raw = some object) (h : k.prepare c raw planType = (.ok plan, c')) :
    Gate c object plan ↔ WellNamed c object := by
  obtain ⟨object', turn, hd', hr, ⟨hp⟩⟩ := planned_of_prepare h
  obtain rfl := Option.some.inj (hd.symm.trans hd')
  exact gate_iff hr hp

section Samples

def namedMessage (value : Json) : Obj :=
  [("input", .arr []), ("model", .str "m"), ("previous_response_id", value),
    ("type", .str "response.create")]

def afterFirst : Conversation :=
  ((Connection.sample false).turn (Connection.sample false).start
    (.first (some (emptyTerminal "r1", 1)))).2

def namedPlan (c : Conversation) (value : Json) : Except String Plan :=
  ((Connection.sample false).prepare c (marshal (.obj (namedMessage value))) "").1

lemma not_wellNamed {c : Conversation} {value : Json} (hnull : value ≠ .null)
    (hpadded : ∀ s, value = .str s → trimSpace s ≠ "" ∧ trimSpace s ≠ s) :
    ¬WellNamed c (namedMessage value) := by
  have hget : get (namedMessage value) "previous_response_id" = some value := by
    simp [namedMessage, get_cons]
  have htype : Obj.val (namedMessage value) "type" = .str "response.create" := by
    simp [namedMessage, Obj.val, get_cons]
  have hinput : Obj.val (namedMessage value) "input" = .arr [] := by
    simp [namedMessage, Obj.val, get_cons]
  rintro (hcomplete | hnames | ⟨s, hs, ⟨-, ht⟩ | ⟨-, happend, -⟩⟩)
  · rw [inputLooksComplete, hinput] at hcomplete
    simp [webSocketInputLooksLikeTranscript] at hcomplete
  · exact hnames ⟨value, hget, hnull, fun s hs => (hpadded s hs).1⟩
  · rw [hget, Option.some_inj] at hs
    exact (hpadded s hs).2 ht
  · rw [htype] at happend
    exact absurd happend (by decide)

lemma gate_named {c : Conversation} {value : Json} {plan : Plan}
    (hc : (obj (namedMessage value)).canon = obj (namedMessage value))
    (h : namedPlan c value = .ok plan) :
    Gate c (namedMessage value) plan ↔ WellNamed c (namedMessage value) :=
  previous_response_id_gate_iff (decodeObject_marshal hc) (pair_of_fst h)

/-- A message with the last id is gone on from as it should be. -/
theorem previous_response_id_gate_iff_last :
    ∃ plan, namedPlan afterFirst (.str "r1") = .ok plan ∧
      (Gate afterFirst (namedMessage (.str "r1")) plan ↔
        WellNamed afterFirst (namedMessage (.str "r1"))) ∧
      WellNamed afterFirst (namedMessage (.str "r1")) := by
  have hplan : (namedPlan afterFirst (.str "r1")).toOption.isSome = true := by decide +kernel
  obtain ⟨plan, hplan⟩ := Option.isSome_iff_exists.mp hplan
  have hok := ok_of_toOption hplan
  exact ⟨plan, hok, previous_response_id_gate_iff (k := Connection.sample false)
    (decodeObject_marshal (by decide)) (pair_of_fst hok),
    .inr (.inr ⟨"r1", by decide, .inl ⟨by decide +kernel, by decide +kernel⟩⟩)⟩

/-- A number names no response, but the message is taken as a new start. White space around the
last id is sent on. -/
theorem previous_response_id_slips :
    (∃ plan, namedPlan (Connection.sample false).start (.num ⟨['5'], by decide⟩) = .ok plan ∧
      plan.continuation = false ∧ ¬Gate (Connection.sample false).start
        (namedMessage (.num ⟨['5'], by decide⟩)) plan) ∧
    (Connection.sample false).Reachable afterFirst ∧ afterFirst.lastResponseID = "r1" ∧
    ∃ plan, namedPlan afterFirst (.str " r1 ") = .ok plan ∧
      get plan.incremental "previous_response_id" = some (.str " r1 ") ∧
      ¬Gate afterFirst (namedMessage (.str " r1 ")) plan := by
  have hnumber : ((namedPlan (Connection.sample false).start
      (.num ⟨['5'], by decide⟩)).toOption.any fun plan => !plan.continuation) = true := by
    decide +kernel
  have hpadded : ((namedPlan afterFirst (.str " r1 ")).toOption.any fun plan =>
      decide (get plan.incremental "previous_response_id" = some (.str " r1 "))) = true := by
    decide +kernel
  obtain ⟨plan, hplan, hcont⟩ := (Option.any_eq_true _ _).mp hnumber
  obtain ⟨plan', hplan', hsent⟩ := (Option.any_eq_true _ _).mp hpadded
  have hok := ok_of_toOption hplan
  have hok' := ok_of_toOption hplan'
  refine ⟨⟨plan, hok, by simpa using hcont, ?_⟩, ⟨[.first (some (emptyTerminal "r1", 1))], rfl⟩,
    by decide +kernel, plan', hok', of_decide_eq_true hsent, ?_⟩
  · rw [gate_named (by decide) hok]
    exact not_wellNamed (by decide) fun s hs => by cases hs
  · rw [gate_named (by decide) hok']
    refine not_wellNamed (by decide) fun s hs => ?_
    obtain rfl := str.inj hs
    decide

end Samples

end CodexOne
