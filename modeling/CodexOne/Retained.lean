import CodexOne.Ledger

/-!
The size of the history that a conversation keeps.

`commit` measures the replay body after it has decoded and encoded the items again, and keeps the
items as they were received. White space, long numbers and items that cannot be decoded are kept
but not measured.
-/

namespace CodexOne

open JsonOf Members Conversation

namespace Raw

lemma byteLen_elems (rest : List (Blanks × Raw × Blanks)) :
    (rest.map fun e => e.2.1.render.byteLen).sum ≤ (renderElems rest).byteLen := by
  induction rest with
  | nil => exact Nat.zero_le _
  | cons e rest ih =>
    obtain ⟨b, x, a⟩ := e
    rw [renderElems]
    simp only [List.map_cons, List.sum_cons, Text.byteLen_append, Text.byteLen_cons]
    omega

lemma ofJsonList_eq (xs : List Json) : ofJsonList xs = xs.map fun x => ([], ofJson x, []) := by
  induction xs with
  | nil => rfl
  | cons x xs ih => rw [ofJsonList, ih, List.map_cons]

lemma byteLen_members {h : Head} {x : Raw} {a : Blanks} {rest : List (Head × Raw × Blanks)}
    (hm : (h, x, a) ∈ rest) : x.render.byteLen ≤ (renderMembers rest).byteLen := by
  induction rest with
  | nil => cases hm
  | cons e rest ih =>
    obtain ⟨h', x', a'⟩ := e
    rw [renderMembers]
    simp only [Text.byteLen_append, Text.byteLen_cons]
    rcases List.mem_cons.mp hm with he | hm
    · cases he
      omega
    · have := ih hm
      omega

lemma mem_ofJsonMembers {ms : List (String × Json)} {m : String × Json} (hm : m ∈ ms) :
    (headOf m.1, ofJson m.2, []) ∈ ofJsonMembers ms := by
  induction ms with
  | nil => cases hm
  | cons n ms ih =>
    rw [ofJsonMembers]
    rcases List.mem_cons.mp hm with rfl | hm
    · exact List.mem_cons_self
    · exact List.mem_cons_of_mem _ (ih hm)

end Raw

lemma byteLen_marshal_arr (xs : List Json) :
    (xs.map fun x => (marshal x).byteLen).sum ≤ (marshal (.arr xs)).byteLen := by
  cases xs with
  | nil => exact Nat.zero_le _
  | cons x xs =>
    have h := Raw.byteLen_elems (Raw.ofJsonList xs)
    rw [Raw.ofJsonList_eq, List.map_map] at h
    change (xs.map fun x => (marshal x).byteLen).sum ≤ _ at h
    rw [marshal, Raw.ofJson, Raw.render, Raw.ofJsonList_eq]
    simp only [List.map_cons, List.sum_cons, Text.byteLen_append, Text.byteLen_cons]
    have hx : (marshal x).byteLen = (Raw.ofJson x).render.byteLen := rfl
    omega

lemma byteLen_marshal_obj {o : Obj} {key : String} {value : Json} (h : get o key = some value) :
    (marshal value).byteLen ≤ (marshal (.obj o)).byteLen := by
  have hm := mem_of_get h
  cases o with
  | nil => cases hm
  | cons m o =>
    obtain ⟨k, x⟩ := m
    rw [marshal, marshal, Raw.ofJson, Raw.render]
    simp only [Text.byteLen_append, Text.byteLen_cons]
    rcases List.mem_cons.mp hm with he | hm
    · cases he
      omega
    · have hmember := Raw.byteLen_members (Raw.mem_ofJsonMembers hm)
      dsimp only at hmember
      omega

def retainedBytes (items : List Raw) : ℕ := (items.map fun item => item.render.byteLen).sum

/-- An item can be decoded, and what it is encoded to again is no shorter. -/
def Measured (item : Raw) : Prop :=
  ∃ value, item.unmarshal = some value ∧ item.render.byteLen ≤ (marshal value).byteLen

instance : DecidablePred Measured := fun item =>
  decidable_of_iff (item.unmarshal.any (fun value =>
    decide (item.render.byteLen ≤ (marshal value).byteLen)) = true) (by
  rw [Option.any_eq_true]
  simp [Measured])

lemma retainedBytes_le {items : List Raw} (h : ∀ item ∈ items, Measured item) :
    retainedBytes items ≤ (marshal (.arr (rawMessagesAsAny items))).byteLen := by
  refine le_trans ?_ (byteLen_marshal_arr _)
  unfold retainedBytes rawMessagesAsAny
  induction items with
  | nil => exact Nat.zero_le _
  | cons item items ih =>
    obtain ⟨⟨value, hvalue, hle⟩, hrest⟩ := List.forall_mem_cons.mp h
    have hsum := ih hrest
    rw [List.filterMap_cons_some hvalue]
    simp only [List.map_cons, List.sum_cons]
    omega

lemma mem_nextHistory {c : Conversation} {plan : Plan} {output : List Raw} {item : Raw}
    (h : item ∈ c.nextHistory plan output) :
    item ∈ c.history ∨ item ∈ plan.currentInput ∨ item ∈ output := by
  have hsub := (@Merge.mergeItems_sublist _ ItemMetadata.ofRaw _).subset h
  simp only [List.flatten_cons, List.flatten_nil, List.append_nil, List.mem_append] at hsub
  rcases hsub with hmem | hmem
  · split_ifs at hmem
    · exact .inr (.inl hmem)
    · have hmem := (@Merge.mergeItems_sublist _ ItemMetadata.ofRaw _).subset hmem
      simp only [List.flatten_cons, List.flatten_nil, List.append_nil, List.mem_append] at hmem
      exact hmem.imp_right .inl
  · exact .inr (.inr hmem)

/-! ### Runs -/

/-- Calls of `prepare` and `commit` in any order: the conversation they lead to, and the plans made
so far, each of which can be committed at any time. The turns that are committed are good. -/
inductive Calls (k : Connection) (good : Plan → Terminal → Prop) :
    Conversation → List Plan → Prop
  | start : Calls k good k.start []
  | prepare {c plans} (h : Calls k good c plans) (raw : Text) (planType : String) :
      Calls k good (k.prepare c raw planType).2
        ((k.prepare c raw planType).1.toOption.toList ++ plans)
  | commit {c plans} (h : Calls k good c plans) {plan : Plan} (hp : plan ∈ plans)
      (terminal : Text) (generation : ℕ)
      (hgood : ∀ event, c.Accepts plan terminal event → good plan event) :
      Calls k good (c.settle plan (some (terminal, generation))) plans

/-- The items of a turn are measured in full. -/
def MeasuredTurn (plan : Plan) (event : Terminal) : Prop :=
  ∀ item ∈ plan.currentInput ++ event.output, Measured item

/-- The items that are kept are measured, and they are within the limit. -/
structure WithinLimit (c : Conversation) : Prop where
  measured : ∀ item ∈ c.history, Measured item
  bounded : (retainedBytes c.history : ℤ) ≤ c.replayLimit

lemma withinLimit_congr {c c' : Conversation} (hh : c'.history = c.history)
    (hl : c'.maxReplayBytes = c.maxReplayBytes) (h : WithinLimit c) : WithinLimit c' := by
  refine ⟨hh ▸ h.measured, ?_⟩
  rw [hh, replayLimit, hl]
  exact h.bounded

lemma WithinLimit.committed {c : Conversation} (h : WithinLimit c) {plan : Plan} {terminal : Text}
    {event : Terminal} (hgood : MeasuredTurn plan event) (ha : c.Accepts plan terminal event)
    (generation : ℕ) : WithinLimit (c.committed plan event generation) := by
  have hmeasured : ∀ item ∈ c.nextHistory plan event.output, Measured item := by
    intro item hitem
    rcases mem_nextHistory hitem with hmem | hmem | hmem
    · exact h.measured item hmem
    · exact hgood item (List.mem_append_left _ hmem)
    · exact hgood item (List.mem_append_right _ hmem)
  refine ⟨hmeasured, ?_⟩
  have hlimit := ha.2.2
  rw [overLimit, gt_iff_lt, not_lt] at hlimit
  have hsize := (retainedBytes_le hmeasured).trans
    (byteLen_marshal_obj (o := c.replayAfter plan event)
    (get_set_self _ _ _))
  exact le_trans (by exact_mod_cast hsize) hlimit

lemma WithinLimit.settle {c : Conversation} (h : WithinLimit c) {plan : Plan} {terminal : Text}
    {generation : ℕ} (hgood : ∀ event, c.Accepts plan terminal event → MeasuredTurn plan event) :
    WithinLimit (c.settle plan (some (terminal, generation))) := by
  rcases settle_cases c plan (some (terminal, generation)) with ⟨hs, -⟩ | ⟨_, ⟨⟩, event, ha, hs⟩
  · rwa [hs]
  · rw [hs]
    exact h.committed (hgood event ha) ha generation

lemma prepare_conversation (k : Connection) (c : Conversation) (raw : Text) (planType : String) :
    ∃ i, (k.prepare c raw planType).2 = { c with identity := i } := by
  have hp := prepared k.digests k.fuel c k.request raw k.cfg.codexIdentityRemap planType
  rcases hprep : k.prepare c raw planType with ⟨r, c'⟩
  rw [show c.prepare _ _ _ _ _ _ = _ from hprep] at hp
  cases hp with
  | unread => exact ⟨c.identity, rfl⟩
  | unnamed => exact ⟨c.identity, rfl⟩
  | refused => exact ⟨_, rfl⟩
  | planned => exact ⟨_, rfl⟩

/-- **The history is bounded.** While all items of the committed turns are measured in full, the
items that are kept are within the limit of the replay; and a commit that is refused changes
nothing. -/
theorem history_bounded {k : Connection} {c : Conversation} {plans : List Plan}
    (h : Calls k MeasuredTurn c plans) :
    (retainedBytes c.history : ℤ) ≤ c.replayLimit ∧
    ∀ plan terminal generation e, c.commit plan terminal generation = .error e →
      c.settle plan (some (terminal, generation)) = c := by
  have hwithin : WithinLimit c := by
    induction h with
    | start =>
      refine ⟨fun _ hm => (by cases hm), ?_⟩
      unfold replayLimit
      split_ifs with hpos
      · exact le_of_lt hpos
      · show (0 : ℤ) ≤ defaultWebSocketReplayBytes
        decide
    | @prepare c plans h raw planType ih =>
      obtain ⟨i, hi⟩ := prepare_conversation k c raw planType
      rw [hi]
      exact withinLimit_congr (c := c) rfl rfl ih
    -- the limit is checked on the encoded replay, which holds all the items
    | commit h hp terminal generation hgood ih => exact ih.settle hgood
  refine ⟨hwithin.bounded, fun plan terminal generation e he => ?_⟩
  rw [settle, he]

section Samples

def smallConnection : Connection := { Connection.sample false with maxReplayBytes := 400 }

def itemTerminal (item : Obj) : Text :=
  marshal (.obj [("response", .obj [("id", .str "r1"), ("output", .arr [.obj item])])])

/-- A message, and a long item whose number no double is near to. -/
def shortItem : Obj := [("id", .str "msg_1"), ("type", .str "message")]

def longItem : Obj := [("n", .num ⟨'1' :: List.replicate 400 '0', by decide +kernel⟩)]

/-- The turn of a first message whose response has one item. -/
def sampleAccepted (item : Obj) : Option (Plan × Terminal × Conversation) :=
  match smallConnection.prepare smallConnection.start (TurnInput.first none).raw "",
    Terminal.decode (itemTerminal item) with
  | (.ok plan, c), some event => some (plan, event, c.settle plan (some (itemTerminal item, 1)))
  | _, _ => none

lemma calls_of_sample (good : Plan → Terminal → Prop) {item : Obj}
    {x : Plan × Terminal × Conversation}
    (h : sampleAccepted item = some x) (hgood : good x.1 x.2.1) :
    ∃ plans, Calls smallConnection good x.2.2 plans := by
  unfold sampleAccepted at h
  split at h
  · rename_i plan c event hprep hdecode
    obtain rfl := Option.some.inj h
    have hcalls := @Calls.prepare smallConnection good _ _ .start (TurnInput.first none).raw ""
    rw [hprep] at hcalls
    have hmem : plan ∈ (Except.ok plan : Except String Plan).toOption.toList ++ [] :=
      List.mem_cons_self
    refine ⟨_, hcalls.commit hmem (itemTerminal item) 1 fun e he => ?_⟩
    rw [Option.some.inj (hdecode.symm.trans he.1)] at hgood
    exact hgood
  · cases h

/-- A short message is measured in full and kept. -/
theorem history_bounded_short :
    ∃ c : Conversation, c.history.length = 1 ∧
      (retainedBytes c.history : ℤ) ≤ c.replayLimit := by
  have hsample : ((sampleAccepted shortItem).any fun x => decide (x.2.2.history.length = 1 ∧
      ∀ item ∈ x.1.currentInput ++ x.2.1.output, Measured item)) = true := by decide +kernel
  obtain ⟨x, hx, h⟩ := (Option.any_eq_true _ _).mp hsample
  obtain ⟨hhistory, hgood⟩ := of_decide_eq_true h
  obtain ⟨plans, hcalls⟩ := calls_of_sample MeasuredTurn hx hgood
  exact ⟨x.2.2, hhistory, (history_bounded hcalls).1⟩

/-- A long item that cannot be decoded is kept beyond the limit. -/
theorem history_unbounded :
    ∃ c plans, Calls smallConnection (fun _ _ => True) c plans ∧
      c.replayLimit = 400 ∧ c.replayLimit < (retainedBytes c.history : ℤ) := by
  have hsample : ((sampleAccepted longItem).any fun x => decide (x.2.2.replayLimit = 400 ∧
      x.2.2.replayLimit < (retainedBytes x.2.2.history : ℤ))) = true := by decide +kernel
  obtain ⟨x, hx, h⟩ := (Option.any_eq_true _ _).mp hsample
  obtain ⟨plans, hcalls⟩ := calls_of_sample (fun _ _ => True) hx trivial
  exact ⟨x.2.2, plans, hcalls, of_decide_eq_true h⟩

end Samples

end CodexOne
