import CodexOne.Turns

/-!
What a rejected message leaves behind.

`prepare` works on the identity of the connection, so a message that is rejected late may leave
entries in its reverse table, or a mapping error. Nothing else of the conversation changes, and
the entries are seen by later messages only as an earlier mapping error.
-/

namespace CodexOne

open Identity

/-- Two plans that differ in nothing but the reverse table. -/
def Plan.Alike (p q : Plan) : Prop := p = { q with identity := p.identity }

def SameAnswer : Except String Plan → Except String Plan → Prop
  | .ok p, .ok q => p.Alike q
  | .error e, .error e' => e = e'
  | _, _ => False

namespace Conversation

/-- `c'` is `c` with a larger reverse table. -/
structure Shadow (c c' : Conversation) : Prop where
  rest : c' = { c with identity := c'.identity }
  identity : Option.Rel Within c.identity c'.identity

/-- The identity of the connection has run into a mapping error. -/
def Failed (c : Conversation) : Prop := ∃ i, c.identity = some i ∧ i.mappingErr ≠ none

lemma Shadow.refl (c : Conversation) : Shadow c c := by
  refine ⟨rfl, ?_⟩
  cases c.identity with
  | none => exact .none
  | some i => exact .some (.refl i)

lemma Shadow.of_some {c c' : Conversation} (h : Shadow c c') {j : Identity}
    (hj : c'.identity = some j) : ∃ i, c.identity = some i ∧ Within i j := by
  have hi := h.identity
  rw [hj] at hi
  cases hc : c.identity <;> rw [hc] at hi <;> cases hi
  exact ⟨_, rfl, by assumption⟩

lemma Shadow.of_none {c c' : Conversation} (h : Shadow c c') (hj : c'.identity = none) :
    c' = c := by
  have hi := h.identity
  rw [hj] at hi
  cases hc : c.identity <;> rw [hc] at hi <;> cases hi
  rw [h.rest, hj, ← hc]

section
variable (c : Conversation) (i : Option Identity)

lemma readTurn_identity (raw : Text) :
    ({ c with identity := i } : Conversation).readTurn raw = c.readTurn raw := by
  simp only [readTurn, readObject, checkType, checkContinuation, turnModel, requestBody, carry,
    carryResponse, modelBody]
  rfl

lemma replayLimitError_identity :
    ({ c with identity := i } : Conversation).replayLimitError = c.replayLimitError := rfl

lemma replayItems_identity (turn : Turn) (currentInput : List Raw) :
    ({ c with identity := i } : Conversation).replayItems turn currentInput =
      c.replayItems turn currentInput := rfl

lemma assemble_identity (turn : Turn) (turnSettings : List (String × Raw)) (normalized : Obj) :
    ({ c with identity := i } : Conversation).assemble turn turnSettings normalized =
      c.assemble turn turnSettings normalized := by
  unfold assemble
  simp only [replayLimitError_identity, replayItems_identity]
  rfl

lemma planTurn_identity (d : Digests) (fuel : ℕ) (headers : Header) (planType : String)
    (turn : Turn) (fixed : Bool) :
    planTurn d fuel { c with identity := i } headers planType turn fixed =
      planTurn d fuel c headers planType turn fixed := by
  unfold planTurn
  simp only [assemble_identity]

lemma accepts_identity (p : Plan) (j : Identity) (terminal : Text) (event : Terminal) :
    ({ c with identity := i } : Conversation).Accepts { p with identity := j } terminal event ↔
      c.Accepts p terminal event := Iff.rfl

lemma committed_identity (p : Plan) (j : Identity) (event : Terminal) (generation : ℕ) :
    ({ c with identity := i } : Conversation).committed { p with identity := j } event generation =
      { c.committed p event generation with identity := some j } := rfl

end

/-! ### One turn -/

variable {c c' : Conversation}

lemma Shadow.settle (h : Shadow c c') {p : Plan} {j : Identity} (hj : Within p.identity j)
    (outcome : Option (Text × ℕ)) :
    Shadow (c.settle p outcome) (c'.settle { p with identity := j } outcome) := by
  have hacc : ∀ terminal event, c'.Accepts { p with identity := j } terminal event ↔
      c.Accepts p terminal event := fun terminal event => by
    rw [h.rest]
    exact accepts_identity c _ p j terminal event
  rcases settle_cases c p outcome with ⟨hs, hno⟩ | ⟨o, ho, event, ha, hs⟩
  · -- nothing is committed on the one side, so nothing on the other
    rcases settle_cases c' { p with identity := j } outcome with ⟨hs', -⟩ | ⟨o, ho, event, ha, -⟩
    · rwa [hs, hs']
    · exact absurd ((hacc o.1 event).mp ha) (hno o ho event)
  · rcases settle_cases c' { p with identity := j } outcome with
      ⟨-, hno⟩ | ⟨o', ho', event', ha', hs'⟩
    · exact absurd ((hacc o.1 event).mpr ha) (hno o ho event)
    · cases Option.mem_unique ho ho'
      cases ha.1.symm.trans ((hacc o.1 event').mp ha').1
      rw [hs, hs', h.rest, committed_identity]
      exact ⟨rfl, .some hj⟩

variable (k : Connection)

lemma within_use (plan : Plan) (u : Use) {i j : Identity} (h : Within i j) :
    Within (k.use plan i u) (k.use plan j u) := by
  cases u with
  | dial => exact (tracks_dialHeaders _ _ _ _).within i j h
  | fallback => exact (tracks_fallbackRequest _ _ _ _ _ _ _).within i j h

lemma within_uses (plan : Plan) (uses : List Use) {i j : Identity} (h : Within i j) :
    Within (uses.foldl (k.use plan) i) (uses.foldl (k.use plan) j) := by
  induction uses generalizing i j with
  | nil => exact h
  | cons u uses ih => exact ih (within_use k plan u h)

lemma use_alike {p q : Plan} (h : p.Alike q) : k.use p = k.use q := by
  rw [h]
  funext i u
  cases u <;> simp only [Connection.use]

lemma Failed.turn (h : Failed c) (t : TurnInput) :
    Failed (k.turn c t).2 ∧ ∃ e, (k.turn c t).1 = .error e := by
  obtain ⟨i, hi, herr⟩ := h
  cases hr : c.readTurn t.raw with
  | error e =>
    rw [Connection.turn_of_unread hr]
    exact ⟨⟨i, hi, herr⟩, e, rfl⟩
  | ok turn =>
    have hstuck := (tracks_planTurn k.digests k.fuel c k.request.headers t.planType turn
      true).err_of_err herr
    rcases hrun : (planTurn k.digests k.fuel c k.request.headers t.planType turn true).run i with
      ⟨e | f, j⟩ <;> rw [hrun] at hstuck
    · rw [Connection.turn_of_refused hr hi hrun]
      exact ⟨⟨j, rfl, hstuck⟩, e, rfl⟩
    · exact absurd (mappingErr_of_planTurn_ok hrun) hstuck

/-- One message to both sides: the same answer, or the side with the larger table has failed. -/
lemma Shadow.turn (h : Shadow c c') (t : TurnInput) :
    SameAnswer (k.turn c t).1 (k.turn c' t).1 ∧ Shadow (k.turn c t).2 (k.turn c' t).2 ∨
      Failed (k.turn c' t).2 ∧ ∃ e, (k.turn c' t).1 = .error e := by
  cases hj : c'.identity with
  | none =>
    rw [h.of_none hj]
    refine .inl ⟨?_, .refl _⟩
    cases (k.turn c t).1 <;> exact rfl
  | some j =>
    obtain ⟨i, hi, hij⟩ := h.of_some hj
    have hread : c'.readTurn t.raw = c.readTurn t.raw := by rw [h.rest, readTurn_identity]
    cases hr : c.readTurn t.raw with
    | error e =>
      rw [Connection.turn_of_unread hr, Connection.turn_of_unread (hread.trans hr)]
      exact .inl ⟨rfl, h⟩
    | ok turn =>
      have htr := tracks_planTurn k.digests k.fuel c k.request.headers t.planType turn true
      have hplan : planTurn k.digests k.fuel c' k.request.headers t.planType turn true =
          planTurn k.digests k.fuel c k.request.headers t.planType turn true := by
        rw [h.rest, planTurn_identity]
      have hw := htr.within i j hij
      have hsame := htr.same i j hij
      rcases hrunj : (planTurn k.digests k.fuel c k.request.headers t.planType turn true).run j
        with ⟨rj, j'⟩
      rcases hruni : (planTurn k.digests k.fuel c k.request.headers t.planType turn true).run i
        with ⟨ri, i'⟩
      rw [hruni, hrunj] at hw hsame
      have hrunj' := hrunj
      rw [← hplan] at hrunj'
      by_cases hok : j'.mappingErr = none
      · -- the second side has not failed, so both give the same answer
        obtain rfl : ri = rj := hsame hok
        refine .inl ?_
        cases ri with
        | error e =>
          rw [Connection.turn_of_refused hr hi hruni,
            Connection.turn_of_refused (hread.trans hr) hj hrunj']
          exact ⟨rfl, by rw [h.rest], .some hw⟩
        | ok f =>
          have halike : (f i').Alike (f j') := by
            rw [Plan.Alike, planTurn_plan hruni j' i']
          rw [Connection.turn_of_planned hr hi hruni rfl,
            Connection.turn_of_planned (hread.trans hr) hj hrunj' rfl]
          refine ⟨halike, ?_⟩
          have hu := within_uses k (f i') t.uses hw
          have hp : f j' = { f i' with identity := j' } := planTurn_plan hruni i' j'
          have hshadow : Shadow { c with identity := some (t.uses.foldl (k.use (f i')) i') }
              { c' with identity := some (t.uses.foldl (k.use (f i')) j') } :=
            ⟨by rw [h.rest], .some hu⟩
          have := hshadow.settle (p := { f i' with identity := t.uses.foldl (k.use (f i')) i' }) hu
            t.outcome
          rw [← use_alike k halike, hp]
          exact this
      · refine .inr ?_
        cases rj with
        | error e =>
          rw [Connection.turn_of_refused (hread.trans hr) hj hrunj']
          exact ⟨⟨j', rfl, hok⟩, e, rfl⟩
        | ok f => exact absurd (mappingErr_of_planTurn_ok hrunj) hok

lemma Failed.run (h : Failed c) (ts : List TurnInput) : Failed (k.run c ts) := by
  induction ts generalizing c with
  | nil => exact h
  | cons t ts ih => exact ih (h.turn k t).1

lemma Shadow.run (h : Shadow c c') (ts : List TurnInput) :
    Shadow (k.run c ts) (k.run c' ts) ∨ Failed (k.run c' ts) := by
  induction ts generalizing c c' with
  | nil => exact .inl h
  | cons t ts ih =>
    rcases h.turn k t with ⟨-, h⟩ | ⟨h, -⟩
    · exact ih h
    · exact .inr (h.run k ts)

lemma prepare_error {raw : Text} {planType e : String}
    (h : k.prepare c raw planType = (.error e, c')) :
    c' = c ∨ (∃ turn, c.readTurn raw = .ok turn) ∧
      ∃ i j, c.identity = some i ∧ Extends i j ∧ c' = { c with identity := some j } := by
  have hp := prepared k.digests k.fuel c k.request raw k.cfg.codexIdentityRemap planType
  rw [show c.prepare _ _ _ _ _ _ = _ from h] at hp
  cases hp with
  | unread => exact .inl rfl
  | unnamed => exact .inl rfl
  | @refused turn i fixed _ j hr hu hrun =>
    cases hu with
    | shared hi =>
      refine .inr ⟨⟨turn, hr⟩, i, j, hi, ?_, by rw [hi]; rfl⟩
      have := (tracks_planTurn k.digests k.fuel c k.request.headers planType turn true).run i
      rwa [hrun] at this
    | fresh hi => exact .inl (map_identity_of_none hi _)

end Conversation

/-- **A rejected message leaves at most mappings behind.** Nothing but the identity changes. The
identity too is as before when the connection has none yet, or when the message is rejected before
its identifiers are mapped. Otherwise it has the same owner and the entries it had, possibly with
new ones after them or a mapping error. Every later message gets the answer it would have got
without the rejected one, unless it runs into a mapping error. -/
theorem rejected_message {k : Connection} {c c' : Conversation} {raw : Text}
    {planType e : String} (h : k.prepare c raw planType = (.error e, c')) :
    c' = { c with identity := c'.identity } ∧
    (c.identity = none → c' = c) ∧
    ((∃ e, c.readTurn raw = .error e) → c' = c) ∧
    (∀ i, c.identity = some i → ∃ j, c'.identity = some j ∧ Extends i j) ∧
    ∀ (ts : List TurnInput) (t : TurnInput),
      SameAnswer (k.turn (k.run c ts) t).1 (k.turn (k.run c' ts) t).1 ∨
        (k.turn (k.run c' ts) t).2.Failed ∧ ∃ e, (k.turn (k.run c' ts) t).1 = .error e := by
  have hcases := Conversation.prepare_error k h
  have hshadow : c.Shadow c' := by
    rcases hcases with rfl | ⟨-, i, j, hi, hij, rfl⟩
    · -- the message was not read, or the identity is not shared
      exact .refl _
    · exact ⟨rfl, by rw [hi]; exact .some hij.within⟩
  refine ⟨hshadow.rest, fun hn => ?_, fun ⟨e, he⟩ => ?_, fun i hi => ?_, fun ts t => ?_⟩
  · rcases hcases with rfl | ⟨-, i, j, hi, -⟩
    · rfl
    · rw [hn] at hi
      cases hi
  · rcases hcases with rfl | ⟨⟨turn, hr⟩, -⟩
    · rfl
    · rw [he] at hr
      cases hr
  · rcases hcases with rfl | ⟨-, i', j, hi', hij, rfl⟩
    · exact ⟨i, hi, .refl i⟩
    · rw [hi] at hi'
      cases hi'
      exact ⟨j, rfl, hij⟩
  · rcases hshadow.run k ts with hs | hf
    · exact (hs.turn k t).imp_left And.left
    · exact .inr (hf.turn k t)

/-- A message whose second thread id is no string, after the first has been mapped. -/
def badThreadMessage : Text :=
  marshal (.obj [("client_metadata", .obj [("thread_id", .str "t"),
    ("x-codex-thread-id", .bool true)]), ("input", .arr []), ("type", .str "response.append")])

/-- The conversation that `badThreadMessage` is sent to. -/
def badThreadStart : Conversation :=
  (Connection.sample true).run (Connection.sample true).start
    [.first (some (emptyTerminal "r", 1))]

lemma exists_error {α : Type} {x : Except String α} (h : x.isOk = false) : ∃ e, x = .error e := by
  cases x with
  | error e => exact ⟨e, rfl⟩
  | ok a => cases h

lemma badThread_rejected :
    ∃ e, ((Connection.sample true).prepare badThreadStart badThreadMessage "").1 = .error e :=
  exists_error (by decide +kernel)

lemma badThread_entry :
    ((Connection.sample true).prepare badThreadStart badThreadMessage "").2.identity.map
      (·.reverse.length) ≠ badThreadStart.identity.map (·.reverse.length) := by
  decide +kernel

/-- A rejected message can leave an entry in the reverse table of the connection. -/
theorem rejected_message_leaves_entry :
    ¬∀ (k : Connection) (c : Conversation), k.Reachable c → ∀ (raw : Text) (planType e : String),
      (k.prepare c raw planType).1 = .error e → (k.prepare c raw planType).2 = c := by
  intro h
  obtain ⟨e, he⟩ := badThread_rejected
  have hreach : (Connection.sample true).Reachable badThreadStart := ⟨_, badThreadStart.eq_1⟩
  exact badThread_entry (congrArg (fun c => c.identity.map (·.reverse.length))
    (h (Connection.sample true) badThreadStart hreach badThreadMessage "" e he))

/-- What the rejected `badThreadMessage` leaves alone. -/
theorem rejected_message_badThread :
    ∃ e c', (Connection.sample true).prepare badThreadStart badThreadMessage "" = (.error e, c') ∧
      c' = { badThreadStart with identity := c'.identity } := by
  obtain ⟨e, he⟩ := badThread_rejected
  have hp : (Connection.sample true).prepare badThreadStart badThreadMessage "" =
      (.error e, ((Connection.sample true).prepare badThreadStart badThreadMessage "").2) := by
    rw [← he]
  exact ⟨e, _, hp, (rejected_message hp).1⟩

end CodexOne
