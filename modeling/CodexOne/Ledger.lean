import CodexOne.Frames

/-!
The committed turns of a connection.

The ledger of a run lists the turns committed since the last reset. It is what a claim about the
history of a connection is measured against; the code keeps only the conversation.
-/

namespace CodexOne

open Members Conversation

/-- A committed turn: the message, what was read from it, the plan, and the terminal event. -/
structure CommittedTurn where
  object : Obj
  turn : Turn
  plan : Plan
  event : Terminal

namespace Connection

variable (k : Connection)

def committedTurn (c : Conversation) (t : TurnInput) : Option CommittedTurn :=
  match k.prepare c t.raw t.planType, decodeObject t.raw, t.outcome with
  | (.ok plan, c'), some object, some (terminal, _) =>
    match c.readObject object, Terminal.decode terminal with
    | .ok turn, some event =>
      let (used, c'') := k.afterUses t.uses plan c'
      if (c''.commit used terminal 0).isOk then some { object, turn, plan := used, event } else none
    | _, _ => none
  | _, _, _ => none

def nextLedger (ledger : List CommittedTurn) : Option CommittedTurn → List CommittedTurn
  | none => ledger
  | some t => if t.plan.reset then [t] else ledger ++ [t]

lemma getLast?_nextLedger (ledger : List CommittedTurn) (t : CommittedTurn) :
    (nextLedger ledger (some t)).getLast? = some t := by
  unfold nextLedger
  dsimp only
  split_ifs <;> simp

/-- The runs of a connection whose committed turns meet a condition on the ledger before them. -/
inductive Run (good : Conversation → List CommittedTurn → CommittedTurn → Prop) :
    Conversation → List CommittedTurn → Prop
  | start : Run good k.start []
  | step {c ledger} (h : Run good c ledger) (t : TurnInput)
      (hgood : ∀ ct, k.committedTurn c t = some ct → good c ledger ct) :
      Run good (k.turn c t).2 (nextLedger ledger (k.committedTurn c t))

variable {k} in
lemma Run.turn {good : Conversation → List CommittedTurn → CommittedTurn → Prop}
    {c c' : Conversation} {ledger : List CommittedTurn} (h : k.Run good c ledger) (t : TurnInput)
    (hgood : ∀ ct, k.committedTurn c t = some ct → good c ledger ct) (hc : c' = (k.turn c t).2) :
    k.Run good c' (nextLedger ledger (k.committedTurn c t)) :=
  hc ▸ h.step t hgood

end Connection

/-- A plan that `prepare` makes for a message it has read. -/
structure Planned (k : Connection) (c : Conversation) (planType : String) (turn : Turn)
    (plan : Plan) where
  fixed : Bool
  before : Identity
  after : Identity
  result : Identity → Plan
  identity : Uses k.digests c k.request k.cfg.codexIdentityRemap turn before fixed
  run : (planTurn k.digests k.fuel c k.request.headers planType turn fixed).run before =
    (.ok result, after)
  plan_eq : plan = result plan.identity

/-- What one turn does to a conversation. -/
inductive TurnStep (k : Connection) (c : Conversation) (t : TurnInput) :
    Option CommittedTurn → Conversation → Prop
  | idle (i : Option Identity) : TurnStep k c t none { c with identity := i }
  | commit {object turn plan event terminal generation} (hd : decodeObject t.raw = some object)
      (hr : c.readObject object = .ok turn) (hp : Nonempty (Planned k c t.planType turn plan))
      (ho : t.outcome = some (terminal, generation)) (ha : c.Accepts plan terminal event) :
      TurnStep k c t (some { object, turn, plan, event }) (c.committed plan event generation)

lemma readTurn_ok {c : Conversation} {raw : Text} {turn : Turn} (h : c.readTurn raw = .ok turn) :
    ∃ object, decodeObject raw = some object ∧ c.readObject object = .ok turn := by
  unfold readTurn at h
  split_ifs at h
  cases hd : decodeObject raw with
  | none => rw [hd] at h; cases h
  | some object => rw [hd] at h; exact ⟨object, rfl, h⟩

lemma accepts_identity (c : Conversation) (i : Option Identity) (p : Plan) (terminal : Text)
    (event : Terminal) :
    ({ c with identity := i } : Conversation).Accepts p terminal event ↔
      c.Accepts p terminal event := Iff.rfl

lemma commit_isOk {c : Conversation} {plan : Plan} {terminal : Text} {generation : ℕ} :
    (c.commit plan terminal generation).isOk = true ↔ ∃ event, c.Accepts plan terminal event := by
  constructor
  · intro h
    rcases hn : c.commit plan terminal generation with e | n
    · rw [hn] at h
      cases h
    · obtain ⟨event, ha, -⟩ := commit_ok_iff.mp hn
      exact ⟨event, ha⟩
  · rintro ⟨event, ha⟩
    rw [commit_ok_iff.mpr ⟨event, ha, rfl⟩]
    rfl

/-- Every turn is a step of one of the two kinds. -/
theorem turn_step (k : Connection) (c : Conversation) (t : TurnInput) :
    TurnStep k c t (k.committedTurn c t) (k.turn c t).2 := by
  have hp := prepared k.digests k.fuel c k.request t.raw k.cfg.codexIdentityRemap t.planType
  unfold Connection.committedTurn Connection.turn
  rcases hprep : k.prepare c t.raw t.planType with ⟨_ | plan, c'⟩
  · rw [show c.prepare _ _ _ _ _ _ = _ from hprep] at hp
    cases hp with
    | unread => exact .idle c.identity
    | unnamed => exact .idle c.identity
    | refused => exact .idle _
  · rw [show c.prepare _ _ _ _ _ _ = _ from hprep] at hp
    cases hp with
    | @planned turn i fixed f j hr hu hrun =>
      obtain ⟨object, hd, hro⟩ := readTurn_ok hr
      rw [hd]
      dsimp only
      set used := (k.afterUses t.uses (f j) { c with identity := c.identity.map fun _ => j })
        with hused
      have hconv : ∃ x, used.2 = { c with identity := x } := ⟨_, rfl⟩
      have hplan : Nonempty (Planned k c t.planType turn used.1) :=
        ⟨⟨fixed, i, j, f, hu, hrun, by
          rw [hused]
          exact (planTurn_plan hrun j _).symm⟩⟩
      obtain ⟨x, hx⟩ := hconv
      -- a turn without a terminal event leaves all but the identity
      cases ho : t.outcome with
      | none => exact hx ▸ .idle x
      | some o =>
        obtain ⟨terminal, generation⟩ := o
        dsimp only
        rw [hro, ← hused]
        rcases settle_cases used.2 used.1 (some (terminal, generation)) with
          ⟨hs, hno⟩ | ⟨_, ⟨⟩, event, ha, hs⟩
        · rw [hs, hx]
          cases he : Terminal.decode terminal with
          | none => exact .idle x
          | some event =>
            dsimp only
            rw [if_neg, ← hx]
            · exact hx ▸ .idle x
            · rw [commit_isOk]
              rintro ⟨event, ha⟩
              exact hno _ rfl event ha
        · rw [hs, ha.1]
          dsimp only
          rw [if_pos (commit_isOk.mpr ⟨event, ha⟩), hx]
          rw [hx] at ha
          exact .commit hd hro hplan ho ((accepts_identity c x used.1 terminal event).mp ha)

/-- What holds of every turn that is committed holds of the ledger. -/
theorem Connection.Run.forall_ledger {k : Connection} {P : CommittedTurn → Prop}
    (hP : ∀ (c : Conversation) (object : Obj) (turn : Turn) (plan : Plan) (event : Terminal)
      (planType : String), (∃ raw, decodeObject raw = some object) →
      c.readObject object = .ok turn → Planned k c planType turn plan →
      P { object, turn, plan, event })
    {good : Conversation → List CommittedTurn → CommittedTurn → Prop} {c : Conversation}
    {ledger : List CommittedTurn} (h : k.Run good c ledger) : ∀ t ∈ ledger, P t := by
  induction h with
  | start => simp
  | @step c ledger h t hgood ih =>
    have hstep := turn_step k c t
    generalize k.committedTurn c t = ct at hstep
    generalize (k.turn c t).2 = c' at hstep
    cases hstep with
    | idle i => exact ih
    | @commit object turn plan event terminal generation hd hr hp =>
      obtain ⟨hp⟩ := hp
      have ht := hP c object turn plan event t.planType ⟨t.raw, hd⟩ hr hp
      unfold nextLedger
      dsimp only
      split_ifs
      · -- a reset begins the ledger anew
        exact List.forall_mem_singleton.mpr ht
      · exact List.forall_mem_append.mpr ⟨ih, List.forall_mem_singleton.mpr ht⟩

end CodexOne
