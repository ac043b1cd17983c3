import CodexOne.Conversation
import CodexOne.Endpoints

/-!
Runs of turns on one connection, seen from the conversation.

A turn is a message that is prepared, the uses its identity is put to while it is submitted, and
its outcome: a terminal event that is committed, or none.
-/

namespace CodexOne

open Members

/-- What stays the same while a connection lives. -/
structure Connection where
  digests : Digests
  fuel : ℕ
  cfg : Config
  request : Request
  maxReplayBytes : ℤ

/-- What the identity of a turn is used for between `prepare` and `commit`. -/
inductive Use where
  | dial (credential : Credential)
  | fallback (credential : Credential)

/-- A client message and what becomes of it. -/
structure TurnInput where
  raw : Text
  planType : String
  uses : List Use
  outcome : Option (Text × ℕ)

/-- The conversation after the outcome of a turn. -/
def Conversation.settle (c : Conversation) (plan : Plan) (outcome : Option (Text × ℕ)) :
    Conversation :=
  match outcome with
  | none => c
  | some (terminal, generation) =>
    match c.commit plan terminal generation with
    | .ok c => c
    | .error _ => c

lemma Conversation.settle_cases (c : Conversation) (plan : Plan) (outcome : Option (Text × ℕ)) :
    (c.settle plan outcome = c ∧ ∀ o ∈ outcome, ∀ event, ¬c.Accepts plan o.1 event) ∨
      ∃ o ∈ outcome, ∃ event, c.Accepts plan o.1 event ∧
        c.settle plan outcome = c.committed plan event o.2 := by
  cases outcome with
  | none => exact .inl ⟨rfl, by simp⟩
  | some o =>
    obtain ⟨terminal, generation⟩ := o
    unfold settle
    dsimp only
    rcases hn : c.commit plan terminal generation with e | n
    · refine .inl ⟨rfl, ?_⟩
      rintro o ⟨⟩ event hacc
      rw [commit_ok_iff.mpr ⟨event, hacc, rfl⟩] at hn
      cases hn
    · obtain ⟨event, hacc, rfl⟩ := commit_ok_iff.mp hn
      exact .inr ⟨_, rfl, event, hacc, rfl⟩

namespace Connection

variable (k : Connection)

/-- `prepare` on this connection. -/
def prepare (c : Conversation) (raw : Text) (planType : String) :
    Except String Plan × Conversation :=
  c.prepare k.digests k.fuel k.request raw k.cfg.codexIdentityRemap planType

def use (plan : Plan) (identity : Identity) : Use → Identity
  | .dial credential => ((dialHeaders k.digests k.cfg k.request credential).run identity).2
  | .fallback credential => ((fallbackRequest k.digests k.fuel k.cfg k.request credential
      plan.model plan.replay).run identity).2

/-- The plan and the conversation after the uses of its identity. When the conversation has an
identity it is the one of the plan. -/
def afterUses (uses : List Use) (plan : Plan) (c : Conversation) : Plan × Conversation :=
  let identity := uses.foldl (k.use plan) plan.identity
  ({ plan with identity }, { c with identity := c.identity.map fun _ => identity })

/-- One turn: what `prepare` answers, and the conversation afterwards. -/
def turn (c : Conversation) (t : TurnInput) : Except String Plan × Conversation :=
  match k.prepare c t.raw t.planType with
  | (.error e, c) => (.error e, c)
  | (.ok plan, c) =>
    let (used, c) := k.afterUses t.uses plan c
    (.ok plan, c.settle used t.outcome)

def run (c : Conversation) (ts : List TurnInput) : Conversation :=
  ts.foldl (fun c t => (k.turn c t).2) c

def start : Conversation := .initial k.maxReplayBytes

/-- A conversation that the connection gets to. -/
def Reachable (c : Conversation) : Prop := ∃ ts, c = k.run k.start ts

/-- A connection without session headers, to evaluate concrete runs on. -/
def sample (remap : Bool) : Connection :=
  { digests := .zero, fuel := 0, request := ⟨[], some "key"⟩, maxReplayBytes := 0
    cfg := { codexIdentityRemap := remap, codexWSHTTPFallback := true, codexUserAgent := "",
             codexClientVersion := "" } }

end Connection

def TurnInput.first (outcome : Option (Text × ℕ)) : TurnInput :=
  { raw := marshal (.obj
      [("input", .arr []), ("model", .str "m"), ("type", .str "response.create")])
    planType := "", uses := [], outcome }

/-- The terminal event of a response without items. -/
def emptyTerminal (id : String) : Text :=
  marshal (.obj [("response", .obj [("id", .str id)]), ("type", .str "response.completed")])

lemma ok_of_toOption {α : Type} {x : Except String α} {a : α} (h : x.toOption = some a) :
    x = .ok a := by
  cases x with
  | error e => cases h
  | ok b => rw [Option.some.inj h]

lemma pair_of_fst {α β : Type} {x : α × β} {a : α} (h : x.1 = a) : x = (a, x.2) := by rw [← h]

/-! ### What `prepare` does -/

namespace Conversation

variable {d : Digests} {fuel : ℕ} {c : Conversation} {headers : Header} {planType : String}
  {turn : Turn} {fixed : Bool}

variable (d fuel c headers planType turn fixed) in
lemma tracks_planTurn : Identity.Tracks (planTurn d fuel c headers planType turn fixed) := by
  refine .of_bind (Identity.tracks_prepareBody d _ _) fun _ =>
    .of_bind (Compat.tracks_prepareCodexInferenceObject d fuel _ _ _ _ _ _) fun _ => ?_
  split
  · exact .of_pure _
  · exact .of_fail _

lemma planTurn_ok {i j : Identity} {f : Identity → Plan}
    (h : (planTurn d fuel c headers planType turn fixed).run i = (.ok f, j)) :
    ∃ body k sent, (Identity.prepareBody d turn.body fixed).run i = (.ok body, k) ∧
      (Compat.prepareCodexWebSocketBody d fuel body turn.model planType headers).run k =
        (.ok sent, j) ∧
      c.assemble turn (webSocketTurnSettings body) sent = .ok f := by
  rw [planTurn] at h
  obtain ⟨body, k, h1, h⟩ := Identity.bind_ok h
  obtain ⟨sent, l, h2, h⟩ := Identity.bind_ok h
  cases ha : c.assemble turn (webSocketTurnSettings body) sent with
  | ok g =>
    rw [ha] at h
    obtain ⟨rfl, rfl⟩ := Identity.pure_ok h
    exact ⟨body, k, sent, h1, h2, ha⟩
  | error e =>
    rw [ha, IdentityM.run_fail] at h
    cases h

lemma assemble_plan {turnSettings : List (String × Raw)} {sent : Obj} {f : Identity → Plan}
    (h : c.assemble turn turnSettings sent = .ok f) (i j : Identity) :
    f j = { f i with identity := j } := by
  unfold assemble at h
  dsimp only at h
  split at h
  · cases h
  · split_ifs at h
    cases h
    rfl

lemma planTurn_plan {i j : Identity} {f : Identity → Plan}
    (h : (planTurn d fuel c headers planType turn fixed).run i = (.ok f, j)) (l m : Identity) :
    f m = { f l with identity := m } := by
  obtain ⟨_, _, _, -, -, ha⟩ := planTurn_ok h
  exact assemble_plan ha l m

lemma mappingErr_of_planTurn_ok {i j : Identity} {f : Identity → Plan}
    (h : (planTurn d fuel c headers planType turn fixed).run i = (.ok f, j)) :
    j.mappingErr = none := by
  obtain ⟨body, k, sent, h1, h2, -⟩ := planTurn_ok h
  have hk := Identity.prepareBody_ok d h1
  rw [Compat.prepareCodexWebSocketBody] at h2
  obtain ⟨sanitized, h3, -⟩ := Compat.prepareCodexInferenceObject_ok d h2
  exact Compat.sanitizeCodexInputItems_ok d hk h3

end Conversation

namespace Conversation

variable {d : Digests} {fuel : ℕ} {c : Conversation} {r : Request} {raw : Text} {remap : Bool}
  {planType : String}

/-- The identity a turn works on, and whether it is fixed. -/
inductive Uses (d : Digests) (c : Conversation) (r : Request) (remap : Bool) (turn : Turn) :
    Identity → Bool → Prop
  | shared {i} (h : c.identity = some i) : Uses d c r remap turn i true
  | fresh {i} (h : c.identity = none)
      (hnew : Identity.new d r.keyID r.headers turn.body remap = .ok i) :
      Uses d c r remap turn i false

/-- The ways `prepare` can end. -/
inductive Prepared (d : Digests) (fuel : ℕ) (c : Conversation) (r : Request) (raw : Text)
    (remap : Bool) (planType : String) : Except String Plan × Conversation → Prop
  | unread {e} (h : c.readTurn raw = .error e) :
    Prepared d fuel c r raw remap planType (.error e, c)
  | unnamed {turn e} (h : c.readTurn raw = .ok turn) (hi : c.identity = none)
      (hnew : Identity.new d r.keyID r.headers turn.body remap = .error e) :
      Prepared d fuel c r raw remap planType (.error e, c)
  | refused {turn i fixed e j} (h : c.readTurn raw = .ok turn) (hu : Uses d c r remap turn i fixed)
      (hrun : (planTurn d fuel c r.headers planType turn fixed).run i = (.error e, j)) :
      Prepared d fuel c r raw remap planType
        (.error e, { c with identity := c.identity.map fun _ => j })
  | planned {turn i fixed f j} (h : c.readTurn raw = .ok turn) (hu : Uses d c r remap turn i fixed)
      (hrun : (planTurn d fuel c r.headers planType turn fixed).run i = (.ok f, j)) :
      Prepared d fuel c r raw remap planType
        (.ok (f j), { c with identity := c.identity.map fun _ => j })

lemma map_identity_of_none (h : c.identity = none) (f : Identity → Identity) :
    { c with identity := c.identity.map f } = c := by
  cases c
  cases h
  rfl

variable (d fuel c r raw remap planType) in
lemma prepared : Prepared d fuel c r raw remap planType
    (c.prepare d fuel r raw remap planType) := by
  unfold prepare
  split
  · exact .unread ‹_›
  · rename_i turn hturn
    split
    · rename_i i hi
      have hc : ∀ j, ({ c with identity := some j } : Conversation) =
          { c with identity := c.identity.map fun _ => j } := fun j => by rw [hi]; rfl
      rcases hrun : (planTurn d fuel c r.headers planType turn true).run i with ⟨_ | f, j⟩
      · -- the conversation gets the identity as planning leaves it, also when planning fails
        have := Prepared.refused hturn (.shared hi : Uses d c r remap turn i true) hrun
        rwa [← hc] at this
      · have := Prepared.planned hturn (.shared hi : Uses d c r remap turn i true) hrun
        rwa [← hc] at this
    · rename_i hi
      have hc : ∀ j : Identity, c = { c with identity := c.identity.map fun _ => j } := fun j =>
        (map_identity_of_none hi _).symm
      split
      · exact .unnamed hturn hi ‹_›
      · rename_i i hnew
        rcases hrun : (planTurn d fuel c r.headers planType turn false).run i with ⟨_ | f, j⟩
        · have := Prepared.refused hturn (.fresh hi hnew) hrun
          rwa [← hc] at this
        · have := Prepared.planned hturn (.fresh hi hnew) hrun
          rwa [← hc] at this

end Conversation

namespace Connection

variable {k : Connection} {c : Conversation} {t : TurnInput}

lemma turn_of_unread {e : String} (h : c.readTurn t.raw = .error e) :
    k.turn c t = (.error e, c) := by
  simp only [turn, prepare, Conversation.prepare, h]

lemma turn_of_refused {turn : Conversation.Turn} (h : c.readTurn t.raw = .ok turn) {i j : Identity}
    (hi : c.identity = some i) {e : String}
    (hrun : (Conversation.planTurn k.digests k.fuel c k.request.headers t.planType turn true).run i
      = (.error e, j)) :
    k.turn c t = (.error e, { c with identity := some j }) := by
  simp only [Connection.turn, prepare, Conversation.prepare, h, hi, hrun]
  rfl

lemma turn_of_planned {turn : Conversation.Turn} (h : c.readTurn t.raw = .ok turn) {i j : Identity}
    (hi : c.identity = some i) {f : Identity → Plan}
    (hrun : (Conversation.planTurn k.digests k.fuel c k.request.headers t.planType turn true).run i
      = (.ok f, j)) {l : Identity} (hl : t.uses.foldl (k.use (f j)) j = l) :
    k.turn c t = (.ok (f j), ({ c with identity := some l } : Conversation).settle
      { f j with identity := l } t.outcome) := by
  have hf : (f j).identity = j := by rw [Conversation.planTurn_plan hrun j j]
  simp only [Connection.turn, prepare, Conversation.prepare, h, hi, hrun, afterUses]
  simp only [Except.map, hf, hl, Option.map_some]

section
open Identity

variable (k)

lemma extends_use (plan : Plan) (u : Use) (i : Identity) : Extends i (k.use plan i u) := by
  cases u with
  | dial => exact (tracks_dialHeaders _ _ _ _).run i
  | fallback => exact (tracks_fallbackRequest _ _ _ _ _ _ _).run i

lemma extends_uses (plan : Plan) (uses : List Use) (i : Identity) :
    Extends i (uses.foldl (k.use plan) i) := by
  induction uses generalizing i with
  | nil => exact .refl i
  | cons u uses ih => exact (extends_use k plan u i).trans (ih _)

/-- The identity after a turn is the one before, or extends the one the turn worked on. -/
lemma identity_turn {i : Identity} (h : (k.turn c t).2.identity = some i) :
    c.identity = some i ∨ ∃ turn j fixed,
      Conversation.Uses k.digests c k.request k.cfg.codexIdentityRemap turn j fixed ∧
      Extends j i := by
  have hp := Conversation.prepared k.digests k.fuel c k.request t.raw k.cfg.codexIdentityRemap
    t.planType
  unfold turn at h
  rcases hprep : k.prepare c t.raw t.planType with ⟨_ | plan, c'⟩
  · rw [hprep] at h
    rw [show c.prepare _ _ _ _ _ _ = _ from hprep] at hp
    cases hp with
    | unread => exact .inl h
    | unnamed => exact .inl h
    | @refused turn j fixed _ l hr hu hrun =>
      obtain ⟨_, -, rfl⟩ := Option.map_eq_some_iff.mp h
      have hext := (Conversation.tracks_planTurn k.digests k.fuel c k.request.headers t.planType
        turn fixed).run j
      rw [hrun] at hext
      exact .inr ⟨turn, j, fixed, hu, hext⟩
  · rw [hprep] at h
    rw [show c.prepare _ _ _ _ _ _ = _ from hprep] at hp
    cases hp with
    | @planned turn j fixed f l hr hu hrun =>
      have hext := (Conversation.tracks_planTurn k.digests k.fuel c k.request.headers t.planType
        turn fixed).run j
      rw [hrun] at hext
      have hf : (f l).identity = l := by rw [Conversation.planTurn_plan hrun l l]
      have huses := extends_uses k (f l) t.uses (f l).identity
      -- whatever the turn does with its identity only adds to the table
      have hall : Extends j (t.uses.foldl (k.use (f l)) (f l).identity) := by
        rw [hf] at huses ⊢
        exact hext.trans huses
      refine .inr ⟨turn, j, fixed, hu, ?_⟩
      unfold afterUses at h
      dsimp only at h
      rcases Conversation.settle_cases _ _ t.outcome with ⟨hs, -⟩ | ⟨o, -, event, -, hs⟩
      · rw [hs] at h
        obtain ⟨_, -, rfl⟩ := Option.map_eq_some_iff.mp h
        exact hall
      · rw [hs] at h
        obtain rfl := Option.some.inj h
        exact hall

end

end Connection

end CodexOne
