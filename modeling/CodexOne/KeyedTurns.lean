import CodexOne.APIKeys
import CodexOne.TurnIsolation

/-!
The API key of a connection is checked again for every turn.

A session runs beside the table of keys: it takes a message with what `authorizeTurn` finds in the
table at that time. A turn that is on when the key is revoked goes on to its end.
-/

namespace CodexOne.KeyedTurns

open WebSocketSession GoStrings

structure State where
  keys : APIKeys
  session : Session

inductive Event where
  | keys (e : APIKeys.Event)
  | session (e : WebSocketSession.Event)

/-- The key that the connection has been accepted with. -/
def keyID (k : Connection) : String := k.request.keyID.getD ""

/-- `authorizeTurn` can find this: what is in the table, or nothing when it cannot be read. -/
def mayFind (t : APIKeys) (id : String) : KeyCheck → Bool
  | .active => (t.findActiveAPIKeyByID id).isSome
  | .revoked => (t.findActiveAPIKeyByID id).isNone
  | .unavailable => true

/-- The step is one that the table lets the session take. -/
def mayStep (t : APIKeys) (id : String) : WebSocketSession.Event → Bool
  | .take _ key _ => mayFind t id key
  | _ => true

def step (sec : Security) (k : Connection) (s : State) : Event → Option State
  | .keys e => some { s with keys := APIKeys.step sec s.keys e }
  | .session e =>
    if mayStep s.keys (keyID k) e then
      (WebSocketSession.step k s.session e).map fun session => { s with session }
    else none

def system (sec : Security) (k : Connection) : TransitionSystem State Event where
  start := ⟨.empty, (WebSocketSession.system k).start⟩
  step := step sec k

def change (sec : Security) (s : State) : Event → Option APIKeys.Change
  | .keys e => APIKeys.change sec s.keys e
  | .session _ => none

variable {sec : Security} {k : Connection}

def Idle (s : Session) : Prop := s.phase = .waiting ∨ s.phase = .closed

/-- From `s` to `t` no turn has begun: what has been submitted is of the turn that was on. -/
structure NoTurn (s t : Session) : Prop where
  turns : t.turns = s.turns
  submissions : ∃ new, t.submissions = s.submissions ++ new ∧ ∀ x ∈ new, x.turn = s.turns
  idle : Idle s → Idle t ∧ t.submissions = s.submissions ∧ t.forwarded = s.forwarded

variable {s t u : Session} {e : WebSocketSession.Event}

lemma NoTurn.refl (s : Session) : NoTurn s s :=
  ⟨rfl, ⟨[], (List.append_nil _).symm, fun _ h => (List.not_mem_nil h).elim⟩,
    fun h => ⟨h, rfl, rfl⟩⟩

lemma NoTurn.trans (h : NoTurn s t) (h' : NoTurn t u) : NoTurn s u := by
  obtain ⟨new, hnew, hturn⟩ := h.submissions
  obtain ⟨new', hnew', hturn'⟩ := h'.submissions
  refine ⟨h'.turns.trans h.turns, ⟨new ++ new', ?_, fun x hx => ?_⟩, fun hidle => ?_⟩
  · rw [hnew', hnew, List.append_assoc]
  · rcases List.mem_append.mp hx with hx | hx
    · exact hturn x hx
    · exact (hturn' x hx).trans h.turns
  · obtain ⟨hidle, h1, h2⟩ := h.idle hidle
    obtain ⟨hidle, h3, h4⟩ := h'.idle hidle
    exact ⟨hidle, h3.trans h1, h4.trans h2⟩

lemma NoTurn.quiet (hturns : t.turns = s.turns) (hsubmissions : t.submissions = s.submissions)
    (hforwarded : t.forwarded = s.forwarded) (hidle : Idle s → Idle t) : NoTurn s t :=
  ⟨hturns, ⟨[], by rw [hsubmissions, List.append_nil], fun _ h => (List.not_mem_nil h).elim⟩,
    fun h => ⟨hidle h, hsubmissions, hforwarded⟩⟩

lemma not_idle {plan : Plan} (h : s.phase.plan? = some plan) : ¬Idle s := by
  rintro (hp | hp) <;> rw [hp] at h <;> cases h

lemma NoTurn.within {plan : Plan} (hplan : s.phase.plan? = some plan) (hturns : t.turns = s.turns)
    (hsubmissions : t.submissions = s.submissions) : NoTurn s t :=
  ⟨hturns, ⟨[], by rw [hsubmissions, List.append_nil], fun _ h => (List.not_mem_nil h).elim⟩,
    fun h => (not_idle hplan h).elim⟩

lemma NoTurn.submits {plan : Plan} (hplan : s.phase.plan? = some plan) (hturns : t.turns = s.turns)
    {new : Submission} (hsubmissions : t.submissions = s.submissions ++ [new])
    (hnew : new.turn = s.turns) : NoTurn s t :=
  ⟨hturns, ⟨[new], hsubmissions, fun x hx => by rw [List.mem_singleton.mp hx, hnew]⟩,
    fun h => (not_idle hplan h).elim⟩

/-- Only a message that is taken with an active key begins a turn. -/
lemma moves_noTurn (h : Moves k s e t)
    (hactive : ∀ raw credential, e ≠ .take raw .active credential) : NoTurn s t := by
  cases h with
  | plans => exact absurd rfl (hactive _ _)
  | frames | leaves | keeps | stays => exact .quiet rfl rfl rfl id
  | closes => exact .quiet rfl rfl rfl fun _ => .inr rfl
  | ends => exact .quiet rfl rfl rfl fun _ => .inl rfl
  | answers hp hplan => exact .within hplan rfl rfl
  | givesUp hp | abandons hp | ensures hp | dials hp | falls hp | forwards hp | fails hp
  | commits hp | refuses hp | commitsHTTP hp | refusesHTTP hp =>
    exact .within (congrArg Phase.plan? hp) rfl rfl
  | writes hp | writeFails hp => exact .submits (congrArg Phase.plan? hp) rfl rfl rfl
  | requests hp => exact .submits (congrArg Phase.plan? hp) rfl rfl rfl

/-! ### Steps -/

variable {c d : State} {log : List APIKeys.Change}

lemma findActiveAPIKeyByID_none {t : APIKeys} {id : String} (h : APIKeys.Recorded sec t log)
    (hdead : ∀ plain, ¬APIKeys.Live log id plain) : (t.findActiveAPIKeyByID id).isSome = false := by
  rw [← Bool.not_eq_true, APIKeys.findActiveAPIKeyByID_isSome]
  rintro ⟨r, hr, rfl, hnone⟩
  obtain ⟨plain, hstored, -⟩ := h.row r hr
  exact hdead plain ⟨hstored, (h.active r hr).mp hnone⟩

lemma recorded_step (h : APIKeys.Recorded sec c.keys log) {e : Event}
    (hstep : step sec k c e = some d) :
    APIKeys.Recorded sec d.keys (log ++ (change sec c e).toList) := by
  cases e with
  | keys e =>
    obtain rfl := Option.some.inj hstep
    exact APIKeys.recorded_step h e
  | session e =>
    rw [step] at hstep
    split_ifs at hstep
    obtain ⟨session, -, rfl⟩ := Option.map_eq_some_iff.mp hstep
    rw [change, Option.toList_none, List.append_nil]
    exact h

lemma step_noTurn (h : APIKeys.Recorded sec c.keys log)
    (hdead : ∀ plain, ¬APIKeys.Live log (keyID k) plain) {e : Event}
    (hstep : step sec k c e = some d) : NoTurn c.session d.session := by
  cases e with
  | keys e =>
    obtain rfl := Option.some.inj hstep
    exact .refl _
  | session e =>
    rw [step] at hstep
    split_ifs at hstep with hmay
    obtain ⟨session, hsession, rfl⟩ := Option.map_eq_some_iff.mp hstep
    refine moves_noTurn (step_moves hsession) fun raw credential he => ?_
    rw [he, mayStep, mayFind, findActiveAPIKeyByID_none h hdead] at hmay
    cases hmay

lemma take_dead (h : APIKeys.Recorded sec c.keys log)
    (hdead : ∀ plain, ¬APIKeys.Live log (keyID k) plain) {raw : Text} {key : KeyCheck}
    {credential : Option Credential}
    (hstep : step sec k c (.session (.take raw key credential)) = some d) :
    key = .unavailable ∧ d.session = c.session ∨ d.session.phase = .closed := by
  rw [step] at hstep
  split_ifs at hstep with hmay
  obtain ⟨session, hsession, rfl⟩ := Option.map_eq_some_iff.mp hstep
  rw [WebSocketSession.step] at hsession
  split at hsession
  · obtain rfl := Option.some.inj hsession
    unfold takeStep
    split_ifs
    · exact .inr rfl
    · -- the lookup has no active row to find
      cases key with
      | active =>
        rw [mayStep, mayFind, findActiveAPIKeyByID_none h hdead] at hmay
        cases hmay
      | revoked => exact .inr rfl
      | unavailable => exact .inl ⟨rfl, rfl⟩
  · cases hsession

/-- What has happened to keys in a run. -/
def changes (sec : Security) (k : Connection) (es : List Event) : List APIKeys.Change :=
  (system sec k).trace (change sec) (system sec k).start es

lemma recorded_run {es : List Event} (h : (system sec k).run (system sec k).start es = some c) :
    APIKeys.Recorded sec c.keys (changes sec k es) :=
  TransitionSystem.run_trace (l := []) (fun c log => APIKeys.Recorded sec c.keys log)
    (fun _ _ _ _ hc hstep => recorded_step hc hstep) APIKeys.recorded_start h

/-- **Keys and turns.** A session whose key has never been stored takes no turn. After the key of a
session has been revoked, in every run no turn begins: what is still submitted is of the turn that
was on, between two turns nothing is submitted or forwarded any more, and the next message ends the
session unless the table cannot be read, when it changes nothing. -/
theorem keys_authorize_turns {before after : List Event}
    (hbefore : (system sec k).run (system sec k).start before = some c)
    (hafter : (system sec k).run c after = some d) :
    ((∀ plain, .stored (keyID k) plain ∉ changes sec k before) →
      c.session.turns = 0 ∧ c.session.submissions = [] ∧ c.session.forwarded = []) ∧
    (.revoked (keyID k) ∈ changes sec k before → NoTurn c.session d.session ∧
      ∀ raw key credential e, step sec k d (.session (.take raw key credential)) = some e →
        key = .unavailable ∧ e.session = d.session ∨ e.session.phase = .closed) := by
  have hrecorded := recorded_run hbefore
  constructor
  · intro hnever
    have hstart : Idle (system sec k).start.session := .inl rfl
    have hrun := TransitionSystem.run_trace (l := [])
      (fun c log => APIKeys.Recorded sec c.keys log ∧
        ((∃ plain, .stored (keyID k) plain ∈ log) ∨
          NoTurn (system sec k).start.session c.session))
      (fun c e d log hc hstep => ⟨recorded_step hc.1 hstep, ?_⟩)
      ⟨APIKeys.recorded_start, .inr (.refl _)⟩ hbefore
    · rcases hrun.2 with ⟨plain, hstored⟩ | hno
      · exact absurd hstored (hnever plain)
      · obtain ⟨-, h1, h2⟩ := hno.idle hstart
        exact ⟨hno.turns, h1, h2⟩
    · rcases hc.2 with ⟨plain, hstored⟩ | hno
      · exact .inl ⟨plain, List.mem_append_left _ hstored⟩
      by_cases hex : ∃ plain, .stored (keyID k) plain ∈ log
      · -- once the key has been stored nothing is left to show
        obtain ⟨plain, hstored⟩ := hex
        exact .inl ⟨plain, List.mem_append_left _ hstored⟩
      · exact .inr (hno.trans (step_noTurn hc.1 (fun plain hlive => hex ⟨plain, hlive.1⟩) hstep))
  · intro hrevoked
    have hrun := TransitionSystem.run_trace
      (fun d log => APIKeys.Recorded sec d.keys log ∧ .revoked (keyID k) ∈ log ∧
        NoTurn c.session d.session)
      (fun d e f log hd hstep => ⟨recorded_step hd.1 hstep, List.mem_append_left _ hd.2.1,
        hd.2.2.trans (step_noTurn hd.1 (fun _ hlive => hlive.2 hd.2.1) hstep)⟩)
      ⟨hrecorded, hrevoked, .refl _⟩ hafter
    exact ⟨hrun.2.2, fun _ _ _ _ hstep => take_dead hrun.1 (fun _ hlive => hlive.2 hrun.2.1) hstep⟩

def samplePassword : Security := ⟨fun s => s, fun a b => a == b⟩

def sampleKeyed : Connection := { Connection.sample false with request := ⟨[], some "key_BA"⟩ }

/-- A turn is planned with a key, which is then revoked. -/
def planned : List Event :=
  [.keys (.create "laptop" [1] [4] 0 .done),
    .session (.take firstMessage .active (some sampleCredential)), .session (.ensure .connected),
    .keys (.revoke "key_BA" 5 .done)]

/-- The turn is submitted and answered. -/
def answered : List Event :=
  [.session (.write false), .session (.send (emptyTerminal "r1")), .session .read,
    .session (.forward true)]

/-- A turn that is on when its key is revoked is still answered. -/
theorem keys_authorize_turns_sample : ∃ c d,
    (system samplePassword sampleKeyed).run (system samplePassword sampleKeyed).start planned =
      some c ∧
    (system samplePassword sampleKeyed).run c answered = some d ∧ NoTurn c.session d.session ∧
    d.session.submissions.length = 1 ∧ d.session.forwarded.length = 1 := by
  have hsample : (((system samplePassword sampleKeyed).run
      (system samplePassword sampleKeyed).start planned).bind fun c =>
        (system samplePassword sampleKeyed).run c answered).any (fun d =>
          decide (d.session.submissions.length = 1 ∧ d.session.forwarded.length = 1)) = true ∧
      .revoked (keyID sampleKeyed) ∈ changes samplePassword sampleKeyed planned := by
    decide +kernel
  obtain ⟨d, hd, hlengths⟩ := (Option.any_eq_true _ _).mp hsample.1
  obtain ⟨c, hc, hd⟩ := Option.bind_eq_some_iff.mp hd
  exact ⟨c, d, hc, hd, ((keys_authorize_turns hc hd).2 hsample.2).1, of_decide_eq_true hlengths⟩

end CodexOne.KeyedTurns
