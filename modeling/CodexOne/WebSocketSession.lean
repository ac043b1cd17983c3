import CodexOne.QueuedBytes
import CodexOne.Restore
import CodexOne.TurnBody

/-!
One WebSocket connection of a client, with the upstream socket it is using.

The turn loop takes a message, plans it, makes sure of an upstream socket, writes the body and
forwards the frames of the socket, or sends the replay over HTTP. The reader of the socket queues
frames at its own pace. Beside the state of the code the session keeps what it has submitted and
forwarded, where the last response was made, and what the client has been told.
-/

namespace CodexOne.WebSocketSession

open GoStrings Members

def normalizeWebSocketTerminal (payload : Text) : Text :=
  match (Raw.parse payload).bind Raw.unmarshalObject with
  | some event =>
    if jsonString (Obj.val event "type") = "response.done" then
      marshal (.obj (set event "type" (.str "response.completed")))
    else payload
  | none => payload

def webSocketEventType (payload : Text) : String :=
  trimSpace (Decoder.unmarshalLoose (Decoder.struct [("type", Decoder.string)]) "" payload)

/-- The cases of the switch over the type of an event. -/
inductive EventKind
  | success
  | failure
  | other
  deriving DecidableEq

def eventKind (payload : Text) : EventKind :=
  let type := webSocketEventType payload
  if type = "response.completed" ∨ type = "response.incomplete" then .success
  else if type = "response.failed" ∨ type = "error" then .failure
  else .other

/-- The response that a terminal event names. -/
def responseID (payload : Text) : String :=
  ((Conversation.Terminal.decode payload).map fun event => trimSpace event.id).getD ""

/-! ### State -/

/-- `upstreamWebSocketFrame`, with the number of requests that the socket had been written when the
upstream sent it. -/
structure UpstreamFrame where
  payload : Text
  after : ℕ

/-- `upstreamWebSocket`, with the headers it was dialled with, the number of requests that it has
been written, and the frames that are on their way. -/
structure UpstreamSocket where
  generation : ℕ
  accountID : String
  headers : Header
  written : ℕ
  onTheWay : List UpstreamFrame
  events : List UpstreamFrame
  done : Bool

/-- The frames that have not been read by the turn loop. -/
def UpstreamSocket.unread (u : UpstreamSocket) : List UpstreamFrame := u.events ++ u.onTheWay

/-- What the turn loop does next. -/
inductive Phase where
  | waiting
  | planned (plan : Plan) (credential : Credential)
  | submitting (plan : Plan) (credential : Credential)
  | forwarding (plan : Plan)
  | fallback (plan : Plan) (credential : Credential)
  | streaming (plan : Plan)
  | closed

/-- The place of a request: the generation of the socket, and its number there. -/
structure Place where
  generation : ℕ
  number : ℕ
  deriving DecidableEq

/-- A body that has been submitted: for which turn, with which headers, to a socket or over HTTP;
and where the last response had been made. -/
structure Submission where
  turn : ℕ
  plan : Plan
  credential : Credential
  socket : Option (Place × String)
  headers : Header
  body : Obj
  made : Option Place

/-- A frame that has been forwarded: the requests that the socket had been written when the frame
was sent, and when it was forwarded. -/
structure ForwardedFrame where
  event : Text
  sentAfter : ℕ
  written : ℕ

/-- `responsesWebSocketSession`; `left` when the client has gone, `abandoned` when a turn was given
up for it. -/
structure Session where
  conversation : Conversation
  upstream : Option UpstreamSocket
  nextGeneration : ℕ
  phase : Phase
  left : Bool
  abandoned : Bool
  turns : ℕ
  submissions : List Submission
  forwarded : List ForwardedFrame
  made : Option Place
  delivered : Option String
  refused : Bool

/-- What `authorizeTurn` finds. -/
inductive KeyCheck
  | active
  | revoked
  | unavailable

/-- How `ensureUpstream` gets on without a socket. -/
inductive Dial
  | cooldown
  | failed
  | connected

inductive Event where
  | send (payload : Text)
  | read
  | die
  | leave
  | stop
  | take (raw : Text) (key : KeyCheck) (credential : Option Credential)
  | ensure (dial : Dial)
  | write (fails : Bool)
  | forward (reaches : Bool)
  | lost
  | abandon
  | request (accepted : Bool)
  | stream (payload : Text) (reaches : Bool)
  | finish

namespace Session

/-- The connection ends, and its upstream socket with it. -/
def close (s : Session) : Session := { s with phase := .closed, upstream := none }

def rest (s : Session) : Session := { s with phase := .waiting }

/-- `invalidateUpstream` and `closeUpstream`. -/
def closeUpstream (s : Session) : Session := { s with upstream := none }

/-- The identity of a plan has changed, and that of the conversation if it is the same. -/
def withIdentity (s : Session) (identity : Identity) : Session :=
  { s with conversation := { s.conversation with
      identity := s.conversation.identity.map fun _ => identity } }

def deliver (s : Session) (event : Text) : Session :=
  { s with delivered :=
      if eventKind event = .success then some (responseID event) else s.delivered }

def commit (s : Session) (plan : Plan) (event : Text) (generation : ℕ) (place : Option Place) :
    Option Session :=
  match s.conversation.commit plan event generation with
  | .ok conversation => some { s with conversation, made := place }
  | .error _ => none

end Session

variable (k : Connection)

def readerStep (u : UpstreamSocket) : Event → Option UpstreamSocket
  | .send payload =>
    if u.done then none else some { u with onTheWay := u.onTheWay ++ [⟨payload, u.written⟩] }
  | .read =>
    match u.onTheWay with
    | frame :: frames =>
      if u.done = false ∧ u.events.length < WebSocketQueue.webSocketUpstreamEventBacklog then
        some { u with onTheWay := frames, events := u.events ++ [frame] }
      else none
    | [] => none
  | .die => some { u with onTheWay := [], done := true }
  | _ => none

/-- `handleTurn` up to the plan. -/
def takeStep (s : Session) (raw : Text) (key : KeyCheck) (credential : Option Credential) :
    Session :=
  if trimSpace (k.request.keyID.getD "") = "" then s.close
  else match key with
    | .revoked => s.close
    | .unavailable => s
    | .active =>
      match credential with
      | none => s.closeUpstream
      | some credential =>
        match k.prepare s.conversation raw credential.planType with
        | (.error _, conversation) => { s with conversation }
        | (.ok plan, conversation) =>
          { s with conversation, phase := .planned plan credential, turns := s.turns + 1 }

/-- Without an upstream socket the turn goes over HTTP, if it may. -/
def withoutUpstream (s : Session) (plan : Plan) (credential : Credential) : Session :=
  if k.cfg.codexWSHTTPFallback then { s with phase := .fallback plan credential } else s.rest

/-- `ensureUpstream` when there is no socket that can be used. -/
def dialUpstream (s : Session) (plan : Plan) (credential : Credential) : Dial → Session
  | .cooldown => withoutUpstream k s.closeUpstream plan credential
  | .failed =>
    let (_, identity) := (dialHeaders k.digests k.cfg k.request credential).run plan.identity
    withoutUpstream k (s.closeUpstream.withIdentity identity) { plan with identity } credential
  | .connected =>
    match (dialHeaders k.digests k.cfg k.request credential).run plan.identity with
    | (.error _, identity) =>
      withoutUpstream k (s.closeUpstream.withIdentity identity) { plan with identity } credential
    | (.ok headers, identity) =>
      { s.withIdentity identity with
        nextGeneration := s.nextGeneration + 1
        upstream := some ⟨s.nextGeneration + 1, credential.accountID, headers, 0, [], [], false⟩
        phase := .submitting { plan with identity } credential }

/-- `ensureUpstream`. -/
def ensureStep (s : Session) (plan : Plan) (credential : Credential) (dial : Dial) : Session :=
  match s.upstream with
  | some u =>
    if u.accountID = credential.accountID ∧ u.done = false then
      { s with phase := .submitting plan credential }
    else dialUpstream k s plan credential dial
  | none => dialUpstream k s plan credential dial

/-- `handleTurn` from the body to the write. -/
def writeStep (s : Session) (u : UpstreamSocket) (plan : Plan) (credential : Credential)
    (fails : Bool) : Session :=
  if u.done then s.close
  else
    let body := s.conversation.bodyFor plan u.generation false
    let s : Session := { s with submissions := s.submissions ++ [{
      turn := s.turns, plan, credential, headers := u.headers, body, made := s.made
      socket := some (⟨u.generation, u.written⟩, u.accountID) }] }
    if fails then s.close
    else { s with upstream := some { u with written := u.written + 1 }, phase := .forwarding plan }

/-- `forwardWebSocketTurn` on a frame. -/
def forwardStep (s : Session) (u : UpstreamSocket) (frame : UpstreamFrame)
    (frames : List UpstreamFrame) (plan : Plan) (reaches : Bool) : Session :=
  let event := normalizeWebSocketTerminal frame.payload
  if reaches = false then s.close
  else
    let s : Session := { s.deliver event with
      upstream := some { u with events := frames }
      forwarded := s.forwarded ++
        [⟨(s.conversation.identityFor plan).exposePayload event, frame.after, u.written⟩] }
    match eventKind event with
    | .success =>
      match s.commit plan event u.generation (some ⟨u.generation, u.written⟩) with
      | some s => s.rest
      | none => { s.close with refused := true }
    | .failure => s.closeUpstream.rest
    | .other => s

/-- `executeHTTPFallback` up to the answer. -/
def requestStep (s : Session) (plan : Plan) (credential : Credential) (accepted : Bool) : Session :=
  match (fallbackRequest k.digests k.fuel k.cfg k.request credential plan.model plan.replay).run
      plan.identity with
  | (.error _, identity) => (s.withIdentity identity).rest
  | (.ok request, identity) =>
    let s : Session := { s.withIdentity identity with submissions := s.submissions ++ [{
      turn := s.turns, plan, credential, socket := none, headers := request.headers
      body := request.body, made := s.made }] }
    if accepted then { s with phase := .streaming { plan with identity } } else s.rest

/-- `executeHTTPFallback` on an event. -/
def streamStep (s : Session) (plan : Plan) (payload : Text) (reaches : Bool) : Session :=
  if payload = [] ∨ payload = "[DONE]".toList then s
  else
    let event := normalizeWebSocketTerminal payload
    if reaches = false then s.rest
    else
      let s := s.deliver event
      match eventKind event with
      | .success =>
        match s.commit plan event 0 none with
        | some s => s.rest
        | none => { s.rest with refused := true }
      | .failure => s.rest
      | .other => s

def step (s : Session) : Event → Option Session
  | .send payload => (s.upstream.bind (readerStep · (.send payload))).map fun u =>
      { s with upstream := some u }
  | .read => (s.upstream.bind (readerStep · .read)).map fun u => { s with upstream := some u }
  | .die => (s.upstream.bind (readerStep · .die)).map fun u => { s with upstream := some u }
  -- the inbox of a client that left may still hold messages
  | .leave => some { s with left := true }
  | .stop =>
    match s.phase with
    | .waiting => if s.left then some s.close else none
    | _ => none
  | .take raw key credential =>
    match s.phase with
    | .waiting => some (takeStep k s raw key credential)
    | _ => none
  | .ensure dial =>
    match s.phase with
    | .planned plan credential => some (ensureStep k s plan credential dial)
    | _ => none
  | .write fails =>
    match s.phase, s.upstream with
    | .submitting plan credential, some u => some (writeStep s u plan credential fails)
    | _, _ => none
  | .forward reaches =>
    match s.phase, s.upstream with
    | .forwarding plan, some u =>
      match u.events with
      | frame :: frames => some (forwardStep s u frame frames plan reaches)
      | [] => none
    | _, _ => none
  | .lost =>
    match s.phase, s.upstream with
    | .forwarding _, some u => if u.events = [] ∧ u.done then some s.close else none
    | _, _ => none
  | .abandon =>
    match s.phase with
    | .forwarding _ => if s.left then some { s.rest with abandoned := true } else none
    | _ => none
  | .request accepted =>
    match s.phase with
    | .fallback plan credential => some (requestStep k s plan credential accepted)
    | _ => none
  | .stream payload reaches =>
    match s.phase with
    | .streaming plan => some (streamStep s plan payload reaches)
    | _ => none
  | .finish =>
    match s.phase with
    | .streaming _ => some s.rest
    | _ => none

def system : TransitionSystem Session Event where
  start :=
    { conversation := .initial k.maxReplayBytes, upstream := none, nextGeneration := 0
      phase := .waiting, left := false, abandoned := false, turns := 0, submissions := []
      forwarded := [], made := none, delivered := none, refused := false }
  step := step k

/-! ### What a step can do -/

def Phase.plan? : Phase → Option Plan
  | .planned plan _ | .submitting plan _ | .fallback plan _ => some plan
  | .forwarding plan | .streaming plan => some plan
  | .waiting | .closed => none

/-- The phases in which a turn goes over HTTP. -/
def Phase.OverHTTP : Phase → Prop
  | .fallback .. | .streaming _ => True
  | _ => False

/-- The identity has been used: the one of the plan is now `after`, and so is that of the
conversation if it has one. -/
structure Used (before after : Identity) (c d : Conversation) : Prop where
  session : after.upstreamSessionID = before.upstreamSessionID
  conversation : d = c ∧ after = before ∨ d = { c with identity := c.identity.map fun _ => after }

/-- The conversation differs at most in its identity, which is of the same session. -/
def SameSession (c d : Conversation) : Prop :=
  ∃ i, d = { c with identity := i } ∧
    i.map (·.upstreamSessionID) = c.identity.map (·.upstreamSessionID)

def ForwardedFrame.of (s : Session) (u : UpstreamSocket) (frame : UpstreamFrame) (plan : Plan) :
    ForwardedFrame :=
  ⟨(s.conversation.identityFor plan).exposePayload (normalizeWebSocketTerminal frame.payload),
    frame.after, u.written⟩

def Submission.to (s : Session) (u : UpstreamSocket) (plan : Plan) (credential : Credential) :
    Submission where
  turn := s.turns
  plan := plan
  credential := credential
  socket := some (⟨u.generation, u.written⟩, u.accountID)
  headers := u.headers
  body := s.conversation.bodyFor plan u.generation false
  made := s.made

/-- What one step does, by the branch that it takes. -/
inductive Moves (s : Session) : Event → Session → Prop
  | frames {e u v} (hu : s.upstream = some u) (hsame : v.generation = u.generation ∧
      v.accountID = u.accountID ∧ v.headers = u.headers ∧ v.written = u.written)
      (hnew : ∀ f ∈ v.unread, f ∈ u.unread ∨ f.after = u.written) :
      Moves s e { s with upstream := some v }
  | leaves {e} : Moves s e { s with left := true }
  | closes {e} : Moves s e s.close
  | keeps {e c} (hp : s.phase = .waiting) (hc : SameSession s.conversation c) :
      Moves s e { s with conversation := c }
  | ends {e} (hp : s.phase = .waiting) : Moves s e { s with upstream := none, phase := .waiting }
  | givesUp {e plan credential identity c} (hp : s.phase = .planned plan credential)
      (hused : Used plan.identity identity s.conversation c) :
      Moves s e { s with conversation := c, upstream := none, phase := .waiting }
  | abandons {e plan} (hp : s.phase = .forwarding plan) :
    Moves s e { s.rest with abandoned := true }
  | answers {e plan identity c} (hp : s.phase.OverHTTP) (hplan : s.phase.plan? = some plan)
      (hused : Used plan.identity identity s.conversation c) :
      Moves s e { s with conversation := c, phase := .waiting }
  | plans {raw plan c credential} (hp : s.phase = .waiting)
      (hkey : trimSpace (k.request.keyID.getD "") ≠ "")
      (hplan : k.prepare s.conversation raw credential.planType = (.ok plan, c)) :
      Moves s (.take raw .active (some credential))
        { s with conversation := c, phase := .planned plan credential, turns := s.turns + 1 }
  | ensures {e plan credential u} (hp : s.phase = .planned plan credential)
      (hu : s.upstream = some u) (haccount : u.accountID = credential.accountID) :
      Moves s e { s with phase := .submitting plan credential }
  | dials {e plan credential headers identity c} (hp : s.phase = .planned plan credential)
      (hused : Used plan.identity identity s.conversation c)
      (hrun : (dialHeaders k.digests k.cfg k.request credential).run plan.identity =
        (.ok headers, identity)) :
      Moves s e { s with
        conversation := c, nextGeneration := s.nextGeneration + 1
        upstream := some ⟨s.nextGeneration + 1, credential.accountID, headers, 0, [], [], false⟩
        phase := .submitting { plan with identity } credential }
  | falls {e plan credential identity c} (hp : s.phase = .planned plan credential)
      (hused : Used plan.identity identity s.conversation c) :
      Moves s e { s with
        conversation := c, upstream := none, phase := .fallback { plan with identity } credential }
  | writes {fails plan credential u} (hp : s.phase = .submitting plan credential)
      (hu : s.upstream = some u) : Moves s (.write fails) { s with
        submissions := s.submissions ++ [.to s u plan credential]
        upstream := some { u with written := u.written + 1 }, phase := .forwarding plan }
  | writeFails {fails plan credential u} (hp : s.phase = .submitting plan credential)
      (hu : s.upstream = some u) :
      Moves s (.write fails)
        { s.close with submissions := s.submissions ++ [.to s u plan credential] }
  | forwards {e plan u frame frames} (hp : s.phase = .forwarding plan) (hu : s.upstream = some u)
      (hf : u.events = frame :: frames) : Moves s e { s with
        upstream := some { u with events := frames }
        forwarded := s.forwarded ++ [.of s u frame plan] }
  | fails {e plan u frame frames} (hp : s.phase = .forwarding plan) (hu : s.upstream = some u)
      (hf : u.events = frame :: frames) : Moves s e { s with
        upstream := none, phase := .waiting, forwarded := s.forwarded ++ [.of s u frame plan] }
  | commits {e plan u frame frames event} (hp : s.phase = .forwarding plan)
      (hu : s.upstream = some u) (hf : u.events = frame :: frames)
      (hacc : s.conversation.Accepts plan (normalizeWebSocketTerminal frame.payload) event) :
      Moves s e { s with
        conversation := s.conversation.committed plan event u.generation
        upstream := some { u with events := frames }
        forwarded := s.forwarded ++ [.of s u frame plan]
        made := some ⟨u.generation, u.written⟩, delivered := some (trimSpace event.id)
        phase := .waiting }
  | refuses {e plan u frame frames delivered} (hp : s.phase = .forwarding plan)
      (hu : s.upstream = some u) (hf : u.events = frame :: frames) : Moves s e { s.close with
        forwarded := s.forwarded ++ [.of s u frame plan], delivered, refused := true }
  | requests {e plan credential identity c request phase} (hp : s.phase = .fallback plan credential)
      (hused : Used plan.identity identity s.conversation c)
      (hrun : (fallbackRequest k.digests k.fuel k.cfg k.request credential plan.model
        plan.replay).run plan.identity = (.ok request, identity))
      (hphase : phase = .waiting ∨ phase = .streaming { plan with identity }) : Moves s e { s with
        conversation := c, phase
        submissions := s.submissions ++ [{ turn := s.turns, plan, credential, socket := none
                                           headers := request.headers, body := request.body
                                           made := s.made }] }
  | stays {e} : Moves s e s
  | commitsHTTP {e plan payload event} (hp : s.phase = .streaming plan)
      (hacc : s.conversation.Accepts plan payload event) : Moves s e { s with
        conversation := s.conversation.committed plan event 0
        made := none, delivered := some (trimSpace event.id), phase := .waiting }
  | refusesHTTP {plan payload} (hp : s.phase = .streaming plan)
      (hkind : eventKind (normalizeWebSocketTerminal payload) = .success)
      (hacc : ∀ event, ¬s.conversation.Accepts plan (normalizeWebSocketTerminal payload) event) :
      Moves s (.stream payload true) { s with
        delivered := some (responseID (normalizeWebSocketTerminal payload)), refused := true
        phase := .waiting }

section

variable {k} {s t : Session} {u : UpstreamSocket} {plan : Plan} {credential : Credential}
  {e : Event}

lemma readerStep_same {v : UpstreamSocket} {e : Event} (h : readerStep u e = some v) :
    (v.generation = u.generation ∧ v.accountID = u.accountID ∧ v.headers = u.headers ∧
      v.written = u.written) ∧ ∀ f ∈ v.unread, f ∈ u.unread ∨ f.after = u.written := by
  unfold readerStep at h
  cases e with
  | send payload =>
    dsimp only at h
    split_ifs at h
    obtain rfl := Option.some.inj h
    refine ⟨⟨rfl, rfl, rfl, rfl⟩, fun f hf => ?_⟩
    simp only [UpstreamSocket.unread, List.mem_append, List.mem_singleton] at hf ⊢
    rcases hf with hf | hf | rfl
    · exact .inl (.inl hf)
    · exact .inl (.inr hf)
    · exact .inr rfl
  | read =>
    cases hway : u.onTheWay with
    | nil =>
      rw [hway] at h
      cases h
    | cons frame frames =>
      rw [hway] at h
      dsimp only at h
      split_ifs at h
      obtain rfl := Option.some.inj h
      refine ⟨⟨rfl, rfl, rfl, rfl⟩, fun f hf => .inl ?_⟩
      simpa [UpstreamSocket.unread, hway] using hf
  | die =>
    obtain rfl := Option.some.inj h
    refine ⟨⟨rfl, rfl, rfl, rfl⟩, fun f hf => .inl ?_⟩
    simp only [UpstreamSocket.unread, List.append_nil, List.mem_append] at hf ⊢
    exact .inl hf
  | _ => cases h

lemma moves_reader {d : Event} (h : (s.upstream.bind (readerStep · d)).map (fun u =>
    { s with upstream := some u }) = some t) : Moves k s e t := by
  obtain ⟨v, hv, rfl⟩ := Option.map_eq_some_iff.mp h
  obtain ⟨u, hu, hstep⟩ := Option.bind_eq_some_iff.mp hv
  obtain ⟨hsame, hnew⟩ := readerStep_same hstep
  exact .frames hu hsame hnew

lemma Used.same {before after : Identity} {c d : Conversation} (h : Used before after c d) :
    ∃ i, d = { c with identity := i } := by
  rcases h.conversation with ⟨rfl, -⟩ | rfl
  · exact ⟨d.identity, rfl⟩
  · exact ⟨_, rfl⟩

lemma prepare_ok {c d : Conversation} {raw : Text} {planType : String}
    (h : k.prepare c raw planType = (.ok plan, d)) :
    d = { c with identity := c.identity.map fun _ => plan.identity } := by
  have hp := Conversation.prepared k.digests k.fuel c k.request raw k.cfg.codexIdentityRemap
    planType
  rw [show c.prepare _ _ _ _ _ _ = _ from h] at hp
  generalize hx : ((Except.ok plan : Except String Plan), d) = x at hp
  cases hp with
  | @planned turn i fixed f j hr hu hrun =>
    obtain ⟨hplan, rfl⟩ := Prod.mk.inj hx
    obtain rfl := Except.ok.inj hplan
    rw [Conversation.planTurn_plan hrun j j]
  | _ => cases hx

lemma prepare_error {c d : Conversation} {raw : Text} {planType e : String}
    (h : k.prepare c raw planType = (.error e, d)) : SameSession c d := by
  have hp := Conversation.prepared k.digests k.fuel c k.request raw k.cfg.codexIdentityRemap
    planType
  rw [show c.prepare _ _ _ _ _ _ = _ from h] at hp
  cases hp with
  | unread => exact ⟨c.identity, rfl, rfl⟩
  | unnamed => exact ⟨c.identity, rfl, rfl⟩
  | @refused turn i fixed _ j hr hu hrun =>
    refine ⟨_, rfl, ?_⟩
    cases hu with
    | fresh hi => rw [hi]; rfl
    | shared hi =>
      have hext := (Conversation.tracks_planTurn k.digests k.fuel c k.request.headers planType
        turn true).run i
      rw [hrun] at hext
      rw [hi, Option.map_some, Option.map_some, Option.map_some, hext.upstreamSessionID]

lemma moves_take {raw : Text} {key : KeyCheck} {cred : Option Credential}
    (hp : s.phase = .waiting) : Moves k s (.take raw key cred) (takeStep k s raw key cred) := by
  unfold takeStep
  split_ifs with hkey
  · exact .closes
  · cases key with
    | revoked => exact .closes
    | unavailable => exact .stays
    | active =>
      cases cred with
      | none =>
        have h := Moves.ends (k := k) (e := .take raw .active none) hp
        rwa [← hp] at h
      | some credential =>
        dsimp only
        rcases hprep : k.prepare s.conversation raw credential.planType with ⟨e | plan, c⟩
        · exact .keeps hp (prepare_error hprep)
        · exact .plans hp hkey hprep

lemma used_of_extends {before after : Identity} (c : Conversation)
    (h : Identity.Extends before after) :
    Used before after c { c with identity := c.identity.map fun _ => after } :=
  ⟨h.upstreamSessionID.symm, .inr rfl⟩

lemma moves_withoutUpstream {identity : Identity} {c : Conversation}
    (hp : s.phase = .planned plan credential)
    (hused : Used plan.identity identity s.conversation c) :
    Moves k s e (withoutUpstream k { s with conversation := c, upstream := none }
      { plan with identity } credential) := by
  unfold withoutUpstream
  split_ifs
  · exact .falls hp hused
  · exact .givesUp hp hused

lemma moves_dial {dial : Dial} (hp : s.phase = .planned plan credential) :
    Moves k s e (dialUpstream k s plan credential dial) := by
  have hext := (tracks_dialHeaders k.digests k.cfg k.request credential).run plan.identity
  cases dial with
  | cooldown => exact moves_withoutUpstream hp ⟨rfl, .inl ⟨rfl, rfl⟩⟩
  | failed => exact moves_withoutUpstream hp (used_of_extends s.conversation hext)
  | connected =>
    unfold dialUpstream
    rcases hrun : (dialHeaders k.digests k.cfg k.request credential).run plan.identity with
      ⟨e | headers, identity⟩ <;> rw [hrun] at hext
    · exact moves_withoutUpstream hp (used_of_extends s.conversation hext)
    · exact .dials hp (used_of_extends s.conversation hext) hrun

lemma moves_ensure {dial : Dial} (hp : s.phase = .planned plan credential) :
    Moves k s e (ensureStep k s plan credential dial) := by
  unfold ensureStep
  split
  · rename_i u hu
    split_ifs with h
    · exact .ensures hp hu h.1
    · exact moves_dial hp
  · exact moves_dial hp

lemma moves_write {fails : Bool} (hp : s.phase = .submitting plan credential)
    (hu : s.upstream = some u) :
    Moves k s (.write fails) (writeStep s u plan credential fails) := by
  unfold writeStep
  split_ifs
  · exact .closes
  · exact .writeFails hp hu
  · exact .writes hp hu

lemma commit_none {event : Text} {generation : ℕ} {place : Option Place}
    (h : s.commit plan event generation place = none) :
    ∀ e, ¬s.conversation.Accepts plan event e := by
  intro e hacc
  rw [Session.commit, Conversation.commit_ok_iff.mpr ⟨e, hacc, rfl⟩] at h
  cases h

lemma commit_some {event : Text} {generation : ℕ} {place : Option Place}
    (h : s.commit plan event generation place = some t) :
    ∃ e, s.conversation.Accepts plan event e ∧
      t = { s with conversation := s.conversation.committed plan e generation, made := place } := by
  unfold Session.commit at h
  rcases hc : s.conversation.commit plan event generation with e | c <;> rw [hc] at h
  · cases h
  · obtain ⟨e, hacc, rfl⟩ := Conversation.commit_ok_iff.mp hc
    exact ⟨e, hacc, (Option.some.inj h).symm⟩

lemma responseID_of_accepts {c : Conversation} {event : Text} {e : Conversation.Terminal}
    (h : c.Accepts plan event e) : responseID event = trimSpace e.id := by
  rw [responseID, h.1]
  rfl

lemma deliver_success {event : Text} (h : eventKind event = .success) :
    s.deliver event = { s with delivered := some (responseID event) } := by
  rw [Session.deliver, if_pos h]

lemma deliver_other {event : Text} (h : eventKind event ≠ .success) : s.deliver event = s := by
  rw [Session.deliver, if_neg h]

lemma moves_forward {frame : UpstreamFrame} {frames : List UpstreamFrame} {reaches : Bool}
    (hp : s.phase = .forwarding plan) (hu : s.upstream = some u) (hf : u.events = frame :: frames) :
    Moves k s e (forwardStep s u frame frames plan reaches) := by
  unfold forwardStep
  cases reaches with
  | false => exact .closes
  | true =>
    rw [if_neg (by simp)]
    cases hkind : eventKind (normalizeWebSocketTerminal frame.payload) with
    | other =>
      rw [deliver_other (by simp [hkind])]
      exact .forwards hp hu hf
    | failure =>
      rw [deliver_other (by simp [hkind])]
      exact .fails hp hu hf
    | success =>
      rw [deliver_success hkind]
      dsimp only
      split
      · rename_i r hr
        obtain ⟨terminal, hacc, rfl⟩ := commit_some hr
        rw [responseID_of_accepts hacc]
        exact .commits hp hu hf hacc
      · exact .refuses hp hu hf

lemma moves_request {accepted : Bool} (hp : s.phase = .fallback plan credential) :
    Moves k s e (requestStep k s plan credential accepted) := by
  have hext := (tracks_fallbackRequest k.digests k.fuel k.cfg k.request credential plan.model
    plan.replay).run plan.identity
  unfold requestStep
  rcases hrun : (fallbackRequest k.digests k.fuel k.cfg k.request credential plan.model
    plan.replay).run plan.identity with ⟨e | request, identity⟩ <;> rw [hrun] at hext
  · exact .answers (by rw [hp]; trivial) (by rw [hp]; rfl) (used_of_extends s.conversation hext)
  · dsimp only
    split_ifs
    · exact .requests hp (used_of_extends s.conversation hext) hrun (.inr rfl)
    · exact .requests hp (used_of_extends s.conversation hext) hrun (.inl rfl)

lemma moves_rest (hp : s.phase = .streaming plan) : Moves k s e s.rest :=
  .answers (by rw [hp]; trivial) (by rw [hp]; rfl) ⟨rfl, .inl ⟨rfl, rfl⟩⟩

lemma moves_stream {payload : Text} {reaches : Bool} (hp : s.phase = .streaming plan) :
    Moves k s (.stream payload reaches) (streamStep s plan payload reaches) := by
  unfold streamStep
  split_ifs with hempty hreach
  · exact .stays
  · exact moves_rest hp
  · rw [Bool.not_eq_false] at hreach
    subst hreach
    dsimp only
    cases hkind : eventKind (normalizeWebSocketTerminal payload) with
    | other =>
      rw [deliver_other (by simp [hkind])]
      exact .stays
    | failure =>
      rw [deliver_other (by simp [hkind])]
      exact moves_rest hp
    | success =>
      rw [deliver_success hkind]
      dsimp only
      split
      · rename_i r hr
        obtain ⟨terminal, hacc, rfl⟩ := commit_some hr
        rw [responseID_of_accepts hacc]
        exact .commitsHTTP hp hacc
      · rename_i hr
        have hacc := commit_none hr
        exact .refusesHTTP hp hkind hacc

/-- Every step makes a move. -/
theorem step_moves (h : step k s e = some t) : Moves k s e t := by
  cases e with
  | send payload => exact moves_reader h
  | read => exact moves_reader h
  | die => exact moves_reader h
  | leave => exact Option.some.inj h ▸ .leaves
  -- a session that waits ends once the client has left
  | stop =>
    rw [step] at h
    split at h
    · split_ifs at h
      exact Option.some.inj h ▸ .closes
    · cases h
  | take raw key cred =>
    rw [step] at h
    split at h
    · exact Option.some.inj h ▸ moves_take ‹_›
    · cases h
  | ensure dial =>
    rw [step] at h
    split at h
    · exact Option.some.inj h ▸ moves_ensure ‹_›
    · cases h
  | write fails =>
    rw [step] at h
    split at h
    · exact Option.some.inj h ▸ moves_write ‹_› ‹_›
    · cases h
  | forward reaches =>
    rw [step] at h
    split at h
    · split at h
      · exact Option.some.inj h ▸ moves_forward ‹_› ‹_› ‹_›
      · cases h
    · cases h
  | lost =>
    rw [step] at h
    split at h
    · split_ifs at h
      exact Option.some.inj h ▸ .closes
    · cases h
  | abandon =>
    rw [step] at h
    split at h
    · split_ifs at h
      exact Option.some.inj h ▸ .abandons ‹_›
    · cases h
  | request accepted =>
    rw [step] at h
    split at h
    · exact Option.some.inj h ▸ moves_request ‹_›
    · cases h
  | stream payload reaches =>
    rw [step] at h
    split at h
    · exact Option.some.inj h ▸ moves_stream ‹_›
    · cases h
  | finish =>
    rw [step] at h
    split at h
    · rename_i hp
      exact Option.some.inj h ▸ moves_rest hp
    · cases h

end

end CodexOne.WebSocketSession
