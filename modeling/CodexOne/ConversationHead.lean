import CodexOne.TurnIsolation

/-!
The client and the gateway agree on the last response.

A terminal event reaches the client before it is committed. Over a socket a refused commit ends the
connection; over HTTP it does not, so there the events must be such that they are committed.
-/

namespace CodexOne.WebSocketSession

variable {k : Connection} {s t : Session} {e : Event}

/-- The last response that the client has been told to be finished is the one that the next turn
goes on from. -/
def HeadAgrees (s : Session) : Prop :=
  s.delivered = if s.conversation.hasCompleted then some s.conversation.lastResponseID else none

instance : DecidablePred HeadAgrees := fun s =>
  inferInstanceAs (Decidable (s.delivered = _))

/-- The event is committed if it ends a response that is answered over HTTP: it names the response,
and the transcript stays within the limit. -/
def AcceptedIn (s : Session) (event : Text) : Phase → Prop
  | .streaming plan =>
    eventKind event = .success → ∃ terminal, s.conversation.Accepts plan event terminal
  | _ => True

instance (s : Session) (event : Text) : DecidablePred (AcceptedIn s event)
  | .streaming plan => decidable_of_iff
      (eventKind event = .success → (s.conversation.commit plan event 0).isOk = true)
      (by rw [AcceptedIn, commit_isOk])
  | .waiting | .planned .. | .submitting .. | .forwarding _ | .fallback .. | .closed =>
    inferInstanceAs (Decidable True)

/-- What reaches the client over HTTP is committed. -/
def Committable (s : Session) : Event → Prop
  | .stream payload reaches =>
    reaches = true → AcceptedIn s (normalizeWebSocketTerminal payload) s.phase
  | _ => True

instance (s : Session) : DecidablePred (Committable s)
  | .stream payload reaches => inferInstanceAs (Decidable
      (reaches = true → AcceptedIn s (normalizeWebSocketTerminal payload) s.phase))
  | .send _ | .read | .die | .leave | .stop | .take .. | .ensure _ | .write _ | .forward _ | .lost
  | .abandon | .request _ | .finish => inferInstanceAs (Decidable True)

/-- The two agree, and nothing has been refused, until the connection ends. -/
def Agreeing (s : Session) : Prop := s.phase = .closed ∨ s.refused = false ∧ HeadAgrees s

lemma Agreeing.congr {c : Conversation} {i : Option Identity} (h : Agreeing s)
    (hp : s.phase ≠ .closed) (hc : c = { s.conversation with identity := i })
    (hconversation : t.conversation = c) (hdelivered : t.delivered = s.delivered)
    (hrefused : t.refused = s.refused) : Agreeing t := by
  obtain ⟨href, hagree⟩ := h.resolve_left hp
  refine .inr ⟨hrefused.trans href, ?_⟩
  rw [HeadAgrees, hconversation, hdelivered, hc]
  exact hagree

lemma Agreeing.move (h : Agreeing s) (hgood : Committable s e) (hmove : Moves k s e t) :
    Agreeing t := by
  cases hmove with
  | frames => exact h
  | leaves => exact h
  | closes => exact .inl rfl
  | keeps hp hc =>
    obtain ⟨i, hc, -⟩ := hc
    exact h.congr (by simp [hp]) hc rfl rfl rfl
  | ends hp => exact h.congr (i := s.conversation.identity) (by simp [hp]) rfl rfl rfl rfl
  | givesUp hp hused =>
    obtain ⟨i, hc⟩ := hused.same
    exact h.congr (by simp [hp]) hc rfl rfl rfl
  | abandons hp => exact h.congr (i := s.conversation.identity) (by simp [hp]) rfl rfl rfl rfl
  | answers hp _ hused =>
    obtain ⟨i, hc⟩ := hused.same
    refine h.congr (fun hclosed => ?_) hc rfl rfl rfl
    rw [hclosed] at hp
    exact hp
  | plans hp _ hplan => exact h.congr (by simp [hp]) (prepare_ok hplan) rfl rfl rfl
  | ensures hp => exact h.congr (i := s.conversation.identity) (by simp [hp]) rfl rfl rfl rfl
  | dials hp hused =>
    obtain ⟨i, hc⟩ := hused.same
    exact h.congr (by simp [hp]) hc rfl rfl rfl
  | falls hp hused =>
    obtain ⟨i, hc⟩ := hused.same
    exact h.congr (by simp [hp]) hc rfl rfl rfl
  | writes hp => exact h.congr (i := s.conversation.identity) (by simp [hp]) rfl rfl rfl rfl
  | writeFails => exact .inl rfl
  | forwards hp => exact h.congr (i := s.conversation.identity) (by simp [hp]) rfl rfl rfl rfl
  | fails hp => exact h.congr (i := s.conversation.identity) (by simp [hp]) rfl rfl rfl rfl
  -- the one move that sets the last response
  | commits hp =>
    exact .inr ⟨(h.resolve_left (by simp [hp])).1, by simp [HeadAgrees, Conversation.committed]⟩
  -- a refused commit closes the session
  | refuses => exact .inl rfl
  | requests hp hused =>
    obtain ⟨i, hc⟩ := hused.same
    exact h.congr (by simp [hp]) hc rfl rfl rfl
  | stays => exact h
  | commitsHTTP hp =>
    exact .inr ⟨(h.resolve_left (by simp [hp])).1, by simp [HeadAgrees, Conversation.committed]⟩
  | @refusesHTTP plan payload hp hkind hacc =>
    have haccepted : AcceptedIn s (normalizeWebSocketTerminal payload) s.phase := hgood rfl
    rw [hp] at haccepted
    obtain ⟨terminal, hterminal⟩ := haccepted hkind
    exact absurd hterminal (hacc terminal)

lemma agreeing_start : Agreeing (system k).start :=
  .inr ⟨rfl, by simp [HeadAgrees, system, Conversation.initial]⟩

/-- A turn over HTTP, up to its last event. -/
def answeredOverHTTP (payload : Text) : List Event :=
  [.take firstMessage .active (some sampleCredential), .ensure .failed, .request true,
    .stream payload true]

/-- The phase in which the next message is taken. -/
def Phase.isWaiting : Phase → Bool
  | .waiting => true
  | _ => false

lemma Phase.isWaiting_iff {phase : Phase} : phase.isWaiting = true ↔ phase = .waiting := by
  cases phase <;> simp [isWaiting]

/-- A terminal event that does not name its response. -/
def unnamedTerminal : Text := marshal (.obj [("type", .str "response.completed")])

end CodexOne.WebSocketSession
