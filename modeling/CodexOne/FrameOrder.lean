import CodexOne.TurnIsolation

/-!
The frames of an upstream socket on their way to the client.

The upstream sends frames, the reader of the socket queues them, and the turn loop takes them out
and hands each one to the client as an event. What a run does with frames is listed beside it.
-/

namespace CodexOne.WebSocketSession

/-- A frame that a socket is sent, or that is handed to the client as an event. -/
inductive Passing where
  | sent (generation : ℕ) (payload : Text)
  | forwarded (generation : ℕ) (payload event : Text)

namespace Passing

def generation : Passing → ℕ
  | sent g _ => g
  | forwarded g _ _ => g

def sent? (g : ℕ) : Passing → Option Text
  | sent generation payload => if generation = g then some payload else none
  | forwarded .. => none

def forwarded? (g : ℕ) : Passing → Option Text
  | sent .. => none
  | forwarded generation payload _ => if generation = g then some payload else none

def event? : Passing → Option Text
  | sent .. => none
  | forwarded _ _ event => some event

end Passing

/-- The frames that a socket has been sent. -/
def sentTo (g : ℕ) (l : List Passing) : List Text := l.filterMap (Passing.sent? g)

/-- The frames of a socket that have been handed to the client. -/
def forwardedFrom (g : ℕ) (l : List Passing) : List Text := l.filterMap (Passing.forwarded? g)

/-- What a step does with a frame. -/
def passing (s : Session) : Event → Option Passing
  | .send payload => s.upstream.map fun u => .sent u.generation payload
  | .forward true =>
    s.upstream.bind fun u => u.events.head?.bind fun frame => s.phase.plan?.map fun plan =>
      .forwarded u.generation frame.payload
        ((s.conversation.identityFor plan).exposePayload (normalizeWebSocketTerminal frame.payload))
  | _ => none

/-- The frames of every socket are forwarded in the order in which they were sent. Those of the
socket in use that have not been forwarded are queued or on their way, unless its reader has
ended. -/
structure InOrder (s : Session) (l : List Passing) : Prop where
  known : ∀ p ∈ l, p.generation ≤ s.nextGeneration
  dialled : ∀ u, s.upstream = some u → u.generation ≤ s.nextGeneration
  order : ∀ g, forwardedFrom g l <+: sentTo g l
  queued : ∀ u, s.upstream = some u → ∃ lost, (u.done = false → lost = []) ∧
    sentTo u.generation l = forwardedFrom u.generation l ++ u.unread.map (·.payload) ++ lost
  events : s.forwarded.map (·.event) = l.filterMap Passing.event?

variable {k : Connection} {s t : Session} {l : List Passing} {plan : Plan}
  {credential : Credential} {u v : UpstreamSocket}

def SameFrames (u v : UpstreamSocket) : Prop :=
  v.generation = u.generation ∧ v.unread = u.unread ∧ v.done = u.done

/-- No frame passes: the socket is closed, kept, or a new one. -/
structure Quiet (s t : Session) : Prop where
  forwarded : t.forwarded = s.forwarded
  generation : s.nextGeneration ≤ t.nextGeneration
  upstream : ∀ v, t.upstream = some v →
    (∃ u, s.upstream = some u ∧ SameFrames u v) ∨
      v.generation = s.nextGeneration + 1 ∧ v.generation = t.nextGeneration ∧ v.unread = [] ∧
        v.done = false

lemma Quiet.same (hf : t.forwarded = s.forwarded) (hg : t.nextGeneration = s.nextGeneration)
    (hu : t.upstream = s.upstream) : Quiet s t :=
  ⟨hf, hg.ge, fun v hv => .inl ⟨v, hu ▸ hv, rfl, rfl, rfl⟩⟩

lemma Quiet.none (hf : t.forwarded = s.forwarded) (hg : t.nextGeneration = s.nextGeneration)
    (hu : t.upstream = .none) : Quiet s t :=
  ⟨hf, hg.ge, fun v hv => by rw [hu] at hv; cases hv⟩

lemma quiet_take (raw : Text) (key : KeyCheck) (cred : Option Credential) :
    Quiet s (takeStep k s raw key cred) := by
  unfold takeStep
  split_ifs
  · exact .none rfl rfl rfl
  · cases key with
    | revoked => exact .none rfl rfl rfl
    | unavailable => exact .same rfl rfl rfl
    | active =>
      cases cred with
      | none => exact .none rfl rfl rfl
      | some credential =>
        dsimp only
        split <;> exact .same rfl rfl rfl

lemma quiet_withoutUpstream (hf : t.forwarded = s.forwarded)
    (hg : t.nextGeneration = s.nextGeneration) (hu : t.upstream = .none) :
    Quiet s (withoutUpstream k t plan credential) := by
  unfold withoutUpstream
  split_ifs
  · exact .none hf hg hu
  · exact .none hf hg hu

lemma quiet_dial (dial : Dial) : Quiet s (dialUpstream k s plan credential dial) := by
  cases dial with
  | cooldown => exact quiet_withoutUpstream rfl rfl rfl
  | failed => exact quiet_withoutUpstream rfl rfl rfl
  | connected =>
    unfold dialUpstream
    rcases (dialHeaders k.digests k.cfg k.request credential).run plan.identity with
      ⟨e | headers, identity⟩
    · exact quiet_withoutUpstream rfl rfl rfl
    · refine ⟨rfl, Nat.le_succ _, fun v hv => .inr ?_⟩
      obtain rfl := Option.some.inj hv
      exact ⟨rfl, rfl, rfl, rfl⟩

lemma quiet_ensure (dial : Dial) : Quiet s (ensureStep k s plan credential dial) := by
  unfold ensureStep
  split
  · split_ifs
    · exact .same rfl rfl rfl
    · exact quiet_dial dial
  · exact quiet_dial dial

lemma quiet_write (hu : s.upstream = some u) (fails : Bool) :
    Quiet s (writeStep s u plan credential fails) := by
  unfold writeStep
  split_ifs
  · exact .none rfl rfl rfl
  · exact .none rfl rfl rfl
  · refine ⟨rfl, le_rfl, fun v hv => .inl ⟨u, hu, ?_⟩⟩
    obtain rfl := Option.some.inj hv
    exact ⟨rfl, rfl, rfl⟩

lemma quiet_request (accepted : Bool) : Quiet s (requestStep k s plan credential accepted) := by
  unfold requestStep
  split
  · exact .same rfl rfl rfl
  · dsimp only
    split_ifs
    · exact .same rfl rfl rfl
    · exact .same rfl rfl rfl

lemma quiet_commit {event : Text} {generation : ℕ} {place : Option Place} {rejected : Session}
    (h : Quiet s t) (hrejected : Quiet s rejected) :
    Quiet s (match t.commit plan event generation place with
      | some s => s.rest
      | .none => rejected) := by
  cases hcommit : t.commit plan event generation place with
  | none => exact hrejected
  | some v =>
    obtain ⟨e, -, rfl⟩ := commit_some hcommit
    exact ⟨h.forwarded, h.generation, h.upstream⟩

lemma quiet_stream (payload : Text) (reaches : Bool) :
    Quiet s (streamStep s plan payload reaches) := by
  unfold streamStep
  split_ifs
  · exact .same rfl rfl rfl
  · exact .same rfl rfl rfl
  · dsimp only
    cases hkind : eventKind (normalizeWebSocketTerminal payload) with
    | success =>
      rw [deliver_success hkind]
      refine quiet_commit ?_ ?_
      · exact .same rfl rfl rfl
      · exact .same rfl rfl rfl
    | failure =>
      rw [deliver_other (by simp [hkind])]
      exact .same rfl rfl rfl
    | other =>
      rw [deliver_other (by simp [hkind])]
      exact .same rfl rfl rfl

lemma sentTo_of_unknown {g n : ℕ} (h : ∀ p ∈ l, p.generation ≤ n) (hg : n < g) :
    sentTo g l = [] := by
  refine List.filterMap_eq_nil_iff.mpr fun p hp => ?_
  have hle := h p hp
  cases p with
  | sent generation payload => exact if_neg (by rintro rfl; exact absurd hle (not_le.mpr hg))
  | forwarded => rfl

lemma InOrder.quiet (h : InOrder s l) (hq : Quiet s t) : InOrder t l where
  known p hp := (h.known p hp).trans hq.generation
  dialled v hv := by
    rcases hq.upstream v hv with ⟨u, hu, hgeneration, -⟩ | ⟨-, hgeneration, -⟩
    · exact hgeneration ▸ (h.dialled u hu).trans hq.generation
    · exact hgeneration.le
  order := h.order
  queued v hv := by
    rcases hq.upstream v hv with ⟨u, hu, hgeneration, hunread, hdone⟩ | ⟨hfresh, -, hunread, -⟩
    · rw [hgeneration, hunread, hdone]
      exact h.queued u hu
    · have hsent := sentTo_of_unknown (g := v.generation) h.known (by omega)
      have horder := h.order v.generation
      rw [hsent, List.prefix_nil] at horder
      exact ⟨[], fun _ => rfl, by rw [hsent, horder, hunread]; rfl⟩
  events := hq.forwarded ▸ h.events

/-! ### Steps with a frame -/

lemma sentTo_concat (g : ℕ) (l : List Passing) (p : Passing) :
    sentTo g (l ++ [p]) = sentTo g l ++ (p.sent? g).toList := by
  rw [sentTo, List.filterMap_append]
  cases h : p.sent? g <;> simp [sentTo, h]

lemma forwardedFrom_concat (g : ℕ) (l : List Passing) (p : Passing) :
    forwardedFrom g (l ++ [p]) = forwardedFrom g l ++ (p.forwarded? g).toList := by
  rw [forwardedFrom, List.filterMap_append]
  cases h : p.forwarded? g <;> simp [forwardedFrom, h]

lemma InOrder.send (h : InOrder s l) (hu : s.upstream = some u) (hopen : u.done = false)
    (payload : Text) :
    InOrder { s with upstream := some { u with onTheWay := u.onTheWay ++ [⟨payload, u.written⟩] } }
      (l ++ [.sent u.generation payload]) where
  known p hp := by
    rcases List.mem_append.mp hp with hp | hp
    · exact h.known p hp
    · rw [List.mem_singleton.mp hp]
      exact h.dialled u hu
  dialled v hv := by
    obtain rfl := Option.some.inj hv
    exact h.dialled u hu
  order g := by
    rw [sentTo_concat, forwardedFrom_concat, Passing.forwarded?, Option.toList_none,
      List.append_nil]
    exact (h.order g).trans (List.prefix_append _ _)
  queued v hv := by
    obtain rfl := Option.some.inj hv
    obtain ⟨lost, hlost, hsent⟩ := h.queued u hu
    refine ⟨[], fun _ => rfl, ?_⟩
    rw [sentTo_concat, forwardedFrom_concat, hsent, hlost hopen]
    simp [Passing.sent?, Passing.forwarded?, UpstreamSocket.unread]
  events := by
    rw [List.filterMap_append]
    exact h.events.trans (by simp [Passing.event?])

lemma InOrder.read (h : InOrder s l) (hu : s.upstream = some u) {frame : UpstreamFrame}
    {frames : List UpstreamFrame} (hway : u.onTheWay = frame :: frames) :
    InOrder { s with
      upstream := some { u with onTheWay := frames, events := u.events ++ [frame] } } l :=
  h.quiet ⟨rfl, le_rfl, fun v hv => .inl ⟨u, hu, by
    obtain rfl := Option.some.inj hv
    exact ⟨rfl, by simp [UpstreamSocket.unread, hway], rfl⟩⟩⟩

lemma InOrder.die (h : InOrder s l) (hu : s.upstream = some u) :
    InOrder { s with upstream := some { u with onTheWay := [], done := true } } l where
  known := h.known
  dialled v hv := by
    obtain rfl := Option.some.inj hv
    exact h.dialled u hu
  order := h.order
  queued v hv := by
    obtain rfl := Option.some.inj hv
    obtain ⟨lost, -, hsent⟩ := h.queued u hu
    refine ⟨u.onTheWay.map (·.payload) ++ lost, fun hdone => (by cases hdone), ?_⟩
    rw [hsent]
    simp [UpstreamSocket.unread]
  events := h.events

lemma InOrder.forward (h : InOrder s l) (hu : s.upstream = some u) {frame : UpstreamFrame}
    {frames : List UpstreamFrame} (hf : u.events = frame :: frames)
    (hforwarded : t.forwarded = s.forwarded ++ [.of s u frame plan])
    (hg : t.nextGeneration = s.nextGeneration)
    (ht : ∀ v, t.upstream = some v → v = { u with events := frames }) :
    InOrder t (l ++ [.forwarded u.generation frame.payload
      ((s.conversation.identityFor plan).exposePayload
        (normalizeWebSocketTerminal frame.payload))]) where
  known p hp := by
    rw [hg]
    rcases List.mem_append.mp hp with hp | hp
    · exact h.known p hp
    · rw [List.mem_singleton.mp hp]
      exact h.dialled u hu
  dialled v hv := by
    rw [ht v hv, hg]
    exact h.dialled u hu
  order g := by
    rw [sentTo_concat, forwardedFrom_concat, Passing.sent?, Option.toList_none, List.append_nil]
    by_cases hgen : u.generation = g
    · subst hgen
      obtain ⟨lost, -, hsent⟩ := h.queued u hu
      rw [hsent, Passing.forwarded?, if_pos rfl, UpstreamSocket.unread, hf]
      simp
    · -- the frames of other sockets are not touched
      rw [Passing.forwarded?, if_neg hgen, Option.toList_none, List.append_nil]
      exact h.order g
  queued v hv := by
    obtain ⟨lost, hlost, hsent⟩ := h.queued u hu
    rw [ht v hv]
    refine ⟨lost, hlost, ?_⟩
    rw [sentTo_concat, forwardedFrom_concat, hsent, UpstreamSocket.unread, hf]
    simp [Passing.sent?, Passing.forwarded?, UpstreamSocket.unread]
  events := by
    rw [hforwarded, List.map_append, h.events, List.filterMap_append]
    rfl

lemma InOrder.commit {event : Text} {generation : ℕ} {place : Option Place} {rejected : Session}
    (h : InOrder t l) (hrejected : InOrder rejected l) :
    InOrder (match t.commit plan event generation place with
      | some s => s.rest
      | none => rejected) l := by
  cases hcommit : t.commit plan event generation place with
  | none => exact hrejected
  | some v =>
    obtain ⟨e, -, rfl⟩ := commit_some hcommit
    exact ⟨h.known, h.dialled, h.order, h.queued, h.events⟩

lemma inOrder_forward (h : InOrder s l) (hp : s.phase = .forwarding plan) (hu : s.upstream = some u)
    {frame : UpstreamFrame} {frames : List UpstreamFrame} (hf : u.events = frame :: frames)
    (reaches : Bool) :
    InOrder (forwardStep s u frame frames plan reaches)
      (l ++ (passing s (.forward reaches)).toList) := by
  unfold forwardStep
  cases reaches with
  | false =>
    rw [if_pos rfl, show passing s (.forward false) = none from rfl, Option.toList_none,
      List.append_nil]
    exact h.quiet (.none rfl rfl rfl)
  | true =>
    have hpassing : passing s (.forward true) = some (.forwarded u.generation frame.payload
        ((s.conversation.identityFor plan).exposePayload
          (normalizeWebSocketTerminal frame.payload))) := by
      rw [passing, hu, Option.bind_some, hf, List.head?_cons, Option.bind_some, hp]
      rfl
    rw [if_neg (by simp), hpassing, Option.toList_some]
    cases hkind : eventKind (normalizeWebSocketTerminal frame.payload) with
    | other =>
      rw [deliver_other (by simp [hkind])]
      exact h.forward hu hf rfl rfl fun v hv => (Option.some.inj hv).symm
    | failure =>
      rw [deliver_other (by simp [hkind])]
      exact h.forward hu hf rfl rfl fun v hv => by cases hv
    | success =>
      rw [deliver_success hkind]
      refine InOrder.commit ?_ ?_
      · exact h.forward hu hf rfl rfl fun v hv => (Option.some.inj hv).symm
      · exact h.forward hu hf rfl rfl fun v hv => by cases hv

/-- Every step keeps the order. -/
theorem inOrder_step {e : Event} (h : InOrder s l) (hstep : step k s e = some t) :
    InOrder t (l ++ (passing s e).toList) := by
  cases e with
  | send payload =>
    obtain ⟨v, hv, rfl⟩ := Option.map_eq_some_iff.mp hstep
    obtain ⟨u, hu, hread⟩ := Option.bind_eq_some_iff.mp hv
    dsimp only [readerStep] at hread
    split_ifs at hread with hdone
    obtain rfl := Option.some.inj hread
    rw [passing, hu, Option.map_some, Option.toList_some]
    exact h.send hu (by simpa using hdone) payload
  | forward reaches =>
    rw [step] at hstep
    split at hstep
    · split at hstep
      · exact Option.some.inj hstep ▸ inOrder_forward h ‹_› ‹_› ‹_› reaches
      · cases hstep
    · cases hstep
  | _ => ?_
  -- the other steps neither send nor forward a frame
  all_goals rw [show passing s _ = none from rfl, Option.toList_none, List.append_nil]
  case read =>
    obtain ⟨v, hv, rfl⟩ := Option.map_eq_some_iff.mp hstep
    obtain ⟨u, hu, hread⟩ := Option.bind_eq_some_iff.mp hv
    cases hway : u.onTheWay with
    | nil =>
      rw [readerStep, hway] at hread
      cases hread
    | cons frame frames =>
      rw [readerStep, hway] at hread
      dsimp only at hread
      split_ifs at hread
      obtain rfl := Option.some.inj hread
      exact h.read hu hway
  case die =>
    obtain ⟨v, hv, rfl⟩ := Option.map_eq_some_iff.mp hstep
    obtain ⟨u, hu, hread⟩ := Option.bind_eq_some_iff.mp hv
    obtain rfl := Option.some.inj hread
    exact h.die hu
  case leave => exact Option.some.inj hstep ▸ h.quiet (.same rfl rfl rfl)
  case stop =>
    rw [step] at hstep
    split at hstep
    · split_ifs at hstep
      exact Option.some.inj hstep ▸ h.quiet (.none rfl rfl rfl)
    · cases hstep
  case take raw key cred =>
    rw [step] at hstep
    split at hstep
    · exact Option.some.inj hstep ▸ h.quiet (quiet_take raw key cred)
    · cases hstep
  case ensure dial =>
    rw [step] at hstep
    split at hstep
    · exact Option.some.inj hstep ▸ h.quiet (quiet_ensure dial)
    · cases hstep
  case write fails =>
    rw [step] at hstep
    split at hstep
    · exact Option.some.inj hstep ▸ h.quiet (quiet_write ‹_› fails)
    · cases hstep
  case lost =>
    rw [step] at hstep
    split at hstep
    · split_ifs at hstep
      exact Option.some.inj hstep ▸ h.quiet (.none rfl rfl rfl)
    · cases hstep
  case abandon =>
    rw [step] at hstep
    split at hstep
    · split_ifs at hstep
      exact Option.some.inj hstep ▸ h.quiet (.same rfl rfl rfl)
    · cases hstep
  case request accepted =>
    rw [step] at hstep
    split at hstep
    · exact Option.some.inj hstep ▸ h.quiet (quiet_request accepted)
    · cases hstep
  case stream payload reaches =>
    rw [step] at hstep
    split at hstep
    · exact Option.some.inj hstep ▸ h.quiet (quiet_stream payload reaches)
    · cases hstep
  case finish =>
    rw [step] at hstep
    split at hstep
    · exact Option.some.inj hstep ▸ h.quiet (.same rfl rfl rfl)
    · cases hstep

lemma inOrder_start : InOrder (system k).start [] where
  known _ hp := by cases hp
  dialled _ hu := by cases hu
  order _ := List.prefix_rfl
  queued _ hu := by cases hu
  events := rfl

/-- **Frames in order.** In every run the frames of each socket that have been forwarded are the
first ones that the socket was sent, none twice and none left out, however sending, reading and
forwarding interleave; what the client has been handed are these frames, restored one by one; and of
a socket whose reader has not ended every frame is forwarded, queued or on its way. -/
theorem frames_in_order {es : List Event} (h : (system k).run (system k).start es = some s) :
    (∀ g, forwardedFrom g ((system k).trace passing (system k).start es) <+:
      sentTo g ((system k).trace passing (system k).start es)) ∧
    s.forwarded.map (·.event) =
      ((system k).trace passing (system k).start es).filterMap Passing.event? ∧
    ∀ u, s.upstream = some u → u.done = false →
      sentTo u.generation ((system k).trace passing (system k).start es) =
        forwardedFrom u.generation ((system k).trace passing (system k).start es) ++
          u.unread.map (·.payload) := by
  have horder : InOrder s ([] ++ (system k).trace passing (system k).start es) :=
    TransitionSystem.run_trace InOrder (fun _ _ _ _ hs hstep => inOrder_step hs hstep)
      inOrder_start h
  rw [List.nil_append] at horder
  refine ⟨horder.order, horder.events, fun u hu hopen => ?_⟩
  obtain ⟨lost, hlost, hsent⟩ := horder.queued u hu
  rw [hsent, hlost hopen, List.append_nil]

theorem frames_in_order_sample : ∃ s,
    (system (.sample false)).run (system (.sample false)).start answeredTurns = some s ∧
      s.forwarded.length = 2 ∧
      forwardedFrom 1 ((system (.sample false)).trace passing (system (.sample false)).start
        answeredTurns) <+: sentTo 1 ((system (.sample false)).trace passing
          (system (.sample false)).start answeredTurns) ∧
      s.forwarded.map (·.event) = ((system (.sample false)).trace passing
        (system (.sample false)).start answeredTurns).filterMap Passing.event? := by
  have hsample : ((system (.sample false)).run (system (.sample false)).start answeredTurns).any
      (fun s => decide (s.forwarded.length = 2)) = true := by
    decide +kernel
  obtain ⟨s, hs, hlength⟩ := (Option.any_eq_true _ _).mp hsample
  obtain ⟨horder, hevents, -⟩ := frames_in_order hs
  exact ⟨s, hs, of_decide_eq_true hlength, horder 1, hevents⟩

end CodexOne.WebSocketSession
