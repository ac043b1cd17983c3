import CodexOne.WebSocketSession

/-!
A frame of an earlier turn is not forwarded in a later one.

The turn loop reads the queue of the socket from where the last turn left it, so this holds of the
runs in which nothing is left when a request is written.
-/

namespace CodexOne.WebSocketSession

variable {k : Connection} {s t : Session} {e : Event}

/-- Every frame that was forwarded had been sent after the request of its turn was written: at both
times the socket had been written the same requests. -/
def Isolated (s : Session) : Prop := ∀ f ∈ s.forwarded, f.sentAfter = f.written

instance : DecidablePred Isolated := fun _ => inferInstanceAs (Decidable (∀ _ ∈ _, _))

/-- No frame of the socket is unread when a request is written to it. -/
def Drained (s : Session) : Event → Prop
  | .write _ => ∀ u ∈ s.upstream, u.unread = []
  | _ => True

instance (s : Session) : DecidablePred (Drained s)
  | .write _ => inferInstanceAs (Decidable (∀ u ∈ s.upstream, u.unread = []))
  | .send _ | .read | .die | .leave | .stop | .take .. | .ensure _ | .forward _ | .lost | .abandon
  | .request _ | .stream .. | .finish => inferInstanceAs (Decidable True)

/-- While a turn is forwarded all frames of the socket are its own. -/
structure TurnsApart (s : Session) : Prop where
  unread : ∀ plan u, s.phase = .forwarding plan → s.upstream = some u →
    ∀ f ∈ u.unread, f.after = u.written
  forwarded : Isolated s

lemma TurnsApart.log (h : TurnsApart s) {plan : Plan} {u : UpstreamSocket} {frame : UpstreamFrame}
    {frames : List UpstreamFrame} (hp : s.phase = .forwarding plan) (hu : s.upstream = some u)
    (hf : u.events = frame :: frames) :
    ∀ f ∈ s.forwarded ++ [.of s u frame plan], f.sentAfter = f.written := by
  intro f hmem
  rcases List.mem_append.mp hmem with hmem | hmem
  · exact h.forwarded f hmem
  · -- the frame was unread, so it was sent after the turn was written
    obtain rfl := List.mem_singleton.mp hmem
    exact h.unread plan u hp hu frame (by simp [UpstreamSocket.unread, hf])

lemma TurnsApart.outside (hphase : ∀ plan, s.phase ≠ .forwarding plan) (h : Isolated s) :
    TurnsApart s := ⟨fun plan _ hp => absurd hp (hphase plan), h⟩

lemma TurnsApart.move (h : TurnsApart s) (hgood : Drained s e) (hmove : Moves k s e t) :
    TurnsApart t := by
  cases hmove with
  | @frames _ u v hu hsame hnew =>
    refine ⟨fun plan w hp hw f hf => ?_, h.forwarded⟩
    obtain rfl := Option.some.inj hw
    rw [hsame.2.2.2]
    rcases hnew f hf with hf | hf
    · exact h.unread plan u hp hu f hf
    · exact hf
  | leaves => exact ⟨h.unread, h.forwarded⟩
  | closes => exact .outside (fun _ hp => by cases hp) h.forwarded
  | keeps hp => exact .outside (fun plan hf => by simp [hp] at hf) h.forwarded
  | ends => exact .outside (fun _ hp => by cases hp) h.forwarded
  | givesUp => exact .outside (fun _ hp => by cases hp) h.forwarded
  | abandons => exact .outside (fun _ hp => by cases hp) h.forwarded
  | answers => exact .outside (fun _ hp => by cases hp) h.forwarded
  | plans => exact .outside (fun _ hp => by cases hp) h.forwarded
  | ensures => exact .outside (fun _ hp => by cases hp) h.forwarded
  | dials => exact .outside (fun _ hp => by cases hp) h.forwarded
  | falls => exact .outside (fun _ hp => by cases hp) h.forwarded
  | @writes _ _ _ u _ hu =>
    -- nothing was unread, and nothing has been sent since
    have hnone : u.unread = [] := hgood u hu
    refine ⟨fun plan v _ hv f hf => ?_, h.forwarded⟩
    obtain rfl := Option.some.inj hv
    change f ∈ u.unread at hf
    rw [hnone] at hf
    cases hf
  | writeFails => exact .outside (fun _ hp => by cases hp) h.forwarded
  | @forwards _ plan u frame frames hp hu hf =>
    refine ⟨fun plan' v hp' hv f hmem => ?_, h.log hp hu hf⟩
    obtain rfl := Option.some.inj hv
    refine h.unread plan u hp hu f ?_
    simp only [UpstreamSocket.unread, hf, List.mem_append, List.mem_cons] at hmem ⊢
    tauto
  | fails hp hu hf => exact .outside (fun _ hp => by cases hp) (h.log hp hu hf)
  | commits hp hu hf => exact .outside (fun _ hp => by cases hp) (h.log hp hu hf)
  | refuses hp hu hf => exact .outside (fun _ hp => by cases hp) (h.log hp hu hf)
  | requests _ _ _ hphase => exact .outside (by rintro plan rfl; simp at hphase) h.forwarded
  | stays => exact h
  | commitsHTTP => exact .outside (fun _ hp => by cases hp) h.forwarded
  | refusesHTTP => exact .outside (fun _ hp => by cases hp) h.forwarded

lemma turnsApart_start : TurnsApart (system k).start where
  unread _ _ hp := by cases hp
  forwarded _ hf := by cases hf

/-- **Turn isolation.** In every run in which no frame of the socket is unread when a request is
written, every frame that is forwarded or committed in a turn was sent after its request. -/
theorem turns_isolated {es : List Event}
    (hgood : (system k).Along Drained (system k).start es)
    (hrun : (system k).run (system k).start es = some s) : Isolated s :=
  (TransitionSystem.run_invariant_along TurnsApart
    (fun _ _ _ hi hgood hstep => hi.move hgood (step_moves hstep)) turnsApart_start hgood
    hrun).forwarded

def sampleCredential : Credential := ⟨"account", "token", ""⟩

/-- A turn over the upstream socket, up to the write. -/
def submitted (raw : Text) : List Event :=
  [.take raw .active (some sampleCredential), .ensure .connected, .write false]

def firstMessage : Text := (TurnInput.first none).raw

def answeredTurns : List Event :=
  submitted firstMessage ++ [.send (emptyTerminal "r1"), .read, .forward true] ++
    submitted firstMessage ++ [.send (emptyTerminal "r2"), .read, .forward true]

theorem turns_isolated_sample : ∃ s,
    (system (.sample false)).run (system (.sample false)).start answeredTurns = some s ∧
      s.forwarded.length = 2 ∧ Isolated s := by
  have hsample : ((system (.sample false)).run (system (.sample false)).start answeredTurns).any
        (fun s => decide (s.forwarded.length = 2)) = true ∧
      (system (.sample false)).Along Drained (system (.sample false)).start answeredTurns := by
    decide +kernel
  obtain ⟨s, hs, hlength⟩ := (Option.any_eq_true _ _).mp hsample.1
  exact ⟨s, hs, of_decide_eq_true hlength, turns_isolated hsample.2 hs⟩

/-- The upstream sends a second terminal event after the first. -/
def answeredTwice : List Event :=
  submitted firstMessage ++ [.send (emptyTerminal "r1"), .send (emptyTerminal "r2"), .read, .read,
    .forward true] ++ submitted firstMessage ++ [.forward true]

/-- **A frame that is left over.** The next turn forwards and commits it. -/
theorem turn_not_isolated : ∃ s,
    (system (.sample false)).run (system (.sample false)).start answeredTwice = some s ∧
      s.conversation.lastResponseID = "r2" ∧ ¬Isolated s := by
  have hrun : ((system (.sample false)).run (system (.sample false)).start answeredTwice).any
      (fun s => decide (s.conversation.lastResponseID = "r2" ∧ ¬Isolated s)) = true := by
    decide +kernel
  obtain ⟨s, hs, hlast⟩ := (Option.any_eq_true _ _).mp hrun
  exact ⟨s, hs, of_decide_eq_true hlast⟩

end CodexOne.WebSocketSession
