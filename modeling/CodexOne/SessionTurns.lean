import CodexOne.Submitted
import CodexOne.TurnIsolation

/-!
A session takes the turns of its connection one after the other.

Between two turns the conversation of a session is that of a run of turns. Within a turn it is
what `prepare` and the uses of the identity have made of it, and every body that is submitted is
that of the plan of this turn.
-/

namespace CodexOne

namespace Connection

variable {k : Connection} {c d : Conversation} {plan : Plan} {ts : List TurnInput} {t : TurnInput}

@[simp] lemma run_concat : k.run c (ts ++ [t]) = (k.turn (k.run c ts) t).2 := by
  rw [run, List.foldl_append]
  rfl

lemma use_identity (plan : Plan) (identity : Identity) :
    k.use { plan with identity } = k.use plan := by
  funext i u
  cases u <;> rw [use, use]

lemma afterUses_nil (h : c = { c with identity := c.identity.map fun _ => plan.identity }) :
    k.afterUses [] plan c = (plan, c) := by
  unfold afterUses
  rw [List.foldl_nil]
  exact Prod.ext rfl h.symm

lemma afterUses_append (uses us : List Use) (plan : Plan) (c : Conversation) :
    k.afterUses (uses ++ us) plan c =
      k.afterUses us (k.afterUses uses plan c).1 (k.afterUses uses plan c).2 := by
  simp only [afterUses, List.foldl_append, use_identity, Option.map_map, Function.comp_def]

end Connection

/-- What the client sends, and the plan of the account it is answered with. -/
def TurnInput.message (t : TurnInput) : Text × String := (t.raw, t.planType)

namespace WebSocketSession

open Connection GoStrings

/-- The message that a step hands to `prepare`. -/
def Event.message? (k : Connection) : Event → Option (Text × String)
  | .take raw .active (some credential) =>
    if trimSpace (k.request.keyID.getD "") = "" then none else some (raw, credential.planType)
  | _ => none

def messages (k : Connection) (es : List Event) : List (Text × String) :=
  es.filterMap (Event.message? k)

/-- Where a session stands: between two turns, or within one that has been planned. The messages
are those of the turns, and of the one that is on. -/
inductive Stands (k : Connection) (ts : List TurnInput) :
    List (Text × String) → Conversation → Option Plan → Prop
  | between : Stands k ts (ts.map TurnInput.message) (k.run k.start ts) none
  | within {raw planType plan c} (uses : List Use)
      (hprep : k.prepare (k.run k.start ts) raw planType = (.ok plan, c)) :
      Stands k ts (ts.map TurnInput.message ++ [(raw, planType)]) (k.afterUses uses plan c).2
        (some (k.afterUses uses plan c).1)

variable {k : Connection} {ts : List TurnInput} {told : List (Text × String)} {c d : Conversation}
  {plan : Plan}

lemma Stands.rejects (h : Stands k ts told c none) {raw : Text} {planType e : String}
    (hprep : k.prepare c raw planType = (.error e, d)) :
    Stands k (ts ++ [⟨raw, planType, [], none⟩]) (told ++ [(raw, planType)]) d none := by
  generalize hp : (none : Option Plan) = p at h
  cases h with
  | within => cases hp
  | between =>
    have hstands : Stands k (ts ++ [⟨raw, planType, [], none⟩]) _ _ none := .between
    rw [run_concat, turn, hprep, List.map_append] at hstands
    exact hp ▸ hstands

lemma Stands.plans (h : Stands k ts told c none) {raw : Text} {planType : String}
    (hprep : k.prepare c raw planType = (.ok plan, d)) :
    Stands k ts (told ++ [(raw, planType)]) d (some plan) := by
  generalize hp : (none : Option Plan) = p at h
  cases h with
  | within => cases hp
  | between =>
    have hnil : k.afterUses [] plan d = (plan, d) := afterUses_nil (by
      rw [prepare_ok hprep, Option.map_map]
      rfl)
    have hstands := Stands.within [] hprep
    rwa [hnil] at hstands

lemma Stands.uses (h : Stands k ts told c (some plan)) (us : List Use) :
    Stands k ts told (k.afterUses us plan c).2 (some (k.afterUses us plan c).1) := by
  generalize hp : some plan = p at h
  cases h with
  | between => cases hp
  | within uses hprep =>
    obtain rfl := Option.some.inj hp
    rw [← afterUses_append]
    exact .within (uses ++ us) hprep

lemma Stands.ends (h : Stands k ts told c (some plan)) (outcome : Option (Text × ℕ)) :
    ∃ t, t.outcome = outcome ∧ Stands k (ts ++ [t]) told (c.settle plan outcome) none := by
  generalize hp : some plan = p at h
  cases h with
  | between => cases hp
  | @within raw planType plan d uses hprep =>
    obtain rfl := Option.some.inj hp
    have hstands : Stands k (ts ++ [⟨raw, planType, uses, outcome⟩]) _ _ none := .between
    rw [run_concat, turn, hprep, List.map_append] at hstands
    exact ⟨⟨raw, planType, uses, outcome⟩, rfl, hstands⟩

/-- A body of the plan of a turn: for the socket, or as the HTTP request that falls back. -/
def Submission.Carries (k : Connection) (c : Conversation) (sub : Submission) : Prop :=
  match sub.socket with
  | some (place, _) => sub.body = c.bodyFor sub.plan place.generation false
  | none => ∃ request i, (fallbackRequest k.digests k.fuel k.cfg k.request sub.credential
      sub.plan.model sub.plan.replay).run sub.plan.identity = (.ok request, i) ∧
        sub.headers = request.headers ∧ sub.body = request.body

def Submission.over (s : Session) (plan : Plan) (credential : Credential)
    (request : UpstreamRequest) : Submission where
  turn := s.turns
  plan := plan
  credential := credential
  socket := none
  headers := request.headers
  body := request.body
  made := s.made

lemma carries_over {s : Session} {credential : Credential} {request : UpstreamRequest}
    {identity : Identity} (h : (fallbackRequest k.digests k.fuel k.cfg k.request credential
      plan.model plan.replay).run plan.identity = (.ok request, identity)) :
    (Submission.over s plan credential request).Carries k c := by
  simp only [Submission.Carries, Submission.over]
  exact ⟨request, identity, h, rfl, rfl⟩

/-- The submission has been made in a turn of these, or in the one that is on. -/
def Submission.Made (k : Connection) (ts : List TurnInput) (told : List (Text × String))
    (sub : Submission) : Prop :=
  ∃ before known c, before <+: ts ∧ known <+: told ∧ Stands k before known c (some sub.plan) ∧
    sub.Carries k c

lemma Submission.Made.mono {sub : Submission} (h : sub.Made k ts told) (us : List TurnInput)
    (more : List (Text × String)) : sub.Made k (ts ++ us) (told ++ more) := by
  obtain ⟨before, known, c, hbefore, hknown, hrest⟩ := h
  exact ⟨before, known, c, hbefore.trans (List.prefix_append ts us),
    hknown.trans (List.prefix_append told more), hrest⟩

/-- The event that a step reads from the upstream. -/
def Session.heard? (s : Session) : Event → Option Text
  | .forward true => (s.upstream.bind (·.events.head?)).map fun frame =>
      normalizeWebSocketTerminal frame.payload
  | .stream payload true => some (normalizeWebSocketTerminal payload)
  | _ => none

/-- The step reads events of one kind only. -/
def Hears (good : Text → Prop) (s : Session) (e : Event) : Prop := ∀ x ∈ s.heard? e, good x

instance {good : Text → Prop} [DecidablePred good] (s : Session) (e : Event) :
    Decidable (Hears good s e) := Option.decidableForallMem (s.heard? e)

/-- The turns that a session has taken, with terminal events of one kind. -/
structure Takes (k : Connection) (good : Text → Prop) (ts : List TurnInput)
    (told : List (Text × String)) (s : Session) : Prop where
  stands : Stands k ts told s.conversation s.phase.plan?
  made : ∀ sub ∈ s.submissions, sub.Made k ts told
  heard : ∀ t ∈ ts, ∀ o ∈ t.outcome, good o.1

/-! ### Steps -/

variable {good : Text → Prop} {s t : Session} {credential : Credential} {u : UpstreamSocket}

lemma Takes.goes (h : Takes k good ts told s) (hstands : Stands k ts told c (some plan))
    (hmade : ∀ sub ∈ t.submissions, sub.Made k ts told) (hc : t.conversation = c)
    (hp : t.phase.plan? = some plan ∨ t.phase.plan? = none) : ∃ ts, Takes k good ts told t := by
  rcases hp with hp | hp
  · exact ⟨ts, by rw [hc, hp]; exact hstands, hmade, h.heard⟩
  · obtain ⟨turn, hnone, hturn⟩ := hstands.ends none
    refine ⟨ts ++ [turn], by rw [hc, hp]; exact hturn, fun sub hsub => ?_, fun x hx o ho => ?_⟩
    · simpa using (hmade sub hsub).mono [turn] []
    · rcases List.mem_append.mp hx with hx | hx
      · exact h.heard x hx o ho
      · rw [List.mem_singleton.mp hx, hnone] at ho
        cases ho

lemma Takes.commits (h : Takes k good ts told s) (hstands : Stands k ts told c (some plan))
    (hmade : ∀ sub ∈ t.submissions, sub.Made k ts told) {event : Text} (generation : ℕ)
    (hgood : good event) (hc : t.conversation = c.settle plan (some (event, generation)))
    (hp : t.phase.plan? = none) : ∃ ts, Takes k good ts told t := by
  obtain ⟨turn, hsome, hturn⟩ := hstands.ends (some (event, generation))
  refine ⟨ts ++ [turn], by rw [hc, hp]; exact hturn, fun sub hsub => ?_, fun x hx o ho => ?_⟩
  · simpa using (hmade sub hsub).mono [turn] []
  · rcases List.mem_append.mp hx with hx | hx
    · exact h.heard x hx o ho
    · rw [List.mem_singleton.mp hx, hsome] at ho
      obtain rfl := Option.some.inj ho
      exact hgood

lemma Takes.within (h : Takes k good ts told s) (hp : s.phase.plan? = some plan) :
    Stands k ts told s.conversation (some plan) := hp ▸ h.stands

lemma Takes.submits (h : Takes k good ts told s) {sub : Submission}
    (hp : s.phase.plan? = some sub.plan) (hsub : sub.Carries k s.conversation) :
    ∀ x ∈ s.submissions ++ [sub], x.Made k ts told := by
  intro x hx
  rcases List.mem_append.mp hx with hx | hx
  · exact h.made x hx
  · obtain rfl := List.mem_singleton.mp hx
    exact ⟨ts, told, _, List.prefix_rfl, List.prefix_rfl, h.within hp, hsub⟩

lemma takes_take (h : Takes k good ts told s) (hp : s.phase = .waiting) (raw : Text)
    (key : KeyCheck)
    (cred : Option Credential) :
    ∃ ts, Takes k good ts (told ++ (Event.message? k (.take raw key cred)).toList)
      (takeStep k s raw key cred) := by
  have hnone : s.phase.plan? = none := by rw [hp]; rfl
  have hstands := h.stands
  rw [hnone] at hstands
  unfold takeStep
  by_cases hkey : trimSpace (k.request.keyID.getD "") = ""
  · -- without an API key no turn begins
    rw [if_pos hkey]
    have hmessage : Event.message? k (.take raw key cred) = none := by
      unfold Event.message?
      split <;> simp_all
    rw [hmessage, Option.toList_none, List.append_nil]
    exact ⟨ts, hstands, h.made, h.heard⟩
  · rw [if_neg hkey]
    cases key with
    | revoked =>
      rw [show Event.message? k (.take raw .revoked cred) = none from rfl, Option.toList_none,
        List.append_nil]
      exact ⟨ts, hstands, h.made, h.heard⟩
    | unavailable =>
      rw [show Event.message? k (.take raw .unavailable cred) = none from rfl, Option.toList_none,
        List.append_nil]
      exact ⟨ts, h⟩
    | active =>
      cases cred with
      | none =>
        rw [show Event.message? k (.take raw .active none) = none from rfl, Option.toList_none,
          List.append_nil]
        exact ⟨ts, h.stands, h.made, h.heard⟩
      | some credential =>
        have hmessage : Event.message? k (.take raw .active (some credential)) =
            some (raw, credential.planType) := if_neg hkey
        rw [hmessage, Option.toList_some]
        dsimp only
        rcases hprep : k.prepare s.conversation raw credential.planType with ⟨e | plan, c⟩
        · have hrejects := hstands.rejects hprep
          rw [← hnone] at hrejects
          refine ⟨_, hrejects, fun sub hsub => (h.made sub hsub).mono _ _, fun x hx o ho => ?_⟩
          rcases List.mem_append.mp hx with hx | hx
          · exact h.heard x hx o ho
          · rw [List.mem_singleton.mp hx] at ho
            cases ho
        · refine ⟨ts, hstands.plans hprep, fun sub hsub => ?_, h.heard⟩
          simpa using (h.made sub hsub).mono [] [(raw, credential.planType)]

lemma takes_withoutUpstream (h : Takes k good ts told s) (hstands : Stands k ts told c (some plan))
    (hmade : ∀ sub ∈ t.submissions, sub.Made k ts told) (hc : t.conversation = c) :
    ∃ ts, Takes k good ts told (withoutUpstream k t plan credential) := by
  unfold withoutUpstream
  split_ifs
  · exact h.goes hstands hmade hc (.inl rfl)
  · exact h.goes hstands hmade hc (.inr rfl)

lemma takes_dial (h : Takes k good ts told s) (hp : s.phase.plan? = some plan) (dial : Dial) :
    ∃ ts, Takes k good ts told (dialUpstream k s plan credential dial) := by
  have hstands := h.within hp
  have hused := hstands.uses [.dial credential]
  cases dial with
  | cooldown => exact takes_withoutUpstream (t := s.closeUpstream) h hstands h.made rfl
  | failed =>
    exact takes_withoutUpstream (t := s.closeUpstream.withIdentity _) h hused h.made rfl
  | connected =>
    unfold dialUpstream
    rcases hrun : (dialHeaders k.digests k.cfg k.request credential).run plan.identity with
      ⟨e | headers, identity⟩
    · have hidentity : k.use plan plan.identity (.dial credential) = identity := by
        rw [use, hrun]
      rw [afterUses, List.foldl_cons, List.foldl_nil, hidentity] at hused
      exact takes_withoutUpstream (t := s.closeUpstream.withIdentity _) h hused h.made rfl
    · have hidentity : k.use plan plan.identity (.dial credential) = identity := by
        rw [use, hrun]
      rw [afterUses, List.foldl_cons, List.foldl_nil, hidentity] at hused
      exact h.goes hused h.made rfl (.inl rfl)

lemma takes_ensure (h : Takes k good ts told s) (hp : s.phase = .planned plan credential)
    (dial : Dial) :
    ∃ ts, Takes k good ts told (ensureStep k s plan credential dial) := by
  have hplan : s.phase.plan? = some plan := by rw [hp]; rfl
  unfold ensureStep
  split
  · split_ifs
    · exact h.goes (h.within hplan) h.made rfl (.inl rfl)
    · exact takes_dial h hplan dial
  · exact takes_dial h hplan dial

lemma takes_write (h : Takes k good ts told s) (hp : s.phase = .submitting plan credential)
    (fails : Bool) :
    ∃ ts, Takes k good ts told (writeStep s u plan credential fails) := by
  have hplan : s.phase.plan? = some plan := by rw [hp]; rfl
  have hmade : ∀ sub ∈ s.submissions ++ [.to s u plan credential], sub.Made k ts told :=
    h.submits hplan rfl
  unfold writeStep
  split_ifs
  · exact h.goes (h.within hplan) h.made rfl (.inr rfl)
  · exact h.goes (h.within hplan) hmade rfl (.inr rfl)
  · exact h.goes (h.within hplan) hmade rfl (.inl rfl)

lemma takes_commit (h : Takes k good ts told s)
    (hstands : Stands k ts told t.conversation (some plan))
    (hmade : ∀ sub ∈ t.submissions, sub.Made k ts told) {event : Text} (hgood : good event)
    (generation : ℕ) (place : Option Place) (rejected : Session)
    (hc : rejected.conversation = t.conversation) (hp : rejected.phase.plan? = none)
    (hs : rejected.submissions = t.submissions) :
    ∃ ts, Takes k good ts told (match t.commit plan event generation place with
      | some s => s.rest
      | none => rejected) := by
  cases hcommit : t.commit plan event generation place with
  | none => exact h.goes hstands (hs ▸ hmade) hc (.inr hp)
  | some v =>
    obtain ⟨e, hacc, rfl⟩ := commit_some hcommit
    refine h.commits hstands hmade generation hgood ?_ rfl
    rw [Conversation.settle, Conversation.commit_ok_iff.mpr ⟨e, hacc, rfl⟩]
    rfl

lemma takes_forward (h : Takes k good ts told s) (hp : s.phase = .forwarding plan)
    {frame : UpstreamFrame} {frames : List UpstreamFrame} {reaches : Bool}
    (hu : s.upstream = some u) (hf : u.events = frame :: frames)
    (hgood : Hears good s (.forward reaches)) :
    ∃ ts, Takes k good ts told (forwardStep s u frame frames plan reaches) := by
  have hstands : Stands k ts told s.conversation (some plan) := h.within (by rw [hp]; rfl)
  unfold forwardStep
  cases reaches with
  | false => exact h.goes hstands h.made rfl (.inr rfl)
  | true =>
    rw [if_neg (by simp)]
    cases hkind : eventKind (normalizeWebSocketTerminal frame.payload) with
    | other =>
      rw [deliver_other (by simp [hkind])]
      exact h.goes hstands h.made rfl (.inl (by rw [hp]; rfl))
    | failure =>
      rw [deliver_other (by simp [hkind])]
      exact h.goes hstands h.made rfl (.inr rfl)
    | success =>
      rw [deliver_success hkind]
      refine takes_commit h ?_ ?_ (hgood _ ?_) _ _ _ ?_ ?_ ?_
      · exact hstands
      · exact h.made
      · rw [Session.heard?, hu, Option.bind_some, hf]
        rfl
      · rfl
      · rfl
      · rfl

lemma takes_request (h : Takes k good ts told s) (hp : s.phase = .fallback plan credential)
    (accepted : Bool) :
    ∃ ts, Takes k good ts told (requestStep k s plan credential accepted) := by
  have hplan : s.phase.plan? = some plan := by rw [hp]; rfl
  have hused := (h.within hplan).uses [.fallback credential]
  unfold requestStep
  rcases hrun : (fallbackRequest k.digests k.fuel k.cfg k.request credential plan.model
    plan.replay).run plan.identity with ⟨e | request, identity⟩
  all_goals
    have hidentity : k.use plan plan.identity (.fallback credential) = identity := by
      rw [use, hrun]
    rw [afterUses, List.foldl_cons, List.foldl_nil, hidentity] at hused
  · exact h.goes hused h.made rfl (.inr rfl)
  · have hmade : ∀ sub ∈ s.submissions ++ [.over s plan credential request],
        sub.Made k ts told := h.submits hplan (carries_over hrun)
    dsimp only
    split_ifs
    · exact h.goes hused hmade rfl (.inl rfl)
    · exact h.goes hused hmade rfl (.inr rfl)

lemma takes_stream (h : Takes k good ts told s) (hp : s.phase = .streaming plan) {payload : Text}
    {reaches : Bool} (hgood : Hears good s (.stream payload reaches)) :
    ∃ ts, Takes k good ts told (streamStep s plan payload reaches) := by
  have hstands : Stands k ts told s.conversation (some plan) := h.within (by rw [hp]; rfl)
  unfold streamStep
  split_ifs with hempty hreach
  · exact ⟨ts, h⟩
  · exact h.goes hstands h.made rfl (.inr rfl)
  · rw [Bool.not_eq_false] at hreach
    subst hreach
    dsimp only
    cases hkind : eventKind (normalizeWebSocketTerminal payload) with
    | other =>
      rw [deliver_other (by simp [hkind])]
      exact ⟨ts, h⟩
    | failure =>
      rw [deliver_other (by simp [hkind])]
      exact h.goes hstands h.made rfl (.inr rfl)
    | success =>
      rw [deliver_success hkind]
      refine takes_commit h ?_ ?_ (hgood _ rfl) _ _ _ ?_ ?_ ?_
      · exact hstands
      · exact h.made
      · rfl
      · rfl
      · rfl

lemma takes_reader {e : Event} (h : Takes k good ts told s)
    (hstep : (s.upstream.bind (readerStep · e)).map (fun u => { s with upstream := some u }) =
      some t) : ∃ ts, Takes k good ts told t := by
  obtain ⟨v, -, rfl⟩ := Option.map_eq_some_iff.mp hstep
  exact ⟨ts, h.stands, h.made, h.heard⟩

/-- **One step.** Every step stays within a turn, begins one, or ends one. -/
theorem takes_step {e : Event} (h : Takes k good ts told s) (hgood : Hears good s e)
    (hstep : step k s e = some t) :
    ∃ ts, Takes k good ts (told ++ (Event.message? k e).toList) t := by
  cases e with
  | take raw key cred =>
    rw [step] at hstep
    split at hstep
    · exact Option.some.inj hstep ▸ takes_take h ‹_› raw key cred
    · cases hstep
  | _ => ?_
  -- the other steps hand no message to `prepare`
  all_goals rw [show Event.message? k _ = none from rfl, Option.toList_none, List.append_nil]
  case send payload => exact takes_reader h hstep
  case read => exact takes_reader h hstep
  case die => exact takes_reader h hstep
  case leave => exact Option.some.inj hstep ▸ ⟨ts, h.stands, h.made, h.heard⟩
  case stop =>
    rw [step] at hstep
    split at hstep
    · rename_i hp
      split_ifs at hstep
      have hstands := h.stands
      rw [hp] at hstands
      exact Option.some.inj hstep ▸ ⟨ts, hstands, h.made, h.heard⟩
    · cases hstep
  case ensure dial =>
    rw [step] at hstep
    split at hstep
    · exact Option.some.inj hstep ▸ takes_ensure h ‹_› dial
    · cases hstep
  case write fails =>
    rw [step] at hstep
    split at hstep
    · exact Option.some.inj hstep ▸ takes_write h ‹_› fails
    · cases hstep
  case forward reaches =>
    rw [step] at hstep
    split at hstep
    · split at hstep
      · exact Option.some.inj hstep ▸ takes_forward h ‹_› ‹_› ‹_› hgood
      · cases hstep
    · cases hstep
  case lost =>
    rw [step] at hstep
    split at hstep
    · rename_i hp _
      split_ifs at hstep
      exact Option.some.inj hstep ▸ h.goes (h.within (by rw [hp]; rfl)) h.made rfl (.inr rfl)
    · cases hstep
  case abandon =>
    rw [step] at hstep
    split at hstep
    · rename_i hp
      split_ifs at hstep
      exact Option.some.inj hstep ▸ h.goes (h.within (by rw [hp]; rfl)) h.made rfl (.inr rfl)
    · cases hstep
  case request accepted =>
    rw [step] at hstep
    split at hstep
    · exact Option.some.inj hstep ▸ takes_request h ‹_› accepted
    · cases hstep
  case stream payload reaches =>
    rw [step] at hstep
    split at hstep
    · exact Option.some.inj hstep ▸ takes_stream h ‹_› hgood
    · cases hstep
  case finish =>
    rw [step] at hstep
    split at hstep
    · rename_i hp
      exact Option.some.inj hstep ▸ h.goes (h.within (by rw [hp]; rfl)) h.made rfl (.inr rfl)
    · cases hstep

lemma takes_run {es : List Event} (h : Takes k good ts told s)
    (hgood : (system k).Along (Hears good) s es) (hrun : (system k).run s es = some t) :
    ∃ ts, Takes k good ts (told ++ messages k es) t := by
  induction es generalizing s ts told with
  | nil =>
    obtain rfl := Option.some.inj hrun
    exact ⟨ts, by simpa [messages] using h⟩
  | cons e es ih =>
    obtain ⟨v, hv, hrun⟩ := TransitionSystem.run_cons.mp hrun
    obtain ⟨us, hus⟩ := takes_step h hgood.1 hv
    obtain ⟨vs, hvs⟩ := ih hus (hgood.2 v hv) hrun
    refine ⟨vs, ?_⟩
    have hmessages : messages k (e :: es) = (Event.message? k e).toList ++ messages k es := by
      rw [messages, List.filterMap_cons]
      cases Event.message? k e <;> rfl
    rwa [hmessages, ← List.append_assoc]

/-- **Sessions take turns.** In every run a session stands between two turns of its connection, or
within one, whatever the upstream and its reader do meanwhile. The turns are those of the messages
it has read, in order, and end with events that it has read from the upstream; and each body that it
has submitted is that of the plan which a turn has made of the conversation. -/
theorem session_takes_turns {es : List Event}
    (hgood : (system k).Along (Hears good) (system k).start es)
    (h : (system k).run (system k).start es = some s) :
    ∃ ts, Stands k ts (messages k es) s.conversation s.phase.plan? ∧
      (∀ t ∈ ts, ∀ o ∈ t.outcome, good o.1) ∧
      ∀ sub ∈ s.submissions, sub.Made k ts (messages k es) := by
  have hstart : Takes k good [] [] (system k).start :=
    ⟨.between, fun _ hsub => (by cases hsub), fun _ ht => (by cases ht)⟩
  obtain ⟨ts, hts⟩ := takes_run hstart hgood h
  exact ⟨ts, hts.stands, hts.heard, hts.made⟩

/-- A turn that is answered with a message, the end of the socket, and a continuation that falls
back to HTTP. -/
def fallenBack : List Event :=
  submitted firstMessage ++ [.send (((messageTurn "msg_x").outcome.map Prod.fst).getD []), .read,
    .forward true, .die, .take nextMessage .active (some sampleCredential), .ensure .failed,
    .request true]

theorem session_takes_turns_sample : ∃ s,
    (system (.sample false)).run (system (.sample false)).start fallenBack = some s ∧
      s.submissions.map (·.socket.isSome) = [true, false] ∧
      ∃ ts, Stands (.sample false) ts (messages (.sample false) fallenBack) s.conversation
          s.phase.plan? ∧
        (∀ t ∈ ts, ∀ o ∈ t.outcome, eventKind o.1 = .success) ∧
        ∀ sub ∈ s.submissions,
          sub.Made (.sample false) ts (messages (.sample false) fallenBack) := by
  have hsample : ((system (.sample false)).run (system (.sample false)).start fallenBack).any
        (fun s => decide (s.submissions.map (·.socket.isSome) = [true, false])) = true ∧
      (system (.sample false)).Along (Hears (eventKind · = .success)) (system (.sample false)).start
        fallenBack := by
    decide +kernel
  obtain ⟨s, hs, hsockets⟩ := (Option.any_eq_true _ _).mp hsample.1
  exact ⟨s, hs, of_decide_eq_true hsockets, session_takes_turns hsample.2 hs⟩

/-- A response whose items follow the rules when they are sent back. -/
def AnswersWell (x : Text) : Prop :=
  ∀ e ∈ Conversation.Terminal.decode x, ∀ raw ∈ e.output, ReplaysWell raw

instance : DecidablePred AnswersWell := fun x =>
  Option.decidableForallMem (Conversation.Terminal.decode x)

lemma mem_nextHistory {output : List Raw} {raw : Raw} (h : raw ∈ c.nextHistory plan output) :
    raw ∈ c.history ∨ raw ∈ plan.currentInput ∨ raw ∈ output := by
  unfold Conversation.nextHistory at h
  have hmem := mem_mergeWebSocketItems h
  simp only [List.flatten_cons, List.flatten_nil, List.append_nil, List.mem_append] at hmem
  split_ifs at hmem
  · exact .inr hmem
  · rcases hmem with hmem | hmem
    · have hold := mem_mergeWebSocketItems hmem
      simp only [List.flatten_cons, List.flatten_nil, List.append_nil, List.mem_append] at hold
      exact hold.imp_right .inl
    · exact .inr (.inr hmem)

/-- The history of a run whose responses answer well is replayed well. -/
lemma replaysWell_run (h : ∀ t ∈ ts, ∀ o ∈ t.outcome, AnswersWell o.1) :
    ∀ raw ∈ (k.run k.start ts).history, ReplaysWell raw := by
  induction ts using List.reverseRecOn with
  | nil => exact fun _ hraw => by cases hraw
  | append_singleton ts t ih =>
    have hbefore := ih fun x hx => h x (List.mem_append_left _ hx)
    have hstep := turn_step k (k.run k.start ts) t
    rw [run_concat]
    generalize k.committedTurn (k.run k.start ts) t = ct at hstep
    generalize (k.turn (k.run k.start ts) t).2 = c at hstep
    cases hstep with
    | idle i => exact hbefore
    | commit hd hr hp ho ha =>
      obtain ⟨hp⟩ := hp
      intro raw hraw
      rcases mem_nextHistory hraw with hraw | hraw | hraw
      · exact hbefore raw hraw
      · exact hp.replaysWell (canon_decodeObject hd) hr raw hraw
      · exact h t (List.mem_append_right _ (List.mem_singleton.mpr rfl)) _ ho _ ha.1 raw hraw

lemma Stands.planned (h : Stands k ts told c (some plan)) :
    ∃ object turn planType raw, decodeObject raw = some object ∧
      (k.run k.start ts).readObject object = .ok turn ∧
      Nonempty (Planned k (k.run k.start ts) planType turn plan) := by
  generalize hx : some plan = p at h
  cases h with
  | between => cases hx
  | @within raw planType plan d uses hprep =>
    obtain rfl := Option.some.inj hx
    obtain ⟨object, turn, hd, hr, ⟨hp⟩⟩ := planned_of_prepare hprep
    refine ⟨object, turn, planType, raw, hd, hr, ⟨hp.fixed, hp.before, hp.after, hp.result,
      hp.identity, hp.run, ?_⟩⟩
    have hplan := Conversation.planTurn_plan hp.run plan.identity
      (k.afterUses uses plan d).1.identity
    rw [hplan, ← hp.plan_eq]
    rfl

lemma Submission.Made.sanitized {sub : Submission} (h : sub.Made k ts told)
    (hts : ∀ t ∈ ts, ∀ o ∈ t.outcome, AnswersWell o.1) : SanitizedBody sub.body := by
  obtain ⟨before, known, c, hbefore, -, hstands, hcarries⟩ := h
  obtain ⟨object, turn, planType, raw, hd, hr, ⟨hp⟩⟩ := hstands.planned
  have hhistory : ∀ raw ∈ (k.run k.start before).history, ReplaysWell raw :=
    replaysWell_run fun t ht => hts t (hbefore.subset ht)
  unfold Submission.Carries at hcarries
  split at hcarries
  · rw [hcarries, Conversation.bodyFor]
    split_ifs
    · exact hp.sanitized_incremental hr
    · exact hp.sanitized_replay (canon_decodeObject hd) hr hhistory
  · obtain ⟨request, i, hrun, -, hbody⟩ := hcarries
    rw [hbody]
    exact sanitized_fallback (hp.store_replay hr) hrun

/-- **Sanitized sessions.** While the upstream answers with items that follow the rules when they
are sent back, every body that a session submits follows them, however its turns, sockets and
fallbacks follow each other. -/
theorem session_bodies_sanitized {es : List Event}
    (hgood : (system k).Along (Hears AnswersWell) (system k).start es)
    (h : (system k).run (system k).start es = some s) :
    ∀ sub ∈ s.submissions, SanitizedBody sub.body := by
  have hstart : Takes k AnswersWell [] [] (system k).start :=
    ⟨.between, fun _ hsub => (by cases hsub), fun _ ht => (by cases ht)⟩
  obtain ⟨ts, hts⟩ := takes_run hstart hgood h
  exact fun sub hsub => (hts.made sub hsub).sanitized hts.heard

theorem session_bodies_sanitized_sample : ∃ s,
    (system (.sample false)).run (system (.sample false)).start fallenBack = some s ∧
      s.submissions.map (·.socket.isSome) = [true, false] ∧
      ∀ sub ∈ s.submissions, SanitizedBody sub.body := by
  have hsample : ((system (.sample false)).run (system (.sample false)).start fallenBack).any
        (fun s => decide (s.submissions.map (·.socket.isSome) = [true, false])) = true ∧
      (system (.sample false)).Along (Hears AnswersWell) (system (.sample false)).start
        fallenBack := by
    decide +kernel
  obtain ⟨s, hs, hsockets⟩ := (Option.any_eq_true _ _).mp hsample.1
  exact ⟨s, hs, of_decide_eq_true hsockets, session_bodies_sanitized hsample.2 hs⟩

end WebSocketSession

end CodexOne
