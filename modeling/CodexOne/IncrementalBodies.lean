import CodexOne.Sanitizing
import CodexOne.TurnIsolation

/-!
The incremental body of a turn only reaches the socket that made the last response.

The generation of the last commit tells the socket. That nothing else has been submitted on it since
rests on the exits of a turn: each commits, gives the socket up, or ends the connection, except the
one that is taken when the client leaves.
-/

namespace CodexOne

open Members

lemma Planned.previousResponse_replay {k : Connection} {c : Conversation} {planType : String}
    {turn : Conversation.Turn} {plan : Plan} (h : Planned k c planType turn plan) :
    get plan.replay "previous_response_id" = none := by
  obtain ⟨_, _, _, _, -, -, -, -, -, -, -, ha⟩ := Conversation.planTurn_spec h.run
  obtain ⟨currentInput, -, -, hf⟩ := Conversation.assemble_ok ha plan.identity
  rw [congrArg Plan.replay (h.plan_eq.trans hf)]
  dsimp only
  rw [Conversation.replayObject, get_set_ne _ _ (by decide), get_erase_self]

lemma get_prepareCodexHTTPBodyWithImageTool {d : Digests} {fuel : ℕ} {object body : Obj}
    {model planType : String} {headers : Header} {img : Bool} {i j : Identity} {key : String}
    (h : (Compat.prepareCodexHTTPBodyWithImageTool d fuel object model planType headers img).run i =
      (.ok body, j)) (h1 : key ≠ "tools") (h2 : key ≠ "input") (h3 : key ≠ "parallel_tool_calls") :
    get body key = if key ∈ Compat.httpFields then none else get object key := by
  obtain ⟨sanitized, hs, hbody⟩ := Compat.prepareCodexInferenceObject_ok d h
  rw [hbody, Compat.get_normalizeCodexParallelToolCalls _ _ _ h3,
    Compat.get_sanitizeCodexInputItems hs h2, ← Normalize.get_foldl_erase]
  split_ifs
  · exact Compat.get_ensureCodexImageGenerationTool _ _ _ _ h1
  · rfl

lemma fallbackRequest_ok {d : Digests} {fuel : ℕ} {cfg : Config} {r : Request}
    {credential : Credential} {model : String} {replay : Obj} {i j : Identity}
    {request : UpstreamRequest}
    (h : (fallbackRequest d fuel cfg r credential model replay).run i = (.ok request, j)) :
    ∃ l, (Compat.prepareCodexHTTPBody d fuel (erase replay "type") model credential.planType
        r.headers).run i = (.ok request.body, l) ∧
      (httpHeaders d cfg r credential "text/event-stream").run l = (.ok request.headers, j) := by
  rw [fallbackRequest] at h
  obtain ⟨body, l, hbody, h⟩ := Identity.bind_ok h
  obtain ⟨headers, m, hheaders, h⟩ := Identity.bind_ok h
  obtain ⟨hrequest, hj⟩ := Identity.pure_ok h
  rw [hrequest, hj]
  exact ⟨l, hbody, hheaders⟩

namespace WebSocketSession

variable {k : Connection} {s t : Session} {e : Event}

/-- The full replay of the turn, which goes on from no response: as it was planned, or as it is
prepared for HTTP. -/
def Submission.IsReplay (k : Connection) (sub : Submission) : Prop :=
  get sub.body "previous_response_id" = none ∧
    match sub.socket with
    | some _ => sub.body = sub.plan.replay
    | none => ∃ i j, (fallbackRequest k.digests k.fuel k.cfg k.request sub.credential
        sub.plan.model sub.plan.replay).run i = (.ok ⟨sub.headers, sub.body⟩, j)

/-- The incremental body of a continuation, written to the socket that made the last response right
after that response; or the replay. -/
def Submission.Resolves (k : Connection) (sub : Submission) : Prop :=
  (sub.plan.continuation = true ∧ sub.body = sub.plan.incremental ∧
    ∃ place account, sub.socket = some (place, account) ∧ sub.made = some place) ∨ sub.IsReplay k

/-- No message is taken after a turn has been given up because the client left. -/
def Attended (s : Session) : Event → Prop
  | .take .. => s.abandoned = false
  | _ => True

instance (s : Session) : DecidablePred (Attended s)
  | .take .. => inferInstanceAs (Decidable (s.abandoned = false))
  | .send _ | .read | .die | .leave | .stop | .ensure _ | .write _ | .forward _ | .lost | .abandon
  | .request _ | .stream .. | .finish => inferInstanceAs (Decidable True)

/-- Nothing has been submitted since the last turn ended as it should. -/
def Phase.Before (abandoned : Bool) : Phase → Prop
  | .waiting => abandoned = false
  | .planned .. | .submitting .. => True
  | _ => False

/-- The generation of the last commit tells where the last response was made. -/
structure Attributed (k : Connection) (s : Session) : Prop where
  socket : ∀ u, s.upstream = some u → 1 ≤ u.generation ∧ u.generation ≤ s.nextGeneration
  last : s.conversation.lastGeneration ≤ s.nextGeneration
  http : s.phase.OverHTTP → s.upstream = none
  made : s.phase.Before s.abandoned → ∀ u, s.upstream = some u →
    u.generation = s.conversation.lastGeneration → s.made = some ⟨u.generation, u.written⟩
  replay : ∀ plan, s.phase.plan? = some plan → get plan.replay "previous_response_id" = none
  resolves : ∀ sub ∈ s.submissions, sub.Resolves k

lemma resolves_to {plan : Plan} {credential : Credential} {u : UpstreamSocket}
    (h : Attributed k s) (hp : s.phase = .submitting plan credential) (hu : s.upstream = some u) :
    (Submission.to s u plan credential).Resolves k := by
  unfold Submission.Resolves Submission.to Conversation.bodyFor
  dsimp only
  split_ifs with hincremental
  · -- on the socket of the last response
    obtain ⟨-, hcontinuation, -, hgeneration⟩ := hincremental
    exact .inl ⟨hcontinuation, rfl, _, _, rfl, h.made (by rw [hp]; trivial) u hu hgeneration⟩
  · -- anywhere else
    exact .inr ⟨h.replay plan (by rw [hp]; rfl), rfl⟩

lemma isReplay_fallback {turn : ℕ} {made : Option Place} {plan : Plan} {credential : Credential}
    {request : UpstreamRequest} {i j : Identity}
    (h : (fallbackRequest k.digests k.fuel k.cfg k.request credential plan.model
      plan.replay).run i =
      (.ok request, j)) : Submission.IsReplay k { turn, plan, credential, socket := none
                                                  headers := request.headers, body := request.body
                                                  made } := by
  obtain ⟨_, hbody, -⟩ := fallbackRequest_ok h
  obtain ⟨headers, body⟩ := request
  unfold Submission.IsReplay
  dsimp only at hbody ⊢
  refine ⟨?_, i, j, h⟩
  rw [Compat.prepareCodexHTTPBody] at hbody
  rw [get_prepareCodexHTTPBodyWithImageTool hbody (by decide) (by decide) (by decide),
    if_pos (by decide)]

lemma forall_append {P : Submission → Prop} {subs : List Submission} {sub : Submission}
    (h : ∀ sub ∈ subs, P sub) (hsub : P sub) : ∀ sub' ∈ subs ++ [sub], P sub' := by
  intro sub' hmem
  rcases List.mem_append.mp hmem with hmem | hmem
  · exact h sub' hmem
  · exact List.mem_singleton.mp hmem ▸ hsub

lemma Attributed.without (hup : t.upstream = none)
    (hlast : t.conversation.lastGeneration ≤ t.nextGeneration)
    (hplan : ∀ plan, t.phase.plan? = some plan → get plan.replay "previous_response_id" = none)
    (hsubs : ∀ sub ∈ t.submissions, sub.Resolves k) : Attributed k t where
  socket u hu := by
    rw [hup] at hu
    cases hu
  last := hlast
  http _ := hup
  made _ u hu := by
    rw [hup] at hu
    cases hu
  replay := hplan
  resolves := hsubs

lemma Attributed.onward (h : Attributed k s) {plan : Plan} (hphase : s.phase.Before s.abandoned)
    (hup : t.upstream = s.upstream) (hmade : t.made = s.made)
    (hlast : t.conversation.lastGeneration = s.conversation.lastGeneration)
    (hnext : t.nextGeneration = s.nextGeneration) (hsubs : t.submissions = s.submissions)
    (hhttp : ¬t.phase.OverHTTP) (hplan : t.phase.plan? = some plan)
    (hreplay : get plan.replay "previous_response_id" = none) : Attributed k t where
  socket u hu := by
    rw [hup] at hu
    rw [hnext]
    exact h.socket u hu
  last := by
    rw [hlast, hnext]
    exact h.last
  http hp := absurd hp hhttp
  made _ u hu := by
    rw [hup] at hu
    rw [hlast, hmade]
    exact h.made hphase u hu
  replay plan' hplan' := by
    rw [hplan] at hplan'
    exact Option.some.inj hplan' ▸ hreplay
  resolves := by
    rw [hsubs]
    exact h.resolves

lemma Attributed.move (h : Attributed k s) (hgood : Attended s e) (hmove : Moves k s e t) :
    Attributed k t := by
  cases hmove with
  | @frames _ u v hu hsame =>
    obtain ⟨hgeneration, -, -, hwritten⟩ := hsame
    refine ⟨fun w hw => ?_, h.last, fun hp => ?_, fun hp w hw hlast => ?_, h.replay, h.resolves⟩
    · obtain rfl := Option.some.inj hw
      exact hgeneration ▸ h.socket u hu
    · rw [h.http hp] at hu
      cases hu
    · obtain rfl := Option.some.inj hw
      rw [hgeneration] at hlast ⊢
      rw [hwritten]
      exact h.made hp u hu hlast
  | leaves => exact ⟨h.socket, h.last, h.http, h.made, h.replay, h.resolves⟩
  | closes => exact .without rfl h.last (fun _ hf => by cases hf) h.resolves
  | keeps hp hc =>
    obtain ⟨i, rfl, -⟩ := hc
    exact ⟨h.socket, h.last, h.http, h.made, h.replay, h.resolves⟩
  | ends => exact .without rfl h.last (fun _ hf => by cases hf) h.resolves
  | givesUp _ hused =>
    obtain ⟨i, rfl⟩ := hused.same
    exact .without rfl h.last (fun _ hf => by cases hf) h.resolves
  | abandons =>
    -- the request that is on stays without an answer
    exact ⟨h.socket, h.last, (fun hf => by cases hf), (fun hf => by cases hf),
      (fun _ hf => by cases hf), h.resolves⟩
  | answers hp _ hused =>
    obtain ⟨i, rfl⟩ := hused.same
    exact .without (h.http hp) h.last (fun _ hf => by cases hf) h.resolves
  | plans hp _ hplan =>
    obtain ⟨object, turn, -, -, ⟨hplanned⟩⟩ := planned_of_prepare hplan
    have hattended : s.abandoned = false := hgood
    exact h.onward (by rw [hp]; exact hattended) rfl rfl (by rw [prepare_ok hplan]) rfl rfl id rfl
      hplanned.previousResponse_replay
  | ensures hp =>
    exact h.onward (by rw [hp]; trivial) rfl rfl rfl rfl rfl id rfl (h.replay _ (by rw [hp]; rfl))
  | @dials _ plan _ _ _ _ hp hused =>
    obtain ⟨i, rfl⟩ := hused.same
    have hlast := h.last
    refine ⟨fun w hw => ?_, Nat.le_succ_of_le hlast, (fun hf => by cases hf), fun _ w hw heq => ?_,
      fun plan' hplan' => ?_, h.resolves⟩
    · obtain rfl := Option.some.inj hw
      exact ⟨Nat.le_add_left _ _, le_rfl⟩
    · -- no commit is of the new generation
      obtain rfl := Option.some.inj hw
      change s.nextGeneration + 1 = s.conversation.lastGeneration at heq
      omega
    · rw [← Option.some.inj hplan']
      exact h.replay plan (by rw [hp]; rfl)
  | @falls _ plan _ _ _ hp hused =>
    obtain ⟨i, rfl⟩ := hused.same
    refine .without rfl h.last (fun plan' hplan' => ?_) h.resolves
    rw [← Option.some.inj hplan']
    exact h.replay plan (by rw [hp]; rfl)
  | @writes _ plan _ u hp hu =>
    refine ⟨fun w hw => ?_, h.last, (fun hf => by cases hf), (fun hf => by cases hf),
      fun plan' hplan' => ?_, forall_append h.resolves (resolves_to h hp hu)⟩
    · obtain rfl := Option.some.inj hw
      exact h.socket u hu
    · exact Option.some.inj hplan' ▸ h.replay plan (by rw [hp]; rfl)
  | writeFails hp hu =>
    exact .without rfl h.last (fun _ hf => by cases hf)
      (forall_append h.resolves (resolves_to h hp hu))
  | @forwards _ _ u _ _ hp hu =>
    refine ⟨fun w hw => ?_, h.last, fun hf => ?_, fun hf => ?_, h.replay, h.resolves⟩
    · obtain rfl := Option.some.inj hw
      exact h.socket u hu
    · change s.phase.OverHTTP at hf
      rw [hp] at hf
      cases hf
    · change s.phase.Before s.abandoned at hf
      rw [hp] at hf
      cases hf
  | fails => exact .without rfl h.last (fun _ hf => by cases hf) h.resolves
  | @commits _ _ u _ _ _ hp hu =>
    refine ⟨fun w hw => ?_, (h.socket u hu).2, (fun hf => by cases hf), fun _ w hw _ => ?_,
      (fun _ hf => by cases hf), h.resolves⟩
    · obtain rfl := Option.some.inj hw
      exact h.socket u hu
    · obtain rfl := Option.some.inj hw
      rfl
  | refuses => exact .without rfl h.last (fun _ hf => by cases hf) h.resolves
  | @requests _ plan credential identity c request phase hp hused hrun hphase =>
    obtain ⟨i, rfl⟩ := hused.same
    refine .without (h.http (by rw [hp]; trivial)) h.last (fun plan' hplan' => ?_)
      (forall_append h.resolves (.inr (isReplay_fallback hrun)))
    rcases hphase with rfl | rfl
    · cases hplan'
    · rw [← Option.some.inj hplan']
      exact h.replay plan (by rw [hp]; rfl)
  | stays => exact h
  | commitsHTTP hp =>
    exact .without (h.http (by rw [hp]; trivial)) (Nat.zero_le _) (fun _ hf => by cases hf)
      h.resolves
  | refusesHTTP hp =>
    exact .without (h.http (by rw [hp]; trivial)) h.last (fun _ hf => by cases hf) h.resolves

lemma attributed_start : Attributed k (system k).start :=
  .without rfl le_rfl (fun _ hf => by cases hf) (fun _ hf => by cases hf)

/-- **Incremental bodies.** In every run in which no message is taken after a turn has been given up
because the client left, every body that is submitted is the incremental body of a continuation,
written to the socket that made the last response with nothing submitted there since, or the full
replay. -/
theorem incremental_bodies_resolve {es : List Event}
    (hgood : (system k).Along Attended (system k).start es)
    (hrun : (system k).run (system k).start es = some s) : ∀ sub ∈ s.submissions, sub.Resolves k :=
  (TransitionSystem.run_invariant_along (Attributed k)
    (fun _ _ _ hi hgood hstep => hi.move hgood (step_moves hstep)) attributed_start hgood
    hrun).resolves

def appendMessage : Text :=
  marshal (.obj [("input", .arr []), ("type", .str "response.append")])

/-- A turn that is answered, and a continuation that is submitted. -/
def continued : List Event :=
  submitted firstMessage ++ [.send (emptyTerminal "r1"), .read, .forward true] ++
    submitted appendMessage

/-- The incremental body is written to the socket that made the last response. -/
def Submission.IsIncremental (sub : Submission) : Bool :=
  sub.plan.continuation && decide (get sub.body "previous_response_id" = some (.str "r1")) &&
    decide (sub.socket.map Prod.fst = sub.made)

theorem incremental_bodies_resolve_sample : ∃ s,
    (system (.sample false)).run (system (.sample false)).start continued = some s ∧
      (∃ sub ∈ s.submissions, sub.IsIncremental = true) ∧
      ∀ sub ∈ s.submissions, sub.Resolves (.sample false) := by
  have hsample : ((system (.sample false)).run (system (.sample false)).start continued).any
        (fun s => s.submissions.any (·.IsIncremental)) = true ∧
      (system (.sample false)).Along Attended (system (.sample false)).start continued := by
    decide +kernel
  obtain ⟨s, hs, hsub⟩ := (Option.any_eq_true _ _).mp hsample.1
  exact ⟨s, hs, List.any_eq_true.mp hsub, incremental_bodies_resolve hsample.2 hs⟩

/-- The client leaves while a continuation is forwarded, and another message of its is taken. -/
def overtaken : List Event :=
  continued ++ [.leave, .abandon] ++ submitted appendMessage

/-- The body goes on from a response that was not the last thing on its socket. -/
def Submission.GoesAstray (sub : Submission) : Bool :=
  (get sub.body "previous_response_id").isSome && decide (sub.socket.map Prod.fst ≠ sub.made)

lemma not_resolves_of_goesAstray {sub : Submission} (h : sub.GoesAstray = true) :
    ¬sub.Resolves k := by
  rw [Submission.GoesAstray, Bool.and_eq_true, decide_eq_true_eq] at h
  rintro (⟨-, -, place, account, hsocket, hmade⟩ | ⟨hnone, -⟩)
  · exact h.2 (by rw [hsocket, hmade, Option.map_some])
  · rw [hnone] at h
    exact absurd h.1 (by simp)

/-- **A message after the client has left.** Its incremental body goes to a socket on which another
turn has been submitted since the last response. -/
theorem incremental_body_astray : ∃ s,
    (system (.sample false)).run (system (.sample false)).start overtaken = some s ∧
      ∃ sub ∈ s.submissions, ¬sub.Resolves (.sample false) := by
  have hsample : ((system (.sample false)).run (system (.sample false)).start overtaken).any
      (fun s => s.submissions.any (·.GoesAstray)) = true := by
    decide +kernel
  obtain ⟨s, hs, hany⟩ := (Option.any_eq_true _ _).mp hsample
  obtain ⟨sub, hsub, hbad⟩ := List.any_eq_true.mp hany
  exact ⟨s, hs, sub, hsub, not_resolves_of_goesAstray hbad⟩

end WebSocketSession

end CodexOne
