import CodexOne.Exposure
import CodexOne.IncrementalBodies

/-!
The session of a body and the session of its headers.

`prepareBody` puts the upstream session into the body and `applyHeaders` into the headers. For an
HTTP request both use one identity. On a connection the headers are those the socket was dialled
with, so the identity has to be of the same session for as long as the socket is used.
-/

namespace CodexOne

open GoStrings Members

/-- A header that carries the session, in any case. -/
def isSessionHeader (name : String) : Bool :=
  ["Session-Id", "Session_id", "session_id", "Conversation_id"].any (equalFold name ·)

/-- The session is carried, and every header that carries one carries this one. -/
structure NamesSession (headers : Header) (session : String) : Prop where
  carried : get headers "Session-Id" = some [session] ∨ get headers "session_id" = some [session]
  only : ∀ m ∈ headers, isSessionHeader m.1 = true → m.2 = [session]

lemma NamesSession.keep {headers : Header} {session name : String}
    (h : NamesSession headers session)
    (values : List String) (hname : isSessionHeader name = false) :
    NamesSession (Members.set headers name values) session where
  carried := by
    have h1 : "Session-Id" ≠ name := by
      rintro rfl
      exact absurd hname (by decide)
    have h2 : "session_id" ≠ name := by
      rintro rfl
      exact absurd hname (by decide)
    rw [get_set_ne _ _ h1, get_set_ne _ _ h2]
    exact h.carried
  only m hm hsession := by
    rcases mem_set hm with rfl | hm
    · rw [hname] at hsession
      cases hsession
    · exact h.only m hm hsession

lemma NamesSession.setSession {headers : Header} {session : String} (name : String)
    (h : ∀ m ∈ headers, isSessionHeader m.1 = true → m.2 = [session])
    (hcarried : (Members.get (Members.set headers name [session]) "Session-Id" = some [session]) ∨
      Members.get (Members.set headers name [session]) "session_id" = some [session]) :
    NamesSession (Members.set headers name [session]) session where
  carried := hcarried
  only m hm hsession := by
    rcases mem_set hm with rfl | hm
    · rfl
    · exact h m hm hsession

namespace Identity

variable {d : Digests} {i j : Identity}

lemma not_isSessionHeader_deleted {target : Header} {m : String × List String}
    (h : m ∈ (((target.deleteFold "Session-Id").deleteFold "Session_id").deleteFold
      "session_id").deleteFold "Conversation_id") : isSessionHeader m.1 = false := by
  simp only [Header.deleteFold, List.mem_filter, Bool.not_eq_eq_eq_not, Bool.not_true] at h
  obtain ⟨⟨⟨⟨-, h1⟩, h2⟩, h3⟩, h4⟩ := h
  simp [isSessionHeader, h1, h2, h3, h4]

lemma namesSession_sessionHeaders (hup : i.upstreamSessionID ≠ "") (target source : Header)
    (websocketTransport : Bool) :
    NamesSession (i.sessionHeaders target source websocketTransport) i.upstreamSessionID := by
  unfold sessionHeaders
  rw [if_pos hup]
  dsimp only
  have hnone : ∀ m ∈ (((target.deleteFold "Session-Id").deleteFold "Session_id").deleteFold
      "session_id").deleteFold "Conversation_id", isSessionHeader m.1 = true →
        m.2 = [i.upstreamSessionID] := fun m hm hsession => by
    rw [not_isSessionHeader_deleted hm] at hsession
    cases hsession
  split_ifs with hws hconversation
  · have hfirst := NamesSession.setSession "session_id" hnone (.inr (get_set_self _ _ _))
    refine NamesSession.setSession "Conversation_id" hfirst.only (.inr ?_)
    rw [get_set_ne _ _ (by decide), get_set_self]
  · have hfirst := NamesSession.setSession "Session-Id" hnone (.inl (get_set_self _ _ _))
    refine NamesSession.setSession "Conversation_id" hfirst.only (.inl ?_)
    rw [get_set_ne _ _ (by decide)]
    exact get_set_self _ _ _
  · exact NamesSession.setSession "Session-Id" hnone (.inl (get_set_self _ _ _))

lemma namesSession_applyHeader {map : String → IdentityM String} {name session : String}
    {source target out : Header} (hname : isSessionHeader (Header.canonicalKey name) = false)
    (ht : NamesSession target session)
    (h : (applyHeader map name source target).run i = (.ok out, j)) : NamesSession out session := by
  unfold applyHeader at h
  split_ifs at h
  · cases h
  · obtain ⟨_, _, -, h2⟩ := bind_ok h
    rw [(pure_ok h2).1]
    exact ht.keep _ hname
  · rw [(pure_ok h).1]
    exact ht

lemma namesSession_applyTurnHeader {session : String} {source target out : Header}
    (ht : NamesSession target session)
    (h : (applyTurnHeader d source target).run i = (.ok out, j)) : NamesSession out session := by
  unfold applyTurnHeader at h
  split_ifs at h
  · obtain ⟨_, _, -, h2⟩ := bind_ok h
    rw [(pure_ok h2).1]
    exact ht.keep _ (by decide)
  · rw [(pure_ok h).1]
    exact ht

lemma namesSession_applyHeaders {target source out : Header} {websocketTransport : Bool}
    (hup : i.upstreamSessionID ≠ "")
    (h : (applyHeaders d target source websocketTransport).run i = (.ok out, j)) :
    NamesSession out i.upstreamSessionID := by
  have hsession := namesSession_sessionHeaders hup target source websocketTransport
  rw [applyHeaders, IdentityM.run_self_bind] at h
  dsimp only at h
  split_ifs at h
  · obtain ⟨_, _, -, h⟩ := bind_ok h
    rw [(pure_ok h).1]
    exact hsession
  · obtain ⟨t1, j1, h1, h⟩ := bind_ok h
    obtain ⟨t2, j2, h2, h⟩ := bind_ok h
    obtain ⟨t3, j3, h3, h⟩ := bind_ok h
    obtain ⟨t4, j4, h4, h⟩ := bind_ok h
    obtain ⟨_, _, -, h⟩ := bind_ok h
    rw [(pure_ok h).1]
    exact namesSession_applyTurnHeader (namesSession_applyHeader (by decide)
      (namesSession_applyHeader (by decide) (namesSession_applyHeader (by decide) hsession h1) h2)
      h3) h4

lemma mapValue_off {kind value : String} (hoff : i.remap = false) :
    (mapValue d kind value).run i =
      (pure (cleanIdentityValue value) : IdentityM String).run i := by
  rw [mapValue, IdentityM.run_self_bind]
  simp only [hoff, or_true, if_true]

lemma new_session {key : Option String} {headers : Header} {object : Obj} {remap : Bool}
    (hkey : trimSpace (key.getD "") ≠ "")
    (h : Identity.new d key headers object remap = .ok i) : i.upstreamSessionID ≠ "" := by
  cases remap with
  | true => exact new_session_ne_empty hkey h
  | false =>
    obtain ⟨client, up, j, rfl, -, ⟨hvalid, hrun⟩ | ⟨-, rfl, rfl⟩⟩ := new_ok d h
    · have hoff : (blank false (trimSpace (key.getD "")) client).remap = false := rfl
      rw [mapValue_off hoff] at hrun
      dsimp only
      rw [(pure_ok hrun).1]
      exact clean_ne_empty hvalid
    · dsimp only
      rw [if_pos hkey]
      exact (Digests.isUUID_identityUUID _ _ _).ne_empty

end Identity

section

open Identity

variable {d : Digests} {fuel : ℕ} {cfg : Config} {r : Request} {credential : Credential}
  {i j : Identity}

lemma namesSession_applyCodexHeaders {headers : Header} {session : String}
    (h : NamesSession headers session) (cfg : Config) (credential : Credential) (accept : String) :
    NamesSession (applyCodexHeaders headers cfg credential accept) session := by
  unfold applyCodexHeaders
  exact (((((h.keep _ (by decide)).keep _ (by decide)).keep _ (by decide)).keep _
    (by decide)).keep _ (by decide)).keep _ (by decide)

lemma namesSession_httpHeaders {accept : String} {headers : Header}
    (hup : i.upstreamSessionID ≠ "")
    (h : (httpHeaders d cfg r credential accept).run i = (.ok headers, j)) :
    NamesSession headers i.upstreamSessionID := by
  rw [httpHeaders] at h
  obtain ⟨_, _, h1, h2⟩ := bind_ok h
  rw [(pure_ok h2).1]
  exact namesSession_applyCodexHeaders (namesSession_applyHeaders hup h1) cfg credential accept

lemma namesSession_dialHeaders {headers : Header} (hup : i.upstreamSessionID ≠ "")
    (h : (dialHeaders d cfg r credential).run i = (.ok headers, j)) :
    NamesSession headers i.upstreamSessionID := by
  rw [dialHeaders] at h
  obtain ⟨_, _, h1, h2⟩ := bind_ok h
  rw [(pure_ok h2).1]
  exact (namesSession_applyCodexHeaders (namesSession_applyHeaders hup h1) cfg credential _).keep _
    (by decide)

/-- The body and the headers name one session. -/
def InStep (headers : Header) (body : Obj) : Prop :=
  ∃ session, session ≠ "" ∧ get body "prompt_cache_key" = some (.str session) ∧
    NamesSession headers session

lemma prepared_session {object body : Obj} {remap : Bool} (hkey : trimSpace (r.keyID.getD "") ≠ "")
    (h : prepareRequestIdentity d r object remap = .ok (body, i)) : i.upstreamSessionID ≠ "" ∧
      get body "prompt_cache_key" = some (.str i.upstreamSessionID) := by
  obtain ⟨i', hnew, hbody⟩ := prepareRequestIdentity_ok h
  have hup := new_session hkey hnew
  have hext := (tracks_prepareBody d object false).run i'
  rw [hbody] at hext
  rw [← hext.upstreamSessionID]
  exact ⟨hup, promptCacheKey_prepareBody hup hbody⟩

lemma inStep_inferenceRequest {model : String} {object : Obj} {img : Bool} {req : UpstreamRequest}
    (hkey : trimSpace (r.keyID.getD "") ≠ "")
    (h : inferenceRequest d cfg r credential object (Compat.prepareCodexHTTPBodyWithImageTool d
      fuel · model credential.planType r.headers img) = .ok req) :
    InStep req.headers req.body := by
  rw [inferenceRequest] at h
  obtain ⟨⟨body, i⟩, hp, h⟩ := bind_eq_ok h
  obtain ⟨hup, hget⟩ := prepared_session hkey hp
  dsimp only at h
  have hrun := pair_of_fst h
  obtain ⟨sent, l, h1, h2⟩ := bind_ok hrun
  obtain ⟨headers, _, h3, h4⟩ := bind_ok h2
  have hext := (show Tracks (Compat.prepareCodexHTTPBodyWithImageTool d fuel body model
    credential.planType r.headers img) from Compat.tracks_prepareCodexInferenceObject ..).run i
  rw [h1] at hext
  rw [(pure_ok h4).1]
  refine ⟨i.upstreamSessionID, hup, ?_, ?_⟩
  · dsimp only
    rw [get_prepareCodexHTTPBodyWithImageTool h1 (by decide) (by decide) (by decide),
      if_neg (by decide), hget]
  · have hsame : i.upstreamSessionID = l.upstreamSessionID := hext.upstreamSessionID
    dsimp only
    rw [hsame] at hup ⊢
    exact namesSession_httpHeaders hup h3

lemma inStep_passthrough {raw : Text} {req : UpstreamRequest}
    (hkey : trimSpace (r.keyID.getD "") ≠ "")
    (h : handlePassthroughJSON d fuel cfg r credential raw = .ok req) :
    InStep req.headers req.body := by
  unfold handlePassthroughJSON at h
  split_ifs at h
  split at h
  · cases h
  · -- the identity prepares the body first, so the headers name the session of the body
    obtain ⟨⟨body, i⟩, hp, h⟩ := bind_eq_ok h
    obtain ⟨hup, hget⟩ := prepared_session hkey hp
    dsimp only at h
    have hrun := pair_of_fst h
    obtain ⟨sent, l, h1, h2⟩ := bind_ok hrun
    obtain ⟨headers, _, h3, h4⟩ := bind_ok h2
    rw [Compat.prepareCodexPassthroughBody] at h1
    have hext := (Compat.tracks_sanitizeCodexInputItems d fuel body).run i
    rw [h1] at hext
    rw [(pure_ok h4).1]
    refine ⟨i.upstreamSessionID, hup, ?_, ?_⟩
    · dsimp only
      rw [Compat.get_sanitizeCodexInputItems h1 (by decide), hget]
    · have hsame : i.upstreamSessionID = l.upstreamSessionID := hext.upstreamSessionID
      dsimp only
      rw [hsame] at hup ⊢
      exact namesSession_httpHeaders hup h3

/-- A request that one of the HTTP endpoints sends upstream. -/
def SentOverHTTP (d : Digests) (fuel : ℕ) (cfg : Config) (r : Request) (credential : Credential)
    (raw : Text) (req : UpstreamRequest) : Prop :=
  handleResponsesPath d fuel cfg r credential raw = .ok req ∨
    chatCompletions d fuel cfg r credential raw = .ok req ∨
    handlePassthroughJSON d fuel cfg r credential raw = .ok req

lemma inStep_http {raw : Text} {req : UpstreamRequest} (hkey : trimSpace (r.keyID.getD "") ≠ "")
    (h : SentOverHTTP d fuel cfg r credential raw req) : InStep req.headers req.body := by
  rcases h with h | h | h
  · rw [handleResponsesPath] at h
    obtain ⟨_, -, h⟩ := bind_eq_ok h
    exact inStep_inferenceRequest hkey h
  · rw [chatCompletions] at h
    obtain ⟨_, -, h⟩ := bind_eq_ok h
    exact inStep_inferenceRequest hkey h
  · exact inStep_passthrough hkey h

end

/-! ### Plans -/

/-- Both bodies of a plan name the session of its identity. -/
structure Plan.InSession (plan : Plan) : Prop where
  named : plan.identity.upstreamSessionID ≠ ""
  incremental :
    get plan.incremental "prompt_cache_key" = some (.str plan.identity.upstreamSessionID)
  replay : get plan.replay "prompt_cache_key" = some (.str plan.identity.upstreamSessionID)

lemma Plan.InSession.after {plan : Plan} {identity : Identity} (h : plan.InSession)
    (hsame : identity.upstreamSessionID = plan.identity.upstreamSessionID) :
    ({ plan with identity } : Plan).InSession where
  named := hsame ▸ h.named
  incremental := hsame ▸ h.incremental
  replay := hsame ▸ h.replay

lemma Planned.promptCacheKey {k : Connection} {c : Conversation} {planType : String}
    {turn : Conversation.Turn} {plan : Plan} (h : Planned k c planType turn plan)
    (hup : h.before.upstreamSessionID ≠ "") :
    get plan.incremental "prompt_cache_key" = some (.str h.before.upstreamSessionID) := by
  obtain ⟨sanitized, sent, _, l, -, -, hs, hkey, hl, -, -, ha⟩ := Conversation.planTurn_spec h.run
  obtain ⟨currentInput, -, -, hf⟩ := Conversation.assemble_ok ha plan.identity
  rw [congrArg Plan.incremental (h.plan_eq.trans hf)]
  dsimp only
  rw [get_set_ne _ _ (by decide), hl, Compat.get_normalizeCodexParallelToolCalls _ _ _ (by decide),
    Compat.get_sanitizeCodexInputItems hs (by decide), hkey hup]

lemma prepare_inSession {k : Connection} {c d : Conversation} {raw : Text} {planType : String}
    {plan : Plan} (hkey : trimSpace (k.request.keyID.getD "") ≠ "")
    (hc : ∀ i, c.identity = some i → i.upstreamSessionID ≠ "")
    (h : k.prepare c raw planType = (.ok plan, d)) :
    plan.InSession ∧
      ∀ i, c.identity = some i → i.upstreamSessionID = plan.identity.upstreamSessionID := by
  have hp := Conversation.prepared k.digests k.fuel c k.request raw k.cfg.codexIdentityRemap
    planType
  rw [show c.prepare _ _ _ _ _ _ = _ from h] at hp
  generalize hx : ((Except.ok plan : Except String Plan), d) = x at hp
  cases hp with
  | @planned turn i fixed f j hr hu hrun =>
    obtain ⟨hplan, -⟩ := Prod.mk.inj hx
    obtain rfl := Except.ok.inj hplan
    have hidentity : (f j).identity = j := by rw [Conversation.planTurn_plan hrun j j]
    have hext := (Conversation.tracks_planTurn k.digests k.fuel c k.request.headers planType
      turn fixed).run i
    rw [hrun] at hext
    have hup : i.upstreamSessionID ≠ "" := by
      -- a session is found in the shared identity, or made for the API key
      cases hu with
      | shared hi => exact hc i hi
      | fresh hi hnew => exact Identity.new_session hkey hnew
    have hsame : (f j).identity.upstreamSessionID = i.upstreamSessionID := by
      rw [hidentity]
      exact hext.upstreamSessionID.symm
    let hplanned : Planned k c planType turn (f j) :=
      { fixed, before := i, after := j, result := f, identity := hu, run := hrun
        plan_eq := by rw [hidentity] }
    have hincremental := hplanned.promptCacheKey hup
    refine ⟨⟨hsame ▸ hup, hsame ▸ hincremental, ?_⟩, fun i' hi' => ?_⟩
    · rw [hplanned.get_replay (by decide) (by decide), hsame]
      exact hincremental
    · cases hu with
      | shared hi =>
        rw [hi] at hi'
        rw [← Option.some.inj hi', hsame]
      | fresh hi =>
        rw [hi] at hi'
        cases hi'
  | _ => cases hx

namespace WebSocketSession

variable {k : Connection} {s t : Session} {e : Event}

lemma inStep_fallback {plan : Plan} {credential : Credential} {identity : Identity}
    {request : UpstreamRequest} (hplan : plan.InSession)
    (hrun : (fallbackRequest k.digests k.fuel k.cfg k.request credential plan.model plan.replay).run
      plan.identity = (.ok request, identity)) : InStep request.headers request.body := by
  obtain ⟨l, hbody, hheaders⟩ := fallbackRequest_ok hrun
  rw [Compat.prepareCodexHTTPBody] at hbody
  have hext := (show Identity.Tracks (Compat.prepareCodexHTTPBodyWithImageTool k.digests k.fuel
    (erase plan.replay "type") plan.model credential.planType k.request.headers true) from
      Compat.tracks_prepareCodexInferenceObject ..).run plan.identity
  rw [hbody] at hext
  have hnamed := hplan.named
  refine ⟨plan.identity.upstreamSessionID, hnamed, ?_, ?_⟩
  · rw [get_prepareCodexHTTPBodyWithImageTool hbody (by decide) (by decide) (by decide),
      if_neg (by decide), get_erase_ne _ (by decide)]
    exact hplan.replay
  · have hsame : plan.identity.upstreamSessionID = l.upstreamSessionID := hext.upstreamSessionID
    rw [hsame] at hnamed ⊢
    exact namesSession_httpHeaders hnamed hheaders

lemma inStep_bodyFor {plan : Plan} {headers : Header} {c : Conversation} {generation : ℕ}
    (hplan : plan.InSession) (hheaders : NamesSession headers plan.identity.upstreamSessionID) :
    InStep headers (c.bodyFor plan generation false) := by
  refine ⟨_, hplan.named, ?_, hheaders⟩
  unfold Conversation.bodyFor
  split_ifs
  · exact hplan.incremental
  · exact hplan.replay

/-- The phases of a turn that has not been submitted. -/
def Phase.Unsubmitted : Phase → Prop
  | .planned .. | .submitting .. | .fallback .. => True
  | _ => False

/-- The account of the socket is that of the turn, and no two submissions are of one turn. -/
structure Accounted (s : Session) : Prop where
  account : ∀ plan credential u, s.phase = .submitting plan credential → s.upstream = some u →
    u.accountID = credential.accountID
  turns : ∀ sub ∈ s.submissions, sub.turn ≤ s.turns
  unsubmitted : s.phase.Unsubmitted → ∀ sub ∈ s.submissions, sub.turn < s.turns
  once : (s.submissions.map (·.turn)).Nodup
  accounts : ∀ sub ∈ s.submissions, ∀ socket ∈ sub.socket, socket.2 = sub.credential.accountID

lemma Accounted.keep (h : Accounted s) (hsubs : t.submissions = s.submissions)
    (hturns : t.turns = s.turns) (hphase : t.phase.Unsubmitted → s.phase.Unsubmitted)
    (haccount : ∀ plan credential u, t.phase = .submitting plan credential → t.upstream = some u →
      u.accountID = credential.accountID) : Accounted t where
  account := haccount
  turns := hsubs ▸ hturns ▸ h.turns
  unsubmitted hp := hsubs ▸ hturns ▸ h.unsubmitted (hphase hp)
  once := hsubs ▸ h.once
  accounts := hsubs ▸ h.accounts

lemma Accounted.submit (h : Accounted s) (sub : Submission) (hphase : s.phase.Unsubmitted)
    (hsub : sub.turn = s.turns) (hsubs : t.submissions = s.submissions ++ [sub])
    (hturns : t.turns = s.turns) (hdone : ¬t.phase.Unsubmitted)
    (haccount : ∀ socket ∈ sub.socket, socket.2 = sub.credential.accountID) : Accounted t where
  account plan credential u hp := by
    rw [hp] at hdone
    exact absurd trivial hdone
  turns := by
    rw [hsubs, hturns]
    exact forall_append h.turns hsub.le
  unsubmitted hp := absurd hp hdone
  once := by
    have hnew : ∀ sub' ∈ s.submissions, sub'.turn ≠ sub.turn := fun sub' hmem => by
      rw [hsub]
      exact (h.unsubmitted hphase sub' hmem).ne
    rw [hsubs, List.map_append, List.nodup_append]
    refine ⟨h.once, List.nodup_singleton _, ?_⟩
    simpa using hnew
  accounts := by
    rw [hsubs]
    exact forall_append h.accounts haccount

lemma Accounted.move (h : Accounted s) (hmove : Moves k s e t) : Accounted t := by
  cases hmove with
  | @frames _ u v hu hsame =>
    refine h.keep rfl rfl id fun plan credential w hp hw => ?_
    obtain rfl := Option.some.inj hw
    rw [hsame.2.1]
    exact h.account plan credential u hp hu
  | leaves => exact ⟨h.account, h.turns, h.unsubmitted, h.once, h.accounts⟩
  | closes => exact h.keep rfl rfl (fun hf => by cases hf) (fun _ _ _ hf => by cases hf)
  | keeps hp => exact h.keep rfl rfl id (fun _ _ _ hf => by simp [hp] at hf)
  | ends => exact h.keep rfl rfl (fun hf => by cases hf) (fun _ _ _ hf => by cases hf)
  | givesUp => exact h.keep rfl rfl (fun hf => by cases hf) (fun _ _ _ hf => by cases hf)
  | abandons => exact h.keep rfl rfl (fun hf => by cases hf) (fun _ _ _ hf => by cases hf)
  | answers => exact h.keep rfl rfl (fun hf => by cases hf) (fun _ _ _ hf => by cases hf)
  | plans =>
    -- a new number for a new turn
    exact ⟨(fun _ _ _ hf => by cases hf), fun sub hmem => Nat.le_succ_of_le (h.turns sub hmem),
      fun _ sub hmem => Nat.lt_succ_of_le (h.turns sub hmem), h.once, h.accounts⟩
  | @ensures _ plan credential u hp hu haccount =>
    refine h.keep rfl rfl (fun _ => by rw [hp]; trivial) fun plan' credential' w hp' hw => ?_
    cases hp'
    rw [hu] at hw
    exact Option.some.inj hw ▸ haccount
  | @dials _ plan credential _ _ _ hp =>
    refine h.keep rfl rfl (fun _ => by rw [hp]; trivial) fun plan' credential' w hp' hw => ?_
    cases hp'
    exact Option.some.inj hw ▸ rfl
  | falls hp =>
    exact h.keep rfl rfl (fun _ => by rw [hp]; trivial) (fun _ _ _ hf => by cases hf)
  | @writes _ plan credential u hp hu =>
    refine h.submit (.to s u plan credential) (by rw [hp]; trivial) rfl rfl rfl id ?_
    rintro socket ⟨⟩
    exact h.account plan credential u hp hu
  | @writeFails _ plan credential u hp hu =>
    refine h.submit (.to s u plan credential) (by rw [hp]; trivial) rfl rfl rfl id ?_
    rintro socket ⟨⟩
    exact h.account plan credential u hp hu
  | forwards hp =>
    exact h.keep rfl rfl id (fun _ _ _ hf => by simp [hp] at hf)
  | fails => exact h.keep rfl rfl (fun hf => by cases hf) (fun _ _ _ hf => by cases hf)
  | commits => exact h.keep rfl rfl (fun hf => by cases hf) (fun _ _ _ hf => by cases hf)
  | refuses => exact h.keep rfl rfl (fun hf => by cases hf) (fun _ _ _ hf => by cases hf)
  | requests hp _ _ hphase =>
    refine h.submit _ (by rw [hp]; trivial) rfl rfl rfl ?_ (fun _ hf => by cases hf)
    rcases hphase with rfl | rfl <;> exact id
  | stays => exact h
  | commitsHTTP => exact h.keep rfl rfl (fun hf => by cases hf) (fun _ _ _ hf => by cases hf)
  | refusesHTTP => exact h.keep rfl rfl (fun hf => by cases hf) (fun _ _ _ hf => by cases hf)

lemma accounted_start : Accounted (system k).start where
  account _ _ _ hf := by cases hf
  turns _ hf := by cases hf
  unsubmitted hf := by cases hf
  once := List.nodup_nil
  accounts _ hf := by cases hf

/-! ### The session of the socket -/

/-- A message is taken on an open socket only when a response has been committed. -/
def Established (s : Session) : Event → Prop
  | .take .. => s.conversation.identity.isNone = true → s.upstream.isNone = true
  | _ => True

instance (s : Session) : DecidablePred (Established s)
  | .take .. => inferInstanceAs
      (Decidable (s.conversation.identity.isNone = true → s.upstream.isNone = true))
  | .send _ | .read | .die | .leave | .stop | .ensure _ | .write _ | .forward _ | .lost | .abandon
  | .request _ | .stream .. | .finish => inferInstanceAs (Decidable True)

/-- The conversation and the socket are of the session. -/
structure Session.In (s : Session) (session : String) : Prop where
  conversation : ∀ i, s.conversation.identity = some i → i.upstreamSessionID = session
  socket : ∀ u, s.upstream = some u → NamesSession u.headers session

/-- The identity of the conversation and the plan of the turn are of the session of the socket. -/
structure Bound (s : Session) : Prop where
  head : ∀ i, s.conversation.identity = some i →
    i.upstreamSessionID ≠ "" ∧ s.In i.upstreamSessionID
  plan : ∀ plan, s.phase.plan? = some plan →
    plan.InSession ∧ s.In plan.identity.upstreamSessionID
  submissions : ∀ sub ∈ s.submissions, InStep sub.headers sub.body

lemma exists_of_map_eq {α β : Type} {f : α → β} {x y : Option α} {b : α}
    (h : y.map f = x.map f) (hb : y = some b) : ∃ a, x = some a ∧ f a = f b := by
  rw [hb, Option.map_some] at h
  exact Option.map_eq_some_iff.mp h.symm

lemma Session.In.keep {session : String} (h : s.In session)
    (hidentity : t.conversation.identity.map (·.upstreamSessionID) =
      s.conversation.identity.map (·.upstreamSessionID))
    (hup : t.upstream = none ∨ t.upstream.map (·.headers) = s.upstream.map (·.headers)) :
    t.In session where
  conversation i hi := by
    obtain ⟨j, hj, hij⟩ := exists_of_map_eq hidentity hi
    rw [← hij]
    exact h.conversation j hj
  socket u hu := by
    rcases hup with hup | hup
    · rw [hup] at hu
      cases hu
    · obtain ⟨v, hv, huv⟩ := exists_of_map_eq hup hu
      rw [← huv]
      exact h.socket v hv

lemma Used.map_session {before after : Identity} {c d : Conversation}
    (h : Used before after c d)
    (hsame : ∀ i, c.identity = some i → i.upstreamSessionID = before.upstreamSessionID) :
    d.identity.map (·.upstreamSessionID) = c.identity.map (·.upstreamSessionID) := by
  rcases h.conversation with ⟨rfl, -⟩ | rfl
  · rfl
  · cases hc : c.identity with
    | none => rfl
    | some i =>
      rw [Option.map_some, Option.map_some, Option.map_some, h.session, hsame i hc]

/-- The conversation and the socket are in the sessions they were in, and the turn is over or goes
on with a plan of its session. -/
lemma Bound.onward (h : Bound s)
    (hidentity : t.conversation.identity.map (·.upstreamSessionID) =
      s.conversation.identity.map (·.upstreamSessionID))
    (hup : t.upstream = none ∨ t.upstream.map (·.headers) = s.upstream.map (·.headers))
    (hplan : ∀ plan, t.phase.plan? = some plan →
      plan.InSession ∧ s.In plan.identity.upstreamSessionID)
    (hsubs : ∀ sub ∈ t.submissions, InStep sub.headers sub.body) : Bound t := by
  refine ⟨fun i hi => ?_, fun plan hp => ?_, hsubs⟩
  · obtain ⟨j, hj, hij⟩ := exists_of_map_eq hidentity hi
    rw [← hij]
    exact ⟨(h.head j hj).1, (h.head j hj).2.keep hidentity hup⟩
  · exact ⟨(hplan plan hp).1, (hplan plan hp).2.keep hidentity hup⟩

lemma Bound.commit (h : Bound s) {plan : Plan} (hplan : s.phase.plan? = some plan)
    (hidentity : t.conversation.identity = some plan.identity)
    (hup : t.upstream.map (·.headers) = s.upstream.map (·.headers)) (hphase : t.phase = .waiting)
    (hsubs : t.submissions = s.submissions) : Bound t := by
  obtain ⟨hsession, hin⟩ := h.plan plan hplan
  refine ⟨fun i hi => ?_, fun _ hp => ?_, hsubs ▸ h.submissions⟩
  · rw [hidentity] at hi
    obtain rfl := Option.some.inj hi
    refine ⟨hsession.named, fun i hi => ?_, fun u hu => ?_⟩
    · rw [hidentity] at hi
      rw [Option.some.inj hi]
    · obtain ⟨v, hv, huv⟩ := exists_of_map_eq hup hu
      rw [← huv]
      exact hin.socket v hv
  · rw [hphase] at hp
    cases hp

lemma Bound.inStep_to {plan : Plan} {credential : Credential} {u : UpstreamSocket} (h : Bound s)
    (hp : s.phase = .submitting plan credential) (hu : s.upstream = some u) :
    InStep (Submission.to s u plan credential).headers
      (Submission.to s u plan credential).body := by
  obtain ⟨hplan, hin⟩ := h.plan plan (by rw [hp]; rfl)
  exact inStep_bodyFor hplan (hin.socket u hu)

lemma Bound.move (h : Bound s) (hgood : Established s e) (hmove : Moves k s e t) : Bound t := by
  cases hmove with
  | @frames _ u v hu hsame =>
    exact h.onward rfl (.inr (by rw [hu, Option.map_some, Option.map_some, hsame.2.2.1])) h.plan
      h.submissions
  | leaves => exact h.onward rfl (.inr rfl) h.plan h.submissions
  | closes => exact h.onward rfl (.inl rfl) (fun _ hf => by cases hf) h.submissions
  | keeps hp hc =>
    obtain ⟨i, rfl, hi⟩ := hc
    exact h.onward hi (.inr rfl) (fun _ hf => by simp [hp, Phase.plan?] at hf) h.submissions
  | ends => exact h.onward rfl (.inl rfl) (fun _ hf => by cases hf) h.submissions
  | @givesUp _ plan _ _ _ hp hused =>
    obtain ⟨-, hin⟩ := h.plan plan (by rw [hp]; rfl)
    exact h.onward (hused.map_session hin.conversation) (.inl rfl) (fun _ hf => by cases hf)
      h.submissions
  | abandons => exact h.onward rfl (.inr rfl) (fun _ hf => by cases hf) h.submissions
  | @answers _ plan _ _ _ hplan hused =>
    obtain ⟨-, hin⟩ := h.plan plan hplan
    exact h.onward (hused.map_session hin.conversation) (.inr rfl) (fun _ hf => by cases hf)
      h.submissions
  | @plans _ plan c credential hp hkey hprepare =>
    obtain ⟨hsession, hsame⟩ := prepare_inSession hkey (fun i hi => (h.head i hi).1) hprepare
    have hc := prepare_ok hprepare
    refine h.onward ?_ (.inr rfl) (fun plan' hplan' => ?_) h.submissions
    · change c.identity.map _ = _
      rw [hc]
      cases hi : s.conversation.identity with
      | none => rfl
      | some i => simp [hsame i hi]
    · obtain rfl := Option.some.inj hplan'
      refine ⟨hsession, hsame, fun u hu => ?_⟩
      -- a socket that is open has been used for a response that was committed
      cases hi : s.conversation.identity with
      | none =>
        have hnone : s.upstream.isNone = true := hgood (by rw [hi]; rfl)
        rw [hu] at hnone
        cases hnone
      | some i =>
        rw [← hsame i hi]
        exact (h.head i hi).2.socket u hu
  | @ensures _ plan credential u hp hu =>
    refine h.onward rfl (.inr rfl) (fun plan' hplan' => ?_) h.submissions
    exact Option.some.inj hplan' ▸ h.plan plan (by rw [hp]; rfl)
  | @dials _ plan credential headers identity c hp hused hrun =>
    obtain ⟨hsession, hin⟩ := h.plan plan (by rw [hp]; rfl)
    have hnames := namesSession_dialHeaders hsession.named hrun
    have hmap := hused.map_session hin.conversation
    have hsame (i : Identity) (hi : c.identity = some i) :
        i.upstreamSessionID = plan.identity.upstreamSessionID := by
      obtain ⟨j, hj, hij⟩ := exists_of_map_eq hmap hi
      rw [← hij]
      exact hin.conversation j hj
    have hnew : Session.In { s with
        conversation := c, nextGeneration := s.nextGeneration + 1
        upstream := some ⟨s.nextGeneration + 1, credential.accountID, headers, 0, [], [], false⟩
        phase := .submitting { plan with identity } credential }
        plan.identity.upstreamSessionID := by
      refine ⟨hsame, fun u hu => ?_⟩
      exact Option.some.inj hu ▸ hnames
    refine ⟨fun i hi => ?_, fun plan' hplan' => ?_, h.submissions⟩
    · rw [hsame i hi]
      exact ⟨hsession.named, hnew⟩
    · obtain rfl := Option.some.inj hplan'
      refine ⟨hsession.after hused.session, ?_⟩
      dsimp only
      rw [hused.session]
      exact hnew
  | @falls _ plan _ _ _ hp hused =>
    obtain ⟨hsession, hin⟩ := h.plan plan (by rw [hp]; rfl)
    refine h.onward (hused.map_session hin.conversation) (.inl rfl) (fun plan' hplan' => ?_)
      h.submissions
    obtain rfl := Option.some.inj hplan'
    refine ⟨hsession.after hused.session, ?_⟩
    dsimp only
    rw [hused.session]
    exact hin
  | @writes _ plan _ u hp hu =>
    refine h.onward rfl (.inr (by rw [hu]; rfl)) (fun plan' hplan' => ?_)
      (forall_append h.submissions (h.inStep_to hp hu))
    exact Option.some.inj hplan' ▸ h.plan plan (by rw [hp]; rfl)
  | writeFails hp hu =>
    exact h.onward rfl (.inl rfl) (fun _ hf => by cases hf)
      (forall_append h.submissions (h.inStep_to hp hu))
  | forwards _ hu => exact h.onward rfl (.inr (by rw [hu]; rfl)) h.plan h.submissions
  | fails => exact h.onward rfl (.inl rfl) (fun _ hf => by cases hf) h.submissions
  | commits hp hu => exact h.commit (by rw [hp]; rfl) rfl (by rw [hu]; rfl) rfl rfl
  | refuses => exact h.onward rfl (.inl rfl) (fun _ hf => by cases hf) h.submissions
  | @requests _ plan credential identity c request phase hp hused hrun hphase =>
    obtain ⟨hsession, hin⟩ := h.plan plan (by rw [hp]; rfl)
    refine h.onward (hused.map_session hin.conversation) (.inr rfl) (fun plan' hplan' => ?_)
      (forall_append h.submissions (inStep_fallback hsession hrun))
    rcases hphase with rfl | rfl
    · cases hplan'
    · obtain rfl := Option.some.inj hplan'
      refine ⟨hsession.after hused.session, ?_⟩
      dsimp only
      rw [hused.session]
      exact hin
  | stays => exact h
  | commitsHTTP hp => exact h.commit (by rw [hp]; rfl) rfl rfl rfl rfl
  | refusesHTTP => exact h.onward rfl (.inr rfl) (fun _ hf => by cases hf) h.submissions

lemma bound_start : Bound (system k).start where
  head _ hf := by cases hf
  plan _ hf := by cases hf
  submissions _ hf := by cases hf

/-- **Session identity and account binding.** What an HTTP endpoint sends upstream for an API key
names one session in its body and in its headers. Every body that a connection submits is for the
account of its turn, and no two are of one turn; and in a run in which a message is taken on an open
socket only when a response has been committed, each names the session of the headers it goes with.
-/
theorem session_identity_bound :
    (∀ credential raw req, trimSpace (k.request.keyID.getD "") ≠ "" →
      SentOverHTTP k.digests k.fuel k.cfg k.request credential raw req →
        InStep req.headers req.body) ∧
    ∀ es s, (system k).run (system k).start es = some s →
      (∀ sub ∈ s.submissions, ∀ socket ∈ sub.socket, socket.2 = sub.credential.accountID) ∧
      (s.submissions.map (·.turn)).Nodup ∧
      ((system k).Along Established (system k).start es →
        ∀ sub ∈ s.submissions, InStep sub.headers sub.body) := by
  refine ⟨fun _ _ _ hkey hsent => inStep_http hkey hsent, fun es s hrun => ?_⟩
  have haccounted : Accounted s := TransitionSystem.run_invariant Accounted
    (fun _ _ _ hi hstep => hi.move (step_moves hstep)) accounted_start hrun
  refine ⟨haccounted.accounts, haccounted.once, fun hgood => ?_⟩
  exact (TransitionSystem.run_invariant_along Bound
    (fun _ _ _ hi hgood hstep => hi.move hgood (step_moves hstep)) bound_start hgood
    hrun).submissions

/-- A first message of a session that the client names. -/
def messageOf (session : String) : Text :=
  marshal (.obj [("input", .arr []), ("model", .str "m"), ("prompt_cache_key", .str session),
    ("type", .str "response.create")])

theorem session_identity_bound_sample :
    (∃ req, handleResponsesPath .zero 0 (Connection.sample true).cfg
      (Connection.sample true).request
      sampleCredential (messageOf "a") = .ok req ∧ InStep req.headers req.body) ∧
    ∃ s, (system (.sample true)).run (system (.sample true)).start continued = some s ∧
      s.submissions.length = 2 ∧ ∀ sub ∈ s.submissions, InStep sub.headers sub.body := by
  have hrequest : (handleResponsesPath .zero 0 (Connection.sample true).cfg
      (Connection.sample true).request sampleCredential (messageOf "a")).isOk = true := by
    decide +kernel
  have hsample : ((system (.sample true)).run (system (.sample true)).start continued).any
        (fun s => decide (s.submissions.length = 2)) = true ∧
      (system (.sample true)).Along Established (system (.sample true)).start continued := by
    decide +kernel
  obtain ⟨s, hs, hlength⟩ := (Option.any_eq_true _ _).mp hsample.1
  refine ⟨?_, s, hs, of_decide_eq_true hlength,
    (session_identity_bound.2 continued s hs).2.2 hsample.2⟩
  cases hreq : handleResponsesPath .zero 0 (Connection.sample true).cfg
      (Connection.sample true).request sampleCredential (messageOf "a") with
  | error e =>
    rw [hreq] at hrequest
    cases hrequest
  | ok req =>
    exact ⟨req, rfl, (@session_identity_bound (.sample true)).1 sampleCredential (messageOf "a") req
      (by decide) (.inl hreq)⟩

/-- The client leaves while its first turn is forwarded, and a message of another session of its is
taken. -/
def strayed : List Event :=
  submitted (messageOf "a") ++ [.leave, .abandon] ++ submitted (messageOf "b")

/-- A header carries another session than the body. -/
def Submission.OutOfStep (sub : Submission) : Bool :=
  sub.headers.any fun m =>
    isSessionHeader m.1 && decide (get sub.body "prompt_cache_key" ≠ m.2.head?.map .str)

lemma not_inStep_of_outOfStep {sub : Submission} (h : sub.OutOfStep = true) :
    ¬InStep sub.headers sub.body := by
  rintro ⟨session, -, hbody, hheaders⟩
  obtain ⟨m, hm, hbad⟩ := List.any_eq_true.mp h
  rw [Bool.and_eq_true, decide_eq_true_eq] at hbad
  apply hbad.2
  rw [hbody, hheaders.only m hm hbad.1]
  rfl

/-- **A socket of another session.** The second message is written to the socket that was dialled
for the first. -/
theorem session_strays : ∃ s,
    (system (.sample false)).run (system (.sample false)).start strayed = some s ∧
      ∃ sub ∈ s.submissions, ¬InStep sub.headers sub.body := by
  have hsample : ((system (.sample false)).run (system (.sample false)).start strayed).any
      (fun s => s.submissions.any (·.OutOfStep)) = true := by
    decide +kernel
  obtain ⟨s, hs, hany⟩ := (Option.any_eq_true _ _).mp hsample
  obtain ⟨sub, hsub, hbad⟩ := List.any_eq_true.mp hany
  exact ⟨s, hs, sub, hsub, not_inStep_of_outOfStep hbad⟩

end WebSocketSession

end CodexOne
