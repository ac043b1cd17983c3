import CodexOne.Lib.Transition
import Mathlib.Tactic

/-!
Accepting handlers, and shutting the gateway down.

`beginRequest`, `endRequest` and the first half of `BeginShutdown` each hold `activityMu`, and the
operations of the socket registry each hold its own lock, so each is one step. `BeginShutdown` is
two of them followed by one step for each socket it closes, and `WaitForIdle` reads the idle
channel under the lock and then waits on what it read. Channels are numbered in the order they
are made.
-/

namespace CodexOne

/-- The answer to a request that arrives once shutdown has begun. -/
structure Refusal where
  status : ℕ
  retryAfter : String
  code : String
  message : String
deriving DecidableEq

structure WebsocketRegistry where
  connections : List ℕ
  closed : Bool

namespace WebsocketRegistry

/-- Register a connection; the answer is whether it was taken. -/
def add (r : WebsocketRegistry) : Option ℕ → WebsocketRegistry × Bool
  | none => (r, false)
  | some c =>
    if r.closed then (r, false) else ({ r with connections := r.connections.insert c }, true)

def remove (r : WebsocketRegistry) (c : ℕ) : WebsocketRegistry :=
  { r with connections := r.connections.filter (· ≠ c) }

/-- The part of `closeAll` under the lock, with the connections it goes on to close. -/
def closeAll (r : WebsocketRegistry) : WebsocketRegistry × List ℕ :=
  ({ r with closed := true }, r.connections)

end WebsocketRegistry

/-- The fields of the service that its lifecycle uses. `made` counts the channels made, and
`closes` lists the channels closed, the latest first. -/
structure Service where
  activeRequests : ℤ
  shuttingDown : Bool
  idle : ℕ
  made : ℕ
  closes : List ℕ
  websockets : WebsocketRegistry

namespace Service

/-- A new service is idle: its channel is closed already. -/
def new : Service := ⟨0, false, 0, 1, [0], ⟨[], false⟩⟩

def makeChannel (s : Service) : Service := { s with idle := s.made, made := s.made + 1 }

def closeIdle (s : Service) : Service := { s with closes := s.idle :: s.closes }

def beginRequest (s : Service) : Except Refusal Service :=
  if s.shuttingDown then
    .error ⟨503, "5", "server_shutting_down", "CodexOne is shutting down; retry shortly"⟩
  else
    let s := if s.activeRequests = 0 then s.makeChannel else s
    .ok { s with activeRequests := s.activeRequests + 1 }

def endRequest (s : Service) : Service :=
  let s := { s with activeRequests := s.activeRequests - 1 }
  if s.activeRequests = 0 then s.closeIdle else s

lemma beginRequest_websockets {s t : Service} (h : s.beginRequest = .ok t) :
    t.websockets = s.websockets := by
  simp only [beginRequest] at h
  split at h
  · cases h
  · cases h
    dsimp only
    split <;> rfl

lemma endRequest_websockets (s : Service) : s.endRequest.websockets = s.websockets := by
  simp only [endRequest]
  split <;> rfl

end Service

/-- Where a call of `BeginShutdown` is. -/
inductive ShutdownCall where
  | notCalled
  | flagged
  | closing (pending : List ℕ)
  | returned

/-- Where a call of `WaitForIdle` is; it returns `nil` or the error of its context. -/
inductive WaitCall where
  | notCalled
  | waiting (idle : ℕ)
  | returnedNil
  | returnedErr

/-- The service with everyone who uses it. `accepted` and `ended` list the handlers, and
`closedSockets` the connections closed by `closeAll`. -/
structure Lifecycle where
  service : Service
  accepted : List ℕ
  ended : List ℕ
  shutdowns : ℕ → ShutdownCall
  waits : ℕ → WaitCall
  closedSockets : List ℕ

namespace Lifecycle

inductive Event where
  | beginRequest (handler : ℕ)
  | endRequest (handler : ℕ)
  | add (connection : Option ℕ)
  | remove (connection : ℕ)
  | beginShutdown (call : ℕ)
  | closeAll (call : ℕ)
  | closeConnection (call connection : ℕ)
  | shutdownReturns (call : ℕ)
  | waitForIdle (call : ℕ)
  | idleClosed (call : ℕ)
  | ctxDone (call : ℕ)

/-- The handlers that were accepted and have not ended. -/
def unfinished (s : Lifecycle) : List ℕ := s.accepted.filter (· ∉ s.ended)

def setShutdown (s : Lifecycle) (b : ℕ) (call : ShutdownCall) : Lifecycle :=
  { s with shutdowns := Function.update s.shutdowns b call }

def setWait (s : Lifecycle) (w : ℕ) (call : WaitCall) : Lifecycle :=
  { s with waits := Function.update s.waits w call }

/-- One step. A handler calls `beginRequest` once, and an accepted one ends once. -/
def step (s : Lifecycle) : Event → Option Lifecycle
  | .beginRequest h =>
    if h ∈ s.accepted then none
    else match s.service.beginRequest with
      | .error _ => some s
      | .ok service => some { s with service, accepted := h :: s.accepted }
  | .endRequest h =>
    if h ∈ s.unfinished then
      some { s with service := s.service.endRequest, ended := h :: s.ended }
    else none
  | .add c =>
    some { s with service := { s.service with websockets := (s.service.websockets.add c).1 } }
  | .remove c =>
    some { s with service := { s.service with websockets := s.service.websockets.remove c } }
  | .beginShutdown b =>
    match s.shutdowns b with
    | .notCalled =>
      some ({ s with service := { s.service with shuttingDown := true } }.setShutdown b .flagged)
    | _ => none
  | .closeAll b =>
    match s.shutdowns b with
    | .flagged =>
      let (websockets, connections) := s.service.websockets.closeAll
      some ({ s with service := { s.service with websockets } }.setShutdown b
        (.closing connections))
    | _ => none
  | .closeConnection b c =>
    match s.shutdowns b with
    | .closing pending =>
      if c ∈ pending then
        some ({ s with closedSockets := c :: s.closedSockets }.setShutdown b
          (.closing (pending.filter (· ≠ c))))
      else none
    | _ => none
  | .shutdownReturns b =>
    match s.shutdowns b with
    | .closing [] => some (s.setShutdown b .returned)
    | _ => none
  | .waitForIdle w =>
    match s.waits w with
    | .notCalled =>
      some (s.setWait w
        (if s.service.activeRequests = 0 then .returnedNil else .waiting s.service.idle))
    | _ => none
  | .idleClosed w =>
    match s.waits w with
    | .waiting idle => if idle ∈ s.service.closes then some (s.setWait w .returnedNil) else none
    | _ => none
  | .ctxDone w =>
    match s.waits w with
    | .waiting _ => some (s.setWait w .returnedErr)
    | _ => none

/-- The gateway from its start, under any interleaving. -/
def system : TransitionSystem Lifecycle Event where
  start := ⟨.new, [], [], fun _ => .notCalled, fun _ => .notCalled, []⟩
  step := step

/-! ### What one step does -/

/-- What a step does to the counter, the channel and the two lists of handlers. -/
inductive Moves (s t : Lifecycle) : Prop where
  | same (hs : t.service = { s.service with websockets := t.service.websockets })
      (ha : t.accepted = s.accepted) (he : t.ended = s.ended)
  | begins (h : ℕ) (hopen : s.service.shuttingDown = false) (hnew : h ∉ s.accepted)
      (hs : s.service.beginRequest = .ok t.service) (ha : t.accepted = h :: s.accepted)
      (he : t.ended = s.ended)
  | ends (h : ℕ) (hin : h ∈ s.unfinished) (hs : t.service = s.service.endRequest)
      (ha : t.accepted = s.accepted) (he : t.ended = h :: s.ended)
  | flags (hs : t.service = { s.service with shuttingDown := true })
      (ha : t.accepted = s.accepted) (he : t.ended = s.ended)

lemma step_moves {s t : Lifecycle} {e : Event} (h : s.step e = some t) : Moves s t := by
  cases e with
  | beginRequest n =>
    simp only [step] at h
    split at h
    · cases h
    · rename_i hn
      split at h
      · obtain rfl := Option.some.inj h
        exact .same rfl rfl rfl
      · rename_i service hok
        obtain rfl := Option.some.inj h
        refine .begins n ?_ hn hok rfl rfl
        simp only [Service.beginRequest] at hok
        split at hok
        · cases hok
        · simpa using ‹¬s.service.shuttingDown = true›
  | endRequest n =>
    simp only [step] at h
    split at h
    · obtain rfl := Option.some.inj h
      exact .ends n ‹_› rfl rfl rfl
    · cases h
  | beginShutdown b =>
    simp only [step] at h
    split at h
    · obtain rfl := Option.some.inj h
      exact .flags rfl rfl rfl
    · cases h
  | _ =>
    -- the other steps leave everything here as it is
    simp only [step] at h
    repeat' split at h
    all_goals cases h
    all_goals exact .same rfl rfl rfl

/-- The counter counts the unfinished handlers, and the idle channel is closed exactly when there
is none. -/
structure Counted (s : Lifecycle) : Prop where
  accepted : s.accepted.Nodup
  ended : s.ended ⊆ s.accepted
  active : s.service.activeRequests = s.unfinished.length
  closes : s.service.closes.Nodup
  idle : s.service.idle ∈ s.service.closes ↔ s.service.activeRequests = 0
  idle_made : s.service.idle < s.service.made
  closes_made : ∀ c ∈ s.service.closes, c < s.service.made

lemma counted_start : Counted system.start := by
  refine ⟨?_, ?_, ?_, ?_, ?_, ?_, ?_⟩ <;> simp [system, Service.new, unfinished]

lemma unfinished_begins {s t : Lifecycle} {h : ℕ} (hs : Counted s) (hnew : h ∉ s.accepted)
    (ha : t.accepted = h :: s.accepted) (he : t.ended = s.ended) :
    t.unfinished = h :: s.unfinished := by
  have hend : h ∉ s.ended := fun hmem => hnew (hs.ended hmem)
  simp only [unfinished, ha, he]
  rw [List.filter_cons_of_pos (by simpa using hend)]

lemma unfinished_ends {s t : Lifecycle} {h : ℕ} (hs : Counted s) (hin : h ∈ s.unfinished)
    (ha : t.accepted = s.accepted) (he : t.ended = h :: s.ended) :
    t.unfinished.length + 1 = s.unfinished.length := by
  have hnodup : s.unfinished.Nodup := hs.accepted.filter _
  have heq : t.unfinished = s.unfinished.erase h := by
    rw [hnodup.erase_eq_filter]
    simp only [unfinished, ha, he, List.filter_filter]
    refine List.filter_congr fun x _ => ?_
    rw [Bool.eq_iff_iff]
    simp
  rw [heq, List.length_erase_of_mem hin]
  have := List.length_pos_of_mem hin
  omega

lemma Counted.begins {s t : Lifecycle} {h : ℕ} (hs : Counted s)
    (hopen : s.service.shuttingDown = false) (hnew : h ∉ s.accepted)
    (hok : s.service.beginRequest = .ok t.service) (ha : t.accepted = h :: s.accepted)
    (he : t.ended = s.ended) : Counted t := by
  have hun := unfinished_begins hs hnew ha he
  have hsub : t.ended ⊆ t.accepted := by
    rw [ha, he]
    exact fun x hx => List.mem_cons_of_mem _ (hs.ended hx)
  have hnodup : t.accepted.Nodup := by
    rw [ha]
    exact List.nodup_cons.mpr ⟨hnew, hs.accepted⟩
  have hact := hs.active
  simp only [Service.beginRequest, hopen, Bool.false_eq_true, if_false, Except.ok.injEq] at hok
  by_cases hzero : s.service.activeRequests = 0
  · -- a fresh channel, which nobody has closed
    rw [if_pos hzero] at hok
    have hfresh : s.service.made ∉ s.service.closes :=
      fun hmem => absurd (hs.closes_made _ hmem) (lt_irrefl _)
    refine ⟨hnodup, hsub, ?_, ?_, ?_, ?_, ?_⟩ <;> rw [← hok]
    · simp [Service.makeChannel, hun, hact]
    · exact hs.closes
    · simp [Service.makeChannel, hfresh, hzero]
    · exact Nat.lt_succ_self _
    · exact fun c hc => Nat.lt_succ_of_lt (hs.closes_made c hc)
  · rw [if_neg hzero] at hok
    have hopenidle : s.service.idle ∉ s.service.closes := fun hmem => hzero (hs.idle.mp hmem)
    refine ⟨hnodup, hsub, ?_, ?_, ?_, ?_, ?_⟩ <;> rw [← hok]
    · simp [hun, hact]
    · exact hs.closes
    · simp only [hopenidle, false_iff]
      omega
    · exact hs.idle_made
    · exact hs.closes_made

lemma Counted.ends {s t : Lifecycle} {h : ℕ} (hs : Counted s) (hin : h ∈ s.unfinished)
    (hok : t.service = s.service.endRequest) (ha : t.accepted = s.accepted)
    (he : t.ended = h :: s.ended) : Counted t := by
  have hlen := unfinished_ends hs hin ha he
  have hact := hs.active
  have hpos : s.service.activeRequests ≠ 0 := by omega
  have hsub : t.ended ⊆ t.accepted := by
    rw [ha, he]
    exact List.cons_subset.mpr ⟨(List.mem_filter.mp hin).1, hs.ended⟩
  have hopenidle : s.service.idle ∉ s.service.closes := fun hmem => hpos (hs.idle.mp hmem)
  simp only [Service.endRequest] at hok
  by_cases hzero : s.service.activeRequests - 1 = 0
  · -- the last one closes the channel
    rw [if_pos hzero] at hok
    refine ⟨ha ▸ hs.accepted, hsub, ?_, ?_, ?_, ?_, ?_⟩ <;> rw [hok]
    · simp only [Service.closeIdle]
      omega
    · exact List.nodup_cons.mpr ⟨hopenidle, hs.closes⟩
    · simp [Service.closeIdle, hzero]
    · exact hs.idle_made
    · exact List.forall_mem_cons.mpr ⟨hs.idle_made, hs.closes_made⟩
  · rw [if_neg hzero] at hok
    refine ⟨ha ▸ hs.accepted, hsub, ?_, ?_, ?_, ?_, ?_⟩ <;> rw [hok]
    · simp only
      omega
    · exact hs.closes
    · simp only [hopenidle, hzero]
    · exact hs.idle_made
    · exact hs.closes_made

lemma Counted.of_eq {s t : Lifecycle} (hs : Counted s) (ha : t.accepted = s.accepted)
    (he : t.ended = s.ended) (hactive : t.service.activeRequests = s.service.activeRequests)
    (hidle : t.service.idle = s.service.idle) (hmade : t.service.made = s.service.made)
    (hcloses : t.service.closes = s.service.closes) : Counted t := by
  have hun : t.unfinished = s.unfinished := by simp [unfinished, ha, he]
  refine ⟨ha ▸ hs.accepted, ?_, ?_, hcloses ▸ hs.closes, ?_, ?_, ?_⟩
  · rw [ha, he]
    exact hs.ended
  · rw [hactive, hun]
    exact hs.active
  · rw [hidle, hcloses, hactive]
    exact hs.idle
  · rw [hidle, hmade]
    exact hs.idle_made
  · rw [hcloses, hmade]
    exact hs.closes_made

lemma Counted.step {s t : Lifecycle} {e : Event} (hs : Counted s) (h : s.step e = some t) :
    Counted t := by
  cases step_moves h with
  | same hsvc ha he => apply hs.of_eq ha he <;> rw [hsvc]
  | begins n hopen hnew hok ha he => exact hs.begins hopen hnew hok ha he
  | ends n hin hok ha he => exact hs.ends hin hok ha he
  | flags hsvc ha he => apply hs.of_eq ha he <;> rw [hsvc]

lemma reach_step {s t : Lifecycle} {e : Event} (hs : system.Reach s) (h : s.step e = some t) :
    system.Reach t :=
  TransitionSystem.Reach.step hs (show system.step s e = some t from h)

lemma counted_of_reach {s : Lifecycle} (h : system.Reach s) : Counted s :=
  h.invariant counted_start fun _ _ _ hs hstep => Counted.step hs hstep

/-! ### Once shutdown has begun -/

/-- What stays as it is from then on. -/
structure Draining (s t : Lifecycle) : Prop where
  flag : t.service.shuttingDown = true
  accepted : t.accepted = s.accepted
  idle : t.service.idle = s.service.idle

lemma Draining.step {s t : Lifecycle} {e : Event} (hflag : s.service.shuttingDown = true)
    (h : s.step e = some t) : Draining s t := by
  cases step_moves h with
  | same hsvc ha he => exact ⟨by rw [hsvc]; exact hflag, ha, by rw [hsvc]⟩
  | begins n hopen => exact absurd hflag (by simp [hopen])
  | ends n hin hok ha he =>
    refine ⟨?_, ha, ?_⟩ <;> rw [hok, Service.endRequest]
    · split <;> exact hflag
    · split <;> rfl
  | flags hsvc ha he => exact ⟨by rw [hsvc], ha, by rw [hsvc]⟩

lemma Draining.run {s t : Lifecycle} {es : List Event} (hflag : s.service.shuttingDown = true)
    (h : system.run s es = some t) : Draining s t := by
  refine TransitionSystem.run_invariant (Draining s) (fun a e b ha hab => ?_)
    ⟨hflag, rfl, rfl⟩ h
  have hb := Draining.step ha.flag hab
  exact ⟨hb.flag, hb.accepted.trans ha.accepted, hb.idle.trans ha.idle⟩

lemma inactive_step {s t : Lifecycle} {e : Event} (hs : Counted s)
    (hflag : s.service.shuttingDown = true) (hzero : s.service.activeRequests = 0)
    (h : s.step e = some t) : t.service.activeRequests = 0 := by
  cases step_moves h with
  | same hsvc ha he => rw [hsvc]; exact hzero
  | begins n hopen => exact absurd hflag (by simp [hopen])
  | ends n hin hok ha he =>
    have hlen := List.length_pos_of_mem hin
    have hact := hs.active
    omega
  | flags hsvc ha he => rw [hsvc]; exact hzero

/-- Where a `WaitForIdle` that was called while draining is. -/
inductive WaitsFor (w idle : ℕ) (s : Lifecycle) : Prop where
  | waiting (h : s.waits w = .waiting idle)
  | returnedNil (h : s.waits w = .returnedNil) (hzero : s.service.activeRequests = 0)
  | returnedErr (h : s.waits w = .returnedErr)

lemma step_waits {s t : Lifecycle} {e : Event} (w : ℕ) (h : s.step e = some t) :
    t.waits w = s.waits w ∨
      (s.waits w = .notCalled ∧ t.service = s.service ∧ t.waits w =
        if s.service.activeRequests = 0 then .returnedNil else .waiting s.service.idle) ∨
      ∃ idle, s.waits w = .waiting idle ∧ t.service = s.service ∧
        (t.waits w = .returnedErr ∨ t.waits w = .returnedNil ∧ idle ∈ s.service.closes) := by
  cases e with
  | waitForIdle v =>
    simp only [step] at h
    split at h
    · rename_i hv
      obtain rfl := Option.some.inj h
      by_cases hwv : w = v
      · subst hwv
        exact .inr (.inl ⟨hv, rfl, by simp [setWait]⟩)
      · exact .inl (by simp [setWait, hwv])
    · cases h
  | idleClosed v =>
    simp only [step] at h
    split at h
    · rename_i idle hv
      split at h
      · obtain rfl := Option.some.inj h
        by_cases hwv : w = v
        · subst hwv
          exact .inr (.inr ⟨idle, hv, rfl, .inr ⟨by simp [setWait], ‹_›⟩⟩)
        · exact .inl (by simp [setWait, hwv])
      · cases h
    · cases h
  | ctxDone v =>
    simp only [step] at h
    split at h
    · rename_i idle hv
      obtain rfl := Option.some.inj h
      by_cases hwv : w = v
      · subst hwv
        exact .inr (.inr ⟨idle, hv, rfl, .inl (by simp [setWait])⟩)
      · exact .inl (by simp [setWait, hwv])
    · cases h
  | _ =>
    simp only [step] at h
    repeat' split at h
    all_goals cases h
    all_goals exact .inl rfl

lemma WaitsFor.step {s t : Lifecycle} {e : Event} {w : ℕ} (hs : Counted s)
    (hflag : s.service.shuttingDown = true) (hw : WaitsFor w s.service.idle s)
    (h : s.step e = some t) : WaitsFor w t.service.idle t := by
  have hidle : t.service.idle = s.service.idle := (Draining.step hflag h).idle
  have hkeep := fun hzero => inactive_step hs hflag hzero h
  rw [hidle]
  rcases step_waits w h with hsame | ⟨hnot, -, -⟩ | ⟨idle, hwait, hsvc, hret⟩
  · cases hw with
    | waiting hw => exact .waiting (hsame.trans hw)
    | returnedNil hw hzero => exact .returnedNil (hsame.trans hw) (hkeep hzero)
    | returnedErr hw => exact .returnedErr (hsame.trans hw)
  · cases hw <;> simp_all
  · -- it waits on the current channel, so what is closed is that one
    cases hw with
    | waiting hw =>
      obtain rfl : s.service.idle = idle := by
        rw [hw] at hwait
        exact WaitCall.waiting.inj hwait
      rcases hret with herr | ⟨hnil, hclosed⟩
      · exact .returnedErr herr
      · exact .returnedNil hnil (hkeep (hs.idle.mp hclosed))
    | _ => simp_all

/-- Each of the connections is closed, or still to be closed by this call of `closeAll`, which
does not return before. -/
structure Closing (b : ℕ) (connections : List ℕ) (s : Lifecycle) : Prop where
  closed : s.service.websockets.closed = true
  connections : ∀ c ∈ connections, c ∈ s.closedSockets ∨
    ∃ pending, s.shutdowns b = .closing pending ∧ c ∈ pending
  called : s.shutdowns b = .returned ∨ ∃ pending, s.shutdowns b = .closing pending

lemma WebsocketRegistry.add_closed (r : WebsocketRegistry) (c : Option ℕ) :
    (r.add c).1.closed = r.closed := by
  cases c with
  | none => rfl
  | some c =>
    simp only [WebsocketRegistry.add]
    split <;> rfl

lemma Closing.of_eq {b : ℕ} {connections : List ℕ} {s t : Lifecycle} (hs : Closing b connections s)
    (hclosed : t.service.websockets.closed = true) (hsockets : s.closedSockets ⊆ t.closedSockets)
    (hcall : t.shutdowns b = s.shutdowns b) : Closing b connections t :=
  ⟨hclosed, fun c hc => (hs.connections c hc).imp (fun h => hsockets h) (by rw [hcall]; exact id),
    by rw [hcall]; exact hs.called⟩

lemma Closing.step {b : ℕ} {connections : List ℕ} {s t : Lifecycle} {e : Event}
    (hs : Closing b connections s) (h : s.step e = some t) : Closing b connections t := by
  have hnot : s.shutdowns b ≠ .notCalled ∧ s.shutdowns b ≠ .flagged := by
    rcases hs.called with hc | ⟨pending, hc⟩ <;> simp [hc]
  cases e with
  | beginRequest n =>
    simp only [Lifecycle.step] at h
    repeat' split at h
    · cases h
    · cases h
      exact hs
    · rename_i hok
      cases h
      exact hs.of_eq (by rw [Service.beginRequest_websockets hok, hs.closed]) (fun _ hx => hx) rfl
  | endRequest n =>
    simp only [Lifecycle.step] at h
    split at h
    · cases h
      exact hs.of_eq (by rw [Service.endRequest_websockets, hs.closed]) (fun _ hx => hx) rfl
    · cases h
  | add c =>
    cases h
    exact hs.of_eq ((WebsocketRegistry.add_closed _ c).trans hs.closed) (fun _ hx => hx) rfl
  | remove c =>
    cases h
    exact hs.of_eq hs.closed (fun _ hx => hx) rfl
  | beginShutdown v =>
    simp only [Lifecycle.step] at h
    split at h
    · rename_i hv
      cases h
      have hbv : b ≠ v := fun hbv => hnot.1 (hbv ▸ hv)
      exact hs.of_eq hs.closed (fun _ hx => hx) (by simp [setShutdown, hbv])
    · cases h
  | closeAll v =>
    simp only [Lifecycle.step] at h
    split at h
    · rename_i hv
      cases h
      have hbv : b ≠ v := fun hbv => hnot.2 (hbv ▸ hv)
      exact hs.of_eq rfl (fun _ hx => hx) (by simp [setShutdown, hbv])
    · cases h
  | closeConnection v c =>
    simp only [Lifecycle.step] at h
    repeat' split at h
    · rename_i pending hv hin
      cases h
      by_cases hbv : b = v
      · -- this call closes one of its own
        subst hbv
        refine ⟨hs.closed, fun x hx => ?_, .inr ⟨pending.filter (· ≠ c), by simp [setShutdown]⟩⟩
        rcases hs.connections x hx with hdone | ⟨pending', hp, hmem⟩
        · exact .inl (List.mem_cons_of_mem _ hdone)
        · obtain rfl : pending = pending' := by
            rw [hv] at hp
            exact ShutdownCall.closing.inj hp
          by_cases hxc : x = c
          · exact .inl (by simp [setShutdown, hxc])
          · exact .inr ⟨pending.filter (· ≠ c), by simp [setShutdown], by simp [hmem, hxc]⟩
      · exact hs.of_eq hs.closed (fun _ hx => List.mem_cons_of_mem _ hx)
          (by simp [setShutdown, hbv])
    · cases h
    · cases h
  | shutdownReturns v =>
    simp only [Lifecycle.step] at h
    split at h
    · rename_i hv
      cases h
      by_cases hbv : b = v
      · subst hbv
        refine ⟨hs.closed, fun x hx => .inl ?_, .inl (by simp [setShutdown])⟩
        rcases hs.connections x hx with hdone | ⟨pending, hp, hmem⟩
        · exact hdone
        · rw [hv] at hp
          cases hp
          cases hmem
      · exact hs.of_eq hs.closed (fun _ hx => hx) (by simp [setShutdown, hbv])
    · cases h
  | _ =>
    simp only [Lifecycle.step] at h
    repeat' split at h
    all_goals cases h
    all_goals exact hs.of_eq hs.closed (fun _ hx => hx) rfl

lemma registered_step {s t : Lifecycle} {e : Event} {c : ℕ}
    (hc : c ∈ s.service.websockets.connections) (he : e ≠ .remove c) (h : s.step e = some t) :
    c ∈ t.service.websockets.connections := by
  cases e with
  | beginRequest n =>
    simp only [step] at h
    repeat' split at h
    · cases h
    · cases h
      exact hc
    · rename_i hok
      cases h
      rw [Service.beginRequest_websockets hok]
      exact hc
  | endRequest n =>
    simp only [step] at h
    split at h
    · cases h
      rw [Service.endRequest_websockets]
      exact hc
    · cases h
  | add d =>
    cases h
    cases d with
    | none => exact hc
    | some d =>
      simp only [WebsocketRegistry.add]
      split
      · exact hc
      · exact List.mem_insert_of_mem hc
  | remove d =>
    cases h
    have hcd : c ≠ d := fun hcd => he (hcd ▸ rfl)
    simpa [WebsocketRegistry.remove, hcd] using hc
  | _ =>
    simp only [step] at h
    repeat' split at h
    all_goals cases h
    all_goals exact hc

lemma registered_run {s t : Lifecycle} {es : List Event} {c : ℕ}
    (hc : c ∈ s.service.websockets.connections) (hes : Event.remove c ∉ es)
    (h : system.run s es = some t) : c ∈ t.service.websockets.connections := by
  induction es generalizing s with
  | nil =>
    obtain rfl := Option.some.inj h
    exact hc
  | cons e es ih =>
    obtain ⟨u, hu, h⟩ := TransitionSystem.run_cons.mp h
    rw [List.mem_cons, not_or] at hes
    exact ih (registered_step hc (fun he => hes.1 he.symm) hu) hes.2 h

lemma closing_closeAll {s t : Lifecycle} {b : ℕ} (h : s.step (.closeAll b) = some t) :
    Closing b s.service.websockets.connections t := by
  simp only [step] at h
  split at h
  · cases h
    exact ⟨rfl, fun c hc => .inr ⟨_, by simp [setShutdown, WebsocketRegistry.closeAll], hc⟩,
      .inr ⟨s.service.websockets.connections, by simp [setShutdown, WebsocketRegistry.closeAll]⟩⟩
  · cases h

lemma Closing.run {b : ℕ} {connections : List ℕ} {s t : Lifecycle} {es : List Event}
    (hs : Closing b connections s) (h : system.run s es = some t) : Closing b connections t :=
  TransitionSystem.run_invariant (Closing b connections)
    (fun _ _ _ hs h => Closing.step hs h) hs h

/-- A `WaitForIdle` that is called while draining and returns `nil` finds nobody active, for
good. -/
lemma idle_after_wait {s t u v : Lifecycle} {w : ℕ} {es fs : List Event} (hs : system.Reach s)
    (hflag : s.service.shuttingDown = true) (hwait : s.step (.waitForIdle w) = some t)
    (hrun : system.run t es = some u) (hnil : u.waits w = .returnedNil)
    (hmore : system.run u fs = some v) : v.service.activeRequests = 0 := by
  have hdrain := Draining.step hflag hwait
  have ht : WaitsFor w t.service.idle t := by
    rw [hdrain.idle]
    rcases step_waits w hwait with hsame | ⟨hnot, hsvc, hret⟩ | ⟨idle, hw, -, -⟩
    · -- a call that returns at once is a step of this call
      simp only [step] at hwait
      split at hwait
      · rename_i hnot
        cases hwait
        simp only [setWait, Function.update_self] at hsame
        rw [hnot] at hsame
        split at hsame <;> cases hsame
      · cases hwait
    · by_cases hzero : s.service.activeRequests = 0
      · rw [if_pos hzero] at hret
        exact .returnedNil hret (by rw [hsvc]; exact hzero)
      · rw [if_neg hzero] at hret
        exact .waiting hret
    · simp only [step, hw] at hwait
      cases hwait
  have htr : system.Reach t := reach_step hs hwait
  obtain ⟨hu, huflag, huwait⟩ := TransitionSystem.run_invariant
    (fun x => Counted x ∧ x.service.shuttingDown = true ∧ WaitsFor w x.service.idle x)
    (fun x e y hx hxy =>
      ⟨hx.1.step hxy, (Draining.step hx.2.1 hxy).flag, hx.2.2.step hx.1 hx.2.1 hxy⟩)
    ⟨counted_of_reach htr, hdrain.flag, ht⟩ hrun
  have hzero : u.service.activeRequests = 0 := by
    cases huwait with
    | returnedNil _ hzero => exact hzero
    | waiting h => rw [hnil] at h; cases h
    | returnedErr h => rw [hnil] at h; cases h
  exact (TransitionSystem.run_invariant
    (fun x => Counted x ∧ x.service.shuttingDown = true ∧ x.service.activeRequests = 0)
    (fun x e y hx hxy =>
      ⟨hx.1.step hxy, (Draining.step hx.2.1 hxy).flag, inactive_step hx.1 hx.2.1 hx.2.2 hxy⟩)
    ⟨hu, huflag, hzero⟩ hmore).2.2

lemma all_ended {s : Lifecycle} (hs : Counted s) (hzero : s.service.activeRequests = 0) :
    ∀ h ∈ s.accepted, h ∈ s.ended := by
  have hlen : s.unfinished.length = 0 := by
    have := hs.active
    omega
  intro h hh
  by_contra hend
  have hin : h ∈ s.unfinished := List.mem_filter.mpr ⟨hh, by simpa using hend⟩
  rw [List.length_eq_zero_iff.mp hlen] at hin
  cases hin

/-- **Graceful shutdown.** In every state that any interleaving reaches the counter counts the
accepted unfinished handlers, and the idle channel is closed, never twice, exactly when there is
none. Once the flag is set nobody is accepted; a `WaitForIdle` called from then on that returns
`nil` finds every accepted handler ended, for good; and a connection that was registered and not
removed is closed by `closeAll`, after which every connection is refused. -/
theorem graceful_shutdown {s : Lifecycle} (hs : system.Reach s) :
    s.service.activeRequests = s.unfinished.length ∧
    (s.service.idle ∈ s.service.closes ↔ s.service.activeRequests = 0) ∧
    s.service.closes.Nodup ∧
    (s.service.shuttingDown = true → ∀ es t, system.run s es = some t →
      t.accepted = s.accepted ∧ t.service.beginRequest =
        .error ⟨503, "5", "server_shutting_down", "CodexOne is shutting down; retry shortly"⟩) ∧
    (s.service.shuttingDown = true → ∀ w t es u, s.step (.waitForIdle w) = some t →
      system.run t es = some u → u.waits w = .returnedNil → ∀ fs v, system.run u fs = some v →
        v.service.activeRequests = 0 ∧ ∀ h ∈ v.accepted, h ∈ v.ended) ∧
    (∀ c t es u b v fs x, s.step (.add (some c)) = some t →
      (s.service.websockets.add (some c)).2 = true → system.run t es = some u →
      .remove c ∉ es → u.step (.closeAll b) = some v → system.run v fs = some x →
        (x.shutdowns b = .returned → c ∈ x.closedSockets) ∧
        ∀ d, (x.service.websockets.add d).2 = false) := by
  have hcount := counted_of_reach hs
  refine ⟨hcount.active, hcount.idle, hcount.closes, ?_, ?_, ?_⟩
  · intro hflag es t hrun
    have hdrain := Draining.run hflag hrun
    refine ⟨hdrain.accepted, ?_⟩
    rw [Service.beginRequest, if_pos hdrain.flag]
  · intro hflag w t es u hwait hrun hnil fs v hmore
    have hzero := idle_after_wait hs hflag hwait hrun hnil hmore
    have hv : system.Reach v := ((reach_step hs hwait).run hrun).run hmore
    exact ⟨hzero, all_ended (counted_of_reach hv) hzero⟩
  · intro c t es u b v fs x hadd htaken hrun hkept hclose hmore
    have hmem : c ∈ t.service.websockets.connections := by
      cases hadd
      simp only [WebsocketRegistry.add] at htaken ⊢
      split at htaken
      · cases htaken
      · rw [if_neg ‹_›]
        exact List.mem_insert_self
    have hclosing := (closing_closeAll hclose).run hmore
    refine ⟨fun hret => ?_, fun d => ?_⟩
    · rcases hclosing.connections c (registered_run hmem hkept hrun) with hdone | ⟨pending, hp, -⟩
      · exact hdone
      · rw [hret] at hp
        cases hp
    · cases d with
      | none => rfl
      | some d => simp only [WebsocketRegistry.add, if_pos hclosing.closed]

/-- A request and a registered socket when shutdown begins. -/
def drainingSample : List Event := [.beginRequest 1, .add (some 7), .beginShutdown 0]

def drained : Lifecycle :=
  ⟨⟨1, true, 1, 2, [0], ⟨[7], false⟩⟩, [1], [],
    Function.update (fun _ => .notCalled) 0 .flagged, fun _ => .notCalled, []⟩

theorem graceful_shutdown_drained :
    drained.unfinished = [1] ∧
    (∀ w t es u, drained.step (.waitForIdle w) = some t →
      system.run t es = some u → u.waits w = .returnedNil → ∀ fs v, system.run u fs = some v →
        v.service.activeRequests = 0 ∧ ∀ h ∈ v.accepted, h ∈ v.ended) ∧
    ((system.run drained [.waitForIdle 0, .closeAll 0, .closeConnection 0 7, .shutdownReturns 0,
      .endRequest 1, .idleClosed 0]).any fun s =>
        s.waits 0 matches .returnedNil && s.closedSockets == [7]) = true := by
  have h := graceful_shutdown (s := drained) ⟨drainingSample, rfl⟩
  exact ⟨rfl, h.2.2.2.2.1 rfl, by decide⟩

end Lifecycle

end CodexOne
