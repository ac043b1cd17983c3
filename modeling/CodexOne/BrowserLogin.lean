import CodexOne.BrowserCallback
import CodexOne.Lib.Transition

/-!
Calls of `CompleteBrowserFlow` on one stored browser login.

Each call reads the flow, checks it and its callback, sends the code, replaces the credential and
deletes the flow, with the steps of other calls in between. Beside the store the system keeps what
the token endpoint was sent, which calls replaced the credential, and why the flow was deleted.
-/

namespace CodexOne.Codex

open Url

structure BrowserFlow where
  state : Bytes
  verifier : Bytes
  expiresAt : ℤ
  deriving DecidableEq

/-- What a call answers, a failure with its message. -/
inductive Answer where
  | connected
  | failed (message : Bytes)
  deriving DecidableEq

def Answer.input (message : String) : Answer := .failed (ascii (browserOAuthInputError message))

/-- How far a call of `CompleteBrowserFlow` has come: what it does next, with what it needs for
it. -/
inductive CompleteCall where
  | check (flow : BrowserFlow) (input : Bytes)
  | deleteExpired
  | deleteRefused (callback : BrowserCallback)
  | exchange (flow : BrowserFlow) (callback : BrowserCallback)
  | replace (callback : BrowserCallback)
  | deleteUsed (callback : BrowserCallback)
  | ended (answer : Answer)
  deriving DecidableEq

/-- The message about a refused authorization. -/
def refusal (callback : BrowserCallback) : Answer :=
  .failed (ascii (browserOAuthInputError "OpenAI authorization failed: ") ++ callback.error ++
    if callback.errorDescription ≠ [] then ascii ": " ++ callback.errorDescription else [])

/-- What `CompleteBrowserFlow` makes of the flow and the callback, given the time. -/
def checkCallback (now : ℤ) (flow : BrowserFlow) (input : Bytes) : CompleteCall :=
  if flow.expiresAt ≤ now then .deleteExpired
  else match parseBrowserCallback input with
    | .error message => .ended (.failed (ascii message))
    | .ok callback =>
      if callback.error ≠ [] then .deleteRefused callback
      else if callback.state ≠ flow.state then
        .ended (.input "OAuth state does not match; restart login and paste the new callback URL")
      else .exchange flow callback

/-- What a call does next once it has read the store. -/
def readFlow (input : Bytes) : Option BrowserFlow → CompleteCall
  | none => .ended (.input "browser login expired or was not found")
  | some flow => .check flow input

/-- A code that the token endpoint was sent, with its verifier, the time, and whether the
credential had been replaced by then. -/
structure SentCode where
  callback : BrowserCallback
  verifier : Bytes
  time : ℤ
  completed : Bool
  deriving DecidableEq

/-- Why the flow was deleted: it had expired, or a callback said so. -/
inductive Deletion where
  | expired (time : ℤ)
  | answered (callback : BrowserCallback)
  deriving DecidableEq

/-- The flow had expired, or the callback carries its state. -/
def Deletion.Allowed (flow : BrowserFlow) : Deletion → Prop
  | .expired time => flow.expiresAt ≤ time
  | .answered callback => callback.state = flow.state

instance (flow : BrowserFlow) : DecidablePred (Deletion.Allowed flow)
  | .expired time => inferInstanceAs (Decidable (flow.expiresAt ≤ time))
  | .answered callback => inferInstanceAs (Decidable (callback.state = flow.state))

/-- The stored flow, the calls on it, and what they have done. -/
structure BrowserLogin where
  clock : ℤ
  entry : Option BrowserFlow
  calls : List CompleteCall
  sent : List SentCode
  replaced : List BrowserCallback
  deletions : List Deletion
  deriving DecidableEq

namespace BrowserLogin

/-- A step of a call or of its surroundings. The token endpoint and the credential store answer
with an error message or none; `evict` is the session store's own expiry. -/
inductive Event where
  | tick (now : ℤ)
  | evict
  | get (input : Bytes)
  | check (c : ℕ)
  | exchange (c : ℕ) (error : Option Bytes)
  | replace (c : ℕ) (error : Option Bytes)
  | delete (c : ℕ)

def next (call : CompleteCall) : Option Bytes → CompleteCall
  | none => call
  | some message => .ended (.failed message)

def setCall (s : BrowserLogin) (c : ℕ) (call : CompleteCall) : BrowserLogin :=
  { s with calls := s.calls.set c call }

/-- The step of an event. The session store drops the flow at the time `dropped` at the
earliest. -/
def step (dropped : ℤ) (s : BrowserLogin) : Event → Option BrowserLogin
  | .tick now => if s.clock ≤ now then some { s with clock := now } else none
  | .evict => if dropped ≤ s.clock then some { s with entry := none } else none
  | .get input =>
    some { s with calls := s.calls ++ [readFlow input s.entry] }
  | .check c =>
    match s.calls[c]? with
    | some (.check flow input) => some (s.setCall c (checkCallback s.clock flow input))
    | _ => none
  | .exchange c error =>
    match s.calls[c]? with
    | some (.exchange flow callback) =>
      some { s.setCall c (next (.replace callback) error) with
        sent := s.sent ++ [⟨callback, flow.verifier, s.clock, s.replaced ≠ []⟩] }
    | _ => none
  | .replace c error =>
    match s.calls[c]? with
    | some (.replace callback) =>
      some { s.setCall c (next (.deleteUsed callback) error) with
        replaced := if error = none then s.replaced ++ [callback] else s.replaced }
    | _ => none
  | .delete c =>
    match s.calls[c]? with
    | some .deleteExpired =>
      some { s.setCall c (.ended (.input "browser login expired")) with
        entry := none, deletions := s.deletions ++ [.expired s.clock] }
    | some (.deleteRefused callback) =>
      some { s.setCall c (.ended (refusal callback)) with
        entry := none, deletions := s.deletions ++ [.answered callback] }
    | some (.deleteUsed callback) =>
      some { s.setCall c (.ended .connected) with
        entry := none, deletions := s.deletions ++ [.answered callback] }
    | _ => none

def system (flow : BrowserFlow) (dropped now : ℤ) : TransitionSystem BrowserLogin Event where
  start := { clock := now, entry := some flow, calls := [], sent := [], replaced := []
             deletions := [] }
  step := step dropped

/-- The discipline of a login: at most one call replaces the credential; a code is sent only for a
callback with the state of the flow, before the flow expires and before the credential is replaced;
only a callback with its state deletes a flow that has not expired; and until then it can be used.
-/
structure Disciplined (flow : BrowserFlow) (dropped : ℤ) (s : BrowserLogin) : Prop where
  replaced : s.replaced.length ≤ 1
  sent : ∀ e ∈ s.sent, e.callback.state = flow.state ∧ e.time < flow.expiresAt ∧ e.completed = false
  deleted : ∀ d ∈ s.deletions, d.Allowed flow
  usable : s.entry = some flow ∨ dropped ≤ s.clock ∨ s.deletions ≠ []

/-- The callback has a code and the state of the flow. -/
def Carries (flow : BrowserFlow) (input : Bytes) : Prop :=
  ∃ callback ∈ (parseBrowserCallback input).toOption, callback.error = [] ∧
    callback.state = flow.state

instance (flow : BrowserFlow) : DecidablePred (Carries flow) :=
  fun _ => inferInstanceAs (Decidable (∃ _ ∈ _, _))

/-- A call that has read the flow and may still replace the credential. -/
def Pending (flow : BrowserFlow) : CompleteCall → Prop
  | .check _ input => Carries flow input
  | .exchange .. | .replace _ => True
  | _ => False

instance (flow : BrowserFlow) : DecidablePred (Pending flow)
  | .check _ input => inferInstanceAs (Decidable (Carries flow input))
  | .exchange .. | .replace _ => inferInstanceAs (Decidable True)
  | .deleteExpired | .deleteRefused _ | .deleteUsed _ | .ended _ =>
    inferInstanceAs (Decidable False)

/-- A call that has replaced the credential and is to delete the flow. -/
def Used : CompleteCall → Prop
  | .deleteUsed _ => True
  | _ => False

instance : DecidablePred Used
  | .deleteUsed _ => inferInstanceAs (Decidable True)
  | .check .. | .deleteExpired | .deleteRefused _ | .exchange .. | .replace _ | .ended _ =>
    inferInstanceAs (Decidable False)

/-- A refused authorization carries the state of the flow. -/
def RefusalCarries (flow : BrowserFlow) (input : Bytes) : Prop :=
  ∀ callback ∈ (parseBrowserCallback input).toOption, callback.error ≠ [] →
    callback.state = flow.state

instance (flow : BrowserFlow) : DecidablePred (RefusalCarries flow) :=
  fun _ => inferInstanceAs (Decidable (∀ _ ∈ _, _))

/-- The call is not about to send a code after the flow has expired. -/
def InTime (now : ℤ) : CompleteCall → Prop
  | .exchange flow _ => now < flow.expiresAt
  | _ => True

instance (now : ℤ) : DecidablePred (InTime now)
  | .exchange flow _ => inferInstanceAs (Decidable (now < flow.expiresAt))
  | .check .. | .deleteExpired | .deleteRefused _ | .replace _ | .deleteUsed _ | .ended _ =>
    inferInstanceAs (Decidable True)

/-- The check of this call does not let a refusal with another state through. -/
def ChecksRefusal (flow : BrowserFlow) (clock : ℤ) : Option CompleteCall → Prop
  | some (.check f input) => f.expiresAt ≤ clock ∨ RefusalCarries flow input
  | _ => True

instance (flow : BrowserFlow) (clock : ℤ) : DecidablePred (ChecksRefusal flow clock)
  | some (.check f input) =>
    inferInstanceAs (Decidable (f.expiresAt ≤ clock ∨ RefusalCarries flow input))
  | none | some (.exchange ..) | some .deleteExpired | some (.deleteRefused _)
  | some (.replace _) | some (.deleteUsed _) | some (.ended _) => inferInstanceAs (Decidable True)

/-- What a run has to be like: a call with the state of the flow reads the flow when no other such
call is on its way; the flow does not expire between the check of a call and its exchange; and no
callback with an error but without the state of the flow is checked while the flow is valid. -/
def Orderly (flow : BrowserFlow) (s : BrowserLogin) : Event → Prop
  | .tick now => ∀ call ∈ s.calls, InTime now call
  | .get input =>
    s.entry = none ∨ ¬Carries flow input ∨ ∀ call ∈ s.calls, ¬Pending flow call ∧ ¬Used call
  | .check c => ChecksRefusal flow s.clock s.calls[c]?
  | _ => True

instance (flow : BrowserFlow) (s : BrowserLogin) : DecidablePred (Orderly flow s)
  | .tick now => inferInstanceAs (Decidable (∀ call ∈ s.calls, InTime now call))
  | .get input => inferInstanceAs (Decidable (s.entry = none ∨ ¬Carries flow input ∨
      ∀ call ∈ s.calls, ¬Pending flow call ∧ ¬Used call))
  | .check c => inferInstanceAs (Decidable (ChecksRefusal flow s.clock s.calls[c]?))
  | .evict | .exchange .. | .replace .. | .delete _ => inferInstanceAs (Decidable True)

section Counting

variable {p : CompleteCall → Prop} [DecidablePred p] {calls : List CompleteCall} {c : ℕ}
  {old new call : CompleteCall}

/-- How many of the calls are of a kind. -/
def count (p : CompleteCall → Prop) [DecidablePred p] (calls : List CompleteCall) : ℕ :=
  calls.countP fun call => decide (p call)

/-- One call of a kind or none. -/
def one (p : CompleteCall → Prop) [DecidablePred p] (call : CompleteCall) : ℕ :=
  if p call then 1 else 0

lemma one_of (h : p call) : one p call = 1 := if_pos h

lemma one_of_not (h : ¬p call) : one p call = 0 := if_neg h

lemma one_le_one (h : p new → p old) : one p new ≤ one p old := by
  by_cases hp : p new
  · rw [one_of hp, one_of (h hp)]
  · rw [one_of_not hp]
    exact Nat.zero_le _

lemma one_eq_one (hold : ¬p old) (hnew : ¬p new) : one p new = one p old := by
  rw [one_of_not hold, one_of_not hnew]

variable (p new) in
lemma count_set (h : calls[c]? = some old) :
    count p (calls.set c new) + one p old = count p calls + one p new := by
  induction calls generalizing c with
  | nil => simp at h
  | cons call calls ih =>
    unfold count one at ih ⊢
    cases c with
    | zero =>
      obtain rfl := Option.some.inj h
      simp only [List.set_cons_zero, List.countP_cons, decide_eq_true_eq]
      omega
    | succ c =>
      have hrest := ih (c := c) (by simpa using h)
      simp only [List.set_cons_succ, List.countP_cons]
      omega

lemma one_le_count (h : calls[c]? = some old) (hp : p old) : 1 ≤ count p calls :=
  List.countP_pos_iff.mpr ⟨old, List.mem_of_getElem? h, decide_eq_true hp⟩

lemma count_append_single : count p (calls ++ [call]) = count p calls + one p call := by
  simp [count, one, List.countP_append, List.countP_cons]

lemma count_eq_zero (h : ∀ call ∈ calls, ¬p call) : count p calls = 0 :=
  List.countP_eq_zero.mpr fun call hcall hp => h call hcall (of_decide_eq_true hp)

end Counting

/-! ### The invariant -/

variable {flow : BrowserFlow} {dropped : ℤ} {s t : BrowserLogin} {e : Event} {c : ℕ}
  {answer : Answer}

/-- What holds of a call, by how far it has come. -/
def CallOk (flow : BrowserFlow) (clock : ℤ) : CompleteCall → Prop
  | .check f _ => f = flow
  | .deleteExpired => flow.expiresAt ≤ clock
  | .deleteRefused callback => callback.state = flow.state
  | .exchange f callback => f = flow ∧ callback.state = flow.state ∧ clock < flow.expiresAt
  | .replace callback => callback.state = flow.state
  | .deleteUsed callback => callback.state = flow.state
  | .ended _ => True

/-- Where the login stands: the credential has not been replaced and at most one call is about to;
it has been, and that call is to delete the flow; or the flow is gone. -/
inductive Stage (flow : BrowserFlow) (s : BrowserLogin) : Prop
  | fresh (replaced : s.replaced = []) (used : count Used s.calls = 0)
      (pending : count (Pending flow) s.calls ≤ 1)
  | deleting (replaced : s.replaced.length = 1) (used : count Used s.calls = 1)
      (pending : count (Pending flow) s.calls = 0)
  | closed (replaced : s.replaced.length = 1) (entry : s.entry = none)
      (used : count Used s.calls = 0) (pending : count (Pending flow) s.calls = 0)

structure Inv (flow : BrowserFlow) (dropped : ℤ) (s : BrowserLogin) : Prop where
  entry : ∀ f, s.entry = some f → f = flow
  calls : ∀ call ∈ s.calls, CallOk flow s.clock call
  stage : Stage flow s
  sent : ∀ e ∈ s.sent, e.callback.state = flow.state ∧ e.time < flow.expiresAt ∧ e.completed = false
  deleted : ∀ d ∈ s.deletions, d.Allowed flow
  usable : s.entry = some flow ∨ dropped ≤ s.clock ∨ s.deletions ≠ []

lemma Stage.replaced_le (h : Stage flow s) : s.replaced.length ≤ 1 := by
  cases h with
  | fresh replaced => simp [replaced]
  | deleting replaced => omega
  | closed replaced => omega

lemma Stage.replaced_nil {old : CompleteCall} (h : Stage flow s) (hc : s.calls[c]? = some old)
    (hp : Pending flow old) : s.replaced = [] := by
  have hone := one_le_count hc hp
  cases h with
  | fresh replaced => exact replaced
  | deleting _ _ pending => omega
  | closed _ _ _ pending => omega

lemma Inv.disciplined (h : Inv flow dropped s) : Disciplined flow dropped s where
  replaced := h.stage.replaced_le
  sent := h.sent
  deleted := h.deleted
  usable := h.usable

/-- A call goes on without taking part in the replacement, in a login that stands where it stood. -/
lemma Stage.set {old new : CompleteCall} (h : Stage flow s) (hc : s.calls[c]? = some old)
    (hused : one Used new = one Used old)
    (hpending : one (Pending flow) new ≤ one (Pending flow) old)
    (hcalls : t.calls = s.calls.set c new) (hreplaced : t.replaced = s.replaced)
    (hentry : s.entry = none → t.entry = none) : Stage flow t := by
  have hu := count_set Used new hc
  have hp := count_set (Pending flow) new hc
  rw [← hcalls] at hu hp
  cases h with
  | fresh replaced used pending =>
    exact .fresh (hreplaced.trans replaced) (by omega) (by omega)
  | deleting replaced used pending =>
    exact .deleting (by rw [hreplaced, replaced]) (by omega) (by omega)
  | closed replaced entry used pending =>
    exact .closed (by rw [hreplaced, replaced]) (hentry entry) (by omega) (by omega)

lemma calls_set {clock : ℤ} {calls : List CompleteCall} {new : CompleteCall}
    (h : ∀ call ∈ calls, CallOk flow clock call) (hnew : CallOk flow clock new) :
    ∀ call ∈ calls.set c new, CallOk flow clock call := by
  intro call hcall
  rcases List.mem_or_eq_of_mem_set hcall with hcall | rfl
  · exact h call hcall
  · exact hnew

/-! ### The steps -/

lemma inv_start (now : ℤ) : Inv flow dropped (system flow dropped now).start where
  entry _ h := (Option.some.inj h).symm
  calls := nofun
  stage := .fresh rfl rfl (Nat.zero_le 1)
  sent := nofun
  deleted := nofun
  usable := .inl rfl

lemma inv_tick {now : ℤ} (hi : Inv flow dropped s) (hgood : ∀ call ∈ s.calls, InTime now call)
    (hclock : s.clock ≤ now) : Inv flow dropped { s with clock := now } where
  entry := hi.entry
  calls call hcall := by
    have hok := hi.calls call hcall
    have htime := hgood call hcall
    cases call with
    | deleteExpired => exact Int.le_trans hok hclock
    | exchange f callback => exact ⟨hok.1, hok.2.1, hok.1 ▸ htime⟩
    | _ => exact hok
  stage := by
    cases hi.stage with
    | fresh replaced used pending => exact .fresh replaced used pending
    | deleting replaced used pending => exact .deleting replaced used pending
    | closed replaced entry used pending => exact .closed replaced entry used pending
  sent := hi.sent
  deleted := hi.deleted
  usable := by
    rcases hi.usable with h | h | h
    · exact .inl h
    · exact .inr (.inl (Int.le_trans h hclock))
    · exact .inr (.inr h)

lemma inv_evict (hi : Inv flow dropped s) (hdropped : dropped ≤ s.clock) :
    Inv flow dropped { s with entry := none } where
  entry := nofun
  calls := hi.calls
  stage := by
    cases hi.stage with
    | fresh replaced used pending => exact .fresh replaced used pending
    | deleting replaced used pending => exact .deleting replaced used pending
    | closed replaced _ used pending => exact .closed replaced rfl used pending
  sent := hi.sent
  deleted := hi.deleted
  usable := .inr (.inl hdropped)

/-- A call is added that may replace the credential only if no other one is about to or has. -/
lemma inv_append {new : CompleteCall} (hi : Inv flow dropped s) (hnew : CallOk flow s.clock new)
    (hused : ¬Used new) (hpending : Pending flow new →
      s.entry ≠ none ∧ ∀ call ∈ s.calls, ¬Pending flow call ∧ ¬Used call) :
    Inv flow dropped { s with calls := s.calls ++ [new] } where
  entry := hi.entry
  calls call hcall := by
    rcases List.mem_append.mp hcall with hcall | hcall
    · exact hi.calls call hcall
    · exact List.mem_singleton.mp hcall ▸ hnew
  stage := by
    have hu : count Used (s.calls ++ [new]) = count Used s.calls := by
      rw [count_append_single, one_of_not hused, Nat.add_zero]
    by_cases hp : Pending flow new
    · -- the new call is the only one that may replace
      obtain ⟨hentry, hothers⟩ := hpending hp
      have hnone := count_eq_zero fun call hcall => (hothers call hcall).1
      have hunused := count_eq_zero fun call hcall => (hothers call hcall).2
      have hone : count (Pending flow) (s.calls ++ [new]) = 1 := by
        rw [count_append_single, hnone, one_of hp]
      cases hi.stage with
      | fresh replaced used pending => exact .fresh replaced (hu.trans used) hone.le
      | deleting replaced used pending => omega
      -- the flow is deleted, so nobody has read it just now
      | closed replaced entry used pending => exact absurd entry hentry
    · -- the call does not count, so the stage is the same
      have hp' : count (Pending flow) (s.calls ++ [new]) = count (Pending flow) s.calls := by
        rw [count_append_single, one_of_not hp, Nat.add_zero]
      cases hi.stage with
      | fresh replaced used pending =>
        exact .fresh replaced (hu.trans used) (hp'.trans_le pending)
      | deleting replaced used pending =>
        exact .deleting replaced (hu.trans used) (hp'.trans pending)
      | closed replaced entry used pending =>
        exact .closed replaced entry (hu.trans used) (hp'.trans pending)
  sent := hi.sent
  deleted := hi.deleted
  usable := hi.usable

lemma inv_get {input : Bytes} (hi : Inv flow dropped s) (hgood : Orderly flow s (.get input)) :
    Inv flow dropped { s with calls := s.calls ++ [readFlow input s.entry] } := by
  cases hentry : s.entry with
  | none =>
    rw [← hentry]
    refine inv_append hi ?_ ?_ ?_
    · rw [hentry]
      trivial
    · rw [hentry]
      exact id
    · rw [hentry]
      exact nofun
  | some f =>
    rw [← hentry]
    refine inv_append hi ?_ ?_ ?_
    · rw [hentry]
      exact hi.entry f hentry
    · rw [hentry]
      exact id
    · rw [hentry]
      refine fun hcarries => ⟨by simp, ?_⟩
      rcases hgood with h | h | h
      · rw [hentry] at h
        cases h
      · exact absurd hcarries h
      · exact h

/-- What the check makes of a call: it never replaces, and it goes on to the exchange only with the
state of the flow. -/
lemma checkCallback_cases {input : Bytes} (clock : ℤ)
    (hgood : flow.expiresAt ≤ clock ∨ RefusalCarries flow input) :
    CallOk flow clock (checkCallback clock flow input) ∧ ¬Used (checkCallback clock flow input) ∧
      (Pending flow (checkCallback clock flow input) → Carries flow input) := by
  unfold checkCallback
  by_cases hexpired : flow.expiresAt ≤ clock
  · rw [if_pos hexpired]
    exact ⟨hexpired, id, nofun⟩
  · rw [if_neg hexpired]
    have hrefusal := hgood.resolve_left hexpired
    unfold RefusalCarries at hrefusal
    unfold Carries
    cases hparse : parseBrowserCallback input with
    | error message => exact ⟨trivial, id, nofun⟩
    | ok callback =>
      rw [hparse] at hrefusal
      dsimp only
      by_cases herror : callback.error ≠ []
      · rw [if_pos herror]
        exact ⟨hrefusal callback rfl herror, id, nofun⟩
      · rw [if_neg herror]
        by_cases hstate : callback.state ≠ flow.state
        · rw [if_pos hstate]
          exact ⟨trivial, id, nofun⟩
        · rw [if_neg hstate]
          rw [not_not] at herror hstate
          exact ⟨⟨rfl, hstate, Int.not_le.mp hexpired⟩, id,
            fun _ => ⟨callback, rfl, herror, hstate⟩⟩

lemma inv_set {old new : CompleteCall} (hi : Inv flow dropped s) (hc : s.calls[c]? = some old)
    (hok : CallOk flow s.clock new) (hold : ¬Used old) (hnew : ¬Used new)
    (hpending : Pending flow new → Pending flow old) : Inv flow dropped (s.setCall c new) where
  entry := hi.entry
  calls := calls_set hi.calls hok
  stage := hi.stage.set hc (one_eq_one hold hnew) (one_le_one hpending) rfl rfl id
  sent := hi.sent
  deleted := hi.deleted
  usable := hi.usable

lemma inv_check {f : BrowserFlow} {input : Bytes} (hi : Inv flow dropped s)
    (hc : s.calls[c]? = some (.check f input)) (hgood : Orderly flow s (.check c)) :
    Inv flow dropped (s.setCall c (checkCallback s.clock f input)) := by
  obtain rfl : f = flow := hi.calls _ (List.mem_of_getElem? hc)
  have hgood : ChecksRefusal f s.clock s.calls[c]? := hgood
  rw [hc] at hgood
  obtain ⟨hok, hused, hpending⟩ := checkCallback_cases s.clock hgood
  exact inv_set hi hc hok id hused hpending

lemma inv_exchange {f : BrowserFlow} {callback : BrowserCallback} {error : Option Bytes}
    (hi : Inv flow dropped s) (hc : s.calls[c]? = some (.exchange f callback)) :
    Inv flow dropped { s.setCall c (next (.replace callback) error) with
      sent := s.sent ++ [⟨callback, f.verifier, s.clock, s.replaced ≠ []⟩] } := by
  obtain ⟨rfl, hstate, htime⟩ := hi.calls _ (List.mem_of_getElem? hc)
  have hset : Inv f dropped (s.setCall c (next (.replace callback) error)) := by
    cases error with
    | none => exact inv_set hi hc hstate id id fun _ => trivial
    | some message => exact inv_set hi hc trivial id id nofun
  have hnil := hi.stage.replaced_nil hc trivial
  refine ⟨hset.entry, hset.calls, ?_, fun e he => ?_, hset.deleted, hset.usable⟩
  · cases hset.stage with
    | fresh replaced used pending => exact .fresh replaced used pending
    | deleting replaced used pending => exact .deleting replaced used pending
    | closed replaced entry used pending => exact .closed replaced entry used pending
  · rcases List.mem_append.mp he with he | he
    · exact hi.sent e he
    · obtain rfl := List.mem_singleton.mp he
      exact ⟨hstate, htime, by simp [hnil]⟩

lemma inv_replace {callback : BrowserCallback} {error : Option Bytes}
    (hi : Inv flow dropped s) (hc : s.calls[c]? = some (.replace callback)) :
    Inv flow dropped { s.setCall c (next (.deleteUsed callback) error) with
      replaced := if error = none then s.replaced ++ [callback] else s.replaced } := by
  have hstate : callback.state = flow.state := hi.calls _ (List.mem_of_getElem? hc)
  cases error with
  | some message => exact inv_set hi hc trivial id id nofun
  | none =>
    have hu := count_set Used (.deleteUsed callback) hc
    have hp := count_set (Pending flow) (.deleteUsed callback) hc
    rw [one_of_not id, one_of trivial] at hu
    rw [one_of trivial, one_of_not id] at hp
    have hone := one_le_count (p := Pending flow) hc trivial
    refine ⟨hi.entry, calls_set hi.calls hstate, ?_, hi.sent, hi.deleted, hi.usable⟩
    -- the call was the only one on its way, and nothing had been replaced
    cases hi.stage with
    | fresh replaced used pending =>
      refine .deleting (by simp [replaced]) ?_ ?_
      · change count Used (s.calls.set c (.deleteUsed callback)) = 1
        omega
      · change count (Pending flow) (s.calls.set c (.deleteUsed callback)) = 0
        omega
    | deleting replaced used pending => omega
    | closed replaced entry used pending => omega

lemma inv_delete {old new : CompleteCall} {d : Deletion} (hi : Inv flow dropped s)
    (hc : s.calls[c]? = some old) (hold : ¬Used old) (hnew : new = .ended answer)
    (hd : d.Allowed flow) : Inv flow dropped { s.setCall c new with
      entry := none, deletions := s.deletions ++ [d] } := by
  subst hnew
  refine ⟨nofun, calls_set hi.calls trivial, ?_, hi.sent, ?_, .inr (.inr (by simp))⟩
  · exact hi.stage.set hc (one_eq_one hold id) (one_le_one False.elim) rfl rfl fun _ => rfl
  · intro e he
    rcases List.mem_append.mp he with he | he
    · exact hi.deleted e he
    · exact List.mem_singleton.mp he ▸ hd

lemma inv_deleteUsed {callback : BrowserCallback} (hi : Inv flow dropped s)
    (hc : s.calls[c]? = some (.deleteUsed callback)) :
    Inv flow dropped { s.setCall c (.ended .connected) with
      entry := none, deletions := s.deletions ++ [.answered callback] } := by
  have hstate : callback.state = flow.state := hi.calls _ (List.mem_of_getElem? hc)
  have hu := count_set Used (.ended .connected) hc
  have hp := count_set (Pending flow) (.ended .connected) hc
  rw [one_of trivial, one_of_not id] at hu
  rw [one_of_not id, one_of_not id] at hp
  have hone := one_le_count (p := Used) hc trivial
  refine ⟨nofun, calls_set hi.calls trivial, ?_, hi.sent, ?_, .inr (.inr (by simp))⟩
  · cases hi.stage with
    | fresh replaced used pending => omega
    | deleting replaced used pending =>
      refine .closed replaced rfl ?_ ?_
      · change count Used (s.calls.set c (.ended .connected)) = 0
        omega
      · change count (Pending flow) (s.calls.set c (.ended .connected)) = 0
        omega
    | closed replaced entry used pending => omega
  · intro e he
    rcases List.mem_append.mp he with he | he
    · exact hi.deleted e he
    · exact List.mem_singleton.mp he ▸ hstate

lemma inv_step (hi : Inv flow dropped s) (hgood : Orderly flow s e)
    (hstep : step dropped s e = some t) : Inv flow dropped t := by
  cases e with
  | tick now =>
    obtain ⟨hclock, hstep⟩ := (Option.ite_none_right_eq_some).mp hstep
    exact Option.some.inj hstep ▸ inv_tick hi hgood hclock
  | evict =>
    obtain ⟨hdropped, hstep⟩ := (Option.ite_none_right_eq_some).mp hstep
    exact Option.some.inj hstep ▸ inv_evict hi hdropped
  | get input => exact Option.some.inj hstep ▸ inv_get hi hgood
  | check c =>
    rw [step] at hstep
    rcases hc : s.calls[c]? with _ | call <;> rw [hc] at hstep
    · cases hstep
    · cases call with
      | check f input => exact Option.some.inj hstep ▸ inv_check hi hc hgood
      | _ => cases hstep
  | exchange c error =>
    rw [step] at hstep
    rcases hc : s.calls[c]? with _ | call <;> rw [hc] at hstep
    · cases hstep
    · cases call with
      | exchange f callback => exact Option.some.inj hstep ▸ inv_exchange hi hc
      | _ => cases hstep
  | replace c error =>
    rw [step] at hstep
    rcases hc : s.calls[c]? with _ | call <;> rw [hc] at hstep
    · cases hstep
    · cases call with
      | replace callback => exact Option.some.inj hstep ▸ inv_replace hi hc
      | _ => cases hstep
  | delete c =>
    rw [step] at hstep
    rcases hc : s.calls[c]? with _ | call <;> rw [hc] at hstep
    · cases hstep
    · have hok := hi.calls _ (List.mem_of_getElem? hc)
      cases call with
      | deleteExpired => exact Option.some.inj hstep ▸ inv_delete hi hc id rfl hok
      | deleteRefused callback => exact Option.some.inj hstep ▸ inv_delete hi hc id rfl hok
      | deleteUsed callback => exact Option.some.inj hstep ▸ inv_deleteUsed hi hc
      | _ => cases hstep

/-- **Browser logins.** In every run of calls on a stored flow in which no two calls that carry its
state overlap, no flow expires between the check and the exchange of a call, and every refusal
carries the state, the login is disciplined. -/
theorem browser_flow_disciplined {now : ℤ} {es : List Event}
    (hgood : (system flow dropped now).Along (Orderly flow) (system flow dropped now).start es)
    (hrun : (system flow dropped now).run (system flow dropped now).start es = some s) :
    Disciplined flow dropped s :=
  (TransitionSystem.run_invariant_along (Inv flow dropped)
    (fun _ _ _ hi hgood hstep => inv_step hi hgood hstep) (inv_start now) hgood hrun).disciplined

def sampleFlow : BrowserFlow := ⟨ascii "s", ascii "v", 10⟩

def sampleCallback : Bytes := ascii "code=c&state=s"

/-- A call with the wrong state, one that connects the account, and one that comes too late. -/
def orderlyCalls : List Event :=
  [.get (ascii "code=c&state=t"), .check 0, .get sampleCallback, .check 1, .exchange 1 none,
    .replace 1 none, .delete 1, .get sampleCallback]

theorem browser_flow_disciplined_sample :
    ∃ t, (system sampleFlow 10 0).run (system sampleFlow 10 0).start orderlyCalls = some t ∧
      t.replaced.length = 1 ∧ Disciplined sampleFlow 10 t := by
  have hreplaced : ((system sampleFlow 10 0).run (system sampleFlow 10 0).start orderlyCalls).any
      (fun t => decide (t.replaced.length = 1)) = true := by decide +kernel
  obtain ⟨t, hrun, ht⟩ := (Option.any_eq_true _ _).mp hreplaced
  exact ⟨t, hrun, of_decide_eq_true ht, browser_flow_disciplined (by decide +kernel) hrun⟩

/-- The callback is submitted twice, the second time before the first call has deleted the flow. -/
def overlappingCalls : List Event :=
  [.get sampleCallback, .get sampleCallback, .check 0, .exchange 0 none, .replace 0 none,
    .check 1, .exchange 1 none, .replace 1 none]

def foreignRefusal : List Event := [.get (ascii "error=e&state=t"), .check 0, .delete 0]

/-- The flow expires after the check. -/
def lateExchange : List Event := [.get sampleCallback, .check 0, .tick 10, .exchange 0 none]

/-- The calls lead to a login that is not disciplined. -/
def BreaksDiscipline (es : List Event) : Prop :=
  ∃ t, (system sampleFlow 10 0).run (system sampleFlow 10 0).start es = some t ∧
    ¬Disciplined sampleFlow 10 t

lemma breaksDiscipline_of_any {es : List Event}
    (h : ((system sampleFlow 10 0).run (system sampleFlow 10 0).start es).any (fun t =>
      decide (1 < t.replaced.length ∨ (∃ d ∈ t.deletions, ¬d.Allowed sampleFlow) ∨
        ∃ e ∈ t.sent, sampleFlow.expiresAt ≤ e.time)) = true) : BreaksDiscipline es := by
  obtain ⟨t, hrun, ht⟩ := (Option.any_eq_true _ _).mp h
  refine ⟨t, hrun, fun h => ?_⟩
  rcases of_decide_eq_true ht with hlength | ⟨d, hd, hnot⟩ | ⟨e, he, htime⟩
  · exact absurd h.replaced (Nat.not_le.mpr hlength)
  · exact hnot (h.deleted d hd)
  · exact absurd (h.sent e he).2.1 (Int.not_lt.mpr htime)

/-- **Undisciplined runs.** Two calls that overlap both replace the credential; a refusal without
the state deletes the flow; and a code is sent after the flow has expired. -/
theorem browser_flow_undisciplined : BreaksDiscipline overlappingCalls ∧
    BreaksDiscipline foreignRefusal ∧ BreaksDiscipline lateExchange :=
  ⟨breaksDiscipline_of_any (by decide +kernel), breaksDiscipline_of_any (by decide +kernel),
    breaksDiscipline_of_any (by decide +kernel)⟩

end BrowserLogin

end CodexOne.Codex
