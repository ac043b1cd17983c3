import CodexOne.Admin

/-!
The login limiter, and the requests that pass it.

A request asks the limiter, has its password checked, and tells the limiter what came of it:
three steps, between which other requests take theirs. The windows and the blocks of an address
are remembered beside the run, from the failures alone.
-/

namespace CodexOne

open TransitionSystem

namespace LoginLimiter

/-- One minute, as a `time.Duration`. -/
def minute : ℤ := 60 * 1000000000

/-- `loginAttempt`. The zero time is `none`. -/
structure LoginAttempt where
  count : ℕ := 0
  windowStart : Option ℤ := none
  blockedTill : Option ℤ := none
  deriving DecidableEq

namespace LoginAttempt

/-- The test for a window that is over, or that never began. -/
def stale (attempt : LoginAttempt) (now : ℤ) : Prop :=
  ∀ start ∈ attempt.windowStart, now - start > 15 * minute

instance (attempt : LoginAttempt) (now : ℤ) : Decidable (attempt.stale now) := by
  unfold stale
  infer_instance

end LoginAttempt

/-- The map of the limiter. An address that is not in it has the zero attempt. -/
abbrev Attempts := String → LoginAttempt

/-- `Allow`: whether the request may go on, how long to wait otherwise, and the map after it. -/
def allow (attempts : Attempts) (now : ℤ) (address : String) : (Bool × ℤ) × Attempts :=
  let attempt := attempts address
  let allowed := ((true, 0), if attempt.stale now then Function.update attempts address {}
    else attempts)
  match attempt.blockedTill with
  | some blockedTill =>
    if now < blockedTill then ((false, blockedTill - now), attempts) else allowed
  | none => allowed

def failure (attempts : Attempts) (now : ℤ) (address : String) : Attempts :=
  let attempt := attempts address
  let attempt := if attempt.stale now then { windowStart := some now } else attempt
  let attempt := { attempt with count := attempt.count + 1 }
  let attempt := if attempt.count ≥ 5 then
      { attempt with blockedTill := some (now + 30 * minute), count := 0 }
    else attempt
  Function.update attempts address attempt

def success (attempts : Attempts) (address : String) : Attempts :=
  Function.update attempts address {}

/-- How far `loginHandler` is with a request. -/
inductive Login where
  | blocked (address : String) (wait : ℤ)
  | allowed (address : String)
  | failed (address : String)
  | matched (address : String)
  | ended
  deriving DecidableEq

/-- A request that has passed the limiter and has not told it yet what came of it. -/
def Login.inFlight (address : String) : Login → Bool
  | .allowed a => a = address
  | .failed a => a = address
  | .matched a => a = address
  | _ => false

/-- A failed check that the limiter has not been told of. -/
def Login.waits (address : String) : Login → Bool
  | .failed a => a = address
  | _ => false

/-- The limiter with all requests that have come. -/
structure Logins where
  attempts : Attempts
  requests : List Login
  now : ℤ

/-- A step of a request, known by its position, or the passing of time. A request can also end
early: on a body that does not decode, or where a store fails. -/
inductive Event where
  | allow (address : String)
  | check (r : ℕ) (hash password : String)
  | failure (r : ℕ)
  | success (r : ℕ)
  | ends (r : ℕ)
  | tick (d : ℕ)

namespace Logins

def become (s : Logins) (r : ℕ) (login : Login) : Logins :=
  { s with requests := s.requests.set r login }

def step (sec : Security) (s : Logins) : Event → Option Logins
  | .allow address =>
    match LoginLimiter.allow s.attempts s.now address with
    | ((true, _), attempts) =>
      some { s with attempts, requests := s.requests ++ [.allowed address] }
    | ((false, wait), attempts) =>
      some { s with attempts, requests := s.requests ++ [.blocked address wait] }
  | .check r hash password =>
    match s.requests[r]? with
    | some (.allowed address) =>
      some (s.become r (if sec.checkPassword hash password then .matched address
        else .failed address))
    | _ => none
  | .failure r =>
    match s.requests[r]? with
    | some (.failed address) =>
      some { s.become r .ended with attempts := LoginLimiter.failure s.attempts s.now address }
    | _ => none
  | .success r =>
    match s.requests[r]? with
    | some (.matched address) =>
      some { s.become r .ended with attempts := LoginLimiter.success s.attempts address }
    | _ => none
  | .ends r =>
    match s.requests[r]? with
    | some (.allowed _) => some (s.become r .ended)
    -- no session was stored, so `Success` is never called
    | some (.matched _) => some (s.become r .ended)
    | _ => none
  | .tick d => some { s with now := s.now + d }

/-- The requests of an address between the limiter's leave and its being told. -/
def flying (s : Logins) (address : String) : ℕ := s.requests.countP (Login.inFlight address)

/-- The failed checks of an address that the limiter has not been told of. -/
def waiting (s : Logins) (address : String) : ℕ := s.requests.countP (Login.waits address)

end Logins

/-- A window: its first failure, and how many there have been. -/
structure Window where
  start : ℤ
  failures : ℕ
  deriving DecidableEq

/-- What is remembered of the failures beside a run: the last window of each address, and the last
fifth failure of a window. -/
structure History where
  windows : String → Option Window
  fifth : String → Option ℤ

def failuresIn (window : Option Window) (now : ℤ) : ℕ :=
  match window with
  | some w => if now - w.start ≤ 15 * minute then w.failures else 0
  | none => 0

/-- The window after a failure. -/
def next (window : Option Window) (now : ℤ) : Window :=
  match window with
  | some w =>
    if now - w.start ≤ 15 * minute then { w with failures := w.failures + 1 } else ⟨now, 1⟩
  | none => ⟨now, 1⟩

/-- The block that a fifth failure sets has not ended. -/
def blockedBy (fifth : Option ℤ) (now : ℤ) : Prop := ∃ t ∈ fifth, now < t + 30 * minute

instance (fifth : Option ℤ) (now : ℤ) : Decidable (blockedBy fifth now) := by
  unfold blockedBy
  infer_instance

namespace History

def record (h : History) (s : Logins) : Event → History
  | .failure r =>
    match s.requests[r]? with
    | some (.failed address) =>
      let window := next (h.windows address) s.now
      { windows := Function.update h.windows address (some window)
        fifth := if window.failures = 5 then Function.update h.fifth address (some s.now)
          else h.fifth }
    | _ => h
  | .success r =>
    match s.requests[r]? with
    | some (.matched address) => { h with windows := Function.update h.windows address none }
    | _ => h
  | _ => h

end History

def logins (sec : Security) (now : ℤ) : TransitionSystem (Logins × History) Event where
  start := (⟨fun _ => {}, [], now⟩, ⟨fun _ => none, fun _ => none⟩)
  step x e := (x.1.step sec e).map fun t => (t, x.2.record x.1 e)

/-- The failed checks of an address that count for its present window. -/
def guesses (x : Logins × History) (address : String) : ℕ :=
  failuresIn (x.2.windows address) x.1.now + x.1.waiting address

/-- A request comes while its address is blocked, or while the failures of its window and the
requests of its address that are under way leave room for one more. -/
def Spaced (x : Logins × History) : Event → Prop
  | .allow address => blockedBy (x.2.fifth address) x.1.now ∨
      failuresIn (x.2.windows address) x.1.now + x.1.flying address < 5
  | _ => True

instance (x : Logins × History) (e : Event) : Decidable (Spaced x e) := by
  unfold Spaced
  split <;> infer_instance

/-! ### One address -/

/-- What the limiter keeps of an address, beside the last window, the last fifth failure and the
number of its requests under way. -/
inductive Kept (now : ℤ) : LoginAttempt → Option Window → Option ℤ → ℕ → Prop
  | fresh {attempt window fifth n} (hstale : attempt.stale now)
      (hpast : ∀ till ∈ attempt.blockedTill, till ≤ now)
      (hover : ∀ w ∈ window, now - w.start > 15 * minute) (hfree : ¬blockedBy fifth now)
      (hn : n ≤ 5) : Kept now attempt window fifth n
  | counting {start k fifth n} (hstart : start ≤ now) (hlive : now - start ≤ 15 * minute)
      (hfree : ¬blockedBy fifth now) (hk : k < 5) (hn : k + n ≤ 5) :
      Kept now ⟨k, some start, none⟩ (some ⟨start, k⟩) fifth n
  | blocked {start t} (hstart : start ≤ t) (ht : t ≤ now) (hlive : now < t + 30 * minute) :
      Kept now ⟨0, some start, some (t + 30 * minute)⟩ (some ⟨start, 5⟩) (some t) 0

variable {now : ℤ} {attempts : Attempts} {address : String} {window : Option Window}
  {fifth : Option ℤ} {n : ℕ}

lemma minute_pos : 0 < minute := by decide

lemma free_later {later : ℤ} (h : ¬blockedBy fifth now) (hle : now ≤ later) :
    ¬blockedBy fifth later := fun ⟨t, ht, hlt⟩ => h ⟨t, ht, by omega⟩

lemma Kept.later {later : ℤ} {attempt : LoginAttempt} (h : Kept now attempt window fifth n)
    (hle : now ≤ later) : Kept later attempt window fifth n := by
  have hmin := minute_pos
  cases h with
  | fresh hstale hpast hover hfree hn =>
    exact .fresh (fun start hs => by have := hstale start hs; omega)
      (fun till ht => (hpast till ht).trans hle)
      (fun w hw => by have := hover w hw; omega) (free_later hfree hle) hn
  | @counting start k _ _ hstart hlive hfree hk hn =>
    by_cases hin : later - start ≤ 15 * minute
    · exact .counting (hstart.trans hle) hin (free_later hfree hle) hk hn
    · exact .fresh (by rintro _ ⟨⟩; omega) (by rintro _ ⟨⟩) (by rintro _ ⟨⟩; dsimp only; omega)
        (free_later hfree hle) (by omega)
  | @blocked start t hstart ht hlive =>
    by_cases hin : later < t + 30 * minute
    · exact .blocked hstart (ht.trans hle) hin
    · exact .fresh (by rintro _ ⟨⟩; omega) (by rintro _ ⟨⟩; omega)
        (by rintro _ ⟨⟩; dsimp only; omega) (by rintro ⟨_, ⟨⟩, hlt⟩; omega) (by omega)

lemma Kept.ends {attempt : LoginAttempt} (h : Kept now attempt window fifth (n + 1)) :
    Kept now attempt window fifth n := by
  cases h with
  | fresh hstale hpast hover hfree hn => exact .fresh hstale hpast hover hfree (by omega)
  | counting hstart hlive hfree hk hn => exact .counting hstart hlive hfree hk (by omega)

lemma Kept.free {attempt : LoginAttempt} (h : Kept now attempt window fifth (n + 1)) :
    ¬blockedBy fifth now := by
  cases h with
  | fresh hstale hpast hover hfree hn => exact hfree
  | counting hstart hlive hfree hk hn => exact hfree

lemma failuresIn_over (hover : ∀ w ∈ window, now - w.start > 15 * minute) :
    failuresIn window now = 0 := by
  cases window with
  | none => rfl
  | some w => exact if_neg (not_le.mpr (hover w rfl))

lemma failuresIn_live {start : ℤ} {k : ℕ} (hlive : now - start ≤ 15 * minute) :
    failuresIn (some ⟨start, k⟩) now = k := if_pos hlive

lemma next_live {start : ℤ} {k : ℕ} (hlive : now - start ≤ 15 * minute) :
    next (some ⟨start, k⟩) now = ⟨start, k + 1⟩ := if_pos hlive

lemma next_over (hover : ∀ w ∈ window, now - w.start > 15 * minute) :
    next window now = ⟨now, 1⟩ := by
  cases window with
  | none => rfl
  | some w => exact if_neg (not_le.mpr (hover w rfl))

lemma Kept.room {attempt : LoginAttempt} (h : Kept now attempt window fifth n) :
    failuresIn window now + n ≤ 5 := by
  cases h with
  | fresh hstale hpast hover hfree hn =>
    rw [failuresIn_over hover]
    omega
  | counting hstart hlive hfree hk hn =>
    rw [failuresIn_live hlive]
    exact hn
  | blocked hstart ht hlive =>
    dsimp only [failuresIn]
    split <;> omega

lemma allow_blocked (h : Kept now (attempts address) window fifth n) (hb : blockedBy fifth now) :
    ∃ wait, allow attempts now address = ((false, wait), attempts) := by
  generalize ha : attempts address = attempt at h
  cases h with
  | fresh hstale hpast hover hfree hn => exact absurd hb hfree
  | counting hstart hlive hfree hk hn => exact absurd hb hfree
  | @blocked start t hstart ht hlive =>
    refine ⟨t + 30 * minute - now, ?_⟩
    unfold allow
    dsimp only
    rw [ha]
    exact if_pos hlive

lemma allow_free (h : Kept now (attempts address) window fifth n) (hb : ¬blockedBy fifth now)
    (hroom : failuresIn window now + n < 5) :
    ∃ attempts', allow attempts now address = ((true, 0), attempts') ∧
      Kept now (attempts' address) window fifth (n + 1) ∧
        ∀ other, other ≠ address → attempts' other = attempts other := by
  generalize ha : attempts address = attempt at h
  cases h with
  | fresh hstale hpast hover hfree hn =>
    rw [failuresIn_over hover] at hroom
    refine ⟨Function.update attempts address {}, ?_, ?_, fun other hne =>
      Function.update_of_ne hne ..⟩
    · unfold allow
      dsimp only
      rw [ha, if_pos hstale]
      split
      · exact if_neg (not_lt.mpr (hpast _ ‹_›))
      · rfl
    · rw [Function.update_self]
      exact .fresh (by rintro _ ⟨⟩) (by rintro _ ⟨⟩) hover hfree (by omega)
  | counting hstart hlive hfree hk hn =>
    refine ⟨attempts, ?_, ?_, fun _ _ => rfl⟩
    · unfold allow
      dsimp only
      rw [ha, if_neg fun hstale => absurd (hstale _ rfl) (not_lt.mpr hlive)]
    · rw [ha]
      rw [failuresIn_live hlive] at hroom
      exact .counting hstart hlive hfree hk (by omega)
  | blocked hstart ht hlive => exact absurd ⟨_, rfl, hlive⟩ hb

lemma failure_stale (hstale : (attempts address).stale now) :
    failure attempts now address address = ⟨1, some now, none⟩ := by
  unfold failure
  dsimp only
  rw [Function.update_self, if_pos hstale]
  rfl

lemma failure_live {start : ℤ} {k : ℕ} (ha : attempts address = ⟨k, some start, none⟩)
    (hlive : now - start ≤ 15 * minute) : failure attempts now address address =
      if k + 1 ≥ 5 then ⟨0, some start, some (now + 30 * minute)⟩
      else ⟨k + 1, some start, none⟩ := by
  have hstale : ¬(attempts address).stale now := fun hstale => by
    rw [ha] at hstale
    exact absurd (hstale start rfl) (not_lt.mpr hlive)
  unfold failure
  dsimp only
  rw [Function.update_self, if_neg hstale, ha]

lemma Kept.failure (h : Kept now (attempts address) window fifth (n + 1)) :
    Kept now (failure attempts now address address) (some (next window now))
      (if (next window now).failures = 5 then some now else fifth) n := by
  have hmin := minute_pos
  generalize ha : attempts address = attempt at h
  cases h with
  | fresh hstale hpast hover hfree hn =>
    rw [failure_stale (ha ▸ hstale), next_over hover]
    exact .counting le_rfl (by omega) hfree (by omega) (by omega)
  | @counting start k _ _ hstart hlive hfree hk hn =>
    rw [failure_live ha hlive, next_live hlive]
    dsimp only
    by_cases hfull : k + 1 = 5
    · rw [if_pos (by omega), if_pos hfull, hfull]
      obtain rfl : n = 0 := by omega
      exact .blocked hstart le_rfl (by omega)
    · rw [if_neg (by omega), if_neg hfull]
      exact .counting hstart hlive hfree (by omega) (by omega)

lemma Kept.success {attempt : LoginAttempt} (h : Kept now attempt window fifth (n + 1)) :
    Kept now {} none fifth n :=
  .fresh (by rintro _ ⟨⟩) (by rintro _ ⟨⟩) (by rintro _ ⟨⟩) h.free (by have := h.room; omega)

lemma countP_set_add {requests : List Login} {r : ℕ} {old login : Login} {p : Login → Bool}
    (hr : requests[r]? = some old) :
    (requests.set r login).countP p + (p old).toNat = requests.countP p + (p login).toNat := by
  obtain ⟨hlt, rfl⟩ := List.getElem?_eq_some_iff.mp hr
  have hle : (p requests[r]).toNat ≤ requests.countP p := by
    cases hp : p requests[r] with
    | false => exact Nat.zero_le _
    | true => exact List.countP_pos_iff.mpr ⟨_, List.getElem_mem hlt, hp⟩
  rw [List.countP_set hlt]
  cases hp : p requests[r] <;> cases hq : p login <;>
    simp only [hp, Bool.toNat_true, Bool.toNat_false, if_true, Bool.false_eq_true,
      if_false] at hle ⊢ <;>
    omega

variable {sec : Security} {s t : Logins} {h : History}

lemma become_flying {r : ℕ} {old : Login} (hr : s.requests[r]? = some old) (login : Login)
    (address : String) : (s.become r login).flying address + (old.inFlight address).toNat =
      s.flying address + (login.inFlight address).toNat := countP_set_add hr

lemma become_waiting {r : ℕ} {old : Login} (hr : s.requests[r]? = some old) (login : Login)
    (address : String) : (s.become r login).waiting address + (old.waits address).toNat =
      s.waiting address + (login.waits address).toNat := countP_set_add hr

lemma waiting_le_flying (s : Logins) (address : String) : s.waiting address ≤ s.flying address :=
  List.countP_mono_left fun login _ hw => by
    cases login <;> simp_all [Login.waits, Login.inFlight]

lemma waiting_lt_flying {r : ℕ} (hr : s.requests[r]? = some (.allowed address)) :
    s.waiting address < s.flying address := by
  have hfly := become_flying hr .ended address
  have hwait := become_waiting hr .ended address
  have hle := waiting_le_flying (s.become r .ended) address
  simp [Login.inFlight, Login.waits] at hfly hwait
  omega

/-- What the limiter keeps of every address. -/
def Good (x : Logins × History) : Prop :=
  ∀ address, Kept x.1.now (x.1.attempts address) (x.2.windows address) (x.2.fifth address)
    (x.1.flying address)

lemma flying_succ {r : ℕ} {old : Login} (hr : s.requests[r]? = some old) (login : Login)
    (address : String) (hold : old.inFlight address = true)
    (hnew : login.inFlight address = false) :
    s.flying address = (s.become r login).flying address + 1 := by
  have h := become_flying hr login address
  rw [hold, hnew] at h
  simpa using h.symm

lemma flying_same {r : ℕ} {old : Login} (hr : s.requests[r]? = some old) (login : Login)
    (address : String) (hsame : old.inFlight address = login.inFlight address) :
    (s.become r login).flying address = s.flying address := by
  have h := become_flying hr login address
  rw [hsame] at h
  exact Nat.add_right_cancel h

lemma Good.ends (hx : Good (s, h)) {r : ℕ} {old : Login} (hr : s.requests[r]? = some old) :
    Good (s.become r .ended, h) := fun address => by
  have hk := hx address
  dsimp only at hk ⊢
  cases hold : old.inFlight address with
  | false =>
    rw [flying_same hr .ended address hold]
    exact hk
  | true =>
    rw [flying_succ hr .ended address hold rfl] at hk
    exact hk.ends

lemma Good.told (hx : Good (s, h)) {r : ℕ} {old : Login} {attempts' : Attempts} {h' : History}
    (hr : s.requests[r]? = some old) (hold : ∀ a, old.inFlight a = decide (address = a))
    (hothers : ∀ other, other ≠ address → attempts' other = s.attempts other ∧
      h'.windows other = h.windows other ∧ h'.fifth other = h.fifth other)
    (hkept : ∀ n, Kept s.now (s.attempts address) (h.windows address) (h.fifth address) (n + 1) →
      Kept s.now (attempts' address) (h'.windows address) (h'.fifth address) n) :
    Good ({ s.become r .ended with attempts := attempts' }, h') := fun a => by
  have hk := hx a
  have hrest := hx.ends hr a
  dsimp only at hk hrest ⊢
  by_cases ha : a = address
  · subst ha
    have hone : old.inFlight a = true := by rw [hold, decide_eq_true rfl]
    rw [flying_succ hr .ended a hone rfl] at hk
    exact hkept _ hk
  · obtain ⟨hatt, hwin, hfifth⟩ := hothers a ha
    rw [hatt, hwin, hfifth]
    exact hrest

lemma flying_append (s : Logins) (attempts : Attempts) (login : Login) (address : String) :
    Logins.flying { s with attempts, requests := s.requests ++ [login] } address =
      s.flying address + (login.inFlight address).toNat := by
  unfold Logins.flying
  rw [List.countP_append]
  cases hl : login.inFlight address <;> simp [hl]

lemma Good.allow (hx : Good (s, h)) (hgood : Spaced (s, h) (.allow address))
    (hstep : s.step sec (.allow address) = some t) : Good (t, h) := by
  have hk := hx address
  dsimp only [Logins.step] at hstep
  by_cases hb : blockedBy (h.fifth address) s.now
  · obtain ⟨wait, hallow⟩ := allow_blocked hk hb
    rw [hallow] at hstep
    cases hstep
    intro a
    dsimp only
    rw [flying_append]
    exact hx a
  · obtain ⟨attempts', hallow, hkept, hothers⟩ := allow_free hk hb (hgood.resolve_left hb)
    rw [hallow] at hstep
    cases hstep
    intro a
    dsimp only
    rw [flying_append]
    by_cases ha : a = address
    · subst ha
      simpa [Login.inFlight] using hkept
    · have hne : (Login.allowed address).inFlight a = false := by
        simpa [Login.inFlight] using fun h => ha h.symm
      rw [hothers a ha, hne]
      exact hx a

lemma Good.step {x y : Logins × History} {e : Event} (hx : Good x) (hgood : Spaced x e)
    (hstep : (logins sec now).step x e = some y) : Good y := by
  obtain ⟨s, h⟩ := x
  obtain ⟨t, ht, rfl⟩ := Option.map_eq_some_iff.mp hstep
  cases e with
  | allow address => exact hx.allow hgood ht
  | check r hash password =>
    dsimp only [Logins.step] at ht
    split at ht <;> cases ht
    rename_i address hr
    intro a
    -- a checked request is still in flight
    have hsame := flying_same hr
      (if sec.checkPassword hash password then .matched address else .failed address) a
      (by split <;> rfl)
    dsimp only [History.record]
    rw [hsame]
    exact hx a
  | failure r =>
    dsimp only [Logins.step] at ht
    split at ht <;> cases ht
    rename_i address hr
    dsimp only [History.record]
    rw [hr]
    refine hx.told hr (fun _ => rfl) (fun other hne => ?_) fun n hk => ?_
    · refine ⟨Function.update_of_ne hne .., Function.update_of_ne hne .., ?_⟩
      dsimp only
      split
      · exact Function.update_of_ne hne ..
      · rfl
    · have hfail := hk.failure
      dsimp only
      rw [Function.update_self]
      split_ifs at hfail ⊢ with hfull
      · rw [Function.update_self]
        exact hfail
      · exact hfail
  | success r =>
    dsimp only [Logins.step] at ht
    split at ht <;> cases ht
    rename_i address hr
    dsimp only [History.record]
    rw [hr]
    refine hx.told hr (fun _ => rfl) (fun other hne => ?_) fun n hk => ?_
    · exact ⟨Function.update_of_ne hne .., Function.update_of_ne hne .., rfl⟩
    · dsimp only [success]
      rw [Function.update_self, Function.update_self]
      exact hk.success
  | ends r =>
    dsimp only [Logins.step] at ht
    split at ht <;> cases ht
    · exact hx.ends ‹_›
    · exact hx.ends ‹_›
  | tick d =>
    cases ht
    exact fun a => (hx a).later (by dsimp only; omega)

lemma Good.run {es : List Event} {x : Logins × History}
    (hgood : (logins sec now).Along Spaced (logins sec now).start es)
    (hrun : (logins sec now).run (logins sec now).start es = some x) : Good x :=
  run_invariant_along Good (fun _ _ _ hx hgood hstep => hx.step hgood hstep)
    (fun _ => .fresh (by rintro _ ⟨⟩) (by rintro _ ⟨⟩) (by rintro _ ⟨⟩) (by rintro ⟨_, ⟨⟩, _⟩)
      (by simp [logins, Logins.flying])) hgood hrun

end LoginLimiter

open LoginLimiter
open Admin (sampleSecurity)

/-- **The login limiter bounds guesses.** In every run in which requests come while their address
is blocked, or while the failures of its window and its requests under way are fewer than five: no
window has more than five failed checks, and no password is checked between the fifth failed check
and the end of the block that it sets. -/
theorem login_limiter_bounds_guesses (sec : Security) (now : ℤ) (es : List LoginLimiter.Event)
    (x : Logins × LoginLimiter.History)
    (hgood : (logins sec now).Along Spaced (logins sec now).start es)
    (hrun : (logins sec now).run (logins sec now).start es = some x) :
    (∀ address, guesses x address ≤ 5) ∧
      ∀ r hash password address y, x.1.requests[r]? = some (.allowed address) →
        (logins sec now).step x (.check r hash password) = some y →
          ¬blockedBy (x.2.fifth address) x.1.now ∧ guesses x address < 5 := by
  have hgood' := Good.run hgood hrun
  refine ⟨fun address => ?_, fun r hash password address y hr _ => ⟨?_, ?_⟩⟩
  · have hroom := (hgood' address).room
    have hle := waiting_le_flying x.1 address
    unfold guesses
    omega
  · have hflies := flying_succ hr .ended address (by simp [Login.inFlight]) rfl
    have hk := hgood' address
    rw [hflies] at hk
    exact hk.free
  · have hroom := (hgood' address).room
    have hlt := waiting_lt_flying hr
    unfold guesses
    omega

/-- A request with a wrong password, from its first step to its last. -/
def wrongGuess (r : ℕ) : List LoginLimiter.Event :=
  [.allow "198.51.100.7", .check r "$2a$10$old" "a guess", .failure r]

/-- Five wrong guesses one after the other, one that is refused, and one when the block is over. -/
def guessesInTurn : List LoginLimiter.Event :=
  (List.range 5).flatMap wrongGuess ++
    [.allow "198.51.100.7", .tick (30 * 60 * 1000000000), .allow "198.51.100.7"]

theorem login_limiter_bounds_guesses_sample :
    ∃ x, (logins sampleSecurity 0).run (logins sampleSecurity 0).start guessesInTurn = some x ∧
      x.1.requests = [.ended, .ended, .ended, .ended, .ended,
        .blocked "198.51.100.7" (30 * 60 * 1000000000), .allowed "198.51.100.7"] ∧
      guesses x "198.51.100.7" < 5 := by
  have hrun : (((logins sampleSecurity 0).run (logins sampleSecurity 0).start guessesInTurn).any
      fun x => x.1.requests == [.ended, .ended, .ended, .ended, .ended,
        .blocked "198.51.100.7" (30 * 60 * 1000000000), .allowed "198.51.100.7"] &&
        ((logins sampleSecurity 0).step x (.check 6 "$2a$10$old" "a guess")).isSome) = true := by
    decide
  obtain ⟨x, hx, hboth⟩ := (Option.any_eq_true _ _).mp hrun
  rw [Bool.and_eq_true, beq_iff_eq] at hboth
  obtain ⟨hrequests, hstep⟩ := hboth
  obtain ⟨y, hy⟩ := Option.isSome_iff_exists.mp hstep
  exact ⟨x, hx, hrequests, ((login_limiter_bounds_guesses sampleSecurity 0 guessesInTurn x
    (by decide) hx).2 6 _ _ _ y (by rw [hrequests]; rfl) hy).2⟩

/-- Six requests that pass the limiter before any of them has its password checked. -/
def guessesAtOnce : List LoginLimiter.Event :=
  List.replicate 6 (.allow "198.51.100.7") ++
    (List.range 5).flatMap fun r => [.check r "$2a$10$old" "a guess", .failure r]

/-- The sixth password is checked while the address is blocked, and is the sixth to fail in its
window. -/
theorem login_limiter_guesses_at_once :
    ∃ x y, (logins sampleSecurity 0).run (logins sampleSecurity 0).start guessesAtOnce = some x ∧
      blockedBy (x.2.fifth "198.51.100.7") x.1.now ∧
      (logins sampleSecurity 0).step x (.check 5 "$2a$10$old" "a guess") = some y ∧
      guesses y "198.51.100.7" = 6 := by
  have hrun : (((logins sampleSecurity 0).run (logins sampleSecurity 0).start guessesAtOnce).any
      fun x => decide (blockedBy (x.2.fifth "198.51.100.7") x.1.now) &&
        ((logins sampleSecurity 0).step x (.check 5 "$2a$10$old" "a guess")).any fun y =>
          guesses y "198.51.100.7" == 6) = true := by
    decide
  obtain ⟨x, hx, hboth⟩ := (Option.any_eq_true _ _).mp hrun
  rw [Bool.and_eq_true, decide_eq_true_eq] at hboth
  obtain ⟨y, hy, hguesses⟩ := (Option.any_eq_true _ _).mp hboth.2
  exact ⟨x, y, hx, hboth.1, hy, beq_iff_eq.mp hguesses⟩

end CodexOne
