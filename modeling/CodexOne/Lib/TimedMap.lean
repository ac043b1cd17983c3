import Mathlib.Data.Set.Card
import Mathlib.Tactic

/-!
A map whose entries expire, with a bound on how many there are at a time.

What such a map has to answer is read off the log of its calls: a key holds what was last put
under it, until that expires or is deleted. A map answers every call of a run in this way when a
relation between its states and the log is kept by each call.
-/

namespace TimedMap

variable {K V T : Type}

inductive Call (K V T : Type) where
  | put (key : K) (value : V) (ttl : T)
  | get (key : K)
  | delete (key : K)

inductive Reply (V : Type) where
  | done
  | refused
  | found (value : V)
  | missing
  deriving DecidableEq

structure Event (K V T : Type) where
  time : T
  call : Call K V T
  reply : Reply V

/-- An event that changes what is under a key. -/
def Event.Writes (key : K) (e : Event K V T) : Prop :=
  match e.call with
  | .put k _ _ => k = key ∧ e.reply = .done
  | .get _ => False
  | .delete k => k = key

/-! ### Runs -/

section Runs

variable {σ : Type} (step : σ → T → Call K V T → σ × Reply V)

/-- The state after calls at their times, and the log with them. -/
def run (s : σ) (log : List (Event K V T)) : List (T × Call K V T) → σ × List (Event K V T)
  | [] => (s, log)
  | (now, call) :: calls =>
    run (step s now call).1 (log ++ [⟨now, call, (step s now call).2⟩]) calls

variable {step} {inv : List (Event K V T) → σ → Prop}

/-- A relation that each call keeps holds of the state and the log after a run. -/
theorem run_inv [LE T] (hstep : ∀ log s now call, inv log s → (∀ e ∈ log, e.time ≤ now) →
      inv (log ++ [⟨now, call, (step s now call).2⟩]) (step s now call).1)
    {calls : List (T × Call K V T)} (hclock : calls.Pairwise fun a b => a.1 ≤ b.1) {s : σ}
    {log : List (Event K V T)} (hinv : inv log s) (hlog : ∀ e ∈ log, ∀ c ∈ calls, e.time ≤ c.1) :
    inv (run step s log calls).2 (run step s log calls).1 := by
  induction calls generalizing s log with
  | nil => exact hinv
  | cons c calls ih =>
    rw [List.pairwise_cons] at hclock
    refine ih hclock.2 (hstep log s c.1 c.2 hinv fun e he => hlog e he c List.mem_cons_self) ?_
    intro e he c' hc'
    rcases List.mem_append.mp he with he | he
    · exact hlog e he c' (List.mem_cons_of_mem _ hc')
    · rw [List.mem_singleton.mp he]
      exact hclock.1 c' hc'

end Runs

variable [DecidableEq K] [DecidableEq V] [Add T]

def record (key : K) (held : Option (V × T)) (e : Event K V T) : Option (V × T) :=
  match e.call with
  | .put k v ttl => if k = key ∧ e.reply = .done then some (v, e.time + ttl) else held
  | .get _ => held
  | .delete k => if k = key then none else held

/-- What was last put under a key, and until when. -/
def last (log : List (Event K V T)) (key : K) : Option (V × T) := log.foldl (record key) none

variable {log : List (Event K V T)} {e : Event K V T} {key : K} {v : V} {now t u : T}

@[simp] lemma last_concat : last (log ++ [e]) key = record key (last log key) e := by
  simp [last, List.foldl_append]

lemma record_put {held : Option (V × T)} {ttl : T} :
    record key held ⟨t, .put key v ttl, .done⟩ = some (v, t + ttl) := if_pos ⟨rfl, rfl⟩

lemma record_delete {held : Option (V × T)} {reply : Reply V} :
    record key held ⟨t, .delete key, reply⟩ = none := if_pos rfl

lemma record_of_not_writes {held : Option (V × T)} (h : ¬e.Writes key) :
    record key held e = held := by
  unfold Event.Writes at h
  unfold record
  split at h
  · exact if_neg h
  · rfl
  · exact if_neg h

variable [LinearOrder T] {capacity : ℕ}

def live (log : List (Event K V T)) (now : T) (key : K) : Option V :=
  (last log key).bind fun held => if now < held.2 then some held.1 else none

/-- The keys that hold a value at a time. -/
def liveKeys (log : List (Event K V T)) (now : T) : Set K := {key | live log now key ≠ none}

/-- A call is answered as a map with a bound has to answer it. -/
def Answers (capacity : ℕ) (log : List (Event K V T)) (e : Event K V T) : Prop :=
  match e.call with
  | .get key => e.reply = (match live log e.time key with
    | some v => .found v
    | none => .missing)
  | .put key _ _ =>
    (e.reply = .refused ↔
      key ∉ liveKeys log e.time ∧ (liveKeys log e.time).ncard = capacity) ∧
      (e.reply ≠ .refused → e.reply = .done)
  | .delete _ => e.reply = .done

variable {σ : Type} {step : σ → T → Call K V T → σ × Reply V} {inv : List (Event K V T) → σ → Prop}

/-- Every event of a log was answered. -/
def AllAnswered (capacity : ℕ) (log : List (Event K V T)) : Prop :=
  ∀ before e after, log = before ++ e :: after → Answers capacity before e

lemma AllAnswered.concat (h : AllAnswered capacity log) (he : Answers capacity log e) :
    AllAnswered capacity (log ++ [e]) := by
  intro before x after heq
  rcases List.eq_nil_or_concat after with rfl | ⟨front, y, rfl⟩
  · obtain ⟨rfl, hx⟩ := List.append_inj' heq rfl
    exact List.singleton_inj.mp hx ▸ he
  · rw [List.concat_eq_append, ← List.cons_append, ← List.append_assoc] at heq
    obtain ⟨rfl, -⟩ := List.append_inj' heq rfl
    exact h before x front rfl

/-- **Refinement.** A map whose states keep a relation with the log answers every call as a map
with a bound does. -/
theorem run_answers (hstep : ∀ log s now call, inv log s → (∀ e ∈ log, e.time ≤ now) →
      inv (log ++ [⟨now, call, (step s now call).2⟩]) (step s now call).1)
    (hanswer : ∀ log s now call, inv log s → (∀ e ∈ log, e.time ≤ now) →
      Answers capacity log ⟨now, call, (step s now call).2⟩)
    {calls : List (T × Call K V T)} (hclock : calls.Pairwise fun a b => a.1 ≤ b.1) {s : σ}
    (hinv : inv [] s) : AllAnswered capacity (run step s [] calls).2 := by
  have hempty : AllAnswered capacity ([] : List (Event K V T)) := fun before e after h => by
    simp at h
  have hboth : ∀ log s now call, inv log s ∧ AllAnswered capacity log →
      (∀ e ∈ log, e.time ≤ now) →
        inv (log ++ [⟨now, call, (step s now call).2⟩]) (step s now call).1 ∧
        AllAnswered capacity (log ++ [⟨now, call, (step s now call).2⟩]) :=
    fun log s now call h hlog =>
      ⟨hstep log s now call h.1 hlog, h.2.concat (hanswer log s now call h.1 hlog)⟩
  exact (run_inv hboth hclock ⟨hinv, hempty⟩ nofun).2

end TimedMap
