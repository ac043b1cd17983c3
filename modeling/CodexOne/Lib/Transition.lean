import Mathlib.Data.List.Basic
import Mathlib.Logic.Relation

/-!
Labelled transition systems with a partial step function.

An event that cannot happen in a state has no successor. A run is the fold of the step
function over its events, so that concrete runs can be evaluated; the rules below carry
an invariant, a relation between the ends, or an invariant under a condition on the steps
from one step to a whole run.
-/

namespace CodexOne

/-- A system: the state it starts in, and the state after an event where it can happen. -/
structure TransitionSystem (σ ε : Type*) where
  start : σ
  step : σ → ε → Option σ

namespace TransitionSystem

variable {σ ε : Type*} (sys : TransitionSystem σ ε)

/-- The state after the events, in order. -/
def run (s : σ) : List ε → Option σ
  | [] => some s
  | e :: es => (sys.step s e).bind fun t => run t es

/-- The states the system can be in. -/
def Reach (s : σ) : Prop := ∃ es, sys.run sys.start es = some s

/-- Every step of the run from `s` meets the condition. -/
def Along (good : σ → ε → Prop) (s : σ) : List ε → Prop
  | [] => True
  | e :: es => good s e ∧ ∀ t, sys.step s e = some t → Along good t es

instance decidableAlong (good : σ → ε → Prop) [∀ s e, Decidable (good s e)] :
    (s : σ) → (es : List ε) → Decidable (sys.Along good s es)
  | _, [] => isTrue trivial
  | s, e :: es =>
    match h : sys.step s e with
    | none => decidable_of_iff (good s e) (by simp [Along, h])
    | some t =>
      have := decidableAlong good t es
      decidable_of_iff (good s e ∧ sys.Along good t es) (by simp [Along, h])

variable {sys} {s t u : σ} {e : ε} {es fs : List ε}

@[simp] lemma run_nil : sys.run s [] = some s := rfl

lemma run_cons : sys.run s (e :: es) = some u ↔ ∃ t, sys.step s e = some t ∧
    sys.run t es = some u := by
  simp [run, Option.bind_eq_some_iff]

lemma run_append : sys.run s (es ++ fs) = some u ↔ ∃ t, sys.run s es = some t ∧
    sys.run t fs = some u := by
  induction es generalizing s with
  | nil => simp
  | cons e es ih =>
    simp only [List.cons_append, run_cons, ih]
    constructor
    · rintro ⟨v, hv, t, ht, hu⟩
      exact ⟨t, ⟨v, hv, ht⟩, hu⟩
    · rintro ⟨t, ⟨v, hv, ht⟩, hu⟩
      exact ⟨v, hv, t, ht, hu⟩

lemma run_single : sys.run s [e] = some t ↔ sys.step s e = some t := by
  simp [run_cons]

/-- **Invariants under a condition.** -/
theorem run_invariant_along {good : σ → ε → Prop} (inv : σ → Prop)
    (hstep : ∀ s e t, inv s → good s e → sys.step s e = some t → inv t) (hs : inv s)
    (hgood : sys.Along good s es) (hrun : sys.run s es = some t) : inv t := by
  induction es generalizing s with
  | nil =>
    rw [run_nil, Option.some.injEq] at hrun
    exact hrun ▸ hs
  | cons e es ih =>
    obtain ⟨v, hv, hrun⟩ := run_cons.mp hrun
    exact ih (hstep s e v hs hgood.1 hv) (hgood.2 v hv) hrun

lemma along_of_forall {good : σ → ε → Prop} (h : ∀ e ∈ es, ∀ s, good s e) :
    sys.Along good s es := by
  induction es generalizing s with
  | nil => trivial
  | cons e es ih =>
    exact ⟨h e List.mem_cons_self s, fun t _ => ih fun e he => h e (List.mem_cons_of_mem _ he)⟩

lemma along_true : sys.Along (fun _ _ => True) s es := by
  induction es generalizing s with
  | nil => trivial
  | cons e es ih => exact ⟨trivial, fun t _ => ih⟩

/-- **Invariants of what has happened.** The invariant may speak of the events so far, and a step
may rely on what is known of the whole run. -/
theorem run_invariant_events (inv : List ε → σ → Prop)
    (hstep : ∀ ds s e t, inv ds s → (ds ++ [e]).Sublist es → sys.step s e = some t →
      inv (ds ++ [e]) t) (hs : inv [] s) (hrun : sys.run s es = some t) : inv es t := by
  -- the induction is on the events to come, so those before are carried along
  have hrest : ∀ fs ds s, es = ds ++ fs → inv ds s → sys.run s fs = some t → inv es t := by
    intro fs
    induction fs with
    | nil =>
      intro ds s heq hds hrun
      rw [run_nil, Option.some.injEq] at hrun
      rw [heq, List.append_nil]
      exact hrun ▸ hds
    | cons e fs ih =>
      intro ds s heq hds hrun
      obtain ⟨v, hv, hrun⟩ := run_cons.mp hrun
      have hsplit : es = (ds ++ [e]) ++ fs := by rw [heq, List.append_assoc]; rfl
      exact ih (ds ++ [e]) v hsplit
        (hstep ds s e v hds (hsplit ▸ List.sublist_append_left _ _) hv) hrun
  exact hrest es [] s rfl hs hrun

/-- **Invariants.** What every step keeps, every run keeps. -/
theorem run_invariant (inv : σ → Prop)
    (hstep : ∀ s e t, inv s → sys.step s e = some t → inv t) (hs : inv s)
    (hrun : sys.run s es = some t) : inv t :=
  run_invariant_along inv (fun s e t hi _ h => hstep s e t hi h) hs along_true hrun

/-- What holds in the start state and is kept by every step holds in every state. -/
theorem Reach.invariant {inv : σ → Prop} (hstart : inv sys.start)
    (hstep : ∀ s e t, inv s → sys.step s e = some t → inv t) (h : sys.Reach s) : inv s := by
  obtain ⟨es, hes⟩ := h
  exact run_invariant inv hstep hstart hes

lemma Reach.run (h : sys.Reach s) (hrun : sys.run s es = some t) : sys.Reach t := by
  obtain ⟨ds, hds⟩ := h
  exact ⟨ds ++ es, run_append.mpr ⟨s, hds, hrun⟩⟩

lemma Reach.step (h : sys.Reach s) (hstep : sys.step s e = some t) : sys.Reach t :=
  h.run (run_single.mpr hstep)

/-- **Relations.** What relates the ends of every step relates the ends of every run. -/
theorem run_rel (rel : σ → σ → Prop) (hrefl : ∀ s, rel s s)
    (htrans : ∀ s t u, rel s t → rel t u → rel s u)
    (hstep : ∀ s e t, sys.step s e = some t → rel s t) (hrun : sys.run s es = some t) :
    rel s t := by
  induction es generalizing s with
  | nil =>
    rw [run_nil, Option.some.injEq] at hrun
    exact hrun ▸ hrefl s
  | cons e es ih =>
    obtain ⟨v, hv, hrun⟩ := run_cons.mp hrun
    exact htrans s v t (hstep s e v hv) (ih hrun)

section

variable {α : Type*} (out : σ → ε → Option α)

variable (sys) in
/-- What the steps of a run put out, in order. -/
def trace (s : σ) : List ε → List α
  | [] => []
  | e :: es => (out s e).toList ++ ((sys.step s e).map fun t => trace t es).getD []

lemma trace_cons {out : σ → ε → Option α} (h : sys.step s e = some t) :
    sys.trace out s (e :: es) = (out s e).toList ++ sys.trace out t es := by
  rw [trace, h]
  rfl

/-- **Traces under a condition.** -/
theorem run_trace_along {good : σ → ε → Prop} {out : σ → ε → Option α} (inv : σ → List α → Prop)
    (hstep : ∀ s e t l, inv s l → good s e → sys.step s e = some t → inv t (l ++ (out s e).toList))
    {l : List α} (hs : inv s l) (hgood : sys.Along good s es) (hrun : sys.run s es = some t) :
    inv t (l ++ sys.trace out s es) := by
  induction es generalizing s l with
  | nil =>
    rw [run_nil, Option.some.injEq] at hrun
    simpa [trace, hrun] using hs
  | cons e es ih =>
    obtain ⟨v, hv, hrun⟩ := run_cons.mp hrun
    have hrest := ih (hstep s e v l hs hgood.1 hv) (hgood.2 v hv) hrun
    rwa [trace_cons hv, ← List.append_assoc]

/-- **Traces.** What every step keeps together with what it puts out, every run keeps together with
its trace. -/
theorem run_trace {out : σ → ε → Option α} (inv : σ → List α → Prop)
    (hstep : ∀ s e t l, inv s l → sys.step s e = some t → inv t (l ++ (out s e).toList))
    {l : List α} (hs : inv s l) (hrun : sys.run s es = some t) : inv t (l ++ sys.trace out s es) :=
  run_trace_along inv (fun s e t l hi _ h => hstep s e t l hi h) hs along_true hrun

end

end TransitionSystem

end CodexOne
