import Mathlib.Data.Nat.Notation
import Mathlib.Logic.Function.Basic

/-!
# A Level-Triggered Controller

A controller is run for one key of a work queue. What it watches are logs that only grow, and
caches follow each of them at their own pace. When a cache goes on, the key is marked; a marked key
is taken up unless a run for it is going on, which removes the mark; and a run may ask to be
repeated later. A run reads the caches at any time while it goes on, and may itself add to the
logs.

The marks are what matters: if there is none, then the caches hold what they held when the last
run began. When also the caches hold all of the logs, nothing was added to a log since before that
run began, not even by the run itself: whatever it read is still so.

## Main results

* `Sound`: what the marks tell, with the lemmas that every operation keeps it.
* `Sound.quiet_of_le`: **what has not changed until now had not changed at any time since the last
  run began.**
* `Sound.quiet_of_atRest`: at rest nothing has changed since then, and the run asked for nothing.
-/

namespace Workqueue

variable {K : Type}

/-- One key of a queue, and the caches it depends on. -/
structure Queue (K : Type) where
  /-- how much of each log the caches hold -/
  delivered : K → ℕ
  /-- how much they held when the last run began -/
  started : K → ℕ
  /-- the key is marked -/
  dirty : Bool
  running : Bool
  /-- how many repetitions are still to come -/
  timers : ℕ
  /-- the last run that ended asked for no repetition -/
  calm : Bool

/-- The queue of a process that was just started: its caches hold nothing yet. -/
def Queue.initial : Queue K :=
  ⟨fun _ => 0, fun _ => 0, false, false, 0, true⟩

/-- A cache gets to hold more of a log, and the key is marked. -/
def Queue.deliver [DecidableEq K] (q : Queue K) (k : K) (n : ℕ) : Queue K :=
  { q with delivered := Function.update q.delivered k n, dirty := true }

/-- A run begins, if the key is marked and none is going on. -/
def Queue.take (q : Queue K) : Option (Queue K) :=
  if q.dirty && !q.running then
    some { q with started := q.delivered, dirty := false, running := true }
  else none

/-- The run ends; if it is not calm it is repeated later. -/
def Queue.finish (q : Queue K) (calm : Bool) : Queue K :=
  { q with running := false, timers := if calm then q.timers else q.timers + 1, calm := calm }

/-- The time of a repetition has come, and the key is marked. -/
def Queue.fire (q : Queue K) : Option (Queue K) :=
  if 0 < q.timers then some { q with timers := q.timers - 1, dirty := true } else none

/-- What the marks tell: if the key is not marked, the last run began with all that the caches hold,
and if nothing is to come either, it asked for no repetition. -/
structure Sound (written : K → ℕ) (q : Queue K) : Prop where
  started_le : ∀ k, q.started k ≤ q.delivered k
  delivered_le : ∀ k, q.delivered k ≤ written k
  started_eq : q.dirty = false → ∀ k, q.started k = q.delivered k
  calm : q.dirty = false → q.running = false → q.timers = 0 → q.calm = true

/-- Nothing was added to a log since the last run began. -/
def Quiet (written : K → ℕ) (q : Queue K) : Prop :=
  ∀ k, written k = q.started k

/-- Nothing is to be done: the caches hold all of the logs, the key is not marked, and no run is
going on or to come. -/
structure AtRest (written : K → ℕ) (q : Queue K) : Prop where
  delivered : ∀ k, q.delivered k = written k
  dirty : q.dirty = false
  running : q.running = false
  timers : q.timers = 0

variable {written written' : K → ℕ} {q q' : Queue K}

/-! ### The operations -/

/-- The marks are right at the start. -/
theorem sound_initial (written : K → ℕ) : Sound written Queue.initial :=
  ⟨fun _ => Nat.le_refl _, fun _ => Nat.zero_le _, fun _ _ => rfl, fun _ _ _ => rfl⟩

/-- The marks stay right when the logs grow. -/
theorem Sound.mono (h : Sound written q) (hle : ∀ k, written k ≤ written' k) :
    Sound written' q :=
  { h with delivered_le := fun k => Nat.le_trans (h.delivered_le k) (hle k) }

/-- The marks stay right when a cache gets to hold more. -/
theorem Sound.deliver [DecidableEq K] (h : Sound written q) {k : K} {n : ℕ}
    (hnew : q.delivered k ≤ n) (hn : n ≤ written k) : Sound written (q.deliver k n) := by
  refine ⟨fun k' => ?_, fun k' => ?_, fun hdirty => ?_, fun hdirty => ?_⟩
  · have hle := h.started_le k'
    by_cases hk : k' = k
    · subst hk
      simp only [Queue.deliver, Function.update_self]
      omega
    · simpa only [Queue.deliver, Function.update_of_ne hk] using hle
  · by_cases hk : k' = k
    · subst hk
      simpa only [Queue.deliver, Function.update_self] using hn
    · simpa only [Queue.deliver, Function.update_of_ne hk] using h.delivered_le k'
  · cases hdirty
  · cases hdirty

/-- The marks stay right when a run begins: it begins with all that the caches hold. -/
theorem Sound.take (h : Sound written q) (htake : q.take = some q') : Sound written q' := by
  rw [Queue.take] at htake
  split at htake
  · obtain rfl := Option.some.inj htake
    exact ⟨fun _ => Nat.le_refl _, h.delivered_le, fun _ _ => rfl,
      fun _ hrunning => by cases hrunning⟩
  · cases htake

/-- The marks stay right when a run ends: if it is not calm, a repetition is to come. -/
theorem Sound.finish (h : Sound written q) (calm : Bool) : Sound written (q.finish calm) := by
  refine ⟨h.started_le, h.delivered_le, h.started_eq, fun _ _ htimers => ?_⟩
  cases calm with
  | true => rfl
  | false => exact absurd htimers (Nat.succ_ne_zero _)

/-- The marks stay right when a repetition is due: the key is marked. -/
theorem Sound.fire (h : Sound written q) (hfire : q.fire = some q') : Sound written q' := by
  rw [Queue.fire] at hfire
  split at hfire
  · obtain rfl := Option.some.inj hfire
    refine ⟨h.started_le, h.delivered_le, fun hdirty => ?_, fun hdirty => ?_⟩
    · cases hdirty
    · cases hdirty
  · cases hfire

/-! ### What has not changed -/

/-- What was read from a cache is current, if nothing has changed since. -/
theorem Sound.delivered_of_quiet (h : Sound written q) (hquiet : Quiet written q) (k : K) :
    q.delivered k = written k := by
  have hstarted := h.started_le k
  have hdelivered := h.delivered_le k
  have hwritten := hquiet k
  omega

/-- **Nothing changed in between.** If nothing has changed since the last run began, then nothing
had changed at an earlier time. -/
theorem Sound.quiet_of_le (h : Sound written q) (hle : ∀ k, written k ≤ written' k)
    (hquiet : Quiet written' q) : Quiet written q := by
  intro k
  have hstarted := h.started_le k
  have hdelivered := h.delivered_le k
  have hgrown := hle k
  have hwritten := hquiet k
  omega

/-- After a log has grown, nothing is known to be unchanged. -/
theorem Sound.not_quiet_of_lt (h : Sound written q) {k : K} (hlt : written k < written' k) :
    ¬ Quiet written' q := by
  intro hquiet
  have hstarted := h.started_le k
  have hdelivered := h.delivered_le k
  have hwritten := hquiet k
  omega

/-- **At rest** nothing has changed since the last run began, and it asked for no repetition. -/
theorem Sound.quiet_of_atRest (h : Sound written q) (hrest : AtRest written q) :
    Quiet written q ∧ q.calm = true := by
  refine ⟨fun k => ?_, h.calm hrest.dirty hrest.running hrest.timers⟩
  rw [h.started_eq hrest.dirty k, hrest.delivered k]

end Workqueue
