import Mathlib.Data.Option.Basic
import Mathlib.Logic.Function.Basic

/-!
# Groups of Goroutines

A group runs goroutines under one context (`errgroup.WithContext`). The context is cancelled when
its parent is, or when the first goroutine returns an error; the group keeps this error, and once
all goroutines have returned, waiting for the group returns it.

Whoever returns first after the parent was cancelled may leave its error. If the parent was not
cancelled, the error that is kept comes from a goroutine that failed while nothing was wrong:
`Blames` says which goroutines can do so.

## Main results

* `blames_ret`: **the first error comes from a goroutine that may fail by itself**, as long as the
  parent is not cancelled.
-/

namespace Errgroup

variable {G ε : Type}

/-- A group. -/
structure Group (G ε : Type) where
  /-- the goroutines that have not returned -/
  live : G → Bool
  /-- the first error, with the goroutine that returned it -/
  err : Option (G × ε)
  /-- the parent of the context is cancelled -/
  stopped : Bool

/-- A group whose goroutines were just started, some of them not at all. -/
def Group.start (live : G → Bool) (stopped : Bool) : Group G ε :=
  ⟨live, none, stopped⟩

/-- The context is cancelled. -/
def Group.cancelled (g : Group G ε) : Bool :=
  g.stopped || g.err.isSome

/-- A goroutine returns, with an error or without. -/
def Group.ret [DecidableEq G] (g : Group G ε) (i : G) (e : Option ε) : Group G ε :=
  { g with live := Function.update g.live i false, err := g.err <|> e.map (Prod.mk i) }

/-- The first error is one that its goroutine may return by itself, unless the parent is
cancelled. -/
def Blames (may : G → ε → Prop) (g : Group G ε) : Prop :=
  g.stopped = false → ∀ i e, g.err = some (i, e) → may i e

variable [DecidableEq G] {g : Group G ε} {i : G} {e : Option ε}

/-- A goroutine that has returned is not live. -/
@[simp]
theorem live_ret_self : (g.ret i e).live i = false :=
  Function.update_self ..

/-- The others go on. -/
theorem live_ret_of_ne {j : G} (h : j ≠ i) : (g.ret i e).live j = g.live j :=
  Function.update_of_ne h ..

/-- No goroutine comes back to life. -/
theorem live_of_live_ret {j : G} (h : (g.ret i e).live j = true) : g.live j = true := by
  by_cases hj : j = i
  · subst hj
    rw [live_ret_self] at h
    cases h
  · rwa [live_ret_of_ne hj] at h

/-- What is cancelled stays so. -/
theorem cancelled_ret (h : g.cancelled = true) : (g.ret i e).cancelled = true := by
  rw [Group.cancelled, Bool.or_eq_true] at h ⊢
  rcases h with h | h
  · exact .inl h
  · obtain ⟨x, hx⟩ := Option.isSome_iff_exists.mp h
    right
    rw [Group.ret, hx]
    rfl

/-- **Who is to blame.** If a goroutine that returns an error before the context is cancelled may
do so, the group blames the right one. -/
theorem blames_ret {may : G → ε → Prop} (h : Blames may g)
    (hmay : g.cancelled = false → ∀ x, e = some x → may i x) : Blames may (g.ret i e) := by
  intro hstopped j x hx
  cases herr : g.err with
  | some y =>
      rw [Group.ret, herr] at hx
      exact h hstopped j x (herr.trans hx)
  | none =>
      rw [Group.ret, herr] at hx
      obtain ⟨x', hx', hpair⟩ := Option.map_eq_some_iff.mp hx
      obtain ⟨rfl, rfl⟩ := Prod.mk.inj hpair
      refine hmay ?_ x' hx'
      rw [Group.cancelled, herr]
      exact Bool.or_eq_false_iff.mpr ⟨hstopped, rfl⟩

end Errgroup
