import Mathlib.Data.List.Nodup

/-!
# Tasks up to the First Error

Several tasks are run one after another on a shared state, and the first error ends the run. Each
task works on a part of the state of its own: what it does there depends on that part only, and it
leaves the parts of the others alone. What a whole run does to a part can then be told from what
its task does to it, whatever was run before.

## Main results

* `run_cases`: **how far a run gets**: all tasks are done; or one of them fails, those before it
  are done, and the parts of those after it are as before.
* `run_eq_none_iff`: a run succeeds exactly if each task succeeds on its part as it was.
* `part_run`: each part is as before, or as its own task leaves it.
-/

namespace FirstError

variable {σ ι ε : Type} {τ : ι → Type}

/-- Run tasks one after another, up to the first error. -/
def run (task : ι → σ → σ × Option ε) : List ι → σ → σ × Option ε
  | [], s => (s, none)
  | i :: rest, s =>
      match task i s with
      | (s', none) => run task rest s'
      | (s', some e) => (s', some e)

/-- Each task works on a part of the state of its own, in a way that depends on nothing else. -/
structure Separate (task : ι → σ → σ × Option ε) (part : (i : ι) → σ → τ i)
    (act : (i : ι) → τ i → τ i × Option ε) : Prop where
  own : ∀ i s, act i (part i s) = (part i (task i s).1, (task i s).2)
  others : ∀ i j s, j ≠ i → part j (task i s).1 = part j s

variable {task : ι → σ → σ × Option ε} {part : (i : ι) → σ → τ i}
  {act : (i : ι) → τ i → τ i × Option ε}

/-- The parts of tasks that are not run stay. -/
theorem part_run_of_notMem (h : Separate task part act) {j : ι} {l : List ι} {s : σ}
    (hj : j ∉ l) : part j (run task l s).1 = part j s := by
  induction l generalizing s with
  | nil => rfl
  | cons i rest ih =>
      rw [List.mem_cons, not_or] at hj
      have hsame := h.others i j s hj.1
      rw [run]
      rcases htask : task i s with ⟨s', _ | e⟩
      · rw [htask] at hsame
        exact (ih hj.2).trans hsame
      · rwa [htask] at hsame

/-- **How far a run gets.** All tasks are done; or one of them fails, those before it are done,
and the parts of those after it are as before. -/
theorem run_cases (h : Separate task part act) {l : List ι} (hl : l.Nodup) (s : σ) :
    ((run task l s).2 = none ∧
        ∀ i ∈ l, act i (part i s) = (part i (run task l s).1, none)) ∨
      ∃ done i rest e, l = done ++ i :: rest ∧ (run task l s).2 = some e ∧
        act i (part i s) = (part i (run task l s).1, some e) ∧
        (∀ j ∈ done, act j (part j s) = (part j (run task l s).1, none)) ∧
        ∀ j ∈ rest, part j (run task l s).1 = part j s := by
  induction l generalizing s with
  | nil => exact .inl ⟨rfl, by simp⟩
  | cons i rest ih =>
      rw [List.nodup_cons] at hl
      have hown := h.own i s
      have hothers : ∀ j ∈ rest, part j (task i s).1 = part j s := fun j hj =>
        h.others i j s (ne_of_mem_of_not_mem hj hl.1)
      rw [run]
      rcases htask : task i s with ⟨s', _ | e⟩
      · rw [htask] at hown hothers
        dsimp only at hown hothers ⊢
        -- the head is done, and the tasks after it find their parts as they were
        have hhead : act i (part i s) = (part i (run task rest s').1, none) := by
          rw [hown, part_run_of_notMem h hl.1]
        rcases ih hl.2 s' with
          ⟨hnil, hall⟩ | ⟨done, j, rest', e, hsplit, herr, hfails, hdone, hrest⟩
        · refine .inl ⟨hnil, List.forall_mem_cons.mpr ⟨hhead, fun j hj => ?_⟩⟩
          rw [← hothers j hj]
          exact hall j hj
        · have hmem : ∀ k, k ∈ done ∨ k ∈ j :: rest' → k ∈ rest := fun k hk =>
            hsplit ▸ List.mem_append.mpr hk
          refine .inr ⟨i :: done, j, rest', e, by rw [hsplit, List.cons_append], herr, ?_, ?_, ?_⟩
          · rw [← hothers j (hmem j (.inr List.mem_cons_self))]
            exact hfails
          · refine List.forall_mem_cons.mpr ⟨hhead, fun k hk => ?_⟩
            rw [← hothers k (hmem k (.inl hk))]
            exact hdone k hk
          · intro k hk
            rw [← hothers k (hmem k (.inr (List.mem_cons_of_mem j hk)))]
            exact hrest k hk
      · rw [htask] at hown hothers
        exact .inr ⟨[], i, rest, e, rfl, rfl, hown, by simp, hothers⟩

/-- A run succeeds exactly if each task succeeds on its part as it was before the run. -/
theorem run_eq_none_iff (h : Separate task part act) {l : List ι} (hl : l.Nodup) (s : σ) :
    (run task l s).2 = none ↔ ∀ i ∈ l, (act i (part i s)).2 = none := by
  rcases run_cases h hl s with ⟨hnil, hall⟩ | ⟨done, i, rest, e, hsplit, herr, hfails, -⟩
  · exact iff_of_true hnil fun i hi => congrArg Prod.snd (hall i hi)
  · have hi : i ∈ l := by simp [hsplit]
    refine iff_of_false (by simp [herr]) fun hall => ?_
    have hnone := hall i hi
    rw [hfails] at hnone
    cases hnone

/-- Each part is as before, or as its own task leaves it. -/
theorem part_run (h : Separate task part act) {l : List ι} (hl : l.Nodup) (s : σ) (i : ι) :
    part i (run task l s).1 = part i s ∨
      part i (run task l s).1 = (act i (part i s)).1 := by
  by_cases hi : i ∈ l
  · rcases run_cases h hl s with ⟨-, hall⟩ | ⟨done, j, rest, e, hsplit, -, hfails, hdone, hrest⟩
    · rw [hall i hi]
      exact .inr rfl
    · rw [hsplit, List.mem_append, List.mem_cons] at hi
      rcases hi with hi | rfl | hi
      · rw [hdone i hi]
        exact .inr rfl
      · rw [hfails]
        exact .inr rfl
      · exact .inl (hrest i hi)
  · exact .inl (part_run_of_notMem h hi)

end FirstError
