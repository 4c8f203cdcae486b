import Mathlib.Data.List.Forall2

/-!
# Computations That May Fail

Inversion lemmas for `Except`: a sequence of fallible steps succeeds exactly when every
step does. They let proofs take a computation apart with `obtain` instead of unfolding
it.

## Main results

* `bind_eq_ok`: a bind succeeds when both halves do.
* `mapM_eq_ok_iff`: a mapped list succeeds element by element.
* `forM_eq_ok_iff`: a loop of checks succeeds when every check does.
-/

namespace Result

universe u

variable {ε : Type*} {α β : Type u}

/-- A bind succeeds exactly when both halves do. -/
theorem bind_eq_ok {x : Except ε α} {f : α → Except ε β} {b : β} :
    x >>= f = .ok b ↔ ∃ a, x = .ok a ∧ f a = .ok b := by
  cases x with
  | error e => simp [bind, Except.bind]
  | ok a => simp [bind, Except.bind]

/-- Returning is succeeding with the value returned. -/
theorem pure_eq_ok {a b : α} : (pure a : Except ε α) = .ok b ↔ a = b := by
  simp [pure, Except.pure]

/-- Relabelling the error changes nothing about success. -/
theorem mapError_eq_ok {ε' : Type*} {f : ε → ε'} {x : Except ε α} {a : α} :
    x.mapError f = .ok a ↔ x = .ok a := by
  cases x <;> simp [Except.mapError]

/-- Mapping a fallible function over a list succeeds exactly when it succeeds on every
element. -/
theorem mapM_eq_ok_iff {f : α → Except ε β} {l : List α} {r : List β} :
    l.mapM f = .ok r ↔ List.Forall₂ (fun a b => f a = .ok b) l r := by
  induction l generalizing r with
  | nil =>
      rw [List.mapM_nil, pure_eq_ok, List.forall₂_nil_left_iff]
      exact eq_comm
  | cons a l ih =>
      rw [List.mapM_cons, bind_eq_ok, List.forall₂_cons_left_iff]
      simp only [bind_eq_ok, ih, pure_eq_ok]
      constructor
      · rintro ⟨b, hb, bs, hbs, rfl⟩
        exact ⟨b, bs, hb, hbs, rfl⟩
      · rintro ⟨b, bs, hb, hbs, rfl⟩
        exact ⟨b, hb, bs, hbs, rfl⟩

/-- Every element of a list that was mapped successfully has an image. -/
theorem exists_of_mapM_eq_ok {f : α → Except ε β} {l : List α} {r : List β}
    (h : l.mapM f = .ok r) {a : α} (ha : a ∈ l) : ∃ b ∈ r, f a = .ok b := by
  rw [mapM_eq_ok_iff] at h
  induction h with
  | nil => cases ha
  | @cons a' b' l r hab _ ih =>
      rcases List.mem_cons.mp ha with rfl | ha
      · exact ⟨b', by simp, hab⟩
      · obtain ⟨b, hb, hfb⟩ := ih ha
        exact ⟨b, by simp [hb], hfb⟩

/-- Every element of the image of a list comes from an element of the list. -/
theorem exists_of_mem_mapM {f : α → Except ε β} {l : List α} {r : List β}
    (h : l.mapM f = .ok r) {b : β} (hb : b ∈ r) : ∃ a ∈ l, f a = .ok b := by
  rw [mapM_eq_ok_iff] at h
  induction h with
  | nil => cases hb
  | @cons a' b' l r hab _ ih =>
      rcases List.mem_cons.mp hb with rfl | hb
      · exact ⟨a', by simp, hab⟩
      · obtain ⟨a, ha, hfa⟩ := ih hb
        exact ⟨a, by simp [ha], hfa⟩

/-- A list is mapped successfully when each of its elements is. -/
theorem mapM_succeeds {f : α → Except ε β} {l : List α} (h : ∀ a ∈ l, ∃ b, f a = .ok b) :
    ∃ r, l.mapM f = .ok r := by
  induction l with
  | nil => exact ⟨[], List.mapM_nil⟩
  | cons a l ih =>
      obtain ⟨b, hb⟩ := h a (by simp)
      obtain ⟨r, hr⟩ := ih fun a' ha' => h a' (by simp [ha'])
      exact ⟨b :: r, by rw [List.mapM_cons, hb, hr]; rfl⟩

/-- A loop of checks succeeds exactly when every check does. -/
theorem forM_eq_ok_iff {f : α → Except ε PUnit} {l : List α} :
    forM l f = .ok ⟨⟩ ↔ ∀ a ∈ l, f a = .ok ⟨⟩ := by
  induction l with
  | nil => simp [List.forM_nil, pure, Except.pure]
  | cons a l ih =>
      rw [List.forM_cons, bind_eq_ok]
      simp only [ih, List.mem_cons, forall_eq_or_imp]
      constructor
      · rintro ⟨⟨⟩, ha, hl⟩
        exact ⟨ha, hl⟩
      · rintro ⟨ha, hl⟩
        exact ⟨⟨⟩, ha, hl⟩

/-! ### The same for `Option` -/

section Option

variable {α β γ : Type u}

/-- Mapping a function that is defined on every element. -/
theorem mapM_map_eq_some {f : β → Option γ} {g : α → β} {g' : α → γ} {l : List α}
    (h : ∀ a ∈ l, f (g a) = some (g' a)) : (l.map g).mapM f = some (l.map g') := by
  induction l with
  | nil => rfl
  | cons a l ih =>
      rw [List.map_cons, List.mapM_cons, h a (by simp), ih fun b hb => h b (by simp [hb])]
      rfl

/-- Mapping piece by piece. -/
theorem mapM_flatMap_eq_some {f : β → Option γ} {g : α → List β} {g' : α → List γ} {l : List α}
    (h : ∀ a ∈ l, (g a).mapM f = some (g' a)) : (l.flatMap g).mapM f = some (l.flatMap g') := by
  induction l with
  | nil => rfl
  | cons a l ih =>
      rw [List.flatMap_cons, List.mapM_append, h a (by simp), ih fun b hb => h b (by simp [hb])]
      rfl

/-- Mapping fails where the function does. -/
theorem mapM_eq_none_of_mem {f : α → Option β} {l : List α} {a : α} (ha : a ∈ l)
    (hf : f a = none) : l.mapM f = none := by
  induction l with
  | nil => cases ha
  | cons b l ih =>
      rw [List.mapM_cons]
      rcases List.mem_cons.mp ha with rfl | ha
      · rw [hf]
        rfl
      · rw [ih ha]
        cases f b <;> rfl

end Option

end Result
