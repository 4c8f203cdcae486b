import ScionOperator.Text
import Mathlib

/-!
# Maps with String Keys

A Go map with string keys: an extensional ordered map, so that two maps with the same
entries are equal and a map lists its entries in the order of the keys, as `encoding/json`
does when it prints one.

## Main results

* `getElem?_insertAll`: inserting a list of entries, the last one of a key wins.
* `insertAll_toList`: the entries of a map rebuild it.
* `toList_insert`: where a new entry stands in the order of the keys.
* `getElem?_stripKeys`: the entries under a common start of their keys.
-/

open Text

/-- A Go map with string keys. -/
abbrev GoMap (α : Type) : Type :=
  Std.ExtTreeMap Str α compare

namespace GoMap

variable {α β : Type}

/-- Maps with decidable entries are decidable. -/
instance [DecidableEq α] : DecidableEq (GoMap α) := fun m m' =>
  decidable_of_iff (m.toList = m'.toList) Std.ExtTreeMap.toList_inj

/-- The value of a key in a list of entries; the last entry wins. -/
def lastValue (k : Str) : List (Str × α) → Option α
  | [] => none
  | (k', v) :: l => (lastValue k l).or (if k' = k then some v else none)

/-- Insert the entries of a list, one after another. -/
def insertAll (m : GoMap α) (l : List (Str × α)) : GoMap α :=
  l.foldl (fun m e => m.insert e.1 e.2) m

/-- Look up a key after an insertion. -/
theorem getElem?_insert (m : GoMap α) (k a : Str) (v : α) :
    (m.insert k v)[a]? = if k = a then some v else m[a]? := by
  rw [Std.ExtTreeMap.getElem?_insert]
  by_cases h : k = a
  · rw [if_pos h, if_pos (by rw [Std.LawfulEqCmp.compare_eq_iff_eq]; exact h)]
  · rw [if_neg h, if_neg (by rw [Std.LawfulEqCmp.compare_eq_iff_eq]; exact h)]

/-- Look up a key after insertions: the last value inserted, or the old one. -/
theorem getElem?_insertAll (m : GoMap α) (l : List (Str × α)) (k : Str) :
    (insertAll m l)[k]? = (lastValue k l).or m[k]? := by
  induction l generalizing m with
  | nil => rfl
  | cons e l ih =>
      obtain ⟨k', v⟩ := e
      rw [insertAll, List.foldl_cons, ← insertAll, ih, getElem?_insert, lastValue]
      by_cases hk : k' = k
      · simp [hk]
      · simp [hk]

/-- A key has a last value exactly when it occurs. -/
theorem lastValue_eq_none {k : Str} {l : List (Str × α)} :
    lastValue k l = none ↔ ∀ e ∈ l, e.1 ≠ k := by
  induction l with
  | nil => simp [lastValue]
  | cons e l ih =>
      obtain ⟨k', v⟩ := e
      rw [lastValue, Option.or_eq_none_iff, ih]
      simp [and_comm]

/-- A last value belongs to an entry of the list. -/
theorem mem_of_lastValue {k : Str} {v : α} {l : List (Str × α)} (h : lastValue k l = some v) :
    (k, v) ∈ l := by
  induction l with
  | nil => cases h
  | cons e l ih =>
      obtain ⟨k', v'⟩ := e
      rw [lastValue, Option.or_eq_some_iff] at h
      rcases h with h | ⟨-, h⟩
      · exact List.mem_cons_of_mem _ (ih h)
      · split_ifs at h with hk
        obtain rfl := Option.some.inj h
        simp [hk]

/-- With distinct keys every entry is the last one of its key. -/
theorem lastValue_eq_some {k : Str} {v : α} {l : List (Str × α)}
    (hl : l.Pairwise fun a b => a.1 ≠ b.1) : lastValue k l = some v ↔ (k, v) ∈ l := by
  refine ⟨mem_of_lastValue, fun h => ?_⟩
  induction l with
  | nil => cases h
  | cons e l ih =>
      obtain ⟨k', v'⟩ := e
      rw [List.pairwise_cons] at hl
      rw [lastValue]
      rcases List.mem_cons.mp h with heq | h
      · obtain ⟨rfl, rfl⟩ := Prod.mk.inj heq
        have hnone : lastValue k l = none :=
          lastValue_eq_none.mpr fun e he heq => hl.1 e he heq.symm
        simp [hnone]
      · rw [ih hl.2 h, Option.some_or]

/-- The keys of a map are distinct. -/
theorem pairwise_ne_toList (m : GoMap α) : m.toList.Pairwise fun a b => a.1 ≠ b.1 :=
  Std.ExtTreeMap.distinct_keys_toList.imp fun h heq => h (by
    rw [Std.LawfulEqCmp.compare_eq_iff_eq]
    exact heq)

/-- Looking a key up in the entries of a map. -/
@[simp] theorem lastValue_toList (m : GoMap α) (k : Str) : lastValue k m.toList = m[k]? := by
  refine Option.ext fun v => ?_
  rw [lastValue_eq_some (pairwise_ne_toList m),
    Std.ExtTreeMap.mem_toList_iff_getElem?_eq_some]

/-- The entries of a map rebuild it. -/
@[simp] theorem insertAll_toList (m : GoMap α) : insertAll ∅ m.toList = m := by
  refine Std.ExtTreeMap.ext_getElem? fun k => ?_
  rw [getElem?_insertAll, lastValue_toList, Std.ExtTreeMap.getElem?_empty, Option.or_none]

/-- Mapping the values of a list of entries. -/
theorem lastValue_map_snd (f : α → β) (k : Str) (l : List (Str × α)) :
    lastValue k (l.map fun e => (e.1, f e.2)) = (lastValue k l).map f := by
  induction l with
  | nil => rfl
  | cons e l ih =>
      obtain ⟨k', v⟩ := e
      rw [List.map_cons, lastValue, lastValue, ih]
      cases lastValue k l with
      | none => split_ifs <;> rfl
      | some v => rfl

/-- Mapping the keys of a list of entries by an injective function. -/
theorem lastValue_map_fst {g : Str → Str} (hg : Function.Injective g) (k : Str)
    (l : List (Str × α)) : lastValue (g k) (l.map fun e => (g e.1, e.2)) = lastValue k l := by
  induction l with
  | nil => rfl
  | cons e l ih =>
      obtain ⟨k', v⟩ := e
      rw [List.map_cons, lastValue, lastValue, ih]
      simp only [hg.eq_iff]

/-- With distinct keys the order of the entries does not matter. -/
theorem lastValue_perm {l l' : List (Str × α)} (hperm : l.Perm l')
    (hl : l'.Pairwise fun a b => a.1 ≠ b.1) (k : Str) : lastValue k l = lastValue k l' := by
  have hl' : l.Pairwise fun a b => a.1 ≠ b.1 := hperm.symm.pairwise hl fun h => h.symm
  refine Option.ext fun v => ?_
  rw [lastValue_eq_some hl', lastValue_eq_some hl, hperm.mem_iff]

/-- Inserting a list again changes nothing. -/
theorem insertAll_insertAll_self (m : GoMap α) (l : List (Str × α)) :
    insertAll (insertAll m l) l = insertAll m l := by
  refine Std.ExtTreeMap.ext_getElem? fun k => ?_
  rw [getElem?_insertAll, getElem?_insertAll]
  cases lastValue k l <;> rfl

/-- Inserting one list after another. -/
theorem insertAll_append (m : GoMap α) (l l' : List (Str × α)) :
    insertAll m (l ++ l') = insertAll (insertAll m l) l' :=
  List.foldl_append

/-- When inserting a list before another one makes no difference: the map has its values
already, or the other list overwrites them. -/
theorem insertAll_insertAll_eq_iff (m : GoMap α) (l upper : List (Str × α)) :
    insertAll (insertAll m l) upper = insertAll m upper ↔
      ∀ e ∈ l, m[e.1]? = lastValue e.1 l ∨ (lastValue e.1 upper).isSome = true := by
  rw [Std.ExtTreeMap.ext_getElem?_iff]
  simp only [getElem?_insertAll]
  constructor
  · intro h e he
    obtain ⟨v, hv⟩ : ∃ v, lastValue e.1 l = some v :=
      Option.ne_none_iff_exists'.mp fun hnone => lastValue_eq_none.mp hnone e he rfl
    have hk := h e.1
    cases hover : lastValue e.1 upper with
    | some w => exact Or.inr rfl
    | none =>
        rw [hover, hv, Option.none_or, Option.none_or, Option.some_or] at hk
        exact Or.inl (hk.symm.trans hv.symm)
  · intro h k
    cases hk : lastValue k l with
    | none => rfl
    | some v =>
        rcases h (k, v) (mem_of_lastValue hk) with hsame | hover
        · rw [hsame, hk, Option.or_self]
        · obtain ⟨w, hw⟩ := Option.isSome_iff_exists.mp hover
          rw [hw, Option.some_or, Option.some_or]

/-- Filtering a map by its keys. -/
theorem getElem?_filter_key (m : GoMap α) (p : Str → Bool) (k : Str) :
    (m.filter fun k _ => p k)[k]? = if p k then m[k]? else none := by
  refine Option.ext fun v => ?_
  rw [← Std.ExtTreeMap.mem_toList_iff_getElem?_eq_some, Std.ExtTreeMap.toList_filter,
    List.mem_filter, Std.ExtTreeMap.mem_toList_iff_getElem?_eq_some]
  by_cases h : p k = true <;> simp [h]

/-- Lists of entries in the order of their keys are equal if they have the same entries. -/
theorem eq_of_ordered {l₁ l₂ : List (Str × α)}
    (h₁ : l₁.Pairwise fun a b => compare a.1 b.1 = .lt)
    (h₂ : l₂.Pairwise fun a b => compare a.1 b.1 = .lt) (hmem : ∀ e, e ∈ l₁ ↔ e ∈ l₂) :
    l₁ = l₂ := by
  have hne : ∀ a b : Str × α, compare a.1 b.1 = .lt → a ≠ b := by
    rintro a b hab rfl
    have hself : compare a.1 a.1 = .eq := Std.ReflCmp.compare_self
    rw [hself] at hab
    cases hab
  refine List.Perm.eq_of_pairwise ?_ h₁ h₂
    ((List.perm_ext_iff_of_nodup (h₁.imp (hne _ _)) (h₂.imp (hne _ _))).mpr hmem)
  intro a b _ _ hab hba
  have hswap : compare a.1 b.1 = (compare b.1 a.1).swap := Std.OrientedCmp.eq_swap
  rw [hab, hba] at hswap
  cases hswap

/-- The entries of a map after an insertion: those with smaller keys, the new one, and those
with greater keys. -/
theorem toList_insert (m : GoMap α) (k : Str) (v : α) :
    (m.insert k v).toList =
      m.toList.filter (fun e => compare e.1 k = .lt) ++
        (k, v) :: m.toList.filter (fun e => compare e.1 k = .gt) := by
  have hord : m.toList.Pairwise fun a b => compare a.1 b.1 = .lt :=
    Std.ExtTreeMap.ordered_keys_toList
  refine eq_of_ordered Std.ExtTreeMap.ordered_keys_toList
    (List.pairwise_append.mpr ⟨hord.filter _, List.pairwise_cons.mpr ⟨?_, hord.filter _⟩, ?_⟩) ?_
  · intro e he
    rw [List.mem_filter, decide_eq_true_eq] at he
    exact Std.OrientedCmp.gt_iff_lt.mp he.2
  · intro e he e' he'
    rw [List.mem_filter, decide_eq_true_eq] at he
    rcases List.mem_cons.mp he' with rfl | he'
    · exact he.2
    · rw [List.mem_filter, decide_eq_true_eq] at he'
      exact Std.TransCmp.lt_trans he.2 (Std.OrientedCmp.gt_iff_lt.mp he'.2)
  · rintro ⟨a, w⟩
    rw [Std.ExtTreeMap.mem_toList_iff_getElem?_eq_some, getElem?_insert, List.mem_append,
      List.mem_cons, List.mem_filter, List.mem_filter, decide_eq_true_eq, decide_eq_true_eq,
      Std.ExtTreeMap.mem_toList_iff_getElem?_eq_some]
    have heq : compare a k = .eq ↔ a = k := Std.LawfulEqCmp.compare_eq_iff_eq
    by_cases hk : k = a
    · subst hk
      simp [eq_comm]
    · have hne : compare a k ≠ .eq := fun h => hk (heq.mp h).symm
      have hak : a ≠ k := fun h => hk h.symm
      rw [if_neg hk]
      cases hc : compare a k with
      | lt => simp [hak]
      | eq => exact absurd hc hne
      | gt => simp [hak]

/-- The entries of a map whose key starts with `pfx`, under the rest of the key. -/
def stripKeys (pfx : Str) (m : GoMap α) : GoMap α :=
  insertAll ∅ ((m.toList.filter fun e => pfx.isPrefixOf e.1).map fun e =>
    (e.1.drop pfx.length, e.2))

/-- Look up the rest of a key in a list of entries. -/
theorem lastValue_strip (pfx n : Str) (l : List (Str × α)) :
    lastValue n ((l.filter fun e => pfx.isPrefixOf e.1).map fun e => (e.1.drop pfx.length, e.2)) =
      lastValue (pfx ++ n) l := by
  induction l with
  | nil => rfl
  | cons e l ih =>
      obtain ⟨k, v⟩ := e
      rw [List.filter_cons, lastValue]
      by_cases hk : pfx.isPrefixOf k = true
      · obtain ⟨t, rfl⟩ := List.isPrefixOf_iff_prefix.mp hk
        rw [if_pos hk, List.map_cons, lastValue, ih]
        simp
      · have hne : k ≠ pfx ++ n := by
          rintro rfl
          exact hk (List.isPrefixOf_iff_prefix.mpr (List.prefix_append _ _))
        rw [if_neg hk, ih, if_neg hne, Option.or_none]

/-- Look up the rest of a key. -/
@[simp] theorem getElem?_stripKeys (pfx : Str) (m : GoMap α) (n : Str) :
    (stripKeys pfx m)[n]? = m[pfx ++ n]? := by
  rw [stripKeys, getElem?_insertAll, lastValue_strip, lastValue_toList,
    Std.ExtTreeMap.getElem?_empty, Option.or_none]

end GoMap
