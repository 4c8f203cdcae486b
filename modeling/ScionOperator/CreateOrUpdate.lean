import Mathlib.Data.Option.Basic
import Mathlib.Data.Nat.Notation
import Mathlib.Tactic.SplitIfs

/-!
# Creating or Updating an Object

A controller keeps an object on a server that others write as well. It reads the object from a
cache that may lack the last versions, changes what it read, and writes it back unless nothing
changed (`controllerutil.CreateOrUpdate`). The server refuses to create what exists and to update
from a version that is not the current one. It may change what it is sent, by filling in defaults
for instance, and adds no version if the object is then as before.

So the object that is sent can differ from the one that was read every time, while what is stored
does not: a write may be sent by every call and the object is settled all the same.

## Main results

* `createOrUpdate_cases`: what one call does to the versions of an object.
* `settled_of_eq_none`: **a call that succeeds leaves the object settled**, if it read the
  current version.
* `fst_of_settled`: **no call adds a version to a settled object**, whatever it reads.
* `eq_none_iff`: when a call succeeds to which the server gives no trouble.
-/

namespace CreateOrUpdate

variable {α ε : Type}

/-- The versions of an object, the last one first; `none` stands for a deletion. -/
abbrev History (α : Type) : Type :=
  List (Option α)

/-- The object, if it exists. -/
def current (h : History α) : Option α :=
  h.head?.join

/-- The object in a cache that lacks the last versions. -/
def seen (h : History α) (behind : ℕ) : Option α :=
  current (h.drop behind)

/-- An object that a controller keeps. -/
structure Managed (α ε : Type) where
  /-- what the object is created from -/
  rendered : α
  /-- how it is changed before it is written -/
  mutate : α → Except ε α
  /-- what the server stores when it is sent an object -/
  persist : α → α
  /-- what was stored is not stored differently the next time -/
  stable : ∀ x y, mutate x = .ok y → ∃ z, mutate (persist y) = .ok z ∧ persist z = persist y

/-- How a write ends that the server does not refuse. -/
inductive Fate
  | done
  /-- it is carried out, but the answer is lost -/
  | unanswered
  | failed
  deriving DecidableEq

/-- What a call meets. -/
structure Request (ε : Type) where
  /-- how many of the last versions the cache lacks -/
  behind : ℕ
  /-- the error of reading the object, other than that it does not exist -/
  getError : Option ε
  fate : Fate

/-- The server gives no trouble: the current version is read, and writes are carried out. -/
structure Request.Undisturbed (r : Request ε) : Prop where
  behind : r.behind = 0
  getError : r.getError = none
  fate : r.fate = .done

/-- Why a call fails. -/
inductive Failure (ε : Type)
  | get (cause : ε)
  | mutate (cause : ε)
  | alreadyExists
  | conflict
  | write
  deriving DecidableEq

variable [DecidableEq α]

/-- The server carries out a write, or not. -/
def submit (m : Managed α ε) (fate : Fate) (h : History α) (new : α) :
    History α × Option (Failure ε) :=
  if fate = .failed then (h, some .write)
  else
    (if current h = some (m.persist new) then h else some (m.persist new) :: h,
      if fate = .done then none else some .write)

/-- Create the object, or update it; the error that is returned, or nil. -/
def createOrUpdate (m : Managed α ε) (r : Request ε) (h : History α) :
    History α × Option (Failure ε) :=
  match r.getError with
  | some cause => (h, some (.get cause))
  | none =>
      match seen h r.behind with
      | none =>
          match m.mutate m.rendered with
          | .error cause => (h, some (.mutate cause))
          | .ok new =>
              if (current h).isSome then (h, some .alreadyExists) else submit m r.fate h new
      | some old =>
          match m.mutate old with
          | .error cause => (h, some (.mutate cause))
          | .ok new =>
              if new = old then (h, none)
              else if r.behind = 0 then submit m r.fate h new
              else (h, some .conflict)

/-- The object exists, and changing it again leaves it as it is stored. -/
def Settled (m : Managed α ε) (h : History α) : Prop :=
  ∃ x y, current h = some x ∧ m.mutate x = .ok y ∧ (y = x ∨ m.persist y = x)

omit [DecidableEq α] in
/-- What is stored after a change is settled. -/
theorem settled_of_mutate {m : Managed α ε} {h : History α} {x y : α}
    (hmutate : m.mutate x = .ok y) (hcurrent : current h = some (m.persist y)) : Settled m h := by
  obtain ⟨z, hz, hpersist⟩ := m.stable x y hmutate
  exact ⟨_, z, hcurrent, hz, .inr hpersist⟩

/-- A write adds what the server makes of the object, if it differs from the current version. -/
theorem submit_cases (m : Managed α ε) (fate : Fate) (h : History α) (new : α) :
    ((submit m fate h new).1 = h ∧
        ((submit m fate h new).2 = none → current h = some (m.persist new))) ∨
      ((submit m fate h new).1 = some (m.persist new) :: h ∧ current h ≠ some (m.persist new)) := by
  rw [submit]
  split_ifs with hfailed hsame hdone
  · exact .inl ⟨rfl, nofun⟩
  · exact .inl ⟨rfl, fun _ => hsame⟩
  · exact .inl ⟨rfl, nofun⟩
  · exact .inr ⟨rfl, hsame⟩
  · exact .inr ⟨rfl, hsame⟩

/-- **What one call does.** The versions stay, and after a success from the current version the
object is settled; or a version is added, which is the current one or the rendered object,
changed, as the server stores it. -/
theorem createOrUpdate_cases (m : Managed α ε) (r : Request ε) (h : History α) :
    ((createOrUpdate m r h).1 = h ∧
        ((createOrUpdate m r h).2 = none → r.behind = 0 → Settled m h)) ∨
      ∃ new, m.mutate ((current h).getD m.rendered) = .ok new ∧
        (createOrUpdate m r h).1 = some (m.persist new) :: h ∧
        current h ≠ some new ∧ current h ≠ some (m.persist new) := by
  rw [createOrUpdate]
  cases r.getError with
  | some cause => exact .inl ⟨rfl, nofun⟩
  | none =>
      cases hseen : seen h r.behind with
      | none =>
          cases hmutate : m.mutate m.rendered with
          | error cause => exact .inl ⟨rfl, nofun⟩
          | ok new =>
              dsimp only
              cases hcurrent : current h with
              | some x => exact .inl ⟨rfl, nofun⟩
              | none =>
                  rw [Option.isSome_none, if_neg Bool.false_ne_true, Option.getD_none]
                  rcases submit_cases m r.fate h new with ⟨hsame, hnil⟩ | ⟨hadded, -⟩
                  · exact .inl ⟨hsame, fun hnone _ => settled_of_mutate hmutate (hnil hnone)⟩
                  · exact .inr ⟨new, hmutate, hadded, nofun, nofun⟩
      | some old =>
          dsimp only
          cases hmutate : m.mutate old with
          | error cause => exact .inl ⟨rfl, nofun⟩
          | ok new =>
              dsimp only
              split_ifs with heq hbehind
              · refine .inl ⟨rfl, fun _ hbehind => ?_⟩
                rw [hbehind, seen, List.drop_zero] at hseen
                exact ⟨old, new, hseen, hmutate, .inl heq⟩
              · rw [hbehind, seen, List.drop_zero] at hseen
                rcases submit_cases m r.fate h new with ⟨hsame, hnil⟩ | ⟨hadded, hne⟩
                · exact .inl ⟨hsame, fun hnone _ => settled_of_mutate hmutate (hnil hnone)⟩
                · refine .inr ⟨new, ?_, hadded, ?_, hne⟩
                  · rw [hseen, Option.getD_some, hmutate]
                  · rw [hseen]
                    exact fun hold => heq (Option.some.inj hold).symm
              · exact .inl ⟨rfl, nofun⟩

/-- **A call that succeeds.** If it read the current version, the object is settled. -/
theorem settled_of_eq_none {m : Managed α ε} {r : Request ε} {h : History α}
    (hbehind : r.behind = 0) (hnone : (createOrUpdate m r h).2 = none) :
    Settled m (createOrUpdate m r h).1 := by
  rcases createOrUpdate_cases m r h with ⟨hsame, hsettled⟩ | ⟨new, hmutate, heq, -, -⟩
  · rw [hsame]
    exact hsettled hnone hbehind
  · rw [heq]
    exact settled_of_mutate hmutate rfl

/-- **A settled object stays.** No call adds a version to it, whatever it reads. -/
theorem fst_of_settled {m : Managed α ε} {h : History α} (hsettled : Settled m h)
    (r : Request ε) : (createOrUpdate m r h).1 = h := by
  rcases createOrUpdate_cases m r h with ⟨hsame, -⟩ | ⟨new, hmutate, -, hchanged, hne⟩
  · exact hsame
  · obtain ⟨x, y, hcurrent, hy, hfix⟩ := hsettled
    rw [hcurrent, Option.getD_some, hy] at hmutate
    obtain rfl := Except.ok.inj hmutate
    rcases hfix with rfl | hpersist
    · exact absurd hcurrent hchanged
    · exact absurd (hcurrent.trans (congrArg some hpersist.symm)) hne

/-- A call that is not refused, since it reads the current version or there is none. -/
theorem createOrUpdate_of_seen {m : Managed α ε} {r : Request ε} {h : History α}
    (hget : r.getError = none) (hseen : seen h r.behind = current h)
    (hbehind : r.behind = 0 ∨ current h = none) :
    createOrUpdate m r h =
      match m.mutate ((current h).getD m.rendered) with
      | .error cause => (h, some (.mutate cause))
      | .ok new => if current h = some new then (h, none) else submit m r.fate h new := by
  rw [createOrUpdate, hget, hseen]
  cases hcurrent : current h with
  | none =>
      dsimp only [Option.getD_none]
      cases m.mutate m.rendered with
      | error cause => rfl
      | ok new => simp
  | some old =>
      have hzero : r.behind = 0 := hbehind.resolve_right (by simp [hcurrent])
      dsimp only [Option.getD_some]
      cases m.mutate old with
      | error cause => rfl
      | ok new => simp [hzero, eq_comm]

/-- When a call succeeds that the server gives no trouble: exactly if the object can be
changed. -/
theorem eq_none_iff {m : Managed α ε} {r : Request ε} {h : History α} (hr : r.Undisturbed) :
    (createOrUpdate m r h).2 = none ↔
      ∃ new, m.mutate ((current h).getD m.rendered) = .ok new := by
  have hseen : seen h r.behind = current h := by rw [hr.behind, seen, List.drop_zero]
  rw [createOrUpdate_of_seen hr.getError hseen (.inl hr.behind)]
  cases m.mutate ((current h).getD m.rendered) with
  | error cause => simp
  | ok new =>
      dsimp only
      split_ifs
      · simp
      · simp [submit, hr.fate]

end CreateOrUpdate
