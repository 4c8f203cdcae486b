import Mathlib.Data.List.Basic

/-!
# Replacing a File

A program replaces a file by writing a temporary file next to it and renaming that onto the
file. Between the first and the last system call anything may fail; the temporary file is
then removed. A step that fails has no effect on the file itself.

## Main results

* `replace_eq`: a replacement that writes before it renames either fails and leaves the
  file as it was, or succeeds and leaves exactly the new contents.
-/

namespace AtomicFile

variable {β : Type}

/-- The system calls of a replacement, with the reading of the old contents. -/
inductive Step
  | read
  | stat
  | createTemp
  | write
  | sync
  | chmod
  | close
  | rename
  deriving DecidableEq

/-- A file, absent or with its contents, and the temporary file next to it. -/
structure Slot (β : Type) where
  file : Option (List β)
  temp : Option (List β)

/-- What a system call that succeeds does to the two files. -/
def Step.run (data : List β) : Step → Slot β → Slot β
  | .createTemp, s => { s with temp := some [] }
  | .write, s => { s with temp := some data }
  | .rename, s => { file := s.temp, temp := none }
  | _, s => s

/-- Run system calls up to the one that fails, if one does. -/
def runSteps (fault : Option Step) (data : List β) : List Step → Slot β → Option Step × Slot β
  | [], s => (none, s)
  | t :: ts, s => if fault = some t then (some t, s) else runSteps fault data ts (t.run data s)

/-- Read a file, unless that fails. -/
def readFile (fault : Option Step) (file : Option (List β)) : Option (List β) :=
  if fault = some .read then none else file

/-- Replace a file by `data`; the failing step is returned. A temporary file that is left
over is removed, so that only the file itself remains. -/
def replace (steps : List Step) (fault : Option Step) (data : List β)
    (file : Option (List β)) : Option Step × Option (List β) :=
  let r := runSteps fault data steps ⟨file, none⟩
  (r.1, r.2.file)

/-- The steps write the temporary file before the only renaming, which comes last. -/
def WritesThenRenames (steps : List Step) : Prop :=
  ∃ before after, steps = before ++ .write :: (after ++ [.rename]) ∧
    (∀ t ∈ before, t ≠ .rename) ∧
      ∀ t ∈ after, t ≠ .rename ∧ t ≠ .write ∧ t ≠ .createTemp

/-- Steps one after another. -/
theorem runSteps_append (fault : Option Step) (data : List β) (ts us : List Step) (s : Slot β) :
    runSteps fault data (ts ++ us) s =
      match runSteps fault data ts s with
      | (none, s') => runSteps fault data us s'
      | r => r := by
  induction ts generalizing s with
  | nil => rfl
  | cons t ts ih =>
      rw [List.cons_append, runSteps, runSteps]
      split_ifs with ht
      · rfl
      · exact ih _

/-- A sequence of steps fails exactly at the first failing step it contains. -/
theorem runSteps_fst (fault : Option Step) (data : List β) (ts : List Step) (s : Slot β) :
    (runSteps fault data ts s).1 = fault.filter (· ∈ ts) := by
  induction ts generalizing s with
  | nil => cases fault <;> simp [runSteps]
  | cons t ts ih =>
      rw [runSteps]
      split_ifs with ht
      · simp [ht, Option.filter]
      · rw [ih]
        cases fault with
        | none => rfl
        | some t' =>
            have hne : t' ≠ t := fun h => ht (by rw [h])
            simp [Option.filter, hne]

/-- Without renaming the file stays as it is. -/
theorem runSteps_file (fault : Option Step) (data : List β) {ts : List Step}
    (hts : ∀ t ∈ ts, t ≠ .rename) (s : Slot β) :
    (runSteps fault data ts s).2.file = s.file := by
  induction ts generalizing s with
  | nil => rfl
  | cons t ts ih =>
      rw [runSteps]
      split_ifs
      · rfl
      · rw [ih (fun u hu => hts u (List.mem_cons_of_mem _ hu))]
        have ht := hts t List.mem_cons_self
        cases t <;> first | rfl | exact absurd rfl ht

/-- Steps that neither write nor create leave the temporary file as it is. -/
theorem runSteps_temp (fault : Option Step) (data : List β) {ts : List Step}
    (hts : ∀ t ∈ ts, t ≠ .rename ∧ t ≠ .write ∧ t ≠ .createTemp) (s : Slot β) :
    (runSteps fault data ts s).2.temp = s.temp := by
  induction ts generalizing s with
  | nil => rfl
  | cons t ts ih =>
      rw [runSteps]
      split_ifs
      · rfl
      · rw [ih (fun u hu => hts u (List.mem_cons_of_mem _ hu))]
        have ht := hts t List.mem_cons_self
        cases t <;> first | rfl | simp at ht

/-- A replacement that writes before it renames is all or nothing. -/
theorem replace_eq {steps : List Step} (hsteps : WritesThenRenames steps)
    (fault : Option Step) (data : List β) (file : Option (List β)) :
    replace steps fault data file =
      match fault.filter (· ∈ steps) with
      | some t => (some t, file)
      | none => (none, some data) := by
  obtain ⟨before, after, rfl, hbefore, hafter⟩ := hsteps
  have hfst := runSteps_fst fault data (before ++ .write :: (after ++ [.rename])) ⟨file, none⟩
  have hfile₁ := runSteps_file fault data hbefore ⟨file, none⟩
  rw [replace, ← hfst, runSteps_append]
  -- The run stops before the writing, at it, before the renaming, at it, or not at all.
  generalize runSteps fault data before ⟨file, none⟩ = r₁ at hfile₁ ⊢
  obtain ⟨_ | t, s₁⟩ := r₁
  · simp only at hfile₁ ⊢
    rw [runSteps]
    split_ifs with hw
    · simp [hfile₁]
    · have hfile₂ := runSteps_file fault data (fun t ht => (hafter t ht).1) (Step.write.run data s₁)
      have htemp₂ := runSteps_temp fault data hafter (Step.write.run data s₁)
      rw [runSteps_append]
      generalize runSteps fault data after (Step.write.run data s₁) = r₂ at hfile₂ htemp₂ ⊢
      obtain ⟨_ | t, s₂⟩ := r₂
      · simp only [Step.run] at hfile₂ htemp₂ ⊢
        rw [runSteps]
        split_ifs with hr
        · simp [hfile₂, hfile₁]
        · simp [runSteps, Step.run, htemp₂]
      · simp only [Step.run] at hfile₂ ⊢
        simp [hfile₂, hfile₁]
  · simp only at hfile₁ ⊢
    simp [hfile₁]

end AtomicFile
