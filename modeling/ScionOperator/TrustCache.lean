import Mathlib.Data.Nat.Log
import ScionOperator.Transition

/-!
# Resetting the Daemon's Caches

The agent's daemon keeps two databases as caches, `sd.trust.db` and `sd.path.db`
(`internal/agent/daemonapi`). At every start it loads the bootstrapped TRCs into the cached trust
database. If one of them has the identity of a cached TRC but another content, then the AS was
bootstrapped anew and both caches are stale: `resetStaleTrustCache` removes them, each with the
two files that the database engine may keep beside it.

The files are removed one by one, the trust database first. With it goes what shows the
conflict: if a later removal fails, or the agent is killed, then the next start finds no conflict
and goes on with the path database that is still there (`stale_paths_kept`). A start that removes
the trust database has to remove the path database as well.

The steps are the starts of the agent, and the work of the daemon after a start that succeeded,
which may add files and change what the trust database holds. Files are told apart by numbers
that are given once, like inodes; the state records those of the path database that were there
when a conflict was detected. The storage library is taken to create an empty trust database if
there is none.

## Main results

* `inode_removeFiles`: what an interrupted removal leaves.
* `resetStaleTrustCache_cases`: what a call may do.
* `shown_step`: a start that removes the two databases together keeps the invariant.
* `safe_of_run`: **no call returns nil over a path database that was there at a conflict**, if
  no start removed the trust database without it.
* `not_safe_of_interrupted`: **and every start that does leads to such a call.**
-/

namespace ScionOperator.TrustCache

/-! ### The databases -/

/-- The identity of a TRC, the primary key of its table. -/
structure TRCId where
  isd : ℕ
  base : ℕ
  serial : ℕ
  deriving DecidableEq

/-- A TRC: its identity and its content. -/
structure TRC where
  id : TRCId
  raw : List UInt8
  deriving DecidableEq

/-- The two databases: `sd.trust.db` and `sd.path.db`. -/
inductive Base
  | trust
  | path
  deriving DecidableEq

/-- The files of a database: itself, and those with `-wal` and `-shm` after its name. -/
inductive Suffix
  | db
  | wal
  | shm
  deriving DecidableEq

/-- A file of a database. -/
structure File where
  base : Base
  suffix : Suffix
  deriving DecidableEq

/-- The trust database. -/
def trustDB : File :=
  ⟨.trust, .db⟩

/-- The endings of the files of a database, in the order in which they are removed. -/
def suffixes : List Suffix :=
  [.db, .wal, .shm]

/-- The files that are removed, in order. -/
def caches : List File :=
  [Base.trust, Base.path].flatMap fun base => suffixes.map (File.mk base)

/-- The state directory: the numbers of the files that exist, what the trust database holds, and
the number of the next file, which no file has yet. -/
structure Disk where
  inode : File → Option ℕ
  trcs : List TRC
  next : ℕ
  inode_lt : ∀ f n, inode f = some n → n < next

namespace Disk

/-- Remove a file, if it exists. -/
def remove (d : Disk) (f : File) : Disk where
  inode g := if g = f then none else d.inode g
  trcs := d.trcs
  next := d.next
  inode_lt g n h := by
    split_ifs at h
    exact d.inode_lt g n h

/-- Create a file, if it does not exist. -/
def create (d : Disk) (f : File) : Disk where
  inode g := if g = f ∧ d.inode f = none then some d.next else d.inode g
  trcs := d.trcs
  next := d.next + 1
  inode_lt g n h := by
    split_ifs at h with hg
    · obtain rfl := Option.some.inj h
      exact Nat.lt_succ_self _
    · exact Nat.lt_succ_of_lt (d.inode_lt g n h)

/-- Put TRCs into the trust database. -/
def withTRCs (d : Disk) (trcs : List TRC) : Disk :=
  { d with trcs := trcs }

/-- What the trust database holds; one that does not exist is created empty. -/
def trusted (d : Disk) : List TRC :=
  if d.inode trustDB = none then [] else d.trcs

/-- The files of the path database that exist. -/
def pathParts (d : Disk) : List (File × ℕ) :=
  (suffixes.map (File.mk .path)).filterMap fun f => (d.inode f).map fun n => (f, n)

end Disk

/-! ### Loading TRCs -/

/-- A TRC has the identity of one in the database, but another content. -/
def conflicts (db : List TRC) (t : TRC) : Bool :=
  db.any fun t' => t'.id = t.id && t' ≠ t

/-- Insert a TRC; one that is there already is not inserted again, and one that conflicts
violates the primary key. -/
def insertTRC (db : List TRC) (t : TRC) : Option (List TRC) :=
  if conflicts db t then none
  else if db.contains t then some db
  else some (db ++ [t])

/-- Why loading TRCs fails, as far as it is told apart. -/
inductive LoadError
  | writeFailed
  | other
  deriving DecidableEq

/-- Load TRC files into the trust database, up to the first one that fails: by a fault of its
own, or because it conflicts. -/
def loadTRCs (fault : TRC → Option LoadError) : List TRC → List TRC → List TRC × Option LoadError
  | [], db => (db, none)
  | t :: files, db =>
      match fault t with
      | some err => (db, some err)
      | none =>
          match insertTRC db t with
          | none => (db, some .writeFailed)
          | some db' => loadTRCs fault files db'

/-! ### A start -/

/-- How removing a file goes; the process may be killed after it. -/
inductive Removal
  | removed
  | failed
  | killed
  deriving DecidableEq

/-- Why `resetStaleTrustCache` fails. -/
inductive CacheError
  /-- opening trust cache for preflight -/
  | opening
  /-- closing trust cache after preflight -/
  | closing
  /-- preflight TRC load -/
  | loading
  /-- removing stale daemon cache -/
  | removing (f : File)
  deriving DecidableEq

/-- How a call ends. -/
inductive Outcome
  | returned (err : Option CacheError)
  | killed
  deriving DecidableEq

/-- A start of the agent, as far as it may go wrong. -/
structure Start where
  openFails : Bool
  /-- the directory of the TRC files cannot be read -/
  listFails : Bool
  fault : TRC → Option LoadError
  closeFails : Bool
  /-- the process is killed before the first removal -/
  killed : Bool
  remove : File → Removal

/-- Remove files one by one. -/
def removeFiles (remove : File → Removal) : List File → Disk → Disk × Outcome
  | [], d => (d, .returned none)
  | f :: fs, d =>
      match remove f with
      | .failed => (d, .returned (some (.removing f)))
      | .killed => (d.remove f, .killed)
      | .removed => removeFiles remove fs (d.remove f)

/-- What loading the files into the trust database does. -/
def Start.load (a : Start) (files : List TRC) (d : Disk) : List TRC × Option LoadError :=
  if a.listFails then (d.trusted, some .other) else loadTRCs a.fault files d.trusted

/-- The directory after the preflight: the trust database exists, with what was loaded. -/
def Start.preflight (a : Start) (files : List TRC) (d : Disk) : Disk :=
  (d.create trustDB).withTRCs (a.load files d).1

/-- Load the TRC files into the cached trust database, and remove both databases if that fails
on a write. -/
def resetStaleTrustCache (files : List TRC) (a : Start) (d : Disk) : Disk × Outcome :=
  if a.openFails then (d, .returned (some .opening))
  else
    match (a.load files d).2 with
    | none =>
        (a.preflight files d, .returned (if a.closeFails then some .closing else none))
    | some .other => (a.preflight files d, .returned (some .loading))
    | some .writeFailed =>
        if a.killed then (a.preflight files d, .killed)
        else removeFiles a.remove caches (a.preflight files d)

/-! ### Starts and work -/

/-- What the daemon does after a start that succeeded. -/
structure Work where
  created : List File
  dropped : List File
  trcs : List TRC

/-- The directory after the work of the daemon. -/
def Work.apply (w : Work) (d : Disk) : Disk :=
  (w.created.foldl Disk.create (w.dropped.foldl Disk.remove d)).withTRCs w.trcs

/-- What happens: the agent starts, or the daemon works. -/
inductive Action
  | start (a : Start)
  | work (w : Work)

/-- The directory, the files of the path database that were there when a conflict was detected,
and how the last call ended. -/
structure State where
  disk : Disk
  stale : List (File × ℕ)
  outcome : Option Outcome

/-- Before the first start. -/
def State.initial (d : Disk) : State :=
  ⟨d, [], none⟩

/-- A start detects a conflict between the files and the cached trust database. -/
def detects (files : List TRC) (a : Start) (d : Disk) : Bool :=
  !a.openFails && (a.load files d).2 = some .writeFailed && files.any (conflicts d.trusted)

/-- One step. The daemon works only after a call that returned nil. -/
def step (files : List TRC) (s : State) : Action → Option State
  | .start a =>
      let result := resetStaleTrustCache files a s.disk
      some ⟨result.1, if detects files a s.disk then s.disk.pathParts ++ s.stale else s.stale,
        some result.2⟩
  | .work w =>
      if s.outcome = some (.returned none) then some { s with disk := w.apply s.disk } else none

/-- A call that returned nil has left no file of the path database that was there at a
conflict. -/
def State.Safe (s : State) : Prop :=
  s.outcome = some (.returned none) → ∀ p ∈ s.stale, s.disk.inode p.1 ≠ some p.2

/-- A start that comes to removing files removes this one: all removals before it succeed, and
its own does not fail. -/
def Start.Reaches (a : Start) (f : File) : Prop :=
  a.killed = false ∧ (∀ g ∈ caches.takeWhile (· ≠ f), a.remove g = .removed) ∧
    a.remove f ≠ .failed

instance (a : Start) (f : File) : Decidable (a.Reaches f) :=
  inferInstanceAs (Decidable (_ ∧ _ ∧ _))

/-- A start that detects a conflict and removes the trust database also removes every file of the
path database. -/
def RemovesTogether (files : List TRC) (s : State) : Action → Prop
  | .start a => detects files a s.disk = true → a.Reaches trustDB →
      ∀ p ∈ s.disk.pathParts, a.Reaches p.1
  | .work _ => True

instance (files : List TRC) (s : State) : ∀ action, Decidable (RemovesTogether files s action)
  | .start _ => inferInstanceAs (Decidable (_ → _ → _))
  | .work _ => inferInstanceAs (Decidable True)

/-! ### Removals -/

/-- What is left after removing files: those that were not reached. -/
theorem inode_removeFiles (remove : File → Removal) (fs : List File) (d : Disk) (f : File) :
    (removeFiles remove fs d).1.inode f =
      if f ∈ fs ∧ (∀ g ∈ fs.takeWhile (· ≠ f), remove g = .removed) ∧ remove f ≠ .failed then none
      else d.inode f := by
  induction fs generalizing d with
  | nil => simp [removeFiles]
  | cons g fs ih =>
      rw [removeFiles]
      by_cases hg : g = f
      · subst hg
        cases hremove : remove g with
        | failed => simp
        | killed => simp [Disk.remove]
        | removed => simp [ih, Disk.remove]
      · have hne : f ≠ g := fun h => hg h.symm
        cases hremove : remove g with
        | failed => simp [hg, hremove]
        | killed => simp [hg, hremove, Disk.remove, hne]
        | removed => simp [hg, hne, hremove, ih, Disk.remove]

/-- Removing files leaves what the trust database holds, and gives no numbers. -/
theorem trcs_removeFiles (remove : File → Removal) (fs : List File) (d : Disk) :
    (removeFiles remove fs d).1.trcs = d.trcs ∧ (removeFiles remove fs d).1.next = d.next := by
  induction fs generalizing d with
  | nil => exact ⟨rfl, rfl⟩
  | cons g fs ih =>
      rw [removeFiles]
      cases remove g with
      | failed => exact ⟨rfl, rfl⟩
      | killed => exact ⟨rfl, rfl⟩
      | removed => exact ih _

/-- Every file of the two databases is to be removed. -/
theorem mem_caches (f : File) : f ∈ caches := by
  obtain ⟨base, suffix⟩ := f
  cases base <;> cases suffix <;> decide

/-- The files of the path database that exist. -/
theorem mem_pathParts {d : Disk} {p : File × ℕ} :
    p ∈ d.pathParts ↔ p.1.base = .path ∧ d.inode p.1 = some p.2 := by
  have hmem : ∀ f : File, f ∈ suffixes.map (File.mk .path) ↔ f.base = .path := by
    rintro ⟨base, suffix⟩
    cases base <;> cases suffix <;> decide
  obtain ⟨f, n⟩ := p
  simp only [Disk.pathParts, List.mem_filterMap, hmem, Option.map_eq_some_iff, Prod.mk.injEq]
  constructor
  · rintro ⟨g, hbase, m, hm, rfl, rfl⟩
    exact ⟨hbase, hm⟩
  · rintro ⟨hbase, hn⟩
    exact ⟨f, hbase, n, hn, rfl, rfl⟩

/-! ### Conflicts -/

/-- A conflict remains as the database grows. -/
theorem any_conflicts_mono {files db db' : List TRC} (hsub : ∀ t ∈ db, t ∈ db')
    (h : files.any (conflicts db) = true) : files.any (conflicts db') = true := by
  obtain ⟨t, ht, hconflict⟩ := List.any_eq_true.mp h
  obtain ⟨t', ht', hid⟩ := List.any_eq_true.mp hconflict
  exact List.any_eq_true.mpr ⟨t, ht, List.any_eq_true.mpr ⟨t', hsub t' ht', hid⟩⟩

/-- What an insertion that succeeds does. -/
theorem insertTRC_eq_some {db db' : List TRC} {t : TRC} (h : insertTRC db t = some db') :
    conflicts db t = false ∧ (∀ t' ∈ db, t' ∈ db') ∧ ∀ t' ∈ db', t' ∈ db ∨ t' = t := by
  rw [insertTRC] at h
  split_ifs at h with hconflict hmem
  · obtain rfl := Option.some.inj h
    exact ⟨Bool.eq_false_iff.mpr hconflict, fun _ h => h, fun _ h => .inl h⟩
  · obtain rfl := Option.some.inj h
    refine ⟨Bool.eq_false_iff.mpr hconflict, fun t' ht' => List.mem_append_left _ ht', ?_⟩
    intro t' ht'
    rcases List.mem_append.mp ht' with ht' | ht'
    · exact .inl ht'
    · exact .inr (List.mem_singleton.mp ht')

/-- Loading loses nothing. -/
theorem subset_loadTRCs (fault : TRC → Option LoadError) (files db : List TRC) :
    ∀ t ∈ db, t ∈ (loadTRCs fault files db).1 := by
  induction files generalizing db with
  | nil => exact fun t ht => ht
  | cons t files ih =>
      rw [loadTRCs]
      cases fault t with
      | some err => exact fun t' ht' => ht'
      | none =>
          cases hinsert : insertTRC db t with
          | none => exact fun t' ht' => ht'
          | some db' => exact fun t' ht' => ih db' t' ((insertTRC_eq_some hinsert).2.1 t' ht')

/-- Files that conflict are not loaded. -/
theorem loadTRCs_ne_none (fault : TRC → Option LoadError) {files db : List TRC}
    (h : files.any (conflicts db) = true) : (loadTRCs fault files db).2 ≠ none := by
  induction files generalizing db with
  | nil => cases h
  | cons t files ih =>
      rw [loadTRCs]
      cases fault t with
      | some err => exact Option.some_ne_none err
      | none =>
          cases hinsert : insertTRC db t with
          | none => exact Option.some_ne_none _
          | some db' =>
              obtain ⟨hnot, hsub, -⟩ := insertTRC_eq_some hinsert
              rw [List.any_cons, hnot, Bool.false_or] at h
              exact ih (any_conflicts_mono hsub h)

/-- Files that do not conflict with the database or each other are loaded, if none has a fault of
its own. -/
theorem loadTRCs_eq_none {files db : List TRC}
    (h : ∀ t ∈ files, ∀ t' ∈ db ++ files, t'.id = t.id → t' = t) :
    (loadTRCs (fun _ => none) files db).2 = none := by
  induction files generalizing db with
  | nil => rfl
  | cons t files ih =>
      have hnot : conflicts db t = false := by
        rw [conflicts, List.any_eq_false]
        intro t' ht' hconflict
        rw [Bool.and_eq_true, decide_eq_true_eq, decide_eq_true_eq] at hconflict
        exact hconflict.2 (h t List.mem_cons_self t' (List.mem_append_left _ ht') hconflict.1)
      rw [loadTRCs]
      cases hinsert : insertTRC db t with
      | none =>
          rw [insertTRC, hnot, if_neg Bool.false_ne_true] at hinsert
          split_ifs at hinsert
      | some db' =>
          refine ih fun u hu u' hu' => h u (List.mem_cons_of_mem t hu) u' ?_
          rcases List.mem_append.mp hu' with hu' | hu'
          · rcases (insertTRC_eq_some hinsert).2.2 u' hu' with hu' | rfl
            · exact List.mem_append_left _ hu'
            · exact List.mem_append_right _ List.mem_cons_self
          · exact List.mem_append_right _ (List.mem_cons_of_mem t hu')

/-! ### The preflight -/

section Preflight

variable {files : List TRC} {a : Start} {d : Disk}

/-- The preflight loses no TRC. -/
theorem subset_load : ∀ t ∈ d.trusted, t ∈ (a.load files d).1 := by
  rw [Start.load]
  split_ifs
  · exact fun t ht => ht
  · exact subset_loadTRCs _ _ _

/-- The preflight fails at a conflict. -/
theorem load_ne_none (h : files.any (conflicts d.trusted) = true) : (a.load files d).2 ≠ none := by
  rw [Start.load]
  split_ifs
  · exact Option.some_ne_none _
  · exact loadTRCs_ne_none _ h

/-- After the preflight the trust database exists, with what was loaded. -/
theorem trusted_preflight : (a.preflight files d).trusted = (a.load files d).1 := by
  have hexists : (a.preflight files d).inode trustDB ≠ none := by
    show (if trustDB = trustDB ∧ d.inode trustDB = none then some d.next
      else d.inode trustDB) ≠ none
    split_ifs with h
    · exact Option.some_ne_none _
    · exact fun hnone => h ⟨rfl, hnone⟩
  rw [Disk.trusted, if_neg hexists]
  rfl

/-- The preflight leaves the path database alone. -/
theorem inode_preflight {f : File} (hf : f.base = .path) :
    (a.preflight files d).inode f = d.inode f := by
  refine if_neg fun h => ?_
  rw [h.1] at hf
  cases hf

/-- A conflict is there after the preflight, too. -/
theorem any_conflicts_preflight (h : files.any (conflicts d.trusted) = true) :
    files.any (conflicts (a.preflight files d).trusted) = true := by
  rw [trusted_preflight]
  exact any_conflicts_mono subset_load h

/-- **What a call does**: it fails to open the trust database; it ends after the preflight,
without removing anything, and does not return nil unless the files were loaded; or it removes
files after a write that failed. -/
theorem resetStaleTrustCache_cases (files : List TRC) (a : Start) (d : Disk) :
    (resetStaleTrustCache files a d = (d, .returned (some .opening))) ∨
      ((resetStaleTrustCache files a d).1 = a.preflight files d ∧
        ((a.load files d).2 = none ∨ (resetStaleTrustCache files a d).2 ≠ .returned none)) ∨
      (a.openFails = false ∧ (a.load files d).2 = some .writeFailed ∧ a.killed = false ∧
        resetStaleTrustCache files a d =
          removeFiles a.remove caches (a.preflight files d)) := by
  rw [resetStaleTrustCache]
  by_cases hopen : a.openFails = true
  · exact .inl (if_pos hopen)
  rw [if_neg hopen]
  cases (a.load files d).2 with
  | none => exact .inr (.inl ⟨rfl, .inl rfl⟩)
  | some err =>
      cases err with
      | other => exact .inr (.inl ⟨rfl, .inr fun h => by cases h⟩)
      | writeFailed =>
          dsimp only
          by_cases hkilled : a.killed = true
          · rw [if_pos hkilled]
            exact .inr (.inl ⟨rfl, .inr fun h => by cases h⟩)
          · rw [if_neg hkilled]
            exact .inr (.inr ⟨Bool.eq_false_iff.mpr hopen, rfl,
              Bool.eq_false_iff.mpr hkilled, rfl⟩)

/-- A start removes the files that it reaches. -/
theorem inode_removeFiles_caches (hkilled : a.killed = false) (f : File) :
    (removeFiles a.remove caches d).1.inode f = if a.Reaches f then none else d.inode f := by
  rw [inode_removeFiles]
  refine if_congr ?_ rfl rfl
  rw [Start.Reaches, and_iff_right (mem_caches f), and_iff_right hkilled]

/-- A start that does not reach the trust database removes nothing. -/
theorem removeFiles_of_not_reaches (hkilled : a.killed = false) (h : ¬ a.Reaches trustDB) :
    removeFiles a.remove caches d = (d, .returned (some (.removing trustDB))) := by
  have hfailed : a.remove trustDB = .failed := by
    by_contra hne
    exact h ⟨hkilled, fun g hg => absurd hg List.not_mem_nil, hne⟩
  show removeFiles a.remove (trustDB :: caches.tail) d = _
  rw [removeFiles, hfailed]

end Preflight

/-! ### The invariant -/

/-- The stale files are of the path database and have numbers that were given; and while one is
there, the conflict is still to be seen and no call has returned nil. -/
structure Shown (files : List TRC) (s : State) : Prop where
  given : ∀ p ∈ s.stale, p.1.base = .path ∧ p.2 < s.disk.next
  conflict : ∀ p ∈ s.stale, s.disk.inode p.1 = some p.2 →
    files.any (conflicts s.disk.trusted) = true ∧ s.outcome ≠ some (.returned none)

/-- A call gives more numbers, and creates no file of the path database. -/
theorem resetStaleTrustCache_frame (files : List TRC) (a : Start) (d : Disk) :
    d.next ≤ (resetStaleTrustCache files a d).1.next ∧
      ∀ f n, f.base = .path → (resetStaleTrustCache files a d).1.inode f = some n →
        d.inode f = some n := by
  rcases resetStaleTrustCache_cases files a d with h | ⟨h, -⟩ | ⟨-, -, hkilled, h⟩
  · rw [h]
    exact ⟨le_rfl, fun f n _ hf => hf⟩
  · rw [h]
    exact ⟨Nat.le_succ _, fun f n hbase hf => inode_preflight hbase ▸ hf⟩
  · rw [h]
    have hnext := (trcs_removeFiles a.remove caches (a.preflight files d)).2
    refine ⟨(Nat.le_succ d.next).trans hnext.ge, fun f n hbase hf => ?_⟩
    rw [inode_removeFiles_caches hkilled] at hf
    split_ifs at hf
    exact inode_preflight hbase ▸ hf

/-- Removing files gives no numbers. -/
theorem inode_foldl_remove (d : Disk) (fs : List File) :
    (fs.foldl Disk.remove d).next = d.next ∧
      ∀ f n, (fs.foldl Disk.remove d).inode f = some n → d.inode f = some n := by
  induction fs generalizing d with
  | nil => exact ⟨rfl, fun f n h => h⟩
  | cons g fs ih =>
      obtain ⟨hnext, hkept⟩ := ih (d.remove g)
      refine ⟨hnext, fun f n h => ?_⟩
      have hf := hkept f n h
      simp only [Disk.remove] at hf
      split_ifs at hf
      exact hf

/-- Files that are created get new numbers. -/
theorem inode_foldl_create (d : Disk) (fs : List File) :
    d.next ≤ (fs.foldl Disk.create d).next ∧
      ∀ f n, (fs.foldl Disk.create d).inode f = some n → d.inode f = some n ∨ d.next ≤ n := by
  induction fs generalizing d with
  | nil => exact ⟨le_rfl, fun f n h => .inl h⟩
  | cons g fs ih =>
      obtain ⟨hnext, hnew⟩ := ih (d.create g)
      refine ⟨(Nat.le_succ _).trans hnext, fun f n h => ?_⟩
      rcases hnew f n h with hf | hge
      · simp only [Disk.create] at hf
        split_ifs at hf
        · exact .inr (Option.some.inj hf).le
        · exact .inl hf
      · exact .inr ((Nat.le_succ _).trans hge)

/-- Whatever the daemon does, a file that is there afterwards was there before, or has a new
number. -/
theorem inode_work (w : Work) (d : Disk) :
    d.next ≤ (w.apply d).next ∧
      ∀ f n, (w.apply d).inode f = some n → d.inode f = some n ∨ d.next ≤ n := by
  obtain ⟨hnext, hkept⟩ := inode_foldl_remove d w.dropped
  obtain ⟨hle, hnew⟩ := inode_foldl_create (w.dropped.foldl Disk.remove d) w.created
  rw [hnext] at hle hnew
  exact ⟨hle, fun f n h => (hnew f n h).imp_left (hkept f n)⟩

/-- While a stale file is there after a start that removes the databases together, the conflict is
still to be seen, and the call has not returned nil. -/
theorem conflict_of_start {files : List TRC} {s : State} {a : Start}
    (htogether : RemovesTogether files s (.start a))
    (hconflict : files.any (conflicts s.disk.trusted) = true) {p : File × ℕ}
    (hpart : p ∈ s.disk.pathParts)
    (hon : (resetStaleTrustCache files a s.disk).1.inode p.1 = some p.2) :
    files.any (conflicts (resetStaleTrustCache files a s.disk).1.trusted) = true ∧
      (resetStaleTrustCache files a s.disk).2 ≠ .returned none := by
  rcases resetStaleTrustCache_cases files a s.disk with h | ⟨h, hend⟩ | ⟨hopen, hload, hkilled, h⟩
  · rw [h]
    exact ⟨hconflict, fun hnil => by cases hnil⟩
  · rw [h]
    exact ⟨any_conflicts_preflight hconflict, hend.resolve_left (load_ne_none hconflict)⟩
  · rw [h] at hon ⊢
    by_cases hreach : a.Reaches trustDB
    · -- both databases are removed, so that the file cannot be there
      have hdetects : detects files a s.disk = true := by
        rw [detects, hopen, hload, hconflict]
        rfl
      rw [inode_removeFiles_caches hkilled, if_pos (htogether hdetects hreach p hpart)] at hon
      cases hon
    · rw [removeFiles_of_not_reaches hkilled hreach]
      exact ⟨any_conflicts_preflight hconflict, fun hnil => by cases hnil⟩

/-- What is stale after a start was stale before it, or was there when it detected a conflict. So
it has a number that was given, and if it is there before the start, then so is the conflict. -/
theorem Shown.start {files : List TRC} {s : State} (h : Shown files s) {a : Start} {p : File × ℕ}
    (hp : p ∈ if detects files a s.disk then s.disk.pathParts ++ s.stale else s.stale) :
    p.1.base = .path ∧ p.2 < s.disk.next ∧
      (s.disk.inode p.1 = some p.2 → files.any (conflicts s.disk.trusted) = true) := by
  have hstale : p ∈ s.stale ∨ detects files a s.disk = true ∧ p ∈ s.disk.pathParts := by
    split_ifs at hp with hdetects
    · rcases List.mem_append.mp hp with hp | hp
      · exact .inr ⟨hdetects, hp⟩
      · exact .inl hp
    · exact .inl hp
  rcases hstale with hp | ⟨hdetects, hp⟩
  · obtain ⟨hbase, hlt⟩ := h.given p hp
    exact ⟨hbase, hlt, fun hon => (h.conflict p hp hon).1⟩
  · obtain ⟨hbase, hinode⟩ := mem_pathParts.mp hp
    exact ⟨hbase, s.disk.inode_lt _ _ hinode, fun _ => (Bool.and_eq_true_iff.mp hdetects).2⟩

/-- **A start that removes the databases together keeps the invariant**, and so does the work of
the daemon. -/
theorem shown_step {files : List TRC} (s : State) (action : Action) (s' : State)
    (h : Shown files s) (htogether : RemovesTogether files s action)
    (hstep : step files s action = some s') : Shown files s' := by
  cases action with
  | start a =>
      obtain rfl := Option.some.inj hstep
      obtain ⟨hnext, hframe⟩ := resetStaleTrustCache_frame files a s.disk
      refine ⟨fun p hp => ?_, fun p hp hon => ?_⟩
      · obtain ⟨hbase, hlt, -⟩ := h.start hp
        exact ⟨hbase, hlt.trans_le hnext⟩
      · obtain ⟨hbase, -, hconflict⟩ := h.start hp
        have hbefore : s.disk.inode p.1 = some p.2 := hframe p.1 p.2 hbase hon
        obtain ⟨hafter, hne⟩ := conflict_of_start htogether (hconflict hbefore)
          (mem_pathParts.mpr ⟨hbase, hbefore⟩) hon
        exact ⟨hafter, fun hnil => hne (Option.some.inj hnil)⟩
  | work w =>
      rw [step] at hstep
      split_ifs at hstep with hnil
      obtain rfl := Option.some.inj hstep
      obtain ⟨hnext, hwork⟩ := inode_work w s.disk
      refine ⟨fun p hp => ⟨(h.given p hp).1, (h.given p hp).2.trans_le hnext⟩, fun p hp hon => ?_⟩
      -- the file would be there already, but a call has returned nil
      rcases hwork p.1 p.2 hon with hon | hge
      · exact absurd hnil (h.conflict p hp hon).2
      · exact absurd (h.given p hp).2 (not_lt.mpr hge)

/-- **Stale caches are reset together.** From any directory and over any starts, with any removals
that fail and any kills, and any work of the daemon between them: if no start that detected a
conflict removed the trust database and left a file of the path database, then no call returns
nil while a file of the path database is there that was there when a conflict was detected. -/
theorem safe_of_run (files : List TRC) (d : Disk) (actions : List Action) (s : State)
    (hrun : Transition.run (step files) (.initial d) actions = some s)
    (htogether : Transition.Always (step files) (RemovesTogether files) (.initial d) actions) :
    s.Safe := by
  have hinitial : Shown files (.initial d) :=
    ⟨fun p hp => absurd hp List.not_mem_nil, fun p hp => absurd hp List.not_mem_nil⟩
  have hshown := Transition.run_invariant shown_step hinitial htogether hrun
  exact fun hnil p hp hon => (hshown.conflict p hp hon).2 hnil

/-- A start in which nothing goes wrong. -/
def Start.smooth : Start :=
  ⟨false, false, fun _ => none, false, false, fun _ => .removed⟩

/-- A start in which nothing goes wrong loads files that agree with each other into an empty trust
database, and detects nothing. -/
theorem resetStaleTrustCache_smooth {files : List TRC} {d : Disk}
    (hfiles : ∀ t ∈ files, ∀ t' ∈ files, t'.id = t.id → t' = t) (hempty : d.trusted = []) :
    detects files .smooth d = false ∧
      resetStaleTrustCache files .smooth d = (Start.smooth.preflight files d, .returned none) := by
  have hload : (Start.smooth.load files d).2 = none := by
    show (loadTRCs (fun _ => none) files d.trusted).2 = none
    rw [hempty]
    exact loadTRCs_eq_none hfiles
  constructor
  · rw [detects, hload]
    rfl
  · have hopen : ¬ Start.smooth.openFails = true := Bool.false_ne_true
    rw [resetStaleTrustCache, if_neg hopen, hload]
    rfl

/-- **A start that removes the trust database alone leads to a call that is not safe**: the next
start in which nothing goes wrong returns nil over what is left of the path database. -/
theorem not_safe_of_interrupted {files : List TRC}
    (hfiles : ∀ t ∈ files, ∀ t' ∈ files, t'.id = t.id → t' = t) {s : State} {a : Start}
    (hdetects : detects files a s.disk = true) (hreach : a.Reaches trustDB) {p : File × ℕ}
    (hpart : p ∈ s.disk.pathParts) (hleft : ¬ a.Reaches p.1) :
    ∃ s', Transition.run (step files) s [.start a, .start .smooth] = some s' ∧ ¬ s'.Safe := by
  obtain ⟨hbase, hinode⟩ := mem_pathParts.mp hpart
  -- the first start removes the trust database and leaves the file
  have hfirst : resetStaleTrustCache files a s.disk =
      removeFiles a.remove caches (a.preflight files s.disk) := by
    have hopen := hdetects
    simp only [detects, Bool.and_eq_true, Bool.not_eq_true', decide_eq_true_eq] at hopen
    rw [resetStaleTrustCache, hopen.1.1, hopen.1.2, if_neg Bool.false_ne_true]
    dsimp only
    rw [hreach.1, if_neg Bool.false_ne_true]
  have hempty : (resetStaleTrustCache files a s.disk).1.trusted = [] := by
    rw [hfirst, Disk.trusted, inode_removeFiles_caches hreach.1, if_pos hreach, if_pos rfl]
  have hkept : (resetStaleTrustCache files a s.disk).1.inode p.1 = some p.2 := by
    rw [hfirst, inode_removeFiles_caches hreach.1, if_neg hleft, inode_preflight hbase, hinode]
  obtain ⟨hnot, hsecond⟩ := resetStaleTrustCache_smooth hfiles hempty
  refine ⟨_, rfl, fun hsafe => hsafe ?_ p ?_ ?_⟩
  · exact congrArg (fun result => some result.2) hsecond
  · dsimp only
    rw [if_neg (Bool.eq_false_iff.mp hnot), if_pos hdetects]
    exact List.mem_append_left _ hpart
  · dsimp only
    rw [hsecond, inode_preflight hbase, hkept]

/-- A TRC of the AS. -/
def trc (raw : List UInt8) : TRC :=
  ⟨⟨1, 1, 1⟩, raw⟩

/-- A directory with both databases; the trust database holds a TRC of a former bootstrap. -/
def formerDisk : Disk where
  inode f := if f = trustDB then some 0 else if f = ⟨.path, .db⟩ then some 1 else none
  trcs := [trc [0]]
  next := 2
  inode_lt f n h := by
    split_ifs at h
    · obtain rfl := Option.some.inj h
      exact Nat.zero_lt_two
    · obtain rfl := Option.some.inj h
      exact Nat.one_lt_two

/-- A start in which removing one file does not succeed. -/
def Start.interrupted (f : File) (removal : Removal) : Start :=
  { Start.smooth with remove := fun g => if g = f then removal else .removed }

/-- A start that cannot remove the trust database, and the next one in which nothing goes
wrong. -/
def resetRun : List Action :=
  [.start (.interrupted trustDB .failed), .start .smooth]

/-- The caches are reset by the second start. -/
theorem safe_of_run_reset : ∃ s,
    Transition.run (step [trc [1]]) (.initial formerDisk) resetRun = some s ∧
      s.outcome = some (.returned none) ∧ (⟨.path, .db⟩, 1) ∈ s.stale ∧ s.Safe :=
  ⟨_, rfl, by decide, by decide,
    safe_of_run [trc [1]] formerDisk resetRun _ rfl (by decide +kernel)⟩

/-- **A path database outlives the conflict**: the agent is killed after removing the trust
database, and the next start returns nil with the path database that was there at the
conflict. -/
theorem stale_paths_kept : ∃ s,
    Transition.run (step [trc [1]]) (.initial formerDisk)
      [.start (.interrupted trustDB .killed), .start .smooth] = some s ∧
      detects [trc [1]] (.interrupted trustDB .killed) formerDisk = true ∧ ¬ s.Safe :=
  ⟨_, rfl, by decide, fun h => h (by decide) (⟨.path, .db⟩, 1) (by decide) (by decide)⟩

end ScionOperator.TrustCache
