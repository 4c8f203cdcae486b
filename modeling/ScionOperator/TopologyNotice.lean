import ScionOperator.Bootstrap

/-!
# Notices of Topology Changes

The agent refetches its configuration in the background (`Run`): it reads `topology.json`,
calls `Fetch`, reads the file again, and if the contents differ sends a notice on a channel
with one slot, which is dropped if the slot is taken. The render loop takes a notice from the
slot and then reads the file. The two run concurrently, and the loop also reads the file when
the pod CIDRs of the node have changed.

A notice that is dropped is not lost: the one in the slot will be taken, and the file is read
after that. What has to be excluded is that the file changes without a notice. Here it counts
that a base replaces the topology last, so that a `Fetch` that fails has not replaced it; and that
`Run` compares what it has read. It ignores the errors of its two reads, so that a change between
two reads that both fail goes unnoticed (`missed_after_failed_reads`).

## Main results

* `topologyLast_fetch`: a call to `Fetch` replaces the topology at its very end, if at all.
* `seen_eq_changes_of_quiet`: **no change of the topology is missed**, in any interleaving in
  which `Run` can read the file before or after each `Fetch`.
* `missed_after_failed_reads`: a change is missed if it cannot.
-/

namespace ScionOperator.Notice

open Text Json GoMap AtomicFile Bootstrap

/-! ### The processes -/

/-- The contents of `topology.json`; a missing file has none. -/
def content (c : Cache) : Str :=
  c.topology.getD []

/-- What `Run` gets when it reads the file (`os.ReadFile` with the error ignored). Without a fault
this is all of the contents. With one it is what was read up to then, which is nothing if the file
could not be opened. -/
def readTopology (contents : Str) : Option ℕ → Str
  | none => contents
  | some n => contents.take n

/-- Where the background refetching is. -/
inductive Fetcher
  /-- it waits for the next refresh -/
  | idle
  /-- the contents were `start`, it read `before` of them, and is in `Fetch`, which will pass
  through these caches -/
  | fetching (start before : Str) (ok : Bool) (rest : List Cache)
  /-- it found other contents and is about to send the notice -/
  | sending

/-- Where the render loop is. -/
inductive Renderer
  /-- it waits for a notice or a tick -/
  | waiting
  /-- it is about to read the topology -/
  | reading
  /-- it has read the topology, or failed to, and renders the policies -/
  | rendering
  deriving DecidableEq

/-- The cache, the slot and the two processes. How often the contents of the topology have
changed, how often they had when the loop last read them, and what it got then if it did not fail,
is kept as well. -/
structure State where
  cache : Cache
  slot : Bool
  fetcher : Fetcher
  renderer : Renderer
  changes : ℕ
  seen : ℕ
  lastRead : Option Str

/-- The state when the processes are started: the first `Fetch` is done, and its topology was
read. -/
def State.initial (c : Cache) : State :=
  ⟨c, false, .idle, .waiting, 0, 0, c.topology⟩

/-- What can happen. -/
inductive Event
  /-- a refresh begins: the contents before are read, with a fault or not, and `Fetch` is called -/
  | fetch (attempts : ℕ → Attempt) (pins : GoMap Str) (urls : Option (List Str))
      (fault : Option ℕ)
  /-- `Fetch` goes on to the next cache, by replacing a file or failing to -/
  | replace
  /-- `Fetch` returns; without an error the contents are read again, with a fault or not, and what
  was read is compared -/
  | compare (fault : Option ℕ)
  /-- the notice is sent, or dropped if the slot is taken -/
  | send
  /-- the loop takes a notice from the slot -/
  | receive
  /-- the loop gets a tick, and the pod CIDRs have changed -/
  | tick
  /-- the loop reads the topology, or fails to -/
  | read (fails : Bool)
  /-- the loop has rendered the policies, or failed to -/
  | rendered

/-- One step of one of the processes, if it can be taken. -/
def step (s : State) : Event → Option State
  | .fetch attempts pins urls fault =>
      match s.fetcher with
      | .idle =>
          let r := Bootstrap.fetch attempts pins urls s.cache
          let start := content s.cache
          some { s with fetcher := .fetching start (readTopology start fault) r.1 r.2 }
      | _ => none
  | .replace =>
      match s.fetcher with
      | .fetching start before ok (c :: rest) =>
          some { s with
            cache := c
            fetcher := .fetching start before ok rest
            changes := if content c = content s.cache then s.changes else s.changes + 1 }
      | _ => none
  | .compare fault =>
      match s.fetcher with
      | .fetching _ before ok [] =>
          if ok ∧ before ≠ readTopology (content s.cache) fault then
            some { s with fetcher := .sending }
          else some { s with fetcher := .idle }
      | _ => none
  | .send =>
      match s.fetcher with
      | .sending => some { s with slot := true, fetcher := .idle }
      | _ => none
  | .receive =>
      if s.slot ∧ s.renderer = .waiting then some { s with slot := false, renderer := .reading }
      else none
  | .tick => if s.renderer = .waiting then some { s with renderer := .reading } else none
  | .read fails =>
      if s.renderer = .reading then
        some { s with
          renderer := .rendering
          seen := s.changes
          lastRead := if fails then none else s.cache.topology }
      else none
  | .rendered => if s.renderer = .rendering then some { s with renderer := .waiting } else none

/-- `Run` has replaced the topology by another one and has not sent the notice yet. -/
def State.owesNotice (s : State) : Prop :=
  match s.fetcher with
  | .idle => False
  | .fetching start _ _ _ => content s.cache ≠ start
  | .sending => True

instance (s : State) : Decidable s.owesNotice :=
  match s with
  | ⟨_, _, .idle, _, _, _, _⟩ => inferInstanceAs (Decidable False)
  | ⟨c, _, .fetching start _ _ _, _, _, _, _⟩ => inferInstanceAs (Decidable (content c ≠ start))
  | ⟨_, _, .sending, _, _, _, _⟩ => inferInstanceAs (Decidable True)

/-- The two reads of `Run` around a `Fetch` that succeeds tell its contents apart: both give all of
the contents, or one of them does and the other one cannot open the file. -/
def runReads (s : State) : Event → Bool
  | .compare fault =>
      match s.fetcher with
      | .fetching start before true _ =>
          (before = start && (fault = none || fault = some 0)) || (before = [] && fault = none)
      | _ => true
  | _ => true

/-! ### The topology is replaced last -/

/-- The topology of the caches passed through is that of `c`, except for the last one if all
went well. -/
structure TopologyLast (c : Cache) (ok : Bool) (passed : List Cache) : Prop where
  before_last : ∀ c' ∈ passed.dropLast, c'.topology = c.topology
  of_failure : ok = false → ∀ c' ∈ passed, c'.topology = c.topology

/-- Caches passed through after one with the same topology. -/
theorem TopologyLast.append {c d : Cache} {ok : Bool} {before passed : List Cache}
    (hbefore : ∀ c' ∈ before, c'.topology = c.topology) (hd : d.topology = c.topology)
    (h : TopologyLast d ok passed) : TopologyLast c ok (before ++ passed) where
  before_last := by
    intro c' hc'
    cases passed with
    | nil =>
        rw [List.append_nil] at hc'
        exact hbefore c' (List.mem_of_mem_dropLast hc')
    | cons e passed =>
        rw [List.dropLast_append_of_ne_nil (List.cons_ne_nil e passed)] at hc'
        rcases List.mem_append.mp hc' with hc' | hc'
        · exact hbefore c' hc'
        · exact (h.before_last c' hc').trans hd
  of_failure := by
    intro hok c' hc'
    rcases List.mem_append.mp hc' with hc' | hc'
    · exact hbefore c' hc'
    · exact (h.of_failure hok c' hc').trans hd

/-- Replacing files one after another, the topology at the end. -/
theorem topologyLast_writeAll (faults : ℕ → Option Step) (k : ℕ) {ws : List Write} {c : Cache}
    (hws : ∀ w ∈ ws.dropLast, w.path ≠ .topology) :
    TopologyLast c (writeAll faults k ws c).1 (writeAll faults k ws c).2 := by
  induction ws generalizing k c with
  | nil => exact ⟨by simp [writeAll], by simp [writeAll]⟩
  | cons w ws ih =>
      rw [writeAll, atomicWrite_eq]
      by_cases hf : fails (faults k) = true
      · rw [if_pos hf]
        exact ⟨by simp, by simp⟩
      · rw [if_neg hf]
        cases ws with
        | nil => exact ⟨by simp [writeAll], by simp [writeAll]⟩
        | cons w' ws =>
            rw [List.dropLast_cons_cons] at hws
            have hput : (c.put w).topology = c.topology := by
              obtain ⟨path, data⟩ := w
              cases path with
              | topology => exact absurd rfl (hws _ List.mem_cons_self)
              | cert name => rfl
            have hone : ∀ c' ∈ [c.put w], c'.topology = c.topology := by simp [hput]
            exact TopologyLast.append hone hput
              (ih (k + 1) fun v hv => hws v (List.mem_cons_of_mem w hv))

/-- Trying the bases replaces the topology at the very end. -/
theorem topologyLast_tryAll (attempts : ℕ → Attempt) (pins : GoMap Str) (k : ℕ)
    (urls : List Str) (c : Cache) :
    TopologyLast c (tryAll attempts pins k urls c).1 (tryAll attempts pins k urls c).2 := by
  induction urls generalizing k c with
  | nil => exact ⟨by simp [tryAll], by simp [tryAll]⟩
  | cons base bases ih =>
      have hvisit : TopologyLast c (fetchFrom (attempts k) pins (trimSlashes base) c).1
          (fetchFrom (attempts k) pins (trimSlashes base) c).2 := by
        rw [fetchFrom]
        cases prepared (attempts k) pins (trimSlashes base) with
        | none => exact ⟨by simp, by simp⟩
        | some cfg =>
            refine topologyLast_writeAll _ _ fun w hw => ?_
            rw [writes, List.dropLast_concat] at hw
            obtain ⟨e, -, rfl⟩ := List.mem_map.mp hw
            simp
      rw [tryAll]
      rcases hfetch : fetchFrom (attempts k) pins (trimSlashes base) c with ⟨_ | _, passed⟩
      · rw [hfetch] at hvisit
        have hpassed := hvisit.of_failure rfl
        have hlast := getLastD_of_forall (fun d : Cache => d.topology = c.topology) rfl hpassed
        exact TopologyLast.append hpassed hlast (ih (k + 1) _)
      · rw [hfetch] at hvisit
        exact hvisit

/-- A call to `Fetch` replaces the topology at its very end, if it succeeds. -/
theorem topologyLast_fetch (attempts : ℕ → Attempt) (pins : GoMap Str) (urls : Option (List Str))
    (c : Cache) :
    TopologyLast c (Bootstrap.fetch attempts pins urls c).1
      (Bootstrap.fetch attempts pins urls c).2 := by
  rw [fetch_eq_tryAll]
  exact topologyLast_tryAll attempts pins 0 (urls.getD []) c

/-- A topology that is there stays there: what a call to `Fetch` stores was accepted. -/
theorem content_ne_nil_of_mem_fetch {attempts : ℕ → Attempt} {pins : GoMap Str}
    {urls : Option (List Str)} {c : Cache} (hc : content c ≠ []) :
    ∀ d ∈ (Bootstrap.fetch attempts pins urls c).2, content d ≠ [] := by
  have hlast := topologyLast_fetch attempts pins urls c
  have hsame : ∀ d : Cache, d.topology = c.topology → content d ≠ [] := fun d hd => by
    rwa [content, hd, ← content]
  intro d hd
  rcases fetch_cases attempts pins urls c with ⟨-, i, cfg, hfirst, htopology⟩ | ⟨hno, -, -⟩
  · obtain ⟨before, last, hpassed⟩ := List.eq_nil_or_concat'
      (Bootstrap.fetch attempts pins urls c).2 |>.resolve_left (List.ne_nil_of_mem hd)
    rw [hpassed] at hd hlast htopology
    rcases List.mem_append.mp hd with hd | hd
    · exact hsame d (hlast.before_last d (by rwa [List.dropLast_concat]))
    · obtain rfl := List.mem_singleton.mp hd
      rw [List.getLastD_concat] at htopology
      rw [content, htopology, Option.getD_some]
      exact ne_nil_of_accepts (accepts_of_firstSuccess hfirst)
  · exact hsame d (hlast.of_failure hno d hd)

/-! ### No change is missed -/

/-- The contents of the topology while a `Fetch` goes on, from the present cache on: they are
as at its start, except for the last cache if all goes well, and they are never empty. -/
structure Quiet (start : Str) (ok : Bool) (caches : List Cache) : Prop where
  before_last : ∀ c ∈ caches.dropLast, content c = start
  of_failure : ok = false → ∀ c ∈ caches, content c = start
  present : start ≠ [] ∧ ∀ c ∈ caches, content c ≠ []

/-- When a `Fetch` begins, its caches are quiet. -/
theorem quiet_fetch (attempts : ℕ → Attempt) (pins : GoMap Str) (urls : Option (List Str))
    {c : Cache} (hc : content c ≠ []) :
    Quiet (content c) (Bootstrap.fetch attempts pins urls c).1
      (c :: (Bootstrap.fetch attempts pins urls c).2) := by
  have hlast : TopologyLast c (Bootstrap.fetch attempts pins urls c).1
      ([c] ++ (Bootstrap.fetch attempts pins urls c).2) :=
    TopologyLast.append (by simp) rfl (topologyLast_fetch attempts pins urls c)
  have hcontent : ∀ d : Cache, d.topology = c.topology → content d = content c := by
    intro d hd
    rw [content, hd, content]
  exact ⟨fun d hd => hcontent d (hlast.before_last d hd),
    fun hok d hd => hcontent d (hlast.of_failure hok d hd),
    hc, List.forall_mem_cons.mpr ⟨hc, content_ne_nil_of_mem_fetch hc⟩⟩

/-- The rest of a `Fetch` is quiet. -/
theorem Quiet.tail {start : Str} {ok : Bool} {c d : Cache} {rest : List Cache}
    (h : Quiet start ok (c :: d :: rest)) : Quiet start ok (d :: rest) :=
  ⟨fun e he => h.before_last e (List.mem_cons_of_mem c he),
    fun hok e he => h.of_failure hok e (List.mem_cons_of_mem c he),
    h.present.1, fun e he => h.present.2 e (List.mem_cons_of_mem c he)⟩

/-- What the loop got last is what is cached, unless that has changed since. -/
def State.Current (s : State) : Prop :=
  s.seen ≤ s.changes ∧
    ∀ topology, s.lastRead = some topology → s.seen = s.changes → content s.cache = topology

/-- What holds in every state: there is a topology; a `Fetch` that goes on is quiet; after a
change that the loop has not read, a notice is owed or in the slot, or the loop is about to read;
and without one, what it got last is what is cached. -/
structure Invariant (s : State) : Prop where
  present : content s.cache ≠ []
  quiet : ∀ start before ok rest, s.fetcher = .fetching start before ok rest →
    Quiet start ok (s.cache :: rest)
  noticed : s.seen = s.changes ∨ s.slot = true ∨ s.renderer = .reading ∨ s.owesNotice
  current : s.Current

/-- The contents of a cache with a topology. -/
theorem content_of_topology {c : Cache} {topology : Str} (h : c.topology = some topology) :
    content c = topology := by
  rw [content, h, Option.getD_some]

/-- The invariant holds at the start. -/
theorem invariant_initial {c : Cache} (hc : content c ≠ []) : Invariant (.initial c) :=
  ⟨hc, fun _ _ _ _ h => (by cases h), Or.inl rfl, le_rfl, fun _ h _ => content_of_topology h⟩

/-- Going on with a `Fetch` keeps the invariant: before its last cache nothing changes, and after
a change a notice is owed. -/
theorem Invariant.replace {s : State} (h : Invariant s) {start before : Str} {ok : Bool}
    {c : Cache} {rest : List Cache} (hfetcher : s.fetcher = .fetching start before ok (c :: rest)) :
    Invariant { s with
      cache := c
      fetcher := .fetching start before ok rest
      changes := if content c = content s.cache then s.changes else s.changes + 1 } := by
  obtain ⟨cache, slot, fetcher, renderer, changes, seen, lastRead⟩ := s
  obtain rfl : fetcher = .fetching start before ok (c :: rest) := hfetcher
  have hnow := h.quiet start before ok (c :: rest) rfl
  have hcache : content cache = start := hnow.before_last cache (by simp)
  obtain ⟨hle, hread⟩ := h.current
  have hquiet : ∀ start' before' ok' rest', Fetcher.fetching start before ok rest =
      .fetching start' before' ok' rest' → Quiet start' ok' (c :: rest') := by
    rintro start' before' ok' rest' ⟨⟩
    exact hnow.tail
  by_cases hsame : content c = content cache
  · refine ⟨hnow.tail.present.2 c List.mem_cons_self, hquiet, ?_, ?_⟩
    · simpa [State.owesNotice, hsame, hcache] using h.noticed
    · simpa [State.Current, hsame] using h.current
  · refine ⟨hnow.tail.present.2 c List.mem_cons_self, hquiet, ?_, ?_⟩
    · rw [hcache] at hsame
      exact .inr (.inr (.inr hsame))
    · -- the change makes the last read an old one
      rw [State.Current, if_neg hsame]
      have hne := Nat.ne_of_lt (Nat.lt_succ_of_le hle)
      exact ⟨Nat.le_succ_of_le hle, fun _ _ heq => absurd heq hne⟩

/-- Two reads that tell contents apart give different texts if the contents have changed. -/
theorem readTopology_ne_of_runReads {s : State} {start before : Str} {rest : List Cache}
    {fault : Option ℕ} (hfetcher : s.fetcher = .fetching start before true rest)
    (hreads : runReads s (.compare fault) = true) (hstart : start ≠ [])
    (hpresent : content s.cache ≠ []) (hchanged : content s.cache ≠ start) :
    before ≠ readTopology (content s.cache) fault := by
  simp only [runReads, hfetcher, Bool.or_eq_true, Bool.and_eq_true, decide_eq_true_eq] at hreads
  rcases hreads with ⟨rfl, rfl | rfl⟩ | ⟨rfl, rfl⟩
  · exact hchanged.symm
  · exact hstart
  · exact hpresent.symm

/-- A `Fetch` that sends no notice does not owe one: the contents are those at its start. -/
theorem Invariant.compare {s : State} (h : Invariant s) {start before : Str} {ok : Bool}
    {fault : Option ℕ} (hfetcher : s.fetcher = .fetching start before ok [])
    (hreads : runReads s (.compare fault) = true)
    (hsend : ¬ (ok = true ∧ before ≠ readTopology (content s.cache) fault)) :
    Invariant { s with fetcher := .idle } := by
  have hnow := h.quiet start before ok [] hfetcher
  have hsame : content s.cache = start := by
    by_contra hne
    cases ok with
    | false => exact hne (hnow.of_failure rfl s.cache List.mem_cons_self)
    | true => exact hsend ⟨rfl, readTopology_ne_of_runReads hfetcher hreads hnow.present.1
        h.present hne⟩
  obtain ⟨cache, slot, fetcher, renderer, changes, seen, lastRead⟩ := s
  obtain rfl : fetcher = .fetching start before ok [] := hfetcher
  refine ⟨h.present, fun _ _ _ _ hf => (by cases hf), ?_, h.current⟩
  simpa [State.owesNotice, hsame] using h.noticed

/-- A `Fetch` begins, with whatever the first read gives. -/
theorem Invariant.fetch {s : State} (h : Invariant s) (hidle : s.fetcher = .idle)
    (attempts : ℕ → Attempt) (pins : GoMap Str) (urls : Option (List Str)) (before : Str) :
    Invariant { s with
      fetcher := .fetching (content s.cache) before (Bootstrap.fetch attempts pins urls s.cache).1
        (Bootstrap.fetch attempts pins urls s.cache).2 } := by
  obtain ⟨cache, slot, fetcher, renderer, changes, seen, lastRead⟩ := s
  obtain rfl : fetcher = .idle := hidle
  refine ⟨h.present, ?_, ?_, h.current⟩
  · rintro start before ok rest ⟨⟩
    exact quiet_fetch attempts pins urls h.present
  · simpa [State.owesNotice] using h.noticed

/-- The loop is about to read, so that it needs no notice. -/
theorem Invariant.reading {s : State} (h : Invariant s) (slot : Bool) :
    Invariant { s with slot := slot, renderer := .reading } :=
  ⟨h.present, h.quiet, .inr (.inr (.inl rfl)), h.current⟩

/-- Every step keeps the invariant, if the reads of `Run` tell contents apart. -/
theorem invariant_step (s : State) (e : Event) (s' : State) (h : Invariant s)
    (hreads : runReads s e = true) (hstep : step s e = some s') : Invariant s' := by
  obtain ⟨cache, slot, fetcher, renderer, changes, seen, lastRead⟩ := s
  cases e with
  | fetch attempts pins urls fault =>
      cases fetcher with
      | idle =>
          obtain rfl := Option.some.inj hstep
          exact h.fetch rfl attempts pins urls _
      | fetching => cases hstep
      | sending => cases hstep
  | replace =>
      cases fetcher with
      | idle => cases hstep
      | sending => cases hstep
      | fetching start before ok rest =>
          cases rest with
          | nil => cases hstep
          | cons c rest =>
              obtain rfl := Option.some.inj hstep
              exact h.replace rfl
  | compare fault =>
      cases fetcher with
      | idle => cases hstep
      | sending => cases hstep
      | fetching start before ok rest =>
          cases rest with
          | cons c rest => cases hstep
          | nil =>
              simp only [step] at hstep
              split_ifs at hstep with hsend
              · obtain rfl := Option.some.inj hstep
                exact ⟨h.present, fun _ _ _ _ hf => (by cases hf),
                  .inr (.inr (.inr trivial)), h.current⟩
              · obtain rfl := Option.some.inj hstep
                exact h.compare rfl hreads hsend
  | send =>
      cases fetcher with
      | idle => cases hstep
      | fetching => cases hstep
      | sending =>
          obtain rfl := Option.some.inj hstep
          exact ⟨h.present, fun _ _ _ _ hf => (by cases hf), .inr (.inl rfl), h.current⟩
  | receive | tick =>
      simp only [step] at hstep
      split_ifs at hstep
      obtain rfl := Option.some.inj hstep
      exact h.reading _
  | read fails =>
      simp only [step, Option.ite_none_right_eq_some, Option.some.injEq] at hstep
      obtain ⟨-, rfl⟩ := hstep
      refine ⟨h.present, h.quiet, .inl rfl, le_rfl, fun topology hread _ => ?_⟩
      cases fails with
      | true => cases hread
      | false => exact content_of_topology hread
  | rendered =>
      simp only [step] at hstep
      split_ifs at hstep with hrendering
      obtain rfl := Option.some.inj hstep
      refine ⟨h.present, h.quiet, ?_, h.current⟩
      obtain rfl : renderer = .rendering := hrendering
      simpa [State.owesNotice] using h.noticed

/-- When the slot is empty, no notice is owed and the loop waits, the loop has read the last
change. -/
theorem Invariant.seen_eq_changes {s : State} (h : Invariant s) (hslot : s.slot = false)
    (howes : ¬ s.owesNotice) (hwaiting : s.renderer = .waiting) : s.seen = s.changes := by
  rcases h.noticed with hseen | htaken | hreading | hnotice
  · exact hseen
  · rw [hslot] at htaken
    cases htaken
  · rw [hwaiting] at hreading
    cases hreading
  · exact absurd hnotice howes

/-- **No lost change.** After a topology was fetched, in every interleaving in which the reads of
`Run` tell contents apart: when the slot is empty, no notice is owed and the loop waits, the loop's
last read of the topology came after the last change of its contents, and what it got, unless it
failed, is what is cached. -/
theorem seen_eq_changes_of_quiet {c : Cache} {events : List Event} {s : State}
    (hfetched : content c ≠ []) (hrun : Transition.run step (.initial c) events = some s)
    (hreads : Transition.Always step (fun s e => runReads s e = true) (.initial c) events)
    (hslot : s.slot = false) (howes : ¬ s.owesNotice) (hwaiting : s.renderer = .waiting) :
    s.seen = s.changes ∧ ∀ topology, s.lastRead = some topology → content s.cache = topology := by
  have hinv := Transition.run_invariant invariant_step (invariant_initial hfetched) hreads hrun
  have hseen := hinv.seen_eq_changes hslot howes hwaiting
  exact ⟨hseen, fun topology hread => hinv.current.2 topology hread hseen⟩

/-- A refresh that finds another topology while the loop renders after a tick; `Run` cannot open
the file before it. The notice is taken once the loop waits again. -/
def sampleEvents : List Event :=
  [.tick, .fetch (fun _ => answered "[]" "" fun _ => none) ∅ (some twoBases) (some 0),
    .read false, .replace, .compare none, .send, .rendered, .receive, .read false, .rendered]

/-- In the end the loop has read the new topology. -/
theorem seen_of_sampleEvents :
    ∃ s, Transition.run step (.initial ⟨some "old".toList, ∅⟩) sampleEvents = some s ∧
      s.changes = 1 ∧ s.seen = s.changes ∧
        ∀ topology, s.lastRead = some topology → content s.cache = topology := by
  have hend : (Transition.run step (.initial ⟨some "old".toList, ∅⟩) sampleEvents).map
      (fun s => (s.slot, s.renderer, s.changes, decide s.owesNotice)) =
        some (false, .waiting, 1, false) := by decide +kernel
  obtain ⟨s, hrun, hs⟩ := Option.map_eq_some_iff.mp hend
  simp only [Prod.mk.injEq, decide_eq_false_iff_not] at hs
  obtain ⟨hslot, hwaiting, hchanges, howes⟩ := hs
  exact ⟨s, hrun, hchanges, seen_eq_changes_of_quiet (by decide) hrun (by decide +kernel) hslot
    howes hwaiting⟩

/-- A refresh that finds another topology, and cannot open the file before it nor after it. -/
def failingEvents : List Event :=
  [.fetch (fun _ => answered "[]" "" fun _ => none) ∅ (some twoBases) (some 0), .replace,
    .compare (some 0)]

/-- **A change that is missed.** What was read of both topologies is the same, so that no notice is
sent, and the loop waits without having read the new one. -/
theorem missed_after_failed_reads :
    ∃ s, Transition.run step (.initial ⟨some "old".toList, ∅⟩) failingEvents = some s ∧
      s.slot = false ∧ ¬ s.owesNotice ∧ s.renderer = .waiting ∧ s.seen ≠ s.changes := by
  have hend : (Transition.run step (.initial ⟨some "old".toList, ∅⟩) failingEvents).map
      (fun s => (s.slot, decide s.owesNotice, s.renderer, s.seen, s.changes)) =
        some (false, false, .waiting, 0, 1) := by decide +kernel
  obtain ⟨s, hrun, hs⟩ := Option.map_eq_some_iff.mp hend
  simp only [Prod.mk.injEq, decide_eq_false_iff_not] at hs
  obtain ⟨hslot, howes, hwaiting, hseen, hchanges⟩ := hs
  refine ⟨s, hrun, hslot, howes, hwaiting, ?_⟩
  rw [hseen, hchanges]
  decide

end ScionOperator.Notice
