import ScionOperator.RefreshLoop
import ScionOperator.TopologyNotice

/-!
# From the Discovery Server to the Gateway

The agent as a whole, between the discovery server, the Kubernetes API and the embedded gateway
(`cmd/agent`): the background refetching replaces the cached topology and sends notices; the
render loop takes notices and ticks, reads the topology, writes the policy files and sends reload
tokens; the gateway takes tokens and reads the files. The three run concurrently. The reads of the
topology and the writes of the policy files can fail, as can everything in a `Fetch`; how the
gateway reads the policy files is not under the agent's control, and it is taken to get what is in
them.

The processes are those of `Notice` and `Reload`, joined at the render loop: one of its rounds
begins with a notice or with a tick that found other pod CIDRs, and ends by sending a token or
with an error. After an error the round is not repeated; `stale` says that the last round ended
so.

## Main results

* `invariant_step`: what every step of the agent keeps.
* `gateway_upToDate`: **when the agent is at rest, and its last round did not fail, the gateway
  has loaded the policies for the cached topology and the node info the agent knows**, provided
  that the refetching could read the topology before or after each `Fetch`.
-/

namespace ScionOperator.Pipeline

open Text Agent

/-! ### The processes -/

/-- The three processes of an agent that has come up, with what they share. -/
structure State where
  /-- the cache, the notices, where the refetching and the render loop are, and what the loop has
  read of the topology -/
  notice : Notice.State
  /-- the policy files, the reload channel, and where the gateway is -/
  reload : Reload.State
  /-- the node info the render loop remembers -/
  info : NodeInfo
  /-- the input of the round, once it was read -/
  pending : Option Input
  /-- the last round ended with an error, and was not repeated -/
  stale : Bool

/-- The state when the processes are started: the policies were rendered once. -/
def State.initial (c : Bootstrap.Cache) (info : NodeInfo) (input : Input)
    (traffic routing : Str) : State :=
  ⟨.initial c, .initial input traffic routing, info, none, false⟩

/-- What one of the processes does. The steps of the refetching and of the gateway are those of
`Notice` and `Reload`; the render loop takes part in both. -/
inductive Event
  /-- a step of the background refetching -/
  | fetcher (e : Notice.Event)
  /-- the render loop takes a notice -/
  | receive
  /-- the render loop gets a tick, and this is what looking up the node gives -/
  | tick (current : Option NodeInfo)
  /-- it reads the topology and makes the input of the policies -/
  | read (fails : Bool)
  /-- it renders both policies from this input -/
  | render
  /-- it takes a step on a policy file -/
  | write
  /-- such a step fails, which ends the round -/
  | writeFails (left : Option Str)
  /-- it sends a token, unless there is one already, and the round is over -/
  | send
  /-- the gateway sends its first token, takes a token or reads a file -/
  | gateway (e : Reload.Event)

/-- The steps of the background refetching. -/
def ofFetcher : Notice.Event → Bool
  | .fetch _ _ _ _ | .replace | .compare _ | .send => true
  | .receive | .tick | .read _ | .rendered => false

/-- The steps of the gateway: those that are not the agent's to take. -/
def ofGateway : Reload.Event → Bool
  | .sendInitial | .receive | .load _ => true
  | .render _ | .write | .writeFails _ | .send => false

/-- A round of the render loop ends: the loop waits again, and whether the round failed is
remembered. -/
def State.endRound (s : State) (failed : Bool) : Option State :=
  (Notice.step s.notice .rendered).map fun n =>
    { s with notice := n, pending := none, stale := failed }

/-- One step of one of the processes, if it can be taken. -/
def step (cfg : Config) (s : State) : Event → Option State
  | .fetcher e =>
      if ofFetcher e then (Notice.step s.notice e).map fun n => { s with notice := n } else none
  | .receive => (Notice.step s.notice .receive).map fun n => { s with notice := n }
  | .tick current =>
      if s.notice.renderer = .waiting then
        match current with
        | none => some s
        | some info =>
            if info.podCIDRs = s.info.podCIDRs then some s
            else (Notice.step s.notice .tick).map fun n => { s with notice := n, info := info }
      else none
  | .read fails =>
      (Notice.step s.notice (.read fails)).bind fun n =>
        let s' := { s with notice := n }
        match policyInput n.lastRead s.info cfg with
        | .ok input => some { s' with pending := some input }
        | .error _ => s'.endRound true
  | .render =>
      match s.pending, s.reload.writer with
      | some input, .idle =>
          match renderBoth input with
          | .ok _ => (Reload.step s.reload (.render input)).map fun r => { s with reload := r }
          | .error _ => s.endRound true
      | _, _ => none
  | .write => (Reload.step s.reload .write).map fun r => { s with reload := r }
  | .writeFails left =>
      (Reload.step s.reload (.writeFails left)).bind fun r =>
        { s with reload := r }.endRound true
  | .send => (Reload.step s.reload .send).bind fun r => { s with reload := r }.endRound false
  | .gateway e =>
      if ofGateway e then (Reload.step s.reload e).map fun r => { s with reload := r } else none

/-- The reads of the refetching tell contents apart. -/
def runReads (s : State) : Event → Bool
  | .fetcher e => Notice.runReads s.notice e
  | _ => true

/-- What the gateway read last of a file. -/
def lastLoaded (r : Reload.State) (f : PolicyFile) : Option (Option Str) :=
  (r.loaded.find? fun e => e.1 = f).map Prod.snd

/-! ### The invariant -/

/-- The files hold the policies for a topology and node info. -/
def Holds (cfg : Config) (topology : Str) (info : NodeInfo) (fs : Files) : Prop :=
  ∃ input traffic routing, policyInput (some topology) info cfg = .ok input ∧
    renderBoth input = .ok (traffic, routing) ∧ fs = ⟨some traffic, some routing⟩

/-- While no file is written, the gateway has loaded each of them, or will. -/
def Delivered (r : Reload.State) : Prop :=
  r.writer = .idle → ∀ f, r.slot = true ∨ r.initialToken = true ∨ f ∈ r.loading ∨
    lastLoaded r f = some (r.files.get f)

/-- What holds in every state. -/
structure Invariant (cfg : Config) (s : State) : Prop where
  notice : Notice.Invariant s.notice
  /-- outside of a round, or before it has read anything, no file is written -/
  idle : s.notice.renderer ≠ .rendering → s.reload.writer = .idle ∧ s.pending = none
  /-- in a round the files will hold the policies for what was read -/
  rendering : s.notice.renderer = .rendering → ∃ topology input,
    s.notice.lastRead = some topology ∧ s.pending = some input ∧
      policyInput (some topology) s.info cfg = .ok input ∧
      ∀ steps, s.reload.writer = .writing steps →
        Holds cfg topology s.info (runFileSteps s.reload.files steps)
  /-- after a round that did not fail they hold them -/
  waiting : s.notice.renderer = .waiting → s.stale = false →
    ∃ topology, s.notice.lastRead = some topology ∧
      Holds cfg topology s.info s.reload.files
  delivered : s.stale = false → Delivered s.reload

section Steps

variable {cfg : Config} {s s' : State}

/-- The steps of the refetching leave the render loop alone, and what it has read. -/
theorem fetcher_frame {n n' : Notice.State} {e : Notice.Event} (he : ofFetcher e = true)
    (h : Notice.step n e = some n') : n'.renderer = n.renderer ∧ n'.lastRead = n.lastRead := by
  obtain ⟨cache, slot, fetcher, renderer, changes, seen, lastRead⟩ := n
  cases e with
  | receive | tick | read | rendered => cases he
  | fetch attempts pins urls fault =>
      cases fetcher with
      | fetching | sending => cases h
      | idle =>
          obtain rfl := Option.some.inj h
          exact ⟨rfl, rfl⟩
  | replace =>
      rcases fetcher with _ | ⟨start, before, ok, _ | ⟨c, rest⟩⟩ | _
      · cases h
      · cases h
      · obtain rfl := Option.some.inj h
        exact ⟨rfl, rfl⟩
      · cases h
  | compare fault =>
      rcases fetcher with _ | ⟨start, before, ok, _ | ⟨c, rest⟩⟩ | _
      · cases h
      · simp only [Notice.step] at h
        split_ifs at h
        · obtain rfl := Option.some.inj h
          exact ⟨rfl, rfl⟩
        · obtain rfl := Option.some.inj h
          exact ⟨rfl, rfl⟩
      · cases h
      · cases h
  | send =>
      cases fetcher with
      | idle | fetching => cases h
      | sending =>
          obtain rfl := Option.some.inj h
          exact ⟨rfl, rfl⟩

/-- A step of the refetching keeps the invariant, if its reads tell contents apart. -/
theorem Invariant.fetcher (h : Invariant cfg s) {n : Notice.State} {e : Notice.Event}
    (he : ofFetcher e = true) (hreads : Notice.runReads s.notice e = true)
    (hn : Notice.step s.notice e = some n) : Invariant cfg { s with notice := n } := by
  obtain ⟨hrenderer, hread⟩ := fetcher_frame he hn
  refine ⟨Notice.invariant_step _ _ _ h.notice hreads hn, ?_, ?_, ?_, h.delivered⟩
  · rw [hrenderer]
    exact h.idle
  · rw [hrenderer, hread]
    exact h.rendering
  · rw [hrenderer, hread]
    exact h.waiting

/-- A round begins: the loop is about to read the topology. -/
theorem Invariant.begin (h : Invariant cfg s) (hwaiting : s.notice.renderer = .waiting)
    {n : Notice.State} (hn : Notice.Invariant n) (hreading : n.renderer = .reading)
    (info : NodeInfo) : Invariant cfg { s with notice := n, info := info } := by
  have hidle := h.idle (by rw [hwaiting]; decide)
  refine ⟨hn, fun _ => hidle, ?_, ?_, h.delivered⟩
  · intro hrendering
    cases hreading.symm.trans hrendering
  · intro hrest
    cases hreading.symm.trans hrest

/-- A round ends: no file is written any more, and unless it failed, the files hold the policies
and a token is out. -/
theorem invariant_endRound {failed : Bool} (h : s.endRound failed = some s')
    (hnotice : Notice.Invariant s.notice) (hidle : s.reload.writer = .idle)
    (hok : failed = false → (∃ topology, s.notice.lastRead = some topology ∧
      Holds cfg topology s.info s.reload.files) ∧ Delivered s.reload) : Invariant cfg s' := by
  obtain ⟨n, hn, rfl⟩ := Option.map_eq_some_iff.mp h
  have hnotice' := Notice.invariant_step _ _ _ hnotice rfl hn
  rw [Notice.step] at hn
  split_ifs at hn
  obtain rfl := Option.some.inj hn
  exact ⟨hnotice', fun _ => ⟨hidle, rfl⟩, fun hne => (by cases hne),
    fun _ hstale => (hok hstale).1, fun hstale => (hok hstale).2⟩

/-- The topology is read, and the input of the policies is made from it; without one the round
ends here. -/
theorem Invariant.readStep (h : Invariant cfg s) {fails : Bool}
    (hstep : step cfg s (.read fails) = some s') : Invariant cfg s' := by
  rw [step, Option.bind_eq_some_iff] at hstep
  obtain ⟨n, hn, hstep⟩ := hstep
  have hnotice := Notice.invariant_step _ _ _ h.notice rfl hn
  simp only [Notice.step, Option.ite_none_right_eq_some, Option.some.injEq] at hn
  obtain ⟨hreading, hn⟩ := hn
  have hrendering : n.renderer = .rendering := by rw [← hn]
  have hidle : s.reload.writer = .idle := (h.idle (by rw [hreading]; decide)).1
  dsimp only at hstep
  cases hinput : policyInput n.lastRead s.info cfg with
  | error e =>
      rw [hinput] at hstep
      exact invariant_endRound hstep hnotice hidle fun hfailed => by cases hfailed
  | ok input =>
      rw [hinput] at hstep
      obtain rfl := Option.some.inj hstep
      refine ⟨hnotice, fun hne => absurd hrendering hne, fun _ => ?_, fun hwaiting => ?_,
        h.delivered⟩
      · cases hread : n.lastRead with
        | none =>
            rw [hread] at hinput
            cases hinput
        | some topology =>
            rw [hread] at hinput
            refine ⟨topology, input, rfl, rfl, hinput, fun steps hsteps => ?_⟩
            rw [hidle] at hsteps
            cases hsteps
      · cases hrendering.symm.trans hwaiting

/-- The policies are rendered, and the files begin to be written. -/
theorem Invariant.renderStep (h : Invariant cfg s) (hstep : step cfg s .render = some s') :
    Invariant cfg s' := by
  rw [step] at hstep
  split at hstep
  · rename_i input hpending hidle
    cases hboth : renderBoth input with
    | error e =>
        rw [hboth] at hstep
        exact invariant_endRound hstep h.notice hidle fun hfailed => by cases hfailed
    | ok texts =>
        obtain ⟨traffic, routing⟩ := texts
        simp only [hboth, Reload.step, hidle, Option.map_some, Option.some.injEq] at hstep
        obtain rfl := hstep
        have hrendering : s.notice.renderer = .rendering := by
          by_contra hne
          have hnone := (h.idle hne).2
          rw [hpending] at hnone
          cases hnone
        refine ⟨h.notice, fun hne => absurd hrendering hne, fun _ => ?_, ?_,
          fun _ hwriter => by cases hwriter⟩
        · obtain ⟨topology, input', hread, hpending', hinput, -⟩ := h.rendering hrendering
          obtain rfl := Option.some.inj (hpending.symm.trans hpending')
          refine ⟨topology, input, hread, hpending, hinput, ?_⟩
          rintro steps ⟨⟩
          exact ⟨input, traffic, routing, hinput, hboth, runFileSteps_fileSteps _ _ _⟩
        · intro hwaiting
          rw [hrendering] at hwaiting
          cases hwaiting
  · cases hstep

/-- While files are written, the round is not over. -/
theorem Invariant.rendering_of_writing (h : Invariant cfg s) {steps : List FileStep}
    (hwriter : s.reload.writer = .writing steps) : s.notice.renderer = .rendering := by
  by_contra hne
  have hidle := (h.idle hne).1
  rw [hwriter] at hidle
  cases hidle

/-- One of the steps by which the files are written is taken. -/
theorem Invariant.writeStep (h : Invariant cfg s) (hstep : step cfg s .write = some s') :
    Invariant cfg s' := by
  rw [step, Option.map_eq_some_iff] at hstep
  obtain ⟨r, hr, rfl⟩ := hstep
  rw [Reload.step] at hr
  split at hr
  · rename_i fileStep steps hwriter
    obtain rfl := Option.some.inj hr
    have hrendering := h.rendering_of_writing hwriter
    obtain ⟨topology, input, hread, hpending, hinput, hholds⟩ := h.rendering hrendering
    refine ⟨h.notice, fun hne => absurd hrendering hne,
      fun _ => ⟨topology, input, hread, hpending, hinput, ?_⟩, fun hwaiting => ?_,
      fun _ hidle => by cases hidle⟩
    · rintro steps' ⟨⟩
      exact hholds (fileStep :: steps) hwriter
    · rw [hrendering] at hwaiting
      cases hwaiting
  · cases hr

/-- One of these steps fails, which ends the round. -/
theorem Invariant.writeFailsStep (h : Invariant cfg s) {left : Option Str}
    (hstep : step cfg s (.writeFails left) = some s') : Invariant cfg s' := by
  rw [step, Option.bind_eq_some_iff] at hstep
  obtain ⟨r, hr, hend⟩ := hstep
  rw [Reload.step] at hr
  split at hr
  · obtain rfl := Option.some.inj hr
    exact invariant_endRound hend h.notice rfl fun hfailed => by cases hfailed
  · cases hr

/-- The token is sent, which ends a round that did not fail. -/
theorem Invariant.sendStep (h : Invariant cfg s) (hstep : step cfg s .send = some s') :
    Invariant cfg s' := by
  rw [step, Option.bind_eq_some_iff] at hstep
  obtain ⟨r, hr, hend⟩ := hstep
  rw [Reload.step] at hr
  split at hr
  · rename_i hwriter
    obtain rfl := Option.some.inj hr
    obtain ⟨topology, -, hread, -, -, hholds⟩ :=
      h.rendering (h.rendering_of_writing hwriter)
    exact invariant_endRound hend h.notice rfl fun _ =>
      ⟨⟨topology, hread, hholds [] hwriter⟩, fun _ _ => .inl rfl⟩
  · cases hr

/-- A step of the gateway leaves the files alone, and what will be loaded is loaded. -/
theorem gateway_frame {r r' : Reload.State} {e : Reload.Event} (he : ofGateway e = true)
    (h : Reload.step r e = some r') :
    r'.files = r.files ∧ r'.writer = r.writer ∧ (Delivered r → Delivered r') := by
  cases e with
  | render | write | writeFails | send => cases he
  | sendInitial =>
      rw [Reload.step] at h
      split_ifs at h
      obtain rfl := Option.some.inj h
      exact ⟨rfl, rfl, fun _ _ _ => .inl rfl⟩
  | receive =>
      rw [Reload.step] at h
      split_ifs at h
      obtain rfl := Option.some.inj h
      refine ⟨rfl, rfl, fun _ _ f => .inr (.inr (.inl ?_))⟩
      cases f <;> simp
  | load f =>
      rw [Reload.step] at h
      split_ifs at h with hmem
      obtain rfl := Option.some.inj h
      refine ⟨rfl, rfl, fun hdelivered hidle g => ?_⟩
      by_cases hg : g = f
      · subst hg
        refine .inr (.inr (.inr ?_))
        simp [lastLoaded]
      · rcases hdelivered hidle g with hslot | htoken | hloading | hloaded
        · exact .inl hslot
        · exact .inr (.inl htoken)
        · exact .inr (.inr (.inl ((List.mem_erase_of_ne hg).mpr hloading)))
        · refine .inr (.inr (.inr ?_))
          rw [← hloaded]
          simp [lastLoaded, Ne.symm hg]

/-- Every step keeps the invariant, if the reads of the refetching tell contents apart. -/
theorem invariant_step (cfg : Config) (s : State) (e : Event) (s' : State) (h : Invariant cfg s)
    (hreads : runReads s e = true) (hstep : step cfg s e = some s') : Invariant cfg s' := by
  cases e with
  | fetcher e =>
      rw [step] at hstep
      split_ifs at hstep with he
      obtain ⟨n, hn, rfl⟩ := Option.map_eq_some_iff.mp hstep
      exact h.fetcher he hreads hn
  | receive =>
      obtain ⟨n, hn, rfl⟩ := Option.map_eq_some_iff.mp hstep
      have hnotice := Notice.invariant_step _ _ _ h.notice rfl hn
      rw [Notice.step] at hn
      split_ifs at hn with hwaiting
      obtain rfl := Option.some.inj hn
      exact h.begin hwaiting.2 hnotice rfl s.info
  | tick current =>
      cases current with
      | none =>
          simp only [step] at hstep
          split_ifs at hstep
          obtain rfl := Option.some.inj hstep
          exact h
      | some info =>
          simp only [step] at hstep
          split_ifs at hstep with hwaiting hsame
          · obtain rfl := Option.some.inj hstep
            exact h
          · obtain ⟨n, hn, rfl⟩ := Option.map_eq_some_iff.mp hstep
            have hnotice := Notice.invariant_step _ _ _ h.notice rfl hn
            rw [Notice.step, if_pos hwaiting] at hn
            obtain rfl := Option.some.inj hn
            exact h.begin hwaiting hnotice rfl info
  | read fails => exact h.readStep hstep
  | render => exact h.renderStep hstep
  | write => exact h.writeStep hstep
  | writeFails left => exact h.writeFailsStep hstep
  | send => exact h.sendStep hstep
  | gateway e =>
      rw [step] at hstep
      split_ifs at hstep with he
      obtain ⟨r, hr, rfl⟩ := Option.map_eq_some_iff.mp hstep
      obtain ⟨hfiles, hwriter, hdelivered⟩ := gateway_frame he hr
      refine ⟨h.notice, ?_, ?_, ?_,
        fun hstale => hdelivered (h.delivered hstale)⟩
      · rw [hwriter]
        exact h.idle
      · rw [hwriter, hfiles]
        exact h.rendering
      · rw [hfiles]
        exact h.waiting

end Steps

/-! ### The agent at rest -/

/-- The agent is at rest: the render loop waits, no notice is owed or in its slot, and no token
is on its way to the gateway or being handled. -/
structure AtRest (s : State) : Prop where
  waiting : s.notice.renderer = .waiting
  slot : s.notice.slot = false
  owes : ¬ s.notice.owesNotice
  outstanding : s.reload.outstanding = false

/-- A topology from which the input of the policies can be made has contents. -/
theorem ne_nil_of_policyInput {cfg : Config} {topology : Str} {info : NodeInfo} {input : Input}
    (h : policyInput (some topology) info cfg = .ok input) : topology ≠ [] := by
  rintro rfl
  cases h

/-- The invariant holds at the start, if the policies were rendered for what is cached. -/
theorem invariant_initial {cfg : Config} {c : Bootstrap.Cache} {topology : Str} {info : NodeInfo}
    {input : Input} {traffic routing : Str} (hcached : c.topology = some topology)
    (hinput : policyInput (some topology) info cfg = .ok input)
    (hrendered : renderBoth input = .ok (traffic, routing)) :
    Invariant cfg (.initial c info input traffic routing) := by
  have hpresent : Notice.content c ≠ [] := by
    rw [Notice.content_of_topology hcached]
    exact ne_nil_of_policyInput hinput
  exact ⟨Notice.invariant_initial hpresent, fun _ => ⟨rfl, rfl⟩, fun hne => (by cases hne),
    fun _ _ => ⟨topology, hcached, input, traffic, routing, hinput, hrendered, rfl⟩,
    fun _ _ _ => .inr (.inl rfl)⟩

/-- At rest the gateway has loaded what is in the files. -/
theorem Invariant.loaded_files {cfg : Config} {s : State} (h : Invariant cfg s) (hrest : AtRest s)
    (hstale : s.stale = false) (f : PolicyFile) :
    lastLoaded s.reload f = some (s.reload.files.get f) := by
  have hout := hrest.outstanding
  simp only [Reload.State.outstanding, Bool.or_eq_false_iff, decide_eq_false_iff_not, ne_eq,
    not_not] at hout
  obtain ⟨⟨hslot, htoken⟩, hloading⟩ := hout
  have hidle := (h.idle (by rw [hrest.waiting]; decide)).1
  rcases h.delivered hstale hidle f with h' | h' | h' | h'
  · rw [hslot] at h'
    cases h'
  · rw [htoken] at h'
    cases h'
  · rw [hloading] at h'
    cases h'
  · exact h'

/-- At rest the gateway has loaded the policies for what is cached. -/
theorem Invariant.loaded {cfg : Config} {s : State} (h : Invariant cfg s) (hrest : AtRest s)
    (hstale : s.stale = false) :
    ∃ input traffic routing,
      policyInput (some (Notice.content s.notice.cache)) s.info cfg = .ok input ∧
      renderBoth input = .ok (traffic, routing) ∧
      lastLoaded s.reload .traffic = some (some traffic) ∧
      lastLoaded s.reload .routing = some (some routing) := by
  obtain ⟨topology, hread, input, traffic, routing, hinput, hboth, hfiles⟩ :=
    h.waiting hrest.waiting hstale
  refine ⟨input, traffic, routing, ?_, hboth, ?_, ?_⟩
  · have hseen := h.notice.seen_eq_changes hrest.slot hrest.owes hrest.waiting
    rw [h.notice.current.2 topology hread hseen]
    exact hinput
  · rw [h.loaded_files hrest hstale, hfiles]
    rfl
  · rw [h.loaded_files hrest hstale, hfiles]
    rfl

/-- **The gateway is up to date.** After the policies were rendered once, in every interleaving
of the refetching, the render loop and the gateway in which the reads of the refetching tell
contents apart, whatever else fails: when the agent is at rest and its last round did not fail, the
gateway has last loaded both policies for the topology that is cached and the node info that is
remembered. -/
theorem gateway_upToDate {cfg : Config} {c : Bootstrap.Cache} {topology : Str} {info : NodeInfo}
    {input : Input} {traffic routing : Str} (hcached : c.topology = some topology)
    (hinput : policyInput (some topology) info cfg = .ok input)
    (hrendered : renderBoth input = .ok (traffic, routing)) {events : List Event} {s : State}
    (hrun : Transition.run (step cfg) (.initial c info input traffic routing) events = some s)
    (hreads : Transition.Always (step cfg) (fun s e => runReads s e = true)
      (.initial c info input traffic routing) events)
    (hrest : AtRest s) (hstale : s.stale = false) :
    ∃ input' traffic' routing',
      policyInput (some (Notice.content s.notice.cache)) s.info cfg = .ok input' ∧
      renderBoth input' = .ok (traffic', routing') ∧
      lastLoaded s.reload .traffic = some (some traffic') ∧
      lastLoaded s.reload .routing = some (some routing') := by
  have hinitial := invariant_initial hcached hinput hrendered
  exact (Transition.run_invariant (invariant_step cfg) hinitial hreads hrun).loaded hrest hstale

/-- A cache with the topology of another AS. -/
def sampleCache : Bootstrap.Cache :=
  ⟨some "\x7b\"isd_as\":\"9-ff00:0:9\"\x7d".toList, ∅⟩

/-- The input of the policies for it. -/
def sampleInput : Input :=
  { Refresh.sampleInput "10.244.1.0/26" "10.0.0.1" with localIA := "9-ff00:0:9".toList }

/-- The policies for it. -/
def sampleTexts : Str × Str :=
  match renderBoth sampleInput with
  | .ok texts => texts
  | .error _ => ([], [])

/-- The agent was started with this topology. -/
def sampleStart : State :=
  .initial sampleCache (Refresh.sampleInfo "10.244.1.0/26" "10.0.0.1") sampleInput sampleTexts.1
    sampleTexts.2

/-- A round of the render loop after a notice, up to the token, and the gateway that loads both
files. -/
def sampleRound : List Event :=
  [.receive, .read false, .render, .write, .write, .write, .write, .send, .gateway .receive,
    .gateway (.load .routing), .gateway (.load .traffic)]

/-- A refresh finds the topology of the AS while the gateway handles its own token, although the
file cannot be opened after it, and a round follows. -/
def sampleEvents : List Event :=
  [.gateway .sendInitial, .fetcher (.fetch
      (fun _ => Bootstrap.answered "[]" "" fun _ => none) ∅ (some Bootstrap.twoBases) none),
    .gateway .receive, .gateway (.load .traffic), .fetcher .replace, .fetcher (.compare (some 0)),
    .gateway (.load .routing), .fetcher .send] ++ sampleRound

/-- In the end the gateway has the policies for the new topology. -/
theorem upToDate_of_sampleEvents :
    ∃ s, Transition.run (step Refresh.sampleConfig) sampleStart sampleEvents = some s ∧
      s.notice.changes = 1 ∧ ∃ input' traffic' routing',
        policyInput (some (Notice.content s.notice.cache)) s.info Refresh.sampleConfig =
          .ok input' ∧
        renderBoth input' = .ok (traffic', routing') ∧
        lastLoaded s.reload .traffic = some (some traffic') ∧
        lastLoaded s.reload .routing = some (some routing') := by
  have hend : (Transition.run (step Refresh.sampleConfig) sampleStart sampleEvents).map
      (fun s => (s.notice.renderer, s.notice.slot, decide s.notice.owesNotice,
        s.reload.outstanding, s.stale, s.notice.changes)) =
        some (.waiting, false, false, false, false, 1) := by decide +kernel
  obtain ⟨s, hrun, hs⟩ := Option.map_eq_some_iff.mp hend
  simp only [Prod.mk.injEq, decide_eq_false_iff_not] at hs
  obtain ⟨hwaiting, hslot, howes, hout, hstale, hchanges⟩ := hs
  have hinput : policyInput (some "\x7b\"isd_as\":\"9-ff00:0:9\"\x7d".toList)
      (Refresh.sampleInfo "10.244.1.0/26" "10.0.0.1") Refresh.sampleConfig = .ok sampleInput := by
    decide +kernel
  have hrendered : renderBoth sampleInput = .ok sampleTexts := by decide +kernel
  exact ⟨s, hrun, hchanges,
    gateway_upToDate rfl hinput hrendered hrun (by decide +kernel) ⟨hwaiting, hslot, howes, hout⟩
      hstale⟩

end ScionOperator.Pipeline
