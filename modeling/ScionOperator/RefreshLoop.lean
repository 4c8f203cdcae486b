import ScionOperator.PolicyFiles

/-!
# The Refresh Loop of the Agent

On clusters whose CNI allocates pod CIDRs on demand, the agent looks up its node every thirty
seconds. If the pod CIDRs are those it remembers, the tick is skipped; otherwise it remembers
the new node info and renders the policies again. It also renders them again when the topology
has changed.

The new node info is remembered before the rendering, which may fail: the next ticks then are
skipped although the routing policy is out of date (`stale_after_failed_write`). And a change
of the node's address alone is not noticed, although it may be advertised
(`stale_after_address_change`). As long as neither happens, a tick is only skipped when the
routing policy is up to date.

## Main results

* `exists_renderBoth`: after one rendering, every rendering from a readable topology succeeds.
* `upToDate_of_keepsUp`: **a tick is skipped only if the routing policy is up to date.**
-/

namespace ScionOperator.Refresh

open Text Json Agent

/-! ### The loop -/

/-- What happens when the policies are rendered again: what reading the topology gives, and
how writing the files ends. -/
structure Rerender where
  topology : Option Str
  traffic : WriteResult
  routing : WriteResult

/-- The remembered node info and the policy files. The topology that was last read, and the
node info of a tick that was just skipped, are kept as well. -/
structure State where
  info : NodeInfo
  files : Files
  lastTopology : Option Str
  skipped : Option NodeInfo

/-- The state when the loop is started: the policies were rendered once. -/
def State.initial (info : NodeInfo) (topology : Str) (files : Files) : State :=
  ⟨info, files, some topology, none⟩

/-- What can happen. -/
inductive Event
  /-- a notice of a topology change is taken -/
  | notice (r : Rerender)
  /-- a tick, and what looking up the node gives -/
  | tick (current : Option NodeInfo) (r : Rerender)

/-- Render the policies again, with the remembered node info. -/
def rerender (cfg : Config) (s : State) (r : Rerender) : State where
  info := s.info
  files := match policyInput r.topology s.info cfg with
    | .error _ => s.files
    | .ok input => (renderPolicies input r.traffic r.routing s.files).2
  lastTopology := r.topology.or s.lastTopology
  skipped := none

/-- One turn of the loop. -/
def step (cfg : Config) (s : State) : Event → Option State
  | .notice r => some (rerender cfg s r)
  | .tick none _ => some { s with skipped := none }
  | .tick (some current) r =>
      if current.podCIDRs = s.info.podCIDRs then some { s with skipped := some current }
      else some (rerender cfg { s with info := current } r)

/-- The routing policy file holds what is rendered from this node info and the topology last
read. -/
def UpToDate (cfg : Config) (s : State) (info : NodeInfo) : Prop :=
  ∃ topology input text, s.lastTopology = some topology ∧
    policyInput (some topology) info cfg = .ok input ∧
    renderRoutingPolicy input = .ok text ∧ s.files.routing = some text

instance (cfg : Config) (s : State) (info : NodeInfo) : Decidable (UpToDate cfg s info) :=
  decidable_of_iff
    ((s.lastTopology.any fun topology =>
      match policyInput (some topology) info cfg with
      | .error _ => false
      | .ok input =>
          match renderRoutingPolicy input with
          | .error _ => false
          | .ok text => s.files.routing = some text) = true) <| by
    rw [Option.any_eq_true]
    constructor
    · rintro ⟨topology, htopology, h⟩
      split at h
      · cases h
      next input hinput =>
        split at h
        · cases h
        next text htext =>
          exact ⟨topology, input, text, htopology, hinput, htext, of_decide_eq_true h⟩
    · rintro ⟨topology, input, text, htopology, hinput, htext, hfile⟩
      refine ⟨topology, htopology, ?_⟩
      simp only [hinput, htext, hfile, decide_true]

/-- A rerendering with a readable topology that writes both files. -/
def Rerender.succeeds (r : Rerender) : Bool :=
  r.topology.any acceptsTopology && r.traffic = .done && r.routing = .done

/-- The turns after which the routing policy is up to date. A rerendering succeeds, except
that on a notice the topology may be unreadable; and if the pod CIDRs are those remembered,
so is everything that is advertised. -/
def keepsUp (cfg : Config) (s : State) : Event → Bool
  | .notice r => r.topology.isNone || r.succeeds
  | .tick none _ => true
  | .tick (some current) r =>
      if current.podCIDRs = s.info.podCIDRs then
        advertisedNets current cfg = advertisedNets s.info cfg
      else r.succeeds

/-! ### Rendering succeeds -/

/-- The input of the policy engine, from a topology that can be read. -/
theorem policyInput_eq_ok_iff {topology : Str} {info : NodeInfo} {cfg : Config} {input : Input} :
    policyInput (some topology) info cfg = .ok input ↔
      ∃ ia, localIA (some topology) = .ok ia ∧
        input = ⟨ia, advertisedNets info cfg, split cfg.acceptISDASes,
          split cfg.forbiddenCIDRs⟩ := by
  simp only [policyInput, Result.bind_eq_ok, Result.pure_eq_ok]
  exact exists_congr fun ia => and_congr_right fun _ => eq_comm

/-- A topology that the bootstrap stage accepts has a local IA, which is not empty. -/
theorem exists_localIA {topology : Str} (h : acceptsTopology topology = true) :
    ∃ ia, localIA (some topology) = .ok ia ∧ ia ≠ [] := by
  rw [acceptsTopology] at h
  rw [localIA]
  cases hia : decodeISDAS topology with
  | none =>
      rw [hia] at h
      cases h
  | some ia =>
      rw [hia, decide_eq_true_eq] at h
      exact ⟨ia, by simp [h], h⟩

/-- Whether policies can be rendered does not depend on the topology or the node. -/
theorem exists_renderBoth {input : Input} {routing : Str} {ia : Str}
    (h : renderRoutingPolicy input = .ok routing) (hia : ia ≠ []) (nets : List Str) :
    ∃ texts, renderBoth ⟨ia, nets, input.acceptISDASes, input.forbiddenCIDRs⟩ = .ok texts := by
  obtain ⟨accepted, hacc, -⟩ := renderRoutingPolicy_eq_ok.mp h
  obtain ⟨-, hremotes, hforbidden, hread⟩ := exists_prepare_iff.mp ⟨accepted, hacc⟩
  have hprepare : ∃ accepted', prepare ⟨ia, nets, input.acceptISDASes, input.forbiddenCIDRs⟩ =
      .ok accepted' := exists_prepare_iff.mpr ⟨hia, hremotes, hforbidden, hread⟩
  obtain ⟨accepted', hacc'⟩ := hprepare
  exact exists_renderBoth_of_prepare hacc'

/-! ### Whole runs -/

/-- With the same nets to advertise, the routing policy is up to date for other node info. -/
theorem UpToDate.congr {cfg : Config} {s : State} {info info' : NodeInfo}
    (h : UpToDate cfg s info) (hnets : advertisedNets info' cfg = advertisedNets info cfg) :
    UpToDate cfg s info' := by
  obtain ⟨topology, input, text, htopology, hinput, htext, hfile⟩ := h
  refine ⟨topology, input, text, htopology, ?_, htext, hfile⟩
  rw [policyInput_eq_ok_iff] at hinput ⊢
  rw [hnets]
  exact hinput

/-- A rerendering that succeeds brings the routing policy up to date. -/
theorem upToDate_rerender {cfg : Config} {s : State} {info : NodeInfo} {r : Rerender}
    (h : UpToDate cfg s info) (hr : r.succeeds = true) :
    UpToDate cfg (rerender cfg s r) s.info := by
  obtain ⟨topology, input, text, -, hinput, htext, -⟩ := h
  obtain ⟨ia₀, -, rfl⟩ := policyInput_eq_ok_iff.mp hinput
  simp only [Rerender.succeeds, Bool.and_eq_true, Option.any_eq_true, decide_eq_true_eq] at hr
  obtain ⟨⟨⟨topology', htopology', haccepts⟩, htraffic⟩, hrouting⟩ := hr
  obtain ⟨ia, hia, hne⟩ := exists_localIA haccepts
  have hinput' : policyInput (some topology') s.info cfg = .ok ⟨ia, advertisedNets s.info cfg,
      split cfg.acceptISDASes, split cfg.forbiddenCIDRs⟩ :=
    policyInput_eq_ok_iff.mpr ⟨ia, hia, rfl⟩
  obtain ⟨⟨traffic, routing⟩, hboth⟩ := exists_renderBoth htext hne (advertisedNets s.info cfg)
  refine ⟨topology', _, routing, ?_, hinput', (renderBoth_eq_ok.mp hboth).2, ?_⟩
  · simp only [rerender, htopology', Option.some_or]
  · simp only [rerender, htopology', hinput', htraffic, hrouting,
      renderPolicies_eq_runFileSteps s.files hboth, runFileSteps_fileSteps]

/-- What holds in every state: the routing policy is up to date for the remembered node info
and for that of a skipped tick. -/
structure Invariant (cfg : Config) (s : State) : Prop where
  current : UpToDate cfg s s.info
  skipped : ∀ current, s.skipped = some current → UpToDate cfg s current

/-- The invariant holds when the policies were rendered once. -/
theorem invariant_initial {cfg : Config} {info : NodeInfo} {topology : Str} {input : Input}
    {fs : Files} (hinput : policyInput (some topology) info cfg = .ok input)
    (hrender : (renderPolicies input .done .done fs).1 = true) :
    Invariant cfg (.initial info topology (renderPolicies input .done .done fs).2) := by
  refine ⟨?_, fun _ hskipped => by cases hskipped⟩
  cases hboth : renderBoth input with
  | error e =>
      rw [renderPolicies, hboth] at hrender
      cases hrender
  | ok texts =>
      refine ⟨topology, input, texts.2, rfl, hinput, (renderBoth_eq_ok.mp hboth).2, ?_⟩
      rw [renderPolicies_eq_runFileSteps fs hboth, runFileSteps_fileSteps]
      rfl

/-- Every turn that keeps up keeps the invariant. -/
theorem invariant_step (cfg : Config) (s : State) (e : Event) (s' : State) (h : Invariant cfg s)
    (hkeeps : keepsUp cfg s e = true) (hstep : step cfg s e = some s') : Invariant cfg s' := by
  cases e with
  | notice r =>
      obtain rfl := Option.some.inj hstep
      refine ⟨?_, fun _ hskipped => by cases hskipped⟩
      rw [keepsUp, Bool.or_eq_true] at hkeeps
      rcases hkeeps with hnone | hr
      · obtain ⟨topology, input, text, htopology, hinput, htext, hfile⟩ := h.current
        rw [Option.isNone_iff_eq_none] at hnone
        refine ⟨topology, input, text, ?_, hinput, htext, ?_⟩
        · simpa [rerender, hnone] using htopology
        · simpa [rerender, hnone, policyInput, localIA] using hfile
      · exact upToDate_rerender h.current hr
  | tick current r =>
      cases current with
      | none =>
          obtain rfl := Option.some.inj hstep
          exact ⟨h.current, fun _ hskipped => by cases hskipped⟩
      | some current =>
          simp only [step] at hstep
          simp only [keepsUp] at hkeeps
          split_ifs at hstep hkeeps with hsame
          · obtain rfl := Option.some.inj hstep
            refine ⟨h.current, ?_⟩
            rintro current' ⟨⟩
            exact UpToDate.congr h.current (of_decide_eq_true hkeeps)
          · obtain rfl := Option.some.inj hstep
            refine ⟨?_, fun _ hskipped => by cases hskipped⟩
            exact upToDate_rerender (s := { s with info := current }) h.current hkeeps

/-- **No lost update.** After one rendering, in every run of turns that keep up: whenever a
tick is skipped, the routing policy file holds what is rendered from the current node info and
the topology last read. -/
theorem upToDate_of_keepsUp {cfg : Config} {info : NodeInfo} {topology : Str} {input : Input}
    {fs : Files} (hinput : policyInput (some topology) info cfg = .ok input)
    (hrender : (renderPolicies input .done .done fs).1 = true) {events : List Event} {s : State}
    (hrun : Transition.run (step cfg)
      (.initial info topology (renderPolicies input .done .done fs).2) events = some s)
    (hkeeps : Transition.Always (step cfg) (fun s e => keepsUp cfg s e = true)
      (.initial info topology (renderPolicies input .done .done fs).2) events)
    {current : NodeInfo} (hskipped : s.skipped = some current) : UpToDate cfg s current :=
  (Transition.run_invariant (invariant_step cfg) (invariant_initial hinput hrender) hkeeps
    hrun).skipped current hskipped

/-- A topology of the local AS. -/
def sampleTopology : Str :=
  "\x7b\"isd_as\":\"1-ff00:0:110\"\x7d".toList

/-- A configuration that announces pod CIDRs and node addresses. -/
def sampleConfig : Config :=
  ⟨true, true, "2-ff00:0:210".toList, "128.0.0.0/1".toList⟩

/-- A node with one pod CIDR. -/
def sampleInfo (net ip : String) : NodeInfo :=
  ⟨[net.toList], ip.toList⟩

/-- The input of the policy engine on such a node. -/
def sampleInput (net ip : String) : Input :=
  ⟨"1-ff00:0:110".toList, [net.toList, ip.toList ++ "/32".toList], ["2-ff00:0:210".toList],
    ["128.0.0.0/1".toList]⟩

/-- The policies were rendered for the first node info. -/
def sampleStart : State :=
  .initial (sampleInfo "10.244.1.0/26" "10.0.0.1") sampleTopology
    (renderPolicies (sampleInput "10.244.1.0/26" "10.0.0.1") .done .done ⟨none, none⟩).2

/-- The node gets another pod CIDR, and the topology changes. -/
def orderlyRun : List Event :=
  [.tick (some (sampleInfo "10.244.1.0/26" "10.0.0.1")) ⟨none, .done, .done⟩,
    .tick (some (sampleInfo "10.244.2.0/26" "10.0.0.1")) ⟨some sampleTopology, .done, .done⟩,
    .notice ⟨some sampleTopology, .done, .done⟩,
    .tick (some (sampleInfo "10.244.2.0/26" "10.0.0.1")) ⟨none, .done, .done⟩]

/-- When the last tick of the orderly run is skipped, the second pod CIDR is announced. -/
theorem upToDate_of_orderlyRun :
    ∃ s, Transition.run (step sampleConfig) sampleStart orderlyRun = some s ∧
      s.skipped = some (sampleInfo "10.244.2.0/26" "10.0.0.1") ∧
      UpToDate sampleConfig s (sampleInfo "10.244.2.0/26" "10.0.0.1") := by
  have hend : (Transition.run (step sampleConfig) sampleStart orderlyRun).map State.skipped =
      some (some (sampleInfo "10.244.2.0/26" "10.0.0.1")) := by decide +kernel
  obtain ⟨s, hrun, hskipped⟩ := Option.map_eq_some_iff.mp hend
  have hinput : policyInput (some sampleTopology) (sampleInfo "10.244.1.0/26" "10.0.0.1")
      sampleConfig = .ok (sampleInput "10.244.1.0/26" "10.0.0.1") := by decide +kernel
  exact ⟨s, hrun, hskipped,
    upToDate_of_keepsUp hinput (by decide +kernel) hrun (by decide +kernel) hskipped⟩

/-- The node gets another pod CIDR, but the routing policy cannot be written. -/
def failingRun : List Event :=
  [.tick (some (sampleInfo "10.244.2.0/26" "10.0.0.1"))
      ⟨some sampleTopology, .done, .failed (some [])⟩,
    .tick (some (sampleInfo "10.244.2.0/26" "10.0.0.1")) ⟨none, .done, .done⟩]

/-- **A lost update.** After a failed write the next tick is skipped, and the new pod CIDR is
not announced. -/
theorem stale_after_failed_write :
    ∃ s, Transition.run (step sampleConfig) sampleStart failingRun = some s ∧
      s.skipped = some (sampleInfo "10.244.2.0/26" "10.0.0.1") ∧
      ¬ UpToDate sampleConfig s (sampleInfo "10.244.2.0/26" "10.0.0.1") := by
  have hend : (Transition.run (step sampleConfig) sampleStart failingRun).map
      (fun s => (s.skipped, decide
        (UpToDate sampleConfig s (sampleInfo "10.244.2.0/26" "10.0.0.1")))) =
        some (some (sampleInfo "10.244.2.0/26" "10.0.0.1"), false) := by decide +kernel
  obtain ⟨s, hrun, hs⟩ := Option.map_eq_some_iff.mp hend
  exact ⟨s, hrun, (Prod.mk.inj hs).1, of_decide_eq_false (Prod.mk.inj hs).2⟩

/-- **Another lost update.** When only the address of the node changes, the tick is skipped,
and the old address is still announced. -/
theorem stale_after_address_change :
    ∃ s, Transition.run (step sampleConfig) sampleStart
        [.tick (some (sampleInfo "10.244.1.0/26" "10.0.0.2")) ⟨none, .done, .done⟩] = some s ∧
      s.skipped = some (sampleInfo "10.244.1.0/26" "10.0.0.2") ∧
      ¬ UpToDate sampleConfig s (sampleInfo "10.244.1.0/26" "10.0.0.2") :=
  ⟨_, rfl, rfl, by decide +kernel⟩

end ScionOperator.Refresh
