import ScionOperator.Pipeline
import ScionOperator.Startup

/-!
# From the Spec to the Rules of the Gateways

The whole way of a policy: the spec of a network and the networks of the cluster, the environment
of the agent, what it fetches when it comes up (`Startup`), its rounds of rendering (`Pipeline`),
and the texts that the gateway loads, read as the rules they stand for (`RoutingPolicy`). What the
rules are to do is stated over the spec and the cluster alone (`Enforces`).

Three things are assumed of what is met on the way. The ISD-AS of the topology is a single word: a
server that serves another one can change the rules (`Injection`). The networks of the cluster
leave some address that can be accepted: otherwise the text that is rendered is no policy. And the
refetching can read the topology before or after each `Fetch`: otherwise the gateway may keep the
policies for an older topology (`TopologyNotice`).

## Main results

* `enforces_of_policyInput`: the rules that are rendered for a spec do what it asks for.
* `enforced_of_run`: **an agent that has come up and is at rest has had its gateway load rules that
  do what the spec asks for.**
-/

namespace ScionOperator.Enforcement

open Text Netip Json Agent Refresh Startup

/-! ### What a spec asks for -/

/-- An address that is in none of the IPv4 networks of the spec and of the cluster. -/
def Outside (spec : Spec) (cluster : Cluster) (x : BitVec 32) : Prop :=
  ∀ c, DeclaredCIDR spec.acceptPolicy cluster c → ReadsAsIPv4 c → ¬ InCIDR x c

/-- A prefix that a node is to announce: an IPv4 pod CIDR, or its own address. -/
def Announced (spec : Spec) (info : NodeInfo) (net : Str) : Prop :=
  (spec.advertisement.podCIDR.getD true = true ∧ net ∈ info.podCIDRs ∧ ReadsAsIPv4 net) ∨
    (spec.advertisement.nodeIP.getD false = true ∧ StandsForIPv4 info.internalIP ∧
      net = info.internalIP ++ "/32".toList)

/-- The rules of a gateway in a local AS do what a spec asks for: from exactly the remotes of the
spec exactly the addresses outside of all networks are accepted, to exactly these remotes exactly
the prefixes of the node are announced, and nothing else is accepted or announced. -/
structure Enforces (spec : Spec) (cluster : Cluster) (info : NodeInfo) (ia : Str)
    (rules : List Rule) : Prop where
  accepts : ∀ remote x,
    (∃ rule ∈ rules, rule.action = .accept ∧ rule.fromIA = remote ∧
      ∃ net ∈ rule.nets, InCIDR x net) ↔
    remote ∈ spec.acceptPolicy.isdASes ∧ Outside spec cluster x
  announces : ∀ remote net,
    (∃ rule ∈ rules, rule.action = .advertise ∧ rule.toIA = remote ∧ net ∈ rule.nets) ↔
    remote ∈ spec.acceptPolicy.isdASes ∧ Announced spec info net
  only : ∀ rule ∈ rules,
    (rule.action = .accept ∧ rule.toIA = ia ∧ ∀ net ∈ rule.nets, ReadsAsIPv4 net) ∨
      (rule.action = .advertise ∧ rule.fromIA = ia)

/-- A traffic policy lists the remotes of the spec. -/
def ListsRemotes (spec : Spec) (traffic : Str) : Prop :=
  ∃ ases, unmarshal traffic = some (.obj
      [("ASes".toList, .obj ases), ("ConfigVersion".toList, .num .one)]) ∧
    ∀ k v, (k, v) ∈ ases ↔ k ∈ spec.acceptPolicy.isdASes ∧ v = .obj [("Nets".toList, .arr [])]

/-! ### The rules that are rendered -/

section Rendered

variable {spec : Spec} {cluster : Cluster} {forbidden : List Str} {cfg : FullConfig}
  {info : NodeInfo} {input : Input} {accepted : List Str}

/-- What is announced is what the spec asks for. -/
theorem mem_advertisedNets_iff (hagrees : AgreesWith spec forbidden cfg) {net : Str} :
    net ∈ advertisedNets info cfg.toConfig ↔ Announced spec info net := by
  rw [advertisedNets_eq, List.mem_append, Announced, ← hagrees.podCIDR, ← hagrees.nodeIP]
  refine or_congr ?_ ?_
  · by_cases hpod : cfg.advertisePodCIDR = true
    · rw [if_pos hpod, List.mem_filter, decide_eq_true_eq, and_iff_right hpod]
    · rw [if_neg hpod]
      exact iff_of_false List.not_mem_nil fun h => hpod h.1
  · rcases nodeIPNets_cases info cfg.toConfig with ⟨⟨hip, hstands⟩, hnets⟩ | ⟨hnot, hnets⟩
    · rw [hnets, List.mem_singleton]
      exact ⟨fun h => ⟨hip, hstands, h⟩, fun h => h.2.2⟩
    · rw [hnets]
      exact iff_of_false List.not_mem_nil fun h => hnot ⟨h.1, h.2.1⟩

/-- What is announced is a prefix. -/
theorem exists_parsePrefix_of_announced {net : Str} (h : Announced spec info net) :
    ∃ p, parsePrefix net = some p := by
  rcases h with ⟨-, -, p, hp, -⟩ | ⟨-, hstands, rfl⟩
  · exact ⟨p, hp⟩
  · rcases hstands.cases with ⟨a, ha⟩ | ⟨a, ha, -⟩
    · exact ⟨_, parsePrefix_host ha rfl⟩
    · exact ⟨_, parsePrefix_host ha rfl⟩

/-- What is not forbidden is outside of all networks. -/
theorem outside_iff {openshift : Bool}
    (h : clusterForbiddenCIDRs spec.acceptPolicy cluster = .ok (forbidden, openshift))
    {x : BitVec 32} : Outside spec cluster x ↔ ∀ c ∈ forbidden, ¬ InCIDR x c := by
  constructor
  · intro hout c hc
    obtain ⟨hdeclared, hreads⟩ := (mem_clusterForbiddenCIDRs h).mp hc
    exact hout c hdeclared hreads
  · intro hall c hdeclared hreads
    exact hall c ((mem_clusterForbiddenCIDRs h).mpr ⟨hdeclared, hreads⟩)

/-- The rules that are intended: what is accepted from and announced to each remote. -/
theorem mem_intendedRules {rule : Rule} :
    rule ∈ intendedRules input accepted ↔ ∃ remote ∈ input.acceptISDASes,
      (∃ net ∈ input.advertisedNets, rule = ⟨.advertise, input.localIA, remote, [net]⟩) ∨
        rule = ⟨.accept, remote, input.localIA, accepted⟩ := by
  simp only [intendedRules, List.mem_flatMap, List.mem_append, List.mem_map, List.mem_singleton,
    eq_comm]

/-- The rules that are intended do what the spec asks for. -/
theorem enforces_intendedRules (input : Input)
    (hremotes : input.acceptISDASes = spec.acceptPolicy.isdASes)
    (hnets : ∀ net, net ∈ input.advertisedNets ↔ Announced spec info net)
    (hreads : ∀ net ∈ accepted, ReadsAsIPv4 net)
    (haccepted : ∀ x, (∃ net ∈ accepted, InCIDR x net) ↔ Outside spec cluster x) :
    Enforces spec cluster info input.localIA (intendedRules input accepted) where
  accepts remote x := by
    rw [← hremotes, ← haccepted]
    constructor
    · rintro ⟨rule, hrule, haction, hfrom, hnet⟩
      obtain ⟨remote', hremote, ⟨net, -, rfl⟩ | rfl⟩ := mem_intendedRules.mp hrule
      · cases haction
      · obtain rfl : remote' = remote := hfrom
        exact ⟨hremote, hnet⟩
    · rintro ⟨hremote, hnet⟩
      exact ⟨_, mem_intendedRules.mpr ⟨remote, hremote, .inr rfl⟩, rfl, rfl, hnet⟩
  announces remote net := by
    rw [← hremotes, ← hnets]
    constructor
    · rintro ⟨rule, hrule, haction, hto, hnet⟩
      obtain ⟨remote', hremote, ⟨net', hnet', rfl⟩ | rfl⟩ := mem_intendedRules.mp hrule
      · obtain rfl : remote' = remote := hto
        obtain rfl := List.mem_singleton.mp hnet
        exact ⟨hremote, hnet'⟩
      · cases haction
    · rintro ⟨hremote, hnet⟩
      exact ⟨_, mem_intendedRules.mpr ⟨remote, hremote, .inl ⟨net, hnet, rfl⟩⟩, rfl, rfl,
        List.mem_singleton_self net⟩
  only rule hrule := by
    obtain ⟨remote, -, ⟨net, -, rfl⟩ | rfl⟩ := mem_intendedRules.mp hrule
    · exact .inr ⟨rfl, rfl⟩
    · exact .inl ⟨rfl, rfl, hreads⟩

/-- The traffic policy that is rendered lists the remotes. -/
theorem listsRemotes_of_render (hremotes : input.acceptISDASes = spec.acceptPolicy.isdASes)
    {traffic : Str} (h : renderTrafficPolicy input = .ok traffic) : ListsRemotes spec traffic := by
  simp only [renderTrafficPolicy, Result.bind_eq_ok, Result.pure_eq_ok] at h
  obtain ⟨-, -, rfl⟩ := h
  rw [ListsRemotes, ← hremotes]
  exact ⟨_, unmarshal_trafficPolicy _, fun _ _ => mem_ases⟩

/-- **The policies that are rendered for a spec** list its remotes, and are rules that do what it
asks for. -/
theorem enforces_of_policyInput {openshift : Bool} (hspec : spec.Admitted)
    (hforbidden : clusterForbiddenCIDRs spec.acceptPolicy cluster = .ok (forbidden, openshift))
    (hagrees : AgreesWith spec forbidden cfg) {topology traffic routing ia : Str}
    (hia : localIA (some topology) = .ok ia) (hfield : IsField ia)
    (hopen : ∃ x, Outside spec cluster x)
    (hinput : policyInput (some topology) info cfg.toConfig = .ok input)
    (hboth : renderBoth input = .ok (traffic, routing)) :
    ListsRemotes spec traffic ∧
      ∃ rules, parsePolicy routing = some rules ∧ Enforces spec cluster info ia rules := by
  obtain ⟨ia', hia', rfl⟩ := policyInput_eq_ok_iff.mp hinput
  obtain rfl := Except.ok.inj (hia'.symm.trans hia)
  obtain ⟨htraffic, hrouting⟩ := renderBoth_eq_ok.mp hboth
  obtain ⟨accepted, hprepare, rfl⟩ := renderRoutingPolicy_eq_ok.mp hrouting
  have hreads := readsAsIPv4_accepted hprepare
  have haccepted : ∀ x, (∃ net ∈ accepted, InCIDR x net) ↔ Outside spec cluster x := fun x => by
    rw [mem_accepted_iff hprepare, outside_iff hforbidden]
    dsimp only
    rw [hagrees.forbiddenCIDRs]
  have hplain : Input.Plain ⟨ia', advertisedNets info cfg.toConfig, split cfg.acceptISDASes,
      split cfg.forbiddenCIDRs⟩ := by
    refine ⟨hfield, fun remote hremote => ?_, fun net hnet => ?_⟩
    · rw [hagrees.isdASes] at hremote
      exact isField_of_isISDAS (hspec.isdASes remote hremote)
    · exact exists_parsePrefix_of_announced ((mem_advertisedNets_iff hagrees).mp hnet)
  have hne : accepted ≠ [] := by
    rintro rfl
    obtain ⟨x, hx⟩ := hopen
    obtain ⟨net, hnet, -⟩ := (haccepted x).mpr hx
    cases hnet
  refine ⟨listsRemotes_of_render hagrees.isdASes htraffic, _,
    parsePolicy_eq_intendedRules hplain hreads hne,
    enforces_intendedRules ⟨ia', _, _, _⟩ hagrees.isdASes
      (fun _ => mem_advertisedNets_iff hagrees) hreads haccepted⟩

end Rendered

/-! ### The whole way -/

/-- The processes that an agent starts when it has come up. -/
def pipeline (id : Identity) (input : Input) (h : Host) : Pipeline.State :=
  .initial h.cache id.info input (h.files.traffic.getD []) (h.files.routing.getD [])

/-- **From the spec to the gateway.** Let the CRD admit a spec, the operator compute the deny list
for it and render the environment of an agent, and the agent come up, whatever it meets. In every
interleaving of its refetching, its rounds of rendering and its gateway in which the reads of the
refetching tell contents apart, whatever else fails: when it is at rest, its last round did not
fail, the ISD-AS of the topology it has then is a single word, and the networks leave some address,
then the gateway has last loaded policies that do what the spec asks for. -/
theorem enforced_of_run (nodeName : Str) (spec : Spec) (cluster : Cluster) (forbidden : List Str)
    (openshift metricsTLS : Bool) (hspec : spec.Admitted)
    (hforbidden : clusterForbiddenCIDRs spec.acceptPolicy cluster = .ok (forbidden, openshift))
    (m : Met) (h h' : Host) (id : Identity) (input : Input)
    (hstart : start (agentEnv nodeName spec forbidden metricsTLS) m h = (.ok (id, input), h'))
    (events : List Pipeline.Event) (s : Pipeline.State)
    (hrun : Transition.run (Pipeline.step id.cfg.toConfig) (pipeline id input h') events = some s)
    (hreads : Transition.Always (Pipeline.step id.cfg.toConfig)
      (fun s e => Pipeline.runReads s e = true) (pipeline id input h') events)
    (hrest : Pipeline.AtRest s) (hstale : s.stale = false) (ia : Str)
    (hia : localIA (some (Notice.content s.notice.cache)) = .ok ia) (hfield : IsField ia)
    (hopen : ∃ x, Outside spec cluster x) :
    ∃ traffic routing rules, Pipeline.lastLoaded s.reload .traffic = some (some traffic) ∧
      Pipeline.lastLoaded s.reload .routing = some (some routing) ∧ ListsRemotes spec traffic ∧
      parsePolicy routing = some rules ∧ Enforces spec cluster s.info ia rules := by
  have hIPv4 : ∀ c ∈ forbidden, ReadsAsIPv4 c := fun c hc =>
    ((mem_clusterForbiddenCIDRs hforbidden).mp hc).2
  have hid := (start_eq_ok_iff.mp (congrArg Prod.fst hstart)).1
  have hagrees := agreesWith_of_fromEnv hspec hIPv4 ((identify_agentEnv_iff hspec hIPv4).mp hid).1
  obtain ⟨topology, traffic, routing, hcached, hinput, hboth, hfiles⟩ := host_of_start hstart
  rw [pipeline, hfiles] at hrun hreads
  have hinitial := Pipeline.invariant_initial hcached hinput hboth
  have hinv :=
    Transition.run_invariant (Pipeline.invariant_step id.cfg.toConfig) hinitial hreads hrun
  obtain ⟨input', traffic', routing', hinput', hboth', htraffic, hrouting⟩ :=
    hinv.loaded hrest hstale
  obtain ⟨hlists, rules, hrules, henforces⟩ :=
    enforces_of_policyInput hspec hforbidden hagrees hia hfield hopen hinput' hboth'
  exact ⟨traffic', routing', rules, htraffic, hrouting, hlists, hrules, henforces⟩

/-- The gateway of the sample agent loads the first policies; then a block is allocated to the node,
and a round follows. -/
def sampleEvents : List Pipeline.Event :=
  [.gateway .sendInitial, .gateway .receive, .gateway (.load .traffic), .gateway (.load .routing),
    .tick (some ⟨["10.244.1.0/24".toList, "10.244.7.0/26".toList], "192.0.2.1".toList⟩)] ++
    Pipeline.sampleRound.drop 1

/-- The steps of an agent after it has come up, if it has. -/
def runAfter (events : List Pipeline.Event) :
    Except StartError (Identity × Input) × Host → Option Pipeline.State
  | (.error _, _) => none
  | (.ok (id, input), h) =>
      Transition.run (Pipeline.step id.cfg.toConfig) (pipeline id input h) events

/-- The public address 1.1.1.1 is outside of the networks of the sample cluster. -/
theorem outside_sampleCluster : Outside sampleSpec sampleCluster 0x01010101#32 := by
  rw [outside_iff clusterForbiddenCIDRs_sampleCluster]
  decide +kernel

/-- Of the sample agent it is then accepted, and the new block announced. -/
theorem enforced_of_sampleEvents :
    ∃ id input h' s rules,
      start (agentEnv "node-1".toList sampleSpec sampleForbidden true) sampleMet sampleHost =
        (.ok (id, input), h') ∧
      Transition.run (Pipeline.step id.cfg.toConfig) (pipeline id input h') sampleEvents = some s ∧
      s.info.podCIDRs = ["10.244.1.0/24".toList, "10.244.7.0/26".toList] ∧
      Enforces sampleSpec sampleCluster s.info "1-ff00:0:110".toList rules := by
  obtain ⟨id, input, h', hstart⟩ := exists_start_sampleMet
  have hend : (runAfter sampleEvents (start (agentEnv "node-1".toList sampleSpec sampleForbidden
      true) sampleMet sampleHost)).any (fun s => s.notice.renderer = .waiting ∧
      s.notice.slot = false ∧ ¬ s.notice.owesNotice ∧ s.reload.outstanding = false ∧
      s.stale = false ∧ s.info.podCIDRs = ["10.244.1.0/24".toList, "10.244.7.0/26".toList] ∧
      (localIA (some (Notice.content s.notice.cache))).toOption = some "1-ff00:0:110".toList) =
      true := by decide +kernel
  obtain ⟨s, hrun, hs⟩ := (Option.any_eq_true _ _).mp hend
  rw [hstart] at hrun
  obtain ⟨hwaiting, hslot, howes, hout, hstale, hpods, htopology⟩ := of_decide_eq_true hs
  have hia : localIA (some (Notice.content s.notice.cache)) = .ok "1-ff00:0:110".toList := by
    cases h : localIA (some (Notice.content s.notice.cache)) with
    | error err =>
        rw [h] at htopology
        cases htopology
    | ok ia =>
        rw [h] at htopology
        exact congrArg _ (Option.some.inj htopology)
  -- no event is one of the refetching, so none of its reads can fail
  have hreads : ∀ e ∈ sampleEvents, ∀ t : Pipeline.State, Pipeline.runReads t e = true := by
    simp only [sampleEvents, Pipeline.sampleRound, List.drop_succ_cons, List.drop_zero,
      List.cons_append, List.nil_append, List.forall_mem_cons, Pipeline.runReads]
    simp
  obtain ⟨traffic, routing, rules, -, -, -, -, henforces⟩ :=
    enforced_of_run "node-1".toList sampleSpec sampleCluster sampleForbidden true true
      admitted_sampleSpec clusterForbiddenCIDRs_sampleCluster sampleMet sampleHost h' id input
      hstart sampleEvents s hrun (Transition.always_of_forall_mem hreads _)
      ⟨hwaiting, hslot, howes, hout⟩ hstale _ hia (by decide +kernel) ⟨_, outside_sampleCluster⟩
  exact ⟨id, input, h', s, rules, hstart, hrun, hpods, henforces⟩

end ScionOperator.Enforcement
