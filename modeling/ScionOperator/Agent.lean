import ScionOperator.Cluster

/-!
# From the Cluster to the Agent's Policy

The path of the deny list through the system: the operator renders it into an environment
variable of the agent's DaemonSet (`internal/operator/render`), the agent splits the
variable again, reads the local ISD-AS from the bootstrapped topology (`cmd/agent`) and
hands both to the policy engine.

The kubelet substitutes references `$(NAME)` to other variables in a value. The environment
is taken as rendered, without that: a list of CIDRs has no such reference, but texts that
the spec gives freely may have one (`discoveryURL`, `dnsDomain`, `dhcpInterface`, `tunName`),
and the agent then reads another text than the one in the spec.

## Main results

* `split_join_of_readsAsIPv4`: a list of IPv4 CIDRs survives the environment.
* `getenv_forbiddenCIDRs`: the variable the agent reads is the list that was rendered.
* `forbidden_stable`: **equal sets of CIDRs in the sources give the same variable.**
* `accepted_of_clusterForbiddenCIDRs`: **whatever a source of the cluster declares is not
  accepted by any agent.**
-/

namespace ScionOperator

open Text Json Netip

/-! ### The environment of the agent -/

/-- Where the value of an environment variable comes from. -/
inductive EnvSource
  | value (s : Str)
  | fieldRef (path : Str)
deriving DecidableEq

/-- An environment variable of a container. -/
structure EnvVar where
  name : String
  source : EnvSource
deriving DecidableEq

/-- A variable with a fixed value. -/
def EnvVar.ofValue (name : String) (value : Str) : EnvVar :=
  ⟨name, .value value⟩

/-- A Boolean that may be unset. -/
def boolOr (b : Option Bool) (default : Bool) : Bool :=
  b.getD default

/-- A Boolean as text. -/
def boolStr (b : Bool) : Str :=
  if b then "true".toList else "false".toList

/-- Where the certificate for the metrics endpoint is mounted. -/
def metricsTLSDir : Str :=
  "/etc/scion-metrics-tls".toList

/-- The environment of the agent container in the rendered DaemonSet. -/
def daemonSetEnv (spec : Spec) (forbiddenCIDRs : List Str) (metricsTLS : Bool) : List EnvVar :=
  let env : List EnvVar :=
    [⟨"NODE_NAME", .fieldRef "spec.nodeName".toList⟩,
      .ofValue "SCION_BOOTSTRAP_MODE" spec.bootstrap.mode,
      .ofValue "SCION_DISCOVERY_URL" spec.bootstrap.discoveryURL,
      .ofValue "SCION_DNS_DOMAIN" spec.bootstrap.dnsDomain,
      .ofValue "SCION_DHCP_INTERFACE" spec.bootstrap.dhcpInterface,
      .ofValue "SCION_REFRESH_INTERVAL" spec.bootstrap.refreshInterval,
      .ofValue "SCION_TUN_NAME" spec.tunName,
      .ofValue "SCION_ACCEPT_ISD_ASES" (join ',' spec.acceptPolicy.isdASes),
      .ofValue "SCION_FORBIDDEN_CIDRS" (join ',' forbiddenCIDRs),
      .ofValue "SCION_ADVERTISE_POD_CIDR" (boolStr (boolOr spec.advertisement.podCIDR true)),
      .ofValue "SCION_ADVERTISE_NODE_IP" (boolStr (boolOr spec.advertisement.nodeIP false))]
  let tls : List EnvVar :=
    [.ofValue "SCION_METRICS_TLS_CERT" (metricsTLSDir ++ "/tls.crt".toList),
      .ofValue "SCION_METRICS_TLS_KEY" (metricsTLSDir ++ "/tls.key".toList)]
  if metricsTLS then env ++ tls else env

/-- The value of a variable in a pod on a node (`os.Getenv`), empty if it is not set. The
only field that is referred to is the name of the node. -/
def getenv (nodeName : Str) (env : List EnvVar) (name : String) : Str :=
  match env.find? fun v => v.name = name with
  | some ⟨_, .value s⟩ => s
  | some ⟨_, .fieldRef _⟩ => nodeName
  | none => []

/-! ### The agent -/

namespace Agent

/-- Split a comma-separated list, trimming spaces and dropping empties. -/
def split (s : Str) : List Str :=
  ((Text.split ',' s).map trimSpace).filter fun p => p ≠ []

/-- What the agent knows of its node. -/
structure NodeInfo where
  podCIDRs : List Str
  internalIP : Str
deriving DecidableEq

/-- The configuration of the agent, as far as its policies are concerned. -/
structure Config where
  advertisePodCIDR : Bool
  advertiseNodeIP : Bool
  acceptISDASes : Str
  forbiddenCIDRs : Str

/-- The prefixes a node announces: its IPv4 pod CIDRs and its IPv4 address. -/
def advertisedNets (info : NodeInfo) (cfg : Config) : List Str :=
  (if cfg.advertisePodCIDR then info.podCIDRs.filter isIPv4CIDR else []) ++
  if cfg.advertiseNodeIP then
    match parseIP info.internalIP with
    | some ip => if (to4 ip).isSome then [info.internalIP ++ "/32".toList] else []
    | none => []
  else []

/-- The errors of `localIA`. -/
inductive LocalIAError
  | reading
  | parsing
  | noISDAS
deriving DecidableEq

/-- The field of a topology that the agent reads. -/
def topologyFields : List (StructField Str) :=
  [⟨"isd_as".toList, decodeString⟩]

/-- The ISD-AS of a topology document. -/
def decodeISDAS (topology : Str) : Option Str :=
  (unmarshal topology).bind fun v => decodeStruct topologyFields false v []

/-- The check of the bootstrap stage on a downloaded topology: it names an ISD-AS. -/
def acceptsTopology (topology : Str) : Bool :=
  match decodeISDAS topology with
  | some ia => ia ≠ []
  | none => false

/-- The local ISD-AS of the cached `topology.json`, which may be missing. -/
def localIA : Option Str → Except LocalIAError Str
  | none => .error .reading
  | some topology =>
      match decodeISDAS topology with
      | none => .error .parsing
      | some ia => if ia = [] then .error .noISDAS else .ok ia

/-- The input of the policy engine. -/
def policyInput (topology : Option Str) (info : NodeInfo) (cfg : Config) :
    Except LocalIAError Input := do
  let ia ← localIA topology
  pure
    { localIA := ia
      advertisedNets := advertisedNets info cfg
      acceptISDASes := split cfg.acceptISDASes
      forbiddenCIDRs := split cfg.forbiddenCIDRs }

end Agent

/-! ### The deny list on its way -/

/-- A list of texts without commas and white space, none of them empty, is what it was when it
is joined with commas and split again. -/
theorem split_join_of_noSpace {l : List Str} (h : ∀ s ∈ l, s ≠ [] ∧ NoSpace s ∧ ',' ∉ s) :
    Agent.split (join ',' l) = l := by
  rcases eq_or_ne l [] with rfl | hne
  · rfl
  have htrim : l.map trimSpace = l := by
    conv_rhs => rw [← List.map_id l]
    exact List.map_congr_left fun s hs => trimSpace_eq_self (h s hs).2.1
  rw [Agent.split, split_join (fun s hs => (h s hs).2.2) hne, htrim, List.filter_eq_self]
  exact fun s hs => by simpa using (h s hs).1

/-- **The deny list survives the environment**: joined with commas and split again, it is
what it was. -/
theorem split_join_of_readsAsIPv4 {l : List Str} (h : ∀ c ∈ l, ReadsAsIPv4 c) :
    Agent.split (join ',' l) = l := by
  refine split_join_of_noSpace fun c hc => ?_
  obtain ⟨p, hp, -⟩ := h c hc
  exact ⟨(h c hc).ne_nil, noSpace_of_parsePrefix hp, not_mem_of_parsePrefix hp (by decide)⟩

/-- The variable that the agent reads is the list that was rendered. -/
theorem getenv_forbiddenCIDRs (nodeName : Str) (spec : Spec) (forbidden : List Str)
    (metricsTLS : Bool) :
    getenv nodeName (daemonSetEnv spec forbidden metricsTLS) "SCION_FORBIDDEN_CIDRS" =
      join ',' forbidden := by
  cases metricsTLS <;> simp [getenv, daemonSetEnv, EnvVar.ofValue]

/-- **The deny list is stable.** For every spec and any two clusters whose sources hold the same
IPv4 CIDRs, the lists are the same whenever they are returned, in strict order, and so is the
value that is rendered. -/
theorem forbidden_stable {spec : Spec} {cluster cluster' : Cluster}
    (hsame : SameSources cluster cluster') {forbidden forbidden' : List Str}
    {openshift openshift' : Bool}
    (h : clusterForbiddenCIDRs spec.acceptPolicy cluster = .ok (forbidden, openshift))
    (h' : clusterForbiddenCIDRs spec.acceptPolicy cluster' = .ok (forbidden', openshift')) :
    forbidden = forbidden' ∧ forbidden.Pairwise (· < ·) ∧
      ∀ nodeName metricsTLS metricsTLS',
        getenv nodeName (daemonSetEnv spec forbidden metricsTLS) "SCION_FORBIDDEN_CIDRS" =
          getenv nodeName (daemonSetEnv spec forbidden' metricsTLS') "SCION_FORBIDDEN_CIDRS" := by
  obtain rfl := clusterForbiddenCIDRs_congr hsame h h'
  refine ⟨rfl, pairwise_lt_clusterForbiddenCIDRs h, fun nodeName metricsTLS metricsTLS' => ?_⟩
  rw [getenv_forbiddenCIDRs, getenv_forbiddenCIDRs]

/-- **End-to-end guardrail.** Let the operator compute a deny list and render it. Then the
agent reads back that very list; if it is not empty, the policy can be prepared for every
local IA and list of remotes; and whenever it can be prepared, what is accepted are IPv4
prefixes none of which holds an address of an IPv4 CIDR that the spec or a source of the
cluster declares. -/
theorem accepted_of_clusterForbiddenCIDRs {spec : Spec} {cluster : Cluster}
    {forbidden : List Str} {openshift : Bool}
    (h : clusterForbiddenCIDRs spec.acceptPolicy cluster = .ok (forbidden, openshift))
    (nodeName : Str) (metricsTLS : Bool) :
    Agent.split (getenv nodeName (daemonSetEnv spec forbidden metricsTLS)
        "SCION_FORBIDDEN_CIDRS") = forbidden ∧
      ∀ input : Input, input.forbiddenCIDRs = Agent.split (getenv nodeName
          (daemonSetEnv spec forbidden metricsTLS) "SCION_FORBIDDEN_CIDRS") →
        (forbidden ≠ [] → input.localIA ≠ [] → input.acceptISDASes ≠ [] →
          ∃ accepted, prepare input = .ok accepted) ∧
        ∀ accepted, prepare input = .ok accepted →
          (∀ s ∈ accepted, ReadsAsIPv4 s) ∧
          ∀ c, DeclaredCIDR spec.acceptPolicy cluster c → ReadsAsIPv4 c →
            ∀ x, InCIDR x c → ∀ s ∈ accepted, ¬ InCIDR x s := by
  have hforb : ∀ c ∈ forbidden, ReadsAsIPv4 c := fun c hc =>
    ((mem_clusterForbiddenCIDRs h).mp hc).2
  rw [getenv_forbiddenCIDRs, split_join_of_readsAsIPv4 hforb]
  refine ⟨rfl, fun input hinput => ⟨fun hne hia hremotes => ?_, fun accepted hacc => ?_⟩⟩
  · exact exists_prepare_iff.mpr ⟨hia, hremotes, hinput ▸ hne, hinput ▸ hforb⟩
  · refine ⟨readsAsIPv4_accepted hacc, fun c hc hr x hx s hs hxs => ?_⟩
    have hmem : c ∈ input.forbiddenCIDRs :=
      hinput ▸ (mem_clusterForbiddenCIDRs h).mpr ⟨hc, hr⟩
    exact (mem_accepted_iff hacc x).mp ⟨s, hs, hxs⟩ c hmem hx

/-- A spec with a deny list of its own. -/
def sampleSpec : Spec where
  bootstrap := ⟨"dns".toList, [], "example.org".toList, [], "1h".toList⟩
  advertisement := ⟨some true, none⟩
  acceptPolicy := ⟨["2-ff00:0:210".toList], ["172.16.0.0/12".toList],
    ["192.168.7.1/24".toList, "fd00::/8".toList]⟩
  tunName := "scion0".toList
  registrar := ⟨"manual".toList, [], none⟩
  nodeSelector := ∅

/-- An OpenShift cluster with one node, in which the Calico and Cilium APIs are absent. -/
def sampleCluster : Cluster where
  network := .ok
    { object := .obj [("spec".toList, .obj
        [("clusterNetwork".toList, .arr [.obj [("cidr".toList, .str "10.128.0.0/14".toList)]]),
          ("serviceNetwork".toList, .arr [.str "172.30.0.0/16".toList])])]
      serviceNetwork_strings := by decide +kernel }
  nodes := .ok
    [{ name := "node-1".toList
       labels := ∅
       annotations := ∅
       podCIDR := "10.244.1.0/24".toList
       podCIDRs := ["10.244.1.0/24".toList, "fd01::/64".toList]
       addresses := [⟨.internalIP, "192.168.7.10".toList⟩]
       podCIDR_mem := by decide +kernel }]
  serviceCIDRs := .ok [["172.30.0.0/16".toList]]
  ipPools := .error .noMatch
  ciliumNodes := .error .notFound

/-- On that cluster a policy is prepared, and an address of a pod is not accepted. -/
theorem pod_not_accepted_of_sampleCluster :
    ∃ accepted, prepare ⟨"1-ff00:0:110".toList, [], ["2-ff00:0:210".toList],
        ["10.128.0.0/14".toList, "10.244.1.0/24".toList, "172.16.0.0/12".toList,
          "172.30.0.0/16".toList, "192.168.7.1/24".toList]⟩ = .ok accepted ∧
      ∀ s ∈ accepted, ¬ InCIDR 0x0af40105#32 s := by
  have h : clusterForbiddenCIDRs sampleSpec.acceptPolicy sampleCluster = .ok
      (["10.128.0.0/14".toList, "10.244.1.0/24".toList, "172.16.0.0/12".toList,
        "172.30.0.0/16".toList, "192.168.7.1/24".toList], true) := by decide +kernel
  obtain ⟨hread, hprepare⟩ := accepted_of_clusterForbiddenCIDRs h "node-1".toList true
  obtain ⟨hok, hsafe⟩ := hprepare ⟨"1-ff00:0:110".toList, [], ["2-ff00:0:210".toList], _⟩
    hread.symm
  obtain ⟨accepted, hacc⟩ := hok (by simp) (by simp) (by simp)
  refine ⟨accepted, hacc, (hsafe accepted hacc).2 "10.244.1.0/24".toList ?_ ?_ _ ?_⟩
  · exact .node _ rfl _ (List.mem_singleton_self _) (.inr rfl)
  · exact isIPv4CIDR_iff.mp (by decide +kernel)
  · exact ⟨_, rfl, by decide +kernel⟩

/-- The same cluster, with the service CIDR twice and one of IPv6 before it. -/
def dualStackCluster : Cluster :=
  { sampleCluster with
    serviceCIDRs := .ok [["fd02::/112".toList, "172.30.0.0/16".toList],
      ["172.30.0.0/16".toList]] }

/-- Its sources hold the same IPv4 CIDRs. -/
theorem sameSources_dualStackCluster : SameSources sampleCluster dualStackCluster := by
  intro source cidr hr
  cases source with
  | serviceCIDRs =>
      have hne : cidr ≠ "fd02::/112".toList := by
        rintro rfl
        exact absurd hr (by decide +kernel)
      simp only [Source.Holds, sampleCluster, dualStackCluster, Except.ok.injEq,
        exists_eq_left', List.mem_cons, List.not_mem_nil, or_false, exists_eq_or_imp,
        exists_eq_left, hne, false_or, or_self]
  | network | nodes | ipPools | ciliumNodes => exact Iff.rfl

/-- Both clusters have one list, in strict order. -/
theorem forbidden_stable_of_dualStack :
    ∃ forbidden,
      clusterForbiddenCIDRs sampleSpec.acceptPolicy sampleCluster = .ok (forbidden, true) ∧
      clusterForbiddenCIDRs sampleSpec.acceptPolicy dualStackCluster = .ok (forbidden, true) ∧
      forbidden.Pairwise (· < ·) := by
  have h : clusterForbiddenCIDRs sampleSpec.acceptPolicy sampleCluster = .ok
      (["10.128.0.0/14".toList, "10.244.1.0/24".toList, "172.16.0.0/12".toList,
        "172.30.0.0/16".toList, "192.168.7.1/24".toList], true) := by decide +kernel
  have h' : clusterForbiddenCIDRs sampleSpec.acceptPolicy dualStackCluster = .ok
      (["10.128.0.0/14".toList, "10.244.1.0/24".toList, "172.16.0.0/12".toList,
        "172.30.0.0/16".toList, "192.168.7.1/24".toList], true) := by decide +kernel
  exact ⟨_, h, h', (forbidden_stable sameSources_dualStackCluster h h').2.1⟩

end ScionOperator
