import ScionOperator.Duration
import ScionOperator.Injection

/-!
# The Configuration of the Agent

The operator writes the spec into the environment of the agent's DaemonSet, and the agent reads
its configuration from there (`config.FromEnv`). Both fill in defaults: the operator for
Booleans that are not set, the agent for variables that are empty. Lists are joined with
commas; that they can be split again rests on the patterns of the CRD.

The pattern of the CRD for the refresh interval allows every list of numbers with units. Not
all of these are usable: a sum of zero stops the agent when it starts the ticker, and a sum
that does not fit 64 bits when it reads the configuration (`unusable_intervals_admitted`).

## Main results

* `agreesWith_of_fromEnv`: **the configuration that is read is the one in the spec.**
* `startsTicker_iff`: **when an agent starts**, for every bootstrap spec the CRD admits.
-/

namespace ScionOperator

open Text Json Netip

/-! ### Reading the environment -/

namespace Agent

/-- The configuration of the agent. -/
structure FullConfig extends Config where
  nodeName : Str
  bootstrapMode : Str
  discoveryURL : Str
  dnsDomain : Str
  dhcpInterface : Str
  refreshInterval : ℤ
  stateDir : Str
  tunName : Str
  enableDaemonAPI : Bool
  metricsAddr : Str
  metricsTLSCert : Str
  metricsTLSKey : Str

/-- The errors of `fromEnv`. -/
inductive ConfigError
  | metricsTLSPair
  | refreshInterval (err : Duration.ParseError)
  | nodeNameRequired
  | bootstrapModeInvalid (mode : Str)
  | discoveryURLRequired
  deriving DecidableEq

/-- Read a Boolean (`strconv.ParseBool`). -/
def parseBool (s : Str) : Option Bool :=
  if (["1", "t", "T", "TRUE", "true", "True"].map String.toList).contains s then some true
  else if (["0", "f", "F", "FALSE", "false", "False"].map String.toList).contains s then
    some false
  else none

/-- The value of a variable, or a default if it is empty. -/
def getenvOr (env : String → Str) (k : String) (default : Str) : Str :=
  if env k ≠ [] then env k else default

/-- A Boolean variable, or a default if it is empty or no Boolean. -/
def getenvBool (env : String → Str) (k : String) (default : Bool) : Bool :=
  if env k = [] then default else (parseBool (env k)).getD default

/-- The ways to find the bootstrap server. -/
def bootstrapModes : List Str :=
  ["url".toList, "dns".toList, "dhcp".toList, "mdns".toList]

/-- The configuration in an environment, before it is checked. -/
def readConfig (env : String → Str) (refreshInterval : ℤ) : FullConfig where
  nodeName := env "NODE_NAME"
  bootstrapMode := getenvOr env "SCION_BOOTSTRAP_MODE" "url".toList
  discoveryURL := env "SCION_DISCOVERY_URL"
  dnsDomain := env "SCION_DNS_DOMAIN"
  dhcpInterface := env "SCION_DHCP_INTERFACE"
  refreshInterval := refreshInterval
  stateDir := getenvOr env "SCION_STATE_DIR" "/var/lib/scion-node-agent".toList
  tunName := getenvOr env "SCION_TUN_NAME" "scion0".toList
  advertisePodCIDR := getenvBool env "SCION_ADVERTISE_POD_CIDR" true
  advertiseNodeIP := getenvBool env "SCION_ADVERTISE_NODE_IP" false
  enableDaemonAPI := getenvBool env "SCION_ENABLE_DAEMON_API" true
  acceptISDASes := env "SCION_ACCEPT_ISD_ASES"
  forbiddenCIDRs := env "SCION_FORBIDDEN_CIDRS"
  metricsAddr := getenvOr env "SCION_METRICS_ADDR" ":9465".toList
  metricsTLSCert := env "SCION_METRICS_TLS_CERT"
  metricsTLSKey := env "SCION_METRICS_TLS_KEY"

/-- Read and check the configuration. -/
def fromEnv (env : String → Str) : Except ConfigError FullConfig :=
  let c := readConfig env 0
  if c.metricsTLSCert.isEmpty ≠ c.metricsTLSKey.isEmpty then .error .metricsTLSPair
  else
    match Duration.parseDuration (getenvOr env "SCION_REFRESH_INTERVAL" "1h".toList) with
    | .error err => .error (.refreshInterval err)
    | .ok refreshInterval =>
        let c := readConfig env refreshInterval
        if c.nodeName = [] then .error .nodeNameRequired
        else if !bootstrapModes.contains c.bootstrapMode then
          .error (.bootstrapModeInvalid c.bootstrapMode)
        else if c.bootstrapMode = "url".toList ∧ c.discoveryURL = [] then
          .error .discoveryURLRequired
        else .ok c

end Agent

/-! ### What the CRD admits -/

/-- The units in the pattern of the refresh interval. -/
def intervalUnits : List Str :=
  ["ns".toList, "us".toList, "µs".toList, "ms".toList, "s".toList, "m".toList, "h".toList]

/-- The pattern of the refresh interval: numbers with units, at least one. -/
def MatchesInterval (s : Str) (items : List Duration.Item) : Prop :=
  items ≠ [] ∧ (∀ i ∈ items, i.unit ∈ intervalUnits) ∧ s = Duration.text items

/-- The rules of the CRD for the bootstrap spec. An interval that is not given is empty. -/
structure BootstrapSpec.Admitted (b : BootstrapSpec) : Prop where
  mode : b.mode ∈ Agent.bootstrapModes
  discoveryURL : b.mode = "url".toList → b.discoveryURL ≠ []
  refreshInterval : b.refreshInterval = [] ∨ ∃ items, MatchesInterval b.refreshInterval items

/-- The rules of the CRD for the spec, as far as the configuration depends on them. -/
structure Spec.Admitted (spec : Spec) : Prop where
  bootstrap : spec.bootstrap.Admitted
  isdASes_ne_nil : spec.acceptPolicy.isdASes ≠ []
  isdASes : ∀ ia ∈ spec.acceptPolicy.isdASes, isISDAS ia = true

/-! ### What is read back -/

/-- A text, or a default if it is empty. -/
def orDefault (s default : Str) : Str :=
  if s = [] then default else s

/-- A configuration agrees with a spec and a deny list. -/
structure AgreesWith (spec : Spec) (forbidden : List Str) (cfg : Agent.FullConfig) : Prop where
  mode : cfg.bootstrapMode = spec.bootstrap.mode
  discoveryURL : cfg.discoveryURL = spec.bootstrap.discoveryURL
  dnsDomain : cfg.dnsDomain = spec.bootstrap.dnsDomain
  dhcpInterface : cfg.dhcpInterface = spec.bootstrap.dhcpInterface
  tunName : cfg.tunName = orDefault spec.tunName "scion0".toList
  refreshInterval : Duration.parseDuration
    (orDefault spec.bootstrap.refreshInterval "1h".toList) = .ok cfg.refreshInterval
  podCIDR : cfg.advertisePodCIDR = spec.advertisement.podCIDR.getD true
  nodeIP : cfg.advertiseNodeIP = spec.advertisement.nodeIP.getD false
  isdASes : Agent.split cfg.acceptISDASes = spec.acceptPolicy.isdASes
  forbiddenCIDRs : Agent.split cfg.forbiddenCIDRs = forbidden

namespace Agent

/-- When the configuration can be read, and what it is. -/
theorem fromEnv_eq_ok_iff {env : String → Str} {cfg : FullConfig} :
    fromEnv env = .ok cfg ↔
      (env "SCION_METRICS_TLS_CERT").isEmpty = (env "SCION_METRICS_TLS_KEY").isEmpty ∧
      Duration.parseDuration (getenvOr env "SCION_REFRESH_INTERVAL" "1h".toList) =
        .ok cfg.refreshInterval ∧
      env "NODE_NAME" ≠ [] ∧
      getenvOr env "SCION_BOOTSTRAP_MODE" "url".toList ∈ bootstrapModes ∧
      (getenvOr env "SCION_BOOTSTRAP_MODE" "url".toList = "url".toList →
        env "SCION_DISCOVERY_URL" ≠ []) ∧
      cfg = readConfig env cfg.refreshInterval := by
  have hknown : ∀ mode, ¬ (!bootstrapModes.contains mode) = true ↔ mode ∈ bootstrapModes := by
    simp
  rw [fromEnv]
  constructor
  · intro h
    split_ifs at h with htls
    split at h
    · cases h
    next interval hinterval =>
    dsimp only at h
    split_ifs at h with hnode hmode hurl
    obtain rfl := Except.ok.inj h
    exact ⟨not_not.mp htls, hinterval, hnode, (hknown _).mp hmode, fun hm hu => hurl ⟨hm, hu⟩,
      rfl⟩
  · rintro ⟨htls, hinterval, hnode, hmode, hurl, hcfg⟩
    refine (if_neg (not_not.mpr htls)).trans ?_
    rw [hinterval]
    refine (if_neg hnode).trans ((if_neg ((hknown _).mpr hmode)).trans ?_)
    exact (if_neg fun h => hurl h.1 h.2).trans (congrArg Except.ok hcfg.symm)

/-- A Boolean that was written is read back, whatever the default. -/
theorem parseBool_boolStr (b default : Bool) :
    (if boolStr b = [] then default else (parseBool (boolStr b)).getD default) = b := by
  revert b default
  decide +kernel

end Agent

/-- The value of a variable, looked up in turn. -/
theorem getenv_cons (nodeName : Str) (v : EnvVar) (env : List EnvVar) (name : String) :
    getenv nodeName (v :: env) name =
      if v.name = name then
        match v.source with
        | .value s => s
        | .fieldRef _ => nodeName
      else getenv nodeName env name := by
  by_cases h : v.name = name
  · have hfind : (v :: env).find? (fun v => v.name = name) = some v :=
      List.find?_cons_of_pos (decide_eq_true h)
    rw [getenv, hfind, if_pos h]
    obtain ⟨k, s | p⟩ := v <;> rfl
  · rw [getenv, List.find?_cons_of_neg (by simpa using h), if_neg h, ← getenv]

/-- A variable that is not set. -/
theorem getenv_nil (nodeName : Str) (name : String) : getenv nodeName [] name = [] := by
  rfl

section Rendered

variable (nodeName : Str) (spec : Spec) (forbidden : List Str) (metricsTLS : Bool)

/-- The environment of the agent on a node. -/
def agentEnv : String → Str :=
  getenv nodeName (daemonSetEnv spec forbidden metricsTLS)

/-- The path of a file of the certificate, if there is one. -/
def metricsTLSFile (file : String) : Str :=
  if metricsTLS then metricsTLSDir ++ file.toList else []

/-- What the agent reads from its environment. -/
theorem readConfig_agentEnv (refreshInterval : ℤ) :
    Agent.readConfig (agentEnv nodeName spec forbidden metricsTLS) refreshInterval =
      { nodeName := nodeName
        bootstrapMode := orDefault spec.bootstrap.mode "url".toList
        discoveryURL := spec.bootstrap.discoveryURL
        dnsDomain := spec.bootstrap.dnsDomain
        dhcpInterface := spec.bootstrap.dhcpInterface
        refreshInterval := refreshInterval
        stateDir := "/var/lib/scion-node-agent".toList
        tunName := orDefault spec.tunName "scion0".toList
        advertisePodCIDR := spec.advertisement.podCIDR.getD true
        advertiseNodeIP := spec.advertisement.nodeIP.getD false
        enableDaemonAPI := true
        acceptISDASes := join ',' spec.acceptPolicy.isdASes
        forbiddenCIDRs := join ',' forbidden
        metricsAddr := ":9465".toList
        metricsTLSCert := metricsTLSFile metricsTLS "/tls.crt"
        metricsTLSKey := metricsTLSFile metricsTLS "/tls.key" } := by
  cases metricsTLS <;>
    simp only [Agent.readConfig, Agent.getenvOr, Agent.getenvBool, agentEnv, daemonSetEnv,
      EnvVar.ofValue, getenv_cons, getenv_nil, String.reduceEq, orDefault, metricsTLSFile,
      if_true, if_false, List.cons_append, List.nil_append, Bool.false_eq_true, boolOr, ne_eq,
      not_true_eq_false, ite_not, Agent.parseBool_boolStr]

/-- The refresh interval that the agent reads. -/
theorem getenvOr_refreshInterval (default : Str) :
    Agent.getenvOr (agentEnv nodeName spec forbidden metricsTLS) "SCION_REFRESH_INTERVAL"
      default = orDefault spec.bootstrap.refreshInterval default := by
  cases metricsTLS <;>
    simp only [Agent.getenvOr, agentEnv, daemonSetEnv, EnvVar.ofValue, getenv_cons,
      String.reduceEq, orDefault, if_true, if_false, List.cons_append, Bool.false_eq_true, ne_eq,
      ite_not]

end Rendered

/-- A mode that the CRD admits is not replaced by the default. -/
theorem BootstrapSpec.Admitted.orDefault_mode {b : BootstrapSpec} (h : b.Admitted)
    (default : Str) : orDefault b.mode default = b.mode := by
  have hne : b.mode ≠ [] := fun hnil => by
    have hmode := h.mode
    rw [hnil] at hmode
    revert hmode
    decide +kernel
  rw [orDefault, if_neg hne]

/-- The remotes survive the environment. -/
theorem Spec.Admitted.split_join_isdASes {spec : Spec} (h : spec.Admitted) :
    Agent.split (join ',' spec.acceptPolicy.isdASes) = spec.acceptPolicy.isdASes := by
  refine split_join_of_noSpace fun s hs => ?_
  refine ⟨(chars_of_isISDAS (h.isdASes s hs)).1, noSpace_of_isISDAS (h.isdASes s hs),
    fun hc => ?_⟩
  rcases (chars_of_isISDAS (h.isdASes s hs)).2 _ hc with h | h | h | h <;>
    exact absurd h (by decide)

/-- **The configuration that is read is the one in the spec**, for every spec that the CRD
admits and every deny list of IPv4 CIDRs. -/
theorem agreesWith_of_fromEnv {nodeName : Str} {spec : Spec} {forbidden : List Str}
    {metricsTLS : Bool} {cfg : Agent.FullConfig} (hspec : spec.Admitted)
    (hforbidden : ∀ c ∈ forbidden, ReadsAsIPv4 c)
    (h : Agent.fromEnv (agentEnv nodeName spec forbidden metricsTLS) = .ok cfg) :
    AgreesWith spec forbidden cfg := by
  obtain ⟨-, hinterval, -, -, -, hcfg⟩ := Agent.fromEnv_eq_ok_iff.mp h
  rw [getenvOr_refreshInterval] at hinterval
  rw [readConfig_agentEnv] at hcfg
  rw [hcfg]
  exact
    { mode := hspec.bootstrap.orDefault_mode _
      discoveryURL := rfl
      dnsDomain := rfl
      dhcpInterface := rfl
      tunName := rfl
      refreshInterval := hinterval
      podCIDR := rfl
      nodeIP := rfl
      isdASes := hspec.split_join_isdASes
      forbiddenCIDRs := split_join_of_readsAsIPv4 hforbidden }

/-- The interval of one hour. -/
def oneHour : Duration.Item where
  digits := "1".toList
  unit := "h".toList
  ns := 3600000000000
  digits_ne_nil := by decide
  isDigit_of_mem := List.all_eq_true.mp (by decide +kernel)
  mem_unitMap := by decide +kernel

/-- The CRD admits the sample spec. -/
theorem admitted_sampleSpec : sampleSpec.Admitted where
  bootstrap :=
    { mode := by decide +kernel
      discoveryURL := fun h => absurd h (by decide +kernel)
      refreshInterval := .inr ⟨[oneHour], by simp, by
        rintro i hi
        obtain rfl := List.mem_singleton.mp hi
        decide +kernel, by decide +kernel⟩ }
  isdASes_ne_nil := by decide +kernel
  isdASes := List.all_eq_true.mp (by decide +kernel)

/-- An agent reads the sample spec as it is. -/
theorem agreesWith_sampleSpec :
    ∃ cfg, Agent.fromEnv (agentEnv "node-1".toList sampleSpec ["10.128.0.0/14".toList] true) =
        .ok cfg ∧ AgreesWith sampleSpec ["10.128.0.0/14".toList] cfg := by
  have hsome : (Agent.fromEnv (agentEnv "node-1".toList sampleSpec ["10.128.0.0/14".toList]
      true)).toOption.isSome = true := by decide +kernel
  cases h : Agent.fromEnv (agentEnv "node-1".toList sampleSpec ["10.128.0.0/14".toList] true) with
  | error err =>
      rw [h] at hsome
      cases hsome
  | ok cfg =>
      refine ⟨cfg, rfl, agreesWith_of_fromEnv admitted_sampleSpec (fun c hc => ?_) h⟩
      obtain rfl := List.mem_singleton.mp hc
      exact isIPv4CIDR_iff.mp (by decide +kernel)

/-! ### Starting an agent -/

/-- The intervals with which an agent starts: none, or one whose sum is positive and fits 64
bits. -/
def UsableInterval (s : Str) : Prop :=
  s = [] ∨ ∃ items, MatchesInterval s items ∧ 0 < Duration.total items ∧
    Duration.total items ≤ 2 ^ 63 - 1

/-- On a spec that the CRD admits, only the refresh interval can keep the agent from reading
its configuration. -/
theorem exists_fromEnv_iff {nodeName : Str} (hnode : nodeName ≠ []) {spec : Spec}
    (hspec : spec.bootstrap.Admitted) (forbidden : List Str) (metricsTLS : Bool) {d : ℤ} :
    (∃ cfg, Agent.fromEnv (agentEnv nodeName spec forbidden metricsTLS) = .ok cfg ∧
        cfg.refreshInterval = d) ↔
      Duration.parseDuration (orDefault spec.bootstrap.refreshInterval "1h".toList) = .ok d := by
  have hread := readConfig_agentEnv nodeName spec forbidden metricsTLS d
  have hmode := congrArg Agent.FullConfig.bootstrapMode hread
  have hurl := congrArg Agent.FullConfig.discoveryURL hread
  have hname := congrArg Agent.FullConfig.nodeName hread
  have hcert := congrArg Agent.FullConfig.metricsTLSCert hread
  have hkey := congrArg Agent.FullConfig.metricsTLSKey hread
  simp only [Agent.readConfig, hspec.orDefault_mode] at hmode hurl hname hcert hkey
  constructor
  · rintro ⟨cfg, h, rfl⟩
    have hinterval := (Agent.fromEnv_eq_ok_iff.mp h).2.1
    rwa [getenvOr_refreshInterval] at hinterval
  · intro h
    refine ⟨Agent.readConfig (agentEnv nodeName spec forbidden metricsTLS) d,
      Agent.fromEnv_eq_ok_iff.mpr ⟨?_, ?_, ?_, ?_, ?_, rfl⟩, rfl⟩
    · rw [hcert, hkey]
      cases metricsTLS <;> decide +kernel
    · rw [getenvOr_refreshInterval]
      exact h
    · rw [hname]
      exact hnode
    · rw [hmode]
      exact hspec.mode
    · rw [hmode, hurl]
      exact hspec.discoveryURL

/-- An interval that matches the pattern reads as a positive duration exactly if its sum is
positive and fits 64 bits. -/
theorem exists_parseDuration_pos_iff {s : Str} {items : List Duration.Item}
    (h : MatchesInterval s items) (default : Str) :
    (∃ d, Duration.parseDuration (orDefault s default) = .ok d ∧ 0 < d) ↔
      0 < Duration.total items ∧ Duration.total items ≤ 2 ^ 63 - 1 := by
  obtain ⟨hne, -, rfl⟩ := h
  obtain ⟨d, c, t, htext, -⟩ := Duration.exists_text_eq_cons hne
  have hdefault : orDefault (Duration.text items) default = Duration.text items := by
    rw [orDefault, if_neg (by rw [htext]; exact List.cons_ne_nil _ _)]
  rw [hdefault, Duration.parseDuration_text hne]
  constructor
  · rintro ⟨d, hd, hpos⟩
    split_ifs at hd with hbig
    obtain rfl := Except.ok.inj hd
    exact ⟨by exact_mod_cast hpos, not_lt.mp hbig⟩
  · rintro ⟨hpos, hle⟩
    exact ⟨_, if_neg (not_lt.mpr hle), by exact_mod_cast hpos⟩

/-- **When an agent starts.** For every bootstrap spec that the CRD admits, the agent reads its
configuration and can start the ticker exactly if the refresh interval is usable. -/
theorem startsTicker_iff {nodeName : Str} (hnode : nodeName ≠ []) {spec : Spec}
    (hspec : spec.bootstrap.Admitted) (forbidden : List Str) (metricsTLS : Bool) :
    (∃ cfg, Agent.fromEnv (agentEnv nodeName spec forbidden metricsTLS) = .ok cfg ∧
        0 < cfg.refreshInterval) ↔
      UsableInterval spec.bootstrap.refreshInterval := by
  have hstarts : (∃ cfg, Agent.fromEnv (agentEnv nodeName spec forbidden metricsTLS) = .ok cfg ∧
      0 < cfg.refreshInterval) ↔ ∃ d, Duration.parseDuration
        (orDefault spec.bootstrap.refreshInterval "1h".toList) = .ok d ∧ 0 < d := by
    simp only [← exists_fromEnv_iff hnode hspec forbidden metricsTLS]
    constructor
    · rintro ⟨cfg, h, hpos⟩
      exact ⟨_, ⟨cfg, h, rfl⟩, hpos⟩
    · rintro ⟨d, ⟨cfg, h, rfl⟩, hpos⟩
      exact ⟨cfg, h, hpos⟩
  rw [hstarts]
  constructor
  · intro h
    rcases hspec.refreshInterval with hnil | ⟨items, hitems⟩
    · exact .inl hnil
    · exact .inr ⟨items, hitems, (exists_parseDuration_pos_iff hitems _).mp h⟩
  · rintro (hnil | ⟨items, hitems, htotal⟩)
    · rw [hnil]
      exact ⟨3600000000000, by decide +kernel, by decide⟩
    · exact (exists_parseDuration_pos_iff hitems _).mpr htotal

/-- With the interval of the sample spec the agent starts. -/
theorem startsTicker_sampleSpec :
    ∃ cfg, Agent.fromEnv (agentEnv "node-1".toList sampleSpec ["10.128.0.0/14".toList] true) =
        .ok cfg ∧ 0 < cfg.refreshInterval := by
  refine (startsTicker_iff (by decide +kernel) admitted_sampleSpec.bootstrap _ _).mpr
    (.inr ⟨[oneHour], ⟨by simp, fun i hi => ?_, by decide +kernel⟩, by decide +kernel,
      by decide +kernel⟩)
  obtain rfl := List.mem_singleton.mp hi
  decide +kernel

/-- The sample spec with another interval. -/
def specWithInterval (interval : Str) : Spec :=
  { sampleSpec with bootstrap := { sampleSpec.bootstrap with refreshInterval := interval } }

/-- The interval of no seconds. -/
def zeroSeconds : Duration.Item where
  digits := "0".toList
  unit := "s".toList
  ns := 1000000000
  digits_ne_nil := by decide
  isDigit_of_mem := List.all_eq_true.mp (by decide +kernel)
  mem_unitMap := by decide +kernel

/-- The interval of a million years. -/
def manyHours : Duration.Item where
  digits := "8760000000".toList
  unit := "h".toList
  ns := 3600000000000
  digits_ne_nil := by decide +kernel
  isDigit_of_mem := List.all_eq_true.mp (by decide +kernel)
  mem_unitMap := by decide +kernel

/-- The CRD admits an interval of one item. -/
theorem admitted_specWithInterval {i : Duration.Item} (hunit : i.unit ∈ intervalUnits) :
    (specWithInterval i.text).bootstrap.Admitted where
  mode := admitted_sampleSpec.bootstrap.mode
  discoveryURL := admitted_sampleSpec.bootstrap.discoveryURL
  refreshInterval := .inr ⟨[i], by simp, fun j hj => by
    obtain rfl := List.mem_singleton.mp hj
    exact hunit, by simp [Duration.text, specWithInterval]⟩

/-- **Intervals with which no agent starts.** The CRD admits `0s`, which is read as an interval
of zero, and `8760000000h`, which cannot be read. -/
theorem unusable_intervals_admitted :
    (specWithInterval "0s".toList).bootstrap.Admitted ∧
    (Agent.fromEnv (agentEnv "node-1".toList (specWithInterval "0s".toList) [] true)).map
      Agent.FullConfig.refreshInterval = .ok 0 ∧
    (specWithInterval "8760000000h".toList).bootstrap.Admitted ∧
    (Agent.fromEnv (agentEnv "node-1".toList (specWithInterval "8760000000h".toList) [] true)).map
      Agent.FullConfig.refreshInterval = .error (.refreshInterval .invalidDuration) :=
  ⟨admitted_specWithInterval (i := zeroSeconds) (by decide +kernel), by decide +kernel,
    admitted_specWithInterval (i := manyHours) (by decide +kernel), by decide +kernel⟩

end ScionOperator
