import ScionOperator.Agent

/-!
# Endpoints of a Node

The operator registers a gateway for every selected node, at the node's first internal
address and the two gateway ports (`nodesToSIGs`). The agent on the node reads the same
address (`GetNodeInfo`) and binds the gateway to it (`addrs`). Both look at the same entry
of the address list, so a gateway is registered exactly where an agent runs; but the
operator prints address and port with a colon between them, which is no host and port if
the address is an IPv6 address.

## Main results

* `exists_nodesToSIGs_iff`: a gateway is registered exactly when the agent knows its node.
* `registeredAsBound_iff`: when the registered endpoint is the one the agent binds.
* `nodesToSIGs_partition`: **the gateways and the skipped names are the selected nodes**, each
  one once, in an order that does not depend on that of the nodes.
-/

namespace ScionOperator

open Text Json Netip

/-! ### The operator's side -/

/-- A gateway as the operator knows it: the node's name and the two addresses. -/
structure NodeSIG where
  name : Str
  ctrlAddr : Str
  dataAddr : Str
  deriving DecidableEq

/-- The port of the gateway's control endpoint. -/
def sigCtrlPort : ℕ :=
  30256

/-- The port of the gateway's data endpoint. -/
def sigDataPort : ℕ :=
  30056

/-- Whether a selector selects an object with these labels; an empty one selects all. -/
def selects (selector labels : GoMap Str) : Bool :=
  selector.toList.all fun e => labels[e.1]? = some e.2

/-- The first internal address of a node, empty if there is none. -/
def internalIP (n : Node) : Str :=
  match n.addresses.find? fun a => a.type = .internalIP with
  | some a => a.address
  | none => []

/-- Address and port with a colon between them. -/
def hostPort (ip : Str) (port : ℕ) : Str :=
  ip ++ ':' :: itoa port

/-- The gateway of a node that has an internal address. -/
def nodeSIG (n : Node) : Option NodeSIG :=
  if internalIP n = [] then none
  else some ⟨n.name, hostPort (internalIP n) sigCtrlPort, hostPort (internalIP n) sigDataPort⟩

/-- The gateways of the selected nodes, by name, and the names of those without an internal
address. -/
def nodesToSIGs (nodes : List Node) (selector : GoMap Str) : List NodeSIG × List Str :=
  let selected := nodes.filter fun n => selects selector n.labels
  ((selected.filterMap nodeSIG).insertionSort (fun a b => a.name ≤ b.name),
    sortStrings ((selected.filter fun n => internalIP n = []).map Node.name))

/-! ### The agent's side -/

namespace Agent

/-- A list of strings; `null` is the empty one. -/
def decodeStrings : Value → Option (List Str)
  | .null => some []
  | .arr vs => vs.mapM fun v => decodeString v []
  | _ => none

/-- The key of the annotation with the node's subnets. -/
def nodeSubnetsKey : Str :=
  "k8s.ovn.org/node-subnets".toList

/-- The pod subnets in the annotation of OVN-Kubernetes: the `default` network, a list or a
single string. -/
def ovnSubnets (raw : Str) : List Str :=
  match (unmarshal raw).bind fun v => decodeRawMap v none with
  | some networks =>
      match (networks.getD ∅)["default".toList]? with
      | none => []
      | some v =>
          match decodeStrings v, v with
          | some list, _ => list
          | none, .str s => if s = [] then [] else [s]
          | none, _ => []
  | none => []

/-- The pod subnets of a node. -/
def podCIDRs (n : Node) : List Str :=
  if n.podCIDRs ≠ [] then n.podCIDRs
  else if n.podCIDR ≠ [] then [n.podCIDR]
  else ovnSubnets (n.annotations[nodeSubnetsKey]?.getD [])

/-- What the agent reads of its node; without an internal address this is an error. -/
def getNodeInfo (n : Node) : Option NodeInfo :=
  if internalIP n = [] then none else some ⟨podCIDRs n, internalIP n⟩

/-- The port the gateway's control endpoint is bound to. -/
def ctrlPort : ℕ :=
  30256

/-- The port the gateway's data endpoint is bound to. -/
def dataPort : ℕ :=
  30056

/-- The port the gateway's probe endpoint is bound to. -/
def probePort : ℕ :=
  30856

/-- A UDP address. -/
structure UDPAddr where
  ip : BitVec 128
  port : ℕ
  deriving DecidableEq

/-- The endpoints the gateway binds. -/
structure Addrs where
  ctrl : UDPAddr
  data : UDPAddr
  probe : UDPAddr

/-- The endpoints the gateway binds at a node's address. -/
def addrs (nodeIP : BitVec 128) : Addrs where
  ctrl := ⟨nodeIP, ctrlPort⟩
  data := ⟨nodeIP, dataPort⟩
  probe := ⟨nodeIP, probePort⟩

end Agent

/-! ### Registered and bound endpoints -/

/-- The registered gateways are those of the selected nodes that have one. -/
theorem mem_nodesToSIGs {nodes : List Node} {selector : GoMap Str} {s : NodeSIG} :
    s ∈ (nodesToSIGs nodes selector).1 ↔
      ∃ n ∈ nodes, selects selector n.labels = true ∧ nodeSIG n = some s := by
  rw [nodesToSIGs, (List.perm_insertionSort _ _).mem_iff, List.mem_filterMap]
  simp only [List.mem_filter, and_assoc]

/-- A gateway carries the name of its node. -/
theorem name_of_nodeSIG {n : Node} {s : NodeSIG} (h : nodeSIG n = some s) : s.name = n.name := by
  rw [nodeSIG] at h
  split_ifs at h
  obtain rfl := Option.some.inj h
  rfl

/-- Under distinct names, the gateway registered under a selected node's name is its own. -/
theorem mem_nodesToSIGs_name {nodes : List Node} (hdistinct : (nodes.map Node.name).Nodup)
    {selector : GoMap Str} {n : Node} (hn : n ∈ nodes) (hsel : selects selector n.labels = true)
    {s : NodeSIG} :
    s ∈ (nodesToSIGs nodes selector).1 ∧ s.name = n.name ↔ nodeSIG n = some s := by
  rw [mem_nodesToSIGs]
  constructor
  · rintro ⟨⟨m, hm, -, hs⟩, hname⟩
    obtain rfl : m = n :=
      List.inj_on_of_nodup_map hdistinct hm hn ((name_of_nodeSIG hs).symm.trans hname)
    exact hs
  · intro hs
    exact ⟨⟨n, hn, hsel, hs⟩, name_of_nodeSIG hs⟩

/-- A text splits into the address and the port of an endpoint. -/
def SplitsTo (text : Str) (addr : Agent.UDPAddr) : Prop :=
  ∃ host port, splitHostPort text = some (host, port) ∧ parseIP host = some addr.ip ∧
    atoi port = some addr.port

/-- A printed endpoint splits into the address and the port exactly when the address
contains no colon. -/
theorem splitsTo_hostPort_iff {ip : Str} {a : BitVec 128} (h : parseIP ip = some a) (port : ℕ) :
    SplitsTo (hostPort ip port) ⟨a, port⟩ ↔ ':' ∉ ip := by
  have hsplit : splitHostPort (ip ++ ':' :: itoa port) =
      if ':' ∈ ip then none else some (ip, itoa port) :=
    splitHostPort_append (not_mem_of_parseIP h (by decide)) (not_mem_of_parseIP h (by decide))
      fun c hc => isDigit_of_mem_itoa hc
  rw [SplitsTo, hostPort, hsplit]
  by_cases hc : ':' ∈ ip
  · simp [hc]
  · simp [hc, h]

/-- What is registered for a node is what its agent binds: a gateway is registered exactly
when the agent knows its node, and its addresses split into those the agent binds. -/
def RegisteredAsBound (nodes : List Node) (selector : GoMap Str) (n : Node) : Prop :=
  ((∃ s ∈ (nodesToSIGs nodes selector).1, s.name = n.name) ↔
      ∃ info, Agent.getNodeInfo n = some info) ∧
    ∀ s ∈ (nodesToSIGs nodes selector).1, s.name = n.name →
      ∀ info, Agent.getNodeInfo n = some info → ∀ ip, parseIP info.internalIP = some ip →
        SplitsTo s.ctrlAddr (Agent.addrs ip).ctrl ∧ SplitsTo s.dataAddr (Agent.addrs ip).data

/-- A gateway is registered exactly when the agent knows its node. -/
theorem exists_nodesToSIGs_iff {nodes : List Node}
    (hdistinct : (nodes.map Node.name).Nodup) {selector : GoMap Str} {n : Node}
    (hn : n ∈ nodes) (hsel : selects selector n.labels = true) :
    (∃ s ∈ (nodesToSIGs nodes selector).1, s.name = n.name) ↔
      ∃ info, Agent.getNodeInfo n = some info := by
  simp only [mem_nodesToSIGs_name hdistinct hn hsel, nodeSIG, Agent.getNodeInfo]
  split_ifs <;> simp

/-- **Registered and bound endpoints.** For a node the operator selects, what is registered
is what its agent binds exactly when its first internal address is not a valid address that
contains a colon. -/
theorem registeredAsBound_iff (nodes : List Node) (hdistinct : (nodes.map Node.name).Nodup)
    (selector : GoMap Str) (n : Node) (hn : n ∈ nodes) (hsel : selects selector n.labels = true) :
    RegisteredAsBound nodes selector n ↔
      ¬ ((parseIP (internalIP n)).isSome = true ∧ ':' ∈ internalIP n) := by
  rw [RegisteredAsBound, and_iff_right (exists_nodesToSIGs_iff hdistinct hn hsel)]
  constructor
  · rintro h ⟨hvalid, hcolon⟩
    obtain ⟨ip, hip⟩ := Option.isSome_iff_exists.mp hvalid
    have hne : internalIP n ≠ [] := List.ne_nil_of_mem hcolon
    have hsig : nodeSIG n = some _ := if_neg hne
    obtain ⟨hmem, hname⟩ := (mem_nodesToSIGs_name hdistinct hn hsel).mpr hsig
    have hctrl := (h _ hmem hname _ (if_neg hne) ip hip).1
    exact (splitsTo_hostPort_iff hip sigCtrlPort).mp hctrl hcolon
  · intro h s hs hname info hinfo ip hip
    have hsig := (mem_nodesToSIGs_name hdistinct hn hsel).mp ⟨hs, hname⟩
    rw [nodeSIG] at hsig
    rw [Agent.getNodeInfo] at hinfo
    split_ifs at hsig hinfo
    obtain rfl := Option.some.inj hsig
    obtain rfl := Option.some.inj hinfo
    have hcolon : ':' ∉ internalIP n := fun hc => h ⟨by rw [hip]; rfl, hc⟩
    exact ⟨(splitsTo_hostPort_iff hip _).mpr hcolon, (splitsTo_hostPort_iff hip _).mpr hcolon⟩

/-- A node with one internal address. -/
def nodeAt (ip : Str) : Node :=
  ⟨"n1".toList, ∅, ∅, [], [], [⟨.internalIP, ip⟩], by simp⟩

/-- A node with an IPv4 address is registered where its agent binds. -/
theorem registeredAsBound_of_ipv4 :
    RegisteredAsBound [nodeAt "192.0.2.1".toList] ∅ (nodeAt "192.0.2.1".toList) :=
  (registeredAsBound_iff [nodeAt "192.0.2.1".toList] (List.nodup_singleton _) ∅
    (nodeAt "192.0.2.1".toList) List.mem_cons_self (by decide +kernel)).mpr (by decide +kernel)

/-- A node with an IPv6 address is registered at a text that is no host and port. -/
theorem not_registeredAsBound_of_ipv6 :
    (parseIP "fd00::1".toList).isSome = true ∧
    (nodesToSIGs [nodeAt "fd00::1".toList] ∅).1 =
      [⟨"n1".toList, "fd00::1:30256".toList, "fd00::1:30056".toList⟩] ∧
    splitHostPort "fd00::1:30256".toList = none ∧
    ¬ RegisteredAsBound [nodeAt "fd00::1".toList] ∅ (nodeAt "fd00::1".toList) := by
  have hsigs : (nodesToSIGs [nodeAt "fd00::1".toList] ∅).1 =
      [⟨"n1".toList, "fd00::1:30256".toList, "fd00::1:30056".toList⟩] := by decide +kernel
  have hsplit : splitHostPort "fd00::1:30256".toList = none := by decide +kernel
  have hvalid : (parseIP "fd00::1".toList).isSome = true := by decide +kernel
  refine ⟨hvalid, hsigs, hsplit, fun h => ?_⟩
  obtain ⟨ip, hip⟩ := Option.isSome_iff_exists.mp hvalid
  have hinfo : Agent.getNodeInfo (nodeAt "fd00::1".toList) = some ⟨[], "fd00::1".toList⟩ := by
    decide +kernel
  obtain ⟨⟨host, port, hnone, -⟩, -⟩ :=
    h.2 _ (by rw [hsigs]; exact List.mem_cons_self) rfl _ hinfo ip hip
  rw [hsplit] at hnone
  cases hnone

/-! ### The selected nodes -/

/-- The labels have every pair of a selector. -/
def HasLabels (selector labels : GoMap Str) : Prop :=
  ∀ k v : Str, selector[k]? = some v → labels[k]? = some v

/-- A node without an internal address, or whose first one is empty. -/
def NoInternalIP (n : Node) : Prop :=
  ∀ a, (n.addresses.find? fun a => a.type = .internalIP) = some a → a.address = []

/-- Gateways and skipped names are those of the selected nodes, each one once. -/
structure PartitionsSelected (nodes : List Node) (selector : GoMap Str) (sigs : List NodeSIG)
    (skipped : List Str) : Prop where
  disjoint : ∀ s ∈ sigs, s.name ∉ skipped
  union : ∀ name, name ∈ sigs.map NodeSIG.name ∨ name ∈ skipped ↔
    ∃ n ∈ nodes, n.name = name ∧ HasLabels selector n.labels
  once : (sigs.map NodeSIG.name).Nodup ∧ skipped.Nodup
  skipped_iff : ∀ n ∈ nodes, n.name ∈ skipped ↔ HasLabels selector n.labels ∧ NoInternalIP n
  sorted : sigs.Pairwise (fun a b => a.name ≤ b.name) ∧ skipped.Pairwise (· ≤ ·)

/-- A selector selects what has its labels. -/
theorem selects_iff {selector labels : GoMap Str} :
    selects selector labels = true ↔ HasLabels selector labels := by
  simp only [selects, List.all_eq_true, decide_eq_true_eq, Prod.forall,
    Std.ExtTreeMap.mem_toList_iff_getElem?_eq_some, HasLabels]

/-- The address of a node is empty if there is no other one. -/
theorem internalIP_eq_nil_iff {n : Node} : internalIP n = [] ↔ NoInternalIP n := by
  rw [internalIP, NoInternalIP]
  cases n.addresses.find? fun a => a.type = .internalIP with
  | none => simp
  | some a => simp

/-- The names of the gateways are those of the nodes with an address. -/
theorem map_name_filterMap_nodeSIG (l : List Node) :
    (l.filterMap nodeSIG).map NodeSIG.name =
      (l.filter fun n => internalIP n ≠ []).map Node.name := by
  induction l with
  | nil => rfl
  | cons n l ih =>
      by_cases h : internalIP n = []
      · simp [nodeSIG, h, ih]
      · simp [nodeSIG, h, ih]

section Partition

variable {nodes : List Node} {selector : GoMap Str} {name : Str}

/-- The names of the gateways, up to their order. -/
theorem map_name_perm (nodes : List Node) (selector : GoMap Str) :
    ((nodesToSIGs nodes selector).1.map NodeSIG.name).Perm
      (((nodes.filter fun n => selects selector n.labels).filter
        fun n => internalIP n ≠ []).map Node.name) := by
  rw [← map_name_filterMap_nodeSIG]
  exact (List.perm_insertionSort _ _).map _

/-- Who has a gateway. -/
theorem mem_map_name_iff :
    name ∈ (nodesToSIGs nodes selector).1.map NodeSIG.name ↔
      ∃ n ∈ nodes, n.name = name ∧ HasLabels selector n.labels ∧ ¬ NoInternalIP n := by
  rw [(map_name_perm nodes selector).mem_iff]
  simp only [List.mem_map, List.mem_filter, decide_eq_true_eq, ne_eq, selects_iff,
    internalIP_eq_nil_iff]
  exact exists_congr fun n => by tauto

/-- Who is skipped. -/
theorem mem_skipped_iff :
    name ∈ (nodesToSIGs nodes selector).2 ↔
      ∃ n ∈ nodes, n.name = name ∧ HasLabels selector n.labels ∧ NoInternalIP n := by
  simp only [nodesToSIGs, mem_sortStrings, List.mem_map, List.mem_filter, decide_eq_true_eq,
    selects_iff, internalIP_eq_nil_iff]
  exact exists_congr fun n => by tauto

/-- The selected nodes are partitioned. -/
theorem partitionsSelected_nodesToSIGs (selector : GoMap Str)
    (hdistinct : (nodes.map Node.name).Nodup) :
    PartitionsSelected nodes selector (nodesToSIGs nodes selector).1
      (nodesToSIGs nodes selector).2 where
  disjoint := by
    intro s hs hskipped
    obtain ⟨n, hn, hname, -, hip⟩ := mem_map_name_iff.mp (List.mem_map_of_mem hs)
    obtain ⟨m, hm, hname', -, hno⟩ := mem_skipped_iff.mp hskipped
    obtain rfl := List.inj_on_of_nodup_map hdistinct hm hn (hname'.trans hname.symm)
    exact hip hno
  union := by
    intro name
    rw [mem_map_name_iff, mem_skipped_iff]
    constructor
    · rintro (⟨n, hn, hname, hlabels, -⟩ | ⟨n, hn, hname, hlabels, -⟩)
      · exact ⟨n, hn, hname, hlabels⟩
      · exact ⟨n, hn, hname, hlabels⟩
    · rintro ⟨n, hn, hname, hlabels⟩
      by_cases hip : NoInternalIP n
      · exact .inr ⟨n, hn, hname, hlabels, hip⟩
      · exact .inl ⟨n, hn, hname, hlabels, hip⟩
  once := by
    have hselected := hdistinct.sublist
      ((List.filter_sublist (p := fun n => selects selector n.labels)).map Node.name)
    refine ⟨(map_name_perm nodes selector).nodup_iff.mpr ?_, nodup_sortStrings ?_⟩
    · exact hselected.sublist (List.filter_sublist.map Node.name)
    · exact hselected.sublist (List.filter_sublist.map Node.name)
  skipped_iff := by
    intro n hn
    rw [mem_skipped_iff]
    constructor
    · rintro ⟨m, hm, hname, hlabels, hip⟩
      obtain rfl := List.inj_on_of_nodup_map hdistinct hm hn hname
      exact ⟨hlabels, hip⟩
    · exact fun ⟨hlabels, hip⟩ => ⟨n, hn, rfl, hlabels, hip⟩
  sorted := ⟨List.pairwise_insertionSort _ _, pairwise_sortStrings _⟩

/-- The result does not depend on the order of the nodes. -/
theorem nodesToSIGs_eq_of_perm (hdistinct : (nodes.map Node.name).Nodup) {nodes' : List Node}
    (hperm : nodes.Perm nodes') : nodesToSIGs nodes' selector = nodesToSIGs nodes selector := by
  have hdistinct' : (nodes'.map Node.name).Nodup := (hperm.map Node.name).nodup_iff.mp hdistinct
  have h := partitionsSelected_nodesToSIGs selector hdistinct
  have h' := partitionsSelected_nodesToSIGs selector hdistinct'
  have hselected := (hperm.filter fun n => selects selector n.labels).symm
  have hsigs : (nodesToSIGs nodes' selector).1.Perm (nodesToSIGs nodes selector).1 :=
    ((List.perm_insertionSort _ _).trans (hselected.filterMap nodeSIG)).trans
      (List.perm_insertionSort _ _).symm
  refine Prod.ext ?_ (sortStrings_eq_of_perm ((hselected.filter _).map Node.name))
  refine hsigs.eq_of_pairwise ?_ h'.sorted.1 h.sorted.1
  -- gateways of one name are one gateway
  intro s t hs ht hst hts
  exact List.inj_on_of_nodup_map h.once.1 (hsigs.mem_iff.mp hs) ht (le_antisymm hst hts)

end Partition

/-- **The partition of the selected nodes.** For nodes of distinct names and every selector, the
gateways and the skipped names are the selected nodes, each one once and in the order of names;
and any order of the nodes gives the same result. -/
theorem nodesToSIGs_partition (nodes : List Node) (selector : GoMap Str)
    (hdistinct : (nodes.map Node.name).Nodup) :
    PartitionsSelected nodes selector (nodesToSIGs nodes selector).1
        (nodesToSIGs nodes selector).2 ∧
      ∀ nodes', nodes.Perm nodes' → nodesToSIGs nodes' selector = nodesToSIGs nodes selector :=
  ⟨partitionsSelected_nodesToSIGs selector hdistinct,
    fun _ hperm => nodesToSIGs_eq_of_perm hdistinct hperm⟩

/-- A node without an address is skipped, wherever it stands. -/
theorem nodesToSIGs_partition_of_two :
    nodesToSIGs [nodeAt "192.0.2.1".toList, { nodeAt [] with name := "n0".toList }] ∅ =
        ([⟨"n1".toList, "192.0.2.1:30256".toList, "192.0.2.1:30056".toList⟩], ["n0".toList]) ∧
      nodesToSIGs [{ nodeAt [] with name := "n0".toList }, nodeAt "192.0.2.1".toList] ∅ =
        nodesToSIGs [nodeAt "192.0.2.1".toList, { nodeAt [] with name := "n0".toList }] ∅ := by
  refine ⟨by decide +kernel, ?_⟩
  exact (nodesToSIGs_partition [nodeAt "192.0.2.1".toList,
    { nodeAt [] with name := "n0".toList }] ∅ (by decide +kernel)).2 _ (List.Perm.swap _ _ _)

end ScionOperator
