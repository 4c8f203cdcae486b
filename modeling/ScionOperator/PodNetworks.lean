import ScionOperator.NodeEndpoint

/-!
# The Pod Networks of the Operator and the Agent

The operator denies what it finds out about the pod networks of the cluster
(`clusterForbiddenCIDRs`), and the agent on a node announces what it finds out about the pod
CIDRs of its node (`nodeInfo`). They look at different objects: the operator reads the Calico
pools, the agent the Calico blocks; the operator reads the OpenShift network configuration, the
agent the annotation of OVN-Kubernetes.

Both are compared on one state of the cluster, of which each reads a part. What the agent takes
from the node, from Calico or from Cilium is denied. What it takes from the annotation is
denied if there is an OpenShift network configuration; on other clusters that run
OVN-Kubernetes nothing says so, and the operator does not read the annotation
(`ovn_pod_not_denied`).

## Main results

* `podCIDRs_nodeInfo`: the precedence of the sources of the agent.
* `podNetworkDenied_iff`: **the pod network of a node is denied exactly if it is not known from
  the annotation only, or if what the annotation says is declared elsewhere too.**
-/

namespace ScionOperator

open Text Json Netip

/-! ### The state of a cluster -/

/-- The objects of a cluster; an API that is not served has none. -/
structure ClusterState where
  network : Option NetworkConfig
  nodes : List Node
  serviceCIDRs : Option (List (List Str))
  ipPools : Option (List Value)
  blockAffinities : Option (List Value)
  ciliumNodes : Option (List CiliumNode)

/-- What reading objects gives: the objects, or an error that says that there are none. -/
def IsRead {α : Type} (objects : Option α) (r : Except ApiError α) : Prop :=
  match objects with
  | some a => r = .ok a
  | none => r = .error .notFound ∨ r = .error .noMatch

/-- What the operator reads of a cluster if every source is readable. -/
structure ClusterState.ReadBy (state : ClusterState) (cluster : Cluster) : Prop where
  network : IsRead state.network cluster.network
  nodes : cluster.nodes = .ok state.nodes
  serviceCIDRs : IsRead state.serviceCIDRs cluster.serviceCIDRs
  ipPools : IsRead state.ipPools cluster.ipPools
  ciliumNodes : IsRead state.ciliumNodes cluster.ciliumNodes

/-- What was read are the objects. -/
theorem IsRead.eq_ok {α : Type} {objects : Option α} {r : Except ApiError α}
    (h : IsRead objects r) {a : α} : r = .ok a ↔ objects = some a := by
  cases objects with
  | some b =>
      obtain rfl : r = .ok b := h
      simp
  | none => rcases h with rfl | rfl <;> simp

/-! ### The agent -/

namespace Agent

/-- What the API calls of the agent return. -/
structure NodeApi where
  node : Except ApiError Node
  blockAffinities : Except ApiError (List Value)
  ciliumNodes : Except ApiError (List CiliumNode)

/-- The errors of `nodeInfo`. -/
inductive NodeInfoError
  | nodeIPRequired (ip : Str)
  | getNode (err : ApiError)
  | noInternalIP
  | listBlockAffinities (err : ApiError)
  | listCiliumNodes (err : ApiError)
  deriving DecidableEq

/-- The CIDR of a block that is affine to a node, if it is confirmed and not deleted. -/
def blockCIDR (node : Str) (item : Value) : Option Str :=
  if nestedString item ["spec".toList, "node".toList] ≠ node then none
  else if nestedString item ["spec".toList, "state".toList] ≠ "confirmed".toList then none
  else if nestedString item ["spec".toList, "deleted".toList] = "true".toList then none
  else
    let cidr := nestedString item ["spec".toList, "cidr".toList]
    if cidr ≠ [] then some cidr else none

/-- The blocks of a node. -/
def calicoPodCIDRs (node : Str) (items : List Value) : List Str :=
  items.filterMap (blockCIDR node)

/-- The pod CIDRs in the first CiliumNode with the name of the node. -/
def ciliumPodCIDRs (node : Str) (items : List CiliumNode) : List Str :=
  match items.find? fun item =>
      nestedString item.object ["metadata".toList, "name".toList] = node with
  | some item => nestedStringSlice item.object ciliumPodCIDRsPath
  | none => []

/-- The node info with the pod CIDRs of a CNI, if it has any. -/
def NodeInfo.withPodCIDRs (info : NodeInfo) (cidrs : List Str) : NodeInfo :=
  if cidrs ≠ [] then { info with podCIDRs := cidrs } else info

/-- The pod CIDRs of a CNI go before those of the node. -/
theorem podCIDRs_withPodCIDRs (info : NodeInfo) (cidrs : List Str) :
    (info.withPodCIDRs cidrs).podCIDRs = if cidrs ≠ [] then cidrs else info.podCIDRs := by
  rw [NodeInfo.withPodCIDRs]
  split_ifs <;> rfl

/-- The pod CIDRs and the address of this node, and whether the CIDRs may change. Prefixes
that are given in the environment are taken without asking the API; those that Calico or
Cilium allocated are preferred to those of the node. -/
def nodeInfo (localPrefixes nodeIP nodeName : Str) (api : NodeApi) :
    Except NodeInfoError (NodeInfo × Bool) :=
  if localPrefixes ≠ [] then
    if (parseIP nodeIP).isNone then .error (.nodeIPRequired nodeIP)
    else .ok (⟨split localPrefixes, nodeIP⟩, false)
  else
    match api.node with
    | .error err => .error (.getNode err)
    | .ok node =>
        match getNodeInfo node with
        | none => .error .noInternalIP
        | some info =>
            match api.blockAffinities with
            | .ok items => .ok (info.withPodCIDRs (calicoPodCIDRs nodeName items), true)
            | .error .notFound =>
                match api.ciliumNodes with
                | .ok items => .ok (info.withPodCIDRs (ciliumPodCIDRs nodeName items), true)
                | .error .notFound => .ok (info, false)
                | .error err => .error (.listCiliumNodes err)
            | .error err => .error (.listBlockAffinities err)

end Agent

/-- Objects that can be read, or the error that there are none. -/
def readOr {α : Type} (objects : Option α) : Except ApiError α :=
  match objects with
  | some a => .ok a
  | none => .error .notFound

/-- What the agent on a node reads of a cluster. -/
def ClusterState.nodeApi (state : ClusterState) (node : Node) : Agent.NodeApi where
  node := .ok node
  blockAffinities := readOr state.blockAffinities
  ciliumNodes := readOr state.ciliumNodes

/-- The pod CIDRs that a CNI has allocated to a node. -/
def ClusterState.cniCIDRs (state : ClusterState) (node : Str) : List Str :=
  match state.blockAffinities, state.ciliumNodes with
  | some items, _ => Agent.calicoPodCIDRs node items
  | none, some items => Agent.ciliumPodCIDRs node items
  | none, none => []

/-- The subnets in the annotation of a node. -/
def annotatedCIDRs (node : Node) : List Str :=
  Agent.ovnSubnets (node.annotations[Agent.nodeSubnetsKey]?.getD [])

/-- **The precedence of the sources**: what a CNI has allocated, else what the node says, else
the annotation. -/
theorem podCIDRs_nodeInfo {state : ClusterState} {node : Node} {nodeIP : Str}
    {info : Agent.NodeInfo} {dynamic : Bool}
    (h : Agent.nodeInfo [] nodeIP node.name (state.nodeApi node) = .ok (info, dynamic)) :
    info.podCIDRs =
      if state.cniCIDRs node.name ≠ [] then state.cniCIDRs node.name
      else if node.cidrs ≠ [] then node.cidrs
      else annotatedCIDRs node := by
  have hnode : Agent.podCIDRs node =
      if node.cidrs ≠ [] then node.cidrs else annotatedCIDRs node := by
    rw [Agent.podCIDRs, Node.cidrs, annotatedCIDRs]
    by_cases h₁ : node.podCIDRs = [] <;> by_cases h₂ : node.podCIDR = [] <;> simp [h₁, h₂]
  rw [← hnode]
  simp only [Agent.nodeInfo, ne_eq, not_true_eq_false, if_false, ClusterState.nodeApi,
    Agent.getNodeInfo] at h
  split_ifs at h with hip
  rw [ClusterState.cniCIDRs]
  cases hblocks : state.blockAffinities with
  | some items =>
      rw [hblocks] at h
      obtain ⟨rfl, -⟩ := Prod.mk.inj (Except.ok.inj h)
      exact Agent.podCIDRs_withPodCIDRs _ _
  | none =>
  cases hcilium : state.ciliumNodes with
  | some items =>
      rw [hblocks, hcilium] at h
      obtain ⟨rfl, -⟩ := Prod.mk.inj (Except.ok.inj h)
      exact Agent.podCIDRs_withPodCIDRs _ _
  | none =>
      rw [hblocks, hcilium] at h
      obtain ⟨rfl, -⟩ := Prod.mk.inj (Except.ok.inj h)
      rfl

/-! ### What is denied -/

/-- Every IPv4 pod CIDR of a node is covered by a deny list. -/
def PodNetworkDenied (info : Agent.NodeInfo) (forbidden : List Str) : Prop :=
  ∀ cidr ∈ info.podCIDRs, ReadsAsIPv4 cidr → ∀ x, InCIDR x cidr → ∃ c ∈ forbidden, InCIDR x c

/-- Calico allocates blocks from pools that are enabled. -/
def BlocksInPools (state : ClusterState) : Prop :=
  ∀ items, state.blockAffinities = some items → ∀ item ∈ items,
    nestedString item ["spec".toList, "state".toList] = "confirmed".toList →
    ∀ x, InCIDR x (nestedString item ["spec".toList, "cidr".toList]) →
    ∃ pools, state.ipPools = some pools ∧ ∃ pool ∈ pools,
      nestedField pool poolDisabledPath ≠ some (.bool true) ∧
        ∃ c, nestedField pool poolCIDRPath = some (.str c) ∧ InCIDR x c

/-- On OpenShift, OVN-Kubernetes allocates subnets from the cluster networks. -/
def SubnetsInClusterNetwork (state : ClusterState) : Prop :=
  ∀ nc, state.network = some nc → ∀ node ∈ state.nodes, ∀ subnet ∈ annotatedCIDRs node,
    ∀ x, InCIDR x subnet → ∃ cn ∈ nestedSlice nc.object clusterNetworkPath,
      ∃ c, nestedField cn clusterNetworkCIDRPath = some (.str c) ∧ InCIDR x c

/-- An address lies in a CIDR that the spec lists or a source of the operator holds. -/
def Declared (policy : AcceptPolicy) (cluster : Cluster) (x : BitVec 32) : Prop :=
  ∃ c, DeclaredCIDR policy cluster c ∧ InCIDR x c

/-- Either this is OpenShift, or the pod CIDRs of the node are known from elsewhere than the
annotation, or what the annotation says is declared elsewhere too. -/
def AnnotationCovered (policy : AcceptPolicy) (cluster : Cluster) (state : ClusterState)
    (node : Node) : Prop :=
  state.network.isSome = true ∨ state.cniCIDRs node.name ≠ [] ∨ node.cidrs ≠ [] ∨
    ∀ subnet ∈ annotatedCIDRs node, ∀ x, InCIDR x subnet → Declared policy cluster x

/-- An address of a deny list is a declared one. -/
theorem exists_mem_forbidden_iff {policy : AcceptPolicy} {cluster : Cluster}
    {forbidden : List Str} {openshift : Bool}
    (h : clusterForbiddenCIDRs policy cluster = .ok (forbidden, openshift)) {x : BitVec 32} :
    (∃ c ∈ forbidden, InCIDR x c) ↔ Declared policy cluster x := by
  constructor
  · rintro ⟨c, hc, hx⟩
    exact ⟨c, ((mem_clusterForbiddenCIDRs h).mp hc).1, hx⟩
  · rintro ⟨c, hc, hx⟩
    exact ⟨c, (mem_clusterForbiddenCIDRs h).mpr ⟨hc, hx.readsAsIPv4⟩, hx⟩

section Sources

variable {policy : AcceptPolicy} {cluster : Cluster} {state : ClusterState}

/-- Which CIDR of a block is announced. -/
theorem blockCIDR_eq_some {node cidr : Str} {item : Value} :
    Agent.blockCIDR node item = some cidr ↔
      nestedString item ["spec".toList, "node".toList] = node ∧
      nestedString item ["spec".toList, "state".toList] = "confirmed".toList ∧
      nestedString item ["spec".toList, "deleted".toList] ≠ "true".toList ∧
      nestedString item ["spec".toList, "cidr".toList] = cidr ∧ cidr ≠ [] := by
  constructor
  · intro h
    rw [Agent.blockCIDR] at h
    split_ifs at h with hnode hstate hdeleted
    dsimp only at h
    split_ifs at h with hcidr
    obtain rfl := Option.some.inj h
    exact ⟨not_not.mp hnode, not_not.mp hstate, hdeleted, rfl, hcidr⟩
  · rintro ⟨hnode, hstate, hdeleted, rfl, hcidr⟩
    rw [Agent.blockCIDR, if_neg (not_not.mpr hnode), if_neg (not_not.mpr hstate), if_neg hdeleted]
    exact if_pos hcidr

/-- What Calico has allocated to a node is declared by its pools. -/
theorem declared_of_calico (hread : state.ReadBy cluster) (hblocks : BlocksInPools state)
    {items : List Value} (hitems : state.blockAffinities = some items) {node cidr : Str}
    (hcidr : cidr ∈ Agent.calicoPodCIDRs node items) {x : BitVec 32} (hx : InCIDR x cidr) :
    Declared policy cluster x := by
  obtain ⟨item, hitem, hblock⟩ := List.mem_filterMap.mp hcidr
  obtain ⟨-, hstate, -, rfl, -⟩ := blockCIDR_eq_some.mp hblock
  obtain ⟨pools, hpools, pool, hpool, henabled, c, hc, hxc⟩ :=
    hblocks items hitems item hitem hstate x hx
  exact ⟨c, .ipPool pools (hread.ipPools.eq_ok.mpr hpools) pool hpool henabled hc, hxc⟩

/-- What Cilium has allocated to a node is declared by its CiliumNode. -/
theorem declared_of_cilium (hread : state.ReadBy cluster) {items : List CiliumNode}
    (hitems : state.ciliumNodes = some items) {node cidr : Str}
    (hcidr : cidr ∈ Agent.ciliumPodCIDRs node items) {x : BitVec 32} (hx : InCIDR x cidr) :
    Declared policy cluster x := by
  rw [Agent.ciliumPodCIDRs] at hcidr
  split at hcidr
  · next item hfind =>
      have hmem : .str cidr ∈ nestedSlice item.object ciliumPodCIDRsPath :=
        (mem_nestedStringSlice item.podCIDRs_strings).mp hcidr
      exact ⟨cidr, .ciliumNode items (hread.ciliumNodes.eq_ok.mpr hitems) item
        (List.mem_of_find?_eq_some hfind) hmem, hx⟩
  · cases hcidr

/-- What a CNI has allocated to a node is declared. -/
theorem declared_of_cniCIDRs (hread : state.ReadBy cluster) (hblocks : BlocksInPools state)
    {node cidr : Str} (hcidr : cidr ∈ state.cniCIDRs node) {x : BitVec 32}
    (hx : InCIDR x cidr) : Declared policy cluster x := by
  rw [ClusterState.cniCIDRs] at hcidr
  split at hcidr
  · next items _ hitems => exact declared_of_calico hread hblocks hitems hcidr hx
  · next items _ hitems => exact declared_of_cilium hread hitems hcidr hx
  · cases hcidr

/-- What a node says of itself is declared. -/
theorem declared_of_node (hread : state.ReadBy cluster) {node : Node}
    (hnode : node ∈ state.nodes) {cidr : Str} (hcidr : cidr ∈ node.cidrs) {x : BitVec 32}
    (hx : InCIDR x cidr) : Declared policy cluster x :=
  ⟨cidr, .node state.nodes hread.nodes node hnode
    ((mem_cidrs hx.readsAsIPv4.ne_nil).mp hcidr), hx⟩

/-- On OpenShift, what the annotation says is declared by the network configuration. -/
theorem declared_of_annotation (hread : state.ReadBy cluster)
    (hsubnets : SubnetsInClusterNetwork state) {nc : NetworkConfig}
    (hnetwork : state.network = some nc) {node : Node} (hnode : node ∈ state.nodes)
    {subnet : Str} (hsubnet : subnet ∈ annotatedCIDRs node) {x : BitVec 32}
    (hx : InCIDR x subnet) : Declared policy cluster x := by
  obtain ⟨cn, hcn, c, hc, hxc⟩ := hsubnets nc hnetwork node hnode subnet hsubnet x hx
  exact ⟨c, .clusterNetwork nc (hread.network.eq_ok.mpr hnetwork) cn hcn hc, hxc⟩

end Sources

/-- **The pod network of a node is denied**, on every cluster whose sources are readable,
exactly if it is not known from the annotation of OVN-Kubernetes only, or declared elsewhere. -/
theorem podNetworkDenied_iff {policy : AcceptPolicy} {cluster : Cluster} {state : ClusterState}
    (hread : state.ReadBy cluster) (hblocks : BlocksInPools state)
    (hsubnets : SubnetsInClusterNetwork state) {forbidden : List Str} {openshift : Bool}
    (hforbidden : clusterForbiddenCIDRs policy cluster = .ok (forbidden, openshift))
    {node : Node} (hnode : node ∈ state.nodes) {nodeIP : Str} {info : Agent.NodeInfo}
    {dynamic : Bool}
    (hinfo : Agent.nodeInfo [] nodeIP node.name (state.nodeApi node) = .ok (info, dynamic)) :
    PodNetworkDenied info forbidden ↔ AnnotationCovered policy cluster state node := by
  simp only [PodNetworkDenied, exists_mem_forbidden_iff hforbidden, podCIDRs_nodeInfo hinfo]
  rw [AnnotationCovered]
  by_cases hcni : state.cniCIDRs node.name = []
  · by_cases hcidrs : node.cidrs = []
    · simp only [hcni, hcidrs, ne_eq, not_true_eq_false, if_false, false_or]
      constructor
      · exact fun h => .inr fun subnet hsubnet x hx => h subnet hsubnet hx.readsAsIPv4 x hx
      · rintro (hnetwork | h) subnet hsubnet - x hx
        · obtain ⟨nc, hnc⟩ := Option.isSome_iff_exists.mp hnetwork
          exact declared_of_annotation hread hsubnets hnc hnode hsubnet hx
        · exact h subnet hsubnet x hx
    · simp only [hcni, hcidrs, ne_eq, not_true_eq_false, not_false_eq_true, if_true, if_false,
        true_or, or_true, iff_true]
      exact fun cidr hcidr _ x hx => declared_of_node hread hnode hcidr hx
  · simp only [hcni, ne_eq, not_false_eq_true, if_true, true_or, or_true, iff_true]
    exact fun cidr hcidr _ x hx => declared_of_cniCIDRs hread hblocks hcidr hx

/-- A node whose subnet is known from its annotation. -/
def ovnNode : Node where
  name := "node-1".toList
  labels := ∅
  annotations := (∅ : GoMap Str).insert Agent.nodeSubnetsKey
    "\x7b\"default\":[\"10.128.2.0/23\"]\x7d".toList
  podCIDR := []
  podCIDRs := []
  addresses := [⟨.internalIP, "192.0.2.1".toList⟩]
  podCIDR_mem := fun h => absurd rfl h

/-- The network configuration of an OpenShift cluster. -/
def openshiftNetwork : NetworkConfig where
  object := .obj [("spec".toList, .obj
    [("clusterNetwork".toList, .arr [.obj [("cidr".toList, .str "10.128.0.0/14".toList)]])])]
  serviceNetwork_strings := by decide +kernel

/-- A cluster with that node, on OpenShift or not. -/
def ovnState (network : Option NetworkConfig) : ClusterState :=
  ⟨network, [ovnNode], none, none, none, none⟩

/-- What the operator reads of such a cluster. -/
def ovnCluster (network : Option NetworkConfig) : Cluster :=
  ⟨readOr network, .ok [ovnNode], .error .notFound, .error .noMatch, .error .noMatch⟩

/-- All its sources are readable. -/
theorem readBy_ovnCluster (network : Option NetworkConfig) :
    (ovnState network).ReadBy (ovnCluster network) where
  network := by
    cases network with
    | none => exact .inl rfl
    | some nc => rfl
  nodes := rfl
  serviceCIDRs := .inl rfl
  ipPools := .inr rfl
  ciliumNodes := .inr rfl

/-- On OpenShift the subnet of the node is denied. -/
theorem podNetworkDenied_of_openshift :
    ∃ info forbidden, info.podCIDRs = ["10.128.2.0/23".toList] ∧
      clusterForbiddenCIDRs sampleSpec.acceptPolicy (ovnCluster (some openshiftNetwork)) =
        .ok (forbidden, true) ∧ PodNetworkDenied info forbidden := by
  have hforbidden : clusterForbiddenCIDRs sampleSpec.acceptPolicy
      (ovnCluster (some openshiftNetwork)) =
        .ok (["10.128.0.0/14".toList, "172.16.0.0/12".toList, "192.168.7.1/24".toList], true) := by
    decide +kernel
  have hannotated : annotatedCIDRs ovnNode = ["10.128.2.0/23".toList] := by decide +kernel
  have hsubnets : SubnetsInClusterNetwork (ovnState (some openshiftNetwork)) := by
    rintro nc ⟨⟩ node hnode subnet hsubnet x hx
    obtain rfl := List.mem_singleton.mp hnode
    rw [hannotated] at hsubnet
    obtain rfl := List.mem_singleton.mp hsubnet
    refine ⟨.obj [("cidr".toList, .str "10.128.0.0/14".toList)], ?_,
      "10.128.0.0/14".toList, ?_, ?_⟩
    · simp [openshiftNetwork, nestedSlice, nestedField, clusterNetworkPath, GoMap.lastValue]
    · simp [nestedField, clusterNetworkCIDRPath, GoMap.lastValue]
    exact InCIDR.of_contains (p := ⟨.v4 0x0a800200#32, 23⟩) (q := ⟨.v4 0x0a800000#32, 14⟩)
      (by decide +kernel) (by decide +kernel) (by decide +kernel) (by decide +kernel)
      (by decide +kernel) hx
  have hinfo : Agent.nodeInfo [] [] ovnNode.name
      ((ovnState (some openshiftNetwork)).nodeApi ovnNode) =
        .ok (⟨["10.128.2.0/23".toList], "192.0.2.1".toList⟩, false) := by decide +kernel
  refine ⟨⟨["10.128.2.0/23".toList], "192.0.2.1".toList⟩, _, rfl, hforbidden, ?_⟩
  exact (podNetworkDenied_iff (readBy_ovnCluster _) (by rintro items ⟨⟩) hsubnets hforbidden
    (.head _) hinfo).mpr (.inl rfl)

/-- **A pod network that is not denied.** Elsewhere, nothing of the subnet of the node is
denied. -/
theorem ovn_pod_not_denied :
    (ovnState none).ReadBy (ovnCluster none) ∧ BlocksInPools (ovnState none) ∧
      SubnetsInClusterNetwork (ovnState none) ∧
      ∃ info forbidden,
        clusterForbiddenCIDRs sampleSpec.acceptPolicy (ovnCluster none) =
          .ok (forbidden, false) ∧
        Agent.nodeInfo [] [] ovnNode.name ((ovnState none).nodeApi ovnNode) =
          .ok (info, false) ∧ ¬ PodNetworkDenied info forbidden := by
  refine ⟨readBy_ovnCluster none, by rintro items ⟨⟩, by rintro nc ⟨⟩,
    ⟨["10.128.2.0/23".toList], "192.0.2.1".toList⟩,
    ["172.16.0.0/12".toList, "192.168.7.1/24".toList], by decide +kernel, by decide +kernel,
    fun h => ?_⟩
  obtain ⟨c, hc, hx⟩ := h "10.128.2.0/23".toList (.head _) (by decide +kernel) 0x0a800205#32
    (by decide +kernel)
  revert hx
  simp only [List.mem_cons, List.not_mem_nil, or_false] at hc
  rcases hc with rfl | rfl <;> decide +kernel

end ScionOperator
