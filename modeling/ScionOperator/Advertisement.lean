import ScionOperator.NodeIPAdvertisement
import ScionOperator.PodNetworks

/-!
# What a Node Advertises

The agent finds out the pod CIDRs of its node (`nodeInfo`), builds the list of prefixes it
announces from them and from the address of the node (`advertisedNets`), and refuses to start if
pod CIDRs are to be announced and there are none (`checkAdvertisable`; all in `cmd/agent`).

Each of the three gives way in one case. If a CNI has allocated nothing to the node yet, the pod
CIDRs of the node itself are taken, which the CNI ignores (`stale_cidr_advertised`). The address
of the node is announced also if it is written as an IPv6 address that stands for one of IPv4,
and then what is announced is a block of IPv6 (`mapped_address_advertised`). And if the address
is announced, then the list is not empty, so that the check does not notice that the pod CIDRs
are missing (`missing_pods_unnoticed`).

## Main results

* `podCIDRs_of_nodeInfo`: the pod CIDRs by the CNI that is there.
* `cniOwned_iff`: **pod CIDRs are those of the CNI** exactly if it has allocated some, or the
  node has none of its own.
* `advertisesIPv4Only_iff`: **only IPv4 is announced** exactly if the address of the node is not
  a mapped one.
* `guardExact_iff`: **the check fails for missing pod CIDRs** exactly if the address of the node
  does not hide them.
-/

namespace ScionOperator

open Text Json Netip

/-! ### The sources of the pod CIDRs -/

namespace Agent

/-- The CIDR of a block that is affine to a node, confirmed and not deleted. -/
def IsBlockOf (node : Str) (items : List Value) (cidr : Str) : Prop :=
  cidr ≠ [] ∧ ∃ item ∈ items,
    nestedString item ["spec".toList, "node".toList] = node ∧
    nestedString item ["spec".toList, "state".toList] = "confirmed".toList ∧
    nestedString item ["spec".toList, "deleted".toList] ≠ "true".toList ∧
    nestedString item ["spec".toList, "cidr".toList] = cidr

/-- A CIDR that the CiliumNode of a node lists. -/
def IsListedFor (node : Str) (items : List CiliumNode) (cidr : Str) : Prop :=
  ∃ item, (items.find? fun item =>
      nestedString item.object ["metadata".toList, "name".toList] = node) = some item ∧
    .str cidr ∈ nestedSlice item.object ciliumPodCIDRsPath

/-- Where the API of a CNI is served, every pod CIDR is one that it has allocated: Calico, or
else Cilium. -/
def CniOwned (node : Str) (api : NodeApi) (info : NodeInfo) : Prop :=
  (∀ items, api.blockAffinities = .ok items → ∀ cidr ∈ info.podCIDRs, IsBlockOf node items cidr) ∧
  (api.blockAffinities = .error .notFound → ∀ items, api.ciliumNodes = .ok items →
    ∀ cidr ∈ info.podCIDRs, IsListedFor node items cidr)

/-- Where the API of a CNI is served, it has allocated something to the node, or the node has no
pod CIDRs of its own. -/
def CniAllocated (nodeName : Str) (api : NodeApi) (node : Node) : Prop :=
  (∀ items, api.blockAffinities = .ok items →
    (∃ cidr, IsBlockOf nodeName items cidr) ∨ podCIDRs node = []) ∧
  (api.blockAffinities = .error .notFound → ∀ items, api.ciliumNodes = .ok items →
    (∃ cidr, IsListedFor nodeName items cidr) ∨ podCIDRs node = [])

/-- The blocks of a node. -/
theorem mem_calicoPodCIDRs {node cidr : Str} {items : List Value} :
    cidr ∈ calicoPodCIDRs node items ↔ IsBlockOf node items cidr := by
  rw [calicoPodCIDRs, List.mem_filterMap, IsBlockOf]
  constructor
  · rintro ⟨item, hitem, h⟩
    obtain ⟨hnode, hstate, hdeleted, hcidr, hne⟩ := blockCIDR_eq_some.mp h
    exact ⟨hne, item, hitem, hnode, hstate, hdeleted, hcidr⟩
  · rintro ⟨hne, item, hitem, hnode, hstate, hdeleted, hcidr⟩
    exact ⟨item, hitem, blockCIDR_eq_some.mpr ⟨hnode, hstate, hdeleted, hcidr, hne⟩⟩

/-- The pod CIDRs of a node's CiliumNode. -/
theorem mem_ciliumPodCIDRs {node cidr : Str} {items : List CiliumNode} :
    cidr ∈ ciliumPodCIDRs node items ↔ IsListedFor node items cidr := by
  rw [ciliumPodCIDRs, IsListedFor]
  split
  · next item hfind =>
      rw [mem_nestedStringSlice item.podCIDRs_strings]
      constructor
      · exact fun h => ⟨item, hfind, h⟩
      · rintro ⟨item', hfind', h⟩
        obtain rfl := Option.some.inj (hfind.symm.trans hfind')
        exact h
  · next hfind =>
      refine iff_of_false List.not_mem_nil ?_
      rintro ⟨item, hfind', -⟩
      cases hfind.symm.trans hfind'

/-- **The pod CIDRs of a node** are those of the CNI that is there, if it has allocated any, and
its own otherwise. -/
theorem podCIDRs_of_nodeInfo {nodeIP nodeName : Str} {api : NodeApi} {node : Node}
    {info : NodeInfo} {dynamic : Bool} (hnode : api.node = .ok node)
    (h : nodeInfo [] nodeIP nodeName api = .ok (info, dynamic)) :
    (∀ items, api.blockAffinities = .ok items → info.podCIDRs =
      if calicoPodCIDRs nodeName items ≠ [] then calicoPodCIDRs nodeName items
      else podCIDRs node) ∧
    (api.blockAffinities = .error .notFound → ∀ items, api.ciliumNodes = .ok items →
      info.podCIDRs =
        if ciliumPodCIDRs nodeName items ≠ [] then ciliumPodCIDRs nodeName items
        else podCIDRs node) := by
  rw [nodeInfo, if_neg (not_not.mpr rfl), hnode] at h
  dsimp only at h
  rw [getNodeInfo] at h
  split_ifs at h with hip
  constructor
  · intro items hitems
    rw [hitems] at h
    obtain ⟨rfl, -⟩ := Prod.mk.inj (Except.ok.inj h)
    exact podCIDRs_withPodCIDRs _ _
  · intro hcalico items hitems
    rw [hcalico, hitems] at h
    obtain ⟨rfl, -⟩ := Prod.mk.inj (Except.ok.inj h)
    exact podCIDRs_withPodCIDRs _ _

/-- What holds of every element of a preferred list holds of what is taken, exactly if the
preferred list is not empty or the other one is. -/
theorem forall_mem_preferred {own other : List Str} {P : Str → Prop}
    (h : ∀ s, s ∈ own ↔ P s) :
    (∀ s ∈ if own ≠ [] then own else other, P s) ↔ (∃ s, P s) ∨ other = [] := by
  simp only [← h]
  by_cases hown : own = []
  · rw [if_neg (not_not.mpr hown), hown, List.eq_nil_iff_forall_not_mem]
    simp
  · rw [if_pos hown]
    exact iff_of_true (fun _ hs => hs) (.inl (List.exists_mem_of_ne_nil own hown))

/-- **Pod CIDRs are those of the CNI.** Whenever the agent finds out the pod CIDRs of its node,
without the bypass, those of a CNI whose API is served are all it takes exactly if that CNI has
allocated something to the node, or the node has no pod CIDRs of its own. -/
theorem cniOwned_iff {nodeIP nodeName : Str} {api : NodeApi} {node : Node} {info : NodeInfo}
    {dynamic : Bool} (hnode : api.node = .ok node)
    (h : nodeInfo [] nodeIP nodeName api = .ok (info, dynamic)) :
    CniOwned nodeName api info ↔ CniAllocated nodeName api node := by
  obtain ⟨hcalico, hcilium⟩ := podCIDRs_of_nodeInfo hnode h
  refine and_congr (forall₂_congr fun items hitems => ?_)
    (forall₃_congr fun hnone items hitems => ?_)
  · rw [hcalico items hitems]
    exact forall_mem_preferred fun _ => mem_calicoPodCIDRs
  · rw [hcilium hnone items hitems]
    exact forall_mem_preferred fun _ => mem_ciliumPodCIDRs

end Agent

/-- A node with a pod CIDR from the node CIDR allocator. -/
def allocatedNode : Node where
  name := "node-1".toList
  labels := ∅
  annotations := ∅
  podCIDR := "10.244.1.0/24".toList
  podCIDRs := []
  addresses := [⟨.internalIP, "192.0.2.1".toList⟩]
  podCIDR_mem := fun h => absurd rfl h

/-- A confirmed block of that node. -/
def confirmedBlock : Value :=
  .obj [("spec".toList, .obj [("node".toList, .str "node-1".toList),
    ("state".toList, .str "confirmed".toList), ("cidr".toList, .str "172.20.5.0/26".toList)])]

/-- What the agent reads on a cluster that runs Calico with these blocks. -/
def calicoApi (blocks : List Value) : Agent.NodeApi :=
  ⟨.ok allocatedNode, .ok blocks, .error .notFound⟩

/-- A configuration that has pod CIDRs announced, and the address of the node or not. -/
def podConfig (nodeIP : Bool) : Agent.FullConfig :=
  { Agent.readConfig (fun _ => []) 0 with
    nodeName := "node-1".toList
    advertiseNodeIP := nodeIP }

/-- With a block, that is what is taken. -/
theorem cniOwned_of_block :
    ∃ info, Agent.nodeInfo [] [] "node-1".toList (calicoApi [confirmedBlock]) =
        .ok (info, true) ∧
      Agent.CniOwned "node-1".toList (calicoApi [confirmedBlock]) info := by
  have hinfo : Agent.nodeInfo [] [] "node-1".toList (calicoApi [confirmedBlock]) =
      .ok (⟨["172.20.5.0/26".toList], "192.0.2.1".toList⟩, true) := by decide +kernel
  refine ⟨_, hinfo, (Agent.cniOwned_iff rfl hinfo).mpr ⟨?_, nofun⟩⟩
  rintro items ⟨⟩
  exact .inl ⟨"172.20.5.0/26".toList, by decide +kernel, confirmedBlock, .head _,
    by decide +kernel, by decide +kernel, by decide +kernel, by decide +kernel⟩

/-- **A stale CIDR is advertised.** Before its first block is allocated, the node announces the
pod CIDR of the node CIDR allocator. -/
theorem stale_cidr_advertised :
    ∃ info, Agent.nodeInfo [] [] "node-1".toList (calicoApi []) = .ok (info, true) ∧
      Agent.advertisedNets info (podConfig false).toConfig = ["10.244.1.0/24".toList] ∧
      ¬ Agent.CniOwned "node-1".toList (calicoApi []) info := by
  refine ⟨⟨["10.244.1.0/24".toList], "192.0.2.1".toList⟩, by decide +kernel, by decide +kernel,
    fun h => ?_⟩
  obtain ⟨-, item, hitem, -⟩ := h.1 [] rfl "10.244.1.0/24".toList (.head _)
  cases hitem

/-! ### What is announced -/

/-- A text that the older package takes for an IPv4 address. -/
def StandsForIPv4 (s : Str) : Prop :=
  ∃ ip, parseIP s = some ip ∧ (to4 ip).isSome = true

/-- An IPv6 address that stands for an IPv4 address. -/
def IsMapped (s : Str) : Prop :=
  ∃ a, parseAddr s = some (.v6 a []) ∧ (to4 a).isSome = true

/-- Only IPv4 is announced: every text reads as a prefix of an IPv4 address, and the texts are
the IPv4 pod CIDRs, if they are to be announced, and then at most the address of the node, as a
prefix of 32 bits, if that is. -/
def AdvertisesIPv4Only (info : Agent.NodeInfo) (cfg : Agent.Config) : Prop :=
  (∀ net ∈ Agent.advertisedNets info cfg, ∃ p, parsePrefix net = some p ∧ p.addr.is4 = true) ∧
    ∃ host, Agent.advertisedNets info cfg =
        (if cfg.advertisePodCIDR then info.podCIDRs.filter fun c => ReadsAsIPv4 c else []) ++ host ∧
      (host = [] ∨ cfg.advertiseNodeIP = true ∧ host = [info.internalIP ++ "/32".toList])

/-- What is announced, in two parts. -/
theorem advertisedNets_eq (info : Agent.NodeInfo) (cfg : Agent.Config) :
    Agent.advertisedNets info cfg =
      (if cfg.advertisePodCIDR then info.podCIDRs.filter fun c => ReadsAsIPv4 c else []) ++
        nodeIPNets info cfg := by
  have hfilter : info.podCIDRs.filter isIPv4CIDR =
      info.podCIDRs.filter fun c => ReadsAsIPv4 c := by
    refine List.filter_congr fun c _ => ?_
    rw [Bool.eq_iff_iff, isIPv4CIDR_iff, decide_eq_true_eq]
  rw [nodeIPNets, Agent.advertisedNets, Agent.advertisedNets, List.filter_nil, ite_self,
    List.nil_append, hfilter]

/-- Of the address of the node its prefix is announced, if it is to be and stands for an IPv4
address, and nothing otherwise. -/
theorem nodeIPNets_cases (info : Agent.NodeInfo) (cfg : Agent.Config) :
    ((cfg.advertiseNodeIP = true ∧ StandsForIPv4 info.internalIP) ∧
        nodeIPNets info cfg = [info.internalIP ++ "/32".toList]) ∨
      (¬ (cfg.advertiseNodeIP = true ∧ StandsForIPv4 info.internalIP) ∧
        nodeIPNets info cfg = []) := by
  rw [nodeIPNets, Agent.advertisedNets, List.filter_nil, ite_self, List.nil_append, StandsForIPv4]
  cases cfg.advertiseNodeIP with
  | false => exact .inr ⟨fun h => Bool.false_ne_true h.1, rfl⟩
  | true =>
      cases parseIP info.internalIP with
      | none =>
          refine .inr ⟨fun h => ?_, rfl⟩
          obtain ⟨-, ip, hip, -⟩ := h
          cases hip
      | some ip =>
          by_cases h4 : (to4 ip).isSome = true
          · exact .inl ⟨⟨rfl, ip, rfl, h4⟩, by rw [if_pos rfl]; exact if_pos h4⟩
          · refine .inr ⟨fun h => ?_, by rw [if_pos rfl]; exact if_neg h4⟩
            obtain ⟨-, ip', hip, h⟩ := h
            obtain rfl := Option.some.inj hip
            exact h4 h

/-- What stands for an IPv4 address is one, or is a mapped one. -/
theorem StandsForIPv4.cases {s : Str} (h : StandsForIPv4 s) :
    (∃ a, parseAddr s = some (.v4 a)) ∨ IsMapped s := by
  obtain ⟨ip, hip, h4⟩ := h
  rw [parseIP] at hip
  split at hip
  · next a ha =>
      split_ifs at hip with hz
      obtain rfl := Option.some.inj hip
      cases a with
      | v4 a => exact .inl ⟨a, ha⟩
      | v6 a z =>
          obtain rfl : z = [] := hz
          exact .inr ⟨a, ha, h4⟩
  · cases hip

/-- A mapped address stands for an IPv4 address. -/
theorem IsMapped.standsForIPv4 {s : Str} (h : IsMapped s) : StandsForIPv4 s := by
  obtain ⟨a, ha, h4⟩ := h
  refine ⟨a, ?_, h4⟩
  rw [parseIP, ha]
  exact if_pos rfl

/-- The prefix of an address that stands for IPv4 is one of IPv4 exactly if the address is not a
mapped one. -/
theorem is4_host_iff {s : Str} (h : StandsForIPv4 s) :
    (∃ p, parsePrefix (s ++ "/32".toList) = some p ∧ p.addr.is4 = true) ↔ ¬ IsMapped s := by
  rcases h.cases with ⟨a, ha⟩ | ⟨a, ha, h4⟩
  · refine iff_of_true ⟨_, parsePrefix_host ha rfl, rfl⟩ ?_
    rintro ⟨b, hb, -⟩
    cases ha.symm.trans hb
  · refine iff_of_false ?_ fun hnot => hnot ⟨a, ha, h4⟩
    rintro ⟨p, hp, h4'⟩
    obtain rfl := Option.some.inj ((parsePrefix_host ha rfl).symm.trans hp)
    cases h4'

/-- A text that reads as an IPv4 prefix has an IPv4 address. -/
theorem exists_is4_of_readsAsIPv4 {s : Str} (h : ReadsAsIPv4 s) :
    ∃ p, parsePrefix s = some p ∧ p.addr.is4 = true := by
  obtain ⟨p, hp, h4⟩ := h
  exact ⟨p, hp, (Bool.and_eq_true_iff.mp h4).1⟩

/-- **Only IPv4 is announced**, for any node info and configuration, exactly if the address of
the node is not to be announced or is not a mapped one. -/
theorem advertisesIPv4Only_iff (info : Agent.NodeInfo) (cfg : Agent.Config) :
    AdvertisesIPv4Only info cfg ↔
      (cfg.advertiseNodeIP = true → ¬ IsMapped info.internalIP) := by
  have hpods : ∀ net ∈ (if cfg.advertisePodCIDR then
      info.podCIDRs.filter fun c => ReadsAsIPv4 c else []),
      ∃ p, parsePrefix net = some p ∧ p.addr.is4 = true := by
    intro net hnet
    split_ifs at hnet
    · exact exists_is4_of_readsAsIPv4 (of_decide_eq_true (List.mem_filter.mp hnet).2)
    · cases hnet
  rw [AdvertisesIPv4Only, advertisedNets_eq]
  simp only [List.mem_append, or_imp, forall_and]
  rw [and_iff_right hpods]
  rcases nodeIPNets_cases info cfg with ⟨⟨hip, hstands⟩, hnets⟩ | ⟨hnot, hnets⟩
  · rw [hnets]
    simp only [List.mem_singleton, forall_eq, is4_host_iff hstands, hip, forall_const]
    exact and_iff_left ⟨_, rfl, .inr ⟨trivial, rfl⟩⟩
  · rw [hnets]
    refine iff_of_true ⟨fun _ h => absurd h List.not_mem_nil, [], rfl, .inl rfl⟩ ?_
    intro hip hmapped
    exact hnot ⟨hip, hmapped.standsForIPv4⟩

/-- **IPv6 is announced.** With the address of the node in the environment, as a mapped one, the
agent announces a prefix of IPv6. -/
theorem mapped_address_advertised :
    ∃ info, Agent.nodeInfo "10.0.0.0/24".toList "::ffff:10.0.0.1".toList "node-1".toList
        (calicoApi []) = .ok (info, false) ∧
      Agent.advertisedNets info (podConfig true).toConfig =
        ["10.0.0.0/24".toList, "::ffff:10.0.0.1/32".toList] ∧
      ¬ AdvertisesIPv4Only info (podConfig true).toConfig := by
  have hnets : Agent.advertisedNets ⟨["10.0.0.0/24".toList], "::ffff:10.0.0.1".toList⟩
      (podConfig true).toConfig = ["10.0.0.0/24".toList, "::ffff:10.0.0.1/32".toList] := by
    decide +kernel
  refine ⟨_, by decide +kernel, hnets, fun h => ?_⟩
  obtain ⟨p, hp, h4⟩ := h.1 "::ffff:10.0.0.1/32".toList (by rw [hnets]; exact .tail _ (.head _))
  have hread : parsePrefix "::ffff:10.0.0.1/32".toList = some ⟨.v6 0xffff0a000001#128 [], 32⟩ := by
    decide +kernel
  obtain rfl := Option.some.inj (hread.symm.trans hp)
  cases h4

/-! ### The check -/

namespace Agent

/-- The error of `checkAdvertisable`: pod CIDR advertisement is enabled but no IPv4 pod CIDR was
discovered. -/
structure NotAdvertisable where
  node : Str
  podCIDRs : List Str
  deriving DecidableEq

/-- Fail if pod CIDRs are to be announced and there is nothing to announce. -/
def checkAdvertisable (cfg : FullConfig) (info : NodeInfo) (nets : List Str) :
    Except NotAdvertisable Unit :=
  if cfg.advertisePodCIDR ∧ nets = [] then .error ⟨cfg.nodeName, info.podCIDRs⟩ else .ok ()

end Agent

/-- The check of what is announced fails exactly if pod CIDRs are to be announced and none of
them is an IPv4 prefix. -/
def GuardExact (cfg : Agent.FullConfig) (info : Agent.NodeInfo) : Prop :=
  (∃ err, Agent.checkAdvertisable cfg info (Agent.advertisedNets info cfg.toConfig) =
      .error err) ↔
    cfg.advertisePodCIDR = true ∧ ∀ cidr ∈ info.podCIDRs, ¬ ReadsAsIPv4 cidr

/-- When the check fails. -/
theorem exists_checkAdvertisable_iff {cfg : Agent.FullConfig} {info : Agent.NodeInfo}
    {nets : List Str} :
    (∃ err, Agent.checkAdvertisable cfg info nets = .error err) ↔
      cfg.advertisePodCIDR = true ∧ nets = [] := by
  rw [Agent.checkAdvertisable]
  split_ifs with h
  · exact iff_of_true ⟨_, rfl⟩ h
  · exact iff_of_false nofun h

/-- **The check fails for missing pod CIDRs**, for any node info and configuration, exactly if it
is not the case that the address of the node is announced while pod CIDRs are to be, and none of
them is an IPv4 prefix. -/
theorem guardExact_iff (cfg : Agent.FullConfig) (info : Agent.NodeInfo) :
    GuardExact cfg info ↔
      (cfg.advertiseNodeIP = true → StandsForIPv4 info.internalIP →
        cfg.advertisePodCIDR = true → ∃ cidr ∈ info.podCIDRs, ReadsAsIPv4 cidr) := by
  rw [GuardExact, exists_checkAdvertisable_iff, advertisedNets_eq, List.append_eq_nil_iff]
  by_cases hpod : cfg.advertisePodCIDR = true
  · have hfilter : (info.podCIDRs.filter fun c => ReadsAsIPv4 c) = [] ↔
        ∀ cidr ∈ info.podCIDRs, ¬ ReadsAsIPv4 cidr := by
      simp only [List.filter_eq_nil_iff, decide_eq_true_eq]
    rw [if_pos hpod, hfilter]
    simp only [hpod, true_and, forall_const]
    rcases nodeIPNets_cases info cfg.toConfig with ⟨⟨hip, hstands⟩, hnets⟩ | ⟨hnot, hnets⟩
    · simp only [hnets, List.cons_ne_nil, and_false, false_iff, hip, hstands, forall_const]
      push Not
      rfl
    · rw [hnets]
      exact iff_of_true (and_iff_left rfl) fun hip hstands => absurd ⟨hip, hstands⟩ hnot
  · exact iff_of_true (iff_of_false (fun h => hpod h.1) fun h => hpod h.1)
      fun _ _ h => absurd h hpod

/-- **Missing pod CIDRs go unnoticed** if the address of the node is announced. -/
theorem missing_pods_unnoticed :
    Agent.advertisedNets ⟨["fd01::/64".toList], "192.0.2.1".toList⟩ (podConfig true).toConfig =
        ["192.0.2.1/32".toList] ∧
      Agent.checkAdvertisable (podConfig true) ⟨["fd01::/64".toList], "192.0.2.1".toList⟩
        ["192.0.2.1/32".toList] = .ok () ∧
      ¬ GuardExact (podConfig true) ⟨["fd01::/64".toList], "192.0.2.1".toList⟩ := by
  have hnets : Agent.advertisedNets ⟨["fd01::/64".toList], "192.0.2.1".toList⟩
      (podConfig true).toConfig = ["192.0.2.1/32".toList] := by decide +kernel
  refine ⟨hnets, by decide +kernel, fun h => ?_⟩
  obtain ⟨err, herr⟩ := h.mpr ⟨by decide +kernel, by decide +kernel⟩
  rw [hnets] at herr
  cases herr

end ScionOperator
