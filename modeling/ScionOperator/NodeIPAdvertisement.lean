import ScionOperator.Config
import ScionOperator.NodeEndpoint

/-!
# Announcing the Address of a Node

If the address of a node lies in the network that carries the SCION traffic itself (the
underlay), then announcing it routes the underlay into the tunnel. The operator refuses a spec
that has node addresses announced if an internal address of a selected node lies in an underlay
CIDR (`validateNodeIPAdvertisement`). The agent announces the first internal address, as a
prefix of 32 bits (`advertisedNets`).

For an IPv4 address that is enough. But the agent takes for IPv4 also the texts of IPv6 which
stand for an IPv4 address, such as `::ffff:192.0.2.1`, and 32 bits of such a text are a
large block of IPv6. It can overlap an IPv6 underlay that does not contain the address itself
(`mapped_address_overlaps`). The CRD admits IPv4 underlays only.

## Main results

* `overlaps_host_iff`: a host prefix overlaps what contains the host.
* `outsideUnderlay_of_validate`: **what is announced of an admitted node is outside the
  underlay**, that case apart.
-/

namespace ScionOperator

open Text Json Netip

/-! ### The check of the operator -/

/-- The errors of `validateNodeIPAdvertisement`. -/
inductive NodeIPError
  | listNodes (err : ApiError)
  | insideUnderlay (node address : Str) (underlay : Prefix)
  deriving DecidableEq

/-- An address of a node that lies in the underlay. -/
def addressInside (underlay : List Prefix) (n : Node) (a : NodeAddress) : Option NodeIPError :=
  if a.type ≠ .internalIP then none
  else
    match parseAddr a.address with
    | none => none
    | some ip => (underlay.find? fun p => p.contains ip).map (.insideUnderlay n.name a.address)

/-- Refuse to announce node addresses if one of a selected node lies in the underlay. CIDRs
that cannot be read are skipped. -/
def validateNodeIPAdvertisement (spec : Spec) (nodes : Except ApiError (List Node)) :
    Except NodeIPError PUnit :=
  if spec.advertisement.nodeIP ≠ some true then .ok ()
  else
    let underlay := spec.acceptPolicy.underlayCIDRs.filterMap parsePrefix
    if underlay = [] then .ok ()
    else
      match nodes with
      | .error err => .error (.listNodes err)
      | .ok nodes =>
          let selected := nodes.filter fun n => selects spec.nodeSelector n.labels
          match selected.findSome? fun n => n.addresses.findSome? (addressInside underlay n) with
          | some err => .error err
          | none => .ok ()

/-- What is announced of the address of a node. -/
def nodeIPNets (info : Agent.NodeInfo) (cfg : Agent.Config) : List Str :=
  Agent.advertisedNets { info with podCIDRs := [] } cfg

/-- Nothing of these nets is in the underlay. -/
def OutsideUnderlay (spec : Spec) (nets : List Str) : Prop :=
  ∀ net ∈ nets, ∀ p, parsePrefix net = some p → ∀ cidr ∈ spec.acceptPolicy.underlayCIDRs,
    ∀ q, parsePrefix cidr = some q → p.overlaps q = false

/-- The address of a node is written as an IPv6 address that stands for an IPv4 address, and
is to be announced, while an underlay CIDR overlaps `::/32`. -/
def MappedUnderIPv6 (spec : Spec) (node : Node) : Prop :=
  spec.advertisement.nodeIP = some true ∧
    (∃ a, parseAddr (internalIP node) = some (.v6 a []) ∧ (to4 a).isSome = true) ∧
    ∃ cidr ∈ spec.acceptPolicy.underlayCIDRs, ∃ q, parsePrefix cidr = some q ∧
      (Prefix.mk (.v6 0 []) 32).overlaps q = true

/-! ### Host prefixes -/

/-- The prefix of one IPv4 host overlaps exactly the prefixes that contain the host. -/
theorem overlaps_host_iff {a : BitVec 32} {q : Prefix} (hq : q.isValid = true) :
    (Prefix.mk (.v4 a) 32).overlaps q = true ↔ q.contains (.v4 a) = true := by
  obtain ⟨b | ⟨b, z⟩, n⟩ := q
  · have hp4 : (Prefix.mk (.v4 a) 32).isIPv4 = true := rfl
    have hq4 : (Prefix.mk (.v4 b) n).isIPv4 = true := hq
    rw [Prefix.overlaps_iff_block hp4 hq4, Prefix.contains_iff_mem_block hq4]
    constructor
    · rintro ⟨x, hxa, hxb⟩
      have hx : x = a.toNat := by
        rw [Dyadic.Block.mem_def, (Prefix.block_v4 le_rfl).1, (Prefix.block_v4 le_rfl).2] at hxa
        simpa using hxa
      rwa [hx] at hxb
    · exact fun h => ⟨a.toNat, Prefix.addr_mem_block le_rfl, h⟩
  · simp [Prefix.overlaps, Prefix.contains, Addr.is4]

/-- The leading 32 bits of an IPv6 address that stands for an IPv4 address are zero. -/
theorem and_mask_eq_zero {a : BitVec 128} (h : (to4 a).isSome = true) {n : ℕ} (hn : n ≤ 32) :
    a &&& mask 128 n = 0 := by
  have ha : a >>> 32 = 0xffff#128 := by
    by_contra ha
    rw [to4, if_neg ha] at h
    cases h
  apply BitVec.eq_of_getLsbD_eq
  intro i hi
  by_cases hlow : i < 128 - n
  · simp [mask, hlow]
  · have hbit : (a >>> 32).getLsbD (i - 32) = a.getLsbD i := by
      rw [BitVec.getLsbD_ushiftRight, Nat.add_sub_cancel' (by omega)]
    have hzero : (0xffff#128).getLsbD (i - 32) = false := by
      have hlt : 0xffff < 2 ^ (i - 32) :=
        lt_of_lt_of_le (by decide) (Nat.pow_le_pow_right (by decide) (show 16 ≤ i - 32 by omega))
      rw [BitVec.getLsbD_ofNat, Nat.testBit_lt_two_pow hlt, Bool.and_false]
    rw [BitVec.getLsbD_and, ← hbit, ha, hzero]
    simp

/-- When two IPv6 prefixes overlap. -/
theorem overlaps_v6_iff {a b : BitVec 128} {z : Str} {m n : ℕ} :
    (Prefix.mk (.v6 a []) m).overlaps ⟨.v6 b z, n⟩ = true ↔
      m ≤ 128 ∧ n ≤ 128 ∧ (min m n = 0 ∨
        a &&& mask 128 (min m n) = b &&& mask 128 (min m n)) := by
  simp only [Prefix.overlaps, Prefix.isValid, Addr.bitLen, Addr.is4, Addr.masked,
    Bool.and_eq_true, Bool.or_eq_true, decide_eq_true_eq, Prefix.mk.injEq, Addr.v6.injEq,
    and_true, true_and, and_assoc]
  refine and_congr decide_eq_true_iff (and_congr decide_eq_true_iff ?_)
  constructor
  · rintro (⟨rfl, -, -⟩ | h)
    · exact .inr rfl
    · exact h
  · exact .inr

/-- Such an address, cut to 32 bits, overlaps what `::/32` overlaps. -/
theorem overlaps_mapped {a : BitVec 128} (h : (to4 a).isSome = true) (q : Prefix) :
    (Prefix.mk (.v6 a []) 32).overlaps q = true ↔
      (Prefix.mk (.v6 0 []) 32).overlaps q = true := by
  obtain ⟨b | ⟨b, z⟩, n⟩ := q
  · simp [Prefix.overlaps, Addr.is4]
  · rw [overlaps_v6_iff, overlaps_v6_iff, and_mask_eq_zero h (min_le_left 32 n)]
    simp

/-! ### What is announced -/

/-- The net that is announced, and its prefix. -/
theorem mem_nodeIPNets {info : Agent.NodeInfo} {cfg : Agent.Config} {net : Str} :
    net ∈ nodeIPNets info cfg ↔
      cfg.advertiseNodeIP = true ∧ net = info.internalIP ++ "/32".toList ∧
        ∃ a, parseAddr info.internalIP = some a ∧ a.zone = [] ∧ (to4 a.as16).isSome = true := by
  rw [nodeIPNets, Agent.advertisedNets, parseIP]
  cases cfg.advertiseNodeIP with
  | false => simp
  | true =>
      cases parseAddr info.internalIP with
      | none => simp
      | some a => by_cases hz : a.zone = [] <;> by_cases h4 : (to4 a.as16).isSome = true <;>
          simp [hz, h4]

/-- What is announced is the address, cut to 32 bits. -/
theorem parsePrefix_host {s : Str} {a : Addr} (h : parseAddr s = some a) (hz : a.zone = []) :
    parsePrefix (s ++ "/32".toList) = some ⟨a, 32⟩ := by
  have h32 : "/32".toList = '/' :: itoa 32 := by decide +kernel
  rw [h32]
  refine parsePrefix_append h hz ?_
  cases a <;> simp [Addr.bitLen]

/-- A node that is admitted has no internal address in the underlay. -/
theorem not_contains_of_validate {spec : Spec} {nodes : List Node}
    (h : validateNodeIPAdvertisement spec (.ok nodes) = .ok ())
    (hip : spec.advertisement.nodeIP = some true) {node : Node} (hnode : node ∈ nodes)
    (hsel : selects spec.nodeSelector node.labels = true) {a : NodeAddress}
    (ha : a ∈ node.addresses) (htype : a.type = .internalIP) {ip : Addr}
    (hparse : parseAddr a.address = some ip) {cidr : Str}
    (hcidr : cidr ∈ spec.acceptPolicy.underlayCIDRs) {q : Prefix}
    (hq : parsePrefix cidr = some q) : q.contains ip = false := by
  have hmem : q ∈ spec.acceptPolicy.underlayCIDRs.filterMap parsePrefix :=
    List.mem_filterMap.mpr ⟨cidr, hcidr, hq⟩
  rw [validateNodeIPAdvertisement, if_neg (not_not.mpr hip)] at h
  dsimp only at h
  rw [if_neg (List.ne_nil_of_mem hmem)] at h
  split at h
  · cases h
  next hnone =>
    have hnode' := List.findSome?_eq_none_iff.mp hnone node (List.mem_filter.mpr ⟨hnode, hsel⟩)
    have ha' := List.findSome?_eq_none_iff.mp hnode' a ha
    rw [addressInside, if_neg (not_not.mpr htype), hparse, Option.map_eq_none_iff,
      List.find?_eq_none] at ha'
    exact Bool.eq_false_iff.mpr (ha' q hmem)

/-- The first internal address is an internal address. -/
theorem exists_mem_addresses {node : Node} (h : internalIP node ≠ []) :
    ∃ a ∈ node.addresses, a.type = .internalIP ∧ a.address = internalIP node := by
  rw [internalIP] at h ⊢
  split at h
  · next a hfind =>
      refine ⟨a, List.mem_of_find?_eq_some hfind, ?_, rfl⟩
      simpa using List.find?_some hfind
  · exact absurd rfl h

/-- **What is announced is outside the underlay.** For a selected node of nodes that are
admitted, what is announced of its address overlaps no underlay CIDR, unless the address is
written as one of IPv6 and an underlay CIDR overlaps `::/32`. -/
theorem outsideUnderlay_of_validate {spec : Spec} {nodes : List Node}
    (h : validateNodeIPAdvertisement spec (.ok nodes) = .ok ()) {node : Node}
    (hnode : node ∈ nodes) (hsel : selects spec.nodeSelector node.labels = true)
    (hmapped : ¬ MappedUnderIPv6 spec node) {info : Agent.NodeInfo}
    (hinfo : Agent.getNodeInfo node = some info) (forbidden : List Str) (metricsTLS : Bool)
    (refreshInterval : ℤ) :
    OutsideUnderlay spec (nodeIPNets info (Agent.readConfig
      (agentEnv node.name spec forbidden metricsTLS) refreshInterval).toConfig) := by
  have hadvertise := congrArg (fun c => c.toConfig.advertiseNodeIP)
    (readConfig_agentEnv node.name spec forbidden metricsTLS refreshInterval)
  rw [Agent.getNodeInfo] at hinfo
  split_ifs at hinfo with hne
  obtain rfl := Option.some.inj hinfo
  simp only [OutsideUnderlay, mem_nodeIPNets, hadvertise]
  rintro net ⟨hip, rfl, a, hparse, hz, h4⟩ p hp cidr hcidr q hq
  rw [parsePrefix_host hparse hz] at hp
  obtain rfl := Option.some.inj hp
  have hip' : spec.advertisement.nodeIP = some true := by
    cases hn : spec.advertisement.nodeIP with
    | none => rw [hn] at hip; cases hip
    | some b => rw [hn] at hip; exact congrArg some hip
  obtain ⟨addr, hmem, htype, haddr⟩ := exists_mem_addresses hne
  have hout : q.contains a = false :=
    not_contains_of_validate h hip' hnode hsel hmem htype (haddr ▸ hparse) hcidr hq
  rw [Bool.eq_false_iff]
  intro hoverlaps
  obtain x | ⟨x, z⟩ := a
  · rw [overlaps_host_iff (isValid_of_parsePrefix hq), hout] at hoverlaps
    cases hoverlaps
  · obtain rfl : z = [] := hz
    exact hmapped ⟨hip', ⟨x, hparse, h4⟩, cidr, hcidr, q, hq,
      (overlaps_mapped h4 q).mp hoverlaps⟩

/-- A spec that has node addresses announced. -/
def announcingSpec (underlay : List Str) : Spec :=
  { sampleSpec with
    advertisement := ⟨some true, some true⟩
    acceptPolicy := { sampleSpec.acceptPolicy with underlayCIDRs := underlay } }

/-- What is announced of the address of a node with one internal address. -/
def announcedNets (underlay : List Str) (ip : Str) : List Str :=
  nodeIPNets ⟨[], ip⟩
    (Agent.readConfig (agentEnv "n1".toList (announcingSpec underlay) [] true) 1).toConfig

/-- A node outside the underlay is announced. -/
theorem outsideUnderlay_of_ipv4 :
    announcedNets ["192.168.7.1/24".toList, "fd00::/8".toList] "10.0.0.1".toList =
        ["10.0.0.1/32".toList] ∧
      OutsideUnderlay (announcingSpec ["192.168.7.1/24".toList, "fd00::/8".toList])
        (announcedNets ["192.168.7.1/24".toList, "fd00::/8".toList] "10.0.0.1".toList) := by
  refine ⟨by decide +kernel, ?_⟩
  have hvalid : validateNodeIPAdvertisement
      (announcingSpec ["192.168.7.1/24".toList, "fd00::/8".toList])
      (.ok [nodeAt "10.0.0.1".toList]) = .ok () := by decide +kernel
  have hinfo : Agent.getNodeInfo (nodeAt "10.0.0.1".toList) = some ⟨[], "10.0.0.1".toList⟩ := by
    decide +kernel
  refine outsideUnderlay_of_validate hvalid (.head _) (by decide +kernel) ?_ hinfo [] true 1
  rintro ⟨-, ⟨a, hparse, -⟩, -⟩
  have h4 : parseAddr (internalIP (nodeAt "10.0.0.1".toList)) = some (.v4 0x0a000001#32) := by
    decide +kernel
  rw [h4] at hparse
  cases hparse

/-- **What is announced overlaps the underlay.** The operator admits the node, whose address is
not the one in the underlay, but the agent announces a block in which it is. -/
theorem mapped_address_overlaps :
    (∃ forbidden, clusterForbiddenCIDRs (announcingSpec ["::5/128".toList]).acceptPolicy
      ⟨.error .notFound, .ok [nodeAt "::ffff:10.0.0.1".toList], .error .notFound,
        .error .notFound, .error .notFound⟩ = .ok (forbidden, false)) ∧
    validateNodeIPAdvertisement (announcingSpec ["::5/128".toList])
      (.ok [nodeAt "::ffff:10.0.0.1".toList]) = .ok () ∧
    announcedNets ["::5/128".toList] "::ffff:10.0.0.1".toList =
      ["::ffff:10.0.0.1/32".toList] ∧
    ¬ OutsideUnderlay (announcingSpec ["::5/128".toList])
      (announcedNets ["::5/128".toList] "::ffff:10.0.0.1".toList) := by
  have hnets : announcedNets ["::5/128".toList] "::ffff:10.0.0.1".toList =
      ["::ffff:10.0.0.1/32".toList] := by decide +kernel
  refine ⟨⟨["172.16.0.0/12".toList], by decide +kernel⟩, by decide +kernel, hnets, fun h => ?_⟩
  have hoverlaps := h "::ffff:10.0.0.1/32".toList (by rw [hnets]; exact .head _)
    ⟨.v6 0xffff0a000001#128 [], 32⟩ (by decide +kernel) "::5/128".toList (.head _)
    ⟨.v6 5#128 [], 128⟩ (by decide +kernel)
  revert hoverlaps
  decide +kernel

end ScionOperator
