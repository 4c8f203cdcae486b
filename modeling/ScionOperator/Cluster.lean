import ScionOperator.Api
import ScionOperator.Policy

/-!
# The Forbidden CIDRs of a Cluster

`clusterForbiddenCIDRs` merges the deny list of the spec with every network the cluster
itself uses: the OpenShift network configuration, the pod CIDRs of the nodes, the service
CIDRs, the enabled Calico pools and the Cilium nodes. Entries of the spec must parse;
whatever comes from the cluster is filtered to IPv4. The three optional sources tolerate
an API that is absent or not permitted.

What the sources declare is stated independently of the code by `DeclaredCIDR`.

## Main results

* `mem_clusterForbiddenCIDRs`: **the list that is returned holds exactly the IPv4 CIDRs
  that some source declares.**
* `pairwise_lt_clusterForbiddenCIDRs`, `clusterForbiddenCIDRs_congr`: it is in strict order, and
  depends on nothing else than the sets of IPv4 CIDRs in the sources.
-/

namespace ScionOperator

open Text Json Netip

/-! ### The model -/

/-- What the API calls of one reconcile return. -/
structure Cluster where
  network : Except ApiError NetworkConfig
  nodes : Except ApiError (List Node)
  serviceCIDRs : Except ApiError (List (List Str))
  ipPools : Except ApiError (List Value)
  ciliumNodes : Except ApiError (List CiliumNode)

/-- The errors of `clusterForbiddenCIDRs`. -/
inductive ForbiddenError
  | invalidCIDR (cidr field : Str)
  | readNetworkConfig (err : ApiError)
  | listNodes (err : ApiError)
  | listServiceCIDRs (err : ApiError)
  | listIPPools (err : ApiError)
  | listCiliumNodes (err : ApiError)
deriving DecidableEq

/-- A text that parses as an IPv4 prefix. -/
def isIPv4CIDR (cidr : Str) : Bool :=
  match parsePrefix cidr with
  | some p => p.addr.is4
  | none => false

/-- The entries of a list of the spec: an unparsable one is an error, IPv6 is skipped. -/
def specIPv4CIDRs (field : Str) : List Str → Except ForbiddenError (List Str)
  | [] => .ok []
  | cidr :: cidrs =>
      match parsePrefix cidr with
      | none => .error (.invalidCIDR cidr field)
      | some p => do
          let out ← specIPv4CIDRs field cidrs
          pure (if p.addr.is4 then cidr :: out else out)

/-- The CIDRs of the OpenShift network configuration. -/
def networkCIDRs (nc : NetworkConfig) : List Str :=
  let cns := (nestedSlice nc.object clusterNetworkPath).filterMap fun cn =>
    (nestedField cn clusterNetworkCIDRPath).bind asString
  cns.filter isIPv4CIDR ++
    (nestedStringSlice nc.object serviceNetworkPath).filter isIPv4CIDR

/-- Reading the OpenShift network configuration, and whether this is OpenShift. -/
def openshiftCIDRs : Except ApiError NetworkConfig → Except ForbiddenError (List Str × Bool)
  | .ok nc => .ok (networkCIDRs nc, true)
  | .error .notFound => .ok ([], false)
  | .error .noMatch => .ok ([], false)
  | .error err => .error (.readNetworkConfig err)

/-- The pod CIDRs of a node, or its single one. -/
def Node.cidrs (n : Node) : List Str :=
  if n.podCIDRs = [] ∧ n.podCIDR ≠ [] then [n.podCIDR] else n.podCIDRs

/-- The IPv4 pod CIDRs allocated to nodes. -/
def nodePodCIDRs : Except ApiError (List Node) → Except ForbiddenError (List Str)
  | .ok nodes => .ok (nodes.flatMap fun n => n.cidrs.filter isIPv4CIDR)
  | .error err => .error (.listNodes err)

/-- An error that means that the API is not there or not permitted. -/
def ApiError.tolerated : ApiError → Bool
  | .notFound | .forbidden | .noMatch => true
  | .other _ => false

/-- The IPv4 CIDRs of an optional source: those of each of its objects. -/
def optionalCIDRs {α : Type} (wrap : ApiError → ForbiddenError) (cidrs : α → List Str) :
    Except ApiError (List α) → Except ForbiddenError (List Str)
  | .ok items => .ok (items.flatMap fun item => (cidrs item).filter isIPv4CIDR)
  | .error err => if err.tolerated then .ok [] else .error (wrap err)

/-- The IPv4 service CIDRs. -/
def serviceCIDRs : Except ApiError (List (List Str)) → Except ForbiddenError (List Str) :=
  optionalCIDRs .listServiceCIDRs id

/-- The CIDR of a Calico pool that is not disabled. -/
def poolCIDRs (pool : Value) : List Str :=
  if nestedBool pool poolDisabledPath then []
  else [nestedString pool poolCIDRPath]

/-- The IPv4 CIDRs of the enabled Calico pools. -/
def calicoPoolCIDRs : Except ApiError (List Value) → Except ForbiddenError (List Str) :=
  optionalCIDRs .listIPPools poolCIDRs

/-- The IPv4 pod CIDRs that Cilium allocated to nodes. -/
def ciliumNodeCIDRs : Except ApiError (List CiliumNode) → Except ForbiddenError (List Str) :=
  optionalCIDRs .listCiliumNodes fun cn => nestedStringSlice cn.object ciliumPodCIDRsPath

/-- Drop empty entries and repetitions, keeping first occurrences. -/
def dedupe (l : List Str) : List Str :=
  l.foldl (fun out s => if s ≠ [] ∧ s ∉ out then out ++ [s] else out) []

/-- The deny list of the agents, and whether the cluster is OpenShift. -/
def clusterForbiddenCIDRs (policy : AcceptPolicy) (cluster : Cluster) :
    Except ForbiddenError (List Str × Bool) := do
  let out ← specIPv4CIDRs "forbiddenCIDRs".toList policy.forbiddenCIDRs
  let underlay ← specIPv4CIDRs "underlayCIDRs".toList policy.underlayCIDRs
  let (network, openshift) ← openshiftCIDRs cluster.network
  let nodes ← nodePodCIDRs cluster.nodes
  let svc ← serviceCIDRs cluster.serviceCIDRs
  let calico ← calicoPoolCIDRs cluster.ipPools
  let cilium ← ciliumNodeCIDRs cluster.ciliumNodes
  pure (sortStrings (dedupe
    (out ++ underlay ++ network ++ nodes ++ svc ++ calico ++ cilium)), openshift)

/-! ### What the sources declare -/

/-- A CIDR that the spec lists or a source that was read holds. -/
inductive DeclaredCIDR (policy : AcceptPolicy) (cluster : Cluster) (cidr : Str) : Prop
  | forbidden (h : cidr ∈ policy.forbiddenCIDRs)
  | underlay (h : cidr ∈ policy.underlayCIDRs)
  | clusterNetwork (nc : NetworkConfig) (read : cluster.network = .ok nc) (cn : Value)
      (mem : cn ∈ nestedSlice nc.object clusterNetworkPath)
      (h : nestedField cn clusterNetworkCIDRPath = some (.str cidr))
  | serviceNetwork (nc : NetworkConfig) (read : cluster.network = .ok nc)
      (h : .str cidr ∈ nestedSlice nc.object serviceNetworkPath)
  | node (nodes : List Node) (read : cluster.nodes = .ok nodes) (n : Node) (mem : n ∈ nodes)
      (h : cidr ∈ n.podCIDRs ∨ cidr = n.podCIDR)
  | service (items : List (List Str)) (read : cluster.serviceCIDRs = .ok items)
      (cidrs : List Str) (mem : cidrs ∈ items) (h : cidr ∈ cidrs)
  | ipPool (pools : List Value) (read : cluster.ipPools = .ok pools) (pool : Value)
      (mem : pool ∈ pools)
      (enabled : nestedField pool poolDisabledPath ≠ some (.bool true))
      (h : nestedField pool poolCIDRPath = some (.str cidr))
  | ciliumNode (cns : List CiliumNode) (read : cluster.ciliumNodes = .ok cns)
      (cn : CiliumNode) (mem : cn ∈ cns)
      (h : .str cidr ∈ nestedSlice cn.object ciliumPodCIDRsPath)

/-! ### What is collected -/

/-- The filter of the cluster sources is the reading of IPv4 CIDRs. -/
theorem isIPv4CIDR_iff {cidr : Str} : isIPv4CIDR cidr = true ↔ ReadsAsIPv4 cidr := by
  rw [isIPv4CIDR, ReadsAsIPv4]
  cases hp : parsePrefix cidr with
  | none => simp
  | some p =>
      simp only [Option.some.injEq, exists_eq_left', Prefix.isIPv4,
        isValid_of_parsePrefix hp, Bool.and_true]

/-- The entries of the spec that are kept are its IPv4 ones. -/
theorem mem_specIPv4CIDRs {field : Str} {cidrs out : List Str}
    (h : specIPv4CIDRs field cidrs = .ok out) {c : Str} :
    c ∈ out ↔ c ∈ cidrs ∧ ReadsAsIPv4 c := by
  induction cidrs generalizing out with
  | nil =>
      obtain rfl := Except.ok.inj h
      simp
  | cons cidr cidrs ih =>
      rw [specIPv4CIDRs] at h
      cases hp : parsePrefix cidr with
      | none =>
          rw [hp] at h
          cases h
      | some p =>
          rw [hp] at h
          obtain ⟨out', hout', hpure⟩ := Result.bind_eq_ok.mp h
          obtain rfl := Result.pure_eq_ok.mp hpure
          have h4 : p.addr.is4 = true ↔ ReadsAsIPv4 cidr := by
            rw [← isIPv4CIDR_iff, isIPv4CIDR, hp]
          have ih' := ih hout'
          split_ifs with his4
          · simp only [List.mem_cons, ih']
            constructor
            · rintro (rfl | ⟨hc, hr⟩)
              · exact ⟨.inl rfl, h4.mp his4⟩
              · exact ⟨.inr hc, hr⟩
            · rintro ⟨rfl | hc, hr⟩
              · exact .inl rfl
              · exact .inr ⟨hc, hr⟩
          · simp only [List.mem_cons, ih']
            constructor
            · exact fun ⟨hc, hr⟩ => ⟨.inr hc, hr⟩
            · rintro ⟨rfl | hc, hr⟩
              · exact absurd (h4.mpr hr) his4
              · exact ⟨hc, hr⟩

/-- The IPv4 CIDRs that the objects of a list hold. -/
theorem mem_flatMap_filter_isIPv4CIDR {α : Type} {cidrs : α → List Str} {l : List α} {c : Str} :
    (c ∈ l.flatMap fun item => (cidrs item).filter isIPv4CIDR) ↔
      ReadsAsIPv4 c ∧ ∃ item ∈ l, c ∈ cidrs item := by
  simp only [List.mem_flatMap, List.mem_filter, isIPv4CIDR_iff]
  constructor
  · rintro ⟨item, hitem, hc, hr⟩
    exact ⟨hr, item, hitem, hc⟩
  · rintro ⟨hr, item, hitem, hc⟩
    exact ⟨item, hitem, hc, hr⟩

/-- What an optional source contributes, if it was read. -/
theorem mem_optionalCIDRs {α : Type} {wrap : ApiError → ForbiddenError} {cidrs : α → List Str}
    {items : Except ApiError (List α)} {out : List Str}
    (h : optionalCIDRs wrap cidrs items = .ok out) {c : Str} :
    c ∈ out ↔ ReadsAsIPv4 c ∧ ∃ l, items = .ok l ∧ ∃ item ∈ l, c ∈ cidrs item := by
  cases items with
  | ok l =>
      obtain rfl := Except.ok.inj h
      rw [mem_flatMap_filter_isIPv4CIDR]
      simp only [Except.ok.injEq, exists_eq_left']
  | error err =>
      rw [optionalCIDRs] at h
      split_ifs at h
      obtain rfl := Except.ok.inj h
      simp

/-- Deduplication keeps the nonempty entries. -/
theorem mem_dedupe {l : List Str} {c : Str} : c ∈ dedupe l ↔ c ∈ l ∧ c ≠ [] := by
  have hfold : ∀ out : List Str,
      c ∈ l.foldl (fun out s => if s ≠ [] ∧ s ∉ out then out ++ [s] else out) out ↔
        c ∈ out ∨ (c ∈ l ∧ c ≠ []) := by
    induction l with
    | nil => simp
    | cons s l ih =>
        intro out
        rw [List.foldl_cons, ih]
        split_ifs with hs
        · simp only [List.mem_append, List.mem_cons, List.not_mem_nil, or_false]
          constructor
          · rintro ((hc | rfl) | ⟨hc, hne⟩)
            · exact .inl hc
            · exact .inr ⟨.inl rfl, hs.1⟩
            · exact .inr ⟨.inr hc, hne⟩
          · rintro (hc | ⟨rfl | hc, hne⟩)
            · exact .inl (.inl hc)
            · exact .inl (.inr rfl)
            · exact .inr ⟨hc, hne⟩
        · simp only [List.mem_cons]
          constructor
          · rintro (hc | ⟨hc, hne⟩)
            · exact .inl hc
            · exact .inr ⟨.inr hc, hne⟩
          · rintro (hc | ⟨rfl | hc, hne⟩)
            · exact .inl hc
            · exact .inl (by by_contra hout; exact hs ⟨hne, hout⟩)
            · exact .inr ⟨hc, hne⟩
  rw [dedupe, hfold]
  simp

/-- What the OpenShift network configuration contributes. -/
theorem mem_networkCIDRs {nc : NetworkConfig} {c : Str} :
    c ∈ networkCIDRs nc ↔ ReadsAsIPv4 c ∧
      ((∃ cn ∈ nestedSlice nc.object clusterNetworkPath,
          nestedField cn clusterNetworkCIDRPath = some (.str c)) ∨
        .str c ∈ nestedSlice nc.object serviceNetworkPath) := by
  simp only [networkCIDRs, List.mem_append, List.mem_filter, List.mem_filterMap,
    isIPv4CIDR_iff, mem_nestedStringSlice nc.serviceNetwork_strings,
    Option.bind_eq_some_iff, asString_eq_some, exists_eq_right]
  rw [← or_and_right, and_comm]

/-- What the OpenShift network configuration contributes, if it was read. -/
theorem mem_openshiftCIDRs {network : Except ApiError NetworkConfig} {out : List Str}
    {openshift : Bool} (h : openshiftCIDRs network = .ok (out, openshift)) {c : Str} :
    c ∈ out ↔ ∃ nc, network = .ok nc ∧ c ∈ networkCIDRs nc := by
  rcases network with (_ | _ | _ | _) | nc
  case ok =>
    obtain ⟨rfl, -⟩ := Prod.mk.inj (Except.ok.inj h)
    simp
  case error.notFound | error.noMatch =>
    obtain ⟨rfl, -⟩ := Prod.mk.inj (Except.ok.inj h)
    simp
  all_goals cases h

/-- The CIDRs of a node. -/
theorem mem_cidrs {n : Node} {c : Str} (hc : c ≠ []) :
    c ∈ n.cidrs ↔ c ∈ n.podCIDRs ∨ c = n.podCIDR := by
  rw [Node.cidrs]
  split_ifs with h
  · simp [h.1]
  · constructor
    · exact .inl
    · rintro (hmem | rfl)
      · exact hmem
      · exact n.podCIDR_mem (fun hnil => h ⟨hnil, hc⟩) hc

/-- What the nodes contribute. -/
theorem mem_nodePodCIDRs {nodes : Except ApiError (List Node)} {out : List Str}
    (h : nodePodCIDRs nodes = .ok out) {c : Str} :
    c ∈ out ↔ ReadsAsIPv4 c ∧ ∃ l, nodes = .ok l ∧ ∃ n ∈ l, c ∈ n.podCIDRs ∨ c = n.podCIDR := by
  cases nodes with
  | ok l =>
      obtain rfl := Except.ok.inj h
      rw [mem_flatMap_filter_isIPv4CIDR]
      simp only [Except.ok.injEq, exists_eq_left']
      refine and_congr_right fun hr => exists_congr fun n => and_congr_right fun _ => ?_
      exact mem_cidrs hr.ne_nil
  | error err => cases h

/-- What a Calico pool contributes: its CIDR, unless it is disabled. -/
theorem mem_poolCIDRs {pool : Value} {c : Str} (hc : c ≠ []) :
    c ∈ poolCIDRs pool ↔
      nestedField pool poolDisabledPath ≠ some (.bool true) ∧
        nestedField pool poolCIDRPath = some (.str c) := by
  have hdisabled : nestedBool pool poolDisabledPath = true ↔
      nestedField pool poolDisabledPath = some (.bool true) := by
    rw [nestedBool]
    split
    · next b heq => rw [heq, Option.some.injEq, Value.bool.injEq]
    · next hne =>
        constructor
        · exact fun h => absurd h (by decide)
        · exact fun heq => absurd heq (hne true)
  have hcidr : c = nestedString pool poolCIDRPath ↔
      nestedField pool poolCIDRPath = some (.str c) := by
    rw [nestedString]
    cases nestedField pool poolCIDRPath with
    | none => simp [hc]
    | some v => cases v <;> simp [asString, hc, eq_comm]
  rw [poolCIDRs]
  split_ifs with h
  · simp [hdisabled.mp h]
  · rw [List.mem_singleton, hcidr, and_iff_right (mt hdisabled.mpr h)]

/-- **What is forbidden.** The list that is returned holds exactly the texts that a source
declares and that read as IPv4 CIDRs. -/
theorem mem_clusterForbiddenCIDRs {policy : AcceptPolicy} {cluster : Cluster}
    {forbidden : List Str} {openshift : Bool}
    (h : clusterForbiddenCIDRs policy cluster = .ok (forbidden, openshift)) {c : Str} :
    c ∈ forbidden ↔ DeclaredCIDR policy cluster c ∧ ReadsAsIPv4 c := by
  simp only [clusterForbiddenCIDRs, Result.bind_eq_ok, Result.pure_eq_ok, Prod.exists,
    Prod.mk.injEq] at h
  obtain ⟨out, hout, underlay, hunderlay, network, os, hnetwork, nodes, hnodes, svc, hsvc,
    calico, hcalico, cilium, hcilium, rfl, -⟩ := h
  rw [mem_sortStrings, mem_dedupe]
  simp only [List.mem_append, or_assoc, mem_specIPv4CIDRs hout, mem_specIPv4CIDRs hunderlay,
    mem_openshiftCIDRs hnetwork, mem_networkCIDRs, mem_nodePodCIDRs hnodes,
    mem_optionalCIDRs hsvc, mem_optionalCIDRs hcalico, mem_optionalCIDRs hcilium, id]
  constructor
  · rintro ⟨⟨hc, hr⟩ | ⟨hc, hr⟩ | ⟨nc, hread, hr, ⟨cn, hcn, hc⟩ | hc⟩ | ⟨hr, l, hread, n, hn, hc⟩ |
      ⟨hr, l, hread, item, hitem, hc⟩ | ⟨hr, l, hread, pool, hpool, hc⟩ |
      ⟨hr, l, hread, cn, hcn, hc⟩, hne⟩
    · exact ⟨.forbidden hc, hr⟩
    · exact ⟨.underlay hc, hr⟩
    · exact ⟨.clusterNetwork nc hread cn hcn hc, hr⟩
    · exact ⟨.serviceNetwork nc hread hc, hr⟩
    · exact ⟨.node l hread n hn hc, hr⟩
    · exact ⟨.service l hread item hitem hc, hr⟩
    · obtain ⟨henabled, hcidr⟩ := (mem_poolCIDRs hne).mp hc
      exact ⟨.ipPool l hread pool hpool henabled hcidr, hr⟩
    · exact ⟨.ciliumNode l hread cn hcn ((mem_nestedStringSlice cn.podCIDRs_strings).mp hc), hr⟩
  · rintro ⟨hc, hr⟩
    refine ⟨?_, hr.ne_nil⟩
    cases hc with
    | forbidden hc => exact .inl ⟨hc, hr⟩
    | underlay hc => exact .inr (.inl ⟨hc, hr⟩)
    | clusterNetwork nc hread cn hcn hc =>
        exact .inr (.inr (.inl ⟨nc, hread, hr, .inl ⟨cn, hcn, hc⟩⟩))
    | serviceNetwork nc hread hc => exact .inr (.inr (.inl ⟨nc, hread, hr, .inr hc⟩))
    | node l hread n hn hc => exact .inr (.inr (.inr (.inl ⟨hr, l, hread, n, hn, hc⟩)))
    | service l hread item hitem hc =>
        exact .inr (.inr (.inr (.inr (.inl ⟨hr, l, hread, item, hitem, hc⟩))))
    | ipPool l hread pool hpool henabled hc =>
        exact .inr (.inr (.inr (.inr (.inr (.inl
          ⟨hr, l, hread, pool, hpool, (mem_poolCIDRs hr.ne_nil).mpr ⟨henabled, hc⟩⟩)))))
    | ciliumNode l hread cn hcn hc =>
        exact .inr (.inr (.inr (.inr (.inr (.inr
          ⟨hr, l, hread, cn, hcn, (mem_nestedStringSlice cn.podCIDRs_strings).mpr hc⟩)))))

/-! ### What the list depends on -/

/-- The sources of a cluster. -/
inductive Source
  | network
  | nodes
  | serviceCIDRs
  | ipPools
  | ciliumNodes

/-- A source of a cluster was read and holds a CIDR. -/
def Source.Holds (cluster : Cluster) (cidr : Str) : Source → Prop
  | .network => ∃ nc, cluster.network = .ok nc ∧
      ((∃ cn ∈ nestedSlice nc.object clusterNetworkPath,
          nestedField cn clusterNetworkCIDRPath = some (.str cidr)) ∨
        .str cidr ∈ nestedSlice nc.object serviceNetworkPath)
  | .nodes => ∃ nodes, cluster.nodes = .ok nodes ∧
      ∃ n ∈ nodes, cidr ∈ n.podCIDRs ∨ cidr = n.podCIDR
  | .serviceCIDRs => ∃ items, cluster.serviceCIDRs = .ok items ∧ ∃ cidrs ∈ items, cidr ∈ cidrs
  | .ipPools => ∃ pools, cluster.ipPools = .ok pools ∧ ∃ pool ∈ pools,
      nestedField pool poolDisabledPath ≠ some (.bool true) ∧
        nestedField pool poolCIDRPath = some (.str cidr)
  | .ciliumNodes => ∃ cns, cluster.ciliumNodes = .ok cns ∧
      ∃ cn ∈ cns, .str cidr ∈ nestedSlice cn.object ciliumPodCIDRsPath

/-- Each source holds the same IPv4 CIDRs in two clusters, in any order and number, and anything
else besides. -/
def SameSources (cluster cluster' : Cluster) : Prop :=
  ∀ (source : Source) (cidr : Str), ReadsAsIPv4 cidr →
    (source.Holds cluster cidr ↔ source.Holds cluster' cidr)

/-- What is declared is what the spec lists or a source holds. -/
theorem declaredCIDR_iff {policy : AcceptPolicy} {cluster : Cluster} {cidr : Str} :
    DeclaredCIDR policy cluster cidr ↔ cidr ∈ policy.forbiddenCIDRs ∨
      cidr ∈ policy.underlayCIDRs ∨ ∃ source : Source, source.Holds cluster cidr := by
  constructor
  · intro h
    cases h with
    | forbidden h => exact .inl h
    | underlay h => exact .inr (.inl h)
    | clusterNetwork nc read cn mem h =>
        exact .inr (.inr ⟨.network, nc, read, .inl ⟨cn, mem, h⟩⟩)
    | serviceNetwork nc read h => exact .inr (.inr ⟨.network, nc, read, .inr h⟩)
    | node nodes read n mem h => exact .inr (.inr ⟨.nodes, nodes, read, n, mem, h⟩)
    | service items read cidrs mem h =>
        exact .inr (.inr ⟨.serviceCIDRs, items, read, cidrs, mem, h⟩)
    | ipPool pools read pool mem enabled h =>
        exact .inr (.inr ⟨.ipPools, pools, read, pool, mem, enabled, h⟩)
    | ciliumNode cns read cn mem h => exact .inr (.inr ⟨.ciliumNodes, cns, read, cn, mem, h⟩)
  · rintro (h | h | ⟨source, h⟩)
    · exact .forbidden h
    · exact .underlay h
    · cases source with
      | network =>
          obtain ⟨nc, read, ⟨cn, mem, h⟩ | h⟩ := h
          · exact .clusterNetwork nc read cn mem h
          · exact .serviceNetwork nc read h
      | nodes =>
          obtain ⟨nodes, read, n, mem, h⟩ := h
          exact .node nodes read n mem h
      | serviceCIDRs =>
          obtain ⟨items, read, cidrs, mem, h⟩ := h
          exact .service items read cidrs mem h
      | ipPools =>
          obtain ⟨pools, read, pool, mem, enabled, h⟩ := h
          exact .ipPool pools read pool mem enabled h
      | ciliumNodes =>
          obtain ⟨cns, read, cn, mem, h⟩ := h
          exact .ciliumNode cns read cn mem h

/-- Deduplication leaves no repetitions. -/
theorem nodup_dedupe (l : List Str) : (dedupe l).Nodup := by
  have hfold : ∀ out : List Str, out.Nodup →
      (l.foldl (fun out s => if s ≠ [] ∧ s ∉ out then out ++ [s] else out) out).Nodup := by
    induction l with
    | nil => exact fun out h => h
    | cons s l ih =>
        intro out hout
        rw [List.foldl_cons]
        split_ifs with hs
        · refine ih _ (List.nodup_append.mpr ⟨hout, List.nodup_singleton s, ?_⟩)
          rintro t ht u hu rfl
          exact hs.2 (List.mem_singleton.mp hu ▸ ht)
        · exact ih _ hout
  exact hfold [] List.nodup_nil

/-- The list that is returned is in strict order. -/
theorem pairwise_lt_clusterForbiddenCIDRs {policy : AcceptPolicy} {cluster : Cluster}
    {forbidden : List Str} {openshift : Bool}
    (h : clusterForbiddenCIDRs policy cluster = .ok (forbidden, openshift)) :
    forbidden.Pairwise (· < ·) := by
  simp only [clusterForbiddenCIDRs, Result.bind_eq_ok, Result.pure_eq_ok, Prod.exists,
    Prod.mk.injEq] at h
  obtain ⟨_, _, _, _, _, _, _, _, _, _, _, _, _, _, _, rfl, -⟩ := h
  exact pairwise_lt_sortStrings (nodup_dedupe _)

/-- Two clusters whose sources hold the same IPv4 CIDRs have the same list. -/
theorem clusterForbiddenCIDRs_congr {policy : AcceptPolicy} {cluster cluster' : Cluster}
    (hsame : SameSources cluster cluster') {forbidden forbidden' : List Str}
    {openshift openshift' : Bool}
    (h : clusterForbiddenCIDRs policy cluster = .ok (forbidden, openshift))
    (h' : clusterForbiddenCIDRs policy cluster' = .ok (forbidden', openshift')) :
    forbidden = forbidden' := by
  have hmem : ∀ c, c ∈ forbidden ↔ c ∈ forbidden' := by
    intro c
    rw [mem_clusterForbiddenCIDRs h, mem_clusterForbiddenCIDRs h', declaredCIDR_iff,
      declaredCIDR_iff]
    refine and_congr_left fun hr => or_congr_right (or_congr_right (exists_congr fun source => ?_))
    exact hsame source c hr
  have hlt := pairwise_lt_clusterForbiddenCIDRs h
  have hlt' := pairwise_lt_clusterForbiddenCIDRs h'
  have hperm : forbidden.Perm forbidden' :=
    (List.perm_ext_iff_of_nodup (hlt.imp ne_of_lt) (hlt'.imp ne_of_lt)).mpr hmem
  exact hperm.eq_of_pairwise (fun _ _ _ _ hab hba => absurd hba (lt_asymm hab)) hlt hlt'

end ScionOperator
