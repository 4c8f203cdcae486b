import Mathlib.Data.Finset.Card
import ScionOperator.StatusUpdate

/-!
# What Available Means

The network is reported as available when as many agent pods are ready as the DaemonSet wants
scheduled. Two counts are compared and no pod is matched with a node. So a ready pod that is left
on a node which is no longer selected, or a second one on the same node, makes up for a node that
has none. If the DaemonSet cannot be read, the pods are compared with themselves.

## Main results

* `covers_iff_of_length_eq`: as many names as nodes cover the nodes exactly if each names
  another one of them.
* `available_status`: the `Available` condition that is persisted.
* `served_iff`: **available means that every desired node is served exactly if the ready pods
  are matched with the desired nodes.**
-/

namespace ScionOperator.Status

open Text

/-- The status of the `Available` condition, if there is one. -/
def NetworkStatus.available (status : NetworkStatus) : Option ConditionStatus :=
  ((findStatusCondition "Available".toList status.conditions).map
    Condition.toConditionUpdate).map ConditionUpdate.status

/-- The nodes with a ready agent, one entry for each pod. -/
def Observed.readyNodes (o : Observed) : List Str :=
  (o.pods.filter podReady).map Pod.nodeName

/-- Every one of the nodes has a ready agent. -/
def Observed.Served (o : Observed) (nodes : Finset Str) : Prop :=
  ∀ n ∈ nodes, ∃ p ∈ o.pods, podReady p = true ∧ p.nodeName = n

/-- The pods are matched with the nodes: no node has two ready pods and no ready pod is
elsewhere. If the DaemonSet cannot be read, each node must have a pod. -/
def Observed.Matched (o : Observed) (nodes : Finset Str) : Prop :=
  match o.daemonSet with
  | some _ => o.readyNodes.Nodup ∧ ∀ n ∈ o.readyNodes, n ∈ nodes
  | none => ∀ n ∈ nodes, ∃ p ∈ o.pods, p.nodeName = n

/-- As many names as there are nodes cover the nodes exactly if each names another one of
them. -/
theorem covers_iff_of_length_eq {names : List Str} {nodes : Finset Str}
    (h : names.length = nodes.card) :
    (∀ n ∈ nodes, n ∈ names) ↔ names.Nodup ∧ ∀ n ∈ names, n ∈ nodes := by
  constructor
  · intro hcover
    have hsub : nodes ⊆ names.toFinset := fun n hn => List.mem_toFinset.mpr (hcover n hn)
    have hle : names.toFinset.card ≤ nodes.card := h ▸ List.toFinset_card_le names
    have heq : nodes = names.toFinset := Finset.eq_of_subset_of_card_le hsub hle
    refine ⟨?_, fun n hn => heq ▸ List.mem_toFinset.mpr hn⟩
    rw [← Multiset.coe_nodup, ← Multiset.toFinset_card_eq_card_iff_nodup]
    exact (congrArg Finset.card heq).symm.trans h.symm
  · rintro ⟨hnodup, hin⟩ n hn
    have hsub : names.toFinset ⊆ nodes := fun n hn => hin n (List.mem_toFinset.mp hn)
    have hcard : nodes.card ≤ names.toFinset.card := by
      rw [List.toFinset_card_of_nodup hnodup, h]
    rw [← Finset.eq_of_subset_of_card_le hsub hcard] at hn
    exact List.mem_toFinset.mp hn

/-- The served nodes are those of the ready pods. -/
theorem served_iff_readyNodes {o : Observed} {nodes : Finset Str} :
    o.Served nodes ↔ ∀ n ∈ nodes, n ∈ o.readyNodes := by
  simp only [Observed.Served, Observed.readyNodes, List.mem_map, List.mem_filter, and_assoc]

/-- The condition on availability is set to whether the service is available. -/
theorem availableCond_eq (o : Observed) (generation : ℕ) :
    ∃ reason message, o.availableCond generation =
      setCond generation "Available" o.available reason message := by
  rw [Observed.availableCond]
  split_ifs
  · exact ⟨_, _, rfl⟩
  · exact ⟨_, _, rfl⟩

/-- The `Available` condition of the status that is persisted. -/
theorem available_status {o : Observed} {generation : ℕ} {backend : Str}
    {status : NetworkStatus} :
    (o.status generation backend status).available = some .conditionTrue ↔
      o.available = true := by
  have hconditions : (o.status generation backend status).conditions =
      setStatusCondition o.now (setCond generation "Degraded" (o.degradedReason backend).1
          (o.degradedReason backend).2.1 (o.degradedReason backend).2.2)
        (setStatusCondition o.now
          (setCond generation "Progressing" o.progressing "Rollout".toList o.readyMsg)
          (setStatusCondition o.now (o.availableCond generation) status.conditions)) := rfl
  have htype : ∀ type on reason message,
      (setCond generation type on reason message).type = type.toList := fun _ _ _ _ => rfl
  obtain ⟨reason, message, hcond⟩ := availableCond_eq o generation
  -- the two conditions that are set later have other types
  rw [NetworkStatus.available, hconditions, findStatusCondition_setStatusCondition, htype,
    if_neg (by decide), findStatusCondition_setStatusCondition, htype, if_neg (by decide),
    findStatusCondition_setStatusCondition, hcond, htype, if_pos rfl, Option.map_some,
    Option.some.injEq, setCond]
  cases o.available <;> simp

/-- Availability compares two counts. -/
theorem length_readyNodes_of_available {o : Observed} (h : o.available = true) :
    o.readyNodes.length = o.summary.total := by
  rw [Observed.available, Observed.agentsAvailable, Bool.and_eq_true, Bool.and_eq_true] at h
  rw [Observed.readyNodes, List.length_map]
  exact of_decide_eq_true h.1.2

/-- With nothing to compare them with, all pods are ready. -/
theorem podReady_of_available {o : Observed} (h : o.available = true) (hds : o.daemonSet = none) :
    ∀ p ∈ o.pods, podReady p = true := by
  have hlen := length_readyNodes_of_available h
  rw [Observed.readyNodes, List.length_map, Observed.summary, hds] at hlen
  exact List.length_filter_eq_length_iff.mp hlen

/-- Where the network is available, the desired nodes are served exactly if the pods are
matched with them. -/
theorem served_iff_matched {o : Observed} {nodes : Finset Str}
    (hnodes : ∀ ds, o.daemonSet = some ds → ds.desiredNumberScheduled = nodes.card)
    (h : o.available = true) : o.Served nodes ↔ o.Matched nodes := by
  rw [Observed.Matched]
  cases hds : o.daemonSet with
  | some ds =>
      have hlen : o.readyNodes.length = nodes.card := by
        rw [length_readyNodes_of_available h, ← hnodes ds hds, Observed.summary, hds]
      rw [served_iff_readyNodes]
      exact covers_iff_of_length_eq hlen
  | none =>
      have hready := podReady_of_available h hds
      constructor
      · intro hserved n hn
        obtain ⟨p, hp, -, hname⟩ := hserved n hn
        exact ⟨p, hp, hname⟩
      · intro hpods n hn
        obtain ⟨p, hp, hname⟩ := hpods n hn
        exact ⟨p, hp, hready p hp, hname⟩

/-- **What available means.** Let an update have listed the pods and persisted a status with
`Available=True`, and let the DaemonSet want as many pods as there are nodes in a set. Then
every node of the set has a ready agent exactly if the pods are matched with the set. -/
theorem served_iff (w : World) (call : Call) (status : NetworkStatus) (nodes : Finset Str)
    (hlist : call.listPodsFails = false) (hwrite : call.write.isPersisted = true)
    (hnodes : ∀ ds, call.observed.daemonSet = some ds →
      ds.desiredNumberScheduled = nodes.card)
    (havailable : (updateStatus w call status).1.status.available = some .conditionTrue) :
    call.observed.Served nodes ↔ call.observed.Matched nodes := by
  rw [status_updateStatus hlist hwrite, available_status] at havailable
  exact served_iff_matched hnodes havailable

/-- A ready agent on a node. -/
def readyAgent (node : String) : Pod :=
  ⟨("scion-node-agent-" ++ node).toList, node.toList,
    [⟨"Ready".toList, .conditionTrue, 0⟩], 0⟩

/-- A reconcile that finds agents, with a DaemonSet that wants as many. -/
def callWithAgents (pods : List Pod) : Call :=
  { sampleCall .conditionTrue none with
    observed := ⟨0, pods, some ⟨1, 1, pods.length⟩, ⟨0, [], none, []⟩, false,
      ⟨.conditionTrue, [], []⟩⟩ }

/-- An agent on each of two nodes serves both. -/
theorem served_of_two_agents :
    (callWithAgents [readyAgent "worker-1", readyAgent "worker-2"]).observed.Served
      {"worker-1".toList, "worker-2".toList} :=
  (served_iff ⟨emptyStatus, 0⟩ (callWithAgents [readyAgent "worker-1", readyAgent "worker-2"])
    emptyStatus {"worker-1".toList, "worker-2".toList} rfl rfl
    (by intro ds hds; obtain rfl := Option.some.inj hds; decide +kernel)
    (by decide +kernel)).mpr ⟨by decide +kernel, by decide +kernel⟩

/-- **A node without an agent.** An agent that is left on a node which is no longer selected
makes the network available, although the only node that is selected has none. -/
theorem available_without_agent :
    (callWithAgents [readyAgent "worker-1"]).observed.daemonSet = some ⟨1, 1, 1⟩ ∧
      (updateStatus ⟨emptyStatus, 0⟩ (callWithAgents [readyAgent "worker-1"])
        emptyStatus).1.status.available = some .conditionTrue ∧
      ¬ (callWithAgents [readyAgent "worker-1"]).observed.Served {"worker-2".toList} := by
  refine ⟨rfl, by decide +kernel, fun h => ?_⟩
  obtain ⟨p, hp, -, hname⟩ := h "worker-2".toList (Finset.mem_singleton_self _)
  obtain rfl := List.mem_singleton.mp hp
  exact absurd hname (by decide +kernel)

end ScionOperator.Status
