import ScionOperator.Api
import ScionOperator.Text

/-!
# The Status of a Network and its Metric

After it has applied the objects, a reconcile sums up the agent pods, the platform and the
registrar in the status of the `ScionNetwork` (`updateStatus`), persists it, and sets the
metric `scion_operator_scionnetwork_degraded`. If reading the cluster configuration or applying
the objects fails, the reconcile persists a `Degraded` condition as well (`markApplyFailed`),
but does not touch the metric. So the metric can contradict the condition
(`gauge_zero_after_failed_apply`): they agree after a failure only if the metric was 1 before.

## Main results

* `findStatusCondition_setStatusCondition`: what is read back after a condition was set.
* `isDegraded_iff`: the reasons for which the network is degraded.
* `agrees_iff`: **when the metric agrees with the status**, after any calls.
-/

namespace ScionOperator.Status

open Text

/-! ### Conditions -/

/-- The status of a condition. -/
inductive ConditionStatus
  | conditionTrue
  | conditionFalse
  | conditionUnknown
  deriving DecidableEq

/-- What a condition is set to. -/
structure ConditionUpdate where
  type : Str
  status : ConditionStatus
  reason : Str
  message : Str
  observedGeneration : ℕ
  deriving DecidableEq

/-- A condition in a status, with the time at which its status changed last. -/
structure Condition extends ConditionUpdate where
  lastTransitionTime : ℤ
  deriving DecidableEq

/-- Set a condition (`meta.SetStatusCondition`): the first one of this type is replaced, and
its time is kept if its status is. -/
def setStatusCondition (now : ℤ) (new : ConditionUpdate) : List Condition → List Condition
  | [] => [⟨new, now⟩]
  | c :: cs =>
      if c.type = new.type then
        ⟨new, if c.status = new.status then c.lastTransitionTime else now⟩ :: cs
      else c :: setStatusCondition now new cs

/-- The first condition of a type (`meta.FindStatusCondition`). -/
def findStatusCondition (type : Str) (conditions : List Condition) : Option Condition :=
  conditions.find? fun c => c.type = type

/-- After a condition was set, it is found, and the conditions of other types are as before. -/
theorem findStatusCondition_setStatusCondition (now : ℤ) (new : ConditionUpdate)
    (conditions : List Condition) (type : Str) :
    (findStatusCondition type (setStatusCondition now new conditions)).map
        Condition.toConditionUpdate =
      if new.type = type then some new
      else (findStatusCondition type conditions).map Condition.toConditionUpdate := by
  induction conditions with
  | nil =>
      by_cases h : new.type = type <;> simp [setStatusCondition, findStatusCondition, h]
  | cons c cs ih =>
      simp only [findStatusCondition] at ih ⊢
      by_cases hc : c.type = new.type
      · rw [setStatusCondition, if_pos hc]
        by_cases h : new.type = type <;> simp [h, hc]
      · rw [setStatusCondition, if_neg hc]
        by_cases h : c.type = type
        · have hne : new.type ≠ type := fun heq => hc (h.trans heq.symm)
          simp [h, hne]
        · simp only [List.find?_cons, h, decide_false]
          exact ih

/-! ### The status -/

/-- The agents on the nodes. -/
structure NodeSummary where
  ready : ℕ
  total : ℕ
  degraded : List Str
  deriving DecidableEq

/-- The registration with the AS. -/
structure RegistrarStatus where
  registeredNodes : ℕ
  desiredSIGs : List Str
  lastSyncTime : Option ℤ
  lastError : Str
  deriving DecidableEq

/-- The status of a `ScionNetwork`. -/
structure NetworkStatus where
  conditions : List Condition
  isdAS : Str
  nodes : NodeSummary
  registrar : RegistrarStatus
  deriving DecidableEq

/-- Whether pods keep their source addresses. -/
structure PodEgressPlatform where
  status : ConditionStatus
  reason : Str
  message : Str

/-- A condition of a pod. -/
structure PodCondition where
  type : Str
  status : ConditionStatus
  lastTransitionTime : ℤ

/-- An agent pod. -/
structure Pod where
  name : Str
  nodeName : Str
  conditions : List PodCondition
  creationTimestamp : ℤ

/-- What is read of the DaemonSet. -/
structure DaemonSet where
  generation : ℕ
  observedGeneration : ℕ
  desiredNumberScheduled : ℕ

/-- The condition that says whether a pod is ready. -/
def Pod.readyCondition (p : Pod) : Option PodCondition :=
  p.conditions.find? fun c => c.type = "Ready".toList

/-- Whether a pod is ready. -/
def podReady (p : Pod) : Bool :=
  match p.readyCondition with
  | some c => c.status = .conditionTrue
  | none => false

/-- Since when a pod is not ready. -/
def unreadySince (p : Pod) : ℤ :=
  match p.readyCondition with
  | some c => c.lastTransitionTime
  | none => p.creationTimestamp

/-- How long a pod may be unready: five minutes, in nanoseconds. -/
def unreadyGracePeriod : ℤ :=
  300000000000

/-- A pod that is unready for too long. -/
def agedOut (now : ℤ) (p : Pod) : Bool :=
  !podReady p && !decide (now - unreadySince p < unreadyGracePeriod)

/-- The name under which a pod is listed: that of its node, if it is on one. -/
def degradedName (p : Pod) : Str :=
  if p.nodeName = [] then p.name else p.nodeName

/-- Whether the network is degraded, with the reason and a message. -/
def degradedReason (degradedAgents : ℕ) (unreadyMsg : Str) (platform : PodEgressPlatform)
    (regFailed : Bool) (regLastError backend : Str) : Bool × Str × Str :=
  let regDegraded := regFailed && backend ≠ [] && backend ≠ "manual".toList
  if degradedAgents > 0 then (true, "UnreadyAgents".toList, unreadyMsg)
  else if platform.status = .conditionFalse then (true, platform.reason, platform.message)
  else if regDegraded then (true, "RegistrarSyncFailed".toList, regLastError)
  else (false, "AsExpected".toList, unreadyMsg)

/-- What a reconcile sums up in the status, besides the object. -/
structure Observed where
  now : ℤ
  pods : List Pod
  /-- the DaemonSet, if it can be read -/
  daemonSet : Option DaemonSet
  registrar : RegistrarStatus
  regFailed : Bool
  platform : PodEgressPlatform

/-- The nodes with a pod that is unready for too long. -/
def Observed.degraded (o : Observed) : List Str :=
  sortStrings ((o.pods.filter (agedOut o.now)).map degradedName)

/-- How many agents are ready, and how many there should be. -/
def Observed.summary (o : Observed) : NodeSummary where
  ready := (o.pods.filter podReady).length
  total := match o.daemonSet with
    | some ds => ds.desiredNumberScheduled
    | none => o.pods.length
  degraded := o.degraded

/-- The message on the nodes that are degraded. -/
def Observed.unreadyMsg (o : Observed) : Str :=
  "nodes unready for over 5m0s: [".toList ++ join ' ' o.degraded ++ "]".toList

/-- Whether the network is degraded, with the reason and a message. -/
def Observed.degradedReason (o : Observed) (backend : Str) : Bool × Str × Str :=
  Status.degradedReason o.degraded.length o.unreadyMsg o.platform o.regFailed
    o.registrar.lastError backend

/-- All agents that there should be are ready. -/
def Observed.agentsAvailable (o : Observed) : Bool :=
  decide (o.summary.total > 0) && o.summary.ready = o.summary.total

/-- The service is available: the agents are, and pods may keep their source addresses. -/
def Observed.available (o : Observed) : Bool :=
  o.agentsAvailable && o.platform.status ≠ .conditionFalse

/-- A rollout is in progress. -/
def Observed.progressing (o : Observed) : Bool :=
  let dsCurrent := match o.daemonSet with
    | some ds => ds.observedGeneration = ds.generation
    | none => false
  !dsCurrent || o.summary.total = 0 || o.summary.ready < o.summary.total

/-- How many agents are ready, as text. -/
def Observed.readyMsg (o : Observed) : Str :=
  itoa o.summary.ready ++ "/".toList ++ itoa o.summary.total ++ " node agents ready".toList

/-- A condition that is on or off. -/
def setCond (generation : ℕ) (type : String) (on : Bool) (reason message : Str) :
    ConditionUpdate where
  type := type.toList
  status := if on then .conditionTrue else .conditionFalse
  reason := reason
  message := message
  observedGeneration := generation

/-- The condition that tells whether the service is available. -/
def Observed.availableCond (o : Observed) (generation : ℕ) : ConditionUpdate :=
  if o.agentsAvailable && o.platform.status = .conditionFalse then
    setCond generation "Available" o.available o.platform.reason o.platform.message
  else setCond generation "Available" o.available "NodeAgents".toList o.readyMsg

/-- The status that is persisted. -/
def Observed.status (o : Observed) (generation : ℕ) (backend : Str) (status : NetworkStatus) :
    NetworkStatus :=
  let (isDegraded, reason, degradedMsg) := o.degradedReason backend
  let conditions := setStatusCondition o.now (o.availableCond generation) status.conditions
  let conditions := setStatusCondition o.now
    (setCond generation "Progressing" o.progressing "Rollout".toList o.readyMsg) conditions
  let conditions := setStatusCondition o.now
    (setCond generation "Degraded" isDegraded reason degradedMsg) conditions
  { status with conditions := conditions, nodes := o.summary, registrar := o.registrar }

/-! ### Reconciling -/

/-- How writing the status ends. A write whose answer is lost was persisted. -/
inductive Write
  | persisted
  | unanswered
  | conflict
  | failed
  deriving DecidableEq

/-- Whether the API server has persisted what was written. -/
def Write.isPersisted : Write → Bool
  | .persisted | .unanswered => true
  | .conflict | .failed => false

/-- The persisted status and the metric. -/
structure World where
  status : NetworkStatus
  gauge : ℕ

/-- What a reconcile reads and what its calls end with. A status that is not the current one
is refused by the API server when it is written; it does not matter here. -/
structure Call where
  /-- the object cannot be read -/
  getFails : Bool
  generation : ℕ
  bootstrapMode : Str
  backend : Str
  /-- the finalizer is missing and cannot be added -/
  addFinalizerFails : Bool
  /-- the error of `clusterForbiddenCIDRs` -/
  forbiddenError : Option Str
  /-- the error of `validateNodeIPAdvertisement` -/
  nodeIPError : Option Str
  /-- the error of `apply` -/
  applyError : Option Str
  /-- the ISD-AS in the topology of the discovery server, if it can be fetched -/
  discovered : Option Str
  /-- the agent pods cannot be listed -/
  listPodsFails : Bool
  observed : Observed
  write : Write

/-- What a reconcile returns. -/
inductive Result
  | done
  | requeue
  | requeueAfter (seconds : ℕ)
  | failed
  deriving DecidableEq

/-- What a reconcile ends with, and whether it persisted a status. -/
structure Outcome where
  world : World
  persisted : Bool
  result : Result

/-- Fill in the ISD-AS, if the operator can find it out and has not yet. -/
def discoverISDAS (call : Call) (status : NetworkStatus) : NetworkStatus :=
  if call.bootstrapMode ≠ "url".toList ∨ status.isdAS ≠ [] then status
  else
    match call.discovered with
    | some ia => if ia = [] then status else { status with isdAS := ia }
    | none => status

/-- Write a status; the metric is not touched. -/
def World.write (w : World) (status : NetworkStatus) (write : Write) : World :=
  if write.isPersisted then { w with status := status } else w

/-- Surface a failure in the `Degraded` condition; whether that is persisted is ignored. -/
def markApplyFailed (w : World) (call : Call) (message : Str) : World :=
  let conditions := setStatusCondition call.observed.now
    (setCond call.generation "Degraded" true "ApplyFailed".toList message) w.status.conditions
  w.write { w.status with conditions := conditions } call.write

/-- Sum up and persist the status, and set the metric if the write was answered. -/
def updateStatus (w : World) (call : Call) (status : NetworkStatus) : World × Option Bool :=
  if call.listPodsFails then (w, none)
  else
    let w' := w.write (call.observed.status call.generation call.backend status) call.write
    if call.write = .persisted then
      let isDegraded := (call.observed.degradedReason call.backend).1
      ({ w' with gauge := if isDegraded then 1 else 0 }, some call.observed.available)
    else (w', none)

/-- The first failure before the objects are applied. -/
def Call.failure (call : Call) : Option Str :=
  call.forbiddenError <|> call.nodeIPError <|> call.applyError

/-- What is returned when the status was updated. -/
def Call.result (call : Call) (available : Bool) : Result :=
  if call.observed.regFailed then .requeueAfter 60
  else if !available then .requeueAfter 30
  else if call.observed.platform.status ≠ .conditionTrue then .requeueAfter 300
  else .done

/-- One reconcile of an object that is not being deleted. -/
def reconcile (w : World) (call : Call) : Outcome :=
  if call.getFails then ⟨w, false, .failed⟩
  else if call.addFinalizerFails then ⟨w, false, .failed⟩
  else
    match call.failure with
    | some message => ⟨markApplyFailed w call message, call.write.isPersisted, .failed⟩
    | none =>
        match updateStatus w call (discoverISDAS call w.status) with
        | (w', some available) => ⟨w', true, call.result available⟩
        | (w', none) =>
            ⟨w', !call.listPodsFails && call.write.isPersisted,
              if !call.listPodsFails && call.write = .conflict then .requeue else .failed⟩

/-- The world after some reconciles. -/
def reconcileAll (w : World) (calls : List Call) : World :=
  calls.foldl (fun w call => (reconcile w call).world) w

/-! ### The metric and the condition -/

/-- The status of the `Degraded` condition, if there is one. -/
def NetworkStatus.degraded (status : NetworkStatus) : Option ConditionStatus :=
  ((findStatusCondition "Degraded".toList status.conditions).map
    Condition.toConditionUpdate).map ConditionUpdate.status

/-- The metric is 1 exactly if the persisted `Degraded` condition is true. -/
def World.Agrees (w : World) : Prop :=
  w.gauge = 1 ↔ w.status.degraded = some .conditionTrue

instance (w : World) : Decidable w.Agrees :=
  inferInstanceAs (Decidable (_ ↔ _))

/-- The network is degraded: an agent is unready for too long, pods lose their source
addresses, or the registration failed at a registrar that is not the manual one. -/
def Observed.IsDegraded (o : Observed) (backend : Str) : Prop :=
  (∃ p ∈ o.pods, agedOut o.now p = true) ∨ o.platform.status = .conditionFalse ∨
    (o.regFailed = true ∧ backend ≠ [] ∧ backend ≠ "manual".toList)

instance (o : Observed) (backend : Str) : Decidable (o.IsDegraded backend) :=
  inferInstanceAs (Decidable (_ ∨ _))

/-- What is persisted without setting the metric is what the metric says already: that the
network is degraded when a failure is surfaced, and whether it is when the answer to the
write is lost. -/
def KeepsAgreement (w : World) (call : Call) : Prop :=
  (call.failure.isSome = true → w.gauge = 1) ∧
    (call.failure = none → call.write = .unanswered →
      (w.gauge = 1 ↔ call.observed.IsDegraded call.backend))

instance (w : World) (call : Call) : Decidable (KeepsAgreement w call) :=
  inferInstanceAs (Decidable (_ ∧ _))

/-- The reasons for which the network is reported as degraded. -/
theorem isDegraded_iff {o : Observed} {backend : Str} :
    (o.degradedReason backend).1 = true ↔ o.IsDegraded backend := by
  have hagents : o.degraded.length > 0 ↔ ∃ p ∈ o.pods, agedOut o.now p = true := by
    rw [gt_iff_lt, List.length_pos_iff_exists_mem]
    simp only [Observed.degraded, mem_sortStrings, List.mem_map, List.mem_filter]
    constructor
    · rintro ⟨_, p, hp, -⟩
      exact ⟨p, hp.1, hp.2⟩
    · rintro ⟨p, hp, haged⟩
      exact ⟨_, p, ⟨hp, haged⟩, rfl⟩
  rw [Observed.degradedReason, degradedReason, Observed.IsDegraded, ← hagents]
  split_ifs with h₁ h₂ h₃
  · exact iff_of_true rfl (.inl h₁)
  · exact iff_of_true rfl (.inr (.inl h₂))
  · simp only [Bool.and_eq_true, decide_eq_true_eq, and_assoc] at h₃
    exact iff_of_true rfl (.inr (.inr h₃))
  · simp only [Bool.and_eq_true, decide_eq_true_eq, and_assoc] at h₃
    refine iff_of_false not_false ?_
    rintro (h | h | h)
    · exact h₁ h
    · exact h₂ h
    · exact h₃ h

/-- The `Degraded` condition that was set is read back. -/
theorem degraded_setStatusCondition {status : NetworkStatus} {conditions : List Condition}
    {now : ℤ} {generation : ℕ} {on : Bool} {reason message : Str}
    (h : status.conditions =
      setStatusCondition now (setCond generation "Degraded" on reason message) conditions) :
    status.degraded = some (if on then .conditionTrue else .conditionFalse) := by
  have htype : (setCond generation "Degraded" on reason message).type = "Degraded".toList := rfl
  rw [NetworkStatus.degraded, h, findStatusCondition_setStatusCondition, if_pos htype]
  rfl

/-- The `Degraded` condition of the status that is persisted. -/
theorem degraded_status {o : Observed} {generation : ℕ} {backend : Str}
    {status : NetworkStatus} :
    (o.status generation backend status).degraded = some .conditionTrue ↔
      o.IsDegraded backend := by
  have h : ∃ conditions, (o.status generation backend status).conditions =
      setStatusCondition o.now (setCond generation "Degraded" (o.degradedReason backend).1
        (o.degradedReason backend).2.1 (o.degradedReason backend).2.2) conditions := ⟨_, rfl⟩
  obtain ⟨conditions, h⟩ := h
  rw [degraded_setStatusCondition h, ← isDegraded_iff]
  generalize (o.degradedReason backend).1 = isDegraded
  cases isDegraded <;> decide

/-- Surfacing a failure persists that the network is degraded. -/
theorem agrees_markApplyFailed {w : World} {call : Call} {message : Str}
    (h : call.write.isPersisted = true) :
    (markApplyFailed w call message).Agrees ↔ w.gauge = 1 := by
  have hconditions : (markApplyFailed w call message).status.conditions =
      setStatusCondition call.observed.now
        (setCond call.generation "Degraded" true "ApplyFailed".toList message)
        w.status.conditions := by
    rw [markApplyFailed, World.write, if_pos h]
  have hgauge : (markApplyFailed w call message).gauge = w.gauge := by
    rw [markApplyFailed, World.write, if_pos h]
  rw [World.Agrees, degraded_setStatusCondition hconditions, hgauge, if_pos rfl,
    iff_true_right rfl]

/-- Updating the status persists whether the network is degraded, and sets the metric if the
write is answered. -/
theorem agrees_updateStatus {w : World} {call : Call} {status : NetworkStatus}
    (hlist : call.listPodsFails = false) (h : call.write.isPersisted = true) :
    (updateStatus w call status).1.Agrees ↔
      (call.write = .unanswered → (w.gauge = 1 ↔ call.observed.IsDegraded call.backend)) := by
  have hwritten : ∀ g, World.Agrees
      ⟨call.observed.status call.generation call.backend status, g⟩ ↔
        (g = 1 ↔ call.observed.IsDegraded call.backend) := fun g => by
    rw [World.Agrees, degraded_status]
  rw [updateStatus, hlist, if_neg Bool.false_ne_true, World.write, if_pos h]
  by_cases hw : call.write = .persisted
  · rw [if_pos hw, hwritten, ← isDegraded_iff, hw]
    generalize (call.observed.degradedReason call.backend).1 = isDegraded
    cases isDegraded <;> simp
  · have hu : call.write = .unanswered := by
      cases hcw : call.write with
      | persisted => exact absurd hcw hw
      | unanswered => rfl
      | conflict | failed => rw [hcw] at h; cases h
    rw [if_neg hw, hwritten, forall_prop_of_true hu]

/-- An update that is persisted leaves the status that was summed up. -/
theorem status_updateStatus {w : World} {call : Call} {status : NetworkStatus}
    (hlist : call.listPodsFails = false) (h : call.write.isPersisted = true) :
    (updateStatus w call status).1.status =
      call.observed.status call.generation call.backend status := by
  rw [updateStatus, hlist, if_neg Bool.false_ne_true, World.write, if_pos h]
  split_ifs <;> rfl

/-- A status is only updated if the pods were listed and the write was answered. -/
theorem updateStatus_eq_some {w w' : World} {call : Call} {status : NetworkStatus}
    {available : Bool} (h : updateStatus w call status = (w', some available)) :
    call.listPodsFails = false ∧ call.write = .persisted := by
  rw [updateStatus] at h
  split_ifs at h with hlist hw
  · cases h
  · exact ⟨Bool.eq_false_iff.mpr hlist, hw⟩
  · cases h

/-- The ways in which a reconcile persists a status. -/
theorem cases_of_persisted {w : World} {call : Call}
    (h : (reconcile w call).persisted = true) :
    call.write.isPersisted = true ∧
      ((∃ message, call.failure = some message ∧
          (reconcile w call).world = markApplyFailed w call message) ∨
        (call.failure = none ∧ call.listPodsFails = false ∧
          (reconcile w call).world =
            (updateStatus w call (discoverISDAS call w.status)).1)) := by
  rw [reconcile] at h ⊢
  cases hget : call.getFails with
  | true =>
      rw [hget] at h
      cases h
  | false =>
  cases hadd : call.addFinalizerFails with
  | true =>
      rw [hget, hadd] at h
      cases h
  | false =>
  rw [hget, hadd] at h
  cases hfailure : call.failure with
  | some message =>
      rw [hfailure] at h
      exact ⟨h, .inl ⟨message, rfl, rfl⟩⟩
  | none =>
      rw [hfailure] at h
      rcases hupdate : updateStatus w call (discoverISDAS call w.status) with ⟨w', available⟩
      cases available with
      | some available =>
          obtain ⟨hlist, hw⟩ := updateStatus_eq_some hupdate
          exact ⟨by rw [hw]; rfl, .inr ⟨rfl, hlist, by simp⟩⟩
      | none =>
          simp only [hupdate, Bool.false_eq_true, if_false, Bool.and_eq_true,
            Bool.not_eq_true'] at h
          exact ⟨h.2, .inr ⟨rfl, h.1, by simp⟩⟩

/-- **When the metric agrees with the status.** After any calls of a process, if a call has
persisted a status, then the metric agrees with it exactly if the call keeps agreement. -/
theorem agrees_iff (status : NetworkStatus) (calls : List Call) (call : Call)
    (hpersisted : (reconcile (reconcileAll ⟨status, 0⟩ calls) call).persisted = true) :
    (reconcile (reconcileAll ⟨status, 0⟩ calls) call).world.Agrees ↔
      KeepsAgreement (reconcileAll ⟨status, 0⟩ calls) call := by
  generalize reconcileAll ⟨status, 0⟩ calls = w at hpersisted ⊢
  obtain ⟨hw, ⟨message, hfailure, hworld⟩ | ⟨hfailure, hlist, hworld⟩⟩ :=
    cases_of_persisted hpersisted
  · rw [hworld, agrees_markApplyFailed hw, KeepsAgreement, hfailure]
    simp
  · rw [hworld, agrees_updateStatus hlist hw, KeepsAgreement, hfailure]
    simp

/-- The status of an object that was just created. -/
def emptyStatus : NetworkStatus :=
  ⟨[], [], ⟨0, 0, []⟩, ⟨0, [], none, []⟩⟩

/-- A reconcile that finds no agents, on a platform with the given status. -/
def sampleCall (platform : ConditionStatus) (applyError : Option Str) : Call where
  getFails := false
  generation := 1
  bootstrapMode := "dns".toList
  backend := "manual".toList
  addFinalizerFails := false
  forbiddenError := none
  nodeIPError := none
  applyError := applyError
  discovered := none
  listPodsFails := false
  observed := ⟨0, [], none, ⟨0, [], none, []⟩, false, ⟨platform, [], []⟩⟩
  write := .persisted

/-- A failure after the network was found to be degraded leaves the metric right. -/
theorem agrees_after_degraded_call :
    (reconcile (reconcileAll ⟨emptyStatus, 0⟩ [sampleCall .conditionFalse none])
      (sampleCall .conditionFalse (some "conflict".toList))).persisted = true ∧
    (reconcile (reconcileAll ⟨emptyStatus, 0⟩ [sampleCall .conditionFalse none])
      (sampleCall .conditionFalse (some "conflict".toList))).world.Agrees :=
  ⟨by decide +kernel, (agrees_iff _ _ _ (by decide +kernel)).mpr (by decide +kernel)⟩

/-- **The metric contradicts the status.** When the first reconcile fails to apply the objects,
the network is degraded, but the metric is 0. -/
theorem gauge_zero_after_failed_apply :
    let outcome := reconcile (reconcileAll ⟨emptyStatus, 0⟩ [])
      (sampleCall .conditionTrue (some "conflict".toList))
    outcome.persisted = true ∧ outcome.world.status.degraded = some .conditionTrue ∧
      outcome.world.gauge = 0 ∧ ¬ outcome.world.Agrees := by
  decide +kernel

end ScionOperator.Status
