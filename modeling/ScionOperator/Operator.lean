import ScionOperator.Apply
import ScionOperator.Availability
import ScionOperator.NodeIPAdvertisement
import ScionOperator.Platform
import ScionOperator.Workqueue

/-!
# The Operator as a Whole

The controller of `ScionNetwork` from its work queue to what it writes
(`internal/operator/controller`, `scionnetwork_controller.go`). A reconcile is taken up stage by
stage: it reads the network, adds the finalizer, computes the deny list, checks the node
addresses, probes the platform, applies the objects one by one, registers the nodes, and updates
the status. Between any two stages others may write any object, caches may go on, and the process
may be restarted.

The controller watches the network, the DaemonSet it owns and the nodes. It has no predicates, so
its own writes of the status wake it up again. What it reads besides, such as pods, Secrets or the
IP pools of a CNI, wakes it up by a repetition only.

So the operator comes to rest only after a reconcile that changed nothing: it read the current
network, DaemonSet and nodes, was done, and the status it computed was the stored one already,
down to the second of the last registration.

## Main results

* `invariant_step`: what every step keeps, as long as nothing that is watched has changed.
* `converged_of_resting`: **at rest the operator has converged**, in every interleaving.
-/

namespace ScionOperator.Operator

open Text CreateOrUpdate Workqueue

/-! ### What there is -/

/-- A version of the network, with all that a reconcile reads of it. -/
structure ScionNetwork where
  uid : Str
  generation : ℕ
  spec : Render.NetworkSpec
  /-- the image of the agents, if the spec names one -/
  agentImage : Str
  deleting : Bool
  finalizer : Bool
  status : Status.NetworkStatus

/-- The kinds of objects that the controller watches: a new version of one of them asks for a
reconcile. -/
inductive Watched
  | network
  | daemonSet
  | nodes
  deriving DecidableEq

/-- How the operator is set up, and the API server it works with. -/
structure Setup (β : Type) where
  pki : MetricsTLS.Pki β
  server : Apply.Server
  sccAvail : Bool
  agentImage : Str

/-- The network a reconcile works on, and how long the log was when it was the last version. -/
structure Local where
  sn : ScionNetwork
  version : ℕ

/-- Where the worker is: idle, or between two calls of the reconcile it has taken up, with what it
will need of the calls before. -/
inductive Pc
  | idle
  | taken
  /-- the network was read -/
  | got (l : Local)
  /-- it has the finalizer -/
  | marked (l : Local)
  /-- the deny list was computed -/
  | denied (l : Local) (forbidden : List Str) (openshift : Bool)
  /-- the addresses of the nodes were checked -/
  | checked (l : Local) (forbidden : List Str) (openshift : Bool)
  /-- the platform was probed, and objects are applied -/
  | applying (l : Local) (forbidden : List Str) (platform : Status.PodEgressPlatform)
      (rest : List Apply.Step)
  /-- the nodes were registered, or not -/
  | synced (l : Local) (platform : Status.PodEgressPlatform) (reg : Status.RegistrarStatus)
      (regFailed : Bool)

/-- What the API server stores, what the operator has in memory, and what is recorded of its probes
and registrations. -/
structure World (β : Type) where
  networks : History ScionNetwork
  /-- the versions of the list of nodes, the last one first -/
  nodes : List (List Node)
  store : Apply.Store β
  /-- the metric that tells whether the network is degraded -/
  gauge : ℕ
  /-- what the last probe found -/
  probed : Option Platform.Probes
  /-- when nodes were registered last -/
  syncedAt : Option ℤ
  queue : Queue Watched
  pc : Pc

/-- The start: nothing was written yet, and the worker is idle. -/
def World.initial {β : Type} : World β :=
  ⟨[], [], .empty, 0, none, none, .initial, .idle⟩

/-- What a stage of a reconcile meets; what comes from the caches of watched objects is filled
in. -/
structure Answers where
  /-- the network cannot be read -/
  getFails : Bool
  /-- the error of listing the nodes -/
  listError : Option ApiError
  cluster : Cluster
  probes : Platform.Probes
  requests : Apply.Requests
  sync : Sync.Conditions
  /-- the deletion was requested longer ago than the deadline -/
  pastDeadline : Bool
  /-- the ISD-AS in the topology of the discovery server, if it can be fetched -/
  discovered : Option Str
  listPodsFails : Bool
  pods : List Status.Pod
  /-- the status of the DaemonSet, if it can be read -/
  daemonSet : Option Status.DaemonSet
  now : ℤ
  /-- the text of an error, if there is one -/
  message : Str
  /-- how writing the network ends, if it is not refused -/
  write : Status.Write

variable {β : Type}

/-! ### Caches -/

/-- How many versions of each kind of watched object were written. -/
def World.written (w : World β) : Watched → ℕ
  | .network => w.networks.length
  | .daemonSet => (w.store.objects .daemonSet).length
  | .nodes => w.nodes.length

/-- How many of the last versions a cache lacks. -/
def World.behind (w : World β) (k : Watched) : ℕ :=
  w.written k - w.queue.delivered k

/-- The nodes in the last version of their list; there are none before the first. -/
def nodesIn (versions : List (List Node)) : List Node :=
  versions.head?.getD []

/-- The list of the nodes as the cache has it, which may lag behind. -/
def World.listNodes (w : World β) (a : Answers) : Except ApiError (List Node) :=
  match a.listError with
  | some err => .error err
  | none => .ok (nodesIn (w.nodes.drop (w.behind .nodes)))

/-- What the registration meets: the nodes come from the cache. -/
def World.syncConditions (w : World β) (a : Answers) : Sync.Conditions :=
  { a.sync with
    nodes := match w.listNodes a with
      | .error _ => .error a.message
      | .ok nodes => .ok nodes }

/-- What applying the objects meets: the DaemonSet comes from the cache. -/
def World.requests (w : World β) (a : Answers) : Apply.Requests :=
  { a.requests with
    object := fun k =>
      if k = .daemonSet then { a.requests.object k with behind := w.behind .daemonSet }
      else a.requests.object k }

/-! ### Writing the network -/

/-- A time as it is stored: nanoseconds are cut off. -/
def second (t : ℤ) : ℤ :=
  t - t % 1000000000

/-- A condition as it is stored: its time has whole seconds. -/
def storedCondition (c : Status.Condition) : Status.Condition :=
  { c with lastTransitionTime := second c.lastTransitionTime }

/-- A status as it is stored: all its times have whole seconds. -/
def stored (status : Status.NetworkStatus) : Status.NetworkStatus :=
  { status with
    conditions := status.conditions.map storedCondition
    registrar :=
      { status.registrar with lastSyncTime := status.registrar.lastSyncTime.map second } }

/-- How a write of the network ends: it is refused unless the current version was read. -/
def World.allowed (w : World β) (l : Local) (write : Status.Write) : Status.Write :=
  if l.version = w.networks.length then write else Sync.refused write

/-- Write the network, and whether that was answered. -/
def World.updateObject (w : World β) (l : Local) (sn : ScionNetwork) (write : Status.Write) :
    World β × Bool :=
  (if (w.allowed l write).isPersisted then { w with networks := some sn :: w.networks } else w,
    w.allowed l write = .persisted)

/-- Write the status. If it is the stored one already there is no new version. -/
def World.writeStatus (w : World β) (l : Local) (status : Status.NetworkStatus) : World β :=
  if stored status = l.sn.status then w
  else { w with networks := some { l.sn with status := stored status } :: w.networks }

/-! ### The stages -/

/-- A reconcile ends, and asks to be repeated unless it is done. -/
def World.finish (w : World β) (result : Status.Result) : World β :=
  { w with queue := w.queue.finish (result = .done), pc := .idle }

/-- What the functions of the status get when a reconcile has come as far as them. -/
def World.call (w : World β) (l : Local) (a : Answers) (platform : Status.PodEgressPlatform)
    (reg : Status.RegistrarStatus) (regFailed : Bool) : Status.Call where
  getFails := false
  generation := l.sn.generation
  bootstrapMode := l.sn.spec.bootstrap.mode
  backend := l.sn.spec.registrar.backend
  addFinalizerFails := false
  forbiddenError := none
  nodeIPError := none
  applyError := none
  discovered := a.discovered
  listPodsFails := a.listPodsFails
  observed := ⟨a.now, a.pods, a.daemonSet, reg, regFailed, platform⟩
  write := w.allowed l a.write

/-- A reconcile fails before the status is summed up, and says so in the condition for that. -/
def World.fail (w : World β) (l : Local) (a : Answers) : World β :=
  let call := w.call l a (Platform.platformUnverified []) l.sn.status.registrar false
  let status := (Status.markApplyFailed ⟨l.sn.status, w.gauge⟩ call a.message).status
  (if call.write.isPersisted then w.writeStatus l status else w).finish .failed

/-- Whether finalization gets as far as removing the finalizer. -/
def releases (a : Answers) (spec : RegistrarSpec) : Bool :=
  match Controller.backendFor a.sync.readSecretFails a.sync.secrets spec with
  | .ok (.http _ _ _) => a.sync.httpError.isNone || a.pastDeadline
  | .ok .manual | .ok .anapaya | .error _ => true

/-- A network that is being deleted is deregistered and released, if it has the finalizer. -/
def World.finalize (w : World β) (l : Local) (a : Answers) : World β :=
  if l.sn.finalizer = false then w.finish .done
  else if releases a l.sn.spec.registrar then
    match w.updateObject l { l.sn with finalizer := false } a.write with
    | (w', answered) => w'.finish (if answered then .done else .failed)
  else w.finish .failed

/-- What is to be applied for a network: its own image for the agents, or that of the operator. -/
def Setup.desired (o : Setup β) (sn : ScionNetwork) (forbidden : List Str) : Apply.Desired :=
  ⟨sn.spec, sn.uid, if sn.agentImage = [] then o.agentImage else sn.agentImage, forbidden⟩

/-- What is returned after the status was updated, or not. -/
def resultOf (call : Status.Call) : Option Bool → Status.Result
  | some available => call.result available
  | none => if !call.listPodsFails && call.write = .conflict then .requeue else .failed

/-- Sum up the status, write it, and end with what is to be done next. -/
def World.update (w : World β) (l : Local) (a : Answers) (platform : Status.PodEgressPlatform)
    (reg : Status.RegistrarStatus) (regFailed : Bool) : World β :=
  let call := w.call l a platform reg regFailed
  let (s, available) := Status.updateStatus ⟨l.sn.status, w.gauge⟩ call
    (Status.discoverISDAS call l.sn.status)
  let w' := if !call.listPodsFails && call.write.isPersisted then w.writeStatus l s.status else w
  { w' with gauge := s.gauge }.finish (resultOf call available)

/-- The next stage of a reconcile, up to its next call: between two stages anything may happen. -/
def advance [DecidableEq β] (o : Setup β) (w : World β) (a : Answers) : Option (World β) :=
  match w.pc with
  | .idle => none
  | .taken =>
      if a.getFails then some (w.finish .failed)
      else
        match seen w.networks (w.behind .network) with
        | none => some (w.finish .done)
        | some sn => some { w with pc := .got ⟨sn, w.queue.delivered .network⟩ }
  | .got l =>
      if l.sn.deleting then some (w.finalize l a)
      else if l.sn.finalizer then some { w with pc := .marked l }
      else
        let sn := { l.sn with finalizer := true }
        match w.updateObject l sn a.write with
        | (w', true) => some { w' with pc := .marked ⟨sn, w'.networks.length⟩ }
        | (w', false) => some (w'.finish .failed)
  | .marked l =>
      match clusterForbiddenCIDRs l.sn.spec.acceptPolicy
          { a.cluster with nodes := w.listNodes a } with
      | .error _ => some (w.fail l a)
      | .ok (forbidden, openshift) => some { w with pc := .denied l forbidden openshift }
  | .denied l forbidden openshift =>
      match validateNodeIPAdvertisement l.sn.spec.toSpec (w.listNodes a) with
      | .error _ => some (w.fail l a)
      | .ok _ => some { w with pc := .checked l forbidden openshift }
  | .checked l forbidden openshift =>
      some
        { w with
          probed := some a.probes
          pc := .applying l forbidden (Platform.detectPodEgressPlatform a.probes)
            (Apply.steps openshift o.sccAvail) }
  | .applying l forbidden platform (step :: rest) =>
      match Apply.runStep o.pki o.server (o.desired l.sn forbidden) (w.requests a) w.store step with
      | (store, none) => some { w with store := store, pc := .applying l forbidden platform rest }
      | (store, some _) => some ({ w with store := store }.fail l a)
  | .applying l _ platform [] =>
      let c := w.syncConditions a
      match Sync.syncRegistrar c l.sn.spec.toSpec l.sn.status.registrar with
      | (reg, true) => some { w with pc := .synced l platform reg true }
      | (reg, false) => some { w with syncedAt := some c.now, pc := .synced l platform reg false }
  | .synced l platform reg regFailed => some (w.update l a platform reg regFailed)

/-! ### Steps -/

/-- What can happen to the objects and to the operator; a reconcile is a row of such events, with
others in between. -/
inductive Event
  /-- others write or delete the network -/
  | network (v : Option ScionNetwork)
  /-- others write or delete another object -/
  | object (k : Render.Kind) (v : Option (Render.Object k))
  /-- nodes join, leave or change; their list gets another version -/
  | nodes (nodes : List Node)
  /-- a cache gets to a later version of a watched object -/
  | deliver (k : Watched) (n : ℕ)
  /-- the worker takes up a reconcile that was asked for -/
  | take
  /-- the time of a repetition has come -/
  | fire
  /-- the next stage of the reconcile -/
  | advance (a : Answers)
  /-- the operator is restarted, with empty caches and an empty queue -/
  | restart

/-- The world after an event, if it can happen. -/
def step [DecidableEq β] (o : Setup β) (w : World β) : Event → Option (World β)
  | .network v => some { w with networks := v :: w.networks }
  | .object k v => some { w with store := w.store.set k (v :: w.store.objects k) }
  | .nodes nodes => some { w with nodes := nodes :: w.nodes }
  | .deliver k n =>
      if w.queue.delivered k ≤ n ∧ n ≤ w.written k then
        some { w with queue := w.queue.deliver k n }
      else none
  | .take => w.queue.take.map fun q => { w with queue := q, pc := .taken }
  | .fire => w.queue.fire.map fun q => { w with queue := q }
  | .advance a => Operator.advance o w a
  | .restart => some { w with queue := .initial, pc := .idle }

/-! ### Convergence -/

/-- What is known besides the network: the nodes, the DaemonSet, what the last probe found and when
nodes were registered last. -/
structure Known where
  nodes : List Node
  daemonSet : History (Render.Object .daemonSet)
  probed : Option Platform.Probes
  syncedAt : Option ℤ

/-- What is known of the last versions in a world. -/
def World.known (w : World β) : Known :=
  ⟨nodesIn w.nodes, w.store.objects .daemonSet, w.probed, w.syncedAt⟩

/-- A deny list is one that was computed for the nodes, whatever else the cluster had. -/
def Denies (k : Known) (sn : ScionNetwork) (forbidden : List Str) (openshift : Bool) : Prop :=
  ∃ cluster : Cluster, cluster.nodes = .ok k.nodes ∧
    clusterForbiddenCIDRs sn.spec.acceptPolicy cluster = .ok (forbidden, openshift)

/-- The addresses of the nodes may be announced, if they are to be. -/
def Checks (k : Known) (sn : ScionNetwork) : Prop :=
  validateNodeIPAdvertisement sn.spec.toSpec (.ok k.nodes) = .ok ()

/-- The DaemonSet is the one for a deny list for the nodes. -/
def Deployed (o : Setup β) (k : Known) (sn : ScionNetwork) : Prop :=
  ∃ forbidden openshift, Denies k sn forbidden openshift ∧
    Settled (Apply.managed o.server (o.desired sn forbidden) .daemonSet) k.daemonSet

/-- The operator serves a network, as far as it reads: the DaemonSet is the one for the spec and
for a deny list with the nodes, the nodes may announce their addresses, pods were found to keep
theirs, and the status says that the network is available and that all nodes with an address are
registered, at the second of the last registration. -/
structure Serves (o : Setup β) (k : Known) (sn : ScionNetwork) : Prop where
  finalizer : sn.finalizer = true
  deployed : Deployed o k sn
  nodeIPs : Checks k sn
  platform : ∃ probes, k.probed = some probes ∧ Platform.KeepsSources probes
  available : sn.status.available = some .conditionTrue
  registered : sn.status.registrar =
    ⟨(nodesToSIGs k.nodes sn.spec.nodeSelector).1.length,
      (nodesToSIGs k.nodes sn.spec.nodeSelector).1.map Sync.desiredSIG,
      k.syncedAt.map second, []⟩

/-- There is no network, or it is being deleted and was released, or it is served. -/
def Converged (o : Setup β) (k : Known) (networks : History ScionNetwork) : Prop :=
  ∀ sn, current networks = some sn →
    (sn.deleting = true ∧ sn.finalizer = false) ∨ (sn.deleting = false ∧ Serves o k sn)

/-- A reconcile works on the current network, which is not being deleted. -/
structure Live (networks : History ScionNetwork) (sn : ScionNetwork) : Prop where
  current : current networks = some sn
  deleting : sn.deleting = false
  finalizer : sn.finalizer = true

/-- A platform is what the last probe found. -/
def Probed (k : Known) (platform : Status.PodEgressPlatform) : Prop :=
  ∃ probes, k.probed = some probes ∧ platform = Platform.detectPodEgressPlatform probes

/-- A registration that succeeded is one of the nodes. -/
def Registers (k : Known) (sn : ScionNetwork) (reg : Status.RegistrarStatus) : Prop :=
  ∃ c : Sync.Conditions, c.nodes = .ok k.nodes ∧ k.syncedAt = some c.now ∧
    Sync.syncRegistrar c sn.spec.toSpec sn.status.registrar = (reg, false)

/-- What is known at each stage, if nothing that is watched has changed since the reconcile
began. -/
def Facts (o : Setup β) (k : Known) (networks : History ScionNetwork) (calm : Bool) : Pc → Prop
  | .idle => calm = true → Converged o k networks
  | .taken => True
  | .got l => current networks = some l.sn
  | .marked l => Live networks l.sn
  | .denied l forbidden openshift => Live networks l.sn ∧ Denies k l.sn forbidden openshift
  | .checked l forbidden openshift =>
      Live networks l.sn ∧ Denies k l.sn forbidden openshift ∧ Checks k l.sn
  | .applying l forbidden platform rest =>
      Live networks l.sn ∧ (∃ openshift, Denies k l.sn forbidden openshift) ∧ Checks k l.sn ∧
        Probed k platform ∧
        (.object .daemonSet ∉ rest →
          Settled (Apply.managed o.server (o.desired l.sn forbidden) .daemonSet) k.daemonSet)
  | .synced l platform reg regFailed =>
      Live networks l.sn ∧ Deployed o k l.sn ∧ Checks k l.sn ∧ Probed k platform ∧
        (regFailed = false → Registers k l.sn reg)

/-- The invariant: the marks of the queue are right, and while nothing has changed since, what the
reconcile has found out is still so. -/
structure Invariant (o : Setup β) (w : World β) : Prop where
  sound : Sound w.written w.queue
  facts : Quiet w.written w.queue → Facts o w.known w.networks w.queue.calm w.pc

variable {o : Setup β} {w w' : World β}

/-! ### Logs -/

/-- Writing the status adds a version, or the stored status is the same. -/
theorem writeStatus_cases (w : World β) (l : Local) (status : Status.NetworkStatus) :
    (stored status = l.sn.status ∧ w.writeStatus l status = w) ∨
      w.writeStatus l status =
        { w with networks := some { l.sn with status := stored status } :: w.networks } := by
  rw [World.writeStatus]
  split_ifs with h
  · exact .inl ⟨h, rfl⟩
  · exact .inr rfl

/-- No log is shorter after a version of the network was written. -/
theorem written_le_cons (w : World β) (v : Option ScionNetwork) (k : Watched) :
    w.written k ≤ World.written { w with networks := v :: w.networks } k := by
  cases k with
  | network => exact Nat.le_succ _
  | daemonSet => exact le_rfl
  | nodes => exact le_rfl

/-- Once a version of the network was written, the queue is not at rest. -/
theorem Invariant.not_quiet_cons (h : Invariant o w) (v : Option ScionNetwork) :
    ¬ Quiet (World.written { w with networks := v :: w.networks }) w.queue :=
  h.sound.not_quiet_of_lt (k := .network) (Nat.lt_succ_self _)

/-- A reconcile may end as done only if it has left the network served or released. -/
theorem invariant_finish {result : Status.Result} (hsound : Sound w.written w.queue)
    (hdone : result = .done → Quiet w.written w.queue → Converged o w.known w.networks) :
    Invariant o (w.finish result) := by
  refine ⟨hsound.finish _, fun hquiet hcalm => ?_⟩
  exact hdone (of_decide_eq_true hcalm) hquiet

/-- A reconcile that is to be repeated may end at any time. -/
theorem invariant_finish_of_ne {result : Status.Result} (hsound : Sound w.written w.queue)
    (hne : result ≠ .done) : Invariant o (w.finish result) :=
  invariant_finish hsound fun hdone => absurd hdone hne

/-- The marks of the queue stay right when a version of the network is written. -/
theorem sound_cons (hsound : Sound w.written w.queue) (v : Option ScionNetwork) :
    Sound (World.written { w with networks := v :: w.networks }) w.queue :=
  hsound.mono (written_le_cons w v)

/-- A reconcile may fail at any time: it is repeated. -/
theorem invariant_fail (hsound : Sound w.written w.queue) (l : Local) (a : Answers) :
    Invariant o (w.fail l a) := by
  have hne : Status.Result.failed ≠ .done := by decide
  rw [World.fail]
  split_ifs
  · rcases writeStatus_cases w l _ with ⟨-, hsame⟩ | hnew
    · rw [hsame]
      exact invariant_finish_of_ne hsound hne
    · rw [hnew]
      exact invariant_finish_of_ne (sound_cons hsound _) hne
  · exact invariant_finish_of_ne hsound hne

/-- The list of the nodes is current, if nothing has changed. -/
theorem listNodes_of_quiet (hsound : Sound w.written w.queue) (hquiet : Quiet w.written w.queue)
    {a : Answers} {nodes : List Node} (h : w.listNodes a = .ok nodes) :
    nodes = nodesIn w.nodes := by
  rw [World.listNodes] at h
  cases ha : a.listError with
  | some err =>
      rw [ha] at h
      cases h
  | none =>
      rw [ha, World.behind, hsound.delivered_of_quiet hquiet, Nat.sub_self, List.drop_zero] at h
      exact (Except.ok.inj h).symm

/-- What the cache of the network holds is current, if nothing has changed. -/
theorem seen_of_quiet (hsound : Sound w.written w.queue) (hquiet : Quiet w.written w.queue) :
    seen w.networks (w.behind .network) = current w.networks := by
  rw [World.behind, hsound.delivered_of_quiet hquiet, Nat.sub_self, seen, List.drop_zero]

/-- Without the list of the nodes there is no deny list. -/
theorem exists_nodes_of_forbidden {policy : AcceptPolicy} {cluster : Cluster}
    {out : List Str × Bool} (h : clusterForbiddenCIDRs policy cluster = .ok out) :
    ∃ nodes, cluster.nodes = .ok nodes := by
  simp only [clusterForbiddenCIDRs, Result.bind_eq_ok] at h
  obtain ⟨-, -, -, -, -, -, nodes, hnodes, -⟩ := h
  cases hread : cluster.nodes with
  | ok nodes => exact ⟨nodes, rfl⟩
  | error err =>
      rw [hread] at hnodes
      cases hnodes

/-- A check that passes without the list of the nodes passes with it. -/
theorem validate_of_error {spec : Spec} {err : ApiError}
    (h : validateNodeIPAdvertisement spec (.error err) = .ok ()) (nodes : List Node) :
    validateNodeIPAdvertisement spec (.ok nodes) = .ok () := by
  rw [validateNodeIPAdvertisement] at h ⊢
  dsimp only at h ⊢
  by_cases hnodeIP : spec.advertisement.nodeIP ≠ some true
  · rw [if_pos hnodeIP]
  · rw [if_neg hnodeIP] at h ⊢
    by_cases hunderlay : spec.acceptPolicy.underlayCIDRs.filterMap Netip.parsePrefix = []
    · rw [if_pos hunderlay]
    · rw [if_neg hunderlay] at h
      cases h

/-- A registration that succeeded got the list of the nodes. -/
theorem nodes_of_syncRegistrar {c : Sync.Conditions} {spec : Spec} {st reg : Status.RegistrarStatus}
    (h : Sync.syncRegistrar c spec st = (reg, false)) :
    ∃ nodes, c.nodes = .ok nodes ∧
      reg = ⟨(nodesToSIGs nodes spec.nodeSelector).1.length,
        (nodesToSIGs nodes spec.nodeSelector).1.map Sync.desiredSIG, some c.now, []⟩ := by
  rw [Sync.syncRegistrar] at h
  cases hnodes : c.nodes with
  | error err =>
      rw [hnodes] at h
      cases h
  | ok nodes =>
      rw [hnodes] at h
      dsimp only at h
      cases herr : Sync.syncError c spec.registrar with
      | some err =>
          rw [herr] at h
          cases h
      | none =>
          rw [herr] at h
          exact ⟨nodes, rfl, (congrArg Prod.fst h).symm⟩

/-! ### The stages keep the invariant -/

/-- Writing the network adds a version, which may not be answered, or does nothing. -/
theorem updateObject_cases (w : World β) (l : Local) (sn : ScionNetwork) (write : Status.Write) :
    (∃ answered, w.updateObject l sn write =
        ({ w with networks := some sn :: w.networks }, answered)) ∨
      w.updateObject l sn write = (w, false) := by
  rw [World.updateObject]
  cases w.allowed l write with
  | persisted => exact .inl ⟨true, rfl⟩
  | unanswered => exact .inl ⟨false, rfl⟩
  | conflict => exact .inr rfl
  | failed => exact .inr rfl

section Stages

variable [DecidableEq β] {l : Local} {a : Answers} {forbidden : List Str} {openshift : Bool}
  {platform : Status.PodEgressPlatform}

/-- The first stage: what was read is the current version, while nothing has changed. -/
theorem Invariant.getStage (h : Invariant o w) (hpc : w.pc = .taken)
    (hstep : advance o w a = some w') : Invariant o w' := by
  rw [advance, hpc] at hstep
  dsimp only at hstep
  split_ifs at hstep
  · obtain rfl := Option.some.inj hstep
    exact invariant_finish_of_ne h.sound (by decide)
  · cases hseen : seen w.networks (w.behind .network) with
    | none =>
        rw [hseen] at hstep
        obtain rfl := Option.some.inj hstep
        refine invariant_finish h.sound fun _ hquiet sn hsn => ?_
        rw [← seen_of_quiet h.sound hquiet, hseen] at hsn
        cases hsn
    | some sn =>
        rw [hseen] at hstep
        obtain rfl := Option.some.inj hstep
        exact ⟨h.sound, fun hquiet => (seen_of_quiet h.sound hquiet).symm.trans hseen⟩

omit [DecidableEq β] in
/-- Finalization ends as done only if the network is released. -/
theorem Invariant.finalize (h : Invariant o w) (hpc : w.pc = .got l)
    (hdeleting : l.sn.deleting = true) : Invariant o (w.finalize l a) := by
  have hne : Status.Result.failed ≠ .done := by decide
  rw [World.finalize]
  split_ifs with hfinalizer
  · refine invariant_finish h.sound fun _ hquiet sn hsn => ?_
    have hcurrent := h.facts hquiet
    rw [hpc] at hcurrent
    obtain rfl := Option.some.inj (hsn.symm.trans hcurrent)
    exact .inl ⟨hdeleting, hfinalizer⟩
  · rcases updateObject_cases w l { l.sn with finalizer := false } a.write with
      ⟨answered, hupdate⟩ | hupdate
    · rw [hupdate]
      exact invariant_finish (sound_cons h.sound _) fun _ hquiet =>
        absurd hquiet (h.not_quiet_cons _)
    · rw [hupdate]
      exact invariant_finish_of_ne h.sound hne
  · exact invariant_finish_of_ne h.sound hne

/-- The network is deleted, or gets the finalizer. -/
theorem Invariant.markStage (h : Invariant o w) (hpc : w.pc = .got l)
    (hstep : advance o w a = some w') : Invariant o w' := by
  rw [advance, hpc] at hstep
  dsimp only at hstep
  split_ifs at hstep with hdeleting hfinalizer
  · obtain rfl := Option.some.inj hstep
    exact h.finalize hpc hdeleting
  · obtain rfl := Option.some.inj hstep
    refine ⟨h.sound, fun hquiet => ⟨?_, Bool.eq_false_iff.mpr hdeleting, hfinalizer⟩⟩
    have hcurrent := h.facts hquiet
    rwa [hpc] at hcurrent
  · rcases updateObject_cases w l { l.sn with finalizer := true } a.write with
      ⟨answered, hupdate⟩ | hupdate
    · rw [hupdate] at hstep
      cases answered with
      | true =>
          obtain rfl := Option.some.inj hstep
          exact ⟨sound_cons h.sound _, fun hquiet => absurd hquiet (h.not_quiet_cons _)⟩
      | false =>
          obtain rfl := Option.some.inj hstep
          exact invariant_finish_of_ne (sound_cons h.sound _) (by decide)
    · rw [hupdate] at hstep
      obtain rfl := Option.some.inj hstep
      exact invariant_finish_of_ne h.sound (by decide)

/-- The stage of the deny list: it is one for the current nodes, while nothing has changed. -/
theorem Invariant.denyStage (h : Invariant o w) (hpc : w.pc = .marked l)
    (hstep : advance o w a = some w') : Invariant o w' := by
  rw [advance, hpc] at hstep
  dsimp only at hstep
  cases hcidrs : clusterForbiddenCIDRs l.sn.spec.acceptPolicy
      { a.cluster with nodes := w.listNodes a } with
  | error err =>
      rw [hcidrs] at hstep
      obtain rfl := Option.some.inj hstep
      exact invariant_fail h.sound l a
  | ok out =>
      obtain ⟨forbidden, openshift⟩ := out
      rw [hcidrs] at hstep
      obtain rfl := Option.some.inj hstep
      refine ⟨h.sound, fun hquiet => ⟨?_, _, ?_, hcidrs⟩⟩
      · have hlive := h.facts hquiet
        rwa [hpc] at hlive
      · obtain ⟨nodes, hnodes⟩ := exists_nodes_of_forbidden hcidrs
        exact hnodes.trans (congrArg Except.ok (listNodes_of_quiet h.sound hquiet hnodes))

/-- The stage of the addresses: those of the current nodes may be announced. -/
theorem Invariant.checkStage (h : Invariant o w) (hpc : w.pc = .denied l forbidden openshift)
    (hstep : advance o w a = some w') : Invariant o w' := by
  rw [advance, hpc] at hstep
  dsimp only at hstep
  cases hcheck : validateNodeIPAdvertisement l.sn.spec.toSpec (w.listNodes a) with
  | error err =>
      rw [hcheck] at hstep
      obtain rfl := Option.some.inj hstep
      exact invariant_fail h.sound l a
  | ok u =>
      rw [hcheck] at hstep
      obtain rfl := Option.some.inj hstep
      refine ⟨h.sound, fun hquiet => ?_⟩
      have hfacts := h.facts hquiet
      rw [hpc] at hfacts
      refine ⟨hfacts.1, hfacts.2, ?_⟩
      cases hnodes : w.listNodes a with
      | error err =>
          rw [hnodes] at hcheck
          exact validate_of_error hcheck _
      | ok nodes =>
          rw [hnodes, listNodes_of_quiet h.sound hquiet hnodes] at hcheck
          exact hcheck

/-- The DaemonSet is among what is applied on every kind of cluster. -/
theorem daemonSet_mem_steps (openshift sccAvail : Bool) :
    .object .daemonSet ∈ Apply.steps openshift sccAvail := by
  cases openshift <;> cases sccAvail <;> decide

/-- The stage of the probes: their result is kept for the status. -/
theorem Invariant.probeStage (h : Invariant o w) (hpc : w.pc = .checked l forbidden openshift)
    (hstep : advance o w a = some w') : Invariant o w' := by
  rw [advance, hpc] at hstep
  obtain rfl := Option.some.inj hstep
  refine ⟨h.sound, fun hquiet => ?_⟩
  have hfacts := h.facts hquiet
  rw [hpc] at hfacts
  obtain ⟨hlive, hdenies, hchecks⟩ := hfacts
  exact ⟨hlive, ⟨openshift, hdenies⟩, hchecks, ⟨a.probes, rfl, rfl⟩,
    fun hnot => absurd (daemonSet_mem_steps openshift o.sccAvail) hnot⟩

/-- No log is shorter after an object was applied. -/
theorem written_le_runStep (w : World β) (d : Apply.Desired) (r : Apply.Requests)
    (step : Apply.Step) (k : Watched) :
    w.written k ≤
      World.written { w with store := (Apply.runStep o.pki o.server d r w.store step).1 } k := by
  cases k with
  | network => exact le_rfl
  | nodes => exact le_rfl
  | daemonSet =>
      rw [World.written, World.written]
      rcases Apply.objects_runStep o.pki o.server d r w.store step .daemonSet with
        ⟨-, hnew⟩ | ⟨-, hsame⟩
      · rw [hnew]
        rcases createOrUpdate_cases (Apply.managed o.server d .daemonSet) (r.object .daemonSet)
          (w.store.objects .daemonSet) with ⟨hsame, -⟩ | ⟨new, -, hadded, -⟩
        · exact (congrArg List.length hsame).ge
        · rw [hadded]
          exact Nat.le_succ _
      · exact (congrArg List.length hsame).ge

/-- The DaemonSet that is applied is settled, if nothing has changed. -/
theorem settled_of_runStep {d : Apply.Desired} {step : Apply.Step} {rest : List Apply.Step}
    {store : Apply.Store β} (hsound : Sound w.written w.queue)
    (hquiet : Quiet w.written w.queue)
    (hrun : Apply.runStep o.pki o.server d (w.requests a) w.store step = (store, none))
    (hrest : .object .daemonSet ∉ rest)
    (hsettled : .object .daemonSet ∉ step :: rest →
      Settled (Apply.managed o.server d .daemonSet) (w.store.objects .daemonSet)) :
    Settled (Apply.managed o.server d .daemonSet) (store.objects .daemonSet) := by
  have hobjects := Apply.objects_runStep o.pki o.server d (w.requests a) w.store step .daemonSet
  rw [hrun] at hobjects
  rcases hobjects with ⟨rfl, hnew⟩ | ⟨hne, hsame⟩
  · have hbehind : ((w.requests a).object .daemonSet).behind = 0 := by
      change w.behind .daemonSet = 0
      rw [World.behind, hsound.delivered_of_quiet hquiet, Nat.sub_self]
    rw [hnew]
    exact settled_of_eq_none hbehind (Option.map_eq_none_iff.mp (congrArg Prod.snd hrun))
  · rw [hsame]
    refine hsettled fun hmem => ?_
    rcases List.mem_cons.mp hmem with heq | hmem
    · exact hne heq.symm
    · exact hrest hmem

/-- The stage of an object: once the DaemonSet was applied without an error, it is settled. -/
theorem Invariant.applyStage {step : Apply.Step} {rest : List Apply.Step} (h : Invariant o w)
    (hpc : w.pc = .applying l forbidden platform (step :: rest))
    (hstep : advance o w a = some w') : Invariant o w' := by
  have hle := written_le_runStep (o := o) w (o.desired l.sn forbidden) (w.requests a) step
  rw [advance, hpc] at hstep
  dsimp only at hstep
  rcases hrun : Apply.runStep o.pki o.server (o.desired l.sn forbidden) (w.requests a) w.store step
    with ⟨store, _ | err⟩
  · rw [hrun] at hstep hle
    obtain rfl := Option.some.inj hstep
    refine ⟨h.sound.mono hle, fun hquiet => ?_⟩
    have hquiet' := h.sound.quiet_of_le hle hquiet
    have hfacts := h.facts hquiet'
    rw [hpc] at hfacts
    obtain ⟨hlive, hdenies, hchecks, hprobed, hsettled⟩ := hfacts
    exact ⟨hlive, hdenies, hchecks, hprobed,
      fun hrest => settled_of_runStep h.sound hquiet' hrun hrest hsettled⟩
  · rw [hrun] at hstep hle
    obtain rfl := Option.some.inj hstep
    rw [← hpc]
    exact invariant_fail (w := { w with store := store }) (h.sound.mono hle) l a

/-- The stage of the registration: if it succeeds, it is one of the current nodes. -/
theorem Invariant.syncStage (h : Invariant o w) (hpc : w.pc = .applying l forbidden platform [])
    (hstep : advance o w a = some w') : Invariant o w' := by
  rw [advance, hpc] at hstep
  dsimp only at hstep
  have hfacts := h.facts
  rw [hpc] at hfacts
  rcases hsync : Sync.syncRegistrar (w.syncConditions a) l.sn.spec.toSpec l.sn.status.registrar
    with ⟨reg, _ | _⟩
  · rw [hsync] at hstep
    obtain rfl := Option.some.inj hstep
    refine ⟨h.sound, fun hquiet => ?_⟩
    obtain ⟨hlive, ⟨openshift, hdenies⟩, hchecks, hprobed, hsettled⟩ := hfacts hquiet
    refine ⟨hlive, ⟨forbidden, openshift, hdenies, hsettled List.not_mem_nil⟩, hchecks, hprobed,
      fun _ => ⟨w.syncConditions a, ?_, rfl, hsync⟩⟩
    obtain ⟨nodes, hnodes, -⟩ := nodes_of_syncRegistrar hsync
    rw [World.syncConditions] at hnodes ⊢
    cases hlist : w.listNodes a with
    | error err =>
        rw [hlist] at hnodes
        cases hnodes
    | ok nodes => rw [listNodes_of_quiet h.sound hquiet hlist]; rfl
  · rw [hsync] at hstep
    obtain rfl := Option.some.inj hstep
    refine ⟨h.sound, fun hquiet => ?_⟩
    obtain ⟨hlive, ⟨openshift, hdenies⟩, hchecks, hprobed, hsettled⟩ := hfacts hquiet
    exact ⟨hlive, ⟨forbidden, openshift, hdenies, hsettled List.not_mem_nil⟩, hchecks, hprobed,
      fun hok => by cases hok⟩

/-- A reconcile is done only after an update that was answered and found everything in order. -/
theorem done_of_resultOf {call : Status.Call} {s s' : Status.World} {status : Status.NetworkStatus}
    {available : Option Bool} (hupdate : Status.updateStatus s call status = (s', available))
    (hdone : resultOf call available = .done) :
    call.listPodsFails = false ∧ call.write = .persisted ∧
      s'.status = call.observed.status call.generation call.backend status ∧
      call.observed.available = true ∧ call.observed.regFailed = false ∧
      call.observed.platform.status = .conditionTrue := by
  cases available with
  | none =>
      rw [resultOf] at hdone
      split_ifs at hdone
  | some available =>
      obtain ⟨hlist, hwrite⟩ := Status.updateStatus_eq_some hupdate
      have hstatus : s'.status =
          call.observed.status call.generation call.backend status := by
        rw [← Status.status_updateStatus (w := s) hlist (by rw [hwrite]; rfl), hupdate]
      have havailable : available = call.observed.available := by
        rw [Status.updateStatus, hlist, hwrite] at hupdate
        exact (Option.some.inj (congrArg Prod.snd hupdate)).symm
      rw [resultOf, Status.Call.result] at hdone
      split_ifs at hdone with hfailed hnot hplatform
      rw [Bool.not_eq_true, Bool.not_eq_false'] at hnot
      rw [not_not] at hplatform
      exact ⟨hlist, hwrite, hstatus, havailable.symm.trans hnot, Bool.eq_false_iff.mpr hfailed,
        hplatform⟩

/-- A status that is stored already says that the network is available if it is. -/
theorem available_stored {status status' : Status.NetworkStatus} (h : stored status = status') :
    status'.available = status.available := by
  have hfind : Status.findStatusCondition "Available".toList (stored status).conditions =
      (Status.findStatusCondition "Available".toList status.conditions).map storedCondition :=
    List.find?_map ..
  rw [← h, Status.NetworkStatus.available, hfind, Status.NetworkStatus.available]
  cases Status.findStatusCondition "Available".toList status.conditions <;> rfl

/-- Pods keep their addresses on a platform that was found to be true. -/
theorem keepsSources_of_status {probes : Platform.Probes}
    (h : (Platform.detectPodEgressPlatform probes).status = .conditionTrue) :
    Platform.KeepsSources probes := by
  rcases Platform.detectPodEgressPlatform_cases probes with
    ⟨-, hkeeps⟩ | ⟨hfalse, -⟩ | ⟨hunknown, -⟩
  · exact hkeeps
  · cases hfalse.symm.trans h
  · cases hunknown.symm.trans h

omit [DecidableEq β] in
/-- **The last stage.** A reconcile that registered the nodes and whose status is the stored one
already leaves a network that is served. -/
theorem serves_of_stored (observed : Status.Observed) {k : Known} {s : Status.World}
    {status : Status.NetworkStatus} {generation : ℕ} {backend : Str}
    (hdeployed : Deployed o k l.sn) (hchecks : Checks k l.sn) (hfinalizer : l.sn.finalizer = true)
    (hprobed : Probed k observed.platform) (hreg : Registers k l.sn observed.registrar)
    (hplatform : observed.platform.status = .conditionTrue) (havailable : observed.available = true)
    (hstatus : s.status = observed.status generation backend status)
    (hstored : stored s.status = l.sn.status) : Serves o k l.sn := by
  obtain ⟨c, hnodes, hsyncedAt, hsync⟩ := hreg
  obtain ⟨nodes, hnodes', hregistrar⟩ := nodes_of_syncRegistrar hsync
  obtain rfl := Except.ok.inj (hnodes.symm.trans hnodes')
  obtain ⟨probes, hprobes, hdetect⟩ := hprobed
  refine ⟨hfinalizer, hdeployed, hchecks, ⟨probes, hprobes, ?_⟩, ?_, ?_⟩
  · exact keepsSources_of_status (hdetect ▸ hplatform)
  · rw [available_stored hstored, hstatus]
    exact Status.available_status.mpr havailable
  · have hregs : (stored s.status).registrar =
        { s.status.registrar with lastSyncTime := s.status.registrar.lastSyncTime.map second } :=
      rfl
    have hreg' : s.status.registrar = observed.registrar := by
      rw [hstatus]
      rfl
    rw [← hstored, hregs, hreg', hregistrar, hsyncedAt]

/-- The last stage: if it ends as done, all that the stages found out stands in the status. -/
theorem Invariant.updateStage {reg : Status.RegistrarStatus} {regFailed : Bool}
    (h : Invariant o w) (hpc : w.pc = .synced l platform reg regFailed)
    (hstep : advance o w a = some w') : Invariant o w' := by
  rw [advance, hpc] at hstep
  obtain rfl := Option.some.inj hstep
  rw [World.update]
  rcases hupdate : Status.updateStatus ⟨l.sn.status, w.gauge⟩
    (w.call l a platform reg regFailed)
    (Status.discoverISDAS (w.call l a platform reg regFailed) l.sn.status) with ⟨s, available⟩
  dsimp only
  -- the write adds a version, or the status is the stored one, or it is not written
  have hwritten : ∀ persisted : Bool,
      (if persisted then w.writeStatus l s.status else w) = w ∧
          (persisted = true → stored s.status = l.sn.status) ∨
        (if persisted then w.writeStatus l s.status else w) =
          { w with networks := some { l.sn with status := stored s.status } :: w.networks } := by
    intro persisted
    cases persisted with
    | false => exact .inl ⟨rfl, fun hfalse => by cases hfalse⟩
    | true =>
        rcases writeStatus_cases w l s.status with ⟨hstored, hsame⟩ | hnew
        · exact .inl ⟨hsame, fun _ => hstored⟩
        · exact .inr hnew
  rcases hwritten (!(w.call l a platform reg regFailed).listPodsFails &&
    (w.call l a platform reg regFailed).write.isPersisted) with ⟨hsame, hstored⟩ | hnew
  · rw [hsame]
    refine invariant_finish h.sound fun hdone hquiet sn hsn => .inr ?_
    obtain ⟨hlist, hwrite, hstatus, havailable, hok, htrue⟩ := done_of_resultOf hupdate hdone
    have hfacts := h.facts hquiet
    rw [hpc] at hfacts
    obtain ⟨hlive, hdeployed, hchecks, hprobed, hreg⟩ := hfacts
    obtain rfl := Option.some.inj (hsn.symm.trans hlive.current)
    exact ⟨hlive.deleting, serves_of_stored (w.call l a platform reg regFailed).observed hdeployed
      hchecks hlive.finalizer hprobed (hreg hok) htrue havailable hstatus
      (hstored (by rw [hlist, hwrite]; rfl))⟩
  · rw [hnew]
    exact invariant_finish (sound_cons h.sound _) fun _ hquiet =>
      absurd hquiet (h.not_quiet_cons _)

/-- Every stage of a reconcile keeps the invariant, whatever it meets. -/
theorem Invariant.advance (h : Invariant o w) (hstep : advance o w a = some w') :
    Invariant o w' := by
  cases hpc : w.pc with
  | idle =>
      rw [Operator.advance, hpc] at hstep
      cases hstep
  | taken => exact h.getStage hpc hstep
  | got l => exact h.markStage hpc hstep
  | marked l => exact h.denyStage hpc hstep
  | denied l forbidden openshift => exact h.checkStage hpc hstep
  | checked l forbidden openshift => exact h.probeStage hpc hstep
  | applying l forbidden platform rest =>
      cases rest with
      | nil => exact h.syncStage hpc hstep
      | cons step rest => exact h.applyStage hpc hstep
  | synced l platform reg regFailed => exact h.updateStage hpc hstep

end Stages

/-! ### Every step keeps the invariant -/

/-- Others write an object: if it is watched, the queue is not at rest any more. -/
theorem Invariant.object (h : Invariant o w) (k : Render.Kind) (v : Option (Render.Object k)) :
    Invariant o { w with store := w.store.set k (v :: w.store.objects k) } := by
  by_cases hk : k = .daemonSet
  · subst hk
    have hset := Apply.objects_set_self w.store .daemonSet (v :: w.store.objects .daemonSet)
    have hlt : w.written .daemonSet < World.written
        { w with store := w.store.set .daemonSet (v :: w.store.objects .daemonSet) }
        .daemonSet := by
      rw [World.written, World.written, hset]
      exact Nat.lt_succ_self _
    refine ⟨h.sound.mono fun k' => ?_, fun hquiet =>
      absurd hquiet (h.sound.not_quiet_of_lt hlt)⟩
    cases k' with
    | daemonSet => exact hlt.le
    | network => exact le_rfl
    | nodes => exact le_rfl
  · have hset : (w.store.set k (v :: w.store.objects k)).objects .daemonSet =
        w.store.objects .daemonSet := Apply.objects_set_of_ne (Ne.symm hk)
    have hknown : World.known { w with store := w.store.set k (v :: w.store.objects k) } =
        w.known := by
      rw [World.known, hset]
      rfl
    have hwritten : World.written { w with store := w.store.set k (v :: w.store.objects k) } =
        w.written := by
      funext k'
      cases k' with
      | daemonSet => exact congrArg List.length hset
      | network => rfl
      | nodes => rfl
    refine ⟨by rw [hwritten]; exact h.sound, fun hquiet => ?_⟩
    rw [hwritten] at hquiet
    rw [hknown]
    exact h.facts hquiet

/-- The nodes change: the queue is not at rest any more. -/
theorem Invariant.nodes (h : Invariant o w) (nodes : List Node) :
    Invariant o { w with nodes := nodes :: w.nodes } := by
  have hlt : w.written .nodes < World.written { w with nodes := nodes :: w.nodes } .nodes :=
    Nat.lt_succ_self _
  refine ⟨h.sound.mono fun k => ?_, fun hquiet => absurd hquiet (h.sound.not_quiet_of_lt hlt)⟩
  cases k with
  | nodes => exact hlt.le
  | network => exact le_rfl
  | daemonSet => exact le_rfl

/-- A process that was just started knows nothing. -/
theorem Invariant.restart (w : World β) :
    Invariant o { w with queue := .initial, pc := .idle } := by
  refine ⟨sound_initial _, fun hquiet _ sn hsn => ?_⟩
  have hempty : w.networks = [] := List.length_eq_zero_iff.mp (hquiet .network)
  dsimp only at hsn
  rw [hempty] at hsn
  cases hsn

/-- **Every step keeps the invariant.** -/
theorem invariant_step [DecidableEq β] (o : Setup β) (w : World β) (event : Event) (w' : World β)
    (h : Invariant o w) (hstep : step o w event = some w') : Invariant o w' := by
  cases event with
  | network v =>
      obtain rfl := Option.some.inj hstep
      exact ⟨sound_cons h.sound v, fun hquiet => absurd hquiet (h.not_quiet_cons v)⟩
  | object k v =>
      obtain rfl := Option.some.inj hstep
      exact h.object k v
  | nodes nodes =>
      obtain rfl := Option.some.inj hstep
      exact h.nodes nodes
  | deliver k n =>
      rw [step] at hstep
      split_ifs at hstep with hguard
      obtain rfl := Option.some.inj hstep
      exact ⟨h.sound.deliver hguard.1 hguard.2, h.facts⟩
  | take =>
      obtain ⟨q, hq, rfl⟩ := Option.map_eq_some_iff.mp hstep
      exact ⟨h.sound.take hq, fun _ => trivial⟩
  | fire =>
      obtain ⟨q, hq, rfl⟩ := Option.map_eq_some_iff.mp hstep
      refine ⟨h.sound.fire hq, ?_⟩
      rw [Queue.fire] at hq
      split_ifs at hq
      obtain rfl := Option.some.inj hq
      exact h.facts
  | advance a => exact h.advance hstep
  | restart =>
      obtain rfl := Option.some.inj hstep
      exact .restart w

/-- Nothing is to be done, and the operator knows everything. -/
structure Resting (w : World β) : Prop where
  queue : AtRest w.written w.queue
  pc : w.pc = .idle

/-- **At rest the operator has converged.** In every interleaving of its reconciles with others
that write any of the objects, with caches that lag behind, with failing calls and with restarts:
when the caches hold everything and no reconcile is going on or to come, there is no network, or it
was released, or it is served. -/
theorem converged_of_resting [DecidableEq β] (o : Setup β) (events : List Event) (w : World β)
    (hrun : Transition.run (step o) .initial events = some w) (hrest : Resting w) :
    Converged o w.known w.networks := by
  have h : Invariant o w := Transition.run_preserves (invariant_step o) (.restart .initial) hrun
  obtain ⟨hquiet, hcalm⟩ := h.sound.quiet_of_atRest hrest.queue
  have hfacts := h.facts hquiet
  rw [hrest.pc] at hfacts
  exact hfacts hcalm

/-- OVN-Kubernetes routes through the host, and pods are advertised. -/
def sampleProbes : Platform.Probes where
  network := .ok (.obj [("spec".toList, .obj [("defaultNetwork".toList, .obj
    [("type".toList, .str "OVNKubernetes".toList),
      ("ovnKubernetesConfig".toList, .obj
        [("gatewayConfig".toList, .obj [("routingViaHost".toList, .bool true)]),
          ("routeAdvertisements".toList, .str "Enabled".toList)])])])])
  routes := .ok [.obj
    [("status".toList, .obj [("status".toList, .str "Accepted".toList)]),
      ("spec".toList, .obj
        [("advertisements".toList, .arr [.str "PodNetwork".toList]),
          ("networkSelectors".toList, .arr
            [.obj [("networkSelectionType".toList, .str "DefaultNetwork".toList)]])])]]
  calicoPresent := false
  ciliumPresent := false

/-- The API gives no trouble, and the only agent is ready. -/
def sampleAnswers : Answers where
  getFails := false
  listError := none
  cluster := sampleCluster
  probes := sampleProbes
  requests := Apply.quiet
  sync := ⟨1500000000, .ok [], ∅, false, [], none⟩
  pastDeadline := false
  discovered := none
  listPodsFails := false
  pods := [⟨"p1".toList, "n1".toList, [⟨"Ready".toList, .conditionTrue, 0⟩], 0⟩]
  daemonSet := some ⟨1, 1, 1⟩
  now := 1600000000
  message := []
  write := .persisted

/-- An operator on OpenShift, with an API server that changes nothing in what it stores. -/
def sampleSetup : Setup (Option MetricsTLS.Certificate × ℕ) :=
  ⟨MetricsTLS.samplePki, .defaulting id, true, "agent:1".toList⟩

/-- A network that was just created, with the sample spec. -/
def sampleNetwork : ScionNetwork :=
  ⟨"u1".toList, 1, ⟨sampleSpec, none, []⟩, [], false, false, Status.emptyStatus⟩

/-- A reconcile of the sample network, in which nothing fails. -/
def sampleReconcile : List Event :=
  .take :: List.replicate 13 (.advance sampleAnswers)

/-- The network is created and reconciled twice, both times within the same second. -/
def sampleEvents : List Event :=
  [.nodes [nodeAt "192.0.2.1".toList], .network (some sampleNetwork), .deliver .nodes 1,
      .deliver .network 1] ++
    sampleReconcile ++ [.deliver .network 3, .deliver .daemonSet 1] ++ sampleReconcile

/-- Whether nothing is to be done, as a test. -/
def World.isResting (w : World β) : Bool :=
  ([.network, .daemonSet, .nodes].all fun k => w.queue.delivered k = w.written k) &&
    !w.queue.dirty && !w.queue.running && w.queue.timers = 0 &&
      match w.pc with
      | .idle => true
      | _ => false

/-- It can be tested that nothing is to be done. -/
theorem resting_of_isResting (h : w.isResting = true) : Resting w := by
  simp only [World.isResting, Bool.and_eq_true, Bool.not_eq_true', decide_eq_true_eq,
    List.all_cons, List.all_nil, and_true] at h
  obtain ⟨⟨⟨⟨⟨hnetwork, hdaemonSet, hnodes⟩, hdirty⟩, hrunning⟩, htimers⟩, hpc⟩ := h
  refine ⟨⟨fun k => ?_, hdirty, hrunning, htimers⟩, ?_⟩
  · cases k with
    | network => exact hnetwork
    | daemonSet => exact hdaemonSet
    | nodes => exact hnodes
  · split at hpc
    · assumption
    · cases hpc

/-- The operator comes to rest, and serves the network. -/
theorem converged_of_sampleEvents :
    ∃ w sn, Transition.run (step sampleSetup) .initial sampleEvents = some w ∧ Resting w ∧
      current w.networks = some sn ∧ Serves sampleSetup w.known sn := by
  have hstate : (Transition.run (step sampleSetup) .initial sampleEvents).map (fun w =>
      (w.isResting, (current w.networks).map fun sn => sn.deleting)) =
        some (true, some false) := by decide +kernel
  obtain ⟨w, hw, hstate⟩ := Option.map_eq_some_iff.mp hstate
  obtain ⟨hresting, hnetwork⟩ := Prod.mk.inj hstate
  obtain ⟨sn, hsn, hdeleting⟩ := Option.map_eq_some_iff.mp hnetwork
  have hrest := resting_of_isResting hresting
  rcases converged_of_resting sampleSetup sampleEvents w hw hrest sn hsn with
    ⟨hdel, -⟩ | ⟨-, hserves⟩
  · cases hdel.symm.trans hdeleting
  · exact ⟨w, sn, hw, hrest, hsn, hserves⟩

end ScionOperator.Operator
