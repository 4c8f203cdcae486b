import ScionOperator.Agent

/-!
# The Objects the Operator Renders

The objects the operator keeps for a `ScionNetwork` (`internal/operator/render`): the namespace,
the account of the agents with its role and the binding of the two, the DaemonSet of the agents,
and on OpenShift the constraints under which their pods are admitted. All of them are functions
of the spec.

The pods of the agents get the selector of the spec, by which the operator also selects the nodes
whose gateways it registers. To the tolerations of the spec one is added that tolerates everything.
What becomes of these objects on a cluster, where pods are placed and under which constraints they
are admitted, is not modelled; how the operator keeps them there is (`Apply`), and what a container
makes of its environment and its probes (`Startup`, `Lifecycle`).
-/

namespace ScionOperator.Render

open Text

/-! ### Names -/

/-- The namespace of the objects that have one. -/
def namespaceName : Str :=
  "scion-system".toList

/-- The name of the agents' objects. -/
def agentName : Str :=
  "scion-node-agent".toList

/-- The Secret with the certificate for the metrics. -/
def metricsTLSSecret : Str :=
  "scion-node-agent-metrics-tls".toList

/-- The directory of the agent's state on the node. -/
def stateDir : Str :=
  "/var/lib/scion-node-agent".toList

/-- Where the agent reads pinned TRCs. -/
def pinnedTRCsDir : Str :=
  stateDir ++ "/pinned-trcs".toList

/-- The port of the metrics and the probes. -/
def metricsPort : ℕ :=
  9465

/-- The labels of all objects. -/
def labels : GoMap Str :=
  GoMap.insertAll ∅ [("app".toList, agentName)]

/-! ### Pods -/

/-- What a taint does to pods that do not tolerate it. -/
inductive TaintEffect
  | noSchedule
  | preferNoSchedule
  | noExecute
  deriving DecidableEq

/-- How a toleration compares values; `Equal` is the default. -/
inductive TolerationOperator
  | equal
  | exists
  deriving DecidableEq

/-- A toleration; an empty key matches all keys, and no effect all effects. -/
structure Toleration where
  key : Str
  operator : TolerationOperator
  value : Str
  effect : Option TaintEffect
  deriving DecidableEq

/-- The kinds of host paths that are mounted. -/
inductive HostPathType
  | charDevice
  | directoryOrCreate
  deriving DecidableEq

/-- Where a volume comes from. -/
inductive VolumeSource
  | hostPath (path : Str) (type : HostPathType)
  | secret (name : Str) (optional : Bool)
  deriving DecidableEq

/-- A volume of a pod. -/
structure Volume where
  name : Str
  source : VolumeSource
  deriving DecidableEq

/-- Where a volume is mounted. -/
structure VolumeMount where
  name : Str
  mountPath : Str
  readOnly : Bool
  deriving DecidableEq

/-- The scheme of a probe. -/
inductive URIScheme
  | http
  | https
  deriving DecidableEq

/-- A probe by a GET request. -/
structure Probe where
  path : Str
  port : ℕ
  scheme : URIScheme
  deriving DecidableEq

/-- A container. -/
structure Container where
  name : Str
  image : Str
  env : List EnvVar
  privileged : Bool
  runAsUser : ℕ
  cpuRequest : Str
  memoryRequest : Str
  volumeMounts : List VolumeMount
  readinessProbe : Probe
  livenessProbe : Probe
  deriving DecidableEq

/-- The spec of a pod. -/
structure PodSpec where
  serviceAccountName : Str
  hostNetwork : Bool
  priorityClassName : Str
  nodeSelector : GoMap Str
  tolerations : List Toleration
  containers : List Container
  volumes : List Volume
  deriving DecidableEq

/-- The spec of a DaemonSet. -/
structure DaemonSetSpec where
  selector : GoMap Str
  templateLabels : GoMap Str
  template : PodSpec
  deriving DecidableEq

/-! ### Accounts and constraints -/

/-- What a role allows. -/
structure PolicyRule where
  apiGroups : List Str
  resources : List Str
  verbs : List Str
  deriving DecidableEq

/-- The role of a binding. -/
structure RoleRef where
  apiGroup : Str
  kind : Str
  name : Str
  deriving DecidableEq

/-- Who a role is bound to. -/
structure Subject where
  kind : Str
  name : Str
  subjectNamespace : Str
  deriving DecidableEq

/-- A role and who it is bound to. -/
structure Binding where
  roleRef : RoleRef
  subjects : List Subject
  deriving DecidableEq

/-- A value of an unstructured object, as far as the constraints have such values; any other one
is kept as its text. -/
inductive FieldValue
  | str (s : Str)
  | bool (b : Bool)
  | strings (l : List Str)
  /-- an object with the only member `type` -/
  | strategy (type : Str)
  | other (text : Str)
  deriving DecidableEq

/-! ### Objects -/

/-- The kinds of objects that are rendered. -/
inductive Kind
  | ns
  | serviceAccount
  | clusterRole
  | clusterRoleBinding
  | daemonSet
  | scc
  deriving DecidableEq

/-- What an object of a kind has besides its metadata. -/
def Body : Kind → Type
  | .ns | .serviceAccount => Unit
  | .clusterRole => List PolicyRule
  | .clusterRoleBinding => Binding
  | .daemonSet => DaemonSetSpec
  | .scc => GoMap FieldValue

instance : (k : Kind) → DecidableEq (Body k)
  | .ns | .serviceAccount => inferInstanceAs (DecidableEq Unit)
  | .clusterRole => inferInstanceAs (DecidableEq (List PolicyRule))
  | .clusterRoleBinding => inferInstanceAs (DecidableEq Binding)
  | .daemonSet => inferInstanceAs (DecidableEq DaemonSetSpec)
  | .scc => inferInstanceAs (DecidableEq (GoMap FieldValue))

/-- A reference to an owner of an object. -/
structure OwnerReference where
  group : Str
  kind : Str
  name : Str
  uid : Str
  controller : Bool
  deriving DecidableEq

/-- An object of a kind. -/
structure Object (k : Kind) where
  labels : GoMap Str
  ownerReferences : List OwnerReference
  body : Body k
  deriving DecidableEq

/-- The spec of a `ScionNetwork` with what only the rendering reads. -/
structure NetworkSpec extends Spec where
  /-- the Secret with pinned TRCs -/
  bootstrapSecretRef : Option Str
  tolerations : List Toleration

/-! ### The builders -/

/-- A probe at the port of the metrics. -/
def probe (path : Str) (tls : Bool) : Probe :=
  ⟨path, metricsPort, if tls then .https else .http⟩

/-- The volumes of the agents' pods. -/
def volumes (spec : NetworkSpec) (metricsTLS : Bool) : List Volume :=
  [⟨"state".toList, .hostPath stateDir .directoryOrCreate⟩,
    ⟨"tun".toList, .hostPath "/dev/net/tun".toList .charDevice⟩] ++
  (match spec.bootstrapSecretRef with
    | some ref => [⟨"pinned-trcs".toList, .secret ref false⟩]
    | none => []) ++
  if metricsTLS then [⟨"metrics-tls".toList, .secret metricsTLSSecret true⟩] else []

/-- The mounts of the agent's container. -/
def mounts (spec : NetworkSpec) (metricsTLS : Bool) : List VolumeMount :=
  [⟨"state".toList, stateDir, false⟩, ⟨"tun".toList, "/dev/net/tun".toList, false⟩] ++
  (match spec.bootstrapSecretRef with
    | some _ => [⟨"pinned-trcs".toList, pinnedTRCsDir, true⟩]
    | none => []) ++
  if metricsTLS then [⟨"metrics-tls".toList, metricsTLSDir, true⟩] else []

/-- The toleration of every taint: the operator `Exists` without a key. -/
def tolerateAll : Toleration :=
  ⟨[], .exists, [], none⟩

/-- The DaemonSet of the agents. -/
def daemonSet (spec : NetworkSpec) (image : Str) (forbiddenCIDRs : List Str)
    (metricsTLS : Bool) : Object .daemonSet where
  labels := labels
  ownerReferences := []
  body :=
    { selector := labels
      templateLabels := labels
      template :=
        { serviceAccountName := agentName
          hostNetwork := true
          priorityClassName := "system-node-critical".toList
          nodeSelector := spec.nodeSelector
          tolerations := spec.tolerations ++ [tolerateAll]
          containers :=
            [{ name := "agent".toList
               image := image
               env := daemonSetEnv spec.toSpec forbiddenCIDRs metricsTLS
               privileged := true
               runAsUser := 0
               cpuRequest := "50m".toList
               memoryRequest := "64Mi".toList
               volumeMounts := mounts spec metricsTLS
               readinessProbe := probe "/readyz".toList metricsTLS
               livenessProbe := probe "/healthz".toList metricsTLS }]
          volumes := volumes spec metricsTLS } }

/-- The account of the agents. -/
def serviceAccount : Object .serviceAccount :=
  ⟨labels, [], ()⟩

/-- What the agents may do: read their node and the address blocks of Calico and Cilium, and
have the tokens of scrapers reviewed. -/
def rules : List PolicyRule :=
  [⟨[[]], ["nodes".toList], ["get".toList]⟩,
    ⟨["crd.projectcalico.org".toList], ["blockaffinities".toList], ["get".toList, "list".toList]⟩,
    ⟨["cilium.io".toList], ["ciliumnodes".toList], ["get".toList, "list".toList]⟩,
    ⟨["authentication.k8s.io".toList], ["tokenreviews".toList], ["create".toList]⟩,
    ⟨["authorization.k8s.io".toList], ["subjectaccessreviews".toList], ["create".toList]⟩]

/-- The role of the agents. -/
def clusterRole : Object .clusterRole :=
  ⟨labels, [], rules⟩

/-- Who the role is bound to: the account of the agents. -/
def subjects : List Subject :=
  [⟨"ServiceAccount".toList, agentName, namespaceName⟩]

/-- The binding of the role to the account. -/
def clusterRoleBinding : Object .clusterRoleBinding where
  labels := labels
  ownerReferences := []
  body :=
    { roleRef := ⟨"rbac.authorization.k8s.io".toList, "ClusterRole".toList, agentName⟩
      subjects := subjects }

/-- The user that an account in a namespace is. -/
def serviceAccountUser (accountNamespace name : Str) : Str :=
  "system:serviceaccount:".toList ++ accountNamespace ++ ":".toList ++ name

/-- The fields of the constraints besides the metadata. -/
def sccFields : List (Str × FieldValue) :=
  [("apiVersion".toList, .str "security.openshift.io/v1".toList),
    ("kind".toList, .str "SecurityContextConstraints".toList),
    ("allowHostDirVolumePlugin".toList, .bool true),
    ("allowHostIPC".toList, .bool false),
    ("allowHostNetwork".toList, .bool true),
    ("allowHostPID".toList, .bool false),
    ("allowHostPorts".toList, .bool true),
    ("allowPrivilegeEscalation".toList, .bool true),
    ("allowPrivilegedContainer".toList, .bool true),
    ("allowedCapabilities".toList, .strings []),
    ("fsGroup".toList, .strategy "RunAsAny".toList),
    ("readOnlyRootFilesystem".toList, .bool false),
    ("runAsUser".toList, .strategy "RunAsAny".toList),
    ("seLinuxContext".toList, .strategy "RunAsAny".toList),
    ("supplementalGroups".toList, .strategy "RunAsAny".toList),
    ("volumes".toList, .strings ["hostPath".toList, "secret".toList, "downwardAPI".toList,
      "configMap".toList, "projected".toList, "emptyDir".toList]),
    ("users".toList, .strings [serviceAccountUser namespaceName agentName]),
    ("groups".toList, .strings [])]

/-- The constraints besides the metadata. -/
def sccBody : GoMap FieldValue :=
  GoMap.insertAll ∅ sccFields

/-- The constraints under which the agents' pods are admitted on OpenShift. -/
def scc : Object .scc :=
  ⟨labels, [], sccBody⟩

/-- The namespace, with the labels that admit privileged pods. -/
def namespaceObj : Object .ns where
  labels := GoMap.insertAll labels
    [("pod-security.kubernetes.io/enforce".toList, "privileged".toList),
      ("pod-security.kubernetes.io/audit".toList, "privileged".toList),
      ("pod-security.kubernetes.io/warn".toList, "privileged".toList)]
  ownerReferences := []
  body := ()

end ScionOperator.Render
