import ScionOperator.JsonDecode

/-!
# Kubernetes Objects

The objects the operator and the agent read: the `ScionNetwork` spec (`api/v1alpha1`), the
nodes, and unstructured objects of other APIs with the accessors of `unstructured.Nested*`.
What the API server promises about an object is a field of its type: a node's single pod
CIDR is one of its pod CIDRs, and a list of strings in a schema holds strings only.

## Main definitions

* `Spec`, `AcceptPolicy`, `RegistrarSpec`: the `ScionNetwork` spec.
* `Node`, `NodeAddress`: what is read of a node.
* `nestedField`, `nestedSlice`, `nestedStringSlice`: access to unstructured objects.
* `NetworkConfig`, `CiliumNode`: unstructured objects with what their schema promises.
-/

namespace ScionOperator

open Text Json

/-! ### The ScionNetwork spec -/

/-- How the AS is discovered. -/
structure BootstrapSpec where
  mode : Str
  discoveryURL : Str
  dnsDomain : Str
  dhcpInterface : Str
  refreshInterval : Str

/-- Which local prefixes are advertised. -/
structure AdvertisementSpec where
  podCIDR : Option Bool
  nodeIP : Option Bool

/-- Which remote prefixes are accepted. -/
structure AcceptPolicy where
  isdASes : List Str
  forbiddenCIDRs : List Str
  underlayCIDRs : List Str

/-- How the endpoints of the nodes are registered with the AS. -/
structure RegistrarSpec where
  backend : Str
  endpoint : Str
  credentialsSecretRef : Option Str
deriving DecidableEq

/-- The desired state of the network, as far as it is read here. -/
structure Spec where
  bootstrap : BootstrapSpec
  advertisement : AdvertisementSpec
  acceptPolicy : AcceptPolicy
  tunName : Str
  registrar : RegistrarSpec
  nodeSelector : GoMap Str

/-! ### API errors and nodes -/

/-- An error of the API, as far as the operator tells errors apart. -/
inductive ApiError
  | notFound
  | forbidden
  | noMatch
  | other (message : Str)
deriving DecidableEq

/-- The kinds of addresses a node reports. -/
inductive NodeAddressType
  | hostname
  | internalIP
  | externalIP
  | internalDNS
  | externalDNS
deriving DecidableEq

/-- An address of a node. -/
structure NodeAddress where
  type : NodeAddressType
  address : Str
deriving DecidableEq

/-- A node. The API server keeps the single pod CIDR among the pod CIDRs. -/
structure Node where
  name : Str
  labels : GoMap Str
  annotations : GoMap Str
  podCIDR : Str
  podCIDRs : List Str
  addresses : List NodeAddress
  podCIDR_mem : podCIDRs ≠ [] → podCIDR ≠ [] → podCIDR ∈ podCIDRs

/-! ### Unstructured objects -/

/-- The value at a path of an object (`NestedFieldNoCopy`). Absence and a value that is no
object on the way are both `none`: no caller tells them apart. -/
def nestedField : Value → List Str → Option Value
  | v, [] => some v
  | .obj ms, f :: fs => (GoMap.lastValue f ms).bind fun v => nestedField v fs
  | _, _ :: _ => none

/-- The list at a path, empty if there is none. -/
def nestedSlice (obj : Value) (path : List Str) : List Value :=
  match nestedField obj path with
  | some (.arr vs) => vs
  | _ => []

/-- The string a value holds. -/
def asString : Value → Option Str
  | .str s => some s
  | _ => none

/-- The list of strings at a path; a single element of another type makes it empty. -/
def nestedStringSlice (obj : Value) (path : List Str) : List Str :=
  ((nestedSlice obj path).mapM asString).getD []

/-- The string at a path, empty if there is none. -/
def nestedString (obj : Value) (path : List Str) : Str :=
  ((nestedField obj path).bind asString).getD []

/-- The Boolean at a path, false if there is none. -/
def nestedBool (obj : Value) (path : List Str) : Bool :=
  match nestedField obj path with
  | some (.bool b) => b
  | _ => false

/-- The list at a path holds strings only. -/
def StringsAt (obj : Value) (path : List Str) : Prop :=
  ∀ v ∈ nestedSlice obj path, (asString v).isSome = true

instance (obj : Value) (path : List Str) : Decidable (StringsAt obj path) :=
  inferInstanceAs (Decidable (∀ v ∈ nestedSlice obj path, (asString v).isSome = true))

/-- The value that holds a string. -/
theorem asString_eq_some {v : Value} {s : Str} : asString v = some s ↔ v = .str s := by
  cases v <;> simp [asString]

/-- Under such a schema nothing is lost. -/
theorem mem_nestedStringSlice {obj : Value} {path : List Str} (h : StringsAt obj path)
    {s : Str} : s ∈ nestedStringSlice obj path ↔ .str s ∈ nestedSlice obj path := by
  have hmapM : ∀ vs : List Value, (∀ v ∈ vs, (asString v).isSome = true) →
      vs.mapM asString = some (vs.filterMap asString) := by
    intro vs hvs
    induction vs with
    | nil => rfl
    | cons v vs ih =>
        obtain ⟨t, ht⟩ := Option.isSome_iff_exists.mp (hvs v (by simp))
        rw [List.mapM_cons, ih fun u hu => hvs u (by simp [hu]), List.filterMap_cons, ht]
        rfl
  rw [nestedStringSlice, hmapM _ h, Option.getD_some, List.mem_filterMap]
  simp [asString_eq_some]

/-- The path of the cluster networks in the OpenShift network configuration. -/
def clusterNetworkPath : List Str :=
  ["spec".toList, "clusterNetwork".toList]

/-- The path of the CIDR in an entry of the cluster networks. -/
def clusterNetworkCIDRPath : List Str :=
  ["cidr".toList]

/-- The path of the service networks in the OpenShift network configuration. -/
def serviceNetworkPath : List Str :=
  ["spec".toList, "serviceNetwork".toList]

/-- The path of the switch that disables a Calico pool. -/
def poolDisabledPath : List Str :=
  ["spec".toList, "disabled".toList]

/-- The path of the CIDR of a Calico pool. -/
def poolCIDRPath : List Str :=
  ["spec".toList, "cidr".toList]

/-- The path of the pod CIDRs in a CiliumNode. -/
def ciliumPodCIDRsPath : List Str :=
  ["spec".toList, "ipam".toList, "podCIDRs".toList]

/-- The OpenShift network configuration; by its schema service networks are strings. -/
structure NetworkConfig where
  object : Value
  serviceNetwork_strings : StringsAt object serviceNetworkPath

/-- A CiliumNode; by its schema pod CIDRs are strings. -/
structure CiliumNode where
  object : Value
  podCIDRs_strings : StringsAt object ciliumPodCIDRsPath

end ScionOperator
