import ScionOperator.Certificate
import ScionOperator.FirstError

/-!
# Applying the Objects

A reconcile creates or updates the objects of the agents one after another and stops at the first
error (`apply`). Every object but the namespace gets a reference to the `ScionNetwork` as its
controller (`Owners`), so that it is collected when the network is gone; an object that another
controller has is not touched, and the call fails. What is overwritten of an existing object
depends on its kind: the labels of the namespace are merged, the account is left as it is, the role
of a binding is set only when it is created, and the DaemonSet gets the whole rendered spec.

On clusters other than OpenShift a call also provides the certificate of the metrics
(`Certificate`). Its Secret and its ConfigMap are written only if no usable certificate is read, so
that they are looked at apart in what follows.

The API server may store an object differently from what it was sent: it fills in defaults, of a
DaemonSet in particular, and these are missing again in the next object that is sent. It is
assumed to be consistent in this (`Server.stable`).

## Main results

* `apply_settles`: **a call that succeeds on current reads leaves every object settled, and no
  later call for the same spec writes anything**, whatever fails in it; the certificate stays as
  long as a usable one is read.
* `apply_eq_none_iff`: a call that the API gives no trouble fails exactly for an object that has
  another controller.
* `apply_of_error`: **an error names its object**; the objects before it are settled, and those
  after it are untouched.
* `apply_ownership`: what a call does to the owners of the objects.
* `only_namespace_remains`: **after the deletion of the network and the collection of what it
  owned, only the namespace is left**.
-/

namespace ScionOperator.Apply

open Text Render CreateOrUpdate

/-! ### What is kept of the objects -/

/-- What a call is to apply: the network with its UID, the image and the deny list. -/
structure Desired where
  spec : NetworkSpec
  uid : Str
  image : Str
  forbiddenCIDRs : List Str

/-- The namespace and the name of an object of a kind. -/
def objectKey : Kind → Str
  | .ns => '/' :: namespaceName
  | .serviceAccount | .daemonSet => namespaceName ++ '/' :: agentName
  | .clusterRole | .clusterRoleBinding | .scc => '/' :: agentName

/-- The rendered objects. Metrics are always served over TLS. -/
def Desired.rendered (d : Desired) : (k : Kind) → Object k
  | .ns => namespaceObj
  | .serviceAccount => serviceAccount
  | .clusterRole => clusterRole
  | .clusterRoleBinding => clusterRoleBinding
  | .daemonSet => daemonSet d.spec d.image d.forbiddenCIDRs true
  | .scc => scc

/-- What is overwritten of an object. -/
def Desired.overwrite (d : Desired) : (k : Kind) → Object k → Object k
  | .ns, o => { o with labels := GoMap.insertAll o.labels namespaceObj.labels.toList }
  | .serviceAccount, o => o
  | .clusterRole, o => { o with body := rules }
  | .clusterRoleBinding, o => { o with body := Binding.mk (Binding.roleRef o.body) subjects }
  | .daemonSet, o =>
      let want := daemonSet d.spec d.image d.forbiddenCIDRs true
      { o with labels := GoMap.insertAll o.labels want.labels.toList, body := want.body }
  | .scc, o => { o with body := (GoMap.insertAll o.body sccFields : GoMap FieldValue) }

/-- What is changed of an object before it is written; the namespace gets no owner. -/
def Desired.mutate (d : Desired) (k : Kind) (o : Object k) : Except Str (Object k) :=
  if k = .ns then .ok (d.overwrite k o)
  else
    match setControllerReference (objectKey k) (networkRef d.uid) o.ownerReferences with
    | .error cause => .error cause
    | .ok refs => .ok (d.overwrite k { o with ownerReferences := refs })

/-- Overwriting leaves the owners alone. -/
theorem ownerReferences_overwrite (d : Desired) (k : Kind) (o : Object k) :
    (d.overwrite k o).ownerReferences = o.ownerReferences := by
  cases k <;> rfl

/-- What the API server stores of the objects it is sent. -/
structure Server where
  persist : (k : Kind) → Object k → Object k
  /-- it does not touch the owners -/
  ownerReferences_persist : ∀ k o, (persist k o).ownerReferences = o.ownerReferences
  /-- what was overwritten and stored is stored again as it is -/
  stable : ∀ (d : Desired) k o, persist k (d.overwrite k (persist k (d.overwrite k o))) =
    persist k (d.overwrite k o)

/-- What a server stores that fills in the specs of DaemonSets. -/
def persistDefaulting (defaults : DaemonSetSpec → DaemonSetSpec) : (k : Kind) → Object k → Object k
  | .daemonSet, o => { o with body := defaults o.body }
  | .ns, o | .serviceAccount, o | .clusterRole, o | .clusterRoleBinding, o | .scc, o => o

/-- Whatever is filled in, it is filled in again in the same way. -/
theorem persistDefaulting_stable (defaults : DaemonSetSpec → DaemonSetSpec) (d : Desired) (k : Kind)
    (o : Object k) :
    persistDefaulting defaults k (d.overwrite k (persistDefaulting defaults k (d.overwrite k o))) =
      persistDefaulting defaults k (d.overwrite k o) := by
  cases k with
  | ns =>
      exact congrArg (Object.mk · o.ownerReferences o.body) (GoMap.insertAll_insertAll_self ..)
  | serviceAccount => rfl
  | clusterRole => rfl
  | clusterRoleBinding => rfl
  | daemonSet =>
      exact congrArg (Object.mk · o.ownerReferences _) (GoMap.insertAll_insertAll_self ..)
  | scc =>
      exact congrArg (Object.mk o.labels o.ownerReferences ·) (GoMap.insertAll_insertAll_self ..)

/-- It does not touch the owners. -/
theorem ownerReferences_persistDefaulting (defaults : DaemonSetSpec → DaemonSetSpec) (k : Kind)
    (o : Object k) : (persistDefaulting defaults k o).ownerReferences = o.ownerReferences := by
  cases k <;> rfl

/-- A server that fills in the specs of DaemonSets, in any way, and stores the rest as it is. -/
def Server.defaulting (defaults : DaemonSetSpec → DaemonSetSpec) : Server where
  persist := persistDefaulting defaults
  ownerReferences_persist := ownerReferences_persistDefaulting defaults
  stable := persistDefaulting_stable defaults

/-- How a change that is possible looks. -/
theorem mutate_eq_ok_iff {d : Desired} {k : Kind} {o o' : Object k} :
    d.mutate k o = .ok o' ↔
      (k = .ns ∧ o' = d.overwrite k o) ∨
        (k ≠ .ns ∧ ¬ HasOtherController (networkRef d.uid) o.ownerReferences ∧
          o' = d.overwrite k
            { o with ownerReferences := upsertOwnerRef (networkRef d.uid) o.ownerReferences }) := by
  rw [Desired.mutate]
  by_cases hk : k = .ns
  · simp [hk, eq_comm]
  · rw [if_neg hk]
    cases hset : setControllerReference (objectKey k) (networkRef d.uid) o.ownerReferences with
    | error cause => simp [hk, hasOtherController_of_error hset]
    | ok refs =>
        obtain ⟨hother, rfl⟩ := setControllerReference_eq_ok_iff.mp hset
        simp [hk, hother, eq_comm]

/-- The objects as the library of kept objects sees them. -/
def managed (server : Server) (d : Desired) (k : Kind) : Managed (Object k) Str where
  rendered := d.rendered k
  mutate := d.mutate k
  persist := server.persist k
  stable := by
    intro x y hy
    rcases mutate_eq_ok_iff.mp hy with ⟨hk, rfl⟩ | ⟨hk, hother, rfl⟩
    · exact ⟨_, mutate_eq_ok_iff.mpr (.inl ⟨hk, rfl⟩), server.stable d k x⟩
    · generalize hx : { x with
        ownerReferences := upsertOwnerRef (networkRef d.uid) x.ownerReferences } = x'
      have hrefs : (server.persist k (d.overwrite k x')).ownerReferences =
          upsertOwnerRef (networkRef d.uid) x.ownerReferences := by
        rw [server.ownerReferences_persist, ownerReferences_overwrite, ← hx]
      refine ⟨d.overwrite k (server.persist k (d.overwrite k x')),
        mutate_eq_ok_iff.mpr (.inr ⟨hk, ?_, ?_⟩), server.stable d k x'⟩
      · rw [hrefs]
        exact not_hasOtherController_upsertOwnerRef rfl hother
      · rw [hrefs, upsertOwnerRef_upsertOwnerRef, ← hrefs]

/-- Every object but the namespace gets its owner. -/
theorem owns_managed (server : Server) (d : Desired) {k : Kind} (hk : k ≠ .ns) :
    Owns d.uid (managed server d k) Object.ownerReferences where
  rendered := by cases k <;> rfl
  exists_mutate x := by simp [managed, mutate_eq_ok_iff, hk]
  mutate x y h := by
    rcases mutate_eq_ok_iff.mp h with ⟨hns, -⟩ | ⟨-, -, rfl⟩
    · exact absurd hns hk
    · rw [ownerReferences_overwrite]
  persist := server.ownerReferences_persist k

/-- The namespace keeps the owners it has, whatever a call does. -/
theorem createOrUpdate_namespace_cases (server : Server) (d : Desired) (r : Request Str)
    (versions : History (Object .ns)) :
    (createOrUpdate (managed server d .ns) r versions).1 = versions ∨
      ∃ o, (createOrUpdate (managed server d .ns) r versions).1 = some o :: versions ∧
        o.ownerReferences = ownersOf Object.ownerReferences versions := by
  rcases createOrUpdate_cases (managed server d .ns) r versions with
    ⟨hsame, -⟩ | ⟨new, hmutate, hadded, -, -⟩
  · exact .inl hsame
  · refine .inr ⟨_, hadded, ?_⟩
    have hmutate' : d.mutate .ns ((current versions).getD (d.rendered .ns)) = .ok new := hmutate
    rcases mutate_eq_ok_iff.mp hmutate' with ⟨-, rfl⟩ | ⟨hne, -⟩
    · rw [managed, server.ownerReferences_persist, ownerReferences_overwrite, ownersOf]
      cases current versions <;> rfl
    · exact absurd rfl hne

/-! ### The steps of a call -/

/-- A step: an object, or the certificate for the metrics. -/
inductive Step
  | object (k : Kind)
  | metricsTLS
  deriving DecidableEq

/-- The steps of a call, in order. On OpenShift the platform provides the certificate, and the
constraints exist only there. -/
def steps (openshift sccAvail : Bool) : List Step :=
  [.object .ns] ++ (if openshift then [] else [.metricsTLS]) ++
    [.object .serviceAccount, .object .clusterRole, .object .clusterRoleBinding,
      .object .daemonSet] ++
    if sccAvail then [.object .scc] else []

/-- Why a call fails: `apply namespace`, `apply serviceaccount`, `apply clusterrole`, `apply
clusterrolebinding`, `apply daemonset` or `apply scc` with the cause, or the error of the
certificate. -/
inductive ApplyError
  | object (k : Kind) (cause : Failure Str)
  | metricsTLS (cause : TLSError)
  deriving DecidableEq

/-- The step an error is about. -/
def ApplyError.step : ApplyError → Step
  | .object k _ => .object k
  | .metricsTLS _ => .metricsTLS

/-- The objects on the API server. -/
@[ext]
structure Store (β : Type) where
  objects : (k : Kind) → History (Object k)
  tls : TLSObjects β

/-- The objects with other versions of one of them. -/
def Store.set {β : Type} (s : Store β) (k : Kind) (h : History (Object k)) : Store β :=
  { s with objects := Function.update s.objects k h }

/-- No object exists. -/
def Store.empty {β : Type} : Store β :=
  ⟨fun _ => [], ⟨[], []⟩⟩

/-- What a call meets at each of its steps. -/
structure Requests where
  object : Kind → Request Str
  tls : TLSRequests

/-- A call reads the current version of every object before it writes it. -/
structure Requests.Current (r : Requests) : Prop where
  object : ∀ k, (r.object k).behind = 0
  secret : r.tls.secret.behind = 0
  configMap : r.tls.configMap.behind = 0

section

variable {β : Type} [DecidableEq β] (pki : MetricsTLS.Pki β) (server : Server) (d : Desired)

/-- One step; the error that is returned, or nil. -/
def runStep (r : Requests) (s : Store β) : Step → Store β × Option ApplyError
  | .object k =>
      let result := createOrUpdate (managed server d k) (r.object k) (s.objects k)
      (s.set k result.1, result.2.map (.object k))
  | .metricsTLS =>
      let result := ensureMetricsTLS pki d.uid r.tls s.tls
      ({ s with tls := result.1 }, result.2.map .metricsTLS)

/-- Create or update all objects: the steps one after another, up to the first error. -/
def apply (openshift sccAvail : Bool) (r : Requests) (s : Store β) :
    Store β × Option ApplyError :=
  FirstError.run (fun step s => runStep pki server d r s step) (steps openshift sccAvail) s

/-- Several calls for the same network, one after another, whatever they return. -/
def applyAll (openshift sccAvail : Bool) (s : Store β) (rs : List Requests) : Store β :=
  rs.foldl (fun s r => (apply pki server d openshift sccAvail r s).1) s

end

/-- A network with a UID. -/
def sampleDesired (uid : Str) : Desired :=
  ⟨⟨sampleSpec, none, []⟩, uid, "agent:1".toList, ["10.128.0.0/14".toList]⟩

/-- A call to which the API gives no trouble. -/
def quiet : Requests :=
  ⟨fun _ => ⟨0, none, .done⟩, ⟨0, 0, false, 0, ⟨0, none, .done⟩, ⟨0, none, .done⟩⟩⟩

/-- Such a call on a cluster other than OpenShift, for the network of a UID. -/
def sampleApply (uid : Str) (s : Store (Option MetricsTLS.Certificate × ℕ)) :
    Store (Option MetricsTLS.Certificate × ℕ) × Option ApplyError :=
  apply MetricsTLS.samplePki (.defaulting id) (sampleDesired uid) false false quiet s

/-! ### What a step works on -/

section Parts

variable {β : Type}

/-- The part of the objects that a step works on. -/
abbrev Part (β : Type) : Step → Type
  | .object k => History (Object k)
  | .metricsTLS => TLSObjects β

/-- This part of a store. -/
def Store.part (s : Store β) : (step : Step) → Part β step
  | .object k => s.objects k
  | .metricsTLS => s.tls

/-- What a call creates or updates: the objects of the kinds, and the two of the certificate. -/
inductive Item
  | object (k : Kind)
  | secret
  | configMap
  deriving DecidableEq

/-- The versions of an item are of this type. -/
abbrev Content (β : Type) : Item → Type
  | .object k => Object k
  | .secret => DataObject (MetricsTLS.KeyPair β)
  | .configMap => DataObject β

/-- The versions of an item. -/
def Store.versions (s : Store β) : (i : Item) → History (Content β i)
  | .object k => s.objects k
  | .secret => s.tls.secret
  | .configMap => s.tls.configMap

/-- The owners in a version of an item. -/
def owners : (i : Item) → Content β i → List OwnerReference
  | .object _, o => o.ownerReferences
  | .secret, o | .configMap, o => o.ownerReferences

/-- The owners that an item has at present. -/
def Store.owners (s : Store β) (i : Item) : List OwnerReference :=
  ownersOf (Apply.owners i) (s.versions i)

/-- The objects with other versions of an item. -/
def Store.setVersions (s : Store β) : (i : Item) → History (Content β i) → Store β
  | .object k, h => s.set k h
  | .secret, h => { s with tls := { s.tls with secret := h } }
  | .configMap, h => { s with tls := { s.tls with configMap := h } }

/-- What a call is to apply. The Secret and the ConfigMap of the certificate are among it on
clusters other than OpenShift, unless the first read gets a usable certificate. -/
def Applies (pki : MetricsTLS.Pki β) (openshift sccAvail : Bool) (r : Requests) (s : Store β) :
    Item → Prop
  | .object k => .object k ∈ steps openshift sccAvail
  | .secret | .configMap => openshift = false ∧ ¬ r.tls.SeesUsable pki s.tls

/-- The API gives a call no trouble, and a certificate can be generated. -/
structure Requests.Undisturbed (pki : MetricsTLS.Pki β) (r : Requests) : Prop where
  object : ∀ k, (r.object k).Undisturbed
  tls : r.tls.Undisturbed pki

/-- The object that was set. -/
theorem objects_set_self (s : Store β) (k : Kind) (h : History (Object k)) :
    (s.set k h).objects k = h :=
  Function.update_self ..

/-- The other objects stay. -/
theorem objects_set_of_ne {s : Store β} {k k' : Kind} (hk : k' ≠ k) {h : History (Object k)} :
    (s.set k h).objects k' = s.objects k' :=
  Function.update_of_ne hk ..

/-- The versions that were set, and those of the other items. -/
theorem versions_setVersions (s : Store β) (i : Item) (h : History (Content β i)) :
    (s.setVersions i h).versions i = h ∧
      ∀ j, j ≠ i → (s.setVersions i h).versions j = s.versions j := by
  cases i with
  | object k =>
      refine ⟨objects_set_self s k h, fun j hj => ?_⟩
      cases j with
      | object k' => exact objects_set_of_ne fun hk => hj (congrArg Item.object hk)
      | secret => rfl
      | configMap => rfl
  | secret =>
      refine ⟨rfl, fun j hj => ?_⟩
      cases j with
      | secret => exact absurd rfl hj
      | object k => rfl
      | configMap => rfl
  | configMap =>
      refine ⟨rfl, fun j hj => ?_⟩
      cases j with
      | configMap => exact absurd rfl hj
      | object k => rfl
      | secret => rfl

end Parts

/-! ### What the steps do -/

variable {β : Type} [DecidableEq β] {pki : MetricsTLS.Pki β} {server : Server} {d : Desired}

/-- What a step does to its part. -/
def act (pki : MetricsTLS.Pki β) (server : Server) (d : Desired) (r : Requests) :
    (step : Step) → Part β step → Part β step × Option ApplyError
  | .object k, h =>
      let result := createOrUpdate (managed server d k) (r.object k) h
      (result.1, result.2.map (.object k))
  | .metricsTLS, o =>
      let result := ensureMetricsTLS pki d.uid r.tls o
      (result.1, result.2.map .metricsTLS)

/-- Every step works on its own part. -/
theorem separate_runStep (pki : MetricsTLS.Pki β) (server : Server) (d : Desired)
    (r : Requests) :
    FirstError.Separate (fun step s => runStep pki server d r s step) (fun step s => s.part step)
      (act pki server d r) where
  own step s := by
    cases step with
    | object k => exact Prod.ext (objects_set_self ..).symm rfl
    | metricsTLS => rfl
  others step step' s hne := by
    cases step with
    | object k =>
        cases step' with
        | object k' => exact objects_set_of_ne fun hk => hne (congrArg _ hk)
        | metricsTLS => rfl
    | metricsTLS =>
        cases step' with
        | object k' => rfl
        | metricsTLS => exact absurd rfl hne

/-- No object is applied twice. -/
theorem steps_nodup (openshift sccAvail : Bool) : (steps openshift sccAvail).Nodup := by
  cases openshift <;> cases sccAvail <;> decide

/-- The certificate is provided exactly on clusters other than OpenShift. -/
theorem metricsTLS_mem_steps {openshift sccAvail : Bool} :
    .metricsTLS ∈ steps openshift sccAvail ↔ openshift = false := by
  cases openshift <;> cases sccAvail <;> decide

/-- A step changes no object but its own. -/
theorem objects_runStep (pki : MetricsTLS.Pki β) (server : Server) (d : Desired) (r : Requests)
    (s : Store β) (step : Step) (k : Kind) :
    (step = .object k ∧ (runStep pki server d r s step).1.objects k =
        (createOrUpdate (managed server d k) (r.object k) (s.objects k)).1) ∨
      (step ≠ .object k ∧ (runStep pki server d r s step).1.objects k = s.objects k) := by
  by_cases hstep : step = .object k
  · subst hstep
    exact .inl ⟨rfl, objects_set_self ..⟩
  · exact .inr ⟨hstep, (separate_runStep pki server d r).others step (.object k) s (Ne.symm hstep)⟩

/-- The error of a step is about the step. -/
theorem step_of_act {r : Requests} {step : Step} {p p' : Part β step} {e : ApplyError}
    (h : act pki server d r step p = (p', some e)) : e.step = step := by
  have herr := congrArg Prod.snd h
  cases step with
  | object k =>
      obtain ⟨cause, -, rfl⟩ := Option.map_eq_some_iff.mp herr
      rfl
  | metricsTLS =>
      obtain ⟨cause, -, rfl⟩ := Option.map_eq_some_iff.mp herr
      rfl

/-- An object that was applied without an error is settled, if its current version was read. -/
theorem settled_of_act {r : Requests} {k : Kind} {h h' : History (Object k)}
    (hcurrent : (r.object k).behind = 0)
    (hact : act pki server d r (.object k) h = (h', none)) : Settled (managed server d k) h' := by
  have hsettled := settled_of_eq_none hcurrent
    (Option.map_eq_none_iff.mp (congrArg Prod.snd hact))
  rwa [show (createOrUpdate (managed server d k) (r.object k) h).1 = h' from
    congrArg Prod.fst hact] at hsettled

/-- What is left of the certificate by an error, or without one. -/
theorem tlsAfter_of_act {r : Requests} (hcurrent : r.Current) {o o' : TLSObjects β}
    {e : Option TLSError}
    (hact : act pki server d r .metricsTLS o = (o', e.map .metricsTLS)) :
    TLSAfter pki d.uid r.tls o o' e := by
  have hafter := tlsAfter_ensureMetricsTLS pki d.uid o hcurrent.secret hcurrent.configMap
  have herr : (ensureMetricsTLS pki d.uid r.tls o).2 = e :=
    Option.map_injective (fun _ _ h => ApplyError.metricsTLS.inj h) (congrArg Prod.snd hact)
  rwa [herr, show (ensureMetricsTLS pki d.uid r.tls o).1 = o' from congrArg Prod.fst hact] at hafter

/-- Whatever a call returns, each object is as before or as after one call of `CreateOrUpdate`. -/
theorem objects_apply (pki : MetricsTLS.Pki β) (server : Server) (d : Desired)
    (openshift sccAvail : Bool) (r : Requests) (s : Store β) (k : Kind) :
    (apply pki server d openshift sccAvail r s).1.objects k = s.objects k ∨
      (apply pki server d openshift sccAvail r s).1.objects k =
        (createOrUpdate (managed server d k) (r.object k) (s.objects k)).1 :=
  FirstError.part_run (separate_runStep pki server d r) (steps_nodup openshift sccAvail) s
    (.object k)

/-- The certificate is as before, or as it is when it was to be provided. -/
theorem tls_apply (pki : MetricsTLS.Pki β) (server : Server) (d : Desired)
    (openshift sccAvail : Bool) (r : Requests) (s : Store β) :
    (apply pki server d openshift sccAvail r s).1.tls = s.tls ∨
      (apply pki server d openshift sccAvail r s).1.tls =
        (ensureMetricsTLS pki d.uid r.tls s.tls).1 :=
  FirstError.part_run (separate_runStep pki server d r) (steps_nodup openshift sccAvail) s
    .metricsTLS

/-! ### Settled objects -/

/-- A call adds no version to a settled object. -/
theorem objects_apply_of_settled {openshift sccAvail : Bool} {r : Requests} {s : Store β}
    {k : Kind} (h : .object k ∈ steps openshift sccAvail →
      Settled (managed server d k) (s.objects k)) :
    (apply pki server d openshift sccAvail r s).1.objects k = s.objects k := by
  by_cases hk : .object k ∈ steps openshift sccAvail
  · rcases objects_apply pki server d openshift sccAvail r s k with hsame | hnew
    · exact hsame
    · exact hnew.trans (fst_of_settled (h hk) (r.object k))
  · exact FirstError.part_run_of_notMem (separate_runStep pki server d r) hk

/-- A call leaves the certificate alone on OpenShift, and where it reads a usable one. -/
theorem tls_apply_of_seesUsable {openshift sccAvail : Bool} {r : Requests} {s : Store β}
    (h : openshift = false → r.tls.SeesUsable pki s.tls) :
    (apply pki server d openshift sccAvail r s).1.tls = s.tls := by
  by_cases htls : .metricsTLS ∈ steps openshift sccAvail
  · rcases tls_apply pki server d openshift sccAvail r s with hsame | hnew
    · exact hsame
    · have hsees := h (metricsTLS_mem_steps.mp htls)
      exact hnew.trans (congrArg Prod.fst (ensureMetricsTLS_of_seesUsable hsees))
  · exact FirstError.part_run_of_notMem (separate_runStep pki server d r) htls

/-- What each step of a call that returned nil did. -/
theorem act_of_apply {openshift sccAvail : Bool} {r : Requests} {s s' : Store β}
    (hnil : apply pki server d openshift sccAvail r s = (s', none)) {step : Step}
    (hstep : step ∈ steps openshift sccAvail) :
    act pki server d r step (s.part step) = (s'.part step, none) := by
  rcases FirstError.run_cases (separate_runStep pki server d r) (steps_nodup openshift sccAvail) s
    with ⟨-, hall⟩ | ⟨done, step', rest, e, -, herr, -⟩
  · have hdone := hall step hstep
    rwa [← apply, hnil] at hdone
  · rw [← apply, hnil] at herr
    cases herr

/-- What a call that returned nil and read current versions applied is settled. -/
theorem settled_of_apply {openshift sccAvail : Bool} {r : Requests} {s s' : Store β} {k : Kind}
    (hcurrent : ∀ k, (r.object k).behind = 0)
    (hnil : apply pki server d openshift sccAvail r s = (s', none))
    (hk : .object k ∈ steps openshift sccAvail) :
    Settled (managed server d k) (s'.objects k) :=
  settled_of_act (hcurrent k) (act_of_apply hnil hk)

/-- **No writes at rest.** After a call that returned nil and read current versions, every object
is settled; and any further calls for the same network, whatever they read and whatever fails,
leave all versions of these objects as they are. On OpenShift, and as long as each of them reads a
usable certificate, they write nothing at all. -/
theorem apply_settles (pki : MetricsTLS.Pki β) (server : Server) (d : Desired)
    (openshift sccAvail : Bool) (r : Requests) (s s' : Store β)
    (hcurrent : ∀ k, (r.object k).behind = 0)
    (hnil : apply pki server d openshift sccAvail r s = (s', none)) :
    (∀ k, .object k ∈ steps openshift sccAvail →
        Settled (managed server d k) (s'.objects k)) ∧
      ∀ rs, (applyAll pki server d openshift sccAvail s' rs).objects = s'.objects ∧
        ((openshift = false → ∀ r' ∈ rs, r'.tls.SeesUsable pki s'.tls) →
          applyAll pki server d openshift sccAvail s' rs = s') := by
  have hsettled := fun k => settled_of_apply (k := k) hcurrent hnil
  have hobjects : ∀ (r' : Requests) (t : Store β), t.objects = s'.objects →
      (apply pki server d openshift sccAvail r' t).1.objects = s'.objects := by
    intro r' t ht
    funext k
    rw [objects_apply_of_settled fun hk => ht ▸ hsettled k hk, ht]
  refine ⟨hsettled, fun rs => ⟨?_, fun hsees => ?_⟩⟩
  · -- by induction on the calls; each one starts from objects that are settled
    suffices h : ∀ t : Store β, t.objects = s'.objects →
        (applyAll pki server d openshift sccAvail t rs).objects = s'.objects from h s' rfl
    induction rs with
    | nil => exact fun t ht => ht
    | cons r' rs ih => exact fun t ht => ih _ (hobjects r' t ht)
  · induction rs with
    | nil => rfl
    | cons r' rs ih =>
        have hsame : (apply pki server d openshift sccAvail r' s').1 = s' :=
          Store.ext (hobjects r' s' rfl)
            (tls_apply_of_seesUsable fun ho => hsees ho r' List.mem_cons_self)
        rw [applyAll, List.foldl_cons, hsame]
        exact ih fun ho r'' hr'' => hsees ho r'' (List.mem_cons_of_mem r' hr'')

/-- The first call creates the objects, and later ones that read the certificate leave everything
as it is. -/
theorem apply_settles_of_first_call :
    (sampleApply "u1".toList .empty).2 = none ∧
      applyAll MetricsTLS.samplePki (.defaulting id) (sampleDesired "u1".toList) false false
        (sampleApply "u1".toList .empty).1 [quiet, quiet] = (sampleApply "u1".toList .empty).1 := by
  have hnil : (sampleApply "u1".toList .empty).2 = none := by decide +kernel
  have husable : quiet.tls.SeesUsable MetricsTLS.samplePki
      (sampleApply "u1".toList .empty).1.tls := seesUsable_iff.mpr (by decide +kernel)
  refine ⟨hnil, ((apply_settles MetricsTLS.samplePki (.defaulting id) (sampleDesired "u1".toList)
    false false quiet .empty _ (fun _ => rfl) (Prod.ext rfl hnil)).2 [quiet, quiet]).2
      fun _ r' hr' => ?_⟩
  obtain rfl : r' = quiet := by simpa using hr'
  exact husable

/-- **What an error tells.** A call that failed and read current versions names the step that
failed; the objects before it are settled, and those after it are as before. The certificate is as
its error, or no error, tells, and as before if the call did not get that far. -/
theorem apply_of_error (pki : MetricsTLS.Pki β) (server : Server) (d : Desired)
    (openshift sccAvail : Bool) (r : Requests) (s s' : Store β) (e : ApplyError)
    (hcurrent : r.Current)
    (herror : apply pki server d openshift sccAvail r s = (s', some e)) :
    ∃ done rest, steps openshift sccAvail = done ++ e.step :: rest ∧
      (∀ k, .object k ∈ done → Settled (managed server d k) (s'.objects k)) ∧
      (∀ k, .object k ∈ rest → s'.objects k = s.objects k) ∧
      (.metricsTLS ∈ done → TLSAfter pki d.uid r.tls s.tls s'.tls none) ∧
      (∀ cause, e = .metricsTLS cause → TLSAfter pki d.uid r.tls s.tls s'.tls (some cause)) ∧
      (.metricsTLS ∉ done → e.step ≠ .metricsTLS → s'.tls = s.tls) := by
  have hseparate := separate_runStep pki server d r
  rcases FirstError.run_cases hseparate (steps_nodup openshift sccAvail) s with
    ⟨hnil, -⟩ | ⟨done, step, rest, e', hsplit, herr, hfails, hdone, hrest⟩
  · rw [← apply, herror] at hnil
    cases hnil
  · rw [← apply, herror] at herr hfails hdone hrest
    obtain rfl := Option.some.inj herr
    obtain rfl := step_of_act hfails
    refine ⟨done, rest, hsplit, fun k hk => settled_of_act (hcurrent.object k) (hdone _ hk),
      fun k hk => hrest _ hk, fun htls => tlsAfter_of_act hcurrent (e := none) (hdone _ htls),
      ?_, fun hdone' hstep => ?_⟩
    · rintro cause rfl
      exact tlsAfter_of_act hcurrent (e := some cause) hfails
    · by_cases hmem : .metricsTLS ∈ rest
      · exact hrest _ hmem
      · have hnot : .metricsTLS ∉ steps openshift sccAvail := by
          rw [hsplit, List.mem_append, List.mem_cons]
          rintro (h | h | h)
          · exact hdone' h
          · exact hstep h.symm
          · exact hmem h
        have hsame := FirstError.part_run_of_notMem hseparate (s := s) hnot
        rwa [← apply, herror] at hsame

/-- A store in which a Deployment controls the account. -/
def takenStore : Store (Option MetricsTLS.Certificate × ℕ) :=
  Store.empty.set .serviceAccount
    [some ⟨∅, [⟨"apps".toList, "Deployment".toList, "web".toList, "u7".toList, true⟩], ()⟩]

/-- The namespace is applied, the account is refused, and the role is not created. -/
theorem apply_of_error_of_taken :
    ∃ s' e done rest, sampleApply "u1".toList takenStore = (s', some e) ∧
      e.step = .object .serviceAccount ∧ steps false false = done ++ e.step :: rest ∧
      (∀ k, .object k ∈ done → Settled
        (managed (.defaulting id) (sampleDesired "u1".toList) k) (s'.objects k)) ∧
      (∀ k, .object k ∈ rest → s'.objects k = takenStore.objects k) := by
  have herror : (sampleApply "u1".toList takenStore).2.map ApplyError.step =
      some (.object .serviceAccount) := by decide +kernel
  obtain ⟨e, he, hstep⟩ := Option.map_eq_some_iff.mp herror
  have happly : sampleApply "u1".toList takenStore =
      ((sampleApply "u1".toList takenStore).1, some e) := Prod.ext rfl he
  obtain ⟨done, rest, hsplit, hsettled, hrest, -⟩ := apply_of_error MetricsTLS.samplePki
    (.defaulting id) (sampleDesired "u1".toList) false false quiet takenStore _ e
    ⟨fun _ => rfl, rfl, rfl⟩ happly
  exact ⟨_, e, done, rest, happly, hstep, hsplit, hsettled, hrest⟩

/-! ### Objects of other controllers -/

/-- **What a call refuses.** A call to which the API gives no trouble fails exactly if something
that it is to apply, other than the namespace, is controlled by something else. -/
theorem apply_eq_none_iff (pki : MetricsTLS.Pki β) (server : Server) (d : Desired)
    (openshift sccAvail : Bool) (r : Requests) (s : Store β) (hr : r.Undisturbed pki) :
    (apply pki server d openshift sccAvail r s).2 = none ↔
      ∀ i, Applies pki openshift sccAvail r s i → i ≠ .object .ns →
        ¬ HasOtherController (networkRef d.uid) (s.owners i) := by
  have hobject : ∀ k, (createOrUpdate (managed server d k) (r.object k) (s.objects k)).2 = none ↔
      (k ≠ .ns → ¬ HasOtherController (networkRef d.uid) (s.owners (.object k))) := by
    intro k
    by_cases hk : k = .ns
    · subst hk
      refine iff_of_true ((eq_none_iff (hr.object .ns)).mpr ?_) fun h => absurd rfl h
      exact ⟨_, mutate_eq_ok_iff.mpr (.inl ⟨rfl, rfl⟩)⟩
    · rw [imp_iff_right hk]
      exact (owns_managed server d hk).eq_none_iff (hr.object k) (s.objects k)
  have htls := ensureMetricsTLS_eq_none_iff d.uid hr.tls s.tls
  rw [apply, FirstError.run_eq_none_iff (separate_runStep pki server d r)
    (steps_nodup openshift sccAvail)]
  constructor
  · intro hall i happlies hne
    cases i with
    | object k =>
        exact (hobject k).mp (Option.map_eq_none_iff.mp (hall (.object k) happlies))
          fun hk => hne (congrArg Item.object hk)
    | secret =>
        have hnone := hall .metricsTLS (metricsTLS_mem_steps.mpr happlies.1)
        exact (htls.mp (Option.map_eq_none_iff.mp hnone) happlies.2).1
    | configMap =>
        have hnone := hall .metricsTLS (metricsTLS_mem_steps.mpr happlies.1)
        exact (htls.mp (Option.map_eq_none_iff.mp hnone) happlies.2).2
  · intro hfree step hstep
    cases step with
    | object k =>
        refine Option.map_eq_none_iff.mpr ((hobject k).mpr fun hk => ?_)
        exact hfree (.object k) hstep fun h => hk (Item.object.inj h)
    | metricsTLS =>
        have hopenshift := metricsTLS_mem_steps.mp hstep
        refine Option.map_eq_none_iff.mpr (htls.mpr fun hnot => ⟨?_, ?_⟩)
        · exact hfree .secret ⟨hopenshift, hnot⟩ (by decide)
        · exact hfree .configMap ⟨hopenshift, hnot⟩ (by decide)

/-- A store without a certificate in which a Deployment controls the ConfigMap. -/
def takenConfigMap : Store (Option MetricsTLS.Certificate × ℕ) :=
  ⟨fun _ => [], ⟨[], [some ⟨[⟨"apps".toList, "Deployment".toList, "web".toList, "u7".toList,
    true⟩], (none, 0)⟩]⟩⟩

/-- The ConfigMap of a Deployment is not taken over. -/
theorem apply_ne_none_of_taken :
    HasOtherController (networkRef "u1".toList) (takenConfigMap.owners .configMap) ∧
      (sampleApply "u1".toList takenConfigMap).2 ≠ none := by
  have hother : HasOtherController (networkRef "u1".toList)
      (takenConfigMap.owners .configMap) := ⟨_, rfl, by decide +kernel⟩
  have hunusable : ¬ quiet.tls.SeesUsable MetricsTLS.samplePki takenConfigMap.tls := by
    rw [seesUsable_iff]
    decide +kernel
  refine ⟨hother, fun hnil => ?_⟩
  exact (apply_eq_none_iff MetricsTLS.samplePki (.defaulting id) (sampleDesired "u1".toList)
    false false quiet takenConfigMap ⟨fun _ => ⟨rfl, rfl, rfl⟩, rfl, rfl, rfl,
      ⟨rfl, rfl, rfl⟩, ⟨rfl, rfl, rfl⟩⟩).mp hnil .configMap ⟨rfl, hunusable⟩ (by decide) hother

/-! ### Owners over time -/

/-- What a call does to the namespace: nothing, or it adds a version with the owners it had. -/
theorem namespace_apply (pki : MetricsTLS.Pki β) (server : Server) (d : Desired)
    (openshift sccAvail : Bool) (r : Requests) (s : Store β) :
    (apply pki server d openshift sccAvail r s).1.objects .ns = s.objects .ns ∨
      ∃ o, (apply pki server d openshift sccAvail r s).1.objects .ns = some o :: s.objects .ns ∧
        o.ownerReferences = s.owners (.object .ns) := by
  rcases objects_apply pki server d openshift sccAvail r s .ns with hsame | hnew
  · exact .inl hsame
  · rw [hnew]
    exact createOrUpdate_namespace_cases server d (r.object .ns) (s.objects .ns)

/-- What a call does to everything else: nothing, or it adds a version that the network
controls. -/
theorem addsOwned_apply (pki : MetricsTLS.Pki β) (server : Server) (d : Desired)
    (openshift sccAvail : Bool) (r : Requests) (s : Store β) {i : Item} (hi : i ≠ .object .ns) :
    AddsOwned d.uid (owners i) (s.versions i)
      ((apply pki server d openshift sccAvail r s).1.versions i) := by
  have htls := tls_apply pki server d openshift sccAvail r s
  cases i with
  | object k =>
      have hk : k ≠ .ns := fun h => hi (congrArg Item.object h)
      rcases objects_apply pki server d openshift sccAvail r s k with hsame | hnew
      · exact .inl hsame
      · simp only [Store.versions, hnew]
        exact (owns_managed server d hk).addsOwned (r.object k) (s.objects k)
  | secret =>
      rcases htls with hsame | hnew
      · exact .inl (congrArg TLSObjects.secret hsame)
      · simp only [Store.versions, hnew]
        exact addsOwned_secret pki d.uid r.tls s.tls
  | configMap =>
      rcases htls with hsame | hnew
      · exact .inl (congrArg TLSObjects.configMap hsame)
      · simp only [Store.versions, hnew]
        exact addsOwned_configMap pki d.uid r.tls s.tls

/-- **Owners.** Whatever a call meets and returns, it leaves the versions of what it applies as
they are, or adds one. The namespace then has the owners it had, and none if it is new. Anything
else, the Secret and the ConfigMap of the certificate included, had no other controller; it is
controlled by the network, and keeps its other owners. -/
theorem apply_ownership (pki : MetricsTLS.Pki β) (server : Server) (d : Desired)
    (openshift sccAvail : Bool) (r : Requests) (s : Store β) (i : Item) :
    (apply pki server d openshift sccAvail r s).1.versions i = s.versions i ∨
      ∃ o, (apply pki server d openshift sccAvail r s).1.versions i = some o :: s.versions i ∧
        (i = .object .ns → owners i o = s.owners i) ∧
        (i ≠ .object .ns → ¬ HasOtherController (networkRef d.uid) (s.owners i) ∧
          getControllerOf (owners i o) = some (networkRef d.uid) ∧
          ∀ ref ∈ s.owners i, sameObject ref (networkRef d.uid) = false → ref ∈ owners i o) := by
  by_cases hi : i = .object .ns
  · subst hi
    refine (namespace_apply pki server d openshift sccAvail r s).imp_right ?_
    rintro ⟨o, hadded, howners⟩
    exact ⟨o, hadded, fun _ => howners, fun h => absurd rfl h⟩
  · refine (addsOwned_apply pki server d openshift sccAvail r s hi).imp_right ?_
    rintro ⟨o, hadded, hother, howners⟩
    refine ⟨o, hadded, fun h => absurd h hi, fun _ => ⟨hother, ?_, fun ref href hne => ?_⟩⟩
    · rw [howners]
      exact getControllerOf_upsertOwnerRef rfl hother
    · rw [howners]
      exact mem_upsertOwnerRef_of_mem hne href

/-! ### Deletion -/

/-- The objects, and the UID of the network, if there is one. -/
structure World (β : Type) where
  store : Store β
  network : Option Str

/-- Nothing exists. -/
def World.empty : World β :=
  ⟨.empty, none⟩

/-- What happens to the network and its objects. -/
inductive Event
  /-- a call for a network, which may be gone by now -/
  | apply (d : Desired) (openshift sccAvail : Bool) (r : Requests)
  /-- the network is created, with a UID -/
  | create (uid : Str)
  /-- the network is deleted, and the objects it owned are left -/
  | delete
  /-- something is collected, if none of its owners exists any more -/
  | collect (i : Item)

/-- An object is collected when it has owners and none of them exists. -/
def collectable (network : Option Str) (refs : List OwnerReference) : Bool :=
  refs ≠ [] && refs.all fun ref => network ≠ some ref.uid

/-- One step of the network and its objects, if it can be taken. -/
def step (pki : MetricsTLS.Pki β) (server : Server) (w : World β) : Event → Option (World β)
  | .apply d openshift sccAvail r =>
      some { w with store := (Apply.apply pki server d openshift sccAvail r w.store).1 }
  | .create uid => if w.network = none then some { w with network := some uid } else none
  | .delete => if w.network = none then none else some { w with network := none }
  | .collect i =>
      if (current (w.store.versions i)).any fun o => collectable w.network (owners i o) then
        some { w with store := w.store.setVersions i (none :: w.store.versions i) }
      else none

/-- The namespace has no owner, and everything else the network, now or before. -/
def Owned (s : Store β) : Prop :=
  ∀ i o, current (s.versions i) = some o →
    (i = .object .ns → owners i o = []) ∧
      (i ≠ .object .ns → ∃ uid, owners i o = [networkRef uid])

/-- A call keeps the owners. -/
theorem owned_apply (pki : MetricsTLS.Pki β) (server : Server) (d : Desired) {s : Store β}
    (h : Owned s) (openshift sccAvail : Bool) (r : Requests) :
    Owned (apply pki server d openshift sccAvail r s).1 := by
  intro i o ho
  by_cases hi : i = .object .ns
  · subst hi
    refine ⟨fun _ => ?_, fun hne => absurd rfl hne⟩
    rcases namespace_apply pki server d openshift sccAvail r s with hsame | ⟨o', hadded, howners⟩
    · exact (h (.object .ns) o (by rwa [← show _ = s.versions (.object .ns) from hsame])).1 rfl
    · rw [show (apply pki server d openshift sccAvail r s).1.versions (.object .ns) = _ from
        hadded] at ho
      obtain rfl := Option.some.inj ho
      refine howners.trans ?_
      rw [Store.owners, ownersOf]
      cases hcurrent : current (s.versions (.object .ns)) with
      | none => rfl
      | some old => exact (h (.object .ns) old hcurrent).1 rfl
  · refine ⟨fun hns => absurd hns hi, fun _ => ?_⟩
    rcases addsOwned_apply pki server d openshift sccAvail r s hi with
      hsame | ⟨o', hadded, -, howners⟩
    · rw [hsame] at ho
      exact (h i o ho).2 hi
    · rw [hadded] at ho
      obtain rfl := Option.some.inj ho
      refine ⟨d.uid, howners.trans ?_⟩
      rw [ownersOf]
      cases hcurrent : current (s.versions i) with
      | none => rfl
      | some old =>
          obtain ⟨uid, huid⟩ := (h i old hcurrent).2 hi
          rw [Option.map_some, Option.getD_some, huid]
          exact upsertOwnerRef_networkRef d.uid uid

/-- One step keeps the owners. -/
theorem owned_step (w : World β) (event : Event) (w' : World β) (h : Owned w.store)
    (hstep : step pki server w event = some w') : Owned w'.store := by
  cases event with
  | apply d openshift sccAvail r =>
      obtain rfl := Option.some.inj hstep
      exact owned_apply pki server d h openshift sccAvail r
  | create uid =>
      rw [step] at hstep
      split_ifs at hstep
      obtain rfl := Option.some.inj hstep
      exact h
  | delete =>
      rw [step] at hstep
      split_ifs at hstep
      obtain rfl := Option.some.inj hstep
      exact h
  | collect i =>
      rw [step] at hstep
      split_ifs at hstep
      obtain rfl := Option.some.inj hstep
      obtain ⟨hself, hothers⟩ := versions_setVersions w.store i (none :: w.store.versions i)
      intro j o ho
      by_cases hj : j = i
      · subst hj
        rw [hself] at ho
        cases ho
      · rw [hothers j hj] at ho
        exact h j o ho

/-- What the network owns is collected exactly if it is gone. -/
theorem collectable_networkRef (network : Option Str) (uid : Str) :
    collectable network [networkRef uid] = decide (network ≠ some uid) := by
  rw [collectable, List.all_cons, List.all_nil, Bool.and_true,
    decide_eq_true (List.cons_ne_nil _ _), Bool.true_and]
  rfl

/-- When an item is not collected. -/
theorem step_collect_eq_none {w : World β} {i : Item} :
    step pki server w (.collect i) = none ↔
      ∀ o, current (w.store.versions i) = some o →
        collectable w.network (owners i o) = false := by
  rw [step]
  cases current (w.store.versions i) with
  | none => simp
  | some o => cases hc : collectable w.network (owners i o) <;> simp [hc]

/-- What a call that returned nil and read current versions applied has the network among its
owners. -/
theorem owners_of_apply {openshift sccAvail : Bool} {r : Requests} {s s' : Store β}
    (hcurrent : r.Current) (hnil : apply pki server d openshift sccAvail r s = (s', none))
    {i : Item} (happlies : Applies pki openshift sccAvail r s i) (hi : i ≠ .object .ns) :
    ∃ o, current (s'.versions i) = some o ∧
      owners i o = upsertOwnerRef (networkRef d.uid) (owners i o) := by
  have hcertificate : openshift = false ∧ ¬ r.tls.SeesUsable pki s.tls →
      ∃ pair, Settled (managedData d.uid secretKey pair) s'.tls.secret ∧
        Settled (managedData d.uid configMapKey pair.caCrt) s'.tls.configMap := by
    rintro ⟨hopenshift, hnot⟩
    have hact := act_of_apply hnil (metricsTLS_mem_steps.mpr hopenshift)
    rcases tlsAfter_of_act hcurrent (e := none) hact with ⟨husable, -⟩ | ⟨pair, -, hsettled⟩
    · exact absurd husable hnot
    · exact ⟨pair, hsettled⟩
  cases i with
  | object k =>
      have hk : k ≠ .ns := fun h => hi (congrArg Item.object h)
      exact (owns_managed server d hk).own_of_settled
        (settled_of_apply hcurrent.object hnil happlies)
  | secret =>
      obtain ⟨pair, hsecret, -⟩ := hcertificate happlies
      exact (owns_managedData d.uid secretKey pair).own_of_settled hsecret
  | configMap =>
      obtain ⟨pair, -, hconfigMap⟩ := hcertificate happlies
      exact (owns_managedData d.uid configMapKey pair.caCrt).own_of_settled hconfigMap

/-- **What is collected.** In every run of calls, also of calls for networks that are gone, of
deletions, re-creations and collections: the namespace is never collected. When there is no
network and nothing is left to collect, nothing but the namespace exists. And what a successful
call on current reads applied for the network that exists is not collected; the certificate is
among it only if the call did not read a usable one. -/
theorem only_namespace_remains (pki : MetricsTLS.Pki β) (server : Server) (events : List Event)
    (w : World β) (hrun : Transition.run (step pki server) .empty events = some w) :
    step pki server w (.collect (.object .ns)) = none ∧
      (w.network = none → (∀ i, step pki server w (.collect i) = none) →
        ∀ i, i ≠ .object .ns → current (w.store.versions i) = none) ∧
      ∀ d openshift sccAvail r s', w.network = some d.uid → r.Current →
        Apply.apply pki server d openshift sccAvail r w.store = (s', none) →
        ∀ i, Applies pki openshift sccAvail r w.store i →
          step pki server { w with store := s' } (.collect i) = none := by
  have howned : Owned w.store :=
    Transition.run_preserves owned_step (fun i o ho => by cases i <;> cases ho) hrun
  refine ⟨step_collect_eq_none.mpr fun o ho => ?_, fun hnone hrest i hi => ?_, ?_⟩
  · rw [(howned (.object .ns) o ho).1 rfl]
    rfl
  · by_contra hsome
    obtain ⟨o, ho⟩ := Option.ne_none_iff_exists'.mp hsome
    obtain ⟨uid, huid⟩ := (howned i o ho).2 hi
    have hkept := step_collect_eq_none.mp (hrest i) o ho
    rw [huid, hnone, collectable_networkRef] at hkept
    cases hkept
  · intro d openshift sccAvail r s' hnetwork hcurrent hnil i happlies
    have howned' : Owned s' := by
      have happly := owned_apply pki server d howned openshift sccAvail r
      rwa [hnil] at happly
    refine step_collect_eq_none.mpr fun o ho => ?_
    by_cases hns : i = .object .ns
    · rw [(howned' i o ho).1 hns]
      rfl
    · obtain ⟨o', ho', howners⟩ := owners_of_apply hcurrent hnil happlies hns
      obtain rfl := Option.some.inj (ho'.symm.trans ho)
      obtain ⟨uid, huid⟩ := (howned' i o' ho').2 hns
      rw [howners, huid, upsertOwnerRef_networkRef, collectable_networkRef, hnetwork]
      exact decide_eq_false fun h => h rfl

/-- Everything that a call may apply. -/
def items : List Item :=
  [.object .ns, .object .serviceAccount, .object .clusterRole, .object .clusterRoleBinding,
    .object .daemonSet, .object .scc, .secret, .configMap]

/-- A network is created, applied and deleted, and what it owned is collected. -/
def sampleEvents : List Event :=
  [.create "u1".toList, .apply (sampleDesired "u1".toList) false false quiet, .delete,
    .collect (.object .serviceAccount), .collect (.object .clusterRole),
    .collect (.object .clusterRoleBinding), .collect (.object .daemonSet), .collect .secret,
    .collect .configMap]

/-- After this the DaemonSet and the Secret are gone. -/
theorem only_namespace_remains_of_sample :
    ∃ w, Transition.run (step MetricsTLS.samplePki (.defaulting id)) .empty sampleEvents = some w ∧
      (current (w.store.objects .ns)).isSome = true ∧
      step MetricsTLS.samplePki (.defaulting id) w (.collect (.object .ns)) = none ∧
      current (w.store.versions (.object .daemonSet)) = none ∧
      current (w.store.versions .secret) = none := by
  have hstate : (Transition.run (step MetricsTLS.samplePki (.defaulting id)) .empty
      sampleEvents).map (fun w => (w.network, (current (w.store.objects .ns)).isSome,
        items.all fun i => (step MetricsTLS.samplePki (.defaulting id) w (.collect i)).isNone)) =
      some (none, true, true) := by decide +kernel
  obtain ⟨w, hw, hstate⟩ := Option.map_eq_some_iff.mp hstate
  simp only [Prod.mk.injEq, List.all_eq_true, Option.isNone_iff_eq_none] at hstate
  obtain ⟨hnetwork, hns, hrest⟩ := hstate
  have hitems : ∀ i : Item, i ∈ items := by
    rintro (k | - | -)
    · cases k <;> decide
    · decide
    · decide
  obtain ⟨hkept, hgone, -⟩ := only_namespace_remains MetricsTLS.samplePki (.defaulting id)
    sampleEvents w hw
  have hnone := hgone hnetwork fun i => hrest i (hitems i)
  exact ⟨w, hw, hns, hkept, hnone (.object .daemonSet) (by decide), hnone .secret (by decide)⟩

end ScionOperator.Apply
