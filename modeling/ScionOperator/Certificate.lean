import ScionOperator.MetricsTLS
import ScionOperator.Owners

/-!
# The Objects of the Certificate

On clusters other than OpenShift a call of `apply` provides the certificate of the metrics, in a
Secret and a ConfigMap that the network controls (`ensureMetricsTLS`). Unlike the other objects
these two are written only if the certificate that is read first is not usable: a read that fails
makes a call write them again, and a usable certificate keeps the owner it has.

`MetricsTLS` has the same two objects by their data only. Here they have owners, are created and
updated like any other object, and may be deleted.

## Main results

* `ensureMetricsTLS_cases`: what providing the certificate does.
* `tlsAfter_ensureMetricsTLS`: what each error, and no error, tells about the two objects.
* `ensureMetricsTLS_eq_none_iff`: when it succeeds to which the API gives no trouble.
* `ensureMetricsTLS_refines`: **the objects with their owners refine those of `MetricsTLS`.**
-/

namespace ScionOperator.Apply

open Text Render CreateOrUpdate

/-! ### Objects with data -/

/-- The ConfigMap with the CA of the certificate. -/
def metricsCAConfigMap : Str :=
  "scion-node-agent-metrics-ca".toList

/-- The namespace and the name of the Secret with the certificate. -/
def secretKey : Str :=
  namespaceName ++ '/' :: metricsTLSSecret

/-- The namespace and the name of the ConfigMap. -/
def configMapKey : Str :=
  namespaceName ++ '/' :: metricsCAConfigMap

/-- An object of which the owners and the data matter: the Secret and the ConfigMap. -/
structure DataObject (α : Type) where
  ownerReferences : List OwnerReference
  data : α
  deriving DecidableEq

/-- What is changed of such an object: it gets its owner, and all of its data is replaced. -/
def mutateData {α : Type} (uid : Str) (key : Str) (data : α) (o : DataObject α) :
    Except Str (DataObject α) :=
  match setControllerReference key (networkRef uid) o.ownerReferences with
  | .error cause => .error cause
  | .ok refs => .ok ⟨refs, data⟩

/-- How a change that is possible looks. -/
theorem mutateData_eq_ok_iff {α : Type} {uid : Str} {key : Str} {data : α}
    {o o' : DataObject α} :
    mutateData uid key data o = .ok o' ↔
      ¬ HasOtherController (networkRef uid) o.ownerReferences ∧
        o' = ⟨upsertOwnerRef (networkRef uid) o.ownerReferences, data⟩ := by
  rw [mutateData]
  cases hset : setControllerReference key (networkRef uid) o.ownerReferences with
  | error cause => simp [hasOtherController_of_error hset]
  | ok refs =>
      obtain ⟨hother, rfl⟩ := setControllerReference_eq_ok_iff.mp hset
      simp [hother, eq_comm]

/-- Changing such an object again changes nothing. -/
theorem mutateData_mutateData {α : Type} {uid : Str} {key : Str} {data : α}
    (x y : DataObject α) (h : mutateData uid key data x = .ok y) :
    ∃ z, mutateData uid key data y = .ok z ∧ z = y := by
  obtain ⟨hother, rfl⟩ := mutateData_eq_ok_iff.mp h
  refine ⟨_, mutateData_eq_ok_iff.mpr ⟨?_, rfl⟩, ?_⟩
  · exact not_hasOtherController_upsertOwnerRef rfl hother
  · rw [upsertOwnerRef_upsertOwnerRef]

/-- Such an object as the library of kept objects sees it. The server stores what it is sent. -/
def managedData {α : Type} (uid : Str) (key : Str) (data : α) : Managed (DataObject α) Str where
  rendered := ⟨[], data⟩
  mutate := mutateData uid key data
  persist := id
  stable := mutateData_mutateData

/-- So do the Secret and the ConfigMap. -/
theorem owns_managedData {α : Type} (uid : Str) (key : Str) (data : α) :
    Owns uid (managedData uid key data) DataObject.ownerReferences where
  rendered := rfl
  exists_mutate x := by simp [managedData, mutateData_eq_ok_iff]
  mutate x y h := by
    obtain ⟨-, rfl⟩ := mutateData_eq_ok_iff.mp h
    rfl
  persist _ := rfl

/-! ### Providing the certificate -/

/-- The versions of the Secret and of the ConfigMap. -/
structure TLSObjects (β : Type) where
  secret : History (DataObject (MetricsTLS.KeyPair β))
  configMap : History (DataObject β)

/-- What providing the certificate meets. -/
structure TLSRequests where
  now : ℤ
  seed : ℕ
  /-- the first read of the Secret fails -/
  getFails : Bool
  /-- how many of the last versions of the Secret the cache lacks then -/
  behind : ℕ
  secret : Request Str
  configMap : Request Str

/-- Why the certificate is not provided: `generate metrics serving certificate`, `apply metrics
TLS secret` or `apply metrics CA configmap` with the cause. -/
inductive TLSError
  | generate
  | applySecret (cause : Failure Str)
  | applyConfigMap (cause : Failure Str)
  deriving DecidableEq

section Certificate

variable {β : Type}

/-- The Secret as it is read first. -/
def TLSRequests.read (r : TLSRequests) (o : TLSObjects β) :
    Option (DataObject (MetricsTLS.KeyPair β)) :=
  if r.getFails then none else seen o.secret r.behind

variable (pki : MetricsTLS.Pki β)

/-- The first read gets a certificate that is usable. -/
def TLSRequests.SeesUsable (r : TLSRequests) (o : TLSObjects β) : Prop :=
  ∃ x, r.read o = some x ∧ MetricsTLS.metricsCertUsable pki r.now x.data.tlsCrt = true

/-- The API gives the certificate no trouble, and one can be generated. -/
structure TLSRequests.Undisturbed (r : TLSRequests) : Prop where
  getFails : r.getFails = false
  behind : r.behind = 0
  generates : (pki.generate r.now r.seed).isSome = true
  secret : r.secret.Undisturbed
  configMap : r.configMap.Undisturbed

variable [DecidableEq β] (uid : Str)

/-- Create or update the Secret. If it was read first and is gone by now, it would be created
from what was read, with the version it had; the server refuses to create that. -/
def applySecret (r : TLSRequests) (o : TLSObjects β) (pair : MetricsTLS.KeyPair β) :
    History (DataObject (MetricsTLS.KeyPair β)) × Option (Failure Str) :=
  match r.secret.getError, r.read o, seen o.secret r.secret.behind with
  | none, some old, none =>
      match mutateData uid secretKey pair old with
      | .error cause => (o.secret, some (.mutate cause))
      | .ok _ => (o.secret, some .write)
  | _, _, _ => createOrUpdate (managedData uid secretKey pair) r.secret o.secret

/-- Create or update the ConfigMap with the CA. -/
def applyConfigMap (r : TLSRequests) (o : TLSObjects β) (ca : β) :
    History (DataObject β) × Option (Failure Str) :=
  createOrUpdate (managedData uid configMapKey ca) r.configMap o.configMap

/-- Provide the serving certificate of the metrics; the error that is returned, or nil. -/
def ensureMetricsTLS (r : TLSRequests) (o : TLSObjects β) : TLSObjects β × Option TLSError :=
  if (r.read o).any fun x => MetricsTLS.metricsCertUsable pki r.now x.data.tlsCrt then (o, none)
  else
    match pki.generate r.now r.seed with
    | none => (o, some .generate)
    | some pair =>
        match applySecret uid r o pair with
        | (secret, some cause) => ({ o with secret := secret }, some (.applySecret cause))
        | (secret, none) =>
            let result := applyConfigMap uid r o pair.caCrt
            (⟨secret, result.1⟩, result.2.map .applyConfigMap)

end Certificate

variable {β : Type} {pki : MetricsTLS.Pki β} {uid : Str}

/-- The test of a call. -/
theorem seesUsable_iff {r : TLSRequests} {o : TLSObjects β} :
    r.SeesUsable pki o ↔
      ((r.read o).any fun x => MetricsTLS.metricsCertUsable pki r.now x.data.tlsCrt) = true := by
  rw [TLSRequests.SeesUsable, Option.any_eq_true]

variable [DecidableEq β]

/-- The Secret is created or updated like any object, or it is refused and stays. -/
theorem applySecret_cases (uid : Str) (r : TLSRequests) (o : TLSObjects β)
    (pair : MetricsTLS.KeyPair β) :
    applySecret uid r o pair =
        createOrUpdate (managedData uid secretKey pair) r.secret o.secret ∨
      ((applySecret uid r o pair).1 = o.secret ∧ (applySecret uid r o pair).2 ≠ none ∧
        (r.read o).isSome = true ∧ seen o.secret r.secret.behind = none) := by
  rw [applySecret]
  split
  next old _ hread hseen =>
    refine .inr ?_
    rw [hread, hseen]
    cases mutateData uid secretKey pair old with
    | error cause => simp
    | ok new => simp
  next => exact .inl rfl

/-- A certificate that is seen to be usable is left as it is. -/
theorem ensureMetricsTLS_of_seesUsable {r : TLSRequests} {o : TLSObjects β}
    (h : r.SeesUsable pki o) : ensureMetricsTLS pki uid r o = (o, none) := by
  rw [ensureMetricsTLS, if_pos (seesUsable_iff.mp h)]

/-- **What providing the certificate does.** A usable one is left alone; or none is generated; or
one is, and the Secret is not applied; or it is, and the ConfigMap is next. -/
theorem ensureMetricsTLS_cases (pki : MetricsTLS.Pki β) (uid : Str) (r : TLSRequests)
    (o : TLSObjects β) :
    (r.SeesUsable pki o ∧ ensureMetricsTLS pki uid r o = (o, none)) ∨
      (¬ r.SeesUsable pki o ∧ pki.generate r.now r.seed = none ∧
        ensureMetricsTLS pki uid r o = (o, some .generate)) ∨
      ∃ pair, ¬ r.SeesUsable pki o ∧ pki.generate r.now r.seed = some pair ∧
        ((∃ cause, (applySecret uid r o pair).2 = some cause ∧ ensureMetricsTLS pki uid r o =
            ({ o with secret := (applySecret uid r o pair).1 }, some (.applySecret cause))) ∨
          ((applySecret uid r o pair).2 = none ∧ ensureMetricsTLS pki uid r o =
            (⟨(applySecret uid r o pair).1, (applyConfigMap uid r o pair.caCrt).1⟩,
              (applyConfigMap uid r o pair.caCrt).2.map .applyConfigMap))) := by
  by_cases husable : r.SeesUsable pki o
  · exact .inl ⟨husable, ensureMetricsTLS_of_seesUsable husable⟩
  · rw [ensureMetricsTLS, if_neg (mt seesUsable_iff.mpr husable)]
    cases hgenerate : pki.generate r.now r.seed with
    | none => exact .inr (.inl ⟨husable, rfl, rfl⟩)
    | some pair =>
        refine .inr (.inr ⟨pair, husable, rfl, ?_⟩)
        dsimp only
        rcases applySecret uid r o pair with ⟨secret, _ | cause⟩
        · exact .inr ⟨rfl, rfl⟩
        · exact .inl ⟨cause, rfl, rfl⟩

/-- What is left of the certificate after it was to be provided, on current reads. Without an
error a usable one was seen and left alone, or the Secret and the ConfigMap are settled with a
new one. An error of generating leaves both objects alone, and an error of the Secret leaves the
ConfigMap alone; before an error of the ConfigMap the Secret was settled. -/
def TLSAfter (pki : MetricsTLS.Pki β) (uid : Str) (r : TLSRequests) (o o' : TLSObjects β) :
    Option TLSError → Prop
  | none =>
      (r.SeesUsable pki o ∧ o' = o) ∨
        ∃ pair, pki.generate r.now r.seed = some pair ∧
          Settled (managedData uid secretKey pair) o'.secret ∧
          Settled (managedData uid configMapKey pair.caCrt) o'.configMap
  | some .generate => pki.generate r.now r.seed = none ∧ o' = o
  | some (.applySecret _) => o'.configMap = o.configMap
  | some (.applyConfigMap _) =>
      ∃ pair, pki.generate r.now r.seed = some pair ∧
        Settled (managedData uid secretKey pair) o'.secret

/-- A Secret that was applied on a current read is settled. -/
theorem settled_applySecret {r : TLSRequests} {o : TLSObjects β} {pair : MetricsTLS.KeyPair β}
    (hcurrent : r.secret.behind = 0) (hnone : (applySecret uid r o pair).2 = none) :
    Settled (managedData uid secretKey pair) (applySecret uid r o pair).1 := by
  rcases applySecret_cases uid r o pair with happlied | ⟨-, herr, -⟩
  · rw [happlied] at hnone ⊢
    exact settled_of_eq_none hcurrent hnone
  · exact absurd hnone herr

/-- What is left of the certificate depends on the error as described. -/
theorem tlsAfter_ensureMetricsTLS (pki : MetricsTLS.Pki β) (uid : Str) {r : TLSRequests}
    (o : TLSObjects β) (hsecret : r.secret.behind = 0) (hconfigMap : r.configMap.behind = 0) :
    TLSAfter pki uid r o (ensureMetricsTLS pki uid r o).1 (ensureMetricsTLS pki uid r o).2 := by
  rcases ensureMetricsTLS_cases pki uid r o with ⟨husable, heq⟩ | ⟨-, hnone, heq⟩ |
    ⟨pair, -, hgenerate, ⟨cause, -, heq⟩ | ⟨happlied, heq⟩⟩
  · rw [heq]
    exact .inl ⟨husable, rfl⟩
  · rw [heq]
    exact ⟨hnone, rfl⟩
  · rw [heq]
    rfl
  · rw [heq]
    have hsettled := settled_applySecret hsecret happlied
    cases hcause : (applyConfigMap uid r o pair.caCrt).2 with
    | none => exact .inr ⟨pair, hgenerate, hsettled, settled_of_eq_none hconfigMap hcause⟩
    | some cause => exact ⟨pair, hgenerate, hsettled⟩

/-- What becomes of the Secret: nothing, or it gets a version that the network controls. -/
theorem addsOwned_secret (pki : MetricsTLS.Pki β) (uid : Str) (r : TLSRequests)
    (o : TLSObjects β) :
    AddsOwned uid DataObject.ownerReferences o.secret (ensureMetricsTLS pki uid r o).1.secret := by
  have happly : ∀ pair, AddsOwned uid DataObject.ownerReferences o.secret
      (applySecret uid r o pair).1 := by
    intro pair
    rcases applySecret_cases uid r o pair with happlied | ⟨hsame, -⟩
    · rw [happlied]
      exact (owns_managedData uid secretKey pair).addsOwned r.secret o.secret
    · exact .inl hsame
  rcases ensureMetricsTLS_cases pki uid r o with ⟨-, heq⟩ | ⟨-, -, heq⟩ |
    ⟨pair, -, -, ⟨cause, -, heq⟩ | ⟨-, heq⟩⟩
  · rw [heq]
    exact .inl rfl
  · rw [heq]
    exact .inl rfl
  · rw [heq]
    exact happly pair
  · rw [heq]
    exact happly pair

/-- What becomes of the ConfigMap: nothing, or it gets a version that the network controls. -/
theorem addsOwned_configMap (pki : MetricsTLS.Pki β) (uid : Str) (r : TLSRequests)
    (o : TLSObjects β) :
    AddsOwned uid DataObject.ownerReferences o.configMap
      (ensureMetricsTLS pki uid r o).1.configMap := by
  rcases ensureMetricsTLS_cases pki uid r o with ⟨-, heq⟩ | ⟨-, -, heq⟩ |
    ⟨pair, -, -, ⟨cause, -, heq⟩ | ⟨-, heq⟩⟩
  · rw [heq]
    exact .inl rfl
  · rw [heq]
    exact .inl rfl
  · rw [heq]
    exact .inl rfl
  · rw [heq]
    exact (owns_managedData uid configMapKey pair.caCrt).addsOwned r.configMap o.configMap

/-- Without trouble the Secret is applied like any object. -/
theorem applySecret_of_undisturbed {r : TLSRequests} (hr : r.Undisturbed pki) (o : TLSObjects β)
    (pair : MetricsTLS.KeyPair β) :
    applySecret uid r o pair =
      createOrUpdate (managedData uid secretKey pair) r.secret o.secret := by
  rcases applySecret_cases uid r o pair with happlied | ⟨-, -, hread, hseen⟩
  · exact happlied
  · -- both reads get the same version
    rw [TLSRequests.read, hr.getFails, if_neg Bool.false_ne_true, hr.behind,
      ← hr.secret.behind, hseen] at hread
    cases hread

/-- When the certificate is provided to which the API gives no trouble: a usable one is read, or
neither object has another controller. -/
theorem ensureMetricsTLS_eq_none_iff (uid : Str) {r : TLSRequests} (hr : r.Undisturbed pki)
    (o : TLSObjects β) :
    (ensureMetricsTLS pki uid r o).2 = none ↔ (¬ r.SeesUsable pki o →
      ¬ HasOtherController (networkRef uid) (ownersOf DataObject.ownerReferences o.secret) ∧
      ¬ HasOtherController (networkRef uid) (ownersOf DataObject.ownerReferences o.configMap)) := by
  have hsecret : ∀ pair, (applySecret uid r o pair).2 = none ↔
      ¬ HasOtherController (networkRef uid) (ownersOf DataObject.ownerReferences o.secret) := by
    intro pair
    rw [applySecret_of_undisturbed hr]
    exact (owns_managedData uid secretKey pair).eq_none_iff hr.secret o.secret
  have hconfigMap : ∀ ca, (applyConfigMap uid r o ca).2 = none ↔
      ¬ HasOtherController (networkRef uid) (ownersOf DataObject.ownerReferences o.configMap) :=
    fun ca => (owns_managedData uid configMapKey ca).eq_none_iff hr.configMap o.configMap
  rcases ensureMetricsTLS_cases pki uid r o with ⟨husable, heq⟩ | ⟨-, hnone, -⟩ |
    ⟨pair, hnot, -, ⟨cause, hcause, heq⟩ | ⟨happlied, heq⟩⟩
  · rw [heq]
    exact iff_of_true rfl fun hnot => absurd husable hnot
  · have hgenerates := hr.generates
    rw [hnone] at hgenerates
    cases hgenerates
  · rw [heq, imp_iff_right hnot, ← hsecret pair, hcause]
    exact iff_of_false nofun fun h => nomatch h.1
  · rw [heq, imp_iff_right hnot, ← hconfigMap pair.caCrt, Option.map_eq_none_iff,
      and_iff_right ((hsecret pair).mp happlied)]

/-! ### The certificate without its owners -/

section Refinement

variable {α : Type} {key : Str} {new : α} {data : List α} {versions : History (DataObject α)}

/-- Versions of an object that was never deleted, by their data. -/
def Shows (versions : History (DataObject α)) (data : List α) : Prop :=
  versions.map (Option.map DataObject.data) = data.map some

/-- What is seen of such an object is the data of the version. -/
theorem Shows.seen {versions : History (DataObject α)} {data : List α} (h : Shows versions data)
    (behind : ℕ) : (seen versions behind).map DataObject.data = (data.drop behind).head? := by
  have hdrop : (versions.drop behind).map (Option.map DataObject.data) =
      (data.drop behind).map some := by rw [List.map_drop, h, ← List.map_drop]
  rw [CreateOrUpdate.seen, current]
  generalize versions.drop behind = versions' at hdrop ⊢
  generalize data.drop behind = data' at hdrop ⊢
  cases versions' with
  | nil =>
      cases data' with
      | nil => rfl
      | cons a data' => cases hdrop
  | cons v versions' =>
      cases data' with
      | nil => cases hdrop
      | cons a data' => exact (List.cons.inj hdrop).1

/-- A version whose data is new is none of the versions. -/
theorem Shows.ne_of_seen (h : Shows versions data) (hnew : new ∉ data) {behind : ℕ}
    {old : DataObject α} (hold : CreateOrUpdate.seen versions behind = some old)
    (refs : List OwnerReference) : (⟨refs, new⟩ : DataObject α) ≠ old := by
  rintro rfl
  have hhead := h.seen behind
  rw [hold, Option.map_some] at hhead
  exact hnew (List.mem_of_mem_drop (List.mem_of_mem_head? hhead.symm))

/-- All versions are there to be read exactly if the cache lacks none, or there is none. -/
theorem Shows.length_drop_iff (h : Shows versions data) (behind : ℕ) :
    (data.drop behind).length = data.length ↔ behind = 0 ∨ current versions = none := by
  have hhead := h.seen 0
  rw [CreateOrUpdate.seen, List.drop_zero, List.drop_zero] at hhead
  rw [← Option.map_eq_none_iff (f := DataObject.data), hhead, List.head?_eq_none_iff,
    ← List.length_eq_zero_iff, List.length_drop]
  omega

/-- Then it is the current version that is read. -/
theorem Shows.seen_eq_current (h : Shows versions data) {behind : ℕ}
    (hbehind : behind = 0 ∨ current versions = none) :
    CreateOrUpdate.seen versions behind = current versions := by
  rcases hbehind with rfl | hnone
  · rw [CreateOrUpdate.seen, List.drop_zero]
  · have hlength := (h.length_drop_iff behind).mpr (.inr hnone)
    have hseen := h.seen behind
    cases data with
    | nil =>
        rw [List.drop_nil, List.head?_nil, Option.map_eq_none_iff] at hseen
        rw [hseen, hnone]
    | cons a data =>
        obtain rfl : behind = 0 := by
          rw [List.length_drop, List.length_cons] at hlength
          omega
        rw [CreateOrUpdate.seen, List.drop_zero]

/-- How a write ends, as `MetricsTLS` has it. -/
def writeOf : Fate → Status.Write
  | .done => .persisted
  | .unanswered => .unanswered
  | .failed => .failed

/-- What applying such an object meets, as `MetricsTLS` has it. -/
def abstractApply (uid : Str) (r : Request Str) (versions : History (DataObject α)) :
    MetricsTLS.Apply where
  behind := r.behind
  getFails := r.getError.isSome
  ownerFails := (getControllerOf (ownersOf DataObject.ownerReferences versions)).any
    fun other => !sameObject other (networkRef uid)
  write := writeOf r.fate

/-- The owner can be set unless there is another controller. -/
theorem ownerFails_eq_false_iff {uid : Str} {r : Request Str}
    {versions : History (DataObject α)} :
    (abstractApply uid r versions).ownerFails = false ↔
      ¬ HasOtherController (networkRef uid) (ownersOf DataObject.ownerReferences versions) := by
  rw [← Bool.not_eq_true, abstractApply, Option.any_eq_true, HasOtherController]
  simp only [Bool.not_eq_true']

variable [DecidableEq α]

/-- A call that reads the current version, of which no other object is the controller, sends the
new data. -/
theorem createOrUpdate_eq_submit (h : Shows versions data) (hnew : new ∉ data) {r : Request Str}
    (hget : r.getError = none) (hbehind : r.behind = 0 ∨ current versions = none)
    (howner : ¬ HasOtherController (networkRef uid)
      (ownersOf DataObject.ownerReferences versions)) :
    createOrUpdate (managedData uid key new) r versions =
      if r.fate = .failed then (versions, some .write)
      else (some ⟨upsertOwnerRef (networkRef uid)
          (ownersOf DataObject.ownerReferences versions), new⟩ :: versions,
        if r.fate = .done then none else some .write) := by
  have hseen := h.seen_eq_current hbehind
  generalize hrefs : upsertOwnerRef (networkRef uid)
    (ownersOf DataObject.ownerReferences versions) = refs
  have hmutate : (managedData uid key new).mutate
      ((current versions).getD (managedData uid key new).rendered) = .ok ⟨refs, new⟩ := by
    rw [← (owns_managedData uid key new).own_getD] at howner hrefs
    exact mutateData_eq_ok_iff.mpr ⟨howner, by rw [hrefs]⟩
  have hchanged : current versions ≠ some ⟨refs, new⟩ := by
    rw [← hseen]
    exact fun hold => h.ne_of_seen hnew hold refs rfl
  rw [createOrUpdate_of_seen hget hseen hbehind, hmutate]
  simp only [submit, managedData, id_eq, hchanged, if_false]

/-- A call that does not read the current version is refused, and so is one for an object that has
another controller. -/
theorem createOrUpdate_refused (uid : Str) (key : Str) (h : Shows versions data)
    (hnew : new ∉ data) {r : Request Str}
    (hrefused : r.getError ≠ none ∨ ¬ (r.behind = 0 ∨ current versions = none) ∨
      HasOtherController (networkRef uid) (ownersOf DataObject.ownerReferences versions)) :
    (createOrUpdate (managedData uid key new) r versions).1 = versions ∧
      (createOrUpdate (managedData uid key new) r versions).2 ≠ none := by
  have hrefused' : r.getError = none → r.behind = 0 ∨ current versions = none →
      HasOtherController (networkRef uid) (ownersOf DataObject.ownerReferences versions) :=
    fun hget hread => (hrefused.resolve_left (not_not.mpr hget)).resolve_left (not_not.mpr hread)
  rw [createOrUpdate]
  cases hget : r.getError with
  | some cause => simp
  | none =>
      dsimp only
      cases hseen : CreateOrUpdate.seen versions r.behind with
      | none =>
          dsimp only
          cases (managedData uid key new).mutate (managedData uid key new).rendered with
          | error cause => simp
          | ok new' =>
              cases hcurrent : current versions with
              | some x => simp
              | none =>
                  obtain ⟨other, hother, -⟩ := hrefused' hget (.inr hcurrent)
                  rw [ownersOf, hcurrent] at hother
                  cases hother
      | some old =>
          dsimp only
          cases hmutate : (managedData uid key new).mutate old with
          | error cause => simp
          | ok new' =>
              obtain ⟨hfree, rfl⟩ := mutateData_eq_ok_iff.mp hmutate
              have hbehind : r.behind ≠ 0 := by
                intro hzero
                rw [hzero, CreateOrUpdate.seen, List.drop_zero] at hseen
                have hother := hrefused' hget (.inl hzero)
                rw [ownersOf, hseen] at hother
                exact hfree hother
              simp [h.ne_of_seen hnew hseen, hbehind]

/-- Applying data that is new does to the versions what `MetricsTLS.applyObject` does to their
data. -/
theorem shows_createOrUpdate (uid : Str) (key : Str) (h : Shows versions data)
    (hnew : new ∉ data) (r : Request Str) :
    Shows (createOrUpdate (managedData uid key new) r versions).1
        (MetricsTLS.applyObject (abstractApply uid r versions) new data).1 ∧
      ((createOrUpdate (managedData uid key new) r versions).2 = none ↔
        (MetricsTLS.applyObject (abstractApply uid r versions) new data).2 = true) := by
  have hpersists : (abstractApply uid r versions).persists data = true ↔
      ((r.getError = none ∧ ¬ HasOtherController (networkRef uid)
        (ownersOf DataObject.ownerReferences versions)) ∧
        (r.behind = 0 ∨ current versions = none)) ∧ r.fate ≠ .failed := by
    simp only [MetricsTLS.Apply.persists, Bool.and_eq_true, Bool.not_eq_true', decide_eq_true_eq,
      ownerFails_eq_false_iff, ← h.length_drop_iff r.behind]
    cases hfate : r.fate <;>
      simp [abstractApply, writeOf, hfate, Status.Write.isPersisted, Option.isSome_eq_false_iff]
  rw [MetricsTLS.applyObject]
  by_cases hall : (abstractApply uid r versions).persists data = true
  · obtain ⟨⟨⟨hget, howner⟩, hbehind⟩, hfate⟩ := hpersists.mp hall
    rw [createOrUpdate_eq_submit h hnew hget hbehind howner, if_neg hfate, if_pos hall]
    refine ⟨?_, ?_⟩
    · rw [Shows, List.map_cons, List.map_cons, h]
      rfl
    · cases hdone : r.fate <;> simp [abstractApply, writeOf, hdone]
  · rw [if_neg hall]
    by_cases hsent : r.getError = none ∧ (r.behind = 0 ∨ current versions = none) ∧
        ¬ HasOtherController (networkRef uid) (ownersOf DataObject.ownerReferences versions)
    · obtain ⟨hget, hbehind, howner⟩ := hsent
      have hfate : r.fate = .failed :=
        by_contra fun hne => hall (hpersists.mpr ⟨⟨⟨hget, howner⟩, hbehind⟩, hne⟩)
      rw [createOrUpdate_eq_submit h hnew hget hbehind howner, if_pos hfate]
      exact ⟨h, by simp⟩
    · obtain ⟨hsame, herr⟩ := createOrUpdate_refused uid key h hnew (r := r) (by tauto)
      rw [hsame]
      exact ⟨h, iff_of_false herr Bool.false_ne_true⟩

end Refinement

/-- What providing the certificate meets, as `MetricsTLS` has it. -/
def TLSRequests.abstract (uid : Str) (r : TLSRequests) (o : TLSObjects β) : MetricsTLS.Call where
  now := r.now
  seed := r.seed
  getFails := r.getFails
  behind := r.behind
  secret := abstractApply uid r.secret o.secret
  configMap := abstractApply uid r.configMap o.configMap

/-- Which step an error is about. -/
def TLSError.kind : TLSError → MetricsTLS.EnsureError
  | .generate => .generate
  | .applySecret _ => .applySecret
  | .applyConfigMap _ => .applyConfigMap

/-- The Secret is applied as `MetricsTLS` has it; a Secret that was read and is gone cannot be if
nothing was deleted. -/
theorem shows_applySecret (uid : Str) {r : TLSRequests} {o : TLSObjects β}
    {secrets : List (MetricsTLS.KeyPair β)} (h : Shows o.secret secrets)
    {pair : MetricsTLS.KeyPair β} (hnew : pair ∉ secrets) :
    Shows (applySecret uid r o pair).1
        (MetricsTLS.applyObject (abstractApply uid r.secret o.secret) pair secrets).1 ∧
      ((applySecret uid r o pair).2 = none ↔
        (MetricsTLS.applyObject (abstractApply uid r.secret o.secret) pair secrets).2 = true) := by
  rcases applySecret_cases uid r o pair with happlied | ⟨hsame, herr, hread, hseen⟩
  · rw [happlied]
    exact shows_createOrUpdate uid secretKey h hnew r.secret
  · -- it is there, so that a call that does not see it lacks versions
    have hthere : secrets ≠ [] := by
      rintro rfl
      obtain ⟨x, hx⟩ := Option.isSome_iff_exists.mp hread
      rw [TLSRequests.read, Option.ite_none_left_eq_some] at hx
      have hnone := h.seen r.behind
      rw [hx.2, List.drop_nil] at hnone
      cases hnone
    have hlacks : (secrets.drop r.secret.behind).length ≠ secrets.length := by
      have hnone := h.seen r.secret.behind
      rw [hseen, Option.map_none, eq_comm, List.head?_eq_none_iff] at hnone
      rw [hnone, List.length_nil]
      exact fun hlength => hthere (List.length_eq_zero_iff.mp hlength.symm)
    have hpersists : (abstractApply uid r.secret o.secret).persists secrets = false := by
      simp only [MetricsTLS.Apply.persists, abstractApply, hlacks, decide_false, Bool.and_false,
        Bool.false_and]
    rw [hsame, MetricsTLS.applyObject, hpersists, if_neg Bool.false_ne_true]
    exact ⟨h, iff_of_false herr Bool.false_ne_true⟩

omit [DecidableEq β] in
/-- The first read sees a usable certificate exactly if the one of `MetricsTLS` does. -/
theorem any_read_abstract (uid : Str) {r : TLSRequests} {o : TLSObjects β}
    {a : MetricsTLS.Objects β} (h : Shows o.secret a.secrets) (usable : β → Bool) :
    (((r.abstract uid o).read a).any fun pair => usable pair.tlsCrt) =
      (r.read o).any fun x => usable x.data.tlsCrt := by
  have hread : (r.abstract uid o).read a = (r.read o).map DataObject.data := by
    rw [TLSRequests.read, MetricsTLS.Call.read]
    cases hget : r.getFails <;> simp [TLSRequests.abstract, hget, ← h.seen]
  rw [hread]
  cases r.read o <;> rfl

/-- **The certificate with its owners refines the one without.** As long as nothing was deleted and
what is generated is new, providing the certificate does to the Secret and the ConfigMap what
`MetricsTLS.ensureMetricsTLS` does to their data, and returns the same. -/
theorem ensureMetricsTLS_refines {r : TLSRequests} {o : TLSObjects β} {a : MetricsTLS.Objects β}
    (hsecret : Shows o.secret a.secrets) (hconfigMap : Shows o.configMap a.configMaps)
    (hfresh : ∀ pair, pki.generate r.now r.seed = some pair →
      pair ∉ a.secrets ∧ pair.caCrt ∉ a.configMaps) :
    Shows (ensureMetricsTLS pki uid r o).1.secret
        (MetricsTLS.ensureMetricsTLS pki (r.abstract uid o) a).1.secrets ∧
      Shows (ensureMetricsTLS pki uid r o).1.configMap
        (MetricsTLS.ensureMetricsTLS pki (r.abstract uid o) a).1.configMaps ∧
      (ensureMetricsTLS pki uid r o).2.map TLSError.kind =
        (MetricsTLS.ensureMetricsTLS pki (r.abstract uid o) a).2 := by
  rw [MetricsTLS.ensureMetricsTLS, show (r.abstract uid o).now = r.now from rfl,
    show (r.abstract uid o).seed = r.seed from rfl, any_read_abstract uid hsecret]
  rcases ensureMetricsTLS_cases pki uid r o with ⟨husable, heq⟩ | ⟨hnot, hnone, heq⟩ |
    ⟨pair, hnot, hgenerate, hrest⟩
  · rw [heq, if_pos (seesUsable_iff.mp husable)]
    exact ⟨hsecret, hconfigMap, rfl⟩
  · rw [heq, if_neg (mt seesUsable_iff.mpr hnot), hnone]
    exact ⟨hsecret, hconfigMap, rfl⟩
  · rw [if_neg (mt seesUsable_iff.mpr hnot), hgenerate]
    obtain ⟨hnewSecret, hnewCA⟩ := hfresh pair hgenerate
    have happlied := shows_applySecret uid (r := r) hsecret hnewSecret
    have hpublished := shows_createOrUpdate uid configMapKey hconfigMap hnewCA r.configMap
    dsimp only [TLSRequests.abstract]
    rcases hrest with ⟨cause, hcause, heq⟩ | ⟨hnone, heq⟩
    · rw [heq]
      rcases happly : MetricsTLS.applyObject (abstractApply uid r.secret o.secret) pair
        a.secrets with ⟨secrets, _ | _⟩
      · rw [happly] at happlied
        exact ⟨happlied.1, hconfigMap, rfl⟩
      · rw [happly, hcause] at happlied
        cases happlied.2.mpr rfl
    · rw [heq]
      rcases happly : MetricsTLS.applyObject (abstractApply uid r.secret o.secret) pair
        a.secrets with ⟨secrets, _ | _⟩
      · rw [happly] at happlied
        cases happlied.2.mp hnone
      · rw [happly] at happlied
        rcases hpublish : MetricsTLS.applyObject (abstractApply uid r.configMap o.configMap)
          pair.caCrt a.configMaps with ⟨configMaps, _ | _⟩
        · rw [hpublish] at hpublished
          refine ⟨happlied.1, hpublished.1, ?_⟩
          cases hcause : (applyConfigMap uid r o pair.caCrt).2 with
          | none => cases hpublished.2.mp hcause
          | some cause => rfl
        · rw [hpublish] at hpublished
          refine ⟨happlied.1, hpublished.1, ?_⟩
          rw [show (applyConfigMap uid r o pair.caCrt).2 = none from hpublished.2.mpr rfl]
          rfl

end ScionOperator.Apply
