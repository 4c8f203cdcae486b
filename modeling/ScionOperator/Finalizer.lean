import ScionOperator.Agreement

/-!
# Registration over the Life of a ScionNetwork

The operator's reconcile loop as far as it concerns registration: it adds its finalizer to
the object, pushes the gateways of the selected nodes to the backend of the spec, and on
deletion pushes the empty set before it removes the finalizer. Between the reconciles the
spec, the nodes and the secrets change; a reconcile may work on an old version of the
object, and any of its calls may fail. A PUT that failed may still be applied later, in
order.

Both directions look only at the backend in the spec they read. An edit that points the
spec elsewhere leaves the gateways at the endpoint it leaves (`leaked_after_edit`). If edits
leave only endpoints that hold no gateways, and reconciles read the current target, nothing
is left behind (`deregistered_of_keepsTarget`).

## Main results

* `reconcile_within`: a reconcile touches only the endpoint of the spec it read.
* `deregistered_of_keepsTarget`: **no leaked registration.**
-/

namespace ScionOperator.Controller

open Text GoMap Registrar

/-! ### Backends -/

/-- The registrar backends. -/
inductive Backend
  | manual
  | http (endpoint token caBundle : Str)
  | anapaya
  deriving DecidableEq

/-- Why no backend could be built. -/
inductive BackendError
  | readSecret
  | noToken
  | unknownBackend
  deriving DecidableEq

/-- The `http` backend: the token is read from the secret the spec refers to; without a
reference an empty token is sent. -/
def httpBackend (readFails : Bool) (secrets : GoMap (GoMap Str)) (spec : RegistrarSpec) :
    Except BackendError Backend :=
  match spec.credentialsSecretRef with
  | none => .ok (.http spec.endpoint [] [])
  | some ref =>
      match secrets[ref]?.filter fun _ => !readFails with
      | none => .error .readSecret
      | some data =>
          match data["token".toList]? with
          | none => .error .noToken
          | some token => .ok (.http spec.endpoint token (data["ca.crt".toList]?.getD []))

/-- Select the backend of a spec. -/
def backendFor (readFails : Bool) (secrets : GoMap (GoMap Str)) (spec : RegistrarSpec) :
    Except BackendError Backend :=
  if spec.backend = [] ∨ spec.backend = "manual".toList then .ok .manual
  else if spec.backend = "http".toList then httpBackend readFails secrets spec
  else if spec.backend = "anapaya".toList then .ok .anapaya
  else .error .unknownBackend

/-- The endpoint a spec registers at, if it registers at all. -/
def target (spec : RegistrarSpec) : Option Str :=
  if spec.backend = "http".toList then some spec.endpoint else none

/-- A registrar endpoint on the AS side: the managed set, and the PUTs that failed for the
operator but may still be applied, in order. -/
structure Endpoint where
  managed : GoMap SIG
  inFlight : List (GoMap SIG)

/-- Nothing is registered at the endpoint, now or by a PUT still in flight. -/
def Endpoint.isClean (e : Endpoint) : Bool :=
  e.managed.isEmpty && e.inFlight.all fun m => m.isEmpty

/-- How a PUT ends: it is answered 204; it fails and is never applied; or it fails for the
operator but may still be applied. -/
inductive PutOutcome
  | ok
  | lost
  | inFlight
  deriving DecidableEq

/-- What `Ensure` returns. -/
inductive EnsureResult
  | nil
  | notImplemented
  | failed
  deriving DecidableEq

/-- Push a set to a backend. A PUT that is answered was applied after all earlier ones. -/
def ensure (b : Backend) (set : GoMap SIG) (put : PutOutcome) (endpoints : Str → Endpoint) :
    EnsureResult × (Str → Endpoint) :=
  match b, put with
  | .manual, _ => (.nil, endpoints)
  | .anapaya, _ => (.notImplemented, endpoints)
  | .http e _ _, .ok => (.nil, Function.update endpoints e ⟨set, []⟩)
  | .http _ _ _, .lost => (.failed, endpoints)
  | .http e _ _, .inFlight =>
      (.failed, Function.update endpoints e
        ⟨(endpoints e).managed, (endpoints e).inFlight ++ [set]⟩)

/-! ### The world -/

/-- A version of the object, as far as it is read here. -/
structure ScionNetwork where
  spec : Spec
  deleting : Bool
  finalizer : Bool

/-- Why a finalizer was removed. -/
inductive Release
  | deregistered
  | backendUnavailable
  | notImplemented
  | pastDeadline
  deriving DecidableEq

/-- What a reconcile ended with. -/
inductive Outcome
  | failed
  | synced
  | syncFailed
  | nothingToFinalize
  | released (how : Release)
  deriving DecidableEq

/-- The object, what the operator reads besides it, and the AS side. -/
structure World where
  /-- the versions of the object, the current one first -/
  versions : List ScionNetwork
  secrets : GoMap (GoMap Str)
  nodes : List Node
  endpoints : Str → Endpoint
  /-- the endpoints to which a non-empty set was PUT successfully -/
  everPut : List Str
  /-- what the last step ended with, if it was a reconcile -/
  last : Option Outcome

/-- The endpoint the current version registers at. -/
def World.target (w : World) : Option Str :=
  w.versions.head?.bind fun sn => Controller.target sn.spec.registrar

/-- The calls of a reconcile that fail. Applying stands for everything between the finalizer
and the registration: reading the cluster's networks, checking the node addresses and
applying the objects. -/
structure Failures where
  get : Bool
  update : Bool
  apply : Bool
  listNodes : Bool
  readSecret : Bool
  put : PutOutcome
  /-- the deletion was requested longer ago than the deadline -/
  pastDeadline : Bool

/-- Write a new version of the object; the API server refuses it unless the version that was
read is the current one. -/
def updateObject (w : World) (i : ℕ) (f : Failures) (sn : ScionNetwork) : Option World :=
  if i = 0 ∧ f.update = false then some { w with versions := sn :: w.versions } else none

/-! ### Reconciling -/

/-- Push the gateways of the selected nodes. -/
def syncRegistrar (w : World) (sn : ScionNetwork) (f : Failures) : World × Outcome :=
  if f.listNodes then (w, .syncFailed)
  else
    let set := ensureSet (nodesToSIGs w.nodes sn.spec.nodeSelector).1
    match backendFor f.readSecret w.secrets sn.spec.registrar with
    | .error _ => (w, .syncFailed)
    | .ok b =>
        match ensure b set f.put w.endpoints with
        | (.nil, endpoints) =>
            let put := match b with
              | .http e _ _ => if set.isEmpty then [] else [e]
              | _ => []
            ({ w with endpoints := endpoints, everPut := put ++ w.everPut }, .synced)
        | (_, endpoints) => ({ w with endpoints := endpoints }, .syncFailed)

/-- Remove the finalizer. -/
def release (w : World) (i : ℕ) (sn : ScionNetwork) (f : Failures) (how : Release) :
    World × Outcome :=
  match updateObject w i f { sn with finalizer := false } with
  | some w' => (w', .released how)
  | none => (w, .failed)

/-- Push the empty set and remove the finalizer. The finalizer is removed without that if
there is no backend, if it is a stub, or past the deadline. -/
def finalize (w : World) (i : ℕ) (sn : ScionNetwork) (f : Failures) : World × Outcome :=
  if sn.finalizer = false then (w, .nothingToFinalize)
  else
    match backendFor f.readSecret w.secrets sn.spec.registrar with
    | .error _ => release w i sn f .backendUnavailable
    | .ok b =>
        match ensure b ∅ f.put w.endpoints with
        | (.nil, endpoints) => release { w with endpoints := endpoints } i sn f .deregistered
        | (.notImplemented, endpoints) =>
            release { w with endpoints := endpoints } i sn f .notImplemented
        | (.failed, endpoints) =>
            if f.pastDeadline then release { w with endpoints := endpoints } i sn f .pastDeadline
            else ({ w with endpoints := endpoints }, .failed)

/-- One reconcile, working on the version `sn` it read. -/
def reconcile (w : World) (i : ℕ) (sn : ScionNetwork) (f : Failures) : World × Outcome :=
  if f.get then (w, .failed)
  else if sn.deleting then finalize w i sn f
  else
    match if sn.finalizer then some w else updateObject w i f { sn with finalizer := true } with
    | none => (w, .failed)
    | some w' => if f.apply then (w', .failed) else syncRegistrar w' sn f

/-! ### Steps -/

/-- What can happen. -/
inductive Event
  /-- the spec is edited -/
  | edit (spec : Spec)
  /-- deletion is requested -/
  | delete
  /-- secrets change -/
  | setSecrets (secrets : GoMap (GoMap Str))
  /-- nodes change -/
  | setNodes (nodes : List Node)
  /-- the operator reconciles the `i`-th last version of the object -/
  | reconcile (i : ℕ) (f : Failures)
  /-- the oldest PUT in flight to an endpoint is applied -/
  | deliver (endpoint : Str)
  /-- the oldest PUT in flight to an endpoint is lost -/
  | lose (endpoint : Str)

/-- One step of the world. -/
def step (w : World) : Event → Option World
  | .edit spec => w.versions.head?.map fun sn =>
      { w with versions := { sn with spec := spec } :: w.versions, last := none }
  | .delete => w.versions.head?.map fun sn =>
      { w with versions := { sn with deleting := true } :: w.versions, last := none }
  | .setSecrets secrets => some { w with secrets := secrets, last := none }
  | .setNodes nodes => some { w with nodes := nodes, last := none }
  | .reconcile i f => w.versions[i]?.map fun sn =>
      let r := reconcile w i sn f
      { r.1 with last := some r.2 }
  | .deliver e =>
      match (w.endpoints e).inFlight with
      | [] => none
      | set :: rest => some
          { w with endpoints := Function.update w.endpoints e ⟨set, rest⟩, last := none }
  | .lose e =>
      match (w.endpoints e).inFlight with
      | [] => none
      | _ :: rest => some
          { w with
            endpoints := Function.update w.endpoints e ⟨(w.endpoints e).managed, rest⟩
            last := none }

/-- An object that was just created. -/
def World.initial (spec : Spec) (secrets : GoMap (GoMap Str)) (nodes : List Node)
    (endpoints : Str → Endpoint) : World :=
  ⟨[⟨spec, false, false⟩], secrets, nodes, endpoints, [], none⟩

/-! ### What a reconcile touches -/

/-- From `w` to `w'` the object's target stays, and only the endpoint `t` is touched. -/
structure Within (t : Option Str) (w w' : World) : Prop where
  target : w'.target = w.target
  endpoints : ∀ e, t ≠ some e → w'.endpoints e = w.endpoints e
  everPut : ∀ e ∈ w'.everPut, e ∈ w.everPut ∨ t = some e

/-- Nothing is touched. -/
theorem Within.refl (t : Option Str) (w : World) : Within t w w :=
  ⟨rfl, fun _ _ => rfl, fun _ h => .inl h⟩

/-- One after another. -/
theorem Within.trans {t : Option Str} {w w' w'' : World} (h : Within t w w')
    (h' : Within t w' w'') : Within t w w'' where
  target := h'.target.trans h.target
  endpoints e he := (h'.endpoints e he).trans (h.endpoints e he)
  everPut e he := (h'.everPut e he).elim (h.everPut e) .inr

/-- The endpoint of a backend. -/
def Backend.endpoint : Backend → Option Str
  | .http e _ _ => some e
  | _ => none

/-- The endpoint of a backend is the target of the spec it was built from. -/
theorem endpoint_of_backendFor {readFails : Bool} {secrets : GoMap (GoMap Str)}
    {spec : RegistrarSpec} {b : Backend} (h : backendFor readFails secrets spec = .ok b) :
    b.endpoint = target spec := by
  rw [backendFor] at h
  by_cases hmanual : spec.backend = [] ∨ spec.backend = "manual".toList
  · rw [if_pos hmanual] at h
    obtain rfl := Except.ok.inj h
    have hne : spec.backend ≠ "http".toList := by
      rcases hmanual with hm | hm
      · rw [hm]
        decide
      · rw [hm]
        decide
    rw [target, if_neg hne]
    rfl
  · rw [if_neg hmanual] at h
    by_cases hhttp : spec.backend = "http".toList
    · rw [if_pos hhttp, httpBackend] at h
      rw [target, if_pos hhttp]
      split at h
      · obtain rfl := Except.ok.inj h
        rfl
      · split at h
        · cases h
        · split at h
          · cases h
          · obtain rfl := Except.ok.inj h
            rfl
    · rw [if_neg hhttp] at h
      rw [target, if_neg hhttp]
      split_ifs at h
      obtain rfl := Except.ok.inj h
      rfl

/-- `Ensure` touches only the endpoint of its backend. -/
theorem ensure_endpoints (b : Backend) (set : GoMap SIG) (put : PutOutcome)
    (endpoints : Str → Endpoint) {e : Str} (he : b.endpoint ≠ some e) :
    (ensure b set put endpoints).2 e = endpoints e := by
  cases b with
  | manual => rfl
  | anapaya => rfl
  | http e' token ca =>
      have hne : e ≠ e' := fun h => he (congrArg some h.symm)
      cases put with
      | ok => exact Function.update_of_ne hne _ _
      | lost => rfl
      | inFlight => exact Function.update_of_ne hne _ _

/-- `Ensure` that returns nil leaves its set at the endpoint of its backend. -/
theorem managed_of_ensure {b : Backend} {set : GoMap SIG} {put : PutOutcome}
    {endpoints : Str → Endpoint} (h : (ensure b set put endpoints).1 = .nil) {e : Str}
    (he : b.endpoint = some e) : ((ensure b set put endpoints).2 e).managed = set := by
  cases b with
  | manual => cases he
  | anapaya => cases he
  | http e' token ca =>
      obtain rfl := Option.some.inj he
      cases put with
      | ok => simp [ensure]
      | lost => cases h
      | inFlight => cases h

/-- Writing a version with the same spec. -/
theorem updateObject_within {w w' : World} {i : ℕ} {f : Failures} {sn : ScionNetwork}
    (hsn : w.versions[i]? = some sn) (sn' : ScionNetwork) (hspec : sn'.spec = sn.spec)
    (h : updateObject w i f sn' = some w') (t : Option Str) :
    Within t w w' ∧ w'.endpoints = w.endpoints ∧ w'.everPut = w.everPut := by
  rw [updateObject] at h
  split_ifs at h with hi
  obtain rfl := Option.some.inj h
  refine ⟨⟨?_, fun _ _ => rfl, fun _ he => .inl he⟩, rfl, rfl⟩
  rw [hi.1, ← List.head?_eq_getElem?] at hsn
  rw [World.target, World.target, hsn, List.head?_cons, Option.bind_some, Option.bind_some, hspec]

/-- Changing the endpoints as `Ensure` does. -/
theorem within_ensure {w : World} {spec : RegistrarSpec} {readFails : Bool} {b : Backend}
    (hb : backendFor readFails w.secrets spec = .ok b) (set : GoMap SIG) (put : PutOutcome) :
    Within (target spec) w { w with endpoints := (ensure b set put w.endpoints).2 } where
  target := rfl
  endpoints e he := ensure_endpoints b set put w.endpoints (by rwa [endpoint_of_backendFor hb])
  everPut _ he := .inl he

/-- Registration touches only the target of the spec. -/
theorem syncRegistrar_within (w : World) (sn : ScionNetwork) (f : Failures) :
    Within (target sn.spec.registrar) w (syncRegistrar w sn f).1 := by
  rw [syncRegistrar]
  split_ifs
  · exact .refl _ w
  · simp only
    cases hb : backendFor f.readSecret w.secrets sn.spec.registrar with
    | error e => exact .refl _ w
    | ok b =>
        have hw := within_ensure hb (ensureSet (nodesToSIGs w.nodes sn.spec.nodeSelector).1) f.put
        simp only
        split
        · rename_i endpoints heq
          rw [heq] at hw
          refine ⟨hw.target, hw.endpoints, fun e he => ?_⟩
          rcases List.mem_append.mp he with he | he
          · right
            rw [← endpoint_of_backendFor hb]
            cases b with
            | http e' token ca =>
                simp only at he
                split_ifs at he
                · cases he
                · rw [List.mem_singleton.mp he]
                  rfl
            | manual => cases he
            | anapaya => cases he
          · exact .inl he
        · rename_i endpoints heq
          rw [heq] at hw
          exact hw

/-- Removing the finalizer touches no endpoint. -/
theorem release_within {w : World} {i : ℕ} {sn : ScionNetwork} (hsn : w.versions[i]? = some sn)
    (f : Failures) (how : Release) (t : Option Str) :
    Within t w (release w i sn f how).1 ∧
      (release w i sn f how).1.endpoints = w.endpoints ∧
      (release w i sn f how).1.everPut = w.everPut := by
  rw [release]
  split
  · rename_i w' hw'
    exact updateObject_within hsn { sn with finalizer := false } rfl hw' t
  · exact ⟨.refl t w, rfl, rfl⟩

/-- What finalization does: nothing, a release without a backend, or a call of `Ensure`, after
which the finalizer is released or not. -/
theorem finalize_cases (w : World) (i : ℕ) (sn : ScionNetwork) (f : Failures) :
    finalize w i sn f = (w, .nothingToFinalize) ∨
    finalize w i sn f = release w i sn f .backendUnavailable ∨
    ∃ b endpoints, backendFor f.readSecret w.secrets sn.spec.registrar = .ok b ∧
      (ensure b ∅ f.put w.endpoints).2 = endpoints ∧
      (finalize w i sn f = ({ w with endpoints := endpoints }, .failed) ∨
        ∃ how, finalize w i sn f = release { w with endpoints := endpoints } i sn f how ∧
          (how = .deregistered → (ensure b ∅ f.put w.endpoints).1 = .nil)) := by
  rw [finalize]
  by_cases hfin : sn.finalizer = false
  · rw [if_pos hfin]
    exact .inl rfl
  · rw [if_neg hfin]
    cases hb : backendFor f.readSecret w.secrets sn.spec.registrar with
    | error e => exact .inr (.inl rfl)
    | ok b =>
        refine .inr (.inr ⟨b, _, rfl, rfl, ?_⟩)
        simp only
        obtain ⟨result, endpoints⟩ := ensure b ∅ f.put w.endpoints
        cases result with
        | nil => exact .inr ⟨.deregistered, rfl, fun _ => rfl⟩
        | notImplemented => exact .inr ⟨.notImplemented, rfl, by simp⟩
        | failed =>
            by_cases hlate : f.pastDeadline = true
            · exact .inr ⟨.pastDeadline, if_pos hlate, by simp⟩
            · exact .inl (if_neg hlate)

/-- Finalization touches only the target of the spec. -/
theorem finalize_within {w : World} {i : ℕ} {sn : ScionNetwork} (hsn : w.versions[i]? = some sn)
    (f : Failures) : Within (target sn.spec.registrar) w (finalize w i sn f).1 := by
  rcases finalize_cases w i sn f with h | h | ⟨b, endpoints, hb, rfl, h⟩
  · rw [h]
    exact .refl _ w
  · rw [h]
    exact (release_within hsn f .backendUnavailable _).1
  · have hw := within_ensure hb ∅ f.put
    rcases h with h | ⟨how, h, -⟩
    · rw [h]
      exact hw
    · rw [h]
      exact hw.trans (release_within (by exact hsn) f how _).1

/-- What a reconcile does: nothing, finalization, or registration after the finalizer was
added where it was missing. -/
theorem reconcile_cases (w : World) (i : ℕ) (sn : ScionNetwork) (f : Failures) :
    reconcile w i sn f = (w, .failed) ∨ reconcile w i sn f = finalize w i sn f ∨
    ∃ w', (w' = w ∨ updateObject w i f { sn with finalizer := true } = some w') ∧
      (reconcile w i sn f = (w', .failed) ∨ reconcile w i sn f = syncRegistrar w' sn f) := by
  rw [reconcile]
  by_cases hget : f.get = true
  · rw [if_pos hget]
    exact .inl rfl
  · rw [if_neg hget]
    by_cases hdel : sn.deleting = true
    · rw [if_pos hdel]
      exact .inr (.inl rfl)
    · rw [if_neg hdel]
      have hsync : ∀ w', (if f.apply then (w', Outcome.failed) else syncRegistrar w' sn f) =
          (w', .failed) ∨ (if f.apply then (w', Outcome.failed) else syncRegistrar w' sn f) =
            syncRegistrar w' sn f := by
        intro w'
        cases f.apply
        · exact .inr rfl
        · exact .inl rfl
      cases hfin : sn.finalizer with
      | true => exact .inr (.inr ⟨w, .inl rfl, hsync w⟩)
      | false =>
          cases hup : updateObject w i f { sn with finalizer := true } with
          | none => exact .inl rfl
          | some w' => exact .inr (.inr ⟨w', .inr rfl, hsync w'⟩)

/-- A reconcile touches only the target of the spec it read. -/
theorem reconcile_within {w : World} {i : ℕ} {sn : ScionNetwork} (hsn : w.versions[i]? = some sn)
    (f : Failures) : Within (target sn.spec.registrar) w (reconcile w i sn f).1 := by
  rcases reconcile_cases w i sn f with h | h | ⟨w', hw', h⟩
  · rw [h]
    exact .refl _ w
  · rw [h]
    exact finalize_within hsn f
  · have hwithin : Within (target sn.spec.registrar) w w' := by
      rcases hw' with rfl | hw'
      · exact .refl _ w'
      · exact (updateObject_within hsn { sn with finalizer := true } rfl hw' _).1
    rcases h with h | h
    · rw [h]
      exact hwithin
    · rw [h]
      exact hwithin.trans (syncRegistrar_within w' sn f)

/-- The finalizer is released in the way `release` is told. -/
theorem eq_of_release {w : World} {i : ℕ} {sn : ScionNetwork} {f : Failures} {how how' : Release}
    (h : (release w i sn f how).2 = .released how') : how = how' := by
  rw [release] at h
  split at h
  · exact Outcome.released.inj h
  · cases h

/-- Registration releases no finalizer. -/
theorem syncRegistrar_ne_released (w : World) (sn : ScionNetwork) (f : Failures) (how : Release) :
    (syncRegistrar w sn f).2 ≠ .released how := by
  rw [syncRegistrar]
  split
  · simp
  · simp only
    split
    · simp
    · split <;> simp

/-- A reconcile that deregistered leaves nothing at the target of the spec it read. -/
theorem managed_of_deregistered {w : World} {i : ℕ} {sn : ScionNetwork}
    (hsn : w.versions[i]? = some sn) {f : Failures}
    (h : (reconcile w i sn f).2 = .released .deregistered) {e : Str}
    (he : target sn.spec.registrar = some e) :
    ((reconcile w i sn f).1.endpoints e).managed = ∅ := by
  rcases reconcile_cases w i sn f with hr | hr | ⟨w', -, hr | hr⟩
  · rw [hr] at h
    cases h
  · rw [hr] at h ⊢
    rcases finalize_cases w i sn f with hf | hf | ⟨b, endpoints, hb, rfl, hf | ⟨how, hf, hnil⟩⟩
    · rw [hf] at h
      cases h
    · rw [hf] at h
      cases eq_of_release h
    · rw [hf] at h
      cases h
    · rw [hf] at h ⊢
      rw [(release_within (by exact hsn) f how none).2.1]
      exact managed_of_ensure (hnil (eq_of_release h)) (by rw [endpoint_of_backendFor hb, he])
  · rw [hr] at h
    cases h
  · rw [hr] at h
    exact absurd h (syncRegistrar_ne_released w' sn f _)

/-! ### Whole runs -/

/-- An edit that points the spec away from an endpoint leaves nothing there, if anything was
ever registered there, and a reconcile works on a version with the current target. -/
def keepsTarget (w : World) : Event → Bool
  | .edit spec => w.target.all fun e =>
      target spec.registrar = some e || !w.everPut.contains e || (w.endpoints e).isClean
  | .reconcile i _ => w.versions[i]?.all fun sn => target sn.spec.registrar = w.target
  | _ => true

/-- What holds after steps that keep the target: nothing is registered at an endpoint the
spec does not point to, and after a deregistration nothing is registered anywhere. -/
structure Invariant (w : World) : Prop where
  others_clean : ∀ e ∈ w.everPut, w.target ≠ some e → (w.endpoints e).isClean = true
  deregistered : w.last = some (.released .deregistered) →
    ∀ e ∈ w.everPut, (w.endpoints e).managed = ∅

/-- A clean endpoint has no managed gateways. -/
theorem Endpoint.managed_of_isClean {e : Endpoint} (h : e.isClean = true) : e.managed = ∅ := by
  rw [isClean, Bool.and_eq_true] at h
  exact Std.ExtTreeMap.isEmpty_iff.mp h.1

/-- Applying or losing a PUT in flight leaves a clean endpoint clean. -/
theorem Endpoint.isClean_of_inFlight {e : Endpoint} {set : GoMap SIG} {rest : List (GoMap SIG)}
    (h : e.isClean = true) (hflight : e.inFlight = set :: rest) :
    Endpoint.isClean ⟨set, rest⟩ = true ∧ Endpoint.isClean ⟨e.managed, rest⟩ = true := by
  rw [isClean, hflight, List.all_cons, Bool.and_eq_true, Bool.and_eq_true] at h
  obtain ⟨hm, hset, hrest⟩ := h
  simp [isClean, hm, hset, hrest]

/-- Changing one endpoint, from clean to clean, keeps the invariant. -/
theorem Invariant.update {w : World} (h : Invariant w) (e : Str) {endpoint : Endpoint}
    (hclean : (w.endpoints e).isClean = true → endpoint.isClean = true) :
    Invariant
      { w with endpoints := Function.update w.endpoints e endpoint, last := none } where
  others_clean := by
    intro e' he' htarget
    by_cases heq : e' = e
    · subst heq
      simp only [Function.update_self]
      exact hclean (h.others_clean e' he' htarget)
    · simp only [Function.update_of_ne heq]
      exact h.others_clean e' he' htarget
  deregistered := by simp

/-- A reconcile with the current target keeps the invariant. -/
theorem Invariant.reconcile {w : World} (h : Invariant w) {i : ℕ} {sn : ScionNetwork}
    (hsn : w.versions[i]? = some sn) (htarget : target sn.spec.registrar = w.target)
    (f : Failures) :
    Invariant { (reconcile w i sn f).1 with last := some (reconcile w i sn f).2 } := by
  have hw := reconcile_within hsn f
  have hclean : ∀ e ∈ (Controller.reconcile w i sn f).1.everPut,
      target sn.spec.registrar ≠ some e →
        ((Controller.reconcile w i sn f).1.endpoints e).isClean = true := by
    intro e he hne
    rw [hw.endpoints e hne]
    exact h.others_clean e ((hw.everPut e he).resolve_right hne) (htarget ▸ hne)
  constructor
  · intro e he hne
    refine hclean e he ?_
    rw [htarget, ← hw.target]
    exact hne
  · intro hlast e he
    by_cases heq : target sn.spec.registrar = some e
    · exact managed_of_deregistered hsn (Option.some.inj hlast) heq
    · exact Endpoint.managed_of_isClean (hclean e he heq)

/-- Every step that keeps the target keeps the invariant. -/
theorem invariant_step (w : World) (event : Event) (w' : World) (h : Invariant w)
    (hkeeps : keepsTarget w event = true) (hstep : step w event = some w') : Invariant w' := by
  cases event with
  | edit spec =>
      obtain ⟨sn, hsn, rfl⟩ := Option.map_eq_some_iff.mp hstep
      refine ⟨fun e he hne => ?_, by simp⟩
      by_cases hold : w.target = some e
      · rw [keepsTarget, hold, Option.all_some] at hkeeps
        have hnew : target spec.registrar ≠ some e := hne
        simpa [hnew, show e ∈ w.everPut from he] using hkeeps
      · exact h.others_clean e he hold
  | delete =>
      obtain ⟨sn, hsn, rfl⟩ := Option.map_eq_some_iff.mp hstep
      refine ⟨fun e he hne => h.others_clean e he ?_, by simp⟩
      rw [World.target, hsn]
      exact hne
  | setSecrets secrets =>
      obtain rfl := Option.some.inj hstep
      exact ⟨h.others_clean, by simp⟩
  | setNodes nodes =>
      obtain rfl := Option.some.inj hstep
      exact ⟨h.others_clean, by simp⟩
  | reconcile i f =>
      obtain ⟨sn, hsn, rfl⟩ := Option.map_eq_some_iff.mp hstep
      rw [keepsTarget, hsn, Option.all_some, decide_eq_true_eq] at hkeeps
      exact h.reconcile hsn hkeeps f
  | deliver e =>
      simp only [step] at hstep
      split at hstep
      · cases hstep
      · rename_i hflight
        obtain rfl := Option.some.inj hstep
        exact h.update e fun hclean => (Endpoint.isClean_of_inFlight hclean hflight).1
  | lose e =>
      simp only [step] at hstep
      split at hstep
      · cases hstep
      · rename_i hflight
        obtain rfl := Option.some.inj hstep
        exact h.update e fun hclean => (Endpoint.isClean_of_inFlight hclean hflight).2

/-- **No leaked registration.** In every run in which edits leave only endpoints with nothing
registered, and reconciles work on versions with the current target: when a finalizer is
removed after the backend was built and its `Ensure` returned nil, every endpoint to which a
non-empty set was ever PUT successfully has an empty managed set. -/
theorem deregistered_of_keepsTarget (spec : Spec) (secrets : GoMap (GoMap Str))
    (nodes : List Node) (endpoints : Str → Endpoint) (events : List Event) (w : World)
    (hrun : Transition.run step (.initial spec secrets nodes endpoints) events = some w)
    (hkeeps : Transition.Always step (fun w e => keepsTarget w e = true)
      (.initial spec secrets nodes endpoints) events)
    (hlast : w.last = some (.released .deregistered)) :
    ∀ e ∈ w.everPut, (w.endpoints e).managed = ∅ := by
  have hinit : Invariant (.initial spec secrets nodes endpoints) :=
    ⟨by simp [World.initial], by simp [World.initial]⟩
  exact (Transition.run_invariant invariant_step hinit hkeeps hrun).deregistered hlast

/-- A spec that registers at an endpoint. -/
def specAt (endpoint : Str) : Spec :=
  { sampleSpec with registrar := ⟨"http".toList, endpoint, none⟩ }

/-- Nothing fails. -/
def noFailures : Failures :=
  ⟨false, false, false, false, false, .ok, false⟩

/-- A world with one node, in which nothing is registered. -/
def sampleWorld : World :=
  .initial (specAt "https://a:8642".toList) ∅ [nodeAt "192.0.2.1".toList] fun _ => ⟨∅, []⟩

/-- The object is reconciled, deleted and finalized. -/
def plainRun : List Event :=
  [.reconcile 0 noFailures, .delete, .reconcile 0 noFailures]

/-- In a run without edits nothing is left. -/
theorem deregistered_of_plainRun :
    ∃ w, Transition.run step sampleWorld plainRun = some w ∧
      w.everPut = ["https://a:8642".toList] ∧
      (w.endpoints "https://a:8642".toList).managed = ∅ := by
  have hend : (Transition.run step sampleWorld plainRun).map (fun w => (w.everPut, w.last)) =
      some (["https://a:8642".toList], some (.released .deregistered)) := by decide +kernel
  obtain ⟨w, hrun, hw⟩ := Option.map_eq_some_iff.mp hend
  obtain ⟨hput, hlast⟩ := Prod.mk.inj hw
  refine ⟨w, hrun, hput, ?_⟩
  exact deregistered_of_keepsTarget _ _ _ _ plainRun w hrun (by decide +kernel) hlast _
    (by rw [hput]; exact List.mem_cons_self)

/-- The object is reconciled, pointed to another endpoint, deleted and finalized. -/
def editedRun : List Event :=
  [.reconcile 0 noFailures, .edit (specAt "https://b:8642".toList), .reconcile 0 noFailures,
    .delete, .reconcile 0 noFailures]

/-- The gateway stays registered at the endpoint the edit left. -/
theorem leaked_after_edit :
    ∃ w, Transition.run step sampleWorld editedRun = some w ∧
      w.last = some (.released .deregistered) ∧ "https://a:8642".toList ∈ w.everPut ∧
      (w.endpoints "https://a:8642".toList).managed ≠ ∅ := by
  have hend : (Transition.run step sampleWorld editedRun).map (fun w => (w.last,
      decide ("https://a:8642".toList ∈ w.everPut),
      (w.endpoints "https://a:8642".toList).managed.isEmpty)) =
      some (some (.released .deregistered), true, false) := by decide +kernel
  obtain ⟨w, hrun, hw⟩ := Option.map_eq_some_iff.mp hend
  obtain ⟨hlast, hw⟩ := Prod.mk.inj hw
  obtain ⟨hput, hmanaged⟩ := Prod.mk.inj hw
  refine ⟨w, hrun, hlast, decide_eq_true_eq.mp hput, fun hempty => ?_⟩
  rw [hempty] at hmanaged
  simp at hmanaged

end ScionOperator.Controller
