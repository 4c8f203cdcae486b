import ScionOperator.Finalizer
import ScionOperator.StatusUpdate

/-!
# Registration in the Status

What a reconcile tells about the registration with the AS (`internal/operator/controller`,
`registrar_sync.go`). `syncRegistrar` starts from the status that was read, always renews the
desired gateways, and counts them as registered only if the backend took them; a failure is
recorded in `lastError` and leaves the count and the time of the last sync alone. A reconcile
that fails before it gets there persists the status as it was read, but for a condition.

The API server keeps the versions of the object. A reconcile may have read any of them from its
cache, but a write is refused unless it was the current one.

## Main results

* `syncRegistrar_cases`: a sync that failed and one that did not.
* `registrar_of_persisted`: the registration in a status that a reconcile persists.
* `consistent_of_run`: **a status without an error counts the desired gateways, in every
  version that is ever persisted**, and only a sync that succeeded changes the count.
-/

namespace ScionOperator.Sync

open Text Status

/-! ### Errors -/

/-- How the request of the `http` backend fails. -/
inductive HTTPError
  | marshal (cause : Str)
  | buildRequest (cause : Str)
  /-- the CA bundle holds no certificate -/
  | caBundle
  | put (cause : Str)
  /-- the answer is not 204; the first bytes of its body are kept -/
  | status (code : ℕ) (statusText body : Str)

/-- The text of an error of the `http` backend. -/
def HTTPError.text : HTTPError → Str
  | .marshal cause => "marshal sigs: ".toList ++ cause
  | .buildRequest cause => "build request: ".toList ++ cause
  | .caBundle => "registrar CA bundle contains no valid PEM certificates".toList
  | .put cause => "put sigs: ".toList ++ cause
  | .status code statusText body =>
      "put sigs: status ".toList ++
        (itoa code ++ " ".toList ++ statusText ++ ": ".toList ++ body)

/-- The text of the error with which the `anapaya` backend answers everything. -/
def anapayaText : Str :=
  "anapaya backend: not implemented (use backend=http with the AS-side registrar ".toList ++
    ("service, or backend=manual and configure the appliance from ".toList ++
      "status.registrar.desiredSIGs)".toList)

/-- A name in quotes (`%q`; the names of objects and of backends need no escapes). -/
def quoted (s : Str) : Str :=
  '"' :: s ++ ['"']

/-- The text of the error with which no backend could be built. -/
def backendErrorText (spec : RegistrarSpec) (cause : Str) : Controller.BackendError → Str
  | .readSecret =>
      "read credentials secret scion-system/".toList ++
        (spec.credentialsSecretRef.getD [] ++ ": ".toList ++ cause)
  | .noToken =>
      "credentials secret ".toList ++
        (quoted (spec.credentialsSecretRef.getD []) ++ " has no \"token\" key".toList)
  | .unknownBackend => "unknown registrar backend ".toList ++ quoted spec.backend

/-! ### The sync -/

/-- What a sync meets. -/
structure Conditions where
  now : ℤ
  /-- the nodes, or the error of listing them -/
  nodes : Except Str (List Node)
  secrets : GoMap (GoMap Str)
  readSecretFails : Bool
  /-- the error of reading a secret that is missing or cannot be read -/
  readSecretError : Str
  /-- how the request of the `http` backend fails, if it does -/
  httpError : Option HTTPError

/-- The error of pushing the gateways to a backend, if there is one. -/
def ensureError (c : Conditions) : Controller.Backend → Option Str
  | .manual => none
  | .http _ _ _ => c.httpError.map HTTPError.text
  | .anapaya => some anapayaText

/-- The error of building the backend of a spec and pushing the gateways to it, if there is
one. -/
def syncError (c : Conditions) (spec : RegistrarSpec) : Option Str :=
  match Controller.backendFor c.readSecretFails c.secrets spec with
  | .error e => some (backendErrorText spec c.readSecretError e)
  | .ok b => ensureError c b

/-- A desired gateway, as it is published. -/
def desiredSIG (s : NodeSIG) : Str :=
  s.name ++ "=".toList ++ s.ctrlAddr ++ ",".toList ++ s.dataAddr

/-- Push the gateways of the selected nodes; the registration to persist, and whether that
failed. -/
def syncRegistrar (c : Conditions) (spec : Spec) (st : RegistrarStatus) :
    RegistrarStatus × Bool :=
  match c.nodes with
  | .error err => ({ st with lastError := "list nodes: ".toList ++ err }, true)
  | .ok nodes =>
      let sigs := (nodesToSIGs nodes spec.nodeSelector).1
      let st := { st with desiredSIGs := sigs.map desiredSIG }
      match syncError c spec.registrar with
      | some err => ({ st with lastError := err }, true)
      | none =>
          ({ st with
             registeredNodes := sigs.length
             lastSyncTime := some c.now
             lastError := [] }, false)

/-- A text that begins with a literal is not empty. -/
theorem toList_append_ne_nil {s : String} (h : s ≠ "") (t : Str) : s.toList ++ t ≠ [] :=
  List.append_ne_nil_of_left_ne_nil (mt String.toList_eq_nil_iff.mp h) t

/-- Every error of the `http` backend says something. -/
theorem HTTPError.text_ne_nil (e : HTTPError) : e.text ≠ [] := by
  cases e with
  | caBundle => exact mt String.toList_eq_nil_iff.mp (by simp)
  | marshal | buildRequest | put | status => exact toList_append_ne_nil (by simp) _

/-- Every error of building a backend says something. -/
theorem backendErrorText_ne_nil (spec : RegistrarSpec) (cause : Str)
    (e : Controller.BackendError) : backendErrorText spec cause e ≠ [] := by
  cases e <;> exact toList_append_ne_nil (by simp) _

/-- Every error of a sync says something. -/
theorem syncError_ne_nil {c : Conditions} {spec : RegistrarSpec} {err : Str}
    (h : syncError c spec = some err) : err ≠ [] := by
  rw [syncError] at h
  cases hb : Controller.backendFor c.readSecretFails c.secrets spec with
  | error e =>
      rw [hb] at h
      rw [← Option.some.inj h]
      exact backendErrorText_ne_nil spec _ e
  | ok b =>
      rw [hb] at h
      cases b with
      | manual => cases h
      | http endpoint token caBundle =>
          obtain ⟨e, -, rfl⟩ := Option.map_eq_some_iff.mp h
          exact e.text_ne_nil
      | anapaya =>
          rw [← Option.some.inj h]
          exact toList_append_ne_nil (by simp) _

/-- **What a sync does.** One that failed has an error and keeps the count and the time; one
that did not has none, and counts the desired gateways. -/
theorem syncRegistrar_cases (c : Conditions) (spec : Spec) (st : RegistrarStatus) :
    ((syncRegistrar c spec st).2 = true ∧ (syncRegistrar c spec st).1.lastError ≠ [] ∧
        (syncRegistrar c spec st).1.registeredNodes = st.registeredNodes ∧
        (syncRegistrar c spec st).1.lastSyncTime = st.lastSyncTime) ∨
      ((syncRegistrar c spec st).2 = false ∧ (syncRegistrar c spec st).1.lastError = [] ∧
        (syncRegistrar c spec st).1.registeredNodes =
          (syncRegistrar c spec st).1.desiredSIGs.length) := by
  rw [syncRegistrar]
  cases c.nodes with
  | error err => exact .inl ⟨rfl, toList_append_ne_nil (by simp) _, rfl, rfl⟩
  | ok nodes =>
      cases herr : syncError c spec.registrar with
      | some err => exact .inl ⟨rfl, syncError_ne_nil herr, rfl, rfl⟩
      | none => exact .inr ⟨rfl, rfl, (List.length_map _).symm⟩

/-! ### Versions of the object -/

/-- A version of the object. -/
structure Version where
  network : Controller.ScionNetwork
  generation : ℕ
  status : NetworkStatus

/-- The versions that were persisted, the current one first, and the metric. -/
structure World where
  versions : List Version
  gauge : ℕ

/-- What a reconcile meets. -/
structure Attempt where
  /-- its calls; what depends on the version it read is filled in -/
  call : Call
  sync : Conditions
  /-- finalization goes as far as removing the finalizer -/
  releases : Bool

/-- How a write ends that is refused. -/
def refused : Write → Write
  | .persisted | .conflict => .conflict
  | .unanswered | .failed => .failed

/-- The calls of a reconcile that read the `i`-th last version. Its writes are refused unless
that is the current one. -/
def Attempt.callFor (a : Attempt) (i : ℕ) (v : Version) : Call :=
  let sync := syncRegistrar a.sync v.network.spec v.status.registrar
  { a.call with
    generation := v.generation
    bootstrapMode := v.network.spec.bootstrap.mode
    backend := v.network.spec.registrar.backend
    addFinalizerFails := !v.network.finalizer && (i ≠ 0 || a.call.addFinalizerFails)
    observed := { a.call.observed with registrar := sync.1, regFailed := sync.2 }
    write := if i = 0 then a.call.write else refused a.call.write }

/-- What comes of the sync of a reconcile, if it gets there. -/
def Attempt.synced (a : Attempt) (i : ℕ) (v : Version) : Option (RegistrarStatus × Bool) :=
  if a.call.getFails || v.network.deleting || (a.callFor i v).addFinalizerFails ||
      (a.callFor i v).failure.isSome then none
  else some (syncRegistrar a.sync v.network.spec v.status.registrar)

/-- The versions a reconcile adds that read the `i`-th last one, the last one first, and the
metric after it. On deletion the finalizer is removed; otherwise it is added, and the status is
written. An update of the object leaves the status alone. -/
def reconcile (w : World) (i : ℕ) (v : Version) (a : Attempt) : List Version × ℕ :=
  if a.call.getFails then ([], w.gauge)
  else if v.network.deleting then
    if v.network.finalizer && i = 0 && a.releases then
      ([{ v with network := { v.network with finalizer := false } }], w.gauge)
    else ([], w.gauge)
  else
    let call := a.callFor i v
    let outcome := Status.reconcile ⟨v.status, w.gauge⟩ call
    let network := { v.network with finalizer := true }
    let added := if v.network.finalizer || call.addFinalizerFails then []
      else [{ v with network := network }]
    let written := if outcome.persisted then
        [{ v with network := network, status := outcome.world.status }]
      else []
    (written ++ added, outcome.world.gauge)

/-- What can happen to the object. -/
inductive Event
  /-- something other than the status is changed, such as the spec -/
  | edit (network : Controller.ScionNetwork) (generation : ℕ)
  /-- the operator reconciles the `i`-th last version -/
  | reconcile (i : ℕ) (a : Attempt)

/-- One step of the world. -/
def step (w : World) : Event → Option World
  | .edit network generation => w.versions.head?.map fun v =>
      { w with versions := ⟨network, generation, v.status⟩ :: w.versions }
  | .reconcile i a => w.versions[i]?.map fun v =>
      ⟨(reconcile w i v a).1 ++ w.versions, (reconcile w i v a).2⟩

/-- An object that was just created. -/
def World.initial (network : Controller.ScionNetwork) : World :=
  ⟨[⟨network, 1, emptyStatus⟩], 0⟩

/-! ### What is persisted -/

/-- A registration without an error counts the desired gateways. -/
def Consistent (r : RegistrarStatus) : Prop :=
  r.lastError = [] → r.registeredNodes = r.desiredSIGs.length

/-- The registration in a status that a reconcile persists: as it was read, or as the sync left
it. -/
theorem registrar_of_persisted {status : NetworkStatus} {gauge : ℕ} {call : Call}
    (h : (Status.reconcile ⟨status, gauge⟩ call).persisted = true) :
    (Status.reconcile ⟨status, gauge⟩ call).world.status.registrar = status.registrar ∨
      (call.addFinalizerFails = false ∧ call.failure = none ∧
        (Status.reconcile ⟨status, gauge⟩ call).world.status.registrar =
          call.observed.registrar) := by
  have hadd : call.addFinalizerFails = false := by
    by_contra hadd
    rw [Bool.not_eq_false] at hadd
    rw [Status.reconcile, hadd] at h
    cases hget : call.getFails <;> simp [hget] at h
  obtain ⟨hwrite, ⟨message, -, hworld⟩ | ⟨hfailure, hlist, hworld⟩⟩ := cases_of_persisted h
  · left
    rw [hworld, markApplyFailed, World.write, if_pos hwrite]
  · right
    refine ⟨hadd, hfailure, ?_⟩
    rw [hworld, status_updateStatus hlist hwrite]
    rfl

/-- **What one reconcile persists.** Every version it adds has the registration as it was read,
or as a sync left it that the reconcile got to. -/
theorem registrar_of_mem_reconcile {w : World} {i : ℕ} {v v' : Version} {a : Attempt}
    (h : v' ∈ (reconcile w i v a).1) :
    v'.status.registrar = v.status.registrar ∨
      ∃ st, a.synced i v = some st ∧ v'.status.registrar = st.1 := by
  rw [reconcile] at h
  split_ifs at h with hget hdel hrelease
  · cases h
  · rw [List.mem_singleton] at h
    exact .inl (by rw [h])
  · cases h
  · simp only [List.mem_append, List.mem_ite_nil_right, List.mem_ite_nil_left,
      List.mem_singleton] at h
    rcases h with ⟨hpersisted, rfl⟩ | ⟨-, rfl⟩
    · refine (registrar_of_persisted hpersisted).imp_right ?_
      rintro ⟨hadd, hfailure, hregistrar⟩
      refine ⟨_, ?_, hregistrar⟩
      rw [Attempt.synced, if_neg]
      rw [hadd, hfailure]
      simp [hget, hdel]
    · exact .inl rfl

/-- What comes of a sync that a reconcile gets to. -/
theorem eq_of_synced {a : Attempt} {i : ℕ} {v : Version} {st : RegistrarStatus × Bool}
    (h : a.synced i v = some st) :
    st = syncRegistrar a.sync v.network.spec v.status.registrar := by
  rw [Attempt.synced] at h
  split_ifs at h
  exact (Option.some.inj h).symm

/-- A reconcile that does not get to a sync that succeeds keeps the count and the time. -/
theorem kept_of_mem_reconcile {w : World} {i : ℕ} {v v' : Version} {a : Attempt}
    (hsync : ∀ st, a.synced i v ≠ some (st, false)) (h : v' ∈ (reconcile w i v a).1) :
    v'.status.registrar.registeredNodes = v.status.registrar.registeredNodes ∧
      v'.status.registrar.lastSyncTime = v.status.registrar.lastSyncTime := by
  rcases registrar_of_mem_reconcile h with hread | ⟨⟨st, failed⟩, hst, hsynced⟩
  · rw [hread]
    exact ⟨rfl, rfl⟩
  · have hcases := syncRegistrar_cases a.sync v.network.spec v.status.registrar
    rw [← eq_of_synced hst] at hcases
    rcases hcases with ⟨-, -, hnodes, htime⟩ | ⟨hok, -, -⟩
    · rw [hsynced]
      exact ⟨hnodes, htime⟩
    · obtain rfl : failed = false := hok
      exact absurd hst (hsync st)

/-- One step keeps every version consistent. -/
theorem consistent_step (w : World) (event : Event) (w' : World)
    (h : ∀ v ∈ w.versions, Consistent v.status.registrar) (hstep : step w event = some w') :
    ∀ v ∈ w'.versions, Consistent v.status.registrar := by
  cases event with
  | edit network generation =>
      obtain ⟨v, hv, rfl⟩ := Option.map_eq_some_iff.mp hstep
      rw [List.forall_mem_cons]
      exact ⟨h v (List.mem_of_head? hv), h⟩
  | reconcile i a =>
      obtain ⟨v, hv, rfl⟩ := Option.map_eq_some_iff.mp hstep
      rw [List.forall_mem_append]
      refine ⟨fun v' hv' => ?_, h⟩
      rcases registrar_of_mem_reconcile hv' with hread | ⟨st, hst, hsynced⟩
      · rw [hread]
        exact h v (List.mem_of_getElem? hv)
      · have hcases := syncRegistrar_cases a.sync v.network.spec v.status.registrar
        rw [← eq_of_synced hst, ← hsynced] at hcases
        rcases hcases with ⟨-, herr, -, -⟩ | ⟨-, -, hcount⟩
        · exact fun hnone => absurd hnone herr
        · exact fun _ => hcount

/-- **The registration in the status.** After any run from an empty status, every status that
was ever persisted counts the desired gateways unless it has an error. And whatever version a
reconcile then reads, if its sync fails or it does not get there, the versions it adds have the
count and the time it read. -/
theorem consistent_of_run {network : Controller.ScionNetwork} {events : List Event} {w : World}
    (hrun : Transition.run step (.initial network) events = some w) :
    (∀ v ∈ w.versions, Consistent v.status.registrar) ∧
      ∀ i a v w', w.versions[i]? = some v → (∀ st, a.synced i v ≠ some (st, false)) →
        step w (.reconcile i a) = some w' →
          ∃ added, w'.versions = added ++ w.versions ∧ ∀ v' ∈ added,
            v'.status.registrar.registeredNodes = v.status.registrar.registeredNodes ∧
              v'.status.registrar.lastSyncTime = v.status.registrar.lastSyncTime := by
  constructor
  · refine Transition.run_preserves consistent_step ?_ hrun
    intro v hv
    obtain rfl := List.mem_singleton.mp hv
    exact fun _ => rfl
  · intro i a v w' hv hsync hstep
    rw [step, hv] at hstep
    obtain rfl := Option.some.inj hstep
    exact ⟨(reconcile w i v a).1, rfl, fun v' hv' => kept_of_mem_reconcile hsync hv'⟩

/-- A network that registers by hand. -/
def sampleNetwork : Controller.ScionNetwork :=
  ⟨{ sampleSpec with registrar := ⟨"manual".toList, [], none⟩ }, false, false⟩

/-- A reconcile at some time, that lists one node or fails to list any. -/
def sampleAttempt (now : ℤ) (listFails : Bool) : Attempt where
  call := sampleCall .conditionTrue none
  sync := ⟨now, if listFails then .error "timeout".toList else .ok [nodeAt "192.0.2.1".toList], ∅,
    false, [], none⟩
  releases := false

/-- After a sync that registered the gateway of the node, a reconcile that cannot list the nodes
keeps the count and the time of the sync. -/
theorem consistent_of_failing_sync :
    ∃ w w' added, Transition.run step (.initial sampleNetwork)
        [.reconcile 0 (sampleAttempt 7 false)] = some w ∧
      (∀ v ∈ w.versions, Consistent v.status.registrar) ∧
      step w (.reconcile 0 (sampleAttempt 9 true)) = some w' ∧
      w'.versions = added ++ w.versions ∧
      ∀ v' ∈ added, v'.status.registrar.registeredNodes = 1 ∧
        v'.status.registrar.lastSyncTime = some 7 := by
  have hsynced : ((Transition.run step (.initial sampleNetwork)
      [.reconcile 0 (sampleAttempt 7 false)]).bind fun w =>
        w.versions[0]?.map fun v => (v.status.registrar.registeredNodes,
          v.status.registrar.lastSyncTime)) = some (1, some 7) := by
    decide +kernel
  obtain ⟨w, hw, hsynced⟩ := Option.bind_eq_some_iff.mp hsynced
  obtain ⟨v, hv, hsynced⟩ := Option.map_eq_some_iff.mp hsynced
  obtain ⟨hcount, htime⟩ := Prod.mk.inj hsynced
  obtain ⟨hconsistent, hkept⟩ := consistent_of_run hw
  have hfailed : ∀ st, (sampleAttempt 9 true).synced 0 v ≠ some (st, false) := by
    intro st hst
    have hsync := congrArg Prod.snd (eq_of_synced hst)
    cases hsync
  have hstep : ∃ w', step w (.reconcile 0 (sampleAttempt 9 true)) = some w' := by
    rw [step, hv]
    exact ⟨_, rfl⟩
  obtain ⟨w', hw'⟩ := hstep
  obtain ⟨added, hadded, hmem⟩ := hkept 0 _ v w' hv hfailed hw'
  refine ⟨w, w', added, hw, hconsistent, hw', hadded, fun v' hv' => ?_⟩
  obtain ⟨hcount', htime'⟩ := hmem v' hv'
  exact ⟨hcount'.trans hcount, htime'.trans htime⟩

end ScionOperator.Sync
