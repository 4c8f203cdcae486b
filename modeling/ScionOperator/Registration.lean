import ScionOperator.Finalizer

/-!
# Registration and the Finalizer

The operator reads a network from a cache, and what it does with it later is based on the version
it has read (`internal/operator/controller`, `Reconcile` and `finalize`). The network may have been
edited, deleted and released since, somebody may have removed the finalizer by hand, and a restarted
operator fills its cache anew. There is one reconcile of a network at a time, and its work is one
step.

A PUT that the operator gives up may still be applied, at any time and in any order, also after a
later one was answered. That an answered PUT ends all earlier ones, as `Finalizer` takes it, is not
assumed here (`keepInFlight`).

Gateways are registered only after the finalizer was stored, so that a network with registered
gateways does not disappear before the operator has released it, unless somebody takes the finalizer
away (`finalizer_of_registered`). And once a network was released, no reconcile that works on an old
version registers its gateways again (`deregistered_for_good`): a cache does not go back to a
version before the one that was finalized, and all later ones are being deleted. For an operator
that is restarted this has to be assumed of the list it starts with (`registered_after_old_list`).
What was given up before the release may still arrive (`registered_after_late_put`).

## Main results

* `finalizer_of_registered`: **what is registered is under the finalizer.**
* `deregistered_for_good`: **nothing is registered after the release**, except by a PUT that was
  given up before.
-/

namespace ScionOperator.Registration

open Text Controller
open Registrar (SIG)

/-! ### The model -/

/-- The network with the AS, and what the operator has read. Versions are counted from the first
one. -/
structure State where
  world : World
  /-- the version in the cache; 0 before there is one -/
  cached : ℕ
  /-- the version a reconcile works on -/
  reading : Option ℕ
  /-- how the operator released the network, and where its gateways were registered, if it did -/
  released : Option (Release × Option Str)
  /-- the finalizer was removed by hand, and the operator has not added it since -/
  byHand : Bool

/-- The current version has the finalizer. -/
def isMarked (versions : List ScionNetwork) : Bool :=
  versions.head?.any ScionNetwork.finalizer

/-- The current version is being deleted and has no finalizer: the network is gone. -/
def isGone (w : World) : Bool :=
  w.versions.head?.all fun sn => sn.deleting && !sn.finalizer

/-- What can happen to a network, its operator and the AS. -/
inductive Event
  /-- the spec, the nodes or the secrets are edited, or the deletion is requested -/
  | outside (e : Controller.Event)
  /-- somebody removes the finalizer, as the documentation of `finalize` suggests -/
  | unmark
  /-- a PUT that was given up is applied after all; they may overtake each other -/
  | deliver (endpoint : Str) (i : ℕ)
  /-- a PUT that was given up is lost -/
  | lose (endpoint : Str) (i : ℕ)
  /-- the cache of the operator gets to a later version -/
  | observe (version : ℕ)
  /-- a reconcile reads the network from the cache -/
  | read
  /-- the reconcile does its work on the version it has read, with the calls that fail -/
  | act (f : Failures)
  /-- the operator is restarted, and its cache starts with a list -/
  | restart (version : ℕ)

/-- Whether something can happen outside of the operator. A network that is gone is not written. -/
def isOutside (w : World) : Controller.Event → Bool
  | .edit _ | .delete => !isGone w
  | .setSecrets _ | .setNodes _ => true
  | .reconcile _ _ | .deliver _ | .lose _ => false

/-- An endpoint after a reconcile: the PUTs that were in flight before still are, whatever was
answered in the meantime. -/
def keepInFlight (before after : Endpoint) : Endpoint :=
  ⟨after.managed, before.inFlight ++ after.inFlight.drop before.inFlight.length⟩

/-- What a reconcile does and ends with, with the PUTs that stay in flight. -/
def reconcile (w : World) (i : ℕ) (sn : ScionNetwork) (f : Failures) : World × Outcome :=
  let r := Controller.reconcile w i sn f
  ({ r.1 with endpoints := fun e => keepInFlight (w.endpoints e) (r.1.endpoints e) }, r.2)

/-- What is known of a release after a reconcile. -/
def releasedBy (released : Option (Release × Option Str)) (sn : ScionNetwork) :
    Outcome → Option (Release × Option Str)
  | .released how => some (how, target sn.spec.registrar)
  | .failed | .synced | .syncFailed | .nothingToFinalize => released

/-- The state after a reconcile of a version. -/
def State.reconciled (s : State) (sn : ScionNetwork) (r : World × Outcome) : State where
  world := r.1
  cached := s.cached
  reading := none
  released := releasedBy s.released sn r.2
  byHand := s.byHand && !isMarked r.1.versions

/-- What an endpoint has is replaced; the others stay as they are. -/
def State.setEndpoint (s : State) (e : Str) (endpoint : Endpoint) : State :=
  { s with world := { s.world with
      endpoints := Function.update s.world.endpoints e endpoint } }

/-- The state after an event, if it can happen. -/
def step (s : State) : Event → Option State
  | .outside e =>
      if isOutside s.world e then
        (Controller.step s.world e).map fun w => { s with world := w }
      else none
  | .unmark =>
      if isMarked s.world.versions then
        s.world.versions.head?.map fun sn =>
          { s with
            world := { s.world with
              versions := { sn with finalizer := false } :: s.world.versions }
            byHand := true }
      else none
  | .deliver e i =>
      (s.world.endpoints e).inFlight[i]?.map fun set =>
        s.setEndpoint e ⟨set, (s.world.endpoints e).inFlight.eraseIdx i⟩
  | .lose e i =>
      some (s.setEndpoint e ⟨(s.world.endpoints e).managed,
        (s.world.endpoints e).inFlight.eraseIdx i⟩)
  | .observe n =>
      if s.cached ≤ n ∧ n ≤ s.world.versions.length then some { s with cached := n } else none
  | .read =>
      if s.reading = none ∧ 0 < s.cached then some { s with reading := some s.cached } else none
  | .act f =>
      match s.reading with
      | none => none
      | some v =>
          s.world.versions[s.world.versions.length - v]?.map fun sn =>
            s.reconciled sn (reconcile s.world (s.world.versions.length - v) sn f)
  | .restart n =>
      if n ≤ s.world.versions.length then some { s with cached := n, reading := none } else none

/-- A network that was just created; the operator does not know it yet. -/
def State.initial (spec : Spec) (secrets : GoMap (GoMap Str)) (nodes : List Node)
    (endpoints : Str → Endpoint) : State :=
  ⟨.initial spec secrets nodes endpoints, 0, none, none, false⟩

/-- A list with which the operator starts is not older than its cache was. -/
def keepsTime (s : State) : Event → Bool
  | .restart n => s.cached ≤ n
  | .outside _ | .unmark | .deliver _ _ | .lose _ _ | .observe _ | .read | .act _ => true

/-- A gateway is registered at an endpoint, now or by a PUT that is in flight. -/
def Holds (e : Endpoint) (name : Str) (sig : SIG) : Prop :=
  e.managed[name]? = some sig ∨ ∃ set ∈ e.inFlight, set[name]? = some sig

/-- A network at an endpoint, with one node. -/
def sampleState : State :=
  .initial (specAt "https://a:8642".toList) ∅ [nodeAt "192.0.2.1".toList] fun _ => ⟨∅, []⟩

/-- The gateway of that node, by the addresses that are registered. -/
def sampleSIG : SIG :=
  ⟨"192.0.2.1:30256".toList, "192.0.2.1:30056".toList⟩

/-- A reconcile stores the finalizer and registers the gateway. -/
def sampleStart : List Event :=
  [.observe 1, .read, .act noFailures]

/-- The network is deleted, and the operator reads that. -/
def sampleDeletion : List Event :=
  [.observe 2, .outside .delete, .observe 3, .read]

/-! ### What a reconcile does -/

section Reconcile

variable {w w' : World} {i : ℕ} {sn : ScionNetwork} {f : Failures}

/-- The finalizer is removed from the current version only. -/
theorem release_cases (w : World) (i : ℕ) (sn : ScionNetwork) (f : Failures) (how : Release) :
    release w i sn f how = (w, .failed) ∨
      (i = 0 ∧ release w i sn f how =
        ({ w with versions := { sn with finalizer := false } :: w.versions }, .released how)) := by
  rw [release, updateObject]
  split_ifs with hi
  · exact .inr ⟨hi.1, rfl⟩
  · exact .inl rfl

/-- Where nothing happens, nothing else is in flight. -/
theorem keepInFlight_self (e : Endpoint) : keepInFlight e e = e := by
  rw [keepInFlight, List.drop_length, List.append_nil]

/-- An answered PUT replaces what is registered, and leaves what is in flight. -/
theorem keepInFlight_ok {e token ca : Str} {set : GoMap SIG} {endpoints : Str → Endpoint} :
    keepInFlight (endpoints e) ((ensure (.http e token ca) set .ok endpoints).2 e) =
      ⟨set, (endpoints e).inFlight⟩ := by
  simp [ensure, keepInFlight]

/-- `Ensure` with the empty set registers nothing: what an endpoint holds after it, it held
before. -/
theorem holds_of_ensure {b : Backend} {put : PutOutcome} {endpoints : Str → Endpoint} {e : Str}
    {name : Str} {sig : SIG}
    (h : Holds (keepInFlight (endpoints e) ((ensure b ∅ put endpoints).2 e)) name sig) :
    Holds (endpoints e) name sig := by
  by_cases he : b.endpoint = some e
  · cases b with
    | manual | anapaya => cases he
    | http e' token ca =>
        obtain rfl := Option.some.inj he
        cases put with
        | lost =>
            rw [ensure, keepInFlight_self] at h
            exact h
        | ok =>
            rw [keepInFlight_ok] at h
            exact .inr (h.resolve_left (by simp))
        | inFlight =>
            simp only [ensure, Function.update_self, keepInFlight, List.drop_left] at h
            rcases h with h | ⟨set, hset, h⟩
            · exact .inl h
            · rcases List.mem_append.mp hset with hset | hset
              · exact .inr ⟨set, hset, h⟩
              · rw [List.mem_singleton.mp hset] at h
                simp at h
  · rw [ensure_endpoints b ∅ put endpoints he, keepInFlight_self] at h
    exact h

/-- `Ensure` with the empty set that returns nil leaves only what is in flight. -/
theorem holds_of_ensure_nil {b : Backend} {put : PutOutcome} {endpoints : Str → Endpoint}
    (hnil : (ensure b ∅ put endpoints).1 = .nil) {e : Str} (he : b.endpoint = some e) {name : Str}
    {sig : SIG} (h : Holds (keepInFlight (endpoints e) ((ensure b ∅ put endpoints).2 e)) name sig) :
    ∃ set ∈ (endpoints e).inFlight, set[name]? = some sig := by
  cases b with
  | manual | anapaya => cases he
  | http e' token ca =>
      obtain rfl := Option.some.inj he
      cases put with
      | lost | inFlight => cases hnil
      | ok =>
          rw [keepInFlight_ok] at h
          exact h.resolve_left (by simp)

/-- What a reconcile of a network that is being deleted does: it registers nothing, and it may
release the current version; after a deregistration only what is in flight is left. -/
structure Finalizes (w : World) (i : ℕ) (sn : ScionNetwork) (r : World × Outcome) : Prop where
  versions : (r.1.versions = w.versions ∧ ∀ how, r.2 ≠ .released how) ∨
    (i = 0 ∧ r.1.versions = { sn with finalizer := false } :: w.versions ∧
      ∃ how, r.2 = .released how)
  holds : ∀ e name sig, Holds (r.1.endpoints e) name sig → Holds (w.endpoints e) name sig
  deregistered : r.2 = .released .deregistered → ∀ e, target sn.spec.registrar = some e →
    ∀ name sig, Holds (r.1.endpoints e) name sig →
      ∃ set ∈ (w.endpoints e).inFlight, set[name]? = some sig

/-- A reconcile that finalizes, with the PUTs that stay in flight. -/
theorem finalizes_of_cases {endpoints : Str → Endpoint} {r : World × Outcome}
    (hr : r = ({ w with endpoints := endpoints }, .failed) ∨
      ∃ how, r = release { w with endpoints := endpoints } i sn f how ∧
        (how = .deregistered → ∀ e, target sn.spec.registrar = some e → ∀ name sig,
          Holds (keepInFlight (w.endpoints e) (endpoints e)) name sig →
            ∃ set ∈ (w.endpoints e).inFlight, set[name]? = some sig))
    (hholds : ∀ e name sig, Holds (keepInFlight (w.endpoints e) (endpoints e)) name sig →
      Holds (w.endpoints e) name sig) :
    Finalizes w i sn
      ({ r.1 with endpoints := fun e => keepInFlight (w.endpoints e) (r.1.endpoints e) }, r.2) := by
  have hfailed : Finalizes w i sn
      ({ w with endpoints := fun e => keepInFlight (w.endpoints e) (endpoints e) }, .failed) := by
    refine ⟨.inl ⟨rfl, fun _ h => ?_⟩, hholds, fun h => ?_⟩
    · cases h
    · cases h
  rcases hr with rfl | ⟨how, rfl, hderegistered⟩
  · exact hfailed
  · rcases release_cases { w with endpoints := endpoints } i sn f how with h | ⟨hi, h⟩
    · rw [h]
      exact hfailed
    · rw [h]
      exact ⟨.inr ⟨hi, rfl, how, rfl⟩, hholds, fun h => hderegistered (Outcome.released.inj h)⟩

/-- A reconcile of a network that is being deleted finalizes it. -/
theorem finalizes_reconcile (hdeleting : sn.deleting = true) :
    Finalizes w i sn (reconcile w i sn f) := by
  have hself : ∀ e name sig, Holds (keepInFlight (w.endpoints e) (w.endpoints e)) name sig →
      Holds (w.endpoints e) name sig := fun e name sig h => by rwa [keepInFlight_self] at h
  have hnothing : ∀ outcome, (∀ how, outcome ≠ .released how) → Finalizes w i sn
      ({ w with endpoints := fun e => keepInFlight (w.endpoints e) (w.endpoints e) }, outcome) :=
    fun outcome h => ⟨.inl ⟨rfl, h⟩, hself, fun heq => absurd heq (h _)⟩
  rw [reconcile, Controller.reconcile]
  split_ifs
  · exact hnothing _ fun _ h => by cases h
  rcases finalize_cases w i sn f with h | h | ⟨b, endpoints, hb, rfl, h⟩
  · rw [h]
    exact hnothing _ fun _ h => by cases h
  · exact finalizes_of_cases (.inr ⟨_, h, fun h => by cases h⟩) hself
  · refine finalizes_of_cases (f := f) (h.imp_right ?_) fun e name sig => holds_of_ensure
    rintro ⟨how, h, hnil⟩
    refine ⟨how, h, fun hhow e he name sig => holds_of_ensure_nil (hnil hhow) ?_⟩
    rw [endpoint_of_backendFor hb, he]

/-- What a reconcile of a network that is not being deleted does: it releases nothing, and it
touches the AS only if the version it works on has the finalizer, or after it was added to the
current version. -/
structure Registers (w : World) (i : ℕ) (sn : ScionNetwork) (r : World × Outcome) : Prop where
  versions : (r.1.versions = w.versions ∧ (sn.finalizer = false → r.1.endpoints = w.endpoints)) ∨
    (i = 0 ∧ r.1.versions = { sn with finalizer := true } :: w.versions)
  not_released : ∀ how, r.2 ≠ .released how

/-- Registering gateways writes no version of the network. -/
theorem versions_syncRegistrar (w : World) (sn : ScionNetwork) (f : Failures) :
    (syncRegistrar w sn f).1.versions = w.versions := by
  rw [syncRegistrar]
  split_ifs
  · rfl
  · dsimp only
    split
    · rfl
    · split <;> rfl

/-- A reconcile of a network that is not being deleted registers it. -/
theorem registers_reconcile (hdeleting : sn.deleting = false) :
    Registers w i sn (reconcile w i sn f) := by
  have hafter : ∀ w', (if f.apply then (w', .failed) else syncRegistrar w' sn f).1.versions =
      w'.versions ∧
        ∀ how, (if f.apply then (w', .failed) else syncRegistrar w' sn f).2 ≠ .released how := by
    intro w'
    split_ifs
    · exact ⟨rfl, fun _ h => by cases h⟩
    · exact ⟨versions_syncRegistrar w' sn f, syncRegistrar_ne_released w' sn f⟩
  have hfailed : Registers w i sn
      ({ w with endpoints := fun e => keepInFlight (w.endpoints e) (w.endpoints e) }, .failed) :=
    ⟨.inl ⟨rfl, fun _ => funext fun e => keepInFlight_self _⟩, fun _ h => by cases h⟩
  rw [reconcile]
  by_cases hget : f.get = true
  · rw [Controller.reconcile, if_pos hget]
    exact hfailed
  rw [Controller.reconcile, if_neg hget, if_neg (by rw [hdeleting]; exact Bool.false_ne_true)]
  cases hfin : sn.finalizer with
  | true =>
      obtain ⟨hversions, hnot⟩ := hafter w
      exact ⟨.inl ⟨hversions, fun hno => absurd (hfin.symm.trans hno).symm Bool.false_ne_true⟩,
        hnot⟩
  | false =>
      rw [if_neg Bool.false_ne_true, updateObject]
      by_cases hi : i = 0 ∧ f.update = false
      · rw [if_pos hi]
        obtain ⟨hversions, hnot⟩ := hafter
          { w with versions := { sn with finalizer := true } :: w.versions }
        exact ⟨.inr ⟨hi.1, hversions⟩, hnot⟩
      · rw [if_neg hi]
        exact hfailed

/-- What happens to a network outside of the operator: a version that is written has the finalizer
if the one before has it, and is being deleted if that one is. The AS is not touched. -/
structure Outside (w w' : World) : Prop where
  versions : w'.versions = w.versions ∨ ∃ head sn, w.versions.head? = some head ∧
    w'.versions = sn :: w.versions ∧ (head.deleting = true → sn.deleting = true) ∧
    sn.finalizer = head.finalizer
  endpoints : w'.endpoints = w.endpoints

/-- Edits, deletions and changes of nodes and secrets are such. -/
theorem outside_step {e : Controller.Event} (he : isOutside w e = true)
    (hstep : Controller.step w e = some w') : Outside w w' := by
  cases e with
  | reconcile i f | deliver e | lose e => cases he
  | edit spec =>
      obtain ⟨head, hhead, rfl⟩ := Option.map_eq_some_iff.mp hstep
      exact ⟨.inr ⟨head, _, hhead, rfl, id, rfl⟩, rfl⟩
  | delete =>
      obtain ⟨head, hhead, rfl⟩ := Option.map_eq_some_iff.mp hstep
      exact ⟨.inr ⟨head, _, hhead, rfl, fun _ => rfl, rfl⟩, rfl⟩
  | setSecrets secrets | setNodes nodes =>
      obtain rfl := Option.some.inj hstep
      exact ⟨.inl rfl, rfl⟩

/-- What is known of a release is what the reconcile did, or what was known. -/
theorem releasedBy_cases (released : Option (Release × Option Str)) (sn : ScionNetwork)
    (outcome : Outcome) :
    (∃ how, outcome = .released how ∧
      releasedBy released sn outcome = some (how, target sn.spec.registrar)) ∨
    ((∀ how, outcome ≠ .released how) ∧ releasedBy released sn outcome = released) := by
  cases outcome with
  | released how => exact .inl ⟨how, rfl, rfl⟩
  | failed | synced | syncFailed | nothingToFinalize =>
      exact .inr ⟨fun _ h => (by cases h), rfl⟩

end Reconcile

section Steps

variable {s s' : State}

/-- A reconcile does its work on the version it has read. -/
theorem step_act {f : Failures} (h : step s (.act f) = some s') :
    ∃ v sn, s.reading = some v ∧
      s.world.versions[s.world.versions.length - v]? = some sn ∧
      s' = s.reconciled sn (reconcile s.world (s.world.versions.length - v) sn f) := by
  rw [step] at h
  split at h
  · cases h
  · rename_i v hv
    obtain ⟨sn, hsn, rfl⟩ := Option.map_eq_some_iff.mp h
    exact ⟨v, sn, hv, hsn, rfl⟩

/-- A removal by hand writes a version without the finalizer. -/
theorem step_unmark (h : step s .unmark = some s') :
    ∃ sn, s.world.versions.head? = some sn ∧ s' = { s with
      world := { s.world with versions := { sn with finalizer := false } :: s.world.versions }
      byHand := true } := by
  rw [step] at h
  split_ifs at h
  obtain ⟨sn, hsn, rfl⟩ := Option.map_eq_some_iff.mp h
  exact ⟨sn, hsn, rfl⟩

/-- An endpoint is changed so that it holds nothing that it did not hold before. -/
structure Settles (s s' : State) : Prop where
  eq : s' = { s with world := { s.world with endpoints := s'.world.endpoints } }
  holds : ∀ e name sig, Holds (s'.world.endpoints e) name sig →
    Holds (s.world.endpoints e) name sig

/-- One endpoint is changed so. -/
theorem settles_setEndpoint {e : Str} {endpoint : Endpoint}
    (h : ∀ name sig, Holds endpoint name sig → Holds (s.world.endpoints e) name sig) :
    Settles s (s.setEndpoint e endpoint) := by
  refine ⟨rfl, fun e' name sig hholds => ?_⟩
  rw [State.setEndpoint] at hholds
  dsimp only at hholds
  by_cases he : e' = e
  · subst he
    rw [Function.update_self] at hholds
    exact h name sig hholds
  · rwa [Function.update_of_ne he] at hholds

/-- A PUT that was in flight is applied. -/
theorem settles_deliver {e : Str} {i : ℕ} (h : step s (.deliver e i) = some s') :
    Settles s s' := by
  obtain ⟨set, hset, rfl⟩ := Option.map_eq_some_iff.mp h
  refine settles_setEndpoint fun name sig hholds => ?_
  rcases hholds with hmanaged | ⟨set', hset', hheld⟩
  · exact .inr ⟨set, List.mem_of_getElem? hset, hmanaged⟩
  · exact .inr ⟨set', List.mem_of_mem_eraseIdx hset', hheld⟩

/-- A PUT that was in flight is lost. -/
theorem settles_lose {e : Str} {i : ℕ} (h : step s (.lose e i) = some s') : Settles s s' := by
  obtain rfl := Option.some.inj h
  refine settles_setEndpoint fun name sig hholds => ?_
  rcases hholds with hmanaged | ⟨set', hset', hheld⟩
  · exact .inl hmanaged
  · exact .inr ⟨set', List.mem_of_mem_eraseIdx hset', hheld⟩

end Steps

/-! ### The finalizer comes first -/

/-- Since a version has had the finalizer, the current one has it, or it was removed by the operator
or by hand; and a gateway that was not registered at the start is so only if a version has had
it. -/
structure Guarded (endpoints : Str → Endpoint) (s : State) : Prop where
  marked : ∀ sn ∈ s.world.versions, sn.finalizer = true →
    isMarked s.world.versions = true ∨ s.released.isSome = true ∨ s.byHand = true
  registered : ∀ e name sig, Holds (s.world.endpoints e) name sig →
    Holds (endpoints e) name sig ∨ ∃ sn ∈ s.world.versions, sn.finalizer = true

section Guarded

variable {endpoints : Str → Endpoint} {s : State} {w : World}

/-- Where nothing new is registered and no version disappears, what is registered is still under the
finalizer. -/
theorem Guarded.registered_of_holds (h : Guarded endpoints s)
    (hversions : ∀ sn ∈ s.world.versions, sn ∈ w.versions)
    (hholds : ∀ e name sig, Holds (w.endpoints e) name sig → Holds (s.world.endpoints e) name sig)
    (e : Str) (name : Str) (sig : SIG) (hheld : Holds (w.endpoints e) name sig) :
    Holds (endpoints e) name sig ∨ ∃ sn ∈ w.versions, sn.finalizer = true := by
  refine (h.registered e name sig (hholds e name sig hheld)).imp_right ?_
  rintro ⟨sn, hsn, hfin⟩
  exact ⟨sn, hversions sn hsn, hfin⟩

/-- What happens outside of the operator keeps the finalizer where it is. -/
theorem Guarded.outside (h : Guarded endpoints s) (hw : Outside s.world w) :
    Guarded endpoints { s with world := w } := by
  have hholds : ∀ e name sig, Holds (w.endpoints e) name sig →
      Holds (s.world.endpoints e) name sig := fun e name sig hheld => hw.endpoints ▸ hheld
  rcases hw.versions with hsame | ⟨head, sn, hhead, hcons, -, hfin⟩
  · refine ⟨?_, h.registered_of_holds (fun sn hsn => hsame ▸ hsn) hholds⟩
    dsimp only
    rw [hsame]
    exact h.marked
  · refine ⟨fun sn' hsn' hyes => ?_,
      h.registered_of_holds (fun sn' hsn' => hcons ▸ List.mem_cons_of_mem _ hsn') hholds⟩
    dsimp only at hsn' ⊢
    have hmarked : isMarked w.versions = isMarked s.world.versions := by
      rw [isMarked, isMarked, hcons, hhead]
      exact hfin
    rw [hmarked]
    rw [hcons] at hsn'
    rcases List.mem_cons.mp hsn' with rfl | hold
    · left
      rw [isMarked, hhead]
      exact hfin.symm.trans hyes
    · exact h.marked sn' hold hyes

/-- After a removal by hand nothing is promised until the operator adds the finalizer again. -/
theorem Guarded.unmark (h : Guarded endpoints s) (sn : ScionNetwork) :
    Guarded endpoints { s with
      world := { s.world with versions := { sn with finalizer := false } :: s.world.versions }
      byHand := true } :=
  ⟨fun _ _ _ => .inr (.inr rfl),
    h.registered_of_holds (fun _ hsn => List.mem_cons_of_mem _ hsn) fun _ _ _ hheld => hheld⟩

/-- PUTs that were in flight register nothing new. -/
theorem Guarded.settles {s' : State} (h : Guarded endpoints s) (hs : Settles s s') :
    Guarded endpoints s' := by
  have hregistered := h.registered_of_holds (w := s'.world) (fun sn hsn => by
    rw [hs.eq]
    exact hsn) hs.holds
  refine ⟨?_, hregistered⟩
  rw [hs.eq]
  exact h.marked

/-- A reconcile that writes no version leaves the marks as they are. -/
theorem Guarded.marked_of_same (h : Guarded endpoints s) {sn : ScionNetwork} {r : World × Outcome}
    (hsame : r.1.versions = s.world.versions) (hnot : ∀ how, r.2 ≠ .released how) :
    ∀ sn' ∈ (s.reconciled sn r).world.versions, sn'.finalizer = true →
      isMarked (s.reconciled sn r).world.versions = true ∨
        (s.reconciled sn r).released.isSome = true ∨ (s.reconciled sn r).byHand = true := by
  intro sn' hsn' hyes
  rcases releasedBy_cases s.released sn r.2 with ⟨how, hhow, -⟩ | ⟨-, hreleased⟩
  · exact absurd hhow (hnot how)
  · simp only [State.reconciled, hsame, hreleased] at hsn' ⊢
    cases hmarked : isMarked s.world.versions with
    | true => exact .inl rfl
    | false =>
        rw [Bool.not_false, Bool.and_true, ← hmarked]
        exact h.marked sn' hsn' hyes

/-- A reconcile of a network that is being deleted may release it, and registers nothing. -/
theorem Guarded.finalizes (h : Guarded endpoints s) {i : ℕ} {sn : ScionNetwork}
    {r : World × Outcome} (hr : Finalizes s.world i sn r) :
    Guarded endpoints (s.reconciled sn r) := by
  rcases hr.versions with ⟨hsame, hnot⟩ | ⟨-, hcons, how, hhow⟩
  · exact ⟨h.marked_of_same hsame hnot,
      h.registered_of_holds (fun sn hsn => hsame ▸ hsn) hr.holds⟩
  · refine ⟨fun _ _ _ => .inr (.inl ?_),
      h.registered_of_holds (fun sn hsn => hcons ▸ List.mem_cons_of_mem _ hsn) hr.holds⟩
    rw [State.reconciled, hhow]
    rfl

/-- A reconcile of a network that is not being deleted registers gateways only if the version it
works on has the finalizer, or the one that it writes. -/
theorem Guarded.registers (h : Guarded endpoints s) {i : ℕ} {sn : ScionNetwork}
    (hsn : sn ∈ s.world.versions) {r : World × Outcome} (hr : Registers s.world i sn r) :
    Guarded endpoints (s.reconciled sn r) := by
  rcases hr.versions with ⟨hsame, hendpoints⟩ | ⟨-, hcons⟩
  · refine ⟨h.marked_of_same hsame hr.not_released, fun e name sig hheld => ?_⟩
    rw [State.reconciled] at hheld ⊢
    dsimp only at hheld ⊢
    rw [hsame]
    cases hfin : sn.finalizer with
    | true => exact .inr ⟨sn, hsn, hfin⟩
    | false =>
        rw [hendpoints hfin] at hheld
        exact h.registered e name sig hheld
  · have hmem : { sn with finalizer := true } ∈ r.1.versions := by
      rw [hcons]
      exact List.mem_cons_self
    refine ⟨fun _ _ _ => .inl ?_, fun _ _ _ _ => .inr ⟨_, hmem, rfl⟩⟩
    rw [State.reconciled, isMarked]
    dsimp only
    rw [hcons]
    rfl

/-- Every step keeps the guard: what is registered was registered under the finalizer. -/
theorem guarded_step (s : State) (e : Event) (s' : State) (h : Guarded endpoints s)
    (hstep : step s e = some s') : Guarded endpoints s' := by
  cases e with
  | outside e =>
      rw [step] at hstep
      split_ifs at hstep with he
      obtain ⟨w, hw, rfl⟩ := Option.map_eq_some_iff.mp hstep
      exact h.outside (outside_step he hw)
  | unmark =>
      obtain ⟨sn, -, rfl⟩ := step_unmark hstep
      exact h.unmark sn
  | deliver e i => exact h.settles (settles_deliver hstep)
  | lose e i => exact h.settles (settles_lose hstep)
  | observe n | read | restart n =>
      rw [step] at hstep
      split_ifs at hstep
      obtain rfl := Option.some.inj hstep
      exact ⟨h.marked, h.registered⟩
  | act f =>
      obtain ⟨v, sn, -, hsn, rfl⟩ := step_act hstep
      cases hdeleting : sn.deleting with
      | true => exact h.finalizes (finalizes_reconcile hdeleting)
      | false => exact h.registers (List.mem_of_getElem? hsn) (registers_reconcile hdeleting)

end Guarded

/-- **What is registered is under the finalizer.** In every run, whatever fails and whatever old
versions the operator works on: if an endpoint has a gateway that it did not have at the start, now
or by a PUT in flight, then the current version of the network has the finalizer, or the operator
has released the network, or the finalizer was removed by hand and not added again since. -/
theorem finalizer_of_registered (spec : Spec) (secrets : GoMap (GoMap Str)) (nodes : List Node)
    (endpoints : Str → Endpoint) (events : List Event) (s : State)
    (hrun : Transition.run step (.initial spec secrets nodes endpoints) events = some s) (e : Str)
    (name : Str) (sig : SIG) (hholds : Holds (s.world.endpoints e) name sig)
    (hnew : ¬ Holds (endpoints e) name sig) :
    isMarked s.world.versions = true ∨ s.released.isSome = true ∨ s.byHand = true := by
  have hinitial : Guarded endpoints (.initial spec secrets nodes endpoints) := by
    refine ⟨fun sn hsn hfin => ?_, fun _ _ _ hheld => .inl hheld⟩
    rw [List.mem_singleton.mp hsn] at hfin
    cases hfin
  have h := Transition.run_preserves guarded_step hinitial hrun
  rcases h.registered e name sig hholds with hold | ⟨sn, hsn, hfin⟩
  · exact absurd hold hnew
  · exact h.marked sn hsn hfin

/-- The sample network is registered, its finalizer is removed by hand, and the next reconcile adds
it again. -/
theorem finalizer_of_sampleStart :
    ∃ s, Transition.run step sampleState
        (sampleStart ++ [.unmark, .observe 3, .read, .act noFailures]) = some s ∧
      Holds (s.world.endpoints "https://a:8642".toList) "n1".toList sampleSIG ∧
      isMarked s.world.versions = true := by
  have hend : (Transition.run step sampleState
      (sampleStart ++ [.unmark, .observe 3, .read, .act noFailures])).any (fun s =>
        (s.world.endpoints "https://a:8642".toList).managed["n1".toList]? = some sampleSIG &&
          s.released = none && s.byHand = false) = true := by decide +kernel
  obtain ⟨s, hs, hend⟩ := (Option.any_eq_true _ _).mp hend
  simp only [Bool.and_eq_true, decide_eq_true_eq] at hend
  obtain ⟨⟨hheld, hreleased⟩, hbyHand⟩ := hend
  have hnew : ¬ Holds ⟨∅, []⟩ "n1".toList sampleSIG := by simp [Holds]
  rcases finalizer_of_registered _ _ _ _ _ s hs "https://a:8642".toList "n1".toList sampleSIG
    (.inl hheld) hnew with hmarked | hyes | hyes
  · exact ⟨s, hs, .inl hheld, hmarked⟩
  · rw [hreleased] at hyes
    cases hyes
  · cases hbyHand.symm.trans hyes

/-- **A gateway without a finalizer.** If the finalizer is removed by hand while the network is
being deleted, the network is gone and its gateway stays registered. -/
theorem registered_after_unmark :
    ∃ s, Transition.run step sampleState (sampleStart ++ [.outside .delete, .unmark]) = some s ∧
      isGone s.world = true ∧ s.released = none ∧
      Holds (s.world.endpoints "https://a:8642".toList) "n1".toList sampleSIG := by
  have hend : (Transition.run step sampleState
      (sampleStart ++ [.outside .delete, .unmark])).any (fun s =>
        isGone s.world && s.released = none &&
          (s.world.endpoints "https://a:8642".toList).managed["n1".toList]? = some sampleSIG) =
      true := by decide +kernel
  obtain ⟨s, hs, hend⟩ := (Option.any_eq_true _ _).mp hend
  simp only [Bool.and_eq_true, decide_eq_true_eq] at hend
  obtain ⟨⟨hgone, hreleased⟩, hheld⟩ := hend
  exact ⟨s, hs, hgone, hreleased, .inl hheld⟩

/-! ### Nothing is registered after the release -/

/-- From a version on, all are being deleted. -/
def DeletingFrom (versions : List ScionNetwork) (v : ℕ) : Prop :=
  ∀ i sn, i + v ≤ versions.length → versions[i]? = some sn → sn.deleting = true

section DeletingFrom

variable {versions : List ScionNetwork} {v v' : ℕ} {sn : ScionNetwork}

/-- What is being deleted from a version on is so from every later one on. -/
theorem DeletingFrom.mono (h : DeletingFrom versions v) (hle : v ≤ v') :
    DeletingFrom versions v' :=
  fun i sn hi => h i sn (by omega)

/-- Another version that is being deleted. -/
theorem DeletingFrom.cons (h : DeletingFrom versions v) (hsn : sn.deleting = true) :
    DeletingFrom (sn :: versions) v := by
  intro i sn' hi hsn'
  cases i with
  | zero =>
      obtain rfl := Option.some.inj hsn'
      exact hsn
  | succ i =>
      rw [List.length_cons] at hi
      exact h i sn' (by omega) hsn'

/-- The current version is one of them. -/
theorem DeletingFrom.head (h : DeletingFrom versions v) (hle : v ≤ versions.length)
    (hsn : versions.head? = some sn) : sn.deleting = true :=
  h 0 sn (by omega) (by rwa [← List.head?_eq_getElem?])

end DeletingFrom

/-- What the operator has read exists, and is not newer than its cache. -/
structure Reads (s : State) : Prop where
  cached_le : s.cached ≤ s.world.versions.length
  reading_le : ∀ v, s.reading = some v → v ≤ s.cached

section Reads

variable {s s' : State}

/-- Versions are only added, so that what was read still exists. -/
theorem Reads.grow {w : World} (h : Reads s)
    (hle : s.world.versions.length ≤ w.versions.length) : Reads { s with world := w } :=
  ⟨h.cached_le.trans hle, h.reading_le⟩

/-- No step takes a version away. -/
theorem length_le_step {e : Event} (hstep : step s e = some s') :
    s.world.versions.length ≤ s'.world.versions.length := by
  have hle : ∀ {l : List ScionNetwork}, (l = s.world.versions ∨ ∃ sn, l = sn :: s.world.versions) →
      s.world.versions.length ≤ l.length := by
    rintro l (rfl | ⟨sn, rfl⟩)
    · exact le_rfl
    · exact Nat.le_succ _
  cases e with
  | outside e =>
      rw [step] at hstep
      split_ifs at hstep with he
      obtain ⟨w, hw, rfl⟩ := Option.map_eq_some_iff.mp hstep
      refine hle ((outside_step he hw).versions.imp_right ?_)
      rintro ⟨head, sn, -, hcons, -⟩
      exact ⟨sn, hcons⟩
  | unmark =>
      obtain ⟨sn, -, rfl⟩ := step_unmark hstep
      exact Nat.le_succ _
  | deliver e i =>
      rw [(settles_deliver hstep).eq]
  | lose e i =>
      rw [(settles_lose hstep).eq]
  | observe n | read | restart n =>
      rw [step] at hstep
      split_ifs at hstep
      obtain rfl := Option.some.inj hstep
      exact le_rfl
  | act f =>
      obtain ⟨v, sn, -, -, rfl⟩ := step_act hstep
      cases hdeleting : sn.deleting with
      | true =>
          refine hle ((finalizes_reconcile hdeleting).versions.imp And.left ?_)
          rintro ⟨-, hcons, -⟩
          exact ⟨_, hcons⟩
      | false =>
          refine hle ((registers_reconcile hdeleting).versions.imp And.left ?_)
          rintro ⟨-, hcons⟩
          exact ⟨_, hcons⟩

/-- Every step keeps what the operator has read in order. -/
theorem reads_step (s : State) (e : Event) (s' : State) (h : Reads s)
    (hstep : step s e = some s') : Reads s' := by
  have hlength := length_le_step hstep
  cases e with
  | outside e =>
      rw [step] at hstep
      split_ifs at hstep
      obtain ⟨w, hw, rfl⟩ := Option.map_eq_some_iff.mp hstep
      exact h.grow hlength
  | unmark =>
      obtain ⟨sn, -, rfl⟩ := step_unmark hstep
      exact ⟨h.cached_le.trans hlength, h.reading_le⟩
  | deliver e i =>
      rw [(settles_deliver hstep).eq]
      exact h.grow le_rfl
  | lose e i =>
      rw [(settles_lose hstep).eq]
      exact h.grow le_rfl
  | observe n =>
      rw [step] at hstep
      split_ifs at hstep with hn
      obtain rfl := Option.some.inj hstep
      exact ⟨hn.2, fun v hv => (h.reading_le v hv).trans hn.1⟩
  | read =>
      rw [step] at hstep
      split_ifs at hstep
      obtain rfl := Option.some.inj hstep
      exact ⟨h.cached_le, fun v hv => (Option.some.inj hv).ge⟩
  | act f =>
      obtain ⟨v, sn, -, -, rfl⟩ := step_act hstep
      exact ⟨h.cached_le.trans hlength, fun v hv => (by cases hv)⟩
  | restart n =>
      rw [step] at hstep
      split_ifs at hstep with hn
      obtain rfl := Option.some.inj hstep
      exact ⟨hn, fun v hv => (by cases hv)⟩

end Reads

/-- After the release: all that the operator may still read is being deleted, and nothing is
registered that was not at the release. -/
structure Final (endpoints : Str → Endpoint) (s : State) : Prop extends Reads s where
  deleting : DeletingFrom s.world.versions s.cached
  reading : ∀ v, s.reading = some v → DeletingFrom s.world.versions v
  holds : ∀ e name sig, Holds (s.world.endpoints e) name sig → Holds (endpoints e) name sig

section Final

variable {endpoints : Str → Endpoint} {s s' : State}

/-- A version is added that is being deleted, and nothing is registered. -/
theorem Final.grow {w : World} (h : Final endpoints s) (hreads : Reads { s with world := w })
    (hversions : w.versions = s.world.versions ∨
      ∃ sn, w.versions = sn :: s.world.versions ∧ sn.deleting = true)
    (hholds : ∀ e name sig, Holds (w.endpoints e) name sig →
      Holds (s.world.endpoints e) name sig) : Final endpoints { s with world := w } := by
  have hfrom : ∀ v, DeletingFrom s.world.versions v → DeletingFrom w.versions v := by
    intro v hv
    rcases hversions with hsame | ⟨sn, hcons, hsn⟩
    · rwa [hsame]
    · rw [hcons]
      exact hv.cons hsn
  exact ⟨hreads, hfrom _ h.deleting, fun v hv => hfrom v (h.reading v hv),
    fun e name sig hheld => h.holds e name sig (hholds e name sig hheld)⟩

/-- What the operator still does works on a version that is being deleted. -/
theorem Final.act (h : Final endpoints s) {f : Failures} (hstep : step s (.act f) = some s') :
    Final endpoints s' := by
  have hreads := reads_step s _ s' h.toReads hstep
  obtain ⟨v, sn, hv, hsn, rfl⟩ := step_act hstep
  have hle := (h.reading_le v hv).trans h.cached_le
  have hdeleting : sn.deleting = true := h.reading v hv _ sn (by omega) hsn
  have hr : Finalizes s.world (s.world.versions.length - v) sn
      (reconcile s.world (s.world.versions.length - v) sn f) := finalizes_reconcile hdeleting
  have hgrown := h.grow (w := (reconcile s.world (s.world.versions.length - v) sn f).1)
    ⟨hreads.cached_le, fun v' hv' => h.reading_le v' hv'⟩ (hr.versions.imp And.left ?_) hr.holds
  · exact { hreads with
      deleting := hgrown.deleting
      reading := fun _ hv' => (by cases hv')
      holds := hgrown.holds }
  · rintro ⟨-, hcons, -⟩
    exact ⟨_, hcons, hdeleting⟩

/-- What is edited is being deleted already, and stays so. -/
theorem Final.outside (h : Final endpoints s) {e : Controller.Event}
    (hstep : step s (.outside e) = some s') : Final endpoints s' := by
  have hreads := reads_step s _ s' h.toReads hstep
  rw [step] at hstep
  split_ifs at hstep with he
  obtain ⟨w, hw, rfl⟩ := Option.map_eq_some_iff.mp hstep
  have houtside := outside_step he hw
  refine h.grow hreads (houtside.versions.imp_right ?_) fun e name sig hheld =>
    houtside.endpoints ▸ hheld
  rintro ⟨head, sn, hhead, hcons, hdeleting, -⟩
  exact ⟨sn, hcons, hdeleting (h.deleting.head h.cached_le hhead)⟩

/-- So does what loses its finalizer. -/
theorem Final.unmark (h : Final endpoints s) (hstep : step s .unmark = some s') :
    Final endpoints s' := by
  have hreads := reads_step s _ s' h.toReads hstep
  obtain ⟨sn, hhead, rfl⟩ := step_unmark hstep
  have hdeleting : sn.deleting = true := h.deleting.head h.cached_le hhead
  have hgrown := h.grow (w := { s.world with
    versions := { sn with finalizer := false } :: s.world.versions })
    ⟨hreads.cached_le, hreads.reading_le⟩ (.inr ⟨_, rfl, hdeleting⟩) fun _ _ _ hheld => hheld
  exact { hreads with
    deleting := hgrown.deleting, reading := hgrown.reading, holds := hgrown.holds }

/-- Every step keeps it, if lists are not older than the cache was. -/
theorem final_step (s : State) (e : Event) (s' : State) (h : Final endpoints s)
    (hkeeps : keepsTime s e = true) (hstep : step s e = some s') : Final endpoints s' := by
  have hreads := reads_step s e s' h.toReads hstep
  cases e with
  | outside e => exact h.outside hstep
  | unmark => exact h.unmark hstep
  | deliver e i =>
      have hs := settles_deliver hstep
      rw [hs.eq] at hreads ⊢
      exact h.grow hreads (.inl rfl) hs.holds
  | lose e i =>
      have hs := settles_lose hstep
      rw [hs.eq] at hreads ⊢
      exact h.grow hreads (.inl rfl) hs.holds
  | observe n =>
      rw [step] at hstep
      split_ifs at hstep with hn
      obtain rfl := Option.some.inj hstep
      exact { hreads with
        deleting := h.deleting.mono hn.1, reading := h.reading, holds := h.holds }
  | read =>
      rw [step] at hstep
      split_ifs at hstep
      obtain rfl := Option.some.inj hstep
      refine { hreads with deleting := h.deleting, reading := fun v hv => ?_, holds := h.holds }
      obtain rfl := Option.some.inj hv
      exact h.deleting
  | act f => exact h.act hstep
  | restart n =>
      rw [keepsTime, decide_eq_true_eq] at hkeeps
      rw [step] at hstep
      split_ifs at hstep
      obtain rfl := Option.some.inj hstep
      exact { hreads with
        deleting := h.deleting.mono hkeeps
        reading := fun v hv => (by cases hv)
        holds := h.holds }

/-- What is known when the operator releases a network: only the current version can be released, so
the cache has it, and it is being deleted. After a deregistration only what is in flight is left at
the endpoint. -/
theorem final_of_release (h : Reads s) {f : Failures} (hstep : step s (.act f) = some s')
    (hbefore : s.released = none) {how : Release} {t : Option Str}
    (hreleased : s'.released = some (how, t)) :
    Final s'.world.endpoints s' ∧ (how = .deregistered → ∀ e, t = some e →
      ∀ name sig, Holds (s'.world.endpoints e) name sig →
        ∃ set ∈ (s.world.endpoints e).inFlight, set[name]? = some sig) := by
  have hreads := reads_step s _ s' h hstep
  obtain ⟨v, sn, hv, hsn, rfl⟩ := step_act hstep
  have hvle := h.reading_le v hv
  have hcached := h.cached_le
  rw [State.reconciled, hbefore] at hreleased
  rcases releasedBy_cases none sn
    (reconcile s.world (s.world.versions.length - v) sn f).2 with ⟨how', hhow, hby⟩ | ⟨-, hby⟩
  swap
  · cases hby.symm.trans hreleased
  obtain ⟨rfl, rfl⟩ := Prod.mk.inj (Option.some.inj (hby.symm.trans hreleased))
  cases hdeleting : sn.deleting with
  | false => exact absurd hhow ((registers_reconcile hdeleting).not_released _)
  | true =>
      have hr : Finalizes s.world (s.world.versions.length - v) sn
          (reconcile s.world (s.world.versions.length - v) sn f) := finalizes_reconcile hdeleting
      refine ⟨{ hreads with
        deleting := ?_
        reading := fun _ hv' => (by cases hv')
        holds := fun _ _ _ hheld => hheld }, fun hderegistered e he => ?_⟩
      · rcases hr.versions with ⟨-, hnot⟩ | ⟨hi, hcons, -⟩
        · exact absurd hhow (hnot _)
        · have hfrom : DeletingFrom s.world.versions s.cached := by
            intro i sn' hle hsn'
            obtain rfl : i = 0 := by omega
            rw [hi] at hsn
            obtain rfl := Option.some.inj (hsn.symm.trans hsn')
            exact hdeleting
          rw [State.reconciled]
          dsimp only
          rw [hcons]
          exact hfrom.cons hdeleting
      · rw [hderegistered] at hhow
        exact hr.deregistered hhow e he

end Final

/-- **Nothing is registered after the release.** Take any run up to a reconcile that releases the
network, and whatever happens from then on, as long as no restarted operator starts with a list that
is older than its cache was. Then no endpoint ever has a gateway, registered or in flight, that it
did not have at the release. If the release followed a deregistration, then all that the endpoint
has at any later time comes from PUTs that were given up before and in flight at the release: none,
if none were. -/
theorem deregistered_for_good (spec : Spec) (secrets : GoMap (GoMap Str)) (nodes : List Node)
    (endpoints : Str → Endpoint) (events later : List Event) (f : Failures) (s s' s'' : State)
    (how : Release) (t : Option Str)
    (hrun : Transition.run step (.initial spec secrets nodes endpoints) events = some s)
    (hact : step s (.act f) = some s') (hbefore : s.released = none)
    (hreleased : s'.released = some (how, t))
    (hlater : Transition.run step s' later = some s'')
    (hkeeps : Transition.Always step (fun s e => keepsTime s e = true) s' later) :
    (∀ e name sig, Holds (s''.world.endpoints e) name sig →
      Holds (s'.world.endpoints e) name sig) ∧
    (how = .deregistered → ∀ e, t = some e → ∀ name sig,
      Holds (s''.world.endpoints e) name sig →
        ∃ set ∈ (s.world.endpoints e).inFlight, set[name]? = some sig) := by
  have hinitial : Reads (.initial spec secrets nodes endpoints) :=
    ⟨Nat.zero_le _, fun _ hv => (by cases hv)⟩
  have hreads := Transition.run_preserves reads_step hinitial hrun
  obtain ⟨hfinal, hleft⟩ := final_of_release hreads hact hbefore hreleased
  have h := Transition.run_invariant final_step hfinal hkeeps hlater
  exact ⟨h.holds, fun hhow e he name sig hheld =>
    hleft hhow e he name sig (h.holds e name sig hheld)⟩

/-- The operator reads the sample network once more after it has released it, and reconciles the
version before the release. -/
def sampleLater : List Event :=
  [.read, .act noFailures, .restart 4, .read, .act noFailures]

/-- The gateway of the sample network is not registered again. -/
theorem deregistered_of_sampleLater :
    ∃ s s' s'', Transition.run step sampleState (sampleStart ++ sampleDeletion) = some s ∧
      step s (.act noFailures) = some s' ∧ Transition.run step s' sampleLater = some s'' ∧
      Holds (s.world.endpoints "https://a:8642".toList) "n1".toList sampleSIG ∧
      ∀ name sig, ¬ Holds (s''.world.endpoints "https://a:8642".toList) name sig := by
  have hend : (Transition.run step sampleState (sampleStart ++ sampleDeletion)).any (fun s =>
      s.released = none && (s.world.endpoints "https://a:8642".toList).inFlight = [] &&
        (s.world.endpoints "https://a:8642".toList).managed["n1".toList]? = some sampleSIG &&
          (step s (.act noFailures)).any fun s' =>
            s'.released = some (.deregistered, some "https://a:8642".toList) &&
              decide (Transition.Always step (fun s e => keepsTime s e = true) s' sampleLater) &&
                (Transition.run step s' sampleLater).isSome) = true := by decide +kernel
  obtain ⟨s, hs, hend⟩ := (Option.any_eq_true _ _).mp hend
  simp only [Bool.and_eq_true, decide_eq_true_eq] at hend
  obtain ⟨⟨⟨hbefore, hempty⟩, hheld⟩, hend⟩ := hend
  obtain ⟨s', hs', hend⟩ := (Option.any_eq_true _ _).mp hend
  simp only [Bool.and_eq_true, decide_eq_true_eq] at hend
  obtain ⟨⟨hreleased, hkeeps⟩, hlater⟩ := hend
  obtain ⟨s'', hs''⟩ := Option.isSome_iff_exists.mp hlater
  obtain ⟨-, hleft⟩ := deregistered_for_good _ _ _ _ _ sampleLater noFailures s s' s'' _ _ hs hs'
    hbefore hreleased hs'' hkeeps
  refine ⟨s, s', s'', hs, hs', hs'', .inl hheld, fun name sig hholds => ?_⟩
  obtain ⟨set, hset, -⟩ := hleft rfl _ rfl name sig hholds
  rw [hempty] at hset
  cases hset

/-- **A PUT from the past.** If a PUT that the operator gave up is applied only after the network
was released, the gateway is registered, and nothing will remove it. -/
theorem registered_after_late_put :
    ∃ s, Transition.run step sampleState
        ([.observe 1, .read, .act { noFailures with put := .inFlight }] ++ sampleDeletion ++
          [.act noFailures, .deliver "https://a:8642".toList 0]) = some s ∧
      s.released = some (.deregistered, some "https://a:8642".toList) ∧ isGone s.world = true ∧
      Holds (s.world.endpoints "https://a:8642".toList) "n1".toList sampleSIG := by
  have hend : (Transition.run step sampleState
      ([.observe 1, .read, .act { noFailures with put := .inFlight }] ++ sampleDeletion ++
        [.act noFailures, .deliver "https://a:8642".toList 0])).any (fun s =>
          s.released = some (.deregistered, some "https://a:8642".toList) && isGone s.world &&
            (s.world.endpoints "https://a:8642".toList).managed["n1".toList]? =
              some sampleSIG) = true := by decide +kernel
  obtain ⟨s, hs, hend⟩ := (Option.any_eq_true _ _).mp hend
  simp only [Bool.and_eq_true, decide_eq_true_eq] at hend
  obtain ⟨⟨hreleased, hgone⟩, hheld⟩ := hend
  exact ⟨s, hs, hreleased, hgone, .inl hheld⟩

/-- **A list from the past.** If the restarted operator starts with a list in which the network is
not being deleted yet, it registers the gateway once more, and nothing will remove it. -/
theorem registered_after_old_list :
    ∃ s, Transition.run step sampleState (sampleStart ++ sampleDeletion ++
        [.act noFailures, .restart 2, .read, .act noFailures]) = some s ∧
      s.released = some (.deregistered, some "https://a:8642".toList) ∧ isGone s.world = true ∧
      Holds (s.world.endpoints "https://a:8642".toList) "n1".toList sampleSIG := by
  have hend : (Transition.run step sampleState (sampleStart ++ sampleDeletion ++
      [.act noFailures, .restart 2, .read, .act noFailures])).any (fun s =>
          s.released = some (.deregistered, some "https://a:8642".toList) && isGone s.world &&
            (s.world.endpoints "https://a:8642".toList).managed["n1".toList]? =
              some sampleSIG) = true := by decide +kernel
  obtain ⟨s, hs, hend⟩ := (Option.any_eq_true _ _).mp hend
  simp only [Bool.and_eq_true, decide_eq_true_eq] at hend
  obtain ⟨⟨hreleased, hgone⟩, hheld⟩ := hend
  exact ⟨s, hs, hreleased, hgone, .inl hheld⟩

end ScionOperator.Registration
