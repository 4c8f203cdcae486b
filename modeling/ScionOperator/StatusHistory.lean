import Mathlib.Data.List.Chain
import ScionOperator.RegistrarSync

/-!
# The History of the Status

Every status that is persisted is made from the one before it: conditions are replaced by their
type, and the ISD-AS is filled in once (`meta.SetStatusCondition`, `discoverISDAS`). A reconcile
that worked on an old version persists nothing, so what it knew is never brought back.

So over the whole life of the object a condition that was reported stays, its time of transition
changes only with its status, no type of condition is reported twice, and an ISD-AS that was
found out is never changed again, not even if the spec points to another AS.

## Main results

* `evolves_setAll`: setting conditions of different types keeps all conditions and the times of
  those whose status stays.
* `history_of_run`: **every version that is ever persisted follows from the one before it.**
-/

namespace ScionOperator.Sync

open Text Status

/-! ### Setting conditions -/

/-- Set some conditions, one after another. -/
def setAll (now : ℤ) (updates : List ConditionUpdate) (conditions : List Condition) :
    List Condition :=
  updates.foldl (fun conditions new => setStatusCondition now new conditions) conditions

/-- From some conditions to others: what was reported still is, and its time is kept if its
status is. -/
def Evolves (old new : List Condition) : Prop :=
  ∀ type c, findStatusCondition type old = some c →
    ∃ c', findStatusCondition type new = some c' ∧
      (c'.status = c.status → c'.lastTransitionTime = c.lastTransitionTime)

/-- Nothing is changed. -/
theorem Evolves.refl (conditions : List Condition) : Evolves conditions conditions :=
  fun _ c hc => ⟨c, hc, fun _ => rfl⟩

/-- Conditions of other types are found as before. -/
theorem findStatusCondition_setStatusCondition_of_ne {now : ℤ} {new : ConditionUpdate}
    {type : Str} (h : new.type ≠ type) (conditions : List Condition) :
    findStatusCondition type (setStatusCondition now new conditions) =
      findStatusCondition type conditions := by
  induction conditions with
  | nil => simp [setStatusCondition, findStatusCondition, h]
  | cons c cs ih =>
      by_cases hc : c.type = new.type
      · have hne : c.type ≠ type := fun heq => h (hc.symm.trans heq)
        rw [setStatusCondition, if_pos hc]
        simp [findStatusCondition, h, hne]
      · rw [setStatusCondition, if_neg hc]
        simp only [findStatusCondition, List.find?_cons] at ih ⊢
        rw [ih]

/-- Setting one condition. -/
theorem evolves_setStatusCondition (now : ℤ) (new : ConditionUpdate)
    (conditions : List Condition) :
    Evolves conditions (setStatusCondition now new conditions) := by
  intro type c hc
  by_cases htype : new.type = type
  · -- the first condition of this type is the one that is replaced
    induction conditions with
    | nil => cases hc
    | cons d ds ih =>
        by_cases hd : d.type = new.type
        · rw [setStatusCondition, if_pos hd]
          have hfound : findStatusCondition type (d :: ds) = some d :=
            List.find?_cons_of_pos (by simp [hd, htype])
          obtain rfl := Option.some.inj (hfound.symm.trans hc)
          refine ⟨_, List.find?_cons_of_pos (by simp [htype]), fun hstatus => ?_⟩
          exact if_pos hstatus.symm
        · rw [setStatusCondition, if_neg hd]
          have hne : d.type ≠ type := fun heq => hd (heq.trans htype.symm)
          have hskip : ∀ l, findStatusCondition type (d :: l) = findStatusCondition type l :=
            fun l => List.find?_cons_of_neg (by simp [hne])
          rw [hskip] at hc ⊢
          exact ih hc
  · rw [findStatusCondition_setStatusCondition_of_ne htype]
    exact ⟨c, hc, fun _ => rfl⟩

/-- Conditions of types that are not set are found as before. -/
theorem findStatusCondition_setAll_of_notMem {now : ℤ} {updates : List ConditionUpdate}
    {type : Str} (h : type ∉ updates.map ConditionUpdate.type) (conditions : List Condition) :
    findStatusCondition type (setAll now updates conditions) =
      findStatusCondition type conditions := by
  induction updates generalizing conditions with
  | nil => rfl
  | cons new updates ih =>
      rw [List.map_cons, List.mem_cons, not_or] at h
      rw [setAll, List.foldl_cons, ← setAll, ih h.2,
        findStatusCondition_setStatusCondition_of_ne (Ne.symm h.1)]

/-- Setting conditions of different types. -/
theorem evolves_setAll (now : ℤ) {updates : List ConditionUpdate}
    (hdistinct : (updates.map ConditionUpdate.type).Nodup) (conditions : List Condition) :
    Evolves conditions (setAll now updates conditions) := by
  induction updates generalizing conditions with
  | nil => exact .refl conditions
  | cons new updates ih =>
      rw [List.map_cons, List.nodup_cons] at hdistinct
      intro type c hc
      rw [setAll, List.foldl_cons, ← setAll]
      by_cases htype : new.type = type
      · rw [findStatusCondition_setAll_of_notMem (htype ▸ hdistinct.1)]
        exact evolves_setStatusCondition now new conditions type c hc
      · refine ih hdistinct.2 _ type c ?_
        rw [findStatusCondition_setStatusCondition_of_ne htype, hc]

/-! ### The types of the conditions -/

/-- The types of conditions the operator reports. -/
def conditionTypes : List Str :=
  ["Available".toList, "Progressing".toList, "Degraded".toList]

/-- Only these types are reported, and none twice. -/
def WellTyped (conditions : List Condition) : Prop :=
  (conditions.map fun c => c.type).Nodup ∧ ∀ c ∈ conditions, c.type ∈ conditionTypes

/-- The types of conditions after one was set. -/
theorem map_type_setStatusCondition (now : ℤ) (new : ConditionUpdate)
    (conditions : List Condition) :
    (setStatusCondition now new conditions).map (fun c => c.type) =
      if new.type ∈ conditions.map (fun c => c.type) then conditions.map fun c => c.type
      else conditions.map (fun c => c.type) ++ [new.type] := by
  induction conditions with
  | nil => simp [setStatusCondition]
  | cons c cs ih =>
      rw [setStatusCondition]
      by_cases hc : c.type = new.type
      · simp [hc]
      · rw [if_neg hc, List.map_cons, ih]
        by_cases hmem : new.type ∈ cs.map fun c => c.type
        · simp [hmem]
        · simp [hmem, Ne.symm hc]

/-- Setting a condition of a known type. -/
theorem wellTyped_setStatusCondition {now : ℤ} {new : ConditionUpdate}
    {conditions : List Condition} (h : WellTyped conditions) (hnew : new.type ∈ conditionTypes) :
    WellTyped (setStatusCondition now new conditions) := by
  have hmem : ∀ type ∈ (setStatusCondition now new conditions).map (fun c => c.type),
      type ∈ conditionTypes := by
    rw [map_type_setStatusCondition]
    intro type htype
    have hold : type ∈ conditions.map (fun c => c.type) → type ∈ conditionTypes := fun hin => by
      obtain ⟨c, hc, rfl⟩ := List.mem_map.mp hin
      exact h.2 c hc
    split_ifs at htype
    · exact hold htype
    · rcases List.mem_append.mp htype with htype | htype
      · exact hold htype
      · exact List.mem_singleton.mp htype ▸ hnew
  refine ⟨?_, fun c hc => hmem _ (List.mem_map_of_mem hc)⟩
  rw [map_type_setStatusCondition]
  split_ifs with hin
  · exact h.1
  · exact List.nodup_append.mpr ⟨h.1, List.nodup_singleton _, fun a ha b hb hab =>
      hin (List.mem_singleton.mp hb ▸ hab ▸ ha)⟩

/-! ### One status after another -/

/-- A status follows from another one. -/
structure Follows (new old : NetworkStatus) : Prop where
  conditions : Evolves old.conditions new.conditions
  isdAS : old.isdAS ≠ [] → new.isdAS = old.isdAS

/-- A status that is left as it is. -/
theorem Follows.refl (status : NetworkStatus) : Follows status status :=
  ⟨.refl _, fun _ => rfl⟩

/-- A status that is made by setting conditions of known types. -/
theorem follows_of_setAll {old new : NetworkStatus} {now : ℤ} {updates : List ConditionUpdate}
    (hdistinct : (updates.map ConditionUpdate.type).Nodup)
    (hconditions : new.conditions = setAll now updates old.conditions)
    (hisdAS : old.isdAS ≠ [] → new.isdAS = old.isdAS) : Follows new old :=
  ⟨hconditions ▸ evolves_setAll now hdistinct old.conditions, hisdAS⟩

/-- The ISD-AS is filled in at most once, and no condition is touched. -/
theorem discoverISDAS_spec (call : Call) (status : NetworkStatus) :
    (discoverISDAS call status).conditions = status.conditions ∧
      (status.isdAS ≠ [] → (discoverISDAS call status).isdAS = status.isdAS) := by
  rw [discoverISDAS]
  split_ifs with h
  · exact ⟨rfl, fun _ => rfl⟩
  · rw [not_or, not_not, not_not] at h
    refine ⟨?_, fun hne => absurd h.2 hne⟩
    cases call.discovered with
    | none => rfl
    | some ia => dsimp only; split_ifs <;> rfl

/-- The conditions that an update sets. -/
def updatesOf (call : Call) : List ConditionUpdate :=
  [call.observed.availableCond call.generation,
    setCond call.generation "Progressing" call.observed.progressing "Rollout".toList
      call.observed.readyMsg,
    setCond call.generation "Degraded" (call.observed.degradedReason call.backend).1
      (call.observed.degradedReason call.backend).2.1
      (call.observed.degradedReason call.backend).2.2]

/-- Their types. -/
theorem map_type_updatesOf (call : Call) :
    (updatesOf call).map ConditionUpdate.type = conditionTypes := by
  have havailable : (call.observed.availableCond call.generation).type = "Available".toList := by
    rw [Observed.availableCond]
    split_ifs <;> rfl
  rw [updatesOf, List.map_cons, havailable]
  rfl

/-- The conditions of a status that is persisted: the `Degraded` one was set, or all three. -/
theorem conditions_of_persisted {status : NetworkStatus} {gauge : ℕ} {call : Call}
    (h : (Status.reconcile ⟨status, gauge⟩ call).persisted = true) :
    ∃ updates, (updates.map ConditionUpdate.type).Sublist conditionTypes ∧
      (Status.reconcile ⟨status, gauge⟩ call).world.status.conditions =
        setAll call.observed.now updates status.conditions ∧
      (status.isdAS ≠ [] →
        (Status.reconcile ⟨status, gauge⟩ call).world.status.isdAS = status.isdAS) := by
  obtain ⟨hwrite, ⟨message, -, hworld⟩ | ⟨-, hlist, hworld⟩⟩ := cases_of_persisted h
  · refine ⟨[setCond call.generation "Degraded" true "ApplyFailed".toList message], ?_, ?_, ?_⟩
    · exact .cons _ (.cons _ (.refl _))
    · rw [hworld, markApplyFailed, World.write, if_pos hwrite]
      rfl
    · rw [hworld, markApplyFailed, World.write, if_pos hwrite]
      exact fun _ => rfl
  · obtain ⟨hconditions, hisdAS⟩ := discoverISDAS_spec call status
    refine ⟨updatesOf call, by rw [map_type_updatesOf], ?_, ?_⟩
    · rw [hworld, status_updateStatus hlist hwrite, ← hconditions]
      rfl
    · rw [hworld, status_updateStatus hlist hwrite]
      exact hisdAS

/-- Setting conditions of known types. -/
theorem wellTyped_setAll {now : ℤ} {updates : List ConditionUpdate} {conditions : List Condition}
    (h : WellTyped conditions) (hnew : ∀ new ∈ updates, new.type ∈ conditionTypes) :
    WellTyped (setAll now updates conditions) := by
  induction updates generalizing conditions with
  | nil => exact h
  | cons new updates ih =>
      rw [List.forall_mem_cons] at hnew
      exact ih (wellTyped_setStatusCondition h hnew.1) hnew.2

/-- The types are different. -/
theorem conditionTypes_nodup : conditionTypes.Nodup := by decide +kernel

/-- **What is persisted follows from what was read**, and is well typed if that was. -/
theorem follows_of_persisted {status : NetworkStatus} {gauge : ℕ} {call : Call}
    (h : (Status.reconcile ⟨status, gauge⟩ call).persisted = true) :
    Follows (Status.reconcile ⟨status, gauge⟩ call).world.status status ∧
      (WellTyped status.conditions →
        WellTyped (Status.reconcile ⟨status, gauge⟩ call).world.status.conditions) := by
  obtain ⟨updates, hsublist, hconditions, hisdAS⟩ := conditions_of_persisted h
  refine ⟨follows_of_setAll (conditionTypes_nodup.sublist hsublist) hconditions hisdAS, ?_⟩
  intro hold
  rw [hconditions]
  exact wellTyped_setAll hold fun new hnew => hsublist.subset (List.mem_map_of_mem hnew)

/-! ### The whole history -/

/-- Every version follows from the one before it, and is well typed. -/
structure History (versions : List Version) : Prop where
  chain : versions.IsChain fun new old => Follows new.status old.status
  wellTyped : ∀ v ∈ versions, WellTyped v.status.conditions

/-- A history goes on with a version that follows. -/
theorem History.cons {v v' : Version} {versions : List Version} (h : History (v :: versions))
    (hfollows : Follows v'.status v.status)
    (htyped : WellTyped v.status.conditions → WellTyped v'.status.conditions) :
    History (v' :: v :: versions) where
  chain := .cons_cons hfollows h.chain
  wellTyped := List.forall_mem_cons.mpr
    ⟨htyped (h.wellTyped v List.mem_cons_self), h.wellTyped⟩

/-- A write that is refused is not persisted. -/
theorem isPersisted_refused (write : Write) : (refused write).isPersisted = false := by
  cases write <;> rfl

/-- A reconcile that read an old version adds nothing: it is refused. -/
theorem reconcile_of_ne_zero {w : World} {i : ℕ} (hi : i ≠ 0) (v : Version) (a : Attempt) :
    (reconcile w i v a).1 = [] := by
  have hadd : (v.network.finalizer || (a.callFor i v).addFinalizerFails) = true := by
    simp [Attempt.callFor, hi]
  have hwrite : (a.callFor i v).write.isPersisted = false := by
    rw [Attempt.callFor, if_neg hi]
    exact isPersisted_refused a.call.write
  have hpersisted : (Status.reconcile ⟨v.status, w.gauge⟩ (a.callFor i v)).persisted = false := by
    rw [Bool.eq_false_iff]
    exact fun h => Bool.false_ne_true (hwrite.symm.trans (cases_of_persisted h).1)
  rw [reconcile]
  split_ifs
  · rfl
  · simp_all
  · rfl
  · simp only [hadd, hpersisted, if_true, Bool.false_eq_true, if_false, List.append_nil]

/-- A reconcile goes on with the history. -/
theorem History.reconcile {w : World} {v : Version} {versions : List Version}
    (h : History (v :: versions)) (a : Attempt) :
    History ((Sync.reconcile w 0 v a).1 ++ v :: versions) := by
  rw [Sync.reconcile]
  split_ifs
  · exact h
  · exact h.cons (.refl _) id
  · exact h
  · -- the finalizer is added first, and the status is written over that
    dsimp only
    generalize a.callFor 0 v = call
    cases v.network.finalizer || call.addFinalizerFails <;>
      cases hpersisted : (Status.reconcile ⟨v.status, w.gauge⟩ call).persisted
    case true.false => exact h
    case false.false => exact h.cons (.refl _) id
    case true.true =>
      obtain ⟨hfollows, htyped⟩ := follows_of_persisted hpersisted
      exact h.cons hfollows htyped
    case false.true =>
      obtain ⟨hfollows, htyped⟩ := follows_of_persisted hpersisted
      have hadded : History
          ({ v with network := { v.network with finalizer := true } } :: v :: versions) :=
        h.cons (.refl _) id
      exact hadded.cons hfollows htyped

/-- One step goes on with the history. -/
theorem history_step (w : World) (event : Event) (w' : World) (h : History w.versions)
    (hstep : step w event = some w') : History w'.versions := by
  cases event with
  | edit network generation =>
      obtain ⟨v, hv, rfl⟩ := Option.map_eq_some_iff.mp hstep
      obtain ⟨versions, hversions⟩ := List.head?_eq_some_iff.mp hv
      rw [hversions] at h ⊢
      exact h.cons (.refl _) id
  | reconcile i a =>
      obtain ⟨v, hv, rfl⟩ := Option.map_eq_some_iff.mp hstep
      by_cases hi : i = 0
      · subst hi
        rw [← List.head?_eq_getElem?] at hv
        obtain ⟨versions, hversions⟩ := List.head?_eq_some_iff.mp hv
        dsimp only
        rw [hversions] at h ⊢
        exact h.reconcile a
      · dsimp only
        rw [reconcile_of_ne_zero hi]
        exact h

/-- **The history of the status.** After any run from an empty status: every version that was ever
persisted has each of its conditions at most once; and against the version before it, no
condition is missing, the time of one whose status is the same is the same, and an ISD-AS that
was known is the same. -/
theorem history_of_run {network : Controller.ScionNetwork} {events : List Event} {w : World}
    (hrun : Transition.run step (.initial network) events = some w) : History w.versions := by
  refine Transition.run_preserves history_step ⟨.singleton _, fun v hv => ?_⟩ hrun
  obtain rfl := List.mem_singleton.mp hv
  exact ⟨List.nodup_nil, nofun⟩

/-- Two reconciles of the current version, and one of an old version that persists nothing. -/
theorem history_of_failing_sync :
    ∃ w, Transition.run step (.initial sampleNetwork)
        [.reconcile 0 (sampleAttempt 7 false), .reconcile 0 (sampleAttempt 9 true),
          .reconcile 2 (sampleAttempt 11 false)] = some w ∧
      w.versions.length = 4 ∧ History w.versions := by
  have hlength : ((Transition.run step (.initial sampleNetwork)
      [.reconcile 0 (sampleAttempt 7 false), .reconcile 0 (sampleAttempt 9 true),
        .reconcile 2 (sampleAttempt 11 false)]).map fun w => w.versions.length) = some 4 := by
    decide +kernel
  obtain ⟨w, hw, hlength⟩ := Option.map_eq_some_iff.mp hlength
  exact ⟨w, hw, hlength, history_of_run hw⟩

end ScionOperator.Sync
