import ScionOperator.CreateOrUpdate
import ScionOperator.Render

/-!
# Owner References

Objects refer to the objects that own them, and at most one of the owners is their controller. The
operator makes the `ScionNetwork` the controller of what it creates (`SetControllerReference`), so
that it is collected when the network is gone. A reference to the network is replaced by one with
its present UID, the references to other owners are kept, and an object that something else
controls is refused.

## Main results

* `setControllerReference_eq_ok_iff`: a controller can be set exactly if there is no other one.
* `Owns.addsOwned`: what creating or updating does to the owners of an object, whatever fails.
* `Owns.eq_none_iff`: **without trouble it succeeds exactly if nothing else controls the object.**
-/

namespace ScionOperator.Apply

open Text Render CreateOrUpdate

/-! ### Setting a controller -/

/-- Whether two references are to the same object, of whatever UID (`referSameObject`). -/
def sameObject (a b : OwnerReference) : Bool :=
  a.group = b.group && a.kind = b.kind && a.name = b.name

/-- The first reference to a controller (`GetControllerOf`). -/
def getControllerOf (refs : List OwnerReference) : Option OwnerReference :=
  refs.find? OwnerReference.controller

/-- Replace the first reference to the same object, or add the reference (`upsertOwnerRef`). -/
def upsertOwnerRef (ref : OwnerReference) : List OwnerReference → List OwnerReference
  | [] => [ref]
  | r :: rs => if sameObject r ref then ref :: rs else r :: upsertOwnerRef ref rs

/-- The text of the error that an object has another controller (`AlreadyOwnedError`). -/
def alreadyOwned (key : Str) (other : OwnerReference) : Str :=
  "Object ".toList ++ key ++ " is already owned by another ".toList ++ other.kind ++
    " controller ".toList ++ other.name

/-- Make an object the controller of another one (`SetControllerReference`). -/
def setControllerReference (key : Str) (ref : OwnerReference) (refs : List OwnerReference) :
    Except Str (List OwnerReference) :=
  match getControllerOf refs with
  | some existing =>
      if sameObject existing ref then .ok (upsertOwnerRef ref refs)
      else .error (alreadyOwned key existing)
  | none => .ok (upsertOwnerRef ref refs)

/-- The references have another controller. -/
def HasOtherController (ref : OwnerReference) (refs : List OwnerReference) : Prop :=
  ∃ other, getControllerOf refs = some other ∧ sameObject other ref = false

/-- The reference to the network of a UID as a controller. There is one network, `cluster`. -/
def networkRef (uid : Str) : OwnerReference :=
  ⟨"scion.mkowalski.github.io".toList, "ScionNetwork".toList, "cluster".toList, uid, true⟩

/-- References of the same group, kind and name. -/
theorem sameObject_of_eq {a b : OwnerReference} (hgroup : a.group = b.group)
    (hkind : a.kind = b.kind) (hname : a.name = b.name) : sameObject a b = true := by
  simp [sameObject, hgroup, hkind, hname]

/-- Everything is the same object as itself. -/
theorem sameObject_self (ref : OwnerReference) : sameObject ref ref = true :=
  sameObject_of_eq rfl rfl rfl

/-- A controller can be set exactly if there is no other one. -/
theorem setControllerReference_eq_ok_iff {key : Str} {ref : OwnerReference}
    {refs refs' : List OwnerReference} :
    setControllerReference key ref refs = .ok refs' ↔
      ¬ HasOtherController ref refs ∧ refs' = upsertOwnerRef ref refs := by
  rw [setControllerReference, HasOtherController, eq_comm (a := refs')]
  cases getControllerOf refs with
  | none => simp
  | some existing => cases hsame : sameObject existing ref <;> simp [hsame]

/-- If a controller cannot be set there is another one. -/
theorem hasOtherController_of_error {key cause : Str} {ref : OwnerReference}
    {refs : List OwnerReference} (h : setControllerReference key ref refs = .error cause) :
    HasOtherController ref refs := by
  by_contra hother
  rw [setControllerReference_eq_ok_iff.mpr ⟨hother, rfl⟩] at h
  cases h

/-- The controller that was set is the controller, if it is one and there was no other. -/
theorem getControllerOf_upsertOwnerRef {ref : OwnerReference} (href : ref.controller = true)
    {refs : List OwnerReference} (h : ¬ HasOtherController ref refs) :
    getControllerOf (upsertOwnerRef ref refs) = some ref := by
  induction refs with
  | nil => simp [upsertOwnerRef, getControllerOf, href]
  | cons r rs ih =>
      rw [upsertOwnerRef]
      split_ifs with hsame
      · simp [getControllerOf, href]
      · have hr : r.controller = false := by
          by_contra hr
          rw [Bool.not_eq_false] at hr
          exact h ⟨r, List.find?_cons_of_pos hr, Bool.not_eq_true _ ▸ hsame⟩
        have htail : getControllerOf (r :: rs) = getControllerOf rs :=
          List.find?_cons_of_neg (by rw [hr]; exact Bool.false_ne_true)
        have hskip : getControllerOf (r :: upsertOwnerRef ref rs) =
            getControllerOf (upsertOwnerRef ref rs) :=
          List.find?_cons_of_neg (by rw [hr]; exact Bool.false_ne_true)
        rw [hskip]
        refine ih fun ⟨other, hother, hne⟩ => h ⟨other, ?_, hne⟩
        rw [htail, hother]

/-- Setting a reference again changes nothing. -/
theorem upsertOwnerRef_upsertOwnerRef (ref : OwnerReference) (refs : List OwnerReference) :
    upsertOwnerRef ref (upsertOwnerRef ref refs) = upsertOwnerRef ref refs := by
  induction refs with
  | nil => simp [upsertOwnerRef, sameObject_self]
  | cons r rs ih =>
      by_cases hsame : sameObject r ref = true
      · simp [upsertOwnerRef, hsame, sameObject_self]
      · simp [upsertOwnerRef, hsame, ih]

/-- After the controller was set there is no other one. -/
theorem not_hasOtherController_upsertOwnerRef {ref : OwnerReference} (href : ref.controller = true)
    {refs : List OwnerReference} (h : ¬ HasOtherController ref refs) :
    ¬ HasOtherController ref (upsertOwnerRef ref refs) := by
  rintro ⟨other, hget, hne⟩
  rw [getControllerOf_upsertOwnerRef href h] at hget
  obtain rfl := Option.some.inj hget
  rw [sameObject_self] at hne
  cases hne

/-- Other references are kept when a reference is set. -/
theorem mem_upsertOwnerRef_of_mem {ref other : OwnerReference} {refs : List OwnerReference}
    (hne : sameObject other ref = false) (h : other ∈ refs) : other ∈ upsertOwnerRef ref refs := by
  induction refs with
  | nil => cases h
  | cons r rs ih =>
      rw [upsertOwnerRef]
      split_ifs with hsame
      · rcases List.mem_cons.mp h with rfl | h
        · rw [hne] at hsame
          cases hsame
        · exact List.mem_cons_of_mem _ h
      · rcases List.mem_cons.mp h with rfl | h
        · exact List.mem_cons_self
        · exact List.mem_cons_of_mem _ (ih h)

/-- A reference to the network replaces one of another UID. -/
theorem upsertOwnerRef_networkRef (uid uid' : Str) :
    upsertOwnerRef (networkRef uid) [networkRef uid'] = [networkRef uid] := by
  have hsame : sameObject (networkRef uid') (networkRef uid) = true :=
    sameObject_of_eq rfl rfl rfl
  rw [upsertOwnerRef, if_pos hsame]

/-! ### Changes that set the network as the controller -/

section Owns

variable {α : Type} {uid : Str} {m : Managed α Str} {own : α → List OwnerReference}

/-- The owners of the current version; none if there is no such version. -/
def ownersOf (own : α → List OwnerReference) (h : History α) : List OwnerReference :=
  ((current h).map own).getD []

/-- The changes of an object make the network its controller, if they are possible: that is, if
it has no other one. -/
structure Owns (uid : Str) (m : Managed α Str) (own : α → List OwnerReference) : Prop where
  rendered : own m.rendered = []
  exists_mutate : ∀ x, (∃ y, m.mutate x = .ok y) ↔ ¬ HasOtherController (networkRef uid) (own x)
  mutate : ∀ x y, m.mutate x = .ok y → own y = upsertOwnerRef (networkRef uid) (own x)
  persist : ∀ x, own (m.persist x) = own x

/-- The owners of what is changed. -/
theorem Owns.own_getD (h : Owns uid m own) (versions : History α) :
    own ((current versions).getD m.rendered) = ownersOf own versions := by
  rw [ownersOf]
  cases current versions with
  | none => exact h.rendered
  | some x => rfl

/-- The versions stay as they are, or one is added: there was no other controller, and the network
is set as the controller. -/
def AddsOwned (uid : Str) (own : α → List OwnerReference) (versions versions' : History α) :
    Prop :=
  versions' = versions ∨
    ∃ o, versions' = some o :: versions ∧
      ¬ HasOtherController (networkRef uid) (ownersOf own versions) ∧
      own o = upsertOwnerRef (networkRef uid) (ownersOf own versions)

/-- The network is among the owners of a settled object. -/
theorem Owns.own_of_settled (h : Owns uid m own) {versions : History α}
    (hsettled : Settled m versions) :
    ∃ o, current versions = some o ∧ own o = upsertOwnerRef (networkRef uid) (own o) := by
  obtain ⟨x, y, hcurrent, hmutate, hfix⟩ := hsettled
  refine ⟨x, hcurrent, ?_⟩
  rw [← h.mutate x y hmutate]
  rcases hfix with rfl | hfix
  · rfl
  · rw [← hfix, h.persist]

variable [DecidableEq α]

/-- What a call does to the versions of an object that gets its owner. -/
theorem Owns.addsOwned (h : Owns uid m own) (r : Request Str) (versions : History α) :
    AddsOwned uid own versions (createOrUpdate m r versions).1 := by
  rcases createOrUpdate_cases m r versions with
    ⟨hsame, -⟩ | ⟨new, hmutate, hadded, -, -⟩
  · exact .inl hsame
  · refine .inr ⟨_, hadded, ?_, ?_⟩
    · rw [← h.own_getD]
      exact (h.exists_mutate _).mp ⟨new, hmutate⟩
    · rw [h.persist, h.mutate _ _ hmutate, h.own_getD]

/-- When a call succeeds that the server gives no trouble: if there is no other controller. -/
theorem Owns.eq_none_iff (h : Owns uid m own) {r : Request Str} (hr : r.Undisturbed)
    (versions : History α) :
    (createOrUpdate m r versions).2 = none ↔
      ¬ HasOtherController (networkRef uid) (ownersOf own versions) := by
  rw [CreateOrUpdate.eq_none_iff hr, h.exists_mutate, h.own_getD]

end Owns

end ScionOperator.Apply
