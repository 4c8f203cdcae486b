import ScionOperator.GoMap
import ScionOperator.JsonRoundTrip

/-!
# Decoding JSON into Go Values

How `encoding/json` stores a JSON value in a Go value. A map takes every member of an
object under its exact key, the last one of a key winning, and keeps what it held before.
A struct takes a member under a field whose name equals the key up to case folding, every
such member in turn, and skips the others unless unknown fields are disallowed. `null`
clears a map and leaves strings and structs alone. Any other mismatch of type is an error
of the whole decoding.

The decoders here return `none` on an error; which error it is, no caller looks at.

## Main results

* `exists_decodeMaps_iff`: when values decode into one map, one after another.
* `getElem?_decodeMaps`: which entries the map then has.
* `decodeStruct_single`: a struct of one field takes the members with its name.
-/

namespace Json

open Text GoMap

/-- Case folding of a character, as far as it matters for matching an ASCII name: the
letters, and the two characters outside ASCII that fold to a letter, the long s and the
Kelvin sign. -/
def foldChar (c : Char) : Char :=
  if 'a' ≤ c ∧ c ≤ 'z' then Char.ofNat (c.toNat - 32)
  else if c.toNat = 0x17F then 'S'
  else if c.toNat = 0x212A then 'K'
  else c

/-- Case folding of a member's key. -/
def foldName (s : Str) : Str :=
  s.map foldChar

/-- Store a value in a string. -/
def decodeString : Value → Str → Option Str
  | .str s, _ => some s
  | .null, old => some old
  | _, _ => none

/-- Store a value in a map whose elements are decoded by `elem`; a nil map is `none`. -/
def decodeMap {α : Type} (elem : Value → Option α) :
    Value → Option (GoMap α) → Option (Option (GoMap α))
  | .null, _ => some none
  | .obj ms, old => do
      let es ← ms.mapM fun m => (elem m.2).map fun a => (m.1, a)
      pure (some (insertAll (old.getD ∅) es))
  | _, _ => none

/-- A field of a struct: its name, and how a value is stored in it. -/
structure StructField (σ : Type) where
  name : Str
  store : Value → σ → Option σ

/-- Store one member of an object in a struct. -/
def decodeMember {σ : Type} (fields : List (StructField σ)) (disallowUnknown : Bool) (st : σ)
    (m : Str × Value) : Option σ :=
  match fields.find? fun f => foldName f.name = foldName m.1 with
  | some f => f.store m.2 st
  | none => if disallowUnknown then none else some st

/-- Store a value in a struct whose field names differ after folding. -/
def decodeStruct {σ : Type} (fields : List (StructField σ)) (disallowUnknown : Bool) :
    Value → σ → Option σ
  | .null, old => some old
  | .obj ms, old => ms.foldlM (decodeMember fields disallowUnknown) old
  | _, _ => none

/-- A map of raw messages takes every value as it is. -/
def decodeRawMap : Value → Option (GoMap Value) → Option (Option (GoMap Value)) :=
  decodeMap some

/-- An object as a map of raw messages. -/
theorem decodeRawMap_obj (ms : List (Str × Value)) (old : Option (GoMap Value)) :
    decodeRawMap (.obj ms) old = some (some (insertAll (old.getD ∅) ms)) := by
  have hmap : ms.mapM (fun m => (some m.2).map fun a => (m.1, a)) = some ms := by
    induction ms with
    | nil => rfl
    | cons m ms ih =>
        rw [List.mapM_cons, ih]
        rfl
  rw [decodeRawMap, decodeMap, hmap]
  rfl

/-- What decodes into a map of raw messages: `null`, into a nil map, and an object. -/
theorem decodeRawMap_eq_some_iff {v : Value} {old m : Option (GoMap Value)} :
    decodeRawMap v old = some m ↔
      v = .null ∧ m = none ∨ ∃ ms, v = .obj ms ∧ m = some (insertAll (old.getD ∅) ms) := by
  cases v with
  | obj ms => simp [decodeRawMap_obj, eq_comm]
  | null => simp [decodeRawMap, decodeMap, eq_comm]
  | bool b => simp [decodeRawMap, decodeMap]
  | num n => simp [decodeRawMap, decodeMap]
  | str s => simp [decodeRawMap, decodeMap]
  | arr vs => simp [decodeRawMap, decodeMap]

/-- Only an object decodes into a map of raw messages that is not nil. -/
theorem decodeRawMap_eq_some_some {v : Value} {old : Option (GoMap Value)} {m : GoMap Value} :
    decodeRawMap v old = some (some m) ↔ ∃ ms, v = .obj ms ∧ m = insertAll (old.getD ∅) ms := by
  simp [decodeRawMap_eq_some_iff]

/-- Only `null` decodes into a nil map. -/
theorem decodeRawMap_eq_some_none {v : Value} (old : Option (GoMap Value)) :
    decodeRawMap v old = some none ↔ v = .null := by
  simp [decodeRawMap_eq_some_iff]

/-- When a value can be stored in a struct whose fields each take some values: it is `null`, or
an object of members that are taken. -/
theorem isSome_decodeStruct_iff {σ : Type} {fields : List (StructField σ)}
    {disallowUnknown : Bool} {takes : Str × Value → Prop}
    (h : ∀ st m, (decodeMember fields disallowUnknown st m).isSome = true ↔ takes m)
    {v : Value} {old : σ} :
    (decodeStruct fields disallowUnknown v old).isSome = true ↔
      v = .null ∨ ∃ ms, v = .obj ms ∧ ∀ m ∈ ms, takes m := by
  have hmembers : ∀ (ms : List (Str × Value)) (st : σ),
      (ms.foldlM (decodeMember fields disallowUnknown) st).isSome = true ↔
        ∀ m ∈ ms, takes m := by
    intro ms
    induction ms with
    | nil => simp
    | cons m ms ih =>
        intro st
        rw [List.foldlM_cons, List.forall_mem_cons, ← h st m]
        cases decodeMember fields disallowUnknown st m with
        | none => simp
        | some st' => simp [ih]
  cases v with
  | obj ms => simp [decodeStruct, hmembers]
  | null => simp [decodeStruct]
  | bool b => simp [decodeStruct]
  | num n => simp [decodeStruct]
  | str s => simp [decodeStruct]
  | arr vs => simp [decodeStruct]

/-! ### Several values into one map -/

section Maps

variable {α : Type} (elem : Value → Option α)

/-- Store values in a map, one after another. -/
def decodeMaps (vs : List Value) (old : Option (GoMap α)) : Option (Option (GoMap α)) :=
  vs.foldlM (fun m v => decodeMap elem v m) old

/-- A value that decodes into a map: `null`, or an object whose members all decode. -/
def DecodesMap : Value → Prop
  | .null => True
  | .obj ms => ∀ m ∈ ms, (elem m.2).isSome = true
  | _ => False

/-- What a value does to one key of the map it is stored in: nothing, or it removes the key
or sets it. -/
def touch (k : Str) : Value → Option (Option α)
  | .null => some none
  | .obj ms => (lastValue k ms).map elem
  | _ => none

/-- What several values do to one key, the last one that does anything winning. -/
def lastTouch (k : Str) : List Value → Option (Option α)
  | [] => none
  | v :: vs => (lastTouch k vs).or (touch elem k v)

variable {elem}

/-- The members of an object decode exactly when each of them does. -/
theorem exists_mapM_members {ms : List (Str × Value)} :
    (∃ es, ms.mapM (fun m => (elem m.2).map fun a => (m.1, a)) = some es) ↔
      ∀ m ∈ ms, (elem m.2).isSome = true := by
  induction ms with
  | nil => simp
  | cons m ms ih =>
      rw [List.mapM_cons, List.forall_mem_cons, ← ih]
      cases elem m.2 with
      | none => simp
      | some a =>
          cases ms.mapM fun m => (elem m.2).map fun a => (m.1, a) with
          | none => simp
          | some es => simp

/-- The values that decode into a map. -/
theorem decodesMap_iff {v : Value} :
    DecodesMap elem v ↔
      v = .null ∨ ∃ ms, v = .obj ms ∧ ∀ m ∈ ms, (elem m.2).isSome = true := by
  cases v <;> simp [DecodesMap]

/-- Look up a key among decoded members. -/
theorem lastValue_mapM {ms : List (Str × Value)} {es : List (Str × α)}
    (h : ms.mapM (fun m => (elem m.2).map fun a => (m.1, a)) = some es) (k : Str) :
    (lastValue k es).map some = (lastValue k ms).map elem := by
  induction ms generalizing es with
  | nil =>
      obtain rfl : [] = es := by simpa using h
      rfl
  | cons m ms ih =>
      obtain ⟨k', v⟩ := m
      simp only [List.mapM_cons, Option.bind_eq_bind, Option.bind_eq_some_iff,
        Option.map_eq_some_iff, Option.pure_def, Option.some.injEq] at h
      obtain ⟨e, ⟨a, ha, rfl⟩, es', hes', rfl⟩ := h
      rw [lastValue, lastValue, Option.map_or, Option.map_or, ih hes']
      split_ifs with hk
      · simp [ha]
      · rfl

/-- When a value decodes into a map. -/
theorem exists_decodeMap_iff {v : Value} (old : Option (GoMap α)) :
    (∃ m, decodeMap elem v old = some m) ↔ DecodesMap elem v := by
  cases v with
  | null => simp [decodeMap, DecodesMap]
  | obj ms =>
      rw [DecodesMap, ← exists_mapM_members]
      simp only [decodeMap, Option.bind_eq_bind, Option.bind_eq_some_iff, Option.pure_def]
      constructor
      · rintro ⟨m, es, hes, -⟩
        exact ⟨es, hes⟩
      · rintro ⟨es, hes⟩
        exact ⟨_, es, hes, rfl⟩
  | bool b => simp [decodeMap, DecodesMap]
  | num n => simp [decodeMap, DecodesMap]
  | str s => simp [decodeMap, DecodesMap]
  | arr vs => simp [decodeMap, DecodesMap]

/-- Look up a key in a map that took a value. -/
theorem getElem?_decodeMap {v : Value} {old m : Option (GoMap α)}
    (h : decodeMap elem v old = some m) (k : Str) :
    (m.getD ∅)[k]? = (touch elem k v).getD (old.getD ∅)[k]? := by
  cases v with
  | null =>
      obtain rfl : none = m := by simpa [decodeMap] using h
      simp [touch]
  | obj ms =>
      simp only [decodeMap, Option.bind_eq_bind, Option.bind_eq_some_iff, Option.pure_def,
        Option.some.injEq] at h
      obtain ⟨es, hes, rfl⟩ := h
      have hlast := lastValue_mapM hes k
      rw [Option.getD_some, getElem?_insertAll, touch, ← hlast]
      cases lastValue k es with
      | none => rfl
      | some a => rfl
  | bool b => simp [decodeMap] at h
  | num n => simp [decodeMap] at h
  | str s => simp [decodeMap] at h
  | arr vs => simp [decodeMap] at h

/-- When values decode into one map. -/
theorem exists_decodeMaps_iff {vs : List Value} (old : Option (GoMap α)) :
    (∃ m, decodeMaps elem vs old = some m) ↔ ∀ v ∈ vs, DecodesMap elem v := by
  induction vs generalizing old with
  | nil => simp [decodeMaps]
  | cons v vs ih =>
      simp only [decodeMaps, List.foldlM_cons, Option.bind_eq_bind, Option.bind_eq_some_iff,
        List.forall_mem_cons]
      rw [← exists_decodeMap_iff old]
      constructor
      · rintro ⟨m, m', hm', hm⟩
        exact ⟨⟨m', hm'⟩, (ih m').mp ⟨m, hm⟩⟩
      · rintro ⟨⟨m', hm'⟩, hvs⟩
        obtain ⟨m, hm⟩ := (ih m').mpr hvs
        exact ⟨m, m', hm', hm⟩

/-- Look up a key in a map that took several values. -/
theorem getElem?_decodeMaps {vs : List Value} {old m : Option (GoMap α)}
    (h : decodeMaps elem vs old = some m) (k : Str) :
    (m.getD ∅)[k]? = (lastTouch elem k vs).getD (old.getD ∅)[k]? := by
  induction vs generalizing old with
  | nil =>
      obtain rfl : old = m := by simpa [decodeMaps] using h
      rfl
  | cons v vs ih =>
      simp only [decodeMaps, List.foldlM_cons, Option.bind_eq_bind, Option.bind_eq_some_iff] at h
      obtain ⟨m', hm', hm⟩ := h
      rw [ih hm, getElem?_decodeMap hm', lastTouch]
      cases lastTouch elem k vs with
      | none => rfl
      | some t => rfl

/-- What values do to a key, the list taken apart. -/
theorem lastTouch_append (k : Str) (vs ws : List Value) :
    lastTouch elem k (vs ++ ws) = (lastTouch elem k ws).or (lastTouch elem k vs) := by
  induction vs with
  | nil => simp [lastTouch]
  | cons v vs ih => rw [List.cons_append, lastTouch, lastTouch, ih, Option.or_assoc]

end Maps

/-- The values of the members whose key is `name` up to case folding. -/
def variants (name : Str) (ms : List (Str × Value)) : List Value :=
  (ms.filter fun m => foldName name = foldName m.1).map Prod.snd

/-- A struct of one field takes the members with its name, one after another. -/
theorem decodeStruct_single {σ : Type} (name : Str) (store : Value → σ → Option σ)
    (ms : List (Str × Value)) (old : σ) :
    decodeStruct [⟨name, store⟩] false (.obj ms) old =
      (variants name ms).foldlM (fun st v => store v st) old := by
  rw [decodeStruct]
  induction ms generalizing old with
  | nil => rfl
  | cons m ms ih =>
      rw [variants, List.filter_cons, List.foldlM_cons]
      by_cases hm : foldName name = foldName m.1
      · simp [decodeMember, hm, ih, variants]
      · simp [decodeMember, hm, ih, variants]

end Json
