import ScionOperator.AtomicFile
import ScionOperator.JsonDecode
import ScionOperator.Result

/-!
# The Registrar's Topology File

The AS-side registrar keeps the gateways of a cluster in the `sigs` member of the AS
topology file. `patchSigs` replaces the entries whose name starts with the registrar's
prefix and passes everything else through as raw JSON; `managedSigs` reads those entries
back. The two decode the file differently: the writer as maps of raw messages, whose keys
match exactly, the reader as a struct, whose fields match up to case and whose entries must
all have the right type.

## Main results

* `patchText_eq_ok_iff`: when the text of a topology is patched, and into which document.
* `patchSigs_cases`: the file holds the patched text, or is as it was.
* `managedText_patched_iff`: when the reader gives back what the writer was given.
-/

namespace ScionOperator.Registrar

open Text Json GoMap AtomicFile

/-! ### Gateways -/

/-- One gateway entry of the `sigs` map. -/
structure SIG where
  ctrlAddr : Str
  dataAddr : Str
  deriving DecidableEq

/-- The key of the control address. -/
def ctrlAddrKey : Str :=
  "ctrl_addr".toList

/-- The key of the data address. -/
def dataAddrKey : Str :=
  "data_addr".toList

/-- The key of the gateways in a topology. -/
def sigsKey : Str :=
  "sigs".toList

/-- A gateway as JSON. -/
def SIG.value (s : SIG) : Value :=
  .obj [(ctrlAddrKey, .str s.ctrlAddr), (dataAddrKey, .str s.dataAddr)]

/-- The fields of a gateway. -/
def sigFields : List (StructField SIG) :=
  [⟨ctrlAddrKey, fun v s => (decodeString v s.ctrlAddr).map fun a => { s with ctrlAddr := a }⟩,
   ⟨dataAddrKey, fun v s => (decodeString v s.dataAddr).map fun a => { s with dataAddr := a }⟩]

/-- Read a gateway. -/
def decodeSIG (disallowUnknown : Bool) (v : Value) : Option SIG :=
  decodeStruct sigFields disallowUnknown v ⟨[], []⟩

/-- A printed gateway reads back. -/
@[simp] theorem decodeSIG_value (disallowUnknown : Bool) (s : SIG) :
    decodeSIG disallowUnknown s.value = some s := by
  rfl

/-- A gateway is an object of strings. -/
@[simp] theorem SIG.depth_value (s : SIG) : s.value.depth = 1 := by
  rfl

/-- A gateway is determined by its JSON. -/
theorem SIG.value_injective : Function.Injective SIG.value := by
  intro s t h
  have hs := decodeSIG_value false s
  rw [h, decodeSIG_value] at hs
  exact (Option.some.inj hs).symm

/-! ### Writing -/

/-- Why a topology was not patched. -/
inductive PatchError
  /-- a system call on the file failed -/
  | file (step : Step)
  /-- the file is no JSON object -/
  | parsing
  /-- its `sigs` member is no JSON object -/
  | parsingSigs
  /-- an entry was assigned in a nil map, which panics -/
  | nilMap
  deriving DecidableEq

/-- The document as a map of raw messages; `null` gives a nil map. -/
def parseTopology (raw : Str) : Except PatchError (Option (GoMap Value)) :=
  match (unmarshal raw).bind fun v => decodeRawMap v none with
  | some topo => .ok topo
  | none => .error .parsing

/-- The gateways of a topology as a map of raw messages; `null` gives a nil map. -/
def parseSigs (topo : GoMap Value) : Except PatchError (Option (GoMap Value)) :=
  match topo[sigsKey]? with
  | none => .ok (some ∅)
  | some rawSigs =>
      match decodeRawMap rawSigs (some ∅) with
      | some sigs => .ok sigs
      | none => .error .parsingSigs

/-- Drop the entries with the prefix, and enter the desired ones. -/
def mergeSigs (sigs : GoMap Value) (desired : GoMap SIG) (pfx : Str) : GoMap Value :=
  insertAll (sigs.filter fun name _ => !pfx.isPrefixOf name)
    (desired.toList.map fun e => (pfx ++ e.1, e.2.value))

/-- The new `sigs` member. A nil map has nothing to drop, takes no entry, and prints as
`null`. -/
def encodeSigs (sigs : Option (GoMap Value)) (desired : GoMap SIG) (pfx : Str) :
    Except PatchError Value :=
  match sigs with
  | some sigs => .ok (.obj (mergeSigs sigs desired pfx).toList)
  | none => if desired.isEmpty then .ok .null else .error .nilMap

/-- The text of a document. -/
def printTopology (topo : GoMap Value) : Str :=
  marshalIndent 2 (.obj topo.toList) ++ ['\n']

/-- The text that replaces the text of a topology file. -/
def patchText (raw : Str) (desired : GoMap SIG) (pfx : Str) : Except PatchError Str := do
  let topo ← parseTopology raw
  let sigs ← parseSigs (topo.getD ∅)
  let encSigs ← encodeSigs sigs desired pfx
  match topo with
  | none => .error .nilMap
  | some topo => pure (printTopology (topo.insert sigsKey encSigs))

/-- The system calls that replace the topology file. -/
def patchSteps : List Step :=
  [.stat, .createTemp, .write, .chmod, .close, .rename]

/-- Patch the topology file. `fault` is the system call that fails, if one does. -/
def patchSigs (fault : Option Step) (desired : GoMap SIG) (pfx : Str) (file : Option Str) :
    Except PatchError Unit × Option Str :=
  match readFile fault file with
  | none => (.error (.file .read), file)
  | some raw =>
      match patchText raw desired pfx with
      | .error e => (.error e, file)
      | .ok out =>
          match replace patchSteps fault out file with
          | (none, file') => (.ok (), file')
          | (some step, file') => (.error (.file step), file')

/-! ### Reading -/

/-- The managed gateways in the text of a topology file. -/
def managedText (raw pfx : Str) : Option (GoMap SIG) := do
  let v ← unmarshal raw
  let sigs ← decodeStruct [⟨sigsKey, decodeMap (decodeSIG false)⟩] false v none
  pure (stripKeys pfx (sigs.getD ∅))

/-- The managed gateways in the topology file, by name without the prefix. -/
def managedSigs (fault : Option Step) (pfx : Str) (file : Option Str) : Option (GoMap SIG) :=
  (readFile fault file).bind fun raw => managedText raw pfx

/-! ### What the file says -/

/-- The members of a value that is an object. -/
def members (v : Value) : Option (GoMap Value) :=
  (decodeRawMap v none).join

/-- The members of a document that is an object. -/
def topLevel (text : Str) : Option (GoMap Value) :=
  (unmarshal text).bind members

/-- The `sigs` entries of a document in which that member is absent or an object. -/
def sigsEntries (topo : GoMap Value) : Option (GoMap Value) :=
  match topo[sigsKey]? with
  | none => some ∅
  | some v => members v

/-- Only an object has members. -/
theorem members_eq_some_iff {v : Value} {m : GoMap Value} :
    members v = some m ↔ ∃ ms, v = .obj ms ∧ m = insertAll ∅ ms := by
  rw [members, Option.join_eq_some_iff, decodeRawMap_eq_some_some, Option.getD_none]

/-- The members of a printed map. -/
@[simp] theorem members_obj_toList (m : GoMap Value) : members (.obj m.toList) = some m :=
  members_eq_some_iff.mpr ⟨_, rfl, (insertAll_toList m).symm⟩

/-! ### Depth -/

/-- The values of a map are nested at most `n` deep. -/
def Shallow (n : ℕ) (m : GoMap Value) : Prop :=
  ∀ (k : Str) (v : Value), m[k]? = some v → v.depth ≤ n

/-- The depth of a map as an object. -/
theorem depth_obj_toList {n : ℕ} {m : GoMap Value} :
    (Value.obj m.toList).depth ≤ n + 1 ↔ Shallow n m := by
  rw [Value.depth, Nat.add_le_add_iff_right, depthMembers_le]
  constructor
  · intro h k v hv
    exact h (k, v) (Std.ExtTreeMap.mem_toList_iff_getElem?_eq_some.mpr hv)
  · intro h e he
    exact h e.1 e.2 (Std.ExtTreeMap.mem_toList_iff_getElem?_eq_some.mp he)

/-- The members of an object as a map. -/
theorem shallow_insertAll {n : ℕ} {ms : List (Str × Value)}
    (h : (Value.obj ms).depth ≤ n + 1) : Shallow n (insertAll ∅ ms) := by
  rw [Value.depth, Nat.add_le_add_iff_right, depthMembers_le] at h
  intro k v hv
  rw [getElem?_insertAll, Std.ExtTreeMap.getElem?_empty, Option.or_none] at hv
  exact h (k, v) (mem_of_lastValue hv)

/-- One more value that is not too deep. -/
theorem Shallow.insert {n : ℕ} {m : GoMap Value} (hm : Shallow n m) (k : Str) {v : Value}
    (hv : v.depth ≤ n) : Shallow n (m.insert k v) := by
  intro k' v' h
  rw [getElem?_insert] at h
  split_ifs at h with hk
  · rw [← Option.some.inj h]
    exact hv
  · exact hm k' v' h

/-- A document is not too deep. -/
theorem depth_le_of_unmarshal {raw : Str} {v : Value} (h : unmarshal raw = some v) :
    v.depth ≤ maxDepth := by
  rw [unmarshal] at h
  split at h
  · split_ifs at h with hd
    obtain rfl := Option.some.inj h
    exact hd.2
  · cases h

/-- The members of a document are not too deep. -/
theorem shallow_topLevel {raw : Str} {topo : GoMap Value} (h : topLevel raw = some topo) :
    Shallow (maxDepth - 1) topo := by
  rw [topLevel, Option.bind_eq_some_iff] at h
  obtain ⟨v, hv, hm⟩ := h
  obtain ⟨ms, rfl, rfl⟩ := members_eq_some_iff.mp hm
  exact shallow_insertAll (depth_le_of_unmarshal hv)

/-- The `sigs` entries are one level deeper. -/
theorem Shallow.sigsEntries {n : ℕ} {topo sigs : GoMap Value} (h : Shallow (n + 1) topo)
    (hs : sigsEntries topo = some sigs) : Shallow n sigs := by
  rw [Registrar.sigsEntries] at hs
  split at hs
  · obtain rfl := Option.some.inj hs
    intro k v hv
    simp at hv
  · rename_i v hv
    obtain ⟨ms, rfl, rfl⟩ := members_eq_some_iff.mp hs
    exact shallow_insertAll (h _ _ hv)

/-- A printed document reads back. -/
theorem unmarshal_printTopology {topo : GoMap Value} (h : Shallow (maxDepth - 1) topo) :
    unmarshal (printTopology topo) = some (.obj topo.toList) :=
  unmarshal_print (depth_obj_toList.mpr h) (by simp [isBlank])

/-- The members of a printed document. -/
theorem topLevel_printTopology {topo : GoMap Value} (h : Shallow (maxDepth - 1) topo) :
    topLevel (printTopology topo) = some topo := by
  rw [topLevel, unmarshal_printTopology h, Option.bind_some, members_obj_toList]

/-! ### The entries after patching -/

/-- The managed entries are the desired ones. -/
theorem getElem?_mergeSigs_managed (sigs : GoMap Value) (desired : GoMap SIG) (pfx n : Str) :
    (mergeSigs sigs desired pfx)[pfx ++ n]? = desired[n]?.map SIG.value := by
  have hlast : lastValue (pfx ++ n) (desired.toList.map fun e => (pfx ++ e.1, e.2.value)) =
      desired[n]?.map SIG.value := by
    have hkeys := lastValue_map_fst (List.append_right_injective pfx) n
      (desired.toList.map fun e => (e.1, e.2.value))
    rw [List.map_map] at hkeys
    rw [← lastValue_toList, ← lastValue_map_snd, ← hkeys]
    rfl
  have hpfx : pfx.isPrefixOf (pfx ++ n) = true :=
    List.isPrefixOf_iff_prefix.mpr (List.prefix_append _ _)
  rw [mergeSigs, getElem?_insertAll, hlast, getElem?_filter_key _ (fun k => !pfx.isPrefixOf k)]
  simp [hpfx]

/-- The other entries are as before. -/
theorem getElem?_mergeSigs_other (sigs : GoMap Value) (desired : GoMap SIG) {pfx k : Str}
    (hk : pfx.isPrefixOf k = false) : (mergeSigs sigs desired pfx)[k]? = sigs[k]? := by
  have hlast : lastValue k (desired.toList.map fun e => (pfx ++ e.1, e.2.value)) = none := by
    rw [lastValue_eq_none]
    intro e he heq
    obtain ⟨e', -, rfl⟩ := List.mem_map.mp he
    have hpfx : pfx.isPrefixOf k = true :=
      List.isPrefixOf_iff_prefix.mpr ⟨e'.1, heq⟩
    rw [hk] at hpfx
    cases hpfx
  rw [mergeSigs, getElem?_insertAll, hlast, getElem?_filter_key _ (fun k => !pfx.isPrefixOf k)]
  simp [hk]

/-- An entry after patching is a desired one, or one that was there. -/
theorem mem_mergeSigs {sigs : GoMap Value} {desired : GoMap SIG} {pfx k : Str} {v : Value}
    (h : (mergeSigs sigs desired pfx)[k]? = some v) :
    (∃ n s, k = pfx ++ n ∧ desired[n]? = some s ∧ v = s.value) ∨
      pfx.isPrefixOf k = false ∧ sigs[k]? = some v := by
  cases hk : pfx.isPrefixOf k with
  | true =>
      obtain ⟨n, rfl⟩ := List.isPrefixOf_iff_prefix.mp hk
      rw [getElem?_mergeSigs_managed, Option.map_eq_some_iff] at h
      obtain ⟨s, hs, rfl⟩ := h
      exact .inl ⟨n, s, rfl, hs, rfl⟩
  | false =>
      rw [getElem?_mergeSigs_other _ _ hk] at h
      exact .inr ⟨rfl, h⟩

/-- Patching does not deepen the entries. -/
theorem Shallow.mergeSigs {n : ℕ} {sigs : GoMap Value} (h : Shallow n sigs) (hn : 1 ≤ n)
    (desired : GoMap SIG) (pfx : Str) : Shallow n (mergeSigs sigs desired pfx) := by
  intro k v hv
  rcases mem_mergeSigs hv with ⟨-, s, -, -, rfl⟩ | ⟨-, hv⟩
  · rw [SIG.depth_value]
    exact hn
  · exact h k v hv

/-! ### What patching does -/

/-- The document is an object exactly when it is read as a map that is not nil. -/
theorem parseTopology_eq_ok_some {raw : Str} {topo : GoMap Value} :
    parseTopology raw = .ok (some topo) ↔ topLevel raw = some topo := by
  rw [parseTopology, topLevel]
  cases unmarshal raw with
  | none => simp
  | some v =>
      rw [Option.bind_some, Option.bind_some, members]
      cases decodeRawMap v none with
      | none => simp
      | some m => simp

/-- The entries are a map exactly when the member is absent or an object. -/
theorem parseSigs_eq_ok_some {topo sigs : GoMap Value} :
    parseSigs topo = .ok (some sigs) ↔ sigsEntries topo = some sigs := by
  rw [parseSigs, sigsEntries]
  cases topo[sigsKey]? with
  | none => simp
  | some v =>
      have hv : decodeRawMap v (some ∅) = some (some sigs) ↔ members v = some sigs := by
        rw [members_eq_some_iff, decodeRawMap_eq_some_some, Option.getD_some]
      rw [← hv]
      cases hd : decodeRawMap v (some ∅) with
      | none => simp [hd]
      | some m => simp [hd]

/-- The entries are a nil map exactly when the member is `null`. -/
theorem parseSigs_eq_ok_none {topo : GoMap Value} :
    parseSigs topo = .ok none ↔ topo[sigsKey]? = some .null := by
  rw [parseSigs]
  cases topo[sigsKey]? with
  | none => simp
  | some v =>
      rw [Option.some.injEq, ← decodeRawMap_eq_some_none (some ∅)]
      cases hd : decodeRawMap v (some ∅) with
      | none => simp [hd]
      | some m => simp [hd]

/-- What the `sigs` member of a patched topology may be: the merged entries, or still `null`
if nothing is desired. -/
def PatchedSigs (topo : GoMap Value) (desired : GoMap SIG) (pfx : Str) (enc : Value) : Prop :=
  (∃ sigs, sigsEntries topo = some sigs ∧ enc = .obj (mergeSigs sigs desired pfx).toList) ∨
    topo[sigsKey]? = some .null ∧ desired = ∅ ∧ enc = .null

/-- When the text of a topology is patched, and into which document. -/
theorem patchText_eq_ok_iff {raw out : Str} {desired : GoMap SIG} {pfx : Str} :
    patchText raw desired pfx = .ok out ↔
      ∃ topo enc, topLevel raw = some topo ∧ PatchedSigs topo desired pfx enc ∧
        out = printTopology (topo.insert sigsKey enc) := by
  have hsigs : ∀ topo enc, (∃ sigs, parseSigs topo = .ok sigs ∧
      encodeSigs sigs desired pfx = .ok enc) ↔ PatchedSigs topo desired pfx enc := by
    intro topo enc
    constructor
    · rintro ⟨sigs | sigs, hs, he⟩
      · rw [encodeSigs] at he
        split_ifs at he with hd
        exact .inr ⟨parseSigs_eq_ok_none.mp hs, Std.ExtTreeMap.isEmpty_iff.mp hd, by
          simpa using he.symm⟩
      · exact .inl ⟨sigs, parseSigs_eq_ok_some.mp hs, by simpa [encodeSigs] using he.symm⟩
    · rintro (⟨sigs, hs, rfl⟩ | ⟨hs, rfl, rfl⟩)
      · exact ⟨some sigs, parseSigs_eq_ok_some.mpr hs, rfl⟩
      · exact ⟨none, parseSigs_eq_ok_none.mpr hs, by simp [encodeSigs]⟩
  simp only [patchText, Result.bind_eq_ok]
  constructor
  · rintro ⟨_ | topo, ht, sigs, hs, enc, he, hout⟩
    · cases hout
    · exact ⟨topo, enc, parseTopology_eq_ok_some.mp ht, (hsigs _ _).mp ⟨sigs, hs, he⟩,
        (Except.ok.inj hout).symm⟩
  · rintro ⟨topo, enc, ht, he, rfl⟩
    obtain ⟨sigs, hs, he⟩ := (hsigs _ _).mpr he
    exact ⟨some topo, parseTopology_eq_ok_some.mpr ht, sigs, hs, enc, he, rfl⟩

/-- A patched document is not too deep. -/
theorem shallow_patched {raw : Str} {topo : GoMap Value} (h : topLevel raw = some topo)
    {desired : GoMap SIG} {pfx : Str} {enc : Value} (he : PatchedSigs topo desired pfx enc) :
    Shallow (maxDepth - 1) (topo.insert sigsKey enc) := by
  have htopo := shallow_topLevel h
  refine htopo.insert sigsKey ?_
  rcases he with ⟨sigs, hs, rfl⟩ | ⟨-, -, rfl⟩
  · have hsigs : Shallow (maxDepth - 3 + 1) sigs := Shallow.sigsEntries htopo hs
    exact depth_obj_toList.mpr (hsigs.mergeSigs (by decide) desired pfx)
  · exact Nat.zero_le _

/-- A document whose `sigs` member is absent or an object is always patched. -/
theorem patchText_of_sigsEntries {raw : Str} {topo sigs : GoMap Value}
    (ht : topLevel raw = some topo) (hs : sigsEntries topo = some sigs) (desired : GoMap SIG)
    (pfx : Str) :
    patchText raw desired pfx =
      .ok (printTopology (topo.insert sigsKey (.obj (mergeSigs sigs desired pfx).toList))) :=
  patchText_eq_ok_iff.mpr ⟨topo, _, ht, .inl ⟨sigs, hs, rfl⟩, rfl⟩

/-- The patched document, member by member. -/
theorem topLevel_patched {raw : Str} {topo : GoMap Value} (ht : topLevel raw = some topo)
    {desired : GoMap SIG} {pfx : Str} {enc : Value} (he : PatchedSigs topo desired pfx enc) :
    topLevel (printTopology (topo.insert sigsKey enc)) = some (topo.insert sigsKey enc) :=
  topLevel_printTopology (shallow_patched ht he)

/-- The entries of a document whose `sigs` member was replaced. -/
theorem sigsEntries_insert (topo sigs : GoMap Value) :
    sigsEntries (topo.insert sigsKey (.obj sigs.toList)) = some sigs := by
  rw [sigsEntries, getElem?_insert, if_pos rfl]
  exact members_obj_toList sigs

/-- Patching the file replaces it by the patched text, or fails and leaves it as it was. -/
theorem patchSigs_cases (fault : Option Step) (desired : GoMap SIG) (pfx : Str)
    (file : Option Str) :
    (∃ raw out, file = some raw ∧ patchText raw desired pfx = .ok out ∧
        patchSigs fault desired pfx file = (.ok (), some out)) ∨
      ∃ e, patchSigs fault desired pfx file = (.error e, file) ∧
        (e = .nilMap → ∃ raw, file = some raw ∧ patchText raw desired pfx = .error .nilMap) := by
  have hsteps : WritesThenRenames patchSteps :=
    ⟨[.stat, .createTemp], [.chmod, .close], rfl, by decide, by decide⟩
  cases hread : readFile fault file with
  | none =>
      exact .inr ⟨.file .read, by rw [patchSigs, hread], by simp⟩
  | some raw =>
      have hfile : file = some raw := by
        rw [readFile] at hread
        split_ifs at hread
        exact hread
      cases htext : patchText raw desired pfx with
      | error e =>
          exact .inr ⟨e, by simp [patchSigs, hread, htext], fun he => ⟨raw, hfile, he ▸ htext⟩⟩
      | ok out =>
          have hrep := replace_eq hsteps fault out file
          cases hstep : fault.filter (· ∈ patchSteps) with
          | none =>
              rw [hstep] at hrep
              exact .inl ⟨raw, out, hfile, htext, by simp [patchSigs, hread, htext, hrep]⟩
          | some step =>
              rw [hstep] at hrep
              exact .inr ⟨.file step, by simp [patchSigs, hread, htext, hrep], by simp⟩

/-- A patch that succeeds replaces the text of the file by the patched text. -/
theorem patchText_of_patchSigs {fault : Option Step} {desired : GoMap SIG} {pfx : Str}
    {file file' : Option Str} (h : patchSigs fault desired pfx file = (.ok (), file')) :
    ∃ raw out, file = some raw ∧ file' = some out ∧ patchText raw desired pfx = .ok out := by
  rcases patchSigs_cases fault desired pfx file with ⟨raw, out, hfile, htext, hok⟩ | ⟨e, herr, -⟩
  · exact ⟨raw, out, hfile, (Prod.mk.inj (hok.symm.trans h)).2.symm, htext⟩
  · rw [herr] at h
    cases h

/-- A patch that succeeds leaves a file. -/
theorem exists_patchSigs_eq {fault : Option Step} {desired : GoMap SIG} {pfx : Str}
    {file : Option Str} (h : (patchSigs fault desired pfx file).1 = .ok ()) :
    ∃ out, patchSigs fault desired pfx file = (.ok (), some out) := by
  rcases patchSigs_cases fault desired pfx file with ⟨raw, out, -, -, hok⟩ | ⟨e, herr, -⟩
  · exact ⟨out, hok⟩
  · rw [herr] at h
    cases h

/-! ### Reading back -/

/-- The members whose key is `sigs` up to case and comes before it in the file. -/
def earlier (topo : GoMap Value) : List Value :=
  variants sigsKey (topo.toList.filter fun e => compare e.1 sigsKey = .lt)

/-- The members whose key is `sigs` up to case and comes after it in the file. -/
def later (topo : GoMap Value) : List Value :=
  variants sigsKey (topo.toList.filter fun e => compare e.1 sigsKey = .gt)

/-- The topologies from which the reader gets back what the writer was given. The reader
takes every member whose key is `sigs` up to case, in the order of the file, and needs every
entry in them to be a gateway. -/
structure ReadsBack (topo : GoMap Value) (desired : GoMap SIG) (pfx : Str) : Prop where
  /-- the members with another spelling hold gateways -/
  variants_decode : ∀ v ∈ earlier topo ++ later topo, DecodesMap (decodeSIG false) v
  /-- the entries that are not managed are gateways -/
  others_decode : ∀ sigs, sigsEntries topo = some sigs → ∀ (k : Str) (v : Value),
    sigs[k]? = some v → pfx.isPrefixOf k = false → (decodeSIG false v).isSome = true
  /-- a later member gives managed names the desired gateways, if any -/
  later_agrees : ∀ (n : Str) (t : Option SIG),
    lastTouch (decodeSIG false) (pfx ++ n) (later topo) = some t → t = desired[n]?
  /-- an earlier member sets no managed name that is not desired -/
  earlier_absent : (sigsEntries topo).isSome = true → ∀ n : Str, desired[n]? = none →
    lastTouch (decodeSIG false) (pfx ++ n) (later topo) = none →
      ∀ s, lastTouch (decodeSIG false) (pfx ++ n) (earlier topo) ≠ some (some s)

/-- The members the reader takes from a patched topology. -/
theorem variants_insert (topo : GoMap Value) (enc : Value) :
    variants sigsKey (topo.insert sigsKey enc).toList = earlier topo ++ enc :: later topo := by
  rw [toList_insert, variants, List.filter_append, List.map_append, List.filter_cons]
  simp [earlier, later, variants]

/-- What the reader gets from a document. -/
theorem managedText_eq_some_iff {raw pfx : Str} {ms : List (Str × Value)}
    (h : unmarshal raw = some (.obj ms)) {m : GoMap SIG} :
    managedText raw pfx = some m ↔
      (∀ v ∈ variants sigsKey ms, DecodesMap (decodeSIG false) v) ∧
        ∀ n : Str, (lastTouch (decodeSIG false) (pfx ++ n) (variants sigsKey ms)).join = m[n]? := by
  have hread : managedText raw pfx =
      (decodeMaps (decodeSIG false) (variants sigsKey ms) none).map fun sigs =>
        stripKeys pfx (sigs.getD ∅) := by
    simp only [managedText, h, Option.bind_eq_bind, Option.bind_some, decodeStruct_single,
      decodeMaps, Option.pure_def, Option.map_eq_bind, Function.comp_def]
  rw [hread, Option.map_eq_some_iff, ← exists_decodeMaps_iff none]
  have hlook : ∀ sigs, decodeMaps (decodeSIG false) (variants sigsKey ms) none = some sigs →
      ∀ n : Str, (stripKeys pfx (sigs.getD ∅))[n]? =
        (lastTouch (decodeSIG false) (pfx ++ n) (variants sigsKey ms)).join := by
    intro sigs hsigs n
    rw [getElem?_stripKeys, getElem?_decodeMaps hsigs, Option.getD_none,
      Std.ExtTreeMap.getElem?_empty]
    cases lastTouch (decodeSIG false) (pfx ++ n) (variants sigsKey ms) with
    | none => rfl
    | some t => rfl
  constructor
  · rintro ⟨sigs, hsigs, rfl⟩
    exact ⟨⟨sigs, hsigs⟩, fun n => (hlook sigs hsigs n).symm⟩
  · rintro ⟨⟨sigs, hsigs⟩, hm⟩
    refine ⟨sigs, hsigs, Std.ExtTreeMap.ext_getElem? fun n => ?_⟩
    rw [hlook sigs hsigs, hm]

/-- The merged entries are gateways if those that are not managed are. -/
theorem decodesMap_mergeSigs {sigs : GoMap Value} {desired : GoMap SIG} {pfx : Str} :
    DecodesMap (decodeSIG false) (.obj (mergeSigs sigs desired pfx).toList) ↔
      ∀ (k : Str) (v : Value), sigs[k]? = some v → pfx.isPrefixOf k = false →
        (decodeSIG false v).isSome = true := by
  rw [DecodesMap]
  constructor
  · intro h k v hv hk
    rw [← getElem?_mergeSigs_other sigs desired hk] at hv
    exact h (k, v) (Std.ExtTreeMap.mem_toList_iff_getElem?_eq_some.mpr hv)
  · intro h e he
    rcases mem_mergeSigs (Std.ExtTreeMap.mem_toList_iff_getElem?_eq_some.mp he) with
      ⟨n, s, -, -, hs⟩ | ⟨hk, hv⟩
    · rw [hs, decodeSIG_value]
      rfl
    · exact h e.1 e.2 hv hk

/-- The merged entries set exactly the desired managed names. -/
theorem touch_mergeSigs (sigs : GoMap Value) (desired : GoMap SIG) (pfx n : Str) :
    touch (decodeSIG false) (pfx ++ n) (.obj (mergeSigs sigs desired pfx).toList) =
      desired[n]?.map some := by
  rw [touch, lastValue_toList, getElem?_mergeSigs_managed, Option.map_map]
  cases desired[n]? with
  | none => rfl
  | some s => simp

/-- Which value a name ends up with: that of a later member, the desired one, or that of an
earlier member. -/
theorem join_or_or_eq_iff {l e : Option (Option SIG)} {d : Option SIG} :
    ((l.or (d.map some)).or e).join = d ↔
      (∀ t, l = some t → t = d) ∧ (d = none → l = none → ∀ s, e ≠ some (some s)) := by
  rcases l with _ | l
  · rcases d with _ | d
    · rcases e with _ | _ | e <;> simp
    · simp
  · simp

/-- When the reader gets back what the writer was given. -/
theorem managedText_patched_iff {raw : Str} {topo : GoMap Value} (ht : topLevel raw = some topo)
    {desired : GoMap SIG} {pfx : Str} {enc : Value} (he : PatchedSigs topo desired pfx enc) :
    managedText (printTopology (topo.insert sigsKey enc)) pfx = some desired ↔
      ReadsBack topo desired pfx := by
  have hname : ∀ n, lastTouch (decodeSIG false) (pfx ++ n) (earlier topo ++ enc :: later topo) =
      ((lastTouch (decodeSIG false) (pfx ++ n) (later topo)).or
        (touch (decodeSIG false) (pfx ++ n) enc)).or
          (lastTouch (decodeSIG false) (pfx ++ n) (earlier topo)) := by
    intro n
    rw [lastTouch_append, lastTouch]
  have hdecode : (∀ v ∈ earlier topo ++ enc :: later topo, DecodesMap (decodeSIG false) v) ↔
      (∀ v ∈ earlier topo ++ later topo, DecodesMap (decodeSIG false) v) ∧
        DecodesMap (decodeSIG false) enc := by
    simp only [List.forall_mem_append, List.forall_mem_cons]
    tauto
  rw [managedText_eq_some_iff (unmarshal_printTopology (shallow_patched ht he)), variants_insert,
    hdecode]
  simp only [hname]
  rcases he with ⟨sigs, hs, rfl⟩ | ⟨hnull, rfl, rfl⟩
  · rw [decodesMap_mergeSigs]
    simp only [touch_mergeSigs, join_or_or_eq_iff]
    constructor
    · rintro ⟨⟨hvar, hother⟩, hn⟩
      refine ⟨hvar, fun sigs' hs' => ?_, fun n => (hn n).1, fun _ n => (hn n).2⟩
      obtain rfl := Option.some.inj (hs.symm.trans hs')
      exact hother
    · rintro ⟨hvar, hother, hlater, hearlier⟩
      exact ⟨⟨hvar, hother sigs hs⟩, fun n => ⟨hlater n, hearlier (by rw [hs]; rfl) n⟩⟩
  · -- The member stays `null`, which clears what earlier members set.
    have hs : sigsEntries topo = none := by
      rw [sigsEntries, hnull]
      rfl
    constructor
    · rintro ⟨⟨hvar, -⟩, hn⟩
      refine ⟨hvar, by simp [hs], fun n t hl => ?_, by simp [hs]⟩
      have h := hn n
      rw [hl] at h
      simpa using h
    · rintro ⟨hvar, -, hlater, -⟩
      refine ⟨⟨hvar, trivial⟩, fun n => ?_⟩
      cases hl : lastTouch (decodeSIG false) (pfx ++ n) (later topo) with
      | none => simp [touch]
      | some t => simpa using hlater n t hl

end ScionOperator.Registrar
