import ScionOperator.Topology

/-!
# What Patching a Topology Does

The topology file belongs to the AS, and the registrar owns a corner of it: the entries of
`sigs` under its prefix. A patch that is written leaves every other member and every other entry
as it was, and makes the managed entries the desired ones. A patch that is not written leaves
the file alone. The one thing that goes wrong is a `null` where the writer keeps a map: decoding
it makes the map nil, and the assignment that follows panics.

## Main results

* `isPatch_of_patchSigs`: **the frame**, for every document, desired map and prefix.
* `totalAtomic_iff`: **a patch is written as a whole or not at all, except at a `null`.**
-/

namespace ScionOperator.Registrar

open Text Json GoMap AtomicFile

/-! ### The frame -/

/-- The `sigs` entries of a topology; absent and `null` have none. -/
def entries (topo : GoMap Value) : GoMap Value :=
  (topo[sigsKey]?.bind members).getD ∅

/-- A topology is another one with the managed entries replaced. -/
structure IsPatch (desired : GoMap SIG) (pfx : Str) (topo topo' : GoMap Value) : Prop where
  /-- the members are the same, and `sigs` -/
  mem_iff : ∀ k, k ∈ topo' ↔ k = sigsKey ∨ k ∈ topo
  /-- the other members have their values -/
  others : ∀ k, k ≠ sigsKey → topo'[k]? = topo[k]?
  /-- the entries without the prefix have their values -/
  unmanaged : ∀ k, ¬ pfx <+: k → (entries topo')[k]? = (entries topo)[k]?
  /-- the entries with the prefix are the desired ones -/
  managed : ∀ k v, pfx <+: k →
    ((entries topo')[k]? = some v ↔ ∃ n s, k = pfx ++ n ∧ desired[n]? = some s ∧ v = s.value)

/-- The entries of a topology whose `sigs` member is absent or an object. -/
theorem entries_of_sigsEntries {topo sigs : GoMap Value} (h : sigsEntries topo = some sigs) :
    entries topo = sigs := by
  rw [sigsEntries] at h
  rw [entries]
  cases hsigs : topo[sigsKey]? with
  | none =>
      rw [hsigs] at h
      exact Option.some.inj h
  | some v =>
      rw [hsigs] at h
      rw [Option.bind_some, show members v = some sigs from h, Option.getD_some]

/-- The entries of a topology whose `sigs` member is `null`. -/
theorem entries_of_null {topo : GoMap Value} (h : topo[sigsKey]? = some .null) :
    entries topo = ∅ := by
  rw [entries, h]
  rfl

/-- The merged entries with the prefix are the desired ones. -/
theorem getElem?_mergeSigs_eq_some_iff {sigs : GoMap Value} {desired : GoMap SIG} {pfx k : Str}
    {v : Value} (hk : pfx <+: k) :
    (mergeSigs sigs desired pfx)[k]? = some v ↔
      ∃ n s, k = pfx ++ n ∧ desired[n]? = some s ∧ v = s.value := by
  obtain ⟨n, rfl⟩ := hk
  rw [getElem?_mergeSigs_managed, Option.map_eq_some_iff]
  constructor
  · rintro ⟨s, hs, rfl⟩
    exact ⟨n, s, rfl, hs, rfl⟩
  · rintro ⟨n', s, hn, hs, rfl⟩
    obtain rfl := List.append_cancel_left hn
    exact ⟨s, hs, rfl⟩

/-- Replacing the `sigs` member as the writer does is a patch. -/
theorem isPatch_insert {topo : GoMap Value} {desired : GoMap SIG} {pfx : Str} {enc : Value}
    (he : PatchedSigs topo desired pfx enc) :
    IsPatch desired pfx topo (topo.insert sigsKey enc) := by
  have hmem : ∀ k, k ∈ topo.insert sigsKey enc ↔ k = sigsKey ∨ k ∈ topo := by
    intro k
    rw [Std.ExtTreeMap.mem_insert, Std.LawfulEqCmp.compare_eq_iff_eq, eq_comm]
  have hother : ∀ k, k ≠ sigsKey → (topo.insert sigsKey enc)[k]? = topo[k]? := by
    intro k hk
    rw [getElem?_insert, if_neg fun h => hk h.symm]
  rcases he with ⟨sigs, hs, rfl⟩ | ⟨hnull, rfl, rfl⟩
  · have hnew := entries_of_sigsEntries (sigsEntries_insert topo (mergeSigs sigs desired pfx))
    refine ⟨hmem, hother, fun k hk => ?_, fun k v hk => ?_⟩
    · rw [hnew, entries_of_sigsEntries hs]
      refine getElem?_mergeSigs_other sigs desired ?_
      rwa [← List.isPrefixOf_iff_prefix, Bool.not_eq_true] at hk
    · rw [hnew]
      exact getElem?_mergeSigs_eq_some_iff hk
  · -- nothing is desired and the member stays `null`
    have hnew : entries (topo.insert sigsKey .null) = ∅ :=
      entries_of_null (by rw [getElem?_insert, if_pos rfl])
    refine ⟨hmem, hother, fun k _ => by rw [hnew, entries_of_null hnull], fun k v _ => ?_⟩
    rw [hnew]
    simp

/-- What is written is the whole patched document. -/
theorem exists_isPatch_of_patchText {raw out : Str} {desired : GoMap SIG} {pfx : Str}
    (h : patchText raw desired pfx = .ok out) :
    ∃ topo topo', topLevel raw = some topo ∧ topLevel out = some topo' ∧
      IsPatch desired pfx topo topo' := by
  obtain ⟨topo, enc, ht, he, rfl⟩ := patchText_eq_ok_iff.mp h
  exact ⟨topo, _, ht, topLevel_patched ht he, isPatch_insert he⟩

/-- **The frame.** Where patching succeeds, the file held a document and holds its patch. -/
theorem isPatch_of_patchSigs {fault : Option Step} {desired : GoMap SIG} {pfx : Str}
    {file file' : Option Str} (h : patchSigs fault desired pfx file = (.ok (), file')) :
    ∃ raw out topo topo', file = some raw ∧ file' = some out ∧ topLevel raw = some topo ∧
      topLevel out = some topo' ∧ IsPatch desired pfx topo topo' := by
  obtain ⟨raw, out, hfile, hfile', htext⟩ := patchText_of_patchSigs h
  obtain ⟨topo, topo', ht, ht', hpatch⟩ := exists_isPatch_of_patchText htext
  exact ⟨raw, out, topo, topo', hfile, hfile', ht, ht', hpatch⟩

/-- One gateway, as a cluster asks for it. -/
def oneDesired : GoMap SIG :=
  insertAll ∅ [("node-1".toList, ⟨"10.0.0.1:30256".toList, "10.0.0.1:30056".toList⟩)]

/-- A topology with a gateway of its own and a managed one. -/
def twoSigs : Str :=
  "\x7b\"sigs\":\x7b\"gw\":\x7b\x7d,\"k8s-old\":\x7b\x7d\x7d,\"isd_as\":\"1-ff00:0:110\"\x7d".toList

/-- Patching a topology with a gateway of its own and a managed one. -/
theorem isPatch_of_twoSigs :
    ∃ out topo topo', patchSigs none oneDesired "k8s-".toList (some twoSigs) = (.ok (), some out) ∧
      topLevel twoSigs = some topo ∧ topLevel out = some topo' ∧
      IsPatch oneDesired "k8s-".toList topo topo' := by
  have hok : (patchSigs none oneDesired "k8s-".toList (some twoSigs)).1 = .ok () := by
    decide +kernel
  obtain ⟨out, hres⟩ := exists_patchSigs_eq hok
  obtain ⟨raw, out', topo, topo', hraw, hout, ht, ht', hpatch⟩ := isPatch_of_patchSigs hres
  rw [← Option.some.inj hraw] at ht
  rw [← Option.some.inj hout] at ht'
  exact ⟨out, topo, topo', hres, ht, ht', hpatch⟩

/-! ### Nil maps -/

/-- The document is a nil map exactly when it is `null`. -/
theorem parseTopology_eq_ok_none {raw : Str} :
    parseTopology raw = .ok none ↔ unmarshal raw = some .null := by
  rw [parseTopology]
  cases unmarshal raw with
  | none => simp
  | some v =>
      rw [Option.bind_some, Option.some.injEq, ← decodeRawMap_eq_some_none none]
      cases decodeRawMap v none with
      | none => simp
      | some m => simp

/-- Reading the gateways assigns nothing. -/
theorem parseSigs_ne_nilMap (topo : GoMap Value) : parseSigs topo ≠ .error .nilMap := by
  intro h
  rw [parseSigs] at h
  split at h
  · cases h
  · split at h <;> cases h

/-- The gateways are assigned in a nil map exactly if there is one and something is desired. -/
theorem encodeSigs_eq_nilMap_iff {sigs : Option (GoMap Value)} {desired : GoMap SIG}
    {pfx : Str} :
    encodeSigs sigs desired pfx = .error .nilMap ↔ sigs = none ∧ desired ≠ ∅ := by
  cases sigs with
  | some sigs => simp [encodeSigs]
  | none =>
      rw [encodeSigs]
      split_ifs with hd
      · simp [Std.ExtTreeMap.isEmpty_iff.mp hd]
      · rw [Std.ExtTreeMap.isEmpty_iff] at hd
        simp [hd]

/-- **Where patching panics**: at a document that is `null`, and at a `sigs` member that is
`null` if there are gateways to enter. -/
theorem patchText_eq_nilMap_iff {raw : Str} {desired : GoMap SIG} {pfx : Str} :
    patchText raw desired pfx = .error .nilMap ↔
      unmarshal raw = some .null ∨
        ∃ topo, topLevel raw = some topo ∧ topo[sigsKey]? = some .null ∧ desired ≠ ∅ := by
  rw [← parseTopology_eq_ok_none]
  simp only [← parseTopology_eq_ok_some, patchText]
  cases ht : parseTopology raw with
  | error e =>
      have he : e ≠ .nilMap := by
        rintro rfl
        rw [parseTopology] at ht
        split at ht <;> cases ht
      simpa [bind, Except.bind] using he
  | ok topo =>
      cases topo with
      | none =>
          -- a nil map has no `sigs`, so that all goes well up to the last assignment
          simp [bind, Except.bind, parseSigs, encodeSigs]
      | some topo =>
          have hsigs := parseSigs_ne_nilMap topo
          simp only [Except.ok.injEq, reduceCtorEq, Option.some.injEq, exists_eq_left',
            false_or, ← parseSigs_eq_ok_none, Option.getD_some, bind, Except.bind]
          cases hs : parseSigs topo with
          | error e =>
              rw [hs] at hsigs
              simpa using hsigs
          | ok sigs =>
              rw [Except.ok.injEq, ← @encodeSigs_eq_nilMap_iff sigs desired pfx]
              cases hc : encodeSigs sigs desired pfx with
              | error e => simp [hc]
              | ok enc => simp [hc, pure, Except.pure]

/-- Patching the file panics exactly if it is read and its text panics. -/
theorem patchSigs_eq_nilMap_iff {fault : Option Step} {desired : GoMap SIG} {pfx : Str}
    {file : Option Str} :
    (patchSigs fault desired pfx file).1 = .error .nilMap ↔
      fault ≠ some .read ∧ ∃ raw, file = some raw ∧ patchText raw desired pfx = .error .nilMap := by
  by_cases hread : fault = some .read
  · simp [patchSigs, readFile, hread]
  rw [patchSigs, readFile, if_neg hread]
  cases file with
  | none => simp
  | some raw =>
      cases htext : patchText raw desired pfx with
      | error e => simp [hread, htext]
      | ok out =>
          simp only [htext, Option.some.injEq, exists_eq_left', reduceCtorEq, and_false, iff_false]
          rcases replace patchSteps fault out (some raw) with ⟨_ | step, file'⟩ <;> simp

/-! ### All or nothing -/

/-- Patching writes the whole patched document, or reports an error and leaves the file as it
was; it does not panic. -/
def TotalAtomic (fault : Option Step) (desired : GoMap SIG) (pfx : Str) (file : Option Str) :
    Prop :=
  (∃ raw out topo topo', file = some raw ∧ topLevel raw = some topo ∧
      topLevel out = some topo' ∧ IsPatch desired pfx topo topo' ∧
      patchSigs fault desired pfx file = (.ok (), some out)) ∨
    ∃ e, e ≠ .nilMap ∧ patchSigs fault desired pfx file = (.error e, file)

/-- No map that is assigned to is nil: the file is not read, or its document is not `null`, and
its `sigs` member is not `null` unless nothing is desired. -/
def NoNilMap (fault : Option Step) (desired : GoMap SIG) (file : Option Str) : Prop :=
  fault = some .read ∨ ∀ raw, file = some raw → unmarshal raw ≠ some .null ∧
    ∀ topo, topLevel raw = some topo → topo[sigsKey]? = some .null → desired = ∅

/-- Patching does not panic exactly if no map it assigns to is nil. -/
theorem patchSigs_ne_nilMap_iff {fault : Option Step} {desired : GoMap SIG} {pfx : Str}
    {file : Option Str} :
    (patchSigs fault desired pfx file).1 ≠ .error .nilMap ↔ NoNilMap fault desired file := by
  rw [Ne, patchSigs_eq_nilMap_iff, NoNilMap]
  simp only [patchText_eq_nilMap_iff]
  push Not
  grind

/-- A panic is neither of the two. -/
theorem TotalAtomic.ne_nilMap {fault : Option Step} {desired : GoMap SIG} {pfx : Str}
    {file : Option Str} (h : TotalAtomic fault desired pfx file) :
    (patchSigs fault desired pfx file).1 ≠ .error .nilMap := by
  rcases h with ⟨raw, out, topo, topo', -, -, -, -, hres⟩ | ⟨e, he, hres⟩
  · rw [hres]
    nofun
  · rw [hres]
    simpa using he

/-- **All or nothing.** Whatever the file holds and whichever system call fails, patching
neither panics nor leaves anything but the old file or the whole new one, exactly if no map it
assigns to is nil. -/
theorem totalAtomic_iff (fault : Option Step) (desired : GoMap SIG) (pfx : Str)
    (file : Option Str) : TotalAtomic fault desired pfx file ↔ NoNilMap fault desired file := by
  refine ⟨fun h => patchSigs_ne_nilMap_iff.mp h.ne_nilMap, fun h => ?_⟩
  have hpanic : (patchSigs fault desired pfx file).1 ≠ .error .nilMap :=
    patchSigs_ne_nilMap_iff.mpr h
  rcases patchSigs_cases fault desired pfx file with
    ⟨raw, out, hfile, htext, hres⟩ | ⟨e, hres, -⟩
  · obtain ⟨topo, topo', ht, ht', hpatch⟩ := exists_isPatch_of_patchText htext
    exact .inl ⟨raw, out, topo, topo', hfile, ht, ht', hpatch, hres⟩
  · rw [hres] at hpanic
    exact .inr ⟨e, fun he => hpanic (by rw [he]), hres⟩

/-- A topology whose `sigs` member is `null` cannot be given a gateway, and a document that is
`null` cannot be patched at all. -/
theorem not_totalAtomic_of_null :
    ¬ TotalAtomic none oneDesired "k8s-".toList
        (some "\x7b\"isd_as\":\"1-ff00:0:110\",\"sigs\":null\x7d".toList) ∧
      ¬ TotalAtomic none ∅ "k8s-".toList (some "null".toList) :=
  ⟨fun h => h.ne_nilMap (by decide +kernel), fun h => h.ne_nilMap (by decide +kernel)⟩

end ScionOperator.Registrar
