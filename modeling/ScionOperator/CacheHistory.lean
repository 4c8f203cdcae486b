import ScionOperator.Bootstrap

/-!
# Crash Consistency of the Cache

The daemon reacts to `topology.json`, so the TRCs of a topology have to be in place when it
appears, whatever call to `Fetch` failed or crashed before. A file of the cache is only ever
replaced by a complete one, and within one base the topology comes last.

To say where the contents of a file come from, the caches a call passes through are logged
together with the visits to bases so far. What is in the cache is then traced back to a
visit: the topology to one that downloaded it, and the TRCs that were listed there to the
same visit or to a later one, which may have overwritten them.

## Main results

* `map_snd_tryAllLogged`: the log does not change what a call does.
* `trcName_injective`: the name of a TRC file determines the TRC.
* `consistent_of_reachable`: **the cache is consistent in every state that calls and crashes
  can reach, and no TRC file is ever removed.**
-/

namespace ScionOperator.Bootstrap

open Text Json GoMap AtomicFile

/-! ### Visits -/

/-- One run of `fetchFrom`: what happens in it, and the base. -/
structure Visit where
  attempt : Attempt
  base : Str

/-- The topology a visit downloads, if it is one that is accepted. -/
def Visit.topology (v : Visit) : Option Str :=
  (httpGet (v.attempt.respond 0 (v.base ++ "/topology".toList))).filter Agent.acceptsTopology

/-- The TRCs the server lists in a visit. -/
def Visit.listed (v : Visit) : Option (List TrcID) := do
  let list ← httpGet (v.attempt.respond 1 (v.base ++ "/trcs".toList))
  (unmarshal list).bind decodeEntries

/-- A visit downloads these bytes for a TRC, at one of the places where it is listed. -/
def Visit.Downloads (v : Visit) (id : TrcID) (data : Str) : Prop :=
  ∃ ids k, v.listed = some ids ∧ ids[k]? = some id ∧
    httpGet (v.attempt.respond (2 + k) (blobURL v.base id)) = some data

/-- What is in a cache comes from the visits so far: the topology from one of them, and each
TRC listed there from that visit or a later one. -/
def Consistent (visits : List Visit) (c : Cache) : Prop :=
  ∀ topology, c.topology = some topology →
    ∃ (i : ℕ) (v : Visit) (ids : List TrcID),
      visits[i]? = some v ∧ v.topology = some topology ∧ v.listed = some ids ∧
      ∀ id ∈ ids, ∃ data, c.certs[trcName id]? = some data ∧
        ∃ (j : ℕ) (v' : Visit), i ≤ j ∧ visits[j]? = some v' ∧ v'.Downloads id data

/-- Every TRC file of one cache is there in another one, with whatever contents. -/
def KeepsTRCs (c c' : Cache) : Prop :=
  ∀ name : Str, (c.certs[name]?).isSome = true → (c'.certs[name]?).isSome = true

/-! ### Calls with a log -/

/-- The caches passed through while the bases are tried, each with the visits so far. -/
def tryAllLogged (attempts : ℕ → Attempt) (pins : GoMap Str) :
    ℕ → List Str → List Visit → Cache → List (List Visit × Cache)
  | _, [], _, _ => []
  | k, base :: bases, visits, c =>
      let visits' := visits ++ [⟨attempts k, trimSlashes base⟩]
      match fetchFrom (attempts k) pins (trimSlashes base) c with
      | (true, passed) => passed.map fun c' => (visits', c')
      | (false, passed) =>
          (passed.map fun c' => (visits', c')) ++
            tryAllLogged attempts pins (k + 1) bases visits' (passed.getLastD c)

/-- A call with its pins. -/
structure PinnedCall extends Call where
  pins : GoMap Str

/-- The visits and the cache after a call, or after as much of it as was done at a crash. -/
def stepLogged (s : List Visit × Cache) (call : PinnedCall) : Option (List Visit × Cache) :=
  let passed := tryAllLogged call.attempts call.pins 0 (call.urls.getD []) s.1 s.2
  match call.crash with
  | none => some (passed.getLastD s)
  | some n => some ((passed.take n).getLastD s)

/-- The log does not change which caches are passed through. -/
theorem map_snd_tryAllLogged (attempts : ℕ → Attempt) (pins : GoMap Str) (k : ℕ)
    (urls : List Str) (visits : List Visit) (c : Cache) :
    (tryAllLogged attempts pins k urls visits c).map Prod.snd =
      (tryAll attempts pins k urls c).2 := by
  induction urls generalizing k visits c with
  | nil => rfl
  | cons base bases ih =>
      rw [tryAllLogged, tryAll]
      rcases fetchFrom (attempts k) pins (trimSlashes base) c with ⟨_ | _, passed⟩
      · simp [Function.comp_def, ih]
      · simp [Function.comp_def]

/-- A step with the log does to the cache what the step without it does. -/
theorem stepLogged_cache (s : List Visit × Cache) (call : PinnedCall) :
    (stepLogged s call).map Prod.snd = step call.pins s.2 call.toCall := by
  have hlast : ∀ (l : List (List Visit × Cache)), (l.getLastD s).2 =
      (l.map Prod.snd).getLastD s.2 := by
    intro l
    rw [List.getLastD_eq_getLast?, List.getLastD_eq_getLast?, List.getLast?_map]
    cases l.getLast? with
    | none => rfl
    | some e => rfl
  rw [stepLogged, step, fetch_eq_tryAll, ← map_snd_tryAllLogged _ _ _ _ s.1]
  cases call.crash with
  | none => simp only [Option.map_some, hlast]
  | some n => simp only [Option.map_some, hlast, List.map_take]

/-! ### Names of TRC files -/

/-- Integers are printed with digits and a sign. -/
theorem not_mem_itoaInt {n : ℤ} {c : Char} (hdigit : c.isDigit = false) (hsign : c ≠ '-') :
    c ∉ itoaInt n := by
  have hnat : ∀ m, c ∉ itoa m := by
    intro m hm
    rw [isDigit_of_mem_itoa hm] at hdigit
    cases hdigit
  rw [itoaInt]
  split_ifs
  · simp [hsign, hnat]
  · exact hnat _

/-- A printed integer determines the integer. -/
theorem itoaInt_injective : Function.Injective itoaInt := by
  have hnat : Function.Injective itoa := fun m n h => by
    simpa using congrArg atoi h
  have hhead : ∀ m t, itoa m ≠ '-' :: t := by
    intro m t h
    have := isDigit_of_mem_itoa (h ▸ List.mem_cons_self : '-' ∈ itoa m)
    cases this
  intro m n h
  rw [itoaInt, itoaInt] at h
  split_ifs at h with hm hn hn
  · have := hnat (List.cons.inj h).2
    omega
  · exact absurd h.symm (hhead _ _)
  · exact absurd h (hhead _ _)
  · have := hnat h
    omega

/-- A printed integer, up to the letter after the dash that follows. -/
theorem itoaInt_append_inj {m n : ℤ} {x : Char} {s t : Str} (hdigit : x.isDigit = false)
    (hsign : x ≠ '-') (h : itoaInt m ++ '-' :: x :: s = itoaInt n ++ '-' :: x :: t) :
    m = n ∧ s = t := by
  have hmem : ∀ k : ℤ, x ∉ itoaInt k ++ ['-'] := by
    intro k
    simp [not_mem_itoaInt hdigit hsign, hsign]
  have heq : (itoaInt m ++ ['-']) ++ x :: s = (itoaInt n ++ ['-']) ++ x :: t := by
    simpa using h
  obtain ⟨hint, rfl⟩ := append_cons_inj_of_not_mem (hmem m) (hmem n) heq
  exact ⟨itoaInt_injective (List.append_cancel_right hint), rfl⟩

/-- The name of a TRC file determines the TRC. -/
theorem trcName_injective : Function.Injective trcName := by
  rintro ⟨isd, base, serial⟩ ⟨isd', base', serial'⟩ h
  have hgroup : ∀ a i b j s k t : Str,
      a ++ i ++ b ++ j ++ s ++ k ++ t = a ++ (i ++ (b ++ (j ++ (s ++ (k ++ t))))) := by
    simp
  replace h := (hgroup _ _ _ _ _ _ _).symm.trans (h.trans (hgroup _ _ _ _ _ _ _))
  replace h := List.append_cancel_left h
  obtain ⟨hisd, h⟩ := itoaInt_append_inj (by decide) (by decide) h
  obtain ⟨hbase, h⟩ := itoaInt_append_inj (by decide) (by decide) h
  obtain hserial := itoaInt_injective (List.append_cancel_right h)
  simp only at hisd hbase hserial
  rw [hisd, hbase, hserial]

/-! ### What one visit does -/

/-- The TRCs that are downloaded are those in the list, each under its name. -/
theorem downloadTRCs_spec {a : Attempt} {base : Str} {k : ℕ} {ids : List TrcID}
    {trcs : List (Str × Str)} (h : downloadTRCs a base k ids = some trcs) :
    trcs.map Prod.fst = ids.map trcName ∧
      ∀ e ∈ trcs, ∃ j id, ids[j]? = some id ∧ e.1 = trcName id ∧
        httpGet (a.respond (k + j) (blobURL base id)) = some e.2 := by
  induction ids generalizing k trcs with
  | nil =>
      obtain rfl := Option.some.inj h
      simp
  | cons id ids ih =>
      simp only [downloadTRCs, Option.bind_eq_bind, Option.bind_eq_some_iff] at h
      obtain ⟨raw, hraw, rest, hrest, h⟩ := h
      obtain rfl := Option.some.inj h
      obtain ⟨hnames, hdata⟩ := ih hrest
      refine ⟨by simp [hnames], fun e he => ?_⟩
      rcases List.mem_cons.mp he with rfl | he
      · exact ⟨0, id, rfl, rfl, hraw⟩
      · obtain ⟨j, id', hid', hname, hget⟩ := hdata e he
        exact ⟨j + 1, id', hid', hname, by rwa [← Nat.add_assoc, Nat.add_right_comm]⟩

/-- What a visit downloads. -/
theorem download_spec {v : Visit} {cfg : Configuration}
    (h : download v.attempt v.base = some cfg) :
    v.topology = some cfg.topology ∧ ∃ ids, v.listed = some ids ∧
      (∀ id ∈ ids, (cfg.trcs[trcName id]?).isSome = true) ∧
      ∀ (id : TrcID) (data : Str), cfg.trcs[trcName id]? = some data → v.Downloads id data := by
  simp only [download, Option.bind_eq_bind, Option.bind_eq_some_iff] at h
  obtain ⟨topo, htopo, h⟩ := h
  split_ifs at h with haccept
  simp only [Option.bind_eq_some_iff] at h
  obtain ⟨list, hlist, ids, hids, trcs, htrcs, h⟩ := h
  obtain rfl := Option.some.inj h
  obtain ⟨hnames, hdata⟩ := downloadTRCs_spec htrcs
  have hlisted : v.listed = some ids := by
    rw [Visit.listed, hlist]
    exact Option.bind_eq_some_iff.mpr ⟨list, rfl, Option.bind_eq_some_iff.mpr hids⟩
  refine ⟨?_, ids, hlisted, fun id hid => ?_, fun id data hget => ?_⟩
  · rw [Visit.topology, htopo, Option.filter_some, if_pos haccept]
  · rw [getElem?_insertAll, Std.ExtTreeMap.getElem?_empty, Option.or_none,
      Option.isSome_iff_ne_none, ne_eq, lastValue_eq_none]
    intro hnone
    have hmem : trcName id ∈ trcs.map Prod.fst := hnames ▸ List.mem_map_of_mem hid
    obtain ⟨e, he, hname⟩ := List.mem_map.mp hmem
    exact hnone e he hname
  · rw [getElem?_insertAll, Std.ExtTreeMap.getElem?_empty, Option.or_none] at hget
    obtain ⟨j, id', hid', hname, hbytes⟩ := hdata _ (mem_of_lastValue hget)
    obtain rfl := trcName_injective hname
    exact ⟨ids, j, hlisted, hid', hbytes⟩

/-- A cache passed through in a visit: some TRCs of the configuration are there, or all of it
is. -/
theorem cases_of_mem_fetchFrom {a : Attempt} {pins : GoMap Str} {base : Str} {c c' : Cache}
    (h : c' ∈ (fetchFrom a pins base c).2) :
    ∃ cfg, download a base = some cfg ∧
      ((∃ l, (∀ e ∈ l, e ∈ cfg.trcs.toList) ∧ c' = c.addTRCs l) ∨ c' = c.overlay cfg) := by
  obtain ⟨pre, hpre, rfl⟩ := (fetchFrom_spec a pins base c).2.2 c' h
  cases hprep : prepared a pins base with
  | none =>
      rw [fetchFrom, hprep] at h
      cases h
  | some cfg =>
      refine ⟨cfg, (download_of_prepared hprep).1, ?_⟩
      rw [doneWrites, hprep] at hpre
      rcases List.prefix_concat_iff.mp (hpre.trans (isPrefix_done _ _ _)) with rfl | hpre
      · exact Or.inr (putAll_writes c a cfg)
      · obtain ⟨l, hl, rfl⟩ := List.prefix_map_iff.mp hpre
        refine Or.inl ⟨l, fun e he => ?_, putAll_certs c l⟩
        exact (a.shuffle_perm _).mem_iff.mp (hl.subset he)

/-- A visit keeps the cache consistent, wherever it stops. -/
theorem consistent_fetchFrom {visits : List Visit} {a : Attempt} {pins : GoMap Str} {base : Str}
    {c c' : Cache} (hc : Consistent visits c) (h : c' ∈ (fetchFrom a pins base c).2) :
    Consistent (visits ++ [⟨a, base⟩]) c' := by
  obtain ⟨cfg, hcfg, hc'⟩ := cases_of_mem_fetchFrom h
  obtain ⟨htopo, ids, hlisted, hpresent, hdownloads⟩ := download_spec (v := ⟨a, base⟩) hcfg
  have hlast : (visits ++ [(⟨a, base⟩ : Visit)])[visits.length]? = some ⟨a, base⟩ := by simp
  intro topology htopology
  rcases hc' with ⟨l, hl, rfl⟩ | rfl
  · -- the topology is an older one, whose TRCs may have been overwritten
    obtain ⟨i, v, ids', hv, hvtopo, hvlisted, htrcs⟩ := hc topology htopology
    have hi : i < visits.length := (List.getElem?_eq_some_iff.mp hv).1
    refine ⟨i, v, ids', by rwa [List.getElem?_append_left hi], hvtopo, hvlisted, ?_⟩
    intro id hid
    obtain ⟨data, hdata, j, v', hij, hv', hbytes⟩ := htrcs id hid
    rw [Cache.addTRCs, getElem?_insertAll]
    cases hover : lastValue (trcName id) l with
    | none =>
        have hj : j < visits.length := (List.getElem?_eq_some_iff.mp hv').1
        exact ⟨data, hdata, j, v', hij, by rwa [List.getElem?_append_left hj], hbytes⟩
    | some data' =>
        have hget := Std.ExtTreeMap.mem_toList_iff_getElem?_eq_some.mp
          (hl _ (mem_of_lastValue hover))
        exact ⟨data', rfl, visits.length, ⟨a, base⟩, hi.le, hlast, hdownloads id data' hget⟩
  · obtain rfl := Option.some.inj htopology
    refine ⟨visits.length, ⟨a, base⟩, ids, hlast, htopo, hlisted, fun id hid => ?_⟩
    obtain ⟨data, hdata⟩ := Option.isSome_iff_exists.mp (hpresent id hid)
    refine ⟨data, ?_, visits.length, ⟨a, base⟩, le_rfl, hlast, hdownloads id data hdata⟩
    rw [Cache.overlay, getElem?_insertAll, lastValue_toList, hdata, Option.some_or]

/-- More visits leave a cache consistent. -/
theorem Consistent.append {visits : List Visit} {c : Cache} (h : Consistent visits c)
    (later : List Visit) : Consistent (visits ++ later) c := by
  have hget : ∀ (i : ℕ) (v : Visit), visits[i]? = some v → (visits ++ later)[i]? = some v := by
    intro i v hv
    rwa [List.getElem?_append_left (List.getElem?_eq_some_iff.mp hv).1]
  intro topology htopology
  obtain ⟨i, v, ids, hv, hvtopo, hlisted, htrcs⟩ := h topology htopology
  refine ⟨i, v, ids, hget i v hv, hvtopo, hlisted, fun id hid => ?_⟩
  obtain ⟨data, hdata, j, v', hij, hv', hbytes⟩ := htrcs id hid
  exact ⟨data, hdata, j, v', hij, hget j v' hv', hbytes⟩

/-! ### Whole runs -/

/-- Trying the bases keeps the cache consistent, wherever it stops. -/
theorem consistent_tryAllLogged {attempts : ℕ → Attempt} {pins : GoMap Str} {k : ℕ}
    {urls : List Str} {visits : List Visit} {c : Cache} (hc : Consistent visits c) :
    ∀ s ∈ tryAllLogged attempts pins k urls visits c, Consistent s.1 s.2 := by
  induction urls generalizing k visits c with
  | nil => simp [tryAllLogged]
  | cons base bases ih =>
      intro s hs
      have hpassed : ∀ c' ∈ (fetchFrom (attempts k) pins (trimSlashes base) c).2,
          Consistent (visits ++ [⟨attempts k, trimSlashes base⟩]) c' :=
        fun c' hc' => consistent_fetchFrom hc hc'
      rw [tryAllLogged] at hs
      rcases hfetch : fetchFrom (attempts k) pins (trimSlashes base) c with ⟨_ | _, passed⟩
      · rw [hfetch] at hs hpassed
        rcases List.mem_append.mp hs with hs | hs
        · obtain ⟨c', hc', rfl⟩ := List.mem_map.mp hs
          exact hpassed c' hc'
        · exact ih (getLastD_of_forall _ (hc.append _) hpassed) s hs
      · rw [hfetch] at hs hpassed
        obtain ⟨c', hc', rfl⟩ := List.mem_map.mp hs
        exact hpassed c' hc'

/-- Steps one after another, from the caches of two batches. -/
theorem isChain_append {r : Cache → Cache → Prop} {c : Cache} {l l' : List Cache}
    (hl : List.IsChain r (c :: l)) (hl' : List.IsChain r (l.getLastD c :: l')) :
    List.IsChain r (c :: (l ++ l')) := by
  induction l generalizing c with
  | nil => exact hl'
  | cons d l ih =>
      obtain ⟨hstep, hl⟩ := List.isChain_cons_cons.mp hl
      rw [List.getLastD_cons] at hl'
      exact List.isChain_cons_cons.mpr ⟨hstep, ih hl hl'⟩

/-- A replacement removes no TRC file. -/
theorem keepsTRCs_put (c : Cache) (w : Write) : KeepsTRCs c (c.put w) := by
  obtain ⟨path, data⟩ := w
  intro name hname
  cases path with
  | topology => exact hname
  | cert written =>
      rw [Cache.put, Cache.setFile, getElem?_insert]
      split_ifs
      · rfl
      · exact hname

/-- Replacing files one after another removes no TRC file. -/
theorem keepsTRCs_writeAll (faults : ℕ → Option Step) (k : ℕ) (ws : List Write) (c : Cache) :
    List.IsChain KeepsTRCs (c :: (writeAll faults k ws c).2) := by
  induction ws generalizing k c with
  | nil => exact List.isChain_singleton c
  | cons w ws ih =>
      rw [writeAll, atomicWrite_eq]
      by_cases hf : fails (faults k) = true
      · rw [if_pos hf]
        exact List.isChain_cons_cons.mpr ⟨fun _ h => h, List.isChain_singleton c⟩
      · rw [if_neg hf]
        exact List.isChain_cons_cons.mpr ⟨keepsTRCs_put c w, ih (k + 1) (c.put w)⟩

/-- Trying the bases removes no TRC file. -/
theorem keepsTRCs_tryAll (attempts : ℕ → Attempt) (pins : GoMap Str) (k : ℕ) (urls : List Str)
    (c : Cache) : List.IsChain KeepsTRCs (c :: (tryAll attempts pins k urls c).2) := by
  induction urls generalizing k c with
  | nil => exact List.isChain_singleton c
  | cons base bases ih =>
      have hvisit : List.IsChain KeepsTRCs
          (c :: (fetchFrom (attempts k) pins (trimSlashes base) c).2) := by
        rw [fetchFrom]
        cases prepared (attempts k) pins (trimSlashes base) with
        | none => exact List.isChain_singleton c
        | some cfg => exact keepsTRCs_writeAll _ _ _ _
      rw [tryAll_cons]
      dsimp only
      split_ifs
      · exact hvisit
      · exact isChain_append hvisit (ih (k + 1) _)

/-- Consistency of a cache with its log. -/
def ConsistentLog (s : List Visit × Cache) : Prop :=
  Consistent s.1 s.2

/-- A call keeps the cache consistent, wherever it crashes. -/
theorem consistent_stepLogged {s s' : List Visit × Cache} {call : PinnedCall}
    (hs : ConsistentLog s) (hstep : stepLogged s call = some s') : ConsistentLog s' := by
  have hpassed : ∀ t ∈ tryAllLogged call.attempts call.pins 0 (call.urls.getD []) s.1 s.2,
      ConsistentLog t := consistent_tryAllLogged hs
  exact crash_of_forall _ hs hpassed hstep

/-- **Crash consistency.** From an empty cache, after any calls and crashes: the topology in
the cache was downloaded in some visit, and every TRC listed there is in the cache as it was
downloaded then or later. No replacement of a further call removes a TRC file. -/
theorem consistent_of_reachable {calls : List PinnedCall} {visits : List Visit} {c : Cache}
    (hrun : Transition.run stepLogged ([], ⟨none, ∅⟩) calls = some (visits, c)) :
    Consistent visits c ∧ ∀ call : PinnedCall,
      List.IsChain KeepsTRCs (c :: (fetch call.attempts call.pins call.urls c).2) := by
  have hstart : ConsistentLog ([], ⟨none, ∅⟩) := by
    intro topology htopology
    cases htopology
  have hend : ConsistentLog (visits, c) :=
    Transition.run_preserves (fun _ _ _ hs hstep => consistent_stepLogged hs hstep) hstart hrun
  refine ⟨hend, fun call => ?_⟩
  rw [fetch_eq_tryAll]
  exact keepsTRCs_tryAll _ _ _ _ _

/-- The crash in the first call of `sampleCalls`, with the calls after it. -/
def samplePinnedCalls : List PinnedCall :=
  sampleCalls.map fun call => ⟨call, samplePins⟩

/-- After these calls the cache is consistent, and has the topology of the second base. -/
theorem consistent_of_samplePinnedCalls :
    ∃ visits c, Transition.run stepLogged ([], ⟨none, ∅⟩) samplePinnedCalls = some (visits, c) ∧
      c.topology.isSome = true ∧ Consistent visits c := by
  have hend : (Transition.run stepLogged ([], ⟨none, ∅⟩) samplePinnedCalls).map
      (fun s => s.2.topology.isSome) = some true := by decide +kernel
  obtain ⟨⟨visits, c⟩, hrun, htopology⟩ := Option.map_eq_some_iff.mp hend
  exact ⟨visits, c, hrun, htopology, (consistent_of_reachable hrun).1⟩

end ScionOperator.Bootstrap
