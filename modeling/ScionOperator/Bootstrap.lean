import ScionOperator.Agent
import ScionOperator.AtomicFile
import ScionOperator.Transition

/-!
# Bootstrapping

The agent fetches the AS configuration, a topology and the TRCs, from a discovery server
into a cache directory (`Fetch`). The candidate servers are tried in order. From one server
everything is downloaded and checked, also against the pinned TRCs, before any file is
replaced; then the TRCs are replaced one by one, in no particular order, and the topology
last.

A replacement that fails leaves the TRCs replaced before it, and the next server is tried on
top of them: a failed base can leave a mixed set of TRCs (`mixed_after_failed_write`). The
pins hold at every moment, since all of them are checked before the first replacement.

## Main results

* `tryAll_spec`: what a fetch does to the cache, as writes one after another.
* `singleSource_iff`: when a fetch leaves the configuration of one server or nothing.
* `pinsHold_of_reachable`: **pinned TRCs are never changed.**
-/

namespace ScionOperator.Bootstrap

open Text Json GoMap AtomicFile

/-! ### TRC lists -/

/-- The identifier of a TRC. -/
structure TrcID where
  isd : ℤ
  base : ℤ
  serial : ℤ
  deriving DecidableEq

/-- Store a number in an `int`: only integers in range, without fraction or exponent. -/
def decodeInt : Value → ℤ → Option ℤ
  | .num n, _ =>
      let value : Option ℤ := match n.text with
        | '-' :: digits => (atoi digits).map fun m => -(m : ℤ)
        | digits => (atoi digits).map fun m => (m : ℤ)
      value.filter fun v => -(2 ^ 63) ≤ v ∧ v < 2 ^ 63
  | .null, old => some old
  | _, _ => none

/-- The fields of a TRC identifier. -/
def trcIDFields : List (StructField TrcID) :=
  [⟨"isd".toList, fun v id => (decodeInt v id.isd).map fun n => { id with isd := n }⟩,
   ⟨"base_number".toList, fun v id => (decodeInt v id.base).map fun n => { id with base := n }⟩,
   ⟨"serial_number".toList, fun v id =>
      (decodeInt v id.serial).map fun n => { id with serial := n }⟩]

/-- An entry of the list of TRCs. -/
def decodeEntry (v : Value) : Option TrcID :=
  decodeStruct [⟨"id".toList, decodeStruct trcIDFields false⟩] false v ⟨0, 0, 0⟩

/-- The list of TRCs; `null` is the empty one. -/
def decodeEntries : Value → Option (List TrcID)
  | .null => some []
  | .arr vs => vs.mapM decodeEntry
  | _ => none

/-- Print an integer in decimal. -/
def itoaInt (n : ℤ) : Str :=
  if n < 0 then '-' :: itoa n.natAbs else itoa n.natAbs

/-- The name of a TRC file. -/
def trcName (id : TrcID) : Str :=
  "ISD".toList ++ itoaInt id.isd ++ "-B".toList ++ itoaInt id.base ++ "-S".toList ++
    itoaInt id.serial ++ ".trc".toList

/-- The URL of a TRC. -/
def blobURL (base : Str) (id : TrcID) : Str :=
  base ++ "/trcs/isd".toList ++ itoaInt id.isd ++ "-b".toList ++ itoaInt id.base ++
    "-s".toList ++ itoaInt id.serial ++ "/blob".toList

/-! ### Downloading -/

/-- The limit on the body of a response. -/
def maxBodySize : ℕ :=
  4 * 2 ^ 20

/-- A response of a discovery server that was received in full. -/
structure HttpResponse where
  status : ℕ
  body : Str

/-- What a GET returns; no response is a request that could not be made or was broken off. -/
def httpGet (response : Option HttpResponse) : Option Str :=
  match response with
  | none => none
  | some r => if r.status = 200 ∧ byteLength r.body ≤ maxBodySize then some r.body else none

/-- What happens while one base is tried: whether the directory can be made, how the server
answers the `k`-th request, which pins cannot be read, in which order the TRCs are replaced,
and which system call of the `k`-th replacement fails. -/
structure Attempt where
  mkdirFails : Bool
  respond : ℕ → Str → Option HttpResponse
  pinUnreadable : Str → Bool
  shuffle : List (Str × Str) → List (Str × Str)
  shuffle_perm : ∀ l, (shuffle l).Perm l
  faults : ℕ → Option Step

/-- What one base serves: the topology, and the TRCs by file name. -/
structure Configuration where
  topology : Str
  trcs : GoMap Str

/-- Download the TRCs of a list, beginning with the `k`-th request. -/
def downloadTRCs (a : Attempt) (base : Str) : ℕ → List TrcID → Option (List (Str × Str))
  | _, [] => some []
  | k, id :: ids => do
      let raw ← httpGet (a.respond k (blobURL base id))
      let rest ← downloadTRCs a base (k + 1) ids
      pure ((trcName id, raw) :: rest)

/-- Download the configuration of a base. A TRC that is listed twice is downloaded twice, and
the last one is kept. -/
def download (a : Attempt) (base : Str) : Option Configuration := do
  let topo ← httpGet (a.respond 0 (base ++ "/topology".toList))
  if Agent.acceptsTopology topo then
    let list ← httpGet (a.respond 1 (base ++ "/trcs".toList))
    let entries ← (unmarshal list).bind decodeEntries
    let trcs ← downloadTRCs a base 2 entries
    pure ⟨topo, insertAll ∅ trcs⟩
  else none

/-- Every TRC that is pinned has the bytes of its pin, and every pin can be read. -/
def pinsAllow (a : Attempt) (pins : GoMap Str) (trcs : GoMap Str) : Bool :=
  trcs.toList.all fun e => !a.pinUnreadable e.1 && pins[e.1]?.all fun pin => pin = e.2

/-! ### Writing -/

/-- The cache directory: the topology, and the files in `certs`. -/
structure Cache where
  topology : Option Str
  certs : GoMap Str
  deriving DecidableEq

/-- A file of the cache directory. -/
inductive Path
  | topology
  | cert (name : Str)
  deriving DecidableEq

/-- The contents of a file, if it exists. -/
def Cache.file (c : Cache) : Path → Option Str
  | .topology => c.topology
  | .cert name => c.certs[name]?

/-- The cache with other contents of one file. -/
def Cache.setFile (c : Cache) : Path → Option Str → Cache
  | .topology, file => { c with topology := file }
  | .cert name, some data => { c with certs := c.certs.insert name data }
  | .cert name, none => { c with certs := c.certs.erase name }

/-- A file that is to be replaced, and its new contents. -/
structure Write where
  path : Path
  data : Str
  deriving DecidableEq

/-- The system calls that replace a file of the cache. -/
def writeSteps : List Step :=
  [.createTemp, .write, .sync, .chmod, .close, .rename]

/-- Replace a file, unless a system call fails. -/
def atomicWrite (fault : Option Step) (w : Write) (c : Cache) : Bool × Cache :=
  let r := replace writeSteps fault w.data (c.file w.path)
  (r.1.isNone, c.setFile w.path r.2)

/-- Replace files one after another, up to the first failure. The caches passed through are
returned as well. -/
def writeAll (faults : ℕ → Option Step) : ℕ → List Write → Cache → Bool × List Cache
  | _, [], _ => (true, [])
  | k, w :: ws, c =>
      match atomicWrite (faults k) w c with
      | (true, c') =>
          let r := writeAll faults (k + 1) ws c'
          (r.1, c' :: r.2)
      | (false, c') => (false, [c'])

/-- The replacements of a configuration: the TRCs in some order, then the topology. -/
def writes (a : Attempt) (cfg : Configuration) : List Write :=
  (a.shuffle cfg.trcs.toList).map (fun e => ⟨.cert e.1, e.2⟩) ++ [⟨.topology, cfg.topology⟩]

/-- Everything up to the first replacement: the configuration, if it was downloaded and the
pins allow it. -/
def prepared (a : Attempt) (pins : GoMap Str) (base : Str) : Option Configuration :=
  if a.mkdirFails then none
  else (download a base).filter fun cfg => pinsAllow a pins cfg.trcs

/-- Fetch the configuration of one base into the cache: whether that succeeded, and the caches
passed through. -/
def fetchFrom (a : Attempt) (pins : GoMap Str) (base : Str) (c : Cache) : Bool × List Cache :=
  match prepared a pins base with
  | none => (false, [])
  | some cfg => writeAll a.faults 0 (writes a cfg) c

/-- Drop the slashes at the end of a base URL. -/
def trimSlashes (base : Str) : Str :=
  base.rdropWhile (· = '/')

/-- Try the bases in order, beginning with the `k`-th attempt, until one succeeds. -/
def tryAll (attempts : ℕ → Attempt) (pins : GoMap Str) : ℕ → List Str → Cache → Bool × List Cache
  | _, [], _ => (false, [])
  | k, base :: bases, c =>
      match fetchFrom (attempts k) pins (trimSlashes base) c with
      | (true, passed) => (true, passed)
      | (false, passed) =>
          let r := tryAll attempts pins (k + 1) bases (passed.getLastD c)
          (r.1, passed ++ r.2)

/-- Fetch the configuration from the bases a discoverer returns, if it does. -/
def fetch (attempts : ℕ → Attempt) (pins : GoMap Str) (urls : Option (List Str)) (c : Cache) :
    Bool × List Cache :=
  match urls with
  | none => (false, [])
  | some urls => tryAll attempts pins 0 urls c

/-! ### What is written -/

/-- The cache after a file was replaced. -/
def Cache.put (c : Cache) (w : Write) : Cache :=
  c.setFile w.path (some w.data)

/-- The cache after files were replaced one after another. -/
def Cache.putAll (c : Cache) (ws : List Write) : Cache :=
  ws.foldl Cache.put c

/-- Whether a replacement fails. -/
def fails (fault : Option Step) : Bool :=
  (fault.filter (· ∈ writeSteps)).isSome

/-- The replacements that are done, beginning with the `k`-th: those before the first one that
fails. -/
def done (faults : ℕ → Option Step) : ℕ → List Write → List Write
  | _, [] => []
  | k, w :: ws => if fails (faults k) then [] else w :: done faults (k + 1) ws

/-- Writing back what a file holds changes nothing. -/
theorem Cache.setFile_file (c : Cache) (p : Path) : c.setFile p (c.file p) = c := by
  cases p with
  | topology => rfl
  | cert name =>
      obtain ⟨topology, certs⟩ := c
      simp only [Cache.file]
      cases hget : certs[name]? with
      | none =>
          refine congrArg (Cache.mk topology) (Std.ExtTreeMap.ext_getElem? fun k => ?_)
          rw [Std.ExtTreeMap.getElem?_erase]
          split_ifs with hk
          · rw [← Std.LawfulEqCmp.compare_eq_iff_eq.mp hk, hget]
          · rfl
      | some data =>
          refine congrArg (Cache.mk topology) (Std.ExtTreeMap.ext_getElem? fun k => ?_)
          rw [getElem?_insert]
          split_ifs with hk
          · rw [← hk, hget]
          · rfl

/-- A replacement is all or nothing. -/
theorem atomicWrite_eq (fault : Option Step) (w : Write) (c : Cache) :
    atomicWrite fault w c = if fails fault then (false, c) else (true, c.put w) := by
  have hsteps : WritesThenRenames writeSteps :=
    ⟨[.createTemp], [.sync, .chmod, .close], rfl, by decide, by decide⟩
  have hreplace := replace_eq hsteps fault w.data (c.file w.path)
  rw [atomicWrite, fails]
  cases hstep : fault.filter (· ∈ writeSteps) with
  | none =>
      rw [hstep] at hreplace
      simp [hreplace, Cache.put]
  | some step =>
      rw [hstep] at hreplace
      simp [hreplace, Cache.setFile_file]

/-- What replacing files one after another does: whether it succeeds, the cache at the end,
and the caches passed through. -/
theorem writeAll_spec (faults : ℕ → Option Step) (k : ℕ) (ws : List Write) (c : Cache) :
    ((writeAll faults k ws c).1 = true ↔ done faults k ws = ws) ∧
      (writeAll faults k ws c).2.getLastD c = c.putAll (done faults k ws) ∧
      ∀ c' ∈ (writeAll faults k ws c).2, ∃ pre, pre <+: done faults k ws ∧ c' = c.putAll pre := by
  induction ws generalizing k c with
  | nil => simp [writeAll, done, Cache.putAll]
  | cons w ws ih =>
      rw [writeAll, atomicWrite_eq, done]
      by_cases hf : fails (faults k) = true
      · rw [if_pos hf, if_pos hf]
        refine ⟨by simp, rfl, fun c' hc' => ⟨[], List.nil_prefix, List.mem_singleton.mp hc'⟩⟩
      · rw [if_neg hf, if_neg hf]
        obtain ⟨hok, hlast, hpassed⟩ := ih (k + 1) (c.put w)
        refine ⟨by simp [hok], ?_, fun c' hc' => ?_⟩
        · rw [List.getLastD_cons]
          exact hlast
        · rcases List.mem_cons.mp hc' with rfl | hc'
          · exact ⟨[w], by simp, rfl⟩
          · obtain ⟨pre, hpre, rfl⟩ := hpassed c' hc'
            exact ⟨w :: pre, List.cons_prefix_cons.mpr ⟨rfl, hpre⟩, rfl⟩

/-! ### What a fetch does -/

/-- The TRC files among some replacements, with their contents. -/
def certsOf (ws : List Write) : List (Str × Str) :=
  ws.filterMap fun w =>
    match w.path with
    | .cert name => some (name, w.data)
    | .topology => none

/-- The replacements an attempt gets done. -/
def doneWrites (a : Attempt) (pins : GoMap Str) (base : Str) : List Write :=
  match prepared a pins base with
  | none => []
  | some cfg => done a.faults 0 (writes a cfg)

/-- Whether an attempt succeeds: the configuration is downloaded and allowed by the pins, and
no replacement fails. -/
def succeeds (a : Attempt) (pins : GoMap Str) (base : Str) : Bool :=
  match prepared a pins base with
  | none => false
  | some cfg => done a.faults 0 (writes a cfg) = writes a cfg

/-- The cache with other TRC files on top. -/
def Cache.addTRCs (c : Cache) (trcs : List (Str × Str)) : Cache :=
  { c with certs := insertAll c.certs trcs }

/-- The cache overlaid with a configuration. -/
def Cache.overlay (c : Cache) (cfg : Configuration) : Cache :=
  ⟨some cfg.topology, insertAll c.certs cfg.trcs.toList⟩

/-- Replacing files in two batches. -/
theorem putAll_append (c : Cache) (ws ws' : List Write) :
    c.putAll (ws ++ ws') = (c.putAll ws).putAll ws' :=
  List.foldl_append

/-- The TRC files among replacements of TRC files. -/
theorem certsOf_certs (l : List (Str × Str)) :
    certsOf (l.map fun e => ⟨.cert e.1, e.2⟩) = l := by
  rw [certsOf, List.filterMap_map]
  exact List.filterMap_some

/-- Replacing TRC files only. -/
theorem putAll_certs (c : Cache) (l : List (Str × Str)) :
    c.putAll (l.map fun e => ⟨.cert e.1, e.2⟩) = c.addTRCs l := by
  induction l generalizing c with
  | nil => rfl
  | cons e l ih => exact ih (c.put ⟨.cert e.1, e.2⟩)

/-- Replacing all files of a configuration. -/
theorem putAll_writes (c : Cache) (a : Attempt) (cfg : Configuration) :
    c.putAll (writes a cfg) = c.overlay cfg := by
  have hcerts : insertAll c.certs (a.shuffle cfg.trcs.toList) =
      insertAll c.certs cfg.trcs.toList := by
    refine Std.ExtTreeMap.ext_getElem? fun k => ?_
    rw [getElem?_insertAll, getElem?_insertAll,
      lastValue_perm (a.shuffle_perm _) (pairwise_ne_toList cfg.trcs)]
  rw [writes, putAll_append, putAll_certs, Cache.addTRCs, hcerts]
  rfl

/-- The replacements done are the first ones. -/
theorem isPrefix_done (faults : ℕ → Option Step) (k : ℕ) (ws : List Write) :
    done faults k ws <+: ws := by
  induction ws generalizing k with
  | nil => exact List.nil_prefix
  | cons w ws ih =>
      rw [done]
      split_ifs
      · exact List.nil_prefix
      · exact List.cons_prefix_cons.mpr ⟨rfl, ih (k + 1)⟩

/-- An attempt that fails replaces TRC files only. -/
theorem putAll_doneWrites {a : Attempt} {pins : GoMap Str} {base : Str}
    (h : succeeds a pins base = false) (c : Cache) :
    c.putAll (doneWrites a pins base) = c.addTRCs (certsOf (doneWrites a pins base)) := by
  rw [succeeds] at h
  rw [doneWrites]
  cases hprep : prepared a pins base with
  | none => rfl
  | some cfg =>
      rw [hprep] at h
      have hpre := isPrefix_done a.faults 0 (writes a cfg)
      rcases List.prefix_concat_iff.mp hpre with hall | hpre
      · exact absurd hall (of_decide_eq_false h)
      · obtain ⟨l, -, hl⟩ := List.prefix_map_iff.mp hpre
        simp only [hl, putAll_certs, certsOf_certs]

/-- What fetching from one base does. -/
theorem fetchFrom_spec (a : Attempt) (pins : GoMap Str) (base : Str) (c : Cache) :
    (fetchFrom a pins base c).1 = succeeds a pins base ∧
      (fetchFrom a pins base c).2.getLastD c = c.putAll (doneWrites a pins base) ∧
      ∀ c' ∈ (fetchFrom a pins base c).2,
        ∃ pre, pre <+: doneWrites a pins base ∧ c' = c.putAll pre := by
  rw [fetchFrom, succeeds, doneWrites]
  cases prepared a pins base with
  | none => simp [Cache.putAll]
  | some cfg =>
      obtain ⟨hok, hlast, hpassed⟩ := writeAll_spec a.faults 0 (writes a cfg) c
      refine ⟨?_, hlast, hpassed⟩
      rw [Bool.eq_iff_iff, hok, decide_eq_true_eq]

/-- The configuration of the first base that succeeds, beginning with the `k`-th attempt. -/
def winner (attempts : ℕ → Attempt) (pins : GoMap Str) : ℕ → List Str → Option Configuration
  | _, [] => none
  | k, base :: bases =>
      if succeeds (attempts k) pins (trimSlashes base) then
        prepared (attempts k) pins (trimSlashes base)
      else winner attempts pins (k + 1) bases

/-- The TRC files replaced by the bases before that one, in the order in which they were. -/
def leftovers (attempts : ℕ → Attempt) (pins : GoMap Str) : ℕ → List Str → List (Str × Str)
  | _, [] => []
  | k, base :: bases =>
      if succeeds (attempts k) pins (trimSlashes base) then []
      else certsOf (doneWrites (attempts k) pins (trimSlashes base)) ++
        leftovers attempts pins (k + 1) bases

/-- An attempt that succeeds has a configuration, and replaces all of its files. -/
theorem exists_of_succeeds {a : Attempt} {pins : GoMap Str} {base : Str}
    (h : succeeds a pins base = true) :
    ∃ cfg, prepared a pins base = some cfg ∧ doneWrites a pins base = writes a cfg := by
  rw [succeeds] at h
  rw [doneWrites]
  cases hprep : prepared a pins base with
  | none =>
      rw [hprep] at h
      cases h
  | some cfg =>
      rw [hprep] at h
      exact ⟨cfg, rfl, of_decide_eq_true h⟩

/-- Trying the first base, and the others if it fails. -/
theorem tryAll_cons (attempts : ℕ → Attempt) (pins : GoMap Str) (k : ℕ) (base : Str)
    (bases : List Str) (c : Cache) :
    tryAll attempts pins k (base :: bases) c =
      let passed := (fetchFrom (attempts k) pins (trimSlashes base) c).2
      let r := tryAll attempts pins (k + 1) bases (passed.getLastD c)
      if succeeds (attempts k) pins (trimSlashes base) then (true, passed)
      else (r.1, passed ++ r.2) := by
  have hok := (fetchFrom_spec (attempts k) pins (trimSlashes base) c).1
  rw [tryAll, ← hok]
  rcases fetchFrom (attempts k) pins (trimSlashes base) c with ⟨_ | _, passed⟩
  · rfl
  · rfl

/-- What trying the bases does: the TRC files of the failing ones stay, and the configuration
of the first one that succeeds comes on top. -/
theorem tryAll_spec (attempts : ℕ → Attempt) (pins : GoMap Str) (k : ℕ) (urls : List Str)
    (c : Cache) :
    (tryAll attempts pins k urls c).1 = (winner attempts pins k urls).isSome ∧
      (tryAll attempts pins k urls c).2.getLastD c =
        match winner attempts pins k urls with
        | none => c.addTRCs (leftovers attempts pins k urls)
        | some cfg => (c.addTRCs (leftovers attempts pins k urls)).overlay cfg := by
  induction urls generalizing k c with
  | nil => exact ⟨rfl, rfl⟩
  | cons base bases ih =>
      have hlast := (fetchFrom_spec (attempts k) pins (trimSlashes base) c).2.1
      rw [tryAll_cons, winner, leftovers]
      cases hs : succeeds (attempts k) pins (trimSlashes base) with
      | true =>
          obtain ⟨cfg, hprep, hdone⟩ := exists_of_succeeds hs
          simp only [if_true, hprep, Option.isSome_some, hlast, hdone, putAll_writes, true_and]
          rfl
      | false =>
          simp only [Bool.false_eq_true, if_false]
          rw [hlast, putAll_doneWrites hs]
          obtain ⟨ihok, ihlast⟩ := ih (k + 1)
            (c.addTRCs (certsOf (doneWrites (attempts k) pins (trimSlashes base))))
          refine ⟨ihok, ?_⟩
          have hadd : ∀ l l', (c.addTRCs l).addTRCs l' = c.addTRCs (l ++ l') := by
            intro l l'
            rw [Cache.addTRCs, Cache.addTRCs, Cache.addTRCs, insertAll_append]
          rw [List.getLastD_eq_getLast?, List.getLast?_append, Option.getD_or,
            ← List.getLastD_eq_getLast?, ← List.getLastD_eq_getLast?, hlast,
            putAll_doneWrites hs, ihlast, hadd]

/-! ### One source -/

/-- The `i`-th base is the first one that can be fetched from, and serves `cfg`. -/
structure FirstSuccess (attempts : ℕ → Attempt) (pins : GoMap Str) (urls : List Str) (i : ℕ)
    (cfg : Configuration) : Prop where
  earlier_fail : ∀ j < i, ∀ base, urls[j]? = some base →
    ∀ c, (fetchFrom (attempts j) pins (trimSlashes base) c).1 = false
  served : ∃ base, urls[i]? = some base ∧
    (∀ c, (fetchFrom (attempts i) pins (trimSlashes base) c).1 = true) ∧
    download (attempts i) (trimSlashes base) = some cfg

/-- A fetch that returns an error leaves the cache as it was, and one that returns nil leaves
it overlaid with the configuration of the first base that could be fetched from. -/
def SingleSource (attempts : ℕ → Attempt) (pins : GoMap Str) (urls : Option (List Str))
    (c : Cache) : Prop :=
  let r := fetch attempts pins urls c
  (r.1 = false ∧ r.2.getLastD c = c) ∨
    (r.1 = true ∧ ∃ i cfg, FirstSuccess attempts pins (urls.getD []) i cfg ∧
      r.2.getLastD c = c.overlay cfg)

/-- Every TRC file that failing bases replaced either held the same contents already, or is
listed by the base that is fetched from in the end. -/
def Unmixed (attempts : ℕ → Attempt) (pins : GoMap Str) (urls : Option (List Str)) (c : Cache) :
    Prop :=
  ∀ e ∈ leftovers attempts pins 0 (urls.getD []),
    c.certs[e.1]? = lastValue e.1 (leftovers attempts pins 0 (urls.getD [])) ∨
      ((winner attempts pins 0 (urls.getD [])).bind fun cfg => cfg.trcs[e.1]?).isSome = true

/-- The prepared configuration is the one that is served. -/
theorem download_of_prepared {a : Attempt} {pins : GoMap Str} {base : Str} {cfg : Configuration}
    (h : prepared a pins base = some cfg) :
    download a base = some cfg ∧ pinsAllow a pins cfg.trcs = true := by
  rw [prepared] at h
  split_ifs at h
  exact Option.filter_eq_some_iff.mp h

/-- The first base that succeeds, by its position. -/
theorem winner_eq_some_iff {attempts : ℕ → Attempt} {pins : GoMap Str} {k : ℕ} {urls : List Str}
    {cfg : Configuration} :
    winner attempts pins k urls = some cfg ↔
      ∃ i base, urls[i]? = some base ∧
        (∀ j < i, ∀ b, urls[j]? = some b →
          succeeds (attempts (k + j)) pins (trimSlashes b) = false) ∧
        succeeds (attempts (k + i)) pins (trimSlashes base) = true ∧
        prepared (attempts (k + i)) pins (trimSlashes base) = some cfg := by
  induction urls generalizing k with
  | nil => simp [winner]
  | cons base bases ih =>
      rw [winner]
      cases hs : succeeds (attempts k) pins (trimSlashes base) with
      | true =>
          rw [if_pos rfl]
          constructor
          · intro hprep
            exact ⟨0, base, rfl, by simp, hs, hprep⟩
          · rintro ⟨i, b, hb, hearlier, hsucc, hprep⟩
            cases i with
            | zero =>
                obtain rfl := Option.some.inj hb
                exact hprep
            | succ i =>
                have hfail := hearlier 0 (Nat.succ_pos i) base rfl
                rw [Nat.add_zero, hs] at hfail
                cases hfail
      | false =>
          have hadd : ∀ j, k + 1 + j = k + (j + 1) := by
            intro j
            omega
          rw [if_neg (by simp), ih]
          simp only [hadd]
          constructor
          · rintro ⟨i, b, hb, hearlier, hsucc, hprep⟩
            refine ⟨i + 1, b, hb, fun j hj b' hb' => ?_, hsucc, hprep⟩
            cases j with
            | zero =>
                obtain rfl := Option.some.inj hb'
                exact hs
            | succ j => exact hearlier j (Nat.lt_of_succ_lt_succ hj) b' hb'
          · rintro ⟨i, b, hb, hearlier, hsucc, hprep⟩
            cases i with
            | zero =>
                obtain rfl := Option.some.inj hb
                rw [Nat.add_zero, hs] at hsucc
                cases hsucc
            | succ i =>
                exact ⟨i, b, hb, fun j hj => hearlier (j + 1) (Nat.succ_lt_succ hj), hsucc, hprep⟩

/-- The winner is the first success. -/
theorem winner_eq_some_iff_firstSuccess {attempts : ℕ → Attempt} {pins : GoMap Str}
    {urls : List Str} {cfg : Configuration} :
    winner attempts pins 0 urls = some cfg ↔ ∃ i, FirstSuccess attempts pins urls i cfg := by
  have hfst : ∀ i base, (∀ c, (fetchFrom (attempts i) pins base c).1 = true) ↔
      succeeds (attempts i) pins base = true := by
    intro i base
    simp only [(fetchFrom_spec _ _ _ _).1]
    exact ⟨fun h => h ⟨none, ∅⟩, fun h _ => h⟩
  have hfst' : ∀ i base, (∀ c, (fetchFrom (attempts i) pins base c).1 = false) ↔
      succeeds (attempts i) pins base = false := by
    intro i base
    simp only [(fetchFrom_spec _ _ _ _).1]
    exact ⟨fun h => h ⟨none, ∅⟩, fun h _ => h⟩
  rw [winner_eq_some_iff]
  simp only [Nat.zero_add]
  constructor
  · rintro ⟨i, base, hbase, hearlier, hsucc, hprep⟩
    exact ⟨i, fun j hj b hb => (hfst' j _).mpr (hearlier j hj b hb), base, hbase,
      (hfst i _).mpr hsucc, (download_of_prepared hprep).1⟩
  · rintro ⟨i, hearlier, base, hbase, hok, hdown⟩
    have hsucc := (hfst i _).mp hok
    obtain ⟨cfg', hprep, -⟩ := exists_of_succeeds hsucc
    obtain rfl := Option.some.inj ((download_of_prepared hprep).1.symm.trans hdown)
    exact ⟨i, base, hbase, fun j hj b hb => (hfst' j _).mp (hearlier j hj b hb), hsucc, hprep⟩

/-- The first success serves the winning configuration. -/
theorem FirstSuccess.eq_of_winner {attempts : ℕ → Attempt} {pins : GoMap Str} {urls : List Str}
    {i : ℕ} {cfg cfg' : Configuration} (h : FirstSuccess attempts pins urls i cfg)
    (hwin : winner attempts pins 0 urls = some cfg') : cfg' = cfg :=
  Option.some.inj (hwin.symm.trans (winner_eq_some_iff_firstSuccess.mpr ⟨i, h⟩))

/-- Fetching is trying the bases that were discovered, if any. -/
theorem fetch_eq_tryAll (attempts : ℕ → Attempt) (pins : GoMap Str) (urls : Option (List Str))
    (c : Cache) : fetch attempts pins urls c = tryAll attempts pins 0 (urls.getD []) c := by
  cases urls with
  | none => rfl
  | some urls => rfl

/-- When TRC files leave the cache as it is. -/
theorem addTRCs_eq_iff (c : Cache) (l : List (Str × Str)) :
    c.addTRCs l = c ↔ ∀ e ∈ l, c.certs[e.1]? = lastValue e.1 l := by
  obtain ⟨topology, certs⟩ := c
  have := insertAll_insertAll_eq_iff certs l []
  simpa [Cache.addTRCs, lastValue, insertAll] using this

/-- When TRC files make no difference under a configuration. -/
theorem overlay_addTRCs_eq_iff (c : Cache) (l : List (Str × Str)) (cfg : Configuration) :
    (c.addTRCs l).overlay cfg = c.overlay cfg ↔
      ∀ e ∈ l, c.certs[e.1]? = lastValue e.1 l ∨ (cfg.trcs[e.1]?).isSome = true := by
  have := insertAll_insertAll_eq_iff c.certs l cfg.trcs.toList
  simpa [Cache.addTRCs, Cache.overlay] using this

/-- **The configuration comes from a single base exactly if the bases that failed left no
other TRC files behind.** -/
theorem singleSource_iff (attempts : ℕ → Attempt) (pins : GoMap Str) (urls : Option (List Str))
    (c : Cache) : SingleSource attempts pins urls c ↔ Unmixed attempts pins urls c := by
  obtain ⟨hok, hlast⟩ := tryAll_spec attempts pins 0 (urls.getD []) c
  rw [SingleSource, Unmixed, fetch_eq_tryAll]
  cases hwin : winner attempts pins 0 (urls.getD []) with
  | none =>
      rw [hwin] at hok hlast
      simp only [hok, hlast, Option.isSome_none, Option.bind_none, Bool.false_eq_true, false_and,
        or_false, true_and, addTRCs_eq_iff]
  | some cfg =>
      rw [hwin] at hok hlast
      simp only [hok, hlast, Option.isSome_some, Option.bind_some, Bool.true_eq_false, false_and,
        false_or, true_and, ← overlay_addTRCs_eq_iff]
      constructor
      · rintro ⟨i, cfg', hfirst, heq⟩
        obtain rfl := hfirst.eq_of_winner hwin
        exact heq
      · intro heq
        obtain ⟨i, hfirst⟩ := winner_eq_some_iff_firstSuccess.mp hwin
        exact ⟨i, cfg, hfirst, heq⟩

/-- A topology that was accepted is not empty. -/
theorem ne_nil_of_accepts {topology : Str} (h : Agent.acceptsTopology topology = true) :
    topology ≠ [] := by
  rintro rfl
  cases h

/-- A topology that was downloaded was accepted. -/
theorem accepts_of_download {a : Attempt} {base : Str} {cfg : Configuration}
    (h : download a base = some cfg) : Agent.acceptsTopology cfg.topology = true := by
  simp only [download, Option.bind_eq_bind, Option.bind_eq_some_iff] at h
  obtain ⟨topo, -, h⟩ := h
  split_ifs at h with haccepts
  simp only [Option.bind_eq_some_iff] at h
  obtain ⟨list, -, entries, -, trcs, -, h⟩ := h
  obtain rfl := Option.some.inj h
  exact haccepts

/-- What is served by the first server that can be fetched from was accepted. -/
theorem accepts_of_firstSuccess {attempts : ℕ → Attempt} {pins : GoMap Str} {urls : List Str}
    {i : ℕ} {cfg : Configuration} (h : FirstSuccess attempts pins urls i cfg) :
    Agent.acceptsTopology cfg.topology = true := by
  obtain ⟨base, -, -, hdownload⟩ := h.served
  exact accepts_of_download hdownload

/-- A fetch succeeds exactly if there is a first server that can be fetched from, and its topology
is then in the cache; otherwise the topology stays. -/
theorem fetch_cases (attempts : ℕ → Attempt) (pins : GoMap Str) (urls : Option (List Str))
    (c : Cache) :
    ((fetch attempts pins urls c).1 = true ∧
        ∃ i cfg, FirstSuccess attempts pins (urls.getD []) i cfg ∧
          ((fetch attempts pins urls c).2.getLastD c).topology = some cfg.topology) ∨
      ((fetch attempts pins urls c).1 = false ∧
        (∀ i cfg, ¬ FirstSuccess attempts pins (urls.getD []) i cfg) ∧
        ((fetch attempts pins urls c).2.getLastD c).topology = c.topology) := by
  rw [fetch_eq_tryAll]
  obtain ⟨hok, hlast⟩ := tryAll_spec attempts pins 0 (urls.getD []) c
  rw [hok, hlast]
  cases hwin : winner attempts pins 0 (urls.getD []) with
  | none =>
      refine .inr ⟨rfl, fun i cfg h => ?_, rfl⟩
      cases hwin.symm.trans (winner_eq_some_iff_firstSuccess.mpr ⟨i, h⟩)
  | some cfg =>
      obtain ⟨i, h⟩ := winner_eq_some_iff_firstSuccess.mp hwin
      exact .inl ⟨rfl, i, cfg, h, rfl⟩

/-- The TRC files in a cache that was empty, if the configuration is of a single base. -/
theorem certs_of_singleSource {attempts : ℕ → Attempt} {pins : GoMap Str}
    {urls : Option (List Str)} {topology : Option Str} {trcs : List (Str × Str)}
    (h : SingleSource attempts pins urls ⟨topology, ∅⟩)
    (htrcs : (winner attempts pins 0 (urls.getD [])).map (·.trcs.toList) = some trcs) :
    ((fetch attempts pins urls ⟨topology, ∅⟩).2.getLastD ⟨topology, ∅⟩).certs.toList = trcs := by
  obtain ⟨cfg, hwin, rfl⟩ := Option.map_eq_some_iff.mp htrcs
  have hok := (tryAll_spec attempts pins 0 (urls.getD []) ⟨topology, ∅⟩).1
  rw [hwin, ← fetch_eq_tryAll] at hok
  rcases h with ⟨hfail, -⟩ | ⟨-, i, cfg', hfirst, heq⟩
  · rw [hok] at hfail
    cases hfail
  · obtain rfl := hfirst.eq_of_winner hwin
    rw [heq, Cache.overlay, insertAll_toList]

/-- An attempt with a server that answers every request, and replacements that may fail. -/
def answered (list blob : String) (faults : ℕ → Option Step) : Attempt where
  mkdirFails := false
  respond k _ := some ⟨200, match k with
    | 0 => "\x7b\"isd_as\":\"1-ff00:0:110\"\x7d".toList
    | 1 => list.toList
    | _ => blob.toList⟩
  pinUnreadable _ := false
  shuffle l := l
  shuffle_perm _ := List.Perm.refl _
  faults := faults

/-- The first base lists two TRCs, and the disk is full when the second one is written; the
second base lists another one. -/
def diskFull : ℕ → Attempt
  | 0 => answered ("[\x7b\"id\":\x7b\"isd\":1,\"base_number\":1,\"serial_number\":1\x7d\x7d," ++
      "\x7b\"id\":\x7b\"isd\":1,\"base_number\":1,\"serial_number\":2\x7d\x7d]") "A"
      fun k => if k = 1 then some .write else none
  | _ => answered "[\x7b\"id\":\x7b\"isd\":2,\"base_number\":1,\"serial_number\":1\x7d\x7d]" "B"
      fun _ => none

/-- The bases of that run. -/
def twoBases : List Str :=
  ["http://a".toList, "http://b/".toList]

/-- **A failed base leaves a mixed TRC set.** The fetch returns nil, and the cache has a TRC of
the first base next to the configuration of the second one. -/
theorem mixed_after_failed_write :
    (fetch diskFull ∅ (some twoBases) ⟨none, ∅⟩).1 = true ∧
      ((fetch diskFull ∅ (some twoBases) ⟨none, ∅⟩).2.getLastD ⟨none, ∅⟩).certs.toList =
        [("ISD1-B1-S1.trc".toList, "A".toList), ("ISD2-B1-S1.trc".toList, "B".toList)] ∧
      ¬ SingleSource diskFull ∅ (some twoBases) ⟨none, ∅⟩ := by
  have hfetch : ((fetch diskFull ∅ (some twoBases) ⟨none, ∅⟩).1,
      ((fetch diskFull ∅ (some twoBases) ⟨none, ∅⟩).2.getLastD ⟨none, ∅⟩).certs.toList) =
        (true, [("ISD1-B1-S1.trc".toList, "A".toList), ("ISD2-B1-S1.trc".toList, "B".toList)]) := by
    decide +kernel
  obtain ⟨hok, hcerts⟩ := Prod.mk.inj hfetch
  have hwin : (winner diskFull ∅ 0 ((some twoBases).getD [])).map (·.trcs.toList) =
      some [("ISD2-B1-S1.trc".toList, "B".toList)] := by decide +kernel
  refine ⟨hok, hcerts, fun h => ?_⟩
  have hone := hcerts.symm.trans (certs_of_singleSource h hwin)
  exact absurd (congrArg List.length hone) (by decide)

/-! ### Pins -/

/-- Every TRC file with a pin has the bytes of its pin. -/
def PinsHold (pins : GoMap Str) (c : Cache) : Prop :=
  ∀ (name pin data : Str), pins[name]? = some pin → c.certs[name]? = some data → data = pin

/-- Whether the pins hold can be checked pin by pin. -/
theorem pinsHold_iff_forall_mem {pins : GoMap Str} {c : Cache} :
    PinsHold pins c ↔ ∀ e ∈ pins.toList, ∀ data ∈ c.certs[e.1]?, data = e.2 := by
  constructor
  · intro h e he data hdata
    exact h e.1 e.2 data (Std.ExtTreeMap.mem_toList_iff_getElem?_eq_some.mp he) hdata
  · intro h name pin data hpin hdata
    exact h (name, pin) (Std.ExtTreeMap.mem_toList_iff_getElem?_eq_some.mpr hpin) data hdata

instance (pins : GoMap Str) (c : Cache) : Decidable (PinsHold pins c) :=
  decidable_of_iff' _ pinsHold_iff_forall_mem

/-- A call to fetch: what happens in the attempts, the bases, and after how many of the caches
passed through the process crashes, if it does. -/
structure Call where
  attempts : ℕ → Attempt
  urls : Option (List Str)
  crash : Option ℕ

/-- The cache a call leaves. -/
def step (pins : GoMap Str) (c : Cache) (call : Call) : Option Cache :=
  let passed := (fetch call.attempts pins call.urls c).2
  match call.crash with
  | none => some (passed.getLastD c)
  | some n => some ((passed.take n).getLastD c)

/-- Whether a replacement agrees with the pins. -/
def Write.Allowed (pins : GoMap Str) (w : Write) : Prop :=
  ∀ (name pin : Str), w.path = .cert name → pins[name]? = some pin → w.data = pin

/-- Every replacement an attempt gets done agrees with the pins. -/
theorem allowed_of_mem_doneWrites {a : Attempt} {pins : GoMap Str} {base : Str} {w : Write}
    (hw : w ∈ doneWrites a pins base) : w.Allowed pins := by
  rw [doneWrites] at hw
  cases hprep : prepared a pins base with
  | none =>
      rw [hprep] at hw
      cases hw
  | some cfg =>
      rw [hprep] at hw
      have hallow := (download_of_prepared hprep).2
      rintro name pin hpath hpin
      rcases List.mem_append.mp ((isPrefix_done _ _ _).subset hw) with hw | hw
      · obtain ⟨e, he, rfl⟩ := List.mem_map.mp hw
        obtain rfl := Path.cert.inj hpath
        rw [pinsAllow, List.all_eq_true] at hallow
        have hpinned := hallow e ((a.shuffle_perm _).mem_iff.mp he)
        rw [hpin] at hpinned
        simp only [Option.all_some, Bool.and_eq_true, decide_eq_true_eq] at hpinned
        exact hpinned.2.symm
      · obtain rfl := List.mem_singleton.mp hw
        cases hpath

/-- A replacement that agrees with the pins keeps them. -/
theorem pinsHold_put {pins : GoMap Str} {c : Cache} {w : Write} (hw : w.Allowed pins)
    (hc : PinsHold pins c) : PinsHold pins (c.put w) := by
  obtain ⟨path, data⟩ := w
  cases path with
  | topology => exact hc
  | cert written =>
      intro name pin data' hpin hdata
      rw [Cache.put, Cache.setFile, getElem?_insert] at hdata
      split_ifs at hdata with hname
      · obtain rfl := Option.some.inj hdata
        exact hw name pin (congrArg Path.cert hname) hpin
      · exact hc name pin data' hpin hdata

/-- Replacements that agree with the pins keep them. -/
theorem pinsHold_putAll {pins : GoMap Str} {c : Cache} {ws : List Write}
    (hws : ∀ w ∈ ws, w.Allowed pins) (hc : PinsHold pins c) : PinsHold pins (c.putAll ws) := by
  induction ws generalizing c with
  | nil => exact hc
  | cons w ws ih =>
      exact ih (fun w' hw' => hws w' (List.mem_cons_of_mem w hw'))
        (pinsHold_put (hws w List.mem_cons_self) hc)

/-- The pins hold in every cache passed through while one base is tried. -/
theorem pinsHold_fetchFrom {a : Attempt} {pins : GoMap Str} {base : Str} {c c' : Cache}
    (hc : PinsHold pins c) (hc' : c' ∈ (fetchFrom a pins base c).2) : PinsHold pins c' := by
  obtain ⟨pre, hpre, rfl⟩ := (fetchFrom_spec a pins base c).2.2 c' hc'
  exact pinsHold_putAll (fun w hw => allowed_of_mem_doneWrites (hpre.subset hw)) hc

/-- What holds at first and in every state passed through holds in the last one. -/
theorem getLastD_of_forall {σ : Type} (inv : σ → Prop) {c : σ} {passed : List σ} (hc : inv c)
    (hpassed : ∀ c' ∈ passed, inv c') : inv (passed.getLastD c) := by
  rcases List.mem_cons.mp (List.getLastD_mem_cons (l := passed) (a := c)) with h | h
  · rw [h]
    exact hc
  · exact hpassed _ h

/-- What holds at first and in every state passed through holds wherever a call crashes. -/
theorem crash_of_forall {σ : Type} (inv : σ → Prop) {c c' : σ} {passed : List σ}
    {crash : Option ℕ} (hc : inv c) (hpassed : ∀ d ∈ passed, inv d)
    (h : (match crash with
      | none => some (passed.getLastD c)
      | some n => some ((passed.take n).getLastD c)) = some c') : inv c' := by
  cases crash with
  | none =>
      obtain rfl := Option.some.inj h
      exact getLastD_of_forall inv hc hpassed
  | some n =>
      obtain rfl := Option.some.inj h
      exact getLastD_of_forall inv hc fun d hd => hpassed d (List.mem_of_mem_take hd)

/-- The pins hold in every cache passed through while the bases are tried. -/
theorem pinsHold_tryAll {attempts : ℕ → Attempt} {pins : GoMap Str} {k : ℕ} {urls : List Str}
    {c c' : Cache} (hc : PinsHold pins c) (hc' : c' ∈ (tryAll attempts pins k urls c).2) :
    PinsHold pins c' := by
  induction urls generalizing k c with
  | nil => cases hc'
  | cons base bases ih =>
      have hpassed : ∀ d ∈ (fetchFrom (attempts k) pins (trimSlashes base) c).2,
          PinsHold pins d := fun d hd => pinsHold_fetchFrom hc hd
      rw [tryAll_cons] at hc'
      dsimp only at hc'
      split_ifs at hc'
      · exact hpassed c' hc'
      · rcases List.mem_append.mp hc' with hc' | hc'
        · exact hpassed c' hc'
        · exact ih (getLastD_of_forall _ hc hpassed) hc'

/-- The pins hold in the cache a call leaves, wherever it crashes. -/
theorem pinsHold_step {pins : GoMap Str} {c c' : Cache} {call : Call} (hc : PinsHold pins c)
    (hstep : step pins c call = some c') : PinsHold pins c' := by
  have hpassed : ∀ d ∈ (fetch call.attempts pins call.urls c).2, PinsHold pins d := by
    intro d hd
    rw [fetch_eq_tryAll] at hd
    exact pinsHold_tryAll hc hd
  exact crash_of_forall _ hc hpassed hstep

/-- **Pinned TRCs are never changed**, in whatever calls to fetch and wherever they crash. -/
theorem pinsHold_of_reachable {pins : GoMap Str} {c c' : Cache} {calls : List Call}
    (hc : PinsHold pins c) (hrun : Transition.run (step pins) c calls = some c') :
    PinsHold pins c' :=
  Transition.run_preserves (fun _ _ _ hs hstep => pinsHold_step hs hstep) hc hrun

/-- The pin of the first TRC. -/
def samplePins : GoMap Str :=
  insertAll ∅ [("ISD1-B1-S1.trc".toList, "A".toList)]

/-- A crash in the first attempt, a second call, and a call that is refused since the pinned
TRC has other bytes. -/
def sampleCalls : List Call :=
  [⟨diskFull, some twoBases, some 1⟩, ⟨diskFull, some twoBases, none⟩,
    ⟨fun _ => answered
      "[\x7b\"id\":\x7b\"isd\":1,\"base_number\":1,\"serial_number\":1\x7d\x7d]" "C" fun _ => none,
      some twoBases, none⟩]

/-- The pin holds after these calls. -/
theorem pinsHold_of_sampleCalls :
    PinsHold samplePins ⟨none, samplePins⟩ ∧
      ∃ c, Transition.run (step samplePins) ⟨none, samplePins⟩ sampleCalls = some c ∧
        PinsHold samplePins c := by
  have hstart : PinsHold samplePins ⟨none, samplePins⟩ := by decide +kernel
  have hrun : (Transition.run (step samplePins) ⟨none, samplePins⟩ sampleCalls).isSome = true := by
    decide +kernel
  obtain ⟨c, hc⟩ := Option.isSome_iff_exists.mp hrun
  exact ⟨hstart, c, hc, pinsHold_of_reachable hstart hc⟩

end ScionOperator.Bootstrap
