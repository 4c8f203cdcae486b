import ScionOperator.NodeEndpoint
import ScionOperator.RegistrarServer
import ScionOperator.Transition

/-!
# Operator and Registrar

The operator registers the gateways of the cluster by a PUT of the whole set
(`HTTP.Ensure`), one call after another. A call ends with the server's response, or is
given up at a timeout; its PUT may then still be on its way, or wait for the server's
mutex. The server processes the PUTs that reach it one at a time, in whatever order.

A PUT carries no sequence number, so a PUT that was given up can be processed after a later
one was acknowledged, and undoes it (`stale_after_acknowledged`). As long as the server
processes no PUT that is older than one it has answered 204, an acknowledged set is the
managed set in the topology file until the next call (`managedIs_of_inOrder`).

## Main results

* `decodeBody_ensureBody`: the server decodes what the client encodes.
* `managedIs_of_patchText`: a patched file holds exactly the desired gateways.
* `managedIs_of_inOrder`: an acknowledged set is the managed set.
-/

namespace ScionOperator.Registrar

open Text Json GoMap AtomicFile

/-! ### The client -/

/-- The set a call of `Ensure` asks for, by name. -/
def ensureSet (sigs : List NodeSIG) : GoMap SIG :=
  insertAll ∅ (sigs.map fun s => (s.name, ⟨s.ctrlAddr, s.dataAddr⟩))

/-- The body of the PUT. -/
def ensureBody (sigs : List NodeSIG) : Str :=
  marshal (sigsValue (ensureSet sigs))

/-- The PUT a call of `Ensure` sends. -/
def ensureRequest (token : Str) (sigs : List NodeSIG) : Request :=
  ⟨.put, bearer token, ensureBody sigs⟩

/-- Whether `Ensure` returns nil on a response; no response is an error. -/
def ensureOk (response : Option Response) : Bool :=
  response.map Response.status = some .noContent

/-- Gateways read back from their JSON. -/
theorem decodeMap_sigsValue (disallowUnknown : Bool) (m : GoMap SIG) :
    decodeMap (decodeSIG disallowUnknown) (sigsValue m) none = some (some m) := by
  have hdec : DecodesMap (decodeSIG disallowUnknown) (sigsValue m) := by
    rw [sigsValue, DecodesMap]
    intro e he
    obtain ⟨e', -, rfl⟩ := List.mem_map.mp he
    rw [decodeSIG_value]
    rfl
  obtain ⟨m', hm'⟩ := (exists_decodeMap_iff none).mpr hdec
  have hlook : ∀ k : Str, (m'.getD ∅)[k]? = m[k]? := by
    intro k
    rw [getElem?_decodeMap hm' k, sigsValue, touch, lastValue_map_snd, lastValue_toList,
      Option.getD_none, Std.ExtTreeMap.getElem?_empty]
    cases m[k]? with
    | none => rfl
    | some s => simp
  cases m' with
  | none => simp [sigsValue, decodeMap, Option.bind_eq_some_iff] at hm'
  | some m' =>
      obtain rfl : m' = m := Std.ExtTreeMap.ext_getElem? hlook
      exact hm'

/-- The server decodes the set the client encodes, unless the body is too long. -/
theorem decodeBody_ensureBody {sigs : List NodeSIG} {desired : GoMap SIG}
    (h : decodeBody (ensureBody sigs) = some desired) : desired = ensureSet sigs := by
  have hdepth : (sigsValue (ensureSet sigs)).depth ≤ maxDepth :=
    le_trans (depth_sigsValue_le _) (by decide)
  rw [decodeBody, ensureBody, decodeFirst_marshal hdepth] at h
  split_ifs at h
  · simp only [Option.bind_eq_bind, Option.bind_some, decodeMap_sigsValue, Option.pure_def,
      Option.getD_some] at h
    exact (Option.some.inj h).symm
  · cases h

/-! ### The managed set in the file -/

/-- The entry of a managed name in the topology file. -/
def managedEntry (file : Option Str) (pfx n : Str) : Option Value := do
  let topo ← file.bind topLevel
  let v ← topo[sigsKey]?
  let entries ← members v
  entries[pfx ++ n]?

/-- The managed entries of the topology file are exactly these gateways. -/
def ManagedIs (file : Option Str) (pfx : Str) (m : GoMap SIG) : Prop :=
  ∀ n : Str, managedEntry file pfx n = m[n]?.map SIG.value

/-- A patched file holds exactly the desired gateways. -/
theorem managedIs_of_patchText {raw out : Str} {desired : GoMap SIG} {pfx : Str}
    (h : patchText raw desired pfx = .ok out) : ManagedIs (some out) pfx desired := by
  obtain ⟨topo, enc, ht, he, rfl⟩ := patchText_eq_ok_iff.mp h
  intro n
  simp only [managedEntry, Option.bind_some, topLevel_patched ht he, Option.bind_eq_bind,
    getElem?_insert, if_true]
  rcases he with ⟨sigs, hs, rfl⟩ | ⟨-, rfl, rfl⟩
  · rw [members_obj_toList, Option.bind_some, getElem?_mergeSigs_managed]
  · rw [Std.ExtTreeMap.getElem?_empty]
    rfl

/-- A PUT of the client that is answered 204 leaves its set in the file. -/
theorem managedIs_of_ensure {s : Server} {token : Str} {sigs : List NodeSIG} {c : Conditions}
    {file : Option Str}
    (h : (handle s (ensureRequest token sigs) c file).status = some .noContent) :
    ManagedIs (handle s (ensureRequest token sigs) c file).file s.pfx (ensureSet sigs) := by
  rcases handle_cases s (ensureRequest token sigs) c file with
    ⟨desired, raw, out, -, -, hbody, -, htext, -, hfile⟩ | ⟨happ, -⟩
  · rw [hfile, ← decodeBody_ensureBody hbody]
    exact managedIs_of_patchText htext
  · simp [Outcome.applied, h] at happ

/-! ### The system -/

/-- A PUT the server has not processed: the number of the call that sent it, and what it
carries. -/
structure Put where
  call : ℕ
  token : Str
  sigs : List NodeSIG

/-- A call of `Ensure` in progress, with the server's response once there is one. The
response is `none` if the handler panicked. -/
structure Call where
  sigs : List NodeSIG
  answer : Option (Option Response)

/-- The operator, the server, and the PUTs between them. -/
structure System where
  /-- the AS topology file -/
  file : Option Str
  /-- how many calls the operator has started -/
  started : ℕ
  /-- the PUTs on their way to the server or waiting for its mutex -/
  pending : List Put
  /-- the call in progress -/
  call : Option Call
  /-- the set of the last call, if it returned nil and no call was started since -/
  acked : Option (List NodeSIG)
  /-- the latest call whose PUT was answered 204 -/
  confirmed : ℕ

/-- Nothing has happened yet. -/
def System.initial (file : Option Str) : System :=
  ⟨file, 0, [], none, none, 0⟩

/-- What can happen. -/
inductive Event
  /-- the operator starts a call, once the last one has ended -/
  | start (token : Str) (sigs : List NodeSIG)
  /-- the server processes the `i`-th of the pending PUTs -/
  | process (i : ℕ) (c : Conditions)
  /-- the response reaches the operator, and the call returns -/
  | receive
  /-- the operator gives the call up, at a timeout or on a broken connection -/
  | abandon
  /-- the `i`-th of the pending PUTs never reaches the server -/
  | lose (i : ℕ)

/-- The server processes a PUT. Only the call that sent it, if it is still in progress, gets
the response. -/
def System.process (s : Server) (st : System) (i : ℕ) (put : Put) (c : Conditions) : System :=
  let o := handle s (ensureRequest put.token put.sigs) c st.file
  { st with
    file := o.file
    pending := st.pending.eraseIdx i
    call := st.call.map fun call =>
      if put.call = st.started then { call with answer := some o.response } else call
    confirmed := if o.status = some .noContent then max st.confirmed put.call else st.confirmed }

/-- One step of the system. -/
def step (s : Server) (st : System) : Event → Option System
  | .start token sigs =>
      match st.call with
      | some _ => none
      | none => some { st with
          started := st.started + 1
          pending := st.pending ++ [⟨st.started + 1, token, sigs⟩]
          call := some ⟨sigs, none⟩
          acked := none }
  | .process i c => st.pending[i]?.map fun put => st.process s i put c
  | .receive =>
      match st.call with
      | some ⟨sigs, some response⟩ => some { st with
          call := none
          acked := if ensureOk response then some sigs else none }
      | _ => none
  | .abandon =>
      match st.call with
      | some _ => some { st with call := none }
      | none => none
  | .lose i => if i < st.pending.length then some { st with pending := st.pending.eraseIdx i }
      else none

/-- The server processes no PUT of a call before one it has answered 204. -/
def inOrder (st : System) : Event → Bool
  | .process i _ => st.pending[i]?.all fun put => st.confirmed < put.call
  | _ => true

/-- What holds in every state of a run in order. A set that was acknowledged, or is about to
be, is the set in the file, and then no pending PUT may be processed. -/
structure Invariant (s : Server) (st : System) : Prop where
  pending_le : ∀ put ∈ st.pending, put.call ≤ st.started
  confirmed_le : st.confirmed ≤ st.started
  current : ∀ call, st.call = some call → ∀ put ∈ st.pending, put.call = st.started →
    put.sigs = call.sigs
  answered : ∀ sigs response, st.call = some ⟨sigs, some response⟩ → ensureOk response = true →
    st.confirmed = st.started ∧ ManagedIs st.file s.pfx (ensureSet sigs)
  acked : ∀ sigs, st.acked = some sigs →
    st.confirmed = st.started ∧ ManagedIs st.file s.pfx (ensureSet sigs)

/-- The invariant holds at the start. -/
theorem invariant_initial (s : Server) (file : Option Str) : Invariant s (.initial file) where
  pending_le := by simp [System.initial]
  confirmed_le := le_refl 0
  current := by simp [System.initial]
  answered := by simp [System.initial]
  acked := by simp [System.initial]

/-- Processing a PUT in order keeps the invariant. -/
theorem invariant_process {s : Server} {st : System} (h : Invariant s st) {i : ℕ} {put : Put}
    (hput : st.pending[i]? = some put) (horder : st.confirmed < put.call) (c : Conditions) :
    Invariant s (st.process s i put c) := by
  have hmem : put ∈ st.pending := List.mem_of_getElem? hput
  have hle := h.pending_le put hmem
  have hpending : ∀ p ∈ st.pending.eraseIdx i, p ∈ st.pending := fun p hp =>
    List.mem_of_mem_eraseIdx hp
  -- A confirmed latest call leaves no PUT that may be processed.
  have hopen : st.confirmed ≠ st.started := by omega
  constructor
  · intro p hp
    exact h.pending_le p (hpending p hp)
  · have := h.confirmed_le
    simp only [System.process]
    split_ifs <;> omega
  · intro call hcall p hp hlatest
    obtain ⟨call', hcall', rfl⟩ := Option.map_eq_some_iff.mp hcall
    rw [h.current call' hcall' p (hpending p hp) hlatest]
    split_ifs <;> rfl
  · intro sigs response hcall hok
    obtain ⟨call, hcall', heq⟩ := Option.map_eq_some_iff.mp hcall
    split_ifs at heq with hlatest
    · have hsigs := h.current call hcall' put hmem hlatest
      obtain ⟨rfl, hresp⟩ := Call.mk.inj heq
      obtain rfl := Option.some.inj hresp
      have hstatus : (handle s (ensureRequest put.token put.sigs) c st.file).status =
          some .noContent := by
        simpa [ensureOk, Outcome.status] using hok
      refine ⟨?_, ?_⟩
      · have := h.confirmed_le
        simp only [System.process, hstatus, if_true]
        omega
      · rw [← hsigs]
        exact managedIs_of_ensure hstatus
    · exact absurd (h.answered sigs response (hcall'.trans (congrArg some heq)) hok).1 hopen
  · intro sigs hacked
    exact absurd (h.acked sigs hacked).1 hopen

/-- Every step in order keeps the invariant. -/
theorem invariant_step {s : Server} (st : System) (e : Event) (st' : System)
    (h : Invariant s st) (horder : inOrder st e = true) (hstep : step s st e = some st') :
    Invariant s st' := by
  cases e with
  | start token sigs =>
      simp only [step] at hstep
      split at hstep
      · cases hstep
      · obtain rfl := Option.some.inj hstep
        refine ⟨?_, Nat.le_succ_of_le h.confirmed_le, ?_, by simp, by simp⟩
        · intro p hp
          rcases List.mem_append.mp hp with hp | hp
          · exact Nat.le_succ_of_le (h.pending_le p hp)
          · rw [List.mem_singleton.mp hp]
        · intro call hcall p hp hlatest
          obtain rfl := Option.some.inj hcall
          rcases List.mem_append.mp hp with hp | hp
          · exact absurd hlatest (Nat.ne_of_lt (Nat.lt_succ_of_le (h.pending_le p hp)))
          · rw [List.mem_singleton.mp hp]
  | process i c =>
      obtain ⟨put, hput, rfl⟩ := Option.map_eq_some_iff.mp hstep
      simp only [inOrder, hput, Option.all_some, decide_eq_true_eq] at horder
      exact invariant_process h hput horder c
  | receive =>
      simp only [step] at hstep
      split at hstep
      · rename_i sigs response hcall
        obtain rfl := Option.some.inj hstep
        refine ⟨h.pending_le, h.confirmed_le, by simp, by simp, fun sigs' hacked => ?_⟩
        simp only [Option.ite_none_right_eq_some, Option.some.injEq] at hacked
        obtain ⟨hok, rfl⟩ := hacked
        exact h.answered sigs response hcall hok
      · cases hstep
  | abandon =>
      simp only [step] at hstep
      split at hstep
      · obtain rfl := Option.some.inj hstep
        exact ⟨h.pending_le, h.confirmed_le, by simp, by simp, h.acked⟩
      · cases hstep
  | lose i =>
      simp only [step] at hstep
      split_ifs at hstep
      obtain rfl := Option.some.inj hstep
      exact ⟨fun p hp => h.pending_le p (List.mem_of_mem_eraseIdx hp), h.confirmed_le,
        fun call hcall p hp => h.current call hcall p (List.mem_of_mem_eraseIdx hp), h.answered,
        h.acked⟩

/-- **Agreement.** In every run in which the server processes no PUT of a call before one it
has answered 204: once a call has returned nil, and until the next call is started, the
managed entries in the topology file are exactly the set of that call. -/
theorem managedIs_of_inOrder (s : Server) (file : Option Str) (events : List Event) (st : System)
    (hrun : Transition.run (step s) (.initial file) events = some st)
    (horder : Transition.Always (step s) (fun st e => inOrder st e = true) (.initial file) events)
    (sigs : List NodeSIG) (hacked : st.acked = some sigs) :
    ManagedIs st.file s.pfx (ensureSet sigs) :=
  ((Transition.run_invariant invariant_step (invariant_initial s file) horder hrun).acked
    sigs hacked).2

/-- The gateway of one node. -/
def sampleNodeSIG : NodeSIG :=
  ⟨"n1".toList, "192.0.2.1:30256".toList, "192.0.2.1:30056".toList⟩

/-- A call that is acknowledged. -/
def acknowledgedRun : List Event :=
  [.start sampleServer.token [sampleNodeSIG], .process 0 ⟨none, false⟩, .receive]

/-- After one acknowledged call its gateway is the managed set. -/
theorem managedIs_of_acknowledgedRun :
    ∃ st, Transition.run (step sampleServer) (.initial (some sampleTopology)) acknowledgedRun =
        some st ∧ st.acked = some [sampleNodeSIG] ∧
      ManagedIs st.file sampleServer.pfx (ensureSet [sampleNodeSIG]) := by
  have hacked : ((Transition.run (step sampleServer) (.initial (some sampleTopology))
      acknowledgedRun).bind System.acked) = some [sampleNodeSIG] := by decide +kernel
  obtain ⟨st, hrun, hst⟩ := Option.bind_eq_some_iff.mp hacked
  exact ⟨st, hrun, hst, managedIs_of_inOrder sampleServer (some sampleTopology) acknowledgedRun st
    hrun (by decide +kernel) [sampleNodeSIG] hst⟩

/-- A call that is given up, then one that asks for no gateways and is acknowledged, as on
deletion; the PUT of the first call reaches the server last. -/
def staleRun : List Event :=
  [.start sampleServer.token [sampleNodeSIG], .abandon, .start sampleServer.token [],
    .process 1 ⟨none, false⟩, .receive, .process 0 ⟨none, false⟩]

/-- The gateway reappears after the empty set was acknowledged. -/
theorem stale_after_acknowledged :
    ∃ st, Transition.run (step sampleServer) (.initial (some sampleTopology)) staleRun = some st ∧
      st.acked = some [] ∧ ¬ ManagedIs st.file sampleServer.pfx (ensureSet []) := by
  have hstale : ((Transition.run (step sampleServer) (.initial (some sampleTopology))
      staleRun).map fun st => (st.acked, (managedEntry st.file sampleServer.pfx
        "n1".toList).isSome)) = some (some [], true) := by decide +kernel
  obtain ⟨st, hrun, hst⟩ := Option.map_eq_some_iff.mp hstale
  obtain ⟨hacked, hentry⟩ := Prod.mk.inj hst
  refine ⟨st, hrun, hacked, fun h => ?_⟩
  rw [h "n1".toList] at hentry
  simp [ensureSet, insertAll] at hentry

end ScionOperator.Registrar
