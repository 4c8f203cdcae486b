import ScionOperator.Topology

/-!
# The Registrar Server

The AS-side HTTP service in front of the topology file. Every request must carry the
bearer token; a mutex serialises the handlers, so that a run of the server is a list of
requests in the order in which they take the mutex. A PUT replaces the managed gateways and
reloads the control service, a GET prints the managed gateways.

## Main results

* `handle_cases`: what one request does to the file.
* `run_registrar`: after any requests the managed gateways are those of the last PUT that
  was applied, and everything else is as it was.
* `managedSigs_patchSigs_iff`: when the gateways of a PUT are read back.
-/

namespace ScionOperator.Registrar

open Text Json GoMap AtomicFile

/-! ### Requests and responses -/

/-- The methods the handler tells apart. -/
inductive Method
  | get
  | put
  | other
  deriving DecidableEq

/-- A request to `/v1/sigs`. A missing header reads as the empty string. -/
structure Request where
  method : Method
  authorization : Str
  body : Str

/-- What happens around a request: the system call that fails, if one does, and whether the
reload command fails. -/
structure Conditions where
  fault : Option Step
  reloadFails : Bool

/-- The status codes the handler answers with. -/
inductive Status
  /-- 200 -/
  | ok
  /-- 204 -/
  | noContent
  /-- 400 -/
  | badRequest
  /-- 401 -/
  | unauthorized
  /-- 405 -/
  | methodNotAllowed
  /-- 500 -/
  | internalServerError
  /-- 502 -/
  | badGateway
  deriving DecidableEq

/-- A response. The text of a 400 ends with the decoder's error, which is left out. -/
structure Response where
  status : Status
  body : Str
  deriving DecidableEq

/-- What comes of a request: the response, unless the handler panics, the file afterwards,
and whether the reload command ran. -/
structure Outcome where
  response : Option Response
  file : Option Str
  reloaded : Bool

/-- The status of an outcome. -/
def Outcome.status (o : Outcome) : Option Status :=
  o.response.map Response.status

/-- A server: the prefix of the managed names, and the token. -/
structure Server where
  pfx : Str
  token : Str

/-- The limit on the body of a PUT. -/
def maxBodyBytes : ℕ :=
  2 ^ 20

/-- An error response, as `http.Error` writes it. -/
def httpError (msg : String) (status : Status) : Response :=
  ⟨status, msg.toList ++ ['\n']⟩

/-! ### Handlers -/

/-- The gateways as JSON. -/
def sigsValue (m : GoMap SIG) : Value :=
  .obj (m.toList.map fun e => (e.1, e.2.value))

/-- The body of a GET that succeeds. -/
def encodeManaged (m : GoMap SIG) : Str :=
  marshal (sigsValue m) ++ ['\n']

/-- The gateways in the body of a PUT; `null` gives none. -/
def decodeBody (body : Str) : Option (GoMap SIG) := do
  let v ← decodeFirst maxBodyBytes body
  let desired ← decodeMap (decodeSIG true) v none
  pure (desired.getD ∅)

/-- Print the managed gateways. -/
def getSigs (s : Server) (c : Conditions) (file : Option Str) : Outcome :=
  match managedSigs c.fault s.pfx file with
  | none => ⟨some (httpError "reading topology" .internalServerError), file, false⟩
  | some managed => ⟨some ⟨.ok, encodeManaged managed⟩, file, false⟩

/-- Replace the managed gateways, and reload. -/
def putSigs (s : Server) (r : Request) (c : Conditions) (file : Option Str) : Outcome :=
  match decodeBody r.body with
  | none => ⟨some (httpError "invalid JSON body: " .badRequest), file, false⟩
  | some desired =>
      match patchSigs c.fault desired s.pfx file with
      | (.error .nilMap, file') => ⟨none, file', false⟩
      | (.error _, file') =>
          ⟨some (httpError "patching topology" .internalServerError), file', false⟩
      | (.ok (), file') =>
          if c.reloadFails then
            ⟨some (httpError "topology updated but reload failed" .badGateway), file', true⟩
          else ⟨some ⟨.noContent, []⟩, file', true⟩

/-- The handler behind the mutex. -/
def sigs (s : Server) (r : Request) (c : Conditions) (file : Option Str) : Outcome :=
  match r.method with
  | .get => getSigs s c file
  | .put => putSigs s r c file
  | .other => ⟨some (httpError "method not allowed" .methodNotAllowed), file, false⟩

/-- The header a client with some token sends. -/
def bearer (token : Str) : Str :=
  "Bearer ".toList ++ token

/-- Whether a request carries the token; an empty token authorizes nothing. -/
def Server.authorizes (s : Server) (r : Request) : Bool :=
  s.token ≠ [] && bearer s.token = r.authorization

/-- Handle a request. -/
def handle (s : Server) (r : Request) (c : Conditions) (file : Option Str) : Outcome :=
  if s.authorizes r then sigs s r c file
  else ⟨some (httpError "unauthorized" .unauthorized), file, false⟩

/-- The outcomes that change the file: the topology was patched, and reloading then
succeeded or failed. -/
def Outcome.applied (o : Outcome) : Bool :=
  o.status = some .noContent || o.status = some .badGateway

/-- Which outcomes change the file. -/
theorem Outcome.applied_iff {o : Outcome} :
    o.applied = true ↔ o.status = some .noContent ∨ o.status = some .badGateway := by
  simp [applied]

/-- What one request does. Either it is an authorized PUT whose gateways were patched into
the file, or the file is unchanged and nothing was reloaded. The handler panics only if
patching does. -/
theorem handle_cases (s : Server) (r : Request) (c : Conditions) (file : Option Str) :
    (∃ desired raw out, s.authorizes r = true ∧ r.method = .put ∧
        decodeBody r.body = some desired ∧ file = some raw ∧
        patchText raw desired s.pfx = .ok out ∧ (handle s r c file).applied = true ∧
        (handle s r c file).file = some out) ∨
      ((handle s r c file).applied = false ∧ (handle s r c file).file = file ∧
        (handle s r c file).reloaded = false ∧
        ((handle s r c file).response = none → ∃ desired raw, file = some raw ∧
          patchText raw desired s.pfx = .error .nilMap)) := by
  rw [handle]
  split_ifs with hauth
  · rw [sigs]
    cases hm : r.method with
    | get =>
        right
        simp only [getSigs]
        cases managedSigs c.fault s.pfx file <;>
          simp [Outcome.applied, Outcome.status, httpError]
    | other =>
        right
        simp [Outcome.applied, Outcome.status, httpError]
    | put =>
        simp only [putSigs]
        cases hbody : decodeBody r.body with
        | none =>
            right
            simp [Outcome.applied, Outcome.status, httpError]
        | some desired =>
            rcases patchSigs_cases c.fault desired s.pfx file with
              ⟨raw, out, hfile, htext, hpatch⟩ | ⟨e, hpatch, hpanic⟩
            · left
              refine ⟨desired, raw, out, hauth, trivial, rfl, hfile, htext, ?_⟩
              simp only [hpatch]
              split_ifs <;> simp [Outcome.applied, Outcome.status, httpError]
            · right
              simp only [hpatch]
              cases e with
              | nilMap =>
                  obtain ⟨raw, hfile, htext⟩ := hpanic rfl
                  exact ⟨rfl, rfl, rfl, fun _ => ⟨desired, raw, hfile, htext⟩⟩
              | file step => simp [Outcome.applied, Outcome.status, httpError]
              | parsing => simp [Outcome.applied, Outcome.status, httpError]
              | parsingSigs => simp [Outcome.applied, Outcome.status, httpError]
  · right
    simp [Outcome.applied, Outcome.status, httpError]

/-! ### Runs -/

/-- One request of a run, with the file before it and what came of it. -/
structure Exchange where
  request : Request
  before : Option Str
  outcome : Outcome

/-- The requests of a run, one after another. -/
def run (s : Server) : Option Str → List (Request × Conditions) → List Exchange
  | _, [] => []
  | file, (r, c) :: rest =>
      ⟨r, file, handle s r c file⟩ :: run s (handle s r c file).file rest

/-- The file after a run. -/
def finalFile (file : Option Str) : List Exchange → Option Str
  | [] => file
  | e :: log => finalFile e.outcome.file log

/-- The last request of a run that was answered 204 or 502. -/
def lastApplied (log : List Exchange) : Option Exchange :=
  (log.filter fun e => e.outcome.applied).getLast?

/-- A file that holds a document with these members and these `sigs` entries. -/
structure Holds (file : Option Str) (topo entries : GoMap Value) : Prop where
  members : file.bind topLevel = some topo
  entries : sigsEntries topo = some entries

/-- What one request does to a document: it stays, or its entries are merged with the
gateways of the request. -/
theorem handle_holds {s : Server} {r : Request} {c : Conditions} {file : Option Str}
    {topo entries : GoMap Value} (h : Holds file topo entries) :
    ((handle s r c file).applied = true ∧ ∃ desired, decodeBody r.body = some desired ∧
        Holds (handle s r c file).file
          (topo.insert sigsKey (.obj (mergeSigs entries desired s.pfx).toList))
          (mergeSigs entries desired s.pfx)) ∨
      ((handle s r c file).applied = false ∧ (handle s r c file).file = file ∧
        (handle s r c file).reloaded = false ∧ (handle s r c file).response ≠ none) := by
  obtain ⟨ht, hs⟩ := h
  rcases handle_cases s r c file with
    ⟨desired, raw, out, -, -, hbody, rfl, htext, happ, hfile⟩ | ⟨happ, hfile, hrel, hpanic⟩
  · left
    rw [patchText_of_sigsEntries ht hs] at htext
    obtain rfl := Except.ok.inj htext
    refine ⟨happ, desired, hbody, ?_, sigsEntries_insert _ _⟩
    rw [hfile]
    exact topLevel_patched ht (.inl ⟨entries, hs, rfl⟩)
  · right
    refine ⟨happ, hfile, hrel, fun hnone => ?_⟩
    obtain ⟨desired, raw, rfl, herr⟩ := hpanic hnone
    rw [patchText_of_sigsEntries ht hs] at herr
    cases herr

/-- What holds after a run that began with a document: the members but `sigs` and the
entries without the prefix are as they were, and the entries with the prefix are those of
the last request that was applied. -/
structure Agrees (s : Server) (topo entries : GoMap Value) (log : List Exchange)
    (topo' entries' : GoMap Value) : Prop where
  others : ∀ k : Str, k ≠ sigsKey → topo'[k]? = topo[k]?
  unmanaged : ∀ k : Str, s.pfx.isPrefixOf k = false → entries'[k]? = entries[k]?
  managed : match lastApplied log with
    | none => ∀ n : Str, entries'[s.pfx ++ n]? = entries[s.pfx ++ n]?
    | some e => ∃ desired, decodeBody e.request.body = some desired ∧
        ∀ n : Str, entries'[s.pfx ++ n]? = desired[n]?.map SIG.value

/-- The managed entries after a run in which a request was applied. -/
theorem Agrees.managed_of_lastApplied {s : Server} {topo entries topo' entries' : GoMap Value}
    {log : List Exchange} (h : Agrees s topo entries log topo' entries') {e : Exchange}
    (he : lastApplied log = some e) :
    ∃ desired, decodeBody e.request.body = some desired ∧
      ∀ n : Str, entries'[s.pfx ++ n]? = desired[n]?.map SIG.value := by
  have hmanaged := h.managed
  rw [he] at hmanaged
  exact hmanaged

/-- The last request applied, seen from the first one. -/
theorem lastApplied_cons (e : Exchange) (log : List Exchange) :
    lastApplied (e :: log) =
      (lastApplied log).or (if e.outcome.applied then some e else none) := by
  rw [lastApplied, lastApplied, List.filter_cons]
  split_ifs
  · rw [List.getLast?_cons]
    cases (log.filter fun e => e.outcome.applied).getLast? <;> rfl
  · rw [Option.or_none]

/-- A run keeps a document, up to the entries of the last request that was applied. -/
theorem run_holds {s : Server} {file : Option Str} {topo entries : GoMap Value}
    (h : Holds file topo entries) (requests : List (Request × Conditions)) :
    ∃ topo' entries', Holds (finalFile file (run s file requests)) topo' entries' ∧
      Agrees s topo entries (run s file requests) topo' entries' := by
  induction requests generalizing file topo entries with
  | nil => exact ⟨topo, entries, h, fun _ _ => rfl, fun _ _ => rfl, fun _ => rfl⟩
  | cons q requests ih =>
      obtain ⟨r, c⟩ := q
      rw [run, finalFile]
      rcases handle_holds (s := s) (r := r) (c := c) h with
        ⟨happ, desired, hbody, hstep⟩ | ⟨happ, hfile, -, -⟩
      · obtain ⟨topo', entries', hfinal, hothers, hunmanaged, hmanaged⟩ := ih hstep
        refine ⟨topo', entries', hfinal, fun k hk => ?_, fun k hk => ?_, ?_⟩
        · rw [hothers k hk, getElem?_insert, if_neg (Ne.symm hk)]
        · rw [hunmanaged k hk, getElem?_mergeSigs_other _ _ hk]
        · rw [lastApplied_cons, if_pos happ]
          cases hlast : lastApplied (run s (handle s r c file).file requests) with
          | none =>
              rw [hlast] at hmanaged
              refine ⟨desired, hbody, fun n => ?_⟩
              rw [hmanaged n, getElem?_mergeSigs_managed]
          | some e =>
              rw [hlast] at hmanaged
              exact hmanaged
      · rw [hfile]
        obtain ⟨topo', entries', hfinal, hothers, hunmanaged, hmanaged⟩ := ih h
        refine ⟨topo', entries', hfinal, hothers, hunmanaged, ?_⟩
        rw [lastApplied_cons, happ]
        simpa using hmanaged

/-- Every request of a run is one step from a file that holds a document. -/
theorem mem_run_holds {s : Server} {file : Option Str} {topo entries : GoMap Value}
    (h : Holds file topo entries) {requests : List (Request × Conditions)} {e : Exchange}
    (he : e ∈ run s file requests) :
    ∃ c topo' entries', Holds e.before topo' entries' ∧
      e.outcome = handle s e.request c e.before := by
  induction requests generalizing file topo entries with
  | nil => cases he
  | cons q requests ih =>
      obtain ⟨r, c⟩ := q
      rw [run] at he
      rcases List.mem_cons.mp he with rfl | he
      · exact ⟨c, topo, entries, h, rfl⟩
      · rcases handle_holds (s := s) (r := r) (c := c) h with
          ⟨-, desired, -, hstep⟩ | ⟨-, hfile, -, -⟩
        · exact ih hstep he
        · rw [hfile] at he
          exact ih h he

/-- **Runs of the registrar.** After any requests to a server that starts with a document
whose `sigs` member is absent or an object, the file holds such a document again: its other
members and the entries without the prefix are as at the start, and the entries with the
prefix are those of the last request answered 204 or 502. Every request is answered; one
answered 400, 401, 405 or 500 left the file alone and reloaded nothing. With an empty token
every request is answered 401. -/
theorem run_registrar (s : Server) (text : Str) (topo entries : GoMap Value)
    (ht : topLevel text = some topo) (hs : sigsEntries topo = some entries)
    (requests : List (Request × Conditions)) :
    (∃ text' topo' entries', finalFile (some text) (run s (some text) requests) = some text' ∧
        topLevel text' = some topo' ∧ sigsEntries topo' = some entries' ∧
        Agrees s topo entries (run s (some text) requests) topo' entries') ∧
      (∀ e ∈ run s (some text) requests, e.outcome.response ≠ none ∧
        (e.outcome.status ∈ [some .badRequest, some .unauthorized, some .methodNotAllowed,
            some .internalServerError] →
          e.outcome.file = e.before ∧ e.outcome.reloaded = false)) ∧
      (s.token = [] → ∀ e ∈ run s (some text) requests,
        e.outcome.status = some .unauthorized) := by
  have h : Holds (some text) topo entries := ⟨ht, hs⟩
  refine ⟨?_, fun e he => ?_, fun htok e he => ?_⟩
  · obtain ⟨topo', entries', ⟨ht', hs'⟩, hagrees⟩ := run_holds h requests
    obtain ⟨text', hfile, ht'⟩ := Option.bind_eq_some_iff.mp ht'
    exact ⟨text', topo', entries', hfile, ht', hs', hagrees⟩
  · obtain ⟨c, topo', entries', hbefore, hout⟩ := mem_run_holds h he
    rw [hout]
    rcases handle_holds (s := s) (r := e.request) (c := c) hbefore with
      ⟨happ, -⟩ | ⟨-, hfile, hrel, hresp⟩
    · rw [Outcome.applied_iff] at happ
      refine ⟨fun hnone => ?_, fun hstatus => ?_⟩
      · simp [Outcome.status, hnone] at happ
      · rcases happ with happ | happ <;> simp [happ] at hstatus
    · exact ⟨hresp, fun _ => ⟨hfile, hrel⟩⟩
  · obtain ⟨c, -, -, -, hout⟩ := mem_run_holds h he
    rw [hout, handle, if_neg (by simp [Server.authorizes, htok])]
    rfl

/-- A topology with a gateway entered by hand and one that is managed. -/
def sampleTopology : Str :=
  "\x7b\"isd_as\":\"1-ff00:0:110\",\"sigs\":\x7b\"hand\":\x7b\"ctrl_addr\":\"a\"\x7d,\"k8s-old\":\x7b\x7d\x7d\x7d".toList

/-- A server for that topology. -/
def sampleServer : Server :=
  ⟨"k8s-".toList, "secret".toList⟩

/-- A PUT of one gateway. -/
def samplePut : Request :=
  ⟨.put, "Bearer secret".toList,
    "\x7b\"n1\":\x7b\"ctrl_addr\":\"192.0.2.1:30256\",\"data_addr\":\"192.0.2.1:30056\"\x7d\x7d".toList⟩

/-- The gateway of that PUT. -/
def sampleSIG : SIG :=
  ⟨"192.0.2.1:30256".toList, "192.0.2.1:30056".toList⟩

/-- The gateways of that PUT. -/
def sampleDesired : GoMap SIG :=
  insertAll ∅ [("n1".toList, sampleSIG)]

/-- Two requests, a PUT whose reload fails and one without the token. -/
def sampleRequests : List (Request × Conditions) :=
  [(samplePut, ⟨none, true⟩), (⟨.put, [], []⟩, ⟨none, false⟩)]

/-- After these requests the new gateway is entered and the old one is gone. -/
theorem managed_of_sampleRequests :
    ∃ text topo entries,
      finalFile (some sampleTopology) (run sampleServer (some sampleTopology) sampleRequests) =
        some text ∧ topLevel text = some topo ∧ sigsEntries topo = some entries ∧
      entries["k8s-n1".toList]? = some sampleSIG.value ∧ entries["k8s-old".toList]? = none := by
  have hdoc : ((topLevel sampleTopology).bind sigsEntries).isSome = true := by decide +kernel
  obtain ⟨entries, hbind⟩ := Option.isSome_iff_exists.mp hdoc
  obtain ⟨topo, ht, hs⟩ := Option.bind_eq_some_iff.mp hbind
  obtain ⟨text', topo', entries', hfile, ht', hs', hagrees⟩ :=
    (run_registrar sampleServer sampleTopology topo entries ht hs sampleRequests).1
  have hlast : (lastApplied (run sampleServer (some sampleTopology) sampleRequests)).map
      (fun e => decodeBody e.request.body) = some (some sampleDesired) := by decide +kernel
  obtain ⟨e, he, hbody⟩ := Option.map_eq_some_iff.mp hlast
  obtain ⟨desired, hdesired, hentries⟩ := hagrees.managed_of_lastApplied he
  have hsample : sampleDesired = desired := Option.some.inj (hbody.symm.trans hdesired)
  have hn1 : sampleServer.pfx ++ "n1".toList = "k8s-n1".toList := by decide +kernel
  have hold : sampleServer.pfx ++ "old".toList = "k8s-old".toList := by decide +kernel
  have hget : sampleDesired["n1".toList]? = some sampleSIG := by decide +kernel
  have hnone : sampleDesired["old".toList]? = none := by decide +kernel
  refine ⟨text', topo', entries', hfile, ht', hs', ?_, ?_⟩
  · rw [← hn1, hentries, ← hsample, hget, Option.map_some]
  · rw [← hold, hentries, ← hsample, hnone, Option.map_none]

/-! ### Reading back over HTTP -/

/-- Printed gateways are not deep. -/
theorem depth_sigsValue_le (m : GoMap SIG) : (sigsValue m).depth ≤ 2 := by
  rw [sigsValue, Value.depth, Nat.add_le_add_iff_right, depthMembers_le]
  intro e he
  obtain ⟨e', -, rfl⟩ := List.mem_map.mp he
  exact le_of_eq e'.2.depth_value

/-- Gateways are determined by their JSON. -/
theorem sigsValue_injective : Function.Injective sigsValue := by
  intro m m' h
  have hpair : Function.Injective fun e : Str × SIG => (e.1, e.2.value) := by
    rintro ⟨k, s⟩ ⟨k', s'⟩ heq
    obtain ⟨rfl, hv⟩ := Prod.mk.inj heq
    exact congrArg (Prod.mk k) (SIG.value_injective hv)
  exact Std.ExtTreeMap.toList_inj.mp (hpair.list_map (Value.obj.inj h))

/-- Gateways are determined by the text of a GET. -/
theorem encodeManaged_injective : Function.Injective encodeManaged := by
  intro m m' h
  have hread : ∀ m : GoMap SIG, unmarshal (encodeManaged m) = some (sigsValue m) := fun m =>
    unmarshal_print (le_trans (depth_sigsValue_le m) (by decide)) (by simp [isBlank])
  have heq := hread m
  rw [h, hread m'] at heq
  exact (sigsValue_injective (Option.some.inj heq)).symm

/-- A GET that reaches the file returns what the reader gets from it. -/
theorem handle_get {s : Server} {r : Request} (hm : r.method = .get)
    (hauth : s.authorizes r = true) {c : Conditions} (hc : c.fault = none) (file : Option Str)
    (m : GoMap SIG) :
    (handle s r c file).response = some ⟨.ok, encodeManaged m⟩ ↔
      managedSigs none s.pfx file = some m := by
  rw [handle, if_pos hauth, sigs, hm, getSigs, hc]
  cases managedSigs none s.pfx file with
  | none => simp [httpError]
  | some m' => simp [encodeManaged_injective.eq_iff]

/-- Reading an intact file is reading its text. -/
theorem managedSigs_some (pfx raw : Str) :
    managedSigs none pfx (some raw) = managedText raw pfx := by
  rfl

/-- **Reading back.** After a successful patch the reader gets back the desired gateways
exactly when the topology the patch was applied to lets it; and so a GET after a PUT
answered 204 returns the gateways of that PUT exactly then. -/
theorem managedSigs_patchSigs_iff (file : Option Str) :
    (∀ (fault : Option Step) (desired : GoMap SIG) (pfx : Str) (file' : Option Str),
      patchSigs fault desired pfx file = (.ok (), file') →
        ∃ topo, file.bind topLevel = some topo ∧
          (managedSigs none pfx file' = some desired ↔ ReadsBack topo desired pfx)) ∧
      ∀ (s : Server) (r : Request) (c : Conditions),
        (handle s r c file).status = some .noContent →
          ∃ desired topo, decodeBody r.body = some desired ∧ file.bind topLevel = some topo ∧
            ∀ (r' : Request) (c' : Conditions), r'.method = .get → s.authorizes r' = true →
              c'.fault = none →
                ((handle s r' c' (handle s r c file).file).response =
                    some ⟨.ok, encodeManaged desired⟩ ↔ ReadsBack topo desired s.pfx) := by
  constructor
  · intro fault desired pfx file' hpatch
    obtain ⟨raw, out, rfl, rfl, htext⟩ := patchText_of_patchSigs hpatch
    obtain ⟨topo, enc, ht, he, rfl⟩ := patchText_eq_ok_iff.mp htext
    exact ⟨topo, ht, managedText_patched_iff ht he⟩
  · intro s r c hstatus
    rcases handle_cases s r c file with
      ⟨desired, raw, out, -, -, hbody, rfl, htext, -, hfile⟩ | ⟨happ, -⟩
    · obtain ⟨topo, enc, ht, he, rfl⟩ := patchText_eq_ok_iff.mp htext
      refine ⟨desired, topo, hbody, ht, fun r' c' hm hauth hc => ?_⟩
      rw [hfile, handle_get hm hauth hc, managedSigs_some, managedText_patched_iff ht he]
    · simp [Outcome.applied, hstatus] at happ

/-- A GET with the token. -/
def sampleGet : Request :=
  ⟨.get, "Bearer secret".toList, []⟩

/-- A gateway entered by hand does not keep the reader from the managed ones. -/
theorem readsBack_sampleTopology :
    ∃ topo, topLevel sampleTopology = some topo ∧ ReadsBack topo sampleDesired sampleServer.pfx ∧
      (handle sampleServer sampleGet ⟨none, false⟩
        (handle sampleServer samplePut ⟨none, false⟩ (some sampleTopology)).file).response =
          some ⟨.ok, encodeManaged sampleDesired⟩ := by
  have hok : (patchSigs none sampleDesired sampleServer.pfx (some sampleTopology)).1 = .ok () := by
    decide +kernel
  have hback : managedSigs none sampleServer.pfx
      (patchSigs none sampleDesired sampleServer.pfx (some sampleTopology)).2 =
        some sampleDesired := by
    decide +kernel
  obtain ⟨out, hpatch⟩ := exists_patchSigs_eq hok
  obtain ⟨topo, ht, hiff⟩ := (managedSigs_patchSigs_iff (some sampleTopology)).1 _ _ _ _ hpatch
  rw [hpatch] at hback
  have hreads : ReadsBack topo sampleDesired sampleServer.pfx := hiff.mp hback
  obtain ⟨desired, topo', hbody, ht', hget⟩ := (managedSigs_patchSigs_iff (some sampleTopology)).2
    sampleServer samplePut ⟨none, false⟩ (by decide +kernel)
  have hsample : decodeBody samplePut.body = some sampleDesired := by decide +kernel
  obtain rfl := Option.some.inj (ht.symm.trans ht')
  obtain rfl := Option.some.inj (hsample.symm.trans hbody)
  rw [Option.bind_some] at ht
  exact ⟨topo, ht, hreads,
    (hget sampleGet ⟨none, false⟩ rfl (by decide +kernel) rfl).mpr hreads⟩

/-- A topology that spells the member in another way. -/
def upperTopology : Str :=
  "\x7b\"SIGS\":\x7b\"k8s-old\":\x7b\"ctrl_addr\":\"a\",\"data_addr\":\"b\"\x7d\x7d\x7d".toList

/-- A topology with an entry that is no gateway. -/
def handTopology : Str :=
  "\x7b\"sigs\":\x7b\"hand\":\x7b\"ctrl_addr\":5\x7d\x7d\x7d".toList

/-- After a PUT answered 204, a GET returns more than the PUT entered if another member has
the name `SIGS`, and fails if an entry is no gateway. -/
theorem not_read_back_after_put :
    (patchSigs none sampleDesired sampleServer.pfx (some upperTopology)).1 = .ok () ∧
    managedSigs none sampleServer.pfx
        (patchSigs none sampleDesired sampleServer.pfx (some upperTopology)).2 =
      some (insertAll sampleDesired [("old".toList, ⟨"a".toList, "b".toList⟩)]) ∧
    managedSigs none sampleServer.pfx
        (patchSigs none sampleDesired sampleServer.pfx (some upperTopology)).2 ≠
      some sampleDesired ∧
    (handle sampleServer samplePut ⟨none, false⟩ (some handTopology)).status = some .noContent ∧
    (handle sampleServer sampleGet ⟨none, false⟩
      (handle sampleServer samplePut ⟨none, false⟩ (some handTopology)).file).status =
        some .internalServerError := by
  have hread : managedSigs none sampleServer.pfx
      (patchSigs none sampleDesired sampleServer.pfx (some upperTopology)).2 =
        some (insertAll sampleDesired [("old".toList, ⟨"a".toList, "b".toList⟩)]) := by
    decide +kernel
  refine ⟨by decide +kernel, hread, ?_, by decide +kernel, by decide +kernel⟩
  rw [hread]
  decide +kernel

end ScionOperator.Registrar
