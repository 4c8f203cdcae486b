import ScionOperator.GoMap
import ScionOperator.Transition

/-!
# Authentication of Metrics Requests

The metrics endpoint of the agent asks the API server whether the bearer token of a request is
valid (a TokenReview) and whether its user may read the metrics (a SubjectAccessReview). Tokens
for which both were answered with yes are remembered for two minutes. Looking a token up and
storing it are two critical sections, and between them the request waits for the two reviews;
meanwhile other requests look up, store, and make the cache start over.

Requests run concurrently, as a system of steps; the answers of the API server are arbitrary,
and the clock does not run backwards. A log records what was looked up, answered and stored.
Every request that passes is traced back to a check of its token that was answered with yes
twice.

## Main results

* `invariant_step`: what every step keeps, one case per phase of a request.
* `secure_of_run`: **only approved tokens pass**, in every run.
-/

namespace ScionOperator.MetricsAuth

open Text

/-! ### Requests -/

/-- What is read of a request: its path and the `Authorization` header, empty if there is
none. -/
structure Request where
  path : Str
  authorization : Str
  deriving DecidableEq

/-- The user a TokenReview reports. -/
structure User where
  username : Str
  groups : List Str
  uid : Str
  deriving DecidableEq

/-- The answer to a TokenReview. -/
structure TokenReview where
  authenticated : Bool
  user : User

/-- The scheme of a bearer token, with the space after it. -/
def bearer : Str :=
  "Bearer ".toList

/-- The bearer token of a request, if it has one that is not empty. -/
def bearerToken (r : Request) : Option Str :=
  if bearer.isPrefixOf r.authorization ∧ r.authorization.drop bearer.length ≠ [] then
    some (r.authorization.drop bearer.length)
  else none

/-- How long a decision is remembered: two minutes, in nanoseconds. -/
def cacheTTL : ℕ :=
  120000000000

/-- How many tokens are remembered at most. -/
def cacheMax : ℕ :=
  128

/-! ### The system -/

/-- Where a request is. -/
inductive Phase
  | absent
  /-- it is about to look up its token -/
  | checking (r : Request) (token : Str)
  /-- it waits for the TokenReview -/
  | reviewing (r : Request) (token : Str)
  /-- it waits for the SubjectAccessReview -/
  | authorizing (r : Request) (token : Str) (user : User)
  /-- it is about to store its token -/
  | storing (r : Request) (token : Str)
  /-- it has reached the wrapped handler -/
  | served (r : Request)
  /-- it was answered with an error -/
  | rejected (status : ℕ)
  deriving DecidableEq

/-- What happened. An answer that is missing is an error. -/
inductive Entry
  | lookedUp (id : ℕ) (token : Str) (time : ℕ)
  | reviewed (id : ℕ) (token : Str) (answer : Option TokenReview)
  | authorized (id : ℕ) (user : User) (allowed : Option Bool)
  | stored (id : ℕ) (token : Str) (time : ℕ)

/-- The clock, the cache with the times at which its tokens expire, the requests, and what
happened so far, the latest first. -/
structure State where
  now : ℕ
  allowed : GoMap ℕ
  phase : ℕ → Phase
  log : List Entry

/-- The state in which the endpoint is started. -/
def State.initial (now : ℕ) : State :=
  ⟨now, ∅, fun _ => .absent, []⟩

/-- What can happen: time passes, or a request goes on. -/
inductive Event
  | wait (d : ℕ)
  | arrive (id : ℕ) (r : Request)
  | lookup (id : ℕ)
  | review (id : ℕ) (answer : Option TokenReview)
  | authorize (id : ℕ) (allowed : Option Bool)
  | store (id : ℕ)

/-- A request goes on to another phase. -/
def State.goto (s : State) (id : ℕ) (p : Phase) : State :=
  { s with phase := Function.update s.phase id p }

/-- Something happened. -/
def State.record (s : State) (e : Entry) : State :=
  { s with log := e :: s.log }

/-- A token that is remembered and has not expired. -/
def State.isCached (s : State) (token : Str) : Bool :=
  s.allowed[token]?.any fun exp => s.now < exp

/-- Remember a token; a full cache starts over. -/
def State.remember (s : State) (token : Str) : State :=
  let allowed := if s.allowed.size ≥ cacheMax then ∅ else s.allowed
  { s with allowed := allowed.insert token (s.now + cacheTTL) }

/-- The phase of a request that arrives: it passes if its path needs no token, and is rejected if it
should have one and has none. -/
def arrival (unauthenticated : List Str) (r : Request) : Phase :=
  if unauthenticated.contains r.path then .served r
  else
    match bearerToken r with
    | none => .rejected 401
    | some token => .checking r token

/-- The phase after the TokenReview was answered. -/
def afterReview (r : Request) (token : Str) : Option TokenReview → Phase
  | none => .rejected 500
  | some answer => if answer.authenticated then .authorizing r token answer.user else .rejected 401

/-- The phase after the SubjectAccessReview was answered. -/
def afterAuthorize (r : Request) (token : Str) : Option Bool → Phase
  | none => .rejected 500
  | some allowed => if allowed then .storing r token else .rejected 403

/-- One step of the endpoint, with the paths that need no token. -/
def step (unauthenticated : List Str) (s : State) : Event → Option State
  | .wait d => some { s with now := s.now + d }
  | .arrive id r =>
      match s.phase id with
      | .absent => some (s.goto id (arrival unauthenticated r))
      | _ => none
  | .lookup id =>
      match s.phase id with
      | .checking r token =>
          some ((s.goto id (if s.isCached token then .served r else .reviewing r token)).record
            (.lookedUp id token s.now))
      | _ => none
  | .review id answer =>
      match s.phase id with
      | .reviewing r token =>
          some ((s.goto id (afterReview r token answer)).record (.reviewed id token answer))
      | _ => none
  | .authorize id allowed =>
      match s.phase id with
      | .authorizing r token user =>
          some ((s.goto id (afterAuthorize r token allowed)).record (.authorized id user allowed))
      | _ => none
  | .store id =>
      match s.phase id with
      | .storing r token =>
          some (((s.remember token).goto id (.served r)).record (.stored id token s.now))
      | _ => none

/-! ### What is allowed -/

/-- The check of a request was answered with yes twice: its token is valid, and the user it
belongs to may read the metrics. -/
def Approved (log : List Entry) (id : ℕ) (token : Str) : Prop :=
  ∃ answer : TokenReview, answer.authenticated = true ∧ .reviewed id token (some answer) ∈ log ∧
    .authorized id answer.user (some true) ∈ log

/-- A request may pass: its own check was approved, or it looked its token up less than two
minutes after an approved check of the same token had stored it. -/
def Granted (log : List Entry) (id : ℕ) (token : Str) : Prop :=
  Approved log id token ∨
    ∃ time older, .lookedUp id token time :: older <:+ log ∧
      ∃ id' time', .stored id' token time' ∈ older ∧ Approved older id' token ∧
        time' ≤ time ∧ time < time' + cacheTTL

/-- A review of a request was rejected or failed. -/
def Refused (log : List Entry) (id : ℕ) : Prop :=
  (∃ token answer, .reviewed id token answer ∈ log ∧
      answer.any TokenReview.authenticated = false) ∨
    ∃ user allowed, .authorized id user allowed ∈ log ∧ allowed ≠ some true

/-- What is promised. -/
structure Secure (unauthenticated : List Str) (s : State) : Prop where
  /-- a request that passes may pass, if its path needs a token -/
  granted : ∀ id r, s.phase id = .served r → r.path ∉ unauthenticated →
    ∃ token, token ≠ [] ∧ r.authorization = bearer ++ token ∧ Granted s.log id token
  /-- every token that was stored was approved, by the check that stored it -/
  approved : ∀ id token time, .stored id token time ∈ s.log → Approved s.log id token
  /-- a request with a review that was rejected or failed stores nothing and does not pass -/
  refused : ∀ id, Refused s.log id →
    (∀ token time, .stored id token time ∉ s.log) ∧ ∀ r, s.phase id ≠ .served r
  /-- the cache is bounded -/
  size_le : s.allowed.size ≤ cacheMax

/-! ### What is kept -/

/-- A request carries a token, which its path needs. -/
def Carries (unauthenticated : List Str) (r : Request) (token : Str) : Prop :=
  r.path ∉ unauthenticated ∧ token ≠ [] ∧ r.authorization = bearer ++ token

/-- What is known of a request in each phase. -/
def PhaseOk (unauthenticated : List Str) (log : List Entry) (id : ℕ) : Phase → Prop
  | .absent | .rejected _ => True
  | .checking r token | .reviewing r token => Carries unauthenticated r token
  | .authorizing r token user => Carries unauthenticated r token ∧
      ∃ answer : TokenReview, answer.authenticated = true ∧ answer.user = user ∧
        .reviewed id token (some answer) ∈ log
  | .storing r token => Carries unauthenticated r token ∧ Approved log id token
  | .served r => r.path ∈ unauthenticated ∨
      ∃ token, Carries unauthenticated r token ∧ Granted log id token

/-- A request that is not answered yet. -/
def Phase.isActive : Phase → Bool
  | .served _ | .rejected _ => false
  | _ => true

/-- The invariant of the endpoint. -/
structure Invariant (unauthenticated : List Str) (s : State) : Prop where
  phases : ∀ id, PhaseOk unauthenticated s.log id (s.phase id)
  cached : ∀ token exp, s.allowed[token]? = some exp →
    ∃ id time, .stored id token time ∈ s.log ∧ exp = time + cacheTTL
  stored : ∀ id token time, .stored id token time ∈ s.log →
    Approved s.log id token ∧ time ≤ s.now ∧ ∃ r, s.phase id = .served r
  refused : ∀ id, Refused s.log id → ∃ status, s.phase id = .rejected status
  size_le : s.allowed.size ≤ cacheMax

/-- What was approved stays so. -/
theorem Approved.append {log : List Entry} {id : ℕ} {token : Str} (h : Approved log id token)
    (es : List Entry) : Approved (es ++ log) id token := by
  obtain ⟨answer, hauth, hreviewed, hallowed⟩ := h
  exact ⟨answer, hauth, List.mem_append_right es hreviewed, List.mem_append_right es hallowed⟩

/-- What was granted stays so. -/
theorem Granted.append {log : List Entry} {id : ℕ} {token : Str} (h : Granted log id token)
    (es : List Entry) : Granted (es ++ log) id token := by
  rcases h with h | ⟨time, older, holder, h⟩
  · exact .inl (h.append es)
  · exact .inr ⟨time, older, holder.trans (List.suffix_append es log), h⟩

/-- What is known of a request stays so while it does not go on. -/
theorem PhaseOk.append {unauthenticated : List Str} {log : List Entry} {id : ℕ} {p : Phase}
    (h : PhaseOk unauthenticated log id p) (es : List Entry) :
    PhaseOk unauthenticated (es ++ log) id p := by
  cases p with
  | absent | rejected => trivial
  | checking | reviewing => exact h
  | authorizing r token user =>
      obtain ⟨hcarries, answer, hauth, huser, hreviewed⟩ := h
      exact ⟨hcarries, answer, hauth, huser, List.mem_append_right es hreviewed⟩
  | storing r token => exact ⟨h.1, h.2.append es⟩
  | served r =>
      rcases h with h | ⟨token, hcarries, hgranted⟩
      · exact .inl h
      · exact .inr ⟨token, hcarries, hgranted.append es⟩

/-- A refusal is in the one part of a log or in the other. -/
theorem refused_append_iff {es log : List Entry} {id : ℕ} :
    Refused (es ++ log) id ↔ Refused es id ∨ Refused log id := by
  simp only [Refused, List.mem_append, or_and_right, exists_or]
  exact or_or_or_comm

/-- One request goes on, and what happens is recorded. -/
theorem Invariant.advance {unauthenticated : List Str} {s : State}
    (h : Invariant unauthenticated s) {id : ℕ} (hactive : (s.phase id).isActive = true)
    {p : Phase} (es : List Entry) (hp : PhaseOk unauthenticated (es ++ s.log) id p)
    (hstored : ∀ id' token time, .stored id' token time ∈ es →
      id' = id ∧ Approved (es ++ s.log) id token ∧ time ≤ s.now ∧ ∃ r, p = .served r)
    (hrefused : ∀ id', Refused es id' → id' = id ∧ ∃ status, p = .rejected status) :
    Invariant unauthenticated
      { s with phase := Function.update s.phase id p, log := es ++ s.log } where
  phases := by
    intro id'
    by_cases hid : id' = id
    · subst hid
      simpa using hp
    · simpa [hid] using (h.phases id').append es
  cached := by
    intro token exp hexp
    obtain ⟨id', time, hmem, hexp⟩ := h.cached token exp hexp
    exact ⟨id', time, List.mem_append_right es hmem, hexp⟩
  stored := by
    intro id' token time hmem
    rcases List.mem_append.mp hmem with hmem | hmem
    · obtain ⟨rfl, happroved, htime, r, rfl⟩ := hstored id' token time hmem
      exact ⟨happroved, htime, r, by simp⟩
    · obtain ⟨happroved, htime, r, hr⟩ := h.stored id' token time hmem
      have hid : id' ≠ id := by
        rintro rfl
        rw [hr] at hactive
        cases hactive
      exact ⟨happroved.append es, htime, r, by simpa [hid] using hr⟩
  refused := by
    intro id' hid'
    rcases refused_append_iff.mp hid' with hid' | hid'
    · obtain ⟨rfl, status, rfl⟩ := hrefused id' hid'
      exact ⟨status, by simp⟩
    · obtain ⟨status, hstatus⟩ := h.refused id' hid'
      have hid : id' ≠ id := by
        rintro rfl
        rw [hstatus] at hactive
        cases hactive
      exact ⟨status, by simpa [hid] using hstatus⟩
  size_le := h.size_le

/-- Time passes. -/
theorem Invariant.wait {unauthenticated : List Str} {s : State} (h : Invariant unauthenticated s)
    (d : ℕ) : Invariant unauthenticated { s with now := s.now + d } where
  phases := h.phases
  cached := h.cached
  stored := by
    intro id token time hmem
    obtain ⟨happroved, htime, hserved⟩ := h.stored id token time hmem
    exact ⟨happroved, Nat.le_add_right_of_le htime, hserved⟩
  refused := h.refused
  size_le := h.size_le

/-- A token is remembered that was recorded as stored now. -/
theorem Invariant.remember {unauthenticated : List Str} {s : State}
    (h : Invariant unauthenticated s) {id : ℕ} {token : Str}
    (hstored : .stored id token s.now ∈ s.log) :
    Invariant unauthenticated (s.remember token) where
  phases := h.phases
  cached := by
    intro token' exp hexp
    rw [State.remember, GoMap.getElem?_insert] at hexp
    split_ifs at hexp with htoken hfull
    · subst htoken
      exact ⟨id, s.now, hstored, (Option.some.inj hexp).symm⟩
    · simp at hexp
    · exact h.cached token' exp hexp
  stored := h.stored
  refused := h.refused
  size_le := by
    have hsize : ∀ m : GoMap ℕ, m.size < cacheMax →
        (m.insert token (s.now + cacheTTL)).size ≤ cacheMax := fun m hm =>
      Std.ExtTreeMap.size_insert_le.trans hm
    rw [State.remember]
    dsimp only
    split_ifs with hfull
    · exact hsize ∅ (by decide)
    · exact hsize s.allowed (not_le.mp hfull)

/-- A token that is found in the cache was stored less than two minutes ago. -/
theorem Invariant.granted_of_isCached {unauthenticated : List Str} {s : State}
    (h : Invariant unauthenticated s) {token : Str} (hcached : s.isCached token = true) (id : ℕ) :
    Granted (.lookedUp id token s.now :: s.log) id token := by
  obtain ⟨exp, hexp, hlt⟩ := (Option.any_eq_true _ _).mp hcached
  obtain ⟨id', time, hmem, rfl⟩ := h.cached token exp hexp
  obtain ⟨happroved, htime, -⟩ := h.stored id' token time hmem
  exact .inr ⟨s.now, s.log, List.suffix_refl _, id', time, hmem, happroved, htime,
    of_decide_eq_true hlt⟩

/-- The bearer token of a request. -/
theorem bearerToken_eq_some {r : Request} {token : Str} (h : bearerToken r = some token) :
    token ≠ [] ∧ r.authorization = bearer ++ token := by
  rw [bearerToken] at h
  split_ifs at h with hbearer
  obtain rfl := Option.some.inj h
  obtain ⟨t, ht⟩ := List.isPrefixOf_iff_prefix.mp hbearer.1
  refine ⟨hbearer.2, ?_⟩
  rw [← ht, List.drop_left]

/-- When a TokenReview refuses a request. -/
theorem refused_reviewed_iff {id id' : ℕ} {token : Str} {answer : Option TokenReview} :
    Refused [.reviewed id token answer] id' ↔
      id' = id ∧ answer.any TokenReview.authenticated = false := by
  simp only [Refused, List.mem_singleton, Entry.reviewed.injEq, reduceCtorEq, false_and,
    exists_false, or_false]
  constructor
  · rintro ⟨_, _, ⟨rfl, rfl, rfl⟩, h⟩
    exact ⟨rfl, h⟩
  · rintro ⟨rfl, h⟩
    exact ⟨token, answer, ⟨rfl, rfl, rfl⟩, h⟩

/-- When a SubjectAccessReview refuses a request. -/
theorem refused_authorized_iff {id id' : ℕ} {user : User} {allowed : Option Bool} :
    Refused [.authorized id user allowed] id' ↔ id' = id ∧ allowed ≠ some true := by
  simp only [Refused, List.mem_singleton, Entry.authorized.injEq, reduceCtorEq, false_and,
    exists_false, false_or]
  constructor
  · rintro ⟨_, _, ⟨rfl, rfl, rfl⟩, h⟩
    exact ⟨rfl, h⟩
  · rintro ⟨rfl, h⟩
    exact ⟨user, allowed, ⟨rfl, rfl, rfl⟩, h⟩

/-- A request that a TokenReview refuses is rejected. -/
theorem afterReview_of_refused {r : Request} {token : Str} {answer : Option TokenReview}
    (h : answer.any TokenReview.authenticated = false) :
    ∃ status, afterReview r token answer = .rejected status := by
  cases answer with
  | none => exact ⟨500, rfl⟩
  | some answer =>
      have hfalse : answer.authenticated = false := h
      exact ⟨401, by rw [afterReview, hfalse, if_neg Bool.false_ne_true]⟩

/-- A request that a SubjectAccessReview refuses is rejected. -/
theorem afterAuthorize_of_refused {r : Request} {token : Str} {allowed : Option Bool}
    (h : allowed ≠ some true) : ∃ status, afterAuthorize r token allowed = .rejected status := by
  match allowed, h with
  | none, _ => exact ⟨500, rfl⟩
  | some false, _ => exact ⟨403, rfl⟩

/-- What is known after the answer to a TokenReview was recorded. -/
theorem phaseOk_afterReview {unauthenticated : List Str} {log : List Entry} {id : ℕ}
    {r : Request} {token : Str} {answer : Option TokenReview}
    (hcarries : Carries unauthenticated r token) (hmem : .reviewed id token answer ∈ log) :
    PhaseOk unauthenticated log id (afterReview r token answer) := by
  cases answer with
  | none => trivial
  | some answer =>
      rw [afterReview]
      split_ifs with hauth
      · exact ⟨hcarries, answer, hauth, rfl, hmem⟩
      · trivial

/-- What is known after the answer to a SubjectAccessReview was recorded. -/
theorem phaseOk_afterAuthorize {unauthenticated : List Str} {log : List Entry} {id : ℕ}
    {r : Request} {token : Str} {user : User} {allowed : Option Bool}
    (h : PhaseOk unauthenticated log id (.authorizing r token user))
    (hmem : .authorized id user allowed ∈ log) :
    PhaseOk unauthenticated log id (afterAuthorize r token allowed) := by
  obtain ⟨hcarries, answer, hauth, rfl, hreviewed⟩ := h
  match allowed, hmem with
  | none, _ => trivial
  | some false, _ => trivial
  | some true, hmem => exact ⟨hcarries, answer, hauth, hreviewed, hmem⟩

/-- What is known of a request that arrives. -/
theorem phaseOk_arrival (unauthenticated : List Str) (log : List Entry) (id : ℕ) (r : Request) :
    PhaseOk unauthenticated log id (arrival unauthenticated r) := by
  rw [arrival]
  simp only [List.contains_iff_mem]
  split_ifs with hpath
  · exact .inl hpath
  · cases htoken : bearerToken r with
    | none => trivial
    | some token => exact ⟨hpath, bearerToken_eq_some htoken⟩

/-- A request arrives. -/
theorem Invariant.arrive {unauthenticated : List Str} {s : State}
    (h : Invariant unauthenticated s) {id : ℕ} (habsent : s.phase id = .absent) {p : Phase}
    (hp : PhaseOk unauthenticated s.log id p) : Invariant unauthenticated (s.goto id p) :=
  h.advance (by rw [habsent]; rfl) [] hp (by simp) (by simp [Refused])

/-- Every step keeps the invariant. -/
theorem invariant_step (unauthenticated : List Str) (s : State) (e : Event) (s' : State)
    (h : Invariant unauthenticated s) (hstep : step unauthenticated s e = some s') :
    Invariant unauthenticated s' := by
  cases e with
  | wait d =>
      obtain rfl := Option.some.inj hstep
      exact h.wait d
  | arrive id r =>
      rw [step] at hstep
      split at hstep
      · next habsent =>
          obtain rfl := Option.some.inj hstep
          exact h.arrive habsent (phaseOk_arrival unauthenticated s.log id r)
      · cases hstep
  | lookup id =>
      rw [step] at hstep
      split at hstep
      · next r token hphase =>
          obtain rfl := Option.some.inj hstep
          have hcarries : Carries unauthenticated r token := by
            simpa [hphase, PhaseOk] using h.phases id
          refine h.advance (by rw [hphase]; rfl) [.lookedUp id token s.now] ?_ (by simp)
            (by simp [Refused])
          split_ifs with hcached
          · exact .inr ⟨token, hcarries, h.granted_of_isCached hcached id⟩
          · exact hcarries
      · cases hstep
  | review id answer =>
      rw [step] at hstep
      split at hstep
      · next r token hphase =>
          obtain rfl := Option.some.inj hstep
          have hcarries : Carries unauthenticated r token := by
            simpa [hphase, PhaseOk] using h.phases id
          refine h.advance (by rw [hphase]; rfl) [.reviewed id token answer] ?_ (by simp)
            fun id' hid' => ?_
          · exact phaseOk_afterReview hcarries List.mem_cons_self
          · obtain ⟨rfl, hanswer⟩ := refused_reviewed_iff.mp hid'
            exact ⟨rfl, afterReview_of_refused hanswer⟩
      · cases hstep
  | authorize id allowed =>
      rw [step] at hstep
      split at hstep
      · next r token user hphase =>
          obtain rfl := Option.some.inj hstep
          have hauth : PhaseOk unauthenticated s.log id (.authorizing r token user) :=
            hphase ▸ h.phases id
          refine h.advance (by rw [hphase]; rfl) [.authorized id user allowed] ?_ (by simp)
            fun id' hid' => ?_
          · exact phaseOk_afterAuthorize (hauth.append _) List.mem_cons_self
          · obtain ⟨rfl, hallowed⟩ := refused_authorized_iff.mp hid'
            exact ⟨rfl, afterAuthorize_of_refused hallowed⟩
      · cases hstep
  | store id =>
      rw [step] at hstep
      split at hstep
      · next r token hphase =>
          obtain rfl := Option.some.inj hstep
          have hstoring : PhaseOk unauthenticated s.log id (.storing r token) :=
            hphase ▸ h.phases id
          have happroved : Approved ([.stored id token s.now] ++ s.log) id token :=
            hstoring.2.append _
          -- the cache is changed last here; it does not matter when within the step
          refine Invariant.remember (s := (s.goto id (.served r)).record (.stored id token s.now))
            (h.advance (by rw [hphase]; rfl) [.stored id token s.now] ?_ ?_ (by simp [Refused]))
            List.mem_cons_self
          · exact .inr ⟨token, hstoring.1, .inl happroved⟩
          · intro id' token' time hmem
            obtain ⟨rfl, rfl, rfl⟩ : id' = id ∧ token' = token ∧ time = s.now := by
              simpa using hmem
            exact ⟨rfl, happroved, le_rfl, r, rfl⟩
      · cases hstep

/-- The invariant gives what is promised. -/
theorem Invariant.secure {unauthenticated : List Str} {s : State}
    (h : Invariant unauthenticated s) : Secure unauthenticated s where
  granted := by
    intro id r hserved hpath
    have hphase := h.phases id
    rw [hserved] at hphase
    rcases hphase with hin | ⟨token, hcarries, hgranted⟩
    · exact absurd hin hpath
    · exact ⟨token, hcarries.2.1, hcarries.2.2, hgranted⟩
  approved := fun id token time hmem => (h.stored id token time hmem).1
  refused := by
    intro id hrefused
    obtain ⟨status, hstatus⟩ := h.refused id hrefused
    refine ⟨fun token time hmem => ?_, fun r hserved => ?_⟩
    · obtain ⟨-, -, r, hserved⟩ := h.stored id token time hmem
      rw [hstatus] at hserved
      cases hserved
    · rw [hstatus] at hserved
      cases hserved
  size_le := h.size_le

/-- **Only approved tokens pass.** In every state that any interleaving of any requests leads
to: a request whose path needs a token reaches the handler only with one that its own check, or
a check that stored it less than two minutes before it was looked up, found to be approved; a
request with a review that was rejected or failed stores nothing and does not pass; and at most
128 tokens are remembered. -/
theorem secure_of_run (unauthenticated : List Str) (now : ℕ) {events : List Event} {s : State}
    (hrun : Transition.run (step unauthenticated) (.initial now) events = some s) :
    Secure unauthenticated s := by
  have hinit : Invariant unauthenticated (.initial now) :=
    { phases := fun _ => trivial
      cached := by simp [State.initial]
      stored := by simp [State.initial]
      refused := by simp [State.initial, Refused]
      size_le := Nat.zero_le _ }
  exact (Transition.run_preserves (invariant_step unauthenticated) hinit hrun).secure

/-- A request for the metrics. -/
def metricsRequest (authorization : String) : Request :=
  ⟨"/metrics".toList, authorization.toList⟩

/-- The answer that a token is that of a scraper. -/
def scraper : TokenReview :=
  ⟨true, ⟨"scraper".toList, [], []⟩⟩

/-- Two requests with one token, the second a minute after the first, and one with a token
that is not valid. -/
def sampleRun : List Event :=
  [.arrive 0 (metricsRequest "Bearer tok"), .lookup 0, .review 0 (some scraper),
    .arrive 1 (metricsRequest "Bearer bad"), .authorize 0 (some true), .lookup 1, .store 0,
    .review 1 (some { scraper with authenticated := false }), .wait 60000000000,
    .arrive 2 (metricsRequest "Bearer tok"), .lookup 2]

/-- The second request passes without a review of its own, and is traced back to the first. -/
theorem secure_of_sampleRun :
    ∃ s, Transition.run (step []) (.initial 0) sampleRun = some s ∧
      s.phase 2 = .served (metricsRequest "Bearer tok") ∧ s.phase 1 = .rejected 401 ∧
      Secure [] s := by
  have hend : (Transition.run (step []) (.initial 0) sampleRun).map
      (fun s => (s.phase 2, s.phase 1)) =
        some (.served (metricsRequest "Bearer tok"), .rejected 401) := by decide +kernel
  obtain ⟨s, hrun, hs⟩ := Option.map_eq_some_iff.mp hend
  exact ⟨s, hrun, (Prod.mk.inj hs).1, (Prod.mk.inj hs).2, secure_of_run [] 0 hrun⟩

end ScionOperator.MetricsAuth
