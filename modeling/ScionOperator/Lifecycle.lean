import ScionOperator.Errgroup
import ScionOperator.MetricsAuth
import ScionOperator.Render
import ScionOperator.Startup

/-!
# The Life of an Agent

What an agent does from its start to its end (`cmd/agent`, `run`). It first goes through stages
that may fail one by one: it reads its configuration and its node, fetches the topology and renders
the policies; `Startup` says which of them fails, if any does. Then it starts goroutines in a group:
the refetching, the render loop, the gateway, the daemon API, the endpoint for metrics and health,
and one that shuts the endpoint down.

Three things hold them together. The connector that the gateway makes registers a counter in a way
that panics if it exists, and the daemon API registers the same one; a channel keeps the daemon API
back until the gateway is constructed. The endpoint waits for the files of its certificate, if it is
to have one, and serves nothing before. And whoever fails first cancels the context that all others
wait for.

The gateway is not part of the repository. What is modelled is what the agent sees of it
(`internal/agent/sig`, `Run`): it makes a connector, constructs the gateway, calls `OnUp`, which
reports readiness and then closes the channel, and runs the gateway. So an agent may be ready before
its gateway runs; readiness does not tell more than that the gateway was constructed.

The DaemonSet that the operator renders tells the kubelet how to probe the endpoint and the agent
how to serve it; the two have to fit each other (`probes_of_run`).

## Main results

* `ready_of_run`: **an agent that is ready has come up**: it has fetched a topology and rendered the
  policies for it, and its gateway is constructed.
* `counter_of_run`: **the gateway registers the counter first**, and the daemon API reuses it.
* `returned_of_run`: **who is to blame when an agent ends.**
* `probes_of_run`: **the probes of the DaemonSet reach the agents it starts**, with a certificate or
  without.
* `protected_of_run`: **an agent that is to have a certificate never serves without it.**
-/

namespace ScionOperator.Lifecycle

open Text Agent Errgroup Render

/-! ### The model -/

/-- What comes before the goroutines are started. -/
inductive Stage
  | config
  | nodeInfo
  | nodeIP
  | stateDir
  | discoverer
  | fetch
  | policyInput
  | advertisable
  | render
  deriving DecidableEq

/-- The stages, in the order in which `run` goes through them. -/
def stages : List Stage :=
  [.config, .nodeInfo, .nodeIP, .stateDir, .discoverer, .fetch, .policyInput, .advertisable,
    .render]

/-- The stage to which an error of the start belongs. -/
def stageOf : Startup.StartError → Stage
  | .config _ => .config
  | .nodeIdentity _ => .nodeInfo
  | .invalidNodeIP _ => .nodeIP
  | .stateDir => .stateDir
  | .discoverer _ => .discoverer
  | .fetch => .fetch
  | .policyInput _ => .policyInput
  | .notAdvertisable _ => .advertisable
  | .render => .render

/-- The goroutines of the group, in the order in which `run` starts them. -/
inductive Goroutine
  | fetcher
  | renderer
  | gateway
  | daemon
  | server
  | shutdowner
  deriving DecidableEq

/-- All goroutines, in the order in which they are started. -/
def goroutines : List Goroutine :=
  [.fetcher, .renderer, .gateway, .daemon, .server, .shutdowner]

/-- Why something fails: the context was cancelled, or anything else. -/
inductive Cause
  | canceled
  | failed
  deriving DecidableEq

/-- How far the goroutine of the gateway is. -/
inductive Gateway
  /-- it reads the topology and makes its connector -/
  | building
  /-- the connector exists, and has registered its counter -/
  | connected
  /-- the gateway is constructed, and `OnUp` is called -/
  | constructed
  /-- `OnUp` has reported readiness -/
  | ready
  /-- and closed the channel -/
  | announced
  /-- the gateway runs, until it fails or its context is cancelled -/
  | running
  /-- what the goroutine called has returned -/
  | stopped (err : Option Cause)
  /-- the deferred call has taken readiness back -/
  | unready (err : Option Cause)
  deriving DecidableEq

/-- The phases from the construction of the gateway to its end. -/
def Gateway.isUp : Gateway → Bool
  | .constructed | .ready | .announced | .running => true
  | .building | .connected | .stopped _ | .unready _ => false

/-- The phases in which readiness may be reported: not before `OnUp` does, nor after the deferred
call. -/
def Gateway.mayBeReady : Gateway → Bool
  | .ready | .announced | .running | .stopped _ => true
  | .building | .connected | .constructed | .unready _ => false

/-- How far the goroutine of the daemon API is: it waits for the channel, sets its databases up, and
has gone past the registration of the counter. -/
inductive Daemon
  | waiting
  | starting
  | registered
  deriving DecidableEq

/-- How far the endpoint is: it waits for its files, builds its handler, and serves. -/
inductive Server
  | waiting
  | building
  | serving
  deriving DecidableEq

/-- Who registered the counter `trustengine_db_queries_total`. -/
inductive Registrant
  | gateway
  | daemon
  deriving DecidableEq

/-- The panics that the agent's own code is to keep off: a ticker with an interval that is not
positive, and a counter that is registered again where it must be new. -/
inductive Panic
  | ticker
  | mustRegister
  deriving DecidableEq

/-- An agent: what is left of its stages, how far each of its goroutines is, and what they share. -/
structure State where
  /-- the stages that are left -/
  todo : List Stage
  /-- what the endpoint knows about readiness, component by component -/
  bootstrapReady : Bool
  gatewayReady : Bool
  /-- the goroutines and the context that they share -/
  group : Group Goroutine Cause
  /-- the refetching has its ticker -/
  ticking : Bool
  gateway : Gateway
  /-- the gateway was constructed at some time -/
  constructed : Bool
  /-- the channel on which the daemon API waits is closed -/
  sigUp : Bool
  daemon : Daemon
  server : Server
  /-- the files of the certificate -/
  certFile : Bool
  keyFile : Bool
  /-- the endpoint was asked to shut down -/
  shutdown : Bool
  /-- who registered the counter, if it is registered -/
  counter : Option Registrant
  panic : Option Panic
  /-- what `run` returned, if it did: an error or nil -/
  result : Option (Option Cause)

/-- Whether the endpoint is to have a certificate. -/
def hasTLS (cfg : FullConfig) : Bool :=
  cfg.metricsTLSCert ≠ []

/-- Which goroutines are started: the daemon API only if it is enabled. -/
def started (cfg : FullConfig) : Goroutine → Bool
  | .daemon => cfg.enableDaemonAPI
  | .fetcher | .renderer | .gateway | .server | .shutdowner => true

/-- An agent that is started: it has all stages before it, and nothing is registered. -/
def State.initial (cfg : FullConfig) : State where
  todo := stages
  bootstrapReady := false
  gatewayReady := false
  group := .start (fun _ => false) false
  ticking := false
  gateway := .building
  constructed := false
  sigUp := false
  daemon := .waiting
  server := if hasTLS cfg then .waiting else .building
  certFile := false
  keyFile := false
  shutdown := false
  counter := none
  panic := none
  result := none

/-- What can happen in the life of an agent. Each goroutine goes on by events of its own, so that a
list of events is an interleaving of them. What a turn of a loop does is not told here: `Pipeline`
is about that. -/
inductive Event
  /-- the next stage ends, with an error or without -/
  | stage (err : Option Cause)
  /-- the agent is told to end -/
  | signal
  /-- the files of the certificate are put in place, one after the other -/
  | certAppears
  | keyAppears
  /-- the refetching has fetched once and makes its ticker -/
  | fetcherTicks
  /-- a tick, and another fetch, whatever comes of it -/
  | fetcherTurn
  /-- the refetching finds the context cancelled and returns its error -/
  | fetcherReturns
  /-- a change of the topology or a tick, and another round of rendering -/
  | rendererTurn
  /-- the render loop finds the context cancelled and returns its error -/
  | rendererReturns
  /-- the connector is made and registers the counter -/
  | gatewayConnects
  /-- the gateway is constructed on its connector, but does not run yet -/
  | gatewayConstructs
  /-- `OnUp` reports that the gateway is ready -/
  | gatewaySetsReady
  /-- `OnUp` closes the channel for the daemon API -/
  | gatewayAnnounces
  /-- `OnUp` has returned, and the gateway is run -/
  | gatewayRuns
  /-- the gateway ends, or could not be made -/
  | gatewayStops (err : Option Cause)
  /-- the deferred call takes readiness back -/
  | gatewayUnsetsReady (err : Option Cause)
  /-- the goroutine of the gateway returns -/
  | gatewayReturns (err : Option Cause)
  /-- the daemon API finds the channel closed -/
  | daemonStarts
  /-- the daemon API finds the context cancelled before -/
  | daemonGivesUp
  /-- the daemon API registers the counter, or takes the one that exists -/
  | daemonRegisters
  /-- the daemon API ends, with an error or when its context is cancelled -/
  | daemonReturns (err : Option Cause)
  /-- the endpoint looks for its files in vain and waits for five seconds -/
  | filesTurn
  /-- the endpoint finds both of its files and goes on -/
  | filesFound
  /-- the endpoint finds the context cancelled while it waits for them -/
  | filesGivenUp
  /-- the endpoint has its handler and listens -/
  | serverStarts
  /-- the endpoint fails, or was shut down -/
  | serverReturns (err : Option Cause)
  /-- the context is cancelled, and the endpoint is asked to shut down -/
  | shutdownStarts
  /-- the endpoint is shut down, or five seconds have passed -/
  | shutdownReturns (err : Option Cause)
  /-- all goroutines have returned, and so does `run` -/
  | wait
  deriving DecidableEq

/-- Whether an event comes from outside of the agent. -/
def Event.external : Event → Bool
  | .signal | .certAppears | .keyAppears => true
  | _ => false

/-- The agent has neither returned nor panicked. -/
def State.running (s : State) : Bool :=
  s.result.isNone && s.panic.isNone

/-- A goroutine of an agent that is running has not returned. -/
def State.alive (s : State) (i : Goroutine) : Bool :=
  s.running && s.group.live i

/-- Both files of the certificate exist. -/
def State.files (s : State) : Bool :=
  s.certFile && s.keyFile

/-- What the call of the gateway can return: an error until the gateway is constructed, anything
while it runs, and nothing while the agent's own `OnUp` is at work. -/
def Gateway.mayStop (err : Option Cause) : Gateway → Bool
  | .building | .connected => err.isSome
  | .running => true
  | .constructed | .ready | .announced | .stopped _ | .unready _ => false

/-- What the endpoint can return: another error at any time, or nil after it was shut down. -/
def State.serverMayReturn (s : State) (err : Option Cause) : Bool :=
  match s.server with
  | .waiting => false
  | .building => err = some .failed
  | .serving => err = some .failed || (s.shutdown && err = none)

/-- Whether an event can happen. The loops look at the context at the end of every turn; the other
goroutines that wait for it wait for one thing more: the daemon API for the channel, the endpoint
for its files or its shutdown. -/
def enabled (s : State) : Event → Bool
  | .stage _ => s.running && !s.todo.isEmpty
  | .signal | .certAppears | .keyAppears => true
  | .fetcherTicks => s.alive .fetcher && !s.ticking
  | .fetcherTurn => s.alive .fetcher && s.ticking
  | .fetcherReturns => s.alive .fetcher && s.ticking && s.group.cancelled
  | .rendererTurn => s.alive .renderer
  | .rendererReturns => s.alive .renderer && s.group.cancelled
  | .gatewayConnects => s.alive .gateway && s.gateway = .building
  | .gatewayConstructs => s.alive .gateway && s.gateway = .connected
  | .gatewaySetsReady => s.alive .gateway && s.gateway = .constructed
  | .gatewayAnnounces => s.alive .gateway && s.gateway = .ready
  | .gatewayRuns => s.alive .gateway && s.gateway = .announced
  | .gatewayStops err => s.alive .gateway && s.gateway.mayStop err
  | .gatewayUnsetsReady err => s.alive .gateway && s.gateway = .stopped err
  | .gatewayReturns err => s.alive .gateway && s.gateway = .unready err
  | .daemonStarts => s.alive .daemon && s.daemon = .waiting && s.sigUp
  | .daemonGivesUp => s.alive .daemon && s.daemon = .waiting && s.group.cancelled
  | .daemonRegisters => s.alive .daemon && s.daemon = .starting
  | .daemonReturns _ => s.alive .daemon && s.daemon ≠ .waiting
  | .filesTurn => s.alive .server && s.server = .waiting
  | .filesFound => s.alive .server && s.server = .waiting && s.files
  | .filesGivenUp => s.alive .server && s.server = .waiting && s.group.cancelled
  | .serverStarts => s.alive .server && s.server = .building
  | .serverReturns err => s.alive .server && s.serverMayReturn err
  | .shutdownStarts => s.alive .shutdowner && !s.shutdown && s.group.cancelled
  | .shutdownReturns err => s.alive .shutdowner && s.shutdown && err ≠ some .canceled
  | .wait => s.running && s.todo.isEmpty && goroutines.all fun i => !s.group.live i

/-- The state after a goroutine has returned: the group takes note of its error. -/
def State.ret (s : State) (i : Goroutine) (err : Option Cause) : State :=
  { s with group := s.group.ret i err }

/-- What `run` returns for the error of the group: the error of a cancelled context is none. -/
def resultOf : Option (Goroutine × Cause) → Option Cause
  | some (_, .failed) => some .failed
  | some (_, .canceled) | none => none

/-- The state after a stage. With an error `run` returns; after the fetch the bootstrap is reported
as ready, and after the last stage the goroutines are started. -/
def State.stage (cfg : FullConfig) (s : State) (err : Option Cause) : State :=
  match err, s.todo with
  | some cause, _ => { s with result := some (some cause) }
  | none, [] => s
  | none, stage :: rest =>
      { s with
        todo := rest
        bootstrapReady := s.bootstrapReady || stage = .fetch
        group := if rest = [] then { s.group with live := started cfg } else s.group }

/-- What an event does to an agent in which it can happen. -/
def effect (cfg : FullConfig) (s : State) : Event → State
  | .stage err => s.stage cfg err
  | .signal => { s with group := { s.group with stopped := true } }
  | .certAppears => { s with certFile := true }
  | .keyAppears => { s with keyFile := true }
  | .fetcherTicks =>
      if cfg.refreshInterval ≤ 0 then { s with panic := some .ticker }
      else { s with ticking := true }
  | .fetcherTurn | .rendererTurn | .filesTurn => s
  | .fetcherReturns => s.ret .fetcher (some .canceled)
  | .rendererReturns => s.ret .renderer (some .canceled)
  | .gatewayConnects =>
      -- `MustRegister`
      if s.counter.isSome then { s with panic := some .mustRegister }
      else { s with counter := some .gateway, gateway := .connected }
  | .gatewayConstructs => { s with constructed := true, gateway := .constructed }
  | .gatewaySetsReady => { s with gatewayReady := true, gateway := .ready }
  | .gatewayAnnounces => { s with sigUp := true, gateway := .announced }
  | .gatewayRuns => { s with gateway := .running }
  | .gatewayStops err => { s with gateway := .stopped err }
  | .gatewayUnsetsReady err => { s with gatewayReady := false, gateway := .unready err }
  | .gatewayReturns err => s.ret .gateway err
  | .daemonStarts => { s with daemon := .starting }
  | .daemonGivesUp => s.ret .daemon (some .canceled)
  | .daemonRegisters =>
      -- `registerOrReuse`
      { s with counter := some (s.counter.getD .daemon), daemon := .registered }
  | .daemonReturns err => s.ret .daemon err
  | .filesFound => { s with server := .building }
  | .filesGivenUp => s.ret .server (some .canceled)
  | .serverStarts => if s.shutdown then s.ret .server none else { s with server := .serving }
  | .serverReturns err => s.ret .server err
  | .shutdownStarts => { s with shutdown := true }
  | .shutdownReturns err => s.ret .shutdowner err
  | .wait => { s with result := some (resultOf s.group.err) }

/-- The state after an event, if it can happen. -/
def step (cfg : FullConfig) (s : State) (e : Event) : Option State :=
  if enabled s e then some (effect cfg s e) else none

/-- The start of an agent fails in a stage. -/
def failsIn {α : Type} (start : Except Startup.StartError α) (stage : Stage) : Bool :=
  match start with
  | .ok _ => false
  | .error err => stageOf err = stage

/-- The stages go as the start of the agent does: each fails exactly if the start fails in it. -/
def follows {α : Type} (start : Except Startup.StartError α) (s : State) : Event → Bool
  | .stage err => s.todo.head?.all fun stage => err.isSome = failsIn start stage
  | _ => true

/-- The endpoint serves: its goroutine has got past the wait for its files and is live. -/
def State.serves (s : State) : Bool :=
  s.alive .server && s.server = .serving

/-- The endpoint serves, and every component is ready. -/
def State.readyz (s : State) : Bool :=
  s.serves && s.bootstrapReady && s.gatewayReady

/-- How the endpoint serves: everything, or some paths to everybody and all others to requests with
a token that is accepted. -/
inductive Handler
  | plain
  | tls (exempt : List Str)
  deriving DecidableEq

/-- The handler of the endpoint: with a certificate only the paths of the probes need no token. -/
def handler (cfg : FullConfig) : Handler :=
  if hasTLS cfg then .tls ["/healthz".toList, "/readyz".toList] else .plain

/-- The status with which the mux answers; `pages` are those of the metrics and of the gateway. -/
def State.mux (s : State) (pages : Str → ℕ) (path : Str) : ℕ :=
  if path = "/healthz".toList then 200
  else if path = "/readyz".toList then if s.bootstrapReady && s.gatewayReady then 200 else 503
  else pages path

/-- The status with which the mux answers behind the check of tokens, as far as it can be told when
the request arrives. -/
def State.guarded (s : State) (pages : Str → ℕ) : MetricsAuth.Phase → Option ℕ
  | .served r => some (s.mux pages r.path)
  | .rejected status => some status
  | _ => none

/-- The status with which the endpoint answers a request without a token, if it does. A request in
plain text is a bad one where TLS is expected, and a server of plain text does not understand
TLS. -/
def State.respond (cfg : FullConfig) (s : State) (pages : Str → ℕ) (p : Probe) : Option ℕ :=
  if s.serves && cfg.metricsAddr = ':' :: itoa p.port then
    match handler cfg, p.scheme with
    | .tls _, .http => some 400
    | .tls exempt, .https => s.guarded pages (MetricsAuth.arrival exempt ⟨p.path, []⟩)
    | .plain, .http => some (s.mux pages p.path)
    | .plain, .https => none
  else none

variable {cfg : FullConfig} {s s' : State}

/-- A step is taken when its event can happen, and leads to what the event does. -/
theorem step_eq_some {e : Event} :
    step cfg s e = some s' ↔ enabled s e = true ∧ effect cfg s e = s' := by
  rw [step]
  split_ifs with h
  · simp [h]
  · simp [h]

/-- The configuration of an agent that the operator deployed with a certificate. -/
def sampleConfig : FullConfig :=
  readConfig (agentEnv "node-1".toList sampleSpec Startup.sampleForbidden true) 3600000000000

/-- An agent comes up; its endpoint already serves when the gateway is about to run. -/
def sampleStart : List Event :=
  stages.map (fun _ => .stage none) ++
    [.gatewayConnects, .fetcherTicks, .certAppears, .gatewayConstructs, .filesTurn,
      .gatewaySetsReady, .gatewayAnnounces, .daemonStarts, .keyAppears, .filesFound,
      .daemonRegisters, .serverStarts]

/-- An agent ends after its gateway failed or it was told to. -/
def sampleEnd : List Event :=
  [.rendererTurn, .rendererReturns, .daemonReturns (some .canceled), .shutdownStarts,
    .serverReturns none, .fetcherReturns, .shutdownReturns none, .wait]

/-! ### What every agent keeps -/

/-- The order in which the gateway and the daemon API go on: what each phase tells of the counter
and of the construction of the gateway. -/
structure Order (gateway : Gateway) (constructed : Bool) (counter : Option Registrant)
    (sigUp : Bool) (daemon : Daemon) (panic : Option Panic) : Prop where
  unregistered : gateway = .building → counter = none
  connected : gateway = .connected → counter = some .gateway
  isUp : gateway.isUp = true → constructed = true
  registered : constructed = true → counter = some .gateway
  closed : sigUp = true → constructed = true
  past : daemon ≠ .waiting → constructed = true
  byGateway : counter ≠ some .daemon
  noPanic : panic ≠ some .mustRegister

/-- What holds of an agent at any time. -/
structure Invariant (cfg : FullConfig) (s : State) : Prop where
  /-- before the last stage is over, no goroutine is live -/
  live : s.todo ≠ [] → ∀ i, s.group.live i = false
  /-- readiness is reported by a goroutine that is live -/
  ready : s.gatewayReady = true → s.group.live .gateway = true ∧ s.gateway.mayBeReady = true ∧
    s.constructed = true
  order : Order s.gateway s.constructed s.counter s.sigUp s.daemon s.panic
  files : hasTLS cfg = true → s.server ≠ .waiting → s.files = true
  shutdown : s.todo = [] → s.group.live .shutdowner = false → s.shutdown = true

/-- A goroutine is live only after the last stage. -/
theorem Invariant.todo (h : Invariant cfg s) {i : Goroutine} (hlive : s.group.live i = true) :
    s.todo = [] := by
  by_contra htodo
  exact Bool.false_ne_true ((h.live htodo i).symm.trans hlive)

/-- A goroutine can return at any time without harm to the invariant, if readiness was taken back
before the gateway does, and the endpoint was asked to shut down before the one that asks does. -/
theorem Invariant.ret (h : Invariant cfg s) {i : Goroutine} {err : Option Cause}
    (hgateway : i = .gateway → s.gatewayReady = false)
    (hshutdowner : i = .shutdowner → s.shutdown = true) : Invariant cfg (s.ret i err) := by
  refine ⟨fun htodo j => ?_, fun hready => ?_, h.order, h.files, fun htodo hlive => ?_⟩
  · rw [Bool.eq_false_iff]
    exact fun hlive => Bool.false_ne_true ((h.live htodo j).symm.trans (live_of_live_ret hlive))
  · have hne : Goroutine.gateway ≠ i := fun heq =>
      Bool.false_ne_true ((hgateway heq.symm).symm.trans hready)
    rw [State.ret, live_ret_of_ne hne]
    exact h.ready hready
  · by_cases heq : i = .shutdowner
    · exact hshutdowner heq
    · rw [State.ret, live_ret_of_ne (Ne.symm heq)] at hlive
      exact h.shutdown htodo hlive

/-- A stage that fails starts nothing, and one that succeeds starts the goroutines only if it is the
last one. -/
theorem Invariant.stage (h : Invariant cfg s) (err : Option Cause) :
    Invariant cfg (s.stage cfg err) := by
  rw [State.stage.eq_def]
  cases err with
  | some cause => exact ⟨h.live, h.ready, h.order, h.files, h.shutdown⟩
  | none =>
      cases htodo : s.todo with
      | nil => exact h
      | cons stage rest =>
          dsimp only
          have hlive := h.live (by rw [htodo]; exact List.cons_ne_nil _ _)
          have hready : s.gatewayReady = false := by
            rw [Bool.eq_false_iff]
            intro hready
            exact Bool.false_ne_true ((hlive .gateway).symm.trans (h.ready hready).1)
          refine ⟨fun hrest i => ?_, fun hready' => ?_, h.order, h.files,
            fun hrest hshutdowner => ?_⟩
          · dsimp only at hrest ⊢
            rw [if_neg hrest]
            exact hlive i
          · exact absurd (hready.symm.trans hready') Bool.false_ne_true
          · dsimp only at hrest hshutdowner
            rw [if_pos hrest] at hshutdowner
            cases hshutdowner

/-- The gateway and the daemon API go on in the right order. -/
theorem Invariant.ordered (h : Invariant cfg s) {gateway : Gateway} {constructed sigUp : Bool}
    {counter : Option Registrant} {daemon : Daemon} {panic : Option Panic}
    (hready : s.gateway.mayBeReady = true → s.constructed = true →
      gateway.mayBeReady = true ∧ constructed = true)
    (horder : Order gateway constructed counter sigUp daemon panic) :
    Invariant cfg { s with
      gateway := gateway, constructed := constructed, counter := counter, sigUp := sigUp,
      daemon := daemon, panic := panic } :=
  ⟨h.live, fun hyes => (h.ready hyes).imp_right fun hboth => hready hboth.1 hboth.2, horder,
    h.files, h.shutdown⟩

/-- The refetching makes its ticker, or panics in a way that has nothing to do with the counter. -/
theorem Invariant.fetcherTicks (h : Invariant cfg s) :
    Invariant cfg (effect cfg s .fetcherTicks) := by
  rw [effect]
  split_ifs
  · exact h.ordered And.intro { h.order with noPanic := by decide }
  · exact ⟨h.live, h.ready, h.order, h.files, h.shutdown⟩

/-- The connector registers the counter, which nobody has registered before. -/
theorem Invariant.gatewayConnects (h : Invariant cfg s) (hbuilding : s.gateway = .building) :
    Invariant cfg (effect cfg s .gatewayConnects) := by
  have hnone := h.order.unregistered hbuilding
  rw [effect, hnone, Option.isSome_none, if_neg Bool.false_ne_true]
  refine h.ordered (fun hready => ?_) { h.order with
    unregistered := Gateway.noConfusion
    connected := fun _ => rfl
    isUp := fun hup => (by cases hup)
    registered := fun _ => rfl
    byGateway := by decide }
  rw [hbuilding] at hready
  cases hready

/-- The gateway is constructed after its connector, which has registered the counter. -/
theorem Invariant.gatewayConstructs (h : Invariant cfg s) (hconnected : s.gateway = .connected) :
    Invariant cfg (effect cfg s .gatewayConstructs) := by
  have hcounter := h.order.connected hconnected
  refine h.ordered (fun hready => ?_) { h.order with
    unregistered := Gateway.noConfusion
    connected := Gateway.noConfusion
    isUp := fun _ => rfl
    registered := fun _ => hcounter
    closed := fun _ => rfl
    past := fun _ => rfl }
  rw [hconnected] at hready
  cases hready

/-- The gateway goes on after `OnUp` has reported readiness. -/
theorem Invariant.gatewayUp (h : Invariant cfg s) (hconstructed : s.constructed = true)
    {gateway : Gateway} (hup : gateway.isUp = true) (hready : gateway.mayBeReady = true)
    (sigUp : Bool) : Invariant cfg { s with gateway := gateway, sigUp := sigUp } := by
  have hcounter := h.order.registered hconstructed
  refine h.ordered (fun _ hyes => ⟨hready, hyes⟩) { h.order with
    unregistered := fun heq => ?_
    connected := fun _ => hcounter
    isUp := fun _ => hconstructed
    closed := fun _ => hconstructed }
  rw [heq] at hup
  cases hup

/-- What the gateway called has returned. -/
theorem Invariant.gatewayStops (h : Invariant cfg s) (err : Option Cause) :
    Invariant cfg (effect cfg s (.gatewayStops err)) :=
  h.ordered (fun _ hyes => ⟨rfl, hyes⟩) { h.order with
    unregistered := Gateway.noConfusion
    connected := Gateway.noConfusion
    isUp := fun hup => (by cases hup) }

/-- Readiness is taken back, so that nothing is to be known of the gateway any more. -/
theorem Invariant.gatewayUnsetsReady (h : Invariant cfg s) (err : Option Cause) :
    Invariant cfg (effect cfg s (.gatewayUnsetsReady err)) :=
  ⟨h.live, fun hready => absurd hready Bool.false_ne_true, { h.order with
    unregistered := Gateway.noConfusion
    connected := Gateway.noConfusion
    isUp := fun hup => (by cases hup) }, h.files, h.shutdown⟩

/-- The goroutine of the gateway returns, after readiness was taken back. -/
theorem Invariant.gatewayReturns (h : Invariant cfg s) {err : Option Cause}
    (hunready : s.gateway = .unready err) :
    Invariant cfg (effect cfg s (.gatewayReturns err)) := by
  refine h.ret (fun _ => ?_) fun heq => by cases heq
  rw [Bool.eq_false_iff]
  intro hready
  have hmay := (h.ready hready).2.1
  rw [hunready] at hmay
  cases hmay

/-- The daemon API goes on: the gateway was constructed, and the counter is the gateway's. -/
theorem Invariant.daemonAfter (h : Invariant cfg s) (hconstructed : s.constructed = true)
    (daemon : Daemon) : Invariant cfg { s with
      counter := some (s.counter.getD .daemon), daemon := daemon } := by
  have hcounter := h.order.registered hconstructed
  have hsame : some (s.counter.getD .daemon) = s.counter := by
    rw [hcounter]
    rfl
  rw [hsame]
  exact h.ordered And.intro { h.order with past := fun _ => hconstructed }

/-- The endpoint goes on: its files exist, if it has any. -/
theorem Invariant.serverAfter (h : Invariant cfg s)
    (hfiles : hasTLS cfg = true → s.files = true) (server : Server) :
    Invariant cfg { s with server := server } :=
  ⟨h.live, h.ready, h.order, fun htls _ => hfiles htls, h.shutdown⟩

/-- Files of the certificate appear, and none disappears. -/
theorem Invariant.fileAppears (h : Invariant cfg s) {cert key : Bool}
    (hcert : s.certFile = true → cert = true) (hkey : s.keyFile = true → key = true) :
    Invariant cfg { s with certFile := cert, keyFile := key } := by
  refine ⟨h.live, h.ready, h.order, fun htls hserver => ?_, h.shutdown⟩
  have hfiles := h.files htls hserver
  rw [State.files, Bool.and_eq_true] at hfiles ⊢
  exact ⟨hcert hfiles.1, hkey hfiles.2⟩

/-- **Every step keeps the invariant.** -/
theorem invariant_step (cfg : FullConfig) (s : State) (e : Event) (s' : State)
    (h : Invariant cfg s) (hstep : step cfg s e = some s') : Invariant cfg s' := by
  obtain ⟨henabled, rfl⟩ := step_eq_some.mp hstep
  cases e with
  | stage err => exact h.stage err
  | signal | wait => exact ⟨h.live, h.ready, h.order, h.files, h.shutdown⟩
  | certAppears => exact h.fileAppears (fun _ => rfl) id
  | keyAppears => exact h.fileAppears id fun _ => rfl
  | fetcherTurn | rendererTurn | filesTurn => exact h
  | fetcherReturns | rendererReturns | daemonGivesUp | daemonReturns err | filesGivenUp
  | serverReturns err =>
      exact h.ret (fun heq => by cases heq) fun heq => by cases heq
  | fetcherTicks => exact h.fetcherTicks
  | gatewayConnects =>
      rw [enabled, Bool.and_eq_true, decide_eq_true_eq] at henabled
      exact h.gatewayConnects henabled.2
  | gatewayConstructs =>
      rw [enabled, Bool.and_eq_true, decide_eq_true_eq] at henabled
      exact h.gatewayConstructs henabled.2
  | gatewaySetsReady =>
      rw [enabled, Bool.and_eq_true, decide_eq_true_eq, State.alive, Bool.and_eq_true] at henabled
      have hconstructed := h.order.isUp (by rw [henabled.2]; rfl)
      have h' : Invariant cfg { s with gateway := .ready } :=
        h.gatewayUp hconstructed rfl rfl s.sigUp
      exact ⟨h.live, fun _ => ⟨henabled.1.2, rfl, hconstructed⟩, h'.order, h.files, h.shutdown⟩
  | gatewayAnnounces =>
      rw [enabled, Bool.and_eq_true, decide_eq_true_eq] at henabled
      exact h.gatewayUp (h.order.isUp (by rw [henabled.2]; rfl)) rfl rfl true
  | gatewayRuns =>
      rw [enabled, Bool.and_eq_true, decide_eq_true_eq] at henabled
      exact h.gatewayUp (h.order.isUp (by rw [henabled.2]; rfl)) rfl rfl s.sigUp
  | gatewayStops err => exact h.gatewayStops err
  | gatewayUnsetsReady err => exact h.gatewayUnsetsReady err
  | gatewayReturns err =>
      rw [enabled, Bool.and_eq_true, decide_eq_true_eq] at henabled
      exact h.gatewayReturns henabled.2
  | daemonStarts =>
      rw [enabled, Bool.and_eq_true] at henabled
      exact h.ordered And.intro { h.order with past := fun _ => h.order.closed henabled.2 }
  | daemonRegisters =>
      rw [enabled, Bool.and_eq_true, decide_eq_true_eq] at henabled
      exact h.daemonAfter (h.order.past (by rw [henabled.2]; decide)) .registered
  | filesFound =>
      rw [enabled, Bool.and_eq_true] at henabled
      exact h.serverAfter (fun _ => henabled.2) .building
  | serverStarts =>
      rw [enabled, Bool.and_eq_true, decide_eq_true_eq] at henabled
      rw [effect]
      split_ifs
      · exact h.ret (fun heq => by cases heq) fun heq => by cases heq
      · exact h.serverAfter (fun htls => h.files htls (by rw [henabled.2]; decide)) .serving
  | shutdownStarts => exact ⟨h.live, h.ready, h.order, h.files, fun _ _ => rfl⟩
  | shutdownReturns err =>
      rw [enabled, Bool.and_eq_true, Bool.and_eq_true] at henabled
      exact h.ret (fun heq => by cases heq) fun _ => henabled.1.2

/-- At the start no goroutine is live, nothing is registered and no file is needed yet. -/
theorem invariant_initial (cfg : FullConfig) : Invariant cfg (.initial cfg) := by
  refine ⟨fun _ _ => rfl, fun hready => absurd hready Bool.false_ne_true, ?_,
    fun htls hserver => ?_, fun htodo => absurd htodo (List.cons_ne_nil _ _)⟩
  · constructor <;> simp [State.initial, Gateway.isUp]
  · rw [State.initial, if_pos htls] at hserver
    exact absurd rfl hserver

/-- The invariant holds at every time. -/
theorem invariant_of_run {events : List Event}
    (hrun : Transition.run (step cfg) (.initial cfg) events = some s) : Invariant cfg s :=
  Transition.run_preserves (invariant_step cfg) (invariant_initial cfg) hrun

/-- The endpoint serves only after the files of the certificate exist, if there is to be one. -/
theorem Invariant.files_of_serves (h : Invariant cfg s) (htls : hasTLS cfg = true)
    (hserves : s.serves = true) : s.files = true := by
  rw [State.serves, Bool.and_eq_true, decide_eq_true_eq] at hserves
  exact h.files htls (by rw [hserves.2]; decide)

/-! ### Readiness and the counter -/

section Readiness

variable {α : Type} {start : Except Startup.StartError α}

/-- Only stages change what is left of them. -/
theorem todo_effect {e : Event} (he : ∀ err, e ≠ .stage err) : (effect cfg s e).todo = s.todo := by
  cases e with
  | stage err => exact absurd rfl (he err)
  | fetcherTicks | gatewayConnects | serverStarts =>
      rw [effect]
      split_ifs <;> rfl
  | _ => rfl

/-- An agent does not get past the stage in which its start fails. -/
theorem stageOf_mem_step (s : State) (e : Event) (s' : State)
    (h : ∀ err, start = .error err → stageOf err ∈ s.todo) (hfollows : follows start s e = true)
    (hstep : step cfg s e = some s') : ∀ err, start = .error err → stageOf err ∈ s'.todo := by
  obtain ⟨-, rfl⟩ := step_eq_some.mp hstep
  rintro err rfl
  have hmem := h err rfl
  by_cases he : ∀ cause, e ≠ .stage cause
  · rw [todo_effect he]
    exact hmem
  · simp only [not_forall, not_not] at he
    obtain ⟨cause, rfl⟩ := he
    rw [effect, State.stage.eq_def]
    cases htodo : s.todo with
    | nil =>
        rw [htodo] at hmem
        cases hmem
    | cons stage rest =>
        rw [htodo] at hmem
        simp only [follows, htodo, List.head?_cons, Option.all_some, failsIn] at hfollows
        cases cause with
        | some cause => exact htodo ▸ hmem
        | none =>
            have hne : stageOf err ≠ stage :=
              of_decide_eq_false (of_decide_eq_true hfollows).symm
            exact List.mem_of_ne_of_mem hne hmem

/-- So an agent that has gone through all stages has come up. -/
theorem start_of_todo_nil {events : List Event}
    (hrun : Transition.run (step cfg) (.initial cfg) events = some s)
    (hfollows : Transition.Always (step cfg) (fun s e => follows start s e = true) (.initial cfg)
      events) (htodo : s.todo = []) : ∃ a, start = .ok a := by
  have hinitial : ∀ err, start = .error err → stageOf err ∈ (State.initial cfg).todo := by
    rintro err -
    cases err <;> simp [State.initial, stages, stageOf]
  have hmem := Transition.run_invariant stageOf_mem_step hinitial hfollows hrun
  cases hstart : start with
  | ok a => exact ⟨a, rfl⟩
  | error err =>
      have hnil := hmem err hstart
      rw [htodo] at hnil
      cases hnil

end Readiness

/-- **What readiness tells.** Let the stages of an agent go as its start does in its environment,
with what it meets. At any time, if the probe of readiness gets a positive answer, then the agent
has come up: its cache had a topology, and both policies were written as they are rendered for it.
The gateway was constructed, and its goroutine has neither returned nor taken readiness back; and if
the endpoint is to have a certificate, its files exist. -/
theorem ready_of_run (env : String → Str) (m : Startup.Met) (h : Startup.Host) (cfg : FullConfig)
    (hcfg : fromEnv env = .ok cfg) (events : List Event) (s : State)
    (hrun : Transition.run (step cfg) (.initial cfg) events = some s)
    (hfollows : Transition.Always (step cfg)
      (fun s e => follows (Startup.start env m h).1 s e = true) (.initial cfg) events)
    (hready : s.readyz = true) :
    (∃ id input h' topology traffic routing,
      Startup.start env m h = (.ok (id, input), h') ∧ id.cfg = cfg ∧
      h'.cache.topology = some topology ∧
      policyInput (some topology) id.info cfg.toConfig = .ok input ∧
      renderBoth input = .ok (traffic, routing) ∧ h'.files = ⟨some traffic, some routing⟩) ∧
    s.constructed = true ∧ s.group.live .gateway = true ∧ s.gateway.mayBeReady = true ∧
    (hasTLS cfg = true → s.files = true) := by
  have hinv := invariant_of_run hrun
  rw [State.readyz, Bool.and_eq_true, Bool.and_eq_true] at hready
  obtain ⟨⟨hserves, -⟩, hgateway⟩ := hready
  obtain ⟨hlive, hmay, hconstructed⟩ := hinv.ready hgateway
  refine ⟨?_, hconstructed, hlive, hmay, fun htls => hinv.files_of_serves htls hserves⟩
  obtain ⟨⟨id, input⟩, hok⟩ := start_of_todo_nil hrun hfollows (hinv.todo hlive)
  have hstart : Startup.start env m h = (.ok (id, input), (Startup.start env m h).2) :=
    Prod.ext hok rfl
  obtain ⟨hidentify, -⟩ := Startup.start_eq_ok_iff.mp hok
  obtain rfl := Except.ok.inj (hcfg.symm.trans (Startup.identify_eq_ok_iff.mp hidentify).1)
  obtain ⟨topology, traffic, routing, htopology, hinput, htexts, hfiles⟩ :=
    Startup.host_of_start hstart
  exact ⟨id, input, _, topology, traffic, routing, hstart, rfl, htopology, hinput, htexts, hfiles⟩

/-- The sample agent reads its configuration from the environment of the DaemonSet. -/
theorem fromEnv_sampleConfig :
    fromEnv (agentEnv "node-1".toList sampleSpec Startup.sampleForbidden true) =
      .ok sampleConfig := by
  refine fromEnv_eq_ok_iff.mpr ⟨?_, ?_, ?_, ?_, ?_, rfl⟩ <;> decide +kernel

/-- The sample agent is ready, though its gateway does not run yet. -/
theorem ready_of_sampleStart :
    ∃ s id input h', Transition.run (step sampleConfig) (.initial sampleConfig) sampleStart =
        some s ∧
      s.readyz = true ∧ s.gateway = .announced ∧ s.constructed = true ∧ s.files = true ∧
      Startup.start (agentEnv "node-1".toList sampleSpec Startup.sampleForbidden true)
        Startup.sampleMet Startup.sampleHost = (.ok (id, input), h') := by
  have hready : (Transition.run (step sampleConfig) (.initial sampleConfig) sampleStart).map
      (fun s => (s.readyz, s.gateway)) = some (true, .announced) := by decide +kernel
  obtain ⟨s, hs, hready⟩ := Option.map_eq_some_iff.mp hready
  obtain ⟨hready, hgateway⟩ := Prod.mk.inj hready
  obtain ⟨id, input, h', hstart⟩ := Startup.exists_start_sampleMet
  have hfollows : Transition.Always (step sampleConfig) (fun s e => follows (Startup.start
      (agentEnv "node-1".toList sampleSpec Startup.sampleForbidden true) Startup.sampleMet
      Startup.sampleHost).1 s e = true) (.initial sampleConfig) sampleStart := by
    refine Transition.always_of_forall_mem (fun e he s => ?_) _
    rw [hstart]
    rcases List.mem_append.mp he with he | he
    · obtain ⟨stage, -, rfl⟩ := List.mem_map.mp he
      cases htodo : s.todo <;> simp [follows, failsIn, htodo]
    · cases e with
      | stage err => simp at he
      | _ => rfl
  obtain ⟨-, hconstructed, -, -, hfiles⟩ := ready_of_run _ _ _ sampleConfig fromEnv_sampleConfig
    sampleStart s hs hfollows hready
  exact ⟨s, id, input, h', hs, hready, hgateway, hconstructed, hfiles (by decide +kernel), hstart⟩

/-- **The gateway registers the counter first.** In every interleaving, the counter is registered by
the connector of the gateway or not at all, and the connector never finds it registered; a daemon
API that has gone past its registration has taken the counter of the gateway. -/
theorem counter_of_run (cfg : FullConfig) (events : List Event) (s : State)
    (hrun : Transition.run (step cfg) (.initial cfg) events = some s) :
    s.counter ≠ some .daemon ∧ s.panic ≠ some .mustRegister ∧
      (s.daemon = .registered → s.counter = some .gateway) := by
  have horder := (invariant_of_run hrun).order
  refine ⟨horder.byGateway, horder.noPanic, fun hdaemon => horder.registered (horder.past ?_)⟩
  rw [hdaemon]
  decide

/-- The daemon API of the sample agent has taken the counter of its gateway. -/
theorem counter_of_sampleStart :
    ∃ s, Transition.run (step sampleConfig) (.initial sampleConfig) sampleStart = some s ∧
      s.daemon = .registered ∧ s.counter = some .gateway := by
  have hdaemon : (Transition.run (step sampleConfig) (.initial sampleConfig) sampleStart).map
      State.daemon = some .registered := by decide +kernel
  obtain ⟨s, hs, hdaemon⟩ := Option.map_eq_some_iff.mp hdaemon
  exact ⟨s, hs, hdaemon, (counter_of_run sampleConfig sampleStart s hs).2.2 hdaemon⟩

/-! ### Who is to blame -/

/-- The errors with which goroutines return by themselves, without a context that is cancelled: the
gateway and the daemon API may return any, the endpoint any but that of a context. -/
def may : Goroutine → Cause → Prop
  | .gateway, _ | .daemon, _ | .server, .failed => True
  | .server, .canceled | .fetcher, _ | .renderer, _ | .shutdowner, _ => False

/-- What is known of errors: who may be blamed, that the refetching ends and the endpoint is shut
down only when the context is cancelled, and where the result comes from. -/
structure Accounts (s : State) : Prop where
  blames : Blames may s.group
  fetcher : s.todo = [] → s.group.live .fetcher = false → s.group.cancelled = true
  shutdown : s.shutdown = true → s.todo = [] ∧ s.group.cancelled = true
  result : ∀ r, s.result = some r → (s.todo ≠ [] ∧ r ≠ none) ∨
    (s.todo = [] ∧ s.group.live .fetcher = false ∧ r = resultOf s.group.err)

/-- An agent takes steps of its own only while it runs. -/
theorem result_of_enabled {e : Event} (hown : e.external = false) (h : enabled s e = true) :
    s.result = none := by
  have hrunning : s.running = true := by
    cases e <;> simp_all [enabled, State.alive, Event.external]
  rw [State.running, Bool.and_eq_true, Option.isNone_iff_eq_none] at hrunning
  exact hrunning.1

/-- A goroutine returns: before the context is cancelled only with an error that is its own, and the
refetching not at all. -/
theorem Accounts.ret (h : Accounts s) (hresult : s.result = none) {i : Goroutine}
    {err : Option Cause} (hmay : s.group.cancelled = false → ∀ x, err = some x → may i x)
    (hfetcher : i = .fetcher → s.group.cancelled = true) : Accounts (s.ret i err) := by
  refine ⟨blames_ret h.blames hmay, fun htodo hlive => cancelled_ret ?_,
    fun hshutdown => (h.shutdown hshutdown).imp_right cancelled_ret, fun r hr => ?_⟩
  · by_cases heq : i = .fetcher
    · exact hfetcher heq
    · rw [State.ret, live_ret_of_ne (Ne.symm heq)] at hlive
      exact h.fetcher htodo hlive
  · cases hresult.symm.trans hr

/-- A goroutine returns because the context is cancelled. -/
theorem Accounts.ret_of_cancelled (h : Accounts s) (hresult : s.result = none)
    (hcancelled : s.group.cancelled = true) (i : Goroutine) (err : Option Cause) :
    Accounts (s.ret i err) :=
  h.ret hresult (fun hnot => absurd (hnot.symm.trans hcancelled) Bool.false_ne_true)
    fun _ => hcancelled

/-- An event that lets no goroutine return and ends no stage leaves the accounts as they are. -/
theorem Accounts.keep (h : Accounts s) (hresult : s'.result = none) (htodo : s'.todo = s.todo)
    (hgroup : s'.group = s.group)
    (hshutdown : s'.shutdown = true → s.todo = [] ∧ s.group.cancelled = true) :
    Accounts s' := by
  refine ⟨hgroup ▸ h.blames, ?_, ?_, fun r hr => ?_⟩
  · rw [htodo, hgroup]
    exact h.fetcher
  · rw [htodo, hgroup]
    exact hshutdown
  · cases hresult.symm.trans hr

/-- A stage that fails gives the result. Before the last one is over the endpoint is not shut down
and the refetching has not ended. -/
theorem Accounts.stage (h : Accounts s) (hresult : s.result = none) (htodo : s.todo ≠ [])
    (err : Option Cause) : Accounts (s.stage cfg err) := by
  rw [State.stage.eq_def]
  cases err with
  | some cause =>
      refine ⟨h.blames, h.fetcher, h.shutdown, fun r hr => .inl ⟨htodo, ?_⟩⟩
      obtain rfl := Option.some.inj hr
      exact Option.some_ne_none cause
  | none =>
      cases hcons : s.todo with
      | nil => exact h
      | cons stage rest =>
          dsimp only
          by_cases hrest : rest = []
          · refine ⟨?_, fun _ hlive => ?_, fun hyes => absurd (h.shutdown hyes).1 htodo,
              fun r hr => ?_⟩
            · rw [if_pos hrest]
              exact h.blames
            · rw [if_pos hrest] at hlive
              cases hlive
            · cases hresult.symm.trans hr
          · refine ⟨?_, fun hnil => absurd hnil hrest,
              fun hyes => absurd (h.shutdown hyes).1 htodo, fun r hr => ?_⟩
            · rw [if_neg hrest]
              exact h.blames
            · cases hresult.symm.trans hr

/-- When all goroutines have returned, the result is that of the group. -/
theorem Accounts.wait (h : Accounts s) (henabled : enabled s .wait = true) :
    Accounts (effect cfg s .wait) := by
  rw [enabled, Bool.and_eq_true, Bool.and_eq_true, List.isEmpty_iff, List.all_eq_true] at henabled
  refine ⟨h.blames, h.fetcher, h.shutdown, fun r hr => .inr ⟨henabled.1.2, ?_, ?_⟩⟩
  · have hfetcher := henabled.2 .fetcher (by decide)
    rwa [Bool.not_eq_true'] at hfetcher
  · exact (Option.some.inj hr).symm

/-- After a signal nobody is to blame. -/
theorem Accounts.signal (h : Accounts s) : Accounts (effect cfg s .signal) :=
  ⟨fun hstopped => absurd hstopped.symm Bool.false_ne_true, fun _ _ => Bool.true_or _,
    fun hyes => ⟨(h.shutdown hyes).1, Bool.true_or _⟩, h.result⟩

/-- The endpoint does not return by itself that a context was cancelled. -/
theorem Accounts.serverReturns (h : Accounts s) (hresult : s.result = none) {err : Option Cause}
    (hmay : s.serverMayReturn err = true) : Accounts (s.ret .server err) := by
  refine h.ret hresult (fun _ x hx => ?_) fun heq => by cases heq
  subst hx
  rw [State.serverMayReturn] at hmay
  cases x with
  | failed => trivial
  | canceled => cases hserver : s.server <;> simp [hserver] at hmay

/-- Every step keeps the accounts, by who returns in it and why. -/
theorem accounts_step (h : Accounts s) (hinv : Invariant cfg s) {e : Event}
    (hstep : step cfg s e = some s') : Accounts s' := by
  obtain ⟨henabled, rfl⟩ := step_eq_some.mp hstep
  cases hown : e.external with
  | true =>
      cases e with
      | signal => exact h.signal
      | certAppears | keyAppears => exact ⟨h.blames, h.fetcher, h.shutdown, h.result⟩
      | _ => cases hown
  | false =>
      have hresult := result_of_enabled hown henabled
      cases e with
      | signal | certAppears | keyAppears => cases hown
      | stage err =>
          rw [enabled, Bool.and_eq_true, Bool.not_eq_true', List.isEmpty_eq_false_iff] at henabled
          exact h.stage hresult henabled.2 err
      | fetcherReturns | rendererReturns | daemonGivesUp | filesGivenUp =>
          rw [enabled, Bool.and_eq_true] at henabled
          exact h.ret_of_cancelled hresult henabled.2 _ _
      | fetcherTurn | rendererTurn | filesTurn => exact h
      | gatewayReturns err | daemonReturns err =>
          exact h.ret hresult (fun _ _ _ => trivial) fun heq => by cases heq
      | serverReturns err =>
          rw [enabled, Bool.and_eq_true] at henabled
          exact h.serverReturns hresult henabled.2
      | shutdownReturns err =>
          rw [enabled, Bool.and_eq_true, Bool.and_eq_true] at henabled
          exact h.ret_of_cancelled hresult (h.shutdown henabled.1.2).2 _ _
      | wait => exact h.wait henabled
      | serverStarts =>
          rw [effect]
          split_ifs
          · exact h.ret hresult (fun _ _ hx => by cases hx) fun heq => by cases heq
          · exact h.keep hresult rfl rfl h.shutdown
      | gatewayConnects | fetcherTicks =>
          rw [effect]
          split_ifs
          · exact h.keep hresult rfl rfl h.shutdown
          · exact h.keep hresult rfl rfl h.shutdown
      | shutdownStarts =>
          rw [enabled, Bool.and_eq_true, Bool.and_eq_true, State.alive, Bool.and_eq_true]
            at henabled
          exact h.keep hresult rfl rfl fun _ => ⟨hinv.todo henabled.1.1.2, henabled.2⟩
      | gatewayConstructs | gatewaySetsReady | gatewayAnnounces | gatewayRuns | gatewayStops err
      | gatewayUnsetsReady err | daemonStarts | daemonRegisters | filesFound =>
          exact h.keep hresult rfl rfl h.shutdown

/-- At the start nobody is blamed, and there is no result. -/
theorem accounts_initial (cfg : FullConfig) : Accounts (.initial cfg) := by
  refine ⟨fun _ i e he => ?_, fun htodo => absurd htodo (List.cons_ne_nil _ _),
    fun hyes => absurd hyes Bool.false_ne_true, fun r hr => ?_⟩
  · cases he
  · cases hr

/-- The accounts are right at every time. -/
theorem accounts_of_run {events : List Event}
    (hrun : Transition.run (step cfg) (.initial cfg) events = some s) : Accounts s := by
  have hboth : Invariant cfg s ∧ Accounts s := by
    have hstep : ∀ s e s', Invariant cfg s ∧ Accounts s → step cfg s e = some s' →
        Invariant cfg s' ∧ Accounts s' := fun s e s' h hstep =>
      ⟨invariant_step cfg s e s' h.1 hstep, accounts_step h.2 h.1 hstep⟩
    exact Transition.run_preserves hstep ⟨invariant_initial cfg, accounts_initial cfg⟩ hrun
  exact hboth.2

/-- **Who is to blame when an agent ends.** If an agent has returned and was not told to end, then
one of its stages failed, and it returned an error; or the first error is one of the gateway, the
daemon API or the endpoint. It then returned this error, unless that one says that a context was
cancelled, which the endpoint does not return by itself. -/
theorem returned_of_run (cfg : FullConfig) (events : List Event) (s : State) (r : Option Cause)
    (hrun : Transition.run (step cfg) (.initial cfg) events = some s) (hr : s.result = some r)
    (hstopped : s.group.stopped = false) :
    (s.todo ≠ [] ∧ r ≠ none) ∨
      (s.todo = [] ∧ ∃ i cause, s.group.err = some (i, cause) ∧ may i cause ∧
        r = if cause = .canceled then none else some .failed) := by
  have h := accounts_of_run hrun
  refine (h.result r hr).imp_right ?_
  rintro ⟨htodo, hfetcher, rfl⟩
  have hcancelled := h.fetcher htodo hfetcher
  rw [Group.cancelled, hstopped, Bool.false_or] at hcancelled
  obtain ⟨⟨i, cause⟩, herr⟩ := Option.isSome_iff_exists.mp hcancelled
  refine ⟨htodo, i, cause, herr, h.blames hstopped i cause herr, ?_⟩
  rw [herr]
  cases cause <;> rfl

/-- The gateway runs and fails, and its goroutine takes readiness back before it returns. -/
def sampleFailure : List Event :=
  [.gatewayRuns, .gatewayStops (some .failed), .gatewayUnsetsReady (some .failed),
    .gatewayReturns (some .failed)]

/-- The gateway of the sample agent fails, and the agent returns its error. -/
theorem returned_of_failing_gateway :
    ∃ s i cause, Transition.run (step sampleConfig) (.initial sampleConfig)
        (sampleStart ++ sampleFailure ++ sampleEnd) = some s ∧
      s.result = some (some .failed) ∧ s.group.err = some (i, cause) ∧ may i cause := by
  have hend : (Transition.run (step sampleConfig) (.initial sampleConfig)
      (sampleStart ++ sampleFailure ++ sampleEnd)).map (fun s =>
        (s.result, s.group.stopped, s.todo)) = some (some (some .failed), false, []) := by
    decide +kernel
  obtain ⟨s, hs, hend⟩ := Option.map_eq_some_iff.mp hend
  obtain ⟨hresult, hend⟩ := Prod.mk.inj hend
  obtain ⟨hstopped, htodo⟩ := Prod.mk.inj hend
  rcases returned_of_run sampleConfig _ s _ hs hresult hstopped with
    ⟨hne, -⟩ | ⟨-, i, cause, herr, hmay, -⟩
  · exact absurd htodo hne
  · exact ⟨s, i, cause, hs, hresult, herr, hmay⟩

/-! ### Agents that the operator deploys -/

section Deployed

variable {nodeName : Str} {spec : NetworkSpec} {image : Str} {forbiddenCIDRs : List Str}
  {metricsTLS : Bool} {c : Container}

/-- The containers of the DaemonSet start agents whose endpoint has a certificate exactly if the
probes expect one, and is at the port of the probes. -/
theorem endpoint_of_daemonSet
    (hc : c ∈ (daemonSet spec image forbiddenCIDRs metricsTLS).body.template.containers)
    (hcfg : fromEnv (getenv nodeName c.env) = .ok cfg) :
    hasTLS cfg = metricsTLS ∧ cfg.metricsAddr = ':' :: itoa metricsPort ∧
      c.readinessProbe = probe "/readyz".toList metricsTLS ∧
      c.livenessProbe = probe "/healthz".toList metricsTLS := by
  obtain rfl := List.mem_singleton.mp hc
  obtain ⟨-, -, -, -, -, hread⟩ := fromEnv_eq_ok_iff.mp hcfg
  have hread' := hread.trans
    (readConfig_agentEnv nodeName spec.toSpec forbiddenCIDRs metricsTLS cfg.refreshInterval)
  refine ⟨?_, ?_, rfl, rfl⟩
  · rw [hasTLS, hread']
    cases metricsTLS <;> rfl
  · have hport : ":9465".toList = ':' :: itoa metricsPort := by decide +kernel
    rw [hread']
    exact hport

/-- The mux answers the liveness probe. -/
theorem mux_healthz (s : State) (pages : Str → ℕ) : s.mux pages "/healthz".toList = 200 :=
  if_pos rfl

/-- The mux answers the readiness probe. -/
theorem mux_readyz (s : State) (pages : Str → ℕ) : s.mux pages "/readyz".toList =
    if s.bootstrapReady && s.gatewayReady then 200 else 503 := by
  rw [State.mux, if_neg (by decide +kernel), if_pos rfl]

/-- Behind the check of tokens, a request without one is answered at the exempt paths only. -/
theorem guarded_arrival (s : State) (pages : Str → ℕ) (exempt : List Str) (path : Str) :
    s.guarded pages (MetricsAuth.arrival exempt ⟨path, []⟩) =
      some (if exempt.contains path then s.mux pages path else 401) := by
  have htoken : MetricsAuth.bearerToken ⟨path, []⟩ = none := if_neg fun h => h.2 List.drop_nil
  rw [MetricsAuth.arrival, htoken]
  split_ifs <;> rfl

/-- What a probe of the DaemonSet gets. -/
theorem respond_probe (htls : hasTLS cfg = metricsTLS)
    (haddr : cfg.metricsAddr = ':' :: itoa metricsPort) (pages : Str → ℕ) {path : Str}
    (hpath : path = "/healthz".toList ∨ path = "/readyz".toList) :
    s.respond cfg pages (probe path metricsTLS) =
      if s.serves then some (s.mux pages path) else none := by
  have hexempt : ["/healthz".toList, "/readyz".toList].contains path = true := by
    rcases hpath with rfl | rfl
    · decide +kernel
    · decide +kernel
  rw [State.respond, handler, htls]
  cases metricsTLS with
  | false => simp [probe, haddr]
  | true =>
      rw [if_pos rfl]
      simp only [probe, haddr, guarded_arrival, hexempt, if_true, decide_true, Bool.and_true]

end Deployed

/-- The sample spec, without pinned TRCs. -/
def sampleNetworkSpec : NetworkSpec :=
  { sampleSpec with bootstrapSecretRef := none, tolerations := [] }

/-- **The probes of the DaemonSet reach the agents that it starts.** Whether agents are to have a
certificate or not, at any time in the life of an agent that a container of the DaemonSet starts:
the readiness probe of this container succeeds exactly if the endpoint serves and every component
is ready, and the liveness probe exactly if the endpoint serves. Until the files of the certificate
exist, if there is to be one, neither gets an answer. -/
theorem probes_of_run (nodeName : Str) (spec : NetworkSpec) (image : Str)
    (forbiddenCIDRs : List Str) (metricsTLS : Bool) (c : Container) (cfg : FullConfig)
    (hc : c ∈ (daemonSet spec image forbiddenCIDRs metricsTLS).body.template.containers)
    (hcfg : fromEnv (getenv nodeName c.env) = .ok cfg) (events : List Event) (s : State)
    (hrun : Transition.run (step cfg) (.initial cfg) events = some s) (pages : Str → ℕ) :
    (s.respond cfg pages c.readinessProbe = some 200 ↔ s.readyz = true) ∧
      (s.respond cfg pages c.livenessProbe = some 200 ↔ s.serves = true) ∧
      (metricsTLS = true → s.files = false →
        s.respond cfg pages c.readinessProbe = none ∧
          s.respond cfg pages c.livenessProbe = none) := by
  obtain ⟨htls, haddr, hreadiness, hliveness⟩ := endpoint_of_daemonSet hc hcfg
  have h := invariant_of_run hrun
  rw [hreadiness, hliveness, respond_probe htls haddr pages (.inr rfl),
    respond_probe htls haddr pages (.inl rfl), mux_readyz, mux_healthz]
  refine ⟨?_, ?_, fun hmetrics hfiles => ?_⟩
  · cases hserves : s.serves <;> simp [State.readyz, hserves]
  · cases hserves : s.serves <;> simp
  · have hserves : s.serves = false := by
      rw [Bool.eq_false_iff]
      intro hserves
      exact Bool.false_ne_true (hfiles.symm.trans (h.files_of_serves (htls.trans hmetrics) hserves))
    rw [hserves]
    exact ⟨rfl, rfl⟩

/-- The sample agent answers the probes. -/
theorem probes_of_sampleStart :
    ∃ s c, Transition.run (step sampleConfig) (.initial sampleConfig) sampleStart = some s ∧
      c ∈ (daemonSet sampleNetworkSpec "agent".toList Startup.sampleForbidden
        true).body.template.containers ∧
      s.respond sampleConfig (fun _ => 200) c.readinessProbe = some 200 := by
  have hready : (Transition.run (step sampleConfig) (.initial sampleConfig) sampleStart).map
      State.readyz = some true := by decide +kernel
  obtain ⟨s, hs, hready⟩ := Option.map_eq_some_iff.mp hready
  refine ⟨s, _, hs, List.mem_cons_self, ?_⟩
  exact (probes_of_run "node-1".toList sampleNetworkSpec "agent".toList Startup.sampleForbidden true
    _ sampleConfig List.mem_cons_self fromEnv_sampleConfig sampleStart s hs fun _ => 200).1.mpr
    hready

/-- **An agent that is to have a certificate never serves without it.** At any time in the life of
an agent that a container of the DaemonSet starts with a certificate: if a request without a token
is answered with success, it was made over TLS, the files of the certificate exist, and it asked
for the path of a probe. -/
theorem protected_of_run (nodeName : Str) (spec : NetworkSpec) (image : Str)
    (forbiddenCIDRs : List Str) (c : Container) (cfg : FullConfig)
    (hc : c ∈ (daemonSet spec image forbiddenCIDRs true).body.template.containers)
    (hcfg : fromEnv (getenv nodeName c.env) = .ok cfg) (events : List Event) (s : State)
    (hrun : Transition.run (step cfg) (.initial cfg) events = some s) (pages : Str → ℕ) (p : Probe)
    (hp : s.respond cfg pages p = some 200) :
    p.scheme = .https ∧ s.files = true ∧
      (p.path = c.readinessProbe.path ∨ p.path = c.livenessProbe.path) := by
  obtain ⟨htls, -, hreadiness, hliveness⟩ := endpoint_of_daemonSet hc hcfg
  have h := invariant_of_run hrun
  rw [hreadiness, hliveness]
  rw [State.respond] at hp
  split_ifs at hp with hserves
  rw [Bool.and_eq_true] at hserves
  rw [handler, if_pos htls] at hp
  cases hscheme : p.scheme with
  | http => simp [hscheme] at hp
  | https =>
      refine ⟨rfl, h.files_of_serves htls hserves.1, ?_⟩
      simp only [hscheme, guarded_arrival, Option.some.injEq] at hp
      split_ifs at hp with hexempt
      · rw [List.contains_iff_mem, List.mem_cons, List.mem_singleton] at hexempt
        exact hexempt.symm
      · omega

/-- The sample agent answers a probe of its liveness, over TLS and with its certificate. -/
theorem protected_of_sampleStart :
    ∃ s, Transition.run (step sampleConfig) (.initial sampleConfig) sampleStart = some s ∧
      s.respond sampleConfig (fun _ => 200) (probe "/healthz".toList true) = some 200 ∧
      s.files = true := by
  have hanswer : (Transition.run (step sampleConfig) (.initial sampleConfig) sampleStart).map
      (fun s => s.respond sampleConfig (fun _ => 200) (probe "/healthz".toList true)) =
        some (some 200) := by decide +kernel
  obtain ⟨s, hs, hanswer⟩ := Option.map_eq_some_iff.mp hanswer
  refine ⟨s, hs, hanswer, ?_⟩
  exact (protected_of_run "node-1".toList sampleNetworkSpec "agent".toList Startup.sampleForbidden _
    sampleConfig List.mem_cons_self fromEnv_sampleConfig sampleStart s hs (fun _ => 200) _
    hanswer).2.1

end ScionOperator.Lifecycle
