import Kvasir.Bench
import Kvasir.Lib.Runs
import Mathlib.Logic.Function.Basic

/-! One measurement: the client goroutines against the goroutine that started
them, which sleeps, reads the clock, lets the clients go and waits for them.
Nothing says how fast anyone is; a clock reading is whatever its event carries. -/

namespace Kvasir.Measure
open Runs Bench

/-- Where a client's goroutine is. Requests are still to be made in `run`, which
is called once for the warmup and once for what is measured. -/
inductive Phase where
  | warming (left : Nat)
  | parked
  | measuring (left : Nat)
  | failed
  | finished
  deriving DecidableEq, Repr

def Phase.left : Phase → Nat
  | .warming left | .measuring left => left
  | _ => 0

def Phase.next : Phase → Phase
  | .warming left => .warming (left - 1)
  | .measuring left => .measuring (left - 1)
  | phase => phase

def Phase.record : Phase → Bool
  | .measuring _ => true
  | _ => false

def Phase.ready : Phase → Bool
  | .warming _ => false
  | _ => true

def Phase.done : Phase → Bool
  | .failed | .finished => true
  | _ => false

structure Client where
  phase : Phase
  t0 : Option Int := none
  lat : List Int := []
  deriving DecidableEq, Repr

/-- Steps of a client. A reply is what `run` expects, or ends the client. -/
inductive Action where
  | send (now : Int)
  | sendFail
  | reply (now : Int) (expected : Bool)
  | replyFail
  | park
  | go
  | finish
  deriving DecidableEq, Repr

def act (ops : Nat) (started : Bool) (client : Client) : Action → Option Client
  | .send now => allow (client.t0 = none ∧ 0 < client.phase.left) { client with t0 := some now }
  | .sendFail => allow (client.t0 = none ∧ 0 < client.phase.left) { client with phase := .failed }
  | .reply now expected =>
    client.t0.map fun t0 =>
      { phase := if expected then client.phase.next else .failed
        lat := if client.phase.record then client.lat ++ [now - t0] else client.lat }
  | .replyFail => allow (client.t0 ≠ none) { client with phase := .failed, t0 := none }
  | .park => allow (client.phase = .warming 0) { client with phase := .parked }
  | .go => allow (client.phase = .parked ∧ started = true) { client with phase := .measuring ops, lat := [] }
  | .finish => allow (client.phase = .measuring 0) { client with phase := .finished }

inductive Main where
  | sleeping
  | slept
  | timing
  | waiting
  | waited
  | returned
  deriving DecidableEq, Repr

structure State where
  main : Main := .sleeping
  t0 : Int := 0
  elapsed : Int := 0
  started : Bool := false
  client : Nat → Client

inductive Event where
  | wake
  | readT0 (now : Int)
  | closeStart
  | waitReturns
  | readElapsed (now : Int)
  | client (i : Nat) (action : Action)
  deriving DecidableEq, Repr

def initial (warmup : Nat) : State := { client := fun _ => { phase := .warming warmup } }

def step (n ops : Nat) (state : State) : Event → Option State
  | .wake => allow (state.main = .sleeping) { state with main := .slept }
  | .readT0 now => allow (state.main = .slept) { state with main := .timing, t0 := now }
  | .closeStart => allow (state.main = .timing) { state with main := .waiting, started := true }
  | .waitReturns =>
    allow (state.main = .waiting ∧ ∀ i < n, (state.client i).phase.done = true) { state with main := .waited }
  | .readElapsed now => allow (state.main = .waited) { state with main := .returned, elapsed := now - state.t0 }
  | .client i action =>
    if i < n then
      (act ops state.started (state.client i) action).map fun client =>
        { state with client := Function.update state.client i client }
    else none

/-- What is returned, unless a client failed. -/
def State.result (n : Nat) (state : State) : Option Result :=
  if ∃ i < n, (state.client i).phase = .failed then none
  else some (Result.of state.elapsed ((List.range n).map fun i => (state.client i).lat))

end Kvasir.Measure
