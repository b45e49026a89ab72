import Kvasir.BridgedServer
import Kvasir.LockedServer

/-! The whole program: the HTTP bridge, the connections, the server, and the store that
its handlers call under the RWMutex. -/

namespace Kvasir.LockedBridge
open Runs Server Bridge LockedStore

/-- The map is the one under the lock. The `store` of the server's own state is not used. -/
structure State where
  bridge : BridgedServer.State := {}
  locked : LockedStore.State := {}
  calling : ConnId → Option CallId := fun _ => none

inductive Event where
  -- the handler of an HTTP request
  | request (event : BridgedServer.Event)
  -- the server, and the calls of its handlers
  | server (event : LockedServer.Event)
  deriving DecidableEq, Repr

/-- The server with its store. -/
def State.serving (state : State) : LockedServer.State :=
  { server := state.bridge.server, locked := state.locked, calling := state.calling }

def State.setServing (state : State) (serving : LockedServer.State) : State :=
  { bridge := { state.bridge with server := serving.server }, locked := serving.locked, calling := serving.calling }

def State.carries (state : State) (event : LockedServer.Event) : Bool := event.shown.all state.bridge.carries

def State.carried (state : State) (event : LockedServer.Event) : State :=
  { state with bridge := event.shown.elim state.bridge state.bridge.carried }

def step (json : Json) (kvAddr : Bytes) (state : State) : Event → Option State
  | .request (.server _) => none
  | .request event => (BridgedServer.step json kvAddr state.bridge event).map fun bridge => { state with bridge }
  | .server event =>
    if state.carries event = true then (LockedServer.step state.serving event).map (state.carried event).setServing else none

/-- What is seen from outside the store: all but the calls. -/
def Event.shown : Event → Option BridgedServer.Event
  | .request event => some event
  | .server event => event.shown.map .server

end Kvasir.LockedBridge
