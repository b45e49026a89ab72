import Kvasir.Bridge

/-! The bridge in front of the server. Every HTTP request has a goroutine of its own,
which dials a connection of its own, and the server holds the other ends among the
connections of any other clients. What is written on a connection is on its way until
the other side reads it. -/

namespace Kvasir.BridgedServer
open Runs Strings Utf8 Server Bridge

abbrev RequestId := Nat

/-- The line that a request body asks to forward, unless it is refused. -/
def commandLine (json : Json) (body : Bytes) : Option Bytes :=
  match json.decode body with
  | none => none
  | some command =>
    let line := trimSpace command
    if line = [] ∨ carriageReturn ∈ line ∨ newline ∈ line then none else some line

/-- Bytes on their way, in both directions of a connection. -/
structure Wire where
  toServer : Bytes := []
  toBridge : Bytes := []
  deriving DecidableEq, Repr

/-- One call of the handler: the connection it dialed, how far it got with that, and
its outcome once it has responded. Then its connection is closed. -/
structure Request where
  body : Bytes
  conn : Option ConnId := none
  written : Bytes := []
  network : Network := ⟨false, false, []⟩
  outcome : Option Outcome := none
  deriving DecidableEq, Repr

/-- A connection has an owner if it was dialed for a request. -/
structure State where
  server : Server.State := {}
  request : RequestId → Option Request := fun _ => none
  owner : ConnId → Option RequestId := fun _ => none
  wire : ConnId → Wire := fun _ => {}

def State.setRequest (state : State) (r : RequestId) (request : Request) : State :=
  { state with request := Function.update state.request r (some request) }

def State.setWire (state : State) (id : ConnId) (wire : Wire) : State :=
  { state with wire := Function.update state.wire id wire }

inductive Event where
  -- the handler of a request
  | post (r : RequestId) (body : Bytes)
  | dial (r : RequestId) (id : ConnId)
  | write (r : RequestId) (chunk : Bytes)
  | wrote (r : RequestId)
  | receive (r : RequestId) (chunk : Bytes)
  | respond (r : RequestId) (outcome : Outcome)
  -- the server, for requests and for other clients
  | server (event : Server.Event)
  deriving DecidableEq, Repr

/-- The server reads of a request's connection what was written to it, and finds it at
its end only when one of the two sides has closed it. -/
def State.carries (state : State) : Server.Event → Bool
  | .handle id (.read chunk) => (state.owner id).isNone || chunk.isPrefixOf (state.wire id).toServer
  | .handle id .readEnd =>
    match state.owner id with
    | none => true
    | some r => (state.server.conn id).closed || ((state.request r).bind Request.outcome).isSome
  | _ => true

/-- What the server's step takes from the wire, and what it puts on it. -/
def State.carried (state : State) : Server.Event → State
  | .handle id (.read chunk) =>
    state.setWire id { state.wire id with toServer := (state.wire id).toServer.drop chunk.length }
  | .handle id (.write reply true) => state.setWire id { state.wire id with toBridge := (state.wire id).toBridge ++ reply }
  | _ => state

/-- A request's handler that has not responded, with the connection it dialed. -/
def State.calling (state : State) (r : RequestId) : Option (Request × ConnId) :=
  match state.request r with
  | some request => if request.outcome = none then request.conn.map fun id => (request, id) else none
  | none => none

def step (json : Json) (kvAddr : Bytes) (state : State) : Event → Option State
  | .post r body => allow (state.request r = none) (state.setRequest r { body })
  | .dial r id =>
    match state.request r with
    | some request =>
      allow (request.outcome = none ∧ request.conn = none ∧ (commandLine json request.body).isSome = true ∧
          state.server.listening = true ∧ id ∉ state.server.accepted ∧ state.owner id = none)
        { (state.setRequest r { request with conn := some id, network := { request.network with dial := true } }).setWire id {} with
          owner := Function.update state.owner id (some r) }
    | none => none
  | .write r chunk =>
    match state.calling r with
    | some (request, id) =>
      allow (request.network.write = false ∧
          ∃ line, commandLine json request.body = some line ∧ request.written ++ chunk <+: line ++ [newline])
        ((state.setRequest r { request with written := request.written ++ chunk }).setWire id
          { state.wire id with toServer := (state.wire id).toServer ++ chunk })
    | none => none
  -- Write returns without an error when all is written.
  | .wrote r =>
    match state.calling r with
    | some (request, _) =>
      allow (∃ line, commandLine json request.body = some line ∧ request.written = line ++ [newline])
        (state.setRequest r { request with network := { request.network with write := true } })
    | none => none
  -- ReadString goes on reading until it has a line.
  | .receive r chunk =>
    match state.calling r with
    | some (request, id) =>
      allow (request.network.write = true ∧ newline ∉ request.network.inbound ∧ chunk <+: (state.wire id).toBridge)
        ((state.setRequest r
            { request with network := { request.network with inbound := request.network.inbound ++ chunk } }).setWire id
          { state.wire id with toBridge := (state.wire id).toBridge.drop chunk.length })
    | none => none
  -- A dial, a write or a read may fail at any time, as the deadline may pass.
  | .respond r outcome =>
    match state.request r with
    | some request =>
      allow (request.outcome = none ∧ handleCmd json kvAddr request.network request.body = outcome)
        (state.setRequest r { request with outcome := some outcome })
    | none => none
  | .server event =>
    if state.carries event = true then
      (Server.step state.server event).map fun server => { state.carried event with server }
    else none

/-- What the server does, for whomever. -/
def Event.served : Event → Option Server.Event
  | .server event => some event
  | _ => none

def served (events : List Event) : List Server.Event := events.filterMap Event.served

end Kvasir.BridgedServer
