import Kvasir.LockedStore
import Kvasir.Server

/-! The server as it is put together. Its handlers call the store that is guarded by
the RWMutex, so processing a line is not one step: the handler that executes a
command starts a call, the call goes through its steps under the lock, and what it
returns becomes the reply. -/

namespace Kvasir.LockedServer
open Runs Protocol Server LockedStore

/-- The store call that a command makes. -/
def storeCall (command : Command) : Call :=
  match command.op with
  | .get => .get command.key
  | .set => .set command.key command.value
  | .del => .delete command.key

/-- The reply that a call's result becomes. -/
def resultReply : Result → Bytes
  | .found none => replyNil
  | .found (some value) => replyValue value
  | .done => replyOK
  | .existed ok => if ok then replyInt 1 else replyInt 0

/-- The `store` of the server's own state is not used: its place is taken by the map
under the lock. A handler inside `execute` waits for a call. -/
structure State where
  server : Server.State := {}
  locked : LockedStore.State := {}
  calling : ConnId → Option CallId := fun _ => none

inductive Event where
  -- anything the server does but process a line
  | server (event : Server.Event)
  -- a handler, between a line it scanned and the reply
  | reject (id : ConnId) (line : Bytes)
  | execute (id : ConnId) (line : Bytes) (call : CallId)
  | reply (id : ConnId) (reply : Bytes)
  -- a call of the store, once it is started
  | acquire (call : CallId)
  | lookup (call : CallId)
  | modify (call : CallId)
  | release (call : CallId) (made : Call) (result : Result)
  deriving DecidableEq, Repr

def step (state : State) : Event → Option State
  | .server (.handle _ (.process _ _)) => none
  | .server event => (Server.step state.server event).map fun server => { state with server }
  | .reject id line =>
    match parse line with
    | .error error =>
      allow ((state.server.conn id).phase = .scanned line ∧ state.calling id = none)
        { state with server := state.server.setPhase id (.replying (replyError error)) }
    | .ok _ => none
  | .execute id line call =>
    match parse line with
    | .error _ => none
    | .ok command =>
      if (state.server.conn id).phase = .scanned line ∧ state.calling id = none then
        (LockedStore.step state.locked (.start call (storeCall command))).map fun locked =>
          { state with locked, calling := Function.update state.calling id (some call) }
      else none
  | .reply id reply =>
    match (state.calling id).map state.locked.phase with
    | some (.returned _ result) =>
      allow (resultReply result = reply)
        { state with server := state.server.setPhase id (.replying reply), calling := Function.update state.calling id none }
    | _ => none
  | .acquire call => (LockedStore.step state.locked (.acquire call)).map fun locked => { state with locked }
  | .lookup call => (LockedStore.step state.locked (.lookup call)).map fun locked => { state with locked }
  | .modify call => (LockedStore.step state.locked (.modify call)).map fun locked => { state with locked }
  | .release call made result =>
    (LockedStore.step state.locked (.release call made result)).map fun locked => { state with locked }

/-- What is seen of the server from outside the store: all but the calls. -/
def Event.shown : Event → Option Server.Event
  | .server event => some event
  | _ => none

end Kvasir.LockedServer
