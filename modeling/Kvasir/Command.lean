import Kvasir.Server

/-! The process: wiring and signal handling. The main goroutine listens, has Serve run
in a goroutine of its own, waits for what Serve returns or for an interrupt, and calls
Shutdown under a deadline. There is no clock here: the deadline passes when it passes. -/

namespace Kvasir.Command
open Runs Server

/-- What the process logs. Listen's errors and the address are opaque. -/
inductive Log where
  | listenFailed
  | listening
  | serveFailed (error : AcceptError)
  | shuttingDown
  | shutdown (error : ContextError)
  deriving DecidableEq, Repr

/-- `log.Fatal` ends the process where it stands, as does an interrupt that nobody
has asked to be notified of. -/
inductive Exit where
  | returned
  | fatal
  | killed
  deriving DecidableEq, Repr

inductive Main where
  | starting
  | bound
  | selecting
  | shutting
  | exited (exit : Exit)
  deriving DecidableEq, Repr

/-- `ctx` is done once the process was interrupted; `errc` has room for one error. -/
structure State where
  main : Main := .starting
  server : Server.State := {}
  interrupted : Bool := false
  sent : Bool := false
  errc : Option (Option AcceptError) := none
  logs : List Log := []

inductive Event where
  -- the main goroutine
  | listenFail
  | listen
  | serve
  | receive (error : Option AcceptError)
  | ctxDone
  | exit
  -- the goroutine that runs Serve, once Serve has returned
  | send (error : Option AcceptError)
  -- every other step of the server, Shutdown's included
  | server (event : Server.Event)
  | interrupt
  deriving DecidableEq, Repr

/-- The server runs from `go` to the end of the process. Main's one call of Shutdown
is the only one, and its context ends by the deadline alone. -/
def Main.permits (main : Main) : Server.Event → Bool
  | .lock => main = .shutting
  | .ctxEnd error => main = .shutting ∧ error = .deadlineExceeded
  | _ => main = .selecting ∨ main = .shutting

def step (state : State) : Event → Option State
  | .listenFail =>
    allow (state.main = .starting) { state with main := .exited .fatal, logs := state.logs ++ [.listenFailed] }
  | .listen => allow (state.main = .starting) { state with main := .bound, logs := state.logs ++ [.listening] }
  | .serve => allow (state.main = .bound) { state with main := .selecting }
  | .receive error =>
    allow (state.main = .selecting ∧ state.errc = some error)
      (match error with
      | some failure =>
        { state with errc := none, main := .exited .fatal, logs := state.logs ++ [.serveFailed failure] }
      | none => { state with errc := none, main := .shutting })
  | .ctxDone =>
    allow (state.main = .selecting ∧ state.interrupted = true)
      { state with main := .shutting, logs := state.logs ++ [.shuttingDown] }
  | .exit =>
    match state.server.shutdown with
    | .returned error =>
      allow (state.main = .shutting)
        { state with main := .exited .returned, logs := state.logs ++ error.toList.map .shutdown }
    | _ => none
  | .send error =>
    allow ((state.main = .selecting ∨ state.main = .shutting) ∧ state.server.serve = .returned error ∧
        state.sent = false ∧ state.errc = none)
      { state with sent := true, errc := some error }
  | .server event =>
    if state.main.permits event then (Server.step state.server event).map fun server => { state with server } else none
  -- Before NotifyContext an interrupt kills the process; after it the first one ends ctx.
  | .interrupt =>
    match state.main with
    | .starting | .bound => some { state with main := .exited .killed }
    | .selecting | .shutting => some { state with interrupted := true }
    | .exited _ => none

def Event.server? : Event → Option Server.Event
  | .server event => some event
  | _ => none

/-- The server's part of a run of the process. -/
def served (events : List Event) : List Server.Event := events.filterMap Event.server?

end Kvasir.Command
