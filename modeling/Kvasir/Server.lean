import Kvasir.Lib.Runs
import Kvasir.Lib.Scanner
import Kvasir.Protocol
import Kvasir.Store
import Mathlib.Data.Finset.Card

/-! The TCP loop, one goroutine per connection, and graceful shutdown. A state
holds every goroutine's position; an event is one step of one goroutine or of
the network. Critical sections of the server's mutex that touch only what it
guards are one step. Shutdown's is not: it closes things others can see. -/

namespace Kvasir.Server
open Protocol Runs

abbrev ConnId := Nat

/-- Every store call is one step; its reply is computed from the call's result. -/
def execute (store : MemoryStore) (command : Command) : MemoryStore × Bytes :=
  match command.op with
  | .get =>
    match store.get command.key with
    | none => (store, replyNil)
    | some value => (store, replyValue value)
  | .set => (store.set command.key command.value, replyOK)
  | .del =>
    let (store, present) := store.delete command.key
    (store, if present then replyInt 1 else replyInt 0)

/-- One turn of the handler's loop, up to the write: a line that does not parse
is answered without the store. -/
def answer (store : MemoryStore) (line : Bytes) : MemoryStore × Bytes :=
  match parse line with
  | .error error => (store, replyError error)
  | .ok command => execute store command

section Answer
variable (store : MemoryStore) {line key value : Bytes}

theorem answer_error {error : ParseError} (rejected : parse line = .error error) :
    answer store line = (store, replyError error) := by
  simp only [answer, rejected]

theorem answer_get (parsed : parse line = .ok ⟨.get, key, value⟩) :
    answer store line = (store, (store.get key).elim replyNil replyValue) := by
  simp only [answer, parsed, execute]
  cases store.get key <;> rfl

theorem answer_set (parsed : parse line = .ok ⟨.set, key, value⟩) :
    answer store line = (store.set key value, replyOK) := by
  simp only [answer, parsed, execute]

theorem answer_del (parsed : parse line = .ok ⟨.del, key, value⟩) :
    answer store line = ((store.delete key).1, if (store.get key).isSome then replyInt 1 else replyInt 0) := by
  simp only [answer, parsed, execute]
  rfl

end Answer

/-- Where a connection is between Accept and the end of its handler. -/
inductive Phase where
  | absent
  | held
  | refused
  | admitted
  | scanning
  | scanned (line : Bytes)
  | replying (reply : Bytes)
  | leaving
  | closing
  | exiting
  | finished
  deriving DecidableEq, Repr

structure Conn where
  phase : Phase := .absent
  scanner : Scanner := {}
  closed : Bool := false
  gone : Bool := false
  deriving DecidableEq, Repr

/-- Steps of one handler's loop. A write may fail at any time, and must fail
once the connection is closed or its client is gone. -/
inductive Action where
  | read (chunk : Bytes)
  | readEnd
  | deliver (line : Bytes)
  | process (line reply : Bytes)
  | write (reply : Bytes) (ok : Bool)
  | leave
  deriving DecidableEq, Repr

/-- The loop of `handle`. Any read error ends reading: EOF, a reset, or the
socket being closed on this side. -/
def handle (store : MemoryStore) (conn : Conn) : Action → Option (MemoryStore × Conn)
  | .read chunk =>
    allow (conn.phase = .scanning ∧ conn.scanner.scan = .read ∧ conn.closed = false ∧
        chunk ≠ [] ∧ chunk.length ≤ conn.scanner.room)
      (store, { conn with scanner := conn.scanner.read chunk })
  | .readEnd =>
    allow (conn.phase = .scanning ∧ conn.scanner.scan = .read)
      (store, { conn with scanner := conn.scanner.fail })
  | .deliver line =>
    match conn.scanner.scan with
    | .token found after =>
      allow (conn.phase = .scanning ∧ found = line)
        (store, { conn with scanner := after, phase := .scanned line })
    | _ => none
  | .process line reply =>
    allow (conn.phase = .scanned line ∧ (answer store line).2 = reply)
      ((answer store line).1, { conn with phase := .replying reply })
  | .write reply ok =>
    allow (conn.phase = .replying reply ∧ (ok = true → conn.closed = false ∧ conn.gone = false))
      (store, { conn with phase := if ok then .scanning else .leaving })
  | .leave =>
    allow (conn.phase = .scanning ∧ conn.scanner.scan = .stop) (store, { conn with phase := .leaving })

inductive AcceptError where
  | closed
  | other
  deriving DecidableEq, Repr

inductive Serve where
  | accepting
  | failed (error : AcceptError)
  | holding (conn : ConnId)
  | refusing (conn : ConnId)
  | spawning (conn : ConnId)
  | returned (error : Option AcceptError)
  deriving DecidableEq, Repr

inductive ContextError where
  | canceled
  | deadlineExceeded
  deriving DecidableEq, Repr

/-- Position of the one call of `Shutdown`. Between `locked` and `unlocked` it
holds the mutex; `closing` carries the connections its loop has yet to close. -/
inductive Shutdown where
  | idle
  | locked
  | doneClosed
  | closing (left : Finset ConnId)
  | unlocked
  | waiting
  | returned (error : Option ContextError)
  deriving DecidableEq

def Shutdown.holdsLock : Shutdown → Bool
  | .locked | .doneClosed | .closing _ => true
  | _ => false

def Shutdown.left : Shutdown → Finset ConnId
  | .closing left => left
  | _ => ∅

inductive Drain where
  | idle
  | waiting
  | passed
  | closed
  deriving DecidableEq, Repr

structure State where
  store : MemoryStore := .new
  serve : Serve := .accepting
  listening : Bool := true
  accepted : Finset ConnId := ∅
  conn : ConnId → Conn := fun _ => {}
  conns : Finset ConnId := ∅
  wg : Int := 0
  done : Bool := false
  shutdown : Shutdown := .idle
  drain : Drain := .idle
  ctx : Option ContextError := none

def State.setConn (state : State) (id : ConnId) (conn : Conn) : State :=
  { state with conn := Function.update state.conn id conn }

def State.setPhase (state : State) (id : ConnId) (phase : Phase) : State :=
  state.setConn id { state.conn id with phase }

section Update
variable (state : State) (id other : ConnId) (conn : Conn) (phase : Phase)

@[simp, grind =] theorem State.setConn_conn :
    (state.setConn id conn).conn other = if other = id then conn else state.conn other := by
  simp [setConn, Function.update_apply]

@[simp, grind =] theorem State.setPhase_conn :
    (state.setPhase id phase).conn other = if other = id then { state.conn id with phase } else state.conn other := by
  simp [setPhase]

@[simp, grind =] theorem State.setConn_accepted : (state.setConn id conn).accepted = state.accepted := rfl

@[simp, grind =] theorem State.setPhase_accepted : (state.setPhase id phase).accepted = state.accepted := rfl

end Update

inductive Event where
  -- Serve
  | accept (id : ConnId)
  | acceptFail (error : AcceptError)
  | serveReturn (error : AcceptError)
  | register (id : ConnId)
  | refuse (id : ConnId)
  | closeRefused (id : ConnId)
  | spawn (id : ConnId)
  -- handle: its loop, then the deferred functions
  | handle (id : ConnId) (action : Action)
  | unregister (id : ConnId)
  | close (id : ConnId)
  | wgDone (id : ConnId)
  -- Shutdown and its drain goroutine
  | lock
  | closeDone
  | closeListener
  | closeLive (id : ConnId)
  | unlock
  | startDrain
  | waitReturns
  | closeDrained
  | shutdownNil
  | shutdownErr
  -- the client and the context
  | gone (id : ConnId)
  | ctxEnd (error : ContextError)
  deriving DecidableEq, Repr

def step (state : State) : Event → Option State
  | .accept id =>
    allow (state.serve = .accepting ∧ state.listening = true ∧ id ∉ state.accepted)
      { state.setPhase id .held with serve := .holding id, accepted := insert id state.accepted }
  | .acceptFail error =>
    allow (state.serve = .accepting ∧ (error = .closed ↔ state.listening = false))
      { state with serve := .failed error }
  | .serveReturn error =>
    allow (state.serve = .failed error)
      { state with serve := .returned (if state.done then none else some error) }
  -- Admission and the shutdown check share one critical section.
  | .register id =>
    allow (state.serve = .holding id ∧ state.shutdown.holdsLock = false ∧ state.done = false)
      { state.setPhase id .admitted with
        serve := .spawning id, conns := insert id state.conns, wg := state.wg + 1 }
  | .refuse id =>
    allow (state.serve = .holding id ∧ state.shutdown.holdsLock = false ∧ state.done = true)
      { state.setPhase id .refused with serve := .refusing id }
  | .closeRefused id =>
    allow (state.serve = .refusing id)
      { state.setConn id { state.conn id with closed := true } with serve := .returned none }
  | .spawn id =>
    allow (state.serve = .spawning id) { state.setPhase id .scanning with serve := .accepting }
  | .handle id action =>
    (handle state.store (state.conn id) action).map fun (store, conn) => { state.setConn id conn with store }
  | .unregister id =>
    allow ((state.conn id).phase = .leaving ∧ state.shutdown.holdsLock = false)
      { state.setPhase id .closing with conns := state.conns.erase id }
  | .close id =>
    allow ((state.conn id).phase = .closing)
      (state.setConn id { state.conn id with phase := .exiting, closed := true })
  | .wgDone id =>
    allow ((state.conn id).phase = .exiting) { state.setPhase id .finished with wg := state.wg - 1 }
  | .lock => allow (state.shutdown = .idle) { state with shutdown := .locked }
  | .closeDone => allow (state.shutdown = .locked) { state with done := true, shutdown := .doneClosed }
  | .closeListener =>
    allow (state.shutdown = .doneClosed) { state with listening := false, shutdown := .closing state.conns }
  | .closeLive id =>
    allow (id ∈ state.shutdown.left)
      { state.setConn id { state.conn id with closed := true } with
        shutdown := .closing (state.shutdown.left.erase id) }
  | .unlock => allow (state.shutdown = .closing ∅) { state with shutdown := .unlocked }
  | .startDrain => allow (state.shutdown = .unlocked) { state with shutdown := .waiting, drain := .waiting }
  | .waitReturns => allow (state.drain = .waiting ∧ state.wg = 0) { state with drain := .passed }
  | .closeDrained => allow (state.drain = .passed) { state with drain := .closed }
  | .shutdownNil =>
    allow (state.shutdown = .waiting ∧ state.drain = .closed) { state with shutdown := .returned none }
  | .shutdownErr =>
    allow (state.shutdown = .waiting ∧ state.ctx.isSome = true) { state with shutdown := .returned state.ctx }
  | .gone id => allow ((state.conn id).gone = false) (state.setConn id { state.conn id with gone := true })
  | .ctxEnd error => allow (state.ctx = none) { state with ctx := some error }

/-! What the events of a run show of one connection. -/

def actions (id : ConnId) (events : List Event) : List Action :=
  events.filterMap fun
    | .handle other action => if other = id then some action else none
    | _ => none

def received (past : List Action) : Bytes :=
  past.flatMap fun
    | .read chunk => chunk
    | _ => []

def delivered (past : List Action) : List Bytes :=
  past.filterMap fun
    | .deliver line => some line
    | _ => none

/-- Lines whose command was executed or whose error was formed, with the reply. -/
def processed (past : List Action) : List (Bytes × Bytes) :=
  past.filterMap fun
    | .process line reply => some (line, reply)
    | _ => none

def writes (outcome : Bool) (past : List Action) : List Bytes :=
  past.filterMap fun
    | .write reply ok => if ok = outcome then some reply else none
    | _ => none

/-- Replies whose write succeeded. -/
def replies (past : List Action) : List Bytes := writes true past

/-- The client's stream: reads return it in order, and a read error comes only
after all of it. -/
def Sends (stream : Bytes) (past : List Action) : Prop :=
  received past <+: stream ∧ (.readEnd ∈ past → received past = stream)

end Kvasir.Server
