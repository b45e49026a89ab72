import Kvasir.Proofs.BridgedLinearizable
import Kvasir.Proofs.HandlerAlone
import Kvasir.Proofs.ServerBounds
import Kvasir.Proofs.ServerShutdown

/-! Which requests can be served. Once Shutdown has been called, or Serve has ended, no
new request gets a result. Before that nothing can keep one from it: whatever became of
all other connections, its own handler, Serve and a handler of the server suffice. -/

namespace Kvasir.Server
open Runs Scanner Strings

def Serve.admitting : Serve → Bool
  | .accepting | .holding _ | .spawning _ => true
  | _ => false

/-- Serve goes on, and Shutdown has not been called. -/
def State.admits (state : State) : Bool := state.shutdown = .idle && state.serve.admitting

section Admission
variable {before after : State} {event : Event} {store : MemoryStore} {events later : List Event} {state final : State} {id : ConnId}

theorem Change.kept {before after : Conn} (change : Change store id event before after) (apart : event.conn? ≠ some id) :
    after = before := by
  cases change with
  | other => rfl
  | accept | register | refuse | closeRefused | spawn | handle | unregister | close | wgDone | closeLive | gone =>
    exact absurd rfl apart

theorem unnamed_conn (ran : run step { store } events = some state) (unnamed : ∀ event ∈ events, event.conn? ≠ some id) :
    state.conn id = {} := by
  revert unnamed
  refine invariant (fun past state => (∀ event ∈ past, event.conn? ≠ some id) → state.conn id = {}) (fun _ => rfl) ?_ ran
  intro past before event after earlier ih stepped unnamed
  obtain ⟨front, last⟩ := List.forall_mem_append.mp unnamed
  rw [(step_conn (placed_run earlier) stepped id).kept (last event (by simp))]
  exact ih front

/-- What does not admit now does not admit later either. -/
theorem unadmitting_step (gate : Gate before) (stopped : before.admits = false) (stepped : step before event = some after) :
    after.admits = false ∧ ∀ id, event ≠ .register id := by
  simp only [State.admits, Bool.and_eq_false_iff, decide_eq_false_iff_not] at stopped ⊢
  cases event
  case handle id action =>
    obtain ⟨_, _, _, rfl⟩ := step_handle stepped
    exact ⟨stopped, by simp⟩
  case register id =>
    -- Serve holds a connection, so Shutdown was called, and it has let go of the mutex: done is closed.
    obtain ⟨⟨holding, free, open'⟩, rfl⟩ := (allow_eq_some ..).mp stepped
    have called : before.shutdown ≠ .idle := stopped.resolve_right (by simp [holding, Serve.admitting])
    rw [gate.done] at open'
    cases shutdown : before.shutdown <;> simp_all [Shutdown.holdsLock, Shutdown.stopped]
  case accept _ | acceptFail _ | serveReturn _ | refuse _ | closeRefused _ | spawn _ =>
    obtain ⟨guard, rfl⟩ := (allow_eq_some ..).mp stepped
    simp_all [Serve.admitting, State.setPhase, State.setConn]
  case lock | closeDone | closeListener | closeLive _ | unlock | startDrain | shutdownNil | shutdownErr =>
    obtain ⟨_, rfl⟩ := (allow_eq_some ..).mp stepped
    simp
  all_goals
    obtain ⟨_, rfl⟩ := (allow_eq_some ..).mp stepped
    exact ⟨stopped, by simp⟩

theorem unadmitting_run (ran : run step { store } events = some state) (stopped : state.admits = false)
    (continued : run step state later = some final) : ∀ id, .register id ∉ later := by
  have whole := invariant (fun past state => (Gate state ∧ state.admits = false) ∧ ∀ id, .register id ∉ past)
    ⟨⟨gate_run ran, stopped⟩, by simp⟩ ?_ continued
  · exact whole.2
  rintro past before event after _ ⟨⟨gate, stopped⟩, none⟩ stepped
  obtain ⟨still, other⟩ := unadmitting_step gate stopped stepped
  refine ⟨⟨gate.step stepped, still⟩, fun id member => ?_⟩
  rcases List.mem_append.mp member with earlier | last
  · exact none id earlier
  · exact other id (List.mem_singleton.mp last).symm

/-- A connection that is new to the server gets its handler. -/
theorem admission_run (accepting : state.serve = .accepting) (idle : state.shutdown = .idle) (listening : state.listening = true)
    (undone : state.done = false) (unaccepted : id ∉ state.accepted) :
    run step state [.accept id, .register id, .spawn id] = some { state.setPhase id .scanning with
      accepted := insert id state.accepted, conns := insert id state.conns, wg := state.wg + 1 } := by
  obtain ⟨store, serve, listen, accepted, conn, conns, wg, done, shutdown, drain, ctx⟩ := state
  simp only at accepting idle listening undone unaccepted
  simp [run_cons, step, allow, accepting, idle, listening, undone, unaccepted, Shutdown.holdsLock, State.setPhase, State.setConn]

/-- Serve comes back to Accept by its own steps. -/
theorem admits_accepting (gate : Gate state) (admits : state.admits = true) : ∃ events next,
    (∀ event ∈ events, ∃ id, event = .register id ∨ event = .spawn id) ∧ run step state events = some next ∧
      next.serve = .accepting ∧ next.shutdown = .idle ∧ next.store = state.store := by
  obtain ⟨idle, admitting⟩ := (Bool.and_eq_true ..).mp admits
  have idle : state.shutdown = .idle := of_decide_eq_true idle
  have undone : state.done = false := by simp [gate.done, idle, Shutdown.stopped]
  cases serve : state.serve with
  | accepting => exact ⟨[], state, by simp, rfl, serve, idle, rfl⟩
  | spawning id =>
    refine ⟨[.spawn id], { state.setPhase id .scanning with serve := .accepting }, by simp, ?_, rfl, idle, rfl⟩
    simp [step, allow, serve]
  | holding id =>
    refine ⟨[.register id, .spawn id], { (state.setPhase id .admitted).setPhase id .scanning with
      serve := .accepting, conns := insert id state.conns, wg := state.wg + 1 }, by simp, ?_, rfl, idle, rfl⟩
    simp [run_cons, step, allow, serve, idle, undone, Shutdown.holdsLock, State.setPhase, State.setConn]
  | failed | refusing | returned => simp [serve, Serve.admitting] at admitting

end Admission

end Kvasir.Server

namespace Kvasir.BridgedServer
open Runs Strings Utf8 Protocol Server Bridge Scanner

/-- A result that a request was responded with. -/
def Responded (events : List Event) (r : RequestId) (result : Bridge.Result) : Prop :=
  ∃ outcome, .respond r outcome ∈ events ∧ outcome.response = .ok result

/-- Steps of one request's handler, of Serve, and of the handler of one connection. -/
def Event.serves (r : RequestId) (id : ConnId) : Event → Bool
  | .dial other conn => other = r ∧ conn = id
  | .write other _ | .wrote other | .receive other _ | .respond other _ => other = r
  | .server (.handle conn _) => conn = id
  | .server (.accept _) | .server (.register _) | .server (.spawn _) => true
  | _ => false

/-- The connection that a step names, if any. -/
def Event.conn? : Event → Option ConnId
  | .dial _ id => some id
  | .server event => event.conn?
  | _ => none

section Refused
variable {json : Json} {kvAddr : Bytes} {events later : List Event} {state final : State} {r : RequestId} {body : Bytes}

theorem request_run (continued : run (step json kvAddr) state later = some final) {request : Request}
    (found : state.request r = some request) : ∃ next, final.request r = some next ∧ next.body = request.body := by
  refine invariant (fun _ current => ∃ next, current.request r = some next ∧ next.body = request.body) ⟨request, found, rfl⟩ ?_ continued
  rintro past before event after _ ⟨current, known, same⟩ stepped
  obtain ⟨next, held, kept, _⟩ := moves_request (step_moves stepped) known
  exact ⟨next, held, kept.trans same⟩

/-- A new request dials a connection that the server has not accepted yet. -/
theorem dialed_later (ran : run (step json kvAddr) {} events = some state) (posted : state.request r = some { body })
    (continued : run (step json kvAddr) state later = some final) {id : ConnId} (owned : final.owner id = some r) :
    id ∉ state.server.accepted := by
  have whole := run_join ran continued
  refine undialed_unaccepted whole ((List.mem_append.mp (owner_dialed whole owned)).resolve_left fun early => ?_) ran
  obtain ⟨asked, known⟩ := dialed_since ran early
  simp [State.dialed, posted] at known

/-- A new request that gets a result asked for a line that the scanner takes, of a
server that still admits. -/
theorem responded_admits (ran : run (step json kvAddr) {} events = some state) (posted : state.request r = some { body })
    (continued : run (step json kvAddr) state later = some final) {result : Bridge.Result} (responded : Responded later r result) :
    commandLine json body = some result.sent ∧ Fits result.sent ∧ state.server.admits = true := by
  obtain ⟨outcome, member, ok⟩ := responded
  obtain ⟨middle, rest, rfl⟩ := List.append_of_mem member
  have whole := run_join ran continued
  rw [← List.append_assoc] at whole
  obtain ⟨asked, id, dialed, same, turn⟩ := responded_turn whole ok
  obtain ⟨current, known, rfl, conn⟩ := dialed_iff.mp dialed
  obtain ⟨last, held, kept⟩ := request_run continued posted
  obtain rfl : last = current := Option.some.inj (held.symm.trans known)
  have unaccepted := dialed_later ran posted continued ((run_wired whole).tied r last id known conn).1
  obtain ⟨reached, arrived, _⟩ := run_split whole
  have served := (run_wired arrived).served
  refine ⟨(congrArg (commandLine json) kept).symm.trans same, processed_fits served (by rw [turn]; exact List.mem_singleton_self _), ?_⟩
  by_contra stopped
  have unregistered : .register id ∉ Kvasir.BridgedServer.served (events ++ middle) := by
    rw [served_append] at served ⊢
    obtain ⟨server, earlier, later⟩ := run_split served
    obtain rfl : state.server = server := Option.some.inj ((run_wired ran).served.symm.trans earlier)
    rw [List.mem_append, not_or]
    refine ⟨fun admitted => unaccepted ?_, unadmitting_run earlier (by simpa using stopped) later id⟩
    rw [accepted_iff earlier, accept_iff earlier]
    exact Nat.le_of_succ_le ((register_iff earlier id).mp admitted)
  rw [register_iff served] at unregistered
  rw [(progress_run served id).fresh (Nat.lt_succ_of_lt (Nat.lt_of_not_le unregistered))] at turn
  simp [processed] at turn

end Refused

/-- Where a request and the handler of its connection stand. -/
structure Serving (state : State) (r : RequestId) (id : ConnId) (request : Request) (wire : Wire) (scanner : Scanner) : Prop where
  request : state.request r = some request
  wire : state.wire id = wire
  looping : Looping (state.server.conn id)
  scanner : (state.server.conn id).scanner = scanner

section Served
variable {json : Json} {kvAddr : Bytes} {state : State} {r : RequestId} {id : ConnId} {body line : Bytes}

/-- Steps of the server that carry nothing over a wire. -/
def Plain (event : Server.Event) : Prop := ∀ state : State, state.carries event = true ∧ state.carried event = state

theorem server_run {events : List Server.Event} {server : Server.State} (plain : ∀ event ∈ events, Plain event)
    (ran : run Server.step state.server events = some server) :
    run (step json kvAddr) state (events.map .server) = some { state with server } := by
  induction events generalizing state with
  | nil =>
    cases ran
    rfl
  | cons event events ih =>
    obtain ⟨here, there⟩ := List.forall_mem_cons.mp plain
    obtain ⟨carries, same⟩ := here state
    rw [run_cons] at ran
    obtain ⟨next, stepped, rest⟩ := Option.bind_eq_some_iff.mp ran
    have moved : step json kvAddr state (.server event) = some { state with server := next } := by
      rw [step, if_pos carries, stepped, same]
      rfl
    rw [List.map_cons, run_cons, moved]
    exact @ih { state with server := next } there rest

theorem serving_dialed (posted : state.request r = some { body }) (asked : commandLine json body = some line)
    (accepting : state.server.serve = .accepting) (idle : state.server.shutdown = .idle) (listening : state.server.listening = true)
    (undone : state.server.done = false) (fresh : state.server.conn id = {}) (unaccepted : id ∉ state.server.accepted)
    (free : state.owner id = none) : ∃ next,
    run (step json kvAddr) state (.dial r id :: [.accept id, .register id, .spawn id].map .server) = some next ∧
      Serving next r id { body, conn := some id, network := ⟨true, false, []⟩ } {} {} ∧ next.server.store = state.server.store := by
  have dialing : step json kvAddr state (.dial r id) = some
      { (state.setRequest r { body, conn := some id, network := ⟨true, false, []⟩ }).setWire id {} with
        owner := Function.update state.owner id (some r) } := by
    simp [step, posted, allow, asked, listening, unaccepted, free]
  have plain : ∀ event ∈ [Server.Event.accept id, .register id, .spawn id], Plain event := by
    simp [Plain, State.carries, State.carried]
  have admitted := admission_run accepting idle listening undone unaccepted
  refine ⟨_, run_join ((run_singleton _ _).trans dialing) (server_run plain admitted), ⟨?_, ?_, ⟨?_, ?_, ?_⟩, ?_⟩, rfl⟩
  all_goals simp [State.setRequest, State.setWire, fresh, Server.State.setPhase, Server.State.setConn]

theorem Serving.calling {request : Request} {wire : Wire} {scanner : Scanner} (serving : Serving state r id request wire scanner)
    (running : request.outcome = none) (conn : request.conn = some id) : state.calling r = some (request, id) :=
  calling_iff.mpr ⟨serving.request, running, conn⟩

/-- The request's own steps leave the server's handler where it is. -/
theorem Serving.moved {request : Request} {wire : Wire} {scanner : Scanner} (serving : Serving state r id request wire scanner)
    (next : Request) (carried : Wire) : Serving ((state.setRequest r next).setWire id carried) r id next carried scanner :=
  ⟨by simp [State.setWire], by simp, serving.looping, serving.scanner⟩

/-- The handler writes its line. -/
theorem Serving.written (serving : Serving state r id { body, conn := some id, network := ⟨true, false, []⟩ } {} {})
    (asked : commandLine json body = some line) : ∃ next,
    run (step json kvAddr) state [.write r (line ++ [newline]), .wrote r] = some next ∧
      Serving next r id { body, conn := some id, written := line ++ [newline], network := ⟨true, true, []⟩ }
        { toServer := line ++ [newline] } {} ∧ next.server = state.server := by
  obtain ⟨first, writing, begun, same⟩ : ∃ first, step json kvAddr state (.write r (line ++ [newline])) = some first ∧
      Serving first r id { body, conn := some id, written := line ++ [newline], network := ⟨true, false, []⟩ }
        { toServer := line ++ [newline] } {} ∧ first.server = state.server := by
    refine ⟨_, ?_, serving.moved _ _, rfl⟩
    simp [step, serving.calling, serving.wire, asked, allow]
  have wrote : step json kvAddr first (.wrote r) = some (first.setRequest r
      { body, conn := some id, written := line ++ [newline], network := ⟨true, true, []⟩ }) := by
    simp [step, begun.calling, asked, allow]
  exact ⟨_, run_join ((run_singleton _ _).trans writing) ((run_singleton _ _).trans wrote),
    ⟨by simp, begun.wire, begun.looping, begun.scanner⟩, same⟩

/-- The server's handler reads what was written. -/
theorem Serving.read {request : Request} {chunk : Bytes} (serving : Serving state r id request { toServer := chunk } {})
    (nonempty : chunk ≠ []) (room : chunk.length ≤ maxTokenSize) : ∃ next,
    step json kvAddr state (.server (.handle id (.read chunk))) = some next ∧
      Serving next r id request {} { pending := chunk } ∧ next.server.store = state.server.store := by
  obtain ⟨asked, wire, ⟨phase, opened, present⟩, scanner⟩ := serving
  have stepped : Server.step state.server (.handle id (.read chunk)) = some
      (state.server.setConn id { state.server.conn id with scanner := { pending := chunk } }) := by
    rw [maxTokenSize] at room
    simp [Server.step, Server.handle, allow, phase, scanner, opened, nonempty, room, Scanner.scan, Scanner.read, Scanner.room, Lines.cut,
      Server.State.setConn, maxTokenSize]
  have moved : step json kvAddr state (.server (.handle id (.read chunk))) = some { state.setWire id {} with
      server := state.server.setConn id { state.server.conn id with scanner := { pending := chunk } } } := by
    simp [step, State.carries, State.carried, wire, stepped]
  refine ⟨_, moved, ⟨?_, ?_, ⟨?_, ?_, ?_⟩, ?_⟩, rfl⟩
  all_goals simp [asked, phase, opened, present, State.setWire]

/-- The server's handler answers. -/
theorem Serving.answered {request : Request} (serving : Serving state r id request {} { pending := line ++ [newline] })
    (clean : newline ∉ line) (returns : carriageReturn ∉ line) : ∃ next,
    run (step json kvAddr) state ((turn id line (answer state.server.store line).2).map .server) = some next ∧
      Serving next r id request { toBridge := (answer state.server.store line).2 } {} ∧
      next.server.store = (answer state.server.store line).1 := by
  obtain ⟨asked, wire, looping, scanner⟩ := serving
  have turned := turn_run looping clean (by rw [scanner])
  rw [dropCR_self returns] at turned
  obtain ⟨server, answers, replied⟩ := run_concat (show run Server.step state.server ([.handle id (.deliver line),
    .handle id (.process line (answer state.server.store line).2)] ++ [.handle id (.write (answer state.server.store line).2 true)]) = _
    from turned)
  have plain : ∀ event ∈ [Server.Event.handle id (.deliver line), .handle id (.process line (answer state.server.store line).2)],
      Plain event := by
    simp [Plain, State.carries, State.carried]
  have written : step json kvAddr { state with server } (.server (.handle id (.write (answer state.server.store line).2 true))) = some
      { state.setWire id { toBridge := (answer state.server.store line).2 } with
        server := state.server.settled id [] (answer state.server.store line).1 } := by
    simp [step, State.carries, State.carried, replied, wire, State.setWire]
  refine ⟨_, run_snoc (server_run plain answers) written, ⟨?_, ?_, ?_, ?_⟩, rfl⟩
  · exact asked
  · simp
  · rw [settled_conn]
    exact ⟨looping.phase, looping.opened, looping.present⟩
  · rw [settled_conn]
    simp [scanner]

/-- The handler reads the reply and responds. -/
theorem Serving.responded {reply : Bytes} (serving : Serving state r id
      { body, conn := some id, written := line ++ [newline], network := ⟨true, true, []⟩ } { toBridge := reply ++ [newline] } {})
    (asked : commandLine json body = some line) (clean : newline ∉ reply) : ∃ next outcome,
    run (step json kvAddr) state [.receive r (reply ++ [newline]), .respond r outcome] = some next ∧
      outcome.response = .ok ⟨line, trimRight lineEnds (reply ++ [newline])⟩ ∧ next.server = state.server := by
  obtain ⟨first, receives, read, same⟩ : ∃ first, step json kvAddr state (.receive r (reply ++ [newline])) = some first ∧
      Serving first r id { body, conn := some id, written := line ++ [newline], network := ⟨true, true, reply ++ [newline]⟩ } {} {} ∧
      first.server = state.server := by
    refine ⟨_, ?_, serving.moved _ _, rfl⟩
    simp [step, serving.calling, serving.wire, allow]
  obtain ⟨command, decoded, accepted, rfl⟩ := commandLine_some.mp asked
  have handled := @handleCmd_sent json kvAddr body ⟨true, true, reply ++ [newline]⟩ command decoded accepted rfl rfl
  have responds : step json kvAddr first (.respond r (handleCmd json kvAddr ⟨true, true, reply ++ [newline]⟩ body)) = some
      (first.setRequest r
        { body, conn := some id, written := trimSpace command ++ [newline], network := ⟨true, true, reply ++ [newline]⟩
          outcome := some (handleCmd json kvAddr ⟨true, true, reply ++ [newline]⟩ body) }) := by
    simp [step, read.request, allow]
  refine ⟨_, _, run_join ((run_singleton _ _).trans receives) ((run_singleton _ _).trans responds), ?_, same⟩
  rw [handled]
  simp [readString, Lines.cut_line newline clean]

end Served

section Available
variable {json : Json} {kvAddr : Bytes} {events : List Event} {state : State} {r : RequestId} {body line : Bytes}

/-- There is always a connection that nothing has happened to. -/
theorem unused_conn (ran : run (step json kvAddr) {} events = some state) : ∃ id, state.server.conn id = {} ∧
    id ∉ state.server.accepted ∧ state.owner id = none := by
  obtain ⟨id, unnamed⟩ := Infinite.exists_notMem_finset (events.filterMap Event.conn?).toFinset
  have apart : ∀ event ∈ events, event.conn? ≠ some id := by simpa using unnamed
  have served := (run_wired ran).served
  have silent : ∀ event ∈ Kvasir.BridgedServer.served events, event.conn? ≠ some id := by
    intro event member
    obtain ⟨whole, inside, shown⟩ := List.mem_filterMap.mp member
    cases whole <;> cases shown
    exact apart _ inside
  refine ⟨id, unnamed_conn served silent, fun accepted => ?_, ?_⟩
  · exact silent _ ((accepted_iff served).mp accepted) rfl
  · cases owned : state.owner id with
    | none => rfl
    | some r => exact absurd rfl (apart _ (owner_dialed ran owned))

/-- Serve is in Accept: a new request is served by its own handler and that of a new
connection. -/
theorem accepting_serves (ran : run (step json kvAddr) {} events = some state) (posted : state.request r = some { body })
    (asked : commandLine json body = some line) (fits : Fits line) (accepting : state.server.serve = .accepting)
    (idle : state.server.shutdown = .idle) : ∃ id later final, (∀ event ∈ later, event.serves r id = true) ∧
      run (step json kvAddr) state later = some final ∧
      Responded later r ⟨line, trimRight lineEnds (answer state.server.store line).2⟩ ∧
      final.server.store = (answer state.server.store line).1 := by
  obtain ⟨clean, returns⟩ := commandLine_clean asked
  have served := (run_wired ran).served
  have gate := gate_run served
  obtain ⟨reply, answered, whole⟩ := (clean_run Clean.new served).reply line
  obtain ⟨id, fresh, unaccepted, free⟩ := unused_conn ran
  obtain ⟨dialed, dials, serving, store⟩ := @serving_dialed json kvAddr state r id body line posted asked accepting idle
    (by rw [gate.listening, idle]; rfl) (by rw [gate.done, idle]; rfl) fresh unaccepted free
  obtain ⟨written, writes, serving, same⟩ := @Serving.written json kvAddr dialed r id body line serving asked
  rw [← same] at store
  obtain ⟨read, reads, serving, same⟩ := @Serving.read json kvAddr written r id _ _ serving (by simp)
    (by rw [List.length_append]; exact fits)
  rw [← same] at store
  obtain ⟨replied, turns, serving, after⟩ := @Serving.answered json kvAddr read r id line _ serving clean returns
  rw [store] at turns serving after
  rw [answered] at serving
  obtain ⟨final, outcome, responds, ok, same⟩ := @Serving.responded json kvAddr replied r id body line reply serving asked whole
  refine ⟨id, _, final, ?_, run_join dials (run_join writes (run_join ((run_singleton _ _).trans reads) (run_join turns responds))),
    ⟨outcome, by simp, ?_⟩, by rw [same, after]⟩
  · simp [Event.serves, turn]
  · rw [answered]
    exact ok

/-- A new request gets a result only for a line that the scanner takes, from a server
that admits. Then it gets one whatever became of all others: its handler, Serve and the
handler of one connection bring about the answer that its line has now. -/
theorem bridge_available (ran : run (step json kvAddr) {} events = some state) (posted : state.request r = some { body }) :
    (∀ later final result, run (step json kvAddr) state later = some final → Responded later r result →
      commandLine json body = some result.sent ∧ Fits result.sent ∧ state.server.admits = true) ∧
    ∀ line, commandLine json body = some line → Fits line → state.server.admits = true → ∃ id later final,
      (∀ event ∈ later, event.serves r id = true) ∧ run (step json kvAddr) state later = some final ∧
      Responded later r ⟨line, trimRight lineEnds (answer state.server.store line).2⟩ ∧
      final.server.store = (answer state.server.store line).1 := by
  refine ⟨fun later final result continued responded => responded_admits ran posted continued responded, fun line asked fits admits => ?_⟩
  obtain ⟨ready, server, own, readied, accepting, idle, store⟩ := admits_accepting (gate_run (run_wired ran).served) admits
  have plain : ∀ event ∈ ready, Plain event := by
    intro event member
    rcases own event member with ⟨other, rfl | rfl⟩ <;> exact fun _ => ⟨rfl, rfl⟩
  have first := @server_run json kvAddr state _ _ plain readied
  obtain ⟨id, later, final, serves, continued, responded, after⟩ :=
    accepting_serves (run_join ran first) posted asked fits accepting idle
  rw [← store]
  refine ⟨id, ready.map .server ++ later, final, ?_, run_join first continued, ?_, after⟩
  · intro event member
    rcases List.mem_append.mp member with early | late
    · obtain ⟨step, inside, rfl⟩ := List.mem_map.mp early
      rcases own step inside with ⟨other, rfl | rfl⟩ <;> rfl
    · exact serves event late
  · obtain ⟨outcome, inside, ok⟩ := responded
    exact ⟨outcome, List.mem_append_right _ inside, ok⟩

end Available

/-- One client has gone silent in a line. Serve holds another connection, whose client
has gone. A request is posted. -/
def stalled : List Event := [.server (.accept 0), .server (.register 0), .server (.spawn 0),
  .server (.handle 0 (.read (text "SET a"))), .server (.accept 1), .server (.gone 1), .post 0 (plainBody (text "GET a"))]

theorem bridge_available_stalled : ∃ ran : (run (step plainJson (text "kv")) {} stalled).isSome, ∃ later final,
    run (step plainJson (text "kv")) ((run (step plainJson (text "kv")) {} stalled).get ran) later = some final ∧
      Responded later 0 ⟨text "GET a", text "(nil)"⟩ := by
  obtain ⟨ran, posted, asked, admits, replied⟩ : ∃ ran : (run (step plainJson (text "kv")) {} stalled).isSome,
      let state := (run (step plainJson (text "kv")) {} stalled).get ran
      state.request 0 = some { body := plainBody (text "GET a") } ∧
      commandLine plainJson (plainBody (text "GET a")) = some (text "GET a") ∧ state.server.admits = true ∧
      trimRight lineEnds (answer state.server.store (text "GET a")).2 = text "(nil)" :=
    ⟨by decide, by decide, by decide, by decide, by decide⟩
  obtain ⟨_, later, final, _, continued, responded, _⟩ :=
    (bridge_available (Option.some_get ran).symm posted).2 (text "GET a") asked (by decide) admits
  rw [replied] at responded
  exact ⟨ran, later, final, continued, responded⟩

end Kvasir.BridgedServer
