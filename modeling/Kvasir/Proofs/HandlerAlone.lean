import Kvasir.Proofs.StoreHistory

/-! A handler needs nobody. From its loop, with an open connection and its client
there, its own steps answer every line it has buffered, wherever Serve, Shutdown and
the other handlers happen to be. -/

namespace Kvasir.Server
open Runs Histories Scanner Strings

/-- A state in which one handler has come to another place in its buffer. -/
def State.settled (state : State) (id : ConnId) (pending : Bytes) (store : MemoryStore) : State :=
  { state.setConn id { state.conn id with scanner := { (state.conn id).scanner with pending } } with store }

section Settled
variable (state : State) (id : ConnId) (first last : Bytes) (store next : MemoryStore)

theorem settled_conn : (state.settled id first store).conn id =
    { state.conn id with scanner := { (state.conn id).scanner with pending := first } } := by
  simp [State.settled, State.setConn]

theorem settled_settled : (state.settled id first store).settled id last next = state.settled id last next := by
  simp [State.settled, State.setConn]

theorem settled_self : state.settled id (state.conn id).scanner.pending state.store = state := by
  simp [State.settled, State.setConn]

end Settled

/-- One line's turn: handed over, processed, and its reply written. -/
def turn (id : ConnId) (line reply : Bytes) : List Event :=
  [.handle id (.deliver line), .handle id (.process line reply), .handle id (.write reply true)]

/-- The handler is in its loop and its writes get through. -/
structure Looping (conn : Conn) : Prop where
  phase : conn.phase = .scanning
  opened : conn.closed = false
  present : conn.gone = false

section Turn
variable {state : State} {id : ConnId}

theorem turn_run (looping : Looping (state.conn id)) {line rest : Bytes} (clean : newline ∉ line)
    (buffered : (state.conn id).scanner.pending = line ++ newline :: rest) :
    run step state (turn id (dropCR line) (answer state.store (dropCR line)).2) =
      some (state.settled id rest (answer state.store (dropCR line)).1) := by
  have scanned : (state.conn id).scanner.scan = .token (dropCR line) { (state.conn id).scanner with pending := rest } := by
    simp only [Scanner.scan, buffered, Lines.cut_line newline clean]
  obtain ⟨phase, opened, present⟩ := looping
  obtain ⟨store, serve, listening, accepted, conn, conns, wg, done, shutdown, drain, ctx⟩ := state
  simp only at phase opened present scanned
  simp [turn, run_cons, step, handle, scanned, phase, opened, present, allow, State.setConn, State.settled]

private theorem lines_answered (looping : Looping (state.conn id)) {lines : List Bytes} {last : Bytes}
    (clean : ∀ line ∈ lines, newline ∉ line) (buffered : (state.conn id).scanner.pending = Lines.unlines newline lines ++ last) :
    ∃ later, (∀ event ∈ later, ∃ action, event = .handle id action) ∧ received (actions id later) = [] ∧
      later.length = 3 * lines.length ∧ replies (actions id later) = (perform answer state.store (lines.map dropCR)).2 ∧
      run step state later = some (state.settled id last (perform answer state.store (lines.map dropCR)).1) := by
  induction lines generalizing state with
  | nil =>
    obtain rfl : (state.conn id).scanner.pending = last := by simpa using buffered
    exact ⟨[], by simp, rfl, rfl, rfl, congrArg some (settled_self state id).symm⟩
  | cons line lines ih =>
    obtain ⟨here, there⟩ := List.forall_mem_cons.mp clean
    rw [Lines.unlines_cons, List.append_assoc, List.cons_append] at buffered
    have first := turn_run looping here buffered
    have next := settled_conn state id (Lines.unlines newline lines ++ last) (answer state.store (dropCR line)).1
    obtain ⟨later, own, silent, count, answers, ran⟩ := ih (by rw [next]; exact ⟨looping.phase, looping.opened, looping.present⟩)
      there (by rw [next])
    refine ⟨turn id (dropCR line) (answer state.store (dropCR line)).2 ++ later, ?_, ?_, ?_, ?_, ?_⟩
    · intro event member
      rcases List.mem_append.mp member with inside | inside
      · simp only [turn, List.mem_cons, List.not_mem_nil, or_false] at inside
        rcases inside with rfl | rfl | rfl <;> exact ⟨_, rfl⟩
      · exact own event inside
    · rw [actions_append, received_append, silent]
      simp [turn, actions, received]
    · simp only [turn, List.length_append, List.length_cons, List.length_nil, count]
      omega
    · rw [actions_append, replies_append, answers, List.map_cons, perform_cons]
      simp [turn, actions, replies, writes, State.settled]
    · rw [List.map_cons, perform_cons]
      refine run_join first (ran.trans ?_)
      rw [settled_settled]
      rfl

/-- In any state of the server, a handler that is in its loop and whose writes get
through answers all the lines in its buffer in three steps each, all its own and none
of them a read, with the replies these lines have one after the other. Nothing else of
the server moves, be Shutdown holding the mutex or not. -/
theorem buffered_answered (looping : Looping (state.conn id)) {lines : List Bytes}
    (buffered : Lines.complete newline (state.conn id).scanner.pending = lines) : ∃ later,
    (∀ event ∈ later, ∃ action, event = .handle id action) ∧ received (actions id later) = [] ∧ later.length = 3 * lines.length ∧
    replies (actions id later) = (perform answer state.store (lines.map dropCR)).2 ∧
    run step state later = some (state.settled id (Lines.rest newline (state.conn id).scanner.pending)
      (perform answer state.store (lines.map dropCR)).1) := by
  obtain ⟨whole, last, same, clean, lastClean⟩ := Lines.decompose newline (state.conn id).scanner.pending
  rw [same, Lines.complete_unlines newline clean lastClean] at buffered
  rw [same, Lines.rest_unlines newline clean lastClean, ← buffered]
  exact lines_answered looping clean same

end Turn

/-- One handler has two lines and a half buffered. Shutdown holds the mutex, and Serve
waits for it with another connection. -/
def crowded : List Event := [.accept 0, .register 0, .spawn 0, .handle 0 (.read (text "SET a b\nGET a\nDEL")), .accept 1,
  .lock, .closeDone]

theorem buffered_answered_crowded : ∃ ran : (run step {} crowded).isSome, ∃ later final,
    run step ((run step {} crowded).get ran) later = some final ∧ later.length = 6 ∧ final.shutdown = .doneClosed ∧
      replies (actions 0 later) = [text "OK\n", text "b\n"] := by
  obtain ⟨ran, phase, opened, present, buffered, held, answers⟩ : ∃ ran : (run step {} crowded).isSome,
      let state := (run step {} crowded).get ran
      (state.conn 0).phase = .scanning ∧ (state.conn 0).closed = false ∧ (state.conn 0).gone = false ∧
      Lines.complete newline (state.conn 0).scanner.pending = [text "SET a b", text "GET a"] ∧ state.shutdown = .doneClosed ∧
      (perform answer state.store [text "SET a b", text "GET a"]).2 = [text "OK\n", text "b\n"] :=
    ⟨by decide, by decide, by decide, by decide, by decide, by decide, by decide⟩
  obtain ⟨later, _, _, count, replied, continued⟩ := buffered_answered ⟨phase, opened, present⟩ buffered
  exact ⟨ran, later, _, continued, count, held, replied.trans answers⟩

end Kvasir.Server
