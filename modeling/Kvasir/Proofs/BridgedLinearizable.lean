import Kvasir.Proofs.BridgedServing

/-! HTTP clients of the bridge see one atomic store. Their requests run at the same
time, each over a connection of its own, and other clients use the server as well;
still every result that is responded comes from one turn of the server at the
request's own line, and the turns have one order that explains them all. -/

namespace Kvasir.BridgedServer
open Runs Histories Strings Utf8 Protocol Server Bridge

/-- While a request has not responded its connection is as one between the bridge and
the server is, when both are up. -/
theorem Tied.connected {json : Json} {events : List Server.Event} {id : ConnId} {wire : Wire} {request : Request} {line : Bytes}
    (tied : Tied json events id wire request) (running : request.outcome = none) (asked : commandLine json request.body = some line) :
    Connected request.network (line ++ [newline]) .new id events := by
  obtain ⟨same, asks, inside, _⟩ := tied.line
  obtain rfl : same = line := Option.some.inj (asks.symm.trans asked)
  refine ⟨?_, fun past before future cut ran => .inl (tied.unended running past before future cut ran), ?_⟩
  · rw [tied.outbound] at inside
    exact (List.prefix_append _ _).trans inside
  · rw [tied.inbound]
    exact List.prefix_append _ _

/-- The body of a request, and the connection it has dialed. -/
def State.dialed (state : State) (r : RequestId) : Option (Bytes × Option ConnId) :=
  (state.request r).map fun request => (request.body, request.conn)

section Moves
variable {json : Json} {kvAddr : Bytes} {before after : State} {event : Event} {r : RequestId} {id : ConnId} {body : Bytes}

theorem moves_owner (moves : Moves json kvAddr before event after) (owned : after.owner id = some r) :
    before.owner id = some r ∨ event = .dial r id := by
  cases moves with
  | @dial other conn request found running undialed asked unaccepted free =>
    by_cases same : id = conn
    · subst same
      obtain rfl : other = r := by simpa using owned
      exact .inr rfl
    · exact .inl (by simpa [same] using owned)
  | server carries stepped => exact .inl (by simpa using owned)
  | post | write | wrote | receive | respond => exact .inl owned

theorem dialed_iff {state : State} :
    state.dialed r = some (body, some id) ↔ ∃ request, state.request r = some request ∧ request.body = body ∧ request.conn = some id := by
  simp [State.dialed, Option.map_eq_some_iff]

private theorem setRequest_keeps {state : State} {other : RequestId} {request current next : Request}
    (found : state.request r = some request) (known : state.request other = some current) (asked : next.body = current.body)
    (conn : ∀ id, current.conn = some id → next.conn = some id) : ∃ later, (state.setRequest other next).request r = some later ∧
      later.body = request.body ∧ ∀ id, request.conn = some id → later.conn = some id := by
  by_cases same : r = other
  · subst same
    obtain rfl : request = current := Option.some.inj (found.symm.trans known)
    exact ⟨next, by simp, asked, conn⟩
  · exact ⟨request, by simpa [same] using found, rfl, fun _ dialed => dialed⟩

/-- A request keeps its body and, once it has one, its connection. -/
theorem moves_request (moves : Moves json kvAddr before event after) {request : Request} (found : before.request r = some request) :
    ∃ later, after.request r = some later ∧ later.body = request.body ∧ ∀ id, request.conn = some id → later.conn = some id := by
  cases moves with
  | @post other _ fresh =>
    have different : r ≠ other := by
      rintro rfl
      simp [found] at fresh
    exact ⟨request, by simpa [different] using found, rfl, fun _ dialed => dialed⟩
  | dial known _ undialed =>
    exact setRequest_keeps found known rfl (by simp [undialed])
  | write calling | wrote calling | receive calling =>
    exact setRequest_keeps found (calling_iff.mp calling).1 rfl fun _ dialed => dialed
  | respond known => exact setRequest_keeps found known rfl fun _ dialed => dialed
  | server carries stepped => exact ⟨request, by simpa using found, rfl, fun _ dialed => dialed⟩

theorem moves_dialed (moves : Moves json kvAddr before event after) (dialed : before.dialed r = some (body, some id)) :
    after.dialed r = some (body, some id) := by
  obtain ⟨request, found, rfl, conn⟩ := dialed_iff.mp dialed
  obtain ⟨later, known, asked, kept⟩ := moves_request moves found
  exact dialed_iff.mpr ⟨later, known, asked, kept id conn⟩

end Moves

section Run
variable {json : Json} {kvAddr : Bytes} {events past future : List Event} {state : State} {r : RequestId} {id : ConnId}

/-- A turn is answered as the turns before it demand. -/
theorem turns_answer {served : List Server.Event} {final : Server.State} (ran : run Server.step {} served = some final)
    {first last : List (ConnId × Bytes × Bytes)} {id : ConnId} {line reply : Bytes} (cut : turns served = first ++ (id, line, reply) :: last) :
    Answers (first.map fun turn => turn.2.1) line reply := by
  have result : (perform answer .new ((turns served).map fun turn => turn.2.1)).2[first.length]? = some reply := by
    rw [turns_perform ran, cut]
    simp
  obtain ⟨asked, here, same⟩ := perform_at answer result
  rw [cut] at here same
  obtain rfl : line = asked := by simpa using here
  rw [← same]
  simpa using answer_answers (perform_lastSet (first.map fun turn => turn.2.1)) line

theorem turns_contents {served : List Server.Event} {final : Server.State} (ran : run Server.step {} served = some final)
    (key value : Bytes) : final.store.get key = some value ↔ LastSet ((turns served).map fun turn => turn.2.1) key value := by
  rw [← perform_lastSet, turns_perform ran]

theorem owner_dialed (ran : run (step json kvAddr) {} events = some state) (owned : state.owner id = some r) : .dial r id ∈ events := by
  revert owned
  refine invariant (fun past state => state.owner id = some r → .dial r id ∈ past) (by simp) ?_ ran
  intro past before event after _ ih stepped owned
  rcases moves_owner (step_moves stepped) owned with earlier | rfl
  · exact List.mem_append_left _ (ih earlier)
  · simp

/-- A request has the connection that was dialed for it ever after. -/
theorem dialed_since (ran : run (step json kvAddr) {} events = some state) (dialed : .dial r id ∈ events) :
    ∃ body, state.dialed r = some (body, some id) := by
  refine since (fun current => ∃ body, current.dialed r = some (body, some id)) ?_ ?_ ran dialed
  · intro before after dialing
    cases step_moves dialing with
    | @dial _ _ request found => exact ⟨request.body, by simp [State.dialed, State.setWire]⟩
  · rintro before event after ⟨body, known⟩ stepped
    exact ⟨body, moves_dialed (step_moves stepped) known⟩

/-- A request that was dialed for is posted no more. -/
theorem dialed_posted (ran : run (step json kvAddr) {} (past ++ future) = some state) (dialed : .dial r id ∈ past) (body : Bytes) :
    .post r body ∉ future := by
  intro posted
  obtain ⟨middle, later, rfl⟩ := List.append_of_mem posted
  rw [← List.append_assoc] at ran
  obtain ⟨before, after, arrived, stepped, _⟩ := run_at ran
  obtain ⟨body, known⟩ := dialed_since arrived (List.mem_append_left middle dialed)
  obtain ⟨request, found, _, _⟩ := dialed_iff.mp known
  cases step_moves stepped with
  | post fresh => simp [found] at fresh

/-- A connection is dialed before the server accepts it. -/
theorem undialed_unaccepted {before : State} (ran : run (step json kvAddr) {} (past ++ future) = some state)
    (dialed : .dial r id ∈ future) (arrived : run (step json kvAddr) {} past = some before) : id ∉ before.server.accepted := by
  obtain ⟨middle, later, rfl⟩ := List.append_of_mem dialed
  rw [← List.append_assoc] at ran
  obtain ⟨dialing, after, reached, stepped, _⟩ := run_at ran
  have early := run_wired arrived
  have late := run_wired reached
  cases step_moves stepped with
  | dial found running undialed asked unaccepted free =>
    rw [accepted_iff late.served, served_append] at unaccepted
    rw [accepted_iff early.served]
    exact fun accepted => unaccepted (List.mem_append_left _ accepted)

/-- On a connection that was dialed at most one line is handled: what there was of the
request's line. -/
theorem Tied.turns {json : Json} {served : List Server.Event} {wire : Wire} {request : Request} {final : Server.State}
    (tied : Tied json served id wire request) (ran : run Server.step {} served = some final) : ∃ line front,
    commandLine json request.body = some line ∧ front <+: line ∧ (processed (actions id served)).map Prod.fst <+: [front] := by
  obtain ⟨line, asked, inside, _⟩ := tied.line
  obtain ⟨clean, returns⟩ := commandLine_clean asked
  have progress := progress_run ran id
  rw [tied.outbound] at inside
  obtain ⟨front, part, handed, _⟩ := progress.tokens.one_line clean ((List.prefix_append _ _).trans inside)
  rw [Scanner.dropCR_self fun member => returns (part.subset member), progress.lines] at handed
  exact ⟨line, front, asked, part, (List.prefix_append _ _).trans handed⟩

/-- A result that was responded is the reply of a turn of the server, at the request's
line, which was over by then. -/
theorem responded_turn {outcome : Outcome} {result : Bridge.Result}
    (ran : run (step json kvAddr) {} (past ++ .respond r outcome :: future) = some state) (ok : outcome.response = .ok result) :
    ∃ body id, state.dialed r = some (body, some id) ∧ commandLine json body = some result.sent ∧
      processed (actions id (served past)) = [(result.sent, result.reply ++ [newline])] := by
  obtain ⟨before, after, arrived, stepped, rest⟩ := run_at ran
  have wired := run_wired arrived
  cases step_moves stepped with
  | @respond _ _ request found running handled =>
    rw [← handled] at ok
    obtain ⟨wrote, line, first, more, asked, cut, rfl⟩ := handleCmd_ok ok
    cases dialed : request.conn with
    | none => simp [(wired.undialed r request found dialed).1] at wrote
    | some id =>
      have connected := (wired.tied r request id found dialed).2.connected running asked
      obtain ⟨clean, returns⟩ := commandLine_clean asked
      obtain ⟨turn, trimmed, _⟩ := connected.read wired.served clean returns cut
      refine ⟨request.body, id, ?_, asked, ?_⟩
      · refine invariant (fun _ current => current.dialed r = some (request.body, some id)) ?_
          (fun _ _ _ _ _ dialed stepped => moves_dialed (step_moves stepped) dialed) rest
        simp [State.dialed, dialed]
      · rw [trimmed]
        exact turn

/-- That turn is the only one there ever is on the request's connection. -/
theorem responded_only {outcome : Outcome} {result : Bridge.Result} (ran : run (step json kvAddr) {} events = some state)
    (member : .respond r outcome ∈ events) (ok : outcome.response = .ok result) : ∃ body id,
    state.dialed r = some (body, some id) ∧ commandLine json body = some result.sent ∧
      processed (actions id (served events)) = [(result.sent, result.reply ++ [newline])] := by
  obtain ⟨past, future, rfl⟩ := List.append_of_mem member
  have wired := run_wired ran
  obtain ⟨body, id, dialed, asked, turn⟩ := responded_turn ran ok
  obtain ⟨request, found, rfl, conn⟩ := dialed_iff.mp dialed
  obtain ⟨_, front, _, _, all⟩ := (wired.tied r request id found conn).2.turns wired.served
  refine ⟨request.body, id, dialed, asked, ?_⟩
  have short := all.length_le
  rw [served_append, actions_append, processed_append, turn] at short ⊢
  simpa using short

/-- The turn of a result comes before the turns of all requests that were posted after it
was responded. -/
theorem responded_first {outcome : Outcome} {result : Bridge.Result} {next : RequestId} {body : Bytes} {other : ConnId}
    (ran : run (step json kvAddr) {} (past ++ future) = some state) (member : .respond r outcome ∈ past)
    (ok : outcome.response = .ok result) (posted : .post next body ∈ future) {asked : Bytes}
    (dialed : state.dialed r = some (asked, some id)) (owned : state.owner other = some next)
    {first last : List (ConnId × Bytes × Bytes)} {turn : Bytes × Bytes}
    (whole : turns (served (past ++ future)) = first ++ (other, turn) :: last) : ∃ turn, (id, turn) ∈ first := by
  have later : .dial next other ∈ future := (List.mem_append.mp (owner_dialed ran owned)).resolve_left fun before =>
    dialed_posted ran before body posted
  obtain ⟨middle, reached, _⟩ := run_split ran
  have silent := actions_unaccepted (run_wired reached).served (undialed_unaccepted ran later reached)
  rw [served_append, turns_append] at whole
  obtain ⟨between, rfl, _⟩ := split_late whole (by
    obtain ⟨line, reply⟩ := turn
    rw [turns_member, ← processed_member, silent]
    simp [processed])
  obtain ⟨early, late, rfl⟩ := List.append_of_mem member
  rw [List.append_assoc, List.cons_append] at ran
  obtain ⟨_, same, known, _, answered⟩ := responded_turn ran ok
  obtain ⟨-, rfl⟩ : _ ∧ same = id := by simpa [known] using dialed
  refine ⟨(result.sent, result.reply ++ [newline]), List.mem_append_left _ ?_⟩
  rw [turns_member, ← processed_member, served_append, actions_append, processed_append, answered]
  simp

end Run

/-- One order of all turns of the server, each with its connection, line and reply. It
has the lines of every connection as they were handed over and the replies as they were
written, it explains what the requests were responded, and it keeps their real time: a
request whose result was responded before another was posted comes first. -/
structure Consistent (json : Json) (events : List Event) (state : State) (order : List (ConnId × Bytes × Bytes)) : Prop where
  clients : ∀ id, (own id order).map Prod.fst <+: delivered (actions id (served events)) ∧
    replies (actions id (served events)) <+: (own id order).map Prod.snd
  answers : ∀ first id line reply last, order = first ++ (id, line, reply) :: last → Answers (first.map fun turn => turn.2.1) line reply
  single : ∀ r body id, state.dialed r = some (body, some id) → ∃ line front, commandLine json body = some line ∧ front <+: line ∧
    (own id order).map Prod.fst <+: [front]
  responded : ∀ r outcome result, .respond r outcome ∈ events → outcome.response = .ok result → ∃ body id,
    state.dialed r = some (body, some id) ∧ commandLine json body = some result.sent ∧
      own id order = [(result.sent, result.reply ++ [newline])]
  realTime : ∀ past future r outcome result next body, events = past ++ future → .respond r outcome ∈ past →
    outcome.response = .ok result → .post next body ∈ future → ∀ body' id other, state.dialed r = some (body', some id) →
      state.owner other = some next → ∀ first turn last, order = first ++ (other, turn) :: last → ∃ turn, (id, turn) ∈ first

theorem turns_consistent {json : Json} {kvAddr : Bytes} {events : List Event} {state : State}
    (ran : run (step json kvAddr) {} events = some state) : Consistent json events state (Server.turns (served events)) := by
  have wired := run_wired ran
  refine ⟨fun id => ?_, fun first id line reply last cut => turns_answer wired.served cut, ?_, ?_, ?_⟩
  · have progress := progress_run wired.served id
    rw [turns_own, progress.lines]
    exact ⟨List.prefix_append .., progress.ordered⟩
  · intro r body id dialed
    obtain ⟨request, found, rfl, conn⟩ := dialed_iff.mp dialed
    rw [turns_own]
    exact (wired.tied r request id found conn).2.turns wired.served
  · intro r outcome result member ok
    obtain ⟨body, id, dialed, asked, turn⟩ := responded_only ran member ok
    exact ⟨body, id, dialed, asked, (turns_own id _).trans turn⟩
  · intro past future r outcome result next body cut member ok posted body' id other dialed owned first turn last whole
    subst cut
    exact responded_first ran member ok posted dialed owned whole

/-- Whatever HTTP clients, other clients, the network and Shutdown do, in any order, the
HTTP clients see one atomic store. -/
theorem bridge_linearizable {json : Json} {kvAddr : Bytes} {events : List Event} {state : State}
    (ran : run (step json kvAddr) {} events = some state) : ∃ order, Consistent json events state order ∧
      (∀ id, own id order = processed (actions id (served events))) ∧
      ∀ key value, state.server.store.get key = some value ↔ LastSet (order.map fun turn => turn.2.1) key value :=
  ⟨_, turns_consistent ran, fun id => turns_own id _, turns_contents (run_wired ran).served⟩

def postedOutcome (command reply : Bytes) : Outcome := handleCmd plainJson (text "kv") ⟨true, true, reply⟩ (plainBody command)

/-- One request sets a value, and a later one asks for it. In between Shutdown is called,
and a third is refused. -/
def posted : List Event := [.post 0 (plainBody (text "SET a x")), .dial 0 0, .post 1 (plainBody (text "GET a")), .dial 1 1,
  .server (.accept 0), .server (.register 0), .server (.spawn 0), .server (.accept 1), .server (.register 1), .server (.spawn 1),
  .write 0 (text "SET a"), .server (.handle 0 (.read (text "SET a"))), .write 0 (text " x\n"), .wrote 0, .write 1 (text "GET a\n"),
  .server (.handle 0 (.read (text " x\n"))), .server (.handle 0 (.deliver (text "SET a x"))),
  .server (.handle 0 (.process (text "SET a x") (text "OK\n"))), .server (.handle 0 (.write (text "OK\n") true)),
  .receive 0 (text "OK\n"), .respond 0 (postedOutcome (text "SET a x") (text "OK\n")), .server .lock, .wrote 1,
  .server (.handle 1 (.read (text "GET a\n"))), .server (.handle 1 (.deliver (text "GET a"))),
  .server (.handle 1 (.process (text "GET a") (text "x\n"))), .server (.handle 1 (.write (text "x\n") true)),
  .receive 1 (text "x\n"), .respond 1 (postedOutcome (text "GET a") (text "x\n")), .post 2 (plainBody (text " "))]

theorem bridge_linearizable_posted : ∃ ran : (run (step plainJson (text "kv")) {} posted).isSome, ∃ order,
    Consistent plainJson posted ((run (step plainJson (text "kv")) {} posted).get ran) order ∧
      ∃ id, own id order = [(text "GET a", text "x\n")] := by
  obtain ⟨ran, member, ok⟩ : ∃ _ : (run (step plainJson (text "kv")) {} posted).isSome,
      .respond 1 (postedOutcome (text "GET a") (text "x\n")) ∈ posted ∧
      (postedOutcome (text "GET a") (text "x\n")).response = .ok ⟨text "GET a", text "x"⟩ := ⟨by decide, by simp [posted], by decide⟩
  obtain ⟨order, consistent, _⟩ := @bridge_linearizable plainJson (text "kv") posted _ (Option.some_get ran).symm
  obtain ⟨_, id, _, _, turn⟩ := consistent.responded 1 _ _ member ok
  exact ⟨ran, order, consistent, id, turn⟩

end Kvasir.BridgedServer
