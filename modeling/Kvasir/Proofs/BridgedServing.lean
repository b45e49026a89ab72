import Kvasir.BridgedServer
import Kvasir.Proofs.BridgeForwards

/-! What the bridge and the server know of each other's bytes. Each connection that was
dialed for a request carries that request's line to the server and its replies back,
whatever other requests and other clients do at the same time. -/

namespace Kvasir.BridgedServer
open Runs Strings Utf8 Protocol Server Bridge

section Line
variable {json : Json} {body line : Bytes}

theorem commandLine_some : commandLine json body = some line ↔
    ∃ command, json.decode body = some command ∧ ¬ Refused json body ∧ line = trimSpace command := by
  unfold commandLine
  cases decoded : json.decode body with
  | none => simp
  | some command =>
    rw [refused_iff decoded]
    by_cases refused : trimSpace command = [] ∨ carriageReturn ∈ trimSpace command ∨ newline ∈ trimSpace command
    · simp [refused]
    · simp only [if_neg refused, Option.some.injEq, exists_eq_left']
      exact ⟨fun same => ⟨refused, same.symm⟩, fun same => same.2.symm⟩

theorem commandLine_clean (asked : commandLine json body = some line) : newline ∉ line ∧ carriageReturn ∉ line := by
  obtain ⟨command, decoded, accepted, rfl⟩ := commandLine_some.mp asked
  rw [refused_iff decoded] at accepted
  simp only [not_or] at accepted
  exact ⟨accepted.2.2, accepted.2.1⟩

/-- What a request that was told a result got: the first line that came back. -/
theorem handleCmd_ok {kvAddr : Bytes} {network : Network} {result : Bridge.Result}
    (ok : (handleCmd json kvAddr network body).response = .ok result) : network.write = true ∧
    ∃ line first rest, commandLine json body = some line ∧ Lines.cut newline network.inbound = some (first, rest) ∧
      result = ⟨line, trimRight lineEnds (first ++ [newline])⟩ := by
  unfold handleCmd at ok
  unfold commandLine
  cases decoded : json.decode body with
  | none => simp [decoded] at ok
  | some command =>
    simp only [decoded] at ok ⊢
    split at ok
    · cases ok
    · next accepted =>
      split at ok
      · cases ok
      · split at ok
        · cases ok
        · next wrote =>
          cases cut : Lines.cut newline network.inbound with
          | none => simp [readString, cut] at ok
          | some parts =>
            obtain ⟨first, rest⟩ := parts
            simp only [readString, cut, Option.map_some, Response.ok.injEq] at ok
            exact ⟨Bool.eq_true_of_not_eq_false wrote, _, first, rest, if_neg accepted, rfl, ok.symm⟩

end Line

section Update
variable (state : State) (r other : RequestId) (id conn : ConnId) (request : Request) (wire : Wire)

@[simp] theorem State.setRequest_request :
    (state.setRequest r request).request other = if other = r then some request else state.request other := by
  simp [setRequest, Function.update_apply]

@[simp] theorem State.setWire_wire : (state.setWire id wire).wire conn = if conn = id then wire else state.wire conn := by
  simp [setWire, Function.update_apply]

end Update

theorem calling_iff {state : State} {r : RequestId} {request : Request} {id : ConnId} :
    state.calling r = some (request, id) ↔ state.request r = some request ∧ request.outcome = none ∧ request.conn = some id := by
  unfold State.calling
  cases found : state.request r with
  | none => simp
  | some current =>
    by_cases running : current.outcome = none
    · simp only [running, if_true, Option.map_eq_some_iff, Prod.mk.injEq, Option.some.injEq]
      constructor
      · rintro ⟨_, conn, rfl, rfl⟩
        exact ⟨rfl, running, conn⟩
      · rintro ⟨rfl, _, conn⟩
        exact ⟨id, conn, rfl, rfl⟩
    · simp only [running, if_false, reduceCtorEq, false_iff, not_and, Option.some.injEq]
      rintro rfl
      exact fun ended => absurd ended running

/-- All that a step can be. -/
inductive Moves (json : Json) (kvAddr : Bytes) (before : State) : Event → State → Prop
  | post {r body} (fresh : before.request r = none) : Moves json kvAddr before (.post r body) (before.setRequest r { body })
  | dial {r id request} (found : before.request r = some request) (running : request.outcome = none)
      (undialed : request.conn = none) (asked : (commandLine json request.body).isSome = true)
      (unaccepted : id ∉ before.server.accepted) (free : before.owner id = none) :
      Moves json kvAddr before (.dial r id)
        { (before.setRequest r { request with conn := some id, network := { request.network with dial := true } }).setWire id {} with
          owner := Function.update before.owner id (some r) }
  | write {r chunk request id line} (calling : before.calling r = some (request, id)) (writing : request.network.write = false)
      (asked : commandLine json request.body = some line) (inside : request.written ++ chunk <+: line ++ [newline]) :
      Moves json kvAddr before (.write r chunk)
        ((before.setRequest r { request with written := request.written ++ chunk }).setWire id
          { before.wire id with toServer := (before.wire id).toServer ++ chunk })
  | wrote {r request id line} (calling : before.calling r = some (request, id))
      (asked : commandLine json request.body = some line) (whole : request.written = line ++ [newline]) :
      Moves json kvAddr before (.wrote r)
        (before.setRequest r { request with network := { request.network with write := true } })
  | receive {r chunk request id} (calling : before.calling r = some (request, id)) (wrote : request.network.write = true)
      (waiting : newline ∉ request.network.inbound) (arrives : chunk <+: (before.wire id).toBridge) :
      Moves json kvAddr before (.receive r chunk)
        ((before.setRequest r
            { request with network := { request.network with inbound := request.network.inbound ++ chunk } }).setWire id
          { before.wire id with toBridge := (before.wire id).toBridge.drop chunk.length })
  | respond {r outcome request} (found : before.request r = some request) (running : request.outcome = none)
      (handled : handleCmd json kvAddr request.network request.body = outcome) :
      Moves json kvAddr before (.respond r outcome) (before.setRequest r { request with outcome := some outcome })
  | server {event server} (carries : before.carries event = true) (stepped : Server.step before.server event = some server) :
      Moves json kvAddr before (.server event) { before.carried event with server }

theorem step_moves {json : Json} {kvAddr : Bytes} {before after : State} {event : Event}
    (stepped : step json kvAddr before event = some after) : Moves json kvAddr before event after := by
  cases event with
  | post r body =>
    obtain ⟨fresh, rfl⟩ := (allow_eq_some ..).mp stepped
    exact .post fresh
  | dial r id =>
    simp only [step] at stepped
    split at stepped
    next request found =>
      obtain ⟨⟨running, undialed, asked, _, unaccepted, free⟩, rfl⟩ := (allow_eq_some ..).mp stepped
      exact .dial found running undialed asked unaccepted free
    next => cases stepped
  | write r chunk =>
    simp only [step] at stepped
    split at stepped
    next request id calling =>
      obtain ⟨⟨writing, line, asked, inside⟩, rfl⟩ := (allow_eq_some ..).mp stepped
      exact .write calling writing asked inside
    next => cases stepped
  | wrote r =>
    simp only [step] at stepped
    split at stepped
    next request id calling =>
      obtain ⟨⟨line, asked, whole⟩, rfl⟩ := (allow_eq_some ..).mp stepped
      exact .wrote calling asked whole
    next => cases stepped
  | receive r chunk =>
    simp only [step] at stepped
    split at stepped
    next request id calling =>
      obtain ⟨⟨wrote, waiting, arrives⟩, rfl⟩ := (allow_eq_some ..).mp stepped
      exact .receive calling wrote waiting arrives
    next => cases stepped
  | respond r outcome =>
    simp only [step] at stepped
    split at stepped
    next request found =>
      obtain ⟨⟨running, handled⟩, rfl⟩ := (allow_eq_some ..).mp stepped
      exact .respond found running handled
    next => cases stepped
  | server event =>
    simp only [step] at stepped
    split at stepped
    next carries =>
      obtain ⟨server, moved, rfl⟩ := Option.map_eq_some_iff.mp stepped
      exact .server carries moved
    next => cases stepped

/-- Reading ends on a connection only after the server's side has closed it. -/
def Unended (events : List Server.Event) (id : ConnId) : Prop :=
  ∀ past before future, events = past ++ .handle id .readEnd :: future → run Server.step {} past = some before →
    (before.conn id).closed = true

/-- A request and the connection it dialed: the line goes one way and the replies come
back the other, and nothing else does. -/
structure Tied (json : Json) (events : List Server.Event) (id : ConnId) (wire : Wire) (request : Request) : Prop where
  dialed : request.network.dial = true
  line : ∃ line, commandLine json request.body = some line ∧ request.written <+: line ++ [newline] ∧
    (request.network.write = true → request.written = line ++ [newline])
  outbound : request.written = received (actions id events) ++ wire.toServer
  inbound : (replies (actions id events)).flatten = request.network.inbound ++ wire.toBridge
  unended : request.outcome = none → Unended events id

section Server
variable {json : Json} {events : List Server.Event} {id : ConnId} {wire : Wire} {request : Request} {event : Server.Event}

theorem Unended.snoc (unended : Unended events id)
    (closed : event = .handle id .readEnd → ∀ before, run Server.step {} events = some before → (before.conn id).closed = true) :
    Unended (events ++ [event]) id := by
  intro past before future cut ran
  rcases List.eq_nil_or_concat future with rfl | ⟨front, last, rfl⟩
  · obtain ⟨rfl, same⟩ := List.append_inj' cut rfl
    exact closed (List.cons.inj same).1 before ran
  · rw [List.concat_eq_append, ← List.cons_append, ← List.append_assoc] at cut
    obtain ⟨whole, _⟩ := List.append_inj' cut rfl
    exact unended past before front whole ran

/-- A step of the server that is not this connection's handler's. -/
theorem Tied.apart (tied : Tied json events id wire request) (apart : actions id [event] = []) :
    Tied json (events ++ [event]) id wire request := by
  have same : actions id (events ++ [event]) = actions id events := by rw [actions_append, apart, List.append_nil]
  refine ⟨tied.dialed, tied.line, same ▸ tied.outbound, same ▸ tied.inbound, fun running => (tied.unended running).snoc ?_⟩
  rintro rfl
  simp [actions] at apart

/-- A step of this connection's handler, which takes bytes off the wire or puts bytes on it. -/
theorem Tied.handle (tied : Tied json events id wire request) {action : Action} {next : Wire}
    (outbound : wire.toServer = received [action] ++ next.toServer)
    (inbound : wire.toBridge ++ (replies [action]).flatten = next.toBridge)
    (closed : request.outcome = none → action = .readEnd → ∀ before, run Server.step {} events = some before →
      (before.conn id).closed = true) : Tied json (events ++ [.handle id action]) id next request := by
  have grown : actions id (events ++ [.handle id action]) = actions id events ++ [action] := by simp [actions]
  refine ⟨tied.dialed, tied.line, ?_, ?_, fun running => (tied.unended running).snoc ?_⟩
  · rw [grown, received_append, List.append_assoc, ← outbound]
    exact tied.outbound
  · rw [grown, replies_append, List.flatten_append, tied.inbound, List.append_assoc, inbound]
  · rintro ⟨⟩
    exact closed running rfl

end Server

/-- Every connection that was dialed is tied to the request it was dialed for. -/
structure Wired (json : Json) (events : List Server.Event) (state : State) : Prop where
  served : run Server.step {} events = some state.server
  tied : ∀ r request id, state.request r = some request → request.conn = some id →
    state.owner id = some r ∧ Tied json events id (state.wire id) request
  owned : ∀ id r, state.owner id = some r → ∃ request, state.request r = some request ∧ request.conn = some id
  undialed : ∀ r request, state.request r = some request → request.conn = none →
    request.network = ⟨false, false, []⟩ ∧ request.written = []

theorem wired_initial (json : Json) : Wired json [] {} :=
  ⟨rfl, nofun, nofun, nofun⟩

/-- Nothing has happened on a connection that was not accepted. -/
theorem actions_unaccepted {events : List Server.Event} {state : Server.State} (ran : run Server.step {} events = some state)
    {id : ConnId} (unaccepted : id ∉ state.accepted) : actions id events = [] := by
  refine (progress_run ran id).fresh ?_
  rw [((placed_run ran).absent id).mp unaccepted]
  decide

theorem accepted_iff {events : List Server.Event} {state : Server.State} (ran : run Server.step {} events = some state) {id : ConnId} :
    id ∈ state.accepted ↔ .accept id ∈ events := by
  rw [accept_iff ran id, ← not_iff_not, (placed_run ran).absent id, Server.State.stage]
  cases (state.conn id).phase <;> simp [Phase.stage]

section Carried
variable (state : State) (event : Server.Event)

@[simp] theorem carried_request : (state.carried event).request = state.request := by
  unfold State.carried
  split <;> rfl

@[simp] theorem carried_owner : (state.carried event).owner = state.owner := by
  unfold State.carried
  split <;> rfl

/-- The wires of a connection move with its handler. -/
theorem carried_apart {id : ConnId} (apart : actions id [event] = []) : (state.carried event).wire id = state.wire id := by
  unfold State.carried
  split
  · next other chunk =>
    have different : id ≠ other := by rintro rfl; simp [actions] at apart
    simp [different]
  · next other reply =>
    have different : id ≠ other := by rintro rfl; simp [actions] at apart
    simp [different]
  · rfl

end Carried

section Step
variable {json : Json} {kvAddr : Bytes} {events : List Server.Event} {before after : State} {event : Event}

/-- A step of one request's handler leaves the other requests as they are. -/
private theorem Wired.request (wired : Wired json events before) {r : RequestId} {request next : Request}
    (found : before.request r = some request) (requests : after.request = (before.setRequest r next).request)
    (server : after.server = before.server) (owner : after.owner = before.owner) (conn : next.conn = request.conn)
    (others : ∀ id, request.conn ≠ some id → after.wire id = before.wire id)
    (tied : ∀ id, request.conn = some id → Tied json events id (before.wire id) request → Tied json events id (after.wire id) next)
    (undialed : request.conn = none → next.network = request.network ∧ next.written = request.written) :
    Wired json events after := by
  obtain ⟨served, ties, owned, idle⟩ := wired
  obtain ⟨_, _, _, wire⟩ := after
  dsimp only at requests server owner others tied
  subst requests server owner
  refine ⟨served, fun other current id known dialed => ?_, fun id other known => ?_, fun other current known none => ?_⟩
  · by_cases same : other = r
    · subst same
      obtain rfl : next = current := by simpa using known
      rw [conn] at dialed
      obtain ⟨owner, here⟩ := ties other request id found dialed
      exact ⟨owner, tied id dialed here⟩
    · have earlier : before.request other = some current := by simpa [same] using known
      obtain ⟨owner, here⟩ := ties other current id earlier dialed
      have apart : request.conn ≠ some id := by
        intro mine
        have both := (ties r request id found mine).1
        rw [owner] at both
        exact same (Option.some.inj both)
      refine ⟨owner, ?_⟩
      simpa only [others id apart] using here
  · obtain ⟨current, earlier, dialed⟩ := owned id other known
    by_cases same : other = r
    · subst same
      obtain rfl : request = current := Option.some.inj (found.symm.trans earlier)
      exact ⟨next, by simp, conn.trans dialed⟩
    · exact ⟨current, by simpa [same] using earlier, dialed⟩
  · by_cases same : other = r
    · subst same
      obtain rfl : next = current := by simpa using known
      rw [conn] at none
      obtain ⟨network, written⟩ := undialed none
      rw [network, written]
      exact idle other request found none
    · exact idle other current (by simpa [same] using known) none

private theorem Wired.post (wired : Wired json events before) {r : RequestId} {body : Bytes} (fresh : before.request r = none) :
    Wired json events (before.setRequest r { body }) := by
  obtain ⟨served, ties, owned, idle⟩ := wired
  refine ⟨served, fun other current id known dialed => ?_, fun id other known => ?_, fun other current known idling => ?_⟩
  · by_cases same : other = r
    · subst same
      obtain rfl : Request.mk body none [] ⟨false, false, []⟩ none = current := by simpa using known
      cases dialed
    · exact ties other current id (by simpa [same] using known) dialed
  · obtain ⟨current, earlier, dialed⟩ := owned id other known
    have same : other ≠ r := by
      rintro rfl
      rw [fresh] at earlier
      cases earlier
    exact ⟨current, by simpa [same] using earlier, dialed⟩
  · by_cases same : other = r
    · subst same
      obtain rfl : Request.mk body none [] ⟨false, false, []⟩ none = current := by simpa using known
      exact ⟨rfl, rfl⟩
    · exact idle other current (by simpa [same] using known) idling

private theorem Wired.dial (wired : Wired json events before) {r : RequestId} {id : ConnId} {request : Request}
    (found : before.request r = some request) (undialed : request.conn = none)
    (asked : (commandLine json request.body).isSome = true) (unaccepted : id ∉ before.server.accepted)
    (free : before.owner id = none) : Wired json events
      { (before.setRequest r { request with conn := some id, network := { request.network with dial := true } }).setWire id {} with
        owner := Function.update before.owner id (some r) } := by
  obtain ⟨served, ties, owned, idle⟩ := wired
  obtain ⟨network, written⟩ := idle r request found undialed
  have silent := actions_unaccepted served unaccepted
  refine ⟨served, fun other current conn known dialed => ?_, fun conn other known => ?_, fun other current known none => ?_⟩
  · by_cases same : other = r
    · subst same
      obtain rfl := Option.some.inj (show some _ = some current by simpa [State.setWire] using known)
      obtain rfl := Option.some.inj dialed
      obtain ⟨line, asked⟩ := Option.isSome_iff_exists.mp asked
      refine ⟨by simp, rfl, ⟨line, asked, by simp [written], by simp [network]⟩, by simp [silent, received, written],
        by simp [silent, replies, writes, network], fun _ past middle future cut => ?_⟩
      rw [cut] at silent
      simp [actions] at silent
    · have earlier : before.request other = some current := by simpa [State.setWire, same] using known
      obtain ⟨owner, here⟩ := ties other current conn earlier dialed
      have apart : conn ≠ id := by
        rintro rfl
        rw [free] at owner
        cases owner
      exact ⟨by simpa [apart] using owner, by simpa [State.setRequest, apart] using here⟩
  · by_cases same : conn = id
    · subst same
      obtain rfl : r = other := by simpa using known
      exact ⟨{ request with conn := some conn, network := { request.network with dial := true } }, by simp [State.setWire], rfl⟩
    · obtain ⟨current, earlier, dialed⟩ := owned conn other (by simpa [same] using known)
      have apart : other ≠ r := by
        rintro rfl
        obtain rfl : request = current := Option.some.inj (found.symm.trans earlier)
        rw [undialed] at dialed
        cases dialed
      exact ⟨current, by simpa [State.setWire, apart] using earlier, dialed⟩
  · by_cases same : other = r
    · subst same
      obtain rfl := Option.some.inj (show some _ = some current by simpa [State.setWire] using known)
      cases none
    · exact idle other current (by simpa [State.setWire, same] using known) none

private theorem Wired.server (wired : Wired json events before) {event : Server.Event} {server : Server.State}
    (carries : before.carries event = true) (stepped : Server.step before.server event = some server) :
    Wired json (events ++ [event]) { before.carried event with server } := by
  obtain ⟨served, ties, owned, idle⟩ := wired
  refine ⟨run_snoc served stepped, fun r request id known dialed => ?_, fun id r known => ?_, fun r request known => ?_⟩
  · have earlier : before.request r = some request := by simpa using known
    obtain ⟨owner, tied⟩ := ties r request id earlier dialed
    refine ⟨by simpa using owner, ?_⟩
    by_cases apart : actions id [event] = []
    · simpa only [carried_apart before event apart] using tied.apart apart
    · obtain ⟨action, rfl⟩ : ∃ action, event = .handle id action := by
        cases event with
        | handle other action =>
          by_cases same : other = id
          · exact ⟨action, by rw [same]⟩
          · simp [actions, same] at apart
        | _ => simp [actions] at apart
      cases action with
      | read chunk =>
        simp only [State.carries, owner, Option.isNone_some, Bool.false_or, List.isPrefixOf_iff_prefix] at carries
        obtain ⟨rest, split⟩ := carries
        exact tied.handle (by simp [State.carried, ← split]) (by simp [State.carried, replies, writes]) (by simp)
      | readEnd =>
        refine tied.handle (by simp [State.carried]) (by simp [State.carried, replies, writes]) ?_
        intro running _ current arrived
        obtain rfl : before.server = current := Option.some.inj (served.symm.trans arrived)
        simpa [State.carries, owner, earlier, running] using carries
      | write reply ok =>
        cases ok
        · exact tied.handle (by simp [State.carried]) (by simp [State.carried, replies, writes]) (by simp)
        · exact tied.handle (by simp [State.carried]) (by simp [State.carried, replies, writes]) (by simp)
      | deliver line | process line reply | leave =>
        exact tied.handle (by simp [State.carried]) (by simp [State.carried, replies, writes]) (by simp)
  · obtain ⟨request, found, dialed⟩ := owned id r (by simpa using known)
    exact ⟨request, by simpa using found, dialed⟩
  · exact idle r request (by simpa using known)

theorem moves_wired (wired : Wired json events before) (moves : Moves json kvAddr before event after) :
    Wired json (events ++ event.served.toList) after := by
  cases moves with
  | post fresh => simpa [Event.served] using wired.post fresh
  | dial found running undialed asked unaccepted free => simpa [Event.served] using wired.dial found undialed asked unaccepted free
  | @write r chunk request id line calling writing asked inside =>
    obtain ⟨found, running, dialed⟩ := calling_iff.mp calling
    simp only [Event.served, Option.toList_none, List.append_nil]
    refine wired.request found rfl rfl rfl rfl (fun other apart => ?_) (fun other same tied => ?_) (fun none => by simp [dialed] at none)
    · have different : other ≠ id := by rintro rfl; exact apart dialed
      simp [State.setRequest, different]
    · obtain rfl := Option.some.inj (dialed.symm.trans same)
      refine ⟨tied.dialed, ⟨_, asked, inside, by simp [writing]⟩, ?_, ?_, tied.unended⟩
      · simp [tied.outbound, State.setRequest]
      · simpa [State.setRequest] using tied.inbound
  | wrote calling asked whole =>
    obtain ⟨found, running, dialed⟩ := calling_iff.mp calling
    simp only [Event.served, Option.toList_none, List.append_nil]
    refine wired.request found rfl rfl rfl rfl (fun _ _ => rfl) (fun other same tied => ?_) (fun none => by simp [dialed] at none)
    exact ⟨tied.dialed, ⟨_, asked, by simp [whole], fun _ => whole⟩, tied.outbound, tied.inbound, tied.unended⟩
  | @receive r chunk request id calling wrote waiting arrives =>
    obtain ⟨found, running, dialed⟩ := calling_iff.mp calling
    simp only [Event.served, Option.toList_none, List.append_nil]
    refine wired.request found rfl rfl rfl rfl (fun other apart => ?_) (fun other same tied => ?_) (fun none => by simp [dialed] at none)
    · have different : other ≠ id := by rintro rfl; exact apart dialed
      simp [State.setRequest, different]
    · obtain rfl := Option.some.inj (dialed.symm.trans same)
      obtain ⟨rest, split⟩ := arrives
      refine ⟨tied.dialed, tied.line, ?_, ?_, tied.unended⟩
      · simpa [State.setRequest] using tied.outbound
      · simp [State.setRequest, tied.inbound, ← split]
  | respond found running handled =>
    simp only [Event.served, Option.toList_none, List.append_nil]
    refine wired.request found rfl rfl rfl rfl (fun _ _ => rfl) (fun other same tied => ?_) (fun _ => ⟨rfl, rfl⟩)
    exact ⟨tied.dialed, tied.line, tied.outbound, tied.inbound, nofun⟩
  | server carries stepped => exact wired.server carries stepped

theorem served_append (past future : List Event) : served (past ++ future) = served past ++ served future :=
  List.filterMap_append

theorem run_wired {events : List Event} {state : State} (ran : run (step json kvAddr) {} events = some state) :
    Wired json (served events) state := by
  refine invariant (fun past state => Wired json (served past) state) (wired_initial json) ?_ ran
  intro past before event after _ wired stepped
  have held := moves_wired wired (step_moves stepped)
  rw [served_append]
  cases shown : event.served <;> simpa [served, shown] using held

end Step

end Kvasir.BridgedServer
