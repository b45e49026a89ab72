import Kvasir.LockedBridge
import Kvasir.Proofs.BridgedAvailability
import Kvasir.Proofs.LockedLinearizable

/-! The bridge in front of the server over the locked store refines the bridge in front
of the server over the atomic one, because all that passes over a connection is shown.
So the HTTP clients of the whole program see one atomic store. -/

namespace Kvasir.BridgedServer
open Runs Server Bridge LockedServer

/-- What is seen from outside the atomic store. -/
def visible : Event → Option Event
  | .server event => (LockedServer.visible event).map .server
  | event => some event

section Parts
variable {json : Json} {kvAddr : Bytes} {before : State} {server : Server.State} {event : Event}

/-- The handler of a request needs little of the server. -/
theorem request_step (asks : event.served = none) (listening : server.listening = before.server.listening)
    (accepted : server.accepted = before.server.accepted) :
    step json kvAddr { before with server } event = (step json kvAddr before event).map fun after => { after with server } := by
  cases event with
  | server event => cases asks
  | post r body =>
    simp only [step, allow]
    split <;> rfl
  | dial r id =>
    simp only [step, allow, listening, accepted]
    split
    · split <;> rfl
    · rfl
  | respond r outcome =>
    simp only [step, allow]
    split
    · split <;> rfl
    · rfl
  | write r chunk | wrote r | receive r chunk =>
    have same : State.calling { before with server } r = before.calling r := rfl
    simp only [step, allow, same]
    split
    · split <;> rfl
    · rfl

theorem request_server {after : State} (asks : event.served = none) (stepped : step json kvAddr before event = some after) :
    after.server = before.server := by
  cases step_moves stepped with
  | server => cases asks
  | post | dial | write | wrote | receive | respond => rfl

end Parts

theorem visible_same {event shown : Event} (shows : visible event = some shown) : event = shown := by
  cases event with
  | server event =>
    obtain ⟨same, sees, rfl⟩ := Option.map_eq_some_iff.mp shows
    cases event with
    | handle id action => cases action <;> cases sees <;> rfl
    | _ => cases sees; rfl
  | _ => cases shows; rfl

theorem served_visible (events : List Event) : served (events.filterMap visible) = (served events).filterMap LockedServer.visible := by
  rw [served, served, List.filterMap_filterMap, List.filterMap_filterMap]
  congr 1
  funext event
  cases event with
  | server event => cases shows : LockedServer.visible event <;> simp [visible, Event.served, shows]
  | _ => rfl

/-- What is consistent stays so when it is no longer told when lines were processed. -/
theorem Consistent.visible {json : Json} {events : List Event} {state : State} {order : List (ConnId × Bytes × Bytes)}
    (consistent : Consistent json events state order) (server : Server.State) :
    Consistent json (events.filterMap visible) { state with server } order := by
  obtain ⟨clients, answers, single, responded, realTime⟩ := consistent
  have seen : ∀ {event}, event ∈ events.filterMap BridgedServer.visible → event ∈ events := by
    intro event member
    obtain ⟨whole, inside, shows⟩ := List.mem_filterMap.mp member
    exact visible_same shows ▸ inside
  refine ⟨fun id => ?_, answers, single, fun r outcome result member ok => responded r outcome result (seen member) ok, ?_⟩
  · rw [served_visible, delivered_visible, replies_visible]
    exact clients id
  · intro past future r outcome result next body cut member ok posted
    obtain ⟨before, after, rfl, rfl, rfl⟩ := List.filterMap_eq_append_iff.mp cut
    obtain ⟨whole, inside, shows⟩ := List.mem_filterMap.mp member
    obtain ⟨late, follows, tells⟩ := List.mem_filterMap.mp posted
    exact realTime before after r outcome result next body rfl (visible_same shows ▸ inside) ok (visible_same tells ▸ follows)

end Kvasir.BridgedServer

namespace Kvasir.LockedBridge
open Runs Refinement Histories Strings Server Bridge LockedStore LockedServer BridgedServer

/-- The bridge over the atomic server that this one stands for. -/
structure Mirrors (state : State) (atomic : BridgedServer.State) : Prop where
  serving : LockedServer.Mirrors state.serving atomic.server
  same : atomic = { state.bridge with server := atomic.server }

theorem Mirrors.initial : Mirrors {} {} := ⟨LockedServer.Mirrors.initial .new, rfl⟩

section Step
variable {json : Json} {kvAddr : Bytes} {before after : State} {atomic : BridgedServer.State}

theorem step_request {event : BridgedServer.Event} (stepped : step json kvAddr before (.request event) = some after) :
    event.served = none ∧ BridgedServer.visible event = some event ∧
      ∃ bridge, BridgedServer.step json kvAddr before.bridge event = some bridge ∧ after = { before with bridge } := by
  cases event with
  | server event => cases stepped
  | post | dial | write | wrote | receive | respond =>
    obtain ⟨bridge, moved, rfl⟩ := Option.map_eq_some_iff.mp stepped
    exact ⟨rfl, rfl, bridge, moved, rfl⟩

theorem overlay_closed (answered : ConnId → Option Bytes) (store : MemoryStore) (server : Server.State) (id : ConnId) :
    ((overlay answered store server).conn id).closed = (server.conn id).closed := by
  cases found : answered id <;> simp [overlay, found]

/-- What is on a wire for the one server is there for the other. -/
theorem Mirrors.carries (mirrors : Mirrors before atomic) (event : Server.Event) : atomic.carries event = before.bridge.carries event := by
  have closed : ∀ id, (atomic.server.conn id).closed = (before.bridge.server.conn id).closed := by
    intro id
    rw [mirrors.serving.same]
    exact overlay_closed ..
  rw [mirrors.same]
  cases event with
  | handle id action =>
    cases action with
    | readEnd =>
      simp only [BridgedServer.State.carries]
      split
      · rfl
      · rw [closed]
    | read | deliver | process | write | leave => rfl
  | _ => rfl

theorem step_shown {before after : LockedServer.State} {event : Server.Event}
    (stepped : LockedServer.step before (.server event) = some after) : ∃ server, Server.step before.server event = some server ∧
      LockedServer.visible event = some event ∧ (∀ id line reply, event ≠ .handle id (.process line reply)) ∧
      after = { before with server } := by
  cases LockedServer.step_moves stepped with
  | @server _ server serves shows silent => exact ⟨server, serves, shows, silent, rfl⟩
  | held taken => cases taken

theorem hidden_plain {event : Server.Event} (hidden : LockedServer.visible event = none) : Plain event := by
  intro state
  cases event with
  | handle id action =>
    cases action with
    | process line reply => exact ⟨rfl, rfl⟩
    | read | readEnd | deliver | write | leave => cases hidden
  | _ => cases hidden

theorem bridge_follows : Follows (step json kvAddr) (BridgedServer.step json kvAddr) Event.shown BridgedServer.visible Mirrors := by
  intro before atomic event after mirrors stepped
  have placed : atomic.server = overlay before.serving.answered atomic.server.store before.bridge.server := mirrors.serving.same
  cases event with
  | request event =>
    obtain ⟨asks, visible, bridge, moved, rfl⟩ := step_request stepped
    have matched := @request_step json kvAddr before.bridge atomic.server event asks (by rw [placed]; rfl) (by rw [placed]; rfl)
    rw [← mirrors.same, moved] at matched
    refine ⟨[event], _, (run_singleton ..).trans matched, ⟨?_, rfl⟩, by simp [Event.shown, visible]⟩
    have kept := request_server asks moved
    simpa only [State.serving, kept] using mirrors.serving
  | server event =>
    simp only [step] at stepped
    split at stepped
    next carries =>
      obtain ⟨serving, moved, rfl⟩ := Option.map_eq_some_iff.mp stepped
      cases shown : event.shown with
      | none =>
        obtain ⟨matched, next, ran, kept, hidden⟩ := locked_follows _ _ _ _ mirrors.serving moved
        rw [shown, Option.toList_none, List.filterMap_eq_nil_iff] at hidden
        have plain : ∀ step ∈ matched, Plain step := fun step member => hidden_plain (hidden step member)
        refine ⟨_, _, server_run plain ran, ⟨?_, ?_⟩, ?_⟩
        · simpa [State.setServing, State.serving, State.carried, shown] using kept
        · rw [mirrors.same]
          simp [State.setServing, State.carried, shown]
        · rw [List.filterMap_map, List.filterMap_eq_nil_iff.mpr]
          · simp [Event.shown, shown]
          · exact fun step member => by simp [BridgedServer.visible, hidden step member]
      | some seen =>
        obtain rfl : event = .server seen := by
          cases event <;> cases shown
          rfl
        obtain ⟨server, serves, shows, silent, rfl⟩ := step_shown moved
        obtain ⟨next, matched, kept⟩ := mirrors.serving.server serves silent
        have carried : BridgedServer.step json kvAddr atomic (.server seen) = some { atomic.carried seen with server := next } := by
          rw [BridgedServer.step, if_pos ((mirrors.carries seen).trans carries), matched]
          rfl
        refine ⟨[.server seen], _, (run_singleton ..).trans carried, ⟨kept, ?_⟩, ?_⟩
        · rw [mirrors.same]
          simp only [BridgedServer.State.carried, State.setServing, State.carried, shown, Option.elim_some]
          split <;> rfl
        · simp [Event.shown, shown, BridgedServer.visible, shows]
    next => cases stepped

end Step

/-- The HTTP clients of the whole program see one atomic store, in whatever order the
goroutines of the bridge and of the server and the steps of all store calls come, and
whatever other clients, the network and Shutdown do. -/
theorem http_linearizable {json : Json} {kvAddr : Bytes} {events : List Event} {state : State}
    (ran : run (step json kvAddr) {} events = some state) : ∃ order, Consistent json (events.filterMap Event.shown) state.bridge order ∧
      (state.locked.writer = none → ∀ key value, state.locked.data.lookup key = some value ↔
        LastSet (order.map fun turn => turn.2.1) key value) := by
  obtain ⟨matched, final, bridged, mirrors, same⟩ := bridge_follows.run Mirrors.initial ran
  have consistent := (turns_consistent bridged).visible state.bridge.server
  rw [same, mirrors.same] at consistent
  refine ⟨_, consistent, fun unlocked key value => ?_⟩
  have settled : state.locked.data = final.server.store.data := mirrors.serving.locked.settled unlocked
  rw [← turns_contents (run_wired bridged).served, settled]
  rfl

/-- Two requests at once. The one that asks waits for the lock, and is told what the
other has set before the other is told anything. -/
def contended : List Event := [.request (.post 0 (plainBody (text "SET a x"))), .request (.dial 0 0),
  .request (.post 1 (plainBody (text "GET a"))), .request (.dial 1 1), .server (.server (.accept 0)), .server (.server (.register 0)),
  .server (.server (.spawn 0)), .server (.server (.accept 1)), .server (.server (.register 1)), .server (.server (.spawn 1)),
  .request (.write 0 (text "SET a x\n")), .request (.write 1 (text "GET a\n")), .request (.wrote 1),
  .server (.server (.handle 0 (.read (text "SET a x\n")))), .server (.server (.handle 0 (.deliver (text "SET a x")))),
  .server (.execute 0 (text "SET a x") 0), .server (.acquire 0), .server (.server (.handle 1 (.read (text "GET a\n")))),
  .server (.server (.handle 1 (.deliver (text "GET a")))), .server (.execute 1 (text "GET a") 1), .server (.modify 0),
  .server (.release 0 (.set (text "a") (text "x")) .done), .server (.acquire 1), .server (.lookup 1),
  .server (.release 1 (.get (text "a")) (.found (some (text "x")))), .server (.reply 1 (text "x\n")),
  .server (.server (.handle 1 (.write (text "x\n") true))), .request (.receive 1 (text "x\n")),
  .request (.respond 1 (postedOutcome (text "GET a") (text "x\n")))]

theorem http_linearizable_contended : ∃ ran : (run (step plainJson (text "kv")) {} contended).isSome, ∃ order,
    Consistent plainJson (contended.filterMap Event.shown) ((run (step plainJson (text "kv")) {} contended).get ran).bridge order ∧
      ∃ id, own id order = [(text "GET a", text "x\n")] := by
  obtain ⟨ran, member, ok⟩ : ∃ _ : (run (step plainJson (text "kv")) {} contended).isSome,
      .respond 1 (postedOutcome (text "GET a") (text "x\n")) ∈ contended.filterMap Event.shown ∧
      (postedOutcome (text "GET a") (text "x\n")).response = .ok ⟨text "GET a", text "x"⟩ :=
    ⟨by decide, by simp [contended, Event.shown, LockedServer.Event.shown], by decide⟩
  obtain ⟨order, consistent, _⟩ := @http_linearizable plainJson (text "kv") contended _ (Option.some_get ran).symm
  obtain ⟨_, id, _, _, turn⟩ := consistent.responded 1 _ _ member ok
  exact ⟨ran, order, consistent, id, turn⟩

end Kvasir.LockedBridge
