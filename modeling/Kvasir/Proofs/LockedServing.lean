import Kvasir.Lib.Refinement
import Kvasir.LockedServer
import Kvasir.Proofs.LockedRefinement
import Kvasir.Proofs.StoreHistory

/-! The server over the locked store refines the server over the atomic one. A line
takes effect when its call lets go of the lock; from then on the atomic server is
already replying, while here the result is still on its way back to the handler. -/

namespace Kvasir.LockedServer
open Runs Histories Refinement Protocol Server LockedStore

/-- Executing a command is its one store call, and the reply made of the result. -/
theorem execute_call (store : MemoryStore) (command : Command) :
    Server.execute store command =
      ((apply store (storeCall command)).1, resultReply (apply store (storeCall command)).2) := by
  obtain ⟨op, key, value⟩ := command
  cases op with
  | get => simp only [Server.execute, storeCall, apply]; cases store.get key <;> rfl
  | set | del => rfl

def returned : LockedStore.Phase → Option Result
  | .returned _ result => some result
  | _ => none

theorem returned_iff {phase : LockedStore.Phase} {result : Result} :
    returned phase = some result ↔ ∃ made, phase = .returned made result := by
  cases phase <;> simp [returned]

/-- The reply that the handler's call has come back with. -/
def State.answered (state : State) (id : ConnId) : Option Bytes :=
  (state.calling id).bind fun call => (returned (state.locked.phase call)).map resultReply

/-- The server that is already replying where a call has come back. -/
def overlay (answered : ConnId → Option Bytes) (store : MemoryStore) (server : Server.State) : Server.State :=
  { server with
    store
    conn := fun id => (answered id).elim (server.conn id) fun reply => { server.conn id with phase := .replying reply } }

section Overlay
variable {answered : ConnId → Option Bytes} {store : MemoryStore} {before after : Server.State} {id : ConnId}

theorem overlay_quiet (store : MemoryStore) (quiet : answered id = none) : (overlay answered store before).conn id = before.conn id := by
  simp [overlay, quiet]

/-- What is done to one connection is done to its overlay, where there is none or
where the phase does not matter. -/
theorem overlay_update (store : MemoryStore) (before : Server.State) (f : Conn → Conn) (free : answered id = none ∨ ∀ conn phase, f { conn with phase } = { f conn with phase }) :
    overlay answered store (before.setConn id (f (before.conn id))) =
      (overlay answered store before).setConn id (f ((overlay answered store before).conn id)) := by
  simp only [overlay, Server.State.setConn]
  congr 1
  funext other
  by_cases same : other = id
  · subst same
    simp only [Function.update_self]
    cases overlaid : answered other with
    | none => rfl
    | some reply => exact ((free.resolve_left (by simp [overlaid])) _ _).symm
  · simp [Function.update_of_ne same]

theorem handle_storeless (other : MemoryStore) {action : Action} {conn conn' : Conn} {current next : MemoryStore}
    (handled : handle current conn action = some (next, conn')) (silent : ∀ line reply, action ≠ .process line reply) :
    handle other conn action = some (other, conn') := by
  cases action with
  | deliver line =>
    obtain ⟨rest, scanned, phase, _, rfl⟩ := handle_deliver handled
    simp [handle, scanned, phase, allow]
  | process line reply => exact absurd rfl (silent line reply)
  | read _ | readEnd | write _ _ | leave =>
    obtain ⟨guard, same⟩ := (allow_eq_some ..).mp handled
    cases same
    exact (allow_eq_some ..).mpr ⟨guard, rfl⟩

/-- Steps of the server that process no line and leave alone the connections whose
calls have come back do the same to the overlay. -/
theorem overlay_step {event : Server.Event} (stepped : Server.step before event = some after)
    (silent : ∀ id line reply, event ≠ .handle id (.process line reply))
    (apart : ∀ id, event.conn? = some id → answered id = none ∨ event = .closeLive id ∨ event = .gone id) :
    Server.step (overlay answered store before) event = some (overlay answered store after) := by
  cases event
  case handle id action =>
    obtain ⟨next, conn, handled, rfl⟩ := step_handle stepped
    have quiet : answered id = none := by simpa [Server.Event.conn?] using apart id rfl
    have same := handle_storeless store handled fun line reply acts => silent id line reply (by rw [acts])
    have moved := overlay_update store before (fun _ => conn) (.inl quiet)
    simp only [Server.step, overlay_quiet _ quiet]
    change Option.map _ (handle store (before.conn id) action) = _
    rw [same, Option.map_some, ← moved]
    rfl
  case accept id | register id | refuse id | spawn id =>
    obtain ⟨guard, rfl⟩ := (allow_eq_some ..).mp stepped
    have quiet : answered id = none := by simpa [Server.Event.conn?] using apart id rfl
    refine (allow_eq_some ..).mpr ⟨guard, ?_⟩
    simp only [Server.State.setPhase]
    rw [← overlay_update _ _ (fun conn => { conn with phase := _ }) (.inl quiet)]
    rfl
  case unregister id | wgDone id =>
    obtain ⟨guard, rfl⟩ := (allow_eq_some ..).mp stepped
    have quiet : answered id = none := by simpa [Server.Event.conn?] using apart id rfl
    rw [← overlay_quiet store quiet] at guard
    refine (allow_eq_some ..).mpr ⟨guard, ?_⟩
    simp only [Server.State.setPhase]
    rw [← overlay_update _ _ (fun conn => { conn with phase := _ }) (.inl quiet)]
    rfl
  case close id =>
    obtain ⟨guard, rfl⟩ := (allow_eq_some ..).mp stepped
    have quiet : answered id = none := by simpa [Server.Event.conn?] using apart id rfl
    rw [← overlay_quiet store quiet] at guard
    refine (allow_eq_some ..).mpr ⟨guard, ?_⟩
    rw [← overlay_update _ _ (fun conn => { conn with phase := .exiting, closed := true }) (.inl quiet)]
  case closeRefused id | closeLive id =>
    obtain ⟨guard, rfl⟩ := (allow_eq_some ..).mp stepped
    refine (allow_eq_some ..).mpr ⟨guard, ?_⟩
    rw [← overlay_update _ _ (fun conn => { conn with closed := true }) (.inr fun _ _ => rfl)]
    rfl
  case gone id =>
    obtain ⟨guard, rfl⟩ := (allow_eq_some ..).mp stepped
    have same : ((overlay answered store before).conn id).gone = (before.conn id).gone := by
      cases found : answered id <;> simp [overlay, found]
    refine (allow_eq_some ..).mpr ⟨same.trans guard, ?_⟩
    rw [← overlay_update _ _ (fun conn => { conn with gone := true }) (.inr fun _ _ => rfl)]
  all_goals
    obtain ⟨guard, rfl⟩ := (allow_eq_some ..).mp stepped
    exact (allow_eq_some ..).mpr ⟨guard, rfl⟩

end Overlay

/-- Which handler waits for which call. -/
structure Calls (state : State) : Prop where
  asked : ∀ id call, state.calling id = some call → ∃ line command, (state.server.conn id).phase = .scanned line ∧
    parse line = .ok command ∧ (state.locked.phase call).call = some (storeCall command)
  owned : ∀ call made, (state.locked.phase call).call = some made →
    (∃ result, state.locked.phase call = .returned made result) ∨ ∃ id, state.calling id = some call
  single : ∀ id other call, state.calling id = some call → state.calling other = some call → id = other

/-- The atomic server that this one stands for. -/
structure Mirrors (state : State) (atomic : Server.State) : Prop where
  calls : Calls state
  placed : Placed state.server
  locked : Refines state.locked atomic.store
  same : atomic = overlay state.answered atomic.store state.server

theorem Mirrors.initial (store : MemoryStore) : Mirrors { locked := { data := store.data } } { store } :=
  ⟨⟨by simp, by simp [LockedStore.Phase.call], by simp⟩, Placed.initial .new, Refines.initial store, rfl⟩

theorem answered_calling {state : State} {id : ConnId} {reply : Bytes} (answered : state.answered id = some reply) :
    ∃ call, state.calling id = some call := by
  obtain ⟨call, calling, _⟩ := Option.bind_eq_some_iff.mp answered
  exact ⟨call, calling⟩

/-- A handler that waits for a call is left alone by all that is not its own step. -/
theorem waiting_change {store : MemoryStore} {id : ConnId} {event : Server.Event} {before after : Conn} {line : Bytes}
    (change : Change store id event before after) (waiting : before.phase = .scanned line)
    (silent : ∀ line reply, event ≠ .handle id (.process line reply)) :
    after.phase = .scanned line ∧ (event.conn? = some id → event = .closeLive id ∨ event = .gone id) := by
  cases change with
  | @handle _ _ _ action handled =>
    cases action with
    | process line reply => exact absurd rfl (silent line reply)
    | deliver _ =>
      obtain ⟨_, _, phase, _⟩ := handle_deliver handled
      cases waiting.symm.trans phase
    | read _ | readEnd | write _ _ | leave =>
      obtain ⟨⟨phase, _⟩, _⟩ := (allow_eq_some ..).mp handled
      cases waiting.symm.trans phase
  | accept phase | register phase | refuse phase | closeRefused phase | spawn phase | unregister phase | close phase
  | wgDone phase => cases waiting.symm.trans phase
  | closeLive => exact ⟨waiting, fun _ => .inl rfl⟩
  | gone => exact ⟨waiting, fun _ => .inr rfl⟩
  | other apart => exact ⟨waiting, fun about => absurd about apart⟩

section Steps
variable {state : State} {atomic : Server.State}

/-- The server's other steps are the atomic server's. -/
theorem Mirrors.server (mirrors : Mirrors state atomic) {event : Server.Event} {server : Server.State}
    (stepped : Server.step state.server event = some server)
    (silent : ∀ id line reply, event ≠ .handle id (.process line reply)) :
    ∃ next, Server.step atomic event = some next ∧ Mirrors { state with server } next := by
  obtain ⟨calls, placed, locked, same⟩ := mirrors
  have waits : ∀ id call, state.calling id = some call → ∃ line command, (state.server.conn id).phase = .scanned line ∧
      (server.conn id).phase = .scanned line ∧ (event.conn? = some id → event = .closeLive id ∨ event = .gone id) ∧
      parse line = .ok command ∧ (state.locked.phase call).call = some (storeCall command) := by
    intro id call calling
    obtain ⟨line, command, phase, parsed, made⟩ := calls.asked id call calling
    obtain ⟨kept, about⟩ := waiting_change (step_conn placed stepped id) phase (silent id)
    exact ⟨line, command, phase, kept, about, parsed, made⟩
  refine ⟨overlay state.answered atomic.store server, ?_, ⟨⟨fun id call calling => ?_, calls.owned, calls.single⟩,
    placed.step stepped, locked, rfl⟩⟩
  · conv => lhs; rw [same]
    refine overlay_step stepped silent fun id about => ?_
    cases answered : state.answered id with
    | none => exact .inl rfl
    | some reply =>
      obtain ⟨call, calling⟩ := answered_calling answered
      obtain ⟨_, _, _, _, socket, _⟩ := waits id call calling
      exact .inr (socket about)
  · obtain ⟨line, command, _, phase, _, parsed, made⟩ := waits id call calling
    exact ⟨line, command, phase, parsed, made⟩

/-- What a release changes for the handlers: one call has come back, with its result. -/
theorem release_returned {before after : LockedStore.State} {call : CallId} {made : Call} {result : Result}
    (stepped : LockedStore.step before (.release call made result) = some after) :
    (before.phase call).call = some made ∧ returned (before.phase call) = none ∧
    (∀ other, (after.phase other).call = (before.phase other).call) ∧
    ∀ other, returned (after.phase other) = if other = call then some result else returned (before.phase other) := by
  obtain ⟨called, unreturned⟩ : (before.phase call).call = some made ∧ returned (before.phase call) = none := by
    rcases step_release stepped with ⟨_, _, looked, _⟩ | ⟨modified, _⟩ <;> simp [*, LockedStore.Phase.call, returned]
  refine ⟨called, unreturned, fun other => ?_, fun other => Option.ext fun found => ?_⟩
  · refine (call_step stepped other).resolve_right ?_
    rintro ⟨_, starts, _⟩
    cases starts
  · simp only [returned_iff, returned_step stepped]
    by_cases mine : other = call
    · subst mine
      simp only [if_true, Option.some.injEq]
      have never : ∀ made, before.phase other ≠ .returned made found := fun made phase => by simp [phase, returned] at unreturned
      simp [never]
    · simp [mine, Ne.symm mine, returned_iff]

/-- The atomic server processes the line of a handler that scanned it. -/
theorem process_step {id : ConnId} {line : Bytes} (scanned : (atomic.conn id).phase = .scanned line) :
    Server.step atomic (.handle id (.process line (answer atomic.store line).2)) =
      some { atomic.setPhase id (.replying (answer atomic.store line).2) with store := (answer atomic.store line).1 } := by
  simp [Server.step, handle, allow, scanned, Server.State.setPhase]

theorem placed_reply {server : Server.State} (placed : Placed server) {id : ConnId} {line : Bytes}
    (scanned : (server.conn id).phase = .scanned line) (reply : Bytes) : Placed (server.setPhase id (.replying reply)) := by
  obtain ⟨absent, held, admitted, refused⟩ := placed
  have serve : (server.setPhase id (.replying reply)).serve = server.serve := rfl
  constructor <;> grind

private theorem Mirrors.reject (mirrors : Mirrors state atomic) {id : ConnId} {line : Bytes} {error : ParseError}
    (rejected : parse line = .error error) (scanned : (state.server.conn id).phase = .scanned line) (idle : state.calling id = none) :
    ∃ next, Server.step atomic (.handle id (.process line (replyError error))) = some next ∧
      Mirrors { state with server := state.server.setPhase id (.replying (replyError error)) } next := by
  obtain ⟨calls, placed, locked, same⟩ := mirrors
  have quiet : state.answered id = none := by simp [State.answered, idle]
  have here : atomic.conn id = state.server.conn id := by rw [same, overlay_quiet _ quiet]
  have stepped := process_step (here ▸ scanned : (atomic.conn id).phase = .scanned line)
  rw [answer_error atomic.store rejected] at stepped
  refine ⟨_, stepped, ⟨fun other call calling => ?_, calls.owned, calls.single⟩, placed_reply placed scanned _, locked, ?_⟩
  · have apart : other ≠ id := by
      rintro rfl
      rw [idle] at calling
      cases calling
    simpa [apart] using calls.asked other call calling
  · have moved := overlay_update atomic.store state.server
      (fun conn => { conn with phase := .replying (replyError error) }) (.inl quiet)
    rw [← same] at moved
    exact moved.symm

private theorem Mirrors.execute (mirrors : Mirrors state atomic) {id : ConnId} {line : Bytes} {command : Command} {call : CallId}
    {locked : LockedStore.State} (parsed : parse line = .ok command) (scanned : (state.server.conn id).phase = .scanned line)
    (idle : state.calling id = none) (stepped : LockedStore.step state.locked (.start call (storeCall command)) = some locked) :
    Mirrors { state with locked, calling := Function.update state.calling id (some call) } atomic := by
  obtain ⟨calls, placed, refines, same⟩ := mirrors
  obtain ⟨store, run, kept⟩ := locked_simulates _ _ _ _ trivial refines stepped
  obtain ⟨absent, rfl⟩ := (allow_eq_some ..).mp stepped
  cases run
  have fresh : ∀ other, state.calling other ≠ some call := by
    intro other calling
    obtain ⟨_, _, _, _, made⟩ := calls.asked other call calling
    simp [absent, LockedStore.Phase.call] at made
  have answered : ∀ other, State.answered { state with
      locked := state.locked.setPhase call (.waiting (storeCall command))
      calling := Function.update state.calling id (some call) } other = state.answered other := by
    intro other
    by_cases mine : other = id
    · simp [State.answered, mine, idle, returned]
    · simp only [State.answered, Function.update_of_ne mine]
      cases calling : state.calling other with
      | none => rfl
      | some started =>
        have apart : started ≠ call := fun same => fresh other (same ▸ calling)
        simp [apart]
  refine ⟨⟨fun other started calling => ?_, fun started made asked => ?_, fun first last started one two => ?_⟩, placed, kept, ?_⟩
  · by_cases mine : other = id
    · subst mine
      obtain rfl : call = started := by simpa using calling
      exact ⟨line, command, scanned, parsed, by simp [LockedStore.Phase.call]⟩
    · simp only [Function.update_of_ne mine] at calling
      have apart : started ≠ call := fun same => fresh other (same ▸ calling)
      simpa [apart] using calls.asked other started calling
  · by_cases mine : started = call
    · exact .inr ⟨id, by simp [mine]⟩
    · simp only [State.setPhase_phase, mine, if_false] at asked ⊢
      refine (calls.owned started made asked).imp_right ?_
      rintro ⟨other, calling⟩
      refine ⟨other, ?_⟩
      have apart : other ≠ id := by
        rintro rfl
        rw [idle] at calling
        cases calling
      rwa [Function.update_of_ne apart]
  · grind [calls.single first last started]
  · rw [funext answered]
    exact same

/-- A step under the lock that lets go of nothing is not noticed. -/
private theorem Mirrors.hold (mirrors : Mirrors state atomic) {event : LockedStore.Event} {locked : LockedStore.State}
    (stepped : LockedStore.step state.locked event = some locked) (silent : event.call? = none)
    (started : ∀ call made, event ≠ .start call made) : Mirrors { state with locked } atomic := by
  obtain ⟨calls, placed, refines, same⟩ := mirrors
  obtain ⟨store, run, kept⟩ := locked_simulates _ _ _ _ trivial refines stepped
  rw [silent] at run
  cases run
  have made : ∀ call, (locked.phase call).call = (state.locked.phase call).call := by
    intro call
    exact (call_step stepped call).resolve_right (by rintro ⟨made, starts, _⟩; exact started call made starts)
  have back : ∀ call made result, locked.phase call = .returned made result ↔ state.locked.phase call = .returned made result := by
    intro call made result
    rw [returned_step stepped, or_iff_left]
    rintro rfl
    cases silent
  have answered : ∀ id, State.answered { state with locked } id = state.answered id := by
    intro id
    simp only [State.answered]
    congr 1
    funext call
    congr 1
    apply Option.ext
    intro result
    simp only [returned_iff, back]
  refine ⟨⟨?_, ?_, calls.single⟩, placed, kept, ?_⟩
  · simpa only [made] using calls.asked
  · simpa only [made, back] using calls.owned
  · rw [funext answered]
    exact same

/-- A call that lets go of the lock has processed its handler's line. -/
private theorem Mirrors.release (mirrors : Mirrors state atomic) {call : CallId} {made : Call} {result : Result}
    {locked : LockedStore.State} (stepped : LockedStore.step state.locked (.release call made result) = some locked) :
    ∃ id line next, Server.step atomic (.handle id (.process line (resultReply result))) = some next ∧
      Mirrors { state with locked } next := by
  obtain ⟨calls, placed, refines, same⟩ := mirrors
  obtain ⟨store, run, kept⟩ := locked_simulates _ _ _ _ trivial refines stepped
  obtain ⟨applied, rfl⟩ := (allow_eq_some ..).mp (show Histories.call apply atomic.store (made, result) = some store by
    rwa [LockedStore.Event.call?, Option.toList_some, run_singleton] at run)
  obtain ⟨called, unreturned, asks, back⟩ := release_returned stepped
  obtain ⟨id, calling⟩ : ∃ id, state.calling id = some call := by
    refine (calls.owned call made called).resolve_left ?_
    rintro ⟨_, phase⟩
    simp [phase, returned] at unreturned
  obtain ⟨line, command, scanned, parsed, same_call⟩ := calls.asked id call calling
  obtain rfl : made = storeCall command := Option.some.inj (called.symm.trans same_call)
  have quiet : state.answered id = none := by simp [State.answered, calling, unreturned]
  have here : atomic.conn id = state.server.conn id := by rw [same, overlay_quiet _ quiet]
  have answers : answer atomic.store line = ((apply atomic.store (storeCall command)).1, resultReply result) := by
    simp only [answer, parsed, execute_call, applied]
  have processed := process_step (here ▸ scanned : (atomic.conn id).phase = .scanned line)
  rw [answers] at processed
  refine ⟨id, line, _, processed, ⟨?_, ?_, calls.single⟩, placed, kept, ?_⟩
  · simpa only [asks] using calls.asked
  · intro other asked makes
    refine (calls.owned other asked (asks other ▸ makes)).imp_left ?_
    rintro ⟨found, phase⟩
    exact ⟨found, (returned_step stepped other asked found).mpr (.inl phase)⟩
  · have answered : ∀ other, State.answered { state with locked } other =
        if other = id then some (resultReply result) else state.answered other := by
      intro other
      by_cases mine : other = id
      · simp [State.answered, mine, calling, back]
      · simp only [State.answered, mine, if_false]
        cases waits : state.calling other with
        | none => rfl
        | some started =>
          have apart : started ≠ call := fun same => mine (calls.single other id call (same ▸ waits) calling)
          simp [back, apart]
    rw [funext answered]
    conv => lhs; rw [same]
    simp only [overlay, Server.State.setPhase, Server.State.setConn]
    congr 1
    funext other
    by_cases mine : other = id
    · subst mine
      simp [quiet]
    · simp [mine]

/-- The result of a call that came back becomes the reply. -/
private theorem Mirrors.reply (mirrors : Mirrors state atomic) {id : ConnId} {call : CallId} {made : Call} {result : Result}
    (calling : state.calling id = some call) (phase : state.locked.phase call = .returned made result) :
    Mirrors { state with
      server := state.server.setPhase id (.replying (resultReply result))
      calling := Function.update state.calling id none } atomic := by
  obtain ⟨calls, placed, refines, same⟩ := mirrors
  obtain ⟨line, command, scanned, parsed, makes⟩ := calls.asked id call calling
  refine ⟨⟨fun other started waits => ?_, fun started asked asks => ?_, fun first last started one two => ?_⟩,
    placed_reply placed scanned _, refines, ?_⟩
  · have apart : other ≠ id := by
      rintro rfl
      simp at waits
    simp only [Function.update_of_ne apart] at waits
    simpa [apart] using calls.asked other started waits
  · rcases calls.owned started asked asks with back | ⟨other, waits⟩
    · exact .inl back
    · by_cases mine : other = id
      · subst mine
        obtain rfl : call = started := Option.some.inj (calling.symm.trans waits)
        refine .inl ⟨result, ?_⟩
        rw [phase, LockedStore.Phase.call] at asks
        rw [phase, Option.some.inj asks]
      · exact .inr ⟨other, by simpa only [Function.update_of_ne mine] using waits⟩
  · grind [calls.single first last started]
  · rw [same]
    simp only [overlay, Server.State.setPhase, Server.State.setConn]
    congr 1
    funext other
    by_cases mine : other = id
    · subst mine
      simp [State.answered, calling, phase, returned]
    · simp [State.answered, mine]

end Steps

/-- What is seen of the atomic server from outside the store. -/
def visible : Server.Event → Option Server.Event
  | .handle _ (.process _ _) => none
  | event => some event

/-- The step under the lock that an event is. -/
def Event.held? : Event → Option LockedStore.Event
  | .acquire call => some (.acquire call)
  | .lookup call => some (.lookup call)
  | .modify call => some (.modify call)
  | .release call made result => some (.release call made result)
  | _ => none

/-- All that a step can be. -/
inductive Moves (before : State) : Event → State → Prop
  | server {event server} (moved : Server.step before.server event = some server) (shows : visible event = some event)
      (silent : ∀ id line reply, event ≠ .handle id (.process line reply)) : Moves before (.server event) { before with server }
  | reject {id line error} (rejected : parse line = .error error) (scanned : (before.server.conn id).phase = .scanned line)
      (idle : before.calling id = none) :
      Moves before (.reject id line) { before with server := before.server.setPhase id (.replying (replyError error)) }
  | execute {id line command call locked} (parsed : parse line = .ok command) (scanned : (before.server.conn id).phase = .scanned line)
      (idle : before.calling id = none) (started : LockedStore.step before.locked (.start call (storeCall command)) = some locked) :
      Moves before (.execute id line call) { before with locked, calling := Function.update before.calling id (some call) }
  | reply {id call made result} (calling : before.calling id = some call)
      (returned : before.locked.phase call = .returned made result) :
      Moves before (.reply id (resultReply result)) { before with
        server := before.server.setPhase id (.replying (resultReply result))
        calling := Function.update before.calling id none }
  | held {event step locked} (taken : event.held? = some step) (moved : LockedStore.step before.locked step = some locked) :
      Moves before event { before with locked }

theorem step_moves {before after : State} {event : Event} (stepped : step before event = some after) : Moves before event after := by
  cases event with
  | server event =>
    cases event
    case handle id action =>
      cases action
      case process line reply => cases stepped
      all_goals
        obtain ⟨server, moved, rfl⟩ := Option.map_eq_some_iff.mp stepped
        exact .server moved rfl (by simp)
    all_goals
      obtain ⟨server, moved, rfl⟩ := Option.map_eq_some_iff.mp stepped
      exact .server moved rfl (by simp)
  | reject id line =>
    simp only [step] at stepped
    split at stepped
    next error rejected =>
      obtain ⟨⟨scanned, idle⟩, rfl⟩ := (allow_eq_some ..).mp stepped
      exact .reject rejected scanned idle
    next => cases stepped
  | execute id line call =>
    simp only [step] at stepped
    split at stepped
    next => cases stepped
    next command parsed =>
      split at stepped
      next ready =>
        obtain ⟨locked, started, rfl⟩ := Option.map_eq_some_iff.mp stepped
        exact .execute parsed ready.1 ready.2 started
      next => cases stepped
  | reply id reply =>
    simp only [step] at stepped
    split at stepped
    next made result phase =>
      obtain ⟨call, calling, returned⟩ := Option.map_eq_some_iff.mp phase
      obtain ⟨rfl, rfl⟩ := (allow_eq_some ..).mp stepped
      exact .reply calling returned
    next => cases stepped
  | acquire call | lookup call | modify call | release call made result =>
    obtain ⟨locked, moved, rfl⟩ := Option.map_eq_some_iff.mp stepped
    exact .held rfl moved

theorem locked_follows : Follows step Server.step Event.shown visible Mirrors := by
  intro before atomic event after mirrors stepped
  cases step_moves stepped with
  | @server event server moved shows silent =>
    obtain ⟨next, matched, kept⟩ := mirrors.server moved silent
    exact ⟨[event], next, (run_singleton ..).trans matched, kept, by simp [Event.shown, shows]⟩
  | reject rejected scanned idle =>
    obtain ⟨next, matched, kept⟩ := mirrors.reject rejected scanned idle
    exact ⟨[_], next, (run_singleton ..).trans matched, kept, rfl⟩
  | execute parsed scanned idle started => exact ⟨[], atomic, rfl, mirrors.execute parsed scanned idle started, rfl⟩
  | reply calling returned => exact ⟨[], atomic, rfl, mirrors.reply calling returned, rfl⟩
  | @held event taken locked names moved =>
    cases event <;> cases names
    case release.refl call made result =>
      obtain ⟨id, line, next, matched, kept⟩ := mirrors.release moved
      exact ⟨[_], next, (run_singleton ..).trans matched, kept, rfl⟩
    all_goals exact ⟨[], atomic, rfl, mirrors.hold moved rfl (by simp), rfl⟩

/-- The two servers are in the same place, up to the calls in flight and the map
that a writer is changing. -/
structure Stands (state : State) (atomic : Server.State) : Prop where
  server : atomic = overlay state.answered atomic.store state.server
  idle : ∀ id, state.calling id = none → atomic.conn id = state.server.conn id
  waiting : ∀ id call, state.calling id = some call → ∃ line, (state.server.conn id).phase = .scanned line ∧
    ((atomic.conn id).phase = .scanned line ∨ ∃ made result, state.locked.phase call = .returned made result ∧
      (atomic.conn id).phase = .replying (resultReply result))
  data : state.locked.writer = none → state.locked.data = atomic.store.data

theorem Mirrors.stands {state : State} {atomic : Server.State} (mirrors : Mirrors state atomic) : Stands state atomic := by
  obtain ⟨calls, placed, locked, same⟩ := mirrors
  have here : ∀ id, state.answered id = none → atomic.conn id = state.server.conn id := by
    intro id quiet
    rw [same, overlay_quiet _ quiet]
  refine ⟨same, fun id idle => here id (by simp [State.answered, idle]), fun id call calling => ?_, locked.settled⟩
  obtain ⟨line, _, scanned, _⟩ := calls.asked id call calling
  refine ⟨line, scanned, ?_⟩
  cases back : returned (state.locked.phase call) with
  | none => exact .inl (by rw [here id (by simp [State.answered, calling, back]), scanned])
  | some result =>
    obtain ⟨made, phase⟩ := returned_iff.mp back
    have answered : state.answered id = some (resultReply result) := by simp [State.answered, calling, back]
    exact .inr ⟨made, result, phase, by rw [same]; simp [overlay, answered]⟩

/-- What the server over the locked store shows, the server over the atomic store
shows as well: the same accepts, reads, deliveries, writes and shutdown, in the same
order, ending in the same place. -/
theorem locked_server_refines {store : MemoryStore} {events : List Event} {state : State}
    (ran : run step { locked := { data := store.data } } events = some state) :
    ∃ served final, run Server.step { store } served = some final ∧
      served.filterMap visible = events.filterMap Event.shown ∧ Stands state final := by
  obtain ⟨served, final, matched, mirrors, same⟩ := locked_follows.run (Mirrors.initial store) ran
  exact ⟨served, final, matched, same, mirrors.stands⟩

/-- A Get waits for a Set to let go of the lock, and is answered before the Set's own
handler hears of it. -/
def overtaken : List Event := [.server (.accept 0), .server (.register 0), .server (.spawn 0), .server (.accept 1),
  .server (.register 1), .server (.spawn 1), .server (.handle 0 (.read (text "SET a x\n"))),
  .server (.handle 0 (.deliver (text "SET a x"))), .execute 0 (text "SET a x") 0, .acquire 0,
  .server (.handle 1 (.read (text "GET a\n"))), .server (.handle 1 (.deliver (text "GET a"))), .execute 1 (text "GET a") 1,
  .modify 0, .release 0 (.set (text "a") (text "x")) .done, .acquire 1, .lookup 1,
  .release 1 (.get (text "a")) (.found (some (text "x"))), .reply 1 (text "x\n"),
  .server (.handle 1 (.write (text "x\n") true))]

theorem locked_server_refines_overtaken : ∃ ran : (run step {} overtaken).isSome, ∃ served final,
    run Server.step {} served = some final ∧ served.filterMap visible = overtaken.filterMap Event.shown ∧
      Stands ((run step {} overtaken).get ran) final := by
  have ran : (run step {} overtaken).isSome := by decide
  exact ⟨ran, @locked_server_refines .new _ _ (Option.some_get ran).symm⟩

end Kvasir.LockedServer
