import Kvasir.Server

/-! What one step does to each part of the server's state. Every invariant of
the server is derived from these lemmas; none of them unfolds the step again. -/

namespace Kvasir.Server
open Runs

/-- How far a connection has come, from being unknown to its handler's end. -/
def Phase.stage : Phase → Nat
  | .absent => 0
  | .held | .refused => 1
  | .admitted => 2
  | .scanning | .scanned _ | .replying _ => 3
  | .leaving => 4
  | .closing => 5
  | .exiting => 6
  | .finished => 7

def State.stage (state : State) (id : ConnId) : Nat := (state.conn id).phase.stage

theorem step_handle {before after : State} {id : ConnId} {action : Action}
    (stepped : step before (.handle id action) = some after) :
    ∃ store conn, handle before.store (before.conn id) action = some (store, conn) ∧
      after = { before.setConn id conn with store } := by
  simp only [step, Option.map_eq_some_iff, Prod.exists] at stepped
  obtain ⟨store, conn, handled, rfl⟩ := stepped
  exact ⟨store, conn, handled, rfl⟩

section Handle
variable {store store' : MemoryStore} {before after : Conn} {action : Action}

theorem handle_deliver {line : Bytes} (handled : handle store before (.deliver line) = some (store', after)) :
    ∃ rest, before.scanner.scan = .token line rest ∧ before.phase = .scanning ∧ store' = store ∧
      after = { before with scanner := rest, phase := .scanned line } := by
  simp only [handle] at handled
  split at handled
  next found rest scanned =>
    obtain ⟨⟨phase, rfl⟩, same⟩ := (allow_eq_some ..).mp handled
    cases same
    exact ⟨rest, scanned, phase, rfl, rfl⟩
  next => cases handled

/-- The loop runs from `scanning` and can only be left for the cleanup. -/
theorem handle_stage (handled : handle store before action = some (store', after)) :
    before.phase.stage = 3 ∧ (after.phase.stage = 3 ∨ after.phase = .leaving) := by
  cases action with
  | deliver line =>
    obtain ⟨_, _, phase, _, rfl⟩ := handle_deliver handled
    simp [phase, Phase.stage]
  | write reply ok =>
    obtain ⟨⟨phase, _⟩, same⟩ := (allow_eq_some ..).mp handled
    cases same
    cases ok <;> simp [phase, Phase.stage]
  | read _ | readEnd | process _ _ | leave =>
    obtain ⟨⟨phase, _⟩, same⟩ := (allow_eq_some ..).mp handled
    cases same
    simp [phase, Phase.stage]

theorem handle_socket (handled : handle store before action = some (store', after)) :
    after.closed = before.closed ∧ after.gone = before.gone := by
  cases action with
  | deliver line =>
    obtain ⟨_, _, _, _, rfl⟩ := handle_deliver handled
    exact ⟨rfl, rfl⟩
  | read _ | readEnd | process _ _ | write _ _ | leave =>
    obtain ⟨_, same⟩ := (allow_eq_some ..).mp handled
    cases same
    exact ⟨rfl, rfl⟩

end Handle

variable {before after : State} {event : Event}

theorem step_conns :
    step before event = some after → after.conns = match event with
      | .register id => insert id before.conns
      | .unregister id => before.conns.erase id
      | _ => before.conns := by
  intro stepped
  cases event
  case handle id action => obtain ⟨_, _, _, rfl⟩ := step_handle stepped; rfl
  all_goals obtain ⟨_, rfl⟩ := (allow_eq_some ..).mp stepped; rfl

theorem step_wg :
    step before event = some after → after.wg = match event with
      | .register _ => before.wg + 1
      | .wgDone _ => before.wg - 1
      | _ => before.wg := by
  intro stepped
  cases event
  case handle id action => obtain ⟨_, _, _, rfl⟩ := step_handle stepped; rfl
  all_goals obtain ⟨_, rfl⟩ := (allow_eq_some ..).mp stepped; rfl

theorem step_done :
    step before event = some after → after.done = match event with
      | .closeDone => true
      | _ => before.done := by
  intro stepped
  cases event
  case handle id action => obtain ⟨_, _, _, rfl⟩ := step_handle stepped; rfl
  all_goals obtain ⟨_, rfl⟩ := (allow_eq_some ..).mp stepped; rfl

theorem step_ctx :
    step before event = some after → after.ctx = match event with
      | .ctxEnd error => some error
      | _ => before.ctx := by
  intro stepped
  cases event
  case handle id action => obtain ⟨_, _, _, rfl⟩ := step_handle stepped; rfl
  all_goals obtain ⟨_, rfl⟩ := (allow_eq_some ..).mp stepped; rfl

theorem step_store :
    step before event = some after → after.store = match event with
      | .handle _ (.process line _) => (answer before.store line).1
      | _ => before.store := by
  intro stepped
  cases event
  case handle id action =>
    obtain ⟨store, conn, handled, rfl⟩ := step_handle stepped
    cases action with
    | deliver line =>
      obtain ⟨_, _, _, rfl, _⟩ := handle_deliver handled
      rfl
    | read _ | readEnd | process _ _ | write _ _ | leave =>
      exact ((Prod.mk.inj ((allow_eq_some ..).mp handled).2).1).symm
  all_goals obtain ⟨_, rfl⟩ := (allow_eq_some ..).mp stepped; rfl

theorem step_answered {id : ConnId} {line reply : Bytes}
    (stepped : step before (.handle id (.process line reply)) = some after) :
    answer before.store line = (after.store, reply) := by
  obtain ⟨_, _, handled, _⟩ := step_handle stepped
  obtain ⟨⟨_, answered⟩, _⟩ := (allow_eq_some ..).mp handled
  exact Prod.ext (step_store stepped).symm answered

/-- Only processed lines change the store, so it keeps what each of them keeps. -/
theorem store_run {holds : MemoryStore → Prop} {events : List Event} (initial : holds before.store)
    (kept : ∀ past id line reply current, past ++ [.handle id (.process line reply)] <+: events →
      run step before (past ++ [.handle id (.process line reply)]) = some current →
      ∀ store, holds store → holds (answer store line).1)
    (ran : run step before events = some after) : holds after.store := by
  refine invariant (fun past current => past <+: events → holds current.store) (fun _ => initial) ?_ ran (List.prefix_refl events)
  intro past current next final earlier ih stepped inside
  have held := ih ((List.prefix_append past [next]).trans inside)
  rw [step_store stepped]
  cases next
  case handle id action =>
    cases action with
    | process line reply => exact kept past id line reply final inside (run_snoc earlier stepped) current.store held
    | _ => exact held
  all_goals exact held

/-- A view of the store that no processed line changes is the same after the run. -/
theorem view_kept {β : Type} (view : MemoryStore → β) {events : List Event}
    (quiet : ∀ id line reply, .handle id (.process line reply) ∈ events → ∀ store, view (answer store line).1 = view store)
    (ran : run step before events = some after) : view after.store = view before.store := by
  refine @store_run before after (fun store => view store = view before.store) events rfl ?_ ran
  intro past id line reply _ inside _ store same
  rw [quiet id line reply (inside.subset (by simp)), same]

/-- Where Serve stands decides which connections are not yet with a handler. -/
structure Placed (state : State) : Prop where
  absent : ∀ id, id ∉ state.accepted ↔ (state.conn id).phase = .absent
  held : ∀ id, state.serve = .holding id ↔ (state.conn id).phase = .held
  admitted : ∀ id, state.serve = .spawning id ↔ (state.conn id).phase = .admitted
  refused : ∀ id, state.serve = .refusing id → (state.conn id).phase = .refused

theorem Placed.initial (store : MemoryStore) : Placed { store } :=
  ⟨by simp, by simp, by simp, by simp⟩

/-- Handlers, the network and Shutdown leave the accept loop's view alone. -/
private theorem Placed.frame (placed : Placed before) (accepted : after.accepted = before.accepted)
    (serve : after.serve = before.serve)
    (phases : ∀ id, (after.conn id).phase = (before.conn id).phase ∨
      3 ≤ (before.conn id).phase.stage ∧ 3 ≤ (after.conn id).phase.stage) : Placed after := by
  have early : ∀ id phase, Phase.stage phase < 3 → ((after.conn id).phase = phase ↔ (before.conn id).phase = phase) := by
    intro id phase low
    rcases phases id with same | ⟨first, last⟩
    · rw [same]
    · exact ⟨fun same => by rw [same] at last; omega, fun same => by rw [same] at first; omega⟩
  refine ⟨fun id => ?_, fun id => ?_, fun id => ?_, fun id refusing => ?_⟩
  · rw [accepted, early id _ (by decide)]; exact placed.absent id
  · rw [serve, early id _ (by decide)]; exact placed.held id
  · rw [serve, early id _ (by decide)]; exact placed.admitted id
  · rw [early id _ (by decide)]; exact placed.refused id (serve ▸ refusing)

theorem Placed.step (placed : Placed before) (stepped : step before event = some after) : Placed after := by
  obtain ⟨absent, held, admitted, refused⟩ := placed
  cases event
  case handle id action =>
    obtain ⟨store, conn, handled, rfl⟩ := step_handle stepped
    obtain ⟨first, last⟩ := handle_stage handled
    refine Placed.frame ⟨absent, held, admitted, refused⟩ rfl rfl fun other => ?_
    by_cases same : other = id
    · subst other
      right
      have late : 3 ≤ conn.phase.stage := by
        rcases last with last | last <;> rw [last]
        decide
      simpa [first] using late
    · simp [same]
  -- Serve's own steps move the one connection it is busy with.
  case accept _ | acceptFail _ | serveReturn _ | register _ | refuse _ | closeRefused _ | spawn _ =>
    obtain ⟨guard, rfl⟩ := (allow_eq_some ..).mp stepped
    constructor <;> grind
  case unregister id | close id | wgDone id =>
    obtain ⟨guard, rfl⟩ := (allow_eq_some ..).mp stepped
    refine Placed.frame ⟨absent, held, admitted, refused⟩ rfl rfl fun other => ?_
    by_cases same : other = id <;> simp [same, guard, Phase.stage]
  case closeLive id | gone id =>
    obtain ⟨_, rfl⟩ := (allow_eq_some ..).mp stepped
    refine Placed.frame ⟨absent, held, admitted, refused⟩ rfl rfl fun other => ?_
    by_cases same : other = id <;> simp [same]
  all_goals
    obtain ⟨_, rfl⟩ := (allow_eq_some ..).mp stepped
    exact Placed.frame ⟨absent, held, admitted, refused⟩ rfl rfl fun _ => .inl rfl

def Event.conn? : Event → Option ConnId
  | .accept id | .register id | .refuse id | .closeRefused id | .spawn id | .handle id _ | .unregister id
  | .close id | .wgDone id | .closeLive id | .gone id => some id
  | _ => none

/-- All that an event can do to one connection, with the phase it starts from. -/
inductive Change (store : MemoryStore) (id : ConnId) : Event → Conn → Conn → Prop
  | accept {conn} (absent : conn.phase = .absent) : Change store id (.accept id) conn { conn with phase := .held }
  | register {conn} (held : conn.phase = .held) : Change store id (.register id) conn { conn with phase := .admitted }
  | refuse {conn} (held : conn.phase = .held) : Change store id (.refuse id) conn { conn with phase := .refused }
  | closeRefused {conn} (refused : conn.phase = .refused) :
      Change store id (.closeRefused id) conn { conn with closed := true }
  | spawn {conn} (admitted : conn.phase = .admitted) :
      Change store id (.spawn id) conn { conn with phase := .scanning }
  | handle {conn conn' store' action} (handled : Server.handle store conn action = some (store', conn')) :
      Change store id (.handle id action) conn conn'
  | unregister {conn} (leaving : conn.phase = .leaving) :
      Change store id (.unregister id) conn { conn with phase := .closing }
  | close {conn} (closing : conn.phase = .closing) :
      Change store id (.close id) conn { conn with phase := .exiting, closed := true }
  | wgDone {conn} (exiting : conn.phase = .exiting) :
      Change store id (.wgDone id) conn { conn with phase := .finished }
  | closeLive {conn} : Change store id (.closeLive id) conn { conn with closed := true }
  | gone {conn} : Change store id (.gone id) conn { conn with gone := true }
  | other {event conn} (apart : event.conn? ≠ some id) : Change store id event conn conn

/-- Nobody opens a connection again, and no client comes back. -/
theorem Change.socket {store : MemoryStore} {id : ConnId} {event : Event} {before after : Conn}
    (change : Change store id event before after) :
    (before.closed = true → after.closed = true) ∧ (before.gone = true → after.gone = true) := by
  cases change with
  | handle handled =>
    obtain ⟨closed, gone⟩ := handle_socket handled
    exact ⟨closed.trans, gone.trans⟩
  | accept | register | refuse | closeRefused | spawn | unregister | close | wgDone | closeLive | gone | other => simp

theorem step_conn (placed : Placed before) (stepped : step before event = some after) (id : ConnId) :
    Change before.store id event (before.conn id) (after.conn id) := by
  by_cases about : event.conn? = some id
  · cases event <;> simp only [Event.conn?, Option.some.injEq, reduceCtorEq] at about <;> subst about
    case handle action =>
      obtain ⟨store, conn, handled, rfl⟩ := step_handle stepped
      simpa using Change.handle handled
    all_goals obtain ⟨guard, rfl⟩ := (allow_eq_some ..).mp stepped
    case accept => simpa using Change.accept ((placed.absent _).mp guard.2.2)
    case register => simpa using Change.register ((placed.held _).mp guard.1)
    case refuse => simpa using Change.refuse ((placed.held _).mp guard.1)
    case closeRefused => simpa using Change.closeRefused (placed.refused _ guard)
    case spawn => simpa using Change.spawn ((placed.admitted _).mp guard)
    case unregister => simpa using Change.unregister guard.1
    case close => simpa using Change.close guard
    case wgDone => simpa using Change.wgDone guard
    case closeLive => simpa using Change.closeLive
    case gone => simpa using Change.gone
  · have kept : after.conn id = before.conn id := by
      cases event
      case handle other action =>
        obtain ⟨store, conn, handled, rfl⟩ := step_handle stepped
        have apart : id ≠ other := fun same => about (by simp [Event.conn?, same])
        simp [apart]
      case accept other | register other | refuse other | closeRefused other | spawn other | unregister other
          | close other | wgDone other | closeLive other | gone other =>
        obtain ⟨guard, rfl⟩ := (allow_eq_some ..).mp stepped
        have apart : id ≠ other := fun same => about (by simp [Event.conn?, same])
        simp [apart]
      all_goals
        obtain ⟨guard, rfl⟩ := (allow_eq_some ..).mp stepped
        rfl
    rw [kept]
    exact .other about

theorem placed_run {store : MemoryStore} {events : List Event} {state : State}
    (ran : run step { store } events = some state) : Placed state :=
  invariant (fun _ => Placed) (Placed.initial store) (fun _ _ _ _ _ placed stepped => placed.step stepped) ran

end Kvasir.Server
