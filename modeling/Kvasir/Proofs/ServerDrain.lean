import Kvasir.Lib.Termination
import Kvasir.Proofs.ServerShutdown
import Mathlib.Algebra.Order.BigOperators.Group.Finset

/-! Draining. Once Shutdown has released the mutex the server waits for no client:
reads and writes fail on a closed connection, so every handler has a bounded way to
its end, and so has everyone who waits for it. Before that Shutdown holds the mutex,
and nobody can keep it from going on. -/

namespace Kvasir.Server
open Runs Termination Strings

/-- What the server does, and not its clients or the context. -/
def Event.own : Event → Bool
  | .gone _ | .ctxEnd _ => false
  | _ => true

/-- The handler that takes this step. -/
def Event.handler? : Event → Option ConnId
  | .handle id _ | .unregister id | .close id | .wgDone id => some id
  | _ => none

/-- Steps left to the handler of a closed connection. Of the lines it has buffered
it processes one more at most, because the write fails. -/
def Conn.rank (conn : Conn) : Nat :=
  match conn.phase with
  | .absent | .held | .refused | .finished => 0
  | .admitted => 7
  | .scanning => if conn.scanner.failed then 6 else 7
  | .scanned _ => 5
  | .replying _ => 4
  | .leaving => 3
  | .closing => 2
  | .exiting => 1

def Serve.rank : Serve → Nat
  | .spawning _ => 3
  | .accepting | .holding _ => 2
  | .failed _ | .refusing _ => 1
  | .returned _ => 0

def Shutdown.rank : Shutdown → Nat
  | .unlocked => 4
  | .waiting => 1
  | _ => 0

def Drain.rank : Drain → Nat
  | .waiting => 2
  | .passed => 1
  | .idle | .closed => 0

/-- Steps left to Serve, Shutdown and the drain goroutine. -/
def State.coordination (state : State) : Nat := state.serve.rank + state.shutdown.rank + state.drain.rank

def State.rank (state : State) : Nat := state.coordination + ∑ id ∈ state.accepted, (state.conn id).rank

theorem handle_rank {store store' : MemoryStore} {before after : Conn} {action : Action}
    (handled : handle store before action = some (store', after)) (closed : before.closed = true) :
    after.rank < before.rank := by
  cases action with
  | read chunk =>
    obtain ⟨⟨_, _, opened, _⟩, _⟩ := (allow_eq_some ..).mp handled
    exact (Bool.false_ne_true (opened.symm.trans closed)).elim
  | readEnd =>
    obtain ⟨⟨phase, waiting⟩, same⟩ := (allow_eq_some ..).mp handled
    cases same
    have running := (Scanner.scan_read waiting).2.1
    simp [Conn.rank, phase, running, Scanner.fail]
  | deliver line =>
    obtain ⟨_, _, phase, _, rfl⟩ := handle_deliver handled
    simp only [Conn.rank, phase]
    split <;> decide
  | process line reply =>
    obtain ⟨⟨phase, _⟩, same⟩ := (allow_eq_some ..).mp handled
    cases same
    simp [Conn.rank, phase]
  | write reply ok =>
    obtain ⟨⟨phase, succeeds⟩, same⟩ := (allow_eq_some ..).mp handled
    cases same
    cases ok with
    | false => simp [Conn.rank, phase]
    | true => exact (Bool.false_ne_true ((succeeds rfl).1.symm.trans closed)).elim
  | leave =>
    obtain ⟨⟨phase, _⟩, same⟩ := (allow_eq_some ..).mp handled
    cases same
    simp only [Conn.rank, phase]
    split <;> decide

theorem Change.rank {store : MemoryStore} {id : ConnId} {event : Event} {before after : Conn}
    (change : Change store id event before after) (refusing : event ≠ .register id)
    (closed : 2 ≤ before.phase.stage → before.phase.stage < 5 → before.closed = true) :
    after.rank ≤ before.rank ∧ (event.handler? = some id → after.rank < before.rank) := by
  cases change with
  | @handle _ _ _ action handled =>
    have running := (handle_stage handled).1
    have drop := handle_rank handled (closed (by omega) (by omega))
    exact ⟨drop.le, fun _ => drop⟩
  | unregister phase | close phase | wgDone phase => simp [Conn.rank, phase]
  | accept phase | refuse phase => simp [Conn.rank, phase, Event.handler?]
  | spawn phase =>
    simp only [Conn.rank, phase, Event.handler?]
    split <;> simp
  | register _ => exact absurd rfl refusing
  | closeRefused _ | closeLive | gone => simp [Conn.rank, Event.handler?]
  | @other _ conn apart =>
    refine ⟨le_refl _, fun handler => absurd ?_ apart⟩
    cases event <;> simp_all [Event.handler?, Event.conn?]

/-- What holds from the moment Shutdown releases the mutex. -/
structure Draining (state : State) : Prop where
  placed : Placed state
  gate : Gate state
  released : state.shutdown.released = true
  closed : ∀ id, 2 ≤ state.stage id → state.stage id < 5 → (state.conn id).closed = true
  drainer : state.shutdown = .waiting → state.drain ≠ .idle

namespace Draining
variable {state : State} (draining : Draining state)
include draining

theorem done : state.done = true :=
  draining.gate.done.trans (Shutdown.swept_stopped (Shutdown.released_swept draining.released).1)

theorem deaf : state.listening = false := by
  rw [draining.gate.listening, (Shutdown.released_swept draining.released).1]
  rfl

theorem unlocked : state.shutdown.holdsLock = false := by
  have released := draining.released
  cases shutdown : state.shutdown <;> simp_all [Shutdown.released, Shutdown.holdsLock]

end Draining

section Step
variable {before after : State} {event : Event}

theorem coordination_step (draining : Draining before) (stepped : step before event = some after) :
    after.coordination + (if event.own = true ∧ event.handler? = none then 1 else 0) ≤ before.coordination := by
  have done := draining.done
  have deaf := draining.deaf
  have released := draining.released
  cases event
  case handle id action => obtain ⟨_, _, _, rfl⟩ := step_handle stepped; exact le_refl _
  case unregister id | close id | wgDone id | gone id | ctxEnd error =>
    obtain ⟨_, rfl⟩ := (allow_eq_some ..).mp stepped
    exact le_refl _
  case acceptFail error | serveReturn error | refuse id | closeRefused id | spawn id | waitReturns | closeDrained =>
    obtain ⟨guard, rfl⟩ := (allow_eq_some ..).mp stepped
    simp [State.coordination, guard, Serve.rank, Drain.rank, Event.own, Event.handler?, State.setConn, State.setPhase]
  case accept id | register id =>
    obtain ⟨guard, rfl⟩ := (allow_eq_some ..).mp stepped
    simp_all
  case lock | closeDone | closeListener | unlock =>
    obtain ⟨guard, rfl⟩ := (allow_eq_some ..).mp stepped
    simp [guard, Shutdown.released] at released
  case closeLive id =>
    obtain ⟨member, rfl⟩ := (allow_eq_some ..).mp stepped
    simp [(Shutdown.released_swept released).2] at member
  case startDrain | shutdownNil | shutdownErr =>
    obtain ⟨guard, rfl⟩ := (allow_eq_some ..).mp stepped
    simp [State.coordination, guard, Shutdown.rank, Drain.rank, Event.own, Event.handler?]

theorem accepted_step (draining : Draining before) (stepped : step before event = some after) :
    after.accepted = before.accepted := by
  cases event
  case handle id action => obtain ⟨_, _, _, rfl⟩ := step_handle stepped; rfl
  case accept id =>
    obtain ⟨guard, _⟩ := (allow_eq_some ..).mp stepped
    simp [draining.deaf] at guard
  all_goals obtain ⟨_, rfl⟩ := (allow_eq_some ..).mp stepped; rfl

theorem handlers_step (draining : Draining before) (stepped : step before event = some after) :
    (∑ id ∈ after.accepted, (after.conn id).rank) + (if event.handler?.isSome then 1 else 0) ≤
      ∑ id ∈ before.accepted, (before.conn id).rank := by
  have moved : ∀ id, (after.conn id).rank ≤ (before.conn id).rank ∧
      (event.handler? = some id → (after.conn id).rank < (before.conn id).rank) := by
    intro id
    refine (step_conn draining.placed stepped id).rank ?_ (draining.closed id)
    rintro rfl
    obtain ⟨guard, _⟩ := (allow_eq_some ..).mp stepped
    simp [draining.done] at guard
  rw [accepted_step draining stepped]
  cases handler : event.handler? with
  | none => exact Finset.sum_le_sum fun id _ => (moved id).1
  | some id =>
    have drop := (moved id).2 handler
    have known : id ∈ before.accepted := by
      by_contra unknown
      have absent := (draining.placed.absent id).mp unknown
      simp [Conn.rank, absent] at drop
    exact Finset.sum_lt_sum (fun other _ => (moved other).1) ⟨id, known, drop⟩

theorem rank_step (draining : Draining before) (stepped : step before event = some after) :
    after.rank + (if event.own then 1 else 0) ≤ before.rank := by
  have others := coordination_step draining stepped
  have handlers := handlers_step draining stepped
  simp only [State.rank]
  cases own : event.own <;> cases handler : event.handler? <;> simp_all <;> omega

end Step

section Runs
variable {store : MemoryStore} {events later : List Event} {state final : State}

theorem draining_run (ran : run step { store } events = some state) (unlocked : .unlock ∈ events) : Draining state := by
  have released := unlock_released ran unlocked
  have ⟨swept, empty⟩ := Shutdown.released_swept released
  refine ⟨placed_run ran, gate_run ran, released, fun id admitted live => ?_, ?_⟩
  · have member := (conns_stage ran id).mpr ⟨admitted, live⟩
    exact ((sealed_run ran).live swept id member).resolve_left (by simp [empty])
  · refine invariant (fun _ state => state.shutdown = .waiting → state.drain ≠ .idle) (by simp) ?_ ran
    intro past before next after _ ih stepped
    cases next
    case handle id action => obtain ⟨_, _, _, rfl⟩ := step_handle stepped; exact ih
    case waitReturns | closeDrained | startDrain =>
      obtain ⟨_, rfl⟩ := (allow_eq_some ..).mp stepped
      simp
    case lock | closeDone | closeListener | closeLive id | unlock | shutdownNil | shutdownErr =>
      obtain ⟨_, rfl⟩ := (allow_eq_some ..).mp stepped
      simp
    all_goals
      obtain ⟨_, rfl⟩ := (allow_eq_some ..).mp stepped
      exact ih

theorem drain_falls (store : MemoryStore) :
    Falls step Event.own (fun _ => 0) (fun state => ∃ events, run step { store } events = some state ∧ .unlock ∈ events) State.rank := by
  refine ⟨fun before event after ⟨past, ran, unlocked⟩ stepped => ?_, fun before event after ⟨past, ran, unlocked⟩ stepped own => ?_,
    fun before event after ⟨past, ran, unlocked⟩ stepped _ => ?_⟩
  · exact ⟨past ++ [event], run_snoc ran stepped, List.mem_append_left _ unlocked⟩
  · have drop := rank_step (draining_run ran unlocked) stepped
    simp only [own, if_true] at drop
    omega
  · exact (Nat.le_add_right _ _).trans (rank_step (draining_run ran unlocked) stepped)

theorem Conn.rank_le (conn : Conn) : conn.rank ≤ 7 := by
  cases phase : conn.phase <;> simp only [Conn.rank, phase] <;> first | omega | (split <;> omega)

theorem Conn.rank_running {conn : Conn} (busy : conn.rank ≠ 0) : 2 ≤ conn.phase.stage ∧ conn.phase.stage < 7 := by
  cases phase : conn.phase <;> simp_all [Conn.rank, Phase.stage]

/-- At most seven steps of each handler that runs, and nine of the others. -/
theorem rank_bound (state : State) : state.rank ≤ 7 * state.running.card + 9 := by
  have handlers : ∑ id ∈ state.accepted, (state.conn id).rank ≤ state.running.card * 7 := by
    rw [← Finset.sum_filter_of_ne fun id _ => Conn.rank_running, ← Finset.sum_const_nat fun _ _ => rfl]
    exact Finset.sum_le_sum fun id _ => (state.conn id).rank_le
  have serve : state.serve.rank ≤ 3 := by cases state.serve <;> simp [Serve.rank]
  have shutdown : state.shutdown.rank ≤ 4 := by cases state.shutdown <;> simp [Shutdown.rank]
  have drain : state.drain.rank ≤ 2 := by cases state.drain <;> simp [Drain.rank]
  simp only [State.rank, State.coordination]
  omega

/-- Nothing of the server is left running. -/
structure Drained (events : List Event) (state : State) : Prop where
  serve : ∃ error, state.serve = .returned error
  handlers : ∀ id, .register id ∈ events → .wgDone id ∈ events
  closed : ∀ id, .accept id ∈ events → (state.conn id).closed = true
  conns : state.conns = ∅
  shutdown : ∃ result, state.shutdown = .returned result
  patient : state.ctx = none → state.shutdown = .returned none

private theorem rests_serve (draining : Draining state) (rests : Rests step Event.own state) :
    ∃ error, state.serve = .returned error := by
  cases serve : state.serve with
  | accepting => exact absurd ⟨serve, by simp [draining.deaf]⟩ (rests.refused (.acceptFail .closed) rfl rfl)
  | failed error => exact absurd serve (rests.refused (.serveReturn error) rfl rfl)
  | holding id => exact absurd ⟨serve, draining.unlocked, draining.done⟩ (rests.refused (.refuse id) rfl rfl)
  | refusing id => exact absurd serve (rests.refused (.closeRefused id) rfl rfl)
  | spawning id => exact absurd serve (rests.refused (.spawn id) rfl rfl)
  | returned error => exact ⟨error, rfl⟩

private theorem rests_handler (draining : Draining state) (rests : Rests step Event.own state) (id : ConnId) :
    (state.conn id).phase.stage < 2 ∨ (state.conn id).phase = .finished := by
  obtain ⟨error, returned⟩ := rests_serve draining rests
  have idle : ∀ action, handle state.store (state.conn id) action = none := by
    intro action
    exact Option.map_eq_none_iff.mp (rests (.handle id action) rfl)
  have refused : ∀ {guard : Prop} [Decidable guard] {result}, (action : Action) →
      handle state.store (state.conn id) action = allow guard result → ¬ guard := by
    intro guard _ result action handles enabled
    rw [idle action, allow, if_pos enabled] at handles
    cases handles
  cases phase : (state.conn id).phase with
  | absent | held | refused => exact .inl (by decide)
  | admitted => exact absurd ((draining.placed.admitted id).mpr phase) (by simp [returned])
  | scanning =>
    cases scan : (state.conn id).scanner.scan with
    | token line rest =>
      have delivers := idle (.deliver line)
      simp [handle, scan, allow, phase] at delivers
    | read => exact absurd ⟨phase, scan⟩ (refused .readEnd rfl)
    | stop => exact absurd ⟨phase, scan⟩ (refused .leave rfl)
  | scanned line => exact absurd ⟨phase, rfl⟩ (refused (.process line _) rfl)
  | replying reply => exact absurd ⟨phase, by simp⟩ (refused (.write reply false) rfl)
  | leaving => exact absurd ⟨phase, draining.unlocked⟩ (rests.refused (.unregister id) rfl rfl)
  | closing => exact absurd phase (rests.refused (.close id) rfl rfl)
  | exiting => exact absurd phase (rests.refused (.wgDone id) rfl rfl)
  | finished => exact .inr rfl

private theorem rests_shutdown (draining : Draining state) (empty : state.wg = 0) (rests : Rests step Event.own state) :
    ∃ result, state.shutdown = .returned result := by
  have released := draining.released
  cases shutdown : state.shutdown with
  | idle | locked | doneClosed | closing left => simp [shutdown, Shutdown.released] at released
  | unlocked => exact absurd shutdown (rests.refused .startDrain rfl rfl)
  | waiting =>
    cases drain : state.drain with
    | idle => exact absurd drain (draining.drainer shutdown)
    | waiting => exact absurd ⟨drain, empty⟩ (rests.refused .waitReturns rfl rfl)
    | passed => exact absurd drain (rests.refused .closeDrained rfl rfl)
    | closed => exact absurd ⟨shutdown, drain⟩ (rests.refused .shutdownNil rfl rfl)
  | returned result => exact ⟨result, rfl⟩

/-- A server that has nothing left to do is drained. -/
theorem rests_drained (ran : run step { store } events = some state) (unlocked : .unlock ∈ events)
    (rests : Rests step Event.own state) : Drained events state := by
  have draining := draining_run ran unlocked
  have sealed := sealed_run ran
  obtain ⟨error, served⟩ := rests_serve draining rests
  have finished : ∀ id, 2 ≤ state.stage id → state.stage id = 7 := by
    intro id admitted
    rcases rests_handler draining rests id with early | last
    · simp only [State.stage] at admitted
      omega
    · rw [State.stage, last]
      rfl
  have empty : state.wg = 0 := by
    rw [wg_running ran, Nat.cast_eq_zero, Finset.card_eq_zero, Finset.eq_empty_iff_forall_notMem]
    intro id running
    obtain ⟨admitted, live⟩ := (running_iff ran id).mp running
    have last := finished id admitted
    omega
  obtain ⟨result, returned⟩ := rests_shutdown draining empty rests
  refine ⟨⟨error, served⟩, fun id admitted => ?_, fun id accepted => ?_, ?_, ⟨result, returned⟩, fun patient => ?_⟩
  · exact (wgDone_iff ran id).mpr (finished id ((register_iff ran id).mp admitted)).ge
  · have reached := (accept_iff ran id).mp accepted
    by_cases admitted : 2 ≤ state.stage id
    · exact sealed.cleaned id (by rw [finished id admitted]; decide)
    · cases phase : (state.conn id).phase <;> simp only [State.stage, phase, Phase.stage] at reached admitted
      case held => exact absurd ((draining.placed.held id).mpr phase) (by simp [served])
      case refused => exact (sealed.refused id phase).resolve_left (by simp [served])
      all_goals omega
  · ext id
    simp only [conns_stage ran, Finset.notMem_empty, iff_false]
    rintro ⟨admitted, live⟩
    have last := finished id admitted
    omega
  · cases result with
    | none => exact returned
    | some error =>
      have ended := draining.gate.ended error returned
      rw [patient] at ended
      cases ended

/-- Once Shutdown has released the mutex the server drains by itself: a bounded
number of its own steps is left, whatever the clients do, and when none is left
everything has ended. Unless the context ends first, Shutdown then returns nil. -/
theorem shutdown_drains (ran : run step { store } events = some state) (unlocked : .unlock ∈ events) :
    (∀ later final, run step state later = some final →
      (later.filter Event.own).length ≤ 7 * state.running.card + 9 ∧
      (Rests step Event.own final → Drained (events ++ later) final)) ∧
    ∃ later final, (∀ event ∈ later, event.own = true) ∧ run step state later = some final ∧ Drained (events ++ later) final := by
  have drains : ∀ later final, run step state later = some final → Rests step Event.own final → Drained (events ++ later) final := by
    intro later final continued rests
    exact rests_drained (run_join ran continued) (List.mem_append_left _ unlocked) rests
  refine ⟨fun later final continued => ⟨?_, drains later final continued⟩, ?_⟩
  · have spent := (drain_falls store).exhausted ⟨events, ran, unlocked⟩ continued
    have bound := rank_bound state
    omega
  · obtain ⟨later, final, own, continued, rests⟩ := (drain_falls store).rests state ⟨events, ran, unlocked⟩
    exact ⟨later, final, own, continued, drains later final continued rests⟩

/-- The context ends by itself only. -/
theorem ctx_kept (continued : run step state later = some final) (patient : ∀ error, .ctxEnd error ∉ later) : final.ctx = state.ctx := by
  refine invariant (fun past current => past <+: later → current.ctx = state.ctx) (fun _ => rfl) ?_ continued (List.prefix_refl later)
  intro past before next after _ ih stepped inside
  have earlier := ih ((List.prefix_append past [next]).trans inside)
  rw [step_ctx stepped]
  cases next
  case ctxEnd error => exact absurd (inside.subset (by simp)) (patient error)
  all_goals exact earlier

/-- Shutdown has closed one connection and released the mutex. A handler has two
more lines buffered, another has been admitted and not started. -/
def swept : List Event := [.accept 0, .register 0, .spawn 0, .handle 0 (.read (text "SET a b\nGET a\n")),
  .handle 0 (.deliver (text "SET a b")), .accept 1, .register 1, .lock, .closeDone, .closeListener, .closeLive 1, .closeLive 0,
  .unlock]

theorem shutdown_drains_swept : ∃ ran : (run step {} swept).isSome, ∃ later final,
    run step ((run step {} swept).get ran) later = some final ∧ final.ctx = none ∧ final.shutdown = .returned none := by
  obtain ⟨ran, waits⟩ : ∃ ran : (run step {} swept).isSome, ((run step {} swept).get ran).ctx = none := ⟨by decide, by decide⟩
  refine ⟨ran, ?_⟩
  obtain ⟨_, later, final, own, continued, drained⟩ := shutdown_drains (Option.some_get ran).symm (by decide)
  have patient : final.ctx = none := by
    rw [ctx_kept continued fun error member => ?_]
    · exact waits
    · cases own _ member
  exact ⟨later, final, continued, patient, drained.patient patient⟩

end Runs

/-- What Shutdown does between taking the mutex and giving it back. -/
def Event.sweeps : Event → Bool
  | .closeDone | .closeListener | .closeLive _ | .unlock => true
  | _ => false

/-- Steps left to Shutdown until it gives the mutex back. -/
def State.sweep (state : State) : Nat :=
  match state.shutdown with
  | .locked => state.conns.card + 3
  | .doneClosed => state.conns.card + 2
  | .closing left => left.card + 1
  | _ => 0

section Sweep
variable {before after state final : State} {event : Event} {later : List Event}

theorem sweep_step (held : before.shutdown.holdsLock = true) (stepped : step before event = some after) :
    (event = .unlock ∨ after.shutdown.holdsLock = true) ∧ after.conns = before.conns ∧
      after.sweep + (if event.sweeps then 1 else 0) = before.sweep := by
  cases event
  case handle id action => obtain ⟨_, _, _, rfl⟩ := step_handle stepped; exact ⟨.inr held, rfl, rfl⟩
  case register id | unregister id | refuse id =>
    obtain ⟨guard, _⟩ := (allow_eq_some ..).mp stepped
    simp [held] at guard
  case lock | startDrain | shutdownNil | shutdownErr =>
    obtain ⟨guard, _⟩ := (allow_eq_some ..).mp stepped
    simp [guard, Shutdown.holdsLock] at held
  case closeDone | closeListener | unlock =>
    obtain ⟨guard, rfl⟩ := (allow_eq_some ..).mp stepped
    simp [State.sweep, guard, Event.sweeps, Shutdown.holdsLock]
  case closeLive id =>
    obtain ⟨member, rfl⟩ := (allow_eq_some ..).mp stepped
    obtain ⟨left, closing⟩ := Shutdown.left_closing member
    rw [closing] at member
    have removed := Finset.card_erase_add_one (s := left) member
    simp only [State.sweep, closing, Shutdown.left, Event.sweeps, Shutdown.holdsLock, if_true]
    exact ⟨.inr trivial, rfl, by omega⟩
  all_goals
    obtain ⟨_, rfl⟩ := (allow_eq_some ..).mp stepped
    exact ⟨.inr held, rfl, rfl⟩

theorem sweep_enabled (held : state.shutdown.holdsLock = true) :
    ∃ event next, event.sweeps = true ∧ step state event = some next := by
  cases shutdown : state.shutdown with
  | idle | unlocked | waiting | returned _ => simp [shutdown, Shutdown.holdsLock] at held
  | locked => exact ⟨.closeDone, _, rfl, if_pos shutdown⟩
  | doneClosed => exact ⟨.closeListener, _, rfl, if_pos shutdown⟩
  | closing left =>
    by_cases empty : left = ∅
    · exact ⟨.unlock, _, rfl, if_pos (by rw [shutdown, empty])⟩
    · obtain ⟨id, member⟩ := Finset.nonempty_iff_ne_empty.mpr empty
      exact ⟨.closeLive id, _, rfl, if_pos (by simpa [shutdown, Shutdown.left] using member)⟩

/-- While Shutdown holds the mutex the set of live connections stands still, and
Shutdown can always go on: whatever the others do, the steps left until it gives the
mutex back are as many as it takes to close them, and only its own steps change that. -/
theorem shutdown_releases (held : state.shutdown.holdsLock = true) (continued : run step state later = some final)
    (locked : .unlock ∉ later) :
    final.conns = state.conns ∧ (later.filter Event.sweeps).length + final.sweep = state.sweep ∧
      ∃ event next, event.sweeps = true ∧ step final event = some next := by
  have whole := invariant (fun past current => .unlock ∉ past → current.shutdown.holdsLock = true ∧ current.conns = state.conns ∧
    (past.filter Event.sweeps).length + current.sweep = state.sweep) (fun _ => ⟨held, rfl, by simp⟩) ?_ continued
  · obtain ⟨still, same, count⟩ := whole locked
    exact ⟨same, count, sweep_enabled still⟩
  intro past before event after _ ih stepped locked
  rw [List.mem_append, List.mem_singleton, not_or] at locked
  obtain ⟨still, same, count⟩ := ih locked.1
  obtain ⟨released | kept, conns, left⟩ := sweep_step still stepped
  · exact absurd released.symm locked.2
  · refine ⟨kept, conns.trans same, ?_⟩
    rw [List.filter_append, List.length_append]
    cases mine : event.sweeps <;> simp only [mine, if_true, Bool.false_eq_true, if_false, List.filter_cons, List.filter_nil,
      List.length_singleton, List.length_nil] at left ⊢ <;> omega

/-- Two connections are live when Shutdown takes the mutex; five steps give it back. -/
def seized : List Event := [.accept 0, .register 0, .spawn 0, .accept 1, .register 1, .lock]

theorem shutdown_releases_two : ∃ ran : (run step {} seized).isSome, ((run step {} seized).get ran).sweep = 5 ∧
    ∀ later final, run step ((run step {} seized).get ran) later = some final → .unlock ∉ later →
      (later.filter Event.sweeps).length + final.sweep = 5 := by
  obtain ⟨ran, held, five⟩ : ∃ ran : (run step {} seized).isSome, ((run step {} seized).get ran).shutdown.holdsLock = true ∧
      ((run step {} seized).get ran).sweep = 5 := ⟨by decide, by decide, by decide⟩
  exact ⟨ran, five, fun later final continued locked => (shutdown_releases held continued locked).2.1.trans five⟩

end Sweep

end Kvasir.Server
