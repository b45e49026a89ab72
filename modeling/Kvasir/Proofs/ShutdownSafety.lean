import Kvasir.Proofs.ServerShutdown

/-! The shutdown gate and what a nil result of Shutdown promises, for every
interleaving of the accept loop, the handlers and the one call of Shutdown. -/

namespace Kvasir.Server
open Runs

def Serve.unadmitted : Serve → Option ConnId
  | .holding id | .refusing id => some id
  | _ => none

/-- Admission, cleanup and Shutdown in a state reached by the events. A handler
leaves the live set before it closes its connection, outside the lock, so one
in between is neither live nor closed. -/
structure Gated (events : List Event) (state : State) : Prop where
  count : state.wg = ({id | .register id ∈ events ∧ .wgDone id ∉ events} : Set ConnId).ncard
  live : ∀ id, id ∈ state.conns ↔ .register id ∈ events ∧ .unregister id ∉ events
  shut : ∀ past future, events = past ++ future → .closeDone ∈ past → ∀ id, .register id ∉ future
  closed : .unlock ∈ events → ∀ id, .accept id ∈ events → (state.conn id).closed = true ∨
    state.serve.unadmitted = some id ∨ .unregister id ∈ events ∧ (state.conn id).phase = .closing
  unserved : .unlock ∈ events → ∀ id, state.serve.unadmitted = some id →
    ∀ later final, run step state later = some final → .register id ∉ later ∧ ∀ action, .handle id action ∉ later
  expected : state.serve ≠ .returned (some .closed)

section Runs
variable {store : MemoryStore} {events later : List Event} {state final : State}

/-- Once admission is over, only a handler that was already running can step. -/
theorem handle_running (ran : run step { store } events = some state) (done : state.done = true)
    (continued : run step state later = some final) {id : ConnId} {action : Action} (member : .handle id action ∈ later) :
    .register id ∈ events ∧ .wgDone id ∉ events := by
  obtain ⟨past, future, rfl⟩ := List.append_of_mem member
  obtain ⟨before, after, arrived, stepped, _⟩ := run_at continued
  obtain ⟨_, _, handled, _⟩ := step_handle stepped
  have looping : before.stage id = 3 := (handle_stage handled).1
  have whole := run_join ran arrived
  have admitted := (register_iff whole id).mpr (by omega)
  have staying := mt (wgDone_iff whole id).mp (by omega)
  rw [List.mem_append] at admitted staying
  exact ⟨admitted.resolve_right ((stopped_admits_none done arrived).2 id), fun finished => staying (.inl finished)⟩

theorem store_unchanged (idle : ∀ id action, .handle id action ∉ later) (continued : run step state later = some final) :
    final.store = state.store :=
  view_kept id (fun id _ _ inside => absurd inside (idle id _)) continued

/-- The state of the gate in every reachable state. -/
theorem shutdown_gate (ran : run step { store } events = some state) : Gated events state := by
  have placed := placed_run ran
  have sealed := sealed_run ran
  refine ⟨?_, fun id => ?_, ?_, fun unlocked id accepted => ?_, fun unlocked id held later final continued => ?_,
    (gate_run ran).returned⟩
  · rw [wg_running ran, ← Set.ncard_coe_finset]
    congr 2
    ext id
    simp only [Finset.mem_coe, running_iff ran, Set.mem_ofPred_eq, register_iff ran, wgDone_iff ran, not_le]
  · rw [conns_stage ran, register_iff ran, unregister_iff ran, not_le]
  · rintro past future rfl closed id
    obtain ⟨middle, first, last⟩ := run_split ran
    exact (stopped_admits_none (closeDone_stopped first closed) last).2 id
  · have ⟨swept, empty⟩ := Shutdown.released_swept (unlock_released ran unlocked)
    have reached := (accept_iff ran id).mp accepted
    by_cases early : state.stage id = 1
    · cases phase : (state.conn id).phase <;> simp only [State.stage, phase, Phase.stage, reduceCtorEq] at early
      case held => exact .inr (.inl (by rw [(placed.held id).mpr phase]; rfl))
      case refused =>
        rcases sealed.refused id phase with refusing | closed
        · exact .inr (.inl (by rw [refusing]; rfl))
        · exact .inl closed
      all_goals omega
    by_cases live : state.stage id < 5
    · have member := (conns_stage ran id).mpr ⟨by omega, live⟩
      have closed := (sealed.live swept id member).resolve_left (by simp [empty])
      exact .inl closed
    by_cases closing : state.stage id = 5
    · right; right
      refine ⟨(unregister_iff ran id).mpr (by omega), ?_⟩
      cases phase : (state.conn id).phase <;> simp_all [State.stage, Phase.stage]
    · exact .inl (sealed.cleaned id (by omega))
  · have done : state.done = true := (gate_run ran).done.trans
      (Shutdown.swept_stopped (Shutdown.released_swept (unlock_released ran unlocked)).1)
    have early : state.stage id = 1 := by
      cases serve : state.serve <;> simp only [serve, Serve.unadmitted, Option.some.injEq, reduceCtorEq] at held
      · subst held
        rw [State.stage, (placed.held _).mp serve]
        rfl
      · subst held
        rw [State.stage, placed.refused _ serve]
        rfl
    refine ⟨(stopped_admits_none done continued).2 id, fun action member => ?_⟩
    have admitted := (register_iff ran id).mp (handle_running ran done continued member).1
    omega

/-- One connection ended before Shutdown, one is closed by it, one is refused. -/
def threeConnections : List Event := [.accept 0, .register 0, .spawn 0, .accept 1, .register 1, .gone 0, .handle 0 .readEnd,
  .handle 0 .leave, .unregister 0, .close 0, .wgDone 0, .spawn 1, .accept 2, .lock, .closeDone, .closeListener,
  .closeLive 1, .unlock, .refuse 2]

theorem shutdown_gate_three : ∃ ran : (run step {} threeConnections).isSome,
    Gated threeConnections ((run step {} threeConnections).get ran) :=
  ⟨by decide, shutdown_gate (Option.some_get _).symm⟩

/-- A handler that removed its connection and has not closed it yet when
Shutdown releases the mutex. -/
theorem cleanup_closes_late : ¬ ∀ events state, run step {} events = some state → .unlock ∈ events →
    ∀ id, .accept id ∈ events → (state.conn id).closed = true ∨ state.serve.unadmitted = some id := by
  intro claimed
  let events : List Event := [.accept 0, .register 0, .spawn 0, .handle 0 .readEnd, .handle 0 .leave, .unregister 0,
    .lock, .closeDone, .closeListener, .unlock]
  have claim := claimed events _ rfl (by decide) 0 (by decide)
  revert claim
  decide

/-- A nil result means that every handler is gone for good; the context's error
is returned only when the context has ended. -/
theorem nil_means_quiescence (ran : run step { store } events = some state) :
    (state.shutdown = .returned none →
      (∀ id, .register id ∈ events → .wgDone id ∈ events ∧ (state.conn id).closed = true) ∧ state.conns = ∅ ∧
      ∀ later final, run step state later = some final →
        final.store = state.store ∧ ∀ id action, .handle id action ∉ later) ∧
    ∀ error, state.shutdown = .returned (some error) → .ctxEnd error ∈ events := by
  have gate := gate_run ran
  refine ⟨fun returned => ?_, fun error returned => ?_⟩
  · have done : state.done = true := by rw [gate.done, returned]; rfl
    have empty : state.running = ∅ := by
      have count := wg_running ran
      rw [drained_wg ran (.inr (gate.drained returned))] at count
      exact Finset.card_eq_zero.mp (by omega)
    have finished : ∀ id, .register id ∈ events → .wgDone id ∈ events := by
      intro id admitted
      rw [register_iff ran] at admitted
      rw [wgDone_iff ran]
      by_contra running
      have member := (running_iff ran id).mpr ⟨admitted, by omega⟩
      simp [empty] at member
    refine ⟨fun id admitted => ⟨finished id admitted, ?_⟩, ?_, fun later final continued => ?_⟩
    · have late := (wgDone_iff ran id).mp (finished id admitted)
      exact (sealed_run ran).cleaned id (by omega)
    · ext id
      simp only [conns_stage ran, Finset.notMem_empty, iff_false]
      rintro ⟨low, high⟩
      have late := (wgDone_iff ran id).mp (finished id ((register_iff ran id).mpr low))
      omega
    · have idle : ∀ id action, .handle id action ∉ later := by
        intro id action member
        obtain ⟨admitted, running⟩ := handle_running ran done continued member
        exact running (finished id admitted)
      exact ⟨store_unchanged idle continued, idle⟩
  · have ended := gate.ended error returned
    clear returned gate
    revert ended
    refine invariant (fun past state => state.ctx = some error → .ctxEnd error ∈ past) (by simp) ?_ ran
    intro past before next after _ ih stepped ended
    rw [step_ctx stepped] at ended
    rw [List.mem_append]
    cases next
    case ctxEnd other => cases ended; exact .inr (by simp)
    all_goals exact .inl (ih ended)

/-- Shutdown returns nil after a handler was cut off between its command and the
reply, while Serve still holds a connection nobody will serve. -/
def cutOff : List Event := [.accept 0, .register 0, .spawn 0, .accept 1, .handle 0 (.read (text "SET a b\n")),
  .handle 0 (.deliver (text "SET a b")), .lock, .closeDone, .closeListener, .closeLive 0, .unlock, .startDrain,
  .handle 0 (.process (text "SET a b") (text "OK\n")), .handle 0 (.write (text "OK\n") false), .unregister 0, .close 0,
  .wgDone 0, .waitReturns, .closeDrained, .shutdownNil]

theorem nil_means_quiescence_held : ∃ ran : (run step {} cutOff).isSome, ((run step {} cutOff).get ran).conns = ∅ :=
  ⟨by decide, ((nil_means_quiescence (Option.some_get _).symm).1 (by decide)).2.1⟩

end Runs

end Kvasir.Server
