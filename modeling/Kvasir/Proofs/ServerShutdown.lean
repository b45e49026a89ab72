import Kvasir.Proofs.ServerGate

/-! What Shutdown's progress guarantees. Its lock keeps admission and cleanup
out while it closes the live connections; afterwards the done channel does. -/

namespace Kvasir.Server
open Runs

def Shutdown.stopped : Shutdown → Bool
  | .idle | .locked => false
  | _ => true

/-- The listener has been closed, and the loop over the live connections begun. -/
def Shutdown.swept : Shutdown → Bool
  | .idle | .locked | .doneClosed => false
  | _ => true

def Shutdown.released : Shutdown → Bool
  | .unlocked | .waiting | .returned _ => true
  | _ => false

@[grind →] theorem Shutdown.swept_stopped {shutdown : Shutdown} (swept : shutdown.swept = true) :
    shutdown.stopped = true := by
  cases shutdown <;> simp_all [Shutdown.swept, stopped]

@[grind →] theorem Shutdown.released_swept {shutdown : Shutdown} (released : shutdown.released = true) :
    shutdown.swept = true ∧ shutdown.left = ∅ := by
  cases shutdown <;> simp_all [Shutdown.released, swept, left]

theorem Shutdown.left_closing {shutdown : Shutdown} {id : ConnId} (member : id ∈ shutdown.left) :
    ∃ left, shutdown = .closing left := by
  cases shutdown <;> simp_all [left]

/-- What the accept loop, Shutdown and the drain goroutine know of each other. -/
structure Gate (state : State) : Prop where
  done : state.done = state.shutdown.stopped
  listening : state.listening = !state.shutdown.swept
  failed : state.serve = .failed .closed → state.shutdown.swept = true
  returned : state.serve ≠ .returned (some .closed)
  draining : state.drain ≠ .idle → state.shutdown.released = true
  drained : state.shutdown = .returned none → state.drain = .closed
  ended : ∀ error, state.shutdown = .returned (some error) → state.ctx = some error

theorem Gate.initial (store : MemoryStore) : Gate { store } :=
  ⟨rfl, rfl, by simp, by simp, by simp, by simp, by simp⟩

section Step
variable {before after : State} {event : Event}

theorem Gate.step (gate : Gate before) (stepped : step before event = some after) : Gate after := by
  obtain ⟨done, listening, failed, returned, draining, drained, ended⟩ := gate
  cases event
  case handle id action =>
    obtain ⟨_, _, _, rfl⟩ := step_handle stepped
    exact ⟨done, listening, failed, returned, draining, drained, ended⟩
  case register _ | refuse _ | closeRefused _ | spawn _ | accept _ | acceptFail _ | serveReturn _ =>
    obtain ⟨guard, rfl⟩ := (allow_eq_some ..).mp stepped
    refine ⟨done, listening, ?_, ?_, draining, drained, ended⟩ <;> grind [Shutdown.swept, Shutdown.stopped]
  case closeLive id =>
    obtain ⟨member, rfl⟩ := (allow_eq_some ..).mp stepped
    obtain ⟨left, closing⟩ := Shutdown.left_closing member
    simp only [closing, Shutdown.stopped, Shutdown.swept, Shutdown.released] at done listening draining
    exact ⟨done, listening, fun _ => rfl, returned, draining, by simp, by simp⟩
  case lock | closeDone | closeListener | unlock | startDrain | shutdownNil | shutdownErr =>
    obtain ⟨guard, rfl⟩ := (allow_eq_some ..).mp stepped
    constructor <;> grind [Shutdown.swept, Shutdown.stopped, Shutdown.released, Shutdown.left]
  case waitReturns | closeDrained | ctxEnd _ =>
    obtain ⟨guard, rfl⟩ := (allow_eq_some ..).mp stepped
    refine ⟨done, listening, failed, returned, ?_, ?_, ?_⟩ <;> grind
  all_goals
    obtain ⟨_, rfl⟩ := (allow_eq_some ..).mp stepped
    exact ⟨done, listening, failed, returned, draining, drained, ended⟩

end Step

/-- What is closed, and who is about to close what is not. -/
structure Sealed (state : State) : Prop where
  live : state.shutdown.swept = true → ∀ id ∈ state.conns, id ∈ state.shutdown.left ∨ (state.conn id).closed = true
  refused : ∀ id, (state.conn id).phase = .refused → state.serve = .refusing id ∨ (state.conn id).closed = true
  cleaned : ∀ id, 6 ≤ state.stage id → (state.conn id).closed = true

theorem Sealed.initial (store : MemoryStore) : Sealed { store } :=
  ⟨by simp [Shutdown.swept], by simp, by simp [State.stage, Phase.stage]⟩

private theorem Change.cleaned {store : MemoryStore} {id : ConnId} {event : Event} {before after : Conn}
    (change : Change store id event before after) (late : 6 ≤ after.phase.stage) :
    6 ≤ before.phase.stage ∨ after.closed = true := by
  cases change with
  | handle handled =>
    obtain ⟨_, last | last⟩ := handle_stage handled
    · omega
    · simp [last, Phase.stage] at late
  | wgDone phase => exact .inl (by simp [phase, Phase.stage])
  | accept _ | register _ | refuse _ | spawn _ | unregister _ => simp [Phase.stage] at late
  | closeRefused _ | close _ | closeLive => exact .inr rfl
  | gone | other => exact .inl late

private theorem Change.refused {store : MemoryStore} {id : ConnId} {event : Event} {before after : Conn}
    (change : Change store id event before after) (phase : after.phase = .refused) :
    before.phase = .refused ∨ event = .refuse id := by
  cases change with
  | handle handled =>
    obtain ⟨_, last | last⟩ := handle_stage handled
    · simp [phase, Phase.stage] at last
    · cases phase.symm.trans last
  | refuse _ => exact .inr rfl
  | closeRefused before => exact .inl before
  | closeLive | gone | other => exact .inl phase
  | accept _ | register _ | spawn _ | unregister _ | close _ | wgDone _ => cases phase

section Step
variable {before after : State} {event : Event}

private theorem refusing_step {id : ConnId} (refusing : before.serve = .refusing id)
    (stepped : step before event = some after) : after.serve = .refusing id ∨ event = .closeRefused id := by
  cases event
  case handle _ _ => obtain ⟨_, _, _, rfl⟩ := step_handle stepped; exact .inl refusing
  case accept _ | acceptFail _ | serveReturn _ | register _ | refuse _ | closeRefused _ | spawn _ =>
    obtain ⟨guard, rfl⟩ := (allow_eq_some ..).mp stepped
    simp_all
  all_goals
    obtain ⟨_, rfl⟩ := (allow_eq_some ..).mp stepped
    exact .inl refusing

private theorem Sealed.keep_live (gated : Gate before) (held : Sealed before) (placed : Placed before)
    (stepped : step before event = some after) (swept : after.shutdown.swept = true) :
    ∀ id ∈ after.conns, id ∈ after.shutdown.left ∨ (after.conn id).closed = true := by
  intro id member
  have closes := (step_conn placed stepped id).socket.1
  have live := held.live
  rw [step_conns stepped] at member
  cases event
  case handle other action =>
    obtain ⟨_, _, _, rfl⟩ := step_handle stepped
    exact (live swept id member).imp_right closes
  case register other =>
    obtain ⟨guard, rfl⟩ := (allow_eq_some ..).mp stepped
    have stopped := Shutdown.swept_stopped swept
    have open' : before.done = false := guard.2.2
    rw [gated.done] at open'
    exact (Bool.false_ne_true (open'.symm.trans stopped)).elim
  case closeListener =>
    obtain ⟨guard, rfl⟩ := (allow_eq_some ..).mp stepped
    exact .inl member
  case closeLive other =>
    obtain ⟨inside, rfl⟩ := (allow_eq_some ..).mp stepped
    obtain ⟨left, closing⟩ := Shutdown.left_closing inside
    rcases live (by rw [closing]; rfl) id member with waiting | closed
    · by_cases same : id = other
      · right; simp [same]
      · left; exact Finset.mem_erase.mpr ⟨same, waiting⟩
    · exact .inr (closes closed)
  case unregister other =>
    obtain ⟨guard, rfl⟩ := (allow_eq_some ..).mp stepped
    exact (live swept id (Finset.mem_of_mem_erase member)).imp_right closes
  case unlock =>
    obtain ⟨guard, rfl⟩ := (allow_eq_some ..).mp stepped
    exact (live (by rw [guard]; rfl) id member).imp (by simp [guard, Shutdown.left]) closes
  case startDrain =>
    obtain ⟨guard, rfl⟩ := (allow_eq_some ..).mp stepped
    exact (live (by rw [guard]; rfl) id member).imp (by simp [guard, Shutdown.left]) closes
  case shutdownNil | shutdownErr =>
    obtain ⟨⟨guard, _⟩, rfl⟩ := (allow_eq_some ..).mp stepped
    exact (live (by rw [guard]; rfl) id member).imp (by simp [guard, Shutdown.left]) closes
  case lock | closeDone =>
    obtain ⟨guard, rfl⟩ := (allow_eq_some ..).mp stepped
    cases swept
  all_goals
    obtain ⟨_, rfl⟩ := (allow_eq_some ..).mp stepped
    exact (live swept id member).imp_right closes

private theorem Sealed.keep_refused (held : Sealed before) (placed : Placed before)
    (stepped : step before event = some after) (id : ConnId) (phase : (after.conn id).phase = .refused) :
    after.serve = .refusing id ∨ (after.conn id).closed = true := by
  have change := step_conn placed stepped id
  rcases change.refused phase with earlier | rfl
  · rcases held.refused id earlier with refusing | closed
    · rcases refusing_step refusing stepped with same | rfl
      · exact .inl same
      · obtain ⟨_, rfl⟩ := (allow_eq_some ..).mp stepped
        simp
    · exact .inr (change.socket.1 closed)
  · obtain ⟨_, rfl⟩ := (allow_eq_some ..).mp stepped
    exact .inl rfl

theorem Sealed.step (gated : Gate before) (held : Sealed before) (placed : Placed before)
    (stepped : step before event = some after) : Sealed after := by
  refine ⟨held.keep_live gated placed stepped, fun id => held.keep_refused placed stepped id, fun id late => ?_⟩
  have change := step_conn placed stepped id
  exact (change.cleaned late).elim (fun earlier => change.socket.1 (held.cleaned id earlier)) fun closed => closed

end Step

section Runs
variable {store : MemoryStore} {events : List Event} {state : State}

theorem gate_run (ran : run step { store } events = some state) : Gate state :=
  invariant (fun _ => Gate) (Gate.initial store) (fun _ _ _ _ _ gate stepped => gate.step stepped) ran

theorem sealed_run (ran : run step { store } events = some state) : Sealed state :=
  invariant (fun _ => Sealed) (Sealed.initial store)
    (fun _ _ _ _ earlier held stepped => held.step (gate_run earlier) (placed_run earlier) stepped) ran

private theorem done_step {before after : State} {event : Event} (done : before.done = true)
    (stepped : step before event = some after) : after.done = true := by
  rw [step_done stepped]
  cases event <;> first | exact done | rfl

/-- The done channel, once closed, refuses every later admission. -/
theorem stopped_admits_none (stopped : state.done = true) {later : List Event} {final : State}
    (ran : run step state later = some final) : final.done = true ∧ ∀ id, .register id ∉ later := by
  refine invariant (fun past state => state.done = true ∧ ∀ id, .register id ∉ past) ⟨stopped, by simp⟩ ?_ ran
  intro past before next after _ ⟨done, noAdmit⟩ stepped
  constructor
  · exact done_step done stepped
  · intro id member
    rcases List.mem_append.mp member with earlier | last
    · exact noAdmit id earlier
    · obtain rfl := (List.mem_singleton.mp last).symm
      obtain ⟨guard, _⟩ := (allow_eq_some ..).mp stepped
      simp [done] at guard

theorem closeDone_stopped (ran : run step { store } events = some state) (closed : .closeDone ∈ events) :
    state.done = true := by
  refine since (fun state => state.done = true) ?_ (fun _ _ _ done stepped => done_step done stepped) ran closed
  intro before after stepped
  rw [step_done stepped]

private theorem released_step {before after : State} {event : Event} (released : before.shutdown.released = true)
    (stepped : step before event = some after) : after.shutdown.released = true := by
  cases event
  case handle _ _ => obtain ⟨_, _, _, rfl⟩ := step_handle stepped; exact released
  case closeLive id =>
    obtain ⟨member, _⟩ := (allow_eq_some ..).mp stepped
    obtain ⟨left, closing⟩ := Shutdown.left_closing member
    simp [closing, Shutdown.released] at released
  case lock | closeDone | closeListener | unlock | startDrain | shutdownNil | shutdownErr =>
    obtain ⟨guard, rfl⟩ := (allow_eq_some ..).mp stepped
    simp_all [Shutdown.released]
  all_goals
    obtain ⟨_, rfl⟩ := (allow_eq_some ..).mp stepped
    exact released

theorem unlock_released (ran : run step { store } events = some state) (unlocked : .unlock ∈ events) :
    state.shutdown.released = true := by
  refine since (fun state => state.shutdown.released = true) ?_
    (fun _ _ _ released stepped => released_step released stepped) ran unlocked
  intro before after stepped
  obtain ⟨_, rfl⟩ := (allow_eq_some ..).mp stepped
  rfl

/-- Once the drain goroutine has seen the group empty, it stays empty: nothing
is admitted any more, and no handler is left to leave. -/
theorem drained_wg (ran : run step { store } events = some state) (drained : state.drain = .passed ∨ state.drain = .closed) :
    state.wg = 0 := by
  revert drained
  refine invariant (fun _ state => state.drain = .passed ∨ state.drain = .closed → state.wg = 0) (by simp) ?_ ran
  intro past before next after earlier ih stepped drained
  rw [step_wg stepped]
  cases next
  case register id =>
    obtain ⟨guard, rfl⟩ := (allow_eq_some ..).mp stepped
    have gate := gate_run earlier
    change before.drain = .passed ∨ before.drain = .closed at drained
    have released := gate.draining (by rcases drained with drained | drained <;> simp [drained])
    have stopped := gate.done.trans (Shutdown.swept_stopped (Shutdown.released_swept released).1)
    exact (Bool.false_ne_true (guard.2.2.symm.trans stopped)).elim
  case wgDone id =>
    obtain ⟨exiting, rfl⟩ := (allow_eq_some ..).mp stepped
    have empty := ih drained
    rw [wg_running earlier] at empty
    have inside : id ∈ before.running := (running_iff earlier id).mpr (by simp [State.stage, exiting, Phase.stage])
    have positive := Finset.card_pos.mpr ⟨id, inside⟩
    omega
  case handle id action =>
    obtain ⟨_, _, _, rfl⟩ := step_handle stepped
    exact ih drained
  case waitReturns =>
    obtain ⟨guard, rfl⟩ := (allow_eq_some ..).mp stepped
    exact guard.2
  case closeDrained =>
    obtain ⟨guard, rfl⟩ := (allow_eq_some ..).mp stepped
    exact ih (.inl guard)
  case startDrain =>
    obtain ⟨_, rfl⟩ := (allow_eq_some ..).mp stepped
    simp at drained
  all_goals
    obtain ⟨_, rfl⟩ := (allow_eq_some ..).mp stepped
    exact ih drained

end Runs

end Kvasir.Server
