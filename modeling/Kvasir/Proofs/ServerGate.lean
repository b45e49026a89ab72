import Kvasir.Proofs.ServerSteps
import Mathlib.Data.Set.Card

/-! The bookkeeping of admission and cleanup. A connection passes its stages in
order, each by one event; the set of live connections and the WaitGroup count
follow the stages, so they can be read off the events of any run. -/

namespace Kvasir.Server
open Runs

def Event.mark? : Event → Option (ConnId × Nat)
  | .accept id => some (id, 1)
  | .register id => some (id, 2)
  | .unregister id => some (id, 5)
  | .close id => some (id, 6)
  | .wgDone id => some (id, 7)
  | _ => none

theorem mark_cases {event : Event} {id : ConnId} {stage : Nat} (marks : event.mark? = some (id, stage)) :
    event = .accept id ∧ stage = 1 ∨ event = .register id ∧ stage = 2 ∨ event = .unregister id ∧ stage = 5 ∨
      event = .close id ∧ stage = 6 ∨ event = .wgDone id ∧ stage = 7 := by
  cases event <;> simp_all [Event.mark?]

private theorem mark_injective {first last : Event} {mark : ConnId × Nat}
    (one : first.mark? = some mark) (other : last.mark? = some mark) : first = last := by
  obtain ⟨id, stage⟩ := mark
  rcases mark_cases one with ⟨rfl, rfl⟩ | ⟨rfl, rfl⟩ | ⟨rfl, rfl⟩ | ⟨rfl, rfl⟩ | ⟨rfl, rfl⟩ <;>
    simpa [eq_comm] using mark_cases other

private theorem mark_conn {event : Event} {id : ConnId} {stage : Nat} (marks : event.mark? = some (id, stage)) :
    event.conn? = some id := by
  cases event <;> simp_all [Event.mark?, Event.conn?]

theorem Change.stage {store : MemoryStore} {id : ConnId} {event : Event} {before after : Conn}
    (change : Change store id event before after) :
    (∃ stage, event.mark? = some (id, stage) ∧ before.phase.stage + 1 = stage ∧ after.phase.stage = stage) ∨
    (∀ stage, event.mark? ≠ some (id, stage)) ∧
      (after.phase.stage = before.phase.stage ∨ before.phase.stage = 2 ∧ after.phase.stage = 3 ∨
        before.phase.stage = 3 ∧ after.phase.stage = 4) := by
  cases change with
  | accept phase | register phase | unregister phase | close phase | wgDone phase =>
    exact .inl ⟨_, rfl, by simp [phase, Phase.stage]⟩
  | refuse phase | closeRefused phase | spawn phase =>
    exact .inr ⟨by simp [Event.mark?], by simp [phase, Phase.stage]⟩
  | handle handled =>
    obtain ⟨first, last | last⟩ := handle_stage handled
    · exact .inr ⟨by simp [Event.mark?], .inl (last.trans first.symm)⟩
    · exact .inr ⟨by simp [Event.mark?], .inr (.inr ⟨first, by rw [last]; rfl⟩)⟩
  | closeLive | gone => exact .inr ⟨by simp [Event.mark?], .inl rfl⟩
  | other apart => exact .inr ⟨fun stage marks => apart (mark_conn marks), .inl rfl⟩

private theorem mark_stage {event : Event} {id : ConnId} {stage : Nat} (marks : event.mark? = some (id, stage)) :
    stage ≠ 0 ∧ stage ≠ 3 ∧ stage ≠ 4 := by
  rcases mark_cases marks with ⟨_, rfl⟩ | ⟨_, rfl⟩ | ⟨_, rfl⟩ | ⟨_, rfl⟩ | ⟨_, rfl⟩ <;> decide

section Runs
variable {store : MemoryStore} {events : List Event} {state : State}

/-- A connection has reached a stage exactly when the event that marks it happened. -/
theorem mark_reached (ran : run step { store } events = some state) {event : Event} {id : ConnId} {stage : Nat}
    (marks : event.mark? = some (id, stage)) : event ∈ events ↔ stage ≤ state.stage id := by
  have ⟨positive, no3, no4⟩ := mark_stage marks
  refine invariant (fun past state => event ∈ past ↔ stage ≤ state.stage id) ?_ ?_ ran
  · simpa [State.stage, Phase.stage] using positive
  · intro past before next after earlier ih stepped
    rw [List.mem_append, ih, List.mem_singleton]
    rcases (step_conn (placed_run earlier) stepped id).stage with ⟨reached, crossed, first, last⟩ | ⟨quiet, moves⟩
    · simp only [State.stage] at first last ⊢
      by_cases same : event = next
      · subst same
        obtain rfl : stage = reached := by simpa [marks] using crossed
        simp [last]
      · have different : stage ≠ reached := fun equal => same (mark_injective marks (equal ▸ crossed))
        simp only [same, or_false]
        omega
    · have different : event ≠ next := fun same => quiet stage (same ▸ marks)
      simp only [different, or_false, State.stage]
      omega

theorem accept_iff (ran : run step { store } events = some state) (id : ConnId) :
    .accept id ∈ events ↔ 1 ≤ state.stage id := mark_reached ran rfl

theorem register_iff (ran : run step { store } events = some state) (id : ConnId) :
    .register id ∈ events ↔ 2 ≤ state.stage id := mark_reached ran rfl

theorem unregister_iff (ran : run step { store } events = some state) (id : ConnId) :
    .unregister id ∈ events ↔ 5 ≤ state.stage id := mark_reached ran rfl

theorem wgDone_iff (ran : run step { store } events = some state) (id : ConnId) :
    .wgDone id ∈ events ↔ 7 ≤ state.stage id := mark_reached ran rfl

/-- The event that marks a stage happens in the stage before. -/
private theorem mark_before {past : List Event} {before after : State} {next : Event} {id : ConnId} {stage : Nat}
    (earlier : run step { store } past = some before) (stepped : step before next = some after)
    (marks : next.mark? = some (id, stage)) : before.stage id + 1 = stage := by
  rcases (step_conn (placed_run earlier) stepped id).stage with ⟨reached, crossed, first, _⟩ | ⟨quiet, _⟩
  · obtain rfl : stage = reached := by simpa [marks] using crossed
    exact first
  · exact absurd marks (quiet stage)

/-- A step enters a window of stages by the event that marks its start, and
leaves it by the event that marks its end. -/
private theorem window_step {past : List Event} {before after : State} {next enter leave : Event} {id : ConnId} {low high : Nat}
    (earlier : run step { store } past = some before) (stepped : step before next = some after)
    (enters : enter.mark? = some (id, low)) (leaves : leave.mark? = some (id, high)) (ordered : low < high) :
    low ≤ after.stage id ∧ after.stage id < high ↔
      next = enter ∨ (low ≤ before.stage id ∧ before.stage id < high) ∧ next ≠ leave := by
  have ⟨_, _, _⟩ := mark_stage enters
  have ⟨_, _, _⟩ := mark_stage leaves
  have same_mark : ∀ {event : Event} {reached stage : Nat}, next.mark? = some (id, reached) →
      event.mark? = some (id, stage) → (next = event ↔ reached = stage) := by
    intro event reached stage crossed marks
    exact ⟨fun same => by simpa [same, marks] using crossed.symm, fun same => mark_injective crossed (same ▸ marks)⟩
  rcases (step_conn (placed_run earlier) stepped id).stage with ⟨reached, crossed, first, last⟩ | ⟨quiet, moves⟩
  · rw [ne_eq, same_mark crossed enters, same_mark crossed leaves]
    simp only [State.stage]
    omega
  · have noEnter : next ≠ enter := fun same => quiet low (same ▸ enters)
    have noLeave : next ≠ leave := fun same => quiet high (same ▸ leaves)
    simp only [noEnter, noLeave, false_or, ne_eq, not_false_eq_true, and_true, State.stage]
    omega

theorem conns_stage (ran : run step { store } events = some state) (id : ConnId) :
    id ∈ state.conns ↔ 2 ≤ state.stage id ∧ state.stage id < 5 := by
  refine invariant (fun _ state => id ∈ state.conns ↔ 2 ≤ state.stage id ∧ state.stage id < 5) ?_ ?_ ran
  · simp [State.stage, Phase.stage]
  · intro past before next after earlier ih stepped
    have admits : Event.mark? (.register id) = some (id, 2) := rfl
    have leaves : Event.mark? (.unregister id) = some (id, 5) := rfl
    rw [window_step earlier stepped admits leaves (by decide), ← ih, step_conns stepped]
    cases next <;> grind

def State.running (state : State) : Finset ConnId :=
  state.accepted.filter fun id => 2 ≤ state.stage id ∧ state.stage id < 7

theorem running_iff (ran : run step { store } events = some state) (id : ConnId) :
    id ∈ state.running ↔ 2 ≤ state.stage id ∧ state.stage id < 7 := by
  have present : 2 ≤ state.stage id → id ∈ state.accepted := by
    intro admitted
    by_contra missing
    have phase := ((placed_run ran).absent id).mp missing
    simp [State.stage, phase, Phase.stage] at admitted
  simp only [State.running, Finset.mem_filter]
  exact ⟨fun member => member.2, fun bounds => ⟨present bounds.1, bounds⟩⟩

theorem wg_running (ran : run step { store } events = some state) : state.wg = (state.running.card : Int) := by
  have whole := invariant (fun past state => run step { store } past = some state ∧ state.wg = (state.running.card : Int))
    ⟨rfl, rfl⟩ ?_ ran
  · exact whole.2
  intro past before next after earlier ⟨_, ih⟩ stepped
  have later : run step { store } (past ++ [next]) = some after := run_snoc earlier stepped
  refine ⟨later, ?_⟩
  have members : ∀ id, id ∈ after.running ↔ next = .register id ∨ id ∈ before.running ∧ next ≠ .wgDone id := by
    intro id
    rw [running_iff earlier, running_iff later]
    have admits : Event.mark? (.register id) = some (id, 2) := rfl
    have leaves : Event.mark? (.wgDone id) = some (id, 7) := rfl
    exact window_step earlier stepped admits leaves (by decide)
  rw [step_wg stepped]
  cases next
  case register id =>
    have stage : before.stage id + 1 = 2 := mark_before earlier stepped rfl
    have fresh : id ∉ before.running := by
      rw [running_iff earlier]
      omega
    have grown : after.running = insert id before.running := by
      ext other
      simp [members, eq_comm]
    simp [grown, fresh, ih]
  case wgDone id =>
    have stage : before.stage id + 1 = 7 := mark_before earlier stepped rfl
    have inside : id ∈ before.running := by
      rw [running_iff earlier]
      omega
    have shrunk : after.running = before.running.erase id := by
      ext other
      simp [members, eq_comm, and_comm]
    have positive := Finset.card_pos.mpr ⟨id, inside⟩
    rw [shrunk, Finset.card_erase_of_mem inside]
    simp only [ih]
    omega
  all_goals
    have same : after.running = before.running := by
      ext other
      simp [members]
    rw [same, ih]

end Runs

end Kvasir.Server
