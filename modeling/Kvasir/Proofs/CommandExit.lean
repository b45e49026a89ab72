import Kvasir.Proofs.CommandLifecycle

/-! Whether the process ends. The main goroutine waits in two places only, its own
select and Shutdown's; an interrupt ends the first wait, and the second ends when the
handlers have drained or the deadline has passed. -/

namespace Kvasir.Command
open Runs Termination Server

/-- Steps of the main goroutine, its call of Shutdown included. -/
def Event.mains : Event → Bool
  | .listenFail | .listen | .serve | .receive _ | .ctxDone | .exit => true
  | .server event => event.sweeps || event = .lock || event = .startDrain || event = .shutdownNil || event = .shutdownErr
  | .send _ | .interrupt => false

def Event.admits : Event → Nat
  | .server (.register _) => 1
  | _ => 0

/-- Steps left to main, with one for each live connection that Shutdown has yet to close. -/
def Main.left (main : Main) (shutdown : Shutdown) (live : Nat) : Nat :=
  match main with
  | .exited _ => 0
  | .shutting =>
    match shutdown with
    | .returned _ => 1
    | .waiting => 2
    | .unlocked => 3
    | .closing left => left.card + 4
    | .doneClosed => live + 5
    | .locked => live + 6
    | .idle => live + 7
  | .selecting => live + 8
  | .bound => live + 9
  | .starting => live + 10

def State.left (state : State) : Nat := state.main.left state.server.shutdown state.server.conns.card

theorem Main.left_le (main : Main) (shutdown : Shutdown) {live more extra : Nat} (grows : more ≤ live + extra) :
    main.left shutdown more ≤ main.left shutdown live + extra := by
  cases main with
  | shutting => cases shutdown <;> simp only [Main.left] <;> omega
  | starting | bound | selecting | exited _ => simp only [Main.left]; omega

section Step
variable {store : MemoryStore} {events : List Event} {before after : State} {event : Event}

theorem server_left (wired : Wired before) {event : Server.Event} {server : Server.State} (permitted : before.main.permits event = true)
    (moved : Server.step before.server event = some server) :
    (State.left { before with server } + if (Event.server event).mains then 1 else 0) ≤ before.left + (Event.server event).admits := by
  have shutting : before.server.shutdown ≠ .idle → before.main = .shutting := by
    intro busy
    rcases wired.alone busy with main | main
    · exact main
    · rcases permits_running permitted with other | other <;> simp [main] at other
  cases event
  case handle id action =>
    obtain ⟨_, _, _, rfl⟩ := step_handle moved
    exact le_refl _
  case register id =>
    obtain ⟨guard, rfl⟩ := (allow_eq_some ..).mp moved
    exact Main.left_le _ _ (Finset.card_insert_le _ _)
  case unregister id =>
    obtain ⟨guard, rfl⟩ := (allow_eq_some ..).mp moved
    exact Main.left_le _ _ (Finset.card_erase_le)
  case lock =>
    obtain ⟨guard, rfl⟩ := (allow_eq_some ..).mp moved
    have main : before.main = .shutting := by simpa [Main.permits] using permitted
    simp [State.left, main, guard, Main.left, Event.mains, Event.admits, Server.Event.sweeps]
  case closeDone | closeListener | unlock | startDrain | shutdownNil | shutdownErr =>
    obtain ⟨guard, rfl⟩ := (allow_eq_some ..).mp moved
    have main := shutting (by simp [guard])
    simp [State.left, main, guard, Main.left, Event.mains, Event.admits, Server.Event.sweeps]
  case closeLive id =>
    obtain ⟨member, rfl⟩ := (allow_eq_some ..).mp moved
    obtain ⟨left, closing⟩ := Shutdown.left_closing member
    have main := shutting (by simp [closing])
    rw [closing] at member
    have fewer := Finset.card_erase_add_one (s := left) member
    simp only [State.left, main, closing, Shutdown.left, Main.left, Event.mains, Event.admits, Server.Event.sweeps, Bool.true_or, if_true]
    omega
  all_goals
    obtain ⟨_, rfl⟩ := (allow_eq_some ..).mp moved
    exact le_refl _

theorem left_step (ran : run Command.step { server := { store } } events = some before) (stepped : Command.step before event = some after) :
    (after.left + if event.mains then 1 else 0) ≤ before.left + event.admits := by
  have wired := wired_run ran
  cases event with
  | server event =>
    obtain ⟨permitted, server, moved, rfl⟩ := step_server stepped
    exact server_left wired permitted moved
  | listenFail | listen | serve =>
    obtain ⟨main, rfl⟩ := (allow_eq_some ..).mp stepped
    simp [State.left, Main.left, main, Event.mains, Event.admits]
  | ctxDone =>
    obtain ⟨⟨main, _⟩, rfl⟩ := (allow_eq_some ..).mp stepped
    have idle : before.server.shutdown = .idle := by
      by_contra busy
      rcases wired.alone busy with other | other <;> simp [main] at other
    simp [State.left, Main.left, main, idle, Event.mains, Event.admits]
  | receive error =>
    obtain ⟨rfl, _, main, rfl⟩ := wired.received (served_run ran) stepped
    simp [State.left, Main.left, main, Event.mains, Event.admits]
  | send error =>
    obtain ⟨_, rfl⟩ := (allow_eq_some ..).mp stepped
    simp [State.left, Event.mains, Event.admits]
  | exit =>
    obtain ⟨error, returned, main, rfl⟩ := step_exit stepped
    simp [State.left, Main.left, main, returned, Event.mains, Event.admits]
  | interrupt =>
    obtain ⟨_, rfl⟩ | ⟨_, rfl⟩ := step_interrupt stepped <;> simp [State.left, Main.left, Event.mains, Event.admits]

end Step

/-- The main goroutine is done or waits, in its select for Serve or an interrupt, or in
Shutdown's for the handlers or the deadline. -/
def Blocked (state : State) : Prop :=
  (∃ exit, state.main = .exited exit) ∨
    state.main = .selecting ∧ state.interrupted = false ∧ state.errc = none ∨
    state.main = .shutting ∧ state.server.shutdown = .waiting ∧ state.server.drain ≠ .closed ∧ state.server.ctx = none

section Runs
variable {store : MemoryStore} {events later : List Event} {state final : State}

theorem server_refused (rests : Rests Command.step Event.mains state) (main : state.main = .shutting) {event : Server.Event}
    (mine : (Event.server event).mains = true) : Server.step state.server event = none := by
  have refused := rests (.server event) mine
  have permitted : state.main.permits event = true := by
    cases event <;> simp [Event.mains, Server.Event.sweeps] at mine <;> simp [Main.permits, main]
  simpa only [Command.step, permitted, if_true, Option.map_eq_none_iff] using refused

theorem rests_blocked (rests : Rests Command.step Event.mains state) : Blocked state := by
  cases main : state.main with
  | exited exit => exact .inl ⟨exit, main⟩
  | starting => exact absurd main (rests.refused .listen rfl rfl)
  | bound => exact absurd main (rests.refused .serve rfl rfl)
  | selecting =>
    refine .inr (.inl ⟨main, ?_, Option.eq_none_iff_forall_ne_some.mpr fun error full => ?_⟩)
    · by_contra interrupts
      exact rests.refused .ctxDone rfl rfl ⟨main, by simpa using interrupts⟩
    · exact rests.refused (.receive error) rfl rfl ⟨main, full⟩
  | shutting =>
    have refused : ∀ event : Server.Event, (Event.server event).mains = true → Server.step state.server event = none :=
      fun _ mine => server_refused rests main mine
    cases shutdown : state.server.shutdown with
    | idle =>
      have locks := refused .lock rfl
      simp [Server.step, allow, shutdown] at locks
    | locked | doneClosed | closing left =>
      obtain ⟨event, next, sweeps, stepped⟩ := @sweep_enabled state.server (by simp [shutdown, Shutdown.holdsLock])
      rw [refused event (by simp [Event.mains, sweeps])] at stepped
      cases stepped
    | unlocked =>
      have drains := refused .startDrain rfl
      simp [Server.step, allow, shutdown] at drains
    | waiting =>
      refine .inr (.inr ⟨main, shutdown, fun closed => ?_, ?_⟩)
      · have returns := refused .shutdownNil rfl
        simp [Server.step, allow, shutdown, closed] at returns
      · have returns := refused .shutdownErr rfl
        simpa [Server.step, allow, shutdown] using returns
    | returned error =>
      have exits := rests .exit rfl
      simp [Command.step, shutdown, allow, main] at exits

theorem main_falls (store : MemoryStore) : Falls Command.step Event.mains Event.admits
    (fun state => ∃ events, run Command.step { server := { store } } events = some state) State.left := by
  refine ⟨fun before event after ⟨past, ran⟩ stepped => ⟨past ++ [event], run_snoc ran stepped⟩,
    fun before event after ⟨past, ran⟩ stepped mine => ?_, fun before event after ⟨past, ran⟩ stepped mine => ?_⟩
  · have fewer := left_step ran stepped
    have none : event.admits = 0 := by
      cases event with
      | server event => cases event <;> first | rfl | cases mine
      | _ => rfl
    simp only [mine, if_true, none] at fewer
    omega
  · simpa [mine] using left_step ran stepped

/-- An interrupt is not forgotten, nor is a deadline that has passed. -/
theorem passed_step {before after : State} {event : Event} (stepped : Command.step before event = some after) :
    (before.interrupted = true → after.interrupted = true) ∧ (before.server.ctx.isSome = true → after.server.ctx.isSome = true) := by
  cases event with
  | server event =>
    obtain ⟨_, server, moved, rfl⟩ := step_server stepped
    refine ⟨id, fun ended => ?_⟩
    have kept := step_ctx moved
    cases event
    case ctxEnd error => rw [kept]; rfl
    all_goals exact kept ▸ ended
  | listenFail | listen | serve | ctxDone | send _ =>
    obtain ⟨_, rfl⟩ := (allow_eq_some ..).mp stepped
    exact ⟨id, id⟩
  | receive error =>
    obtain ⟨_, rfl⟩ := (allow_eq_some ..).mp stepped
    cases error <;> exact ⟨id, id⟩
  | exit =>
    obtain ⟨_, _, _, rfl⟩ := step_exit stepped
    exact ⟨id, id⟩
  | interrupt => obtain ⟨_, rfl⟩ | ⟨_, rfl⟩ := step_interrupt stepped <;> simp

theorem passed_run (continued : run Command.step state later = some final) :
    (state.interrupted = true → final.interrupted = true) ∧ (state.server.ctx.isSome = true → final.server.ctx.isSome = true) := by
  refine invariant (fun _ (final : State) => (state.interrupted = true → final.interrupted = true) ∧
    (state.server.ctx.isSome = true → final.server.ctx.isSome = true)) ⟨id, id⟩ ?_ continued
  intro _ before event after _ ⟨first, last⟩ stepped
  exact ⟨fun start => (passed_step stepped).1 (first start), fun start => (passed_step stepped).2 (last start)⟩

/-- Main's own steps lead to one of its waits, and there to nowhere else. -/
theorem reaches_blocked (ran : run Command.step { server := { store } } events = some state) :
    ∃ later final, (∀ event ∈ later, event.mains = true) ∧ run Command.step state later = some final ∧ Blocked final := by
  obtain ⟨later, final, own, continued, rests⟩ := (main_falls store).rests state ⟨events, ran⟩
  exact ⟨later, final, own, continued, rests_blocked rests⟩

/-- The main goroutine never runs on: it has a bounded number of steps, and where it
has none it is done or in one of its two waits. So after an interrupt main and the
deadline alone end the process, whatever the handlers and their clients do. -/
theorem main_ends (ran : run Command.step { server := { store } } events = some state) :
    (∀ later final, run Command.step state later = some final →
      (later.filter Event.mains).length + final.left ≤ state.left + (later.map Event.admits).sum) ∧
    (Rests Command.step Event.mains state → Blocked state) ∧
    (state.interrupted = true → ∃ later final exit,
      (∀ event ∈ later, event.mains = true ∨ event = .server (.ctxEnd .deadlineExceeded)) ∧
      run Command.step state later = some final ∧ final.main = .exited exit) := by
  refine ⟨fun later final continued => (main_falls store).bounded ⟨events, ran⟩ continued, rests_blocked, fun interrupted => ?_⟩
  obtain ⟨later, middle, own, continued, blocked⟩ := reaches_blocked ran
  have known := (passed_run continued).1 interrupted
  rcases blocked with ⟨exit, main⟩ | ⟨_, calm, _⟩ | ⟨main, waiting, _, patient⟩
  · exact ⟨later, middle, exit, fun event member => .inl (own event member), continued, main⟩
  · exact absurd known (by simp [calm])
  · -- Shutdown waits for the handlers: the deadline passes, and main goes on.
    have ends : Command.step middle (.server (.ctxEnd .deadlineExceeded)) =
        some { middle with server := { middle.server with ctx := some .deadlineExceeded } } := by
      simp [Command.step, Main.permits, main, Server.step, allow, patient]
    obtain ⟨last, final, mine, after, blocked⟩ := reaches_blocked (run_snoc (run_join ran continued) ends)
    have ended := (passed_run after).2 rfl
    have still := (passed_run after).1 known
    refine ⟨later ++ .server (.ctxEnd .deadlineExceeded) :: last, final, ?_⟩
    obtain ⟨exit, main⟩ : ∃ exit, final.main = .exited exit := by
      rcases blocked with exited | ⟨_, calm, _⟩ | ⟨_, _, _, patient⟩
      · exact exited
      · exact absurd still (by simp [calm])
      · simp [patient] at ended
    refine ⟨exit, fun event member => ?_, ?_, main⟩
    · rcases List.mem_append.mp member with inside | inside
      · exact .inl (own event inside)
      · rcases List.mem_cons.mp inside with rfl | inside
        · exact .inr rfl
        · exact .inl (mine event inside)
    · refine run_join continued ?_
      rw [run_cons, ends]
      exact after

/-- A client is connected and silent when the interrupt comes. -/
def silentClient : List Event :=
  [.listen, .serve, .server (.accept 0), .server (.register 0), .server (.spawn 0), .interrupt]

theorem main_ends_silent : ∃ ran : (run Command.step {} silentClient).isSome, ∃ later final exit,
    (∀ event ∈ later, event.mains = true ∨ event = .server (.ctxEnd .deadlineExceeded)) ∧
    run Command.step ((run Command.step {} silentClient).get ran) later = some final ∧ final.main = .exited exit := by
  obtain ⟨ran, interrupted⟩ : ∃ ran : (run Command.step {} silentClient).isSome,
      ((run Command.step {} silentClient).get ran).interrupted = true := ⟨by decide, by decide⟩
  exact ⟨ran, (@main_ends .new _ _ (Option.some_get ran).symm).2.2 interrupted⟩

end Runs

/-- What the process does, and not its clients, the deadline or who interrupts it. -/
def Event.own : Event → Bool
  | .server event => event.own
  | .interrupt => false
  | _ => true

/-- Besides the server's steps there is Serve's error to send and main's exit. -/
def State.rank (state : State) : Nat :=
  state.server.rank + (if state.main = .shutting then 1 else 0) + if state.sent then 0 else 1

/-- Shutdown has given the server's mutex back. -/
def Swept (store : MemoryStore) (state : State) : Prop :=
  ∃ events, run Command.step { server := { store } } events = some state ∧ .server .unlock ∈ events

section Swept
variable {store : MemoryStore} {state : State}

theorem Swept.draining (swept : Swept store state) : Draining state.server := by
  obtain ⟨events, ran, unlocked⟩ := swept
  exact draining_run (served_run ran) (served_member.mpr unlocked)

theorem Swept.main (swept : Swept store state) : state.main = .shutting ∨ state.main = .exited .returned := by
  have released := swept.draining.released
  obtain ⟨events, ran, _⟩ := swept
  refine (wired_run ran).alone fun idle => ?_
  simp [idle, Shutdown.released] at released

theorem swept_falls (store : MemoryStore) : Falls Command.step Event.own (fun _ => 0) (Swept store) State.rank := by
  have step : ∀ before event after, Swept store before → Command.step before event = some after →
      after.rank + (if event.own then 1 else 0) ≤ before.rank := by
    intro before event after swept stepped
    cases event with
    | server event =>
      obtain ⟨_, server, moved, rfl⟩ := step_server stepped
      have fewer : server.rank + (if (Event.server event).own then 1 else 0) ≤ before.server.rank :=
        Server.rank_step swept.draining moved
      simp only [State.rank]
      omega
    | listenFail | listen | serve =>
      obtain ⟨main, _⟩ := (allow_eq_some ..).mp stepped
      rcases swept.main with other | other <;> simp [main] at other
    | receive _ | ctxDone =>
      obtain ⟨⟨main, _⟩, _⟩ := (allow_eq_some ..).mp stepped
      rcases swept.main with other | other <;> simp [main] at other
    | send error =>
      obtain ⟨⟨_, _, unsent, _⟩, rfl⟩ := (allow_eq_some ..).mp stepped
      simp [State.rank, unsent, Event.own]
    | exit =>
      obtain ⟨error, _, main, rfl⟩ := step_exit stepped
      simp [State.rank, main, Event.own]
    | interrupt =>
      obtain ⟨_, rfl⟩ | ⟨_, rfl⟩ := step_interrupt stepped
      · simp [State.rank, Event.own]
      · exact le_refl _
  refine ⟨fun before event after ⟨past, ran, unlocked⟩ stepped => ?_, fun before event after swept stepped own => ?_,
    fun before event after swept stepped own => ?_⟩
  · exact ⟨past ++ [event], run_snoc ran stepped, List.mem_append_left _ unlocked⟩
  · have fewer := step before event after swept stepped
    simp only [own, if_true] at fewer
    omega
  · simpa [own] using step before event after swept stepped

theorem rests_exited (swept : Swept store state) (rests : Rests Command.step Event.own state) : state.main = .exited .returned := by
  refine swept.main.resolve_left fun main => ?_
  have idle : Rests Server.step Server.Event.own state.server := by
    intro event own
    have refused := rests (.server event) own
    have permitted : state.main.permits event = true := by
      cases event <;> simp [Server.Event.own] at own <;> simp [Main.permits, main]
    simpa only [Command.step, permitted, if_true, Option.map_eq_none_iff] using refused
  obtain ⟨events, ran, unlocked⟩ := swept
  obtain ⟨result, returned⟩ := (Server.rests_drained (served_run ran) (served_member.mpr unlocked) idle).shutdown
  have exits := rests .exit rfl
  simp [Command.step, returned, allow, main] at exits

/-- The server's mutex has been given back and one handler is in its loop. -/
def sweptClient : List Event := silentClient ++ [.ctxDone, .server .lock, .server .closeDone, .server .closeListener,
  .server (.closeLive 0), .server .unlock]

end Swept

end Kvasir.Command
