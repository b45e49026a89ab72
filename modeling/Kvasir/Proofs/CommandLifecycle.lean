import Kvasir.Command
import Kvasir.Proofs.ServerDrain

/-! How the process ends. It runs one server, so all that holds of the server's runs
holds here; what is added is who may call Shutdown, and what Serve's error can be. -/

namespace Kvasir.Command
open Runs Server

section Step
variable {before after : State}

theorem step_server {event : Server.Event} (stepped : step before (.server event) = some after) :
    before.main.permits event = true ∧ ∃ server, Server.step before.server event = some server ∧ after = { before with server } := by
  simp only [step] at stepped
  split at stepped
  next permitted =>
    obtain ⟨server, moved, rfl⟩ := Option.map_eq_some_iff.mp stepped
    exact ⟨permitted, server, moved, rfl⟩
  next => cases stepped

theorem step_exit (stepped : step before .exit = some after) : ∃ error, before.server.shutdown = .returned error ∧
    before.main = .shutting ∧ after = { before with main := .exited .returned, logs := before.logs ++ error.toList.map .shutdown } := by
  simp only [step] at stepped
  split at stepped
  next error returned =>
    obtain ⟨shutting, rfl⟩ := (allow_eq_some ..).mp stepped
    exact ⟨error, returned, shutting, rfl⟩
  next => cases stepped

theorem step_interrupt (stepped : step before .interrupt = some after) :
    (before.main = .starting ∨ before.main = .bound) ∧ after = { before with main := .exited .killed } ∨
      (before.main = .selecting ∨ before.main = .shutting) ∧ after = { before with interrupted := true } := by
  simp only [step] at stepped
  split at stepped <;> cases stepped <;> simp [*]

theorem permits_running {main : Main} {event : Server.Event} (permitted : main.permits event = true) :
    main = .selecting ∨ main = .shutting := by
  cases event <;> simp only [Main.permits, decide_eq_true_eq] at permitted <;> first | exact permitted | exact .inr permitted | exact .inr permitted.1

end Step

/-- Serve returns nil only to Shutdown. -/
theorem nil_stopped {store : MemoryStore} {events : List Server.Event} {server : Server.State}
    (ran : run Server.step { store } events = some server) (nil : server.serve = .returned none) : server.done = true := by
  have whole := invariant (fun _ (server : Server.State) => (∀ id, server.serve = .refusing id → server.done = true) ∧
    (server.serve = .returned none → server.done = true)) ⟨by simp, by simp⟩ ?_ ran
  · exact whole.2 nil
  intro past before event after earlier ⟨refusing, returned⟩ stepped
  have kept := step_done stepped
  cases event
  case handle id action => obtain ⟨_, _, _, rfl⟩ := step_handle stepped; exact ⟨refusing, returned⟩
  case accept id | acceptFail error | serveReturn error | register id | refuse id | closeRefused id | spawn id =>
    obtain ⟨guard, rfl⟩ := (allow_eq_some ..).mp stepped
    constructor <;> grind
  case closeDone =>
    obtain ⟨_, rfl⟩ := (allow_eq_some ..).mp stepped
    exact ⟨fun _ _ => rfl, fun _ => rfl⟩
  all_goals
    obtain ⟨_, rfl⟩ := (allow_eq_some ..).mp stepped
    exact ⟨refusing, returned⟩

section Runs
variable {store : MemoryStore} {events later : List Event} {state final : State}

theorem server_run (continued : run step state later = some final) :
    run Server.step state.server (served later) = some final.server := by
  have simulates : Simulates step Server.step Event.server? (fun _ => True) (fun state server => state.server = server) := by
    rintro before _ event after - rfl stepped
    refine ⟨after.server, ?_, rfl⟩
    cases event with
    | server event =>
      obtain ⟨_, server, moved, rfl⟩ := step_server stepped
      exact (run_singleton ..).trans moved
    | listenFail | listen | serve | ctxDone | send _ =>
      obtain ⟨_, rfl⟩ := (allow_eq_some ..).mp stepped
      rfl
    | receive error =>
      obtain ⟨_, rfl⟩ := (allow_eq_some ..).mp stepped
      cases error <;> rfl
    | exit =>
      obtain ⟨_, _, _, rfl⟩ := step_exit stepped
      rfl
    | interrupt => obtain ⟨_, rfl⟩ | ⟨_, rfl⟩ := step_interrupt stepped <;> rfl
  obtain ⟨server, matched, rfl⟩ := simulates.run (fun _ _ => trivial) rfl continued
  exact matched

theorem served_run (ran : run step { server := { store } } events = some state) :
    run Server.step { store } (served events) = some state.server := server_run ran

/-- What a process has logged by the time it is where it is. -/
def Logged (state : State) : Prop :=
  match state.main with
  | .starting => state.logs = []
  | .bound | .selecting => state.logs = [.listening]
  | .shutting => state.logs = [.listening, .shuttingDown]
  | .exited .returned => ∃ error, state.server.shutdown = .returned error ∧
      state.logs = [.listening, .shuttingDown] ++ error.toList.map .shutdown
  | .exited .fatal => state.logs = [.listenFailed] ∨ state.logs = [.listening, .serveFailed .other]
  | .exited .killed => state.logs = [] ∨ state.logs = [.listening]

/-- Who knows what of whom: main, the channel, the signal and the server. -/
structure Wired (state : State) : Prop where
  alone : state.server.shutdown ≠ .idle → state.main = .shutting ∨ state.main = .exited .returned
  errc : ∀ error, state.errc = some error → state.server.serve = .returned error ∧ state.sent = true
  sent : state.sent = false → state.errc = none
  unread : state.main = .selecting → state.sent = true → state.errc.isSome
  interrupted : state.main = .shutting ∨ state.main = .exited .returned → state.interrupted = true
  deadline : ∀ error, state.server.ctx = some error → error = .deadlineExceeded
  unserved : state.main = .starting ∨ state.main = .bound ∨ state.main = .exited .killed →
    state.server.shutdown = .idle ∧ state.interrupted = false ∧ state.sent = false
  logged : Logged state

theorem Wired.initial (store : MemoryStore) : Wired { server := { store } } :=
  ⟨by simp, by simp, fun _ => rfl, by simp, by simp, by simp, fun _ => ⟨rfl, rfl, rfl⟩, rfl⟩

theorem serve_returned {before after : Server.State} {event : Server.Event} {error : Option AcceptError}
    (returned : before.serve = .returned error) (stepped : Server.step before event = some after) : after.serve = .returned error := by
  cases event
  case handle id action => obtain ⟨_, _, _, rfl⟩ := step_handle stepped; exact returned
  case accept id | acceptFail failure | serveReturn failure | register id | refuse id | closeRefused id | spawn id =>
    obtain ⟨guard, rfl⟩ := (allow_eq_some ..).mp stepped
    simp_all
  all_goals
    obtain ⟨_, rfl⟩ := (allow_eq_some ..).mp stepped
    exact returned

/-- Only `lock` gets Shutdown going, and once it has returned it stays so. -/
theorem shutdown_idle {before after : Server.State} {event : Server.Event} (stepped : Server.step before event = some after) :
    (before.shutdown = .idle → event ≠ .lock → after.shutdown = .idle) ∧
      ∀ error, before.shutdown = .returned error → after.shutdown = .returned error := by
  cases event
  case handle id action => obtain ⟨_, _, _, rfl⟩ := step_handle stepped; exact ⟨fun idle _ => idle, fun _ returned => returned⟩
  case closeLive id =>
    obtain ⟨member, _⟩ := (allow_eq_some ..).mp stepped
    obtain ⟨left, closing⟩ := Shutdown.left_closing member
    simp [closing]
  case lock | closeDone | closeListener | unlock | startDrain | shutdownNil | shutdownErr =>
    obtain ⟨guard, rfl⟩ := (allow_eq_some ..).mp stepped
    simp [guard]
  all_goals
    obtain ⟨_, rfl⟩ := (allow_eq_some ..).mp stepped
    exact ⟨fun idle _ => idle, fun _ returned => returned⟩

private theorem Wired.server {before : State} (wired : Wired before) {event : Server.Event} {server : Server.State}
    (permitted : before.main.permits event = true) (moved : Server.step before.server event = some server) :
    Wired { before with server } := by
  obtain ⟨alone, errc, sent, unread, interrupted, deadline, unserved, logged⟩ := wired
  have running := permits_running permitted
  refine ⟨fun busy => ?_, fun error full => ⟨serve_returned (errc error full).1 moved, (errc error full).2⟩, sent, unread, interrupted,
    fun error ended => ?_, fun early => ?_, ?_⟩
  · by_cases idle : before.server.shutdown = .idle
    · have lock : event = .lock := by
        by_contra other
        exact busy ((shutdown_idle moved).1 idle other)
      subst lock
      exact .inl (by simpa [Main.permits] using permitted)
    · exact alone idle
  · have kept := step_ctx moved
    cases event
    case ctxEnd failure =>
      obtain rfl : failure = error := Option.some.inj (kept.symm.trans ended)
      simp only [Main.permits, decide_eq_true_eq] at permitted
      exact permitted.2
    all_goals exact deadline error (kept.symm.trans ended)
  · rcases running with main | main <;> simp [main] at early
  · rcases running with main | main <;> simpa only [Logged, main] using logged

theorem Wired.received {events : List Server.Event} {before after : State} {error : Option AcceptError} (wired : Wired before)
    (ran : run Server.step { store } events = some before.server) (stepped : step before (.receive error) = some after) :
    error = some .other ∧ before.server.shutdown = .idle ∧ before.main = .selecting ∧
      after = { before with errc := none, main := .exited .fatal, logs := before.logs ++ [.serveFailed .other] } := by
  obtain ⟨⟨selecting, full⟩, rfl⟩ := (allow_eq_some ..).mp stepped
  have returned := (wired.errc error full).1
  have idle : before.server.shutdown = .idle := by
    by_contra busy
    rcases wired.alone busy with main | main <;> simp [selecting] at main
  cases error with
  | none =>
    have stopped := (gate_run ran).done.symm.trans (nil_stopped ran returned)
    simp [idle, Shutdown.stopped] at stopped
  | some failure =>
    cases failure with
    | closed => exact absurd returned (gate_run ran).returned
    | other => exact ⟨rfl, idle, selecting, rfl⟩

theorem Wired.step {events : List Server.Event} {before after : State} {event : Event} (wired : Wired before)
    (ran : run Server.step { store } events = some before.server) (stepped : step before event = some after) : Wired after := by
  cases event with
  | server event =>
    obtain ⟨permitted, server, moved, rfl⟩ := step_server stepped
    exact wired.server permitted moved
  | receive error =>
    obtain ⟨rfl, idle, selecting, rfl⟩ := wired.received ran stepped
    obtain ⟨alone, errc, sent, unread, interrupted, deadline, unserved, logged⟩ := wired
    have before' : before.logs = [.listening] := by simpa only [Logged, selecting] using logged
    exact ⟨by simp [idle], by simp, fun _ => rfl, by simp, by simp, deadline, by simp, .inr (by simp [before'])⟩
  | listenFail | listen | serve =>
    obtain ⟨main, rfl⟩ := (allow_eq_some ..).mp stepped
    obtain ⟨alone, errc, sent, unread, interrupted, deadline, unserved, logged⟩ := wired
    obtain ⟨idle, calm, unsent⟩ := unserved (by simp [main])
    simp only [Logged, main] at logged
    exact ⟨by simp [idle], errc, sent, by simp [unsent], by simp, deadline, by simp [idle, calm, unsent], by simp [Logged, logged]⟩
  | ctxDone =>
    obtain ⟨⟨main, interrupts⟩, rfl⟩ := (allow_eq_some ..).mp stepped
    obtain ⟨alone, errc, sent, unread, interrupted, deadline, unserved, logged⟩ := wired
    simp only [Logged, main] at logged
    exact ⟨fun _ => .inl rfl, errc, sent, by simp, fun _ => interrupts, deadline, by simp, by simp [Logged, logged]⟩
  | send error =>
    obtain ⟨⟨running, returned, _, _⟩, rfl⟩ := (allow_eq_some ..).mp stepped
    obtain ⟨alone, errc, sent, unread, interrupted, deadline, unserved, logged⟩ := wired
    refine ⟨alone, ?_, by simp, fun _ _ => rfl, interrupted, deadline, fun early => ?_, logged⟩
    · rintro other full
      obtain rfl := Option.some.inj full
      exact ⟨returned, rfl⟩
    · rcases running with main | main <;> simp [main] at early
  | exit =>
    obtain ⟨error, returned, main, rfl⟩ := step_exit stepped
    obtain ⟨alone, errc, sent, unread, interrupted, deadline, unserved, logged⟩ := wired
    simp only [Logged, main] at logged
    exact ⟨fun _ => .inr rfl, errc, sent, by simp, fun _ => interrupted (.inl main), deadline, by simp,
      error, returned, by simp [logged]⟩
  | interrupt =>
    obtain ⟨alone, errc, sent, unread, interrupted, deadline, unserved, logged⟩ := wired
    obtain ⟨main, rfl⟩ | ⟨main, rfl⟩ := step_interrupt stepped
    · have early := unserved (by tauto)
      refine ⟨by simp [early.1], errc, sent, by simp, by simp, deadline, fun _ => early, ?_⟩
      rcases main with main | main <;> simp only [Logged, main] at logged
      · exact .inl logged
      · exact .inr logged
    · refine ⟨alone, errc, sent, unread, fun _ => rfl, deadline, fun early => ?_, ?_⟩
      · rcases main with main | main <;> simp [main] at early
      · rcases main with main | main <;> simpa only [Logged, main] using logged

theorem wired_run (ran : run Command.step { server := { store } } events = some state) : Wired state :=
  invariant (fun _ => Wired) (Wired.initial store) (fun _ _ _ _ earlier wired stepped => wired.step (served_run earlier) stepped) ran

/-- What must have happened for the process to be where it is. -/
structure Caused (events : List Event) (state : State) : Prop where
  interrupted : state.interrupted = true ∨ state.main = .exited .killed → .interrupt ∈ events
  stopped : state.main = .shutting ∨ state.main = .exited .returned → .ctxDone ∈ events
  unserved : state.main = .starting ∨ state.main = .bound ∨ state.main = .exited .killed → served events = []
  failed : state.main = .exited .fatal → .listenFail ∈ events ∨ .receive (some .other) ∈ events
  received : ∀ error, .receive error ∈ events → error = some .other

theorem served_silent {past : List Event} {event : Event} (silent : event.server? = none) : served (past ++ [event]) = served past := by
  simp [served, List.filterMap_append, silent]

theorem served_member {event : Server.Event} : event ∈ served events ↔ .server event ∈ events := by
  simp only [served, List.mem_filterMap]
  constructor
  · rintro ⟨other, member, shows⟩
    cases other <;> cases shows
    exact member
  · exact fun member => ⟨_, member, rfl⟩

private theorem Caused.step {past : List Event} {before after : State} {event : Event} (caused : Caused past before) (wired : Wired before)
    (ran : run Server.step { store } (served past) = some before.server) (stepped : step before event = some after) :
    Caused (past ++ [event]) after := by
  obtain ⟨interrupted, stopped, unserved, failed, received⟩ := caused
  cases event with
  | server event =>
    obtain ⟨permitted, server, _, rfl⟩ := step_server stepped
    have running := permits_running permitted
    refine ⟨fun cause => by simpa using interrupted cause, fun cause => by simpa using stopped cause, fun early => ?_,
      fun cause => by simpa using failed cause, fun error member => received error (by simpa using member)⟩
    rcases running with main | main <;> simp [main] at early
  | receive error =>
    obtain ⟨rfl, _, main, rfl⟩ := wired.received ran stepped
    refine ⟨fun cause => ?_, by simp, by simp, fun _ => .inr (by simp), fun error member => ?_⟩
    · simpa using interrupted (.inl (by simpa using cause))
    · rcases List.mem_append.mp member with earlier | last
      · exact received error earlier
      · simpa using last
  | listenFail | listen | serve =>
    obtain ⟨main, rfl⟩ := (allow_eq_some ..).mp stepped
    have silent := unserved (by simp [main])
    refine ⟨fun cause => ?_, by simp, fun _ => (served_silent rfl).trans silent, fun _ => ?_,
      fun error member => received error (by simpa using member)⟩
    · simpa using interrupted (.inl (by simpa using cause))
    · simp_all
  | ctxDone =>
    obtain ⟨⟨main, interrupts⟩, rfl⟩ := (allow_eq_some ..).mp stepped
    exact ⟨fun _ => by simpa using interrupted (.inl interrupts), fun _ => by simp, by simp, by simp,
      fun error member => received error (by simpa using member)⟩
  | send error =>
    obtain ⟨_, rfl⟩ := (allow_eq_some ..).mp stepped
    exact ⟨fun cause => by simpa using interrupted cause, fun cause => by simpa using stopped cause,
      fun early => (served_silent rfl).trans (unserved early), fun cause => by simpa using failed cause,
      fun error member => received error (by simpa using member)⟩
  | exit =>
    obtain ⟨error, _, main, rfl⟩ := step_exit stepped
    exact ⟨fun cause => by simpa using interrupted (.inl (by simpa using cause)), fun _ => by simpa using stopped (.inl main), by simp,
      by simp, fun error member => received error (by simpa using member)⟩
  | interrupt =>
    obtain ⟨main, rfl⟩ | ⟨main, rfl⟩ := step_interrupt stepped
    · exact ⟨fun _ => by simp, by simp, fun _ => (served_silent rfl).trans (unserved (by tauto)), by simp,
        fun error member => received error (by simpa using member)⟩
    · exact ⟨fun _ => by simp, fun cause => by simpa using stopped cause,
        fun early => (served_silent rfl).trans (unserved early), fun cause => by simpa using failed cause,
        fun error member => received error (by simpa using member)⟩

theorem caused_run (ran : run Command.step { server := { store } } events = some state) : Caused events state := by
  refine invariant Caused ⟨by simp, by simp, fun _ => rfl, by simp, by simp⟩ ?_ ran
  intro past before event after earlier caused stepped
  exact caused.step (wired_run earlier) (served_run earlier) stepped

/-- How the process can end, and what it has said by then. -/
structure Lifecycle (events : List Event) (state : State) : Prop where
  logged : Logged state
  received : ∀ error, .receive error ∈ events → error = some .other
  stopped : state.server.shutdown ≠ .idle → .interrupt ∈ events ∧ .ctxDone ∈ events
  failed : state.main = .exited .fatal →
    (.listenFail ∈ events ∨ .receive (some .other) ∈ events) ∧ state.server.shutdown = .idle
  killed : state.main = .exited .killed → .interrupt ∈ events ∧ served events = []
  late : ∀ error, state.server.shutdown = .returned (some error) → error = .deadlineExceeded
  clean : state.server.shutdown = .returned none → ∀ id, .server (.register id) ∈ events → .server (.wgDone id) ∈ events
  unblocked : ∀ error, state.main = .selecting ∨ state.main = .shutting → state.server.serve = .returned error →
    state.sent = false → (Command.step state (.send error)).isSome

/-- In every run of the process: Serve's nil is never received, so Shutdown comes after
an interrupt and only then; a fatal exit is Listen's or Accept's own failure; the send
of Serve's error never blocks; and an exit without a timeout leaves no handler. -/
theorem process_lifecycle (ran : run Command.step { server := { store } } events = some state) : Lifecycle events state := by
  have wired := wired_run ran
  have caused := caused_run ran
  have serving := served_run ran
  refine ⟨wired.logged, caused.received, fun busy => ?_, fun fatal => ⟨caused.failed fatal, ?_⟩, fun killed => ?_, fun error late => ?_,
    fun nil id registered => ?_, fun error running returned unsent => ?_⟩
  · have main := wired.alone busy
    exact ⟨caused.interrupted (.inl (wired.interrupted main)), caused.stopped main⟩
  · by_contra busy
    rcases wired.alone busy with main | main <;> simp [fatal] at main
  · exact ⟨caused.interrupted (.inr killed), caused.unserved (.inr (.inr killed))⟩
  · exact wired.deadline error ((gate_run serving).ended error late)
  · have empty := drained_wg serving (.inr ((gate_run serving).drained nil))
    rw [wg_running serving] at empty
    have nobody : state.server.running = ∅ := Finset.card_eq_zero.mp (by omega)
    have gone : id ∉ state.server.running := by simp [nobody]
    rw [running_iff serving, not_and_or, not_lt] at gone
    rw [← served_member] at registered ⊢
    have admitted := (register_iff serving id).mp registered
    exact (wgDone_iff serving id).mpr (gone.resolve_left (not_not_intro admitted))
  · simp [Command.step, allow, running, returned, unsent, wired.sent unsent]

/-- An interrupt comes while one client is connected; Serve's nil stays in the channel. -/
def interruptedRun : List Event := [.listen, .serve, .server (.accept 0), .server (.register 0), .server (.spawn 0), .interrupt,
  .ctxDone, .server .lock, .server .closeDone, .server .closeListener, .server (.acceptFail .closed),
  .server (.serveReturn .closed), .send none, .server (.closeLive 0), .server .unlock, .server (.handle 0 .readEnd),
  .server (.handle 0 .leave), .server (.unregister 0), .server (.close 0), .server .startDrain, .server (.wgDone 0),
  .server .waitReturns, .server .closeDrained, .server .shutdownNil, .exit]

theorem process_lifecycle_interrupted : ∃ ran : (run Command.step {} interruptedRun).isSome,
    Lifecycle interruptedRun ((run Command.step {} interruptedRun).get ran) := by
  have ran : (run Command.step {} interruptedRun).isSome := by decide
  exact ⟨ran, @process_lifecycle .new _ _ (Option.some_get ran).symm⟩

end Runs

end Kvasir.Command
