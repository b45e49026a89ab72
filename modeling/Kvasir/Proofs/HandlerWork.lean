import Kvasir.Lib.Termination
import Kvasir.Proofs.HandlerProgress

/-! What a handler does between its reads. Every line costs it three steps, whatever
the rest of the server does meanwhile; when it has no step to take it waits for bytes
or for the mutex, and it waits for bytes only when all lines are answered. -/

namespace Kvasir.Scanner
open Strings

/-- Tokens that can be handed over without a further read. -/
def remaining (scanner : Scanner) : Nat :=
  scanner.pending.count newline + if scanner.failed = true ∧ scanner.pending ≠ [] then 1 else 0

variable {scanner after : Scanner} {line : Bytes}

theorem remaining_read (waiting : scanner.scan = .read) (chunk : Bytes) :
    (scanner.read chunk).remaining = scanner.remaining + chunk.count newline := by
  obtain ⟨_, running, _⟩ := scan_read waiting
  simp [remaining, Scanner.read, running]

theorem remaining_fail (scanner : Scanner) : scanner.fail.remaining ≤ scanner.remaining + 1 := by
  simp only [remaining, fail]
  split <;> split <;> omega

theorem remaining_token (scanned : scanner.scan = .token line after) : after.remaining < scanner.remaining := by
  rcases scan_token scanned with ⟨raw, _, _, split, failed⟩ | ⟨failed, _, nonempty, _, rfl⟩
  · have counts : scanner.pending.count newline = raw.count newline + (after.pending.count newline + 1) := by simp [split]
    have present : scanner.pending ≠ [] := by simp [split]
    simp only [remaining, failed, counts]
    split <;> split <;> simp_all <;> omega
  · simp [remaining, failed, nonempty]

end Kvasir.Scanner

namespace Kvasir.Server
open Runs Termination Scanner Strings

/-- Steps that a handler takes by itself: all but reading. -/
def Event.works (id : ConnId) : Event → Bool
  | .handle _ (.read _) | .handle _ .readEnd => false
  | .handle other _ | .unregister other | .close other | .wgDone other => other = id
  | _ => false

/-- What reading adds to a handler's work: three steps for every line that ends, and
for the rest when reading ends. -/
def Event.brings (id : ConnId) : Event → Nat
  | .handle other (.read chunk) => if other = id then 3 * chunk.count newline else 0
  | .handle other .readEnd => if other = id then 3 else 0
  | _ => 0

/-- Steps left to a handler that reads no more. -/
def Conn.work (conn : Conn) : Nat :=
  match conn.phase with
  | .absent | .held | .refused | .admitted | .scanning => 3 * conn.scanner.remaining + 4
  | .scanned _ => 3 * conn.scanner.remaining + 6
  | .replying _ => 3 * conn.scanner.remaining + 5
  | .leaving => 3
  | .closing => 2
  | .exiting => 1
  | .finished => 0

theorem handle_work {store store' : MemoryStore} {before after : Conn} {action : Action} (id : ConnId)
    (handled : handle store before action = some (store', after)) :
    ((Event.handle id action).works id = true → after.work < before.work) ∧
      after.work ≤ before.work + (Event.handle id action).brings id := by
  cases action with
  | read chunk =>
    obtain ⟨⟨phase, waiting, _⟩, same⟩ := (allow_eq_some ..).mp handled
    cases same
    refine ⟨nofun, ?_⟩
    simp only [Event.brings, Conn.work, phase, remaining_read waiting, if_true]
    omega
  | readEnd =>
    obtain ⟨⟨phase, _⟩, same⟩ := (allow_eq_some ..).mp handled
    cases same
    have more := remaining_fail before.scanner
    refine ⟨nofun, ?_⟩
    simp only [Event.brings, Conn.work, phase, if_true]
    omega
  | deliver line =>
    obtain ⟨_, scanned, phase, _, rfl⟩ := handle_deliver handled
    have fewer := remaining_token scanned
    simp only [Event.brings, Conn.work, phase]
    omega
  | process line reply =>
    obtain ⟨⟨phase, _⟩, same⟩ := (allow_eq_some ..).mp handled
    cases same
    simp only [Event.brings, Conn.work, phase]
    omega
  | write reply ok =>
    obtain ⟨⟨phase, _⟩, same⟩ := (allow_eq_some ..).mp handled
    cases same
    cases ok <;> simp only [Event.brings, Conn.work, phase, if_true, Bool.false_eq_true, if_false] <;> omega
  | leave =>
    obtain ⟨⟨phase, _⟩, same⟩ := (allow_eq_some ..).mp handled
    cases same
    simp only [Event.brings, Conn.work, phase]
    omega

theorem Change.work {store : MemoryStore} {id : ConnId} {event : Event} {before after : Conn}
    (change : Change store id event before after) :
    (event.works id = true → after.work < before.work) ∧ after.work ≤ before.work + event.brings id := by
  cases change with
  | handle handled => exact handle_work id handled
  | unregister phase | close phase | wgDone phase => simp [Conn.work, phase, Event.brings]
  | accept phase | register phase | refuse phase | spawn phase => simp [Conn.work, phase, Event.works]
  | closeRefused | closeLive | gone => simp [Conn.work, Event.works]
  | other apart =>
    refine ⟨fun working => absurd ?_ apart, Nat.le_add_right _ _⟩
    cases event with
    | handle other action => cases action <;> simp_all [Event.works, Event.conn?]
    | _ => simp_all [Event.works, Event.conn?]

section Run
variable {store : MemoryStore} {events later : List Event} {state final : State} {id : ConnId}

theorem work_falls (id : ConnId) : Falls step (Event.works id) (Event.brings id) Placed fun state => (state.conn id).work where
  kept _ _ _ placed stepped := placed.step stepped
  spent _ _ _ placed stepped mine := (step_conn placed stepped id).work.1 mine
  given _ _ _ placed stepped _ := (step_conn placed stepped id).work.2

/-- Where a handler stands that has no step to take. -/
inductive Resting (id : ConnId) (events : List Event) (state : State) : Prop where
  | early (unstarted : (state.conn id).phase.stage < 3)
  | reading (phase : (state.conn id).phase = .scanning) (waiting : (state.conn id).scanner.scan = .read)
      (handled : (processed (actions id events)).map Prod.fst = (Lines.complete newline (received (actions id events))).map dropCR)
      (answered : replies (actions id events) = (processed (actions id events)).map Prod.snd)
  | locked (phase : (state.conn id).phase = .leaving) (held : state.shutdown.holdsLock = true)
  | ended (phase : (state.conn id).phase = .finished)

theorem rests_resting (ran : run step { store } events = some state) (rests : Rests step (Event.works id) state) :
    Resting id events state := by
  have refused : ∀ action, (Event.handle id action).works id = true → handle state.store (state.conn id) action = none := by
    intro action mine
    have idle := rests (.handle id action) mine
    simpa [step] using idle
  have progress := progress_run ran id
  cases phase : (state.conn id).phase with
  | absent | held | refused | admitted => exact .early (by rw [phase]; decide)
  | scanning =>
    cases scanned : (state.conn id).scanner.scan with
    | token line after =>
      have idle := refused (.deliver line) (by simp [Event.works])
      simp [handle, allow, phase, scanned] at idle
    | stop =>
      have idle := refused .leave (by simp [Event.works])
      simp [handle, allow, phase, scanned] at idle
    | read =>
      obtain ⟨clear, running, _⟩ := scan_read scanned
      have lines := progress.lines
      have answers := progress.answers
      simp only [phase, Phase.line, Option.toList_none, List.append_nil] at lines
      simp only [phase, Phase.reply, progress.looping (by rw [phase]; decide), Option.toList_none, List.append_nil] at answers
      refine .reading phase scanned ?_ answers.symm
      cases progress.tokens with
      | unterminated _ _ _ _ _ _ failed => simp [running] at failed
      | terminated raws clean _ _ _ stream tokens =>
        rw [← lines, tokens, stream, Lines.complete_unlines newline clean clear]
  | scanned line =>
    have idle := refused (.process line (answer state.store line).2) (by simp [Event.works])
    simp [handle, allow, phase] at idle
  | replying reply =>
    have idle := refused (.write reply false) (by simp [Event.works])
    simp [handle, allow, phase] at idle
  | leaving =>
    refine .locked phase ?_
    by_contra free
    exact rests.refused (.unregister id) (by simp [Event.works]) rfl ⟨phase, by simpa using free⟩
  | closing => exact absurd phase (rests.refused (.close id) (by simp [Event.works]) rfl)
  | exiting => exact absurd phase (rests.refused (.wgDone id) (by simp [Event.works]) rfl)
  | finished => exact .ended phase

/-- However the server's steps are mixed, a handler takes three steps of its own for
every line that has come in, and a few to end. When it has none to take it is not
started, over, or waiting: for the mutex that Shutdown holds, or for more bytes, and
then every whole line it has read is answered. Its own steps alone lead there. -/
theorem handler_responsive (ran : run step { store } events = some state) (continued : run step state later = some final) (id : ConnId) :
    (later.filter (Event.works id)).length + (final.conn id).work ≤ (state.conn id).work + (later.map (Event.brings id)).sum ∧
    (Rests step (Event.works id) final → Resting id (events ++ later) final) ∧
    ∃ more last, (∀ event ∈ more, event.works id = true) ∧ run step final more = some last ∧
      Resting id (events ++ later ++ more) last := by
  have whole := run_join ran continued
  refine ⟨(work_falls id).bounded (placed_run ran) continued, rests_resting whole, ?_⟩
  obtain ⟨more, last, own, onward, rests⟩ := (work_falls id).rests final (placed_run whole)
  exact ⟨more, last, own, onward, rests_resting (run_join whole onward) rests⟩

end Run

/-- Two handlers have a line each, one of them a second, and Shutdown has the mutex. -/
def busy : List Event := [.accept 0, .register 0, .spawn 0, .accept 1, .register 1, .spawn 1,
  .handle 0 (.read (text "SET a b\nGET a\n")), .handle 1 (.read (text "GET a\nDE")), .handle 0 (.deliver (text "SET a b")), .lock]

/-- Between them the other handler answers, and reads on. -/
def mixed : List Event := [.handle 1 (.deliver (text "GET a")), .handle 0 (.process (text "SET a b") (text "OK\n")),
  .handle 1 (.process (text "GET a") (text "b\n")), .handle 1 (.write (text "b\n") true), .handle 1 (.read (text "L a\n")),
  .handle 0 (.write (text "OK\n") true)]

theorem handler_responsive_mixed : ∃ ran : (run step {} busy).isSome, ∃ onward : (run step ((run step {} busy).get ran) mixed).isSome,
    ∃ more last, (∀ event ∈ more, event.works 0 = true) ∧
      run step ((run step ((run step {} busy).get ran) mixed).get onward) more = some last ∧ Resting 0 (busy ++ mixed ++ more) last := by
  obtain ⟨ran, onward⟩ : ∃ ran : (run step {} busy).isSome, (run step ((run step {} busy).get ran) mixed).isSome :=
    ⟨by decide, by decide⟩
  obtain ⟨_, _, rests⟩ := handler_responsive (Option.some_get ran).symm (Option.some_get onward).symm 0
  exact ⟨ran, onward, rests⟩

end Kvasir.Server
