import Kvasir.Lib.Streams
import Kvasir.Proofs.ServerGate
import Kvasir.Proofs.StoreHistory

/-! The transcript of a connection. Any stream of bytes, terminated or not and however
it arrives, is one list of lines to the handler; alone on the server, a client gets
the replies that these lines have when they are performed one after the other. -/

namespace Kvasir.Server
open Runs Histories Scanner Strings

theorem yields_handle {store store' : MemoryStore} {past : List Action} {before after : Conn} {action : Action}
    (yields : Yields (received past) (delivered past) before.scanner) (handled : handle store before action = some (store', after)) :
    Yields (received (past ++ [action])) (delivered (past ++ [action])) after.scanner := by
  rw [received_append, delivered_append, received_single, delivered_single]
  cases action with
  | read chunk =>
    obtain ⟨⟨_, waiting, _, _, bound⟩, same⟩ := (allow_eq_some ..).mp handled
    cases same
    simpa using yields.read waiting bound
  | readEnd =>
    obtain ⟨⟨_, waiting⟩, same⟩ := (allow_eq_some ..).mp handled
    cases same
    simpa using yields.fail waiting
  | deliver line =>
    obtain ⟨rest, scanned, _, _, rfl⟩ := handle_deliver handled
    simpa using yields.token scanned
  | process _ _ | write _ _ | leave =>
    obtain ⟨_, same⟩ := (allow_eq_some ..).mp handled
    cases same
    simpa using yields

section Runs
variable {store : MemoryStore} {events : List Event} {state : State} {id : ConnId} {stream : Bytes}

theorem yields_change {past : List Action} {event : Event} {before after : Conn}
    (yields : Yields (received past) (delivered past) before.scanner) (change : Change store id event before after) :
    Yields (received (past ++ actions id [event])) (delivered (past ++ actions id [event])) after.scanner := by
  cases change with
  | handle handled => simpa [actions] using yields_handle yields handled
  | other apart => simpa [actions_apart apart] using yields
  | accept | register | refuse | spawn | unregister | close | wgDone | closeRefused | closeLive | gone =>
    simpa [actions] using yields

theorem yields_run (ran : run step { store } events = some state) (id : ConnId) :
    Yields (received (actions id events)) (delivered (actions id events)) (state.conn id).scanner := by
  refine invariant (fun past state => Yields (received (actions id past)) (delivered (actions id past)) (state.conn id).scanner) ?_ ?_ ran
  · exact Yields.initial
  intro past before event after earlier yields stepped
  rw [actions_append]
  exact yields_change yields (step_conn (placed_run earlier) stepped id)

/-- What a connection has processed and answered, told by its stream alone. -/
structure Transcript (store : MemoryStore) (events : List Event) (state : State) (id : ConnId) (lines : List Bytes) : Prop where
  asked : (processed (actions id events)).map Prod.fst <+: lines
  finished : .unregister id ∈ events → writes false (actions id events) = [] →
    (processed (actions id events)).map Prod.fst = lines ∧ (processed (actions id events)).map Prod.snd = replies (actions id events)
  alone : (∀ other, other ≠ id → processed (actions other events) = []) →
    replies (actions id events) <+: (perform answer store lines).2 ∧
    (.unregister id ∈ events → writes false (actions id events) = [] →
      (state.store, replies (actions id events)) = perform answer store lines)

/-- The lines a handler processes are the tokens of the stream it is sent, whatever the
stream is and however it is split into reads; a handler that has ended without a failed
write has processed and answered all of them. The replies that a client alone on the
server gets, and the store it leaves, depend on nothing but its stream. -/
theorem transcript (ran : run step { store } events = some state) (sends : Sends stream (actions id events)) :
    Transcript store events state id (tokens stream) := by
  have progress := progress_run ran id
  have yields := yields_run ran id
  obtain ⟨⟨unread, rfl⟩, whole⟩ := sends
  have exhausted : (state.conn id).scanner.failed = true → unread = [] := by
    intro failed
    simpa using (whole (progress.ended.mp failed)).symm
  have asked : (processed (actions id events)).map Prod.fst <+: tokens (received (actions id events) ++ unread) := by
    refine List.IsPrefix.trans ?_ (yields.prefixed exhausted)
    rw [progress.lines]
    exact List.prefix_append ..
  have finished : .unregister id ∈ events → writes false (actions id events) = [] →
      (processed (actions id events)).map Prod.fst = tokens (received (actions id events) ++ unread) ∧
        (processed (actions id events)).map Prod.snd = replies (actions id events) := by
    intro cleaned written
    have left : 4 ≤ (state.conn id).phase.stage := Nat.le_of_succ_le ((unregister_iff ran id).mp cleaned)
    have stopped := (progress.left left).resolve_left fun failed => failed written
    have lines := progress.lines
    have answers := progress.answers
    rw [(Phase.idle left).1, yields.stop stopped exhausted] at lines
    rw [(Phase.idle left).2, written] at answers
    exact ⟨by simpa using lines.symm, by simpa using answers⟩
  refine ⟨asked, finished, fun alone => ?_⟩
  have performed := perform_alone ran alone
  refine ⟨?_, fun cleaned written => ?_⟩
  · have grown := perform_grows answer store asked
    rw [performed] at grown
    exact progress.ordered.trans grown
  · obtain ⟨lines, answers⟩ := finished cleaned written
    rw [lines, answers] at performed
    exact performed.symm

/-- Two commands in three reads; the second is ended by the end of the stream. -/
def cutStream : List Event := [.accept 0, .register 0, .spawn 0, .handle 0 (.read (text "SET a")),
  .handle 0 (.read (text " b\r\nG")), .handle 0 (.deliver (text "SET a b")), .handle 0 (.process (text "SET a b") (text "OK\n")),
  .handle 0 (.write (text "OK\n") true), .handle 0 (.read (text "ET a")), .handle 0 .readEnd, .handle 0 (.deliver (text "GET a")),
  .handle 0 (.process (text "GET a") (text "b\n")), .handle 0 (.write (text "b\n") true), .handle 0 .leave, .unregister 0]

theorem transcript_cut : ∃ ran : (run step {} cutStream).isSome,
    Transcript .new cutStream ((run step {} cutStream).get ran) 0 (tokens (text "SET a b\r\nGET a")) := by
  have ran : (run step {} cutStream).isSome := by decide
  exact ⟨ran, @transcript .new _ _ _ _ (Option.some_get ran).symm ⟨by decide, by decide⟩⟩

end Runs

end Kvasir.Server
