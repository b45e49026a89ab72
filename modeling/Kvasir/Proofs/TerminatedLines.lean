import Kvasir.Proofs.HandlerProgress
import Kvasir.Proofs.ServerGate
import Kvasir.Proofs.ProtocolParse

/-! Which lines of a connection's bytes reach the store. The scanner hands over
the unterminated rest when reading fails, and the handler cannot tell it from a
whole line, so a command cut short is executed whenever the cut still parses. -/

namespace Kvasir.Server
open Runs Scanner Protocol Strings Proofs.ProtocolParse

/-- Every executed command is a line whose newline was received. -/
def TerminatedOnly (past : List Action) : Prop :=
  ∀ (index : Nat) line reply command, (processed past)[index]? = some (line, reply) → parse line = .ok command →
    ((Lines.complete newline (received past)).map dropCR)[index]? = some line

/-- Bytes after the last newline, when reading has ended, are no command. -/
def RestRejected (past : List Action) : Prop :=
  .readEnd ∈ past → Lines.rest newline (received past) = [] ∨
    ∃ error, parse (Lines.rest newline (received past)) = .error error

section Past
variable {past : List Action} {conn : Conn}

theorem Progress.terminated (progress : Progress past conn) (rejected : RestRejected past) : TerminatedOnly past := by
  intro index line reply command found accepted
  have handed := progress.processed_line found
  rcases progress.tokens.delivered_lines with prefixed | ⟨failed, nonempty, whole⟩
  · exact Lines.prefix_at prefixed handed
  · rw [whole] at handed
    by_cases terminated : index < ((Lines.complete newline (received past)).map dropCR).length
    · rwa [List.getElem?_append_left terminated] at handed
    · -- Only the unterminated rest is left, and it does not parse.
      rw [List.getElem?_append_right (by omega)] at handed
      obtain ⟨error, refused⟩ := (rejected (progress.ended.mp failed)).resolve_left nonempty
      have last := List.mem_singleton.mp (List.mem_of_getElem? handed)
      rw [last, parse_dropCR, refused] at accepted
      cases accepted

theorem Progress.rest_processed (progress : Progress past conn) (left : 4 ≤ conn.phase.stage)
    (written : writes false past = []) (terminated : TerminatedOnly past) : RestRejected past := by
  intro ended
  have stopped := (progress.left left).resolve_left (fun failed => failed written)
  have failed := progress.ended.mpr ended
  obtain ⟨_, ⟨_, empty⟩ | ⟨running, _⟩⟩ := scan_stop stopped
  · cases progress.tokens with
    | terminated raws clean fits bounded cut stream tokens =>
      left
      rw [stream, empty]
      exact Lines.rest_unlines newline clean List.not_mem_nil
    | unterminated raws last clean fits nonempty lastClean cut drained stream tokens =>
      right
      rw [stream, Lines.rest_unlines newline clean lastClean]
      cases parsed : parse last with
      | error error => exact ⟨error, rfl⟩
      | ok command =>
        have lines := progress.lines
        rw [(Phase.idle left).1, Option.toList_none, List.append_nil, tokens] at lines
        have found : ((processed past).map Prod.fst)[raws.length]? = some (dropCR last) := by
          rw [← lines]
          simp
        rw [List.getElem?_map, Option.map_eq_some_iff] at found
        obtain ⟨⟨line, reply⟩, found, rfl⟩ := found
        have taken := terminated raws.length (dropCR last) reply command found (by rw [parse_dropCR, parsed])
        rw [stream, Lines.complete_unlines newline clean lastClean] at taken
        simp at taken
  · simp [failed] at running

end Past

variable {store : MemoryStore} {events : List Event} {state : State}

/-- Where the rest is no command, only terminated lines take effect. A handler
that came to the end of its input executes whatever the rest parses to. -/
theorem terminated_lines (ran : run step { store } events = some state) (id : ConnId) :
    (RestRejected (actions id events) → TerminatedOnly (actions id events)) ∧
    (.unregister id ∈ events → writes false (actions id events) = [] →
      (TerminatedOnly (actions id events) ↔ RestRejected (actions id events))) := by
  have progress := progress_run ran id
  refine ⟨progress.terminated, fun cleaned written => ⟨progress.rest_processed ?_ written, progress.terminated⟩⟩
  have late := (unregister_iff ran id).mp cleaned
  exact Nat.le_of_succ_le late

/-- A client hangs up in the middle of a line that is no command. -/
def cutVerb : List Event := [.accept 0, .register 0, .spawn 0, .handle 0 (.read (text "SET a 1\nSET bal")),
  .handle 0 (.deliver (text "SET a 1")), .handle 0 (.process (text "SET a 1") (text "OK\n")),
  .handle 0 (.write (text "OK\n") true), .handle 0 .readEnd, .handle 0 (.deliver (text "SET bal")),
  .handle 0 (.process (text "SET bal") (text "ERR SET takes a key and a value\n")),
  .handle 0 (.write (text "ERR SET takes a key and a value\n") true), .handle 0 .leave, .unregister 0]

theorem terminated_lines_verb : (run step {} cutVerb).isSome ∧ TerminatedOnly (actions 0 cutVerb) ∧
    (TerminatedOnly (actions 0 cutVerb) ↔ RestRejected (actions 0 cutVerb)) := by
  have ran : (run step {} cutVerb).isSome := by decide
  have ⟨enough, finished⟩ := terminated_lines (Option.some_get ran).symm 0
  exact ⟨ran, enough fun _ => .inr ⟨.keyAndValue, by decide⟩, finished (by decide) (by decide)⟩

/-- The line "SET balance 1000" is cut after its second digit by the end of the stream. -/
def cutValue : List Event := [.accept 0, .register 0, .spawn 0, .handle 0 (.read (text "SET balance 10")),
  .handle 0 .readEnd, .handle 0 (.deliver (text "SET balance 10")),
  .handle 0 (.process (text "SET balance 10") (text "OK\n"))]

theorem cut_value_executed : ∃ ran : (run step {} cutValue).isSome,
    ((run step {} cutValue).get ran).store.get (text "balance") = some (text "10") ∧
    ¬ TerminatedOnly (actions 0 cutValue) := by
  refine ⟨by decide, by decide, fun terminated => ?_⟩
  have line := terminated 0 (text "SET balance 10") (text "OK\n") ⟨.set, text "balance", text "10"⟩ (by decide) (by decide)
  revert line
  decide

end Kvasir.Server
