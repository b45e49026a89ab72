import Kvasir.Proofs.OneLineReplies
import Kvasir.Proofs.ServerGate

/-! A client that pipelines can match replies to requests by counting lines,
whatever the other clients have stored. -/

namespace Kvasir.Server
open Runs Scanner Protocol Strings Proofs.ProtocolParse

theorem answer_dropCR (store : MemoryStore) (raw : Bytes) : answer store (dropCR raw) = answer store raw := by
  simp only [answer, parse_dropCR]

/-- One-line replies, written one after the other, split into those lines. -/
theorem flatten_lines {replies : List Bytes} (single : ∀ reply ∈ replies, OneLine reply) :
    replies.flatten = Lines.unlines newline (replies.map List.dropLast) ∧
      (∀ line ∈ replies.map List.dropLast, newline ∉ line) ∧
      ∀ reply ∈ replies, reply = reply.dropLast ++ [newline] := by
  induction replies with
  | nil => simp
  | cons reply replies ih =>
    obtain ⟨⟨line, rfl, clean⟩, rest⟩ := List.forall_mem_cons.mp single
    obtain ⟨whole, lines, ends⟩ := ih rest
    simp only [List.flatten_cons, List.map_cons, List.dropLast_concat, Lines.unlines_cons, List.forall_mem_cons, whole]
    exact ⟨by simp, ⟨clean, lines⟩, trivial, ends⟩

/-- What a connection has answered, of the lines it may be asked. -/
structure Paired (id : ConnId) (events : List Event) (lines answers : List Bytes) : Prop where
  written : (replies (actions id events)).flatten = Lines.unlines newline answers
  clean : ∀ answer ∈ answers, newline ∉ answer
  bounded : answers.length ≤ lines.length
  complete : .unregister id ∈ events → answers.length = lines.length
  each : ∀ (index : Nat) reply, answers[index]? = some reply → ∃ line past before future, lines[index]? = some line ∧
    events = past ++ .handle id (.process (dropCR line) (reply ++ [newline])) :: future ∧
    run step {} past = some before ∧ (processed (actions id past)).length = index ∧
    (answer before.store line).2 = reply ++ [newline]
  executed : (processed (actions id events)).map Prod.fst <+: lines.map dropCR

variable {events : List Event} {state : State} {id : ConnId} {lines : List Bytes}

theorem replies_single (ran : run step {} events = some state) (id : ConnId) :
    ∀ reply ∈ replies (actions id events), OneLine reply := by
  have progress := progress_run ran id
  intro reply written
  obtain ⟨index, found⟩ := List.mem_iff_getElem?.mp written
  obtain ⟨line, found⟩ := progress.answered found
  obtain ⟨past, before, future, _, arrived, _, answered⟩ := processed_event ran found
  exact answered ▸ (clean_run Clean.new arrived).reply line

/-- As long as no write fails, the replies are one line each, one for each line
up to the first that does not fit the buffer, and nothing else is executed. -/
theorem request_reply_paired (ran : run step {} events = some state) (sent : ∀ line ∈ lines, newline ∉ line)
    (sends : Sends (Lines.unlines newline lines) (actions id events)) (succeed : writes false (actions id events) = []) :
    ∃ answers, Paired id events (lines.takeWhile (Fits ·)) answers := by
  have progress := progress_run ran id
  obtain ⟨written, clean, ends⟩ := flatten_lines (replies_single ran id)
  have executed := progress.processed_sent sent sends
  refine ⟨(replies (actions id events)).map List.dropLast, written, clean, ?_, fun cleaned => ?_, ?_, executed⟩
  · have first := progress.ordered.length_le
    have second := executed.length_le
    simp only [List.length_map] at *
    omega
  · have late := (unregister_iff ran id).mp cleaned
    obtain ⟨all, answers⟩ := progress.finished sent sends (Nat.le_of_succ_le late) succeed
    have asked := congrArg List.length all
    rw [← answers]
    simpa using asked
  · intro index reply found
    rw [List.getElem?_map, Option.map_eq_some_iff] at found
    obtain ⟨whole, found, rfl⟩ := found
    have terminated := ends whole (List.mem_of_getElem? found)
    obtain ⟨line, found⟩ := progress.answered found
    obtain ⟨past, before, future, cut, arrived, count, answered⟩ := processed_event ran found
    have asked : ((processed (actions id events)).map Prod.fst)[index]? = some line := by
      rw [List.getElem?_map, found]; rfl
    have asked := Lines.prefix_at executed asked
    rw [List.getElem?_map, Option.map_eq_some_iff] at asked
    obtain ⟨raw, sent, rfl⟩ := asked
    rw [← terminated]
    exact ⟨raw, past, before, future, sent, cut, arrived, count, by rw [← answer_dropCR, answered]⟩

/-- Two pipelined requests, read in two pieces, answered one after the other. -/
def pipelined : List Event := [.accept 0, .register 0, .spawn 0, .handle 0 (.read (text "HI \"there\"\nDE")),
  .handle 0 (.deliver (text "HI \"there\"")),
  .handle 0 (.process (text "HI \"there\"") (text "ERR unknown command \"HI\"\n")),
  .handle 0 (.write (text "ERR unknown command \"HI\"\n") true), .handle 0 (.read (text "L a\n")),
  .handle 0 (.deliver (text "DEL a")), .handle 0 (.process (text "DEL a") (text "0\n")),
  .handle 0 (.write (text "0\n") true), .handle 0 .readEnd, .handle 0 .leave, .unregister 0]

theorem request_reply_paired_two : (run step {} pipelined).isSome ∧
    ∃ answers, Paired 0 pipelined ([text "HI \"there\"", text "DEL a"].takeWhile (Fits ·)) answers := by
  have ran : (run step {} pipelined).isSome := by decide
  exact ⟨ran, request_reply_paired (Option.some_get ran).symm (by decide) ⟨by decide, by decide⟩ (by decide)⟩

end Kvasir.Server
