import Kvasir.Page
import Kvasir.Proofs.DisjointKeys

/-! The engine in the page against the server. The server cuts its lines from a
stream and drops a carriage return; Parse gets the page's lines whole. Parse does
not see the difference, so one line is one turn of the same object. -/

namespace Kvasir.Page
open Runs Histories Strings Utf8 Protocol Server Scanner Proofs.ProtocolParse

theorem execute_server (st : MemoryStore) (cmd : Command) : execute st cmd = Server.execute st cmd := by
  obtain ⟨op, key, value⟩ := cmd
  cases op with
  | get | set => rfl
  | del =>
    simp only [execute, Server.execute]
    split <;> rfl

theorem eval_answer (engine : Engine) (line : Bytes) :
    answer engine.st line = ((eval engine line).1.st, (eval engine line).2.reply) := by
  cases parsed : parse line with
  | error err => rw [answer_error engine.st parsed, eval_error engine parsed]
  | ok cmd => simp only [answer, eval, parsed, execute_server]

/-- However lines are cut, as long as they parse alike, the server's turns are the page's. -/
theorem perform_eval (engine : Engine) (lines : List Bytes) (cut : Bytes → Bytes) (alike : ∀ line, parse (cut line) = parse line) :
    perform answer engine.st (lines.map cut) =
      ((perform eval engine lines).1.st, (perform eval engine lines).2.map Result.reply) := by
  refine perform_image Engine.st cut Result.reply (fun engine line => ?_) engine lines
  rw [← eval_answer, answer, alike, answer]

theorem perform_page (lines : List Bytes) {cut : Bytes → Bytes} (alike : ∀ line, parse (cut line) = parse line) :
    perform answer .new (lines.map cut) = ((perform eval {} lines).1.st, (perform eval {} lines).2.map Result.reply) :=
  perform_eval {} lines cut alike

/-- Whether a line is executed, and on which key. -/
def Reports (line : Bytes) (result : Result) : Prop :=
  match parse line with
  | .ok cmd => result.ok = true ∧ result.touched = cmd.key
  | .error _ => result.ok = false ∧ result.touched = []

theorem eval_reports (engine : Engine) (line : Bytes) : Reports line (eval engine line).2 := by
  unfold Reports
  cases parsed : parse line with
  | error err => rw [eval_error engine parsed]; exact ⟨rfl, rfl⟩
  | ok cmd => simp only [eval, parsed, and_self]

/-- What the page and one connection have in common, at any point of a run. -/
structure Agrees (lines : List Bytes) (id : ConnId) (events : List Event) (state : State) : Prop where
  stores : state.store = (perform eval {} (lines.take (processed (actions id events)).length)).1.st
  replies : replies (actions id events) <+: (perform eval {} lines).2.map Result.reply
  finished : Finished id events → Server.replies (actions id events) = (perform eval {} lines).2.map Result.reply
  each : ∀ (index : Nat) line reply, (processed (actions id events))[index]? = some (line, reply) →
    ∃ result, (perform eval {} lines).2[index]? = some result ∧ result.reply = reply ∧ Reports line result

/-- Lines sent over the only connection get the page's replies and leave the
page's map, one after the other. -/
theorem page_agrees {lines : List Bytes} {id : ConnId} {events : List Event} {state : State}
    (sent : ∀ line ∈ lines, newline ∉ line ∧ line.length ≤ 65535)
    (ran : run step {} events = some state) (sends : Sends (Lines.unlines newline lines) (actions id events))
    (alone : ∀ other, other ≠ id → processed (actions other events) = []) : Agrees lines id events state := by
  have progress := progress_run ran id
  have clean := fun line member => (sent line member).1
  have fitting : lines.takeWhile (Fits ·) = lines := by
    refine List.takeWhile_eq_self_iff.mpr fun line member => decide_eq_true ?_
    exact Nat.lt_succ_of_le (sent line member).2
  have asked := progress.processed_sent clean sends
  rw [fitting] at asked
  have turns := perform_alone ran alone
  have taken : (processed (actions id events)).map Prod.fst =
      (lines.take (processed (actions id events)).length).map dropCR := by
    rw [List.prefix_iff_eq_take.mp asked, List.length_map, List.map_take]
  rw [taken, perform_page _ parse_dropCR, Prod.mk.injEq] at turns
  obtain ⟨stores, results⟩ := turns
  have grows : (processed (actions id events)).map Prod.snd <+: (perform eval {} lines).2.map Result.reply := by
    rw [← results]
    exact (perform_grows eval {} (List.take_prefix _ lines)).map _
  refine ⟨stores.symm, progress.ordered.trans grows, fun done => ?_, fun index line reply found => ?_⟩
  · have whole := done.perform ran clean sends alone
    rw [fitting, perform_page _ parse_dropCR, Prod.mk.injEq] at whole
    exact whole.2.symm
  · have replied : ((processed (actions id events)).map Prod.snd)[index]? = some reply := by
      rw [List.getElem?_map, found]
      rfl
    have shown := Lines.prefix_at grows replied
    rw [List.getElem?_map, Option.map_eq_some_iff] at shown
    obtain ⟨result, shown, same⟩ := shown
    obtain ⟨raw, given, rfl⟩ := perform_at eval shown
    obtain ⟨whole, present, rfl⟩ := processed_sent ran clean sends found
    obtain rfl : raw = whole := Option.some.inj (given.symm.trans present)
    refine ⟨_, shown, same, ?_⟩
    unfold Reports
    rw [parse_dropCR]
    exact eval_reports _ raw

/-- A rejected line and one that ends in more than one carriage return. -/
def twoLines : List Event := [.accept 0, .register 0, .spawn 0, .handle 0 (.read (text "GET\nSET a b\r\r\n")),
  .handle 0 (.deliver (text "GET")), .handle 0 (.process (text "GET") (text "ERR GET takes exactly one key\n")),
  .handle 0 (.write (text "ERR GET takes exactly one key\n") true), .handle 0 (.deliver (text "SET a b\r")),
  .handle 0 (.process (text "SET a b\r") (text "OK\n")), .handle 0 (.write (text "OK\n") true), .handle 0 .readEnd,
  .handle 0 .leave, .unregister 0]

theorem page_agrees_two : ∃ ran : (run step {} twoLines).isSome,
    Agrees [text "GET", text "SET a b\r\r"] 0 twoLines ((run step {} twoLines).get ran) := by
  refine ⟨by decide, page_agrees (by decide) (Option.some_get _).symm ⟨by decide, by decide⟩ fun other apart => ?_⟩
  simp [twoLines, actions, processed, Ne.symm apart]

end Kvasir.Page
