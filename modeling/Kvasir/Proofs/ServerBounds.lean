import Kvasir.Proofs.Grammar
import Kvasir.Proofs.OneLineReplies

/-! How much one line can make the server hold and send. The scanner bounds the line,
the line bounds what it stores, and quoting bounds what an error echoes of it. -/

namespace Kvasir.Scanner
open Strings

variable {received : Bytes} {delivered : List Bytes} {scanner after : Scanner} {line : Bytes}

theorem dropCR_length (line : Bytes) : (dropCR line).length ≤ line.length := by
  unfold dropCR
  split <;> simp

theorem Tokens.pending_length (tokens : Tokens received delivered scanner) : scanner.pending.length ≤ maxTokenSize := by
  cases tokens with
  | terminated _ _ _ bounded => exact bounded
  | unterminated _ _ _ _ _ _ _ empty => simp [empty]

/-- Every line that is handed over fits, also one that is not terminated. -/
theorem Tokens.token_fits (tokens : Tokens received delivered scanner) (scanned : scanner.scan = .token line after) : Fits line := by
  have bounded := tokens.pending_length
  rcases scan_token scanned with ⟨raw, rfl, _, split, _⟩ | ⟨failed, _, nonempty, rfl, _⟩
  · rw [split, List.length_append, List.length_cons] at bounded
    have short := dropCR_length raw
    unfold Fits
    omega
  · cases tokens with
    | terminated _ _ _ _ ended => exact Nat.lt_of_le_of_lt (dropCR_length _) (ended failed).2
    | unterminated _ _ _ _ _ _ _ empty => exact absurd empty nonempty

end Kvasir.Scanner

namespace Kvasir.Server
open Runs Scanner Strings Protocol Proofs.ProtocolParse Proofs.Grammar

/-- A SET line is longer than what it stores, by its verb and two spaces. -/
theorem stored_length {line key value : Bytes} (parsed : parse line = .ok ⟨.set, key, value⟩) :
    key.length + value.length + 5 ≤ line.length := by
  obtain ⟨_, word, _, upper, shape⟩ := parse_ok parsed
  obtain ⟨suffix, split, _⟩ := trimRight_split lineEnds line
  have letters : 3 ≤ word.length := toUpper_length (show ∀ byte ∈ verb .set, byte < 0x80 by simp [verb, text]) upper
  have lengths := congrArg List.length shape
  have whole := congrArg List.length split
  simp only [operands, List.length_append, List.length_cons] at lengths whole
  omega

theorem error_length {line : Bytes} {error : ParseError} (rejected : parse line = .error error) :
    (replyError error).length ≤ max 32 (4 * line.length + 23) := by
  cases error with
  | empty | keyAndValue => exact Nat.le_trans (by decide) (Nat.le_max_left 32 _)
  | oneKey verb =>
    refine Nat.le_trans ?_ (Nat.le_max_left 32 _)
    rcases parse_oneKey rejected with rfl | rfl <;> decide
  | unknown word =>
    refine Nat.le_trans ?_ (Nat.le_max_right 32 _)
    have short : word.length ≤ line.length := by
      obtain ⟨suffix, split, _⟩ := trimRight_split lineEnds line
      have whole := congrArg List.length split
      rw [List.length_append] at whole
      rw [unknown_word rejected, firstWord]
      exact Nat.le_trans (List.takeWhile_prefix _).length_le (by omega)
    have quoted := quote_length word
    have fixed : (text "ERR ").length = 4 ∧ (text "unknown command ").length = 16 := by decide
    simp only [replyError, ParseError.message, List.length_append, fixed, List.length_singleton]
    omega

/-- What a store may hold: every entry would fit into a SET line. -/
def Small (store : MemoryStore) : Prop := ∀ key value, store.get key = some value → key.length + value.length + 5 < maxTokenSize

theorem Small.new : Small .new := by simp [Small]

theorem Small.answer {store : MemoryStore} (small : Small store) {line : Bytes} (fits : Fits line) : Small (Server.answer store line).1 := by
  intro key value found
  rw [answer_obeys] at found
  split at found
  next written effect wrote =>
    split at found
    next same =>
      subst found same
      exact Nat.lt_of_le_of_lt (stored_length (lineEffect_put wrote)) fits
    · exact small key value found
  next => exact small key value found

/-- The longest reply: an echo of a whole line, each byte in hex. -/
def maxReply : Nat := 4 * (maxTokenSize - 1) + 23

theorem Small.reply {store : MemoryStore} (small : Small store) {line : Bytes} (fits : Fits line) :
    (Server.answer store line).2.length ≤ maxReply := by
  obtain ⟨reply, answered, body⟩ := answer_body store line
  have size : maxReply = 262163 ∧ maxTokenSize = 65536 := by decide
  rw [answered, List.length_append, List.length_singleton]
  rcases body with ⟨error, rejected, rfl⟩ | word | ⟨key, found⟩
  · have bound := error_length rejected
    have short : line.length < maxTokenSize := fits
    simp only [replyError, List.length_append, List.length_singleton] at bound ⊢
    omega
  · simp only [List.mem_cons, List.not_mem_nil, or_false] at word
    rcases word with rfl | rfl | rfl | rfl <;> decide
  · have bound := small key reply found
    omega

section Stray
variable {n : Nat}

private theorem runes_stray (n : Nat) : Utf8.runes (List.replicate n 0xFF) = List.replicate n (Utf8.runeError, [0xFF]) := by
  induction n with
  | zero => rfl
  | succ n ih =>
    have stray : Utf8.decodeRune (0xFF :: List.replicate n 0xFF) = (Utf8.runeError, 1) := by
      simp [Utf8.decodeRune, Utf8.leading]
    rw [List.replicate_succ, Utf8.runes_cons, stray, List.replicate_succ]
    simpa using ih

private theorem stray_upper (op : Op) : toUpper (List.replicate (n + 1) 0xFF) ≠ verb op := by
  have upper : Unicode.toUpper Utf8.runeError = Utf8.runeError := by decide
  have first : Utf8.encodeRune Utf8.runeError = [0xEF, 0xBF, 0xBD] := by decide
  rw [toUpper, runes_stray, List.replicate_succ, List.flatMap_cons]
  dsimp only
  rw [upper, first]
  intro same
  have head := congrArg (List.head? ·) same
  cases op <;> simp [verb, text] at head

/-- Bytes that are no UTF-8 are a word of their own. -/
private theorem parse_stray : parse (List.replicate (n + 1) 0xFF) = .error (.unknown (List.replicate (n + 1) 0xFF)) := by
  have kept : trimRight lineEnds (List.replicate (n + 1) 0xFF) = List.replicate (n + 1) 0xFF := by
    refine trimRight_self fun last ends => ?_
    rw [List.eq_of_mem_replicate (List.mem_of_getLast? ends)]
    decide
  have whole : firstWord (List.replicate (n + 1) 0xFF) = List.replicate (n + 1) 0xFF := by
    rw [firstWord, kept, List.takeWhile_replicate_eq_filter]
    simp [space]
  have visible : parse (List.replicate (n + 1) 0xFF) ≠ .error .empty := by
    rw [ne_eq, parse_empty, kept, runes_stray, List.replicate_succ, List.forall_mem_cons]
    exact fun blank => absurd blank.1 (by decide)
  rcases parse_unknown.mpr (.inr fun op => by rw [whole]; exact stray_upper op) with blank | ⟨word, rejected⟩
  · exact absurd blank visible
  · rw [rejected, unknown_word rejected, whole]

/-- The longest echo there is: each byte takes four. -/
theorem stray_reply (store : MemoryStore) : (answer store (List.replicate (n + 1) 0xFF)).2.length = 4 * (n + 1) + 23 := by
  have quoted : (quote (List.replicate (n + 1) 0xFF)).length = 4 * (n + 1) + 2 := by
    have entry : quoteEntry (Utf8.runeError, [0xFF]) = text "\\xff" := by decide
    have shape : quote (List.replicate (n + 1) 0xFF) = 0x22 :: (Utf8.runes (List.replicate (n + 1) 0xFF)).flatMap quoteEntry ++ [0x22] := rfl
    rw [shape, runes_stray, List.length_append, List.length_cons, List.length_flatMap, List.map_replicate, List.sum_replicate_nat, entry]
    simp [text]
    omega
  have fixed : (text "ERR ").length = 4 ∧ (text "unknown command ").length = 16 := by decide
  rw [answer_error store parse_stray]
  simp only [replyError, ParseError.message, List.length_append, fixed, List.length_singleton, quoted]
  omega

end Stray

section Run
variable {events : List Event} {state : State}

theorem delivered_fits (ran : run step {} events = some state) (id : ConnId) : ∀ line ∈ delivered (actions id events), Fits line := by
  refine invariant (fun past _ => ∀ line ∈ delivered (actions id past), Fits line) (by simp [actions, delivered]) ?_ ran
  intro past before event after earlier ih stepped line member
  rw [actions_append, delivered_append] at member
  rcases List.mem_append.mp member with old | new
  · exact ih line old
  · cases event with
    | handle other action =>
      by_cases same : other = id
      · subst same
        cases action with
        | deliver found =>
          obtain rfl : line = found := by simpa [actions, delivered] using new
          obtain ⟨_, _, handled, _⟩ := step_handle stepped
          obtain ⟨_, scanned, _⟩ := handle_deliver handled
          exact (progress_run earlier other).tokens.token_fits scanned
        | _ => simp [actions, delivered] at new
      · simp [actions, delivered, same] at new
    | _ => simp [actions, delivered] at new

theorem processed_fits (ran : run step {} events = some state) {id : ConnId} {line reply : Bytes}
    (turn : (line, reply) ∈ processed (actions id events)) : Fits line := by
  refine delivered_fits ran id line ?_
  rw [(progress_run ran id).lines]
  exact List.mem_append_left _ (List.mem_map_of_mem turn)

theorem small_run (ran : run step {} events = some state) : Small state.store := by
  refine store_run Small.new ?_ ran
  intro past id line reply current _ earlier store small
  exact small.answer (@processed_fits _ _ earlier id line reply (processed_member.mpr (by simp)))

theorem replies_short (ran : run step {} events = some state) (id : ConnId) :
    ∀ turn ∈ processed (actions id events), turn.2.length ≤ maxReply := by
  rintro ⟨line, reply⟩ turn
  obtain ⟨past, future, rfl⟩ := List.append_of_mem (processed_member.mp turn)
  obtain ⟨before, after, arrived, stepped, _⟩ := run_at ran
  have fits := processed_fits ran turn
  have answered := congrArg Prod.snd (step_answered stepped)
  exact answered ▸ (small_run arrived).reply fits

/-- In every reachable state a connection buffers at most 64 KiB, every line that was
handed over is shorter than that, every entry of the store would fit into such a line,
and no reply is longer than the longest echo of one. A line that gets this echo exists
in every state. -/
theorem served_bounded (ran : run step {} events = some state) :
    (∀ id, (state.conn id).scanner.pending.length ≤ maxTokenSize) ∧ (∀ id, ∀ line ∈ delivered (actions id events), Fits line) ∧
    Small state.store ∧ (∀ id, ∀ turn ∈ processed (actions id events), turn.2.length ≤ maxReply) ∧
    ∃ line, Fits line ∧ (answer state.store line).2.length = maxReply := by
  refine ⟨fun id => (progress_run ran id).tokens.pending_length, delivered_fits ran, small_run ran, replies_short ran, ?_⟩
  have size : maxTokenSize = 65534 + 2 := rfl
  refine ⟨List.replicate (65534 + 1) 0xFF, ?_, ?_⟩
  · rw [Fits, List.length_replicate, size]
    omega
  · rw [stray_reply, maxReply, size]

end Run

/-- Two handlers of which one is in the middle of a line. -/
def halfway : List Event := [.accept 0, .register 0, .spawn 0, .accept 1, .register 1, .spawn 1,
  .handle 0 (.read (text "SET a b\nGE")), .handle 0 (.deliver (text "SET a b")), .handle 0 (.process (text "SET a b") (text "OK\n")),
  .handle 1 (.read (text "HI\n")), .handle 1 (.deliver (text "HI")),
  .handle 1 (.process (text "HI") (text "ERR unknown command \"HI\"\n"))]

theorem served_bounded_halfway : ∃ ran : (run step {} halfway).isSome, Small ((run step {} halfway).get ran).store ∧
    ((run step {} halfway).get ran).store.get (text "a") = some (text "b") := by
  obtain ⟨ran, stored⟩ : ∃ ran : (run step {} halfway).isSome,
      ((run step {} halfway).get ran).store.get (text "a") = some (text "b") := ⟨by decide, by decide⟩
  obtain ⟨_, _, small, _⟩ := served_bounded (Option.some_get ran).symm
  exact ⟨ran, small, stored⟩

end Kvasir.Server
