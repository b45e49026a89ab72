import Kvasir.Proofs.ProtocolParse
import Kvasir.Proofs.StoreHistory

/-! Every reply is one line. The echo of a rejected word is quoted; a stored
value is safe because every line the scanner hands over is. -/

namespace Kvasir.Server
open Runs Scanner Protocol Strings Proofs.ProtocolParse

def OneLine (reply : Bytes) : Prop := ∃ line, reply = line ++ [newline] ∧ newline ∉ line

/-- No stored value contains a line end. -/
def Clean (store : MemoryStore) : Prop := ∀ key value, store.get key = some value → newline ∉ value

theorem Clean.new : Clean .new := by simp [Clean]

theorem error_clean {line : Bytes} {error : ParseError} (rejected : parse line = .error error) :
    newline ∉ error.message := by
  cases error with
  | empty | keyAndValue => decide
  | oneKey verb => rcases parse_oneKey rejected with rfl | rfl <;> decide
  | unknown word =>
    intro member
    rcases List.mem_append.mp member with plain | quoted
    · revert plain; decide
    · exact absurd (quote_visible word newline quoted) (by decide)

theorem value_clean {line : Bytes} {command : Command} (accepted : parse line = .ok command) (whole : newline ∉ line) :
    newline ∉ command.value := by
  obtain ⟨formed, word, _, _, shape⟩ := parse_ok accepted
  obtain ⟨suffix, split, _⟩ := trimRight_split lineEnds line
  rw [split, shape] at whole
  cases set : command.op with
  | set =>
    intro member
    apply whole
    simp [operands, set, member]
  | get => simp [formed.valueless (by simp [set])]
  | del => simp [formed.valueless (by simp [set])]

/-- A reply is the message of an error, a word of the protocol, or a stored value. -/
theorem answer_body (store : MemoryStore) (line : Bytes) : ∃ reply, (answer store line).2 = reply ++ [newline] ∧
    ((∃ error, parse line = .error error ∧ reply = text "ERR " ++ error.message) ∨
      reply ∈ [text "(nil)", text "OK", text "1", text "0"] ∨ ∃ key, store.get key = some reply) := by
  cases parsed : parse line with
  | error error =>
    rw [answer_error store parsed]
    exact ⟨_, rfl, .inl ⟨error, rfl, rfl⟩⟩
  | ok command =>
    obtain ⟨op, key, value⟩ := command
    cases op with
    | get =>
      rw [answer_get store parsed]
      cases found : store.get key with
      | none => exact ⟨text "(nil)", rfl, .inr (.inl (by simp))⟩
      | some value => exact ⟨value, rfl, .inr (.inr ⟨key, found⟩)⟩
    | set =>
      rw [answer_set store parsed]
      exact ⟨text "OK", rfl, .inr (.inl (by simp))⟩
    | del =>
      rw [answer_del store parsed]
      dsimp only
      split
      · exact ⟨text "1", rfl, .inr (.inl (by simp))⟩
      · exact ⟨text "0", rfl, .inr (.inl (by simp))⟩

theorem Clean.reply {store : MemoryStore} (clean : Clean store) (line : Bytes) : OneLine (answer store line).2 := by
  obtain ⟨reply, answered, body⟩ := answer_body store line
  refine ⟨reply, answered, ?_⟩
  rcases body with ⟨error, rejected, rfl⟩ | word | ⟨key, found⟩
  · intro member
    rcases List.mem_append.mp member with plain | message
    · revert plain; decide
    · exact error_clean rejected message
  · simp only [List.mem_cons, List.not_mem_nil, or_false] at word
    rcases word with rfl | rfl | rfl | rfl <;> decide
  · exact clean key reply found

theorem Clean.answer {store : MemoryStore} (clean : Clean store) {line : Bytes} (whole : newline ∉ line) :
    Clean (answer store line).1 :=
  answer_stored clean fun _ _ accepted => value_clean accepted whole

section Runs
variable {store : MemoryStore} {events : List Event} {state : State}

theorem clean_run (clean : Clean store) (ran : run step { store } events = some state) : Clean state.store := by
  refine store_run clean ?_ ran
  intro past id line reply current _ earlier other clean
  refine clean.answer ((progress_run earlier id).clean ?_)
  simp [actions, processed]

end Runs

end Kvasir.Server
