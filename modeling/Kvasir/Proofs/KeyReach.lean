import Kvasir.Proofs.StoreHistory
import Kvasir.Proofs.ProtocolParse

/-! Which keys each command can name. Parse trims line ends from the whole line,
which ends in the key for GET and DEL and in the value for SET, so SET alone can
name a key that ends in a carriage return. -/

namespace Kvasir.Server
open Runs Histories Scanner Strings Protocol Proofs.ProtocolParse

/-- Some line without a newline is a command of this kind on exactly this key. -/
def Accepted (op : Op) (key : Bytes) : Prop :=
  ∃ line command, newline ∉ line ∧ parse line = .ok command ∧ command.op = op ∧ command.key = key

/-- The key can be both read and deleted. -/
def Reached (key : Bytes) : Prop := Accepted .get key ∧ Accepted .del key

/-- What every accepted key is like. -/
structure Token (key : Bytes) : Prop where
  nonempty : key ≠ []
  spaceless : space ∉ key
  clean : newline ∉ key

theorem Accepted.token {op : Op} {key : Bytes} (accepted : Accepted op key) : Token key := by
  obtain ⟨line, command, clean, parsed, _, rfl⟩ := accepted
  obtain ⟨formed, word, _, _, shape⟩ := parse_ok parsed
  refine ⟨formed.nonempty, formed.clean, fun member => clean ?_⟩
  obtain ⟨suffix, split, _⟩ := trimRight_split lineEnds line
  rw [split, shape]
  cases op : command.op <;> simp [operands, op, member]

theorem accepted_set {key : Bytes} : Accepted .set key ↔ Token key := by
  refine ⟨Accepted.token, fun token => ?_⟩
  have formed : WellFormed ⟨.set, key, []⟩ := ⟨token.nonempty, token.spaceless, by simp⟩
  have clean : newline ∉ operands ⟨.set, key, []⟩ := by
    simp only [operands, List.mem_append, List.mem_singleton, not_or]
    exact ⟨token.clean, by decide⟩
  refine ⟨spell ⟨.set, key, []⟩, _, spell_clean newline_ends clean, (parse_spell_clean formed clean).mpr ?_, rfl, rfl⟩
  rw [ne_eq, set_last return_ends]
  simp

theorem accepted_last {op : Op} (keyed : op ≠ .set) {key : Bytes} :
    Accepted op key ↔ Token key ∧ key.getLast? ≠ some carriageReturn := by
  have ends : ∀ value, operands ⟨op, key, value⟩ = key := by intro value; cases op <;> simp_all [operands]
  constructor
  · intro accepted
    refine ⟨accepted.token, fun last => ?_⟩
    obtain ⟨line, ⟨_, _, value⟩, _, parsed, rfl, rfl⟩ := accepted
    exact parse_last parsed (by rw [ends value, last]) return_ends
  · rintro ⟨token, last⟩
    have formed : WellFormed ⟨op, key, []⟩ := ⟨token.nonempty, token.spaceless, fun _ => rfl⟩
    have clean : newline ∉ operands ⟨op, key, []⟩ := by rw [ends]; exact token.clean
    exact ⟨spell ⟨op, key, []⟩, _, spell_clean newline_ends clean, (parse_spell_clean formed clean).mpr (by rwa [ends]), rfl, rfl⟩

theorem reached_iff {key : Bytes} (token : Token key) : Reached key ↔ key.getLast? ≠ some carriageReturn := by
  simp only [Reached, accepted_last (show Op.get ≠ .set by decide), accepted_last (show Op.del ≠ .set by decide), token,
    true_and, and_self]

section Runs
variable {events : List Event} {state : State}

/-- Whatever is stored was set by a line that some handler processed. -/
theorem stored_set (ran : run step {} events = some state) {key value : Bytes} (stored : state.store.get key = some value) :
    ∃ id line reply, .handle id (.process line reply) ∈ events ∧ parse line = .ok ⟨.set, key, value⟩ := by
  have performed := turns_perform ran
  have history : LastSet ((turns events).map fun turn => turn.2.1) key value := by
    rw [← perform_lastSet, performed]
    exact stored
  obtain ⟨past, line, future, whole, effect, _⟩ := history
  have member : line ∈ (turns events).map fun turn => turn.2.1 := by rw [whole]; simp
  obtain ⟨⟨id, handled, reply⟩, turn, rfl⟩ := List.mem_map.mp member
  exact ⟨id, handled, reply, turns_member.mp turn, lineEffect_put effect⟩

theorem stored_token (ran : run step {} events = some state) {key value : Bytes} (stored : state.store.get key = some value) :
    Token key := by
  obtain ⟨id, line, reply, member, parsed⟩ := stored_set ran stored
  have clean := (progress_run ran id).clean (List.mem_map_of_mem (processed_member.mpr member))
  exact Accepted.token ⟨line, _, clean, parsed, rfl, rfl⟩

/-- A stored key is out of reach exactly when it ends in a carriage return, so a
run that never sets such a key keeps every stored key in reach. -/
theorem stored_keys_reached (ran : run step {} events = some state) :
    (∀ key value, state.store.get key = some value → (Reached key ↔ key.getLast? ≠ some carriageReturn)) ∧
    ((∀ id line reply, .handle id (.process line reply) ∈ events → ∀ key value, parse line = .ok ⟨.set, key, value⟩ →
      key.getLast? ≠ some carriageReturn) → ∀ key value, state.store.get key = some value → Reached key) ∧
    ∀ op key, op ≠ .set → (Accepted op key ↔ Accepted .set key ∧ key.getLast? ≠ some carriageReturn) := by
  have reached : ∀ key value, state.store.get key = some value → (Reached key ↔ key.getLast? ≠ some carriageReturn) :=
    fun key value stored => reached_iff (stored_token ran stored)
  refine ⟨reached, fun met key value stored => ?_, fun op key keyed => ?_⟩
  · obtain ⟨id, line, reply, member, parsed⟩ := stored_set ran stored
    exact (reached key value stored).mpr (met id line reply member key value parsed)
  · rw [accepted_last keyed, accepted_set]

def plainKey : List Event := [.accept 0, .register 0, .spawn 0, .handle 0 (.read (text "SET k v\n")),
  .handle 0 (.deliver (text "SET k v")), .handle 0 (.process (text "SET k v") (text "OK\n"))]

theorem stored_keys_reached_plain : ∃ ran : (run step {} plainKey).isSome,
    ((run step {} plainKey).get ran).store.get (text "k") = some (text "v") ∧ Reached (text "k") := by
  obtain ⟨ran, stored⟩ : ∃ ran : (run step {} plainKey).isSome,
      ((run step {} plainKey).get ran).store.get (text "k") = some (text "v") := ⟨by decide, by decide⟩
  exact ⟨ran, stored, ((stored_keys_reached (Option.some_get ran).symm).1 _ _ stored).mpr (by decide)⟩

/-- The same client, with a carriage return inside its line. -/
def returnKey : List Event := [.accept 0, .register 0, .spawn 0, .handle 0 (.read (text "SET k\r v\n")),
  .handle 0 (.deliver (text "SET k\r v")), .handle 0 (.process (text "SET k\r v") (text "OK\n"))]

theorem return_key_lost : ∃ ran : (run step {} returnKey).isSome,
    ((run step {} returnKey).get ran).store.get (text "k\r") = some (text "v") ∧
    ¬ Accepted .get (text "k\r") ∧ ¬ Accepted .del (text "k\r") := by
  refine ⟨by decide, by decide, fun read => ?_, fun deleted => ?_⟩
  · exact ((accepted_last (by decide)).mp read).2 (by decide)
  · exact ((accepted_last (by decide)).mp deleted).2 (by decide)

end Runs

end Kvasir.Server
