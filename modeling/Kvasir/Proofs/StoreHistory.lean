import Kvasir.Lib.Histories
import Kvasir.Proofs.HandlerProgress

/-! The store read as a history of lines, and the server as one sequential
object: whatever the handlers do, the lines that took effect were answered one
at a time in the order of their store calls. -/

namespace Kvasir.Server
open Runs Histories Protocol Scanner Strings

/-- What a line writes: the value it sets, or the removal of its key. -/
def lineEffect (line : Bytes) : Option (Bytes × Option Bytes) :=
  match parse line with
  | .ok command =>
    match command.op with
    | .get => none
    | .set => some (command.key, some command.value)
    | .del => some (command.key, none)
  | .error _ => none

abbrev LastSet (history : List Bytes) (key value : Bytes) : Prop := LastPut lineEffect history key value

/-- The reply a history of lines demands for the next line. -/
def Answers (history : List Bytes) (line reply : Bytes) : Prop :=
  match parse line with
  | .error error => reply = replyError error
  | .ok command =>
    match command.op with
    | .get => (∃ value, LastSet history command.key value ∧ reply = replyValue value) ∨
        (∀ value, ¬ LastSet history command.key value) ∧ reply = replyNil
    | .set => reply = replyOK
    | .del => (∃ value, LastSet history command.key value) ∧ reply = replyInt 1 ∨
        (∀ value, ¬ LastSet history command.key value) ∧ reply = replyInt 0

theorem lineEffect_put {line key value : Bytes} (effect : lineEffect line = some (key, some value)) :
    parse line = .ok ⟨.set, key, value⟩ := by
  simp only [lineEffect] at effect
  split at effect
  next command parsed =>
    obtain ⟨op, _, _⟩ := command
    cases op <;> cases effect
    exact parsed
  next => cases effect

theorem answer_obeys : Obeys lineEffect answer MemoryStore.get := by
  intro store line key
  cases parsed : parse line with
  | error error => simp only [answer_error store parsed, lineEffect, parsed]
  | ok command =>
    obtain ⟨op, written, value⟩ := command
    cases op with
    | get => simp only [answer_get store parsed, lineEffect, parsed]
    | set =>
      simp only [answer_set store parsed, lineEffect, parsed]
      split
      next same => rw [same, MemoryStore.set_get_same]
      next other => exact MemoryStore.set_get_other _ _ (Ne.symm other)
    | del =>
      simp only [answer_del store parsed, lineEffect, parsed]
      split
      next same => rw [same, MemoryStore.delete_get_same]
      next other => exact MemoryStore.delete_get_other _ (Ne.symm other)

/-- A line leaves in the store what was there, and what it sets. -/
theorem answer_stored {holds : Bytes → Prop} {store : MemoryStore} {line : Bytes}
    (stored : ∀ key value, store.get key = some value → holds value)
    (put : ∀ key value, parse line = .ok ⟨.set, key, value⟩ → holds value) :
    ∀ key value, (answer store line).1.get key = some value → holds value := by
  intro key value found
  rw [answer_obeys] at found
  split at found
  next written effect wrote =>
    split at found
    · subst found
      exact put written value (lineEffect_put wrote)
    · exact stored key value found
  next => exact stored key value found

/-- A store that agrees with a history answers as the history demands. -/
theorem answer_answers {store : MemoryStore} {history : List Bytes}
    (agrees : ∀ key value, store.get key = some value ↔ LastSet history key value) (line : Bytes) :
    Answers history line (answer store line).2 := by
  have missing : ∀ {key}, store.get key = none → ∀ value, ¬ LastSet history key value := by
    intro key absent value put
    rw [← agrees, absent] at put
    cases put
  unfold Answers
  cases parsed : parse line with
  | error error => rw [answer_error store parsed]
  | ok command =>
    obtain ⟨op, key, value⟩ := command
    cases op with
    | get =>
      rw [answer_get store parsed]
      cases found : store.get key with
      | none => exact .inr ⟨missing found, rfl⟩
      | some value => exact .inl ⟨value, (agrees key value).mp found, rfl⟩
    | set => rw [answer_set store parsed]
    | del =>
      rw [answer_del store parsed]
      cases found : store.get key with
      | none => exact .inr ⟨missing found, rfl⟩
      | some value => exact .inl ⟨⟨value, (agrees key value).mp found⟩, rfl⟩

theorem perform_lastSet (history : List Bytes) (key value : Bytes) :
    (perform answer .new history).1.get key = some value ↔ LastSet history key value :=
  answer_obeys.lastPut MemoryStore.new_get history key value

def Event.turn? : Event → Option (ConnId × Bytes × Bytes)
  | .handle id (.process line reply) => some (id, line, reply)
  | _ => none

def turns (events : List Event) : List (ConnId × Bytes × Bytes) := events.filterMap Event.turn?

theorem turns_append (past future : List Event) : turns (past ++ future) = turns past ++ turns future :=
  List.filterMap_append

theorem turns_own (id : ConnId) (events : List Event) : own id (turns events) = processed (actions id events) := by
  simp only [own, turns, processed, actions, List.filterMap_filterMap]
  congr 1
  funext event
  cases event with
  | handle other action =>
    by_cases same : other = id <;> cases action <;> simp [Event.turn?, same]
  | _ => rfl

theorem turns_member {id : ConnId} {line reply : Bytes} {events : List Event} :
    (id, line, reply) ∈ turns events ↔ .handle id (.process line reply) ∈ events := by
  rw [← processed_member, ← turns_own]
  simp [own]

/-- Every step of the server is one whole turn of the sequential object, or none. -/
theorem server_simulates : Simulates step (call answer) (fun event => event.turn?.map Prod.snd) (fun _ => True)
    (fun state store => state.store = store) := by
  rintro before _ event after - rfl stepped
  refine ⟨after.store, ?_, rfl⟩
  rw [step_store stepped]
  cases event
  case handle id action =>
    cases action with
    | process line reply =>
      simp [Event.turn?, call, step_answered stepped]
    | _ => rfl
  all_goals rfl

theorem turns_perform {store : MemoryStore} {events : List Event} {state : State}
    (ran : run step { store } events = some state) :
    perform answer store ((turns events).map fun turn => turn.2.1) = (state.store, (turns events).map fun turn => turn.2.2) := by
  obtain ⟨_, performed, rfl⟩ := server_simulates.run (fun _ _ => trivial) rfl ran
  have whole := (run_call_iff answer store _ _).mp performed
  rw [← List.map_filterMap, List.map_map, List.map_map] at whole
  exact whole

/-- Where every line writes the same value, a key that was written holds it. -/
theorem stored_constant {store : MemoryStore} {events : List Event} {state : State} {value : Bytes}
    (ran : run step { store } events = some state)
    (constant : ∀ id line reply, .handle id (.process line reply) ∈ events →
      ∀ key written, lineEffect line = some (key, written) → written = some value)
    {id : ConnId} {line reply key : Bytes} (member : .handle id (.process line reply) ∈ events)
    (touched : Touches lineEffect line key) : state.store.get key = some value := by
  have inside := List.mem_map_of_mem (f := fun turn => turn.2.1) (turns_member.mpr member)
  obtain ⟨past, last, future, whole, ⟨written, wrote⟩, quiet⟩ := touched_last lineEffect ⟨line, inside, touched⟩
  have present : last ∈ (turns events).map fun turn => turn.2.1 := by rw [whole]; simp
  obtain ⟨⟨writer, _, answered⟩, turn, rfl⟩ := List.mem_map.mp present
  obtain rfl := constant writer _ answered (turns_member.mp turn) key written wrote
  have put : LastSet ((turns events).map fun turn => turn.2.1) key value := ⟨past, _, future, whole, wrote, quiet⟩
  have found := answer_obeys.put store put
  rwa [turns_perform ran] at found

/-- Where one client's lines are all that is processed, they are the turns of the run. -/
theorem perform_alone {store : MemoryStore} {events : List Event} {state : State} {id : ConnId}
    (ran : run step { store } events = some state) (alone : ∀ other, other ≠ id → processed (actions other events) = []) :
    perform answer store ((processed (actions id events)).map Prod.fst) =
      (state.store, (processed (actions id events)).map Prod.snd) := by
  have owned : ∀ turn ∈ turns events, turn.1 = id := by
    intro ⟨other, line, reply⟩ member
    by_contra apart
    have handled := processed_member.mpr (turns_member.mp member)
    rw [alone other apart] at handled
    cases handled
  rw [← turns_own, own_all owned, List.map_map, List.map_map]
  exact turns_perform ran

theorem processed_sent {store : MemoryStore} {events : List Event} {state : State}
    (ran : run step { store } events = some state) {id : ConnId} {whole : List Bytes}
    (sent : ∀ line ∈ whole, newline ∉ line) (sends : Sends (Lines.unlines newline whole) (actions id events))
    {index : Nat} {handled reply : Bytes} (found : (processed (actions id events))[index]? = some (handled, reply)) :
    ∃ line, whole[index]? = some line ∧ handled = dropCR line := by
  have asked : ((processed (actions id events)).map Prod.fst)[index]? = some handled := by
    rw [List.getElem?_map, found]
    rfl
  have token := Lines.prefix_at ((progress_run ran id).processed_sent sent sends) asked
  rw [List.getElem?_map, Option.map_eq_some_iff] at token
  obtain ⟨line, taken, rfl⟩ := token
  exact ⟨line, Lines.prefix_at (List.takeWhile_prefix _) taken, rfl⟩

end Kvasir.Server
