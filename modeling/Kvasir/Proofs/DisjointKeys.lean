import Kvasir.Proofs.StoreHistory
import Kvasir.Proofs.ServerGate
import Kvasir.Proofs.ProtocolParse

/-! A client sees of the others only what they write to its keys. Its part of
any run is a run of the sequential object on its own lines. -/

namespace Kvasir.Server
open Runs Histories Scanner Strings Protocol Proofs.ProtocolParse

/-- The key of an accepted command occurs in the lines. -/
def Uses (lines : List Bytes) (key : Bytes) : Prop :=
  ∃ line ∈ lines, ∃ command, parse line = .ok command ∧ command.key = key

def Agree (keys : Bytes → Prop) (first last : MemoryStore) : Prop := ∀ key, keys key → first.get key = last.get key

section Agree
variable {keys : Bytes → Prop} {first last : MemoryStore}

theorem Agree.answer (agree : Agree keys first last) {line : Bytes}
    (known : ∀ command, parse line = .ok command → keys command.key) :
    (answer first line).2 = (answer last line).2 ∧ Agree keys (answer first line).1 (answer last line).1 := by
  constructor
  · cases parsed : parse line with
    | error error => rw [answer_error first parsed, answer_error last parsed]
    | ok command =>
      have same := agree command.key (known command parsed)
      obtain ⟨op, key, value⟩ := command
      cases op with
      | get => rw [answer_get first parsed, answer_get last parsed, same]
      | set => rw [answer_set first parsed, answer_set last parsed]
      | del => rw [answer_del first parsed, answer_del last parsed, same]
  · intro key member
    rw [answer_obeys, answer_obeys, agree key member]

theorem Agree.untouched (agree : Agree keys first last) {line : Bytes}
    (apart : ∀ key, keys key → ¬ Touches lineEffect line key) : Agree keys (Server.answer first line).1 last := by
  intro key member
  rw [answer_obeys.untouched first (apart key member), agree key member]

end Agree

/-- The client's lines use its keys, and nobody else writes them. -/
def Respects (keys : Bytes → Prop) (client : ConnId) (turn : ConnId × Bytes × Bytes) : Prop :=
  if turn.1 = client then ∀ command, parse turn.2.1 = .ok command → keys command.key
  else ∀ key, keys key → ¬ Touches lineEffect turn.2.1 key

/-- Of such a run, the client's turns are a run on its own on any store that
agrees on its keys. -/
theorem client_simulates (keys : Bytes → Prop) (client : ConnId) :
    Simulates step (call answer)
      (fun event => event.turn?.bind fun (id, turn) => if id = client then some turn else none)
      (fun event => ∀ turn, event.turn? = some turn → Respects keys client turn)
      (fun state store => Agree keys state.store store) := by
  intro before store event after respects agree stepped
  have stored := step_store stepped
  have keep : ∀ {current last}, after.store = current → Agree keys current last → Agree keys after.store last :=
    fun same agree => same ▸ agree
  cases event
  case handle id action =>
    cases action with
    | process line reply =>
      have permitted := respects _ rfl
      by_cases mine : id = client
      · simp only [Respects, mine, if_true] at permitted
        obtain ⟨same, kept⟩ := agree.answer permitted
        refine ⟨(answer store line).1, ?_, keep stored kept⟩
        simp [Event.turn?, mine, call, ← same, step_answered stepped]
      · simp only [Respects, mine, if_false] at permitted
        exact ⟨store, by simp [Event.turn?, mine], keep stored (agree.untouched permitted)⟩
    | _ => exact ⟨store, rfl, keep stored agree⟩
  all_goals exact ⟨store, rfl, keep stored agree⟩

theorem client_perform {keys : Bytes → Prop} {client : ConnId} {store alone : MemoryStore} {events : List Event} {state : State}
    (ran : run step { store } events = some state) (agree : Agree keys store alone)
    (respects : ∀ turn ∈ turns events, Respects keys client turn) :
    (perform answer alone ((processed (actions client events)).map Prod.fst)).2 =
        (processed (actions client events)).map Prod.snd ∧
      Agree keys state.store (perform answer alone ((processed (actions client events)).map Prod.fst)).1 := by
  have permitted : ∀ event ∈ events, ∀ turn, event.turn? = some turn → Respects keys client turn :=
    fun event member turn taken => respects turn (List.mem_filterMap.mpr ⟨event, member, taken⟩)
  obtain ⟨last, performed, kept⟩ := (client_simulates keys client).run permitted agree ran
  have whole := (run_call_iff answer alone _ _).mp performed
  rw [← List.filterMap_filterMap] at whole
  have mine : (events.filterMap Event.turn?).filterMap (fun (id, turn) => if id = client then some turn else none) =
      processed (actions client events) := turns_own client events
  rw [mine] at whole
  rw [whole]
  exact ⟨rfl, kept⟩

theorem turns_respect {lines : List Bytes} {client : ConnId} {store : MemoryStore} {events : List Event} {state : State}
    (ran : run step { store } events = some state) (sent : ∀ line ∈ lines, newline ∉ line)
    (sends : Sends (Lines.unlines newline lines) (actions client events))
    (others : ∀ id, id ≠ client → ∀ line ∈ (processed (actions id events)).map Prod.fst,
      ∀ key, Uses lines key → ¬ Touches lineEffect line key) :
    ∀ turn ∈ turns events, Respects (Uses lines) client turn := by
  rintro ⟨id, line, reply⟩ member
  have mine := processed_member.mpr (turns_member.mp member)
  by_cases same : id = client
  · subst same
    simp only [Respects, if_true]
    intro command parsed
    obtain ⟨index, found⟩ := List.mem_iff_getElem?.mp mine
    obtain ⟨raw, present, rfl⟩ := processed_sent ran sent sends found
    exact ⟨raw, List.mem_of_getElem? present, command, by rw [← parse_dropCR, parsed], rfl⟩
  · simp only [Respects, same, if_false]
    exact others id same line (List.mem_map_of_mem mine)

/-- The client's handler is done and none of its writes failed. -/
def Finished (client : ConnId) (events : List Event) : Prop :=
  .unregister client ∈ events ∧ writes false (actions client events) = []

section Finished
variable {lines : List Bytes} {client : ConnId} {store : MemoryStore} {events : List Event} {state : State}
  (done : Finished client events) (ran : run step { store } events = some state)
  (sent : ∀ line ∈ lines, newline ∉ line) (sends : Sends (Lines.unlines newline lines) (actions client events))
include done ran sent sends

/-- By then all lines that fit have been processed and answered. -/
theorem Finished.all : (processed (actions client events)).map Prod.fst = (lines.takeWhile (Fits ·)).map dropCR ∧
    (processed (actions client events)).map Prod.snd = replies (actions client events) := by
  have late := (unregister_iff ran client).mp done.1
  exact (progress_run ran client).finished sent sends (Nat.le_of_succ_le late) done.2

/-- When nobody else was served, the lines were performed on the store as they were sent. -/
theorem Finished.perform (alone : ∀ other, other ≠ client → processed (actions other events) = []) :
    perform answer store ((lines.takeWhile (Fits ·)).map dropCR) = (state.store, replies (actions client events)) := by
  obtain ⟨all, answers⟩ := done.all ran sent sends
  rw [← all, ← answers]
  exact perform_alone ran alone

end Finished

/-- A client cannot tell which of two runs it is in, and neither do its keys. -/
structure Unaffected (lines : List Bytes) (client : ConnId) (events : List Event) (state : State)
    (eventsAlone : List Event) (stateAlone : State) : Prop where
  replies : ∀ (index : Nat) reply replyAlone, (replies (actions client events))[index]? = some reply →
    (Server.replies (actions client eventsAlone))[index]? = some replyAlone → reply = replyAlone
  contents : (processed (actions client events)).length = (processed (actions client eventsAlone)).length →
    ∀ key, Uses lines key → state.store.get key = stateAlone.store.get key
  finished : Finished client events → Finished client eventsAlone →
    (Server.replies (actions client events)).flatten = (Server.replies (actions client eventsAlone)).flatten ∧
    ∀ key, Uses lines key → state.store.get key = stateAlone.store.get key

/-- A client gets the same replies, byte for byte, among others that leave its
keys alone and by itself, and leaves the same values at its keys. Of the others
only the lines their handlers processed matter, not what else they send. -/
theorem disjoint_clients {lines : List Bytes} {client : ConnId} {store storeAlone : MemoryStore}
    {events eventsAlone : List Event} {state stateAlone : State}
    (ran : run step { store } events = some state) (ranAlone : run step { store := storeAlone } eventsAlone = some stateAlone)
    (sent : ∀ line ∈ lines, newline ∉ line) (sends : Sends (Lines.unlines newline lines) (actions client events))
    (sendsAlone : Sends (Lines.unlines newline lines) (actions client eventsAlone))
    (agree : ∀ key, Uses lines key → store.get key = storeAlone.get key)
    (others : ∀ id, id ≠ client → ∀ line ∈ (processed (actions id events)).map Prod.fst,
      ∀ key, Uses lines key → ¬ Touches lineEffect line key)
    (single : ∀ id, id ≠ client → actions id eventsAlone = []) :
    Unaffected lines client events state eventsAlone stateAlone := by
  have progress := progress_run ran client
  have progressAlone := progress_run ranAlone client
  have nobody : ∀ id, id ≠ client → ∀ line ∈ (processed (actions id eventsAlone)).map Prod.fst,
      ∀ key, Uses lines key → ¬ Touches lineEffect line key := by
    intro id other line member
    rw [single id other] at member
    cases member
  -- Both runs are runs of the sequential object on the same lines and store.
  obtain ⟨first, kept⟩ := client_perform ran agree (turns_respect ran sent sends others)
  obtain ⟨last, keptAlone⟩ := client_perform ranAlone (fun _ _ => rfl) (turns_respect ranAlone sent sendsAlone nobody)
  have executed := progress.processed_sent sent sends
  have executedAlone := progressAlone.processed_sent sent sendsAlone
  have contents : (processed (actions client events)).length = (processed (actions client eventsAlone)).length →
      ∀ key, Uses lines key → state.store.get key = stateAlone.store.get key := by
    intro lengths key member
    have same : (processed (actions client events)).map Prod.fst = (processed (actions client eventsAlone)).map Prod.fst := by
      rw [List.prefix_iff_eq_take.mp executed, List.prefix_iff_eq_take.mp executedAlone]
      simp only [List.length_map, lengths]
    rw [kept key member, keptAlone key member, same]
  refine ⟨fun index reply replyAlone written writtenAlone => ?_, contents, fun done doneAlone => ?_⟩
  · have here := Lines.prefix_at progress.ordered written
    have there := Lines.prefix_at progressAlone.ordered writtenAlone
    rw [← first] at here
    rw [← last] at there
    rcases List.prefix_or_prefix_of_prefix executed executedAlone with shorter | longer
    · exact Option.some.inj ((Lines.prefix_at (perform_grows answer storeAlone shorter) here).symm.trans there)
    · exact Option.some.inj (here.symm.trans (Lines.prefix_at (perform_grows answer storeAlone longer) there))
  · obtain ⟨all, answers⟩ := done.all ran sent sends
    obtain ⟨allAlone, answersAlone⟩ := doneAlone.all ranAlone sent sendsAlone
    rw [← answers, ← answersAlone, ← first, ← last, all, allAlone]
    exact ⟨rfl, contents (by simpa using congrArg List.length (all.trans allAlone.symm))⟩

/-- A reader of one key, with a writer of another one and by itself. -/
def withWriter : List Event := [.accept 0, .register 0, .spawn 0, .accept 1, .register 1, .spawn 1,
  .handle 1 (.read (text "SET b y\n")), .handle 1 (.deliver (text "SET b y")), .handle 0 (.read (text "GET a\n")),
  .handle 1 (.process (text "SET b y") (text "OK\n")), .handle 0 (.deliver (text "GET a")),
  .handle 0 (.process (text "GET a") (text "x\n")), .handle 0 (.write (text "x\n") true), .handle 0 .readEnd,
  .handle 0 .leave, .unregister 0]

def byItself : List Event := [.accept 0, .register 0, .spawn 0, .handle 0 (.read (text "GET")),
  .handle 0 (.read (text " a\n")), .handle 0 (.deliver (text "GET a")), .handle 0 (.process (text "GET a") (text "x\n")),
  .handle 0 (.write (text "x\n") true), .handle 0 .readEnd, .handle 0 .leave, .unregister 0]

theorem disjoint_clients_reader :
    ∃ (ran : (run step { store := (MemoryStore.new.set (text "a") (text "x")).set (text "b") [] } withWriter).isSome)
      (ranAlone : (run step { store := MemoryStore.new.set (text "a") (text "x") } byItself).isSome),
    Unaffected [text "GET a"] 0 withWriter (Option.get _ ran) byItself (Option.get _ ranAlone) := by
  have parsed : parse (text "GET a") = .ok ⟨.get, text "a", []⟩ := by decide
  have only : ∀ key, Uses [text "GET a"] key → key = text "a" := by
    rintro key ⟨line, member, command, accepted, rfl⟩
    rw [List.mem_singleton.mp member, parsed] at accepted
    cases accepted
    rfl
  refine ⟨by decide, by decide, disjoint_clients (Option.some_get _).symm (Option.some_get _).symm (by decide)
    ⟨by decide, by decide⟩ ⟨by decide, by decide⟩ (fun key uses => ?_) ?_ ?_⟩
  · rw [only key uses]
    decide
  · rintro (_ | _ | id) other line member key uses ⟨written, touched⟩
    · exact absurd rfl other
    · rw [only key uses] at touched
      have same : line = text "SET b y" := by simpa [withWriter, actions, processed] using member
      have effect : lineEffect (text "SET b y") = some (text "b", some (text "y")) := by decide
      rw [same, effect] at touched
      have keys : text "b" = text "a" := congrArg Prod.fst (Option.some.inj touched)
      exact absurd keys (by decide)
    · simp [withWriter, actions, processed] at member
  · rintro (_ | id) other
    · exact absurd rfl other
    · simp [byItself, actions]

end Kvasir.Server
