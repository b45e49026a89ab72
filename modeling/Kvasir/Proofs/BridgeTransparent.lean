import Kvasir.Proofs.BridgeForwards
import Kvasir.Proofs.DisjointKeys

/-! The bridge as a second way to the same server. White space around a command
is taken off before Parse sees it, where it can be part of a value; apart from
that a posted command and a sent line cannot be told apart. -/

namespace Kvasir.Bridge
open Runs Histories Strings Utf8 Protocol Server Scanner Proofs.ProtocolParse

/-- A client that sends its stream and hangs up, while nobody else is served. -/
structure Exchange (stream : Bytes) (store : MemoryStore) (id : ConnId) (events : List Event) (state : State) : Prop where
  ran : run step { store } events = some state
  sends : Sends stream (actions id events)
  alone : ∀ other, other ≠ id → processed (actions other events) = []
  finished : Finished id events

/-- A request with this command got this response, and the server was left with this store. -/
def Posts (json : Json) (command : Bytes) (store : MemoryStore) (response : Response) (after : MemoryStore) : Prop :=
  ∃ kvAddr body network id events state, json.decode body = some command ∧
    network = ⟨true, true, (replies (actions id events)).flatten⟩ ∧
    (∀ stream, (handleCmd json kvAddr network body).written = some stream → Exchange stream store id events state) ∧
    (handleCmd json kvAddr network body).response = response ∧ state.store = after

/-- A plain connection sent the line, received these bytes, and left this store. -/
def SendsLine (line : Bytes) (store : MemoryStore) (received : Bytes) (after : MemoryStore) : Prop :=
  ∃ id events state, Exchange (line ++ [newline]) store id events state ∧
    (replies (actions id events)).flatten = received ∧ state.store = after

/-- Posting the command and sending the line have one effect and one reply text. -/
def SameAs (json : Json) (store : MemoryStore) (command line : Bytes) : Prop :=
  ∀ response posted received sent, Posts json command store response posted → SendsLine line store received sent →
    posted = sent ∧ ∃ reply, received = reply ++ [newline] ∧ response = .ok ⟨trimSpace command, reply⟩ ∧
      (Valid reply → json.carry reply = reply)

/-- A command that a request may carry, and that is one line. -/
structure CommandLine (command : Bytes) : Prop where
  valid : Valid command
  visible : trimSpace command ≠ []
  returns : carriageReturn ∉ command
  clean : newline ∉ command
  fits : Fits command

instance (command : Bytes) : Decidable (CommandLine command) :=
  decidable_of_iff (Valid command ∧ trimSpace command ≠ [] ∧ carriageReturn ∉ command ∧ newline ∉ command ∧ Fits command)
    ⟨fun ⟨valid, visible, returns, clean, fits⟩ => ⟨valid, visible, returns, clean, fits⟩,
      fun ⟨valid, visible, returns, clean, fits⟩ => ⟨valid, visible, returns, clean, fits⟩⟩

theorem Exchange.turn {line : Bytes} {store : MemoryStore} {id : ConnId} {events : List Event} {state : State}
    (exchange : Exchange (line ++ [newline]) store id events state) (clean : newline ∉ line) (fits : Fits line) :
    answer store line = (state.store, (replies (actions id events)).flatten) := by
  obtain ⟨ran, sends, alone, done⟩ := exchange
  have single : ∀ whole ∈ [line], newline ∉ whole := by simpa using clean
  have stream : line ++ [newline] = Lines.unlines newline [line] := by simp
  have performed := done.perform ran single (stream ▸ sends) alone
  simp only [List.takeWhile_cons, fits, decide_true, if_true, List.takeWhile_nil, List.map_cons, List.map_nil, perform_cons,
    perform_nil, answer_dropCR, Prod.mk.injEq] at performed
  obtain ⟨store, reply⟩ := performed
  rw [← reply, List.flatten_singleton, ← store]

theorem same_as {json : Json} {store : MemoryStore} {command line : Bytes} (is : CommandLine command)
    (ended : Ended store) (stored : Clean store) (clean : newline ∉ line) (fits : Fits line)
    (alike : parse line = parse (trimSpace command)) : SameAs json store command line := by
  intro response posted received sent ⟨kvAddr, body, network, id, events, state, decoded, wired, exchange, responded, after⟩
    ⟨_, _, _, plain, arrived, left⟩
  subst responded after arrived left
  have inside : List.Sublist (trimSpace command) command := List.IsInfix.sublist <| trimSpace_infix command
  have returns : carriageReturn ∉ trimSpace command := fun member => is.returns (inside.subset member)
  have kept : newline ∉ trimSpace command := fun member => is.clean (inside.subset member)
  have accepted : ¬ Refused json body := by
    rw [refused_iff decoded]
    simpa [not_or] using ⟨is.visible, returns, kept⟩
  have outcome : handleCmd json kvAddr network body = _ := handleCmd_sent decoded accepted (by rw [wired]) (by rw [wired])
  have wire := exchange (trimSpace command ++ [newline]) (by rw [outcome])
  have posted := wire.turn kept (lt_of_le_of_lt inside.length_le is.fits)
  have sent := plain.turn clean fits
  obtain ⟨reply, terminated, single, trimmed⟩ := trimRight_reply ended stored (trimSpace command)
  have same : answer store line = answer store (trimSpace command) := by simp only [answer, alike]
  rw [same, posted, Prod.mk.injEq] at sent
  refine ⟨sent.1, reply, ?_, ?_, json.carried reply⟩
  · rw [← sent.2, ← terminated, posted]
  · rw [posted] at terminated
    dsimp only at terminated
    rw [outcome, wired]
    simp only [readString, terminated, Lines.cut_line newline single [], Option.map_some, trimmed]

def exchanged (line reply : Bytes) : List Event := [.accept 0, .register 0, .spawn 0, .handle 0 (.read (line ++ [newline])),
  .handle 0 (.deliver line), .handle 0 (.process line reply), .handle 0 (.write reply true), .handle 0 .readEnd,
  .handle 0 .leave, .unregister 0]

theorem exchanged_sends {store : MemoryStore} {line reply : Bytes} {state : State}
    (ran : run step { store } (exchanged line reply) = some state) :
    SendsLine line store reply state.store := by
  have written : (replies (actions 0 (exchanged line reply))).flatten = reply := by
    simp [exchanged, actions, replies, writes]
  have alone : ∀ other, other ≠ 0 → processed (actions other (exchanged line reply)) = [] := by
    intro other apart
    simp [exchanged, actions, processed, Ne.symm apart]
  refine ⟨0, _, state, ⟨ran, ⟨?_, fun _ => ?_⟩, alone, ?_, ?_⟩, written, rfl⟩
  · simp [exchanged, actions, received]
  · simp [exchanged, actions, received]
  · simp [exchanged]
  · simp [exchanged, actions, writes]

theorem exchanged_posts {store : MemoryStore} (command : Bytes) {reply : Bytes} {state : State}
    (ran : run step { store } (exchanged (trimSpace command) reply) = some state)
    (decoded : plainJson.decode (plainBody command) = some command) :
    Posts plainJson command store (handleCmd plainJson [] ⟨true, true, reply⟩ (plainBody command)).response state.store := by
  obtain ⟨id, events, state, exchange, rfl, after⟩ := exchanged_sends ran
  refine ⟨[], _, _, id, events, state, decoded, rfl, fun stream written => ?_, rfl, after⟩
  obtain ⟨_, same, rfl⟩ := handleCmd_written written
  obtain rfl := Option.some.inj (decoded.symm.trans same)
  exact exchange

end Kvasir.Bridge
