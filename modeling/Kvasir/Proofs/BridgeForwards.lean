import Kvasir.Bridge
import Kvasir.Proofs.PairedReplies
import Kvasir.Proofs.KeyReach

/-! The bridge carries one line to the server and one reply back. Trimming the
reply takes off its line end alone: no reply a server gives ends in a carriage
return, because Parse lets no such value in. -/

namespace Kvasir.Server
open Runs Histories Scanner Strings Protocol Proofs.ProtocolParse

def Ended (store : MemoryStore) : Prop :=
  ∀ key value, store.get key = some value → value.getLast? ≠ some carriageReturn

theorem Ended.new : Ended .new := by simp [Ended]

theorem value_ended {line key value : Bytes} (parsed : parse line = .ok ⟨.set, key, value⟩) :
    value.getLast? ≠ some carriageReturn := by
  intro last
  exact parse_last parsed ((set_last return_ends).mpr last) return_ends

theorem Ended.answer {store : MemoryStore} (ended : Ended store) (line : Bytes) : Ended (answer store line).1 :=
  answer_stored ended fun _ _ accepted => value_ended accepted

theorem ended_run {store : MemoryStore} {events : List Event} {state : State} (ended : Ended store)
    (ran : run step { store } events = some state) : Ended state.store :=
  store_run ended (fun _ _ line _ _ _ _ _ ended => ended.answer line) ran

theorem message_ended {line : Bytes} {error : ParseError} (rejected : parse line = .error error) :
    (text "ERR " ++ error.message).getLast? ≠ some carriageReturn := by
  cases error with
  | empty | keyAndValue => decide
  | oneKey verb => rcases parse_oneKey rejected with rfl | rfl <;> decide
  | unknown word =>
    simp only [ParseError.message, quote, List.getLast?_append, List.getLast?_singleton, Option.some_or]
    decide

theorem answer_ended {store : MemoryStore} (ended : Ended store) (line : Bytes) :
    ∃ reply, (answer store line).2 = reply ++ [newline] ∧ reply.getLast? ≠ some carriageReturn := by
  obtain ⟨reply, answered, body⟩ := answer_body store line
  refine ⟨reply, answered, ?_⟩
  rcases body with ⟨error, rejected, rfl⟩ | word | ⟨key, found⟩
  · exact message_ended rejected
  · simp only [List.mem_cons, List.not_mem_nil, or_false] at word
    rcases word with rfl | rfl | rfl | rfl <;> decide
  · exact ended key reply found

/-- What a client of the server trims off a reply is its line end. -/
theorem trimRight_reply {store : MemoryStore} (ended : Ended store) (clean : Clean store) (line : Bytes) :
    ∃ reply, (answer store line).2 = reply ++ [newline] ∧ newline ∉ reply ∧ trimRight lineEnds (reply ++ [newline]) = reply := by
  obtain ⟨reply, answered, kept⟩ := answer_ended ended line
  obtain ⟨same, terminated, single⟩ := clean.reply line
  obtain rfl : reply = same := List.append_cancel_right (answered.symm.trans terminated)
  refine ⟨reply, answered, single, ?_⟩
  rw [trimRight_append _ (by simpa using newline_ends)]
  exact trimRight_self (last_kept.mpr ⟨kept, fun ends => single (List.mem_of_getLast? ends)⟩)

/-- A connection is closed by its handler's cleanup, by Serve that refused it,
or by Shutdown. -/
private theorem Change.closer {store : MemoryStore} {id : ConnId} {event : Event} {before after : Conn} {swept : Prop}
    (change : Change store id event before after)
    (closer : before.closed = true → before.phase = .refused ∨ 6 ≤ before.phase.stage ∨ swept) (closed : after.closed = true) :
    after.phase = .refused ∨ 6 ≤ after.phase.stage ∨ swept ∨ event = .closeLive id := by
  cases change with
  | handle handled =>
    obtain ⟨running, _⟩ := handle_stage handled
    rw [(handle_socket handled).1] at closed
    rcases closer closed with phase | late | swept
    · simp [phase, Phase.stage] at running
    · omega
    · exact .inr (.inr (.inl swept))
  | accept phase | register phase | refuse phase | spawn phase | unregister phase | wgDone phase =>
    have := closer closed
    simp_all [Phase.stage]
  | closeRefused phase => exact .inl phase
  | close phase => exact .inr (.inl (by simp [Phase.stage]))
  | closeLive => exact .inr (.inr (.inr rfl))
  | gone | other =>
    rcases closer closed with phase | late | swept
    · exact .inl phase
    · exact .inr (.inl late)
    · exact .inr (.inr (.inl swept))

section Connection
variable {store : MemoryStore} {events : List Event} {state : State} {id : ConnId}

/-- Only Shutdown closes a connection under its handler. -/
theorem closed_live (ran : run step { store } events = some state) (running : (state.conn id).phase = .scanning)
    (closed : (state.conn id).closed = true) : .closeLive id ∈ events := by
  have closer : (state.conn id).closed = true →
      (state.conn id).phase = .refused ∨ 6 ≤ (state.conn id).phase.stage ∨ .closeLive id ∈ events := by
    refine invariant (fun past current => (current.conn id).closed = true →
      (current.conn id).phase = .refused ∨ 6 ≤ (current.conn id).phase.stage ∨ .closeLive id ∈ past) (by simp) ?_ ran
    intro past before next after earlier ih stepped closed
    rcases (step_conn (placed_run earlier) stepped id).closer ih closed with phase | late | swept | rfl
    · exact .inl phase
    · exact .inr (.inl late)
    · exact .inr (.inr (List.mem_append_left _ swept))
    · exact .inr (.inr (by simp))
  simpa [running, Phase.stage] using closer closed

/-- What a handler that is sent one line has processed: that line, or what it
got of it before reading failed. -/
theorem processed_one (ran : run step { store } events = some state) {line : Bytes} (clean : newline ∉ line)
    (returns : carriageReturn ∉ line) (received : received (actions id events) <+: line ++ [newline]) :
    ∃ front, (processed (actions id events)).map Prod.fst <+: [front] ∧
      ((.readEnd ∈ actions id events → Server.received (actions id events) = line ++ [newline]) → front = line) := by
  have progress := progress_run ran id
  obtain ⟨front, inside, handed, whole⟩ := progress.tokens.one_line clean received
  rw [dropCR_self fun member => returns (inside.subset member), progress.lines] at handed
  refine ⟨front, (List.prefix_append _ _).trans handed, fun all => ?_⟩
  rcases whole with whole | ⟨failed, cut⟩
  · exact whole
  · exact absurd (all (progress.ended.mp failed)) cut

end Connection

end Kvasir.Server

namespace Kvasir.Bridge
open Runs Strings Utf8 Protocol Server

section Connected
variable {network : Network} {stream : Bytes} {store : MemoryStore} {id : ConnId} {events : List Event} {state : State}

/-- Reading ended after the whole stream, or Shutdown had closed the connection
and no reply got through from then on. -/
theorem Connected.whole_or_cut (connected : Connected network stream store id events) (ran : run step { store } events = some state) :
    (.readEnd ∈ actions id events → received (actions id events) = stream) ∨
    .closeLive id ∈ events ∧ ∃ past before, past <+: events ∧ run step { store } past = some before ∧
      .readEnd ∉ actions id past ∧ replies (actions id past) = replies (actions id events) := by
  by_cases ended : .readEnd ∈ actions id events
  · obtain ⟨past, future, cut⟩ := List.append_of_mem (actions_member.mp ended)
    subst cut
    obtain ⟨before, arrived, rest⟩ := run_split ran
    rcases connected.whole past before future rfl arrived with closed | whole
    · right
      obtain ⟨after, stepped, _⟩ := Option.bind_eq_some_iff.mp ((run_cons ..).symm.trans rest)
      obtain ⟨_, _, handled, _⟩ := step_handle stepped
      obtain ⟨⟨reading, waiting⟩, _⟩ := (allow_eq_some ..).mp handled
      have running := (Scanner.scan_read waiting).2.1
      refine ⟨List.mem_append_left _ (closed_live arrived reading closed), past, before, List.prefix_append _ _, arrived, ?_, ?_⟩
      · rw [← (progress_run arrived id).ended, running]
        decide
      · rw [actions_append, replies_append, replies_stop arrived (.inl closed) rest, List.append_nil]
    · refine .inl fun _ => connected.ordered.eq_of_length_le ?_
      rw [actions_append, received_append, whole, List.length_append]
      exact Nat.le_add_right _ _
  · exact .inl fun member => absurd member ended

theorem Connected.replied (connected : Connected network stream store id events) (ran : run step { store } events = some state) :
    ∃ past before, past <+: events ∧ run step { store } past = some before ∧
      (.readEnd ∈ actions id past → received (actions id past) = stream) ∧
      replies (actions id past) = replies (actions id events) := by
  rcases connected.whole_or_cut ran with whole | ⟨_, past, before, inside, arrived, unended, same⟩
  · exact ⟨events, state, List.prefix_refl _, ran, whole, rfl⟩
  · exact ⟨past, before, inside, arrived, fun ended => absurd ended unended, same⟩

theorem Connected.answered {line : Bytes} (connected : Connected network (line ++ [newline]) store id events)
    (ran : run step { store } events = some state) (clean : newline ∉ line) (returns : carriageReturn ∉ line)
    (replied : replies (actions id events) ≠ []) :
    ∃ reply, processed (actions id events) = [(line, reply)] ∧ replies (actions id events) = [reply] := by
  obtain ⟨front, all, _⟩ := processed_one ran clean returns connected.ordered
  obtain ⟨past, before, ⟨later, rfl⟩, arrived, whole, same⟩ := connected.replied ran
  rw [← same] at replied ⊢
  have received : received (actions id past) <+: line ++ [newline] := by
    refine (List.prefix_append _ (Server.received (actions id later))).trans ?_
    rw [← received_append, ← actions_append]
    exact connected.ordered
  obtain ⟨_, asked, uncut⟩ := processed_one arrived clean returns received
  obtain rfl := uncut whole
  have ordered := (progress_run arrived id).ordered
  rw [actions_append, processed_append] at all ⊢
  cases first : processed (actions id past) with
  | nil => simp [first, replied] at ordered
  | cons turn rest =>
    obtain ⟨handled, reply⟩ := turn
    rw [first] at asked ordered all
    obtain ⟨rfl, none⟩ := List.cons_prefix_cons.mp asked
    obtain rfl : rest = [] := by simpa using none
    obtain ⟨_, after⟩ := List.cons_prefix_cons.mp all
    have quiet : processed (actions id later) = [] := by simpa using after
    have written : replies (actions id past) = [reply] :=
      ordered.eq_of_length_le (List.length_pos_of_ne_nil replied)
    exact ⟨reply, by simp [quiet], written⟩

/-- The first line that comes back is the reply to the one line, given in some
state of the run. -/
theorem Connected.read {line first rest : Bytes} (connected : Connected network (line ++ [newline]) .new id events)
    (ran : run step {} events = some state) (clean : newline ∉ line) (returns : carriageReturn ∉ line)
    (cut : Lines.cut newline network.inbound = some (first, rest)) :
    processed (actions id events) = [(line, first ++ [newline])] ∧ trimRight lineEnds (first ++ [newline]) = first ∧
    ∃ past before future, events = past ++ .handle id (.process line (first ++ [newline])) :: future ∧
      run step {} past = some before ∧ (answer before.store line).2 = first ++ [newline] := by
  have arrives := connected.reads
  have replied : replies (actions id events) ≠ [] := by
    intro none
    rw [none, List.flatten_nil, List.prefix_nil] at arrives
    rw [arrives] at cut
    cases cut
  obtain ⟨whole, turn, written⟩ := connected.answered ran clean returns replied
  have handled : (processed (actions id events))[0]? = some (line, whole) := by rw [turn]; rfl
  obtain ⟨past, before, future, split, arrived, _, answered⟩ := processed_event ran handled
  obtain ⟨reply, terminated, single, trimmed⟩ :=
    trimRight_reply (ended_run Ended.new arrived) (clean_run Clean.new arrived) line
  obtain rfl : whole = reply ++ [newline] := answered.symm.trans terminated
  rw [written, List.flatten_singleton] at arrives
  obtain ⟨rfl, _⟩ := Lines.cut_prefix newline cut arrives single
  exact ⟨turn, trimmed, past, before, future, split, arrived, terminated⟩

end Connected

section Forwards
variable {json : Json} {kvAddr body : Bytes} {network : Network} {id : ConnId} {events : List Event} {state : State}

/-- One line went to the server and its reply came back. -/
structure Forwarded (json : Json) (line : Bytes) (response : Response) (id : ConnId) (events : List Event) : Prop where
  single : (processed (actions id events)).length ≤ 1
  only : .closeLive id ∉ events → ∀ handled ∈ processed (actions id events), handled.1 = line
  answered : ∀ result, response = .ok result → ∃ reply past before future,
    processed (actions id events) = [(line, reply ++ [newline])] ∧
    events = past ++ .handle id (.process line (reply ++ [newline])) :: future ∧ run step {} past = some before ∧
    (answer before.store line).2 = reply ++ [newline] ∧
    result = ⟨line, reply⟩ ∧ json.carry result.sent = line ∧ (Valid reply → json.carry result.reply = reply)

def plainBody (command : Bytes) : Bytes := text "\x7b\"command\":\"" ++ command ++ text "\"\x7d"

/-- JSON restricted to such bodies. Bytes that are not UTF-8 are replaced. -/
def plainJson : Json where
  decode body :=
    let command := (body.drop (text "\x7b\"command\":\"").length).dropLast.dropLast
    if body = plainBody command ∧ command.all (fun byte => 0x20 ≤ byte && byte != 0x22 && byte != 0x5C) = true ∧ Valid command
    then some command
    else none
  carry := toValid
  decoded body command decoded := by
    dsimp only at decoded
    split at decoded
    next plain => cases decoded; exact plain.2.2
    next => cases decoded
  carried _ := toValid_self

/-- Another client sets a value, and the bridge asks for it. -/
def bridged : List Event := [.accept 0, .register 0, .spawn 0, .accept 1, .register 1, .spawn 1,
  .handle 0 (.read (text "SET a x y\nGET")), .handle 0 (.deliver (text "SET a x y")),
  .handle 0 (.process (text "SET a x y") (text "OK\n")), .handle 1 (.read (text "GET ")), .handle 1 (.read (text "a\n")),
  .handle 1 (.deliver (text "GET a")), .handle 1 (.process (text "GET a") (text "x y\n")),
  .handle 1 (.write (text "x y\n") true)]

def bridgedNetwork : Network := ⟨true, true, text "x y\n"⟩

def bridgedOutcome : Outcome := handleCmd plainJson (text "kv") bridgedNetwork (plainBody (text " GET a"))

end Forwards

end Kvasir.Bridge
