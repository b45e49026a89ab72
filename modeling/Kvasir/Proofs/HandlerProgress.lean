import Kvasir.Proofs.ServerSteps

/-! What the actions of one handler so far say about its position: which bytes
became lines, which lines were processed, and which replies got through. -/

namespace Kvasir.Server
open Runs Scanner Strings

section Past
variable (first last : List Action) (outcome : Bool)

@[simp] theorem received_append : received (first ++ last) = received first ++ received last := List.flatMap_append

@[simp] theorem delivered_append : delivered (first ++ last) = delivered first ++ delivered last :=
  List.filterMap_append

@[simp] theorem processed_append : processed (first ++ last) = processed first ++ processed last :=
  List.filterMap_append

@[simp] theorem writes_append : writes outcome (first ++ last) = writes outcome first ++ writes outcome last :=
  List.filterMap_append

@[simp] theorem replies_append : replies (first ++ last) = replies first ++ replies last := writes_append ..

@[simp] theorem received_single (action : Action) :
    received [action] = match action with | .read chunk => chunk | _ => [] := List.append_nil _

@[simp] theorem delivered_single (action : Action) :
    delivered [action] = match action with | .deliver line => [line] | _ => [] := by cases action <;> rfl

@[simp] theorem processed_single (action : Action) :
    processed [action] = match action with | .process line reply => [(line, reply)] | _ => [] := by cases action <;> rfl

@[simp] theorem writes_single (action : Action) :
    writes outcome [action] = match action with | .write reply ok => if ok = outcome then [reply] else [] | _ => [] := by
  cases action with
  | write reply ok => by_cases same : ok = outcome <;> simp [writes, same]
  | _ => rfl

theorem actions_append (id : ConnId) (past future : List Event) :
    actions id (past ++ future) = actions id past ++ actions id future := List.filterMap_append

end Past

def Phase.line : Phase → Option Bytes
  | .scanned line => some line
  | _ => none

def Phase.reply : Phase → Option Bytes
  | .replying reply => some reply
  | _ => none

theorem Phase.idle {phase : Phase} (left : 4 ≤ phase.stage) : phase.line = none ∧ phase.reply = none := by
  cases phase <;> simp_all [stage, line, reply]

/-- A handler takes lines in order and answers each before the next. Only a
failed write or the end of scanning takes it out of its loop. -/
structure Progress (past : List Action) (conn : Conn) : Prop where
  tokens : Tokens (received past) (delivered past) conn.scanner
  lines : delivered past = (processed past).map Prod.fst ++ conn.phase.line.toList
  answers : (processed past).map Prod.snd = replies past ++ (writes false past ++ conn.phase.reply.toList)
  looping : conn.phase.stage < 4 → writes false past = []
  fresh : conn.phase.stage < 3 → past = []
  single : (writes false past).length ≤ 1
  left : 4 ≤ conn.phase.stage → writes false past ≠ [] ∨ conn.scanner.scan = .stop
  ended : conn.scanner.failed = true ↔ .readEnd ∈ past

theorem Progress.initial : Progress [] {} :=
  ⟨.initial, rfl, rfl, fun _ => rfl, fun _ => rfl, by simp [writes], by simp [Phase.stage], by simp⟩

/-- Outside its loop a handler changes neither its scanner nor its past. -/
theorem Progress.frame {past : List Action} {before after : Conn} (progress : Progress past before)
    (scanner : after.scanner = before.scanner) (line : after.phase.line = before.phase.line)
    (reply : after.phase.reply = before.phase.reply) (grows : before.phase.stage ≤ after.phase.stage)
    (sides : 4 ≤ after.phase.stage → 4 ≤ before.phase.stage) : Progress past after := by
  obtain ⟨tokens, lines, answers, looping, fresh, single, left, ended⟩ := progress
  refine ⟨scanner ▸ tokens, line ▸ lines, reply ▸ answers, fun low => looping (by omega), fun low => fresh (by omega), single,
    fun high => ?_, scanner ▸ ended⟩
  rw [scanner]
  exact left (sides high)

section Step
attribute [local simp] replies Phase.stage Phase.line Phase.reply

theorem Progress.handle {store store' : MemoryStore} {past : List Action} {before after : Conn} {action : Action}
    (progress : Progress past before) (handled : handle store before action = some (store', after)) :
    Progress (past ++ [action]) after := by
  obtain ⟨phase, scanner, closed, gone⟩ := before
  obtain ⟨tokens, lines, answers, looping, fresh, single, left, ended⟩ := progress
  cases action with
  | read chunk =>
    obtain ⟨⟨rfl, waiting, _, _, bound⟩, same⟩ := (allow_eq_some ..).mp handled
    cases same
    exact ⟨by simpa using tokens.read waiting bound, by simpa using lines, by simpa using answers,
      by simpa using looping, by simp, by simpa using single, by simp, by simpa [Scanner.read] using ended⟩
  | readEnd =>
    obtain ⟨⟨rfl, waiting⟩, same⟩ := (allow_eq_some ..).mp handled
    cases same
    exact ⟨by simpa using tokens.fail waiting, by simpa using lines, by simpa using answers,
      by simpa using looping, by simp, by simpa using single, by simp, by simp [Scanner.fail]⟩
  | deliver line =>
    obtain ⟨rest, scanned, rfl, rfl, rfl⟩ := handle_deliver handled
    exact ⟨by simpa using tokens.token scanned, by simpa using lines, by simpa using answers,
      by simpa using looping, by simp, by simpa using single, by simp, by simpa [scan_failed scanned] using ended⟩
  | process line reply =>
    obtain ⟨⟨rfl, answered⟩, same⟩ := (allow_eq_some ..).mp handled
    cases same
    exact ⟨by simpa using tokens, by simpa using lines, by simpa [← List.append_assoc] using answers,
      by simpa using looping, by simp, by simpa using single, by simp, by simpa using ended⟩
  | write reply ok =>
    obtain ⟨⟨rfl, _⟩, same⟩ := (allow_eq_some ..).mp handled
    cases same
    -- While the handler loops no write has failed yet.
    have none : writes false past = [] := looping (by simp)
    simp only [none] at answers
    cases ok
    · exact ⟨by simpa using tokens, by simpa using lines, by simpa [none] using answers, by simp, by simp,
        by simp [none], by simp, by simpa using ended⟩
    · exact ⟨by simpa using tokens, by simpa using lines, by simpa [none] using answers, by simp [none], by simp,
        by simp [none], by simp, by simpa using ended⟩
  | leave =>
    obtain ⟨⟨rfl, stopped⟩, same⟩ := (allow_eq_some ..).mp handled
    cases same
    exact ⟨by simpa using tokens, by simpa using lines, by simpa using answers, by simp, by simp,
      by simpa using single, fun _ => .inr stopped, by simpa using ended⟩

end Step

theorem actions_member {id : ConnId} {action : Action} {events : List Event} :
    action ∈ actions id events ↔ .handle id action ∈ events := by
  simp only [actions, List.mem_filterMap]
  constructor
  · rintro ⟨event, member, acts⟩
    cases event with
    | handle other _ =>
      by_cases same : other = id
      · simp only [same, if_true, Option.some.injEq] at acts
        rwa [same, acts] at member
      · simp [same] at acts
    | _ => cases acts
  · exact fun member => ⟨_, member, by simp⟩

theorem processed_member {id : ConnId} {line reply : Bytes} {events : List Event} :
    (line, reply) ∈ processed (actions id events) ↔ .handle id (.process line reply) ∈ events := by
  rw [← actions_member]
  simp only [processed, List.mem_filterMap]
  constructor
  · rintro ⟨action, member, processes⟩
    cases action <;> cases processes
    exact member
  · exact fun member => ⟨_, member, rfl⟩

theorem Progress.counted {past : List Action} {conn : Conn} (progress : Progress past conn) :
    (processed past).length ≤ (replies past).length + 1 := by
  have lengths := congrArg List.length progress.answers
  have pending : conn.phase.reply.toList.length ≤ 1 := by cases conn.phase <;> simp [Phase.reply]
  have single := progress.single
  rw [List.length_map, List.length_append, List.length_append] at lengths
  by_cases looping : conn.phase.stage < 4
  · rw [progress.looping looping, List.length_nil] at lengths
    omega
  · rw [(Phase.idle (by omega)).2, Option.toList_none, List.length_nil] at lengths
    omega

theorem Progress.ordered {past : List Action} {conn : Conn} (progress : Progress past conn) :
    replies past <+: (processed past).map Prod.snd := by
  rw [progress.answers]
  exact List.prefix_append _ _

theorem Progress.answered {past : List Action} {conn : Conn} (progress : Progress past conn) {index : Nat} {reply : Bytes}
    (written : (replies past)[index]? = some reply) : ∃ line, (processed past)[index]? = some (line, reply) := by
  have found := Lines.prefix_at progress.ordered written
  rw [List.getElem?_map, Option.map_eq_some_iff] at found
  obtain ⟨⟨line, _⟩, found, rfl⟩ := found
  exact ⟨line, found⟩

theorem Progress.processed_line {past : List Action} {conn : Conn} (progress : Progress past conn) {index : Nat} {line reply : Bytes}
    (found : (processed past)[index]? = some (line, reply)) : (delivered past)[index]? = some line := by
  have inside := (List.getElem?_eq_some_iff.mp found).1
  rw [progress.lines, List.getElem?_append_left (by simpa using inside), List.getElem?_map, found]
  rfl

theorem Progress.clean {past : List Action} {conn : Conn} (progress : Progress past conn) {line : Bytes}
    (found : line ∈ (processed past).map Prod.fst) : newline ∉ line := by
  apply progress.tokens.clean
  rw [progress.lines]
  exact List.mem_append_left _ found

section Sent
variable {past : List Action} {conn : Conn} {whole : List Bytes} (progress : Progress past conn)
  (sent : ∀ line ∈ whole, newline ∉ line) (sends : Sends (Lines.unlines newline whole) past)
include progress sent sends

/-- Of whole lines, those that fit the buffer are processed, in order. -/
theorem Progress.processed_sent : (processed past).map Prod.fst <+: (whole.takeWhile (Fits ·)).map dropCR := by
  obtain ⟨raws, handed, fitting, _⟩ :=
    progress.tokens.whole_lines sent sends.1 fun failed => sends.2 (progress.ended.mp failed)
  have lines := progress.lines
  rw [handed] at lines
  exact (lines ▸ List.prefix_append _ _).trans (fitting.map dropCR)

/-- A handler that is done, and whose writes succeeded, has answered them all. -/
theorem Progress.finished (left : 4 ≤ conn.phase.stage) (succeed : writes false past = []) :
    (processed past).map Prod.fst = (whole.takeWhile (Fits ·)).map dropCR ∧ (processed past).map Prod.snd = replies past := by
  obtain ⟨raws, handed, _, stopped⟩ :=
    progress.tokens.whole_lines sent sends.1 fun failed => sends.2 (progress.ended.mp failed)
  have scanned := (progress.left left).resolve_left fun failed => failed succeed
  have lines := progress.lines
  have answers := progress.answers
  rw [(Phase.idle left).1, handed, stopped scanned] at lines
  rw [(Phase.idle left).2, succeed] at answers
  exact ⟨by simpa using lines.symm, by simpa using answers⟩

end Sent

theorem actions_apart {id : ConnId} {event : Event} (apart : event.conn? ≠ some id) : actions id [event] = [] := by
  cases event <;> simp_all [actions, Event.conn?]

theorem Progress.change {store : MemoryStore} {id : ConnId} {event : Event} {past : List Action} {before after : Conn}
    (progress : Progress past before) (change : Change store id event before after) :
    Progress (past ++ actions id [event]) after := by
  cases change with
  | handle handled => simpa [actions] using progress.handle handled
  | accept phase | register phase | refuse phase | spawn phase | unregister phase | close phase | wgDone phase =>
    change Progress (past ++ []) _
    rw [List.append_nil]
    exact progress.frame rfl (by simp [phase, Phase.line]) (by simp [phase, Phase.reply]) (by simp [phase, Phase.stage])
      (by simp [phase, Phase.stage])
  | closeRefused | closeLive | gone =>
    change Progress (past ++ []) _
    rw [List.append_nil]
    exact progress.frame rfl rfl rfl (le_refl _) (fun high => high)
  | other apart =>
    simpa [actions_apart apart] using progress

private theorem Change.silent {store : MemoryStore} {id : ConnId} {event : Event} {before after : Conn}
    (change : Change store id event before after) (failing : before.closed = true ∨ before.gone = true) :
    replies (actions id [event]) = [] := by
  cases change with
  | @handle _ _ _ action handled =>
    have alone : actions id [.handle id action] = [action] := by simp [actions]
    rw [alone, replies, writes_single]
    cases action with
    | write reply ok =>
      obtain ⟨⟨_, succeeds⟩, _⟩ := (allow_eq_some ..).mp handled
      cases ok
      · rfl
      · obtain ⟨opened, present⟩ := succeeds rfl
        simp [opened, present] at failing
    | read _ | readEnd | deliver _ | process _ _ | leave => rfl
  | other apart => rw [actions_apart apart]; rfl
  | accept | register | refuse | closeRefused | spawn | unregister | close | wgDone | closeLive | gone => rfl

section Runs
variable {store : MemoryStore} {events later : List Event} {state final : State}

theorem progress_run (ran : run step { store } events = some state) (id : ConnId) :
    Progress (actions id events) (state.conn id) := by
  refine invariant (fun past state => Progress (actions id past) (state.conn id)) ?_ ?_ ran
  · exact Progress.initial
  intro past before next after earlier progress stepped
  rw [actions_append]
  exact progress.change (step_conn (placed_run earlier) stepped id)

/-- A processed line was answered from the store at that moment. -/
theorem processed_event (ran : run step { store } events = some state) {id : ConnId} {index : Nat} {line reply : Bytes}
    (found : (processed (actions id events))[index]? = some (line, reply)) :
    ∃ past before future, events = past ++ .handle id (.process line reply) :: future ∧
      run step { store } past = some before ∧ (processed (actions id past)).length = index ∧
      (answer before.store line).2 = reply := by
  revert found
  refine invariant (fun past _ => (processed (actions id past))[index]? = some (line, reply) →
    ∃ earlier before future, past = earlier ++ .handle id (.process line reply) :: future ∧
      run step { store } earlier = some before ∧ (processed (actions id earlier)).length = index ∧
      (answer before.store line).2 = reply) (by simp [actions, processed]) ?_ ran
  intro past before next after arrived ih stepped found
  rw [actions_append, processed_append] at found
  by_cases old : index < (processed (actions id past)).length
  · rw [List.getElem?_append_left old] at found
    obtain ⟨earlier, middle, future, rfl, rest⟩ := ih found
    exact ⟨earlier, middle, future ++ [next], by simp, rest⟩
  · rw [List.getElem?_append_right (by omega)] at found
    obtain rfl := List.mem_singleton.mp (processed_member.mp (List.mem_of_getElem? found))
    have alone : processed (actions id [.handle id (.process line reply)]) = [(line, reply)] := by simp [actions, processed]
    have inside := (List.getElem?_eq_some_iff.mp found).1
    rw [alone, List.length_singleton] at inside
    exact ⟨past, before, [], rfl, arrived, by omega, congrArg Prod.snd (step_answered stepped)⟩

/-- No reply gets through on a connection that is closed or whose client is gone. -/
theorem replies_stop (ran : run step { store } events = some state) {id : ConnId}
    (failing : (state.conn id).closed = true ∨ (state.conn id).gone = true)
    (continued : run step state later = some final) : replies (actions id later) = [] := by
  have whole := invariant (fun past current => run step state past = some current ∧ replies (actions id past) = [] ∧
    ((current.conn id).closed = true ∨ (current.conn id).gone = true)) ⟨rfl, rfl, failing⟩ ?_ continued
  · exact whole.2.1
  intro past before next after _ ⟨arrived, silent, failing⟩ stepped
  have change := step_conn (placed_run (run_join ran arrived)) stepped id
  refine ⟨run_snoc arrived stepped, ?_, failing.imp change.socket.1 change.socket.2⟩
  rw [actions_append, replies_append, silent, List.nil_append]
  exact change.silent failing

/-- At most one processed line is without its reply, replies go out in order,
and a connection that fails has at most one more line processed. -/
theorem one_unacknowledged (ran : run step { store } events = some state) (id : ConnId) :
    (processed (actions id events)).length ≤ (replies (actions id events)).length + 1 ∧
    replies (actions id events) <+: (processed (actions id events)).map Prod.snd ∧
    ((state.conn id).closed = true ∨ (state.conn id).gone = true → ∀ later final, run step state later = some final →
      (processed (actions id later)).length ≤ 1) := by
  have progress := progress_run ran id
  refine ⟨progress.counted, progress.ordered, fun failing later final continued => ?_⟩
  have whole := (progress_run (run_join ran continued) id).counted
  have prefixed := progress.ordered.length_le
  rw [actions_append, processed_append, replies_append, replies_stop ran failing continued] at whole
  simp only [List.length_append, List.length_map, List.append_nil] at whole prefixed
  omega

/-- Shutdown closes a connection that has two more lines buffered. -/
def closedWhileBuffered : List Event := [.accept 0, .register 0, .spawn 0,
  .handle 0 (.read (text "SET a b\nDEL a\nDEL a\n")), .handle 0 (.deliver (text "SET a b")), .lock, .closeDone,
  .closeListener, .closeLive 0]

theorem one_unacknowledged_closed : ∃ ran : (run step {} closedWhileBuffered).isSome,
    ∀ later final, run step ((run step {} closedWhileBuffered).get ran) later = some final →
      (processed (actions 0 later)).length ≤ 1 :=
  ⟨by decide, (one_unacknowledged (Option.some_get _).symm 0).2.2 (.inl (by decide))⟩

end Runs

end Kvasir.Server
