import Kvasir.Proofs.LockedProgress
import Kvasir.Proofs.LockedServing
import Kvasir.Proofs.ServerDrain

/-! Draining over the locked store. A handler that waits for a lock when Shutdown
comes still gets its result, because its call has only so many steps and whoever
holds the lock goes on; so the server drains as it does over the atomic store. -/

namespace Kvasir.LockedServer
open Runs Refinement Termination Protocol Server LockedStore

/-- What the server does, and not its clients or the context. -/
def Event.own : Event → Bool
  | .server event => event.own
  | _ => true

/-- Steps that a handler takes inside `execute` before and after its turn. -/
def State.pending (state : State) (id : ConnId) : Nat :=
  match state.calling id with
  | some call => (state.locked.phase call).rank + 1
  | none =>
    match (state.server.conn id).phase with
    | .scanned _ => 6
    | _ => 0

/-- The atomic server's rank leaves room for one line that is still to be scanned. -/
def State.rank (state : State) : Nat :=
  7 * (overlay state.answered .new state.server).rank + ∑ id ∈ state.server.accepted, state.pending id

theorem Mirrors.rank {state : State} {atomic : Server.State} (mirrors : Mirrors state atomic) :
    state.rank = 7 * atomic.rank + ∑ id ∈ state.server.accepted, state.pending id := by
  have same : atomic.rank = (overlay state.answered .new state.server).rank :=
    (congrArg Server.State.rank mirrors.same).trans rfl
  rw [State.rank, same]

theorem Mirrors.accepted {state : State} {atomic : Server.State} (mirrors : Mirrors state atomic) :
    atomic.accepted = state.server.accepted := (congrArg Server.State.accepted mirrors.same).trans rfl

theorem scanned_accepted {server : Server.State} (placed : Placed server) {id : ConnId} {line : Bytes}
    (scanned : (server.conn id).phase = .scanned line) : id ∈ server.accepted := by
  by_contra unknown
  have absent := (placed.absent id).mp unknown
  rw [scanned] at absent
  cases absent

/-- One summand more is at most that much more. -/
private theorem sum_raised {ids : Finset ConnId} {before after : ConnId → Nat} {more : Nat} (id : ConnId)
    (here : after id ≤ before id + more) (others : ∀ other, other ≠ id → after other ≤ before other) :
    ∑ other ∈ ids, after other ≤ ∑ other ∈ ids, before other + more := by
  have each : ∀ other ∈ ids, after other ≤ before other + if other = id then more else 0 := by
    intro other _
    by_cases same : other = id
    · simpa [same] using here
    · simpa [same] using others other same
  have whole := Finset.sum_le_sum each
  rw [Finset.sum_add_distrib, Finset.sum_ite_eq'] at whole
  refine whole.trans (Nat.add_le_add_left ?_ _)
  split <;> omega

theorem phase_kept {store : MemoryStore} {id : ConnId} {event : Server.Event} {before after : Conn}
    (change : Change store id event before after) (apart : event.conn? ≠ some id ∨ event.own = false) : after.phase = before.phase := by
  cases change with
  | other _ | closeRefused _ | closeLive | gone => rfl
  | accept | register | refuse | spawn | handle | unregister | close | wgDone => simp [Server.Event.conn?, Server.Event.own] at apart

theorem pending_le (state : State) (id : ConnId) : state.pending id ≤ 6 := by
  simp only [State.pending]
  split
  next call _ =>
    have left := (state.locked.phase call).rank_le
    omega
  next => split <;> omega

theorem pending_running {state : State} (calls : Calls state) {id : ConnId} (busy : state.pending id ≠ 0) :
    2 ≤ state.server.stage id ∧ state.server.stage id < 7 := by
  have scanning : ∃ line, (state.server.conn id).phase = .scanned line := by
    cases calling : state.calling id with
    | some call =>
      obtain ⟨line, _, scanned, _⟩ := calls.asked id call calling
      exact ⟨line, scanned⟩
    | none =>
      simp only [State.pending, calling] at busy
      split at busy
      next line scanned => exact ⟨line, scanned⟩
      next => exact absurd rfl busy
  obtain ⟨line, scanned⟩ := scanning
  simp [Server.State.stage, scanned, Server.Phase.stage]

section Pending
variable {before : State}

/-- A step of the server leaves at most one more line to process. -/
theorem pending_server (placed : Placed before.server) {event : Server.Event} {server : Server.State}
    (moved : Server.step before.server event = some server) (ids : Finset ConnId) :
    ∑ id ∈ ids, State.pending { before with server } id ≤
      ∑ id ∈ ids, before.pending id + if event.own then 6 else 0 := by
  have same : ∀ id, (server.conn id).phase = (before.server.conn id).phase →
      State.pending { before with server } id = before.pending id := by
    intro id phase
    simp only [State.pending, phase]
  have kept : ∀ id, event.conn? ≠ some id ∨ event.own = false → State.pending { before with server } id = before.pending id := by
    intro id apart
    exact same id (phase_kept (step_conn placed moved id) apart)
  have bound : ∀ id, State.pending { before with server } id ≤ before.pending id + 6 := by
    intro id
    simp only [State.pending]
    cases before.calling id with
    | some call => simp
    | none => dsimp only; split <;> omega
  cases mine : event.own with
  | false => exact (Finset.sum_congr rfl fun id _ => kept id (.inr mine)).le
  | true =>
    rw [if_pos rfl]
    cases about : event.conn? with
    | none => exact (Finset.sum_congr rfl fun id _ => kept id (.inl (by simp [about]))).le.trans (Nat.le_add_right _ _)
    | some id => exact sum_raised id (bound id) fun other apart => (kept other (.inl (by simp [about, Ne.symm apart]))).le

/-- Some handler is nearer its reply, and none is further from it. -/
def Nearer (ids : Finset ConnId) (before after : State) : Prop :=
  (∃ id ∈ ids, after.pending id < before.pending id) ∧ ∀ id, after.pending id ≤ before.pending id

theorem Nearer.here {ids : Finset ConnId} {before after : State} {id : ConnId} (member : id ∈ ids)
    (less : after.pending id < before.pending id) (others : ∀ other, other ≠ id → after.pending other = before.pending other) :
    Nearer ids before after := by
  refine ⟨⟨id, member, less⟩, fun other => ?_⟩
  by_cases same : other = id
  · exact same ▸ less.le
  · exact (others other same).le

theorem pending_held (calls : Calls before) (placed : Placed before.server) {event : LockedStore.Event}
    {locked : LockedStore.State} {call : CallId} (moved : LockedStore.step before.locked event = some locked)
    (mine : event.own? = some call) : Nearer before.server.accepted before { before with locked } := by
  have spent := (phase_step moved call).1 mine
  obtain ⟨id, calling⟩ : ∃ id, before.calling id = some call := by
    cases made : (before.locked.phase call).call with
    | none => cases phase : before.locked.phase call <;> simp [phase, LockedStore.Phase.call, LockedStore.Phase.rank] at made spent
    | some asked =>
      refine (calls.owned call asked made).resolve_left ?_
      rintro ⟨result, returned⟩
      simp [returned, LockedStore.Phase.rank] at spent
  obtain ⟨line, _, scanned, _⟩ := calls.asked id call calling
  refine Nearer.here (scanned_accepted placed scanned) ?_ fun other apart => ?_
  · simp only [State.pending, calling]
    omega
  · simp only [State.pending]
    cases waits : before.calling other with
    | none => rfl
    | some started =>
      have different : started ≠ call := fun same => apart (calls.single other id call (same ▸ waits) calling)
      have quiet : locked.phase started = before.locked.phase started := by
        refine (phase_step moved started).2 (by simp [mine, Ne.symm different]) ?_
        rintro made rfl
        cases mine
      simp only [quiet]

/-- Every step that is not one of the server's brings some handler nearer its reply. -/
theorem pending_spent {after : State} {event : Event} (calls : Calls before) (placed : Placed before.server)
    (moves : Moves before event after) (inside : ∀ shown, event ≠ .server shown) :
    after.server.accepted = before.server.accepted ∧ Nearer before.server.accepted before after := by
  cases moves with
  | server _ _ _ => exact absurd rfl (inside _)
  | @reject id line error rejected scanned idle =>
    refine ⟨rfl, Nearer.here (scanned_accepted placed scanned) ?_ fun other apart => ?_⟩
    · simp [State.pending, idle, scanned]
    · simp [State.pending, apart]
  | @execute id line command call locked parsed scanned idle started =>
    obtain ⟨absent, waiting⟩ := start_phase started
    refine ⟨rfl, Nearer.here (scanned_accepted placed scanned) ?_ fun other apart => ?_⟩
    · have cheap := (LockedStore.Phase.waiting (storeCall command)).rank_le
      simp only [LockedStore.Phase.rank] at cheap
      simp only [State.pending, Function.update_self, waiting, LockedStore.Phase.rank, idle, scanned]
      omega
    · simp only [State.pending, Function.update_of_ne apart]
      cases waits : before.calling other with
      | none => rfl
      | some begun =>
        obtain ⟨_, _, _, _, made⟩ := calls.asked other begun waits
        have different : call ≠ begun := by
          rintro rfl
          simp [absent, LockedStore.Phase.call] at made
        simp only [(phase_step started begun).2 (by simp [LockedStore.Event.own?]) (by simp [different])]
  | @reply id call made result calling returned =>
    obtain ⟨line, _, scanned, _⟩ := calls.asked id call calling
    refine ⟨rfl, Nearer.here (scanned_accepted placed scanned) ?_ fun other apart => ?_⟩
    · simp [State.pending, calling]
    · simp [State.pending, apart]
  | @held event step locked taken moved =>
    refine ⟨rfl, ?_⟩
    cases event <;> cases taken <;> exact pending_held calls placed moved rfl

end Pending

section Runs
variable {store : MemoryStore} {events later : List Event} {state final : State}

/-- The locked store's part of a run. -/
def Event.taken? : Event → Option LockedStore.Event
  | .execute _ line call => (parse line).toOption.map fun command => .start call (storeCall command)
  | event => event.held?

theorem locked_run (ran : run step { locked := { data := store.data } } events = some state) :
    run LockedStore.step { data := store.data } (events.filterMap Event.taken?) = some state.locked := by
  have simulates : Simulates step LockedStore.step Event.taken? (fun _ => True) (fun state locked => state.locked = locked) := by
    rintro before _ event after - rfl stepped
    cases step_moves stepped with
    | server | reject | reply => exact ⟨before.locked, rfl, rfl⟩
    | execute parsed _ _ started => exact ⟨_, by simpa [Event.taken?, parsed, Except.toOption] using started, rfl⟩
    | @held event step locked taken moved =>
      refine ⟨locked, ?_, rfl⟩
      cases event <;> cases taken <;> exact (run_singleton ..).trans moved
  obtain ⟨locked, taken, rfl⟩ := simulates.run (fun _ _ => trivial) rfl ran
  exact taken

theorem visible_member {served : List Server.Event} {event : Server.Event} (shows : visible event = some event) :
    event ∈ served.filterMap visible ↔ event ∈ served := by
  rw [List.mem_filterMap]
  constructor
  · rintro ⟨other, member, shown⟩
    cases other
    case handle id action => cases action <;> cases shown <;> exact member
    all_goals cases shown; exact member
  · exact fun member => ⟨event, member, shows⟩

/-- The atomic server of a run in which Shutdown has given the mutex back. -/
theorem draining_atomic (ran : run step { locked := { data := store.data } } events = some state)
    (unlocked : .server .unlock ∈ events) : ∃ served atomic, run Server.step { store } served = some atomic ∧
      .unlock ∈ served ∧ Mirrors state atomic ∧ served.filterMap visible = events.filterMap Event.shown := by
  obtain ⟨served, atomic, matched, mirrors, same⟩ := locked_follows.run (Mirrors.initial store) ran
  have seen : .unlock ∈ served.filterMap visible := same ▸ List.mem_filterMap.mpr ⟨_, unlocked, rfl⟩
  exact ⟨served, atomic, matched, (visible_member rfl).mp seen, mirrors, same⟩

theorem rank_step {before after : State} {event : Event} (ran : run step { locked := { data := store.data } } events = some before)
    (unlocked : .server .unlock ∈ events) (stepped : step before event = some after) :
    after.rank + (if event.own then 1 else 0) ≤ before.rank := by
  obtain ⟨served, atomic, matched, sealed, mirrors, _⟩ := draining_atomic ran unlocked
  have moves := step_moves stepped
  by_cases inside : ∃ shown, event = .server shown
  · obtain ⟨shown, rfl⟩ := inside
    cases moves with
    | held taken _ => cases taken
    | @server _ server moved _ silent =>
      obtain ⟨next, followed, kept⟩ := mirrors.server moved silent
      have fewer := Server.rank_step (draining_run matched sealed) followed
      have steady : server.accepted = before.server.accepted := by
        rw [← mirrors.accepted, ← kept.accepted]
        exact accepted_step (draining_run matched sealed) followed
      have raised := pending_server mirrors.placed moved before.server.accepted
      rw [mirrors.rank, kept.rank, steady, Event.own]
      cases mine : shown.own <;> simp only [mine, if_true, Bool.false_eq_true, if_false] at fewer raised ⊢ <;> omega
  · obtain ⟨steps, next, followed, kept, _⟩ := locked_follows before atomic event after mirrors stepped
    have fewer := (drain_falls store).exhausted ⟨served, matched, sealed⟩ followed
    obtain ⟨steady, ⟨id, member, less⟩, others⟩ := pending_spent mirrors.calls mirrors.placed moves (not_exists.mp inside)
    have nearer := Finset.sum_lt_sum (fun id _ => others id) ⟨id, member, less⟩
    rw [mirrors.rank, kept.rank, steady]
    split <;> omega

theorem locked_drain_falls (store : MemoryStore) : Falls step Event.own (fun _ => 0)
    (fun state => ∃ events, run step { locked := { data := store.data } } events = some state ∧ .server .unlock ∈ events) State.rank := by
  refine ⟨fun before event after ⟨past, ran, unlocked⟩ stepped => ?_, fun before event after ⟨past, ran, unlocked⟩ stepped own => ?_,
    fun before event after ⟨past, ran, unlocked⟩ stepped _ => ?_⟩
  · exact ⟨past ++ [event], run_snoc ran stepped, List.mem_append_left _ unlocked⟩
  · have drop := rank_step ran unlocked stepped
    simp only [own, if_true] at drop
    omega
  · exact (Nat.le_add_right _ _).trans (rank_step ran unlocked stepped)

/-- At most 55 steps of each handler that runs, and 63 of the others. -/
theorem rank_bound {atomic : Server.State} (mirrors : Mirrors state atomic) : state.rank ≤ 55 * state.server.running.card + 63 := by
  have stages : ∀ id, atomic.stage id = state.server.stage id := by
    intro id
    obtain ⟨_, idle, waiting, _⟩ := mirrors.stands
    simp only [Server.State.stage]
    cases calling : state.calling id with
    | none => rw [idle id calling]
    | some call =>
      obtain ⟨line, scanned, ready | ⟨_, _, _, replying⟩⟩ := waiting id call calling
      · rw [ready, scanned]
      · rw [replying, scanned]
        rfl
  have same : atomic.running = state.server.running := by
    simp only [Server.State.running, mirrors.accepted, stages]
  have served := Server.rank_bound atomic
  have pending : ∑ id ∈ state.server.accepted, state.pending id ≤ state.server.running.card * 6 := by
    rw [← Finset.sum_filter_of_ne fun id _ => pending_running mirrors.calls, ← Finset.sum_const_nat fun _ _ => rfl]
    exact Finset.sum_le_sum fun id _ => pending_le state id
  rw [mirrors.rank]
  rw [same] at served
  omega

/-- Nobody waits for the lock when nobody can take a step. -/
theorem rests_idle (ran : run step { locked := { data := store.data } } events = some state) (rests : Rests step Event.own state)
    (calls : Calls state) (id : ConnId) : state.calling id = none := by
  have settled : Rests LockedStore.step LockedStore.Event.own state.locked := by
    intro event own
    cases event with
    | start call made => cases own
    | acquire call => exact Option.map_eq_none_iff.mp (rests (.acquire call) rfl)
    | lookup call => exact Option.map_eq_none_iff.mp (rests (.lookup call) rfl)
    | modify call => exact Option.map_eq_none_iff.mp (rests (.modify call) rfl)
    | release call made result => exact Option.map_eq_none_iff.mp (rests (.release call made result) rfl)
  cases calling : state.calling id with
  | none => rfl
  | some call =>
    obtain ⟨_, _, _, _, made⟩ := calls.asked id call calling
    rcases rests_returned (locked_run ran) settled call with absent | ⟨asked, result, returned⟩
    · rw [absent] at made
      cases made
    · have replies := rests (.reply id (resultReply result)) rfl
      simp [step, calling, returned, allow] at replies

/-- Where no step is left, none is left to the atomic server. -/
theorem rests_atomic {atomic : Server.State} (ran : run step { locked := { data := store.data } } events = some state)
    (rests : Rests step Event.own state) (mirrors : Mirrors state atomic) : Rests Server.step Server.Event.own atomic := by
  have idle := rests_idle ran rests mirrors.calls
  have silent : state.answered = fun _ => none := funext fun id => by simp [State.answered, idle id]
  intro event own
  refine Option.eq_none_iff_forall_ne_some.mpr fun next stepped => ?_
  by_cases processes : ∃ id line reply, event = .handle id (.process line reply)
  · obtain ⟨id, line, reply, rfl⟩ := processes
    obtain ⟨_, _, handled, _⟩ := step_handle stepped
    obtain ⟨⟨scanned, _⟩, _⟩ := (allow_eq_some ..).mp handled
    rw [mirrors.stands.idle id (idle id)] at scanned
    cases parsed : parse line with
    | error error =>
      have rejects := rests (.reject id line) rfl
      simp [step, parsed, scanned, idle id, allow] at rejects
    | ok command =>
      obtain ⟨ids, within⟩ := within_run (locked_run ran)
      obtain ⟨call, fresh⟩ := ids.exists_notMem
      have absent : state.locked.phase call = .absent := by
        by_contra present
        exact fresh (within call present)
      have executes := rests (.execute id line call) rfl
      simp [step, parsed, scanned, idle id, LockedStore.step, absent, allow] at executes
  · have quiet : ∀ id line reply, event ≠ .handle id (.process line reply) := fun id line reply acts => processes ⟨id, line, reply, acts⟩
    have back : overlay (fun _ => none) state.server.store atomic = state.server := by
      rw [mirrors.same, silent]
      rfl
    have moved := @overlay_step (fun _ => none) state.server.store _ _ _ stepped quiet fun _ _ => .inl rfl
    rw [back] at moved
    have stuck := rests (.server event) own
    cases event
    case handle id action =>
      cases action
      case process line reply => exact quiet id line reply rfl
      all_goals
        rw [Option.map_eq_none_iff.mp stuck] at moved
        cases moved
    all_goals
      rw [Option.map_eq_none_iff.mp stuck] at moved
      cases moved

/-- A server that has nothing left to do is drained, and no handler is inside a call. -/
theorem rests_drained (ran : run step { locked := { data := store.data } } events = some state)
    (unlocked : .server .unlock ∈ events) (rests : Rests step Event.own state) :
    Drained (events.filterMap Event.shown) state.server ∧ ∀ id, state.calling id = none := by
  obtain ⟨served, atomic, matched, sealed, mirrors, same⟩ := draining_atomic ran unlocked
  have idle := rests_idle ran rests mirrors.calls
  have silent : state.answered = fun _ => none := funext fun id => by simp [State.answered, idle id]
  have here : atomic = { state.server with store := atomic.store } := by
    conv => lhs; rw [mirrors.same, silent]
    rfl
  obtain ⟨serve, handlers, closed, conns, shutdown, patient⟩ :=
    Server.rests_drained matched sealed (rests_atomic ran rests mirrors)
  rw [here] at serve closed conns shutdown patient
  refine ⟨⟨serve, fun id registered => ?_, fun id accepted => ?_, conns, shutdown, patient⟩, idle⟩
  · rw [← same, visible_member rfl] at registered ⊢
    exact handlers id registered
  · rw [← same, visible_member rfl] at accepted
    exact closed id accepted

/-- Over the locked store the server drains as well: once Shutdown has released its
mutex a bounded number of steps is left, the store calls' included, whatever the
clients do, and when none is left everything has ended and no handler waits for a
lock. -/
theorem locked_server_drains (ran : run step { locked := { data := store.data } } events = some state)
    (unlocked : .server .unlock ∈ events) :
    (∀ later final, run step state later = some final →
      (later.filter Event.own).length ≤ 55 * state.server.running.card + 63 ∧
      (Rests step Event.own final → Drained ((events ++ later).filterMap Event.shown) final.server ∧ ∀ id, final.calling id = none)) ∧
    ∃ later final, (∀ event ∈ later, event.own = true) ∧ run step state later = some final ∧
      Drained ((events ++ later).filterMap Event.shown) final.server ∧ ∀ id, final.calling id = none := by
  refine ⟨fun later final continued => ⟨?_, fun rests => ?_⟩, ?_⟩
  · obtain ⟨_, _, _, _, mirrors, _⟩ := draining_atomic ran unlocked
    have spent := (locked_drain_falls store).exhausted ⟨events, ran, unlocked⟩ continued
    have bound := rank_bound mirrors
    omega
  · exact rests_drained (run_join ran continued) (List.mem_append_left _ unlocked) rests
  · obtain ⟨later, final, own, continued, rests⟩ := (locked_drain_falls store).rests state ⟨events, ran, unlocked⟩
    exact ⟨later, final, own, continued, rests_drained (run_join ran continued) (List.mem_append_left _ unlocked) rests⟩

/-- Shutdown comes while one handler holds the lock and another waits for it. -/
def lockedOut : List Event := [.server (.accept 0), .server (.register 0), .server (.spawn 0), .server (.accept 1),
  .server (.register 1), .server (.spawn 1), .server (.handle 0 (.read (text "SET a x\n"))),
  .server (.handle 0 (.deliver (text "SET a x"))), .execute 0 (text "SET a x") 0, .acquire 0,
  .server (.handle 1 (.read (text "GET a\nGET a\n"))), .server (.handle 1 (.deliver (text "GET a"))), .execute 1 (text "GET a") 1,
  .server .lock, .server .closeDone, .server .closeListener, .server (.closeLive 0), .server (.closeLive 1), .server .unlock]

theorem locked_server_drains_locked_out : ∃ ran : (run step {} lockedOut).isSome,
    (∀ later final, run step ((run step {} lockedOut).get ran) later = some final → (later.filter Event.own).length ≤ 173) ∧
    ∃ later final, run step ((run step {} lockedOut).get ran) later = some final ∧
      Drained ((lockedOut ++ later).filterMap Event.shown) final.server := by
  obtain ⟨ran, two⟩ : ∃ ran : (run step {} lockedOut).isSome, ((run step {} lockedOut).get ran).server.running.card = 2 :=
    ⟨by decide, by decide⟩
  obtain ⟨bounded, later, final, _, continued, drained, _⟩ :=
    @locked_server_drains .new _ _ (Option.some_get ran).symm (by decide)
  rw [two] at bounded
  exact ⟨ran, fun more last after => (bounded more last after).1, later, final, continued, drained⟩

end Runs

end Kvasir.LockedServer
