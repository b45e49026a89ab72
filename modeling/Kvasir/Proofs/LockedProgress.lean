import Kvasir.Lib.Termination
import Kvasir.Proofs.LockedRefinement
import Mathlib.Algebra.BigOperators.Finprod

/-! Progress under the lock. A call takes a fixed number of steps. Only the acquire
can be refused, and only while another call holds the lock; whoever holds it can go
on, so calls never wait for each other in a circle. -/

namespace Kvasir.LockedStore
open Runs Termination

/-- Acquire, look up or modify, release; a Delete looks up before it modifies. -/
def Call.cost : Call → Nat
  | .get _ | .set _ _ => 3
  | .delete _ => 4

/-- Steps left to a call. -/
def Phase.rank : Phase → Nat
  | .absent | .returned _ _ => 0
  | .waiting call => call.cost
  | .holding call => call.cost - 1
  | .looked call _ => call.cost - 2
  | .modified _ _ => 1

theorem Phase.rank_le (phase : Phase) : phase.rank ≤ 4 := by
  have cheap : ∀ call : Call, call.cost ≤ 4 := by
    intro call
    cases call <;> simp [Call.cost]
  cases phase with
  | waiting call | holding call | looked call _ =>
    have cost := cheap call
    simp only [Phase.rank]
    omega
  | absent | returned _ _ | modified _ _ => simp [Phase.rank]

/-- The call that takes this step, once it is started. -/
def Event.own? : Event → Option CallId
  | .start _ _ => none
  | .acquire id | .lookup id | .modify id | .release id _ _ => some id

def Event.own (event : Event) : Bool := event.own?.isSome

/-- The steps that a call brings with it. -/
def Event.brings : Event → Nat
  | .start _ call => call.cost
  | _ => 0

section Step
variable {before after : State} {event : Event}

/-- A call's step is one of those that were left to it. -/
theorem phase_step (stepped : step before event = some after) (id : CallId) :
    (event.own? = some id → (after.phase id).rank + 1 = (before.phase id).rank) ∧
    (event.own? ≠ some id → (∀ call, event ≠ .start id call) → after.phase id = before.phase id) := by
  cases event with
  | start other call =>
    obtain ⟨absent, rfl⟩ := (allow_eq_some ..).mp stepped
    refine ⟨by simp [Event.own?], fun _ apart => ?_⟩
    have other : id ≠ other := by
      rintro rfl
      exact apart call rfl
    simp [other]
  | acquire other =>
    obtain ⟨call, waiting, _, ⟨_, rfl⟩ | ⟨_, _, rfl⟩⟩ := step_acquire stepped <;>
      by_cases same : id = other <;> cases call <;> simp [*, Event.own?, Phase.rank, Call.cost, Ne.symm]
  | lookup other =>
    obtain ⟨call, key, rfl | rfl, holding, rfl⟩ := step_lookup stepped <;>
      by_cases same : id = other <;> simp [*, Event.own?, Phase.rank, Call.cost, Ne.symm]
  | modify other =>
    rcases step_modify stepped with ⟨key, value, holding, rfl⟩ | ⟨key, found, looked, rfl⟩ <;>
      by_cases same : id = other <;> simp [*, Event.own?, Phase.rank, Call.cost, Ne.symm]
  | release other call result =>
    rcases step_release stepped with ⟨key, found, looked, rfl, rfl, rfl⟩ | ⟨modified, rfl⟩ <;>
      by_cases same : id = other <;> simp [*, Event.own?, Phase.rank, Call.cost, Ne.symm]

theorem start_phase {id : CallId} {call : Call} (stepped : step before (.start id call) = some after) :
    before.phase id = .absent ∧ after.phase id = .waiting call := by
  obtain ⟨absent, rfl⟩ := (allow_eq_some ..).mp stepped
  exact ⟨absent, by simp⟩

end Step

/-- Steps left to all the calls in flight. -/
noncomputable def State.rank (state : State) : Nat := ∑ᶠ id, (state.phase id).rank

/-- The calls that have been started. -/
def Within (ids : Finset CallId) (state : State) : Prop := ∀ id, state.phase id ≠ .absent → id ∈ ids

section Rank
variable {ids : Finset CallId} {before after state : State} {event : Event}

theorem rank_within (within : Within ids state) : state.rank = ∑ id ∈ ids, (state.phase id).rank := by
  refine finsum_eq_sum_of_support_subset _ fun id busy => ?_
  refine within id fun absent => busy ?_
  simp [absent, Phase.rank]

theorem within_step (within : Within ids before) (stepped : step before event = some after) :
    ∃ ids, Within ids before ∧ Within ids after := by
  cases event with
  | start id call =>
    refine ⟨insert id ids, fun other present => Finset.mem_insert_of_mem (within other present), fun other present => ?_⟩
    by_cases same : other = id
    · simp [same]
    · obtain ⟨absent, rfl⟩ := (allow_eq_some ..).mp stepped
      exact Finset.mem_insert_of_mem (within other (by simpa [same] using present))
  | acquire id | lookup id | modify id | release id _ _ =>
    refine ⟨ids, within, fun other present => within other fun absent => present ?_⟩
    obtain ⟨mine, rest⟩ := phase_step stepped other
    by_cases same : id = other
    · have left := mine (by simp [Event.own?, same])
      simp [absent, Phase.rank] at left
    · rw [rest (by simp [Event.own?, same]) (by simp), absent]

/-- The calls' steps use the rank up one by one; a call that starts brings its own. -/
theorem rank_step (within : Within ids before) (stepped : step before event = some after) :
    after.rank + (if event.own then 1 else 0) = before.rank + event.brings := by
  obtain ⟨all, first, last⟩ := within_step within stepped
  rw [rank_within first, rank_within last]
  have whole : ∀ id ∈ all, (∀ other, other ≠ id → after.phase other = before.phase other) →
      (∑ other ∈ all, (after.phase other).rank) + (before.phase id).rank =
        (∑ other ∈ all, (before.phase other).rank) + (after.phase id).rank := by
    intro id member same
    rw [← Finset.add_sum_erase all _ member, ← Finset.add_sum_erase all (fun other => (before.phase other).rank) member]
    have others : ∑ other ∈ all.erase id, (after.phase other).rank = ∑ other ∈ all.erase id, (before.phase other).rank :=
      Finset.sum_congr rfl fun other inside => by rw [same other (Finset.ne_of_mem_erase inside)]
    omega
  cases mine : event.own? with
  | some id =>
    have left := (phase_step stepped id).1 mine
    have member : id ∈ all := first id fun absent => by simp [absent, Phase.rank] at left
    have count := whole id member fun other apart => (phase_step stepped other).2 (by simp [mine, Ne.symm apart]) (by
      rintro call rfl
      cases mine)
    have brings : event.brings = 0 := by cases event <;> first | rfl | cases mine
    simp only [Event.own, mine, Option.isSome_some, if_true, brings]
    omega
  | none =>
    obtain ⟨id, call, rfl⟩ : ∃ id call, event = .start id call := by
      cases event <;> first | exact ⟨_, _, rfl⟩ | cases mine
    obtain ⟨absent, waiting⟩ := start_phase stepped
    have member : id ∈ all := last id (by simp [waiting])
    have count := whole id member fun other apart => (phase_step stepped other).2 (by simp [mine]) (by simp [Ne.symm apart])
    have unspent : (before.phase id).rank = 0 := by rw [absent, Phase.rank]
    have brought : (after.phase id).rank = call.cost := by rw [waiting, Phase.rank]
    simp only [Event.own, mine, Option.isSome_none, Bool.false_eq_true, if_false, Event.brings]
    omega

end Rank

section Calls
variable {start : MemoryStore} {events : List Event} {state : State}

/-- Each call's steps so far and those left to it are the steps that it takes. -/
theorem steps_counted (ran : run step { data := start.data } events = some state) (id : CallId) :
    (events.filter fun event => event.own? = some id).length + (state.phase id).rank = (state.phase id).call.elim 0 Call.cost := by
  refine invariant (fun past state => (past.filter fun event => event.own? = some id).length + (state.phase id).rank =
    (state.phase id).call.elim 0 Call.cost) (by simp [Phase.rank, Phase.call]) ?_ ran
  intro past before event after _ ih stepped
  obtain ⟨mine, rest⟩ := phase_step stepped id
  rw [List.filter_append, List.length_append]
  rcases call_step stepped id with same | ⟨call, rfl, absent, waiting⟩
  · rw [same, ← ih]
    by_cases own : event.own? = some id
    · have left := mine own
      simp [own]
      omega
    · have quiet : after.phase id = before.phase id := by
        refine rest own fun call starts => ?_
        subst starts
        obtain ⟨absent, waiting⟩ := start_phase stepped
        simp [absent, waiting, Phase.call] at same
      simp [own, quiet]
  · have fresh : (past.filter fun event => event.own? = some id).length = 0 := by
      rw [absent] at ih
      exact (Nat.add_eq_zero_iff.mp ih).1
    rw [fresh, waiting]
    simp [Event.own?, Phase.rank, Phase.call]

/-- Whoever holds the lock waits for nobody. -/
theorem holder_steps (ran : run step { data := start.data } events = some state) {id : CallId}
    (holds : id ∈ state.readers ∨ state.writer = some id) : ∃ event, event.own? = some id ∧ (step state event).isSome := by
  obtain ⟨store, _, refines⟩ := released_run ran
  have held := refines.calls id
  cases phase : state.phase id with
  | absent | waiting _ | returned _ _ =>
    rw [phase] at held
    exact (holds.elim held.1 held.2).elim
  | holding call =>
    cases call with
    | get key | delete key => exact ⟨.lookup id, rfl, by simp [step, phase]⟩
    | set key value => exact ⟨.modify id, rfl, by simp [step, phase]⟩
  | looked call found =>
    cases call with
    | get key => exact ⟨.release id (.get key) (.found found), rfl, by simp [step, phase, allow]⟩
    | set key value => simp [phase, Holds] at held
    | delete key => exact ⟨.modify id, rfl, by simp [step, phase]⟩
  | modified call result => exact ⟨.release id call result, rfl, by simp [step, phase, allow]⟩

/-- Where no call can step, none is waiting and none holds the lock. -/
theorem rests_returned (ran : run step { data := start.data } events = some state) (rests : Rests step Event.own state)
    (id : CallId) : state.phase id = .absent ∨ ∃ call result, state.phase id = .returned call result := by
  have unheld : ∀ id, ¬ (id ∈ state.readers ∨ state.writer = some id) := by
    intro id holds
    obtain ⟨event, mine, enabled⟩ := holder_steps ran holds
    rw [rests event (by simp [Event.own, mine])] at enabled
    cases enabled
  have free : state.writer = none := Option.eq_none_iff_forall_ne_some.mpr fun id => (not_or.mp (unheld id)).2
  have unread : state.readers = ∅ := Finset.eq_empty_of_forall_notMem fun id => (not_or.mp (unheld id)).1
  obtain ⟨store, _, refines⟩ := released_run ran
  have held := refines.calls id
  cases phase : state.phase id with
  | absent => exact .inl rfl
  | waiting call =>
    have acquire := rests (.acquire id) rfl
    cases reads : call.reads <;> simp [step, phase, reads, allow, free, unread] at acquire
  | returned call result => exact .inr ⟨call, result, rfl⟩
  | holding call | looked call _ => cases call <;> simp [phase, Holds, free, unread] at held
  | modified call result => simp [phase, Holds, free] at held

theorem calls_fall (start : MemoryStore) : Falls step Event.own Event.brings
    (fun state => (∃ events, run step { data := start.data } events = some state) ∧ ∃ ids, Within ids state) State.rank := by
  refine ⟨?_, ?_, ?_⟩
  · intro before event after ⟨⟨past, ran⟩, ids, within⟩ stepped
    obtain ⟨all, _, last⟩ := within_step within stepped
    exact ⟨⟨past ++ [event], run_snoc ran stepped⟩, all, last⟩
  · intro before event after ⟨_, ids, within⟩ stepped own
    have left := rank_step within stepped
    have brings : event.brings = 0 := by cases event <;> first | rfl | cases own
    simp only [own, if_true, brings] at left
    omega
  · intro before event after ⟨_, ids, within⟩ stepped own
    have left := rank_step within stepped
    simp only [own, Bool.false_eq_true, if_false] at left
    omega

theorem within_run (ran : run step { data := start.data } events = some state) : ∃ ids, Within ids state := by
  refine invariant (fun _ state => ∃ ids, Within ids state) ⟨∅, by simp [Within]⟩ ?_ ran
  intro past before event after _ ⟨ids, within⟩ stepped
  obtain ⟨all, _, last⟩ := within_step within stepped
  exact ⟨all, last⟩

theorem rests_released (ran : run step { data := start.data } events = some state) (rests : Rests step Event.own state)
    {id : CallId} {call : Call} (started : .start id call ∈ events) : ∃ result, .release id call result ∈ events := by
  have made := (start_iff ran id call).mp started
  rcases rests_returned ran rests id with absent | ⟨other, result, returned⟩
  · rw [absent] at made
    cases made
  · rw [returned] at made
    obtain rfl := Option.some.inj made
    exact ⟨result, (release_iff ran id other result).mpr returned⟩

/-- No call is lost and none waits forever. Each takes exactly the steps its kind
takes, whoever holds the lock can go on, and the calls' own steps bring every call
that was started to its release, from wherever the others left it. -/
theorem calls_complete (ran : run step { data := start.data } events = some state) :
    (∀ id, (events.filter fun event => event.own? = some id).length + (state.phase id).rank =
      (state.phase id).call.elim 0 Call.cost) ∧
    (∀ id, id ∈ state.readers ∨ state.writer = some id → ∃ event, event.own? = some id ∧ (step state event).isSome) ∧
    (Rests step Event.own state → ∀ id call, .start id call ∈ events → ∃ result, .release id call result ∈ events) ∧
    ∃ later final, (∀ event ∈ later, event.own = true) ∧ run step state later = some final ∧
      ∀ id call, .start id call ∈ events → ∃ result, .release id call result ∈ events ++ later := by
  refine ⟨steps_counted ran, fun _ => holder_steps ran, fun rests id call => rests_released ran rests, ?_⟩
  obtain ⟨later, final, own, continued, rests⟩ := (calls_fall start).rests state ⟨⟨events, ran⟩, within_run ran⟩
  refine ⟨later, final, own, continued, fun id call started => ?_⟩
  exact rests_released (run_join ran continued) rests (List.mem_append_left _ started)

/-- A Delete has looked up its key, and a Get and a Set wait for it. -/
def contended : List Event := [.start 0 (.set (text "a") (text "x")), .acquire 0, .modify 0,
  .release 0 (.set (text "a") (text "x")) .done, .start 1 (.delete (text "a")), .acquire 1, .start 2 (.get (text "a")),
  .start 3 (.set (text "a") (text "y")), .lookup 1]

theorem calls_complete_contended : ∃ ran : (run step { data := MemoryStore.new.data } contended).isSome, ∃ later final,
    run step ((run step { data := MemoryStore.new.data } contended).get ran) later = some final ∧
      ∀ id call, .start id call ∈ contended → ∃ result, .release id call result ∈ contended ++ later := by
  have ran : (run step { data := MemoryStore.new.data } contended).isSome := by decide
  obtain ⟨_, _, _, later, final, _, continued, released⟩ := calls_complete (Option.some_get ran).symm
  exact ⟨ran, later, final, continued, released⟩

end Calls

end Kvasir.LockedStore
