import Kvasir.Measure

/-! What the timer of a measurement covers. Nothing but a sleep puts the end of the
warmups before the clock is read, so only a schedule in which the sleep happens to
outlast them keeps warmup requests out of the timed interval. -/

namespace Kvasir.Measure
open Runs Bench

/-- Every client has failed or finished its warmup. -/
def Ready (n : Nat) (state : State) : Prop := ∀ i < n, (state.client i).phase.ready = true

def Client.Warming (client : Client) : Prop := client.phase.ready = false ∧ client.t0 ≠ none

section Properties
variable (n ops warmup : Nat) (events : List Event)

/-- The warmups are over where the clock is read. -/
def ReadyAtT0 : Prop :=
  ∀ past now future before, events = past ++ .readT0 now :: future →
    run (step n ops) (initial warmup) past = some before → Ready n before

/-- No warmup request is under way between the two readings of the clock. -/
def Quiet : Prop :=
  ∀ past now middle future current, events = past ++ .readT0 now :: (middle ++ future) → (∀ later, .readElapsed later ∉ middle) →
    run (step n ops) (initial warmup) (past ++ .readT0 now :: middle) = some current →
    ∀ i < n, ¬ (current.client i).Warming

/-- No latency is recorded before start is closed. -/
def Recorded : Prop :=
  ∀ past future current, events = past ++ future → run (step n ops) (initial warmup) past = some current →
    .closeStart ∉ past → ∀ i, (current.client i).lat = []

/-- The timer covers the measured phase only. -/
structure Covers : Prop where
  ready : ReadyAtT0 n ops warmup events
  quiet : Quiet n ops warmup events
  recorded : Recorded n ops warmup events

/-- The sleep ends only after every warmup has. -/
def SleepsEnough : Prop :=
  ∀ past future before, events = past ++ .wake :: future →
    run (step n ops) (initial warmup) past = some before → Ready n before

end Properties

section Act
variable {ops : Nat} {started : Bool} {before after : Client} {action : Action}

theorem act_ready (acted : act ops started before action = some after) (ready : before.phase.ready = true) :
    after.phase.ready = true := by
  cases action with
  | reply now expected =>
    obtain ⟨t0, _, rfl⟩ := Option.map_eq_some_iff.mp acted
    cases phase : before.phase <;> cases expected <;> simp_all [Phase.ready, Phase.next]
  | send _ | sendFail | replyFail | park | go | finish =>
    obtain ⟨_, rfl⟩ := (allow_eq_some ..).mp acted
    first | exact ready | rfl

theorem act_unrecorded (acted : act ops false before action = some after)
    (unrecorded : before.phase.record = false ∧ before.lat = []) : after.phase.record = false ∧ after.lat = [] := by
  obtain ⟨phase, lat⟩ := unrecorded
  cases action with
  | reply now expected =>
    obtain ⟨t0, _, rfl⟩ := Option.map_eq_some_iff.mp acted
    cases found : before.phase <;> cases expected <;> simp_all [Phase.record, Phase.next]
  | send _ | sendFail | replyFail | park | go | finish =>
    obtain ⟨guard, rfl⟩ := (allow_eq_some ..).mp acted
    simp_all [Phase.record]

/-- A warmup makes its requests one by one, and no more of them than it is told. -/
theorem act_warming {warmup : Nat} (acted : act ops started before action = some after)
    (bounded : ∀ left, before.phase = .warming left → left ≤ warmup ∧ (before.t0 ≠ none → 0 < left)) :
    ∀ left, after.phase = .warming left → left ≤ warmup ∧ (after.t0 ≠ none → 0 < left) := by
  intro left warming
  cases action with
  | reply now expected =>
    obtain ⟨t0, _, rfl⟩ := Option.map_eq_some_iff.mp acted
    cases found : before.phase <;> cases expected <;> simp_all [Phase.next]
    omega
  | send _ | sendFail | replyFail | park | go | finish =>
    obtain ⟨guard, rfl⟩ := (allow_eq_some ..).mp acted
    simp_all [Phase.left]

end Act

section Step
variable {n ops warmup : Nat} {before after : State} {event : Event}

theorem step_act {i : Nat} {action : Action} (stepped : step n ops before (.client i action) = some after) :
    ∃ client, act ops before.started (before.client i) action = some client ∧
      after = { before with client := Function.update before.client i client } := by
  simp only [step] at stepped
  split at stepped
  · obtain ⟨client, acted, rfl⟩ := Option.map_eq_some_iff.mp stepped
    exact ⟨client, acted, rfl⟩
  · cases stepped

/-- A step moves one client at most, as its goroutine does. -/
theorem step_client (stepped : step n ops before event = some after) (i : Nat) :
    after.client i = before.client i ∨ ∃ action, act ops before.started (before.client i) action = some (after.client i) := by
  cases event with
  | client other action =>
    obtain ⟨client, acted, rfl⟩ := step_act stepped
    by_cases same : i = other
    · subst same
      exact .inr ⟨action, by simpa using acted⟩
    · exact .inl (Function.update_of_ne same ..)
  | wake | readT0 _ | closeStart | waitReturns | readElapsed _ =>
    obtain ⟨_, rfl⟩ := (allow_eq_some ..).mp stepped
    exact .inl rfl

theorem step_started : step n ops before event = some after → after.started = match event with
    | .closeStart => true
    | _ => before.started := by
  intro stepped
  cases event with
  | client other action =>
    obtain ⟨client, _, rfl⟩ := step_act stepped
    rfl
  | wake | readT0 _ | closeStart | waitReturns | readElapsed _ =>
    obtain ⟨_, rfl⟩ := (allow_eq_some ..).mp stepped
    rfl

theorem step_sleeping (stepped : step n ops before event = some after) (awake : after.main ≠ .sleeping) :
    before.main ≠ .sleeping ∨ event = .wake := by
  cases event with
  | client other action =>
    obtain ⟨client, _, rfl⟩ := step_act stepped
    exact .inl awake
  | wake => exact .inr rfl
  | readT0 _ | closeStart | waitReturns | readElapsed _ =>
    obtain ⟨guard, _⟩ := (allow_eq_some ..).mp stepped
    exact .inl (by simp [guard])

theorem Ready.step (ready : Ready n before) (stepped : step n ops before event = some after) : Ready n after := by
  intro i inside
  rcases step_client stepped i with same | ⟨action, acted⟩
  · rw [same]
    exact ready i inside
  · exact act_ready acted (ready i inside)

theorem Ready.run {events : List Event} (ready : Ready n before) (ran : run (Measure.step n ops) before events = some after) :
    Ready n after :=
  invariant (fun _ => Ready n) ready (fun _ _ _ _ _ held stepped => held.step stepped) ran

end Step

section Runs
variable {n ops warmup : Nat} {events : List Event} {state : State}

theorem recorded_run (events : List Event) : Recorded n ops warmup events := by
  intro past future current _ ran unclosed i
  have unrecorded : .closeStart ∉ past → current.started = false ∧
      (current.client i).phase.record = false ∧ (current.client i).lat = [] := by
    refine invariant (fun past current => .closeStart ∉ past → current.started = false ∧
      (current.client i).phase.record = false ∧ (current.client i).lat = []) (fun _ => ⟨rfl, rfl, rfl⟩) ?_ ran
    intro past before event after _ ih stepped unclosed
    rw [List.mem_append, List.mem_singleton, not_or] at unclosed
    obtain ⟨unstarted, unrecorded⟩ := ih unclosed.1
    constructor
    · rw [step_started stepped]
      split
      · exact absurd rfl unclosed.2
      · exact unstarted
    · rcases step_client stepped i with same | ⟨action, acted⟩
      · rwa [same]
      · exact act_unrecorded (unstarted ▸ acted) unrecorded
  exact (unrecorded unclosed).2.2

theorem warming_run (ran : run (step n ops) (initial warmup) events = some state) (i : Nat) :
    ∀ left, (state.client i).phase = .warming left → left ≤ warmup ∧ ((state.client i).t0 ≠ none → 0 < left) := by
  refine invariant (fun _ state => ∀ left, (state.client i).phase = .warming left →
    left ≤ warmup ∧ ((state.client i).t0 ≠ none → 0 < left)) (by simp [initial]) ?_ ran
  intro _ before event after _ held stepped
  rcases step_client stepped i with same | ⟨action, acted⟩
  · rwa [same]
  · exact act_warming acted held

theorem covers_ready (ready : ReadyAtT0 n ops warmup events) : Covers n ops warmup events := by
  refine ⟨ready, ?_, recorded_run events⟩
  intro past now middle future current whole _ arrived i inside ⟨warming, _⟩
  obtain ⟨before, first, later⟩ := run_split arrived
  have held := (ready past now (middle ++ future) before (by simpa using whole) first).run later i inside
  rw [warming] at held
  cases held

theorem woken (ran : run (step n ops) (initial warmup) events = some state) (awake : state.main ≠ .sleeping) : .wake ∈ events := by
  revert awake
  refine invariant (fun past state => state.main ≠ .sleeping → .wake ∈ past) (fun awake => absurd rfl awake) ?_ ran
  intro past before event after _ ih stepped awake
  rcases step_sleeping stepped awake with earlier | rfl
  · exact List.mem_append_left _ (ih earlier)
  · simp

theorem covers_slept (ran : run (step n ops) (initial warmup) events = some state) (slept : SleepsEnough n ops warmup events) :
    Covers n ops warmup events := by
  refine covers_ready ?_
  intro past now future before whole arrived
  subst whole
  obtain ⟨middle, after, first, reading, _⟩ := run_at ran
  obtain rfl : middle = before := Option.some.inj (first.symm.trans arrived)
  have awake : middle.main ≠ .sleeping := by
    rw [((allow_eq_some ..).mp reading).1]
    decide
  obtain ⟨early, late, rfl⟩ := List.append_of_mem (woken arrived awake)
  obtain ⟨asleep, before, passed⟩ := run_split arrived
  exact (slept early (late ++ .readT0 now :: future) asleep (by simp) before).run passed

theorem unready (clients : 0 < n) : ¬ ReadyAtT0 n ops warmup [.wake, .readT0 0] := by
  intro ready
  have early := ready [.wake] 0 [] _ rfl rfl 0 clients
  cases early

theorem unquiet (clients : 0 < n) (requests : 0 < warmup) : ∃ state,
    run (step n ops) (initial warmup) [.wake, .readT0 0, .client 0 (.send 0)] = some state ∧
      ¬ Quiet n ops warmup [.wake, .readT0 0, .client 0 (.send 0)] := by
  have ran : ∃ state, run (step n ops) (initial warmup) [.wake, .readT0 0, .client 0 (.send 0)] = some state ∧
      (state.client 0).Warming := by
    simp [run_cons, step, initial, act, allow, Phase.left, Client.Warming, Phase.ready, clients, requests]
  obtain ⟨state, ran, warming⟩ := ran
  exact ⟨state, ran, fun quiet => quiet [.wake] 0 [.client 0 (.send 0)] [] state rfl (by simp) ran 0 clients warming⟩

/-- The timer covers the measured phase in every schedule in which the sleep outlasts
the warmups. Of other schedules there are some as soon as there is a client, and as
soon as that has a warmup request to make it can make it after the clock is read. -/
theorem timer_covers (n ops warmup : Nat) :
    (∀ events state, run (step n ops) (initial warmup) events = some state →
      Recorded n ops warmup events ∧ (SleepsEnough n ops warmup events → Covers n ops warmup events)) ∧
    ((∀ events state, run (step n ops) (initial warmup) events = some state → Covers n ops warmup events) ↔ n = 0) ∧
    ((∀ events state, run (step n ops) (initial warmup) events = some state → Quiet n ops warmup events) ↔
      n = 0 ∨ warmup = 0) := by
  refine ⟨fun events state ran => ⟨recorded_run events, covers_slept ran⟩, ⟨fun all => ?_, ?_⟩, ⟨fun all => ?_, ?_⟩⟩
  · by_contra clients
    exact unready (Nat.pos_of_ne_zero clients) (all [.wake, .readT0 0] _ rfl).ready
  · rintro rfl events state ran
    exact covers_ready fun _ _ _ _ _ _ i inside => absurd inside (Nat.not_lt_zero i)
  · by_contra both
    rw [not_or] at both
    obtain ⟨state, ran, loud⟩ := @unquiet n ops warmup (Nat.pos_of_ne_zero both.1) (Nat.pos_of_ne_zero both.2)
    exact loud (all _ state ran)
  · rintro (rfl | rfl) events state ran
    · exact (covers_ready fun _ _ _ _ _ _ i inside => absurd inside (Nat.not_lt_zero i)).quiet
    · intro past now middle future current _ _ arrived i _ ⟨unready, asked⟩
      cases phase : (current.client i).phase with
      | warming left =>
        have bounded := warming_run arrived i left phase
        exact absurd (bounded.2 asked) (by omega)
      | parked | measuring _ | failed | finished =>
        rw [phase] at unready
        cases unready

end Runs

/-- One client, one warmup request and one that is measured: the warmup is still to
come when the clock is read. -/
def lateWarmup : List Event := [.wake, .readT0 0, .client 0 (.send 1), .closeStart, .client 0 (.reply 2 true),
  .client 0 .park, .client 0 .go, .client 0 (.send 3), .client 0 (.reply 4 true), .client 0 .finish, .waitReturns,
  .readElapsed 5]

theorem late_warmup_timed : ∃ ran : (run (step 1 1) (initial 1) lateWarmup).isSome,
    ((run (step 1 1) (initial 1) lateWarmup).get ran).result 1 = some { ops := 1, dur := 5, lat := [1] } ∧
    ¬ ReadyAtT0 1 1 1 lateWarmup ∧ ¬ Quiet 1 1 1 lateWarmup := by
  refine ⟨by decide, by decide, fun ready => ?_, fun quiet => ?_⟩
  · cases ready [.wake] 0 (lateWarmup.drop 2) _ rfl rfl 0 (by decide)
  · exact quiet [.wake] 0 [.client 0 (.send 1)] (lateWarmup.drop 3) _ rfl (by simp) rfl 0 (by decide) ⟨rfl, by decide⟩

end Kvasir.Measure
