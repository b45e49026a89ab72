import Kvasir.Lib.Termination
import Kvasir.Proofs.BenchTimer
import Mathlib.Algebra.Order.BigOperators.Group.List

/-! A measurement ends. Every client makes its requests one by one, and each reply or
failure leaves it less to do; the goroutine that started the clients waits for nothing
that they do not come to on their own. -/

namespace Kvasir.Measure
open Runs Termination

/-- Steps to the end of a client that is not waiting for a reply. -/
def Phase.due (ops : Nat) : Phase → Nat
  | .warming left => 2 * left + 2 * ops + 3
  | .parked => 2 * ops + 2
  | .measuring left => 2 * left + 1
  | .failed | .finished => 0

/-- One request under way is half of one made. -/
def Client.due (ops : Nat) (client : Client) : Nat := client.phase.due ops - if client.t0.isSome then 1 else 0

def Main.due : Main → Nat
  | .sleeping => 5
  | .slept => 4
  | .timing => 3
  | .waiting => 2
  | .waited => 1
  | .returned => 0

def State.due (n ops : Nat) (state : State) : Nat :=
  state.main.due + ((List.range n).map fun i => (state.client i).due ops).sum

/-- A client waits for the reply of a request that it still has to make. -/
def Client.Asking (client : Client) : Prop := client.t0 ≠ none → 0 < client.phase.left

/-- The clients are let go before they are waited for, and have ended once they no
longer are. -/
structure Orderly (n : Nat) (state : State) : Prop where
  asking : ∀ i, (state.client i).Asking
  released : state.main = .waiting → state.started = true
  ended : state.main = .waited ∨ state.main = .returned → ∀ i < n, (state.client i).phase.done = true

theorem Phase.done_finished {phase : Phase} (done : phase.done = true) (unfailed : phase ≠ .failed) : phase = .finished := by
  cases phase <;> simp_all [Phase.done]

section Act
variable {ops : Nat} {started : Bool} {before after : Client} {action : Action}

theorem act_asking (acted : act ops started before action = some after) (asking : before.Asking) : after.Asking := by
  unfold Client.Asking at *
  cases action with
  | reply now expected =>
    obtain ⟨t0, _, rfl⟩ := Option.map_eq_some_iff.mp acted
    simp
  | send now =>
    obtain ⟨guard, rfl⟩ := (allow_eq_some ..).mp acted
    exact fun _ => guard.2
  | replyFail =>
    obtain ⟨_, rfl⟩ := (allow_eq_some ..).mp acted
    simp
  | sendFail | park | go | finish =>
    obtain ⟨guard, rfl⟩ := (allow_eq_some ..).mp acted
    simp_all [Phase.left]

/-- Whatever a client does leaves it less to do. -/
theorem act_due (acted : act ops started before action = some after) (asking : before.Asking) : after.due ops < before.due ops := by
  unfold Client.Asking at asking
  unfold Client.due
  cases action with
  | reply now expected =>
    obtain ⟨t0, asked, rfl⟩ := Option.map_eq_some_iff.mp acted
    cases found : before.phase <;> cases expected <;> simp_all [Phase.left, Phase.next, Phase.due]
    all_goals omega
  | replyFail =>
    obtain ⟨asked, rfl⟩ := (allow_eq_some ..).mp acted
    have one : before.t0.isSome = true := Option.isSome_iff_ne_none.mpr asked
    cases found : before.phase <;> simp_all [Phase.left, Phase.due]
  | send _ | sendFail =>
    obtain ⟨⟨unasked, more⟩, rfl⟩ := (allow_eq_some ..).mp acted
    cases found : before.phase <;> simp_all [Phase.left, Phase.due]
  | park | finish =>
    obtain ⟨found, rfl⟩ := (allow_eq_some ..).mp acted
    simp_all [Phase.left, Phase.due]
  | go =>
    obtain ⟨⟨found, _⟩, rfl⟩ := (allow_eq_some ..).mp acted
    simp_all [Phase.left, Phase.due]

theorem act_done (asking : before.Asking) (done : before.phase.done = true) : act ops started before action = none := by
  unfold Client.Asking at asking
  have closed : before.t0 = none := by
    by_contra asked
    have more := asking asked
    cases found : before.phase <;> simp_all [Phase.left, Phase.done]
  cases found : before.phase <;> cases action <;> simp_all [act, allow, Phase.left, Phase.done]

/-- A client that has not ended has something to do, once it is let go. -/
theorem act_enabled (client : Client) (running : client.phase.done = false) :
    ∃ action, (act ops true client action).isSome = true := by
  cases asked : client.t0 with
  | some t0 => exact ⟨.reply 0 true, by simp [act, asked]⟩
  | none =>
    cases found : client.phase with
    | warming left =>
      by_cases spent : left = 0
      · exact ⟨.park, by simp [act, allow, found, spent]⟩
      · exact ⟨.send 0, by simp [act, allow, asked, found, Phase.left, Nat.pos_of_ne_zero spent]⟩
    | parked => exact ⟨.go, by simp [act, allow, found]⟩
    | measuring left =>
      by_cases spent : left = 0
      · exact ⟨.finish, by simp [act, allow, found, spent]⟩
      · exact ⟨.send 0, by simp [act, allow, asked, found, Phase.left, Nat.pos_of_ne_zero spent]⟩
    | failed | finished => simp [found, Phase.done] at running

end Act

section Step
variable {n ops warmup : Nat} {before after : State} {event : Event}

theorem orderly_initial : Orderly n (initial warmup) :=
  ⟨fun _ asked => absurd rfl asked, nofun, fun returned => by simp [initial] at returned⟩

theorem step_orderly (orderly : Orderly n before) (stepped : step n ops before event = some after) : Orderly n after := by
  have asking : ∀ i, (after.client i).Asking := by
    intro i
    rcases step_client stepped i with same | ⟨action, acted⟩
    · rw [same]
      exact orderly.asking i
    · exact act_asking acted (orderly.asking i)
  cases event with
  | client other action =>
    refine ⟨asking, ?_, ?_⟩
    · obtain ⟨client, _, rfl⟩ := step_act stepped
      exact orderly.released
    · intro returned i inside
      obtain ⟨client, acted, rfl⟩ := step_act stepped
      have done := orderly.ended returned
      by_cases same : i = other
      · subst same
        rw [act_done (orderly.asking i) (done i inside)] at acted
        cases acted
      · simpa only [Function.update_of_ne same] using done i inside
  | waitReturns =>
    obtain ⟨⟨_, done⟩, rfl⟩ := (allow_eq_some ..).mp stepped
    exact ⟨asking, nofun, fun _ => done⟩
  | readElapsed now =>
    obtain ⟨waited, rfl⟩ := (allow_eq_some ..).mp stepped
    exact ⟨asking, nofun, fun _ => orderly.ended (.inl waited)⟩
  | wake | readT0 _ | closeStart =>
    obtain ⟨_, rfl⟩ := (allow_eq_some ..).mp stepped
    exact ⟨asking, by simp, by simp⟩

theorem step_due (orderly : Orderly n before) (stepped : step n ops before event = some after) :
    after.due n ops < before.due n ops := by
  cases event with
  | client i action =>
    have inside : i < n := by
      by_contra outside
      simp [step, outside] at stepped
    obtain ⟨client, acted, rfl⟩ := step_act stepped
    have less := act_due acted (orderly.asking i)
    have sums : ((List.range n).map fun j => (Function.update before.client i client j).due ops).sum <
        ((List.range n).map fun j => (before.client j).due ops).sum := by
      refine List.sum_lt_sum _ _ ?_ ⟨i, List.mem_range.mpr inside, by simpa using less⟩
      intro j _
      by_cases same : j = i
      · subst same
        simpa using less.le
      · rw [Function.update_of_ne same]
    exact Nat.add_lt_add_left sums _
  | wake | readT0 _ | closeStart | readElapsed _ =>
    obtain ⟨found, rfl⟩ := (allow_eq_some ..).mp stepped
    simp [State.due, found, Main.due]
  | waitReturns =>
    obtain ⟨⟨found, _⟩, rfl⟩ := (allow_eq_some ..).mp stepped
    simp [State.due, found, Main.due]

theorem steps_fall : Falls (step n ops) (fun _ => true) (fun _ => 0) (Orderly n) (State.due n ops) where
  kept _ _ _ orderly stepped := step_orderly orderly stepped
  spent _ _ _ orderly stepped _ := step_due orderly stepped
  given _ _ _ _ _ other := nomatch other

theorem due_initial : (initial warmup).due n ops = n * (2 * warmup + 2 * ops + 3) + 5 := by
  simp [State.due, initial, Main.due, Client.due, Phase.due, List.map_const']
  omega

/-- Nothing is left to do exactly where the measurement has returned. -/
theorem rests_returned (orderly : Orderly n before) : Rests (step n ops) (fun _ => true) before ↔ before.main = .returned := by
  constructor
  · intro rests
    cases main : before.main with
    | sleeping => exact absurd main (rests.refused .wake rfl rfl)
    | slept => exact absurd main (rests.refused (.readT0 0) rfl rfl)
    | timing => exact absurd main (rests.refused .closeStart rfl rfl)
    | waited => exact absurd main (rests.refused (.readElapsed 0) rfl rfl)
    | returned => rfl
    | waiting =>
      refine absurd ⟨main, fun i inside => ?_⟩ (rests.refused .waitReturns rfl rfl)
      by_contra running
      obtain ⟨action, enabled⟩ := @act_enabled ops (before.client i) (Bool.eq_false_of_not_eq_true running)
      have refused := rests (.client i action) rfl
      simp only [step, inside, if_true, orderly.released main, Option.map_eq_none_iff] at refused
      rw [refused] at enabled
      cases enabled
  · intro returned event _
    cases event with
    | client i action =>
      by_cases inside : i < n
      · simp [step, inside, act_done (orderly.asking i) (orderly.ended (.inr returned) i inside)]
      · simp [step, inside]
    | wake | readT0 _ | closeStart | waitReturns | readElapsed _ => simp [step, allow, returned]

end Step

theorem run_orderly {n ops warmup : Nat} {events : List Event} {state : State}
    (ran : run (step n ops) (initial warmup) events = some state) : Orderly n state :=
  invariant (fun _ => Orderly n) orderly_initial (fun _ _ _ _ _ held stepped => step_orderly held stepped) ran

/-- Every run of a measurement is bounded by what its clients have to do. Where nothing
is left to do it has returned and all its clients have ended; and wherever it stands it
can be brought there. -/
theorem measure_returns {n ops warmup : Nat} {events : List Event} {state : State}
    (ran : run (step n ops) (initial warmup) events = some state) :
    events.length ≤ n * (2 * warmup + 2 * ops + 3) + 5 ∧
    ((∀ event, step n ops state event = none) ↔ state.main = .returned) ∧
    (state.main = .returned → ∀ i < n, (state.client i).phase.done = true) ∧
    ∃ later final, run (step n ops) state later = some final ∧ final.main = .returned := by
  have orderly := run_orderly ran
  refine ⟨?_, ?_, fun returned => orderly.ended (.inr returned), ?_⟩
  · have spent := steps_fall.exhausted orderly_initial ran
    rw [due_initial, List.filter_true] at spent
    omega
  · rw [← rests_returned orderly]
    exact ⟨fun refused event _ => refused event, fun rests event => rests event rfl⟩
  · obtain ⟨later, final, _, continued, rests⟩ := steps_fall.rests state orderly
    have whole := run_join ran continued
    exact ⟨later, final, continued, (rests_returned (run_orderly whole)).mp rests⟩

/-- Two clients. One fails in its warmup, and the other is asking when start is closed. -/
def oneFails : List Event := [.wake, .client 0 (.send 1), .client 1 .sendFail, .readT0 2, .closeStart]

theorem measure_returns_failed : ∃ ran : (run (step 2 1) (initial 1) oneFails).isSome, ∃ later final,
    run (step 2 1) ((run (step 2 1) (initial 1) oneFails).get ran) later = some final ∧ final.main = .returned := by
  have ran : (run (step 2 1) (initial 1) oneFails).isSome := by decide
  obtain ⟨_, _, _, returns⟩ := measure_returns (Option.some_get ran).symm
  exact ⟨ran, returns⟩

end Kvasir.Measure
