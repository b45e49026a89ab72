import Kvasir.Lib.Runs
import Mathlib.Algebra.Ring.Nat

/-! Machines that come to rest. Some events are a machine's own, the others its
environment's. A measure that every own step uses up, and that the environment adds
only so much to, bounds the own steps of every run; where a machine that is not at its
goal can always take one, every way to go on leads to the goal. -/

namespace Kvasir.Termination
open Runs

universe u v

variable {σ : Type u} {ε : Type v}

/-- No own step can be taken. -/
def Rests (step : σ → ε → Option σ) (own : ε → Bool) (state : σ) : Prop :=
  ∀ event, own event = true → step state event = none

theorem Rests.refused {step : σ → ε → Option σ} {own : ε → Bool} {state result : σ} (rests : Rests step own state) (event : ε)
    (mine : own event = true) {guard : Prop} [Decidable guard] (steps : step state event = allow guard result) : ¬ guard := by
  intro enabled
  have refused := rests event mine
  rw [steps, allow, if_pos enabled] at refused
  cases refused

/-- Own steps use the measure up, in the states that an invariant allows. What the
environment does adds no more to it than it gives. -/
structure Falls (step : σ → ε → Option σ) (own : ε → Bool) (gives : ε → Nat) (holds : σ → Prop) (rank : σ → Nat) : Prop where
  kept : ∀ before event after, holds before → step before event = some after → holds after
  spent : ∀ before event after, holds before → step before event = some after → own event = true → rank after < rank before
  given : ∀ before event after, holds before → step before event = some after → own event = false →
    rank after ≤ rank before + gives event

namespace Falls
variable {step : σ → ε → Option σ} {own : ε → Bool} {gives : ε → Nat} {holds : σ → Prop} {rank : σ → Nat}

/-- A run has no more own steps than there is rank to use up. -/
theorem bounded (falls : Falls step own gives holds rank) {start final : σ} {events : List ε} (held : holds start)
    (ran : run step start events = some final) : (events.filter own).length + rank final ≤ rank start + (events.map gives).sum := by
  have whole := invariant (fun past state => holds state ∧
    (past.filter own).length + rank state ≤ rank start + (past.map gives).sum) ⟨held, by simp⟩ ?_ ran
  · exact whole.2
  rintro past before event after - ⟨earlier, used⟩ stepped
  refine ⟨falls.kept before event after earlier stepped, ?_⟩
  simp only [List.filter_append, List.length_append, List.map_append, List.sum_append, List.map_singleton, List.sum_singleton]
  cases mine : own event with
  | true =>
    have drop := falls.spent before event after earlier stepped mine
    simp only [List.filter_cons, mine, if_true, List.filter_nil, List.length_singleton]
    omega
  | false =>
    have added := falls.given before event after earlier stepped mine
    simp only [List.filter_cons, mine, Bool.false_eq_true, if_false, List.filter_nil, List.length_nil]
    omega

/-- Where the environment gives nothing, the rank at the start is the bound. -/
theorem exhausted (falls : Falls step own (fun _ => 0) holds rank) {start final : σ} {events : List ε} (held : holds start)
    (ran : run step start events = some final) : (events.filter own).length + rank final ≤ rank start := by
  have spent := falls.bounded held ran
  have nothing : (events.map fun _ => 0).sum = 0 := by rw [List.map_const', List.sum_replicate_nat, Nat.mul_zero]
  rwa [nothing, Nat.add_zero] at spent

/-- Own steps alone bring the machine to rest. -/
theorem rests (falls : Falls step own gives holds rank) (start : σ) (held : holds start) :
    ∃ events final, (∀ event ∈ events, own event = true) ∧ run step start events = some final ∧ Rests step own final := by
  by_cases resting : Rests step own start
  · exact ⟨[], start, by simp, rfl, resting⟩
  · obtain ⟨event, mine, next, stepped⟩ : ∃ event, own event = true ∧ ∃ next, step start event = some next := by
      simpa only [Rests, not_forall, exists_prop, ← ne_eq, Option.ne_none_iff_exists'] using resting
    have drop := falls.spent start event next held stepped mine
    obtain ⟨events, final, all, ran, resting⟩ := rests falls next (falls.kept start event next held stepped)
    refine ⟨event :: events, final, ?_, ?_, resting⟩
    · exact List.forall_mem_cons.mpr ⟨mine, all⟩
    · rw [run_cons, stepped]
      exact ran
termination_by rank start

end Falls

end Kvasir.Termination
