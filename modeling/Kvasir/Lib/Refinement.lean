import Kvasir.Lib.Runs

/-! One machine seen through another. The concrete machine's steps show some of what
the abstract machine's steps show, and hide the rest; what a run shows is then shown
by a run of the abstract machine. -/

namespace Kvasir.Refinement
open Runs

universe u v w x y

variable {σ : Type u} {ε : Type v} {τ : Type w} {α : Type x} {β : Type y}

/-- Every step of the concrete machine is matched by abstract steps that show the same. -/
def Follows (step : σ → ε → Option σ) (abstract : τ → α → Option τ) (shows : ε → Option β) (seen : α → Option β)
    (relation : σ → τ → Prop) : Prop :=
  ∀ before state event after, relation before state → step before event = some after →
    ∃ matched next, run abstract state matched = some next ∧ relation after next ∧ matched.filterMap seen = (shows event).toList

/-- What a concrete run shows, an abstract run shows. -/
theorem Follows.run {step : σ → ε → Option σ} {abstract : τ → α → Option τ} {shows : ε → Option β} {seen : α → Option β}
    {relation : σ → τ → Prop} (follows : Follows step abstract shows seen relation) {start final : σ} {state : τ}
    {events : List ε} (related : relation start state) (ran : Runs.run step start events = some final) :
    ∃ matched last, Runs.run abstract state matched = some last ∧ relation final last ∧
      matched.filterMap seen = events.filterMap shows := by
  induction events generalizing start state with
  | nil => cases ran; exact ⟨[], state, rfl, related, rfl⟩
  | cons event events ih =>
    rw [run_cons] at ran
    obtain ⟨next, first, rest⟩ := Option.bind_eq_some_iff.mp ran
    obtain ⟨here, middle, matched, kept, same⟩ := follows start state event next related first
    obtain ⟨later, last, finished, ends, shown⟩ := ih kept rest
    refine ⟨here ++ later, last, run_join matched finished, ends, ?_⟩
    rw [List.filterMap_append, same, shown]
    cases seen : shows event <;> simp [seen]

end Kvasir.Refinement
