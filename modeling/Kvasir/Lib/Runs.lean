import Mathlib.Data.List.Induction

/-! Machines whose steps are partial functions on an explicit state. A refused
step is `none`, so the runs of a machine are exactly the event lists that fold
without a refusal. Invariants may mention the whole past of a run. -/

namespace Kvasir.Runs

universe u v w x

variable {σ : Type u} {ε : Type v} {τ : Type w} {α : Type x}

def allow (guard : Prop) [Decidable guard] (result : σ) : Option σ :=
  if guard then some result else none

@[simp] theorem allow_eq_some (guard : Prop) [Decidable guard] (result final : σ) :
    allow guard result = some final ↔ guard ∧ result = final := by
  simp [allow]

def run (step : σ → ε → Option σ) (state : σ) (events : List ε) : Option σ :=
  events.foldlM step state

variable {step : σ → ε → Option σ}

@[simp] theorem run_nil (state : σ) : run step state [] = some state := rfl

theorem run_cons (state : σ) (event : ε) (events : List ε) :
    run step state (event :: events) = (step state event).bind fun next => run step next events := rfl

theorem run_append (state : σ) (first last : List ε) :
    run step state (first ++ last) = (run step state first).bind fun middle => run step middle last := by
  simp only [run, List.foldlM_append]
  rfl

@[simp] theorem run_singleton (state : σ) (event : ε) : run step state [event] = step state event := by
  rw [run_cons]
  cases step state event <;> rfl

theorem run_split {state final : σ} {first last : List ε}
    (ran : run step state (first ++ last) = some final) :
    ∃ middle, run step state first = some middle ∧ run step middle last = some final := by
  rw [run_append] at ran
  exact Option.bind_eq_some_iff.mp ran

theorem run_at {state final : σ} {past future : List ε} {event : ε}
    (ran : run step state (past ++ event :: future) = some final) :
    ∃ before after, run step state past = some before ∧ step before event = some after ∧
      run step after future = some final := by
  obtain ⟨before, first, rest⟩ := run_split ran
  rw [run_cons] at rest
  obtain ⟨after, stepped, last⟩ := Option.bind_eq_some_iff.mp rest
  exact ⟨before, after, first, stepped, last⟩

theorem run_join {state middle final : σ} {first last : List ε}
    (before : run step state first = some middle) (after : run step middle last = some final) :
    run step state (first ++ last) = some final := by
  rw [run_append, before]
  exact after

theorem run_snoc {state before after : σ} {events : List ε} {event : ε}
    (ran : run step state events = some before) (stepped : step before event = some after) :
    run step state (events ++ [event]) = some after :=
  run_join ran ((run_singleton before event).trans stepped)

theorem run_concat {state final : σ} {events : List ε} {event : ε}
    (ran : run step state (events ++ [event]) = some final) :
    ∃ before, run step state events = some before ∧ step before event = some final := by
  obtain ⟨before, first, last⟩ := run_split ran
  exact ⟨before, first, by simpa using last⟩

/-- What holds at the start and survives every step, given the run so far,
holds at the end of every run. -/
theorem invariant {start : σ} (holds : List ε → σ → Prop) (initial : holds [] start)
    (preserved : ∀ past before event after, run step start past = some before →
      holds past before → step before event = some after → holds (past ++ [event]) after)
    {events : List ε} {final : σ} (ran : run step start events = some final) : holds events final := by
  induction events using List.reverseRecOn generalizing final with
  | nil => cases ran; exact initial
  | append_singleton past event ih =>
    obtain ⟨before, earlier, last⟩ := run_concat ran
    exact preserved past before event final earlier (ih earlier) last

/-- What an event establishes, and every step keeps, holds ever after. -/
theorem since {mark : ε} (holds : σ → Prop) (established : ∀ before after, step before mark = some after → holds after)
    (kept : ∀ before event after, holds before → step before event = some after → holds after)
    {start final : σ} {events : List ε} (ran : run step start events = some final) (member : mark ∈ events) :
    holds final := by
  obtain ⟨past, future, rfl⟩ := List.append_of_mem member
  obtain ⟨before, middle, _, marked, rest⟩ := run_at ran
  exact invariant (fun _ => holds) (established before middle marked)
    (fun _ _ _ _ _ earlier stepped => kept _ _ _ earlier stepped) rest

/-- Every permitted step of the concrete machine is matched by at most one step
of the abstract machine, the one its label names. -/
def Simulates (step : σ → ε → Option σ) (abstract : τ → α → Option τ) (label : ε → Option α) (permitted : ε → Prop)
    (relation : σ → τ → Prop) : Prop :=
  ∀ before state event after, permitted event → relation before state → step before event = some after →
    ∃ next, run abstract state (label event).toList = some next ∧ relation after next

/-- Step matching lifts to runs: the labels of a concrete run are an abstract run. -/
theorem Simulates.run {abstract : τ → α → Option τ} {label : ε → Option α} {permitted : ε → Prop} {relation : σ → τ → Prop}
    (simulates : Simulates step abstract label permitted relation) {start final : σ} {state : τ} {events : List ε}
    (allowed : ∀ event ∈ events, permitted event) (related : relation start state)
    (ran : Runs.run step start events = some final) :
    ∃ last, Runs.run abstract state (events.filterMap label) = some last ∧ relation final last := by
  induction events generalizing start state with
  | nil => cases ran; exact ⟨state, rfl, related⟩
  | cons event events ih =>
    rw [run_cons] at ran
    obtain ⟨next, first, rest⟩ := Option.bind_eq_some_iff.mp ran
    obtain ⟨here, there⟩ := List.forall_mem_cons.mp allowed
    obtain ⟨middle, matched, kept⟩ := simulates start state event next here related first
    obtain ⟨last, finished, ends⟩ := ih there kept rest
    refine ⟨last, ?_, ends⟩
    have labels : (event :: events).filterMap label = (label event).toList ++ events.filterMap label := by
      cases named : label event <;> simp [named]
    rw [labels]
    exact run_join matched finished

end Kvasir.Runs
