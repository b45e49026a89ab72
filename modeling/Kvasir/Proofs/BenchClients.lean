import Kvasir.Proofs.BenchReturns
import Kvasir.Proofs.KeyNames

/-! The clients of a measurement are made of the code that writes lines and checks
replies. What that code does on a connection is a sequence of steps of the client's
goroutine, and whether the measurement has figures to return is told by it alone. -/

namespace Kvasir.Measure
open Runs Bench Strings

/-- The steps of one call of `run`, with the readings of the clock, and then what comes
next unless it returned an error. -/
def requests (value : Bytes) (next : Nat → Bytes → (Nat → Int) → List Action) :
    List Draw → Nat → Bytes → (Nat → Int) → List Action
  | [], writes, inbound, now => next writes inbound now
  | draw :: draws, writes, inbound, now =>
    match requestLine value draw, writes with
    | none, _ => []
    | some _, 0 => [.sendFail]
    | some _, writes + 1 =>
      match Lines.cut newline inbound with
      | none => [.send (now 0), .replyFail]
      | some (reply, inbound) =>
        if unexpected (reply ++ [newline]) then [.send (now 0), .reply (now 1) false]
        else .send (now 0) :: .reply (now 1) true :: requests value next draws writes inbound fun k => now (k + 2)

/-- What a client does on its connection: the warmup, then what is measured. -/
structure Work where
  warm : List Draw
  measured : List Draw
  writes : Nat
  inbound : Bytes
  now : Nat → Int

def Work.goroutine (work : Work) (value : Bytes) : List Action :=
  requests value
    (fun writes inbound now => .park :: .go :: requests value (fun _ _ _ => [.finish]) work.measured writes inbound now)
    work.warm work.writes work.inbound work.now

/-- Both calls of `run` as one, on the same connection. -/
def Work.outcome (work : Work) (value : Bytes) : Outcome := Bench.run value (work.warm ++ work.measured) work.writes work.inbound

/-- A client draws below its number of keys, which an int holds. -/
def Work.Drawn (work : Work) : Prop := ∀ draw ∈ work.warm ++ work.measured, IsCount draw.key

section Requests
variable {value : Bytes} {next : Nat → Bytes → (Nat → Int) → List Action} {ops : Nat} {stage : Nat → Phase}

theorem requestLine_drawn {draw : Draw} (count : IsCount draw.key) : ∃ line, requestLine value draw = some line := by
  simp [requestLine, keyName, itoa_numeral count.fits]

private theorem act_request (kind : stage = .warming ∨ stage = .measuring) (left : Nat) (lat : List Int) (sent received : Int)
    (expected : Bool) : ∃ lat', run (act ops true) { phase := stage (left + 1), lat } [.send sent, .reply received expected] =
      some { phase := if expected then stage left else .failed, lat := lat' } := by
  rcases kind with rfl | rfl <;> cases expected <;> simp [run_cons, act, allow, Phase.left, Phase.next]

/-- A call of `run` makes all its requests and goes on, or ends the client. -/
theorem requests_split (kind : stage = .warming ∨ stage = .measuring) (draws : List Draw) (drawn : ∀ draw ∈ draws, IsCount draw.key)
    (writes : Nat) (inbound : Bytes) (now : Nat → Int) (lat : List Int) :
    (∃ front writes' inbound' now' lat', requests value next draws writes inbound now = front ++ next writes' inbound' now' ∧
      run (act ops true) { phase := stage draws.length, lat } front = some { phase := stage 0, lat := lat' } ∧
      ∀ more, (Bench.run value (draws ++ more) writes inbound).error = (Bench.run value more writes' inbound').error) ∨
    (∃ lat', run (act ops true) { phase := stage draws.length, lat } (requests value next draws writes inbound now) =
        some { phase := .failed, lat := lat' } ∧
      ∀ more, (Bench.run value (draws ++ more) writes inbound).error ≠ none) := by
  induction draws generalizing writes inbound now lat with
  | nil => exact .inl ⟨[], writes, inbound, now, lat, rfl, rfl, fun _ => rfl⟩
  | cons draw draws ih =>
    obtain ⟨here, there⟩ := List.forall_mem_cons.mp drawn
    obtain ⟨line, asked⟩ := @requestLine_drawn value draw here
    cases writes with
    | zero =>
      refine .inr ⟨lat, ?_, fun more => by simp [Bench.run, asked]⟩
      rcases kind with rfl | rfl <;> simp [requests, asked, run_cons, act, allow, Phase.left]
    | succ writes =>
      cases cut : Lines.cut newline inbound with
      | none =>
        refine .inr ⟨lat, ?_, fun more => by simp [Bench.run, asked, cut]⟩
        rcases kind with rfl | rfl <;> simp [requests, asked, cut, run_cons, act, allow, Phase.left]
      | some parts =>
        obtain ⟨reply, rest⟩ := parts
        cases odd : unexpected (reply ++ [newline]) with
        | true =>
          obtain ⟨lat', acted⟩ := @act_request ops stage kind draws.length lat (now 0) (now 1) false
          refine .inr ⟨lat', ?_, fun more => by simp [Bench.run, asked, cut, odd]⟩
          simpa [requests, asked, cut, odd] using acted
        | false =>
          obtain ⟨current, acted⟩ := @act_request ops stage kind draws.length lat (now 0) (now 1) true
          have same : ∀ more, (Bench.run value (draw :: draws ++ more) (writes + 1) inbound).error =
              (Bench.run value (draws ++ more) writes rest).error := fun more => by simp [Bench.run, asked, cut, odd, Outcome.after]
          have unfolded : requests value next (draw :: draws) (writes + 1) inbound now = [.send (now 0), .reply (now 1) true] ++
              requests value next draws writes rest fun k => now (k + 2) := by simp [requests, asked, cut, odd]
          rcases ih there writes rest (fun k => now (k + 2)) current with
            ⟨front, writes', inbound', now', lat', shape, ran, later⟩ | ⟨lat', ran, later⟩
          · refine .inl ⟨[.send (now 0), .reply (now 1) true] ++ front, writes', inbound', now', lat', ?_, run_join acted ran, ?_⟩
            · rw [unfolded, shape, List.append_assoc]
            · exact fun more => (same more).trans (later more)
          · refine .inr ⟨lat', ?_, fun more => ?_⟩
            · rw [unfolded]
              exact run_join acted ran
            · rw [same]
              exact later more

/-- A client that takes all its steps has finished or failed as its calls of `run` say. -/
theorem goroutine_run (work : Work) (drawn : work.Drawn) : ∃ client,
    run (act work.measured.length true) { phase := .warming work.warm.length } (work.goroutine value) = some client ∧
      client.phase = if (work.outcome value).error = none then .finished else .failed := by
  obtain ⟨warmDrawn, drawn⟩ := List.forall_mem_append.mp drawn
  unfold Work.goroutine Work.outcome
  rcases requests_split (.inl rfl) work.warm warmDrawn work.writes work.inbound work.now [] with
    ⟨front, writes, inbound, now, lat, shape, ran, later⟩ | ⟨lat, ran, later⟩
  · rw [shape, later]
    have gone : run (act work.measured.length true) { phase := .warming 0, lat } [.park, .go] =
        some { phase := .measuring work.measured.length } := by
      simp [run_cons, act, allow]
    rcases requests_split (.inr rfl) work.measured drawn writes inbound now [] with
      ⟨front, _, _, _, lat, shape, measured, continues⟩ | ⟨lat, measured, fails⟩
    · refine ⟨{ phase := .finished, lat }, ?_, ?_⟩
      · rw [shape]
        have ended : run (act work.measured.length true) { phase := .measuring 0, lat } [.finish] = some { phase := .finished, lat } := rfl
        have joined := run_join gone (run_join measured ended)
        exact run_join ran joined
      · have fine := continues []
        rw [List.append_nil] at fine
        rw [fine]
        rfl
    · refine ⟨{ phase := .failed, lat }, run_join ran (run_join gone measured), ?_⟩
      have failed := fails []
      rw [List.append_nil] at failed
      rw [if_neg failed]
  · exact ⟨{ phase := .failed, lat }, ran, by rw [if_neg (later _)]⟩

end Requests

/-- The steps of one client in a run. -/
def actionsOf (i : Nat) (events : List Event) : List Action :=
  events.filterMap fun
    | .client j action => if j = i then some action else none
    | _ => none

theorem actionsOf_snoc (i : Nat) (past : List Event) (event : Event) :
    actionsOf i (past ++ [event]) = actionsOf i past ++ actionsOf i [event] := List.filterMap_append

/-- Once start is closed a client can do all that it could before. -/
theorem act_started {ops : Nat} {started : Bool} {before after : Client} {action : Action}
    (acted : act ops started before action = some after) : act ops true before action = some after := by
  cases action with
  | go =>
    obtain ⟨⟨parked, _⟩, rfl⟩ := (allow_eq_some ..).mp acted
    simp [act, allow, parked]
  | _ => exact acted

section Run
variable {n ops warmup : Nat} {events : List Event} {state : State} {value : Bytes}

theorem client_run (ran : run (step n ops) (initial warmup) events = some state) (i : Nat) :
    run (act ops true) { phase := .warming warmup } (actionsOf i events) = some (state.client i) := by
  refine invariant (fun past state => run (act ops true) { phase := .warming warmup } (actionsOf i past) = some (state.client i))
    rfl ?_ ran
  intro past before event after _ ih stepped
  rw [actionsOf_snoc]
  cases event with
  | client j action =>
    obtain ⟨client, acted, rfl⟩ := step_act stepped
    by_cases same : j = i
    · subst same
      simpa [actionsOf] using run_snoc ih (act_started acted)
    · rw [show actionsOf i [.client j action] = [] by simp [actionsOf, same], List.append_nil, ih]
      simp [Function.update_of_ne (Ne.symm same)]
  | wake | readT0 _ | closeStart | waitReturns | readElapsed _ =>
    obtain ⟨_, rfl⟩ := (allow_eq_some ..).mp stepped
    rw [show actionsOf i [_] = [] from rfl, List.append_nil, ih]

/-- A client that has ended has taken all steps of its code. -/
theorem client_outcome (ran : run (step n ops) (initial warmup) events = some state) {i : Nat} {work : Work} (drawn : work.Drawn)
    (warm : work.warm.length = warmup) (measured : work.measured.length = ops)
    (follows : actionsOf i events <+: work.goroutine value) (done : (state.client i).phase.done = true) :
    (state.client i).phase = if (work.outcome value).error = none then .finished else .failed := by
  obtain ⟨client, whole, phase⟩ := @goroutine_run value work drawn
  rw [warm, measured] at whole
  obtain ⟨rest, split⟩ := follows
  rw [← split] at whole
  obtain ⟨middle, first, last⟩ := run_split whole
  obtain rfl : state.client i = middle := Option.some.inj ((client_run ran i).symm.trans first)
  cases rest with
  | nil =>
    cases last
    exact phase
  | cons action rest =>
    rw [run_cons, act_done ((run_orderly ran).asking i) done] at last
    cases last

/-- A measurement whose clients run the code of `run` has figures exactly where none of
them gets an error on its connection, in its warmup or later. -/
theorem measure_follows (ran : run (step n ops) (initial warmup) events = some state) (returned : state.main = .returned)
    {work : Nat → Work} (drawn : ∀ i < n, (work i).Drawn) (warm : ∀ i < n, (work i).warm.length = warmup)
    (measured : ∀ i < n, (work i).measured.length = ops) (follows : ∀ i < n, actionsOf i events <+: (work i).goroutine value) :
    ((∃ r, state.result n = some r) ↔ ∀ i < n, ((work i).outcome value).error = none) ∧
    ∀ i < n, (state.client i).phase = if ((work i).outcome value).error = none then .finished else .failed := by
  have phases : ∀ i < n, (state.client i).phase = if ((work i).outcome value).error = none then .finished else .failed :=
    fun i inside => client_outcome ran (drawn i inside) (warm i inside) (measured i inside) (follows i inside)
      ((run_orderly ran).ended (.inr returned) i inside)
  refine ⟨?_, phases⟩
  unfold State.result
  constructor
  · rintro ⟨r, result⟩ i inside
    by_contra failed
    rw [if_pos ⟨i, inside, by rw [phases i inside, if_neg failed]⟩] at result
    cases result
  · intro fine
    refine ⟨_, if_neg ?_⟩
    rintro ⟨i, inside, failed⟩
    rw [phases i inside, if_pos (fine i inside)] at failed
    cases failed

end Run

/-- One client of two requests. The reply to its second is an error. -/
def rejected : Work where
  warm := [⟨1, true⟩]
  measured := [⟨0, false⟩]
  writes := 2
  inbound := text "x\nERR unknown command \"SET\"\n"
  now k := k

def rejectedRun : List Event := [.client 0 (.send 0), .wake, .client 0 (.reply 1 true), .client 0 .park, .readT0 2, .closeStart,
  .client 0 .go, .client 0 (.send 2), .client 0 (.reply 3 false), .waitReturns, .readElapsed 4]

theorem measure_follows_rejected : ∃ ran : (run (step 1 1) (initial 1) rejectedRun).isSome,
    ¬ ∃ r, ((run (step 1 1) (initial 1) rejectedRun).get ran).result 1 = some r := by
  obtain ⟨ran, returned, failed, follows⟩ : ∃ ran : (run (step 1 1) (initial 1) rejectedRun).isSome,
      ((run (step 1 1) (initial 1) rejectedRun).get ran).main = .returned ∧ ((rejected.outcome (text "x")).error).isSome = true ∧
      actionsOf 0 rejectedRun <+: rejected.goroutine (text "x") := ⟨by decide, by decide, by decide, by decide⟩
  have only : ∀ {i}, i < 1 → i = 0 := fun inside => by omega
  obtain ⟨figures, _⟩ := @measure_follows 1 1 1 rejectedRun _ (text "x") (Option.some_get ran).symm returned (fun _ => rejected)
    (fun _ _ => by unfold Work.Drawn IsCount; decide) (fun _ _ => rfl) (fun _ _ => rfl) (fun i inside => by rw [only inside]; exact follows)
  refine ⟨ran, fun some => ?_⟩
  rw [figures.mp some 0 (by decide)] at failed
  cases failed

end Kvasir.Measure
