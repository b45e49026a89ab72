import Kvasir.Proofs.BenchReturns
import Mathlib.Algebra.Order.Ring.Int

/-! What a measurement adds up to. A client makes one request at a time, so the
latencies of one client are lengths of disjoint pieces of the timed interval, as long
as the clock does not go back. -/

namespace Kvasir.Measure
open Runs Bench

/-- The time a step of a client happens at, where that is told. -/
def Action.reading : Action → Option Int
  | .send now | .reply now _ => some now
  | _ => none

def Event.reading : Event → Option Int
  | .readT0 now | .readElapsed now => some now
  | .client _ action => action.reading
  | _ => none

def readings (events : List Event) : List Int := events.filterMap Event.reading

def Phase.measured : Phase → Bool
  | .measuring _ | .finished => true
  | _ => false

/-- The account of a client whose measured phase has begun: no request is missing, and
its latencies fit between the start and any later time, or between the start and its
open request. -/
structure Tallied (ops : Nat) (started : Bool) (start : Int) (past : List Int) (client : Client) : Prop where
  begun : client.phase.measured = true → started = true
  count : client.phase.measured = true → client.lat.length + client.phase.left = ops
  positive : client.phase.measured = true → ∀ latency ∈ client.lat, 0 ≤ latency
  spent : client.phase.measured = true → ∀ now, (∀ earlier ∈ past, earlier ≤ now) → client.lat.sum ≤ now - start
  asked : ∀ t0, client.t0 = some t0 → t0 ∈ past ∧ (client.phase.measured = true → client.lat.sum ≤ t0 - start)

section Act
variable {ops : Nat} {started : Bool} {start : Int} {past : List Int} {before after : Client} {action : Action}

theorem Tallied.later (tallied : Tallied ops started start past before) (more : List Int) :
    Tallied ops started start (past ++ more) before where
  begun := tallied.begun
  count := tallied.count
  positive := tallied.positive
  spent measured now bound := tallied.spent measured now fun earlier member => bound earlier (List.mem_append_left _ member)
  asked t0 found := ⟨List.mem_append_left _ (tallied.asked t0 found).1, (tallied.asked t0 found).2⟩

/-- Outside the measured phase there is nothing to account for but the open request. -/
theorem tallied_unmeasured {client : Client} (unmeasured : client.phase.measured = false)
    (asked : ∀ t0, client.t0 = some t0 → t0 ∈ past) : Tallied ops started start past client where
  begun measured := by simp [unmeasured] at measured
  count measured := by simp [unmeasured] at measured
  positive measured := by simp [unmeasured] at measured
  spent measured := by simp [unmeasured] at measured
  asked t0 found := ⟨asked t0 found, fun measured => by simp [unmeasured] at measured⟩

/-- Until start is closed no client measures, so the timer may still be set. -/
theorem Tallied.restart (tallied : Tallied ops false start past before) (first : Int) : Tallied ops started first past before := by
  refine tallied_unmeasured ?_ fun t0 found => (tallied.asked t0 found).1
  by_contra measured
  cases tallied.begun (Bool.eq_true_of_not_eq_false measured)

theorem act_tallied (acted : act ops started before action = some after) (tallied : Tallied ops started start past before)
    (asking : before.Asking) (opened : started = true → start ∈ past)
    (forward : ∀ now, action.reading = some now → ∀ earlier ∈ past, earlier ≤ now) :
    Tallied ops started start (past ++ action.reading.toList) after := by
  cases action with
  | send now =>
    obtain ⟨_, rfl⟩ := (allow_eq_some ..).mp acted
    have held := tallied.later [now]
    refine ⟨held.begun, held.count, held.positive, held.spent, ?_⟩
    rintro _ ⟨⟩
    refine ⟨by simp [Action.reading], fun measured => ?_⟩
    exact tallied.spent measured now (forward now rfl)
  | reply now expected =>
    obtain ⟨t0, found, rfl⟩ := Option.map_eq_some_iff.mp acted
    obtain ⟨earlier, fits⟩ := tallied.asked t0 found
    have more := asking (by simp [found])
    have elapsed := forward now rfl t0 earlier
    cases expected with
    | false => exact tallied_unmeasured rfl (by simp)
    | true =>
      cases phase : before.phase with
      | parked | failed | finished => simp [phase, Phase.left] at more
      | warming left => exact tallied_unmeasured (by simp [Phase.next, Phase.measured]) (by simp)
      | measuring left =>
        have measured : before.phase.measured = true := by rw [phase]; rfl
        have count := tallied.count measured
        have fits := fits measured
        rw [phase] at count more
        refine ⟨fun _ => tallied.begun measured, fun _ => ?_, fun _ => ?_, fun _ last bound => ?_, by simp⟩
        · simp only [Phase.left, Phase.next, Phase.record, if_true, List.length_append, List.length_singleton] at count more ⊢
          omega
        · simp only [Phase.record, if_true, List.forall_mem_append, List.forall_mem_singleton]
          exact ⟨tallied.positive measured, by omega⟩
        · have reached : now ≤ last := bound now (by simp [Action.reading])
          simp only [Phase.record, if_true, List.sum_append, List.sum_singleton]
          omega
  | go =>
    obtain ⟨⟨parked, begun⟩, rfl⟩ := (allow_eq_some ..).mp acted
    have unasked : before.t0 = none := by
      by_contra asked
      simpa [parked, Phase.left] using asking asked
    refine ⟨fun _ => begun, fun _ => by simp [Phase.left], by simp, fun _ now bound => ?_, by simp [unasked]⟩
    have reached := bound start (List.mem_append_left _ (opened begun))
    simpa using reached
  | finish =>
    obtain ⟨phase, rfl⟩ := (allow_eq_some ..).mp acted
    have measured : before.phase.measured = true := by rw [phase]; rfl
    have count := tallied.count measured
    have held := tallied.later []
    rw [phase] at count
    exact ⟨fun _ => held.begun measured, fun _ => count, fun _ => held.positive measured, fun _ => held.spent measured,
      fun t0 found => ⟨(held.asked t0 found).1, fun _ => (held.asked t0 found).2 measured⟩⟩
  | park | sendFail =>
    obtain ⟨_, rfl⟩ := (allow_eq_some ..).mp acted
    exact tallied_unmeasured rfl fun t0 found => ((tallied.later []).asked t0 found).1
  | replyFail =>
    obtain ⟨_, rfl⟩ := (allow_eq_some ..).mp acted
    exact tallied_unmeasured rfl (by simp)

end Act

section Run
variable {n ops warmup : Nat} {events past : List Event} {before after state : State} {event : Event}

@[simp] theorem readings_snoc : readings (past ++ [event]) = readings past ++ event.reading.toList := by
  cases found : event.reading <;> simp [readings, found]

/-- The clock is read before start is closed, and no client measures before that. -/
structure Accounted (ops : Nat) (past : List Event) (state : State) : Prop where
  clients : ∀ i, Tallied ops state.started state.t0 (readings past) (state.client i)
  unstarted : state.main = .sleeping ∨ state.main = .slept ∨ state.main = .timing → state.started = false
  opened : state.main = .sleeping ∨ state.main = .slept ∨ state.t0 ∈ readings past

theorem Accounted.begun (accounted : Accounted ops past state) (started : state.started = true) : state.t0 ∈ readings past := by
  rcases accounted.opened with asleep | slept | opened
  · simp [accounted.unstarted (.inl asleep)] at started
  · simp [accounted.unstarted (.inr (.inl slept))] at started
  · exact opened

theorem accounted_initial : Accounted ops [] (initial warmup) :=
  ⟨fun _ => tallied_unmeasured rfl (by simp [initial]), fun _ => rfl, .inl rfl⟩

theorem step_accounted (accounted : Accounted ops past before) (orderly : Orderly n before)
    (stepped : step n ops before event = some after)
    (forward : ∀ now, event.reading = some now → ∀ earlier ∈ readings past, earlier ≤ now) : Accounted ops (past ++ [event]) after := by
  have begun := accounted.begun
  obtain ⟨clients, unstarted, opened⟩ := accounted
  have kept : before.t0 ∈ readings past → before.t0 ∈ readings (past ++ [event]) := fun earlier => by
    rw [readings_snoc]
    exact List.mem_append_left _ earlier
  cases event with
  | client i action =>
    obtain ⟨client, acted, rfl⟩ := step_act stepped
    refine ⟨fun j => ?_, unstarted, opened.imp_right (Or.imp_right kept)⟩
    rw [readings_snoc]
    by_cases same : j = i
    · subst same
      have held := act_tallied acted (clients j) (orderly.asking j) begun forward
      simpa only [Function.update_self, Event.reading] using held
    · simpa only [Function.update_of_ne same] using (clients j).later _
  | readT0 now =>
    obtain ⟨slept, rfl⟩ := (allow_eq_some ..).mp stepped
    have idle : before.started = false := unstarted (.inr (.inl slept))
    refine ⟨fun j => ?_, fun _ => idle, by simp [Event.reading]⟩
    rw [readings_snoc]
    exact ((idle ▸ clients j).restart now).later _
  | closeStart =>
    obtain ⟨timing, rfl⟩ := (allow_eq_some ..).mp stepped
    have idle : before.started = false := unstarted (.inr (.inr timing))
    refine ⟨fun j => ?_, by simp, .inr (.inr (kept (by simpa [timing] using opened)))⟩
    rw [readings_snoc]
    exact ((idle ▸ clients j).restart before.t0).later _
  | wake | waitReturns | readElapsed _ =>
    obtain ⟨found, rfl⟩ := (allow_eq_some ..).mp stepped
    refine ⟨fun j => ?_, by simp_all, by simp_all⟩
    rw [readings_snoc]
    exact (clients j).later _

theorem run_accounted (ran : run (step n ops) (initial warmup) events = some state)
    (forward : (readings events).Pairwise (· ≤ ·)) : Accounted ops events state := by
  revert forward
  refine invariant (fun past state => (readings past).Pairwise (· ≤ ·) → Accounted ops past state)
    (fun _ => accounted_initial) ?_ ran
  intro past before event after ran ih stepped forward
  rw [readings_snoc, List.pairwise_append] at forward
  obtain ⟨sorted, -, late⟩ := forward
  exact step_accounted (ih sorted) (run_orderly ran) stepped fun now found earlier member => late earlier member now (by simp [found])

/-- A run that has returned ends with the second reading of the clock. -/
theorem run_returned (ran : run (step n ops) (initial warmup) events = some state) (returned : state.main = .returned) :
    ∃ past now before, events = past ++ [.readElapsed now] ∧ run (step n ops) (initial warmup) past = some before ∧
      before.main = .waited ∧ state = { before with main := .returned, elapsed := now - before.t0 } := by
  rcases List.eq_nil_or_concat events with rfl | ⟨past, event, rfl⟩
  · cases ran
    cases returned
  · rw [List.concat_eq_append] at ran ⊢
    obtain ⟨before, first, stepped⟩ := run_concat ran
    have running : before.main ≠ .returned := by
      intro ended
      rw [(rests_returned (run_orderly first)).mpr ended event rfl] at stepped
      cases stepped
    cases event with
    | readElapsed now =>
      obtain ⟨waited, rfl⟩ := (allow_eq_some ..).mp stepped
      exact ⟨past, now, before, rfl, first, waited, rfl⟩
    | client i action =>
      obtain ⟨client, _, rfl⟩ := step_act stepped
      exact absurd returned running
    | wake | readT0 _ | closeStart | waitReturns =>
      obtain ⟨_, rfl⟩ := (allow_eq_some ..).mp stepped
      cases returned

end Run

/-- Rows of one length, of nonnegative numbers that add up to no more than one bound. -/
private theorem flatten_bounds {rows : List (List Int)} {count : Nat} {bound : Int} (lengths : ∀ row ∈ rows, row.length = count)
    (positive : ∀ row ∈ rows, ∀ latency ∈ row, 0 ≤ latency) (sums : ∀ row ∈ rows, row.sum ≤ bound) :
    rows.flatten.length = rows.length * count ∧ (∀ latency ∈ rows.flatten, 0 ≤ latency ∧ latency ≤ bound) ∧
      rows.flatten.sum ≤ rows.length * bound := by
  refine ⟨?_, ?_, ?_⟩
  · rw [List.length_flatten, List.sum_eq_card_nsmul _ count (by simpa using lengths), List.length_map, nsmul_eq_mul, Nat.cast_id]
  · intro latency member
    obtain ⟨row, inside, found⟩ := List.mem_flatten.mp member
    exact ⟨positive row inside latency found, (List.single_le_sum (positive row inside) latency found).trans (sums row inside)⟩
  · rw [List.sum_flatten]
    have total := List.sum_le_card_nsmul (rows.map List.sum) bound (by simpa using sums)
    rwa [List.length_map, nsmul_eq_mul] at total

/-- A measurement that returns its figures has timed every request it was asked for,
and where the clock does not go back they add up: every latency lies within the timed
interval, and all of them together are no more than that interval once for each client. -/
theorem measure_accounts {n ops warmup : Nat} {events : List Event} {state : State} {r : Result}
    (ran : run (step n ops) (initial warmup) events = some state) (forward : (readings events).Pairwise (· ≤ ·))
    (returned : state.main = .returned) (result : state.result n = some r) :
    r.ops = n * ops ∧ r.lat.length = n * ops ∧ 0 ≤ r.dur ∧ (∀ latency ∈ r.lat, 0 ≤ latency ∧ latency ≤ r.dur) ∧
      r.lat.sum ≤ n * r.dur := by
  obtain ⟨past, now, before, rfl, first, waited, rfl⟩ := run_returned ran returned
  rw [readings_snoc, List.pairwise_append] at forward
  obtain ⟨sorted, -, late⟩ := forward
  have last : ∀ earlier ∈ readings past, earlier ≤ now := fun earlier member => late earlier member now (by simp [Event.reading])
  have accounted := run_accounted first sorted
  have opened : before.t0 ∈ readings past := by simpa [waited] using accounted.opened
  unfold State.result at result
  split at result
  · cases result
  · next unfailed =>
    obtain rfl := Option.some.inj result
    have finished : ∀ i < n, (before.client i).phase = .finished := fun i inside =>
      Phase.done_finished ((run_orderly first).ended (.inl waited) i inside) fun failed => unfailed ⟨i, inside, failed⟩
    have measured : ∀ i < n, (before.client i).phase.measured = true := fun i inside => by rw [finished i inside]; rfl
    obtain ⟨count, within, total⟩ := @flatten_bounds ((List.range n).map fun i => (before.client i).lat) ops (now - before.t0)
      (by
        simp only [List.forall_mem_map, List.mem_range]
        intro i inside
        simpa [finished i inside, Phase.left] using (accounted.clients i).count (measured i inside))
      (by
        simp only [List.forall_mem_map, List.mem_range]
        exact fun i inside => (accounted.clients i).positive (measured i inside))
      (by
        simp only [List.forall_mem_map, List.mem_range]
        exact fun i inside => (accounted.clients i).spent (measured i inside) now last)
    rw [List.length_map, List.length_range] at count total
    have same := List.perm_insertionSort (· ≤ ·) ((List.range n).map fun i => (before.client i).lat).flatten
    refine ⟨count, same.length_eq.trans count, Int.sub_nonneg_of_le (last _ opened), fun latency member => ?_, ?_⟩
    · exact within latency (same.mem_iff.mp member)
    · rw [Result.of, same.sum_eq]
      exact total

/-- Two clients of one request each, which overlap. -/
def overlapping : List Event := [.wake, .client 0 .park, .client 1 .park, .readT0 5, .closeStart, .client 0 .go, .client 0 (.send 5),
  .client 1 .go, .client 1 (.send 6), .client 0 (.reply 8 true), .client 1 (.reply 9 true), .client 0 .finish, .client 1 .finish,
  .waitReturns, .readElapsed 9]

theorem measure_accounts_overlapping : ∃ ran : (run (step 2 1) (initial 0) overlapping).isSome, ∃ r,
    ((run (step 2 1) (initial 0) overlapping).get ran).result 2 = some r ∧ r.lat = [3, 3] ∧ r.dur = 4 ∧ r.lat.sum ≤ 2 * r.dur := by
  obtain ⟨ran, forward, returned, result⟩ : ∃ ran : (run (step 2 1) (initial 0) overlapping).isSome,
      (readings overlapping).Pairwise (· ≤ ·) ∧ ((run (step 2 1) (initial 0) overlapping).get ran).main = .returned ∧
      ((run (step 2 1) (initial 0) overlapping).get ran).result 2 = some { ops := 2, dur := 4, lat := [3, 3] } :=
    ⟨by decide, by decide, by decide, by decide⟩
  obtain ⟨_, _, _, _, total⟩ := measure_accounts (Option.some_get ran).symm forward returned result
  exact ⟨ran, _, result, rfl, rfl, total⟩

end Kvasir.Measure
