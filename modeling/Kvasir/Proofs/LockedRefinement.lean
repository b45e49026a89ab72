import Kvasir.LockedStore
import Kvasir.Lib.Histories

/-! The locked store refines the atomic one. A call takes effect at its release:
readers see the map no writer can change, and the one writer's change becomes
the next map when it lets go. -/

namespace Kvasir.LockedStore
open Runs Histories

/-- What a call has done so far, relative to the map as of the last release. -/
def Holds (state : State) (store : MemoryStore) (id : CallId) : Phase → Prop
  | .holding (.get _) => id ∈ state.readers
  | .looked (.get key) found => id ∈ state.readers ∧ found = store.get key
  | .holding _ => state.writer = some id ∧ state.data = store.data
  | .looked (.delete key) found => state.writer = some id ∧ state.data = store.data ∧ found = store.get key
  | .modified call result => state.writer = some id ∧ apply store call = (⟨state.data⟩, result)
  | .looked (.set _ _) _ => False
  | .absent | .waiting _ | .returned _ _ => id ∉ state.readers ∧ state.writer ≠ some id

/-- The map as of the last release, and everybody's part in the next. -/
structure Refines (state : State) (store : MemoryStore) : Prop where
  exclusive : state.writer ≠ none → state.readers = ∅
  settled : state.writer = none → state.data = store.data
  calls : ∀ id, Holds state store id (state.phase id)

theorem Refines.initial (store : MemoryStore) : Refines { data := store.data } store :=
  ⟨fun _ => rfl, fun _ => rfl, fun _ => ⟨by simp, by simp⟩⟩

section Inversion
variable {before after : State} {id : CallId}

theorem step_acquire (stepped : step before (.acquire id) = some after) :
    ∃ call, before.phase id = .waiting call ∧ before.writer = none ∧
      (call.reads = true ∧ after = { before.setPhase id (.holding call) with readers := insert id before.readers } ∨
        call.reads = false ∧ before.readers = ∅ ∧ after = { before.setPhase id (.holding call) with writer := some id }) := by
  simp only [step] at stepped
  split at stepped
  next call waiting =>
    refine ⟨call, waiting, ?_⟩
    split at stepped
    next reads =>
      obtain ⟨free, rfl⟩ := (allow_eq_some ..).mp stepped
      exact ⟨free, .inl ⟨reads, rfl⟩⟩
    next writes =>
      obtain ⟨⟨free, unread⟩, rfl⟩ := (allow_eq_some ..).mp stepped
      exact ⟨free, .inr ⟨by simpa using writes, unread, rfl⟩⟩
  next => cases stepped

theorem step_lookup (stepped : step before (.lookup id) = some after) :
    ∃ call key, (call = .get key ∨ call = .delete key) ∧ before.phase id = .holding call ∧
      after = before.setPhase id (.looked call (before.data.lookup key)) := by
  simp only [step] at stepped
  split at stepped
  next key holding => cases stepped; exact ⟨_, key, .inl rfl, holding, rfl⟩
  next key holding => cases stepped; exact ⟨_, key, .inr rfl, holding, rfl⟩
  next => cases stepped

theorem step_modify (stepped : step before (.modify id) = some after) :
    (∃ key value, before.phase id = .holding (.set key value) ∧
      after = { before.setPhase id (.modified (.set key value) .done) with data := before.data.insert key value }) ∨
    ∃ key found, before.phase id = .looked (.delete key) found ∧
      after = { before.setPhase id (.modified (.delete key) (.existed found.isSome)) with
        data := if found.isSome then before.data.erase key else before.data } := by
  simp only [step] at stepped
  split at stepped
  next key value holding => cases stepped; exact .inl ⟨key, value, holding, rfl⟩
  next key found looked => cases stepped; exact .inr ⟨key, found, looked, rfl⟩
  next => cases stepped

theorem step_release {call : Call} {result : Result} (stepped : step before (.release id call result) = some after) :
    (∃ key found, before.phase id = .looked call found ∧ call = .get key ∧ result = .found found ∧
      after = { before.setPhase id (.returned call result) with readers := before.readers.erase id }) ∨
    before.phase id = .modified call result ∧
      after = { before.setPhase id (.returned call result) with writer := none } := by
  simp only [step] at stepped
  split at stepped
  next key found looked =>
    obtain ⟨⟨rfl, rfl⟩, rfl⟩ := (allow_eq_some ..).mp stepped
    exact .inl ⟨key, found, looked, rfl, rfl, rfl⟩
  next called computed modified =>
    obtain ⟨⟨rfl, rfl⟩, rfl⟩ := (allow_eq_some ..).mp stepped
    exact .inr ⟨modified, rfl⟩
  next => cases stepped

end Inversion

section Frame
variable {before after : State} {store next : MemoryStore} {id : CallId} {phase : Phase}

/-- A call's part is untouched by what other calls do under their locks. -/
theorem Holds.frame (holds : Holds before store id phase) (readers : id ∈ after.readers ↔ id ∈ before.readers)
    (writer : after.writer = some id ↔ before.writer = some id) (data : before.writer = some id → after.data = before.data) :
    Holds after store id phase := by
  cases phase with
  | holding call | looked call _ => cases call <;> simp_all [Holds]
  | absent | waiting _ | returned _ _ | modified _ _ => simp_all [Holds]

theorem Holds.outside (holds : Holds before store id phase) (reads : id ∉ before.readers) (writes : before.writer ≠ some id)
    (readsAfter : id ∉ after.readers) (writesAfter : after.writer ≠ some id) : Holds after next id phase := by
  cases phase with
  | holding call | looked call _ => cases call <;> simp_all [Holds]
  | absent | waiting _ | returned _ _ | modified _ _ => simp_all [Holds]

end Frame

def Event.call? : Event → Option (Call × Result)
  | .release _ call result => some (call, result)
  | _ => none

section Step
variable {before after : State} {store : MemoryStore} {id : CallId}

private theorem Refines.acquire (refines : Refines before store) (stepped : step before (.acquire id) = some after) :
    Refines after store := by
  obtain ⟨exclusive, settled, calls⟩ := refines
  obtain ⟨call, waiting, free, ⟨reads, rfl⟩ | ⟨writes, unread, rfl⟩⟩ := step_acquire stepped
  · refine ⟨fun taken => (taken free).elim, settled, fun other => ?_⟩
    by_cases same : other = id
    · cases call <;> simp_all [Holds, Call.reads]
    · have held := calls other
      simp only [State.setPhase_phase, same, if_false]
      exact held.frame (by simp [same]) Iff.rfl fun _ => rfl
  · refine ⟨fun _ => unread, by simp, fun other => ?_⟩
    by_cases same : other = id
    · have data := settled free
      cases call <;> simp_all [Holds, Call.reads, State.setPhase]
    · have held := calls other
      simp only [State.setPhase_phase, same, if_false]
      exact held.frame Iff.rfl (by simp [free, Ne.symm same]) fun _ => rfl

private theorem Refines.lookup (refines : Refines before store) (stepped : step before (.lookup id) = some after) :
    Refines after store := by
  obtain ⟨exclusive, settled, calls⟩ := refines
  obtain ⟨call, key, kind, holding, rfl⟩ := step_lookup stepped
  refine ⟨exclusive, settled, fun other => ?_⟩
  have held := calls other
  by_cases same : other = id
  · subst same
    rw [holding] at held
    simp only [State.setPhase_phase, if_true]
    rcases kind with rfl | rfl
    · have free : before.writer = none := by
        by_contra taken
        simp [exclusive taken, Holds] at held
      exact ⟨held, by rw [settled free]; rfl⟩
    · exact ⟨held.1, held.2, by rw [held.2]; rfl⟩
  · simp only [State.setPhase_phase, same, if_false]
    exact held.frame Iff.rfl Iff.rfl fun _ => rfl

/-- What the writer makes of the map is what its call does to the store. -/
private theorem Refines.write (refines : Refines before store) {call : Call} {result : Result} {data : Finmap fun _ : Bytes => Bytes}
    (writer : before.writer = some id) (computed : apply store call = (⟨data⟩, result)) :
    Refines { before.setPhase id (.modified call result) with data } store := by
  refine ⟨refines.exclusive, fun free => by simp [State.setPhase, writer] at free, fun other => ?_⟩
  by_cases same : other = id
  · simp only [State.setPhase_phase, same, if_true]
    exact ⟨writer, computed⟩
  · simp only [State.setPhase_phase, same, if_false]
    exact (refines.calls other).frame Iff.rfl Iff.rfl fun taken => (same (Option.some.inj (taken.symm.trans writer))).elim

private theorem Refines.modify (refines : Refines before store) (stepped : step before (.modify id) = some after) :
    Refines after store := by
  have mine := refines.calls id
  rcases step_modify stepped with ⟨key, value, holding, rfl⟩ | ⟨key, found, looked, rfl⟩
  · rw [holding] at mine
    obtain ⟨writer, data⟩ := mine
    exact refines.write writer (by simp [apply, MemoryStore.set, data])
  · rw [looked] at mine
    obtain ⟨writer, data, rfl⟩ := mine
    refine refines.write writer ?_
    simp only [apply, MemoryStore.delete, MemoryStore.get, data]
    split <;> rfl

private theorem Refines.release (refines : Refines before store) {call : Call} {result : Result}
    (stepped : step before (.release id call result) = some after) :
    ∃ next, Histories.call apply store (call, result) = some next ∧ Refines after next := by
  obtain ⟨exclusive, settled, calls⟩ := refines
  have mine := calls id
  rcases step_release stepped with ⟨key, found, looked, rfl, rfl, rfl⟩ | ⟨modified, rfl⟩
  · rw [looked] at mine
    obtain ⟨reads, rfl⟩ := mine
    have free : before.writer = none := by
      by_contra taken
      simp [exclusive taken] at reads
    refine ⟨store, by simp [Histories.call, apply], fun taken => (taken free).elim, settled, fun other => ?_⟩
    by_cases same : other = id
    · simp [same, Holds, State.setPhase, free]
    · simp only [State.setPhase_phase, same, if_false]
      exact (calls other).frame (by simp [same]) Iff.rfl fun _ => rfl
  · rw [modified] at mine
    obtain ⟨writer, applied⟩ := mine
    have unread := exclusive (by simp [writer])
    refine ⟨⟨before.data⟩, by simp [Histories.call, applied], by simp, fun _ => rfl, fun other => ?_⟩
    by_cases same : other = id
    · simp [same, Holds, State.setPhase, unread]
    · simp only [State.setPhase_phase, same, if_false]
      exact (calls other).outside (by simp [unread]) (by simp [writer, Ne.symm same]) (by simp [State.setPhase, unread]) (by simp)

end Step

/-- Every step of the locked store is one whole call of the atomic one, or none. -/
theorem locked_simulates :
    Simulates step (Histories.call apply) Event.call? (fun _ => True) Refines := by
  intro before store event after _ refines stepped
  cases event with
  | start id call =>
    obtain ⟨absent, rfl⟩ := (allow_eq_some ..).mp stepped
    refine ⟨store, rfl, refines.exclusive, refines.settled, fun other => ?_⟩
    have held := refines.calls other
    by_cases same : other = id
    · rw [same, absent] at held
      rw [same, State.setPhase_phase, if_pos rfl]
      exact held
    · simp only [State.setPhase_phase, same, if_false]
      exact held.frame Iff.rfl Iff.rfl fun _ => rfl
  | acquire id => exact ⟨store, rfl, refines.acquire stepped⟩
  | lookup id => exact ⟨store, rfl, refines.lookup stepped⟩
  | modify id => exact ⟨store, rfl, refines.modify stepped⟩
  | release id call result =>
    obtain ⟨next, called, kept⟩ := refines.release stepped
    exact ⟨next, by simpa [Event.call?] using called, kept⟩

/-- What a call writes: the value it sets, or the removal of its key. -/
def callEffect : Call → Option (Bytes × Option Bytes)
  | .get _ => none
  | .set key value => some (key, some value)
  | .delete key => some (key, none)

theorem callEffect_put {operation : Call} {key value : Bytes} (effect : callEffect operation = some (key, some value)) :
    operation = .set key value := by
  cases operation <;> cases effect
  rfl

theorem apply_obeys : Obeys callEffect apply MemoryStore.get := by
  intro store call key
  cases call with
  | get _ => rfl
  | set written value =>
    simp only [apply, callEffect]
    split
    next same => rw [same, MemoryStore.set_get_same]
    next other => exact MemoryStore.set_get_other _ _ (Ne.symm other)
  | delete written =>
    simp only [apply, callEffect]
    split
    next same => rw [same, MemoryStore.delete_get_same]
    next other => exact MemoryStore.delete_get_other _ (Ne.symm other)

section Calls
variable {start : MemoryStore} {events : List Event} {state : State}

theorem released_run (ran : run step { data := start.data } events = some state) :
    ∃ store, run (Histories.call apply) start ((released events).map Prod.snd) = some store ∧ Refines state store := by
  obtain ⟨store, called, refines⟩ := locked_simulates.run (fun _ _ => trivial) (Refines.initial start) ran
  have labels : events.filterMap Event.call? = (released events).map Prod.snd := by
    rw [released, List.map_filterMap]
    congr 1
    funext event
    cases event <;> rfl
  exact ⟨store, labels ▸ called, refines⟩

theorem released_append (past future : List Event) : released (past ++ future) = released past ++ released future :=
  List.filterMap_append

theorem released_member {id : CallId} {call : Call} {result : Result} :
    (id, call, result) ∈ released events ↔ .release id call result ∈ events := by
  simp only [released, List.mem_filterMap]
  constructor
  · rintro ⟨event, member, same⟩
    cases event <;> cases same
    exact member
  · exact fun member => ⟨_, member, rfl⟩

def Phase.call : Phase → Option Call
  | .absent => none
  | .waiting call | .holding call | .looked call _ | .modified call _ | .returned call _ => some call

theorem call_step {before after : State} {event : Event} (stepped : step before event = some after) (id : CallId) :
    (after.phase id).call = (before.phase id).call ∨
      ∃ call, event = .start id call ∧ before.phase id = .absent ∧ after.phase id = .waiting call := by
  cases event with
  | start other call =>
    obtain ⟨absent, rfl⟩ := (allow_eq_some ..).mp stepped
    by_cases same : id = other
    · exact .inr ⟨call, by rw [same], by rw [same, absent], by simp [same]⟩
    · exact .inl (by simp [same])
  | acquire other =>
    obtain ⟨call, waiting, _, ⟨_, rfl⟩ | ⟨_, _, rfl⟩⟩ := step_acquire stepped <;>
      by_cases same : id = other <;> simp [same, waiting, Phase.call]
  | lookup other =>
    obtain ⟨call, key, _, holding, rfl⟩ := step_lookup stepped
    by_cases same : id = other <;> simp [same, holding, Phase.call]
  | modify other =>
    rcases step_modify stepped with ⟨key, value, holding, rfl⟩ | ⟨key, found, looked, rfl⟩ <;>
      by_cases same : id = other <;> simp [*, Phase.call]
  | release other call result =>
    rcases step_release stepped with ⟨key, found, looked, rfl, rfl, rfl⟩ | ⟨modified, rfl⟩ <;>
      by_cases same : id = other <;> simp [*, Phase.call]

theorem start_iff (ran : run step { data := start.data } events = some state) (id : CallId) (call : Call) :
    .start id call ∈ events ↔ (state.phase id).call = some call := by
  refine invariant (fun past state => .start id call ∈ past ↔ (state.phase id).call = some call) (by simp [Phase.call]) ?_ ran
  intro past before next after _ ih stepped
  rw [List.mem_append, ih, List.mem_singleton]
  rcases call_step stepped id with same | ⟨other, rfl, absent, waiting⟩
  · by_cases fresh : Event.start id call = next
    · subst fresh
      obtain ⟨absent, rfl⟩ := (allow_eq_some ..).mp stepped
      simp [absent, Phase.call] at same
    · rw [same]
      simp [fresh]
  · simp [absent, waiting, Phase.call, eq_comm]

theorem returned_step {before after : State} {event : Event} (stepped : step before event = some after) (id : CallId)
    (call : Call) (result : Result) :
    after.phase id = .returned call result ↔ before.phase id = .returned call result ∨ event = .release id call result := by
  cases event with
  | start other _ =>
    obtain ⟨absent, rfl⟩ := (allow_eq_some ..).mp stepped
    by_cases same : id = other <;> simp [same, absent]
  | acquire other =>
    obtain ⟨_, waiting, _, ⟨_, rfl⟩ | ⟨_, _, rfl⟩⟩ := step_acquire stepped <;>
      by_cases same : id = other <;> simp [same, waiting]
  | lookup other =>
    obtain ⟨_, _, _, holding, rfl⟩ := step_lookup stepped
    by_cases same : id = other <;> simp [same, holding]
  | modify other =>
    rcases step_modify stepped with ⟨_, _, holding, rfl⟩ | ⟨_, _, looked, rfl⟩ <;>
      by_cases same : id = other <;> simp [*]
  | release other _ _ =>
    rcases step_release stepped with ⟨_, _, looked, rfl, rfl, rfl⟩ | ⟨modified, rfl⟩ <;>
      by_cases same : id = other <;> simp [*, Ne.symm]

theorem release_iff (ran : run step { data := start.data } events = some state) (id : CallId) (call : Call) (result : Result) :
    .release id call result ∈ events ↔ state.phase id = .returned call result := by
  refine invariant (fun past state => .release id call result ∈ past ↔ state.phase id = .returned call result) (by simp) ?_ ran
  intro past before next after _ ih stepped
  rw [List.mem_append, ih, List.mem_singleton, returned_step stepped]
  exact or_congr Iff.rfl eq_comm

theorem released_nodup (ran : run step { data := start.data } events = some state) :
    ((released events).map Prod.fst).Nodup := by
  refine invariant (fun past _ => ((released past).map Prod.fst).Nodup) List.nodup_nil ?_ ran
  intro past before next after earlier ih stepped
  rw [released_append, List.map_append]
  cases next with
  | release id call result =>
    refine List.nodup_append.mpr ⟨ih, List.nodup_singleton _, ?_⟩
    rintro other member _ last rfl
    obtain rfl : other = id := List.mem_singleton.mp last
    obtain ⟨⟨_, first, value⟩, taken, rfl⟩ := List.mem_map.mp member
    have returned := (release_iff earlier _ _ _).mp (released_member.mp taken)
    rcases step_release stepped with ⟨_, _, looked, _⟩ | ⟨modified, _⟩
    · cases returned.symm.trans looked
    · cases returned.symm.trans modified
  | start _ _ | acquire _ | lookup _ | modify _ => simpa [released] using ih

def Started (past : List Event) (id : CallId) : Prop := ∃ call, .start id call ∈ past

def Returned (past : List Event) (id : CallId) : Prop := ∃ call result, .release id call result ∈ past

theorem released_started (ran : run step { data := start.data } events = some state) {id : CallId} {call : Call}
    {result : Result} (member : .release id call result ∈ events) : .start id call ∈ events := by
  rw [start_iff ran, (release_iff ran id call result).mp member]
  rfl

def order (events : List Event) : List CallId := (released events).map Prod.fst

theorem released_real_time (ran : run step { data := start.data } events = some state) :
    (order events).Pairwise fun first last => ¬ Precedes Started Returned events last first := by
  refine order_respects_time ?_ ?_ ?_ (released_nodup ran)
  · rintro past future rfl
    simp only [order, released_append, List.map_append]
    exact List.prefix_append _ _
  · rintro past future rfl id member
    obtain ⟨middle, arrived, _⟩ := run_split ran
    obtain ⟨⟨_, call, result⟩, taken, rfl⟩ := List.mem_map.mp member
    exact ⟨call, released_started arrived (released_member.mp taken)⟩
  · rintro past future rfl id ⟨call, result, member⟩
    exact List.mem_map.mpr ⟨_, released_member.mpr member, rfl⟩

/-- Between two Deletes that both found the key somebody set it. -/
theorem deletes_apart {store final : MemoryStore} {past middle future : List (Call × Result)} {key : Bytes}
    (called : run (Histories.call apply) store
      (past ++ (.delete key, .existed true) :: (middle ++ (.delete key, .existed true) :: future)) = some final) :
    ∃ value, ∃ result, (.set key value, result) ∈ middle := by
  obtain ⟨before, removed, _, first, rest⟩ := run_at called
  obtain ⟨again, _, between, last, _⟩ := run_at rest
  obtain ⟨_, rfl⟩ := (allow_eq_some ..).mp first
  obtain ⟨existed, _⟩ := (allow_eq_some ..).mp last
  by_contra unset
  push Not at unset
  have quiet : ∀ operation ∈ middle.map Prod.fst, ∀ value, callEffect operation ≠ some (key, some value) := by
    intro operation member value effect
    obtain ⟨⟨_, result⟩, inside, same⟩ := List.mem_map.mp member
    have put : _ = Call.set key value := same.trans (callEffect_put effect)
    exact unset value result (put ▸ inside)
  have gone : (apply before (.delete key)).1.get key = none := MemoryStore.delete_get_same before key
  have missing := apply_obeys.absent gone quiet
  have performed := (run_call_iff apply _ _ _).mp between
  dsimp only at performed
  rw [performed] at missing
  simp [apply, missing] at existed

/-- The released calls, run one at a time in this order. -/
structure Atomic (start : MemoryStore) (events : List Event) (state : State) (order : List (CallId × Call × Result)) :
    Prop where
  exactly : ∀ id call result, (id, call, result) ∈ order ↔ .release id call result ∈ events
  started : ∀ id call result, (id, call, result) ∈ order → .start id call ∈ events
  once : (order.map Prod.fst).Nodup
  realTime : (order.map Prod.fst).Pairwise fun first last => ¬ Precedes Started Returned events last first
  sequential : perform apply start (order.map fun call => call.2.1) = (⟨state.data⟩, order.map fun call => call.2.2)
  deletes : ∀ past first key middle last future,
    order = past ++ (first, .delete key, .existed true) :: (middle ++ (last, .delete key, .existed true) :: future) →
    ∃ id value result, (id, .set key value, result) ∈ middle
  sets : ∀ key value, LastPut callEffect (order.map fun call => call.2.1) key value → state.data.lookup key = some value

/-- Where no writer holds the lock, the calls that have let go of it were atomic,
in an order that respects real time. -/
theorem locked_refines_atomic (ran : run step { data := start.data } events = some state) (unlocked : state.writer = none) :
    ∃ order, Atomic start events state order := by
  obtain ⟨store, called, refines⟩ := released_run ran
  have performed := (run_call_iff apply start store _).mp called
  rw [List.map_map, List.map_map] at performed
  have same : (⟨state.data⟩ : MemoryStore) = store := by rw [refines.settled unlocked]
  have sequential : perform apply start ((released events).map fun call => call.2.1) =
      (⟨state.data⟩, (released events).map fun call => call.2.2) := same ▸ performed
  refine ⟨released events, fun _ _ _ => released_member, fun _ _ _ member => ?_, released_nodup ran, released_real_time ran,
    sequential, ?_, fun key value put => ?_⟩
  · exact released_started ran (released_member.mp member)
  · intro past first key middle last future whole
    rw [whole] at called
    simp only [List.map_append, List.map_cons] at called
    obtain ⟨value, result, member⟩ := deletes_apart called
    obtain ⟨⟨id, _⟩, inside, rfl⟩ := List.mem_map.mp member
    exact ⟨id, value, result, inside⟩
  · have found := apply_obeys.put start put
    rwa [sequential] at found

/-- A Get overlaps a Set, and two Deletes race for what was set. -/
def racingDeletes : List Event := [.start 0 (.set (text "a") (text "x")), .start 1 (.delete (text "a")), .acquire 0,
  .start 2 (.delete (text "a")), .modify 0, .start 3 (.get (text "a")), .release 0 (.set (text "a") (text "x")) .done,
  .acquire 3, .lookup 3, .release 3 (.get (text "a")) (.found (some (text "x"))), .acquire 2, .lookup 2, .modify 2,
  .release 2 (.delete (text "a")) (.existed true), .acquire 1, .lookup 1, .modify 1,
  .release 1 (.delete (text "a")) (.existed false)]

theorem locked_refines_atomic_deletes : ∃ ran : (run step { data := MemoryStore.new.data } racingDeletes).isSome,
    ∃ order, Atomic .new racingDeletes (Option.get _ ran) order :=
  ⟨by decide, locked_refines_atomic (Option.some_get _).symm (by decide)⟩

end Calls

end Kvasir.LockedStore
