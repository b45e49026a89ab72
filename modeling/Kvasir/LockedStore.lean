import Kvasir.Lib.Runs
import Kvasir.Store
import Mathlib.Data.Finset.Basic

/-! The store's calls taken apart into their steps under one RWMutex: acquire,
look up, modify, release. The lock keeps a writer apart from every other holder
and admits any number of readers. -/

namespace Kvasir.LockedStore
open Runs

abbrev CallId := Nat

inductive Call where
  | get (key : Bytes)
  | set (key value : Bytes)
  | delete (key : Bytes)
  deriving DecidableEq, Repr

inductive Result where
  | found (value : Option Bytes)
  | done
  | existed (ok : Bool)
  deriving DecidableEq, Repr

def apply (store : MemoryStore) : Call → MemoryStore × Result
  | .get key => (store, .found (store.get key))
  | .set key value => (store.set key value, .done)
  | .delete key => ((store.delete key).1, .existed (store.delete key).2)

/-- Get takes the read lock, Set and Delete the write lock. -/
def Call.reads : Call → Bool
  | .get _ => true
  | _ => false

/-- Where a call is. A lookup's `v, ok` is the optional value. -/
inductive Phase where
  | absent
  | waiting (call : Call)
  | holding (call : Call)
  | looked (call : Call) (found : Option Bytes)
  | modified (call : Call) (result : Result)
  | returned (call : Call) (result : Result)
  deriving DecidableEq, Repr

structure State where
  data : Finmap fun _ : Bytes => Bytes := ∅
  writer : Option CallId := none
  readers : Finset CallId := ∅
  phase : CallId → Phase := fun _ => .absent

def State.setPhase (state : State) (id : CallId) (phase : Phase) : State :=
  { state with phase := Function.update state.phase id phase }

@[simp, grind =] theorem State.setPhase_phase (state : State) (id other : CallId) (phase : Phase) :
    (state.setPhase id phase).phase other = if other = id then phase else state.phase other := by
  simp [setPhase, Function.update_apply]

inductive Event where
  | start (id : CallId) (call : Call)
  | acquire (id : CallId)
  | lookup (id : CallId)
  | modify (id : CallId)
  | release (id : CallId) (call : Call) (result : Result)
  deriving DecidableEq, Repr

def step (state : State) : Event → Option State
  | .start id call => allow (state.phase id = .absent) (state.setPhase id (.waiting call))
  | .acquire id =>
    match state.phase id with
    | .waiting call =>
      if call.reads then
        allow (state.writer = none) { state.setPhase id (.holding call) with readers := insert id state.readers }
      else
        allow (state.writer = none ∧ state.readers = ∅) { state.setPhase id (.holding call) with writer := some id }
    | _ => none
  | .lookup id =>
    match state.phase id with
    | .holding (.get key) => some (state.setPhase id (.looked (.get key) (state.data.lookup key)))
    | .holding (.delete key) => some (state.setPhase id (.looked (.delete key) (state.data.lookup key)))
    | _ => none
  | .modify id =>
    match state.phase id with
    | .holding (.set key value) =>
      some { state.setPhase id (.modified (.set key value) .done) with data := state.data.insert key value }
    | .looked (.delete key) found =>
      some { state.setPhase id (.modified (.delete key) (.existed found.isSome)) with
        data := if found.isSome then state.data.erase key else state.data }
    | _ => none
  -- The deferred unlock; the results were computed under the lock.
  | .release id call result =>
    match state.phase id with
    | .looked (.get key) found =>
      allow (call = .get key ∧ result = .found found)
        { state.setPhase id (.returned call result) with readers := state.readers.erase id }
    | .modified called computed =>
      allow (call = called ∧ result = computed) { state.setPhase id (.returned call result) with writer := none }
    | _ => none

def released (events : List Event) : List (CallId × Call × Result) :=
  events.filterMap fun
    | .release id call result => some (id, call, result)
    | _ => none

end Kvasir.LockedStore
