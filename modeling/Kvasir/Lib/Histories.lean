import Kvasir.Lib.Runs
import Mathlib.Data.List.Nodup
import Mathlib.Data.List.Infix

/-! Sequential objects, the histories they allow, and orders of operations that
respect real time. An operation is known by an index; whether it has begun, has
taken effect, or has returned is read off a prefix of the observed events. -/

namespace Kvasir.Histories
open Runs

universe u v w x y

section Objects
variable {σ : Type u} {ω : Type v} {ρ : Type w} (apply : σ → ω → σ × ρ)

/-- Perform whole operations one at a time and collect their results. -/
def perform (state : σ) : List ω → σ × List ρ
  | [] => (state, [])
  | operation :: rest =>
    let (next, result) := apply state operation
    let (final, results) := perform next rest
    (final, result :: results)

/-- A completed call is allowed when its result is the one the object gives. -/
def call [DecidableEq ρ] (state : σ) (completed : ω × ρ) : Option σ :=
  allow ((apply state completed.1).2 = completed.2) (apply state completed.1).1

@[simp] theorem perform_nil (state : σ) : perform apply state [] = (state, []) := rfl

theorem perform_cons (state : σ) (operation : ω) (rest : List ω) :
    perform apply state (operation :: rest) =
      ((perform apply (apply state operation).1 rest).1,
        (apply state operation).2 :: (perform apply (apply state operation).1 rest).2) := rfl

theorem perform_append (state : σ) (first last : List ω) :
    perform apply state (first ++ last) =
      ((perform apply (perform apply state first).1 last).1,
        (perform apply state first).2 ++ (perform apply (perform apply state first).1 last).2) := by
  induction first generalizing state with
  | nil => rfl
  | cons operation rest ih => simp only [List.cons_append, perform_cons, ih]

theorem perform_grows (state : σ) {first last : List ω} (shorter : first <+: last) :
    (perform apply state first).2 <+: (perform apply state last).2 := by
  obtain ⟨suffix, rfl⟩ := shorter
  rw [perform_append]
  exact List.prefix_append _ _

/-- A list that every operation leaves or appends to only grows. -/
theorem perform_extends {α : Type x} (names : σ → List α)
    (grows : ∀ state operation, names state <+: names (apply state operation).1) (state : σ) (operations : List ω) :
    names state <+: names (perform apply state operations).1 := by
  induction operations generalizing state with
  | nil => exact List.prefix_refl _
  | cons operation rest ih => exact (grows state operation).trans (ih (apply state operation).1)

/-- An object that does on images of operations what another does on them gives
images of its states and results. -/
theorem perform_image {τ : Type x} {α : Type y} {β : Type*} {apply : σ → ω → σ × ρ} {other : τ → α → τ × β}
    (f : σ → τ) (g : ω → α) (h : ρ → β)
    (image : ∀ state operation, other (f state) (g operation) = (f (apply state operation).1, h (apply state operation).2))
    (state : σ) (operations : List ω) :
    perform other (f state) (operations.map g) =
      (f (perform apply state operations).1, (perform apply state operations).2.map h) := by
  induction operations generalizing state with
  | nil => rfl
  | cons operation rest ih => simp only [List.map_cons, perform_cons, image, ih]

theorem perform_at {state : σ} {operations : List ω} {index : Nat} {result : ρ}
    (found : (perform apply state operations).2[index]? = some result) :
    ∃ operation, operations[index]? = some operation ∧
      (apply (perform apply state (operations.take index)).1 operation).2 = result := by
  induction operations generalizing state index with
  | nil => simp at found
  | cons operation rest ih =>
    cases index with
    | zero => exact ⟨operation, rfl, by simpa [perform_cons] using found⟩
    | succ index => exact ih (by simpa [perform_cons] using found)

/-- A list of completed calls is a run exactly when performing its operations
gives its results. -/
theorem run_call_iff [DecidableEq ρ] (state final : σ) (calls : List (ω × ρ)) :
    run (call apply) state calls = some final ↔
      perform apply state (calls.map Prod.fst) = (final, calls.map Prod.snd) := by
  induction calls generalizing state with
  | nil => simp
  | cons completed rest ih =>
    rw [run_cons, Option.bind_eq_some_iff]
    simp only [call, allow_eq_some, List.map_cons, perform_cons]
    constructor
    · rintro ⟨next, ⟨same, rfl⟩, ran⟩
      rw [(ih _).mp ran, same]
    · intro performed
      obtain ⟨ends, results⟩ := Prod.mk.inj performed
      obtain ⟨same, later⟩ := List.cons.inj results
      exact ⟨_, ⟨same, rfl⟩, (ih _).mpr (Prod.ext ends later)⟩

end Objects

theorem split_late {ω : Type u} {first last past future : List ω} {operation : ω}
    (same : first ++ last = past ++ operation :: future) (fresh : operation ∉ first) :
    ∃ middle, past = first ++ middle ∧ last = middle ++ operation :: future := by
  rcases List.append_eq_append_iff.mp same with ⟨middle, cut, rest⟩ | ⟨final, cut, rest⟩
  · exact ⟨middle, cut, rest⟩
  · cases final with
    | nil => exact ⟨[], by simpa using cut.symm, by simpa using rest.symm⟩
    | cons head final =>
      obtain ⟨rfl, _⟩ := List.cons.inj rest
      exact absurd (by rw [cut]; simp) fresh

/-- One place in a history that grows is its end or a place it had. -/
theorem split_concat {ω : Type u} {history : List ω} {last : ω} (holds : List ω → ω → List ω → Prop) :
    (∃ past operation future, history ++ [last] = past ++ operation :: future ∧ holds past operation future) ↔
      holds history last [] ∨
        ∃ past operation future, history = past ++ operation :: future ∧ holds past operation (future ++ [last]) := by
  constructor
  · intro ⟨past, operation, future, whole, here⟩
    rcases List.eq_nil_or_concat future with rfl | ⟨front, final, rfl⟩
    · obtain ⟨rfl, same⟩ := List.append_inj' whole rfl
      cases same
      exact .inl here
    · rw [List.concat_eq_append] at whole here
      rw [← List.cons_append, ← List.append_assoc] at whole
      obtain ⟨rfl, same⟩ := List.append_inj' whole rfl
      cases same
      exact .inr ⟨past, operation, front, rfl, here⟩
  · intro placed
    rcases placed with here | ⟨past, operation, future, rfl, here⟩
    · exact ⟨history, last, [], rfl, here⟩
    · exact ⟨past, operation, future ++ [last], by simp, here⟩

/-! An object that is read by key. What an operation writes, a value or its
removal, is given by `effect`; the rest of the history does not matter. -/

section Writes
variable {σ : Type u} {ω : Type v} {ρ : Type w} {κ : Type x} {ν : Type y} (effect : ω → Option (κ × Option ν))

def Touches (operation : ω) (key : κ) : Prop := ∃ written, effect operation = some (key, written)

/-- The last operation on the key put this value there. -/
def LastPut (history : List ω) (key : κ) (value : ν) : Prop :=
  ∃ past operation future, history = past ++ operation :: future ∧ effect operation = some (key, some value) ∧
    ∀ later ∈ future, ¬ Touches effect later key

theorem lastPut_concat {history : List ω} {operation : ω} {key : κ} {value : ν} :
    LastPut effect (history ++ [operation]) key value ↔
      effect operation = some (key, some value) ∨ ¬ Touches effect operation key ∧ LastPut effect history key value := by
  rw [LastPut, split_concat fun _ put future =>
    effect put = some (key, some value) ∧ ∀ later ∈ future, ¬ Touches effect later key]
  simp only [List.forall_mem_append, List.forall_mem_singleton]
  refine or_congr (and_iff_left (by simp)) ⟨?_, ?_⟩
  · intro ⟨past, put, future, whole, puts, rest, quiet⟩
    exact ⟨quiet, past, put, future, whole, puts, rest⟩
  · intro ⟨quiet, past, put, future, whole, puts, rest⟩
    exact ⟨past, put, future, whole, puts, rest, quiet⟩

theorem touched_last {history : List ω} {key : κ} (touched : ∃ operation ∈ history, Touches effect operation key) :
    ∃ past operation future, history = past ++ operation :: future ∧ Touches effect operation key ∧
      ∀ later ∈ future, ¬ Touches effect later key := by
  induction history using List.reverseRecOn with
  | nil => simp at touched
  | append_singleton history last ih =>
    by_cases here : Touches effect last key
    · exact ⟨history, last, [], rfl, here, by simp⟩
    · obtain ⟨operation, member, touches⟩ := touched
      have earlier : operation ∈ history := by
        rcases List.mem_append.mp member with earlier | same
        · exact earlier
        · exact absurd (List.mem_singleton.mp same ▸ touches) here
      obtain ⟨past, operation, future, rfl, touches, quiet⟩ := ih ⟨operation, earlier, touches⟩
      refine ⟨past, operation, future ++ [last], by simp, touches, fun later inside => ?_⟩
      rcases List.mem_append.mp inside with inside | same
      · exact quiet later inside
      · exact List.mem_singleton.mp same ▸ here

theorem lastPut_map {α : Type*} (f : α → ω) {history : List α} {key : κ} {value : ν} :
    LastPut effect (history.map f) key value ↔ LastPut (fun operation => effect (f operation)) history key value := by
  induction history using List.reverseRecOn with
  | nil => simp [LastPut]
  | append_singleton history operation ih =>
    rw [List.map_append, List.map_singleton, lastPut_concat, lastPut_concat, ih]
    rfl

variable [DecidableEq κ]

/-- Operations change what is read as their effects say. -/
def Obeys (apply : σ → ω → σ × ρ) (get : σ → κ → Option ν) : Prop :=
  ∀ state operation key, get (apply state operation).1 key =
    match effect operation with
    | some (written, value) => if written = key then value else get state key
    | none => get state key

theorem Obeys.untouched {effect : ω → Option (κ × Option ν)} {apply : σ → ω → σ × ρ} {get : σ → κ → Option ν}
    (obeys : Obeys effect apply get) (state : σ) {operation : ω} {key : κ} (quiet : ¬ Touches effect operation key) :
    get (apply state operation).1 key = get state key := by
  rw [obeys]
  split
  next written value wrote =>
    refine if_neg ?_
    rintro rfl
    exact quiet ⟨value, wrote⟩
  next => rfl

theorem Obeys.untouched_all {effect : ω → Option (κ × Option ν)} {apply : σ → ω → σ × ρ} {get : σ → κ → Option ν}
    (obeys : Obeys effect apply get) (state : σ) {history : List ω} {key : κ}
    (quiet : ∀ operation ∈ history, ¬ Touches effect operation key) :
    get (perform apply state history).1 key = get state key := by
  induction history generalizing state with
  | nil => rfl
  | cons operation rest ih =>
    obtain ⟨here, there⟩ := List.forall_mem_cons.mp quiet
    rw [perform_cons, ih _ there, obeys.untouched _ here]

/-- What was last put is there, whatever the object held before. -/
theorem Obeys.put {effect : ω → Option (κ × Option ν)} {apply : σ → ω → σ × ρ} {get : σ → κ → Option ν}
    (obeys : Obeys effect apply get) (state : σ) {history : List ω} {key : κ} {value : ν}
    (put : LastPut effect history key value) : get (perform apply state history).1 key = some value := by
  obtain ⟨past, operation, future, rfl, puts, quiet⟩ := put
  rw [perform_append, perform_cons, obeys.untouched_all _ quiet, obeys, puts]
  simp

theorem Obeys.absent {effect : ω → Option (κ × Option ν)} {apply : σ → ω → σ × ρ} {get : σ → κ → Option ν}
    (obeys : Obeys effect apply get) {state : σ} {history : List ω} {key : κ} (missing : get state key = none)
    (unput : ∀ operation ∈ history, ∀ value, effect operation ≠ some (key, some value)) :
    get (perform apply state history).1 key = none := by
  induction history generalizing state with
  | nil => exact missing
  | cons operation rest ih =>
    obtain ⟨here, there⟩ := List.forall_mem_cons.mp unput
    refine ih ?_ there
    by_cases touched : Touches effect operation key
    · obtain ⟨written, wrote⟩ := touched
      cases written with
      | none => rw [obeys, wrote]; simp
      | some value => exact (here value wrote).elim
    · rw [obeys.untouched _ touched, missing]

/-- An object that starts empty holds what was last put. -/
theorem Obeys.lastPut {effect : ω → Option (κ × Option ν)} {apply : σ → ω → σ × ρ} {get : σ → κ → Option ν}
    (obeys : Obeys effect apply get) {start : σ} (empty : ∀ key, get start key = none) (history : List ω) (key : κ)
    (value : ν) : get (perform apply start history).1 key = some value ↔ LastPut effect history key value := by
  induction history using List.reverseRecOn with
  | nil => simp [empty, LastPut]
  | append_singleton history operation ih =>
    simp only [perform_append, perform_cons, perform_nil]
    rw [lastPut_concat, ← ih]
    by_cases touched : Touches effect operation key
    · obtain ⟨written, wrote⟩ := touched
      rw [obeys, wrote]
      simp [Touches, wrote]
    · rw [obeys.untouched _ touched]
      have other : effect operation ≠ some (key, some value) := fun wrote => touched ⟨_, wrote⟩
      simp [touched, other]

end Writes

/-! Numbering each owner's operations in the order they took effect. -/

section Tickets
variable {ι : Type u} [DecidableEq ι]

def tickets (owners : List ι) : List (ι × Nat) :=
  owners.mapIdx fun position owner => (owner, (owners.take position).count owner)

theorem tickets_concat (owners : List ι) (owner : ι) :
    tickets (owners ++ [owner]) = tickets owners ++ [(owner, owners.count owner)] := by
  simp only [tickets, List.mapIdx_append, List.mapIdx_cons, List.mapIdx_nil, Nat.zero_add]
  congr 1
  · apply List.ext_getElem (by simp)
    intro index inside _
    have short : index ≤ owners.length := by simp at inside; omega
    simp [List.take_append_of_le_length short]
  · simp

theorem tickets_length (owners : List ι) : (tickets owners).length = owners.length := by simp [tickets]

theorem tickets_member {owners : List ι} {owner : ι} {index : Nat} :
    (owner, index) ∈ tickets owners ↔ index < owners.count owner := by
  induction owners using List.reverseRecOn with
  | nil => simp [tickets]
  | append_singleton owners last ih =>
    rw [tickets_concat, List.mem_append, ih, List.mem_singleton, List.count_append, List.count_singleton]
    by_cases same : last = owner
    · subst same
      simp only [Prod.mk.injEq, true_and, beq_self_eq_true, if_true]
      omega
    · simp [same, Ne.symm same]

theorem tickets_prefix {first last : List ι} (grows : first <+: last) : tickets first <+: tickets last := by
  obtain ⟨suffix, rfl⟩ := grows
  induction suffix using List.reverseRecOn with
  | nil => simp
  | append_singleton suffix owner ih =>
    rw [← List.append_assoc, tickets_concat]
    exact ih.trans (List.prefix_append _ _)

theorem tickets_ordered (owners : List ι) :
    (tickets owners).Pairwise fun first last => first.1 = last.1 → first.2 < last.2 := by
  induction owners using List.reverseRecOn with
  | nil => simp [tickets]
  | append_singleton owners owner ih =>
    rw [tickets_concat, List.pairwise_append]
    refine ⟨ih, by simp, ?_⟩
    rintro ⟨other, index⟩ member _ last same
    cases List.mem_singleton.mp last
    exact tickets_member.mp ((show other = owner from same) ▸ member)

theorem tickets_nodup (owners : List ι) : (tickets owners).Nodup := by
  refine (tickets_ordered owners).imp ?_
  rintro first last ordered rfl
  exact Nat.lt_irrefl _ (ordered rfl)

variable {α : Type v}

def own (owner : ι) (operations : List (ι × α)) : List α :=
  operations.filterMap fun (other, operation) => if other = owner then some operation else none

theorem own_append (owner : ι) (first last : List (ι × α)) :
    own owner (first ++ last) = own owner first ++ own owner last := List.filterMap_append

theorem own_all {owner : ι} {operations : List (ι × α)} (owned : ∀ operation ∈ operations, operation.1 = owner) :
    own owner operations = operations.map Prod.snd := by
  rw [own, ← List.filterMap_eq_map]
  refine List.filterMap_congr fun operation member => ?_
  simp [owned operation member]

theorem own_length (owner : ι) (operations : List (ι × α)) :
    (own owner operations).length = (operations.map Prod.fst).count owner := by
  induction operations with
  | nil => rfl
  | cons operation rest ih =>
    obtain ⟨other, operation⟩ := operation
    by_cases same : other = owner <;> simp_all [own]

/-- The operation at a position is the one its ticket names. -/
theorem tickets_own {operations : List (ι × α)} {position index : Nat} {owner : ι}
    (found : (tickets (operations.map Prod.fst))[position]? = some (owner, index)) :
    ∃ operation, operations[position]? = some (owner, operation) ∧ (own owner operations)[index]? = some operation := by
  simp only [tickets, List.getElem?_mapIdx, List.getElem?_map, Option.map_map, Option.map_eq_some_iff,
    Function.comp_apply, Prod.exists, Prod.mk.injEq] at found
  obtain ⟨owner, operation, here, rfl, rfl⟩ := found
  refine ⟨operation, here, ?_⟩
  obtain ⟨inside, same⟩ := List.getElem?_eq_some_iff.mp here
  have split : own owner operations =
      own owner (operations.take position) ++ operation :: own owner (operations.drop (position + 1)) := by
    have whole := List.take_append_drop position operations
    rw [← List.getElem_cons_drop inside, same] at whole
    conv => lhs; rw [← whole, own_append]
    simp [own]
  rw [← List.map_take, ← own_length, split, List.getElem?_append_right (le_refl _)]
  simp

end Tickets

section RealTime
variable {ε : Type x} {ι : Type y}

/-- One operation returned at a moment when the other had not begun. -/
def Precedes (invoked returned : List ε → ι → Prop) (events : List ε) (first last : ι) : Prop :=
  ∃ past future, events = past ++ future ∧ returned past first ∧ ¬ invoked past last

/-- An order that grows along a run, puts no operation before its invocation
and none after its return, never contradicts real time. -/
theorem order_respects_time {invoked returned : List ε → ι → Prop} {order : List ε → List ι} {events : List ε}
    (grows : ∀ past future, events = past ++ future → order past <+: order events)
    (begun : ∀ past future, events = past ++ future → ∀ index ∈ order past, invoked past index)
    (effective : ∀ past future, events = past ++ future → ∀ index, returned past index → index ∈ order past)
    (nodup : (order events).Nodup) :
    (order events).Pairwise fun first last => ¬ Precedes invoked returned events last first := by
  rw [List.pairwise_iff_getElem]
  intro i j insideFirst insideLast earlier ⟨past, future, cut, finished, fresh⟩
  have prefixed := grows past future cut
  obtain ⟨k, inside, same⟩ := List.mem_iff_getElem.mp (effective past future cut _ finished)
  have position : k = j := by
    rw [prefixed.getElem inside] at same
    exact (nodup.getElem_inj_iff).mp same
  subst position
  apply fresh
  apply begun past future cut
  have member : (order past)[i] ∈ order past := List.getElem_mem (by omega)
  rwa [prefixed.getElem] at member

end RealTime

end Kvasir.Histories
