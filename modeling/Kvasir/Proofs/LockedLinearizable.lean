import Kvasir.Proofs.Linearizable
import Kvasir.Proofs.LockedServing

/-! Linearizability of the server over the locked store, told by what its clients
can see: the lines handed over and the replies that got through. When a line was
processed is hidden in a call's release, and the order is found, not observed. -/

namespace Kvasir.LockedServer
open Runs Histories Scanner Strings Protocol Server LockedStore

section Seen
variable (id : ConnId) (events : List Server.Event)

/-- A handler's actions but for the turns. -/
theorem actions_visible : actions id (events.filterMap visible) =
    (actions id events).filterMap fun | .process _ _ => none | action => some action := by
  simp only [actions, List.filterMap_filterMap]
  congr 1
  funext event
  cases event with
  | handle other action => by_cases same : other = id <;> cases action <;> simp [visible, same]
  | _ => rfl

theorem delivered_visible : delivered (actions id (events.filterMap visible)) = delivered (actions id events) := by
  rw [actions_visible, delivered, delivered, List.filterMap_filterMap]
  congr 1
  funext action
  cases action <;> rfl

theorem replies_visible : replies (actions id (events.filterMap visible)) = replies (actions id events) := by
  rw [actions_visible, replies, replies, writes, writes, List.filterMap_filterMap]
  congr 1
  funext action
  cases action <;> rfl

theorem received_visible : received (actions id (events.filterMap visible)) = received (actions id events) := by
  rw [actions_visible]
  induction actions id events with
  | nil => rfl
  | cons action rest ih => cases action <;> simp_all [received]

theorem readEnd_visible : .readEnd ∈ actions id (events.filterMap visible) ↔ .readEnd ∈ actions id events := by
  rw [actions_visible, List.mem_filterMap]
  constructor
  · rintro ⟨action, member, shows⟩
    cases action <;> cases shows
    exact member
  · exact fun member => ⟨_, member, rfl⟩

theorem sends_visible (stream : Bytes) : Sends stream (actions id (events.filterMap visible)) ↔ Sends stream (actions id events) := by
  rw [Sends, Sends, received_visible, readEnd_visible]

end Seen

/-- One order of lines that explains what the clients see. -/
structure Explains (lines : ConnId → List Bytes) (shown : List Server.Event) (order : List (ConnId × Nat)) : Prop where
  written : ∀ id index, index < (replies (actions id shown)).length → (id, index) ∈ order
  delivered : ∀ id index, (id, index) ∈ order → index < (delivered (actions id shown)).length
  once : order.Nodup
  sequential : order.Pairwise fun first last => first.1 = last.1 → first.2 < last.2
  realTime : order.Pairwise fun first last => ¬ Precedes Delivered Written shown last first
  answered : ∀ (position : Nat) id index reply, order[position]? = some (id, index) →
    (replies (actions id shown))[index]? = some reply →
      ∃ line, (lines id)[index]? = some line ∧ Answers ((order.take position).map (sentLine lines)) line reply

/-- Real time as the clients see it is real time. -/
theorem precedes_visible {events : List Server.Event} {first last : ConnId × Nat}
    (precedes : Precedes Delivered Written (events.filterMap visible) first last) : Precedes Delivered Written events first last := by
  obtain ⟨past, future, cut, written, fresh⟩ := precedes
  obtain ⟨before, after, rfl, rfl, rfl⟩ := List.filterMap_eq_append_iff.mp cut
  refine ⟨before, after, rfl, ?_, ?_⟩
  · rwa [Written, replies_visible] at written
  · rwa [Delivered, delivered_visible] at fresh

section Served
variable {served : List Server.Event} {final : Server.State} {lines : ConnId → List Bytes}
  (ran : run Server.step {} served = some final) (sent : ∀ id, ∀ line ∈ lines id, newline ∉ line)
  (sends : ∀ id, Sends (Lines.unlines newline (lines id)) (actions id served))
include ran sent sends

/-- Performing the lines in their order gives the replies and the store. -/
theorem order_performs : perform answer .new (((Server.order served).map (sentLine lines)).map dropCR) =
    (final.store, (turns served).map fun turn => turn.2.2) := by
  rw [← turns_sent sent sends ran]
  exact turns_perform ran

theorem order_answers {position index : Nat} {id : ConnId} {reply : Bytes} (placed : (Server.order served)[position]? = some (id, index))
    (written : (replies (actions id served))[index]? = some reply) :
    ∃ line, (lines id)[index]? = some line ∧ Answers (((Server.order served).take position).map (sentLine lines)) line reply := by
  obtain ⟨line, answered, found, turn, handled⟩ := order_turn sent sends ran placed
  obtain ⟨_, processed⟩ := (progress_run ran id).answered written
  obtain rfl : answered = reply := congrArg Prod.snd (Option.some.inj (handled.symm.trans processed))
  refine ⟨line, found, ?_⟩
  have result : (perform answer .new (((Server.order served).map (sentLine lines)).map dropCR)).2[position]? = some answered := by
    rw [order_performs ran sent sends, List.getElem?_map, turn]
    rfl
  obtain ⟨asked, here, same⟩ := perform_at answer result
  obtain rfl : asked = dropCR line := by
    simpa [placed, sentLine, List.getD, found] using here.symm
  rw [← answers_dropCR, ← same, ← List.map_take, ← List.map_take]
  exact answer_answers (perform_lastSet _) (dropCR line)

theorem order_contents (key value : Bytes) :
    final.store.get key = some value ↔ LastSet ((Server.order served).map (sentLine lines)) key value := by
  rw [← lastSet_dropCR, ← perform_lastSet, order_performs ran sent sends]

theorem order_explains : Explains lines (served.filterMap visible) (Server.order served) := by
  refine ⟨fun id index inside => ?_, fun id index member => ?_, tickets_nodup _, tickets_ordered _, ?_, ?_⟩
  · rw [replies_visible] at inside
    have short := (progress_run ran id).ordered.length_le
    rw [List.length_map] at short
    exact order_member.mpr (Nat.lt_of_lt_of_le inside short)
  · have lengths := congrArg List.length (progress_run ran id).lines
    rw [List.length_append, List.length_map] at lengths
    rw [order_member] at member
    rw [delivered_visible]
    omega
  · exact (order_real_time ran).imp fun timely precedes => timely (precedes_visible precedes)
  · intro position id index reply placed written
    rw [replies_visible] at written
    exact order_answers ran sent sends placed written

end Served

/-- Clients that send whole lines to the server see one atomic store, although its
handlers call a store that takes its calls apart: some order of lines keeps each
connection's order and real time and explains every reply that got through. Where no
writer holds the lock it explains the map as well. -/
theorem locked_server_linearizable {events : List Event} {state : State} {lines : ConnId → List Bytes}
    (ran : run step {} events = some state) (sent : ∀ id, ∀ line ∈ lines id, newline ∉ line)
    (sends : ∀ id, Sends (Lines.unlines newline (lines id)) (actions id (events.filterMap Event.shown))) :
    ∃ order, Explains lines (events.filterMap Event.shown) order ∧
      (state.locked.writer = none → ∀ key value, state.locked.data.lookup key = some value ↔
        LastSet (order.map (sentLine lines)) key value) := by
  obtain ⟨served, final, matched, mirrors, same⟩ := locked_follows.run (Mirrors.initial .new) ran
  have known : ∀ id, Sends (Lines.unlines newline (lines id)) (actions id served) := by
    intro id
    rw [← sends_visible, same]
    exact sends id
  refine ⟨Server.order served, same ▸ order_explains matched sent known, fun unlocked key value => ?_⟩
  rw [← order_contents matched sent known, mirrors.locked.settled unlocked]
  rfl

theorem locked_server_linearizable_overtaken : ∃ ran : (run step {} overtaken).isSome, ∃ order,
    Explains twoInputs (overtaken.filterMap Event.shown) order ∧
      ∀ key value, ((run step {} overtaken).get ran).locked.data.lookup key = some value ↔
        LastSet (order.map (sentLine twoInputs)) key value := by
  obtain ⟨ran, unlocked⟩ : ∃ ran : (run step {} overtaken).isSome, ((run step {} overtaken).get ran).locked.writer = none :=
    ⟨by decide, by decide⟩
  have sent : ∀ id, ∀ line ∈ twoInputs id, newline ∉ line := by
    rintro (_ | _ | id)
    · decide
    · decide
    · simp [twoInputs]
  have sends : ∀ id, Sends (Lines.unlines newline (twoInputs id)) (actions id (overtaken.filterMap Event.shown)) := by
    rintro (_ | _ | id)
    · exact ⟨by decide, by decide⟩
    · exact ⟨by decide, by decide⟩
    · have silent : actions (id + 2) (overtaken.filterMap Event.shown) = [] := by
        simp [overtaken, Event.shown, actions, List.filterMap_cons]
      exact ⟨by simp [silent, received], by simp [silent]⟩
  obtain ⟨order, explains, contents⟩ := locked_server_linearizable (Option.some_get ran).symm sent sends
  exact ⟨ran, order, explains, contents unlocked⟩

end Kvasir.LockedServer
