import Kvasir.Proofs.StoreHistory
import Kvasir.Proofs.ProtocolParse

/-! Linearizability of the protocol as its clients see it. A line begins when
the scanner hands it over and ends when its reply is written; it takes effect at
its store call in between. -/

namespace Kvasir.Server
open Runs Histories Scanner Strings Protocol Proofs.ProtocolParse

/-- The line of a connection with the given number has been handed to its handler. -/
def Delivered (past : List Event) (line : ConnId × Nat) : Prop := line.2 < (delivered (actions line.1 past)).length

def Written (past : List Event) (line : ConnId × Nat) : Prop := line.2 < (replies (actions line.1 past)).length

def sentLine (lines : ConnId → List Bytes) (line : ConnId × Nat) : Bytes := (lines line.1).getD line.2 []

/-- One order of all handled lines that explains every reply and the contents. -/
structure Linearized (lines : ConnId → List Bytes) (events : List Event) (state : State)
    (order : List (ConnId × Nat)) : Prop where
  covers : ∀ id index, (id, index) ∈ order ↔ index < (processed (actions id events)).length
  once : order.Nodup
  sequential : order.Pairwise fun first last => first.1 = last.1 → first.2 < last.2
  realTime : order.Pairwise fun first last => ¬ Precedes Delivered Written events last first
  answered : ∀ (position : Nat) id index, order[position]? = some (id, index) →
    ∃ line reply, (lines id)[index]? = some line ∧ (processed (actions id events))[index]? = some (dropCR line, reply) ∧
      Answers ((order.take position).map (sentLine lines)) line reply
  written : ∀ id, replies (actions id events) <+: (processed (actions id events)).map Prod.snd
  contents : ∀ key value, state.store.get key = some value ↔ LastSet (order.map (sentLine lines)) key value

theorem lineEffect_dropCR : (fun raw => lineEffect (dropCR raw)) = lineEffect := by
  funext raw
  simp only [lineEffect, parse_dropCR]

theorem lastSet_dropCR (history : List Bytes) (key value : Bytes) :
    LastSet (history.map dropCR) key value ↔ LastSet history key value := by
  rw [LastSet, lastPut_map, lineEffect_dropCR]

theorem answers_dropCR (history : List Bytes) (line reply : Bytes) :
    Answers (history.map dropCR) (dropCR line) reply ↔ Answers history line reply := by
  simp only [Answers, parse_dropCR, lastSet_dropCR]

def order (events : List Event) : List (ConnId × Nat) := tickets ((turns events).map Prod.fst)

variable {events : List Event} {state : State} {lines : ConnId → List Bytes}

theorem order_member {id : ConnId} {index : Nat} :
    (id, index) ∈ order events ↔ index < (processed (actions id events)).length := by
  rw [order, tickets_member, ← own_length, turns_own]

theorem order_prefix (past future : List Event) : order past <+: order (past ++ future) := by
  refine tickets_prefix ((List.prefix_append (turns past) (turns future)).map _ |>.trans ?_)
  rw [turns_append]

theorem order_real_time (ran : run step {} events = some state) :
    (order events).Pairwise fun first last => ¬ Precedes Delivered Written events last first := by
  refine order_respects_time ?_ ?_ ?_ (tickets_nodup _)
  · rintro past future rfl
    exact order_prefix past future
  · rintro past future rfl ⟨id, index⟩ member
    obtain ⟨middle, arrived, _⟩ := run_split ran
    have lengths := congrArg List.length (progress_run arrived id).lines
    rw [order_member] at member
    rw [List.length_append, List.length_map] at lengths
    simp only [Delivered]
    omega
  · rintro past future rfl ⟨id, index⟩ written
    obtain ⟨middle, arrived, _⟩ := run_split ran
    have lengths := (progress_run arrived id).ordered.length_le
    rw [List.length_map] at lengths
    exact order_member.mpr (Nat.lt_of_lt_of_le written lengths)

section Sent
variable (sent : ∀ id, ∀ line ∈ lines id, newline ∉ line)
  (sends : ∀ id, Sends (Lines.unlines newline (lines id)) (actions id events))
include sent sends

theorem order_turn (ran : run step {} events = some state)
    {position index : Nat} {id : ConnId} (placed : (order events)[position]? = some (id, index)) :
    ∃ line reply, (lines id)[index]? = some line ∧ (turns events)[position]? = some (id, dropCR line, reply) ∧
      (processed (actions id events))[index]? = some (dropCR line, reply) := by
  obtain ⟨⟨handled, reply⟩, turn, mine⟩ := tickets_own placed
  rw [turns_own] at mine
  obtain ⟨line, found, rfl⟩ := processed_sent ran (sent id) (sends id) mine
  exact ⟨line, reply, found, turn, mine⟩

theorem turns_sent (ran : run step {} events = some state) :
    (turns events).map (fun turn => turn.2.1) = ((order events).map (sentLine lines)).map dropCR := by
  apply List.ext_getElem?
  intro position
  simp only [List.getElem?_map]
  cases placed : (order events)[position]? with
  | none =>
    have outside := List.getElem?_eq_none_iff.mp placed
    rw [order, tickets_length, List.length_map] at outside
    rw [List.getElem?_eq_none_iff.mpr outside]
    rfl
  | some ticket =>
    obtain ⟨id, index⟩ := ticket
    obtain ⟨line, reply, found, turn, _⟩ := order_turn sent sends ran placed
    simp [turn, sentLine, List.getD, found]

end Sent

/-- A read takes effect before the other client's write, and is answered after it. -/
def twoClients : List Event := [.accept 0, .register 0, .spawn 0, .accept 1, .register 1, .spawn 1,
  .handle 1 (.read (text "GET a\n")), .handle 1 (.deliver (text "GET a")),
  .handle 1 (.process (text "GET a") (text "(nil)\n")), .handle 0 (.read (text "SET a x\n")),
  .handle 0 (.deliver (text "SET a x")), .handle 0 (.process (text "SET a x") (text "OK\n")),
  .handle 0 (.write (text "OK\n") true), .handle 1 (.write (text "(nil)\n") true)]

def twoInputs : ConnId → List Bytes
  | 0 => [text "SET a x"]
  | 1 => [text "GET a"]
  | _ => []

end Kvasir.Server
