import Mathlib.Data.List.Nodup
import Mathlib.Data.List.Infix

/-! Lists without repeats, in which everything has one place. A part of such a
list keeps its order, so two parts agree on the order of what both have. -/

namespace Kvasir.Slots

universe u

variable {α : Type u}

/-- One element stands before another. -/
def Before (list : List α) (first last : α) : Prop := List.Sublist [first, last] list

theorem before_head {list : List α} {head last : α} : Before (head :: list) head last ↔ last ∈ list := by
  rw [Before, List.cons_sublist_cons, List.singleton_sublist]

theorem before_tail {list : List α} {head first last : α} (other : first ≠ head) :
    Before (head :: list) first last ↔ Before list first last := by
  constructor
  · intro before
    cases before with
    | cons _ later => exact later
    | cons_cons => exact absurd rfl other
  · exact List.Sublist.cons head

/-- A part orders its elements as the whole does. -/
theorem before_part {whole part : List α} (nodup : whole.Nodup) (inside : List.Sublist part whole) {first last : α}
    (one : first ∈ part) (other : last ∈ part) : Before part first last ↔ Before whole first last := by
  refine ⟨fun before => before.trans inside, fun before => ?_⟩
  induction inside with
  | slnil => cases one
  | cons head inside ih =>
    obtain ⟨fresh, nodup⟩ := List.nodup_cons.mp nodup
    refine ih nodup one other ((before_tail ?_).mp before)
    rintro rfl
    exact fresh (inside.subset one)
  | cons_cons head inside ih =>
    obtain ⟨fresh, nodup⟩ := List.nodup_cons.mp nodup
    have behind : last ≠ head := by
      rintro rfl
      cases before with
      | cons _ later => exact fresh (later.subset (by simp))
      | cons_cons _ later => exact fresh (List.singleton_sublist.mp later)
    have later := (List.mem_cons.mp other).resolve_left behind
    by_cases same : first = head
    · subst same
      exact before_head.mpr later
    · have one := (List.mem_cons.mp one).resolve_left same
      exact (before_tail same).mpr (ih nodup one later ((before_tail same).mp before))

/-- Two parts of one list order alike what both have. -/
theorem before_shared {whole part other : List α} (nodup : whole.Nodup) (inside : List.Sublist part whole)
    (otherInside : List.Sublist other whole) {first last : α} (one : first ∈ part ∧ last ∈ part)
    (two : first ∈ other ∧ last ∈ other) : Before part first last ↔ Before other first last :=
  (before_part nodup inside one.1 one.2).trans (before_part nodup otherInside two.1 two.2).symm

end Kvasir.Slots
