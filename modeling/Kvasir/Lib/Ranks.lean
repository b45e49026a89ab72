import Mathlib.Data.List.Sort
import Mathlib.Data.List.Count
import Mathlib.Order.Lattice

/-! Order statistics of a list, by counting. The element of a rank is the least
one that has at least so many elements up to it; in an ascending list it stands
where the rank says. -/

namespace Kvasir.Ranks

universe u

variable {α : Type u} [LinearOrder α]

def upTo (list : List α) (bound : α) : Nat := list.countP (· ≤ bound)

/-- The least element with at least this many elements up to it. -/
structure IsRank (list : List α) (rank : Nat) (element : α) : Prop where
  member : element ∈ list
  enough : rank ≤ upTo list element
  least : ∀ other ∈ list, rank ≤ upTo list other → element ≤ other

theorem IsRank.unique {list : List α} {rank : Nat} {first last : α} (one : IsRank list rank first)
    (other : IsRank list rank last) : first = last :=
  le_antisymm (one.least last other.member other.enough) (other.least first one.member one.enough)

theorem rank_split {front rest : List α} {element : α} (ascending : (front ++ element :: rest).Pairwise (· ≤ ·)) :
    IsRank (front ++ element :: rest) (front.length + 1) element := by
  obtain ⟨_, tail, cross⟩ := List.pairwise_append.mp ascending
  have before : front.countP (· ≤ element) = front.length :=
    List.countP_eq_length.mpr fun other member => decide_eq_true (cross other member element (by simp))
  refine ⟨by simp, ?_, fun other _ enough => ?_⟩
  · rw [upTo, List.countP_append, before, List.countP_cons_of_pos (by simp)]
    omega
  · by_contra below
    have after : (element :: rest).countP (· ≤ other) = 0 := by
      rw [List.countP_eq_zero]
      intro later member small
      rcases List.mem_cons.mp member with rfl | inside
      · exact below (of_decide_eq_true small)
      · exact below ((List.rel_of_pairwise_cons tail inside).trans (of_decide_eq_true small))
    have most := List.countP_le_length (p := (· ≤ other)) (l := front)
    rw [upTo, List.countP_append, after] at enough
    omega

/-- Counted from one, positions in an ascending list are ranks. -/
theorem rank_getElem {list : List α} (ascending : list.Pairwise (· ≤ ·)) {index : Nat} (inside : index < list.length) :
    IsRank list (index + 1) list[index] := by
  have split : list.take index ++ list[index] :: list.drop (index + 1) = list := by
    rw [List.getElem_cons_drop inside, List.take_append_drop]
  have ranked := rank_split (split ▸ ascending)
  rwa [split, List.length_take, Nat.min_eq_left (Nat.le_of_lt inside)] at ranked

end Kvasir.Ranks
