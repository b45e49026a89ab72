import Kvasir.Lib.Slots
import Kvasir.Proofs.PageDrawer

/-! The rows of a whole run. A name keeps its place in what is remembered, also
while the store does not have its key, so all rows are parts of one list. -/

namespace Kvasir.Page
open Histories Strings Utf8 Protocol Server Slots

theorem remember_grows (seen : List Bytes) (key : Bytes) : seen <+: remember seen key := by
  unfold remember
  split
  · exact List.prefix_refl _
  · split
    · exact List.prefix_refl _
    · exact List.prefix_append _ _

theorem eval_grows (engine : Engine) (line : Bytes) : engine.seen <+: (eval engine line).1.seen := by
  rw [eval_seen]
  split
  · exact remember_grows _ _
  · exact List.prefix_refl _

/-- The engine after so many lines. -/
def after (history : List Bytes) (count : Nat) : Engine := (perform eval {} (history.take count)).1

/-- What the drawer was told after the line at a position. -/
def rowsAt (history : List Bytes) (index : Nat) : Option (List (Bytes × Bytes)) :=
  (perform eval {} history).2[index]?.map Result.rows

theorem rowsAt_after {history : List Bytes} {index : Nat} {listed : List (Bytes × Bytes)} (found : rowsAt history index = some listed) :
    listed = rows (after history (index + 1)) := by
  obtain ⟨result, returned, rfl⟩ := Option.map_eq_some_iff.mp found
  obtain ⟨line, given, rfl⟩ := perform_at eval returned
  rw [after, List.take_add_one, given, eval_rows, perform_append]
  rfl

/-- Everything ever drawn is drawn in the order in which names were remembered. -/
theorem drawn_part {history : List Bytes} {index : Nat} {listed : List (Bytes × Bytes)} (found : rowsAt history index = some listed) :
    List.Sublist (listed.map Prod.fst) (perform eval {} history).1.seen := by
  have grown : (after history (index + 1)).seen <+: (perform eval {} history).1.seen := by
    conv => rhs; rw [← List.take_append_drop (index + 1) history, perform_append]
    exact perform_extends eval Engine.seen eval_grows _ _
  rw [rowsAt_after found, rows_fst]
  exact List.filter_sublist.trans grown.sublist

/-- What holds of all rows of a run. -/
structure Steady (history : List Bytes) : Prop where
  once : ∀ index listed, rowsAt history index = some listed → (listed.map Prod.fst).Nodup
  fresh : ∀ index listed, rowsAt history index = some listed → ∀ key value, (key, value) ∈ listed →
    (after history (index + 1)).st.get key = some value
  bounded : ∀ index listed, rowsAt history index = some listed → listed.length ≤ seenCap
  ordered : ∀ earlier later first last, rowsAt history earlier = some first → rowsAt history later = some last →
    ∀ key other, key ∈ first.map Prod.fst → other ∈ first.map Prod.fst → key ∈ last.map Prod.fst → other ∈ last.map Prod.fst →
      (Before (first.map Prod.fst) key other ↔ Before (last.map Prod.fst) key other)

/-- Rows are neither stale nor doubled nor too many, and a key that is deleted and
set again comes back to its place. -/
theorem drawer_steady (history : List Bytes) : Steady history := by
  have seen := seen_eval history
  constructor
  case once => exact fun index listed found => (drawn_part found).nodup seen.nodup
  case fresh =>
    intro index listed found key value member
    rw [rowsAt_after found] at member
    exact (rows_member.mp member).2
  case bounded =>
    intro index listed found
    have fewer := (drawn_part found).length_le
    have size := seen.size
    rw [List.length_map] at fewer
    omega
  case ordered =>
    intro earlier later first last found foundLater key other one two three four
    exact before_shared seen.nodup (drawn_part found) (drawn_part foundLater) ⟨one, two⟩ ⟨three, four⟩

example : rowsAt [text "SET a 1", text "SET b 2", text "DEL a", text "SET a 3"] 3 = some [(text "a", text "3"), (text "b", text "2")] := by
  decide +kernel

end Kvasir.Page
