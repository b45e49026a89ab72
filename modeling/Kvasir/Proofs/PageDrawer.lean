import Kvasir.Page
import Kvasir.Proofs.StoreHistory
import Kvasir.Proofs.PageAgrees

/-! The drawer asks the store about remembered names only. A name takes its place
for good, whatever is deleted later, so the drawer shows the map as long as every
stored key was set when there was still room. -/

namespace Kvasir.Page
open Histories Strings Utf8 Protocol Server

def setKey (line : Bytes) : Option Bytes :=
  match parse line with
  | .ok cmd => if cmd.op = .set then some cmd.key else none
  | .error _ => none

def setKeys (history : List Bytes) : List Bytes := history.filterMap setKey

/-- The key was set when fewer than `seenCap` different keys had been. -/
def Remembered (history : List Bytes) (key : Bytes) : Prop :=
  ∃ past line future, history = past ++ line :: future ∧ setKey line = some key ∧ (setKeys past).toFinset.card < seenCap

/-- The rows are the map, each key once. -/
structure Shows (rows : List (Bytes × Bytes)) (st : MemoryStore) : Prop where
  once : (rows.map Prod.fst).Nodup
  whole : ∀ key value, (key, value) ∈ rows ↔ st.get key = some value

section Remember
variable {seen : List Bytes} {key other : Bytes}

theorem remember_member : other ∈ remember seen key ↔ other ∈ seen ∨ other = key ∧ seen.length < seenCap := by
  unfold remember
  split
  next known => exact ⟨.inl, fun member => member.elim id fun ⟨same, _⟩ => same ▸ known⟩
  next =>
    split
    next full => exact ⟨.inl, fun member => member.elim id fun ⟨_, room⟩ => absurd room (by omega)⟩
    next room => simp [Nat.lt_of_not_le room]

theorem remember_nodup (nodup : seen.Nodup) : (remember seen key).Nodup := by
  unfold remember
  split
  · exact nodup
  next fresh =>
    split
    · exact nodup
    · exact nodup.append (List.nodup_singleton key) (by simpa using fresh)

end Remember

theorem remembered_concat {history : List Bytes} {line key : Bytes} :
    Remembered (history ++ [line]) key ↔
      Remembered history key ∨ setKey line = some key ∧ (setKeys history).toFinset.card < seenCap := by
  rw [Remembered, split_concat fun past setter _ => setKey setter = some key ∧ (setKeys past).toFinset.card < seenCap, or_comm]
  rfl

structure Seen (history : List Bytes) (seen : List Bytes) : Prop where
  nodup : seen.Nodup
  size : seen.length = min (setKeys history).toFinset.card seenCap
  member : ∀ key, key ∈ seen ↔ Remembered history key

theorem Remembered.set {history : List Bytes} {key : Bytes} (remembered : Remembered history key) : key ∈ setKeys history := by
  obtain ⟨past, line, future, rfl, sets, _⟩ := remembered
  exact List.mem_filterMap.mpr ⟨line, by simp, sets⟩

theorem Seen.all {history seen : List Bytes} (is : Seen history seen) (room : (setKeys history).toFinset.card < seenCap)
    (key : Bytes) : key ∈ seen ↔ key ∈ setKeys history := by
  have inside : seen.toFinset ⊆ (setKeys history).toFinset := by
    intro key member
    rw [List.mem_toFinset] at member ⊢
    exact ((is.member key).mp member).set
  have size : (setKeys history).toFinset.card ≤ seen.toFinset.card := by
    rw [List.toFinset_card_of_nodup is.nodup, is.size]
    omega
  rw [← List.mem_toFinset, Finset.eq_of_subset_of_card_le inside size, List.mem_toFinset]

theorem Seen.remember {history seen : List Bytes} (is : Seen history seen) {line key : Bytes} (sets : setKey line = some key) :
    Seen (history ++ [line]) (remember seen key) := by
  have keys : (setKeys (history ++ [line])).toFinset = insert key (setKeys history).toFinset := by
    ext other
    simp [setKeys, sets]
  have size := is.size
  refine ⟨remember_nodup is.nodup, ?_, fun other => ?_⟩
  · rw [keys]
    by_cases known : key ∈ seen
    · have old : key ∈ (setKeys history).toFinset := List.mem_toFinset.mpr ((is.member key).mp known).set
      rw [Page.remember, if_pos known, Finset.insert_eq_of_mem old, size]
    · rw [Page.remember, if_neg known]
      split
      next full =>
        have more := Finset.card_le_card (Finset.subset_insert key (setKeys history).toFinset)
        omega
      next room =>
        have spare : (setKeys history).toFinset.card < seenCap := by omega
        have fresh : key ∉ (setKeys history).toFinset := by rwa [List.mem_toFinset, ← is.all spare]
        rw [Finset.card_insert_of_notMem fresh, List.length_append, List.length_singleton]
        omega
  · rw [remember_member, remembered_concat, is.member, sets, Option.some.injEq]
    refine or_congr Iff.rfl (and_congr eq_comm ?_)
    omega

theorem Seen.keep {history seen : List Bytes} (is : Seen history seen) {line : Bytes} (sets : setKey line = none) :
    Seen (history ++ [line]) seen := by
  have keys : setKeys (history ++ [line]) = setKeys history := by simp [setKeys, sets]
  refine ⟨is.nodup, keys ▸ is.size, fun key => ?_⟩
  rw [remembered_concat, is.member, sets]
  simp

theorem eval_seen (engine : Engine) (line : Bytes) :
    (eval engine line).1.seen = match setKey line with
      | some key => remember engine.seen key
      | none => engine.seen := by
  cases parsed : parse line with
  | error err => simp only [eval, setKey, parsed]
  | ok cmd =>
    obtain ⟨op, key, value⟩ := cmd
    cases op <;> simp [eval, setKey, parsed]

theorem seen_eval (history : List Bytes) : Seen history (perform eval {} history).1.seen := by
  induction history using List.reverseRecOn with
  | nil => exact ⟨List.nodup_nil, rfl, fun key => by simp [Remembered]⟩
  | append_singleton history line ih =>
    simp only [perform_append, perform_cons, perform_nil, eval_seen]
    split
    next key sets => exact ih.remember sets
    next sets => exact ih.keep sets

theorem rows_fst (engine : Engine) : (rows engine).map Prod.fst = engine.seen.filter fun k => (engine.st.get k).isSome := by
  rw [rows, List.map_filterMap, ← List.filterMap_eq_filter]
  refine List.filterMap_congr fun key _ => ?_
  cases found : engine.st.get key <;> simp [Option.guard, found]

theorem rows_member {engine : Engine} {key value : Bytes} :
    (key, value) ∈ rows engine ↔ key ∈ engine.seen ∧ engine.st.get key = some value := by
  simp only [rows, List.mem_filterMap, Option.map_eq_some_iff, Prod.mk.injEq]
  constructor
  · intro ⟨_, member, _, found, rfl, rfl⟩
    exact ⟨member, found⟩
  · intro ⟨member, found⟩
    exact ⟨key, member, value, found, rfl, rfl⟩

theorem rows_shows {engine : Engine} (nodup : engine.seen.Nodup) :
    Shows (rows engine) engine.st ↔ ∀ key value, engine.st.get key = some value → key ∈ engine.seen := by
  constructor
  · intro shows key value stored
    exact (rows_member.mp ((shows.whole key value).mpr stored)).1
  · intro all
    refine ⟨rows_fst engine ▸ nodup.filter _, fun key value => ?_⟩
    rw [rows_member]
    exact ⟨And.right, fun stored => ⟨all key value stored, stored⟩⟩

theorem stored_lastSet (history : List Bytes) (key value : Bytes) :
    (perform eval {} history).1.st.get key = some value ↔ LastSet history key value := by
  have same := @perform_page history id fun _ => rfl
  rw [List.map_id] at same
  rw [← perform_lastSet, same]

/-- What the engine is after some lines and one more, and what it returns for that. -/
def drawn (history : List Bytes) (line : Bytes) : Engine × Result := eval (perform eval {} history).1 line

/-- The drawer shows the map after a line exactly when each stored key was set
while fewer than `seenCap` different keys had been. -/
theorem drawer_shows_map (history : List Bytes) (line : Bytes) :
    ((drawn history line).1.st.data.keys.card ≤ seenCap → Shows (drawn history line).2.rows (drawn history line).1.st) ↔
    ((drawn history line).1.st.data.keys.card ≤ seenCap →
      ∀ key value, LastSet (history ++ [line]) key value → Remembered (history ++ [line]) key) := by
  have last : (drawn history line).1 = (perform eval {} (history ++ [line])).1 := by
    simp only [drawn, perform_append, perform_cons, perform_nil]
  have seen := seen_eval (history ++ [line])
  refine imp_congr_right fun _ => ?_
  rw [drawn, eval_rows, ← drawn, last, rows_shows seen.nodup]
  refine forall₂_congr fun key value => ?_
  rw [stored_lastSet, seen.member]

/-- Sixty-four names, one of them deleted. -/
def fullDrawer : List Bytes :=
  (List.range seenCap).map (fun index => text "SET " ++ [UInt8.ofNat (0x21 + index)] ++ text " v") ++ [text "DEL A"]

/-- The next name is stored and not shown, though the map is no larger than before. -/
theorem drawer_hides_key : (drawn fullDrawer (text "SET new v")).1.st.data.keys.card = seenCap ∧
    ¬ Shows (drawn fullDrawer (text "SET new v")).2.rows (drawn fullDrawer (text "SET new v")).1.st := by
  have run : (drawn fullDrawer (text "SET new v")).1.st.data.keys.card = seenCap ∧
      (drawn fullDrawer (text "SET new v")).1.st.get (text "new") = some (text "v") ∧
      (text "new", text "v") ∉ (drawn fullDrawer (text "SET new v")).2.rows := by decide +kernel
  exact ⟨run.1, fun shows => run.2.2 ((shows.whole _ _).mpr run.2.1)⟩

end Kvasir.Page
