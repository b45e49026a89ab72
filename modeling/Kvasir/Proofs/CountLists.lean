import Kvasir.Bench

/-! The client counts of the harness are comma-separated, with blanks between the
commas allowed. The scanner stops at the end of an integer, so what is left over of
a field goes unnoticed: a list with another separator is read as its first count. -/

namespace Kvasir.Bench
open Strings Utf8 Numerals

def nonblank (parts : List Bytes) : List Bytes := (parts.map trimSpace).filter (· ≠ [])

/-- What stands between the commas, trimmed, where it is not blank. -/
def fields (s : Bytes) : List Bytes := nonblank (s.splitOn comma)

/-- A positive number that fits an int. -/
def InRange (size : IntSize) (n : Int) : Prop := 1 ≤ n ∧ n < 2 ^ (size.bits - 1)

/-- The integers that the fields are in their entirety. -/
def Counts (size : IntSize) (s : Bytes) (counts : List Int) : Prop :=
  counts ≠ [] ∧ List.Forall₂ (fun f n => Integer f n ∧ InRange size n) (fields s) counts

/-- Exactly the lists of counts are accepted, each as what it lists. -/
def Exact (size : IntSize) (s : Bytes) : Prop := ∀ counts, parseInts size s = .ok counts ↔ Counts size s counts

/-- A field begins with a count, which something else may follow. -/
def Starts (size : IntSize) (f : Bytes) (n : Int) : Prop := InRange size n ∧ ∃ rest, Begins f n rest

/-- Every field begins with a count, but not every one ends with it. -/
def Truncates (size : IntSize) (s : Bytes) : Prop :=
  (∀ f ∈ fields s, ∃ n, Starts size f n) ∧ ∃ f ∈ fields s, ∃ n rest, Begins f n rest ∧ rest ≠ []

section Fields
variable {size : IntSize} {f : Bytes} {n : Int}

private theorem fits_iff (positive : 1 ≤ n) :
    (-2 ^ 63 ≤ n ∧ n < 2 ^ 63 ∧ n.bmod (2 ^ size.bits) = n) ↔ n < 2 ^ (size.bits - 1) := by
  rw [Int.bmod_eq_iff (by positivity)]
  cases size <;> simp only [IntSize.bits, sub_self, dvd_zero, and_true] <;> norm_num <;> omega

theorem sscanfInt_iff : (sscanfInt size (trimSpace f) = some n ∧ 1 ≤ n) ↔ Starts size (trimSpace f) n := by
  unfold sscanfInt Starts InRange
  rw [skipSpace_trimmed]
  constructor
  · rintro ⟨scanned, positive⟩
    split at scanned
    · cases scanned
    next i rest begins =>
      split at scanned
      next fits =>
        cases scanned
        exact ⟨⟨positive, (fits_iff positive).mp fits⟩, rest, scanInteger_iff.mp begins⟩
      · cases scanned
  · rintro ⟨⟨positive, small⟩, rest, begins⟩
    rw [scanInteger_iff.mpr begins]
    exact ⟨if_pos ((fits_iff positive).mpr small), positive⟩

private theorem nonblank_blank {part : Bytes} (blank : trimSpace part = []) (parts : List Bytes) :
    nonblank (part :: parts) = nonblank parts := by
  rw [nonblank, List.map_cons, List.filter_cons_of_neg (by simp [blank]), nonblank]

private theorem nonblank_field {part : Bytes} (visible : trimSpace part ≠ []) (parts : List Bytes) :
    nonblank (part :: parts) = trimSpace part :: nonblank parts := by
  rw [nonblank, List.map_cons, List.filter_cons_of_pos (by simp [visible]), nonblank]

theorem Starts.unique {m : Int} (starts : Starts size f n) (again : Starts size f m) : n = m := by
  obtain ⟨_, rest, begins⟩ := starts
  obtain ⟨_, left, beginsAgain⟩ := again
  exact (begins.unique beginsAgain).1

theorem parseIntsLoop_blank {part : Bytes} (blank : trimSpace part = []) (parts : List Bytes) (out : List Int) :
    parseIntsLoop size (part :: parts) out = parseIntsLoop size parts out := by
  rw [parseIntsLoop, if_pos blank]

/-- A field is read as the count it begins with, and is an error if it begins with none. -/
theorem parseIntsLoop_field {part : Bytes} (visible : trimSpace part ≠ []) (parts : List Bytes) (out : List Int) :
    (∃ n, Starts size (trimSpace part) n ∧ parseIntsLoop size (part :: parts) out = parseIntsLoop size parts (out ++ [n])) ∨
      (∀ n, ¬ Starts size (trimSpace part) n) ∧
        parseIntsLoop size (part :: parts) out = .error (badCount (trimSpace part)) := by
  rw [parseIntsLoop, if_neg visible]
  by_cases count : ∃ n, Starts size (trimSpace part) n
  · obtain ⟨n, starts⟩ := count
    obtain ⟨scanned, positive⟩ := sscanfInt_iff.mpr starts
    rw [scanned]
    exact .inl ⟨n, starts, if_neg (by omega)⟩
  · refine .inr ⟨fun n starts => count ⟨n, starts⟩, ?_⟩
    split
    · rfl
    next n scanned =>
      have small : n < 1 := by
        by_contra positive
        exact count ⟨n, sscanfInt_iff.mp ⟨scanned, by omega⟩⟩
      exact if_pos small

/-- The loop keeps what it has read, and reads every field that is not blank. -/
theorem parseIntsLoop_iff {parts : List Bytes} {out counts : List Int} :
    parseIntsLoop size parts out = .ok counts ↔
      counts ≠ [] ∧ ∃ more, counts = out ++ more ∧ List.Forall₂ (Starts size) (nonblank parts) more := by
  induction parts generalizing out with
  | nil =>
    have none : nonblank [] = [] := rfl
    simp only [parseIntsLoop, none, List.forall₂_nil_left_iff, exists_eq_right, List.append_nil]
    split
    next empty => simp [empty]
    next nonempty => exact ⟨fun parsed => by cases parsed; exact ⟨nonempty, rfl⟩, fun ⟨_, same⟩ => by rw [same]⟩
  | cons part parts ih =>
    by_cases blank : trimSpace part = []
    · rw [parseIntsLoop_blank blank, nonblank_blank blank]
      exact ih
    rw [nonblank_field blank]
    rcases @parseIntsLoop_field size part blank parts out with ⟨n, starts, read⟩ | ⟨none, failed⟩
    · rw [read, ih]
      constructor
      · intro ⟨nonempty, more, same, later⟩
        exact ⟨nonempty, n :: more, by rw [same, List.append_assoc, List.singleton_append], .cons starts later⟩
      · intro ⟨nonempty, _, same, all⟩
        cases all with
        | @cons _ m _ more first later =>
          obtain rfl := first.unique starts
          exact ⟨nonempty, more, by rw [same, List.append_assoc, List.singleton_append], later⟩
    · rw [failed]
      constructor
      · intro parsed
        cases parsed
      · intro ⟨_, _, _, all⟩
        cases all with
        | cons first _ => exact absurd first (none _)

theorem parseIntsLoop_error {parts : List Bytes} {out : List Int} {message : Bytes}
    (failed : parseIntsLoop size parts out = .error message) :
    (nonblank parts = [] ∧ out = [] ∧ message = text "no counts given") ∨
      ∃ read f rest, nonblank parts = read ++ f :: rest ∧ (∀ g ∈ read, ∃ n, Starts size g n) ∧
        (∀ n, ¬ Starts size f n) ∧ message = badCount f := by
  induction parts generalizing out with
  | nil =>
    rw [parseIntsLoop] at failed
    split at failed
    next empty => exact .inl ⟨rfl, empty, (Except.error.inj failed).symm⟩
    · cases failed
  | cons part parts ih =>
    by_cases blank : trimSpace part = []
    · rw [parseIntsLoop_blank blank] at failed
      rw [nonblank_blank blank]
      exact ih failed
    rw [nonblank_field blank]
    rcases @parseIntsLoop_field size part blank parts out with ⟨n, first, read⟩ | ⟨none, bad⟩
    · rw [read] at failed
      rcases ih failed with ⟨_, empty, _⟩ | ⟨before, f, rest, same, starts, none, named⟩
      · simp at empty
      · exact .inr ⟨_ :: before, f, rest, by rw [same]; rfl, List.forall_mem_cons.mpr ⟨⟨n, first⟩, starts⟩, none, named⟩
    · rw [bad] at failed
      exact .inr ⟨[], _, _, rfl, by simp, none, (Except.error.inj failed).symm⟩

end Fields

private theorem forall₂_exists {α β : Type} {R : α → β → Prop} {items : List α} :
    (∃ others, List.Forall₂ R items others) ↔ ∀ item ∈ items, ∃ other, R item other := by
  constructor
  · rintro ⟨others, related⟩
    exact ((List.forall₂_and_left _ _).mp (related.imp fun _ other related => ⟨⟨other, related⟩, related⟩)).1
  · intro each
    induction items with
    | nil => exact ⟨[], .nil⟩
    | cons item items ih =>
      obtain ⟨⟨other, first⟩, later⟩ := List.forall_mem_cons.mp each
      obtain ⟨others, rest⟩ := ih later
      exact ⟨other :: others, .cons first rest⟩

section Lists
variable {size : IntSize} {s : Bytes} {counts : List Int}

theorem parseInts_iff : parseInts size s = .ok counts ↔ counts ≠ [] ∧ List.Forall₂ (Starts size) (fields s) counts := by
  simp only [parseInts, parseIntsLoop_iff, List.nil_append, fields, exists_eq_left']

/-- An error names the first field that begins with no count. -/
theorem parseInts_error {message : Bytes} (failed : parseInts size s = .error message) :
    (fields s = [] ∧ message = text "no counts given") ∨
      ∃ read f rest, fields s = read ++ f :: rest ∧ (∀ g ∈ read, ∃ n, Starts size g n) ∧
        (∀ n, ¬ Starts size f n) ∧ message = badCount f := by
  rcases parseIntsLoop_error failed with ⟨none, _, named⟩ | bad
  · exact .inl ⟨none, named⟩
  · exact .inr bad

/-- Nothing is left over of a field. -/
def Whole (f : Bytes) : Prop := ∀ n rest, Begins f n rest → rest = []

private theorem integer_whole {f : Bytes} {n : Int} : Integer f n ∧ InRange size n ↔ Whole f ∧ Starts size f n := by
  constructor
  · rintro ⟨integer, range⟩
    have begins := begins_whole.mpr integer
    exact ⟨fun _ _ again => (begins.unique again).2.symm, range, [], begins⟩
  · rintro ⟨whole, range, rest, begins⟩
    obtain rfl := whole n rest begins
    exact ⟨begins_whole.mp begins, range⟩

theorem counts_iff : Counts size s counts ↔ parseInts size s = .ok counts ∧ ∀ f ∈ fields s, Whole f := by
  simp only [Counts, integer_whole, List.forall₂_and_left, parseInts_iff]
  constructor
  · rintro ⟨nonempty, whole, starts⟩
    exact ⟨⟨nonempty, starts⟩, whole⟩
  · rintro ⟨⟨nonempty, starts⟩, whole⟩
    exact ⟨nonempty, whole, starts⟩

theorem parseInts_exact (size : IntSize) (s : Bytes) : Exact size s ↔ ¬ Truncates size s := by
  constructor
  · rintro exact ⟨starts, f, inside, n, rest, begins, left⟩
    obtain ⟨counts, starts⟩ := forall₂_exists.mpr starts
    have nonempty : counts ≠ [] := by
      rintro rfl
      rw [List.forall₂_nil_right_iff.mp starts] at inside
      cases inside
    have parsed := parseInts_iff.mpr ⟨nonempty, starts⟩
    have whole := (counts_iff.mp ((exact counts).mp parsed)).2
    exact left (whole f inside n rest begins)
  · intro kept counts
    rw [counts_iff, iff_self_and]
    intro parsed f inside n rest begins
    by_contra left
    have starts := forall₂_exists.mp ⟨counts, (parseInts_iff.mp parsed).2⟩
    exact kept ⟨starts, f, inside, n, rest, begins, left⟩

/-- A list with another separator is read as its first count. -/
theorem separator_unnoticed : parseInts .bits64 (text "1;4;16") = .ok [1] ∧ ¬ Exact .bits64 (text "1;4;16") := by
  refine ⟨by decide, fun exact => ?_⟩
  have counts := (exact [1]).mp (by decide)
  have begins : Begins (text "1;4;16") 1 (text ";4;16") := scanInteger_iff.mp (by decide)
  have whole := (counts_iff.mp counts).2 _ (by decide) 1 _ begins
  exact absurd whole (by decide)

end Lists

end Kvasir.Bench
