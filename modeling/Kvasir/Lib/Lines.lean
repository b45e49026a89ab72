import Mathlib.Data.List.Basic
import Mathlib.Data.List.Infix

/-! Sequences cut at a separator. A stream is a list of terminated lines and an
unterminated rest; reading the two back from the stream is unambiguous because
no line contains the separator. -/

namespace Kvasir.Lines

universe u

theorem prefix_at {α : Type u} {first last : List α} (grows : first <+: last) {index : Nat} {value : α}
    (found : first[index]? = some value) : last[index]? = some value := by
  obtain ⟨inside, same⟩ := List.getElem?_eq_some_iff.mp found
  rw [List.prefix_iff_getElem?.mp grows index inside, same]

variable {α : Type u} (separator : α)

/-- Every line followed by its terminator. -/
def unlines (lines : List (List α)) : List α := (lines.map (· ++ [separator])).flatten

@[simp] theorem unlines_nil : unlines separator [] = [] := rfl

@[simp] theorem unlines_cons (line : List α) (lines : List (List α)) :
    unlines separator (line :: lines) = line ++ separator :: unlines separator lines := by
  simp [unlines]

theorem unlines_append (first last : List (List α)) :
    unlines separator (first ++ last) = unlines separator first ++ unlines separator last := by
  simp [unlines]

theorem prefix_line {part line rest : List α} (clean : separator ∉ part)
    (inside : part <+: line ++ separator :: rest) : part <+: line := by
  by_cases short : part.length ≤ line.length
  · exact List.prefix_of_prefix_length_le inside (List.prefix_append ..) short
  · obtain ⟨later, rfl⟩ := List.prefix_of_prefix_length_le (List.prefix_append line (separator :: rest)) inside (by omega)
    rw [List.prefix_append_right_inj] at inside
    cases later with
    | nil => simp
    | cons first later =>
      obtain ⟨same, _⟩ := List.cons_prefix_cons.mp inside
      exact (clean (by simp [same])).elim

section Split
variable [DecidableEq α]

def cut : List α → Option (List α × List α)
  | [] => none
  | first :: rest =>
    if first = separator then some ([], rest)
    else (cut rest).map fun (before, after) => (first :: before, after)

theorem cut_line {line : List α} (clean : separator ∉ line) (rest : List α) :
    cut separator (line ++ separator :: rest) = some (line, rest) := by
  induction line with
  | nil => simp [cut]
  | cons first line ih =>
    have different : first ≠ separator := fun same => clean (by simp [same])
    have remains : separator ∉ line := fun member => clean (by simp [member])
    simp [cut, different, ih remains]

theorem cut_some {stream before after : List α} (found : cut separator stream = some (before, after)) :
    stream = before ++ separator :: after ∧ separator ∉ before := by
  induction stream generalizing before with
  | nil => cases found
  | cons first rest ih =>
    simp only [cut] at found
    split at found
    next same => cases found; exact ⟨by simp [same], by simp⟩
    next different =>
      obtain ⟨⟨inner, last⟩, later, same⟩ := Option.map_eq_some_iff.mp found
      cases same
      obtain ⟨rfl, clean⟩ := ih later
      exact ⟨rfl, by simp [clean, Ne.symm different]⟩

/-- The first line of what has arrived of a stream is the first line of the stream. -/
theorem cut_prefix {stream line rest whole more : List α} (found : cut separator stream = some (line, rest))
    (inside : stream <+: whole ++ separator :: more) (clean : separator ∉ whole) : line = whole ∧ rest <+: more := by
  obtain ⟨rfl, lineClean⟩ := cut_some separator found
  obtain ⟨suffix, same⟩ := inside
  rw [List.append_assoc, List.cons_append] at same
  have first := cut_line separator lineClean (rest ++ suffix)
  rw [same, cut_line separator clean, Option.some.injEq, Prod.mk.injEq] at first
  exact ⟨first.1.symm, suffix, first.2.symm⟩

theorem cut_none {stream : List α} : cut separator stream = none ↔ separator ∉ stream := by
  induction stream with
  | nil => simp [cut]
  | cons first rest ih =>
    by_cases same : first = separator
    · simp [cut, same]
    · simp [cut, same, ih, Ne.symm same]

def complete (stream : List α) : List (List α) := (stream.splitOn separator).dropLast

def rest (stream : List α) : List α := (stream.splitOn separator).getLastD []

private theorem splitOn_unlines {lines : List (List α)} {last : List α}
    (clean : ∀ line ∈ lines, separator ∉ line) (unterminated : separator ∉ last) :
    (unlines separator lines ++ last).splitOn separator = lines ++ [last] := by
  have kept : ∀ {line : List α}, separator ∉ line → ∀ value ∈ line, (value == separator) = false :=
    fun absent value member => beq_eq_false_iff_ne.mpr (fun same => absent (same ▸ member))
  induction lines with
  | nil => exact List.splitOnP_eq_singleton (kept unterminated)
  | cons line lines ih =>
    have later := ih (fun line member => clean line (by simp [member]))
    simp only [unlines_cons, List.append_assoc, List.cons_append, List.splitOn] at later ⊢
    rw [List.splitOnP_append_cons_of_forall_mem (kept (clean line (by simp))) separator (by simp), later]

theorem complete_unlines {lines : List (List α)} {last : List α}
    (clean : ∀ line ∈ lines, separator ∉ line) (unterminated : separator ∉ last) :
    complete separator (unlines separator lines ++ last) = lines := by
  simp [complete, splitOn_unlines separator clean unterminated]

theorem rest_unlines {lines : List (List α)} {last : List α}
    (clean : ∀ line ∈ lines, separator ∉ line) (unterminated : separator ∉ last) :
    rest separator (unlines separator lines ++ last) = last := by
  simp [rest, splitOn_unlines separator clean unterminated]

theorem decompose (stream : List α) : ∃ lines last, stream = unlines separator lines ++ last ∧
    (∀ line ∈ lines, separator ∉ line) ∧ separator ∉ last := by
  generalize length : stream.length = size
  induction size using Nat.strongRecOn generalizing stream with
  | ind size ih =>
    cases found : cut separator stream with
    | none => exact ⟨[], stream, by simp, by simp, (cut_none separator).mp found⟩
    | some parts =>
      obtain ⟨before, after⟩ := parts
      obtain ⟨rfl, clean⟩ := cut_some separator found
      obtain ⟨lines, last, rfl, linesClean, lastClean⟩ := ih after.length (by simp [← length]; omega) after rfl
      exact ⟨before :: lines, last, by simp, by simpa using ⟨clean, linesClean⟩, lastClean⟩

/-- A stream that is still being received can only contain lines of the whole
stream, in order. -/
theorem lines_prefix {lines whole : List (List α)} {last : List α}
    (clean : ∀ line ∈ lines, separator ∉ line) (sent : ∀ line ∈ whole, separator ∉ line)
    (received : unlines separator lines ++ last <+: unlines separator whole) : lines <+: whole := by
  induction lines generalizing whole with
  | nil => exact List.nil_prefix
  | cons line lines ih =>
    obtain ⟨suffix, same⟩ := received
    cases whole with
    | nil => simp at same
    | cons head tail =>
      have first := cut_line separator (clean line (by simp)) (unlines separator lines ++ (last ++ suffix))
      have second := cut_line separator (sent head (by simp)) (unlines separator tail)
      have streams : line ++ separator :: (unlines separator lines ++ (last ++ suffix)) =
          head ++ separator :: unlines separator tail := by simpa using same
      rw [streams, second] at first
      obtain ⟨rfl, tails⟩ := Prod.mk.inj (Option.some.inj first)
      refine List.prefix_cons_inj _ |>.mpr (ih (fun line member => clean line (by simp [member]))
        (fun line member => sent line (by simp [member])) ⟨suffix, ?_⟩)
      simpa using tails.symm

end Split

end Kvasir.Lines
