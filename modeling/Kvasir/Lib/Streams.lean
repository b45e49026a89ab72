import Kvasir.Lib.Scanner

/-! What a scanner makes of a whole stream of bytes: its lines up to the first that
does not fit the buffer, and the unterminated rest where there is no such line. How
the stream is split into reads, and when, makes no difference. -/

namespace Kvasir.Scanner
open Strings

/-- The tokens of a stream that is read to its end. -/
def tokens (stream : Bytes) : List Bytes :=
  let lines := Lines.complete newline stream
  let rest := Lines.rest newline stream
  (lines.takeWhile (Fits ·) ++
    if (∀ line ∈ lines, Fits line) ∧ rest ≠ [] ∧ Fits rest then [rest] else []).map dropCR

theorem tokens_line {line : Bytes} (clean : newline ∉ line) (stream : Bytes) :
    tokens (line ++ newline :: stream) = if Fits line then dropCR line :: tokens stream else [] := by
  obtain ⟨lines, last, rfl, linesClean, lastClean⟩ := Lines.decompose newline stream
  have all : ∀ whole ∈ line :: lines, newline ∉ whole := List.forall_mem_cons.mpr ⟨clean, linesClean⟩
  have stream : line ++ newline :: (Lines.unlines newline lines ++ last) = Lines.unlines newline (line :: lines) ++ last := by simp
  simp only [tokens]
  rw [stream, Lines.complete_unlines newline all lastClean, Lines.rest_unlines newline all lastClean,
    Lines.complete_unlines newline linesClean lastClean, Lines.rest_unlines newline linesClean lastClean]
  by_cases fits : Fits line <;> simp [fits]

theorem tokens_rest {last : Bytes} (clean : newline ∉ last) :
    tokens last = if last ≠ [] ∧ Fits last then [dropCR last] else [] := by
  have none : ∀ whole ∈ ([] : List Bytes), newline ∉ whole := by simp
  have complete := Lines.complete_unlines newline none clean
  have rest := Lines.rest_unlines newline none clean
  simp only [Lines.unlines_nil, List.nil_append] at complete rest
  simp only [tokens, complete, rest]
  split <;> simp_all

/-- What is still to come is what the buffer and the unread bytes will give. -/
structure Yields (received : Bytes) (delivered : List Bytes) (scanner : Scanner) : Prop where
  bounded : scanner.pending.length ≤ maxTokenSize
  ended : scanner.failed = true → Fits scanner.pending
  later : ∀ unread, (scanner.failed = true → unread = []) →
    tokens (received ++ unread) = delivered ++ tokens (scanner.pending ++ unread)

namespace Yields
variable {received : Bytes} {delivered : List Bytes} {scanner : Scanner}

theorem initial : Yields [] [] {} := ⟨by simp, by simp, fun _ _ => rfl⟩

theorem read (yields : Yields received delivered scanner) (waiting : scanner.scan = .read) {chunk : Bytes}
    (room : chunk.length ≤ scanner.room) : Yields (received ++ chunk) delivered (scanner.read chunk) := by
  obtain ⟨_, running, bound⟩ := scan_read waiting
  refine ⟨?_, by simp [Scanner.read, running], fun unread _ => ?_⟩
  · simp only [Scanner.read, List.length_append, Scanner.room] at room ⊢
    omega
  · have same := yields.later (chunk ++ unread) (by simp [running])
    simpa [Scanner.read] using same

theorem fail (yields : Yields received delivered scanner) (waiting : scanner.scan = .read) :
    Yields received delivered scanner.fail := by
  obtain ⟨_, running, bound⟩ := scan_read waiting
  exact ⟨yields.bounded, fun _ => bound, fun unread _ => yields.later unread (by simp [running])⟩

theorem token (yields : Yields received delivered scanner) {line : Bytes} {after : Scanner}
    (scanned : scanner.scan = .token line after) : Yields received (delivered ++ [line]) after := by
  have kept := scan_failed scanned
  obtain ⟨bounded, ended, later⟩ := yields
  rcases scan_token scanned with ⟨raw, rfl, clean, split, _⟩ | ⟨failed, clean, nonempty, rfl, rfl⟩
  · have lengths : scanner.pending.length = raw.length + (after.pending.length + 1) := by simp [split]
    have fits : Fits raw := by
      simp only [Fits]
      omega
    refine ⟨by omega, fun failed => ?_, fun unread finished => ?_⟩
    · have short := ended (kept ▸ failed)
      simp only [Fits] at short ⊢
      omega
    · rw [later unread (kept ▸ finished), split, List.append_assoc, List.cons_append, tokens_line clean, if_pos fits]
      simp
  · refine ⟨by simp, fun _ => by simp [Fits, maxTokenSize], fun unread finished => ?_⟩
    obtain rfl := finished failed
    rw [later [] fun _ => rfl, List.append_nil, tokens_rest clean, if_pos ⟨nonempty, ended failed⟩]
    simp [tokens_rest]

/-- A scanner that stops has handed over all the tokens there are. -/
theorem stop (yields : Yields received delivered scanner) (stopped : scanner.scan = .stop) {unread : Bytes}
    (finished : scanner.failed = true → unread = []) : delivered = tokens (received ++ unread) := by
  have nothing : tokens (scanner.pending ++ unread) = [] := by
    obtain ⟨clean, ⟨failed, empty⟩ | ⟨_, full⟩⟩ := scan_stop stopped
    · simp [empty, finished failed, tokens_rest]
    · -- Whatever comes next, the line that fills the buffer does not fit.
      obtain ⟨lines, last, rfl, linesClean, lastClean⟩ := Lines.decompose newline unread
      cases lines with
      | nil =>
        rw [Lines.unlines_nil, List.nil_append, tokens_rest (by simp [clean, lastClean]), if_neg]
        simp only [Fits, List.length_append]
        omega
      | cons line lines =>
        have whole : newline ∉ scanner.pending ++ line := by simp [clean, (List.forall_mem_cons.mp linesClean).1]
        rw [Lines.unlines_cons, List.append_assoc, List.cons_append, ← List.append_assoc, tokens_line whole, if_neg]
        simp only [Fits, List.length_append]
        omega
  rw [yields.later unread finished, nothing, List.append_nil]

theorem prefixed (yields : Yields received delivered scanner) {unread : Bytes} (finished : scanner.failed = true → unread = []) :
    delivered <+: tokens (received ++ unread) := by
  rw [yields.later unread finished]
  exact List.prefix_append ..

end Yields

end Kvasir.Scanner
