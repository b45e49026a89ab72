import Kvasir.Lib.Strings
import Mathlib.Data.List.TakeWhile

/-! A buffered line scanner. It hands over terminated lines as they appear in
the buffer, and once reading has failed for any reason it hands over a nonempty
unterminated rest as one last token. A full buffer without a line end stops it.

`Tokens` says what the tokens of a scanner have to do with the bytes it read,
however those bytes were split into reads. -/

namespace Kvasir

structure Scanner where
  pending : Bytes := []
  failed : Bool := false
  deriving DecidableEq, Repr

namespace Scanner
open Strings

def maxTokenSize : Nat := 65536

def dropCR (line : Bytes) : Bytes :=
  if line.getLast? = some carriageReturn then line.dropLast else line

/-- What the next call can do: hand over a token, wait for a read, or stop. -/
inductive Scan where
  | token (line : Bytes) (after : Scanner)
  | read
  | stop
  deriving DecidableEq, Repr

def scan (scanner : Scanner) : Scan :=
  match Lines.cut newline scanner.pending with
  | some (line, rest) => .token (dropCR line) { scanner with pending := rest }
  | none =>
    if scanner.failed then
      if scanner.pending = [] then .stop
      else .token (dropCR scanner.pending) { scanner with pending := [] }
    else if maxTokenSize ≤ scanner.pending.length then .stop
    else .read

def room (scanner : Scanner) : Nat := maxTokenSize - scanner.pending.length

def read (scanner : Scanner) (chunk : Bytes) : Scanner := { scanner with pending := scanner.pending ++ chunk }

def fail (scanner : Scanner) : Scanner := { scanner with failed := true }

theorem dropCR_crlf (line : Bytes) : dropCR (line ++ [carriageReturn]) = line := by
  simp [dropCR]

theorem dropCR_self {line : Bytes} (clean : carriageReturn ∉ line) : dropCR line = line :=
  if_neg fun ends => clean (List.mem_of_getLast? ends)

theorem dropCR_split (line : Bytes) : line = dropCR line ∨ line = dropCR line ++ [carriageReturn] := by
  unfold dropCR
  split
  next ends =>
    right
    obtain ⟨front, rfl⟩ := List.getLast?_eq_some_iff.mp ends
    simp
  next => exact .inl rfl

theorem dropCR_clean {separator : UInt8} {line : Bytes} (clean : separator ∉ line) : separator ∉ dropCR line := by
  rcases dropCR_split line with same | same
  · rwa [← same]
  · rw [same] at clean
    exact fun member => clean (by simp [member])

theorem scan_token {scanner after : Scanner} {line : Bytes} (scanned : scanner.scan = .token line after) :
    (∃ raw, line = dropCR raw ∧ newline ∉ raw ∧ scanner.pending = raw ++ newline :: after.pending ∧
      after.failed = scanner.failed) ∨
    (scanner.failed = true ∧ newline ∉ scanner.pending ∧ scanner.pending ≠ [] ∧
      line = dropCR scanner.pending ∧ after = { scanner with pending := [] }) := by
  unfold scan at scanned
  split at scanned
  next raw rest found =>
    cases scanned
    obtain ⟨same, clean⟩ := Lines.cut_some newline found
    exact .inl ⟨raw, rfl, clean, same, rfl⟩
  next absent =>
    right
    split at scanned
    next failed =>
      split at scanned
      · cases scanned
      next nonempty =>
        cases scanned
        exact ⟨failed, (Lines.cut_none newline).mp absent, nonempty, rfl, rfl⟩
    next => split at scanned <;> cases scanned

theorem scan_failed {scanner after : Scanner} {line : Bytes} (scanned : scanner.scan = .token line after) :
    after.failed = scanner.failed := by
  rcases scan_token scanned with ⟨_, _, _, _, kept⟩ | ⟨_, _, _, _, rfl⟩
  · exact kept
  · rfl

theorem scan_read {scanner : Scanner} (waiting : scanner.scan = .read) :
    newline ∉ scanner.pending ∧ scanner.failed = false ∧ scanner.pending.length < maxTokenSize := by
  unfold scan at waiting
  split at waiting
  · cases waiting
  next absent =>
    split at waiting
    · split at waiting <;> cases waiting
    next running =>
      split at waiting
      · cases waiting
      next bounded => exact ⟨(Lines.cut_none newline).mp absent, by simpa using running, Nat.lt_of_not_le bounded⟩

theorem scan_stop {scanner : Scanner} (stopped : scanner.scan = .stop) :
    newline ∉ scanner.pending ∧
      (scanner.failed = true ∧ scanner.pending = [] ∨
        scanner.failed = false ∧ maxTokenSize ≤ scanner.pending.length) := by
  unfold scan at stopped
  split at stopped
  · cases stopped
  next absent =>
    refine ⟨(Lines.cut_none newline).mp absent, ?_⟩
    split at stopped
    next failed =>
      split at stopped
      next empty => exact .inl ⟨failed, empty⟩
      next => cases stopped
    next running =>
      split at stopped
      next full => exact .inr ⟨by simpa using running, full⟩
      next => cases stopped

/-- A line the buffer can hold together with its terminator. -/
def Fits (line : Bytes) : Prop := line.length < maxTokenSize

instance (line : Bytes) : Decidable (Fits line) := inferInstanceAs (Decidable (_ < _))

/-- The bytes read so far, the tokens handed over for them, and what is left in
the buffer. Only the last token may come from an unterminated rest. -/
inductive Tokens (received : Bytes) (delivered : List Bytes) (scanner : Scanner) : Prop
  | terminated (raws : List Bytes)
      (clean : ∀ raw ∈ raws, newline ∉ raw) (fits : ∀ raw ∈ raws, Fits raw)
      (bounded : scanner.pending.length ≤ maxTokenSize)
      (ended : scanner.failed = true → newline ∉ scanner.pending ∧ Fits scanner.pending)
      (stream : received = Lines.unlines newline raws ++ scanner.pending)
      (tokens : delivered = raws.map dropCR)
  | unterminated (raws : List Bytes) (last : Bytes)
      (clean : ∀ raw ∈ raws, newline ∉ raw) (fits : ∀ raw ∈ raws, Fits raw)
      (nonempty : last ≠ []) (lastClean : newline ∉ last) (failed : scanner.failed = true)
      (empty : scanner.pending = [])
      (stream : received = Lines.unlines newline raws ++ last)
      (tokens : delivered = raws.map dropCR ++ [dropCR last])

namespace Tokens
variable {received : Bytes} {delivered : List Bytes} {scanner : Scanner}

theorem initial : Tokens [] [] {} :=
  .terminated [] (by simp) (by simp) (by simp) (by simp) rfl rfl

theorem read (tokens : Tokens received delivered scanner) (waiting : scanner.scan = .read) {chunk : Bytes}
    (room : chunk.length ≤ scanner.room) : Tokens (received ++ chunk) delivered (scanner.read chunk) := by
  obtain ⟨_, running, bound⟩ := scan_read waiting
  cases tokens with
  | terminated raws clean fits bounded ended stream tokens =>
    refine .terminated raws clean fits ?_ (by simp [Scanner.read, running]) (by simp [stream, Scanner.read]) tokens
    simp only [Scanner.read, List.length_append, Scanner.room] at room ⊢
    omega
  | unterminated raws last clean fits nonempty lastClean failed => simp [running] at failed

theorem fail (tokens : Tokens received delivered scanner) (waiting : scanner.scan = .read) :
    Tokens received delivered scanner.fail := by
  obtain ⟨clear, running, bound⟩ := scan_read waiting
  cases tokens with
  | terminated raws clean fits bounded ended stream tokens =>
    exact .terminated raws clean fits bounded (fun _ => ⟨clear, bound⟩) stream tokens
  | unterminated raws last clean fits nonempty lastClean failed => simp [running] at failed

theorem token (tokens : Tokens received delivered scanner) {line : Bytes} {after : Scanner}
    (scanned : scanner.scan = .token line after) : Tokens received (delivered ++ [line]) after := by
  cases tokens with
  | terminated raws clean fits bounded ended stream tokens =>
    rcases scan_token scanned with ⟨raw, rfl, clear, split, kept⟩ | ⟨failed, clear, nonempty, rfl, rfl⟩
    · have lengths : scanner.pending.length = raw.length + (after.pending.length + 1) := by simp [split]
      have running : scanner.failed = true → False := fun failed => (ended failed).1 (by simp [split])
      refine .terminated (raws ++ [raw]) ?_ ?_ (by omega) (fun failed => (running (kept ▸ failed)).elim) ?_ (by simp [tokens])
      · simpa [or_imp, forall_and] using ⟨clean, clear⟩
      · simp only [List.mem_append, List.mem_singleton, or_imp, forall_and, forall_eq]
        exact ⟨fits, by simp only [Fits]; omega⟩
      · simp [stream, split, Lines.unlines_append]
    · exact .unterminated raws scanner.pending clean fits nonempty clear failed rfl stream (by simp [tokens])
  | unterminated raws last clean fits nonempty lastClean failed empty =>
    rcases scan_token scanned with ⟨raw, rfl, clear, split, kept⟩ | ⟨_, _, present, _⟩
    · simp [empty] at split
    · exact absurd empty present

theorem clean (tokens : Tokens received delivered scanner) {line : Bytes} (handed : line ∈ delivered) : newline ∉ line := by
  have mapped : ∀ {raws : List Bytes}, (∀ raw ∈ raws, newline ∉ raw) → line ∈ raws.map dropCR → newline ∉ line := by
    intro raws clean member
    obtain ⟨raw, inside, rfl⟩ := List.mem_map.mp member
    exact dropCR_clean (clean raw inside)
  cases tokens with
  | terminated raws clean fits bounded ended stream tokens => exact mapped clean (tokens ▸ handed)
  | unterminated raws last clean fits nonempty lastClean failed empty stream tokens =>
    rw [tokens] at handed
    rcases List.mem_append.mp handed with whole | cut
    · exact mapped clean whole
    · rw [List.mem_singleton.mp cut]
      exact dropCR_clean lastClean

/-- Tokens are the terminated lines in order, or all of them and then the
nonempty unterminated rest. -/
theorem delivered_lines (tokens : Tokens received delivered scanner) :
    delivered <+: (Lines.complete newline received).map dropCR ∨
      scanner.failed = true ∧ Lines.rest newline received ≠ [] ∧
        delivered = (Lines.complete newline received).map dropCR ++ [dropCR (Lines.rest newline received)] := by
  cases tokens with
  | terminated raws clean fits bounded ended stream tokens =>
    left
    rw [stream, tokens]
    obtain ⟨lines, rest, same, linesClean, restClean⟩ := Lines.decompose newline scanner.pending
    have allClean : ∀ raw ∈ raws ++ lines, newline ∉ raw := by
      simpa [or_imp, forall_and] using ⟨clean, linesClean⟩
    have whole := Lines.complete_unlines newline allClean restClean
    rw [same, ← List.append_assoc, ← Lines.unlines_append, whole, List.map_append]
    exact List.prefix_append ..
  | unterminated raws last clean fits nonempty lastClean failed empty stream tokens =>
    right
    have lines := Lines.complete_unlines newline clean lastClean
    have last' := Lines.rest_unlines newline clean lastClean
    rw [stream, lines, last']
    exact ⟨failed, nonempty, tokens⟩

/-- A stream of one line gives that line, or what there was of it when reading
failed. -/
theorem one_line (tokens : Tokens received delivered scanner) {line : Bytes} (clean : newline ∉ line)
    (prefixed : received <+: line ++ [newline]) : ∃ front, front <+: line ∧ delivered <+: [dropCR front] ∧
      (front = line ∨ scanner.failed = true ∧ received ≠ line ++ [newline]) := by
  rcases List.prefix_concat_iff.mp prefixed with rfl | part
  · have single : ∀ whole ∈ [line], newline ∉ whole := by simpa using clean
    have nothing : newline ∉ ([] : Bytes) := List.not_mem_nil
    have complete : Lines.complete newline (line ++ [newline]) = [line] := by
      simpa using Lines.complete_unlines newline single nothing
    have rest : Lines.rest newline (line ++ [newline]) = [] := by
      simpa using Lines.rest_unlines newline single nothing
    rcases tokens.delivered_lines with handed | ⟨_, nonempty, _⟩
    · rw [complete] at handed
      exact ⟨line, List.prefix_refl line, handed, .inl rfl⟩
    · exact absurd rest nonempty
  · have unterminated : newline ∉ received := fun member => clean (part.subset member)
    have none : ∀ whole ∈ ([] : List Bytes), newline ∉ whole := by simp
    have complete : Lines.complete newline received = [] := by
      simpa using Lines.complete_unlines newline none unterminated
    have rest : Lines.rest newline received = received := by
      simpa using Lines.rest_unlines newline none unterminated
    rcases tokens.delivered_lines with handed | ⟨failed, _, handed⟩
    · rw [complete, List.map_nil, List.prefix_nil] at handed
      exact ⟨line, List.prefix_refl line, by simp [handed], .inl rfl⟩
    · rw [complete, rest] at handed
      refine ⟨received, part, by simp [handed], .inr ⟨failed, fun same => ?_⟩⟩
      have short := part.length_le
      rw [same, List.length_append, List.length_singleton] at short
      omega

/-- For a client that sends whole lines, tokens are the lines that fit, in
order, up to the first that does not; the scanner stops exactly there. -/
theorem whole_lines (tokens : Tokens received delivered scanner) {whole : List Bytes}
    (sent : ∀ line ∈ whole, newline ∉ line) (prefixed : received <+: Lines.unlines newline whole)
    (all : scanner.failed = true → received = Lines.unlines newline whole) :
    ∃ raws, delivered = raws.map dropCR ∧ raws <+: whole.takeWhile (Fits ·) ∧
      (scanner.scan = .stop → raws = whole.takeWhile (Fits ·)) := by
  cases tokens with
  | unterminated raws last clean fits nonempty lastClean failed empty stream =>
    have rest := Lines.rest_unlines newline clean lastClean
    have none := Lines.rest_unlines newline sent List.not_mem_nil
    rw [← stream, all failed, ← List.append_nil (Lines.unlines newline whole), none] at rest
    exact absurd rest.symm nonempty
  | terminated raws clean fits bounded ended stream tokens =>
    have lines : raws <+: whole := Lines.lines_prefix newline clean sent (stream ▸ prefixed)
    obtain ⟨later, rfl⟩ := lines
    have taken : (raws ++ later).takeWhile (Fits ·) = raws ++ later.takeWhile (Fits ·) :=
      List.takeWhile_append_of_pos (by simpa using fits)
    refine ⟨raws, tokens, by simp [taken], ?_⟩
    intro stopped
    rw [taken]
    obtain ⟨clear, ⟨failed, empty⟩ | ⟨running, full⟩⟩ := scan_stop stopped
    · have same := all failed
      rw [stream, empty, Lines.unlines_append] at same
      cases later with
      | nil => simp
      | cons line later => simp at same
    · cases later with
      | nil =>
        rw [stream, List.append_nil] at prefixed
        have short := prefixed.length_le
        simp only [List.length_append] at short
        have positive : 0 < maxTokenSize := by decide
        omega
      | cons line later =>
        rw [stream, Lines.unlines_append, List.prefix_append_right_inj, Lines.unlines_cons] at prefixed
        have inside : scanner.pending <+: line := by
          apply Lines.prefix_line newline clear prefixed
        have long : ¬ Fits line := by
          have := inside.length_le
          simp only [Fits]
          omega
        simp [long]

end Tokens

end Scanner

end Kvasir
