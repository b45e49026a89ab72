import Kvasir.Protocol
import Kvasir.Lib.Scanner

/-! What Parse accepts, read off its three-way split, and the converse for the
canonical spelling of each command. -/

namespace Kvasir.Proofs.ProtocolParse
open Protocol Strings

theorem lineEnds_member {byte : UInt8} : byte ∈ lineEnds ↔ byte = carriageReturn ∨ byte = newline := by
  simp [lineEnds]

theorem return_ends : carriageReturn ∈ lineEnds := by decide

theorem newline_ends : newline ∈ lineEnds := by decide

theorem space_kept : space ∉ lineEnds := by decide

theorem last_kept {bytes : Bytes} : (∀ last, bytes.getLast? = some last → last ∉ lineEnds) ↔
    bytes.getLast? ≠ some carriageReturn ∧ bytes.getLast? ≠ some newline := by
  simp only [lineEnds_member, not_or]
  constructor
  · intro kept
    exact ⟨fun ends => (kept _ ends).1 rfl, fun ends => (kept _ ends).2 rfl⟩
  · intro ⟨noReturn, noNewline⟩ last ends
    exact ⟨fun same => noReturn (same ▸ ends), fun same => noNewline (same ▸ ends)⟩

theorem parse_append (line : Bytes) {suffix : Bytes} (ends : ∀ byte ∈ suffix, byte ∈ lineEnds) :
    parse (line ++ suffix) = parse line := by
  simp only [parse, trimRight_append line ends]

theorem parse_dropCR (raw : Bytes) : parse (Scanner.dropCR raw) = parse raw := by
  rcases Scanner.dropCR_split raw with same | same
  · rw [← same]
  · conv => rhs; rw [same]
    exact (parse_append _ (by simp [lineEnds])).symm

private theorem splitN_three (line : Bytes) :
    space ∉ line ∧ splitN space 3 line = [line] ∨
    (∃ word key, space ∉ word ∧ space ∉ key ∧ line = word ++ space :: key ∧ splitN space 3 line = [word, key]) ∨
    (∃ word key value, space ∉ word ∧ space ∉ key ∧ line = word ++ space :: (key ++ space :: value) ∧
      splitN space 3 line = [word, key, value]) := by
  cases first : Lines.cut space line with
  | none =>
    have clean := (Lines.cut_none space).mp first
    exact .inl ⟨clean, splitN_whole clean 2⟩
  | some parts =>
    obtain ⟨word, rest⟩ := parts
    obtain ⟨rfl, wordClean⟩ := Lines.cut_some space first
    rw [splitN_cut wordClean rest 1]
    right
    cases second : Lines.cut space rest with
    | none =>
      have clean := (Lines.cut_none space).mp second
      exact .inl ⟨word, rest, wordClean, clean, rfl, by rw [splitN_whole clean 1]⟩
    | some parts =>
      obtain ⟨key, value⟩ := parts
      obtain ⟨rfl, keyClean⟩ := Lines.cut_some space second
      exact .inr ⟨word, key, value, wordClean, keyClean, rfl, by rw [splitN_cut keyClean value 0]; rfl⟩

def verb : Op → Bytes
  | .get => text "GET"
  | .set => text "SET"
  | .del => text "DEL"

/-- What follows the verb and its space. -/
def operands (command : Command) : Bytes :=
  match command.op with
  | .set => command.key ++ space :: command.value
  | _ => command.key

/-- A command whose fields fit the line format. -/
structure WellFormed (command : Command) : Prop where
  nonempty : command.key ≠ []
  clean : space ∉ command.key
  valueless : command.op ≠ .set → command.value = []

/-- An accepted line, once trimmed, is a spelling of the verb, a space, and the
operands of the command. -/
theorem parse_ok {line : Bytes} {command : Command} (parsed : parse line = .ok command) :
    WellFormed command ∧ ∃ word, space ∉ word ∧ toUpper word = verb command.op ∧
      trimRight lineEnds line = word ++ space :: operands command := by
  simp only [parse] at parsed
  split at parsed
  · cases parsed
  rcases splitN_three (trimRight lineEnds line) with
    ⟨_, split⟩ | ⟨word, key, wordClean, keyClean, shape, split⟩ | ⟨word, key, value, wordClean, keyClean, shape, split⟩
  all_goals simp only [split, List.headD_cons] at parsed
  · split at parsed
    · cases parsed
    · split at parsed <;> cases parsed
  · split at parsed
    next keyed =>
      split at parsed
      · cases parsed
      next nonempty =>
        cases parsed
        by_cases del : toUpper word = text "DEL"
        · simp only [del, if_true]
          exact ⟨⟨nonempty, keyClean, fun _ => rfl⟩, word, wordClean, del, shape⟩
        · simp only [del, if_false]
          exact ⟨⟨nonempty, keyClean, fun _ => rfl⟩, word, wordClean, keyed.resolve_right del, shape⟩
    next => split at parsed <;> cases parsed
  · split at parsed
    · cases parsed
    · split at parsed
      next set =>
        split at parsed
        · cases parsed
        next nonempty =>
          cases parsed
          exact ⟨⟨nonempty, keyClean, fun other => (other rfl).elim⟩, word, wordClean, set, shape⟩
      next => cases parsed

theorem parse_last {line : Bytes} {command : Command} (parsed : parse line = .ok command) {last : UInt8}
    (ends : (operands command).getLast? = some last) : last ∉ lineEnds := by
  obtain ⟨_, word, _, _, shape⟩ := parse_ok parsed
  have trimmed : (trimRight lineEnds line).getLast? = some last := by
    rw [shape, ← List.singleton_append, ← List.append_assoc, List.getLast?_append, ends]
    rfl
  exact trimRight_last trimmed

/-- A SET line ends in a line end exactly when its value does. -/
theorem set_last {key value : Bytes} {last : UInt8} (ends : last ∈ lineEnds) :
    (operands ⟨.set, key, value⟩).getLast? = some last ↔ value.getLast? = some last := by
  rw [operands, List.getLast?_append, List.getLast?_cons]
  cases value.getLast? with
  | none =>
    have other : space ≠ last := fun same => space_kept (same ▸ ends)
    simp [other]
  | some other => simp

/-- Only the two verbs of one key are named by an error. -/
theorem parse_oneKey {line verb : Bytes} (rejected : parse line = .error (.oneKey verb)) :
    verb = text "GET" ∨ verb = text "DEL" := by
  simp only [parse] at rejected
  split at rejected
  · cases rejected
  split at rejected
  next keyed =>
    split at rejected
    · split at rejected <;> cases rejected
      exact keyed
    · cases rejected
      exact keyed
  · split at rejected
    · split at rejected
      · split at rejected <;> cases rejected
      · cases rejected
    · cases rejected

private theorem verb_del_ne_get : text "DEL" ≠ text "GET" := by decide
private theorem verb_set_ne : ¬ (text "SET" = text "GET" ∨ text "SET" = text "DEL") := by decide

theorem parse_word {line word : Bytes} {command : Command} (formed : WellFormed command)
    (clean : space ∉ word) (upper : toUpper word = verb command.op)
    (shape : trimRight lineEnds line = word ++ space :: operands command)
    (visible : trimSpace (trimRight lineEnds line) ≠ []) : parse line = .ok command := by
  obtain ⟨op, key, value⟩ := command
  simp only [parse, if_neg visible]
  rw [shape]
  cases op with
  | get =>
    cases formed.valueless (by simp)
    have split : splitN space 3 (word ++ space :: key) = [word, key] := by
      rw [splitN_cut clean key 1, splitN_whole formed.clean 1]
    simp only [operands, split, List.headD_cons, upper, verb, true_or, if_true, if_neg formed.nonempty,
      if_neg (Ne.symm verb_del_ne_get)]
  | del =>
    cases formed.valueless (by simp)
    have split : splitN space 3 (word ++ space :: key) = [word, key] := by
      rw [splitN_cut clean key 1, splitN_whole formed.clean 1]
    simp only [operands, split, List.headD_cons, upper, verb, or_true, if_true, if_neg formed.nonempty]
  | set =>
    have split : splitN space 3 (word ++ space :: (key ++ space :: value)) = [word, key, value] := by
      rw [splitN_cut clean _ 1, splitN_cut formed.clean value 0]
      rfl
    simp only [operands, split, List.headD_cons, upper, verb, if_neg verb_set_ne, if_true, if_neg formed.nonempty]

/-- The canonical spelling of a command. -/
def spell (command : Command) : Bytes := verb command.op ++ space :: operands command

theorem spell_clean {command : Command} {byte : UInt8} (ends : byte ∈ lineEnds) (clean : byte ∉ operands command) :
    byte ∉ spell command := by
  have word : byte ∉ verb command.op := by
    rcases lineEnds_member.mp ends with rfl | rfl <;> cases command.op <;> decide
  rw [spell, List.mem_append, List.mem_cons, not_or, not_or]
  exact ⟨word, fun same => space_kept (same ▸ ends), clean⟩

private theorem spell_visible (command : Command) : trimSpace (spell command) ≠ [] := by
  obtain ⟨op, key, value⟩ := command
  cases op <;> exact trimSpace_visible (by decide) (by decide) _

/-- The canonical spelling is read back unless its last byte is a line end. -/
theorem parse_spell {command : Command} (formed : WellFormed command) :
    parse (spell command) = .ok command ↔ ∀ last, (operands command).getLast? = some last → last ∉ lineEnds := by
  refine ⟨fun parsed last ends => parse_last parsed ends, fun kept => ?_⟩
  have whole : trimRight lineEnds (spell command) = spell command := by
    apply trimRight_self
    intro last ends
    cases empty : operands command with
    | nil =>
      simp only [spell, empty, List.getLast?_append, List.getLast?_singleton, Option.some_or, Option.some.injEq] at ends
      subst last
      decide
    | cons first rest =>
      apply kept
      simpa [spell, empty, List.getLast?_append, List.getLast?_cons_cons] using ends
  refine parse_word formed ?_ ?_ whole (by rw [whole]; exact spell_visible command)
  · cases command.op <;> decide
  · cases command.op <;> decide

/-- Operands without a newline are spoiled by a carriage return only. -/
theorem parse_spell_clean {command : Command} (formed : WellFormed command) (clean : newline ∉ operands command) :
    parse (spell command) = .ok command ↔ (operands command).getLast? ≠ some carriageReturn := by
  rw [parse_spell formed, last_kept]
  exact and_iff_left fun ends => clean (List.mem_of_getLast? ends)

end Kvasir.Proofs.ProtocolParse
