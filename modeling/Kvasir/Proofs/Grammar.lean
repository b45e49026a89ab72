import Kvasir.Proofs.ProtocolParse
import Kvasir.Server

/-! The language of command lines. A line is accepted exactly when it follows the
grammar, each command has one canonical line, and the verb may be spelled in any
case, which Unicode stretches further than ASCII does. -/

namespace Kvasir.Proofs.Grammar
open Protocol Strings Utf8 ProtocolParse Server

/-- Trimmed lines and the commands they stand for. -/
inductive Follows : Bytes → Command → Prop where
  | get (verb key : Bytes) (clean : space ∉ verb) (upper : toUpper verb = text "GET")
      (nonempty : key ≠ []) (spaceless : space ∉ key) : Follows (verb ++ space :: key) ⟨.get, key, []⟩
  | del (verb key : Bytes) (clean : space ∉ verb) (upper : toUpper verb = text "DEL")
      (nonempty : key ≠ []) (spaceless : space ∉ key) : Follows (verb ++ space :: key) ⟨.del, key, []⟩
  | set (verb key value : Bytes) (clean : space ∉ verb) (upper : toUpper verb = text "SET")
      (nonempty : key ≠ []) (spaceless : space ∉ key) :
      Follows (verb ++ space :: (key ++ space :: value)) ⟨.set, key, value⟩

theorem verb_visible {word : Bytes} {op : Op} (upper : toUpper word = verb op) (more : Bytes) :
    trimSpace (word ++ more) ≠ [] := by
  cases op <;> exact toUpper_visible (by decide) upper (by decide) more

theorem parse_spelled {line word : Bytes} {command : Command} (formed : WellFormed command) (clean : space ∉ word)
    (upper : toUpper word = verb command.op) (shape : trimRight lineEnds line = word ++ space :: operands command) :
    parse line = .ok command :=
  parse_word formed clean upper shape (shape ▸ verb_visible upper _)

theorem parse_follows {line : Bytes} {command : Command} :
    parse line = .ok command ↔ Follows (trimRight lineEnds line) command := by
  constructor
  · intro parsed
    obtain ⟨formed, word, clean, upper, shape⟩ := parse_ok parsed
    obtain ⟨op, key, value⟩ := command
    rw [shape]
    cases op with
    | get => cases formed.valueless (by simp); exact .get word key clean upper formed.nonempty formed.clean
    | del => cases formed.valueless (by simp); exact .del word key clean upper formed.nonempty formed.clean
    | set => exact .set word key value clean upper formed.nonempty formed.clean
  · intro follows
    generalize same : trimRight lineEnds line = trimmed at follows
    cases follows with
    | get verb key clean upper nonempty spaceless | del verb key clean upper nonempty spaceless =>
      exact parse_spelled ⟨nonempty, spaceless, fun _ => rfl⟩ clean upper same
    | set verb key value clean upper nonempty spaceless =>
      exact parse_spelled ⟨nonempty, spaceless, fun other => (other rfl).elim⟩ clean upper same

theorem parse_empty {line : Bytes} :
    parse line = .error .empty ↔ ∀ rune ∈ runes (trimRight lineEnds line), Unicode.isSpace rune.1 = true := by
  rw [← trimSpace_blank]
  simp only [parse]
  constructor
  · intro rejected
    split at rejected
    next blank => exact blank
    next =>
      repeat' split at rejected
      all_goals cases rejected
  · intro blank
    rw [if_pos blank]

/-- Parse accepts the lines of the grammar, and only them, as their commands. Any
other line gives the zero Command and an error, the empty one for blank lines. -/
theorem parse_grammar (line : Bytes) :
    (∀ command, parseResults line = (command, none) ↔ Follows (trimRight lineEnds line) command) ∧
    ((∀ command, ¬ Follows (trimRight lineEnds line) command) →
      ∃ error, parseResults line = (⟨.get, [], []⟩, some error) ∧
        (error = .empty ↔ ∀ rune ∈ runes (trimRight lineEnds line), Unicode.isSpace rune.1 = true)) := by
  refine ⟨fun command => ?_, fun foreign => ?_⟩
  · rw [← parse_follows, parseResults]
    cases parse line <;> simp
  · cases parsed : parse line with
    | ok command => exact absurd (parse_follows.mp parsed) (foreign command)
    | error error =>
      refine ⟨error, by rw [parseResults, parsed], ?_⟩
      rw [← parse_empty, parsed, Except.error.injEq]

private theorem cut_takeWhile {separator : UInt8} {bytes : Bytes} :
    bytes.takeWhile (· ≠ separator) = match Lines.cut separator bytes with
      | some (before, _) => before
      | none => bytes := by
  induction bytes with
  | nil => rfl
  | cons first rest ih =>
    by_cases same : first = separator
    · simp [Lines.cut, same]
    · rw [List.takeWhile_cons_of_pos (by simpa using same), ih, Lines.cut, if_neg same]
      cases Lines.cut separator rest <;> rfl

/-- What a line, its line ends trimmed, holds before its first space. -/
def firstWord (line : Bytes) : Bytes := (trimRight lineEnds line).takeWhile (· ≠ space)

private theorem splitN_head (line : Bytes) : (splitN space 3 (trimRight lineEnds line)).headD [] = firstWord line := by
  rw [firstWord, cut_takeWhile, splitN]
  cases Lines.cut space (trimRight lineEnds line) <;> rfl

/-- The first word decides whether a line is known at all. -/
theorem parse_unknown {line : Bytes} :
    (parse line = .error .empty ∨ ∃ word, parse line = .error (.unknown word)) ↔
      trimSpace (trimRight lineEnds line) = [] ∨ ∀ op, toUpper (firstWord line) ≠ verb op := by
  by_cases blank : trimSpace (trimRight lineEnds line) = []
  · simp [parse, blank]
  have known : ∀ op, toUpper (firstWord line) = verb op →
      ¬ (trimSpace (trimRight lineEnds line) = [] ∨ ∀ op, toUpper (firstWord line) ≠ verb op) :=
    fun op same => not_or.mpr ⟨blank, fun foreign => foreign op same⟩
  simp only [parse, splitN_head, if_neg blank]
  split
  next keyed =>
    have named := keyed.elim (known .get) (known .del)
    refine iff_of_false (fun rejected => ?_) named
    repeat' split at rejected
    all_goals simp at rejected
  next other =>
    split
    next set =>
      refine iff_of_false (fun rejected => ?_) (known .set set)
      repeat' split at rejected
      all_goals simp at rejected
    next unset =>
      refine iff_of_true (.inr ⟨_, rfl⟩) (.inr fun op => ?_)
      cases op with
      | get => exact fun same => other (.inl same)
      | del => exact fun same => other (.inr same)
      | set => exact unset

/-- The word that an error echoes. -/
theorem unknown_word {line word : Bytes} (rejected : parse line = .error (.unknown word)) : word = firstWord line := by
  simp only [parse, splitN_head] at rejected
  split at rejected
  · cases rejected
  split at rejected
  · split at rejected
    · split at rejected <;> cases rejected
    · cases rejected
  split at rejected
  · split at rejected
    · split at rejected <;> cases rejected
    · cases rejected
  cases rejected
  rfl

/-- A verb in ASCII letters of any case. -/
def Verb (word : Bytes) : Prop := ∃ op, word.map asciiUpper = verb op

/-- SET spelled with the long s, U+017F. -/
def LongSet (word : Bytes) : Prop := word.map asciiUpper = [0xC5, 0xBF, 0x45, 0x54]

theorem toUpper_verb {word : Bytes} {op : Op} :
    toUpper word = verb op ↔ word.map asciiUpper = verb op ∨ op = .set ∧ LongSet word := by
  cases op with
  | get | del => rw [toUpper_plain (by decide)]; simp
  | set => rw [show verb .set = 0x53 :: [0x45, 0x54] from rfl, toUpper_long (by decide)]; simp [LongSet]

/-- Only documented verbs are commands; with any other first word a line is
unknown, or empty, and does nothing. -/
structure Documented (line : Bytes) : Prop where
  accepted : ∀ command, parse line = .ok command → Verb (firstWord line)
  rejected : ¬ Verb (firstWord line) →
    (parse line = .error .empty ∨ ∃ word, parse line = .error (.unknown word)) ∧ ∀ store, (answer store line).1 = store

/-- The long s is the only other spelling of a verb. -/
theorem documented_verbs (line : Bytes) : Documented line ↔ ¬ LongSet (firstWord line) := by
  have whole : firstWord line ++ (trimRight lineEnds line).dropWhile (· ≠ space) = trimRight lineEnds line :=
    List.takeWhile_append_dropWhile
  constructor
  · intro ⟨_, rejected⟩ long
    have foreign : ¬ Verb (firstWord line) := by
      intro ⟨op, same⟩
      rw [LongSet, same] at long
      revert long
      cases op <;> decide
    have upper : toUpper (firstWord line) = verb .set := toUpper_verb.mpr (.inr ⟨rfl, long⟩)
    rcases parse_unknown.mp (rejected foreign).1 with blank | other
    · exact verb_visible upper _ (whole ▸ blank)
    · exact other .set upper
  · intro plain
    have unknown : ¬ Verb (firstWord line) → parse line = .error .empty ∨ ∃ word, parse line = .error (.unknown word) := by
      intro foreign
      refine parse_unknown.mpr (.inr fun op upper => ?_)
      rcases toUpper_verb.mp upper with same | ⟨_, long⟩
      · exact foreign ⟨op, same⟩
      · exact plain long
    refine ⟨fun command parsed => ?_, fun foreign => ⟨unknown foreign, fun store => ?_⟩⟩
    · by_contra foreign
      rcases unknown foreign with empty | ⟨word, other⟩
      · cases parsed.symm.trans empty
      · cases parsed.symm.trans other
    · rcases unknown foreign with empty | ⟨word, other⟩
      · rw [answer_error store empty]
      · rw [answer_error store other]

/-- The line "ſET k v". -/
theorem long_set_accepted : parse ([0xC5, 0xBF] ++ text "ET k v") = .ok ⟨.set, text "k", text "v"⟩ ∧
    ¬ Documented ([0xC5, 0xBF] ++ text "ET k v") := by
  have parsed : parse ([0xC5, 0xBF] ++ text "ET k v") = .ok ⟨.set, text "k", text "v"⟩ := by decide
  refine ⟨parsed, fun documented => ?_⟩
  obtain ⟨op, same⟩ := documented.accepted _ parsed
  revert same
  cases op <;> decide

/-- The commands Parse can return. -/
structure Canonical (command : Command) : Prop where
  nonempty : command.key ≠ []
  spaceless : space ∉ command.key
  keyed : command.op ≠ .set → command.value = [] ∧
    command.key.getLast? ≠ some carriageReturn ∧ command.key.getLast? ≠ some newline
  valued : command.op = .set → command.value.getLast? ≠ some carriageReturn ∧ command.value.getLast? ≠ some newline

theorem canonical_iff {command : Command} :
    Canonical command ↔ WellFormed command ∧ ∀ last, (operands command).getLast? = some last → last ∉ lineEnds := by
  obtain ⟨op, key, value⟩ := command
  rw [last_kept]
  cases op with
  | set =>
    rw [ne_eq, ne_eq, set_last return_ends, set_last newline_ends]
    constructor
    · intro canonical
      exact ⟨⟨canonical.nonempty, canonical.spaceless, by simp⟩, canonical.valued rfl⟩
    · rintro ⟨formed, kept⟩
      exact ⟨formed.nonempty, formed.clean, by simp, fun _ => kept⟩
  | get | del =>
    constructor
    · intro canonical
      obtain ⟨empty, kept⟩ := canonical.keyed (by simp)
      exact ⟨⟨canonical.nonempty, canonical.spaceless, fun _ => empty⟩, kept⟩
    · rintro ⟨formed, kept⟩
      exact ⟨formed.nonempty, formed.clean, fun other => ⟨formed.valueless other, kept⟩, by simp⟩

theorem parse_canonical {command : Command} : (∃ line, parse line = .ok command) ↔ Canonical command := by
  rw [canonical_iff]
  constructor
  · intro ⟨line, parsed⟩
    exact ⟨(parse_ok parsed).1, fun last ends => parse_last parsed ends⟩
  · intro ⟨formed, kept⟩
    exact ⟨spell command, (parse_spell formed).mpr kept⟩

private theorem parse_case {word other rest : Bytes} {command : Command} (clean : space ∉ word)
    (same : other.map asciiUpper = word.map asciiUpper) (parsed : parse (word ++ space :: rest) = .ok command) :
    parse (other ++ space :: rest) = .ok command := by
  obtain ⟨formed, verb, verbClean, upper, shape⟩ := parse_ok parsed
  rw [trimRight_kept space_kept] at shape
  have cut := Lines.cut_line space clean (trimRight lineEnds rest)
  rw [shape, Lines.cut_line space verbClean, Option.some.injEq, Prod.mk.injEq] at cut
  obtain ⟨rfl, rest⟩ := cut
  have otherClean : space ∉ other := by
    intro member
    have upperSpace : space ∈ other.map asciiUpper := List.mem_map.mpr ⟨space, member, by decide⟩
    rw [same] at upperSpace
    obtain ⟨byte, inside, isSpace⟩ := List.mem_map.mp upperSpace
    exact clean (asciiUpper_space isSpace ▸ inside)
  refine parse_spelled formed otherClean ?_ (by rw [trimRight_kept space_kept, rest])
  rw [toUpper_verb, LongSet, same]
  exact toUpper_verb.mp upper

/-- Each command has one canonical line, which is read back; line ends after a line
and the case of its verb do not matter. -/
theorem parse_round_trip :
    (∀ line command, parse line = .ok command → parse (spell command) = .ok command) ∧
    (∀ command, (∃ line, parse line = .ok command) ↔ Canonical command) ∧
    (∀ line command suffix, parse line = .ok command → (∀ byte ∈ suffix, byte = carriageReturn ∨ byte = newline) →
      parse (line ++ suffix) = .ok command) ∧
    ∀ word other rest command, space ∉ word → other.map asciiUpper = word.map asciiUpper →
      parse (word ++ space :: rest) = .ok command → parse (other ++ space :: rest) = .ok command := by
  refine ⟨fun line command parsed => ?_, fun command => parse_canonical, fun line command suffix parsed ends => ?_,
    fun word other rest command clean same parsed => parse_case clean same parsed⟩
  · obtain ⟨formed, kept⟩ := canonical_iff.mp (parse_canonical.mp ⟨line, parsed⟩)
    exact (parse_spell formed).mpr kept
  · rw [parse_append line fun byte member => lineEnds_member.mpr (ends byte member), parsed]

theorem parse_round_trip_blank : parse (text "sEt" ++ space :: (text "k  " ++ text "\r\n\r")) = .ok ⟨.set, text "k", text " "⟩ :=
  parse_round_trip.2.2.2 (text "SET") _ _ _ (by decide) (by decide)
    (parse_round_trip.2.2.1 (text "SET k  ") _ (text "\r\n\r") (by decide) (by simp [text, carriageReturn, newline]))

end Kvasir.Proofs.Grammar
