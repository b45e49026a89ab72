import Kvasir.Lib.Lines
import Kvasir.Lib.Unicode
import Mathlib.Data.List.DropRight

/-! Byte-string functions of the standard library: trimming, splitting, case
mapping, quoting and decimal formatting. -/

namespace Kvasir.Strings
open Utf8

def newline : UInt8 := 0x0A
def carriageReturn : UInt8 := 0x0D
def space : UInt8 := 0x20

def trimRight (cutset bytes : Bytes) : Bytes := bytes.rdropWhile (cutset.contains ·)

def trimSpace (bytes : Bytes) : Bytes :=
  let blank := fun (rune : Nat × Bytes) => Unicode.isSpace rune.1
  (((runes bytes).dropWhile blank).rdropWhile blank).flatMap Prod.snd

/-- Skip leading white space, up to a newline. -/
def skipSpace (bytes : Bytes) : Bytes :=
  ((runes bytes).dropWhile fun rune => Unicode.isSpace rune.1 && rune.1 != 0x0A).flatMap Prod.snd

/-- At most `count` parts; the last one is the unsplit remainder. -/
def splitN (separator : UInt8) : Nat → Bytes → List Bytes
  | 0, _ => []
  | 1, bytes => [bytes]
  | count + 2, bytes =>
    match Lines.cut separator bytes with
    | some (before, after) => before :: splitN separator (count + 1) after
    | none => [bytes]

/-- Map every rune to upper case; an invalid byte becomes the replacement rune. -/
def toUpper (bytes : Bytes) : Bytes :=
  (runes bytes).flatMap fun (rune, _) => encodeRune (Unicode.toUpper rune)

def hexDigit (value : Nat) : UInt8 := (text "0123456789abcdef").getD (value % 16) 0x30

def hexDigits : Nat → Nat → Bytes
  | 0, _ => []
  | count + 1, value => hexDigit (value >>> (4 * count)) :: hexDigits count value

/-- A rune that is not printable, as an escape sequence. -/
def escapeControl (rune : Nat) : Bytes :=
  if rune = 0x07 then text "\\a"
  else if rune = 0x08 then text "\\b"
  else if rune = 0x0C then text "\\f"
  else if rune = 0x0A then text "\\n"
  else if rune = 0x0D then text "\\r"
  else if rune = 0x09 then text "\\t"
  else if rune = 0x0B then text "\\v"
  else if rune < 0x20 ∨ rune = 0x7F then text "\\x" ++ hexDigits 2 rune
  else
    let rune := if validRune rune then rune else runeError
    if rune < 0x10000 then text "\\u" ++ hexDigits 4 rune else text "\\U" ++ hexDigits 8 rune

def escapeRune (rune : Nat) : Bytes :=
  if rune = 0x22 ∨ rune = 0x5C then [0x5C, UInt8.ofNat rune]
  else if Unicode.isPrint rune then encodeRune rune
  else escapeControl rune

/-- A double-quoted literal; a byte outside any encoding is written in hex. -/
def quote (bytes : Bytes) : Bytes :=
  let body := (runes bytes).flatMap fun (rune, raw) =>
    if raw.length = 1 ∧ rune = runeError then text "\\x" ++ raw.flatMap (fun byte => hexDigits 2 byte.toNat)
    else escapeRune rune
  0x22 :: body ++ [0x22]

def formatInt (value : Int) : Bytes :=
  if value < 0 then 0x2D :: (Nat.toDigits 10 value.natAbs).map (fun digit => UInt8.ofNat digit.toNat)
  else (Nat.toDigits 10 value.natAbs).map fun digit => UInt8.ofNat digit.toNat

section TrimRight
variable {cutset : Bytes}

theorem trimRight_append (bytes : Bytes) {suffix : Bytes} (trimmed : ∀ byte ∈ suffix, byte ∈ cutset) :
    trimRight cutset (bytes ++ suffix) = trimRight cutset bytes := by
  induction suffix using List.reverseRecOn with
  | nil => simp
  | append_singleton suffix last ih =>
    have member : cutset.contains last = true := by simpa using trimmed last (by simp)
    rw [← List.append_assoc, trimRight, List.rdropWhile_concat_pos _ _ _ member]
    exact ih (fun byte inside => trimmed byte (by simp [inside]))

theorem trimRight_split (cutset bytes : Bytes) :
    ∃ suffix, bytes = trimRight cutset bytes ++ suffix ∧ ∀ byte ∈ suffix, byte ∈ cutset := by
  refine ⟨bytes.rtakeWhile (cutset.contains ·), (List.rdropWhile_append_rtakeWhile ..).symm, ?_⟩
  intro byte member
  simpa using List.mem_rtakeWhile_imp member

theorem trimRight_last {bytes : Bytes} {last : UInt8} (ends : (trimRight cutset bytes).getLast? = some last) :
    last ∉ cutset := by
  intro member
  have nonempty : trimRight cutset bytes ≠ [] := by intro empty; simp [empty] at ends
  have kept := List.rdropWhile_last_not (cutset.contains ·) bytes nonempty
  rw [List.getLast?_eq_some_getLast nonempty] at ends
  have same : (bytes.rdropWhile (cutset.contains ·)).getLast nonempty = last := Option.some.inj ends
  rw [same] at kept
  exact kept (by simpa using member)

theorem trimRight_kept {kept : UInt8} (outside : kept ∉ cutset) (first rest : Bytes) :
    trimRight cutset (first ++ kept :: rest) = first ++ kept :: trimRight cutset rest := by
  induction rest using List.reverseRecOn with
  | nil => exact List.rdropWhile_concat_neg _ _ _ (by simpa using outside)
  | append_singleton rest last ih =>
    rw [← List.cons_append, ← List.append_assoc]
    by_cases member : cutset.contains last = true
    · simp only [trimRight, List.rdropWhile_concat_pos _ _ _ member] at ih ⊢
      exact ih
    · rw [trimRight, trimRight, List.rdropWhile_concat_neg _ _ _ member, List.rdropWhile_concat_neg _ _ _ member]
      simp

theorem trimRight_self {bytes : Bytes} (kept : ∀ last, bytes.getLast? = some last → last ∉ cutset) :
    trimRight cutset bytes = bytes := by
  apply List.rdropWhile_eq_self_iff.mpr
  intro nonempty
  have absent := kept _ (List.getLast?_eq_some_getLast nonempty)
  simpa using absent

end TrimRight

theorem trimSpace_visible {first : UInt8} (ascii : first < 0x80) (visible : Unicode.isSpace first.toNat = false)
    (rest : Bytes) : trimSpace (first :: rest) ≠ [] := by
  intro blank
  have start : (runes (first :: rest)).dropWhile (fun rune => Unicode.isSpace rune.1) =
      (first.toNat, [first]) :: runes rest := by
    rw [runes_ascii ascii, List.dropWhile_cons_of_neg (by simp [visible])]
  have kept := List.rdropWhile_prefix (fun rune : Nat × Bytes => Unicode.isSpace rune.1)
    ((first.toNat, [first]) :: runes rest)
  simp only [trimSpace, start] at blank
  cases remains : ((first.toNat, [first]) :: runes rest).rdropWhile (fun rune => Unicode.isSpace rune.1) with
  | nil =>
    have all := List.rdropWhile_eq_nil_iff.mp remains (first.toNat, [first]) (by simp)
    simp [visible] at all
  | cons rune others =>
    rw [remains] at blank kept
    obtain ⟨suffix, same⟩ := kept
    have head : rune = (first.toNat, [first]) := (List.cons.inj same).1
    simp [head] at blank

theorem splitN_cut {separator : UInt8} {before : Bytes} (clean : separator ∉ before) (after : Bytes) (count : Nat) :
    splitN separator (count + 2) (before ++ separator :: after) = before :: splitN separator (count + 1) after := by
  simp [splitN, Lines.cut_line separator clean]

theorem splitN_whole {separator : UInt8} {bytes : Bytes} (clean : separator ∉ bytes) (count : Nat) :
    splitN separator (count + 1) bytes = [bytes] := by
  cases count with
  | zero => rfl
  | succ count => simp [splitN, (Lines.cut_none separator).mpr clean]

section TrimSpace

private theorem core_infix {α : Type} (skip : α → Bool) (items : List α) :
    (items.dropWhile skip).rdropWhile skip <:+: items :=
  List.IsInfix.trans (List.IsPrefix.isInfix <| List.rdropWhile_prefix skip (items.dropWhile skip))
    (List.IsSuffix.isInfix <| List.dropWhile_suffix skip)

theorem trimSpace_infix (bytes : Bytes) : trimSpace bytes <:+: bytes := by
  obtain ⟨before, after, same⟩ := core_infix (fun rune => Unicode.isSpace rune.1) (runes bytes)
  refine ⟨before.flatMap Prod.snd, after.flatMap Prod.snd, ?_⟩
  rw [trimSpace, ← List.flatMap_append, ← List.flatMap_append, same, runes_bytes]

theorem trimSpace_valid {bytes : Bytes} (valid : Valid bytes) : Valid (trimSpace bytes) := by
  have inside := core_infix (fun rune => Unicode.isSpace rune.1) (runes bytes)
  intro entry member
  rw [trimSpace, runes_infix valid inside] at member
  exact valid entry (inside.subset member)

theorem trimSpace_blank {bytes : Bytes} :
    trimSpace bytes = [] ↔ ∀ rune ∈ runes bytes, Unicode.isSpace rune.1 = true := by
  have inside := core_infix (fun rune => Unicode.isSpace rune.1) (runes bytes)
  rw [trimSpace, List.flatMap_eq_nil_iff]
  constructor
  · intro empty
    have gone : ((runes bytes).dropWhile fun rune => Unicode.isSpace rune.1).rdropWhile (fun rune => Unicode.isSpace rune.1) = [] :=
      List.eq_nil_iff_forall_not_mem.mpr fun rune member => runes_nonempty (inside.subset member) (empty rune member)
    have spaces := List.rdropWhile_eq_nil_iff.mp gone
    intro rune member
    rw [← List.takeWhile_append_dropWhile (p := fun rune => Unicode.isSpace rune.1) (l := runes bytes)] at member
    rcases List.mem_append.mp member with first | last
    · have space := List.mem_takeWhile_imp first
      exact space
    · exact spaces rune last
  · intro spaces
    have gone : (runes bytes).dropWhile (fun rune => Unicode.isSpace rune.1) = [] := List.dropWhile_eq_nil_iff.mpr spaces
    simp [gone]

/-- What is left after the white space in front, before any is taken off the end. -/
private theorem trimSpace_grown (bytes : Bytes) : ∃ front gone, front <:+ runes bytes ∧
    (∀ rune, front.head? = some rune → Unicode.isSpace rune.1 = false) ∧ front.flatMap Prod.snd = trimSpace bytes ++ gone := by
  let blank := fun rune : Nat × Bytes => Unicode.isSpace rune.1
  obtain ⟨gone, cut⟩ := List.rdropWhile_prefix blank ((runes bytes).dropWhile blank)
  refine ⟨(runes bytes).dropWhile blank, gone.flatMap Prod.snd, List.dropWhile_suffix blank, fun rune first => ?_, ?_⟩
  · have stops := List.head?_dropWhile_not blank (runes bytes)
    rwa [first] at stops
  · rw [trimSpace, ← List.flatMap_append, cut]

/-- No white space is left in front of a trimmed string. -/
theorem trimSpace_front {bytes : Bytes} {rune : Nat × Bytes} {later : List (Nat × Bytes)}
    (first : runes (trimSpace bytes) = rune :: later) : Unicode.isSpace rune.1 = false := by
  by_contra visible
  have space : Unicode.isSpace rune.1 = true := by simpa using visible
  have member : rune ∈ runes (trimSpace bytes) := by rw [first]; exact List.mem_cons_self
  have spelled : rune.2 = encodeRune rune.1 := by
    rcases runes_spelled member with ⟨stray, _⟩ | spelled
    · rw [stray] at space
      exact absurd space (by decide)
    · exact spelled
  have trimmed : trimSpace bytes = rune.2 ++ later.flatMap Prod.snd := by
    rw [← List.flatMap_cons, ← first, runes_bytes]
  -- The rune is read alike before the end is trimmed, where no white space stands first.
  obtain ⟨front, gone, inside, stops, whole⟩ := trimSpace_grown bytes
  have same := runes_suffix inside
  rw [whole, trimmed, List.append_assoc, runes_member member spelled] at same
  rw [stops rune (by rw [← same]; rfl)] at space
  cases space

theorem skipSpace_trimmed (bytes : Bytes) : skipSpace (trimSpace bytes) = trimSpace bytes := by
  unfold skipSpace
  cases runed : runes (trimSpace bytes) with
  | nil => rw [List.dropWhile_nil, ← runed, runes_bytes]
  | cons rune rest =>
    have visible := trimSpace_front runed
    rw [List.dropWhile_cons_of_neg (by simp [visible]), ← runed, runes_bytes]

end TrimSpace

/-- Upper case of one ASCII character; any other byte is left alone. -/
def asciiUpper (byte : UInt8) : UInt8 := if 0x61 ≤ byte ∧ byte ≤ 0x7A then byte - 0x20 else byte

/-- The spellings of one ASCII upper case character: itself, its lower case, and
two letters of other alphabets. -/
inductive Spells : Bytes → UInt8 → Prop where
  | ascii (byte : UInt8) (ascii : byte < 0x80) : Spells [byte] (asciiUpper byte)
  | dotless : Spells [0xC4, 0xB1] 0x49
  | long : Spells [0xC5, 0xBF] 0x53

section ToUpper

private theorem asciiUpper_toNat {byte : UInt8} (ascii : byte < 0x80) :
    UInt8.ofNat (Unicode.toUpper byte.toNat) = asciiUpper byte := by
  rw [Unicode.toUpper_small (UInt8.lt_iff_toNat_lt.mp ascii)]
  unfold asciiUpper
  simp only [UInt8.le_iff_toNat_le, UInt8.reduceToNat]
  split
  next lower =>
    rw [← UInt8.toNat_inj, UInt8.toNat_sub_of_le _ _ (UInt8.le_iff_toNat_le.mpr (by simp only [UInt8.reduceToNat]; omega)),
      UInt8.toNat_ofNat']
    simp only [UInt8.reduceToNat]
    omega
  next => exact UInt8.ofNat_toNat

theorem asciiUpper_small {byte : UInt8} (ascii : byte < 0x80) : asciiUpper byte < 0x80 := by
  unfold asciiUpper
  grind [UInt8.lt_iff_toNat_lt, UInt8.le_iff_toNat_le]

theorem asciiUpper_space {byte : UInt8} (upper : asciiUpper byte = space) : byte = space := by
  unfold asciiUpper at upper
  split at upper
  next lower =>
    have lengths := congrArg UInt8.toNat upper
    simp only [UInt8.le_iff_toNat_le, UInt8.reduceToNat] at lower
    rw [UInt8.toNat_sub_of_le _ _ (UInt8.le_iff_toNat_le.mpr (by simp only [UInt8.reduceToNat]; omega))] at lengths
    simp only [space, UInt8.reduceToNat] at lengths
    omega
  next => exact upper

private theorem Spells.rune {part : Bytes} {byte : UInt8} (spells : Spells part byte) :
    ∃ rune, (∀ more, runes (part ++ more) = (rune, part) :: runes more) ∧ encodeRune (Unicode.toUpper rune) = [byte] ∧
      (Unicode.isSpace rune = true → byte.toNat = rune) := by
  have read : ∀ rune, (rune, part) ∈ runes part → part = encodeRune rune →
      ∀ more, runes (part ++ more) = (rune, part) :: runes more :=
    fun rune member spelled more => runes_member member spelled more
  cases spells with
  | ascii byte ascii =>
    have bound := UInt8.lt_iff_toNat_lt.mp ascii
    have small : Unicode.toUpper byte.toNat < 0x80 := by
      rw [Unicode.toUpper_small bound]
      split
      · omega
      · exact bound
    refine ⟨byte.toNat, read _ (by simp [runes_ascii ascii]) ?_, ?_, fun space => ?_⟩
    · rw [encodeRune_one bound, UInt8.ofNat_toNat]
    · rw [encodeRune_one small, asciiUpper_toNat ascii]
    · have apart : ¬ (0x61 ≤ byte ∧ byte ≤ 0x7A) := by
        simp only [UInt8.le_iff_toNat_le, UInt8.reduceToNat]
        simp only [Unicode.isSpace, Unicode.spaces, List.contains_eq_mem, List.mem_cons, List.not_mem_nil, or_false,
          decide_eq_true_eq] at space
        omega
      rw [asciiUpper, if_neg apart]
  | dotless => exact ⟨0x131, read _ (by decide) (by decide), by decide, fun space => absurd space (by decide)⟩
  | long => exact ⟨0x17F, read _ (by decide) (by decide), by decide, fun space => absurd space (by decide)⟩

theorem Spells.toUpper {part : Bytes} {byte : UInt8} (spells : Spells part byte) (more : Bytes) :
    toUpper (part ++ more) = byte :: Strings.toUpper more := by
  obtain ⟨rune, read, upper, _⟩ := spells.rune
  rw [Strings.toUpper, read, List.flatMap_cons]
  dsimp only
  rw [upper]
  rfl

private theorem spells_entry {bytes raw : Bytes} {rune : Nat} (member : (rune, raw) ∈ runes bytes)
    (ascii : Unicode.toUpper rune < 0x80) : Spells raw (UInt8.ofNat (Unicode.toUpper rune)) := by
  have spelled : raw = encodeRune rune := by
    rcases runes_spelled member with ⟨rfl, _⟩ | spelled
    · exact absurd ascii (by decide)
    · exact spelled
  rcases Unicode.toUpper_ascii ascii with small | rfl | rfl
  · have byte : (UInt8.ofNat rune).toNat = rune := by rw [UInt8.toNat_ofNat']; omega
    have low : UInt8.ofNat rune < 0x80 := UInt8.lt_iff_toNat_lt.mpr (by rw [byte]; exact small)
    have upper := asciiUpper_toNat low
    rw [byte] at upper
    rw [spelled, encodeRune_one small, upper]
    exact .ascii _ low
  · rw [spelled]
    exact .dotless
  · rw [spelled]
    exact .long

theorem toUpper_spelled {word target : Bytes} (ascii : ∀ byte ∈ target, byte < 0x80) :
    toUpper word = target ↔ ∃ parts, word = parts.flatten ∧ List.Forall₂ Spells parts target := by
  constructor
  · intro upper
    induction word using runes_induction generalizing target with
    | nil => exact ⟨[], rfl, upper ▸ .nil⟩
    | cons first rest ih =>
      have member := runes_cons first rest ▸ List.mem_cons_self
      have shape : encodeRune (Unicode.toUpper (decodeRune (first :: rest)).1) ++
          toUpper ((first :: rest).drop (decodeRune (first :: rest)).2) = target := by
        rw [← upper]
        conv => rhs; rw [toUpper, runes_cons]
        rfl
      by_cases small : Unicode.toUpper (decodeRune (first :: rest)).1 < 0x80
      · rw [encodeRune_one small] at shape
        subst shape
        obtain ⟨parts, same, spelled⟩ := ih (fun byte inside => ascii byte (List.mem_cons_of_mem _ inside)) rfl
        refine ⟨_ :: parts, ?_, .cons (spells_entry member small) spelled⟩
        rw [List.flatten_cons, ← same, List.take_append_drop]
      · obtain ⟨byte, inside⟩ := List.exists_mem_of_ne_nil _ (encodeRune_nonempty (Unicode.toUpper (decodeRune (first :: rest)).1))
        have low := ascii byte (shape ▸ List.mem_append_left _ inside)
        have bound := UInt8.lt_iff_toNat_lt.mp low
        simp only [UInt8.reduceToNat] at bound
        rcases encodeRune_member inside with ⟨ascii, _⟩ | high <;> omega
  · rintro ⟨parts, rfl, spelled⟩
    induction spelled with
    | nil => rfl
    | cons spells _ ih =>
      rw [List.flatten_cons, spells.toUpper, ih fun byte member => ascii byte (List.mem_cons_of_mem _ member)]

private theorem asciiUpper_high {byte : UInt8} (high : ¬ byte < 0x80) : asciiUpper byte = byte := by
  unfold asciiUpper
  grind [UInt8.lt_iff_toNat_lt, UInt8.le_iff_toNat_le]

private theorem asciiUpper_kept {byte : UInt8} (high : ¬ asciiUpper byte < 0x80) : asciiUpper byte = byte :=
  asciiUpper_high fun small => high (asciiUpper_small small)

private theorem spells_word {word : Bytes} (ascii : ∀ byte ∈ word.map asciiUpper, byte < 0x80) :
    ∃ parts, word = parts.flatten ∧ List.Forall₂ Spells parts (word.map asciiUpper) := by
  induction word with
  | nil => exact ⟨[], rfl, .nil⟩
  | cons byte word ih =>
    obtain ⟨small, rest⟩ := List.forall_mem_cons.mp ascii
    obtain ⟨parts, same, spelled⟩ := ih rest
    have low : byte < 0x80 := by
      by_contra high
      exact high (asciiUpper_high high ▸ small)
    exact ⟨[byte] :: parts, by rw [same]; rfl, .cons (.ascii byte low) spelled⟩

/-- Letters that no other alphabet spells. -/
def Plain (target : Bytes) : Prop := target.all (fun byte => byte < 0x80 && byte != 0x49 && byte != 0x53) = true

instance (target : Bytes) : Decidable (Plain target) := inferInstanceAs (Decidable (_ = true))

private theorem Plain.letters {target : Bytes} (plain : Plain target) :
    ∀ byte ∈ target, byte < 0x80 ∧ byte ≠ 0x49 ∧ byte ≠ 0x53 := by
  simpa [Plain, and_assoc] using plain

private theorem spells_plain {parts : List Bytes} {target : Bytes} (plain : Plain target)
    (spelled : List.Forall₂ Spells parts target) : parts.flatten.map asciiUpper = target := by
  have letters := plain.letters
  clear plain
  induction spelled with
  | nil => rfl
  | @cons part byte _ _ spells _ ih =>
    obtain ⟨⟨_, notI, notS⟩, rest⟩ := List.forall_mem_cons.mp letters
    cases spells with
    | ascii byte _ => rw [List.flatten_cons, List.map_append, ih rest]; rfl
    | dotless => exact absurd rfl notI
    | long => exact absurd rfl notS

theorem toUpper_plain {word target : Bytes} (plain : Plain target) :
    toUpper word = target ↔ word.map asciiUpper = target := by
  have ascii : ∀ byte ∈ target, byte < 0x80 := fun byte member => (plain.letters byte member).1
  rw [toUpper_spelled ascii]
  constructor
  · intro ⟨parts, same, spelled⟩
    rw [same]
    exact spells_plain plain spelled
  · intro same
    exact same ▸ spells_word (same ▸ ascii)

/-- A word that begins with S can also begin with the long s. -/
theorem toUpper_long {word rest : Bytes} (plain : Plain rest) :
    toUpper word = 0x53 :: rest ↔ word.map asciiUpper = 0x53 :: rest ∨ word.map asciiUpper = 0xC5 :: 0xBF :: rest := by
  have ascii : ∀ byte ∈ (0x53 : UInt8) :: rest, byte < 0x80 :=
    List.forall_mem_cons.mpr ⟨by decide, fun byte member => (plain.letters byte member).1⟩
  constructor
  · intro upper
    obtain ⟨parts, rfl, spelled⟩ := (toUpper_spelled ascii).mp upper
    cases spelled with
    | @cons part _ parts _ spells later =>
      have tail := spells_plain plain later
      rw [List.flatten_cons, List.map_append, tail]
      generalize letter : (0x53 : UInt8) = first at spells
      cases spells with
      | ascii byte _ => exact .inl rfl
      | dotless => exact absurd letter (by decide)
      | long => exact .inr rfl
  · rintro (same | same)
    · exact (toUpper_spelled ascii).mpr (same ▸ spells_word (same ▸ ascii))
    · obtain ⟨first, more, rfl, head, later⟩ := List.map_eq_cons_iff.mp same
      obtain ⟨second, word, rfl, next, last⟩ := List.map_eq_cons_iff.mp later
      obtain rfl : first = 0xC5 := asciiUpper_kept (by rw [head]; decide) ▸ head
      obtain rfl : second = 0xBF := asciiUpper_kept (by rw [next]; decide) ▸ next
      exact (Spells.long.toUpper word).trans (congrArg _ ((toUpper_plain plain).mpr last))

/-- A string is not blank when its first word has a visible upper case. -/
theorem toUpper_visible {word target : Bytes} {first : UInt8} (ascii : (first :: target).all (· < 0x80) = true)
    (upper : toUpper word = first :: target) (visible : Unicode.isSpace first.toNat = false) (more : Bytes) :
    trimSpace (word ++ more) ≠ [] := by
  obtain ⟨parts, rfl, spelled⟩ := (toUpper_spelled (by simpa using ascii)).mp upper
  cases spelled with
  | @cons part _ parts _ spells _ =>
    obtain ⟨rune, read, _, same⟩ := spells.rune
    rw [ne_eq, trimSpace_blank, List.flatten_cons, List.append_assoc, read]
    intro blank
    have space := blank _ List.mem_cons_self
    rw [same space, space] at visible
    cases visible

theorem Spells.length {part : Bytes} {byte : UInt8} (spells : Spells part byte) : 1 ≤ part.length := by
  cases spells <;> simp

/-- No letter of a word is spelled by less than one byte. -/
theorem toUpper_length {word target : Bytes} (ascii : ∀ byte ∈ target, byte < 0x80) (upper : toUpper word = target) :
    target.length ≤ word.length := by
  obtain ⟨parts, rfl, spelled⟩ := (toUpper_spelled ascii).mp upper
  clear ascii upper
  induction spelled with
  | nil => simp
  | cons spells _ ih =>
    have one := spells.length
    simp only [List.flatten_cons, List.length_append, List.length_cons]
    omega

end ToUpper

section Quote

private theorem text_member {source : String} (high : (text source).all (0x20 ≤ ·) = true) :
    ∀ byte ∈ text source, 0x20 ≤ byte := by
  simpa using high

private theorem hexDigit_visible (value : Nat) : 0x20 ≤ hexDigit value := by
  have digits : ∀ index < 16, 0x20 ≤ (text "0123456789abcdef").getD index 0x30 := by decide
  exact digits (value % 16) (Nat.mod_lt _ (by decide))

private theorem hexDigits_visible (count value : Nat) : ∀ byte ∈ hexDigits count value, 0x20 ≤ byte := by
  induction count with
  | zero => simp [hexDigits]
  | succ count ih =>
    intro byte member
    rcases List.mem_cons.mp member with rfl | later
    · exact hexDigit_visible _
    · exact ih byte later

private theorem encodeRune_visible {rune : Nat} (printable : Unicode.isPrint rune = true) :
    ∀ byte ∈ encodeRune rune, 0x20 ≤ byte := by
  intro byte member
  have low := Unicode.isPrint_low printable
  rw [UInt8.le_iff_toNat_le]
  rcases encodeRune_member member with ⟨small, rfl⟩ | high
  · simp only [UInt8.toNat_ofNat', UInt8.reduceToNat]
    omega
  · exact Nat.le_trans (by decide) high

private theorem visible_ite {condition : Prop} [Decidable condition] {yes no : Bytes} (first : ∀ byte ∈ yes, 0x20 ≤ byte)
    (second : ∀ byte ∈ no, 0x20 ≤ byte) : ∀ byte ∈ if condition then yes else no, 0x20 ≤ byte := by
  split
  · exact first
  · exact second

private theorem escapeControl_visible (rune : Nat) : ∀ byte ∈ escapeControl rune, 0x20 ≤ byte := by
  have escaped (source : String) (high : (text source).all (0x20 ≤ ·) = true) (count value : Nat) :
      ∀ byte ∈ text source ++ hexDigits count value, 0x20 ≤ byte := by
    intro byte member
    rcases List.mem_append.mp member with plain | digit
    · exact text_member high byte plain
    · exact hexDigits_visible _ _ byte digit
  unfold escapeControl
  repeat' apply visible_ite
  all_goals first | exact escaped _ (by decide) _ _ | exact text_member (by decide)

private theorem escapeRune_visible (rune : Nat) : ∀ byte ∈ escapeRune rune, 0x20 ≤ byte := by
  unfold escapeRune
  by_cases special : rune = 0x22 ∨ rune = 0x5C
  · rw [if_pos special]
    simp only [List.forall_mem_cons, List.not_mem_nil, false_imp_iff, implies_true, and_true]
    rcases special with rfl | rfl <;> decide
  · rw [if_neg special]
    cases printable : Unicode.isPrint rune with
    | true => exact encodeRune_visible printable
    | false => exact escapeControl_visible rune

/-- Quoting leaves no control character in its result, whatever the input. -/
theorem quote_visible (bytes : Bytes) : ∀ byte ∈ quote bytes, 0x20 ≤ byte := by
  intro byte member
  simp only [quote, List.cons_append, List.mem_cons, List.mem_append, List.mem_flatMap, List.not_mem_nil, or_false] at member
  rcases member with rfl | ⟨⟨rune, raw⟩, _, inside⟩ | rfl
  · decide
  · split at inside
    · rcases List.mem_append.mp inside with plain | digit
      · exact text_member (by decide) byte plain
      · obtain ⟨value, _, digits⟩ := List.mem_flatMap.mp digit
        exact hexDigits_visible _ _ byte digits
    · exact escapeRune_visible rune byte inside
  · decide

theorem hexDigits_length (count value : Nat) : (hexDigits count value).length = count := by
  induction count with
  | zero => rfl
  | succ count ih => rw [hexDigits, List.length_cons, ih]

private theorem length_ite {condition : Prop} [Decidable condition] {yes no : Bytes} {bound : Nat}
    (first : condition → yes.length ≤ bound) (second : ¬ condition → no.length ≤ bound) :
    (if condition then yes else no).length ≤ bound := by
  split
  next holds => exact first holds
  next fails => exact second fails

private theorem escapeControl_length {rune : Nat} (hidden : ¬ Unicode.isPrint rune = true) :
    (escapeControl rune).length ≤ 4 * (encodeRune rune).length := by
  have one := List.length_pos_of_ne_nil (encodeRune_nonempty rune)
  have outside : rune < 0x20 ∨ 0x7E < rune := by
    by_contra inside
    rw [not_or] at inside
    exact hidden (Unicode.isPrint_ascii (by omega) (by omega))
  have letter : ∀ source, (text source).length = 2 → (text source).length ≤ 4 * (encodeRune rune).length := fun _ two => by omega
  have escaped : ∀ source count value, (text source ++ hexDigits count value).length = (text source).length + count := by
    intro source count value
    rw [List.length_append, hexDigits_length]
  have small : (text "\\x").length = 2 ∧ (text "\\u").length = 2 ∧ (text "\\U").length = 2 := by decide
  unfold escapeControl
  iterate 7 refine length_ite (fun _ => letter _ (by decide)) fun _ => ?_
  refine length_ite (fun _ => by rw [escaped]; omega) fun wide => ?_
  -- What is left takes two bytes at least, and four where eight digits are written.
  obtain ⟨two, four⟩ := encodeRune_length (show 0x80 ≤ rune by omega)
  refine length_ite (fun _ => by rw [escaped]; omega) fun beyond => ?_
  by_cases valid : validRune rune = true
  · rw [if_pos valid] at beyond
    have whole := four valid (by omega)
    rw [escaped]
    omega
  · rw [if_neg valid] at beyond
    exact absurd (by decide) beyond

/-- What quoting writes for one rune. -/
def quoteEntry (entry : Nat × Bytes) : Bytes :=
  if entry.2.length = 1 ∧ entry.1 = runeError then text "\\x" ++ entry.2.flatMap (fun byte => hexDigits 2 byte.toNat)
  else escapeRune entry.1

private theorem quoteEntry_length {bytes : Bytes} {entry : Nat × Bytes} (member : entry ∈ runes bytes) :
    (quoteEntry entry).length ≤ 4 * entry.2.length := by
  obtain ⟨rune, raw⟩ := entry
  refine length_ite (fun stray => ?_) fun whole => ?_
  · obtain ⟨byte, rfl⟩ := List.length_eq_one_iff.mp stray.1
    simp [hexDigits_length, text]
  · have spelled : raw = encodeRune rune := (runes_spelled member).resolve_left fun stray => whole stray.symm
    have one := List.length_pos_of_ne_nil (encodeRune_nonempty rune)
    subst spelled
    dsimp only
    unfold escapeRune
    refine length_ite (fun _ => ?_) fun _ => length_ite (fun _ => ?_) escapeControl_length
    · simp only [List.length_cons, List.length_nil]
      omega
    · omega

private theorem flatMap_length_le {α : Type} {f g : α → Bytes} {factor : Nat} {items : List α}
    (bounds : ∀ item ∈ items, (f item).length ≤ factor * (g item).length) :
    (items.flatMap f).length ≤ factor * (items.flatMap g).length := by
  induction items with
  | nil => simp
  | cons item items ih =>
    obtain ⟨here, there⟩ := List.forall_mem_cons.mp bounds
    have rest := ih there
    simp only [List.flatMap_cons, List.length_append, Nat.mul_add]
    omega

/-- Quoting takes four bytes for one, and the quotes. -/
theorem quote_length (bytes : Bytes) : (quote bytes).length ≤ 4 * bytes.length + 2 := by
  have body := @flatMap_length_le _ quoteEntry Prod.snd 4 (runes bytes) fun entry member => quoteEntry_length member
  rw [runes_bytes] at body
  have shape : quote bytes = 0x22 :: (runes bytes).flatMap quoteEntry ++ [0x22] := rfl
  rw [shape, List.length_append, List.length_cons, List.length_singleton]
  omega

end Quote

end Kvasir.Strings
