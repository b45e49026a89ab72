import Mathlib.Data.List.Basic

/-! Byte strings and the runes they spell. Decoding follows the standard UTF-8
acceptance table: a byte that starts no valid encoding stands for itself as one
replacement rune of width one. -/

namespace Kvasir

abbrev Bytes := List UInt8

def text (source : String) : Bytes := source.toList.map fun char => UInt8.ofNat char.toNat

namespace Utf8

/-- Stands for a byte that no encoding accounts for; runes are code point numbers. -/
def runeError : Nat := 0xFFFD

/-- Size of the encoding a leading byte announces, and the bounds of its second
byte. The bounds rule out overlong forms, surrogates and runes past 0x10FFFF. -/
def leading (first : UInt8) : Option (Nat × UInt8 × UInt8) :=
  if first < 0xC2 then none
  else if first ≤ 0xDF then some (2, 0x80, 0xBF)
  else if first = 0xE0 then some (3, 0xA0, 0xBF)
  else if first = 0xED then some (3, 0x80, 0x9F)
  else if first ≤ 0xEF then some (3, 0x80, 0xBF)
  else if first = 0xF0 then some (4, 0x90, 0xBF)
  else if first ≤ 0xF3 then some (4, 0x80, 0xBF)
  else if first = 0xF4 then some (4, 0x80, 0x8F)
  else none

def continues (byte : UInt8) : Bool := 0x80 ≤ byte && byte ≤ 0xBF

def payload (byte : UInt8) : Nat := byte.toNat % 0x40

/-- The first rune of a string and the number of bytes it takes. -/
def decodeRune : Bytes → Nat × Nat
  | [] => (runeError, 0)
  | first :: tail =>
    if first < 0x80 then (first.toNat, 1)
    else match leading first, tail with
      | some (2, low, high), second :: _ =>
        if low ≤ second ∧ second ≤ high then (first.toNat % 0x20 * 0x40 + payload second, 2)
        else (runeError, 1)
      | some (3, low, high), second :: third :: _ =>
        if low ≤ second ∧ second ≤ high ∧ continues third then
          (first.toNat % 0x10 * 0x1000 + payload second * 0x40 + payload third, 3)
        else (runeError, 1)
      | some (4, low, high), second :: third :: fourth :: _ =>
        if low ≤ second ∧ second ≤ high ∧ continues third ∧ continues fourth then
          (first.toNat % 0x08 * 0x40000 + payload second * 0x1000 + payload third * 0x40 + payload fourth, 4)
        else (runeError, 1)
      | _, _ => (runeError, 1)

/-- Surrogates and numbers past the last rune cannot be encoded. -/
def validRune (rune : Nat) : Bool := rune < 0xD800 || 0xDFFF < rune && rune ≤ 0x10FFFF

def encodeRune (rune : Nat) : Bytes :=
  let rune := if validRune rune then rune else runeError
  if rune < 0x80 then [UInt8.ofNat rune]
  else if rune < 0x800 then [UInt8.ofNat (0xC0 + rune / 0x40), UInt8.ofNat (0x80 + rune % 0x40)]
  else if rune < 0x10000 then
    [UInt8.ofNat (0xE0 + rune / 0x1000), UInt8.ofNat (0x80 + rune / 0x40 % 0x40), UInt8.ofNat (0x80 + rune % 0x40)]
  else
    [UInt8.ofNat (0xF0 + rune / 0x40000), UInt8.ofNat (0x80 + rune / 0x1000 % 0x40),
      UInt8.ofNat (0x80 + rune / 0x40 % 0x40), UInt8.ofNat (0x80 + rune % 0x40)]

/-- The runes of a string after its first bytes are skipped, each with the
bytes it was read from. -/
def runesFrom : Nat → Bytes → List (Nat × Bytes)
  | _, [] => []
  | skip + 1, _ :: rest => runesFrom skip rest
  | 0, first :: rest =>
    let (rune, width) := decodeRune (first :: rest)
    (rune, (first :: rest).take width) :: runesFrom (width - 1) rest

def runes (bytes : Bytes) : List (Nat × Bytes) := runesFrom 0 bytes

theorem decodeRune_ascii {byte : UInt8} (ascii : byte < 0x80) (rest : Bytes) :
    decodeRune (byte :: rest) = (byte.toNat, 1) := by
  simp [decodeRune, ascii]

theorem runes_ascii {byte : UInt8} (ascii : byte < 0x80) (rest : Bytes) :
    runes (byte :: rest) = (byte.toNat, [byte]) :: runes rest := by
  simp [runes, runesFrom, decodeRune_ascii ascii]

/-- An encoding is the ASCII character itself or is made of bytes outside ASCII. -/
theorem encodeRune_member {rune : Nat} {byte : UInt8} (member : byte ∈ encodeRune rune) :
    rune < 0x80 ∧ byte = UInt8.ofNat rune ∨ 0x80 ≤ byte.toNat := by
  unfold encodeRune at member
  by_cases valid : validRune rune = true
  · have bound : rune ≤ 0x10FFFF := by
      simp only [validRune, Bool.or_eq_true, Bool.and_eq_true, decide_eq_true_eq] at valid
      omega
    simp only [valid, ↓reduceIte] at member
    split at member
    next small => exact .inl ⟨small, by simpa using member⟩
    next =>
      right
      split at member
      · rcases List.mem_pair.mp member with rfl | rfl <;> simp only [UInt8.toNat_ofNat'] <;> omega
      · split at member <;> simp only [List.mem_cons, List.not_mem_nil, or_false] at member
        · rcases member with rfl | rfl | rfl <;> simp only [UInt8.toNat_ofNat'] <;> omega
        · rcases member with rfl | rfl | rfl | rfl <;> simp only [UInt8.toNat_ofNat'] <;> omega
  · right
    have replaced : byte ∈ ([0xEF, 0xBF, 0xBD] : Bytes) := by simpa [valid, runeError] using member
    simp only [List.mem_cons, List.not_mem_nil, or_false] at replaced
    rcases replaced with rfl | rfl | rfl <;> decide

theorem encodeRune_nonempty (rune : Nat) : encodeRune rune ≠ [] := by
  simp only [encodeRune]
  repeat' split
  all_goals simp

section Encode
variable {rune : Nat}

theorem validRune_iff : validRune rune = true ↔ rune < 0xD800 ∨ 0xDFFF < rune ∧ rune ≤ 0x10FFFF := by
  simp only [validRune, Bool.or_eq_true, Bool.and_eq_true, decide_eq_true_eq]

theorem encodeRune_one (small : rune < 0x80) : encodeRune rune = [UInt8.ofNat rune] := by
  have valid : validRune rune = true := validRune_iff.mpr (.inl (by omega))
  simp only [encodeRune, valid, if_true, small]

theorem encodeRune_two (low : 0x80 ≤ rune) (high : rune < 0x800) :
    encodeRune rune = [UInt8.ofNat (0xC0 + rune / 0x40), UInt8.ofNat (0x80 + rune % 0x40)] := by
  have valid : validRune rune = true := validRune_iff.mpr (.inl (by omega))
  simp only [encodeRune, valid, if_true, Nat.not_lt.mpr low, if_false, high]

theorem encodeRune_three (valid : validRune rune = true) (low : 0x800 ≤ rune) (high : rune < 0x10000) :
    encodeRune rune = [UInt8.ofNat (0xE0 + rune / 0x1000), UInt8.ofNat (0x80 + rune / 0x40 % 0x40),
      UInt8.ofNat (0x80 + rune % 0x40)] := by
  have above : ¬ rune < 0x80 := by omega
  simp only [encodeRune, valid, if_true, above, Nat.not_lt.mpr low, if_false, high]

theorem encodeRune_four (valid : validRune rune = true) (low : 0x10000 ≤ rune) :
    encodeRune rune = [UInt8.ofNat (0xF0 + rune / 0x40000), UInt8.ofNat (0x80 + rune / 0x1000 % 0x40),
      UInt8.ofNat (0x80 + rune / 0x40 % 0x40), UInt8.ofNat (0x80 + rune % 0x40)] := by
  have above : ¬ rune < 0x80 := by omega
  have above' : ¬ rune < 0x800 := by omega
  simp only [encodeRune, valid, if_true, above, above', Nat.not_lt.mpr low, if_false]

/-- A rune beyond ASCII takes two bytes at least, and one beyond the first plane four. -/
theorem encodeRune_length (high : 0x80 ≤ rune) :
    2 ≤ (encodeRune rune).length ∧ (validRune rune = true → 0x10000 ≤ rune → (encodeRune rune).length = 4) := by
  by_cases valid : validRune rune = true
  · by_cases two : rune < 0x800
    · rw [encodeRune_two high two]
      exact ⟨Nat.le_refl 2, fun _ four => by omega⟩
    · by_cases three : rune < 0x10000
      · rw [encodeRune_three valid (Nat.le_of_not_lt two) three]
        exact ⟨by simp, fun _ four => by omega⟩
      · rw [encodeRune_four valid (Nat.le_of_not_lt three)]
        simp
  · simp [encodeRune, valid, runeError]

end Encode

private theorem ofNat_same {number : Nat} (byte : UInt8) (same : number = byte.toNat) : UInt8.ofNat number = byte := by
  rw [same, UInt8.ofNat_toNat]

private theorem leading_bounds {first low high : UInt8} {size : Nat} (lead : leading first = some (size, low, high)) :
    0x80 ≤ low.toNat ∧ high.toNat ≤ 0xBF ∧
    (size = 2 ∧ 0xC2 ≤ first.toNat ∧ first.toNat ≤ 0xDF ∨
      size = 3 ∧ 0xE0 ≤ first.toNat ∧ first.toNat ≤ 0xEF ∧ (first.toNat ≠ 0xE0 ∨ 0xA0 ≤ low.toNat) ∧
        (first.toNat ≠ 0xED ∨ high.toNat ≤ 0x9F) ∨
      size = 4 ∧ 0xF0 ≤ first.toNat ∧ first.toNat ≤ 0xF4 ∧ (first.toNat ≠ 0xF0 ∨ 0x90 ≤ low.toNat) ∧
        (first.toNat ≠ 0xF4 ∨ high.toNat ≤ 0x8F)) := by
  simp only [leading, UInt8.lt_iff_toNat_lt, UInt8.le_iff_toNat_le, ← UInt8.toNat_inj, UInt8.reduceToNat] at lead
  repeat' split at lead
  all_goals
    cases lead
    try simp
    try omega

theorem decodeRune_width (first : UInt8) (rest : Bytes) : 0 < (decodeRune (first :: rest)).2 := by
  simp only [decodeRune]
  repeat' split
  all_goals simp

private theorem decodeRune_length (first : UInt8) (rest : Bytes) :
    (decodeRune (first :: rest)).2 ≤ (first :: rest).length := by
  simp only [decodeRune]
  repeat' split
  all_goals simp

/-- A rune is read from its encoding, unless it stands for a stray byte. -/
theorem decodeRune_encode (first : UInt8) (rest : Bytes) :
    decodeRune (first :: rest) = (runeError, 1) ∨
      (first :: rest).take (decodeRune (first :: rest)).2 = encodeRune (decodeRune (first :: rest)).1 := by
  simp only [decodeRune]
  split
  next ascii =>
    right
    rw [encodeRune_one (UInt8.lt_iff_toNat_lt.mp ascii), UInt8.ofNat_toNat]
    rfl
  next =>
  split
  next low high second rest lead =>
    obtain ⟨lower, upper, shape⟩ := leading_bounds lead
    split
    next inside =>
      right
      simp only [UInt8.le_iff_toNat_le] at inside
      rw [encodeRune_two (by simp only [payload]; omega) (by simp only [payload]; omega)]
      simp only [payload]
      rw [ofNat_same first (by omega), ofNat_same second (by omega)]
      rfl
    next => exact .inl rfl
  next low high second third rest lead =>
    obtain ⟨lower, upper, shape⟩ := leading_bounds lead
    split
    next inside =>
      right
      simp only [UInt8.le_iff_toNat_le, continues, Bool.and_eq_true, decide_eq_true_eq, UInt8.reduceToNat] at inside
      rw [encodeRune_three (validRune_iff.mpr (by simp only [payload]; omega)) (by simp only [payload]; omega) (by simp only [payload]; omega)]
      simp only [payload]
      rw [ofNat_same first (by omega),
        ofNat_same second (by omega), ofNat_same third (by omega)]
      rfl
    next => exact .inl rfl
  next low high second third fourth rest lead =>
    obtain ⟨lower, upper, shape⟩ := leading_bounds lead
    split
    next inside =>
      right
      simp only [UInt8.le_iff_toNat_le, continues, Bool.and_eq_true, decide_eq_true_eq, UInt8.reduceToNat] at inside
      rw [encodeRune_four (validRune_iff.mpr (by simp only [payload]; omega)) (by simp only [payload]; omega)]
      simp only [payload]
      rw [ofNat_same first (by omega), ofNat_same second (by omega),
        ofNat_same third (by omega), ofNat_same fourth (by omega)]
      rfl
    next => exact .inl rfl
  next => exact .inl rfl

private theorem runesFrom_drop (skip : Nat) (bytes : Bytes) : runesFrom skip bytes = runes (bytes.drop skip) := by
  induction bytes generalizing skip with
  | nil => cases skip <;> rfl
  | cons first rest ih =>
    cases skip with
    | zero => rfl
    | succ skip => exact ih skip

theorem runes_cons (first : UInt8) (rest : Bytes) :
    runes (first :: rest) = ((decodeRune (first :: rest)).1, (first :: rest).take (decodeRune (first :: rest)).2) ::
      runes ((first :: rest).drop (decodeRune (first :: rest)).2) := by
  have shift : ∀ width, 0 < width → (first :: rest).drop width = rest.drop (width - 1)
    | _ + 1, _ => rfl
  rw [shift _ (decodeRune_width first rest), ← runesFrom_drop]
  rfl

theorem runes_induction {motive : Bytes → Prop} (nil : motive [])
    (cons : ∀ first rest, motive ((first :: rest).drop (decodeRune (first :: rest)).2) → motive (first :: rest))
    (bytes : Bytes) : motive bytes := by
  generalize length : bytes.length = size
  induction size using Nat.strongRecOn generalizing bytes with
  | ind size ih =>
    cases bytes with
    | nil => exact nil
    | cons first rest =>
      have wide := decodeRune_width first rest
      refine cons first rest (ih _ ?_ _ rfl)
      rw [← length, List.length_drop, List.length_cons]
      omega

theorem runes_bytes (bytes : Bytes) : (runes bytes).flatMap Prod.snd = bytes := by
  induction bytes using runes_induction with
  | nil => rfl
  | cons first rest ih => rw [runes_cons, List.flatMap_cons, ih, List.take_append_drop]

/-- Every entry is the rune decoded at the front of some string, with its bytes. -/
theorem runes_decoded {bytes : Bytes} {entry : Nat × Bytes} (member : entry ∈ runes bytes) :
    ∃ first rest, entry = ((decodeRune (first :: rest)).1, (first :: rest).take (decodeRune (first :: rest)).2) := by
  induction bytes using runes_induction with
  | nil => cases member
  | cons first rest ih =>
    rw [runes_cons] at member
    rcases List.mem_cons.mp member with rfl | later
    · exact ⟨first, rest, rfl⟩
    · exact ih later

theorem runes_nonempty {bytes : Bytes} {entry : Nat × Bytes} (member : entry ∈ runes bytes) : entry.2 ≠ [] := by
  obtain ⟨first, rest, rfl⟩ := runes_decoded member
  simp [Nat.ne_of_gt (decodeRune_width first rest)]

/-- Every rune of a string stands for a stray byte or is spelled by its encoding. -/
theorem runes_spelled {bytes raw : Bytes} {rune : Nat} (member : (rune, raw) ∈ runes bytes) :
    rune = runeError ∧ raw.length = 1 ∨ raw = encodeRune rune := by
  obtain ⟨first, rest, same⟩ := runes_decoded member
  cases same
  rcases decodeRune_encode first rest with stray | spelled
  · exact .inl (by simp [stray])
  · exact .inr spelled

private theorem decodeRune_more (first : UInt8) (rest more : Bytes) (whole : decodeRune (first :: rest) ≠ (runeError, 1)) :
    decodeRune ((first :: rest).take (decodeRune (first :: rest)).2 ++ more) = decodeRune (first :: rest) := by
  by_cases ascii : first < 0x80
  · simp [decodeRune, ascii]
  simp only [decodeRune, ascii, if_false] at whole ⊢
  split at whole
  next low high second rest lead =>
    split at whole
    next inside => simp [ascii, lead, inside]
    next => exact absurd rfl whole
  next low high second third rest lead =>
    split at whole
    next inside => simp [ascii, lead, inside]
    next => exact absurd rfl whole
  next low high second third fourth rest lead =>
    split at whole
    next inside => simp [ascii, lead, inside]
    next => exact absurd rfl whole
  next => exact absurd rfl whole

theorem runes_member {bytes : Bytes} {entry : Nat × Bytes} (member : entry ∈ runes bytes)
    (spelled : entry.2 = encodeRune entry.1) (more : Bytes) : runes (entry.2 ++ more) = entry :: runes more := by
  obtain ⟨first, rest, rfl⟩ := runes_decoded member
  have whole : decodeRune (first :: rest) ≠ (runeError, 1) := by
    intro stray
    have lengths := congrArg List.length spelled
    simp [stray, encodeRune, validRune, runeError] at lengths
  have same := decodeRune_more first rest more whole
  have length : ((first :: rest).take (decodeRune (first :: rest)).2).length = (decodeRune (first :: rest)).2 :=
    List.length_take_of_le (decodeRune_length first rest)
  have wide := decodeRune_width first rest
  dsimp only at spelled ⊢
  generalize (first :: rest).take (decodeRune (first :: rest)).2 = raw at same length spelled ⊢
  cases raw with
  | nil => exact absurd length (by simp only [List.length_nil]; omega)
  | cons head tail =>
    rw [List.cons_append, runes_cons, ← List.cons_append, same, ← length, List.take_left, List.drop_left]

/-- No byte is stray: every rune is spelled by its own encoding. -/
def Valid (bytes : Bytes) : Prop := ∀ entry ∈ runes bytes, entry.2 = encodeRune entry.1

instance (bytes : Bytes) : Decidable (Valid bytes) := inferInstanceAs (Decidable (∀ entry ∈ runes bytes, _))

/-- The same runes, with a replacement rune for every stray byte. -/
def toValid (bytes : Bytes) : Bytes := (runes bytes).flatMap fun entry => encodeRune entry.1

theorem toValid_self {bytes : Bytes} (valid : Valid bytes) : toValid bytes = bytes := by
  rw [toValid, ← List.flatMap_congr (f := Prod.snd) valid, runes_bytes]

theorem runes_suffix {bytes : Bytes} {core : List (Nat × Bytes)} (last : core <:+ runes bytes) :
    runes (core.flatMap Prod.snd) = core := by
  induction bytes using runes_induction with
  | nil => rw [List.suffix_nil.mp last]; rfl
  | cons first rest ih =>
    rw [runes_cons] at last
    rcases List.suffix_cons_iff.mp last with same | later
    · rw [same, ← runes_cons, runes_bytes]
    · exact ih later

theorem runes_infix {bytes : Bytes} (valid : Valid bytes) {core : List (Nat × Bytes)} (inside : core <:+: runes bytes) :
    runes (core.flatMap Prod.snd) = core := by
  induction core with
  | nil => rfl
  | cons entry core ih =>
    have member := inside.subset List.mem_cons_self
    rw [List.flatMap_cons, runes_member member (valid entry member), ih ((List.suffix_cons ..).isInfix.trans inside)]

end Utf8

end Kvasir
