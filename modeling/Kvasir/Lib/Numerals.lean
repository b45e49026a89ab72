import Kvasir.Lib.Utf8
import Mathlib.Data.List.TakeWhile
import Mathlib.Data.Nat.Digits.Lemmas

/-! Decimal numerals as ASCII strings: writing a number without leading zeros, and
reading the longest number that a string begins with. -/

namespace Kvasir.Numerals
open Utf8

def isDigit (byte : UInt8) : Bool := 0x30 ≤ byte && byte ≤ 0x39

def digit (place : Nat) : UInt8 := UInt8.ofNat (0x30 + place)

/-- The number a string of digits stands for. -/
def value (digits : Bytes) : Nat := digits.foldl (fun total byte => 10 * total + (byte.toNat - 0x30)) 0

/-- The digits of a number, most significant first. -/
def numeral (n : Nat) : Bytes := if n = 0 then [digit 0] else ((Nat.digits 10 n).map digit).reverse

/-- A number in digits, without a leading zero unless it is zero. -/
structure Decimal (digits : Bytes) (n : Nat) : Prop where
  nonempty : digits ≠ []
  decimal : ∀ byte ∈ digits, isDigit byte = true
  leading : digits.head? = some 0x30 → digits = [0x30]
  value : value digits = n

theorem digit_toNat {place : Nat} (small : place < 10) : (digit place).toNat = 0x30 + place := by
  rw [digit, UInt8.toNat_ofNat']
  omega

theorem digit_isDigit {place : Nat} (small : place < 10) : isDigit (digit place) = true := by
  simp only [isDigit, Bool.and_eq_true, decide_eq_true_eq, UInt8.le_iff_toNat_le, digit_toNat small, UInt8.reduceToNat]
  omega

theorem value_concat (digits : Bytes) (byte : UInt8) : value (digits ++ [byte]) = 10 * value digits + (byte.toNat - 0x30) := by
  simp only [value, List.foldl_append, List.foldl_cons, List.foldl_nil]

theorem value_places {places : List Nat} (small : ∀ place ∈ places, place < 10) :
    value (places.map digit).reverse = Nat.ofDigits 10 places := by
  induction places with
  | nil => rfl
  | cons place places ih =>
    obtain ⟨low, rest⟩ := List.forall_mem_cons.mp small
    rw [List.map_cons, List.reverse_cons, value_concat, ih rest, digit_toNat low, Nat.ofDigits_cons, Nat.add_sub_cancel_left,
      Nat.add_comm]

theorem decimal_numeral (n : Nat) : Decimal (numeral n) n := by
  unfold numeral
  split
  next zero =>
    subst zero
    exact ⟨by simp, by simpa using digit_isDigit (show 0 < 10 by decide), fun _ => rfl, rfl⟩
  next positive =>
    have small : ∀ place ∈ Nat.digits 10 n, place < 10 := fun place member => Nat.digits_lt_base (by decide) member
    have some : Nat.digits 10 n ≠ [] := Nat.digits_ne_nil_iff_ne_zero.mpr positive
    constructor
    case nonempty => simpa using some
    case decimal =>
      intro byte member
      obtain ⟨place, inside, rfl⟩ := List.mem_map.mp (List.mem_reverse.mp member)
      exact digit_isDigit (small place inside)
    case leading =>
      intro zero
      rw [List.head?_reverse, List.getLast?_map, List.getLast?_eq_some_getLast some, Option.map_some, Option.some.injEq] at zero
      have last := digit_toNat (small _ (List.getLast_mem some))
      rw [zero] at last
      exact absurd (by simpa using last.symm) (Nat.getLast_digit_ne_zero 10 positive)
    case value => rw [value_places small, Nat.ofDigits_digits]

theorem numeral_injective {m n : Nat} (same : numeral m = numeral n) : m = n := by
  rw [← (decimal_numeral m).value, same, (decimal_numeral n).value]

def plus : UInt8 := 0x2B
def minus : UInt8 := 0x2D

/-- Whether a number is negative, and what follows its sign. -/
def takeSign : Bytes → Bool × Bytes
  | [] => (false, [])
  | first :: rest => if first = minus then (true, rest) else if first = plus then (false, rest) else (false, first :: rest)

/-- The longest integer at the front of a string, and what is left over. -/
def scanInteger (bytes : Bytes) : Option (Int × Bytes) :=
  let (negative, unsigned) := takeSign bytes
  let digits := unsigned.takeWhile isDigit
  if digits = [] then none
  else some (if negative then -(value digits : Int) else value digits, unsigned.dropWhile isDigit)

/-- Digits after an optional sign, and nothing else. -/
inductive Integer : Bytes → Int → Prop where
  | unsigned (digits : Bytes) (nonempty : digits ≠ []) (decimal : ∀ byte ∈ digits, isDigit byte = true) :
      Integer digits (value digits)
  | positive (digits : Bytes) (nonempty : digits ≠ []) (decimal : ∀ byte ∈ digits, isDigit byte = true) :
      Integer (plus :: digits) (value digits)
  | negative (digits : Bytes) (nonempty : digits ≠ []) (decimal : ∀ byte ∈ digits, isDigit byte = true) :
      Integer (minus :: digits) (-value digits)

/-- A string begins with an integer that what is left over does not continue. -/
structure Begins (bytes : Bytes) (number : Int) (rest : Bytes) : Prop where
  word : ∃ word, bytes = word ++ rest ∧ Integer word number
  longest : ∀ byte, rest.head? = some byte → isDigit byte = false

section Scan
variable {bytes rest : Bytes} {number : Int}

private theorem digits_cut {digits : Bytes} (decimal : ∀ byte ∈ digits, isDigit byte = true)
    (longest : ∀ byte, rest.head? = some byte → isDigit byte = false) :
    (digits ++ rest).takeWhile isDigit = digits ∧ (digits ++ rest).dropWhile isDigit = rest := by
  rw [List.takeWhile_append_of_pos decimal, List.dropWhile_append_of_pos decimal]
  cases rest with
  | nil => simp
  | cons first rest => simp [longest first rfl]

private theorem takeSign_digits {digits : Bytes} (nonempty : digits ≠ []) (decimal : ∀ byte ∈ digits, isDigit byte = true) :
    takeSign (digits ++ rest) = (false, digits ++ rest) := by
  cases digits with
  | nil => exact absurd rfl nonempty
  | cons first digits =>
    have high := decimal first List.mem_cons_self
    have notMinus : first ≠ minus := by rintro rfl; exact absurd high (by decide)
    have notPlus : first ≠ plus := by rintro rfl; exact absurd high (by decide)
    rw [List.cons_append, takeSign, if_neg notMinus, if_neg notPlus]

private theorem takeSign_split (bytes : Bytes) :
    takeSign bytes = (false, bytes) ∨ (∃ rest, bytes = plus :: rest ∧ takeSign bytes = (false, rest)) ∨
      ∃ rest, bytes = minus :: rest ∧ takeSign bytes = (true, rest) := by
  cases bytes with
  | nil => exact .inl rfl
  | cons first rest =>
    by_cases negative : first = minus
    · exact .inr (.inr ⟨rest, by rw [negative], by rw [takeSign, if_pos negative]⟩)
    · by_cases positive : first = plus
      · exact .inr (.inl ⟨rest, by rw [positive], by rw [takeSign, if_neg negative, if_pos positive]⟩)
      · exact .inl (by rw [takeSign, if_neg negative, if_neg positive])

private theorem scanInteger_begins (scanned : scanInteger bytes = some (number, rest)) : Begins bytes number rest := by
  have longest : ∀ unsigned : Bytes, ∀ byte, (unsigned.dropWhile isDigit).head? = some byte → isDigit byte = false := by
    intro unsigned byte first
    have stops := List.head?_dropWhile_not isDigit unsigned
    rwa [first] at stops
  have decimal : ∀ unsigned : Bytes, ∀ byte ∈ unsigned.takeWhile isDigit, isDigit byte = true :=
    fun _ _ member => List.mem_takeWhile_imp member
  unfold scanInteger at scanned
  rcases takeSign_split bytes with same | ⟨unsigned, rfl, same⟩ | ⟨unsigned, rfl, same⟩
  all_goals
    simp only [same] at scanned
    split at scanned
    · cases scanned
  next nonempty =>
    cases scanned
    exact ⟨⟨_, List.takeWhile_append_dropWhile.symm, .unsigned _ nonempty (decimal _)⟩, longest _⟩
  next nonempty =>
    cases scanned
    exact ⟨⟨_, by rw [List.cons_append, List.takeWhile_append_dropWhile], .positive _ nonempty (decimal _)⟩, longest _⟩
  next nonempty =>
    cases scanned
    exact ⟨⟨_, by rw [List.cons_append, List.takeWhile_append_dropWhile], .negative _ nonempty (decimal _)⟩, longest _⟩

theorem scanInteger_iff : scanInteger bytes = some (number, rest) ↔ Begins bytes number rest := by
  refine ⟨scanInteger_begins, fun ⟨⟨word, same, integer⟩, longest⟩ => ?_⟩
  subst same
  cases integer with
  | unsigned _ nonempty decimal =>
    obtain ⟨taken, dropped⟩ := digits_cut decimal longest
    simp only [scanInteger, takeSign_digits nonempty decimal, taken, dropped, if_neg nonempty, Bool.false_eq_true, if_false]
  | positive digits nonempty decimal =>
    obtain ⟨taken, dropped⟩ := digits_cut decimal longest
    have sign : takeSign (plus :: digits ++ rest) = (false, digits ++ rest) := rfl
    simp only [scanInteger, sign, taken, dropped, if_neg nonempty, Bool.false_eq_true, if_false]
  | negative digits nonempty decimal =>
    obtain ⟨taken, dropped⟩ := digits_cut decimal longest
    have sign : takeSign (minus :: digits ++ rest) = (true, digits ++ rest) := rfl
    simp only [scanInteger, sign, taken, dropped, if_neg nonempty, if_true]

theorem Begins.unique {other : Int} {left : Bytes} (begins : Begins bytes number rest) (again : Begins bytes other left) :
    number = other ∧ rest = left := by
  have same := (scanInteger_iff.mpr begins).symm.trans (scanInteger_iff.mpr again)
  simpa using same

theorem begins_whole : Begins bytes number [] ↔ Integer bytes number := by
  constructor
  · rintro ⟨⟨word, same, integer⟩, _⟩
    rw [List.append_nil] at same
    exact same ▸ integer
  · intro integer
    exact ⟨⟨bytes, (List.append_nil bytes).symm, integer⟩, by simp⟩

end Scan

end Kvasir.Numerals
