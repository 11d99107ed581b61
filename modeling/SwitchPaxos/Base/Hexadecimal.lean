import SwitchPaxos.Base.BigEndian
import Mathlib.Data.List.DropRight
import Mathlib.Data.List.SplitBy
import Mathlib.Algebra.Order.BigOperators.Group.List

/-!
# Hexadecimal text

Text is a byte string in ASCII.  Two digits write a byte; `int(text, 16)` reads
more than that: blanks around the number, a sign and a prefix, and any number
of digits.
-/

namespace SwitchPaxos

def hexDigit (n : ℕ) : UInt8 :=
  UInt8.ofNat (if n < 10 then 0x30 + n else 0x57 + n)

def hexValue (char : UInt8) : Option ℕ :=
  let code := char.toNat
  if 0x30 ≤ code ∧ code ≤ 0x39 then some (code - 0x30)
  else if 0x41 ≤ code ∧ code ≤ 0x46 then some (code - 0x37)
  else if 0x61 ≤ code ∧ code ≤ 0x66 then some (code - 0x57)
  else none

/-- A character in lower case. -/
def lowerChar (char : UInt8) : UInt8 :=
  if 0x41 ≤ char.toNat ∧ char.toNat ≤ 0x5A then char + 0x20 else char

def lower (text : Bytes) : Bytes := text.map lowerChar

/-- Two digits in lower case, `"%02x"`. -/
def hexByte (byte : UInt8) : Bytes :=
  [hexDigit (byte.toNat / 16), hexDigit (byte.toNat % 16)]

/-- Two digits, in any case. -/
def HexPair (text : Bytes) : Prop :=
  text.length = 2 ∧ ∀ char ∈ text, hexValue char ≠ none

instance (text : Bytes) : Decidable (HexPair text) :=
  inferInstanceAs (Decidable (_ ∧ _))

/-- Blank, tab, line feed, vertical tab, form feed and carriage return. -/
def isSpace (char : UInt8) : Bool :=
  char.toNat = 0x20 ∨ (0x09 ≤ char.toNat ∧ char.toNat ≤ 0x0D)

def strip (text : Bytes) : Bytes := (text.dropWhile isSpace).rdropWhile isSpace

/-- The sign of a number, and what is behind it. -/
def signed (text : Bytes) : ℤ × Bytes :=
  if text.head? = some 0x2D then (-1, text.tail)
  else if text.head? = some 0x2B then (1, text.tail)
  else (1, text)

/-- What is behind `0x` or `0X`. -/
def unprefixed (text : Bytes) : Bytes :=
  if text.head? = some 0x30 ∧
      (text.tail.head? = some 0x78 ∨ text.tail.head? = some 0x58) then
    text.tail.tail
  else text

def digitsValue (digits : Bytes) : Option ℕ :=
  if digits = [] then none
  else digits.foldlM
    (fun value digit => (hexValue digit).map fun d => 16 * value + d) 0

/-- `int(text, base=16)`, or nothing where it raises `ValueError`. -/
def intBase16 (text : Bytes) : Option ℤ :=
  let number := signed (strip text)
  (digitsValue (unprefixed number.2)).map fun value : ℕ =>
    number.1 * (value : ℤ)

theorem hexValue_hexDigit : ∀ n < 16, hexValue (hexDigit n) = some n := by
  decide

theorem lt_of_hexValue {char : UInt8} {n : ℕ} (value : hexValue char = some n) :
    n < 16 := by
  unfold hexValue at value
  dsimp only at value
  split at value
  · cases value; omega
  · split at value
    · cases value; omega
    · split at value
      · cases value; omega
      · cases value

theorem toNat_lowerChar (char : UInt8) :
    (lowerChar char).toNat =
      if 0x41 ≤ char.toNat ∧ char.toNat ≤ 0x5A then char.toNat + 0x20
      else char.toNat := by
  unfold lowerChar
  split
  · next upper =>
      rw [UInt8.toNat_add]
      have : (0x20 : UInt8).toNat = 0x20 := rfl
      omega
  · rfl

theorem toNat_hexDigit {n : ℕ} (small : n < 16) :
    (hexDigit n).toNat = if n < 10 then 0x30 + n else 0x57 + n := by
  unfold hexDigit
  rw [UInt8.toNat_ofNat']
  split <;> omega

/-- In lower case a digit is the one its value is written with. -/
theorem lowerChar_of_hexValue {char : UInt8} {n : ℕ}
    (value : hexValue char = some n) : lowerChar char = hexDigit n := by
  have small := lt_of_hexValue value
  apply UInt8.toNat_inj.mp
  rw [toNat_lowerChar, toNat_hexDigit small]
  unfold hexValue at value
  dsimp only at value
  split at value
  · cases value; split <;> split <;> omega
  · split at value
    · cases value; split <;> split <;> omega
    · split at value
      · cases value; split <;> split <;> omega
      · cases value

theorem hexValue_lowerChar (char : UInt8) :
    hexValue (lowerChar char) = hexValue char := by
  unfold hexValue
  simp only [toNat_lowerChar]
  by_cases upper : 0x41 ≤ char.toNat ∧ char.toNat ≤ 0x5A
  · simp only [if_pos upper]
    by_cases digit : char.toNat ≤ 0x46
    · rw [if_neg (by omega), if_neg (by omega), if_pos (by omega),
        if_neg (by omega), if_pos (by omega)]
      congr 1
    · rw [if_neg (by omega), if_neg (by omega), if_neg (by omega),
        if_neg (by omega), if_neg (by omega), if_neg (by omega)]
  · simp only [if_neg upper]

theorem hexPair_iff {text : Bytes} :
    HexPair text ↔ ∃ high low a b, text = [high, low] ∧
      hexValue high = some a ∧ hexValue low = some b := by
  constructor
  · rintro ⟨length, digits⟩
    obtain ⟨high, low, rfl⟩ := List.length_eq_two.mp length
    obtain ⟨a, first⟩ := Option.ne_none_iff_exists'.mp (digits high (by simp))
    obtain ⟨b, second⟩ := Option.ne_none_iff_exists'.mp (digits low (by simp))
    exact ⟨high, low, a, b, rfl, first, second⟩
  · rintro ⟨high, low, a, b, rfl, first, second⟩
    exact ⟨rfl, by simp [first, second]⟩

theorem hexPair_hexByte (byte : UInt8) : HexPair (hexByte byte) := by
  have bound := byte.toNat_lt
  exact hexPair_iff.mpr ⟨_, _, _, _, rfl,
    hexValue_hexDigit _ (by omega), hexValue_hexDigit _ (by omega)⟩

theorem hexPair_lower {text : Bytes} : HexPair (lower text) ↔ HexPair text := by
  simp [HexPair, lower, hexValue_lowerChar]

private theorem not_space_of_hexValue {char : UInt8} {n : ℕ}
    (value : hexValue char = some n) :
    isSpace char = false ∧ char ≠ 0x2D ∧ char ≠ 0x2B ∧ char ≠ 0x78 ∧
      char ≠ 0x58 := by
  refine ⟨?_, ?_, ?_, ?_, ?_⟩
  · unfold hexValue at value
    simp only [isSpace, decide_eq_false_iff_not]
    grind
  · rintro rfl; exact absurd value (by decide +revert)
  · rintro rfl; exact absurd value (by decide +revert)
  · rintro rfl; exact absurd value (by decide +revert)
  · rintro rfl; exact absurd value (by decide +revert)

theorem intBase16_pair {high low : UInt8} {a b : ℕ}
    (first : hexValue high = some a) (second : hexValue low = some b) :
    intBase16 [high, low] = some ((16 * a + b : ℕ) : ℤ) := by
  obtain ⟨highBlank, minus, plus, -, -⟩ := not_space_of_hexValue first
  obtain ⟨lowBlank, -, -, small, capital⟩ := not_space_of_hexValue second
  have stripped : strip [high, low] = [high, low] := by
    rw [strip, List.dropWhile_cons_of_neg (by simp [highBlank]),
      List.rdropWhile_eq_self_iff]
    simp [lowBlank]
  have positive : signed [high, low] = (1, [high, low]) := by
    simp [signed, minus, plus]
  have plain : unprefixed [high, low] = [high, low] := by
    simp [unprefixed, small, capital]
  simp [intBase16, stripped, positive, plain, digitsValue, first, second]

theorem intBase16_hexByte (byte : UInt8) :
    intBase16 (hexByte byte) = some (byte.toNat : ℤ) := by
  have bound := byte.toNat_lt
  rw [hexByte, intBase16_pair (hexValue_hexDigit _ (by omega))
    (hexValue_hexDigit _ (by omega)), Nat.div_add_mod]

theorem foldlM_hexValue_lt {digits : Bytes} {start n : ℕ}
    (value : digits.foldlM
      (fun value digit => (hexValue digit).map fun d => 16 * value + d) start =
        some n) : n < (start + 1) * 16 ^ digits.length := by
  induction digits generalizing start with
  | nil =>
      cases value
      simp
  | cons digit digits induction =>
      cases read : hexValue digit with
      | none => simp [read] at value
      | some d =>
          simp only [List.foldlM_cons, read, Option.map_some,
            Option.bind_eq_bind, Option.bind_some] at value
          have small := lt_of_hexValue read
          have carried : 16 * start + d + 1 ≤ 16 * start + 16 := by omega
          calc n < (16 * start + d + 1) * 16 ^ digits.length := induction value
            _ ≤ (16 * start + 16) * 16 ^ digits.length :=
              Nat.mul_le_mul_right _ carried
            _ = (start + 1) * 16 ^ (digit :: digits).length := by
              rw [List.length_cons, pow_succ]; ring

/-- A number has as many digits as it needs. -/
theorem natAbs_intBase16_lt {text : Bytes} {n : ℤ}
    (value : intBase16 text = some n) : n.natAbs < 16 ^ text.length := by
  have stripped : (strip text).length ≤ text.length :=
    (List.rdropWhile_prefix _ _).length_le.trans
      (List.dropWhile_suffix _).length_le
  have behind : (signed (strip text)).2.length ≤ (strip text).length := by
    unfold signed
    split
    · simp
    · split <;> simp
  have sign : (signed (strip text)).1.natAbs = 1 := by
    unfold signed
    split
    · rfl
    · split <;> rfl
  have digits : (unprefixed (signed (strip text)).2).length ≤
      (signed (strip text)).2.length := by
    unfold unprefixed
    split <;> simp
    omega
  obtain ⟨magnitude, read, rfl⟩ := Option.map_eq_some_iff.mp value
  rw [Int.natAbs_mul, sign, one_mul, Int.natAbs_natCast]
  unfold digitsValue at read
  split at read
  · cases read
  · have bound := foldlM_hexValue_lt read
    rw [zero_add, one_mul] at bound
    exact bound.trans_le (Nat.pow_le_pow_right (by decide) (by omega))

theorem intBase16_nil : intBase16 [] = none := rfl

theorem length_intercalate_singleton {α : Type} (separator : α)
    {groups : List (List α)} (some : groups ≠ []) :
    ([separator].intercalate groups).length + 1 =
      (groups.map fun group => group.length + 1).sum := by
  induction groups with
  | nil => exact absurd rfl some
  | cons group groups induction =>
      cases groups with
      | nil => simp
      | cons next groups =>
          have rest := induction (List.cons_ne_nil next groups)
          rw [List.intercalate_cons_cons, List.map_cons, List.sum_cons, ← rest]
          simp
          omega

end SwitchPaxos
