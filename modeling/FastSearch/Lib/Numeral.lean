import Mathlib.Algebra.Order.Ring.Int

/-!
# Decimal numerals

The 32-bit integers that a decimal text is read as: an optional sign and at least one digit of any
script, within the bounds of the type.
-/

namespace Numeral

/-- The code units that are the digit zero of a script. -/
def zeros : List Nat :=
  [0x30, 0x660, 0x6F0, 0x7C0, 0x966, 0x9E6, 0xA66, 0xAE6, 0xB66, 0xBE6, 0xC66, 0xCE6, 0xD66,
    0xDE6, 0xE50, 0xED0, 0xF20, 0x1040, 0x1090, 0x17E0, 0x1810, 0x1946, 0x19D0, 0x1A80, 0x1A90,
    0x1B50, 0x1BB0, 0x1C40, 0x1C50, 0xA620, 0xA8D0, 0xA900, 0xA9D0, 0xA9F0, 0xAA50, 0xABF0,
    0xFF10]

/-- The value of a digit. -/
def digit (c : Char) : Option Nat :=
  (zeros.find? fun z ↦ z ≤ c.toNat ∧ c.toNat < z + 10).map fun z ↦ c.toNat - z

/-- The number that some digits are, after a number. -/
def number : Nat → List Char → Option Nat
  | n, [] => some n
  | n, c :: cs => (digit c).bind fun d ↦ number (10 * n + d) cs

/-- `Integer.parseInt`: the empty text, a sign alone and an overflow are no numerals. -/
def parseInt (text : List Char) : Option Int :=
  match text with
  | [] => none
  | '-' :: cs =>
    if cs = [] then none
    else (number 0 cs).bind fun n ↦ if n ≤ 2 ^ 31 then some (-n : Int) else none
  | '+' :: cs =>
    if cs = [] then none
    else (number 0 cs).bind fun n ↦ if n < 2 ^ 31 then some n else none
  | cs => (number 0 cs).bind fun n ↦ if n < 2 ^ 31 then some n else none

/-- A decimal digit is its distance from `0`. -/
theorem digit_of_isDigit {c : Char} (h : c.isDigit = true) : digit c = some (c.toNat - 48) := by
  simp only [Char.isDigit, Bool.and_eq_true, decide_eq_true_eq] at h
  have hlo : 48 ≤ c.toNat := h.1
  have hhi : c.toNat ≤ 57 := h.2
  simp [digit, zeros, hlo, show c.toNat < 58 by omega]

/-- Decimal digits are read as the number they spell. -/
theorem number_of_isDigit {cs : List Char} (h : ∀ c ∈ cs, c.isDigit = true) (n : Nat) :
    number n cs = some (Nat.ofDigitChars 10 cs n) := by
  induction cs generalizing n with
  | nil => rfl
  | cons c cs ih =>
    rw [number, digit_of_isDigit (h c List.mem_cons_self), Option.bind_some,
      ih fun d hd ↦ h d (List.mem_cons_of_mem c hd)]
    rfl

/-- Only digits are printed. -/
theorem notMem_repr {c : Char} (h : c.isDigit = false) (n : Nat) : c ∉ n.repr.toList := by
  rw [Nat.toList_repr]
  intro hc
  rw [Nat.isDigit_of_mem_toDigits (by decide) (by decide) hc] at h
  cases h

/-- A printed natural number is read back, within the bounds. -/
theorem parseInt_repr {n : Nat} (h : n < 2 ^ 31) : parseInt n.repr.toList = some (n : Int) := by
  have hd : ∀ c ∈ Nat.toDigits 10 n, c.isDigit = true := fun c hc ↦
    Nat.isDigit_of_mem_toDigits (by decide) (by decide) hc
  have hn : number 0 (Nat.toDigits 10 n) = some n := by
    rw [number_of_isDigit hd, Nat.ofDigitChars_ten_toDigits]
  rw [Nat.toList_repr, parseInt, hn, Option.bind_some, if_pos h]
  · exact Nat.toDigits_ne_nil
  · exact fun cs he ↦ absurd (hd '-' (he ▸ List.mem_cons_self)) (by decide)
  · exact fun cs he ↦ absurd (hd '+' (he ▸ List.mem_cons_self)) (by decide)

/-- A printed integer is read back, within the bounds. -/
theorem parseInt_toString {n : Int} (hlo : -2 ^ 31 ≤ n) (hhi : n < 2 ^ 31) :
    parseInt (toString n).toList = some n := by
  cases n with
  | ofNat m => exact parseInt_repr (by simpa using hhi)
  | negSucc m =>
    have hd : ∀ c ∈ Nat.toDigits 10 (m + 1), c.isDigit = true := fun c hc ↦
      Nat.isDigit_of_mem_toDigits (by decide) (by decide) hc
    have hs : (toString (Int.negSucc m)).toList = '-' :: Nat.toDigits 10 (m + 1) := by
      show (("-" : String) ++ (m + 1).repr).toList = _
      rw [String.toList_append, Nat.toList_repr]
      rfl
    rw [hs, parseInt, if_neg Nat.toDigits_ne_nil, number_of_isDigit hd,
      Nat.ofDigitChars_ten_toDigits, Option.bind_some, if_pos (by omega)]
    rfl

/-- The byte that is printed as the text: digits of other scripts and leading zeros are refused. -/
def readByte (text : List Char) : Option UInt8 :=
  (number 0 text).bind fun n ↦ if n < 256 ∧ n.repr.toList = text then some (UInt8.ofNat n) else none

theorem readByte_repr (a : UInt8) : readByte a.toNat.repr.toList = some a := by
  have hd : ∀ c ∈ Nat.toDigits 10 a.toNat, c.isDigit = true := fun c hc ↦
    Nat.isDigit_of_mem_toDigits (by decide) (by decide) hc
  have hn : number 0 a.toNat.repr.toList = some a.toNat := by
    rw [Nat.toList_repr, number_of_isDigit hd, Nat.ofDigitChars_ten_toDigits]
  rw [readByte, hn, Option.bind_some, if_pos ⟨a.toNat_lt, rfl⟩, UInt8.ofNat_toNat]

end Numeral
