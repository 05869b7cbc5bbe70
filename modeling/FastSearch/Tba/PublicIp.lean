import FastSearch.Lib.Regex

/-!
# The public address

`tbalog/TbaUtils.kt` and `network/OkHttpManager.kt`: the pattern of an address, and the request
for the public address with its two layers of exception handlers. The pattern is matched by the
platform, which decides what `\d` stands for: on every platform the ten ASCII digits, and on
Android the decimal digits of all scripts.
-/

namespace FastSearch.Tba

/-- The class `\d` of the platform's expressions. -/
structure DigitClass where
  contains : Char → Bool
  /-- Among the ASCII characters it has the ten digits. -/
  ascii : ∀ c : Char, c.toNat < 128 → contains c = c.isDigit

/-- The class `[0-9]`. -/
def DigitClass.asciiOnly : DigitClass := ⟨Char.isDigit, fun _ _ ↦ rfl⟩

/-! ### The pattern -/

section Pattern

variable (d : DigitClass)

/-- A range `[lo-hi]` of characters. -/
def range (lo hi : Char) : Regex Char := .cls fun c ↦ decide (lo ≤ c ∧ c ≤ hi)

/-- One character. -/
def lit (a : Char) : Regex Char := .cls fun c ↦ c == a

/-- `\d`. -/
def DigitClass.digit : Regex Char := .cls d.contains

/-- `(one|[1-9]\d|1\d{2}|2[0-4]\d|25[0-5])`. -/
def octet (one : Regex Char) : Regex Char :=
  .alt one <| .alt (.seq (range '1' '9') d.digit) <| .alt (.seq (lit '1') (d.digit.rep 2)) <|
    .alt (.seq (lit '2') (.seq (range '0' '4') d.digit))
      (.seq (lit '2') (.seq (lit '5') (range '0' '5')))

/-- The expression of `isCorrectIp`, `tbalog/TbaUtils.kt:143`. -/
def ip : Regex Char :=
  .seq (octet d (range '1' '9')) (.rep (.seq (lit '.') (octet d d.digit)) 3)

end Pattern

/-! ### The request -/

/-- What the calls throw. -/
inductive Thrown where
  | nullPointer
  | raised (message : String)
  deriving DecidableEq, Repr

/-- `TabUtils.isCorrectIp`, `tbalog/TbaUtils.kt:143`: the matcher refuses `null`, and the whole
text has to match. -/
def isCorrectIp (d : DigitClass) : Option String → Except Thrown Bool
  | none => throw .nullPointer
  | some ipAddress => pure ((ip d).accepts ipAddress.toList)

/-- `IPBean`, `network/OkHttpManager.kt:57`. Gson writes the fields directly, and leaves those the
text does not have at `null`. -/
structure IPBean where
  ip : Option String
  country : Option String
  deriving DecidableEq, Repr

/-- `IPBean("", "")`. -/
def IPBean.empty : IPBean := ⟨some "", some ""⟩

/-- A response of the HTTP client: `string` is what `body?.string()` gives, which may be `null`
and may throw. -/
structure Response where
  isSuccessful : Bool
  string : Except Thrown (Option String)

/-- `TextUtils.isEmpty`. -/
def isEmpty : Option String → Bool
  | none => true
  | some text => text == ""

section Request

-- `fromJson` is Gson's for `IPBean`: it throws, or gives `null` or a bean.
variable (d : DigitClass) (fromJson : Option String → Except Thrown (Option IPBean))

/-- The inner block, `network/OkHttpManager.kt:71`. -/
def readBean (body : Option String) : Except Thrown IPBean := do
  match ← fromJson body with
  | none => throw .nullPointer
  | some ipBean =>
    if !(← isCorrectIp d ipBean.ip) then
      return { ipBean with ip := some "" }
    return ipBean

/-- `getPublicIPAndCon`, `network/OkHttpManager.kt:60`, for an outcome of the call. The outer
handler returns the bean that was there before the inner block, for the inner one catches all its
own. -/
def getPublicIPAndCon (execute : Except Thrown Response) : Except Thrown IPBean :=
  tryCatch (do
    let r ← execute
    if r.isSuccessful then
      let body ← r.string
      if !isEmpty body then
        tryCatch (readBean d fromJson body) fun _ ↦ pure IPBean.empty
      else
        pure IPBean.empty
    else
      pure IPBean.empty) fun _ ↦ pure IPBean.empty

end Request

/-! ### Addresses -/

/-- Four decimal numerals joined by dots, the first of a number from 1 to 255 and the others of
numbers up to 255. -/
def IsAddress (s : String) : Prop :=
  ∃ a b c e : Nat, (1 ≤ a ∧ a ≤ 255) ∧ b ≤ 255 ∧ c ≤ 255 ∧ e ≤ 255 ∧
    s = toString a ++ "." ++ toString b ++ "." ++ toString c ++ "." ++ toString e

/-- A word of one to three characters that reads as a number up to 255 if any digit of the class
may stand in the places that are free: the only place, the last of two, the last two after a 1,
and the last after 20 to 24. A leading word has no free place when it has only one. -/
def Spelled (d : DigitClass) (leading : Bool) : List Char → Prop
  | [x] => if leading then '1' ≤ x ∧ x ≤ '9' else d.contains x
  | [a, x] => ('1' ≤ a ∧ a ≤ '9') ∧ d.contains x
  | [a, x, y] =>
    (a = '1' ∧ d.contains x ∧ d.contains y) ∨ (a = '2' ∧ ('0' ≤ x ∧ x ≤ '4') ∧ d.contains y) ∨
      (a = '2' ∧ x = '5' ∧ '0' ≤ y ∧ y ≤ '5')
  | _ => False

instance (d : DigitClass) (leading : Bool) : ∀ w, Decidable (Spelled d leading w)
  | [] => inferInstanceAs (Decidable False)
  | [x] =>
    inferInstanceAs (Decidable (if leading then '1' ≤ x ∧ x ≤ '9' else d.contains x = true))
  | [a, x] => inferInstanceAs (Decidable (('1' ≤ a ∧ a ≤ '9') ∧ d.contains x = true))
  | [a, x, y] => inferInstanceAs (Decidable (
      (a = '1' ∧ d.contains x = true ∧ d.contains y = true) ∨
        (a = '2' ∧ ('0' ≤ x ∧ x ≤ '4') ∧ d.contains y = true) ∨
        (a = '2' ∧ x = '5' ∧ '0' ≤ y ∧ y ≤ '5')))
  | _ :: _ :: _ :: _ :: _ => inferInstanceAs (Decidable False)

/-- Four such words joined by dots. -/
def FourSpelled (d : DigitClass) (s : String) : Prop :=
  ∃ u v w x, s.toList = u ++ '.' :: v ++ '.' :: w ++ '.' :: x ∧
    Spelled d true u ∧ Spelled d false v ∧ Spelled d false w ∧ Spelled d false x

/-- A text that looks like an address and has a digit that is not ASCII in a free place. -/
def Lookalike (d : DigitClass) (s : String) : Prop :=
  FourSpelled d s ∧ ∃ c ∈ s.toList, 128 ≤ c.toNat

section Octets

variable {d : DigitClass}

private theorem matches_range {lo hi : Char} {w : List Char} :
    (range lo hi).Matches w ↔ ∃ x, w = [x] ∧ lo ≤ x ∧ x ≤ hi := by
  simp only [range, Regex.matches_cls, decide_eq_true_eq]

private theorem matches_lit_seq {a : Char} {r : Regex Char} {w : List Char} :
    (Regex.seq (lit a) r).Matches w ↔ ∃ v, w = a :: v ∧ r.Matches v := by
  simp only [lit, Regex.matches_cls_seq, beq_iff_eq]
  constructor
  · rintro ⟨_, v, hw, rfl, hv⟩
    exact ⟨v, hw, hv⟩
  · rintro ⟨v, hw, hv⟩
    exact ⟨a, v, hw, rfl, hv⟩

private theorem matches_range_seq {lo hi : Char} {r : Regex Char} {w : List Char} :
    (Regex.seq (range lo hi) r).Matches w ↔
      ∃ x v, w = x :: v ∧ (lo ≤ x ∧ x ≤ hi) ∧ r.Matches v := by
  simp only [range, Regex.matches_cls_seq, decide_eq_true_eq]

private theorem matches_digit {w : List Char} :
    d.digit.Matches w ↔ ∃ x, w = [x] ∧ d.contains x :=
  Regex.matches_cls

private theorem matches_two_digits {w : List Char} :
    (d.digit.rep 2).Matches w ↔ ∃ x y, w = [x, y] ∧ d.contains x ∧ d.contains y := by
  simp only [DigitClass.digit, Regex.rep, Regex.matches_cls_seq]
  constructor
  · rintro ⟨x, _, rfl, hx, y, _, rfl, hy, rfl⟩
    exact ⟨x, y, rfl, hx, hy⟩
  · rintro ⟨x, y, rfl, hx, hy⟩
    exact ⟨x, [y], rfl, hx, y, [], rfl, hy, rfl⟩

/-- The words of an octet are the spelled ones: the pattern has one alternative for each shape. -/
private theorem matches_octet {one : Regex Char} {leading : Bool} {w : List Char}
    (h : ∀ w, one.Matches w ↔ ∃ x, w = [x] ∧ Spelled d leading [x]) :
    (octet d one).Matches w ↔ Spelled d leading w := by
  simp only [octet, Regex.matches_alt, h, matches_lit_seq, matches_range_seq, matches_range,
    matches_two_digits, matches_digit]
  constructor
  · rintro (⟨x, rfl, hx⟩ | ⟨a, _, rfl, ha, x, rfl, hx⟩ | ⟨_, rfl, x, y, rfl, hx, hy⟩ |
      ⟨_, rfl, x, _, rfl, hx, y, rfl, hy⟩ | ⟨_, rfl, _, rfl, y, rfl, hy⟩)
    · exact hx
    · exact ⟨ha, hx⟩
    · exact Or.inl ⟨rfl, hx, hy⟩
    · exact Or.inr (Or.inl ⟨rfl, hx, hy⟩)
    · exact Or.inr (Or.inr ⟨rfl, rfl, hy⟩)
  · intro hw
    match w, hw with
    | [x], hx => exact Or.inl ⟨x, rfl, hx⟩
    | [a, x], ⟨ha, hx⟩ => exact Or.inr (Or.inl ⟨a, [x], rfl, ha, x, rfl, hx⟩)
    | [_, x, y], Or.inl ⟨rfl, hx, hy⟩ =>
      exact Or.inr (Or.inr (Or.inl ⟨[x, y], rfl, x, y, rfl, hx, hy⟩))
    | [_, x, y], Or.inr (Or.inl ⟨rfl, hx, hy⟩) =>
      exact Or.inr (Or.inr (Or.inr (Or.inl ⟨[x, y], rfl, x, [y], rfl, hx, y, rfl, hy⟩)))
    | [_, _, y], Or.inr (Or.inr ⟨rfl, rfl, hy⟩) =>
      exact Or.inr (Or.inr (Or.inr (Or.inr ⟨['5', y], rfl, [y], rfl, y, rfl, hy⟩)))

private theorem matches_first {w : List Char} :
    (octet d (range '1' '9')).Matches w ↔ Spelled d true w :=
  matches_octet fun _ ↦ matches_range

private theorem matches_next {w : List Char} :
    (octet d d.digit).Matches w ↔ Spelled d false w :=
  matches_octet fun _ ↦ matches_digit

/-- The pattern's words are four spelled words joined by dots. -/
theorem matches_ip_iff {s : String} : (ip d).Matches s.toList ↔ FourSpelled d s := by
  simp only [ip, Regex.rep, Regex.matches_seq, matches_first]
  constructor
  · rintro ⟨u, _, hs, hu, _, _, rfl, h₁, _, _, rfl, h₂, _, _, rfl, h₃, rfl⟩
    obtain ⟨v, rfl, hv⟩ := matches_lit_seq.mp h₁
    obtain ⟨w, rfl, hw⟩ := matches_lit_seq.mp h₂
    obtain ⟨x, rfl, hx⟩ := matches_lit_seq.mp h₃
    exact ⟨u, v, w, x, by simpa using hs, hu, matches_next.mp hv, matches_next.mp hw,
      matches_next.mp hx⟩
  · rintro ⟨u, v, w, x, hs, hu, hv, hw, hx⟩
    have dotted : ∀ {y : List Char}, Spelled d false y →
        (Regex.seq (lit '.') (octet d d.digit)).Matches ('.' :: y) := fun h ↦
      matches_lit_seq.mpr ⟨_, rfl, matches_next.mpr h⟩
    exact ⟨u, _, by simpa using hs, hu, '.' :: v, _, rfl, dotted hv, '.' :: w, _, rfl, dotted hw,
      '.' :: x, [], (List.append_nil _).symm, dotted hx, rfl⟩

end Octets

/-! ### Numerals -/

section Numerals

private theorem toNat_digitChar {k : Nat} (h : k < 10) : k.digitChar.toNat = 48 + k := by
  have : ∀ k < 10, (Nat.digitChar k).toNat = 48 + k := by decide
  exact this k h

private theorem exists_digitChar {c : Char} (h : c.isDigit = true) :
    ∃ k < 10, c = k.digitChar := by
  rw [Char.isDigit, Bool.and_eq_true, decide_eq_true_eq, decide_eq_true_eq] at h
  have h₁ : 48 ≤ c.toNat := UInt32.le_iff_toNat_le.mp h.1
  have h₂ : c.toNat ≤ 57 := UInt32.le_iff_toNat_le.mp h.2
  refine ⟨c.toNat - 48, by omega, Char.toNat_inj.mp ?_⟩
  rw [toNat_digitChar (by omega)]
  omega

private theorem toNat_lt_of_isDigit {c : Char} (h : c.isDigit = true) : c.toNat < 128 := by
  obtain ⟨k, hk, rfl⟩ := exists_digitChar h
  rw [toNat_digitChar hk]
  omega

/-- The order of the digits is that of their values. -/
private theorem digitChar_le_iff {i j : Nat} (hi : i < 10) (hj : j < 10) :
    i.digitChar ≤ j.digitChar ↔ i ≤ j := by
  rw [Char.le_def, UInt32.le_iff_toNat_le]
  change i.digitChar.toNat ≤ j.digitChar.toNat ↔ i ≤ j
  rw [toNat_digitChar hi, toNat_digitChar hj]
  omega

private theorem toDigits_two {n : Nat} (h₁ : 10 ≤ n) (h₂ : n < 100) :
    Nat.toDigits 10 n = [(n / 10).digitChar, (n % 10).digitChar] := by
  rw [Nat.toDigits_of_base_le (by decide) h₁, Nat.toDigits_of_lt_base (by omega)]
  rfl

private theorem toDigits_three {n : Nat} (h₁ : 100 ≤ n) (h₂ : n < 1000) :
    Nat.toDigits 10 n = [(n / 100).digitChar, (n / 10 % 10).digitChar, (n % 10).digitChar] := by
  rw [Nat.toDigits_of_base_le (by decide) (by omega), toDigits_two (by omega) (by omega),
    Nat.div_div_eq_div_mul]
  rfl

variable {d : DigitClass} {leading : Bool}

private theorem contains_digitChar {k : Nat} (h : k < 10) : d.contains k.digitChar = true := by
  rw [d.ascii _ (by rw [toNat_digitChar h]; omega), Nat.isDigit_digitChar]
  exact decide_eq_true h

private theorem spelled_one {i : Nat} (hi : i < 10) :
    Spelled d leading [i.digitChar] ↔ (if leading then 1 else 0) ≤ i := by
  cases leading with
  | true =>
    have h₁ := digitChar_le_iff (i := 1) (by decide) hi
    have h₂ := digitChar_le_iff hi (j := 9) (by decide)
    change '1' ≤ i.digitChar ∧ i.digitChar ≤ '9' ↔ 1 ≤ i
    rw [show '1' = Nat.digitChar 1 from rfl, show '9' = Nat.digitChar 9 from rfl, h₁, h₂]
    omega
  | false => exact iff_of_true (contains_digitChar hi) (Nat.zero_le i)

private theorem spelled_two {i j : Nat} (hi : i < 10) (hj : j < 10) :
    Spelled d leading [i.digitChar, j.digitChar] ↔ 1 ≤ i := by
  have h₁ := digitChar_le_iff (i := 1) (by decide) hi
  have h₂ := digitChar_le_iff hi (j := 9) (by decide)
  change ('1' ≤ i.digitChar ∧ i.digitChar ≤ '9') ∧ d.contains j.digitChar = true ↔ 1 ≤ i
  rw [show '1' = Nat.digitChar 1 from rfl, show '9' = Nat.digitChar 9 from rfl, h₁, h₂,
    and_iff_left (contains_digitChar hj)]
  omega

private theorem spelled_three {i j k : Nat} (hi : i < 10) (hj : j < 10) (hk : k < 10) :
    Spelled d leading [i.digitChar, j.digitChar, k.digitChar] ↔
      1 ≤ i ∧ 100 * i + 10 * j + k ≤ 255 := by
  have h₁ := digitChar_le_iff (i := 0) (by decide) hj
  have h₂ := digitChar_le_iff hj (j := 4) (by decide)
  have h₃ := digitChar_le_iff (i := 0) (by decide) hk
  have h₄ := digitChar_le_iff hk (j := 5) (by decide)
  simp only [Spelled, contains_digitChar hj, contains_digitChar hk, Nat.digitChar_eq_one,
    Nat.digitChar_eq_two, Nat.digitChar_eq_five, and_true]
  rw [show '0' = Nat.digitChar 0 from rfl, show '4' = Nat.digitChar 4 from rfl,
    show '5' = Nat.digitChar 5 from rfl, h₁, h₂, h₃, h₄]
  omega

private theorem exists_digitChar_of_contains {c : Char} (h : d.contains c = true)
    (ha : c.toNat < 128) : ∃ k < 10, c = k.digitChar :=
  exists_digitChar (by rw [← d.ascii c ha, h])

private theorem exists_digitChar_of_range {c lo hi : Char} (h : lo ≤ c ∧ c ≤ hi)
    (hlo : '0' ≤ lo) (hhi : hi ≤ '9') : ∃ k < 10, c = k.digitChar := by
  apply exists_digitChar
  rw [Char.isDigit, Bool.and_eq_true, decide_eq_true_eq, decide_eq_true_eq]
  exact ⟨Char.le_trans hlo h.1, Char.le_trans h.2 hhi⟩

/-- A spelled word whose digits are ASCII has one to three of them. -/
private theorem digits_of_spelled {w : List Char} (h : Spelled d leading w)
    (ha : ∀ c ∈ w, d.contains c = true → c.toNat < 128) :
    (∃ i < 10, w = [i.digitChar]) ∨ (∃ i < 10, ∃ j < 10, w = [i.digitChar, j.digitChar]) ∨
      ∃ i < 10, ∃ j < 10, ∃ k < 10, w = [i.digitChar, j.digitChar, k.digitChar] := by
  match w, h with
  | [x], h =>
    left
    cases leading with
    | true =>
      obtain ⟨i, hi, rfl⟩ := exists_digitChar_of_range h (by decide) (by decide)
      exact ⟨i, hi, rfl⟩
    | false =>
      obtain ⟨i, hi, rfl⟩ := exists_digitChar_of_contains h (ha x (by simp) h)
      exact ⟨i, hi, rfl⟩
  | [a, x], ⟨h₁, h₂⟩ =>
    right; left
    obtain ⟨i, hi, rfl⟩ := exists_digitChar_of_range h₁ (by decide) (by decide)
    obtain ⟨j, hj, rfl⟩ := exists_digitChar_of_contains h₂ (ha x (by simp) h₂)
    exact ⟨i, hi, j, hj, rfl⟩
  | [_, x, y], Or.inl ⟨rfl, hx, hy⟩ =>
    right; right
    obtain ⟨j, hj, rfl⟩ := exists_digitChar_of_contains hx (ha x (by simp) hx)
    obtain ⟨k, hk, rfl⟩ := exists_digitChar_of_contains hy (ha y (by simp) hy)
    exact ⟨1, by decide, j, hj, k, hk, rfl⟩
  | [_, x, y], Or.inr (Or.inl ⟨rfl, hx, hy⟩) =>
    right; right
    obtain ⟨j, hj, rfl⟩ := exists_digitChar_of_range hx (by decide) (by decide)
    obtain ⟨k, hk, rfl⟩ := exists_digitChar_of_contains hy (ha y (by simp) hy)
    exact ⟨2, by decide, j, hj, k, hk, rfl⟩
  | [_, _, y], Or.inr (Or.inr ⟨rfl, rfl, hy⟩) =>
    right; right
    obtain ⟨k, hk, rfl⟩ := exists_digitChar_of_range hy (by decide) (by decide)
    exact ⟨2, by decide, 5, by decide, k, hk, rfl⟩

/-- The spelled ASCII words are the numerals of the numbers up to 255. -/
private theorem spelled_ascii_iff {w : List Char} :
    (Spelled d leading w ∧ ∀ c ∈ w, c.toNat < 128) ↔
      ∃ n, (if leading then 1 else 0) ≤ n ∧ n ≤ 255 ∧ w = Nat.toDigits 10 n := by
  constructor
  · rintro ⟨h, ha⟩
    obtain ⟨i, hi, rfl⟩ | ⟨i, hi, j, hj, rfl⟩ | ⟨i, hi, j, hj, k, hk, rfl⟩ :=
      digits_of_spelled h fun c hc _ ↦ ha c hc
    · exact ⟨i, (spelled_one hi).mp h, by omega, (Nat.toDigits_of_lt_base hi).symm⟩
    · have h₁ : 1 ≤ i := (spelled_two hi hj).mp h
      refine ⟨10 * i + j, by split <;> omega, by omega, ?_⟩
      rw [toDigits_two (by omega) (by omega), show (10 * i + j) / 10 = i by omega,
        show (10 * i + j) % 10 = j by omega]
    · obtain ⟨h₁, h₂⟩ := (spelled_three hi hj hk).mp h
      refine ⟨100 * i + 10 * j + k, by split <;> omega, h₂, ?_⟩
      rw [toDigits_three (by omega) (by omega), show (100 * i + 10 * j + k) / 100 = i by omega,
        show (100 * i + 10 * j + k) / 10 % 10 = j by omega,
        show (100 * i + 10 * j + k) % 10 = k by omega]
  · rintro ⟨n, h₁, h₂, rfl⟩
    refine ⟨?_, fun c hc ↦ ?_⟩
    · -- by the number of digits
      obtain hn | hn | hn : n < 10 ∨ (10 ≤ n ∧ n < 100) ∨ 100 ≤ n := by omega
      · rw [Nat.toDigits_of_lt_base hn]
        exact (spelled_one hn).mpr h₁
      · rw [toDigits_two hn.1 hn.2]
        exact (spelled_two (by omega) (by omega)).mpr (by omega)
      · rw [toDigits_three hn (by omega)]
        exact (spelled_three (by omega) (by omega) (by omega)).mpr (by omega)
    · exact toNat_lt_of_isDigit (Nat.isDigit_of_mem_toDigits (by decide) (by decide) hc)

/-- Where `\d` is `[0-9]`, spelled words are ASCII. -/
private theorem toNat_lt_of_spelled {w : List Char} (h : Spelled .asciiOnly leading w) :
    ∀ c ∈ w, c.toNat < 128 := by
  have hd : ∀ k < 10, (Nat.digitChar k).toNat < 128 := fun k hk ↦
    toNat_lt_of_isDigit (Nat.isDigit_digitChar.trans (decide_eq_true hk))
  obtain ⟨i, hi, rfl⟩ | ⟨i, hi, j, hj, rfl⟩ | ⟨i, hi, j, hj, k, hk, rfl⟩ :=
    digits_of_spelled h fun _ _ ↦ toNat_lt_of_isDigit
  · simp [hd i hi]
  · simp [hd i hi, hd j hj]
  · simp [hd i hi, hd j hj, hd k hk]

end Numerals

/-! ### What is accepted -/

section Accepted

variable {d : DigitClass}

private theorem toList_join {a b c e : Nat} :
    (toString a ++ "." ++ toString b ++ "." ++ toString c ++ "." ++ toString e).toList =
      Nat.toDigits 10 a ++ '.' :: Nat.toDigits 10 b ++ '.' :: Nat.toDigits 10 c ++
        '.' :: Nat.toDigits 10 e := by
  simp [String.toList_append, Nat.toString_eq_repr]

/-- A text joined by dots is ASCII if its four words are. -/
private theorem ascii_join {u v w x : List Char} :
    (∀ c ∈ u ++ '.' :: v ++ '.' :: w ++ '.' :: x, c.toNat < 128) ↔
      (∀ c ∈ u, c.toNat < 128) ∧ (∀ c ∈ v, c.toNat < 128) ∧ (∀ c ∈ w, c.toNat < 128) ∧
        ∀ c ∈ x, c.toNat < 128 := by
  have hdot : '.'.toNat < 128 := by decide
  simp only [List.forall_mem_append, List.forall_mem_cons, hdot, true_and, and_assoc]

/-- The addresses are the texts of four spelled words in which everything is ASCII. -/
theorem isAddress_iff {s : String} :
    IsAddress s ↔ FourSpelled d s ∧ ∀ c ∈ s.toList, c.toNat < 128 := by
  constructor
  · rintro ⟨a, b, c, e, ha, hb, hc, he, rfl⟩
    have ha' := (@spelled_ascii_iff d true _).mpr ⟨a, ha.1, ha.2, rfl⟩
    have numeral : ∀ n ≤ 255, Spelled d false (Nat.toDigits 10 n) ∧
        ∀ x ∈ Nat.toDigits 10 n, x.toNat < 128 := fun n hn ↦
      spelled_ascii_iff.mpr ⟨n, Nat.zero_le n, hn, rfl⟩
    refine ⟨⟨_, _, _, _, toList_join, ha'.1, (numeral b hb).1, (numeral c hc).1,
      (numeral e he).1⟩, ?_⟩
    rw [toList_join]
    exact ascii_join.mpr ⟨ha'.2, (numeral b hb).2, (numeral c hc).2, (numeral e he).2⟩
  · rintro ⟨⟨u, v, w, x, hs, hu, hv, hw, hx⟩, ha⟩
    rw [hs] at ha
    obtain ⟨hau, hav, haw, hax⟩ := ascii_join.mp ha
    obtain ⟨a, ha₁, ha₂, rfl⟩ := spelled_ascii_iff.mp ⟨hu, hau⟩
    obtain ⟨b, _, hb, rfl⟩ := spelled_ascii_iff.mp ⟨hv, hav⟩
    obtain ⟨c, _, hc, rfl⟩ := spelled_ascii_iff.mp ⟨hw, haw⟩
    obtain ⟨e, _, he, rfl⟩ := spelled_ascii_iff.mp ⟨hx, hax⟩
    exact ⟨a, b, c, e, ⟨ha₁, ha₂⟩, hb, hc, he, String.toList_inj.mp (hs.trans toList_join.symm)⟩

/-- The matcher accepts the texts of four spelled words. -/
theorem isCorrectIp_iff {s : String} : isCorrectIp d (some s) = .ok true ↔ FourSpelled d s := by
  rw [← matches_ip_iff, ← Regex.accepts_iff, isCorrectIp]
  constructor
  · intro h
    exact Except.ok.inj h
  · intro h
    exact congrArg Except.ok h

private theorem isAddress_of_not_lookalike {s : String} (h : FourSpelled d s)
    (hl : ¬ Lookalike d s) : IsAddress s := by
  refine isAddress_iff.mpr ⟨h, fun c hc ↦ ?_⟩
  apply Nat.lt_of_not_le
  intro hge
  exact hl ⟨h, c, hc, hge⟩

private theorem not_isAddress_of_lookalike {s : String} (h : Lookalike d s) : ¬ IsAddress s := by
  intro ha
  obtain ⟨_, c, hc, hge⟩ := h
  exact Nat.not_lt.mpr hge ((isAddress_iff (d := d)).mp ha |>.2 c hc)

/-- Where `\d` is `[0-9]`, no text is a lookalike. -/
theorem not_lookalike_asciiOnly {s : String} : ¬ Lookalike .asciiOnly s := by
  rintro ⟨⟨u, v, w, x, hs, hu, hv, hw, hx⟩, c, hc, hge⟩
  have ha := ascii_join.mpr ⟨toNat_lt_of_spelled hu, toNat_lt_of_spelled hv,
    toNat_lt_of_spelled hw, toNat_lt_of_spelled hx⟩
  rw [← hs] at ha
  exact Nat.not_lt.mpr hge (ha c hc)

end Accepted

/-! ### Every outcome of the request -/

section Outcomes

variable (d : DigitClass) (fromJson : Option String → Except Thrown (Option IPBean))

/-- The request returns a bean, whose address is empty or an address. -/
def ReturnsAddress (result : Except Thrown IPBean) : Prop :=
  ∃ bean, result = .ok bean ∧ (bean.ip = some "" ∨ ∃ s, bean.ip = some s ∧ IsAddress s)

/-- The response is successful, and its text gives a bean with the address `s`. -/
def Reads (execute : Except Thrown Response) (bean : IPBean) (s : String) : Prop :=
  ∃ text, execute = .ok ⟨true, .ok (some text)⟩ ∧ text ≠ "" ∧
    fromJson (some text) = .ok (some bean) ∧ bean.ip = some s

variable {d fromJson} {execute : Except Thrown Response}

/-- A text that is not empty is read, and any exception there gives the empty bean. -/
private theorem getPublicIPAndCon_of_text {text : String} (h : text ≠ "") :
    getPublicIPAndCon d fromJson (.ok ⟨true, .ok (some text)⟩) =
      tryCatch (readBean d fromJson (some text)) fun _ ↦ pure IPBean.empty := by
  have he : isEmpty (some text) = false := by simp [isEmpty, h]
  change tryCatch (if !isEmpty (some text) then
    tryCatch (readBean d fromJson (some text)) fun _ ↦ pure IPBean.empty
    else pure IPBean.empty) _ = _
  rw [he]
  cases readBean d fromJson (some text) <;> rfl

/-- The bean that was read is returned, with its address or without it. -/
private theorem getPublicIPAndCon_of_reads {bean : IPBean} {s : String}
    (h : Reads fromJson execute bean s) :
    getPublicIPAndCon d fromJson execute =
      .ok (if (ip d).accepts s.toList then bean else { bean with ip := some "" }) := by
  obtain ⟨text, rfl, hne, hj, hs⟩ := h
  obtain ⟨_, country⟩ := bean
  cases hs
  rw [getPublicIPAndCon_of_text hne, readBean, hj]
  change tryCatch (if !(ip d).accepts s.toList then pure (IPBean.mk (some "") country)
    else pure (IPBean.mk (some s) country)) _ = _
  cases (ip d).accepts s.toList <;> rfl

/-- Any other outcome gives the empty bean. -/
private theorem getPublicIPAndCon_of_not_reads (h : ∀ bean s, ¬ Reads fromJson execute bean s) :
    getPublicIPAndCon d fromJson execute = .ok IPBean.empty := by
  match execute, h with
  | .error _, _ => rfl
  | .ok ⟨false, _⟩, _ => rfl
  | .ok ⟨true, .error _⟩, _ => rfl
  | .ok ⟨true, .ok none⟩, _ => rfl
  | .ok ⟨true, .ok (some text)⟩, h =>
    by_cases he : text = ""
    · subst he
      rfl
    · rw [getPublicIPAndCon_of_text he, readBean]
      match hj : fromJson (some text) with
      | .error _ => rfl
      | .ok none => rfl
      | .ok (some ⟨none, _⟩) => rfl
      | .ok (some ⟨some s, _⟩) => exact absurd ⟨text, rfl, he, hj, rfl⟩ (h _ s)

/-- Whatever the outcome, no exception leaves the request. -/
theorem getPublicIPAndCon_returns : ∃ bean, getPublicIPAndCon d fromJson execute = .ok bean := by
  by_cases h : ∃ bean s, Reads fromJson execute bean s
  · obtain ⟨bean, s, h⟩ := h
    exact ⟨_, getPublicIPAndCon_of_reads h⟩
  · exact ⟨_, getPublicIPAndCon_of_not_reads fun bean s hr ↦ h ⟨bean, s, hr⟩⟩

private theorem returnsAddress_iff :
    ReturnsAddress (getPublicIPAndCon d fromJson execute) ↔
      ¬ ∃ bean s, Reads fromJson execute bean s ∧ Lookalike d s := by
  constructor
  · rintro ⟨bean, hr, hip⟩ ⟨read, s, hreads, hl⟩
    have hacc : (ip d).accepts s.toList = true :=
      Regex.accepts_iff.mpr (matches_ip_iff.mpr hl.1)
    rw [getPublicIPAndCon_of_reads hreads, if_pos hacc] at hr
    obtain ⟨_, _, _, _, hs⟩ := hreads
    cases hr
    rw [hs] at hip
    obtain hip | ⟨_, hip, ha⟩ := hip
    · -- the empty text has no characters at all
      cases hip
      obtain ⟨_, c, hc, _⟩ := hl
      simp at hc
    · cases hip
      exact not_isAddress_of_lookalike hl ha
  · intro h
    by_cases hex : ∃ bean s, Reads fromJson execute bean s
    · obtain ⟨bean, s, hreads⟩ := hex
      refine ⟨_, getPublicIPAndCon_of_reads hreads, ?_⟩
      by_cases hacc : (ip d).accepts s.toList = true
      · rw [if_pos hacc]
        have hf : FourSpelled d s := matches_ip_iff.mp (Regex.accepts_iff.mp hacc)
        have hl : ¬ Lookalike d s := fun hl ↦ h ⟨bean, s, hreads, hl⟩
        obtain ⟨_, _, _, _, hs⟩ := hreads
        exact Or.inr ⟨s, hs, isAddress_of_not_lookalike hf hl⟩
      · rw [if_neg hacc]
        exact Or.inl rfl
    · refine ⟨_, getPublicIPAndCon_of_not_reads fun bean s hr ↦ hex ⟨bean, s, hr⟩, ?_⟩
      exact Or.inl rfl

/-- The check accepts exactly the addresses, and the request returns an address or none, up to
lookalikes: a text is judged wrongly exactly when it is one, and an outcome gives something else
exactly when the bean that was read has one. -/
theorem isCorrectIp_exact_iff (d : DigitClass)
    (fromJson : Option String → Except Thrown (Option IPBean)) (s : String)
    (execute : Except Thrown Response) :
    ((isCorrectIp d (some s) = .ok true ↔ IsAddress s) ↔ ¬ Lookalike d s) ∧
      (ReturnsAddress (getPublicIPAndCon d fromJson execute) ↔
        ¬ ∃ bean s, Reads fromJson execute bean s ∧ Lookalike d s) := by
  refine ⟨?_, returnsAddress_iff⟩
  rw [isCorrectIp_iff]
  constructor
  · intro h hl
    exact not_isAddress_of_lookalike hl (h.mp hl.1)
  · intro hl
    constructor
    · intro hf
      exact isAddress_of_not_lookalike hf hl
    · intro ha
      exact (isAddress_iff.mp ha).1

/-- The ASCII and the Gurmukhi digits, two of the ranges Android's `\d` has. -/
def DigitClass.withGurmukhi : DigitClass where
  contains c := c.isDigit || decide (0x0A66 ≤ c.toNat ∧ c.toNat ≤ 0x0A6F)
  ascii c hc := by
    have : ¬ (0x0A66 ≤ c.toNat ∧ c.toNat ≤ 0x0A6F) := by omega
    rw [decide_eq_false this, Bool.or_false]

/-- A Gurmukhi four passes the check, and the request returns it. -/
theorem isCorrectIp_accepts_gurmukhi :
    ¬ (isCorrectIp .withGurmukhi (some "1.1.1.\u0a6a") = .ok true ↔ IsAddress "1.1.1.\u0a6a") ∧
      ¬ ReturnsAddress (getPublicIPAndCon .withGurmukhi
        (fun _ ↦ .ok (some ⟨some "1.1.1.\u0a6a", some "India"⟩))
        (.ok ⟨true, .ok (some "\x7b\"ip\":\"1.1.1.\u0a6a\",\"country\":\"India\"\x7d")⟩)) := by
  have hl : Lookalike .withGurmukhi "1.1.1.\u0a6a" := by
    refine ⟨⟨['1'], ['1'], ['1'], ['\u0a6a'], ?_, ?_, ?_, ?_, ?_⟩, '\u0a6a', ?_, ?_⟩
    all_goals decide +kernel
  constructor
  · intro h
    exact not_isAddress_of_lookalike hl (h.mp (isCorrectIp_iff.mpr hl.1))
  · intro h
    refine returnsAddress_iff.mp h ⟨⟨some "1.1.1.\u0a6a", some "India"⟩, "1.1.1.\u0a6a", ?_, hl⟩
    exact ⟨_, rfl, by decide, rfl, rfl⟩

end Outcomes

end FastSearch.Tba
