import FastSearch.Lib.BitPrefix
import FastSearch.Net.InetAddress
import Mathlib.Data.Prod.Lex

/-!
# Subnets

`net/Subnet.kt`: an address and the number of its leading bits that matter, its text, its order and
the matching of addresses by bytes. Parsing and printing an address is the system's; both are
parameters here.
-/

namespace FastSearch.Net

open ByteOrder BitPrefix

/-- `Subnet`, `net/Subnet.kt:27`, with what its constructor requires. -/
structure Subnet where
  address : InetAddress
  prefixSize : Nat
  valid : prefixSize ≤ 8 * address.bytes.length
  deriving DecidableEq, Repr

namespace Subnet

/-! ### Matching -/

/-- `(b.toInt() and -(1 shl k)).toByte()`. -/
def maskByte (b : UInt8) (k : Nat) : UInt8 :=
  (b.toInt8.toInt32 &&& -((1 : Int32) <<< Int32.ofNat k)).toInt8.toUInt8

/-- `Subnet.Immutable`, `net/Subnet.kt:48`. -/
structure Immutable where
  a : List UInt8
  prefixSize : Nat
  deriving DecidableEq, Repr

/-- The loop of `matches` and the test after it, `net/Subnet.kt:64`. -/
def Immutable.matchesFrom (m : Immutable) (b : List UInt8) (i : Nat) : Bool :=
  if i * 8 < m.prefixSize ∧ i * 8 + 8 ≤ m.prefixSize then
    if m.a[i]? ≠ b[i]? then false else m.matchesFrom b (i + 1)
  else i * 8 = m.prefixSize || m.a[i]? = b[i]?.map fun x ↦ maskByte x (i * 8 + 8 - m.prefixSize)
termination_by m.prefixSize - i * 8

/-- `matches`, `net/Subnet.kt:61`. -/
def Immutable.matches (m : Immutable) (b : List UInt8) : Bool :=
  if m.a.length ≠ b.length then false else m.matchesFrom b 0

/-- `toImmutable`, `net/Subnet.kt:71`. -/
def toImmutable (s : Subnet) : Immutable :=
  let i := s.prefixSize / 8
  let cut := 0 < s.prefixSize % 8
  let a :=
    if cut then s.address.bytes.modify i fun x ↦ maskByte x (i * 8 + 8 - s.prefixSize)
    else s.address.bytes
  let i := if cut then i + 1 else i
  { a := a.take i ++ List.replicate (a.length - i) 0, prefixSize := s.prefixSize }

/-- The mask clears the low bits. -/
theorem toNat_maskByte (b : UInt8) {k : Nat} (h : k < 8) :
    (maskByte b k).toNat = b.toNat / 2 ^ k * 2 ^ k := by
  have hall : ∀ (k : Fin 8) (n : Fin 256),
      (maskByte (UInt8.ofNat n) k).toNat = n / 2 ^ k.val * 2 ^ k.val := by
    decide +kernel
  have hb := hall ⟨k, h⟩ ⟨b.toNat, b.toNat_lt⟩
  simpa using hb

theorem maskByte_eq_iff {x y : UInt8} {k : Nat} (h : k < 8) :
    maskByte x k = maskByte y k ↔ x.toNat / 2 ^ k = y.toNat / 2 ^ k := by
  rw [← UInt8.toNat_inj, toNat_maskByte x h, toNat_maskByte y h]
  exact Nat.mul_left_inj (Nat.two_pow_pos k).ne'

section

variable (s : Subnet)

@[simp] theorem prefixSize_toImmutable : s.toImmutable.prefixSize = s.prefixSize := rfl

@[simp] theorem length_toImmutable : s.toImmutable.a.length = s.address.bytes.length := by
  have hv := s.valid
  have hi : (if 0 < s.prefixSize % 8 then s.prefixSize / 8 + 1 else s.prefixSize / 8) ≤
      s.address.bytes.length := by
    split <;> omega
  rw [toImmutable]
  dsimp only
  rw [List.length_append, List.length_take, List.length_replicate]
  split_ifs at hi ⊢
  · rw [List.length_modify]
    omega
  · omega

/-- The bytes that matter wholly are kept. -/
theorem getElem?_toImmutable {i : Nat} (h : i * 8 + 8 ≤ s.prefixSize) :
    s.toImmutable.a[i]? = s.address.bytes[i]? := by
  have hv := s.valid
  rw [toImmutable]
  dsimp only
  split
  · have hne : s.prefixSize / 8 ≠ i := by omega
    rw [List.getElem?_append_left (by rw [List.length_take, List.length_modify]; omega),
      List.getElem?_take_of_lt (by omega), List.getElem?_modify]
    simp [hne]
  · rw [List.getElem?_append_left (by rw [List.length_take]; omega),
      List.getElem?_take_of_lt (by omega)]

/-- The byte that matters in part is masked. -/
theorem getElem?_toImmutable_masked {i : Nat} (h : i * 8 < s.prefixSize)
    (h' : s.prefixSize < i * 8 + 8) :
    s.toImmutable.a[i]? =
      s.address.bytes[i]?.map fun x ↦ maskByte x (i * 8 + 8 - s.prefixSize) := by
  have hv := s.valid
  obtain rfl : i = s.prefixSize / 8 := by omega
  rw [toImmutable]
  dsimp only
  rw [if_pos (by omega), if_pos (by omega),
    List.getElem?_append_left (by rw [List.length_take, List.length_modify]; omega),
    List.getElem?_take_of_lt (by omega), List.getElem?_modify_eq]
  rfl

end

/-- From any byte on, the loop compares the bits that are left. -/
private theorem matchesFrom_toImmutable (s : Subnet) {b : List UInt8}
    (hlen : b.length = s.address.bytes.length) {i : Nat} (hi : i * 8 ≤ s.prefixSize) :
    s.toImmutable.matchesFrom b i = true ↔
      leading (s.prefixSize - i * 8) (s.address.bytes.drop i) =
        leading (s.prefixSize - i * 8) (b.drop i) := by
  have hv := s.valid
  rw [Immutable.matchesFrom, prefixSize_toImmutable]
  by_cases hp : i * 8 = s.prefixSize
  · simp [hp, leading_zero]
  · have hia : i < s.address.bytes.length := by omega
    have hib : i < b.length := by omega
    rw [List.drop_eq_getElem_cons hia, List.drop_eq_getElem_cons hib]
    split
    · next h =>
      have ih := matchesFrom_toImmutable s hlen (i := i + 1) (by omega)
      rw [getElem?_toImmutable s h.2, List.getElem?_eq_getElem hia, List.getElem?_eq_getElem hib,
        leading_cons_eq_iff (by omega) (by simp [hlen]) (by simp; omega)]
      have hsub : s.prefixSize - i * 8 - 8 = s.prefixSize - (i + 1) * 8 := by omega
      rw [hsub, ← ih]
      by_cases he : s.address.bytes[i] = b[i]
      · simp [he]
      · simp [he]
    · next h =>
      have hk : 8 - (s.prefixSize - i * 8) = i * 8 + 8 - s.prefixSize := by omega
      rw [getElem?_toImmutable_masked s (by omega) (by omega), List.getElem?_eq_getElem hia,
        List.getElem?_eq_getElem hib, leading_cons_of_lt (by omega), leading_cons_of_lt (by omega),
        hk, ← maskByte_eq_iff (by omega)]
      simp [hp]
termination_by s.prefixSize - i * 8

/-- The bytewise match accepts exactly the addresses of the same length that agree with the subnet
in its leading bits. -/
theorem matches_toImmutable_iff (s : Subnet) (b : List UInt8) :
    s.toImmutable.matches b = true ↔ b.length = s.address.bytes.length ∧
      leading s.prefixSize b = leading s.prefixSize s.address.bytes := by
  rw [Immutable.matches, length_toImmutable]
  by_cases hlen : b.length = s.address.bytes.length
  · have h := matchesFrom_toImmutable s hlen (i := 0) (by omega)
    simp only [Nat.zero_mul, Nat.sub_zero, List.drop_zero] at h
    simp only [hlen, ne_eq, not_true_eq_false, if_false, true_and, h]
    exact eq_comm
  · simp [hlen, Ne.symm hlen]

/-! ### Order -/

/-- The loop of `compareTo` over the bytes. -/
def compareBytes : List UInt8 → List UInt8 → Ordering
  | a :: as, b :: bs => (compare a.toNat b.toNat).then (compareBytes as bs)
  | _, _ => .eq

/-- `compareTo`, `net/Subnet.kt:84`. -/
def compareTo (s t : Subnet) : Ordering :=
  (compare s.address.bytes.length t.address.bytes.length).then
    ((compareBytes s.address.bytes t.address.bytes).then (compare s.prefixSize t.prefixSize))

/-- Bytes of one length are compared as numbers. -/
theorem compareBytes_eq {as bs : List UInt8} (hlen : as.length = bs.length) :
    compareBytes as bs = compare (natOfBytes as) (natOfBytes bs) := by
  induction as generalizing bs with
  | nil =>
    cases bs with
    | nil => rfl
    | cons b bs => cases hlen
  | cons a as ih =>
    cases bs with
    | nil => cases hlen
    | cons b bs =>
      have hlen' : as.length = bs.length := Nat.succ.inj hlen
      have ha := natOfBytes_lt as
      have hb := natOfBytes_lt bs
      rw [hlen'] at ha
      rw [compareBytes, ih hlen', natOfBytes_cons, natOfBytes_cons, hlen']
      generalize 256 ^ bs.length = w at ha hb
      rcases Nat.lt_trichotomy a.toNat b.toNat with h | h | h
      · have hm : (a.toNat + 1) * w ≤ b.toNat * w := Nat.mul_le_mul_right w h
        have hlt : a.toNat * w + natOfBytes as < b.toNat * w + natOfBytes bs := by
          rw [Nat.add_mul] at hm
          omega
        rw [compare_lt_iff_lt.mpr h, compare_lt_iff_lt.mpr hlt]
        rfl
      · rw [h, compare_eq_iff_eq.mpr rfl, Ordering.then]
        rcases Nat.lt_trichotomy (natOfBytes as) (natOfBytes bs) with hn | hn | hn
        · rw [compare_lt_iff_lt.mpr hn, compare_lt_iff_lt.mpr (by omega)]
        · rw [hn, compare_eq_iff_eq.mpr rfl, compare_eq_iff_eq.mpr rfl]
        · rw [compare_gt_iff_gt.mpr hn, compare_gt_iff_gt.mpr (by omega)]
      · have hm : (b.toNat + 1) * w ≤ a.toNat * w := Nat.mul_le_mul_right w h
        have hgt : a.toNat * w + natOfBytes as > b.toNat * w + natOfBytes bs := by
          rw [Nat.add_mul] at hm
          omega
        rw [compare_gt_iff_gt.mpr h, compare_gt_iff_gt.mpr hgt]
        rfl

/-- What a subnet is sorted by: the length of the address, its number, the prefix. -/
def key (s : Subnet) : ℕ ×ₗ (ℕ ×ₗ ℕ) :=
  toLex (s.address.bytes.length, toLex (natOfBytes s.address.bytes, s.prefixSize))

theorem key_injective : Function.Injective key := by
  rintro ⟨⟨a, _⟩, p, _⟩ ⟨⟨b, _⟩, q, _⟩ h
  simp only [key, EmbeddingLike.apply_eq_iff_eq, Prod.mk.injEq] at h
  obtain ⟨hlen, hn, rfl⟩ := h
  obtain rfl := (natOfBytes_inj hlen).mp hn
  rfl

/-- The order of subnets. -/
instance : LinearOrder Subnet := LinearOrder.lift' key key_injective

/-- `compareTo` is the comparison of a linear order, in which only equal subnets compare equal. -/
theorem compareTo_eq_compare (s t : Subnet) : s.compareTo t = compare s t := by
  change s.compareTo t = (compare s.address.bytes.length t.address.bytes.length).then
    ((compare (natOfBytes s.address.bytes) (natOfBytes t.address.bytes)).then
      (compare s.prefixSize t.prefixSize))
  rw [compareTo]
  by_cases hlen : s.address.bytes.length = t.address.bytes.length
  · rw [compareBytes_eq hlen]
  · cases h : compare s.address.bytes.length t.address.bytes.length with
    | eq => exact absurd (compare_eq_iff_eq.mp h) hlen
    | lt => rfl
    | gt => rfl

/-! ### Text -/

section Text

variable (parseNumericAddress : String → Option InetAddress) (hostAddress : InetAddress → String)

/-- The subnet of one address. -/
def single (address : InetAddress) : Subnet := ⟨address, 8 * address.bytes.length, Nat.le_refl _⟩

/-- `fromString`, `net/Subnet.kt:29`; an address of another length than the one asked for throws. -/
def fromString (value : String) (lengthCheck : Int) : Except String (Option Subnet) :=
  match parseNumericAddress (String.ofList (value.toList.takeWhile (· ≠ '/'))) with
  | none => .ok none
  | some addr =>
    if ¬ (lengthCheck < 0 ∨ addr.bytes.length = lengthCheck) then .error "Check failed."
    else
      match value.toList.dropWhile (· ≠ '/') with
      | [] => .ok (some (single addr))
      | _ :: text =>
        match Numeral.parseInt text with
        | none => .ok none
        | some prefixSize =>
          if h : prefixSize < 0 ∨ prefixSize > 8 * addr.bytes.length then .ok none
          else .ok (some ⟨addr, prefixSize.toNat, by omega⟩)

/-- `toString`, `net/Subnet.kt:80`. -/
def toString (s : Subnet) : String :=
  if s.prefixSize = 8 * s.address.bytes.length then hostAddress s.address
  else hostAddress s.address ++ "/" ++ s.prefixSize.repr

variable {parseNumericAddress hostAddress}

theorem single_eq {s : Subnet} (h : s.prefixSize = 8 * s.address.bytes.length) :
    single s.address = s := by
  obtain ⟨address, prefixSize, valid⟩ := s
  obtain rfl : prefixSize = 8 * address.bytes.length := h
  rfl

/-- The address of a subnet that is read is one that is parsed. -/
theorem parse_of_fromString {value : String} {s : Subnet}
    (h : fromString parseNumericAddress value (-1) = .ok (some s)) :
    parseNumericAddress (String.ofList (value.toList.takeWhile (· ≠ '/'))) = some s.address := by
  rw [fromString] at h
  split at h
  · cases h
  · next addr ha =>
    rw [ha]
    split at h
    · cases h
    · split at h
      · cases h
        rfl
      · split at h
        · cases h
        · split at h
          · cases h
          · cases h
            rfl

/-- A text without a slash is cut off at a slash that follows it, or at the end. -/
private theorem takeWhile_dropWhile_slash {text : List Char} (rest : List Char)
    (ht : '/' ∉ text) (hr : ∀ c ∈ rest.head?, c = '/') :
    (text ++ rest).takeWhile (· ≠ '/') = text ∧ (text ++ rest).dropWhile (· ≠ '/') = rest := by
  have hall : ∀ c ∈ text, decide (c ≠ '/') = true := by
    intro c hc
    simpa using fun h : c = '/' ↦ ht (h ▸ hc)
  rw [List.takeWhile_append_of_pos hall, List.dropWhile_append_of_pos hall]
  cases rest with
  | nil => simp
  | cons c rest => simp [hr c rfl]

/-- The text of an address, a slash and a prefix is read. -/
theorem fromString_append_slash (s : Subnet) {text : String}
    (hp : parseNumericAddress text = some s.address) (hs : '/' ∉ text.toList) :
    fromString parseNumericAddress (text ++ "/" ++ s.prefixSize.repr) (-1) = .ok (some s) := by
  have hv := s.valid
  obtain ⟨ht, hd⟩ := takeWhile_dropWhile_slash ('/' :: s.prefixSize.repr.toList) hs
    (by simp)
  have hlt : s.prefixSize < 2 ^ 31 := by
    have hsize := s.address.size
    omega
  have htext : (text ++ "/" ++ s.prefixSize.repr).toList =
      text.toList ++ '/' :: s.prefixSize.repr.toList := by
    simp
  have hb : ¬ ((s.prefixSize : Int) < 0 ∨ (s.prefixSize : Int) > 8 * s.address.bytes.length) := by
    omega
  rw [fromString, htext, ht, String.ofList_toList, hp, hd]
  dsimp only
  rw [if_neg (by simp), Numeral.parseInt_repr hlt]
  dsimp only
  rw [dif_neg hb]
  rfl

/-- A subnet is read back from its text if its address is, and has no slash. -/
theorem fromString_toString (s : Subnet)
    (hp : parseNumericAddress (hostAddress s.address) = some s.address)
    (hs : '/' ∉ (hostAddress s.address).toList) :
    fromString parseNumericAddress (s.toString hostAddress) (-1) = .ok (some s) := by
  rw [toString]
  split
  · next h =>
    obtain ⟨ht, hd⟩ := takeWhile_dropWhile_slash [] hs (by simp)
    rw [List.append_nil] at ht hd
    rw [fromString, ht, String.ofList_toList, hp, hd]
    simp [single_eq h]
  · exact fromString_append_slash s hp hs

end Text

end Subnet

end FastSearch.Net
