import FastSearch.Lib.Numeral

/-!
# Addresses

The addresses of the platform by their bytes. How their texts are read and printed is a parameter of
what uses them; the texts of IPv4 addresses are here.
-/

namespace FastSearch.Net

/-- `InetAddress`: the four or sixteen bytes of an address, without a scope. -/
structure InetAddress where
  bytes : List UInt8
  size : bytes.length = 4 ∨ bytes.length = 16
  deriving DecidableEq, Repr

@[ext] theorem InetAddress.ext {a b : InetAddress} (h : a.bytes = b.bytes) : a = b := by
  cases a
  cases b
  cases h
  rfl

/-- The IPv4 address of four bytes. -/
def InetAddress.ipv4 (a b c d : UInt8) : InetAddress := ⟨[a, b, c, d], Or.inl rfl⟩

/-- Numbers with dots between them. -/
def dottedText (bytes : List UInt8) : List Char :=
  ['.'].intercalate (bytes.map fun b ↦ b.toNat.repr.toList)

/-- `inet_pton` for IPv4: four numbers below 256, without leading zeros, with dots between them. -/
def inetPton (text : String) : Option InetAddress :=
  match (text.toList.splitOn '.').map Numeral.readByte with
  | [some a, some b, some c, some d] => some (.ipv4 a b c d)
  | _ => none

theorem splitOn_dottedText {bytes : List UInt8} (h : bytes ≠ []) :
    (dottedText bytes).splitOn '.' = bytes.map fun b ↦ b.toNat.repr.toList := by
  apply List.splitOn_intercalate
  · intro l hl
    obtain ⟨b, _, rfl⟩ := List.mem_map.mp hl
    exact Numeral.notMem_repr rfl _
  · simpa using h

theorem inetPton_dottedText {text : String} {a b c d : UInt8}
    (h : text.toList = dottedText [a, b, c, d]) :
    inetPton text = some (.ipv4 a b c d) := by
  rw [inetPton, h, splitOn_dottedText (by simp)]
  simp only [List.map_cons, List.map_nil, Numeral.readByte_repr]

/-- Only four bytes are read. -/
theorem exists_of_inetPton {text : String} {address : InetAddress}
    (h : inetPton text = some address) : ∃ a b c d, address.bytes = [a, b, c, d] := by
  rw [inetPton] at h
  split at h
  · next a b c d _ =>
    cases h
    exact ⟨a, b, c, d, rfl⟩
  · cases h

/-- A printed address has digits and dots. -/
theorem mem_dottedText {bytes : List UInt8} {c : Char} (h : c ∈ dottedText bytes) :
    c.isDigit = true ∨ c = '.' := by
  induction bytes with
  | nil => cases h
  | cons b bytes ih =>
    have hb : c ∈ b.toNat.repr.toList → c.isDigit = true ∨ c = '.' := by
      intro hc
      rw [Nat.toList_repr] at hc
      exact Or.inl (Nat.isDigit_of_mem_toDigits (by decide) (by decide) hc)
    cases bytes with
    | nil => exact hb (by simpa [dottedText, List.intercalate] using h)
    | cons b' bytes =>
      have hcons : dottedText (b :: b' :: bytes) =
          b.toNat.repr.toList ++ '.' :: dottedText (b' :: bytes) := by
        simp [dottedText, List.intercalate]
      rw [hcons, List.mem_append, List.mem_cons] at h
      rcases h with h | h | h
      · exact hb h
      · exact Or.inr h
      · exact ih h

end FastSearch.Net
