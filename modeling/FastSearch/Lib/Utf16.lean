/-!
# UTF-16 code units

Strings whose length and elements are counted in 16-bit code units: a character outside the
basic plane is a surrogate pair.
-/

namespace Utf16

/-- The code units of one character. -/
def charUnits (c : Char) : List UInt16 :=
  let n := c.toNat
  if n < 0x10000 then [UInt16.ofNat n]
  else
    [UInt16.ofNat (0xD800 + (n - 0x10000) / 0x400),
      UInt16.ofNat (0xDC00 + (n - 0x10000) % 0x400)]

/-- The code units of a string. -/
def units (s : String) : List UInt16 := s.toList.flatMap charUnits

/-- The number of code units of a string. -/
def length (s : String) : Nat := (units s).length

/-! ### Code units against UTF-8 bytes -/

/-- A character has at most as many units as UTF-8 bytes, and as many only if it is ASCII. -/
theorem charUnits_cases (c : Char) :
    (c.toNat < 128 ∧ (charUnits c).length = 1 ∧ c.utf8Size = 1) ∨
      (128 ≤ c.toNat ∧ (charUnits c).length < c.utf8Size) := by
  have hn : c.val.toNat = c.toNat := rfl
  have hlen : (charUnits c).length = if c.toNat < 65536 then 1 else 2 := by
    unfold charUnits
    simp only
    split
    · rfl
    · rfl
  have hsize : c.utf8Size = if c.toNat ≤ 127 then 1 else if c.toNat ≤ 2047 then 2 else
      if c.toNat ≤ 65535 then 3 else 4 := by
    simp only [Char.utf8Size, UInt32.le_iff_toNat_le, hn]
    rfl
  rw [hlen, hsize]
  split
  · split
    · left
      omega
    · right
      split <;> (try split) <;> omega
  · right
    rw [if_neg (by omega), if_neg (by omega), if_neg (by omega)]
    omega

private theorem length_flatMap_cons (c : Char) (cs : List Char) :
    ((c :: cs).flatMap charUnits).length = (charUnits c).length + (cs.flatMap charUnits).length ∧
      ((c :: cs).flatMap String.utf8EncodeChar).length =
        c.utf8Size + (cs.flatMap String.utf8EncodeChar).length := by
  rw [List.flatMap_cons, List.flatMap_cons, List.length_append, List.length_append,
    String.length_utf8EncodeChar]
  exact ⟨rfl, rfl⟩

private theorem length_chars (cs : List Char) :
    ((∀ c ∈ cs, c.toNat < 128) ∧
        (cs.flatMap charUnits).length = (cs.flatMap String.utf8EncodeChar).length) ∨
      ((∃ c ∈ cs, 128 ≤ c.toNat) ∧
        (cs.flatMap charUnits).length < (cs.flatMap String.utf8EncodeChar).length) := by
  induction cs with
  | nil => exact Or.inl ⟨by simp, rfl⟩
  | cons c cs ih =>
    obtain ⟨hu, he⟩ := length_flatMap_cons c cs
    rw [hu, he, List.forall_mem_cons]
    rcases charUnits_cases c with ⟨hc, h1, h2⟩ | ⟨hc, h1⟩
    · rcases ih with ⟨ha, h⟩ | ⟨ha, h⟩
      · exact Or.inl ⟨⟨hc, ha⟩, by omega⟩
      · obtain ⟨d, hd, hn⟩ := ha
        exact Or.inr ⟨⟨d, List.mem_cons_of_mem c hd, hn⟩, by omega⟩
    · refine Or.inr ⟨⟨c, List.mem_cons_self, hc⟩, ?_⟩
      rcases ih with ⟨_, h⟩ | ⟨_, h⟩ <;> omega

/-- ASCII strings have as many units as UTF-8 bytes. -/
theorem length_eq_of_ascii {s : String} (h : ∀ c ∈ s.toList, c.toNat < 128) :
    length s = (s.toList.flatMap String.utf8EncodeChar).length := by
  rcases length_chars s.toList with ⟨_, he⟩ | ⟨⟨c, hc, hn⟩, _⟩
  · exact he
  · exact absurd (h c hc) (by omega)

/-- Other strings have fewer units than UTF-8 bytes. -/
theorem length_lt_of_not_ascii {s : String} (h : ¬ ∀ c ∈ s.toList, c.toNat < 128) :
    length s < (s.toList.flatMap String.utf8EncodeChar).length := by
  rcases length_chars s.toList with ⟨ha, _⟩ | ⟨_, hl⟩
  · exact absurd ha h
  · exact hl

end Utf16
