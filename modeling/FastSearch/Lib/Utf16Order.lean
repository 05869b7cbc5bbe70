import FastSearch.Lib.Utf16
import Mathlib.Data.Finset.Sort
import Mathlib.Data.List.Lex

/-!
# The order of code units

Strings compared by their UTF-16 code units. It is a linear order: no two strings have the same
units. It differs from the order of characters, since the surrogates of the characters outside the
basic plane come before the last characters in it.
-/

namespace Utf16

private theorem charUnits_of_lt {c : Char} (h : c.toNat < 0x10000) :
    charUnits c = [UInt16.ofNat c.toNat] := by
  simp [charUnits, h]

private theorem charUnits_of_le {c : Char} (h : 0x10000 ≤ c.toNat) :
    charUnits c = [UInt16.ofNat (0xD800 + (c.toNat - 0x10000) / 0x400),
      UInt16.ofNat (0xDC00 + (c.toNat - 0x10000) % 0x400)] := by
  simp [charUnits, Nat.not_lt.mpr h]

private theorem ofNat_inj {m n : Nat} (hm : m < 0x10000) (hn : n < 0x10000)
    (h : UInt16.ofNat m = UInt16.ofNat n) : m = n := by
  have h' := congrArg UInt16.toNat h
  rw [UInt16.toNat_ofNat', UInt16.toNat_ofNat', Nat.mod_eq_of_lt hm, Nat.mod_eq_of_lt hn] at h'
  exact h'

/-- A character is no surrogate and is in one of the planes. -/
private theorem toNat_cases (c : Char) :
    (c.toNat < 0xD800 ∨ 0xDFFF < c.toNat) ∧ c.toNat < 0x110000 := by
  have h : c.toNat < 0xD800 ∨ 0xDFFF < c.toNat ∧ c.toNat < 0x110000 := c.valid
  omega

/-- A unit of the basic plane is no leading surrogate. -/
private theorem ofNat_ne_surrogate {c d : Char} (hc : c.toNat < 0x10000) (hd : 0x10000 ≤ d.toNat) :
    UInt16.ofNat c.toNat ≠ UInt16.ofNat (0xD800 + (d.toNat - 0x10000) / 0x400) := by
  intro h
  have hc' := toNat_cases c
  have hd' := toNat_cases d
  have he := ofNat_inj hc (by omega) h
  omega

private theorem charUnits_append {c d : Char} {us vs : List UInt16}
    (h : charUnits c ++ us = charUnits d ++ vs) : c = d ∧ us = vs := by
  have hc' := toNat_cases c
  have hd' := toNat_cases d
  have hchar : c.toNat = d.toNat → c = d := fun he ↦ Char.toNat_inj.mp he
  rcases Nat.lt_or_ge c.toNat 0x10000 with hc | hc <;>
    rcases Nat.lt_or_ge d.toNat 0x10000 with hd | hd
  · rw [charUnits_of_lt hc, charUnits_of_lt hd] at h
    obtain ⟨he, hr⟩ := List.cons.inj h
    exact ⟨hchar (ofNat_inj hc hd he), hr⟩
  · rw [charUnits_of_lt hc, charUnits_of_le hd] at h
    exact absurd (List.cons.inj h).1 (ofNat_ne_surrogate hc hd)
  · rw [charUnits_of_le hc, charUnits_of_lt hd] at h
    exact absurd (List.cons.inj h).1.symm (ofNat_ne_surrogate hd hc)
  · rw [charUnits_of_le hc, charUnits_of_le hd] at h
    obtain ⟨h₁, h⟩ := List.cons.inj h
    obtain ⟨h₂, hr⟩ := List.cons.inj h
    have he₁ := ofNat_inj (by omega) (by omega) h₁
    have he₂ := ofNat_inj (by omega) (by omega) h₂
    exact ⟨hchar (by omega), hr⟩

/-- No two strings have the same code units. -/
theorem units_injective : Function.Injective units := by
  intro s t h
  have hall : ∀ cs ds : List Char, cs.flatMap charUnits = ds.flatMap charUnits → cs = ds := by
    have hne : ∀ (c : Char) (us : List UInt16), charUnits c ++ us ≠ [] := by
      intro c us
      unfold charUnits
      dsimp only
      split <;> simp
    intro cs
    induction cs with
    | nil =>
      intro ds h
      cases ds with
      | nil => rfl
      | cons d ds => exact absurd h.symm (hne d _)
    | cons c cs ih =>
      intro ds h
      cases ds with
      | nil => exact absurd h (hne c _)
      | cons d ds =>
        obtain ⟨rfl, hr⟩ := charUnits_append h
        rw [ih ds hr]
  exact String.toList_inj.mp (hall _ _ h)

/-- The units as numbers. -/
def keys (s : String) : List Nat := (units s).map UInt16.toNat

theorem keys_injective : Function.Injective keys := by
  intro s t h
  exact units_injective (List.map_injective_iff.mpr (fun _ _ ↦ UInt16.toNat_inj.mp) h)

/-- `String.compareTo`. -/
@[reducible] def order : LinearOrder String := LinearOrder.lift' keys keys_injective

/-- The strings of a finite set in this order. -/
def sort (s : Finset String) : List String :=
  letI := order
  s.sort (· ≤ ·)

@[simp] theorem mem_sort {s : Finset String} {t : String} : t ∈ sort s ↔ t ∈ s :=
  letI := order
  Finset.mem_sort _

end Utf16
