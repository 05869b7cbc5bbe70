/-!
# Regular expressions over character classes

Expressions without unbounded repetition, the words they match, and a backtracking matcher: it
lists what is left of a word after every way to match its front. A whole word is accepted if one
of the ways leaves nothing.
-/

universe u

/-- A regular expression over classes of letters. -/
inductive Regex (α : Type u) where
  | eps
  | cls (p : α → Bool)
  | seq (r s : Regex α)
  | alt (r s : Regex α)

namespace Regex

variable {α : Type u}

/-- A fixed number of repetitions. -/
def rep (r : Regex α) : Nat → Regex α
  | 0 => eps
  | n + 1 => seq r (rep r n)

/-- The words an expression matches. -/
def Matches : Regex α → List α → Prop
  | eps, w => w = []
  | cls p, w => ∃ a, w = [a] ∧ p a = true
  | seq r s, w => ∃ u v, w = u ++ v ∧ Matches r u ∧ Matches s v
  | alt r s, w => Matches r w ∨ Matches s w

/-- What is left of a word after each way to match its front, in the order of the attempts. -/
def rests : Regex α → List α → List (List α)
  | eps, w => [w]
  | cls _, [] => []
  | cls p, a :: w => if p a then [w] else []
  | seq r s, w => (rests r w).flatMap (rests s)
  | alt r s, w => rests r w ++ rests s w

/-- The matcher on a whole word. -/
def accepts (r : Regex α) (w : List α) : Bool := (rests r w).any List.isEmpty

/-- The matcher leaves exactly what follows a matching front. -/
theorem mem_rests_iff {r : Regex α} {w t : List α} :
    t ∈ rests r w ↔ ∃ u, w = u ++ t ∧ Matches r u := by
  induction r generalizing w t with
  | eps =>
    rw [rests, List.mem_singleton]
    constructor
    · intro h
      exact ⟨[], h.symm, rfl⟩
    · rintro ⟨u, rfl, hu⟩
      rw [show u = [] from hu]
      rfl
  | cls p =>
    cases w with
    | nil =>
      constructor
      · intro h
        cases h
      · rintro ⟨u, hw, a, rfl, _⟩
        cases hw
    | cons b w =>
      rw [rests]
      constructor
      · intro h
        split at h
        · next hp =>
          rw [List.mem_singleton.mp h]
          exact ⟨[b], rfl, b, rfl, hp⟩
        · cases h
      · rintro ⟨u, hw, a, rfl, hp⟩
        cases hw
        rw [if_pos hp]
        exact List.mem_singleton_self _
  | seq r s ihr ihs =>
    rw [rests, List.mem_flatMap]
    constructor
    · rintro ⟨m, hm, ht⟩
      obtain ⟨u, rfl, hu⟩ := ihr.mp hm
      obtain ⟨v, rfl, hv⟩ := ihs.mp ht
      exact ⟨u ++ v, by rw [List.append_assoc], u, v, rfl, hu, hv⟩
    · rintro ⟨w', hw, u, v, rfl, hu, hv⟩
      refine ⟨v ++ t, ihr.mpr ⟨u, ?_, hu⟩, ihs.mpr ⟨v, rfl, hv⟩⟩
      rw [hw, List.append_assoc]
  | alt r s ihr ihs =>
    rw [rests, List.mem_append, ihr, ihs]
    constructor
    · rintro (⟨u, hw, hu⟩ | ⟨u, hw, hu⟩)
      · exact ⟨u, hw, Or.inl hu⟩
      · exact ⟨u, hw, Or.inr hu⟩
    · rintro ⟨u, hw, hu | hu⟩
      · exact Or.inl ⟨u, hw, hu⟩
      · exact Or.inr ⟨u, hw, hu⟩

/-- The matcher accepts exactly the words the expression matches. -/
theorem accepts_iff {r : Regex α} {w : List α} : accepts r w = true ↔ Matches r w := by
  rw [accepts, List.any_eq_true]
  constructor
  · rintro ⟨t, ht, he⟩
    obtain ⟨u, rfl, hu⟩ := mem_rests_iff.mp ht
    rw [List.isEmpty_iff.mp he, List.append_nil]
    exact hu
  · intro h
    exact ⟨[], mem_rests_iff.mpr ⟨w, (List.append_nil w).symm, h⟩, rfl⟩

/-! ### Words by the form of the expression -/

section Matches

variable {p : α → Bool} {r s : Regex α} {w : List α}

theorem matches_seq :
    Matches (seq r s) w ↔ ∃ u v, w = u ++ v ∧ Matches r u ∧ Matches s v := Iff.rfl

theorem matches_alt : Matches (alt r s) w ↔ Matches r w ∨ Matches s w := Iff.rfl

theorem matches_cls : Matches (cls p) w ↔ ∃ a, w = [a] ∧ p a = true := Iff.rfl

/-- A class in front takes one letter. -/
theorem matches_cls_seq :
    Matches (seq (cls p) r) w ↔ ∃ a v, w = a :: v ∧ p a = true ∧ Matches r v := by
  constructor
  · rintro ⟨_, v, rfl, ⟨a, rfl, hp⟩, hv⟩
    exact ⟨a, v, rfl, hp, hv⟩
  · rintro ⟨a, v, rfl, hp, hv⟩
    exact ⟨[a], v, rfl, ⟨a, rfl, hp⟩, hv⟩

end Matches

end Regex
