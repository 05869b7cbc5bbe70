import Mathlib.Data.Nat.Find

/-!
# Waterfalls

A list of entries is tried one at a time. An entry that can be asked is answered later, with
success or not; the first success wins and a failure goes on to the next entry. An entry that
cannot be asked is never answered, and there the waterfall stays. Entries are their positions,
below `len`.
-/

namespace Waterfall

/-- Where a waterfall stands: it waits for the answer to an entry, or for an entry that never
answers, or it has ended with an entry or without one. -/
inductive Phase where
  | asking (n : Nat)
  | stuck (n : Nat)
  | won (n : Nat)
  | lost
  deriving DecidableEq, Repr

/-- The waterfall has ended. -/
def Phase.ended : Phase → Bool
  | .won _ | .lost => true
  | .asking _ | .stuck _ => false

variable (len : Nat) (able : Nat → Bool)

/-- Go on to an entry. -/
def ask (n : Nat) : Phase :=
  if n < len then if able n then .asking n else .stuck n else .lost

/-- The outstanding answer arrives. -/
def respond (p : Phase) (ok : Bool) : Phase :=
  match p with
  | .asking n => if ok then .won n else ask len able (n + 1)
  | p => p

/-- The phase after some answers. -/
def after (ok : Nat → Bool) : Nat → Phase
  | 0 => ask len able 0
  | k + 1 => respond len able (after ok k) (ok k)

variable {len able} {ok : Nat → Bool}

theorem ask_of_able {n : Nat} (hn : n < len) (ha : able n = true) :
    ask len able n = .asking n := by
  rw [ask, if_pos hn, if_pos ha]

theorem ask_eq_asking {n m : Nat} (h : ask len able n = .asking m) :
    m = n ∧ n < len ∧ able n = true := by
  unfold ask at h
  split at h
  · next hn =>
    split at h
    · next ha => exact ⟨(Phase.asking.inj h).symm, hn, ha⟩
    · cases h
  · cases h

/-- After `k` answers it can only be the entry `k` that is asked. -/
theorem after_eq_asking {k n : Nat} (h : after len able ok k = .asking n) :
    n = k ∧ k < len ∧ able k = true := by
  cases k with
  | zero => exact ask_eq_asking h
  | succ k =>
    rw [after] at h
    cases hp : after len able ok k with
    | asking m =>
      obtain ⟨rfl, _⟩ := after_eq_asking hp
      rw [hp, respond] at h
      split at h
      · cases h
      · exact ask_eq_asking h
    | stuck m =>
      rw [hp] at h
      cases h
    | won m =>
      rw [hp] at h
      cases h
    | lost =>
      rw [hp] at h
      cases h

/-- After failures only, the next entry is asked. -/
theorem after_of_failures {k : Nat} (hf : ∀ j < k, ok j = false)
    (ha : ∀ j < k, j < len ∧ able j = true) : after len able ok k = ask len able k := by
  induction k with
  | zero => rfl
  | succ k ih =>
    have hk := ha k (Nat.lt_succ_self k)
    rw [after, ih (fun j hj ↦ hf j (by omega)) (fun j hj ↦ ha j (by omega)),
      ask_of_able hk.1 hk.2, respond, hf k (Nat.lt_succ_self k)]
    rfl

/-- The first success wins. -/
theorem after_of_success {j : Nat} (hj : j < len) (ha : ∀ i ≤ j, able i = true)
    (hf : ∀ i < j, ok i = false) (hs : ok j = true) : after len able ok (j + 1) = .won j := by
  rw [after, after_of_failures hf fun i hi ↦ ⟨by omega, ha i (by omega)⟩,
    ask_of_able hj (ha j (Nat.le_refl j)), respond, hs]
  rfl

/-- Without a success the waterfall runs through all entries. -/
theorem after_of_no_success (ha : ∀ i < len, able i = true) (hf : ∀ i < len, ok i = false) :
    after len able ok len = .lost := by
  rw [after_of_failures hf fun i hi ↦ ⟨hi, ha i hi⟩, ask, if_neg (Nat.lt_irrefl len)]

/-- A waterfall that has ended stays as it is. -/
theorem after_add_of_ended {k : Nat} (h : (after len able ok k).ended = true) (n : Nat) :
    after len able ok (k + n) = after len able ok k := by
  induction n with
  | zero => rfl
  | succ n ih =>
    rw [Nat.add_succ, after, ih]
    cases hp : after len able ok k with
    | asking m =>
      rw [hp] at h
      cases h
    | stuck m => rfl
    | won m => rfl
    | lost => rfl

/-! ### When a waterfall ends -/

/-- Every entry that cannot be asked comes after a success. -/
def Passable (len : Nat) (able ok : Nat → Bool) : Prop :=
  ∀ i < len, able i = false → ∃ j < i, ok j = true

/-- Up to an entry that cannot be asked and with failures before it, the waterfall does not
end. -/
private theorem not_ended {i : Nat} (hi : i < len) (ha : able i = false)
    (hf : ∀ j < i, ok j = false) (k : Nat) :
    (after len able ok k = .asking k ∧ k < i) ∨ ∃ n, after len able ok k = .stuck n := by
  have hask : ∀ n ≤ i, (ask len able n = .asking n ∧ n < i) ∨
      ∃ m, ask len able n = .stuck m := by
    intro n hn
    have hlt : n < len := by omega
    cases hb : able n with
    | true =>
      have hne : n ≠ i := by
        rintro rfl
        rw [ha] at hb
        cases hb
      exact Or.inl ⟨ask_of_able hlt hb, by omega⟩
    | false => exact Or.inr ⟨n, by simp [ask, hlt, hb]⟩
  induction k with
  | zero => exact hask 0 (Nat.zero_le i)
  | succ k ih =>
    rcases ih with ⟨he, hk⟩ | ⟨n, he⟩
    · rw [after, he, respond, hf k hk]
      exact hask (k + 1) hk
    · rw [after, he]
      exact Or.inr ⟨n, rfl⟩

/-- A waterfall ends exactly when every entry that cannot be asked comes after a success. -/
theorem exists_ended_iff :
    (∃ k, (after len able ok k).ended = true) ↔ Passable len able ok := by
  constructor
  · rintro ⟨k, hk⟩ i hi ha
    apply Classical.byContradiction
    intro hn
    have hf : ∀ j < i, ok j = false := by
      intro j hj
      cases ho : ok j with
      | false => rfl
      | true => exact absurd ⟨j, hj, ho⟩ hn
    rcases not_ended hi ha hf k with ⟨he, _⟩ | ⟨n, he⟩
    · rw [he] at hk
      cases hk
    · rw [he] at hk
      cases hk
  · intro h
    have hable : ∀ i < len, (∀ j < i, ok j = false) → able i = true := by
      intro i hi hf
      cases hb : able i with
      | true => rfl
      | false =>
        obtain ⟨j, hj, hs⟩ := h i hi hb
        rw [hf j hj] at hs
        cases hs
    by_cases hs : ∃ j, j < len ∧ ok j = true
    · obtain ⟨hj, hok⟩ := Nat.find_spec hs
      have hf : ∀ i < Nat.find hs, ok i = false := by
        intro i hi
        have hn := Nat.find_min hs hi
        cases ho : ok i with
        | false => rfl
        | true => exact absurd ⟨by omega, ho⟩ hn
      refine ⟨Nat.find hs + 1, ?_⟩
      rw [after_of_success hj
        (fun i hi ↦ hable i (by omega) fun j hj ↦ hf j (by omega)) hf hok]
      rfl
    · have hf : ∀ i < len, ok i = false := by
        intro i hi
        cases ho : ok i with
        | false => rfl
        | true => exact absurd ⟨i, hi, ho⟩ hs
      refine ⟨len, ?_⟩
      rw [after_of_no_success (fun i hi ↦ hable i hi fun j hj ↦ hf j (by omega)) hf]
      rfl

end Waterfall
