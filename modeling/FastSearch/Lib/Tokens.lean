/-!
# Tokens between delimiters

A tokenizer that returns its delimiters: every delimiter is a token of its own, and the letters
between two delimiters are one token. A loop over the tokens that takes a run of letters as it
takes the letters one by one is a loop over the letters of the text. The counterpart is a printer
that puts a mark before some letters.
-/

universe u v

namespace Tokens

variable {α : Type u} (delim : α → Bool)

/-- The tokens of a text. -/
def tokens : List α → List (List α)
  | [] => []
  | a :: l =>
    if delim a then [a] :: tokens l
    else
      match tokens l with
      | (b :: t) :: ts => if delim b then [a] :: (b :: t) :: ts else (a :: b :: t) :: ts
      | ts => [a] :: ts

/-- A token without delimiters. -/
def IsRun (t : List α) : Prop := t ≠ [] ∧ ∀ a ∈ t, delim a = false

variable {delim}

@[simp] theorem tokens_nil : tokens delim [] = [] := rfl

theorem tokens_delim {a : α} (h : delim a = true) (l : List α) :
    tokens delim (a :: l) = [a] :: tokens delim l := by
  rw [tokens, if_pos h]

/-- Every token is one delimiter or a run. -/
theorem mem_tokens {l t : List α} (h : t ∈ tokens delim l) :
    (∃ a, t = [a] ∧ delim a = true) ∨ IsRun delim t := by
  induction l generalizing t with
  | nil => cases h
  | cons a l ih =>
    rw [tokens] at h
    split at h
    · next ha =>
      rcases List.mem_cons.mp h with rfl | h
      · exact Or.inl ⟨a, rfl, ha⟩
      · exact ih h
    · next ha =>
      have hone : IsRun delim [a] := ⟨by simp, by simpa using ha⟩
      split at h
      · next b t' ts hts =>
        split at h
        · rcases List.mem_cons.mp h with rfl | h
          · exact Or.inr hone
          · exact ih (hts ▸ h)
        · next hb =>
          rcases List.mem_cons.mp h with rfl | h
          · -- the run that starts with `b` grows by `a`
            rcases ih (hts ▸ List.mem_cons_self) with ⟨c, hc, hd⟩ | ⟨_, hr⟩
            · cases hc
              exact absurd hd hb
            · refine Or.inr ⟨by simp, ?_⟩
              intro c hc
              rcases List.mem_cons.mp hc with rfl | hc
              · simpa using ha
              · exact hr c hc
          · exact ih (hts ▸ List.mem_cons_of_mem _ h)
      · rcases List.mem_cons.mp h with rfl | h
        · exact Or.inr hone
        · exact ih h

/-- A letter joins the run after it, or stands before a delimiter or the end. -/
theorem tokens_letter {a : α} (h : delim a = false) (l : List α) :
    (∃ t ts, IsRun delim t ∧ tokens delim l = t :: ts ∧
      tokens delim (a :: l) = (a :: t) :: ts) ∨
    tokens delim (a :: l) = [a] :: tokens delim l := by
  rw [tokens, if_neg (by simp [h])]
  split
  · next b t ts hts =>
    split
    · next hb =>
      rw [hts]
      exact Or.inr rfl
    · next hb =>
      refine Or.inl ⟨b :: t, ts, ?_, hts, rfl⟩
      rcases mem_tokens (hts ▸ List.mem_cons_self : b :: t ∈ tokens delim l) with ⟨c, hc, hd⟩ | hr
      · cases hc
        exact absurd hd hb
      · exact hr
  · exact Or.inr rfl

/-- A loop over the tokens is a loop over the letters, if a run is taken as its first letter and
then the rest. -/
theorem foldl_tokens {σ : Type v} {step : σ → List α → σ}
    (hrun : ∀ s a t, delim a = false → IsRun delim t → step s (a :: t) = step (step s [a]) t)
    (l : List α) (s : σ) :
    (tokens delim l).foldl step s = l.foldl (fun s a ↦ step s [a]) s := by
  induction l generalizing s with
  | nil => rfl
  | cons a l ih =>
    rw [List.foldl_cons, ← ih]
    cases h : delim a with
    | true => rw [tokens_delim h, List.foldl_cons]
    | false =>
      rcases tokens_letter h l with ⟨t, ts, ht, hts, he⟩ | he
      · rw [he, hts, List.foldl_cons, List.foldl_cons, hrun s a t h ht]
      · rw [he, List.foldl_cons]

/-! ### Escaping -/

/-- A word with a mark before every special letter. -/
def escape (mark : α) (special : α → Bool) (w : List α) : List α :=
  w.flatMap fun a ↦ if special a then [mark, a] else [a]

section Escape

variable {mark : α} {special : α → Bool} {σ : Type v} {step push : σ → α → σ} {P : σ → Prop}

theorem escape_cons (a : α) (w : List α) :
    escape mark special (a :: w) =
      (if special a then [mark, a] else [a]) ++ escape mark special w := rfl

theorem escape_eq_nil_iff {w : List α} : escape mark special w = [] ↔ w = [] := by
  cases w with
  | nil => exact iff_of_true rfl rfl
  | cons a w =>
    rw [escape_cons]
    cases special a <;> simp

/-- Escaping adds marks only. -/
theorem forall_mem_escape {p : α → Prop} (hm : p mark) {w : List α} :
    (∀ a ∈ escape mark special w, p a) ↔ ∀ a ∈ w, p a := by
  induction w with
  | nil => exact Iff.rfl
  | cons a w ih =>
    rw [escape_cons, List.forall_mem_append, ih, List.forall_mem_cons]
    cases special a <;> simp [hm]

/-- Escaping neither makes nor breaks a start without special letters, if what follows begins
with a special letter. -/
theorem isPrefixOf_escape [BEq α] [LawfulBEq α] (hm : special mark = true) {start : List α}
    (hs : ∀ a ∈ start, special a = false) {tail : List α}
    (ht : ∀ a ∈ tail.head?, special a = true) (w : List α) :
    start.isPrefixOf (escape mark special w ++ tail) = start.isPrefixOf w := by
  have hne : ∀ {a b : α}, special a = false → special b = true → (a == b) = false := by
    intro a b ha hb
    apply beq_eq_false_iff_ne.mpr
    rintro rfl
    rw [ha] at hb
    cases hb
  induction start generalizing w with
  | nil => simp
  | cons a start ih =>
    rw [List.forall_mem_cons] at hs
    cases w with
    | nil =>
      cases tail with
      | nil => rfl
      | cons b tail =>
        change (a == b && start.isPrefixOf tail) = false
        rw [hne hs.1 (ht b rfl), Bool.false_and]
    | cons b w =>
      rw [escape_cons, List.append_assoc]
      cases hb : special b with
      | true =>
        change (a == mark && _) = (a == b && _)
        rw [hne hs.1 hm, hne hs.1 hb, Bool.false_and, Bool.false_and]
      | false =>
        change (a == b && start.isPrefixOf (escape mark special w ++ tail)) = (a == b && _)
        rw [ih hs.2]

/-- A loop that drops marks reads an escaped word letter by letter. -/
theorem foldl_escape (hpush : ∀ s a, P s → P (push s a))
    (hmark : ∀ s a, P s → special a = true → step (step s mark) a = push s a)
    (hplain : ∀ s a, P s → special a = false → step s a = push s a) {s : σ} (hs : P s)
    (w : List α) : (escape mark special w).foldl step s = w.foldl push s := by
  induction w generalizing s with
  | nil => rfl
  | cons a w ih =>
    have ha : (if special a then [mark, a] else [a]).foldl step s = push s a := by
      cases h : special a with
      | true => exact hmark s a hs h
      | false => exact hplain s a hs h
    rw [escape_cons, List.foldl_append, ha, List.foldl_cons]
    exact ih (hpush s a hs)

end Escape

end Tokens
