import Mathlib.Data.List.Destutter
import Mathlib.Data.List.Induction

/-!
# Lists with headings

A list is shown with a heading in front of every run of elements that carry the same label.
One pass builds it and remembers the label of the last heading. What is shown is described
from both sides: what the headings and the items are, and where an item stands.
-/

universe u v w

namespace Headings

variable {α : Type u} {κ : Type v} {β : Type w} [DecidableEq κ]
  (label : α → κ) (heading : κ → β) (item : α → β)

/-- Put a heading in front of an element whose label is not the current one. -/
def insertHeadings (cur : κ) : List α → List β
  | [] => []
  | a :: l =>
    if label a = cur then item a :: insertHeadings cur l
    else heading (label a) :: item a :: insertHeadings (label a) l

/-- The label that is current after a list. -/
def lastLabel (cur : κ) (l : List α) : κ := l.foldl (fun _ a ↦ label a) cur

/-- What an element adds to a list whose current label is `cur`. -/
def entry (cur : κ) (a : α) : List β :=
  if label a = cur then [item a] else [heading (label a), item a]

variable {label heading item}

omit [DecidableEq κ] in
theorem lastLabel_append (cur : κ) (l : List α) (a : α) :
    lastLabel label cur (l ++ [a]) = label a := by
  rw [lastLabel, List.foldl_append]
  rfl

theorem insertHeadings_cons (cur : κ) (a : α) (l : List α) :
    insertHeadings label heading item cur (a :: l) =
      entry label heading item cur a ++ insertHeadings label heading item (label a) l := by
  rw [insertHeadings, entry]
  by_cases h : label a = cur
  · rw [if_pos h, if_pos h, h]
    rfl
  · rw [if_neg h, if_neg h]
    rfl

theorem insertHeadings_append (cur : κ) (l m : List α) :
    insertHeadings label heading item cur (l ++ m) =
      insertHeadings label heading item cur l ++
        insertHeadings label heading item (lastLabel label cur l) m := by
  induction l generalizing cur with
  | nil => rfl
  | cons a l ih =>
    rw [List.cons_append, insertHeadings_cons, insertHeadings_cons, ih, List.append_assoc]
    rfl

theorem eq_heading_or_item {cur : κ} {l : List α} {b : β}
    (h : b ∈ insertHeadings label heading item cur l) : (∃ k, b = heading k) ∨ ∃ a, b = item a := by
  induction l generalizing cur with
  | nil => simp [insertHeadings] at h
  | cons a l ih =>
    rw [insertHeadings_cons, List.mem_append] at h
    rcases h with h | h
    · unfold entry at h
      split at h
      · exact Or.inr ⟨a, List.mem_singleton.mp h⟩
      · rcases List.mem_cons.mp h with h | h
        · exact Or.inl ⟨_, h⟩
        · exact Or.inr ⟨a, List.mem_singleton.mp h⟩
    · exact ih h

/-! ### Headings and items told apart -/

private theorem destutter'_eq_cons (k : κ) (l : List κ) :
    ∃ t, l.destutter' (· ≠ ·) k = k :: t := by
  induction l generalizing k with
  | nil => exact ⟨[], rfl⟩
  | cons a l ih =>
    by_cases h : k ≠ a
    · exact ⟨_, List.destutter'_cons_pos l h⟩
    · rw [List.destutter'_cons_neg l h]
      exact ih k

section Kinds

variable {isHeading : β → Bool} (hh : ∀ k, isHeading (heading k) = true)
  (hi : ∀ a, isHeading (item a) = false)

include hh hi

/-- Without the headings the elements are left in their order. -/
theorem filter_items (cur : κ) (l : List α) :
    (insertHeadings label heading item cur l).filter (fun b ↦ !isHeading b) = l.map item := by
  induction l generalizing cur with
  | nil => rfl
  | cons a l ih =>
    rw [insertHeadings_cons, List.filter_append, ih, entry]
    by_cases h : label a = cur
    · simp [h, hi]
    · simp [h, hh, hi]

/-- The headings are the labels without immediate repetitions. -/
theorem filter_headings (cur : κ) (l : List α) :
    (insertHeadings label heading item cur l).filter isHeading =
      ((l.map label).destutter' (· ≠ ·) cur).tail.map heading := by
  induction l generalizing cur with
  | nil => rfl
  | cons a l ih =>
    rw [insertHeadings_cons, List.filter_append, ih, entry, List.map_cons]
    by_cases h : label a = cur
    · simp [h, hi]
    · obtain ⟨t, ht⟩ := destutter'_eq_cons (label a) (l.map label)
      simp [h, hh, hi, Ne.symm h, ht]

omit hh in
/-- A heading is followed by an item. -/
theorem item_after_heading {cur : κ} {l : List α} {pre post : List β} {b : β}
    (h : insertHeadings label heading item cur l = pre ++ b :: post) (hb : isHeading b = true) :
    ∃ a post', post = item a :: post' := by
  induction l generalizing cur pre with
  | nil => simp [insertHeadings] at h
  | cons a l ih =>
    rw [insertHeadings] at h
    split at h
    · cases pre with
      | nil =>
        rw [← (List.cons.inj h).1, hi] at hb
        cases hb
      | cons x pre => exact ih (List.cons.inj h).2
    · match pre with
      | [] => exact ⟨a, _, (List.cons.inj h).2.symm⟩
      | [x] =>
        rw [← (List.cons.inj (List.cons.inj h).2).1, hi] at hb
        cases hb
      | x :: y :: pre => exact ih (List.cons.inj (List.cons.inj h).2).2

omit hi in
/-- An item stands behind what the elements before it show, and behind its heading when its
label is new. -/
theorem split_at_item {cur : κ} {l : List α} {pre post : List β} {b : β}
    (h : insertHeadings label heading item cur l = pre ++ b :: post) (hb : isHeading b = false) :
    ∃ l₁ a l₂, l = l₁ ++ a :: l₂ ∧ b = item a ∧
      pre ++ [b] = insertHeadings label heading item cur l₁ ++
        entry label heading item (lastLabel label cur l₁) a ∧
      post = insertHeadings label heading item (label a) l₂ := by
  induction l generalizing cur pre with
  | nil => simp [insertHeadings] at h
  | cons a l ih =>
    have hrest : ∀ pre', pre = entry label heading item cur a ++ pre' →
        insertHeadings label heading item (label a) l = pre' ++ b :: post →
        ∃ l₁ c l₂, a :: l = l₁ ++ c :: l₂ ∧ b = item c ∧
          pre ++ [b] = insertHeadings label heading item cur l₁ ++
            entry label heading item (lastLabel label cur l₁) c ∧
          post = insertHeadings label heading item (label c) l₂ := by
      rintro pre' rfl hr
      obtain ⟨l₁, c, l₂, rfl, hc, hpre, hpost⟩ := ih hr
      refine ⟨a :: l₁, c, l₂, rfl, hc, ?_, hpost⟩
      rw [insertHeadings_cons, List.append_assoc, hpre, List.append_assoc]
      rfl
    rw [insertHeadings_cons] at h
    by_cases ha : label a = cur
    · simp only [entry, ha, if_true, List.singleton_append] at h hrest
      cases pre with
      | nil =>
        obtain ⟨rfl, rfl⟩ := List.cons.inj h
        exact ⟨[], a, l, rfl, rfl, by simp [insertHeadings, entry, lastLabel, ha], by rw [ha]⟩
      | cons x pre =>
        obtain ⟨rfl, hr⟩ := List.cons.inj h
        exact hrest pre rfl hr
    · simp only [entry, ha, if_false, List.cons_append, List.nil_append] at h hrest
      match pre with
      | [] =>
        rw [← (List.cons.inj h).1, hh] at hb
        cases hb
      | [x] =>
        obtain ⟨rfl, hr⟩ := List.cons.inj h
        obtain ⟨rfl, rfl⟩ := List.cons.inj hr
        exact ⟨[], a, l, rfl, rfl, by simp [insertHeadings, entry, lastLabel, ha], rfl⟩
      | x :: y :: pre =>
        obtain ⟨rfl, hr⟩ := List.cons.inj h
        obtain ⟨rfl, hq⟩ := List.cons.inj hr
        exact hrest pre rfl hq

end Kinds

/-- After elements that end with the label `k`, the last heading shown is that of `k`, and only
items with this label stand behind it. -/
theorem exists_last_heading {cur : κ} {l : List α} (hl : ∀ a ∈ l, label a ≠ cur) (hn : l ≠ []) :
    ∃ (pre : List β) (m : List α), insertHeadings label heading item cur l =
        pre ++ heading (lastLabel label cur l) :: m.map item ∧
      ∀ a ∈ m, label a = lastLabel label cur l := by
  induction l using List.reverseRecOn with
  | nil => exact absurd rfl hn
  | append_singleton l a ih =>
    rw [insertHeadings_append, lastLabel_append, insertHeadings_cons, entry]
    by_cases h : label a = lastLabel label cur l
    · have hne : l ≠ [] := by
        rintro rfl
        exact hl a (by simp) h
      obtain ⟨pre, m, he, hm⟩ := ih (fun b hb ↦ hl b (by simp [hb])) hne
      refine ⟨pre, m ++ [a], ?_, ?_⟩
      · rw [if_pos h, he, h]
        simp [insertHeadings]
      · intro b hb
        rcases List.mem_append.mp hb with hb | hb
        · exact (hm b hb).trans h.symm
        · rw [List.mem_singleton.mp hb]
    · refine ⟨insertHeadings label heading item cur l, [a], ?_, ?_⟩
      · rw [if_neg h]
        rfl
      · intro b hb
        rw [List.mem_singleton.mp hb]

/-- In a list sorted by a key that decides the label every label has one run. -/
theorem nodup_destutter' {δ : Type*} [PartialOrder δ] {key : α → δ}
    (hk : ∀ a b, label a = label b ↔ key a = key b) {a : α} {l : List α}
    (hs : (a :: l).Pairwise fun x y ↦ key y ≤ key x) :
    ((l.map label).destutter' (· ≠ ·) (label a)).Nodup := by
  induction l generalizing a with
  | nil => exact List.nodup_singleton _
  | cons b l ih =>
    obtain ⟨ha, hb⟩ := List.pairwise_cons.mp hs
    by_cases h : label a = label b
    · rw [List.map_cons, List.destutter'_cons_neg _ (not_not.mpr h), h]
      exact ih hb
    · rw [List.map_cons, List.destutter'_cons_pos _ h, List.nodup_cons]
      refine ⟨?_, ih hb⟩
      intro hm
      rcases List.mem_cons.mp ((List.destutter'_sublist _ _ _).subset hm) with he | hm
      · exact h he
      · obtain ⟨c, hc, he⟩ := List.mem_map.mp hm
        have hac : key a = key c := (hk a c).mp he.symm
        have hle : key c ≤ key b := (List.pairwise_cons.mp hb).1 c hc
        have hba : key b = key a :=
          le_antisymm (ha b List.mem_cons_self) (hac.trans_le hle)
        exact h ((hk a b).mpr hba.symm)

end Headings
