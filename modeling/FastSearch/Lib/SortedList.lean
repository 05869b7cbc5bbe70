import Mathlib.Data.List.Perm.Basic

/-!
# Lists kept in an order

A list to which items are added in the place that a comparison gives them. Of the items that compare
equal to a new one, one that is the same item is replaced by it.
-/

namespace SortedList

universe u

variable {α : Type u} (compare : α → α → Ordering) (same : α → α → Bool)

/-- `add`: the items before the new one compare less, or equal without being the same. -/
def add : List α → α → List α
  | [], item => [item]
  | x :: items, item =>
    match compare x item with
    | .lt => x :: add items item
    | .eq => if same x item then item :: items else x :: add items item
    | .gt => item :: x :: items

/-- Two items of which the second replaces the first. -/
def Clash (x y : α) : Prop := compare x y = .eq ∧ same x y = true

variable {compare same}

/-- Every item of the list was there or is the new one. -/
theorem mem_of_mem_add {items : List α} {item x : α} (h : x ∈ add compare same items item) :
    x = item ∨ x ∈ items := by
  induction items with
  | nil => exact Or.inl (List.mem_singleton.mp h)
  | cons y items ih =>
    have hrest : x ∈ y :: add compare same items item → x = item ∨ x ∈ y :: items := by
      intro hx
      rcases List.mem_cons.mp hx with rfl | hx
      · exact Or.inr List.mem_cons_self
      · exact (ih hx).imp_right (List.mem_cons_of_mem y)
    rw [add] at h
    cases hc : compare y item with
    | lt =>
      rw [hc] at h
      exact hrest h
    | eq =>
      rw [hc] at h
      dsimp only at h
      split at h
      · exact (List.mem_cons.mp h).imp_right (List.mem_cons_of_mem y)
      · exact hrest h
    | gt =>
      rw [hc] at h
      exact List.mem_cons.mp h

/-- An item that clashes with none is added to the others. -/
theorem add_perm {items : List α} {item : α}
    (h : ∀ x ∈ items, ¬ Clash compare same x item) :
    (add compare same items item).Perm (item :: items) := by
  induction items with
  | nil => exact List.Perm.refl _
  | cons x items ih =>
    rw [List.forall_mem_cons] at h
    have hrest : (x :: add compare same items item).Perm (item :: x :: items) :=
      ((ih h.2).cons x).trans (List.Perm.swap item x items)
    rw [add]
    cases hc : compare x item with
    | lt => exact hrest
    | eq =>
      dsimp only
      rw [if_neg fun hs ↦ h.1 ⟨hc, hs⟩]
      exact hrest
    | gt => exact List.Perm.refl _

/-- Items of which no two clash are all in the list when they have been added. -/
theorem foldl_add_perm {items new : List α}
    (hin : ∀ x ∈ items, ∀ y ∈ new, ¬ Clash compare same x y)
    (hnew : new.Pairwise fun x y ↦ ¬ Clash compare same x y) :
    (new.foldl (add compare same) items).Perm (items ++ new) := by
  induction new generalizing items with
  | nil =>
    rw [List.append_nil]
    exact List.Perm.refl _
  | cons item new ih =>
    obtain ⟨hitem, hnew⟩ := List.pairwise_cons.mp hnew
    have hadd : (add compare same items item).Perm (item :: items) :=
      add_perm fun x hx ↦ hin x hx item List.mem_cons_self
    have hlater : ∀ x ∈ add compare same items item, ∀ y ∈ new, ¬ Clash compare same x y := by
      intro x hx y hy
      rcases mem_of_mem_add hx with rfl | hx
      · exact hitem y hy
      · exact hin x hx y (List.mem_cons_of_mem item hy)
    exact (ih hlater hnew).trans ((hadd.append_right new).trans List.perm_middle.symm)

end SortedList
