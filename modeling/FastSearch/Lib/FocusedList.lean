import Mathlib.Data.List.Nodup

/-!
# Lists with a focus

A collection of distinct items, one of which has the focus. It is never empty: removing the
last item puts a fresh one in its place, and removing the focused item moves the focus to the
first one left.
-/

universe u

/-- Distinct items in order of addition, with the focused one among them. -/
structure FocusedList (α : Type u) where
  items : List α
  focus : α
  nodup : items.Nodup
  focus_mem : focus ∈ items

namespace FocusedList

variable {α : Type u}

/-- One focused item. -/
def single (a : α) : FocusedList α := ⟨[a], a, List.nodup_singleton a, List.mem_singleton_self a⟩

/-- Focus an item that is present. -/
def select (l : FocusedList α) (a : α) (h : a ∈ l.items) : FocusedList α :=
  { l with focus := a, focus_mem := h }

/-- There is always an item. -/
theorem items_ne_nil (l : FocusedList α) : l.items ≠ [] := by
  intro h
  have hm := l.focus_mem
  rw [h] at hm
  cases hm

variable [DecidableEq α]

/-- Remove an item; `fresh` replaces the last one. -/
def remove (l : FocusedList α) (a fresh : α) : FocusedList α :=
  if hf : l.focus = a then
    match he : l.items.erase a with
    | [] => single fresh
    | x :: xs => ⟨x :: xs, x, he ▸ l.nodup.erase a, List.mem_cons_self⟩
  else
    ⟨l.items.erase a, l.focus, l.nodup.erase a, (List.mem_erase_of_ne hf).mpr l.focus_mem⟩

/-- Removing an item that has no focus leaves the focus. -/
theorem remove_of_ne {l : FocusedList α} {a : α} (fresh : α) (h : l.focus ≠ a) :
    (l.remove a fresh).items = l.items.erase a ∧ (l.remove a fresh).focus = l.focus := by
  unfold remove
  rw [dif_neg h]
  exact ⟨rfl, rfl⟩

/-- Removing the focused item focuses the first one left. -/
theorem remove_focused {l : FocusedList α} {a x : α} {xs : List α} (fresh : α)
    (h : l.focus = a) (he : l.items.erase a = x :: xs) :
    (l.remove a fresh).items = x :: xs ∧ (l.remove a fresh).focus = x := by
  unfold remove
  rw [dif_pos h]
  split
  · next hc =>
    rw [he] at hc
    cases hc
  · next hc =>
    rw [he] at hc
    obtain ⟨rfl, rfl⟩ := List.cons.inj hc
    exact ⟨rfl, rfl⟩

end FocusedList
