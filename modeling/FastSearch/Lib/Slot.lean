/-!
# Slots for owned resources

A slot is a field that holds at most one resource. Storing into an occupied slot drops the
resource that was there; the slot remembers what it dropped and what was released in order.
-/

universe u

/-- A field for one resource, with the resources it released and those it dropped. -/
structure Slot (α : Type u) where
  stored : Option α := none
  released : List α := []
  dropped : List α := []
  deriving DecidableEq, Repr

namespace Slot

variable {α : Type u}

/-- Overwrite the field; a resource still in it is dropped. -/
def store (s : Slot α) (x : α) : Slot α :=
  { s with stored := some x, dropped := s.dropped ++ s.stored.toList }

/-- Release the resource, if any, and clear the field. -/
def release (s : Slot α) : Slot α :=
  { s with stored := none, released := s.released ++ s.stored.toList }

@[simp] theorem stored_store (s : Slot α) (x : α) : (s.store x).stored = some x := rfl

/-- Storing drops nothing exactly when nothing was dropped before and the field was free. -/
theorem dropped_store_eq_nil (s : Slot α) (x : α) :
    (s.store x).dropped = [] ↔ s.dropped = [] ∧ s.stored = none := by
  unfold store
  rw [List.append_eq_nil_iff]
  cases s.stored with
  | none => simp
  | some y => simp

end Slot
