/-!
# Observable values

A value holder with two ways of writing. A set is delivered to the observers at once. A post
is delivered later; until then a further post replaces it, so only the latest one is seen.
A set does not cancel an outstanding post.
-/

universe u

/-- The value last delivered and the post that is still outstanding. -/
structure LiveData (α : Type u) where
  value : Option α := none
  posted : Option α := none
  deriving DecidableEq, Repr

namespace LiveData

variable {α : Type u}

/-- Deliver a value at once. -/
def setValue (l : LiveData α) (a : α) : LiveData α := { l with value := some a }

/-- Leave a value for later delivery. -/
def postValue (l : LiveData α) (a : α) : LiveData α := { l with posted := some a }

/-- Deliver the outstanding post, if there is one. -/
def deliver (l : LiveData α) : Option (LiveData α) :=
  l.posted.map fun a ↦ { value := some a, posted := none }

/-- The value the observers end up with once nothing is outstanding. -/
def latest (l : LiveData α) : Option α := l.posted.or l.value

/-- Nothing is outstanding. -/
def Settled (l : LiveData α) : Prop := l.posted = none

theorem latest_of_settled {l : LiveData α} (h : l.Settled) : l.latest = l.value := by
  unfold latest
  rw [h]
  rfl

/-- Delivery does not change where the observers end up. -/
theorem latest_deliver {l m : LiveData α} (h : l.deliver = some m) : m.latest = l.latest := by
  unfold deliver at h
  cases hp : l.posted with
  | none =>
    rw [hp] at h
    cases h
  | some a =>
    rw [hp] at h
    cases h
    unfold latest
    rw [hp]
    rfl

end LiveData
