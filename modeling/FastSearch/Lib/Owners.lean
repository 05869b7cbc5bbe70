/-!
# Owners of a shared component

Owners are numbered in the order of their creation. They are created and destroyed in any
order, so several may be alive at once, and an older one may be destroyed after a newer one was
created.
-/

/-- The owners that are alive and the number of owners created so far. -/
structure Owners where
  alive : List Nat := []
  created : Nat := 0
  deriving DecidableEq, Repr

namespace Owners

/-- A new owner. -/
def create (o : Owners) : Owners := ⟨o.alive ++ [o.created], o.created + 1⟩

/-- An owner goes. -/
def destroy (o : Owners) (i : Nat) : Option Owners :=
  if i ∈ o.alive then some { o with alive := o.alive.erase i } else none

/-- The owner is alive and no other one was created after it. -/
def Latest (o : Owners) (i : Nat) : Prop := i ∈ o.alive ∧ i + 1 = o.created

/-- The owner is the latest one and alone. -/
def Sole (o : Owners) (i : Nat) : Prop := o.alive = [i] ∧ i + 1 = o.created

theorem latest_create (o : Owners) : o.create.Latest o.created := by
  simp [Latest, create]

/-- An owner created after all others are gone is alone. -/
theorem sole_create {o : Owners} (h : o.alive = []) : o.create.Sole o.created := by
  simp [Sole, create, h]

theorem not_latest_of_nil {o : Owners} (h : o.alive = []) (i : Nat) : ¬ o.Latest i := by
  simp [Latest, h]

/-- Alone means alive and latest, and nobody else. -/
theorem Sole.latest_iff {o : Owners} {h : Nat} (hs : o.Sole h) (i : Nat) :
    o.Latest i ↔ i = h := by
  unfold Latest
  rw [hs.1, List.mem_singleton]
  constructor
  · intro hi
    exact hi.1
  · rintro rfl
    exact ⟨rfl, hs.2⟩

/-- Destroying the only owner leaves none. -/
theorem Sole.destroy {o p : Owners} {h i : Nat} (hs : o.Sole h) (hd : o.destroy i = some p) :
    i = h ∧ p.alive = [] := by
  unfold Owners.destroy at hd
  rw [hs.1] at hd
  split at hd
  · next hi =>
    cases hd
    have hih : i = h := List.mem_singleton.mp hi
    exact ⟨hih, by simp [hih]⟩
  · cases hd

/-- Without an owner nothing is destroyed. -/
theorem destroy_of_nil {o : Owners} (h : o.alive = []) (i : Nat) : o.destroy i = none := by
  simp [Owners.destroy, h]

end Owners
