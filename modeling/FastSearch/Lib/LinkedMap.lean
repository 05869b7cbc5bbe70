import Mathlib.Data.List.Nodup

/-!
# Maps in insertion order

A finite map that lists its entries in the order in which their keys first came: a value put
under a key that is there takes the place of the old one.
-/

universe u v

/-- A map in insertion order: no key has two entries. -/
structure LinkedMap (K : Type u) (V : Type v) where
  entries : List (K × V) := []
  nodup : (entries.map Prod.fst).Nodup := by exact List.nodup_nil
  deriving DecidableEq

namespace LinkedMap

variable {K : Type u} {V : Type v}

instance : EmptyCollection (LinkedMap K V) := ⟨{}⟩

/-- No entry. -/
def isEmpty (m : LinkedMap K V) : Bool := m.entries.isEmpty

/-- The values, in order. -/
def values (m : LinkedMap K V) : List V := m.entries.map Prod.snd

variable [DecidableEq K]

/-- The value under a key. -/
def get? (m : LinkedMap K V) (k : K) : Option V := (m.entries.find? fun e ↦ e.1 = k).map Prod.snd

/-- The map without a key. -/
def remove (m : LinkedMap K V) (k : K) : LinkedMap K V where
  entries := m.entries.filter fun e ↦ e.1 ≠ k
  nodup := m.nodup.sublist (List.filter_sublist.map _)

/-- The entries with the value of one key replaced. -/
private def replaceEntry (k : K) (v : V) (e : K × V) : K × V := if e.1 = k then (k, v) else e

private theorem fst_replaceEntry (k : K) (v : V) (e : K × V) : (replaceEntry k v e).1 = e.1 := by
  unfold replaceEntry
  split
  · next h => exact h.symm
  · rfl

/-- The map with a value put under a key. -/
def put (m : LinkedMap K V) (k : K) (v : V) : LinkedMap K V :=
  if h : k ∈ m.entries.map Prod.fst then
    { entries := m.entries.map (replaceEntry k v)
      nodup := by
        have hk : Prod.fst ∘ replaceEntry k v = Prod.fst := funext (fst_replaceEntry k v)
        rw [List.map_map, hk]
        exact m.nodup }
  else
    { entries := m.entries ++ [(k, v)]
      nodup := by
        rw [List.map_append]
        exact m.nodup.append (List.nodup_singleton k) (by simpa using h) }

/-! ### Lookup -/

/-- What is found is an entry, and every entry is found. -/
theorem get?_eq_some_iff {m : LinkedMap K V} {k : K} {v : V} :
    m.get? k = some v ↔ (k, v) ∈ m.entries := by
  obtain ⟨entries, nodup⟩ := m
  induction entries with
  | nil => simp [get?]
  | cons e entries ih =>
    have hn := List.nodup_cons.mp nodup
    by_cases he : e.1 = k
    · have hnot : (k, v) ∉ entries := by
        intro hm
        exact hn.1 (he ▸ List.mem_map_of_mem hm)
      have hcons : (k, v) = e ↔ e.2 = v := by
        rw [Prod.ext_iff, he]
        simp [eq_comm]
      simp [get?, he, hnot, hcons]
    · have hne : (k, v) ≠ e := by
        rintro rfl
        exact he rfl
      simpa [get?, he, hne] using ih hn.2

/-- A key without a value has no entry. -/
theorem get?_eq_none_iff {m : LinkedMap K V} {k : K} :
    m.get? k = none ↔ k ∉ m.entries.map Prod.fst := by
  rw [Option.eq_none_iff_forall_ne_some]
  simp [get?_eq_some_iff]

@[simp] theorem get?_empty (k : K) : (∅ : LinkedMap K V).get? k = none := rfl

@[simp] theorem get?_remove_self (m : LinkedMap K V) (k : K) : (m.remove k).get? k = none := by
  rw [get?_eq_none_iff]
  simp [remove]

theorem get?_remove_ne (m : LinkedMap K V) {k k' : K} (h : k' ≠ k) :
    (m.remove k).get? k' = m.get? k' := by
  ext v
  simp only [get?_eq_some_iff]
  simp [remove, h]

@[simp] theorem get?_put_self (m : LinkedMap K V) (k : K) (v : V) :
    (m.put k v).get? k = some v := by
  rw [get?_eq_some_iff, put]
  split
  · next h =>
    obtain ⟨e, he, rfl⟩ := List.mem_map.mp h
    exact List.mem_map.mpr ⟨e, he, by simp [replaceEntry]⟩
  · simp

theorem get?_put_ne (m : LinkedMap K V) {k k' : K} (v : V) (h : k' ≠ k) :
    (m.put k v).get? k' = m.get? k' := by
  ext w
  simp only [get?_eq_some_iff]
  rw [put]
  split
  · simp only [List.mem_map]
    constructor
    · rintro ⟨e, he, hr⟩
      have hk : e.1 = k' := by rw [← fst_replaceEntry k v e, hr]
      rw [replaceEntry, if_neg (hk ▸ h)] at hr
      exact hr ▸ he
    · intro he
      exact ⟨_, he, by simp [replaceEntry, h]⟩
  · simp [h]

/-- A key is looked up after a value was put. -/
theorem get?_put (m : LinkedMap K V) (k k' : K) (v : V) :
    (m.put k v).get? k' = if k' = k then some v else m.get? k' := by
  split
  · next h => rw [h, get?_put_self]
  · next h => exact get?_put_ne m v h

/-- A key is looked up after a key was removed. -/
theorem get?_remove (m : LinkedMap K V) (k k' : K) :
    (m.remove k).get? k' = if k' = k then none else m.get? k' := by
  split
  · next h => rw [h, get?_remove_self]
  · next h => exact get?_remove_ne m h

/-! ### Emptiness and values -/

theorem isEmpty_iff {m : LinkedMap K V} : m.isEmpty = true ↔ ∀ k, m.get? k = none := by
  obtain ⟨entries, nodup⟩ := m
  cases entries with
  | nil => simp [isEmpty, get?]
  | cons e entries =>
    simp only [isEmpty, List.isEmpty_cons, Bool.false_eq_true, false_iff, not_forall]
    exact ⟨e.1, by simp [get?]⟩

@[simp] theorem isEmpty_put (m : LinkedMap K V) (k : K) (v : V) : (m.put k v).isEmpty = false := by
  rw [← Bool.not_eq_true, isEmpty_iff]
  intro h
  have hk := h k
  rw [get?_put_self] at hk
  cases hk

theorem mem_values_iff {m : LinkedMap K V} {v : V} : v ∈ m.values ↔ ∃ k, m.get? k = some v := by
  simp [values, get?_eq_some_iff]

end LinkedMap
