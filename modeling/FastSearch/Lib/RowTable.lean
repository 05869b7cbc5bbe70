import Mathlib.Data.List.Nodup

/-!
# Tables with generated integer keys

A table is its row list in listing order together with the two facts that an
autogenerated integer primary key provides: keys are positive and pairwise distinct.
Key generation is a parameter, so nothing here fixes how a database numbers its rows.
-/

universe u

/-- Rows in listing order, with positive and pairwise distinct keys. -/
structure RowTable (ρ : Type u) (key : ρ → Int) where
  rows : List ρ
  keys_pos : ∀ r ∈ rows, 0 < key r
  keys_nodup : (rows.map key).Nodup

/-- A key generator: positive and fresh for whatever rows are present. -/
structure AutoKey (ρ : Type u) (key : ρ → Int) where
  next : List ρ → Int
  pos : ∀ rows, 0 < next rows
  fresh : ∀ rows, next rows ∉ rows.map key

namespace RowTable

variable {ρ : Type u} {key : ρ → Int}

/-- The table without rows. -/
def empty : RowTable ρ key := ⟨[], by simp, by simp⟩

/-- The row stored under a key. -/
def get (t : RowTable ρ key) (k : Int) : Option ρ := t.rows.find? fun r ↦ key r = k

/-- Append the row built from a freshly generated key. -/
def insert (g : AutoKey ρ key) (t : RowTable ρ key) (mk : Int → ρ)
    (hk : ∀ k, key (mk k) = k) : RowTable ρ key where
  rows := t.rows ++ [mk (g.next t.rows)]
  keys_pos := by
    intro r hr
    rcases List.mem_append.mp hr with h | h
    · exact t.keys_pos r h
    · rw [List.mem_singleton.mp h, hk]
      exact g.pos _
  keys_nodup := by
    have hf := g.fresh t.rows
    rw [List.map_append, List.map_singleton, hk]
    exact t.keys_nodup.append (List.nodup_singleton _) (by simpa using hf)

private theorem map_key_update (rows : List ρ) (r : ρ) :
    (rows.map fun x ↦ if key x = key r then r else x).map key = rows.map key := by
  rw [List.map_map]
  apply List.map_congr_left
  intro x _
  by_cases h : key x = key r
  · simp [h]
  · simp [h]

/-- Replace the row that has the key of `r`, whole; other rows keep their place. -/
def update (t : RowTable ρ key) (r : ρ) : RowTable ρ key where
  rows := t.rows.map fun x ↦ if key x = key r then r else x
  keys_pos := by
    intro x hx
    have hm : key x ∈ t.rows.map key := by
      rw [← map_key_update t.rows r]
      exact List.mem_map_of_mem hx
    obtain ⟨y, hy, he⟩ := List.mem_map.mp hm
    exact he ▸ t.keys_pos y hy
  keys_nodup := by
    rw [map_key_update]
    exact t.keys_nodup

/-- How many rows an update replaces. -/
def updateCount (t : RowTable ρ key) (r : ρ) : Nat := t.rows.countP fun x ↦ key x = key r

/-- The new row comes last. -/
theorem mem_insert {g : AutoKey ρ key} {t : RowTable ρ key} {mk : Int → ρ}
    {hk : ∀ k, key (mk k) = k} {r : ρ} :
    r ∈ (insert g t mk hk).rows ↔ r ∈ t.rows ∨ r = mk (g.next t.rows) := by
  simp [insert]

/-- Rows after an update: the rows with another key, and the new row if it replaced one. -/
theorem mem_update {t : RowTable ρ key} {r x : ρ} :
    x ∈ (update t r).rows ↔
      (x ∈ t.rows ∧ key x ≠ key r) ∨ (x = r ∧ key r ∈ t.rows.map key) := by
  simp only [update, List.mem_map]
  constructor
  · rintro ⟨y, hy, he⟩
    by_cases h : key y = key r
    · rw [if_pos h] at he
      exact Or.inr ⟨he.symm, y, hy, h⟩
    · rw [if_neg h] at he
      exact Or.inl (he ▸ ⟨hy, h⟩)
  · rintro (⟨hx, h⟩ | ⟨rfl, y, hy, h⟩)
    · exact ⟨x, hx, if_neg h⟩
    · exact ⟨y, hy, if_pos h⟩

/-- Two rows with one key are the same row. -/
theorem eq_of_key_eq {t : RowTable ρ key} {r x : ρ} (hr : r ∈ t.rows) (hx : x ∈ t.rows)
    (h : key r = key x) : r = x :=
  List.inj_on_of_nodup_map t.keys_nodup hr hx h

/-- A lookup finds exactly the stored row with that key. -/
theorem get_eq_some {t : RowTable ρ key} {k : Int} {r : ρ} :
    t.get k = some r ↔ r ∈ t.rows ∧ key r = k := by
  constructor
  · intro h
    exact ⟨List.mem_of_find?_eq_some h, by simpa using List.find?_some h⟩
  · rintro ⟨hr, rfl⟩
    cases hg : t.get (key r) with
    | none =>
      have := List.find?_eq_none.mp hg r hr
      simp at this
    | some x =>
      have hx : x ∈ t.rows := List.mem_of_find?_eq_some hg
      have hk : key x = key r := by simpa using List.find?_some hg
      rw [eq_of_key_eq hx hr hk]

/-- An updated row is found under its key. -/
theorem get_update {t : RowTable ρ key} {r : ρ} (h : key r ∈ t.rows.map key) :
    (t.update r).get (key r) = some r :=
  get_eq_some.mpr ⟨mem_update.mpr (Or.inr ⟨rfl, h⟩), rfl⟩

/-- An update addressed to a stored key replaces exactly one row. -/
theorem updateCount_eq_one {t : RowTable ρ key} {r : ρ} (h : key r ∈ t.rows.map key) :
    t.updateCount r = 1 := by
  have hc : t.updateCount r = (t.rows.map key).count (key r) := by
    rw [updateCount, List.count, List.countP_map]
    congr 1
  rw [hc, List.count_eq_one_of_mem t.keys_nodup h]

/-- Rows appended for owners, one each: an update with an owner's key replaces the row of that
owner and no other row. -/
theorem rows_update_owner {ω : Type*} [DecidableEq ω] {t : RowTable ρ key} {old : List ρ}
    {owners : List ω} {row : ω → ρ} {o : ω} {r : ρ} (ht : t.rows = old ++ owners.map row)
    (ho : o ∈ owners) (hr : key r = key (row o)) :
    (t.update r).rows = old ++ owners.map (Function.update row o r) := by
  have hk := t.keys_nodup
  rw [ht, List.map_append, List.map_map, List.nodup_append] at hk
  obtain ⟨_, hinj, hdis⟩ := hk
  have hold : ∀ x ∈ old, key x ≠ key r := by
    intro x hx
    rw [hr]
    exact hdis _ (List.mem_map_of_mem hx) _ (List.mem_map_of_mem ho)
  have hid : old.map (fun x ↦ if key x = key r then r else x) = old := by
    conv_rhs => rw [← List.map_id old]
    apply List.map_congr_left
    intro x hx
    exact if_neg (hold x hx)
  simp only [update, ht, List.map_append, List.map_map, hid]
  congr 1
  apply List.map_congr_left
  intro p hp
  by_cases hpo : p = o
  · rw [hpo, Function.update_self, Function.comp_apply, if_pos hr.symm]
  · rw [Function.update_of_ne hpo, Function.comp_apply, if_neg]
    intro he
    exact hpo (List.inj_on_of_nodup_map hinj hp ho (he.trans hr))

end RowTable

namespace AutoKey

variable {ρ : Type u} (key : ρ → Int)

private theorem foldl_max_ge (rows : List ρ) (m : Int) :
    m ≤ rows.foldl (fun m r ↦ max m (key r)) m ∧
      ∀ r ∈ rows, key r ≤ rows.foldl (fun m r ↦ max m (key r)) m := by
  induction rows generalizing m with
  | nil => simp
  | cons a rows ih =>
    obtain ⟨h1, h2⟩ := ih (max m (key a))
    refine ⟨by simp only [List.foldl_cons]; omega, ?_⟩
    intro r hr
    rcases List.mem_cons.mp hr with rfl | hr
    · simp only [List.foldl_cons]; omega
    · exact h2 r hr

/-- One more than the largest key present. -/
def succMax : AutoKey ρ key where
  next rows := rows.foldl (fun m r ↦ max m (key r)) 0 + 1
  pos rows := by
    have := (foldl_max_ge key rows 0).1
    omega
  fresh rows := by
    intro h
    obtain ⟨r, hr, he⟩ := List.mem_map.mp h
    have := (foldl_max_ge key rows 0).2 r hr
    omega

variable {key}

/-- The generator numbers rows upwards. -/
def Increasing (g : AutoKey ρ key) : Prop := ∀ rows, ∀ r ∈ rows, key r < g.next rows

variable (key) in
theorem increasing_succMax : (succMax key).Increasing := by
  intro rows r hr
  have := (foldl_max_ge key rows 0).2 r hr
  exact Int.lt_add_one_of_le this

end AutoKey
