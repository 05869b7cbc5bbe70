import FastSearch.Server.Profile

/-!
# What a repeated write leaves of a stored row

`writeToDatabase` of `server/manager/ServerManager.kt` on an address that is already stored. The
update replaces the row whole by one rebuilt from the node, which carries the address, the name,
the password and the method; every other column comes from the defaults of `Profile`.
-/

namespace FastSearch.Server

/-- The stored row the scan of `writeToDatabase` ends on: the last one with the address. -/
def storedRow (t : ProfileTable) (n : ServerNode) : Option Profile :=
  t.rows.reverse.find? fun p ↦ p.AddressOf n

namespace Profile

/-- The row with the name, the password and the method of the node, all else kept. -/
def withNode (p : Profile) (n : ServerNode) : Profile :=
  { p with name := some n.nodeName, password := n.password, method := n.method }

/-- The columns that no node carries have their declared defaults. -/
def OtherColumnsDefault (p : Profile) : Prop :=
  { id := p.id, name := p.name, host := p.host, remotePort := p.remotePort,
    password := p.password, method := p.method } = p

instance (p : Profile) : Decidable p.OtherColumnsDefault := inferInstanceAs (Decidable (_ = _))

/-- At its address, a row rebuilt from the node agrees with the old row up to the node's
columns exactly when the old row had no data of its own. -/
theorem toSsProfile_eq_withNode {p : Profile} {n : ServerNode} (h : p.AddressOf n) :
    ({ toSsProfile n with id := p.id } : Profile) = p.withNode n ↔ p.OtherColumnsDefault := by
  obtain ⟨hh, hp⟩ := h
  cases p
  simp only at hh hp
  subst hh hp
  simp only [toSsProfile, withNode, OtherColumnsDefault, mk.injEq, true_and]

end Profile

/-! ### The row that a write replaces -/

private theorem foldl_scan_eq_find (rows : List Profile) (profile : Profile) :
    rows.foldl (fun old p ↦
        if p.host = profile.host ∧ p.remotePort = profile.remotePort then some p.id else old)
      none =
    (rows.reverse.find? fun p ↦
      p.host = profile.host ∧ p.remotePort = profile.remotePort).map Profile.id := by
  rw [← List.foldr_reverse]
  generalize rows.reverse = rs
  induction rs with
  | nil => rfl
  | cons p rs ih =>
    rw [List.foldr_cons, List.find?_cons, ih]
    by_cases h : p.host = profile.host ∧ p.remotePort = profile.remotePort
    · simp [h]
    · simp [h]

/-- The scan returns the identifier of the stored row. -/
theorem oldProfileId_eq (t : ProfileTable) (n : ServerNode) :
    oldProfileId t (toSsProfile n) = (storedRow t n).map Profile.id :=
  foldl_scan_eq_find t.rows (toSsProfile n)

/-- The stored row is a row of the table at the node's address. -/
theorem mem_of_storedRow {t : ProfileTable} {n : ServerNode} {p : Profile}
    (h : storedRow t n = some p) : p ∈ t.rows ∧ p.AddressOf n := by
  have hm := List.mem_of_find?_eq_some h
  have ha : p.AddressOf n := by simpa using List.find?_some h
  exact ⟨List.mem_reverse.mp hm, ha⟩

/-- Writing a stored address replaces its row by one rebuilt from the node. -/
theorem writeToDatabase_stored (g : ProfileKey) {t : ProfileTable} {n : ServerNode} {p : Profile}
    (h : storedRow t n = some p) :
    writeToDatabase g false t n = .ok (t.update { toSsProfile n with id := p.id }) := by
  have ho : oldProfileId t (toSsProfile n) = some p.id := by rw [oldProfileId_eq, h]; rfl
  have hc : t.updateCount { toSsProfile n with id := p.id } = 1 :=
    RowTable.updateCount_eq_one (List.mem_map.mpr ⟨p, (mem_of_storedRow h).1, rfl⟩)
  simp [writeToDatabase, ho, ProfileManager.updateProfile, hc]

private theorem update_inj {t : ProfileTable} {a b : Profile} (hk : a.id = b.id)
    (hm : a.id ∈ t.rows.map Profile.id) : t.update a = t.update b ↔ a = b := by
  constructor
  · intro h
    have ha : a ∈ (t.update b).rows := by
      rw [← h]
      exact RowTable.mem_update.mpr (Or.inr ⟨rfl, hm⟩)
    rcases RowTable.mem_update.mp ha with ⟨_, hne⟩ | ⟨he, _⟩
    · exact absurd hk hne
    · exact he
  · intro h
    rw [h]

/-! ### The frame of a write -/

/-- Writing a node at a stored address changes nothing but the name, the password and the method
of its row exactly when the row's other columns still have their defaults. -/
theorem writeToDatabase_frame_iff (g : ProfileKey) (t : ProfileTable) (n : ServerNode)
    (p : Profile) (hp : storedRow t n = some p) :
    writeToDatabase g false t n = .ok (t.update (p.withNode n)) ↔ p.OtherColumnsDefault := by
  obtain ⟨hm, ha⟩ := mem_of_storedRow hp
  have hu := update_inj (t := t) (a := { toSsProfile n with id := p.id }) (b := p.withNode n) rfl
    (List.mem_map.mpr ⟨p, hm, rfl⟩)
  rw [writeToDatabase_stored g hp, Except.ok.injEq, hu]
  exact Profile.toSsProfile_eq_withNode ha

/-- A table with one row, which has counted `tx` bytes sent. -/
def countedTable (tx : Int) : ProfileTable where
  rows := [{ id := 1, host := "h", remotePort := 1, tx := tx }]
  keys_pos := by simp
  keys_nodup := by simp

theorem writeToDatabase_frame_fresh :
    storedRow (countedTable 0) { host := "h", port := 1, city := "c" } =
        some { id := 1, host := "h", remotePort := 1 } ∧
      writeToDatabase (AutoKey.succMax Profile.id) false (countedTable 0)
          { host := "h", port := 1, city := "c" } =
        .ok ((countedTable 0).update
          (Profile.withNode { id := 1, host := "h", remotePort := 1 }
            { host := "h", port := 1, city := "c" })) :=
  ⟨by decide, (writeToDatabase_frame_iff _ (countedTable 0) { host := "h", port := 1, city := "c" }
    { id := 1, host := "h", remotePort := 1 } (by decide)).mpr (by decide)⟩

/-- The traffic counted for a stored row is lost by writing its node again. -/
theorem writeToDatabase_loses_tx :
    storedRow (countedTable 5) { host := "h", port := 1 } =
        some { id := 1, host := "h", remotePort := 1, tx := 5 } ∧
      ∃ t', writeToDatabase (AutoKey.succMax Profile.id) false (countedTable 5)
          { host := "h", port := 1 } = .ok t' ∧
        t'.rows.map Profile.tx = [0] := by
  have hs : storedRow (countedTable 5) { host := "h", port := 1 } =
      some { id := 1, host := "h", remotePort := 1, tx := 5 } := by decide
  exact ⟨hs, _, writeToDatabase_stored _ hs, by decide⟩

end FastSearch.Server
