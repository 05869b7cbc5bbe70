import FastSearch.Lib.RowTable
import FastSearch.Server.Node

/-!
# The profile table

`database/Profile.kt`, `database/ProfileManager.kt` and the two functions of
`server/manager/ServerManager.kt` that read and write it: `queryDataIdFromNode` and
`writeToDatabase`. A row has every persisted column; `dirty` is marked `@Ignore` and never
reaches the table.
-/

namespace FastSearch.Server

/-- `Profile.SubscriptionStatus`, `database/Profile.kt`. -/
inductive SubscriptionStatus where
  | userConfigured
  | active
  | obsolete
  deriving DecidableEq, Repr

/-- `Profile`, `database/Profile.kt:50`, with the declared defaults. -/
structure Profile where
  id : Int := 0
  name : Option String := some ""
  host : String := ""
  remotePort : Int32 := 0
  password : String := ""
  method : String := ""
  route : String := "all"
  remoteDns : String := "dns.google"
  proxyApps : Bool := false
  bypass : Bool := false
  udpdns : Bool := false
  ipv6 : Bool := false
  metered : Bool := false
  individual : String := ""
  plugin : Option String := none
  udpFallback : Option Int := none
  subscription : SubscriptionStatus := .userConfigured
  tx : Int := 0
  rx : Int := 0
  userOrder : Int := 0
  deriving DecidableEq, Repr

/-- The Room table of profiles. -/
abbrev ProfileTable := RowTable Profile Profile.id

/-- Room's key generator for profiles. -/
abbrev ProfileKey := AutoKey Profile Profile.id

namespace Profile

/-- The row is stored under the node's host and port. -/
def AddressOf (p : Profile) (n : ServerNode) : Prop := p.host = n.host ∧ p.remotePort = n.port

/-- The row has the host, port, method and password of the node. -/
def Stores (p : Profile) (n : ServerNode) : Prop :=
  p.AddressOf n ∧ p.method = n.method ∧ p.password = n.password

instance (p : Profile) (n : ServerNode) : Decidable (p.AddressOf n) :=
  inferInstanceAs (Decidable (_ ∧ _))

instance (p : Profile) (n : ServerNode) : Decidable (p.Stores n) :=
  inferInstanceAs (Decidable (_ ∧ _))

end Profile

namespace ProfileManager

/-- `Dao.nextOrder`, `database/Profile.kt:264`: `MAX(userOrder) + 1`, null without rows. -/
def nextOrder (t : ProfileTable) : Option Int :=
  (t.rows.map Profile.userOrder).max?.map (· + 1)

/-- `createProfile`, `database/ProfileManager.kt:59`. -/
def createProfile (g : ProfileKey) (t : ProfileTable) (profile : Profile) : ProfileTable :=
  t.insert g (fun k ↦ { profile with id := k, userOrder := (nextOrder t).getD 0 }) fun _ ↦ rfl

/-- `updateProfile`, `database/ProfileManager.kt:98`: `check(update(profile) == 1)`. -/
def updateProfile (t : ProfileTable) (profile : Profile) : Except String ProfileTable :=
  if t.updateCount profile = 1 then .ok (t.update profile) else .error "Check failed."

end ProfileManager

/-- `toSsProfile`, `server/manager/ServerManager.kt:313`. -/
def toSsProfile (node : ServerNode) : Profile where
  id := 0
  name := some node.nodeName
  host := node.host
  remotePort := node.port
  password := node.password
  method := node.method

/-- `queryDataIdFromNode`, `server/manager/ServerManager.kt:233`: the first match returns. -/
def queryDataIdFromNode (t : ProfileTable) (node : ServerNode) : Int :=
  match t.rows.find? fun p ↦ p.AddressOf node with
  | some p => p.id
  | none => 0

/-- The scan of `writeToDatabase`: `return@forEach` only leaves the lambda, so a later match
replaces an earlier one. -/
def oldProfileId (t : ProfileTable) (profile : Profile) : Option Int :=
  t.rows.foldl
    (fun old p ↦
      if p.host = profile.host ∧ p.remotePort = profile.remotePort then some p.id else old) none

/-- `writeToDatabase`, `server/manager/ServerManager.kt:293`. -/
def writeToDatabase (g : ProfileKey) (isMainThread : Bool) (t : ProfileTable)
    (node : ServerNode) : Except String ProfileTable :=
  if isMainThread then .error "Can not call me on the main thread." else
    let profile := toSsProfile node
    match oldProfileId t profile with
    | none => .ok (ProfileManager.createProfile g t profile)
    | some i => ProfileManager.updateProfile t { profile with id := i }

/-! ### The address scans -/

/-- No two rows share host and port. -/
def AddressesUnique (t : ProfileTable) : Prop :=
  ∀ p ∈ t.rows, ∀ q ∈ t.rows, p.host = q.host → p.remotePort = q.remotePort → p = q

/-- Rows at one node's address are one row. -/
theorem AddressesUnique.id_eq {t : ProfileTable} (hu : AddressesUnique t) {p q : Profile}
    {n : ServerNode} (hp : p ∈ t.rows) (hq : q ∈ t.rows) (hpa : p.AddressOf n)
    (hqa : q.AddressOf n) : p.id = q.id := by
  rw [hu p hp q hq (hpa.1.trans hqa.1.symm) (hpa.2.trans hqa.2.symm)]

private theorem foldl_scan (rows : List Profile) (profile : Profile) (old : Option Int) :
    rows.foldl (fun old p ↦
        if p.host = profile.host ∧ p.remotePort = profile.remotePort then some p.id else old)
      old = old ∧ (∀ p ∈ rows, ¬ (p.host = profile.host ∧ p.remotePort = profile.remotePort)) ∨
    ∃ p ∈ rows, (p.host = profile.host ∧ p.remotePort = profile.remotePort) ∧
      rows.foldl (fun old p ↦
        if p.host = profile.host ∧ p.remotePort = profile.remotePort then some p.id else old)
      old = some p.id := by
  induction rows generalizing old with
  | nil => simp
  | cons a rows ih =>
    simp only [List.foldl_cons]
    by_cases ha : a.host = profile.host ∧ a.remotePort = profile.remotePort
    · rw [if_pos ha]
      rcases ih (some a.id) with ⟨he, _⟩ | ⟨p, hp, hm, he⟩
      · exact Or.inr ⟨a, by simp, ha, he⟩
      · exact Or.inr ⟨p, by simp [hp], hm, he⟩
    · rw [if_neg ha]
      rcases ih old with ⟨he, hn⟩ | ⟨p, hp, hm, he⟩
      · refine Or.inl ⟨he, ?_⟩
        intro p hp
        rcases List.mem_cons.mp hp with rfl | hp
        · exact ha
        · exact hn p hp
      · exact Or.inr ⟨p, by simp [hp], hm, he⟩

/-- The scan finds nothing exactly when no row has the node's address; otherwise it returns
the identifier of a row that has it. -/
theorem oldProfileId_cases (t : ProfileTable) (n : ServerNode) :
    (oldProfileId t (toSsProfile n) = none ∧ ∀ p ∈ t.rows, ¬ p.AddressOf n) ∨
      ∃ p ∈ t.rows, p.AddressOf n ∧ oldProfileId t (toSsProfile n) = some p.id :=
  foldl_scan t.rows (toSsProfile n) none

/-- The query returns zero exactly when no row has the node's address; otherwise it returns
the identifier of a row that has it. -/
theorem queryDataIdFromNode_cases (t : ProfileTable) (n : ServerNode) :
    (queryDataIdFromNode t n = 0 ∧ ∀ p ∈ t.rows, ¬ p.AddressOf n) ∨
      ∃ p ∈ t.rows, p.AddressOf n ∧ queryDataIdFromNode t n = p.id := by
  unfold queryDataIdFromNode
  split
  · next p h =>
    have hm := List.mem_of_find?_eq_some h
    have ha : p.AddressOf n := by simpa using List.find?_some h
    exact Or.inr ⟨p, hm, ha, rfl⟩
  · next h =>
    have hn := List.find?_eq_none.mp h
    exact Or.inl ⟨rfl, fun p hp ↦ by simpa using hn p hp⟩

/-! ### Writing a node -/

/-- What one background write does: append a row for a new address, or replace the row that
has the address and keep its identifier. -/
theorem writeToDatabase_cases (g : ProfileKey) (t : ProfileTable) (n : ServerNode) :
    ∃ t', writeToDatabase g false t n = .ok t' ∧
      ((t' = ProfileManager.createProfile g t (toSsProfile n) ∧
          ∀ p ∈ t.rows, ¬ p.AddressOf n) ∨
        ∃ p ∈ t.rows, p.AddressOf n ∧ t' = t.update { toSsProfile n with id := p.id }) := by
  rcases oldProfileId_cases t n with ⟨ho, hn⟩ | ⟨p, hp, ha, ho⟩
  · refine ⟨_, ?_, Or.inl ⟨rfl, hn⟩⟩
    simp [writeToDatabase, ho]
  · refine ⟨_, ?_, Or.inr ⟨p, hp, ha, rfl⟩⟩
    have hc : t.updateCount { toSsProfile n with id := p.id } = 1 :=
      RowTable.updateCount_eq_one (List.mem_map.mpr ⟨p, hp, rfl⟩)
    simp [writeToDatabase, ho, ProfileManager.updateProfile, hc]

/-- The row a write leaves for its node. -/
private theorem stores_toSsProfile (n : ServerNode) (k o : Int) :
    ({ toSsProfile n with id := k, userOrder := o } : Profile).Stores n :=
  ⟨⟨rfl, rfl⟩, rfl, rfl⟩

/-- After a write every row is the written node's or was there before under another address. -/
theorem eq_toSsProfile_or_mem {g : ProfileKey} {t t' : ProfileTable} {n : ServerNode}
    {p : Profile} (h : writeToDatabase g false t n = .ok t') (hu : AddressesUnique t)
    (hp : p ∈ t'.rows) :
    (∃ k o, p = { toSsProfile n with id := k, userOrder := o }) ∨
      (p ∈ t.rows ∧ ¬ p.AddressOf n) := by
  obtain ⟨t'', h'', hc⟩ := writeToDatabase_cases g t n
  obtain rfl : t'' = t' := Except.ok.inj (h''.symm.trans h)
  rcases hc with ⟨rfl, hn⟩ | ⟨q, hq, ha, rfl⟩
  · rcases RowTable.mem_insert.mp hp with hp | rfl
    · exact Or.inr ⟨hp, hn p hp⟩
    · exact Or.inl ⟨_, _, rfl⟩
  · rcases RowTable.mem_update.mp hp with ⟨hp, hk⟩ | ⟨rfl, _⟩
    · refine Or.inr ⟨hp, ?_⟩
      intro hpa
      have he : p.id = q.id := hu.id_eq hp hq hpa ha
      exact hk he
    · exact Or.inl ⟨_, _, rfl⟩

/-- After a write every row stores the written node or was there before under another
address. -/
theorem mem_writeToDatabase {g : ProfileKey} {t t' : ProfileTable} {n : ServerNode}
    {p : Profile} (h : writeToDatabase g false t n = .ok t') (hu : AddressesUnique t)
    (hp : p ∈ t'.rows) : p.Stores n ∨ (p ∈ t.rows ∧ ¬ p.AddressOf n) := by
  rcases eq_toSsProfile_or_mem h hu hp with ⟨k, o, rfl⟩ | hp
  · exact Or.inl (stores_toSsProfile n k o)
  · exact Or.inr hp

/-- A write leaves a row for its node. -/
theorem exists_writeToDatabase {g : ProfileKey} {t t' : ProfileTable} {n : ServerNode}
    (h : writeToDatabase g false t n = .ok t') : ∃ p ∈ t'.rows, p.Stores n := by
  obtain ⟨t'', h'', hc⟩ := writeToDatabase_cases g t n
  obtain rfl : t'' = t' := Except.ok.inj (h''.symm.trans h)
  rcases hc with ⟨rfl, hn⟩ | ⟨q, hq, ha, rfl⟩
  · exact ⟨_, RowTable.mem_insert.mpr (Or.inr rfl), stores_toSsProfile n _ _⟩
  · exact ⟨_, RowTable.mem_update.mpr (Or.inr ⟨rfl, List.mem_map.mpr ⟨q, hq, rfl⟩⟩),
      stores_toSsProfile n _ _⟩

/-- Addresses stay unique under writes. -/
theorem addressesUnique_writeToDatabase {g : ProfileKey} {t t' : ProfileTable}
    {n : ServerNode} (h : writeToDatabase g false t n = .ok t') (hu : AddressesUnique t) :
    AddressesUnique t' := by
  obtain ⟨t'', h'', hc⟩ := writeToDatabase_cases g t n
  obtain rfl : t'' = t' := Except.ok.inj (h''.symm.trans h)
  rcases hc with ⟨rfl, hn⟩ | ⟨r, hr, ha, rfl⟩
  · intro p hp q hq hh hr
    rcases RowTable.mem_insert.mp hp with hp | rfl
    · rcases RowTable.mem_insert.mp hq with hq | rfl
      · exact hu p hp q hq hh hr
      · exact False.elim (hn p hp ⟨hh, hr⟩)
    · rcases RowTable.mem_insert.mp hq with hq | rfl
      · exact False.elim (hn q hq ⟨hh.symm, hr.symm⟩)
      · rfl
  · intro p hp q hq hh hpt
    rcases RowTable.mem_update.mp hp with ⟨hp, hk⟩ | ⟨rfl, _⟩
    · rcases RowTable.mem_update.mp hq with ⟨hq, _⟩ | ⟨rfl, _⟩
      · exact hu p hp q hq hh hpt
      · have he : p.id = r.id := hu.id_eq hp hr ⟨hh, hpt⟩ ha
        exact False.elim (hk he)
    · rcases RowTable.mem_update.mp hq with ⟨hq, hk⟩ | ⟨rfl, _⟩
      · have he : q.id = r.id := hu.id_eq hq hr ⟨hh.symm, hpt.symm⟩ ha
        exact False.elim (hk he)
      · rfl

end FastSearch.Server
