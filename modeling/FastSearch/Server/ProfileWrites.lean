import Mathlib.Data.List.Induction
import FastSearch.Server.Profile

/-!
# Sequences of profile writes

`writeToDatabase` and `queryDataIdFromNode` of `server/manager/ServerManager.kt` over any
sequence of calls from the empty table. The write scans to the last row with the address and
the query stops at the first, so the two agree because an address has one row at most. A call
on the main thread throws and writes nothing.
-/

namespace FastSearch.Server

/-- A call of `writeToDatabase` and the thread it is made on. -/
structure WriteCall where
  isMainThread : Bool := false
  node : ServerNode
  deriving DecidableEq, Repr

/-- The table after a call; what a call throws leaves it alone. -/
def write (g : ProfileKey) (t : ProfileTable) (c : WriteCall) : ProfileTable :=
  match writeToDatabase g c.isMainThread t c.node with
  | .ok t' => t'
  | .error _ => t

/-- The table after a sequence of calls. -/
def writeAll (g : ProfileKey) (t : ProfileTable) (calls : List WriteCall) : ProfileTable :=
  calls.foldl (write g) t

namespace WriteCall

/-- The call writes a row under the node's host and port. -/
def writesTo (c : WriteCall) (node : ServerNode) : Bool :=
  !c.isMainThread && (c.node.host = node.host && c.node.port = node.port)

end WriteCall

/-- The node of the last write with the host and port of `node`. -/
def lastWrite (calls : List WriteCall) (node : ServerNode) : Option ServerNode :=
  (calls.filter (·.writesTo node)).getLast?.map (·.node)

/-- The row has the name, method and password of the node. -/
def Profile.Carries (p : Profile) (n : ServerNode) : Prop :=
  p.name = some n.nodeName ∧ p.method = n.method ∧ p.password = n.password

/-! ### One write -/

theorem writeToDatabase_background (g : ProfileKey) (t : ProfileTable) (n : ServerNode) :
    writeToDatabase g false t n = .ok (write g t ⟨false, n⟩) := by
  obtain ⟨t', h, _⟩ := writeToDatabase_cases g t n
  simp only [write, h]

theorem addressesUnique_write {g : ProfileKey} {t : ProfileTable} (c : WriteCall)
    (hu : AddressesUnique t) : AddressesUnique (write g t c) := by
  obtain ⟨isMainThread, n⟩ := c
  cases isMainThread with
  | true => exact hu
  | false => exact addressesUnique_writeToDatabase (writeToDatabase_background g t n) hu

/-- A write keeps every row's identifier under the row's address. -/
theorem exists_id_write (g : ProfileKey) (t : ProfileTable) (c : WriteCall) {p : Profile}
    (hp : p ∈ t.rows) :
    ∃ q ∈ (write g t c).rows, q.id = p.id ∧ q.host = p.host ∧ q.remotePort = p.remotePort := by
  obtain ⟨isMainThread, n⟩ := c
  cases isMainThread with
  | true => exact ⟨p, hp, rfl, rfl, rfl⟩
  | false =>
    obtain ⟨t', h, hc⟩ := writeToDatabase_cases g t n
    obtain rfl : write g t ⟨false, n⟩ = t' :=
      Except.ok.inj ((writeToDatabase_background g t n).symm.trans h)
    rcases hc with ⟨he, _⟩ | ⟨r, hr, ha, he⟩
    · rw [he]
      exact ⟨p, RowTable.mem_insert.mpr (Or.inl hp), rfl, rfl, rfl⟩
    · rw [he]
      by_cases hk : p.id = r.id
      · obtain rfl : p = r := RowTable.eq_of_key_eq hp hr hk
        refine ⟨_, RowTable.mem_update.mpr (Or.inr ⟨rfl, List.mem_map.mpr ⟨p, hp, rfl⟩⟩), ?_⟩
        exact ⟨rfl, ha.1.symm, ha.2.symm⟩
      · exact ⟨p, RowTable.mem_update.mpr (Or.inl ⟨hp, hk⟩), rfl, rfl, rfl⟩

theorem lastWrite_append (calls : List WriteCall) (c : WriteCall) (node : ServerNode) :
    lastWrite (calls ++ [c]) node =
      if c.writesTo node then some c.node else lastWrite calls node := by
  unfold lastWrite
  rw [List.filter_append]
  cases hw : c.writesTo node with
  | true => simp [hw]
  | false => simp [hw]

theorem writesTo_background {w node : ServerNode} :
    (WriteCall.mk false w).writesTo node = true ↔ w.host = node.host ∧ w.port = node.port := by
  simp [WriteCall.writesTo]

/-! ### The table of a sequence of writes -/

/-- The table has the addresses that were written, each in one row with what was written
last. -/
structure Agrees (t : ProfileTable) (calls : List WriteCall) : Prop where
  unique : AddressesUnique t
  carries : ∀ p ∈ t.rows, ∀ node, p.AddressOf node →
    ∃ n, lastWrite calls node = some n ∧ p.Carries n
  stored : ∀ node n, lastWrite calls node = some n → ∃ p ∈ t.rows, p.AddressOf node

theorem agrees_empty : Agrees .empty [] where
  unique := by
    intro p hp
    cases hp
  carries := by
    intro p hp
    cases hp
  stored := by
    intro node n hn
    cases hn

theorem agrees_background {g : ProfileKey} {t : ProfileTable} {calls : List WriteCall}
    (h : Agrees t calls) (w : ServerNode) :
    Agrees (write g t ⟨false, w⟩) (calls ++ [⟨false, w⟩]) where
  unique := addressesUnique_write _ h.unique
  carries := by
    intro p hp node ha
    rw [lastWrite_append]
    rcases eq_toSsProfile_or_mem (writeToDatabase_background g t w) h.unique hp with
      ⟨k, o, rfl⟩ | ⟨hp, hn⟩
    · rw [if_pos (writesTo_background.mpr ha)]
      exact ⟨w, rfl, rfl, rfl, rfl⟩
    · have hw : ¬ (WriteCall.mk false w).writesTo node = true := by
        intro hw
        obtain ⟨hh, hr⟩ := writesTo_background.mp hw
        exact hn ⟨ha.1.trans hh.symm, ha.2.trans hr.symm⟩
      rw [if_neg hw]
      exact h.carries p hp node ha
  stored := by
    intro node n hl
    rw [lastWrite_append] at hl
    by_cases hw : (WriteCall.mk false w).writesTo node = true
    · obtain ⟨hh, hr⟩ := writesTo_background.mp hw
      obtain ⟨p, hp, ha, _⟩ := exists_writeToDatabase (writeToDatabase_background g t w)
      exact ⟨p, hp, ha.1.trans hh, ha.2.trans hr⟩
    · rw [if_neg hw] at hl
      obtain ⟨p, hp, ha⟩ := h.stored node n hl
      obtain ⟨q, hq, _, hh, hr⟩ := exists_id_write g t ⟨false, w⟩ hp
      exact ⟨q, hq, hh.trans ha.1, hr.trans ha.2⟩

theorem agrees_write {g : ProfileKey} {t : ProfileTable} {calls : List WriteCall}
    (h : Agrees t calls) (c : WriteCall) : Agrees (write g t c) (calls ++ [c]) := by
  obtain ⟨isMainThread, n⟩ := c
  cases isMainThread with
  | false => exact agrees_background h n
  | true =>
    have hl : ∀ node, lastWrite (calls ++ [⟨true, n⟩]) node = lastWrite calls node := by
      intro node
      rw [lastWrite_append]
      rfl
    refine ⟨h.unique, ?_, ?_⟩
    · intro p hp node ha
      rw [hl]
      exact h.carries p hp node ha
    · intro node m hm
      rw [hl] at hm
      exact h.stored node m hm

theorem agrees_writeAll (g : ProfileKey) (calls : List WriteCall) :
    Agrees (writeAll g .empty calls) calls := by
  induction calls using List.reverseRecOn with
  | nil => exact agrees_empty
  | append_singleton calls c ih =>
    rw [writeAll, List.foldl_append]
    exact agrees_write ih c

/-- Later writes keep every row's identifier under the row's address. -/
theorem exists_id_writeAll (g : ProfileKey) (t : ProfileTable) (calls : List WriteCall)
    {p : Profile} (hp : p ∈ t.rows) :
    ∃ q ∈ (writeAll g t calls).rows,
      q.id = p.id ∧ q.host = p.host ∧ q.remotePort = p.remotePort := by
  induction calls generalizing t p with
  | nil => exact ⟨p, hp, rfl, rfl, rfl⟩
  | cons c calls ih =>
    obtain ⟨q, hq, hi, hh, hr⟩ := exists_id_write g t c hp
    obtain ⟨r, hr', hi', hh', hr''⟩ := ih (write g t c) hq
    exact ⟨r, hr', hi'.trans hi, hh'.trans hh, hr''.trans hr⟩

theorem AddressesUnique.nodup {t : ProfileTable} (h : AddressesUnique t) :
    (t.rows.map fun p ↦ (p.host, p.remotePort)).Nodup := by
  have hn : t.rows.Nodup := List.Nodup.of_map _ t.keys_nodup
  apply hn.map_on
  intro p hp q hq he
  obtain ⟨hh, hr⟩ := Prod.mk.inj he
  exact h p hp q hq hh hr

/-- The query finds the row with what was written last, and nothing exactly when nothing was. -/
theorem Agrees.query {t : ProfileTable} {calls : List WriteCall}
    (h : Agrees t calls) (node : ServerNode) :
    (queryDataIdFromNode t node = 0 ↔ lastWrite calls node = none) ∧
      ∀ n, lastWrite calls node = some n →
        ∃ p ∈ t.rows, p.id = queryDataIdFromNode t node ∧ p.AddressOf node ∧ p.Carries n := by
  rcases queryDataIdFromNode_cases t node with ⟨hq, hn⟩ | ⟨p, hp, ha, hq⟩
  · have hl : lastWrite calls node = none := by
      cases hl : lastWrite calls node with
      | none => rfl
      | some n =>
        obtain ⟨p, hp, ha⟩ := h.stored node n hl
        exact absurd ha (hn p hp)
    refine ⟨⟨fun _ ↦ hl, fun _ ↦ hq⟩, ?_⟩
    intro n hs
    rw [hl] at hs
    cases hs
  · obtain ⟨n, hl, hc⟩ := h.carries p hp node ha
    have hpos : 0 < p.id := t.keys_pos p hp
    refine ⟨⟨?_, ?_⟩, ?_⟩
    · intro h0
      omega
    · intro h0
      rw [hl] at h0
      cases h0
    · intro m hm
      rw [hl] at hm
      cases hm
      exact ⟨p, hp, hq.symm, ha, hc⟩

/-- After any sequence of writes from the empty table an address has one row at most, rows
keep their identifiers from when they were created, and the query for a node gives the row
with what was written last under its address, or zero exactly when nothing was. -/
theorem writeAll_upserts (g : ProfileKey) (calls : List WriteCall) :
    ((writeAll g .empty calls).rows.map fun p ↦ (p.host, p.remotePort)).Nodup ∧
    (∀ pre, pre <+: calls → ∀ p ∈ (writeAll g .empty pre).rows,
      ∃ q ∈ (writeAll g .empty calls).rows,
        q.id = p.id ∧ q.host = p.host ∧ q.remotePort = p.remotePort) ∧
    ∀ node,
      (queryDataIdFromNode (writeAll g .empty calls) node = 0 ↔ lastWrite calls node = none) ∧
      ∀ n, lastWrite calls node = some n →
        ∃ p ∈ (writeAll g .empty calls).rows,
          p.id = queryDataIdFromNode (writeAll g .empty calls) node ∧
          p.AddressOf node ∧ p.Carries n := by
  have ha : Agrees (writeAll g .empty calls) calls := agrees_writeAll g calls
  refine ⟨ha.unique.nodup, ?_, ha.query⟩
  rintro pre ⟨post, rfl⟩ p hp
  have hs : writeAll g .empty (pre ++ post) = writeAll g (writeAll g .empty pre) post :=
    List.foldl_append
  rw [hs]
  exact exists_id_writeAll g _ post hp

end FastSearch.Server
