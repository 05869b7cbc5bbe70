import FastSearch.Lib.ByteOrder
import FastSearch.Lib.EventSystem
import FastSearch.Server.Profile

/-!
# The traffic monitor

`bg/TrafficMonitor.kt` over one session: the reports of the proxy process on a local socket, the
polls of the user interface, and `persistStats`, which adds the totals of the session to the
stored profile. `persistStats` runs for every `ACTION_SHUTDOWN` broadcast and once more in
`ProxyInstance.shutdown`. It remembers the object `current` itself, so the value it compares with
is always the live one. While the database cannot be opened the profile is the one in device
storage, see `utils/DirectBoot.kt`.
-/

namespace FastSearch.Service

open Server ByteOrder EventSystem

/-- `TrafficStats`, `aidl/TrafficStats.kt:27`. -/
structure TrafficStats where
  txRate : Int64 := 0
  rxRate : Int64 := 0
  txTotal : Int64 := 0
  rxTotal : Int64 := 0
  deriving DecidableEq, Repr

/-- The objects that `persisted` can refer to: `current` is assigned once. -/
inductive StatsRef where
  | current
  deriving DecidableEq, Repr

/-- `TrafficMonitor`, `bg/TrafficMonitor.kt:35`. -/
structure TrafficMonitor where
  current : TrafficStats := {}
  out : TrafficStats := {}
  timestampLast : Int64 := 0
  dirty : Bool := false
  persisted : Option StatsRef := none
  deriving DecidableEq, Repr

/-- The two totals of a report of sixteen bytes, little-endian. -/
def totalsOf (read : List UInt8) : Int64 × Int64 :=
  (int64OfBytes (read.take 8).reverse, int64OfBytes (read.drop 8).reverse)

namespace TrafficMonitor

/-- A reported `tx`, `bg/TrafficMonitor.kt:47`. -/
def acceptTx (m : TrafficMonitor) (tx : Int64) : TrafficMonitor :=
  if m.current.txTotal ≠ tx then
    { m with current := { m.current with txTotal := tx }, dirty := true }
  else m

/-- A reported `rx`, `bg/TrafficMonitor.kt:51`. -/
def acceptRx (m : TrafficMonitor) (rx : Int64) : TrafficMonitor :=
  if m.current.rxTotal ≠ rx then
    { m with current := { m.current with rxTotal := rx }, dirty := true }
  else m

/-- `acceptInternal`, `bg/TrafficMonitor.kt:39`, on the bytes read into the buffer; no bytes are
the end of the stream. -/
def acceptInternal (m : TrafficMonitor) (read : List UInt8) : Except String TrafficMonitor :=
  if read.length = 0 then .ok m
  else if read.length = 16 then .ok ((m.acceptTx (totalsOf read).1).acceptRx (totalsOf read).2)
  else .error ("Unexpected traffic stat length " ++ toString read.length)

/-- `requestUpdate`, `bg/TrafficMonitor.kt:64`. -/
def requestUpdate (m : TrafficMonitor) (now : Int64) : (TrafficStats × Bool) × TrafficMonitor :=
  let delta := now - m.timestampLast
  let m := { m with timestampLast := now }
  if delta ≠ 0 then
    if m.dirty then
      let out := { m.current with
        txRate := (m.current.txTotal - m.out.txTotal) * 1000 / delta
        rxRate := (m.current.rxTotal - m.out.rxTotal) * 1000 / delta }
      ((out, true), { m with out := out, dirty := false })
    else
      let out := { m.out with txRate := 0, rxRate := 0 }
      ((out, m.out.txRate ≠ 0 ∨ m.out.rxRate ≠ 0), { m with out := out })
  else ((m.out, false), m)

/-- The totals of the session so far. -/
def totals (m : TrafficMonitor) : Int64 × Int64 := (m.current.txTotal, m.current.rxTotal)

/-- The value of the object referred to. -/
def deref (m : TrafficMonitor) : StatsRef → TrafficStats
  | .current => m.current

end TrafficMonitor

/-- A profile in device storage, with the field that no table has. -/
structure DeviceProfile extends Profile where
  dirty : Bool := false
  deriving DecidableEq, Repr

/-- Where profiles are stored: the table, which cannot be opened while the device is locked, and
the expanded profile in device storage. -/
structure Storage where
  profiles : ProfileTable
  locked : Bool := false
  directBootAware : Bool := false
  deviceProfile : Option (DeviceProfile × Option DeviceProfile) := none

/-- `Long` addition to a column. -/
def addLong (a : Int) (b : Int64) : Int := (a + b.toInt).bmod (2 ^ 64)

/-- The profile with the totals of a session added. -/
def addTotals (p : Profile) (totals : Int64 × Int64) : Profile :=
  { p with tx := addLong p.tx totals.1, rx := addLong p.rx totals.2 }

namespace Storage

/-- `getProfile`, `database/ProfileManager.kt:101`: a database that cannot be opened throws. -/
def getProfile (st : Storage) (id : Int) : Except String (Option Profile) :=
  if st.locked then .error "SQLiteCantOpenDatabaseException" else .ok (st.profiles.get id)

/-- `single { it.id == id }` on the expanded profile. -/
def singleWithId (d : DeviceProfile × Option DeviceProfile) (id : Int) : Option DeviceProfile :=
  match (d.1 :: d.2.toList).filter fun p ↦ p.id = id with
  | [p] => some p
  | _ => none

/-- `DirectBoot.update`, `utils/DirectBoot.kt:37`, for a profile: it is expanded first. -/
def directBootUpdate (st : Storage) (profile : DeviceProfile) : Except String Storage :=
  match profile.udpFallback with
  | none => .ok { st with deviceProfile := some (profile, none) }
  | some i => (st.getProfile i).map fun fallback ↦
      { st with deviceProfile := some (profile, fallback.map fun p ↦ { p with }) }

/-- The profile of a session as it is stored: in the table, or in device storage while the table
cannot be opened. -/
def stored (st : Storage) (id : Int) : Option Profile :=
  if st.locked then
    if st.directBootAware then
      (st.deviceProfile.bind fun d ↦ singleWithId d id).map DeviceProfile.toProfile
    else none
  else st.profiles.get id

end Storage

/-- `persistStats`, `bg/TrafficMonitor.kt:91`. -/
def TrafficMonitor.persistStats (m : TrafficMonitor) (st : Storage) (id : Int) :
    Except String (TrafficMonitor × Storage) :=
  if m.persisted.all fun r ↦ m.deref r = m.current then
    let m' := { m with persisted := some .current }
    match st.getProfile id with
    | .ok none => .ok (m', st)
    | .ok (some profile) =>
      (ProfileManager.updateProfile st.profiles (addTotals profile m.totals)).map fun t ↦
        (m', { st with profiles := t })
    | .error e =>
      if !st.directBootAware then .error e
      else
        match st.deviceProfile with
        | none => .error "NullPointerException"
        | some d =>
          match Storage.singleWithId d id with
          | none => .error "NoSuchElementException"
          | some profile =>
            (st.directBootUpdate ⟨addTotals profile.toProfile m.totals, true⟩).map
              fun st ↦ (m', st)
  else .error "Data loss occurred"

/-! ### A session -/

/-- The monitor of a session and the stored profiles. -/
structure TrafficSession where
  monitor : TrafficMonitor := {}
  storage : Storage

namespace TrafficSession

/-- What happens before the shutdown of the proxy. -/
inductive Event where
  /-- A connection on the socket, with the bytes read from it. -/
  | report (read : List UInt8)
  | requestUpdate (now : Int64)
  /-- The `ACTION_SHUTDOWN` broadcast, `bg/BaseService.kt:90`. -/
  | actionShutdown
  deriving DecidableEq, Repr

/-- One step of the session of profile `id`. What `acceptInternal` throws is logged by
`net/LocalSocketListener.kt:59`, what `persistStats` throws ends the run. -/
def step (id : Int) (s : TrafficSession) : Event → Option TrafficSession
  | .report read =>
    match s.monitor.acceptInternal read with
    | .ok m => some { s with monitor := m }
    | .error _ => some s
  | .requestUpdate now => some { s with monitor := (s.monitor.requestUpdate now).2 }
  | .actionShutdown =>
    match s.monitor.persistStats s.storage id with
    | .ok (m, st) => some { monitor := m, storage := st }
    | .error _ => none

/-- `ProxyInstance.shutdown`, `bg/ProxyInstance.kt:123`: the storage it leaves. -/
def shutdown (id : Int) (s : TrafficSession) : Option Storage :=
  match s.monitor.persistStats s.storage id with
  | .ok (_, st) => some st
  | .error _ => none

/-- The storage after a whole session. -/
def afterSession (id : Int) (st : Storage) (es : List Event) : Option Storage :=
  (run (step id) { storage := st } es).bind (shutdown id)

/-- The totals after an event: those of a complete report, else those before. -/
def reported (totals : Int64 × Int64) : Event → Int64 × Int64
  | .report read => if read.length = 16 then totalsOf read else totals
  | _ => totals

/-- The last reported totals. -/
def lastTotals (es : List Event) : Int64 × Int64 := es.foldl reported (0, 0)

/-- The totals in force at the broadcasts, from the totals in force before. -/
def totalsAtBroadcasts : Int64 × Int64 → List Event → List (Int64 × Int64)
  | _, [] => []
  | totals, e :: es =>
    let rest := totalsAtBroadcasts (reported totals e) es
    match e with
    | .actionShutdown => totals :: rest
    | _ => rest

/-- The session of a stored profile is counted once: it ends, and both counters of the stored
profile have grown by the last reported totals. -/
def CountedOnce (id : Int) (st : Storage) (p : Profile) (es : List Event) : Prop :=
  ∃ st' p', afterSession id st es = some st' ∧ st'.stored id = some p' ∧
    p'.tx = p.tx + (lastTotals es).1.toInt ∧ p'.rx = p.rx + (lastTotals es).2.toInt

/-- A counter can take the totals of the last report, and those in force at the broadcasts add up
to zero. -/
def FitsOnce (before last : Int) (broadcasts : List Int) : Prop :=
  -2 ^ 63 ≤ before + last ∧ before + last < 2 ^ 63 ∧ (2 ^ 64 : Int) ∣ broadcasts.sum

instance (before last : Int) (broadcasts : List Int) :
    Decidable (FitsOnce before last broadcasts) :=
  inferInstanceAs (Decidable (_ ∧ _ ∧ _))

end TrafficSession

/-! ### Storing totals -/

/-- The value remembered is the live one, so the check never fails. -/
theorem TrafficMonitor.check_persisted (m : TrafficMonitor) :
    (m.persisted.all fun r ↦ m.deref r = m.current) = true := by
  cases m.persisted with
  | none => rfl
  | some r =>
    cases r
    simp [deref]

theorem Storage.directBootUpdate_of_none {st : Storage} {profile : DeviceProfile}
    (h : profile.udpFallback = none) :
    st.directBootUpdate profile = .ok { st with deviceProfile := some (profile, none) } := by
  simp only [directBootUpdate, h]

/-- The profile can be written where it is stored: without the database it must not need a
fallback profile. -/
def Storage.Writable (st : Storage) (p : Profile) : Prop := st.locked = true → p.udpFallback = none

theorem Storage.id_of_stored {st : Storage} {id : Int} {p : Profile} (h : st.stored id = some p) :
    p.id = id := by
  unfold stored at h
  split at h
  · split at h
    · obtain ⟨d, hd, rfl⟩ := Option.map_eq_some_iff.mp h
      obtain ⟨e, _, hs⟩ := Option.bind_eq_some_iff.mp hd
      unfold singleWithId at hs
      split at hs
      · next q hf =>
        cases hs
        have hm : d ∈ (e.1 :: e.2.toList).filter fun p ↦ p.id = id := by rw [hf]; simp
        simpa using (List.mem_filter.mp hm).2
      · cases hs
    · cases h
  · exact (RowTable.get_eq_some.mp h).2

/-- With the database open the row is replaced by one with the totals added. -/
private theorem persistStats_open {m : TrafficMonitor} {st : Storage} {id : Int} {p : Profile}
    (hl : st.locked = false) (h : st.profiles.get id = some p) :
    m.persistStats st id = .ok ({ m with persisted := some .current },
      { st with profiles :=
          st.profiles.update (addTotals p m.totals) }) := by
  obtain ⟨hm, _⟩ := RowTable.get_eq_some.mp h
  have hc : st.profiles.updateCount (addTotals p m.totals) = 1 :=
    RowTable.updateCount_eq_one (List.mem_map.mpr ⟨p, hm, rfl⟩)
  have hg : st.getProfile id = .ok (some p) := by simp [Storage.getProfile, hl, h]
  simp only [TrafficMonitor.persistStats, m.check_persisted, if_true, hg,
    ProfileManager.updateProfile, hc]
  rfl

/-- Without the database the profile in device storage is updated, if it can be expanded. -/
private theorem persistStats_locked {m : TrafficMonitor} {st : Storage} {id : Int}
    {d : DeviceProfile × Option DeviceProfile} {q : DeviceProfile} (hl : st.locked = true)
    (ha : st.directBootAware = true) (hd : st.deviceProfile = some d)
    (hq : Storage.singleWithId d id = some q) :
    m.persistStats st id =
      (st.directBootUpdate
        ⟨addTotals q.toProfile m.totals, true⟩).map
          fun st ↦ ({ m with persisted := some .current }, st) := by
  have hg : st.getProfile id = .error "SQLiteCantOpenDatabaseException" := by
    simp [Storage.getProfile, hl]
  simp only [TrafficMonitor.persistStats, m.check_persisted, if_true, hg, ha, hd, hq]
  rfl

private theorem device_of_stored {st : Storage} {id : Int} {p : Profile} (hl : st.locked = true)
    (h : st.stored id = some p) :
    st.directBootAware = true ∧ ∃ d q, st.deviceProfile = some d ∧
      Storage.singleWithId d id = some q ∧ q.toProfile = p := by
  unfold Storage.stored at h
  rw [if_pos hl] at h
  split at h
  · next ha =>
    obtain ⟨q, hq, rfl⟩ := Option.map_eq_some_iff.mp h
    obtain ⟨d, hd, hs⟩ := Option.bind_eq_some_iff.mp hq
    exact ⟨ha, d, q, hd, hs, rfl⟩
  · cases h

/-- One `persistStats` on a stored profile adds the current totals to it. -/
theorem persistStats_stored (m : TrafficMonitor) {st : Storage} {id : Int} {p : Profile}
    (h : st.stored id = some p) (hw : st.Writable p) :
    ∃ st', m.persistStats st id = .ok ({ m with persisted := some .current }, st') ∧
      st'.locked = st.locked ∧
      st'.stored id = some (addTotals p m.totals) := by
  have hid : p.id = id := Storage.id_of_stored h
  cases hl : st.locked with
  | false =>
    have hg : st.profiles.get id = some p := by simpa [Storage.stored, hl] using h
    refine ⟨_, persistStats_open hl hg, hl, ?_⟩
    have hm : p.id ∈ st.profiles.rows.map Profile.id :=
      List.mem_map_of_mem (RowTable.get_eq_some.mp hg).1
    have hu := RowTable.get_update
      (r := addTotals p m.totals) (t := st.profiles) hm
    simp only [Storage.stored, hl]
    rw [← hid]
    exact hu
  | true =>
    obtain ⟨ha, d, q, hd, hq, rfl⟩ := device_of_stored hl h
    have hf : q.udpFallback = none := hw hl
    have hp := persistStats_locked (m := m) hl ha hd hq
    rw [Storage.directBootUpdate_of_none (by exact hf)] at hp
    refine ⟨_, hp, hl, ?_⟩
    simp [Storage.stored, Storage.singleWithId, hl, ha, addTotals, hid]

/-- A profile that cannot be expanded without the database makes `persistStats` throw. -/
theorem persistStats_not_writable (m : TrafficMonitor) {st : Storage} {id : Int} {p : Profile}
    (h : st.stored id = some p) (hw : ¬ st.Writable p) :
    ∃ e, m.persistStats st id = .error e := by
  simp only [Storage.Writable, Classical.not_imp] at hw
  obtain ⟨hl, hf⟩ := hw
  obtain ⟨ha, d, q, hd, hq, rfl⟩ := device_of_stored hl h
  obtain ⟨i, hi⟩ := Option.ne_none_iff_exists'.mp hf
  refine ⟨"SQLiteCantOpenDatabaseException", ?_⟩
  rw [persistStats_locked hl ha hd hq]
  simp only [Storage.directBootUpdate, addTotals, hi, Storage.getProfile, hl, if_true]
  rfl

/-! ### Counting over a session -/

namespace TrafficMonitor

@[simp] theorem totals_acceptTx (m : TrafficMonitor) (tx : Int64) :
    (m.acceptTx tx).totals = (tx, m.totals.2) := by
  unfold acceptTx
  split
  · rfl
  · next h =>
    rw [← Classical.not_not.mp h]
    rfl

@[simp] theorem totals_acceptRx (m : TrafficMonitor) (rx : Int64) :
    (m.acceptRx rx).totals = (m.totals.1, rx) := by
  unfold acceptRx
  split
  · rfl
  · next h =>
    rw [← Classical.not_not.mp h]
    rfl

/-- A report replaces the totals if it is complete, and nothing otherwise. -/
theorem acceptInternal_cases (m : TrafficMonitor) (read : List UInt8) :
    (read.length = 16 ∧ ∃ m', m.acceptInternal read = .ok m' ∧ m'.totals = totalsOf read) ∨
      (read.length ≠ 16 ∧
        (m.acceptInternal read = .ok m ∨ ∃ e, m.acceptInternal read = .error e)) := by
  unfold acceptInternal
  by_cases h : read.length = 16
  · refine Or.inl ⟨h, ?_⟩
    rw [if_neg (by omega), if_pos h]
    exact ⟨_, rfl, by simp⟩
  · refine Or.inr ⟨h, ?_⟩
    by_cases h0 : read.length = 0
    · rw [if_pos h0]
      exact Or.inl rfl
    · rw [if_neg h0, if_neg h]
      exact Or.inr ⟨_, rfl⟩

/-- A poll leaves the totals alone. -/
theorem totals_requestUpdate (m : TrafficMonitor) (now : Int64) :
    (m.requestUpdate now).2.totals = m.totals := by
  unfold requestUpdate
  simp only
  split
  · split
    · rfl
    · rfl
  · rfl

end TrafficMonitor

namespace TrafficSession

/-- What the broadcasts of a session have added up to. -/
def broadcastSum (totals : Int64 × Int64) (es : List Event) : Int × Int :=
  (((totalsAtBroadcasts totals es).map fun t ↦ t.1.toInt).sum,
    ((totalsAtBroadcasts totals es).map fun t ↦ t.2.toInt).sum)

/-- The session has added these sums to the counters of the profile, and these totals are in
force. -/
structure Counted (id : Int) (st : Storage) (p : Profile) (sums : Int × Int)
    (totals : Int64 × Int64) (s : TrafficSession) : Prop where
  totals_eq : s.monitor.totals = totals
  locked_eq : s.storage.locked = st.locked
  stored : ∃ q, s.storage.stored id = some q ∧ q.udpFallback = p.udpFallback ∧
    q.tx.bmod (2 ^ 64) = (p.tx + sums.1).bmod (2 ^ 64) ∧
    q.rx.bmod (2 ^ 64) = (p.rx + sums.2).bmod (2 ^ 64)

private theorem bmod_addLong {a b : Int} (h : a.bmod (2 ^ 64) = b.bmod (2 ^ 64)) (c : Int64) :
    addLong a c = (b + c.toInt).bmod (2 ^ 64) := by
  rw [addLong, ← Int.bmod_add_bmod, h, Int.bmod_add_bmod]

/-- `persistStats` adds the totals in force. -/
theorem Counted.persistStats {id : Int} {st : Storage} {p : Profile} {sums : Int × Int}
    {totals : Int64 × Int64} {s : TrafficSession} (h : s.Counted id st p sums totals)
    (hw : st.Writable p) :
    ∃ m st', s.monitor.persistStats s.storage id = .ok (m, st') ∧ m.totals = totals ∧
      st'.locked = st.locked ∧ ∃ q, st'.stored id = some q ∧ q.udpFallback = p.udpFallback ∧
        q.tx = (p.tx + sums.1 + totals.1.toInt).bmod (2 ^ 64) ∧
        q.rx = (p.rx + sums.2 + totals.2.toInt).bmod (2 ^ 64) := by
  obtain ⟨q, hq, hf, htx, hrx⟩ := h.stored
  have hwq : s.storage.Writable q := by
    intro hl
    rw [hf]
    exact hw (h.locked_eq ▸ hl)
  obtain ⟨st', hp, hl, hs⟩ := persistStats_stored s.monitor hq hwq
  refine ⟨_, st', hp, h.totals_eq, hl.trans h.locked_eq, _, hs, hf, ?_, ?_⟩
  · rw [h.totals_eq]
    exact bmod_addLong htx totals.1
  · rw [h.totals_eq]
    exact bmod_addLong hrx totals.2

/-- One event: a broadcast adds the totals in force, a report replaces them. -/
theorem Counted.step {id : Int} {st : Storage} {p : Profile} {sums : Int × Int}
    {totals : Int64 × Int64} {s : TrafficSession} (h : s.Counted id st p sums totals)
    (hw : st.Writable p) (e : Event) :
    ∃ t, s.step id e = some t ∧
      t.Counted id st p
        (sums.1 + (broadcastSum totals [e]).1, sums.2 + (broadcastSum totals [e]).2)
        (reported totals e) := by
  cases e with
  | report read =>
    have hsum : broadcastSum totals [.report read] = (0, 0) := rfl
    rw [hsum]
    simp only [Int.add_zero, reported]
    rcases s.monitor.acceptInternal_cases read with ⟨hr, m', hm, ht⟩ | ⟨hr, hm | ⟨err, hm⟩⟩
    · rw [if_pos hr]
      exact ⟨{ s with monitor := m' }, by simp only [TrafficSession.step, hm], ht, h.locked_eq,
        h.stored⟩
    · rw [if_neg hr]
      exact ⟨{ s with monitor := s.monitor }, by simp only [TrafficSession.step, hm], h⟩
    · rw [if_neg hr]
      exact ⟨s, by simp only [TrafficSession.step, hm], h⟩
  | requestUpdate now =>
    have hsum : broadcastSum totals [.requestUpdate now] = (0, 0) := rfl
    rw [hsum]
    simp only [Int.add_zero, reported]
    exact ⟨_, rfl, (s.monitor.totals_requestUpdate now).trans h.totals_eq, h.locked_eq, h.stored⟩
  | actionShutdown =>
    obtain ⟨m, st', hp, ht, hl, q, hq, hf, htx, hrx⟩ := h.persistStats hw
    refine ⟨⟨m, st'⟩, by simp only [TrafficSession.step, hp], ht, hl, q, hq, hf, ?_, ?_⟩
    · rw [htx, Int.bmod_bmod]
      simp [broadcastSum, totalsAtBroadcasts, Int.add_assoc]
    · rw [hrx, Int.bmod_bmod]
      simp [broadcastSum, totalsAtBroadcasts, Int.add_assoc]

private theorem broadcastSum_cons (totals : Int64 × Int64) (e : Event) (es : List Event) :
    broadcastSum totals (e :: es) =
      ((broadcastSum totals [e]).1 + (broadcastSum (reported totals e) es).1,
        (broadcastSum totals [e]).2 + (broadcastSum (reported totals e) es).2) := by
  cases e <;> simp [broadcastSum, totalsAtBroadcasts, reported]

/-- A whole run: the totals in force at its broadcasts are added up. -/
theorem Counted.run {id : Int} {st : Storage} {p : Profile} {sums : Int × Int}
    {totals : Int64 × Int64} {s : TrafficSession} (h : s.Counted id st p sums totals)
    (hw : st.Writable p) (es : List Event) :
    ∃ t, EventSystem.run (TrafficSession.step id) s es = some t ∧
      t.Counted id st p
        (sums.1 + (broadcastSum totals es).1, sums.2 + (broadcastSum totals es).2)
        (es.foldl reported totals) := by
  induction es generalizing s sums totals with
  | nil =>
    have hsum : broadcastSum totals [] = (0, 0) := rfl
    rw [hsum]
    simp only [Int.add_zero]
    exact ⟨s, rfl, h⟩
  | cons e es ih =>
    obtain ⟨u, hu, hcu⟩ := h.step hw e
    obtain ⟨t, ht, hct⟩ := ih hcu
    refine ⟨t, ?_, ?_⟩
    · rw [run_cons, hu]
      exact ht
    · rw [broadcastSum_cons]
      simpa only [Int.add_assoc, List.foldl_cons] using hct

/-- A profile that cannot be expanded without the database: the session ends in an exception. -/
theorem afterSession_not_writable {id : Int} {s : TrafficSession} {p : Profile}
    (h : s.storage.stored id = some p) (hw : ¬ s.storage.Writable p) (es : List Event) :
    (EventSystem.run (step id) s es).bind (shutdown id) = none := by
  obtain ⟨err, he⟩ := persistStats_not_writable s.monitor h hw
  induction es generalizing s err with
  | nil =>
    rw [EventSystem.run, Option.bind_some, shutdown, he]
  | cons e es ih =>
    rw [run_cons]
    cases hs : s.step id e with
    | none => rfl
    | some t =>
      -- only a broadcast touches the storage, and it throws
      have hst : t.storage = s.storage := by
        cases e with
        | report read =>
          simp only [step] at hs
          split at hs <;> cases hs <;> rfl
        | requestUpdate now => cases hs; rfl
        | actionShutdown => simp only [step, he] at hs; cases hs
      rw [← hst] at h hw
      obtain ⟨err', he'⟩ := persistStats_not_writable t.monitor h hw
      exact ih h hw err' he'

/-- A sum of `Long` additions is the sum of its first and last part exactly when that fits and
the rest vanishes. -/
theorem bmod_eq_iff_fitsOnce (before last : Int) (broadcasts : List Int) :
    (before + broadcasts.sum + last).bmod (2 ^ 64) = before + last ↔
      FitsOnce before last broadcasts := by
  unfold FitsOnce
  generalize broadcasts.sum = sum
  rw [Int.bmod_def]
  constructor
  · intro h
    split at h <;> omega
  · rintro ⟨h1, h2, h3⟩
    split <;> omega

/-- For every session of a stored profile: after it both counters have grown by exactly the last
reported totals if and only if the profile can be written where it is stored, each counter can
take them, and the totals in force at the shutdown broadcasts add up to zero. -/
theorem countedOnce_iff (id : Int) (st : Storage) (p : Profile) (hp : st.stored id = some p)
    (es : List Event) :
    CountedOnce id st p es ↔
      st.Writable p ∧
      FitsOnce p.tx (lastTotals es).1.toInt
        ((totalsAtBroadcasts (0, 0) es).map fun t ↦ t.1.toInt) ∧
      FitsOnce p.rx (lastTotals es).2.toInt
        ((totalsAtBroadcasts (0, 0) es).map fun t ↦ t.2.toInt) := by
  by_cases hw : st.Writable p
  · have h0 : Counted id st p (0, 0) (0, 0) { storage := st } :=
      ⟨rfl, rfl, p, hp, rfl, by simp, by simp⟩
    obtain ⟨t, ht, hct⟩ := h0.run hw es
    obtain ⟨m, st', hps, _, _, q, hq, _, htx, hrx⟩ := hct.persistStats hw
    have hafter : afterSession id st es = some st' := by
      rw [afterSession, ht, Option.bind_some, shutdown, hps]
    rw [← bmod_eq_iff_fitsOnce, ← bmod_eq_iff_fitsOnce]
    simp only [Int.zero_add] at htx hrx
    constructor
    · rintro ⟨st'', p', ha, hs, h1, h2⟩
      rw [hafter] at ha
      cases ha
      rw [hq] at hs
      cases hs
      exact ⟨hw, htx.symm.trans h1, hrx.symm.trans h2⟩
    · rintro ⟨_, h1, h2⟩
      exact ⟨st', q, hafter, hq, htx.trans h1, hrx.trans h2⟩
  · constructor
    · rintro ⟨st', _, ha, _⟩
      rw [afterSession, afterSession_not_writable (s := { storage := st }) hp hw] at ha
      cases ha
    · rintro ⟨h, _⟩
      exact absurd h hw

/-- A table with one profile. -/
def oneProfile : Storage where
  profiles := { rows := [{ id := 1 }], keys_pos := by simp, keys_nodup := by simp }

/-- The report of one byte sent and none received. -/
def oneByteSent : Event := .report [1, 0, 0, 0, 0, 0, 0, 0, 0, 0, 0, 0, 0, 0, 0, 0]

theorem countedOnce_without_broadcast :
    oneProfile.stored 1 = some { id := 1 } ∧
      CountedOnce 1 oneProfile { id := 1 } [oneByteSent, .requestUpdate 5] :=
  ⟨by decide, (countedOnce_iff 1 oneProfile { id := 1 } (by decide) _).mpr
    ⟨fun h ↦ (nomatch h), by decide, by decide⟩⟩

/-- The device is switched off during a session: the byte is counted by the broadcast and again
by the shutdown of the proxy. -/
theorem counted_twice :
    ¬ CountedOnce 1 oneProfile { id := 1 } [oneByteSent, .actionShutdown] := by
  rintro ⟨st, p, hs, hp, htx, _⟩
  have htwice : ((afterSession 1 oneProfile [oneByteSent, .actionShutdown]).bind fun st ↦
      st.stored 1).map Profile.tx = some 2 := by decide
  rw [hs, Option.bind_some, hp, Option.map_some, htx] at htwice
  revert htwice
  decide

end TrafficSession
end FastSearch.Service
