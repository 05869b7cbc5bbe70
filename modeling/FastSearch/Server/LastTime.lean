import FastSearch.Lib.EventSystem
import FastSearch.Server.Manager

/-!
# The time of the last session

`ServerTimeManager.stop` of `server/manager/ServerManager.kt` moves the time of the session to
`mLastConnectedTime`, which the result screen shows, and sets the running time to zero. It runs
for every change to `STOPPING` and for every service callback that reports `Stopped`, with or
without a session to end.
-/

namespace FastSearch.Server

open EventSystem

/-- The manager, and the time of the last session if `disconnect` ended it. -/
structure LastTime where
  manager : ServerManager := {}
  kept : Option Int64 := none
  deriving DecidableEq, Repr

namespace LastTime

/-- What can happen to the manager. -/
inductive Event where
  | connect
  | changeState (state : State)
  | changeNode (node : ServerNode)
  | disconnect
  | forceDisconnect
  | stateChanged (state : Service.State)
  | onServiceConnected (stat : Service.State)
  | onServiceDisconnected
  /-- A posted `mDelayRun` runs. -/
  | tick
  deriving DecidableEq, Repr

/-- The event makes the manager call `ServerTimeManager.stop`. -/
def Event.stops : Event → Bool
  | .disconnect | .changeState .stopping | .onServiceConnected .stopped => true
  | _ => false

/-- The manager after an event; a tick needs a posted run. -/
def next (m : ServerManager) : Event → Option ServerManager
  | .connect => some m.connect
  | .changeState state => some (m.changeState state)
  | .changeNode node => some (m.changeNode node)
  | .disconnect => some m.disconnect
  | .forceDisconnect => some m.forceDisconnect
  | .stateChanged state => some (m.stateChanged state)
  | .onServiceConnected stat => some (m.onServiceConnected stat)
  | .onServiceDisconnected => some m.onServiceDisconnected
  | .tick => m.time.delayRun.map fun c ↦ { m with time := c }

/-- What is kept of a session: nothing new while it lasts; at its end the time it had, if
`disconnect` ended it. -/
def record (s : LastTime) (e : Event) (m : ServerManager) : Option Int64 :=
  if s.manager.mState = .connected ∧ m.mState ≠ .connected then
    if e = .disconnect then some s.manager.time.mTime else none
  else s.kept

/-- One main-thread step. -/
def step (s : LastTime) (e : Event) : Option LastTime :=
  (next s.manager e).map fun m ↦ { manager := m, kept := s.record e m }

/-- The manager still has the time of the last session. -/
def Keeps (s : LastTime) : Prop := ∀ v, s.kept = some v → s.manager.time.mLastConnectedTime = v

/-- After a session ended by `disconnect`, the clock is not stopped again before the next
session, unless the time it had was zero. -/
def StopsOnce (s : LastTime) (e : Event) : Prop :=
  e.stops = true → s.kept.isSome = true → s.manager.mState ≠ .connected →
    s.manager.time.mLastConnectedTime = 0

/-- While a time is kept and no session is connected, the clock rests at zero. -/
structure Inv (s : LastTime) : Prop where
  keeps : s.Keeps
  resting : s.kept.isSome = true → s.manager.mState ≠ .connected →
    s.manager.time.mTime = 0 ∧ s.manager.time.mHandler = none

/-! ### What an event does to the manager -/

/-- An event enters `connected` and starts the clock, stops the clock outside `connected`, leaves
the clock alone without entering `connected`, or is a tick of a running clock. -/
theorem next_cases {m m' : ServerManager} {e : Event} (h : next m e = some m') :
    (e.stops = false ∧ m'.mState = .connected ∧ m'.time = m.time.start) ∨
    (e.stops = true ∧ m'.mState ≠ .connected ∧ m'.time = m.time.stop) ∨
    (e.stops = false ∧ (m'.mState = m.mState ∨ m'.mState ≠ .connected) ∧ m'.time = m.time) ∨
    (e.stops = false ∧ m'.mState = m.mState ∧ m.time.mHandler ≠ none ∧
      m'.time.mLastConnectedTime = m.time.mLastConnectedTime) := by
  cases e with
  | connect =>
    cases h
    exact Or.inr (Or.inr (Or.inl ⟨rfl, Or.inr (by simp [ServerManager.connect]), rfl⟩))
  | changeState state =>
    cases h
    cases state with
    | connected => exact Or.inl ⟨rfl, rfl, rfl⟩
    | stopping => exact Or.inr (Or.inl ⟨rfl, by simp, rfl⟩)
    | connecting | stopped => exact Or.inr (Or.inr (Or.inl ⟨rfl, Or.inr (by simp), rfl⟩))
  | changeNode node =>
    cases h
    exact Or.inr (Or.inr (Or.inl ⟨rfl, Or.inl rfl, rfl⟩))
  | disconnect =>
    cases h
    exact Or.inr (Or.inl ⟨rfl, by simp [ServerManager.disconnect], rfl⟩)
  | forceDisconnect =>
    cases h
    exact Or.inr (Or.inr (Or.inl ⟨rfl, Or.inr (by simp [ServerManager.forceDisconnect]), rfl⟩))
  | stateChanged state =>
    cases h
    exact Or.inr (Or.inr (Or.inl ⟨rfl, Or.inl rfl, rfl⟩))
  | onServiceConnected stat =>
    cases h
    cases stat with
    | connected => exact Or.inl ⟨rfl, rfl, rfl⟩
    | stopped =>
      exact Or.inr (Or.inl ⟨rfl, by simp [ServerManager.mState_onServiceConnected], rfl⟩)
    | idle | connecting | stopping => exact Or.inr (Or.inr (Or.inl ⟨rfl, Or.inl rfl, rfl⟩))
  | onServiceDisconnected =>
    cases h
    exact Or.inr (Or.inr (Or.inl ⟨rfl, Or.inr (by simp [ServerManager.onServiceDisconnected]),
      rfl⟩))
  | tick =>
    obtain ⟨c, hc, rfl⟩ := Option.map_eq_some_iff.mp h
    obtain ⟨hn, rfl⟩ := ServerTimeManager.delayRun_eq_some hc
    exact Or.inr (Or.inr (Or.inr ⟨rfl, rfl, hn, rfl⟩))

/-! ### Steps and runs -/

/-- A session ends: by `disconnect` with its time moved over and the clock at zero, or with
nothing kept. -/
private theorem inv_end {s : LastTime} {m : ServerManager} {e : Event}
    (hn : next s.manager e = some m) (hs : s.manager.mState = .connected)
    (hm : m.mState ≠ .connected) : Inv { manager := m, kept := s.record e m } := by
  have hk : s.record e m = if e = .disconnect then some s.manager.time.mTime else none :=
    if_pos ⟨hs, hm⟩
  rw [hk]
  by_cases he : e = .disconnect
  · subst he
    cases hn
    refine ⟨?_, fun _ _ ↦ ⟨rfl, rfl⟩⟩
    intro v hv
    exact Option.some.inj hv
  · rw [if_neg he]
    exact ⟨fun v hv ↦ (nomatch hv), fun hv ↦ (nomatch hv)⟩

/-- A step that does not stop the clock twice keeps the invariant. -/
theorem inv_step {s t : LastTime} {e : Event} (h : s.Inv) (hk : s.StopsOnce e)
    (hs : s.step e = some t) : t.Inv := by
  obtain ⟨m, hn, rfl⟩ := Option.map_eq_some_iff.mp hs
  by_cases hend : s.manager.mState = .connected ∧ m.mState ≠ .connected
  · exact inv_end hn hend.1 hend.2
  · have hr : s.record e m = s.kept := if_neg hend
    rw [hr]
    rcases next_cases hn with ⟨_, hc, ht⟩ | ⟨he, hc, ht⟩ | ⟨_, hc, ht⟩ | ⟨_, hc, hh, hl⟩
    · refine ⟨?_, fun _ hne ↦ absurd hc hne⟩
      intro v hv
      rw [ht]
      exact h.keeps v hv
    · have hne : s.manager.mState ≠ .connected := fun hm ↦ hend ⟨hm, hc⟩
      refine ⟨?_, fun _ _ ↦ by rw [ht]; exact ⟨rfl, rfl⟩⟩
      intro v hv
      have hsome : s.kept.isSome = true := by rw [hv]; rfl
      -- the clock rests at zero, and zero is the time that was kept
      have hz : s.manager.time.mTime = 0 := (h.resting hsome hne).1
      rw [ht, ← h.keeps v hv, hk he hsome hne]
      exact hz
    · refine ⟨?_, ?_⟩
      · intro v hv
        rw [ht]
        exact h.keeps v hv
      · intro hsome hne
        rw [ht]
        apply h.resting hsome
        intro hm
        rcases hc with hc | hc
        · exact hne (hc.trans hm)
        · exact hend ⟨hm, hc⟩
    · refine ⟨?_, ?_⟩
      · intro v hv
        rw [hl]
        exact h.keeps v hv
      · intro hsome hne
        rw [hc] at hne
        exact absurd (h.resting hsome hne).2 hh

/-- A step that stops the clock again loses the time. -/
theorem not_keeps_step {s t : LastTime} {e : Event} (h : s.Inv) (hk : ¬ s.StopsOnce e)
    (hs : s.step e = some t) : ¬ t.Keeps := by
  simp only [StopsOnce, Classical.not_imp] at hk
  obtain ⟨he, hsome, hne, hl⟩ := hk
  obtain ⟨v, hv⟩ := Option.isSome_iff_exists.mp hsome
  obtain ⟨m, hn, rfl⟩ := Option.map_eq_some_iff.mp hs
  intro hkeep
  have hr : s.record e m = s.kept := if_neg fun hc ↦ hne hc.1
  have hlast : m.time.mLastConnectedTime = v := hkeep v (hr.trans hv)
  rcases next_cases hn with ⟨hf, _⟩ | ⟨_, _, ht⟩ | ⟨hf, _⟩ | ⟨hf, _⟩
  · exact absurd (he.symm.trans hf) (by decide)
  · rw [ht] at hlast
    apply hl
    rw [h.keeps v hv, ← hlast]
    exact (h.resting hsome hne).1
  · exact absurd (he.symm.trans hf) (by decide)
  · exact absurd (he.symm.trans hf) (by decide)

/-- From any manager, the time of every session ended by `disconnect` is kept until another
session has ended exactly if no step of the run stops the clock again in between. -/
theorem keeps_iff_stopsOnce (m : ServerManager) (es : List Event) :
    Always step Keeps { manager := m } es ↔ Along step StopsOnce { manager := m } es := by
  apply always_iff_along (J := Inv)
  · intro s h
    exact h.keeps
  · intro s e t h hk hs
    exact inv_step h hk hs
  · intro s e t h hk hs
    exact not_keeps_step h hk hs
  · exact ⟨fun v hv ↦ (nomatch hv), fun hv ↦ (nomatch hv)⟩

/-- A session of one second is ended by the user, and the service reports `Stopped` to the next
screen that binds to it: the time of the session is lost. -/
theorem time_lost_on_stopped_report :
    ¬ Always step Keeps {}
      [.connect, .changeState .connected, .tick, .disconnect, .onServiceConnected .stopped] := by
  intro h
  have hs := h.last rfl 1000 rfl
  revert hs
  decide

end LastTime
end FastSearch.Server
