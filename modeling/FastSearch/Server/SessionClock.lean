import FastSearch.Lib.EventSystem
import FastSearch.Server.Manager
import Mathlib.Algebra.Group.Nat.Defs

/-!
# The session clock

Runs of the server manager with its clock `ServerTimeManager`. The clock is meant to run while
the user sees a connection and to count its time from zero. It is started by every way into
`connected`, but only `disconnect` and the report of a stopped service stop it and reset the
stored time; `connect`, `forceDisconnect`, `onServiceDisconnected` and the plain change to
`stopped` leave it as it is.
-/

namespace FastSearch.Server

open EventSystem

/-- The manager with two records: whether `connect` was called since `connected` was last
reached, and the ticks since such an attempt last reached it. -/
structure ClockRun where
  manager : ServerManager := {}
  attempt : Bool := false
  ticks : Nat := 0
  deriving DecidableEq, Repr

namespace ClockRun

/-- What can happen to the manager. -/
inductive Event where
  | connect
  /-- `changeState` with `connected` or `stopped`, called by a receiver of the main screen. -/
  | changeState (connected : Bool)
  | disconnect
  | forceDisconnect
  | onServiceConnected (stat : Service.State)
  | onServiceDisconnected
  /-- A posted `mDelayRun` runs. -/
  | tick
  deriving DecidableEq, Repr

/-- The manager moves on; an attempt that has reached `connected` is over. -/
def moveTo (s : ClockRun) (m : ServerManager) : ClockRun :=
  if m.mState = .connected ∧ s.attempt then { manager := m, attempt := false, ticks := 0 }
  else { s with manager := m }

/-- One main-thread step; a tick needs a posted run. -/
def step (s : ClockRun) : Event → Option ClockRun
  | .connect => some { s with manager := s.manager.connect, attempt := true }
  | .changeState true => some (s.moveTo (s.manager.changeState .connected))
  | .changeState false => some (s.moveTo (s.manager.changeState .stopped))
  | .disconnect => some (s.moveTo s.manager.disconnect)
  | .forceDisconnect => some (s.moveTo s.manager.forceDisconnect)
  | .onServiceConnected stat => some (s.moveTo (s.manager.onServiceConnected stat))
  | .onServiceDisconnected => some (s.moveTo s.manager.onServiceDisconnected)
  | .tick => s.manager.time.delayRun.map fun c ↦
      { s with manager := { s.manager with time := c }, ticks := s.ticks + 1 }

/-- The runs of `mDelayRun` that are posted. -/
def pending (s : ClockRun) : Nat := s.manager.time.mHandler.getD 0

/-- The clock follows the connection. -/
structure Follows (s : ClockRun) : Prop where
  pending_iff : 0 < s.pending ↔ s.manager.mState = .connected
  pending_le : s.pending ≤ 1
  time : s.manager.mState = .connected → s.manager.time.mTime.toInt = 1000 * s.ticks

/-- `connected` is left through `disconnect` or a report of `stopped` only, and entered after
a `connect` that has not reached it yet, unless no tick was counted since such an attempt last
reached it; and the time stays in range. -/
def Kept (s : ClockRun) : Event → Prop
  | .connect | .forceDisconnect | .onServiceDisconnected | .changeState false =>
    s.manager.mState ≠ .connected
  | .changeState true | .onServiceConnected .connected =>
    s.manager.mState ≠ .connected → s.attempt = true ∨ s.ticks = 0
  | .tick => 1000 * (s.ticks + 1) < 2 ^ 63
  | _ => True

/-- While connected one tick is posted and no attempt is left; otherwise the clock is stopped
at zero. -/
structure Inv (s : ClockRun) : Prop where
  running : s.manager.mState = .connected → s.manager.time.mHandler = some 1 ∧
    s.manager.time.mTime.toInt = 1000 * s.ticks ∧ s.attempt = false
  resting : s.manager.mState ≠ .connected → s.manager.time.mHandler = none ∧
    s.manager.time.mTime = 0

theorem Inv.follows {s : ClockRun} (h : s.Inv) : s.Follows := by
  by_cases hc : s.manager.mState = .connected
  · obtain ⟨hh, ht, _⟩ := h.running hc
    exact ⟨by simp [pending, hh, hc], by simp [pending, hh], fun _ ↦ ht⟩
  · obtain ⟨hh, _⟩ := h.resting hc
    exact ⟨by simp [pending, hh, hc], by simp [pending, hh], fun hn ↦ False.elim (hc hn)⟩

/-! ### Ways into and out of `connected` -/

private theorem moveTo_of_ne {s : ClockRun} {m : ServerManager} (h : m.mState ≠ .connected) :
    s.moveTo m = { s with manager := m } := by
  unfold moveTo
  rw [if_neg]
  intro hc
  exact h hc.1

/-- A way into `connected`: the clock runs on from the time it had. -/
private theorem inv_enter {s : ClockRun} {m : ServerManager} (h : s.Inv)
    (hm : m.mState = .connected) (ht : m.time = s.manager.time.start)
    (hk : s.manager.mState ≠ .connected → s.attempt = true ∨ s.ticks = 0) :
    (s.moveTo m).Inv := by
  by_cases hc : s.manager.mState = .connected
  · obtain ⟨_, htime, ha⟩ := h.running hc
    unfold moveTo
    rw [if_neg (by simp [ha])]
    exact ⟨fun _ ↦ ⟨by rw [ht]; rfl, by rw [ht]; exact htime, ha⟩, fun hn ↦ False.elim (hn hm)⟩
  · obtain ⟨_, hz⟩ := h.resting hc
    have hzero : m.time.mTime.toInt = 0 := by
      rw [ht]
      exact congrArg Int64.toInt hz
    unfold moveTo
    by_cases ha : s.attempt = true
    · rw [if_pos ⟨hm, ha⟩]
      exact ⟨fun _ ↦ ⟨by rw [ht]; rfl, hzero, rfl⟩, fun hn ↦ False.elim (hn hm)⟩
    · rw [if_neg (by simp [ha])]
      have htk : s.ticks = 0 := (hk hc).resolve_left ha
      refine ⟨fun _ ↦ ⟨by rw [ht]; rfl, ?_, by simpa using ha⟩, fun hn ↦ False.elim (hn hm)⟩
      change m.time.mTime.toInt = 1000 * s.ticks
      rw [hzero, htk]
      rfl

/-- Entering `connected` without an attempt shows a time of zero after ticks were counted. -/
private theorem not_follows_enter {s : ClockRun} {m : ServerManager} (h : s.Inv)
    (hm : m.mState = .connected) (ht : m.time = s.manager.time.start)
    (hk : ¬ (s.manager.mState ≠ .connected → s.attempt = true ∨ s.ticks = 0)) :
    ¬ (s.moveTo m).Follows := by
  simp only [Classical.not_imp, not_or] at hk
  obtain ⟨hc, ha, hn⟩ := hk
  intro hf
  unfold moveTo at hf
  rw [if_neg (by simp [ha])] at hf
  have htime : m.time.mTime.toInt = 1000 * s.ticks := hf.time hm
  have hz : m.time.mTime.toInt = 0 := by
    rw [ht]
    exact congrArg Int64.toInt (h.resting hc).2
  omega

/-- A second more is counted as such while the time stays in range. -/
private theorem toInt_tick_iff {t : Int64} {n : Nat} (h : t.toInt = 1000 * n) :
    (t + 1000).toInt = 1000 * (n + 1 : Nat) ↔ 1000 * (n + 1) < 2 ^ 63 := by
  constructor
  · intro heq
    have hlt := Int64.toInt_lt (t + 1000)
    omega
  · intro hr
    have hsecond : (1000 : Int64).toInt = 1000 := by decide
    rw [Int64.toInt_add, h, hsecond, Int.bmod_eq_of_le (by omega) (by omega)]
    omega

/-- A stopped clock in any other state. -/
private theorem inv_stopped {s : ClockRun} {m : ServerManager} (hm : m.mState ≠ .connected)
    (hh : m.time.mHandler = none) (ht : m.time.mTime = 0) : (s.moveTo m).Inv := by
  rw [moveTo_of_ne hm]
  exact ⟨fun hn ↦ False.elim (hm hn), fun _ ↦ ⟨hh, ht⟩⟩

/-- Leaving `connected` with the clock untouched leaves a tick behind. -/
private theorem not_follows_leave {s : ClockRun} {m : ServerManager} {a : Bool} (h : s.Inv)
    (hc : s.manager.mState = .connected) (hm : m.mState ≠ .connected)
    (ht : m.time = s.manager.time) : ¬ Follows { s with manager := m, attempt := a } := by
  intro hf
  apply hm
  apply hf.pending_iff.mp
  simp [pending, ht, (h.running hc).1]

/-! ### Steps and runs -/

/-- A step that keeps to the rule keeps the invariant. -/
theorem inv_step {s t : ClockRun} {e : Event} (h : s.Inv) (hk : s.Kept e)
    (hs : s.step e = some t) : t.Inv := by
  cases e with
  | connect =>
    cases hs
    exact ⟨fun hn ↦ (nomatch hn), fun _ ↦ h.resting hk⟩
  | changeState connected =>
    cases connected with
    | true =>
      cases hs
      exact inv_enter h rfl rfl hk
    | false =>
      cases hs
      exact inv_stopped (by simp) (h.resting hk).1 (h.resting hk).2
  | disconnect =>
    cases hs
    exact inv_stopped (by simp [ServerManager.disconnect]) rfl rfl
  | forceDisconnect =>
    cases hs
    exact inv_stopped (by simp [ServerManager.forceDisconnect]) (h.resting hk).1 (h.resting hk).2
  | onServiceConnected stat =>
    cases hs
    cases stat with
    | connected => exact inv_enter h rfl rfl hk
    | stopped => exact inv_stopped (by simp [ServerManager.mState_onServiceConnected]) rfl rfl
    | idle | connecting | stopping =>
      by_cases hc : s.manager.mState = .connected
      · unfold moveTo
        rw [if_neg (by simp [(h.running hc).2.2])]
        exact ⟨h.running, h.resting⟩
      · exact inv_stopped hc (h.resting hc).1 (h.resting hc).2
  | onServiceDisconnected =>
    cases hs
    exact inv_stopped (by simp [ServerManager.onServiceDisconnected]) (h.resting hk).1
      (h.resting hk).2
  | tick =>
    obtain ⟨c, hc, rfl⟩ := Option.map_eq_some_iff.mp hs
    obtain ⟨hn, rfl⟩ := ServerTimeManager.delayRun_eq_some hc
    by_cases hm : s.manager.mState = .connected
    · obtain ⟨hh, ht, ha⟩ := h.running hm
      exact ⟨fun _ ↦ ⟨hh, (toInt_tick_iff ht).mpr hk, ha⟩, fun hn ↦ False.elim (hn hm)⟩
    · exact False.elim (hn (h.resting hm).1)

/-- Any other step ends in a state in which the clock does not follow. -/
theorem not_follows_step {s t : ClockRun} {e : Event} (h : s.Inv) (hk : ¬ s.Kept e)
    (hs : s.step e = some t) : ¬ t.Follows := by
  cases e with
  | connect =>
    cases hs
    exact not_follows_leave h (Classical.not_not.mp hk) (by simp [ServerManager.connect]) rfl
  | changeState connected =>
    cases connected with
    | true =>
      cases hs
      exact not_follows_enter h rfl rfl hk
    | false =>
      cases hs
      rw [moveTo_of_ne (by simp)]
      exact not_follows_leave h (Classical.not_not.mp hk) (by simp) rfl
  | forceDisconnect =>
    cases hs
    rw [moveTo_of_ne (by simp [ServerManager.forceDisconnect])]
    exact not_follows_leave h (Classical.not_not.mp hk) (by simp [ServerManager.forceDisconnect])
      rfl
  | onServiceConnected stat =>
    cases stat with
    | connected =>
      cases hs
      exact not_follows_enter h rfl rfl hk
    | stopped | idle | connecting | stopping => exact False.elim (hk trivial)
  | onServiceDisconnected =>
    cases hs
    rw [moveTo_of_ne (by simp [ServerManager.onServiceDisconnected])]
    exact not_follows_leave h (Classical.not_not.mp hk)
      (by simp [ServerManager.onServiceDisconnected]) rfl
  | disconnect => exact False.elim (hk trivial)
  | tick =>
    obtain ⟨c, hc, rfl⟩ := Option.map_eq_some_iff.mp hs
    obtain ⟨hn, rfl⟩ := ServerTimeManager.delayRun_eq_some hc
    by_cases hm : s.manager.mState = .connected
    · obtain ⟨-, ht, -⟩ := h.running hm
      exact fun hf ↦ hk ((toInt_tick_iff ht).mp (hf.time hm))
    · exact False.elim (hn (h.resting hm).1)

/-- From the disconnected manager with the stored time zero, the clock follows the connection
throughout a run exactly if all of its steps keep to the rule. -/
theorem follows_iff_kept (es : List Event) :
    Always step Follows {} es ↔ Along step Kept {} es := by
  apply always_iff_along (J := Inv)
  · intro s h
    exact h.follows
  · intro s e t h hk hs
    exact inv_step h hk hs
  · intro s e t h hk hs
    exact not_follows_step h hk hs
  · exact ⟨fun hn ↦ (nomatch hn), fun _ ↦ ⟨rfl, rfl⟩⟩

/-- The process of a connected service dies: the clock ticks on while the user sees `stopped`. -/
theorem clock_runs_on_after_death :
    ¬ Always step Follows {} [.connect, .changeState true, .tick, .onServiceDisconnected] := by
  intro h
  have hs := h.last rfl
  have hp := hs.pending_iff.mp (by decide)
  cases hp

end ClockRun
end FastSearch.Server
