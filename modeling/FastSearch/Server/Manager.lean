import FastSearch.Server.Node
import FastSearch.Service.BaseService

/-!
# The server manager

`server/manager/ServerManager.kt`: the session clock `ServerTimeManager`, the connection state
`BaseServerManager` shows to the user, and the copy of the service's state that `ShadowSocks`
mirrors from the callbacks of its connection. What `connect` and `disconnect` send to the
service is the subject of `Service.Commands`; here the service only appears through the
callbacks. Closing the connection in `onBinderDied` writes none of this state.
-/

namespace FastSearch.Server

/-- `State`, `server/State.kt:3`. -/
inductive State where
  | connected
  | connecting
  | stopping
  | stopped
  deriving DecidableEq, Repr

/-- `ServerTimeManager`, `server/manager/ServerManager.kt:30`. The handler is the number of
runs of `mDelayRun` posted on it. -/
structure ServerTimeManager where
  mTime : Int64 := 0
  mLastConnectedTime : Int64 := 0
  mHandler : Option Nat := none
  deriving DecidableEq, Repr

namespace ServerTimeManager

/-- `turnNext`, `server/manager/ServerManager.kt:61`. -/
def turnNext (c : ServerTimeManager) : ServerTimeManager :=
  { c with mHandler := c.mHandler.map (· + 1) }

/-- `dismiss`, `server/manager/ServerManager.kt:71`. -/
def dismiss (c : ServerTimeManager) : ServerTimeManager := { c with mHandler := none }

/-- `start`, `server/manager/ServerManager.kt:55`. -/
def start (c : ServerTimeManager) : ServerTimeManager :=
  { c.dismiss with mHandler := some 0 }.turnNext

/-- `stop`, `server/manager/ServerManager.kt:65`. -/
def stop (c : ServerTimeManager) : ServerTimeManager :=
  { c.dismiss with mLastConnectedTime := c.mTime, mTime := 0 }

/-- A posted `mDelayRun` runs, `server/manager/ServerManager.kt:42`. -/
def delayRun (c : ServerTimeManager) : Option ServerTimeManager :=
  match c.mHandler with
  | some (n + 1) => some { c with mTime := c.mTime + 1000, mHandler := some n }.turnNext
  | _ => none

/-- A run counts a second and posts the next. -/
theorem delayRun_eq_some {c c' : ServerTimeManager} (h : c.delayRun = some c') :
    c.mHandler ≠ none ∧ c' = { c with mTime := c.mTime + 1000 } := by
  rw [delayRun] at h
  split at h
  · next n hn =>
    refine ⟨by simp [hn], ?_⟩
    rw [← Option.some.inj h, turnNext]
    simp [hn]
  · cases h

end ServerTimeManager

/-- The fields of `BaseServerManager` and `ShadowSocks`. -/
structure ServerManager where
  mState : State := .stopped
  mNode : ServerNode := ServerNode.fast
  mLastConnectedNode : ServerNode := ServerNode.fast
  mSsState : Service.State := .idle
  time : ServerTimeManager := {}
  deriving DecidableEq, Repr

namespace ServerManager

/-- `isConnected`, `server/manager/ServerManager.kt:242`. -/
def isConnected (m : ServerManager) : Bool := m.mSsState == .connected

/-- `isDisconnect`, `server/manager/ServerManager.kt:246`. -/
def isDisconnect (m : ServerManager) : Bool := m.mSsState == .stopped

/-- `changeState`, `server/manager/ServerManager.kt:169`. -/
def changeState (m : ServerManager) (state : State) : ServerManager :=
  match state with
  | .connected =>
    { m with mState := state, mLastConnectedNode := m.mNode, time := m.time.start }
  | .stopping => { m with mState := state, time := m.time.stop }
  | .connecting | .stopped => { m with mState := state }

/-- `changeNode`, `server/manager/ServerManager.kt:165`. -/
def changeNode (m : ServerManager) (newNode : ServerNode) : ServerManager :=
  { m with mNode := newNode }

/-- `connect`, `server/manager/ServerManager.kt:147`; it also launches `doConnect`. -/
def connect (m : ServerManager) : ServerManager := m.changeState .connecting

/-- `disconnect`, `server/manager/ServerManager.kt:179`; it also stops the service. -/
def disconnect (m : ServerManager) : ServerManager := m.changeState .stopping

/-- `forceDisconnect`, `server/manager/ServerManager.kt:184`; it also stops the service. -/
def forceDisconnect (m : ServerManager) : ServerManager := m.changeState .stopped

/-- `stateChanged`, `server/manager/ServerManager.kt:258`. -/
def stateChanged (m : ServerManager) (state : Service.State) : ServerManager :=
  { m with mSsState := state }

/-- `onServiceConnected`, `server/manager/ServerManager.kt:262`. -/
def onServiceConnected (m : ServerManager) (stat : Service.State) : ServerManager :=
  let m := { m with mSsState := stat }
  match stat with
  | .connected =>
    let m := m.changeState .connected
    { m with time := m.time.start }
  | .stopped =>
    let m := m.changeState .stopped
    { m with time := m.time.stop }
  | _ => m

/-- `onServiceDisconnected`, `server/manager/ServerManager.kt:275`. -/
def onServiceDisconnected (m : ServerManager) : ServerManager := m.changeState .stopped

/-! ### What the operations leave in the two copies of the state -/

@[simp] theorem mState_changeState (m : ServerManager) (state : State) :
    (m.changeState state).mState = state := by
  cases state <;> rfl

@[simp] theorem mSsState_changeState (m : ServerManager) (state : State) :
    (m.changeState state).mSsState = m.mSsState := by
  cases state <;> rfl

@[simp] theorem mSsState_onServiceConnected (m : ServerManager) (stat : Service.State) :
    (m.onServiceConnected stat).mSsState = stat := by
  cases stat <;> rfl

/-- The state shown to the user follows a report of the two final states only. -/
theorem mState_onServiceConnected (m : ServerManager) (stat : Service.State) :
    (m.onServiceConnected stat).mState =
      if stat = .connected then .connected else if stat = .stopped then .stopped
      else m.mState := by
  cases stat <;> rfl

@[simp] theorem isConnected_eq_true (m : ServerManager) :
    m.isConnected = true ↔ m.mSsState = .connected := by
  simp [isConnected]

end ServerManager
end FastSearch.Server
