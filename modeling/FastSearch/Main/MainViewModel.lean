import FastSearch.Lib.LiveData
import FastSearch.Ad.RequestResult
import FastSearch.Server.Manager

/-!
# The main screen

`main/MainViewModel.kt`: a connect or disconnect attempt calls the server manager and then
waits in a `waitResult` coroutine until the service answers or the time is over. Its receiver
either runs at once or is parked in `mContinueResult` until the ad that was shown is gone.
-/

namespace FastSearch.Main

open FastSearch.Server FastSearch.Ad

/-- A running `waitResult` coroutine, suspended in `delay`. -/
structure WaitLoop where
  forConnect : Bool
  duration : Nat := 0
  deriving DecidableEq, Repr

/-- `MainViewModel`, `main/MainViewModel.kt:24`. A receiver is known by its `forConnect`;
`connectRequested` counts the registrations of the callback of `mConnectRequest`. -/
structure MainViewModel where
  manager : ServerManager := {}
  loops : List WaitLoop := []
  mConnectAdResult : Option RequestResult := none
  connectRequested : Nat := 0
  mContinueResult : Option Bool := none
  showConnectAd : LiveData RequestResult := {}
  startConnectResult : LiveData Bool := {}
  enabled : LiveData Bool := ⟨some true, none⟩
  deriving DecidableEq, Repr

namespace MainViewModel

/-- `clearConnectAd`, `main/MainViewModel.kt:235`; one registration is removed, if there is any. -/
def clearConnectAd (v : MainViewModel) : MainViewModel :=
  { v with mConnectAdResult := none, connectRequested := v.connectRequested - 1 }

/-- The callback of `mConnectRequest`, `main/MainViewModel.kt:47`. -/
def onConnectAd (v : MainViewModel) (result : RequestResult) : MainViewModel :=
  { v.clearConnectAd with mConnectAdResult := some result }

/-- The start of `waitResult`, `main/MainViewModel.kt:167`. -/
def waitResult (v : MainViewModel) (forConnect : Bool) : MainViewModel :=
  { v with
    connectRequested := v.connectRequested + 1
    loops := v.loops ++ [⟨forConnect, 0⟩] }

/-- `connect`, `main/MainViewModel.kt:135`. -/
def connect (v : MainViewModel) : MainViewModel :=
  { v with manager := v.manager.connect }.waitResult true

/-- `disconnect`, `main/MainViewModel.kt:149`. -/
def disconnect (v : MainViewModel) : MainViewModel :=
  { v with manager := v.manager.disconnect }.waitResult false

/-- The receivers passed to `waitResult`, `main/MainViewModel.kt:137` and `:151`. -/
def receiver (v : MainViewModel) (forConnect : Bool) : MainViewModel :=
  if forConnect then
    if v.manager.isConnected then
      { v with manager := v.manager.changeState .connected
               startConnectResult := v.startConnectResult.postValue true }
    else
      { v with manager := v.manager.forceDisconnect
               enabled := v.enabled.postValue true }
  else
    { v with manager := v.manager.changeState .stopped
             startConnectResult := v.startConnectResult.postValue false }

/-- `mContinueResult = receiver` and the ad posted for display. -/
def park (v : MainViewModel) (forConnect : Bool) (ad : RequestResult) : MainViewModel :=
  { v with mContinueResult := some forConnect, showConnectAd := v.showConnectAd.postValue ad }

/-- What one iteration of the loop in `waitResult` comes to. -/
inductive Outcome where
  | wait
  | park (ad : RequestResult)
  | invoke
  deriving DecidableEq, Repr

/-- The service is where the attempt wants it, `main/MainViewModel.kt:176`. -/
def attained (v : MainViewModel) (forConnect : Bool) : Bool :=
  if forConnect then v.manager.isConnected else v.manager.isDisconnect

/-- After the loop, `main/MainViewModel.kt:193`. -/
def timedOut (v : MainViewModel) : Outcome :=
  match v.mConnectAdResult with
  | some ad => if ad.isSuccessful then .park ad else .invoke
  | none => .invoke

/-- The body and condition of the loop, `main/MainViewModel.kt:173`, once `duration` has been
increased. -/
def iterate (v : MainViewModel) (forConnect : Bool) (duration : Nat) : Outcome :=
  let rest := if duration ≤ 10000 then .wait else v.timedOut
  if 1500 ≤ duration ∧ v.attained forConnect then
    match v.mConnectAdResult with
    | some ad => if ad.isSuccessful then .park ad else if ad.isLimited then .invoke else rest
    | none => rest
  else rest

/-- The loop `i` wakes up from its `delay`. -/
def tick (v : MainViewModel) (i : Nat) : Option MainViewModel :=
  v.loops[i]?.map fun l ↦
    let duration := l.duration + 500
    match v.iterate l.forConnect duration with
    | .wait => { v with loops := v.loops.set i { l with duration } }
    | .park ad => { v with loops := v.loops.eraseIdx i }.park l.forConnect ad
    | .invoke => { v with loops := v.loops.eraseIdx i }.receiver l.forConnect

/-- `continueResult`, `main/MainViewModel.kt:216`. -/
def continueResult (v : MainViewModel) : MainViewModel :=
  let v := v.clearConnectAd
  match v.mContinueResult with
  | some forConnect => { v.receiver forConnect with mContinueResult := none }
  | none => v

/-- No attempt is in progress. -/
def Idle (v : MainViewModel) : Prop := v.loops = [] ∧ v.mContinueResult = none

instance (v : MainViewModel) : Decidable v.Idle := by
  unfold Idle
  infer_instance

/-! ### Who ends an attempt -/

@[simp] theorem loops_receiver (v : MainViewModel) (forConnect : Bool) :
    (v.receiver forConnect).loops = v.loops := by
  unfold receiver
  split
  · split <;> rfl
  · rfl

@[simp] theorem mContinueResult_receiver (v : MainViewModel) (forConnect : Bool) :
    (v.receiver forConnect).mContinueResult = v.mContinueResult := by
  unfold receiver
  split
  · split <;> rfl
  · rfl

@[simp] theorem mSsState_receiver (v : MainViewModel) (forConnect : Bool) :
    (v.receiver forConnect).manager.mSsState = v.manager.mSsState := by
  unfold receiver ServerManager.forceDisconnect
  split
  · split <;> exact v.manager.mSsState_changeState _
  · exact v.manager.mSsState_changeState _

/-- After a receiver the user sees a connection exactly if a connect attempt found one. -/
theorem mState_receiver (v : MainViewModel) (forConnect : Bool) :
    (v.receiver forConnect).manager.mState = .connected ↔
      forConnect = true ∧ v.manager.mSsState = .connected := by
  unfold receiver ServerManager.forceDisconnect
  cases forConnect with
  | false => simp
  | true =>
    rw [if_pos rfl]
    split
    · next h => simp [v.manager.isConnected_eq_true.mp h]
    · next h =>
      have hn : v.manager.mSsState ≠ .connected := by
        intro hc
        exact h (v.manager.isConnected_eq_true.mpr hc)
      simp [hn]

/-- An attempt is in progress after a new one has begun. -/
theorem not_idle_waitResult (v : MainViewModel) (forConnect : Bool) :
    ¬ (v.waitResult forConnect).Idle := by
  intro h
  have hl : v.loops ++ [(⟨forConnect, 0⟩ : WaitLoop)] = [] := h.1
  simp at hl

/-- A tick leaves no attempt in progress only if it runs the receiver of the last one. -/
theorem tick_cases {v w : MainViewModel} {i : Nat} (h : v.tick i = some w) :
    ∃ l, v.loops[i]? = some l ∧
      ((v.iterate l.forConnect (l.duration + 500) ≠ .invoke ∧ ¬ w.Idle ∧
          w.manager = v.manager) ∨
        (v.iterate l.forConnect (l.duration + 500) = .invoke ∧
          w = { v with loops := v.loops.eraseIdx i }.receiver l.forConnect)) := by
  unfold tick at h
  rw [Option.map_eq_some_iff] at h
  obtain ⟨l, hl, rfl⟩ := h
  refine ⟨l, hl, ?_⟩
  dsimp only
  cases ho : v.iterate l.forConnect (l.duration + 500) with
  | wait =>
    refine Or.inl ⟨by simp, ?_, rfl⟩
    intro hi
    have hs : v.loops.set i { l with duration := l.duration + 500 } = [] := hi.1
    rw [List.set_eq_nil_iff] at hs
    rw [hs] at hl
    cases hl
  | park ad =>
    refine Or.inl ⟨by simp, ?_, rfl⟩
    intro hi
    cases hi.2
  | invoke => exact Or.inr ⟨rfl, rfl⟩

end MainViewModel
end FastSearch.Main
