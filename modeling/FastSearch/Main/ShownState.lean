import FastSearch.Lib.EventSystem
import FastSearch.Main.MainViewModel

/-!
# The state shown and the state of the service

Runs of the main screen and the server manager over attempts, ad results and the callbacks
of the service connection, in any order. `reported` and `died` record what the callbacks have
told so far: the last state the service reported, and whether its process has died since.
A report is handed to the main thread with the callback it captured, so it may still arrive
after the connection was closed; no order of callbacks is excluded.
-/

namespace FastSearch.Main

open EventSystem
open FastSearch.Server FastSearch.Ad

/-- The main screen with what the service has told it. -/
structure Session where
  view : MainViewModel := {}
  reported : Option Service.State := none
  died : Bool := false
  deriving DecidableEq, Repr

namespace Session

/-- Attempts and their coroutines, then the callbacks of the service connection. -/
inductive Event where
  | connect
  | disconnect
  | tick (i : Nat)
  | connectAd (result : RequestResult)
  | continueResult
  | clockTick
  | changeNode (node : ServerNode)
  | stateChanged (state : Service.State)
  | onServiceConnected (state : Service.State)
  | onServiceDisconnected
  | onBinderDied
  deriving DecidableEq, Repr

/-- The server manager takes a step. -/
def setManager (s : Session) (m : ServerManager) : Session :=
  { s with view := { s.view with manager := m } }

/-- The service has reported a state. -/
def report (s : Session) (state : Service.State) : Session :=
  { s with reported := some state, died := false }

/-- The service process is gone. -/
def die (s : Session) : Session := { s with died := true }

/-- One atomic step on the main thread. -/
def step (s : Session) : Event → Option Session
  | .connect => some { s with view := s.view.connect }
  | .disconnect => some { s with view := s.view.disconnect }
  | .tick i => (s.view.tick i).map fun v ↦ { s with view := v }
  | .connectAd result =>
    if s.view.connectRequested = 0 then none
    else some { s with view := s.view.onConnectAd result }
  | .continueResult => some { s with view := s.view.continueResult }
  | .clockTick =>
    s.view.manager.time.delayRun.map fun c ↦ s.setManager { s.view.manager with time := c }
  | .changeNode node => some (s.setManager (s.view.manager.changeNode node))
  | .stateChanged state => some ((s.setManager (s.view.manager.stateChanged state)).report state)
  | .onServiceConnected state =>
    some ((s.setManager (s.view.manager.onServiceConnected state)).report state)
  | .onServiceDisconnected => some (s.setManager s.view.manager.onServiceDisconnected).die
  -- `onBinderDied` only closes the connection
  | .onBinderDied => some s.die

/-- With no attempt in progress the user sees a connection exactly if the service reported one
and is alive, and a dead service does not count as connected. -/
def Agrees (s : Session) : Prop :=
  s.view.Idle →
    (s.view.manager.mState = .connected ↔ s.reported = some .connected ∧ s.died = false) ∧
    (s.died = true → s.view.manager.isConnected = false)

/-- The receiver of the last attempt finds the service in the state it is going to show. -/
def ReceiverInTime (s : Session) (forConnect : Bool) : Prop :=
  if forConnect then s.view.manager.mSsState = .connected → s.died = false
  else s.view.manager.mSsState ≠ .connected

/-- With no attempt in progress each report confirms the state shown and the service does not
die while connected; the receiver that ends the last attempt runs in time. -/
def Consistent (s : Session) : Event → Prop
  | .tick i =>
    ∀ l, s.view.loops[i]? = some l → s.view.iterate l.forConnect (l.duration + 500) = .invoke →
      s.view.loops.eraseIdx i = [] → s.view.mContinueResult = none →
      s.ReceiverInTime l.forConnect
  | .continueResult =>
    ∀ forConnect, s.view.mContinueResult = some forConnect → s.view.loops = [] →
      s.ReceiverInTime forConnect
  | .stateChanged state =>
    s.view.Idle → (s.view.manager.mState = .connected ↔ state = .connected)
  | .onServiceConnected state =>
    s.view.Idle → state = .connected ∨ state = .stopped ∨ s.view.manager.mState ≠ .connected
  | .onServiceDisconnected | .onBinderDied =>
    s.view.Idle → s.view.manager.mSsState ≠ .connected
  | _ => True

/-! ### The mirrored state -/

/-- `mSsState` is the last report. -/
def Mirrors (s : Session) : Prop := s.view.manager.mSsState = s.reported.getD .idle

private theorem reported_iff {s : Session} (h : s.Mirrors) :
    s.reported = some .connected ↔ s.view.manager.mSsState = .connected := by
  rw [h]
  cases s.reported with
  | none => simp
  | some x => simp

/-- With the last report mirrored, agreement speaks about the two copies of the state. -/
theorem agrees_iff {s : Session} (h : s.Mirrors) :
    s.Agrees ↔ (s.view.Idle →
      (s.view.manager.mState = .connected ↔ s.view.manager.mSsState = .connected) ∧
      (s.view.manager.mSsState = .connected → s.died = false)) := by
  unfold Agrees
  rw [reported_iff h]
  simp only [ServerManager.isConnected, beq_eq_false_iff_ne]
  cases s.died with
  | false => simp
  | true =>
    simp only [Bool.true_eq_false, and_false, iff_false, ne_eq, true_imp_iff]
    constructor
    · intro ha hi
      simp [ha hi]
    · intro ha hi
      have hn : s.view.manager.mSsState ≠ .connected := (ha hi).2
      exact ⟨fun hc ↦ hn ((ha hi).1.mp hc), hn⟩

private theorem mirrors_of_view {s t : Session} (h : s.Mirrors)
    (hv : t.view.manager.mSsState = s.view.manager.mSsState) (hr : t.reported = s.reported) :
    t.Mirrors := by
  unfold Mirrors
  rw [hv, hr]
  exact h

private theorem mSsState_tick {v w : MainViewModel} {i : Nat} (h : v.tick i = some w) :
    w.manager.mSsState = v.manager.mSsState := by
  obtain ⟨l, _, ⟨_, _, hm⟩ | ⟨_, rfl⟩⟩ := MainViewModel.tick_cases h
  · rw [hm]
  · rw [MainViewModel.mSsState_receiver]

private theorem mSsState_continueResult (v : MainViewModel) :
    v.continueResult.manager.mSsState = v.manager.mSsState := by
  unfold MainViewModel.continueResult
  dsimp only
  split
  · exact MainViewModel.mSsState_receiver _ _
  · rfl

/-- Every step keeps the last report mirrored. -/
theorem mirrors_step {s t : Session} {e : Event} (h : s.Mirrors) (hs : step s e = some t) :
    t.Mirrors := by
  cases e with
  | connect | disconnect =>
    cases hs
    exact mirrors_of_view h (s.view.manager.mSsState_changeState _) rfl
  | tick i =>
    simp only [step, Option.map_eq_some_iff] at hs
    obtain ⟨v, hv, rfl⟩ := hs
    exact mirrors_of_view h (mSsState_tick hv) rfl
  | connectAd result =>
    simp only [step] at hs
    split at hs
    · cases hs
    · cases hs
      exact h
  | continueResult =>
    cases hs
    exact mirrors_of_view h (mSsState_continueResult s.view) rfl
  | clockTick =>
    simp only [step, Option.map_eq_some_iff] at hs
    obtain ⟨c, _, rfl⟩ := hs
    exact h
  | changeNode node =>
    cases hs
    exact h
  | stateChanged state =>
    cases hs
    rfl
  | onServiceConnected state =>
    cases hs
    exact s.view.manager.mSsState_onServiceConnected state
  | onServiceDisconnected =>
    cases hs
    exact mirrors_of_view h (s.view.manager.mSsState_changeState _) rfl
  | onBinderDied =>
    cases hs
    exact h

/-! ### One step -/

private theorem agrees_receiver {s t : Session} {v : MainViewModel} {forConnect : Bool}
    (hm : t.Mirrors) (hi : t.view.Idle)
    (ht : t.view.manager = (v.receiver forConnect).manager)
    (hv : v.manager = s.view.manager) (hd : t.died = s.died) :
    t.Agrees ↔ s.ReceiverInTime forConnect := by
  rw [agrees_iff hm]
  simp only [ht, MainViewModel.mState_receiver, MainViewModel.mSsState_receiver, hv, hd]
  unfold ReceiverInTime
  cases forConnect with
  | false =>
    simp only [hi, true_imp_iff, Bool.false_eq_true, false_and, false_iff, if_false, ne_eq]
    constructor
    · intro ha
      exact ha.1
    · intro hn
      exact ⟨hn, fun hc ↦ False.elim (hn hc)⟩
  | true => simp [hi]

private theorem agrees_of_not_idle {s : Session} (h : ¬ s.view.Idle) : s.Agrees := by
  intro hi
  exact False.elim (h hi)

private theorem agrees_tick {s : Session} {v : MainViewModel} {i : Nat}
    (hm : Mirrors { s with view := v }) (hv : s.view.tick i = some v) :
    Agrees { s with view := v } ↔ s.Consistent (.tick i) := by
  unfold Consistent
  obtain ⟨l, hl, ⟨ho, hn, _⟩ | ⟨ho, rfl⟩⟩ := MainViewModel.tick_cases hv
  · apply iff_of_true (agrees_of_not_idle hn)
    intro k hk hko
    rw [hl] at hk
    cases hk
    exact False.elim (ho hko)
  · by_cases hi : s.view.loops.eraseIdx i = [] ∧ s.view.mContinueResult = none
    · have hid : MainViewModel.Idle (MainViewModel.receiver
          { s.view with loops := s.view.loops.eraseIdx i } l.forConnect) := by
        unfold MainViewModel.Idle
        rw [MainViewModel.loops_receiver, MainViewModel.mContinueResult_receiver]
        exact hi
      rw [agrees_receiver (s := s) hm hid rfl rfl rfl]
      constructor
      · intro hr k hk _ _ _
        rw [hl] at hk
        cases hk
        exact hr
      · intro hr
        exact hr l hl ho hi.1 hi.2
    · apply iff_of_true
      · apply agrees_of_not_idle
        intro h
        exact hi ⟨by simpa using h.1, by simpa using h.2⟩
      · intro _ _ _ h1 h2
        exact False.elim (hi ⟨h1, h2⟩)

private theorem agrees_continueResult {s : Session}
    (hm : Mirrors { s with view := s.view.continueResult }) (ha : s.Agrees) :
    Agrees { s with view := s.view.continueResult } ↔ s.Consistent .continueResult := by
  unfold Consistent
  unfold MainViewModel.continueResult at hm ⊢
  dsimp only at hm ⊢
  cases hc : s.view.mContinueResult with
  | none =>
    have hcc : s.view.clearConnectAd.mContinueResult = none := hc
    rw [hcc]
    exact iff_of_true ha (by simp)
  | some f =>
    have hcc : s.view.clearConnectAd.mContinueResult = some f := hc
    rw [hcc] at hm ⊢
    by_cases hl : s.view.loops = []
    · have hid : MainViewModel.Idle
          { s.view.clearConnectAd.receiver f with mContinueResult := none } :=
        ⟨(MainViewModel.loops_receiver _ _).trans hl, rfl⟩
      rw [agrees_receiver (s := s) hm hid rfl rfl rfl]
      constructor
      · intro hr g hg _
        cases hg
        exact hr
      · intro hr
        exact hr f rfl hl
    · apply iff_of_true
      · apply agrees_of_not_idle
        intro h
        have hr : (s.view.clearConnectAd.receiver f).loops = [] := h.1
        rw [MainViewModel.loops_receiver] at hr
        exact hl hr
      · intro _ _ h
        exact False.elim (hl h)

/-- From a state that agrees, a step ends in one that agrees exactly if it is consistent. -/
theorem agrees_step_iff {s t : Session} {e : Event} (hm : s.Mirrors) (ha : s.Agrees)
    (hs : step s e = some t) : t.Agrees ↔ s.Consistent e := by
  have ht : t.Mirrors := mirrors_step hm hs
  have hi := (agrees_iff hm).mp ha
  cases e with
  | connect | disconnect =>
    cases hs
    exact iff_of_true (agrees_of_not_idle (MainViewModel.not_idle_waitResult _ _)) trivial
  | tick i =>
    simp only [step, Option.map_eq_some_iff] at hs
    obtain ⟨v, hv, rfl⟩ := hs
    exact agrees_tick ht hv
  | connectAd result =>
    simp only [step] at hs
    split at hs
    · cases hs
    · cases hs
      exact iff_of_true ha trivial
  | continueResult =>
    cases hs
    exact agrees_continueResult ht ha
  | clockTick =>
    simp only [step, Option.map_eq_some_iff] at hs
    obtain ⟨c, _, rfl⟩ := hs
    exact iff_of_true ha trivial
  | changeNode node =>
    cases hs
    exact iff_of_true ha trivial
  | stateChanged state =>
    cases hs
    rw [agrees_iff ht]
    constructor
    · intro h hid
      exact (h hid).1
    · intro h hid
      exact ⟨h hid, fun _ ↦ rfl⟩
  | onServiceConnected state =>
    cases hs
    rw [agrees_iff ht]
    simp only [setManager, report, ServerManager.mState_onServiceConnected,
      ServerManager.mSsState_onServiceConnected, Consistent]
    apply imp_congr_right
    intro hid
    cases state <;> simp
  | onServiceDisconnected =>
    cases hs
    rw [agrees_iff ht]
    simp only [setManager, die, ServerManager.onServiceDisconnected,
      ServerManager.mState_changeState, ServerManager.mSsState_changeState, Consistent]
    apply imp_congr_right
    intro hid
    simp
  | onBinderDied =>
    cases hs
    rw [agrees_iff ht]
    apply imp_congr_right
    intro hid
    constructor
    · intro h hc
      cases h.2 hc
    · intro h
      exact ⟨(hi hid).1, fun hc ↦ False.elim (h hc)⟩

/-- Throughout a run the state shown agrees with the service exactly if all steps of the run
are consistent. -/
theorem agrees_iff_consistent (es : List Event) :
    Always step Agrees {} es ↔ Along step Consistent {} es := by
  apply always_iff_along (J := fun s ↦ s.Mirrors ∧ s.Agrees)
  · intro s hj
    exact hj.2
  · intro s e t hj hc hs
    exact ⟨mirrors_step hj.1 hs, (agrees_step_iff hj.1 hj.2 hs).mpr hc⟩
  · intro s e t hj hc hs ha
    exact hc ((agrees_step_iff hj.1 hj.2 hs).mp ha)
  · refine ⟨rfl, ?_⟩
    intro _
    simp

/-- The service stops by itself: the user goes on seeing a connection. -/
theorem stopped_report_not_shown :
    ¬ Always step Agrees {} [.onServiceConnected .connected, .stateChanged .stopping,
      .stateChanged .stopped] := by
  intro h
  have hs := h.last rfl
  have hm := (hs ⟨rfl, rfl⟩).1.mp rfl
  cases hm.1

end Session
end FastSearch.Main
