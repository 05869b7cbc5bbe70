import Mathlib.Data.List.Nodup
import Mathlib.Data.List.Perm.Basic
import FastSearch.Lib.EventSystem
import FastSearch.Lib.Tickets
import FastSearch.Main.MainViewModel

/-!
# What becomes of an attempt

The main screen with the observers of `main/MainActivity.kt`: an attempt begins with a toggle,
asks for the permission, waits for its result, may show an ad, runs its receiver and enables
the screen again. Every call of `waitResult` has a number; `ids` are the numbers of the running
loops and `parked` the one of the receiver in `mContinueResult`. A shown ad calls exactly one of
dismissed and failed to show. The posts are delivered and the SDK, the service and the user
answer at any time.
-/

namespace FastSearch.Main

open EventSystem Tickets
open FastSearch.Server FastSearch.Ad

/-- The main screen and its attempts. The closure in `checkPermission` is known by its
`isConnected`, as is the handler that `getPermissionResultLauncher` keeps; `dialogs` are the
permission questions asked, `onScreen` the ads shown and `followUps` the coroutines that wait
for 300 ms after a start result. `runs` are the receivers that ran, `lost` those that another
one replaced in `mContinueResult`. -/
structure Attempts where
  view : MainViewModel := {}
  checkPermission : LiveData Bool := {}
  handler : Option Bool := none
  dialogs : Nat := 0
  onScreen : Nat := 0
  followUps : Nat := 0
  ids : List Nat := []
  parked : Option Nat := none
  runs : List Nat := []
  lost : List Nat := []
  calls : Nat := 0
  deriving DecidableEq, Repr

namespace Attempts

/-- What happens on the main screen. -/
inductive Event where
  | toggleServer
  | justConnect
  /-- The node list returns `ACTION_DISCONNECT` or `ACTION_CONNECT`. -/
  | onActivityResult (disconnect : Bool)
  /-- The observer of `checkPermission`; `prepared` says that no question has to be asked. -/
  | deliverCheckPermission (prepared : Bool)
  | permissionResult (granted : Bool)
  | tick (i : Nat)
  | connectAd (result : RequestResult)
  /-- The observer of `showConnectAd`; `shown` says that the ad can be shown. -/
  | deliverConnectAd (shown : Bool)
  /-- A shown ad is dismissed, or failed to show. -/
  | adGone
  | deliverStartResult
  /-- A coroutine has waited for 300 ms. -/
  | followUp
  | deliverEnabled
  | stateChanged (state : Service.State)
  | onServiceConnected (state : Service.State)
  | onServiceDisconnected
  deriving DecidableEq, Repr

/-- `toggle`, `main/MainViewModel.kt:114`. -/
def toggle (s : Attempts) (isConnected : Bool) : Attempts :=
  { s with
    view := { s.view with enabled := s.view.enabled.postValue false }
    checkPermission := s.checkPermission.postValue isConnected }

/-- The closure posted by `toggle`. -/
def onPermission (s : Attempts) (isConnected hasPermission : Bool) : Attempts :=
  if hasPermission then
    { s with
      view := if isConnected then s.view.disconnect else s.view.connect
      ids := s.ids ++ [s.calls]
      calls := s.calls + 1 }
  else { s with view := { s.view with enabled := s.view.enabled.postValue true } }

/-- The observer of `checkPermission`, `main/MainActivity.kt:39`. -/
def onCheckPermission (s : Attempts) (isConnected prepared : Bool) : Attempts :=
  if prepared then s.onPermission isConnected true
  else { s with handler := some isConnected, dialogs := s.dialogs + 1 }

/-- The loop `i` wakes up; its receiver waits on, is parked or runs. -/
def tick (s : Attempts) (i : Nat) : Option Attempts :=
  s.view.loops[i]?.bind fun l ↦ (s.view.tick i).map fun v ↦
    match s.view.iterate l.forConnect (l.duration + 500) with
    | .wait => { s with view := v }
    | .park _ => { s with
        view := v
        ids := s.ids.eraseIdx i
        parked := s.ids[i]?
        lost := s.lost ++ s.parked.toList }
    | .invoke => { s with
        view := v
        ids := s.ids.eraseIdx i
        runs := s.runs ++ s.ids[i]?.toList }

/-- `continueResult`, `main/MainViewModel.kt:216`. -/
def continueResult (s : Attempts) : Attempts :=
  { s with
    view := s.view.continueResult
    parked := none
    runs := s.runs ++ s.parked.toList }

/-- The server manager takes a step. -/
def setManager (s : Attempts) (m : ServerManager) : Attempts :=
  { s with view := { s.view with manager := m } }

/-- One thing that happens. -/
def step (s : Attempts) : Event → Option Attempts
  | .toggleServer => some (s.toggle s.view.manager.isConnected)
  | .justConnect =>
    some (if s.view.manager.isConnected then s else s.toggle s.view.manager.isConnected)
  | .onActivityResult disconnect => some (s.toggle disconnect)
  | .deliverCheckPermission prepared => s.checkPermission.posted.bind fun isConnected ↦
      s.checkPermission.deliver.map fun l ↦
        { s with checkPermission := l }.onCheckPermission isConnected prepared
  | .permissionResult granted =>
    if s.dialogs = 0 then none
    else match s.handler with
      | some isConnected =>
        some ({ s with dialogs := s.dialogs - 1 }.onPermission isConnected granted)
      | none => some { s with dialogs := s.dialogs - 1 }
  | .tick i => s.tick i
  | .connectAd result =>
    if s.view.connectRequested = 0 then none
    else some { s with view := s.view.onConnectAd result }
  | .deliverConnectAd shown => s.view.showConnectAd.deliver.map fun l ↦
      let t := { s with view := { s.view with showConnectAd := l } }
      if shown then { t with onScreen := t.onScreen + 1 } else t.continueResult
  | .adGone =>
    if s.onScreen = 0 then none else some { s with onScreen := s.onScreen - 1 }.continueResult
  | .deliverStartResult => s.view.startConnectResult.deliver.map fun l ↦
      { s with
        view := { s.view with startConnectResult := l }
        followUps := s.followUps + 1 }
  -- `startResult` and the other branch enable the screen alike
  | .followUp =>
    if s.followUps = 0 then none
    else some { s with
      view := { s.view with enabled := s.view.enabled.postValue true }
      followUps := s.followUps - 1 }
  | .deliverEnabled => s.view.enabled.deliver.map fun l ↦
      { s with view := { s.view with enabled := l } }
  | .stateChanged state => some (s.setManager (s.view.manager.stateChanged state))
  | .onServiceConnected state => some (s.setManager (s.view.manager.onServiceConnected state))
  | .onServiceDisconnected => some (s.setManager s.view.manager.onServiceDisconnected)

/-- No loop is running, no ad is to be shown and none is on screen. -/
def Quiet (s : Attempts) : Prop :=
  s.view.loops = [] ∧ s.view.showConnectAd.posted = none ∧ s.onScreen = 0

/-- Besides, no permission is being asked for and no start result is on its way. -/
def Settled (s : Attempts) : Prop :=
  s.Quiet ∧ s.checkPermission.posted = none ∧ s.dialogs = 0 ∧
    s.view.startConnectResult.posted = none ∧ s.followUps = 0

/-- The receivers of all calls made so far have run, once each. -/
def AllRun (s : Attempts) : Prop := ∀ id < s.calls, s.runs.count id = 1

/-- A receiver is parked only when no other one is. -/
def ParksAlone (s : Attempts) : Event → Prop
  | .tick i => ∀ l ad, s.view.loops[i]? = some l →
      s.view.iterate l.forConnect (l.duration + 500) = .park ad → s.view.mContinueResult = none
  | _ => True

/-! ### The effects of a step -/

/-- Everything a tick can do. -/
theorem tick_cases {s t : Attempts} {i : Nat} (h : s.tick i = some t) :
    ∃ l, s.view.loops[i]? = some l ∧
      ((t = { s with view := { s.view with
          loops := s.view.loops.set i { l with duration := l.duration + 500 } } }) ∨
        (∃ ad, s.view.iterate l.forConnect (l.duration + 500) = .park ad ∧
          t = { s with
            view := { s.view with loops := s.view.loops.eraseIdx i }.park l.forConnect ad
            ids := s.ids.eraseIdx i
            parked := s.ids[i]?
            lost := s.lost ++ s.parked.toList }) ∨
        (t = { s with
            view := { s.view with loops := s.view.loops.eraseIdx i }.receiver l.forConnect
            ids := s.ids.eraseIdx i
            runs := s.runs ++ s.ids[i]?.toList })) := by
  unfold tick at h
  rw [Option.bind_eq_some_iff] at h
  obtain ⟨l, hl, h⟩ := h
  rw [Option.map_eq_some_iff] at h
  obtain ⟨v, hv, rfl⟩ := h
  refine ⟨l, hl, ?_⟩
  simp only [MainViewModel.tick, hl, Option.map_some, Option.some.injEq] at hv
  subst hv
  cases ho : s.view.iterate l.forConnect (l.duration + 500) with
  | wait => exact Or.inl rfl
  | park ad => exact Or.inr (Or.inl ⟨ad, rfl, rfl⟩)
  | invoke => exact Or.inr (Or.inr rfl)

/-- Everything a step can do. -/
inductive Move (s : Attempts) (e : Event) : Attempts → Prop where
  | toggle (isConnected : Bool) : Move s e (s.toggle isConnected)
  | asks (l : LiveData Bool) (isConnected : Bool) :
      Move s e { s with
        checkPermission := l, handler := some isConnected, dialogs := s.dialogs + 1 }
  /-- The question for the permission is answered, or was not asked. -/
  | permission (l : LiveData Bool) (n : Nat) (hn : n ≤ s.dialogs) (isConnected granted : Bool) :
      Move s e ({ s with checkPermission := l, dialogs := n }.onPermission isConnected granted)
  | unhandled (h : s.handler = none) (hd : 0 < s.dialogs) :
      Move s e { s with dialogs := s.dialogs - 1 }
  | tick (i : Nat) (he : e = .tick i) (t : Attempts) (h : s.tick i = some t) : Move s e t
  /-- The service, an ad result or a delivery of `enabled`. -/
  | view (v : MainViewModel) (hl : v.loops = s.view.loops)
      (hm : v.mContinueResult = s.view.mContinueResult)
      (ha : v.showConnectAd = s.view.showConnectAd)
      (hr : v.startConnectResult = s.view.startConnectResult)
      (he : v.enabled.latest = s.view.enabled.latest) : Move s e { s with view := v }
  | shows (l : LiveData RequestResult) :
      Move s e { s with
        view := { s.view with showConnectAd := l }, onScreen := s.onScreen + 1 }
  /-- The ad is gone, or cannot be shown. -/
  | continues (l : LiveData RequestResult) (n : Nat) :
      Move s e { s with
        view := { s.view with showConnectAd := l }, onScreen := n }.continueResult
  | startResult (l : LiveData Bool) :
      Move s e { s with
        view := { s.view with startConnectResult := l }, followUps := s.followUps + 1 }
  | enables (n : Nat) :
      Move s e { s with
        view := { s.view with enabled := s.view.enabled.postValue true }, followUps := n }

theorem move_step {s t : Attempts} {e : Event} (hs : s.step e = some t) : s.Move e t := by
  cases e with
  | toggleServer =>
    cases hs
    exact .toggle _
  | justConnect =>
    cases hs
    split
    · exact .view s.view rfl rfl rfl rfl rfl
    · exact .toggle _
  | onActivityResult disconnect =>
    cases hs
    exact .toggle disconnect
  | deliverCheckPermission prepared =>
    simp only [step, Option.bind_eq_some_iff, Option.map_eq_some_iff] at hs
    obtain ⟨isConnected, _, l, _, rfl⟩ := hs
    unfold onCheckPermission
    split
    · exact .permission l s.dialogs (Nat.le_refl _) isConnected true
    · exact .asks l isConnected
  | permissionResult granted =>
    simp only [step] at hs
    split at hs
    · cases hs
    · next hd =>
      split at hs
      · cases hs
        exact .permission s.checkPermission _ (Nat.sub_le _ _) _ granted
      · next hh =>
        cases hs
        exact .unhandled hh (Nat.pos_of_ne_zero hd)
  | tick i => exact .tick i rfl t hs
  | connectAd result =>
    simp only [step] at hs
    split at hs
    · cases hs
    · cases hs
      exact .view _ rfl rfl rfl rfl rfl
  | deliverConnectAd shown =>
    simp only [step, Option.map_eq_some_iff] at hs
    obtain ⟨l, _, rfl⟩ := hs
    split
    · exact .shows l
    · exact .continues l s.onScreen
  | adGone =>
    simp only [step] at hs
    split at hs
    · cases hs
    · cases hs
      exact .continues s.view.showConnectAd _
  | deliverStartResult =>
    simp only [step, Option.map_eq_some_iff] at hs
    obtain ⟨l, _, rfl⟩ := hs
    exact .startResult l
  | followUp =>
    simp only [step] at hs
    split at hs
    · cases hs
    · cases hs
      exact .enables _
  | deliverEnabled =>
    simp only [step, Option.map_eq_some_iff] at hs
    obtain ⟨l, hl, rfl⟩ := hs
    exact .view _ rfl rfl rfl rfl (LiveData.latest_deliver hl)
  | stateChanged state =>
    cases hs
    exact .view _ rfl rfl rfl rfl rfl
  | onServiceConnected state =>
    cases hs
    exact .view _ rfl rfl rfl rfl rfl
  | onServiceDisconnected =>
    cases hs
    exact .view _ rfl rfl rfl rfl rfl

/-! ### The books of the receivers -/

/-- The numbers are those of the loops and of the parked receiver, and every call made so far
waits, ran or was lost, once. -/
structure Books (s : Attempts) : Prop where
  aligned : s.ids.length = s.view.loops.length
  parked : s.parked.isSome = s.view.mContinueResult.isSome
  tickets : Accounted (s.ids ++ s.parked.toList) (s.runs ++ s.lost) s.calls

/-- A new call is a new ticket. -/
theorem books_onPermission {s : Attempts} (h : s.Books) (isConnected hasPermission : Bool) :
    (s.onPermission isConnected hasPermission).Books := by
  unfold onPermission
  split
  · constructor
    · have hl : (if isConnected then s.view.disconnect else s.view.connect).loops.length =
          s.view.loops.length + 1 := by
        cases isConnected <;> simp [MainViewModel.connect, MainViewModel.disconnect,
          MainViewModel.waitResult]
      simp only [List.length_append, List.length_singleton, hl, h.aligned]
    · have hm : (if isConnected then s.view.disconnect else s.view.connect).mContinueResult =
          s.view.mContinueResult := by
        cases isConnected <;> rfl
      rw [hm]
      exact h.parked
    · apply h.tickets.issue.of_count
      intro a
      simp only [List.count_append]
      omega
  · exact { h with }

/-- A receiver is taken out of the loops. -/
private theorem perm_ids {s : Attempts} (h : s.Books) {i : Nat} {l : WaitLoop}
    (hl : s.view.loops[i]? = some l) :
    ∃ id, s.ids[i]? = some id ∧ s.ids.Perm (id :: s.ids.eraseIdx i) := by
  have hi : i < s.ids.length := by
    rw [h.aligned]
    exact (List.getElem?_eq_some_iff.mp hl).1
  exact ⟨s.ids[i], List.getElem?_eq_getElem hi, (List.getElem_cons_eraseIdx_perm hi).symm⟩

/-- A receiver that is parked in another's place is the only one to go missing. -/
theorem books_tick {s t : Attempts} {i : Nat} (h : s.Books) (ht : s.tick i = some t) :
    t.Books := by
  obtain ⟨l, hl, rfl | ⟨ad, _, rfl⟩ | rfl⟩ := tick_cases ht
  · refine ⟨?_, h.parked, h.tickets⟩
    rw [List.length_set]
    exact h.aligned
  · obtain ⟨id, hid, hp⟩ := perm_ids h hl
    refine ⟨?_, ?_, ?_⟩
    · simp [MainViewModel.park, List.length_eraseIdx, h.aligned]
    · rw [hid]
      rfl
    · apply h.tickets.of_count
      intro a
      have hc := hp.count_eq a
      rw [List.count_cons] at hc
      simp only [hid, Option.toList_some, List.count_append, List.count_singleton]
      omega
  · obtain ⟨id, hid, hp⟩ := perm_ids h hl
    refine ⟨?_, ?_, ?_⟩
    · simp [List.length_eraseIdx, h.aligned]
    · rw [MainViewModel.mContinueResult_receiver]
      exact h.parked
    · apply h.tickets.of_count
      intro a
      have hc := hp.count_eq a
      rw [List.count_cons] at hc
      simp only [hid, Option.toList_some, List.count_append, List.count_singleton]
      omega

private theorem loops_continueResult (v : MainViewModel) : v.continueResult.loops = v.loops := by
  unfold MainViewModel.continueResult
  dsimp only
  split
  · rw [MainViewModel.loops_receiver]
    rfl
  · rfl

private theorem mContinueResult_continueResult (v : MainViewModel) :
    v.continueResult.mContinueResult = none := by
  unfold MainViewModel.continueResult
  dsimp only
  split
  · rfl
  · next h => exact h

/-- The parked receiver runs. -/
theorem books_continueResult {s : Attempts} (h : s.Books) : s.continueResult.Books := by
  refine ⟨?_, ?_, ?_⟩
  · unfold continueResult
    rw [loops_continueResult]
    exact h.aligned
  · unfold continueResult
    rw [mContinueResult_continueResult]
    rfl
  · apply h.tickets.of_count
    intro a
    simp only [continueResult, Option.toList_none, List.append_nil, List.count_append]
    omega

/-- Every step keeps the books. -/
theorem books_step {s t : Attempts} {e : Event} (h : s.Books) (hs : s.step e = some t) :
    t.Books := by
  cases move_step hs with
  | permission l n hn isConnected granted =>
    exact books_onPermission (s := { s with checkPermission := l, dialogs := n }) { h with } _ _
  | tick i he t ht => exact books_tick h ht
  | view v hl hm ha hr he => exact ⟨hl ▸ h.aligned, hm ▸ h.parked, h.tickets⟩
  | continues l n =>
    exact books_continueResult
      (s := { s with view := { s.view with showConnectAd := l }, onScreen := n }) { h with }
  | _ => exact { h with }

/-! ### The ad of a parked receiver -/

/-- While a receiver is parked, its ad is to be shown or on screen. -/
def AdUnderWay (s : Attempts) : Prop :=
  s.view.mContinueResult ≠ none → s.view.showConnectAd.posted ≠ none ∨ 0 < s.onScreen

private theorem showConnectAd_receiver (v : MainViewModel) (forConnect : Bool) :
    (v.receiver forConnect).showConnectAd = v.showConnectAd := by
  unfold MainViewModel.receiver
  split
  · split <;> rfl
  · rfl

private theorem adUnderWay_onPermission {s : Attempts} (h : s.AdUnderWay)
    (isConnected hasPermission : Bool) : (s.onPermission isConnected hasPermission).AdUnderWay := by
  unfold onPermission
  cases hasPermission with
  | false => exact h
  | true => cases isConnected <;> exact h

private theorem adUnderWay_continueResult (s : Attempts) : s.continueResult.AdUnderWay := by
  intro hn
  exact absurd (mContinueResult_continueResult s.view) hn

private theorem adUnderWay_tick {s t : Attempts} {i : Nat} (h : s.AdUnderWay)
    (ht : s.tick i = some t) : t.AdUnderWay := by
  obtain ⟨l, _, rfl | ⟨ad, _, rfl⟩ | rfl⟩ := tick_cases ht
  · exact h
  · intro _
    exact Or.inl (Option.some_ne_none ad)
  · intro hn
    rw [MainViewModel.mContinueResult_receiver] at hn
    rw [showConnectAd_receiver]
    exact h hn

/-- Every step leaves an ad under way to a parked receiver. -/
theorem adUnderWay_step {s t : Attempts} {e : Event} (h : s.AdUnderWay)
    (hs : s.step e = some t) : t.AdUnderWay := by
  cases move_step hs with
  | permission l n hn isConnected granted =>
    exact adUnderWay_onPermission (s := { s with checkPermission := l, dialogs := n }) h _ _
  | tick i he t ht => exact adUnderWay_tick h ht
  | view v hl hm ha hr he =>
    intro hn
    rw [ha]
    exact h (hm ▸ hn)
  | shows l =>
    intro _
    exact Or.inr (Nat.succ_pos _)
  | continues l n => exact adUnderWay_continueResult _
  | _ => exact h

/-! ### The way back to an enabled screen -/

/-- Something is under way that ends in an enabled screen. -/
def Busy (s : Attempts) : Prop :=
  s.checkPermission.posted ≠ none ∨ 0 < s.dialogs ∨ s.view.loops ≠ [] ∨
    s.view.mContinueResult ≠ none ∨ s.view.startConnectResult.posted ≠ none ∨ 0 < s.followUps

/-- The screen is enabled or will be, and a permission question has a handler. -/
structure Enabling (s : Attempts) : Prop where
  handler : 0 < s.dialogs → s.handler ≠ none
  enabled : s.view.enabled.latest = some true ∨ s.Busy

private theorem enables_receiver (v : MainViewModel) (forConnect : Bool) :
    (v.receiver forConnect).enabled.latest = some true ∨
      (v.receiver forConnect).startConnectResult.posted ≠ none := by
  unfold MainViewModel.receiver
  split
  · split
    · exact Or.inr (Option.some_ne_none true)
    · exact Or.inl rfl
  · exact Or.inr (Option.some_ne_none false)

/-- The answer to the permission question enables the screen or starts a loop. -/
private theorem enabled_onPermission (s : Attempts) (isConnected hasPermission : Bool) :
    (s.onPermission isConnected hasPermission).view.enabled.latest = some true ∨
      (s.onPermission isConnected hasPermission).Busy := by
  unfold onPermission
  cases hasPermission with
  | false => exact Or.inl rfl
  | true =>
    refine Or.inr (Or.inr (Or.inr (Or.inl ?_)))
    cases isConnected <;>
      simp [MainViewModel.connect, MainViewModel.disconnect, MainViewModel.waitResult]

private theorem enabled_continueResult {s : Attempts}
    (h : s.view.enabled.latest = some true ∨ s.Busy) :
    s.continueResult.view.enabled.latest = some true ∨ s.continueResult.Busy := by
  cases hm : s.view.mContinueResult with
  | none =>
    have hv : s.continueResult.view = s.view.clearConnectAd := by
      simp only [continueResult, MainViewModel.continueResult, MainViewModel.clearConnectAd, hm]
    unfold Busy
    rw [hv]
    exact h
  | some forConnect =>
    have hv : s.continueResult.view =
        { s.view.clearConnectAd.receiver forConnect with mContinueResult := none } := by
      simp only [continueResult, MainViewModel.continueResult, MainViewModel.clearConnectAd, hm]
    unfold Busy
    rw [hv]
    rcases enables_receiver s.view.clearConnectAd forConnect with he | hs
    · exact Or.inl he
    · exact Or.inr (Or.inr (Or.inr (Or.inr (Or.inr (Or.inl hs)))))

private theorem enabled_tick {s t : Attempts} {i : Nat} (ht : s.tick i = some t) :
    t.view.enabled.latest = some true ∨ t.Busy := by
  obtain ⟨l, hl, rfl | ⟨ad, _, rfl⟩ | rfl⟩ := tick_cases ht
  · refine Or.inr (Or.inr (Or.inr (Or.inl ?_)))
    intro hn
    rw [List.set_eq_nil_iff] at hn
    rw [hn] at hl
    cases hl
  · exact Or.inr (Or.inr (Or.inr (Or.inr (Or.inl (Option.some_ne_none _)))))
  · rcases enables_receiver { s.view with loops := s.view.loops.eraseIdx i } l.forConnect
      with he | hs
    · exact Or.inl he
    · exact Or.inr (Or.inr (Or.inr (Or.inr (Or.inr (Or.inl hs)))))

/-- Every step leaves a way back to an enabled screen. -/
theorem enabling_step {s t : Attempts} {e : Event} (h : s.Enabling) (hs : s.step e = some t) :
    t.Enabling := by
  cases move_step hs with
  | toggle isConnected => exact ⟨h.handler, Or.inr (Or.inl (Option.some_ne_none _))⟩
  | asks l isConnected =>
    exact ⟨fun _ ↦ Option.some_ne_none isConnected, Or.inr (Or.inr (Or.inl (Nat.succ_pos _)))⟩
  | permission l n hn isConnected granted =>
    refine ⟨?_, enabled_onPermission _ isConnected granted⟩
    unfold onPermission
    split <;> exact fun hd ↦ h.handler (Nat.lt_of_lt_of_le hd hn)
  | unhandled hh hd => exact absurd hh (h.handler hd)
  | tick i he t ht =>
    refine ⟨?_, enabled_tick ht⟩
    obtain ⟨l, _, rfl | ⟨ad, _, rfl⟩ | rfl⟩ := tick_cases ht <;> exact h.handler
  | view v hl hm ha hr he =>
    refine ⟨h.handler, ?_⟩
    unfold Busy
    rw [hl, hm, hr, he]
    exact h.enabled
  | shows l => exact { h with }
  | continues l n =>
    exact ⟨h.handler, enabled_continueResult
      (s := { s with view := { s.view with showConnectAd := l }, onScreen := n }) h.enabled⟩
  | startResult l =>
    exact ⟨h.handler,
      Or.inr (Or.inr (Or.inr (Or.inr (Or.inr (Or.inr (Nat.succ_pos _))))))⟩
  | enables n => exact ⟨h.handler, Or.inl rfl⟩

/-! ### Outcomes -/

/-- The invariant of the main screen. -/
structure Inv (s : Attempts) : Prop where
  books : s.Books
  ad : s.AdUnderWay
  enabling : s.Enabling

theorem inv_init : Inv {} where
  books := ⟨rfl, rfl, accounted_init⟩
  ad := fun h ↦ absurd rfl h
  enabling := ⟨fun h ↦ absurd h (Nat.lt_irrefl 0), Or.inl rfl⟩

theorem inv_step {s t : Attempts} {e : Event} (h : s.Inv) (hs : s.step e = some t) : t.Inv :=
  ⟨books_step h.books hs, adUnderWay_step h.ad hs, enabling_step h.enabling hs⟩

/-- No receiver runs twice. -/
theorem Inv.count_runs_le {s : Attempts} (h : s.Inv) (id : Nat) : s.runs.count id ≤ 1 := by
  have hn : s.runs.Nodup := (List.nodup_append.mp h.books.tickets.nodup_settled).1
  exact List.nodup_iff_count_le_one.mp hn id

/-- With nothing under way that could show an ad, no receiver is parked and none is lost
unnoticed. -/
theorem Inv.allRun {s : Attempts} (h : s.Inv) (hl : s.lost = []) (hq : s.Quiet) : s.AllRun := by
  obtain ⟨hloops, hpost, hscreen⟩ := hq
  have hm : s.view.mContinueResult = none := by
    cases hc : s.view.mContinueResult with
    | none => rfl
    | some forConnect =>
      rcases h.ad (by simp [hc]) with hp | ho
      · exact absurd hpost hp
      · omega
  have hids : s.ids = [] := by
    apply List.eq_nil_of_length_eq_zero
    rw [h.books.aligned, hloops]
    rfl
  have hparked : s.parked = none := by
    have hp := h.books.parked
    rw [hm] at hp
    exact Option.isNone_iff_eq_none.mp (by simpa using hp)
  have ht := h.books.tickets
  rw [hids, hparked, hl, List.append_nil] at ht
  intro id hid
  have hmem : id ∈ s.runs := ht.mem_settled hid
  have hpos : 0 < s.runs.count id := List.count_pos_iff.mpr hmem
  have hle := h.count_runs_le id
  omega

/-- When everything is settled the screen is enabled. -/
theorem Inv.enabled_of_settled {s : Attempts} (h : s.Inv) (hs : s.Settled) :
    s.view.enabled.latest = some true := by
  obtain ⟨⟨hloops, hpost, hscreen⟩, hperm, hdialogs, hstart, hfollow⟩ := hs
  rcases h.enabling.enabled with he | hp | hd | hl | hm | hr | hf
  · exact he
  · exact absurd hperm hp
  · omega
  · exact absurd hloops hl
  · rcases h.ad hm with hp | ho
    · exact absurd hpost hp
    · omega
  · exact absurd hstart hr
  · omega

/-- A step that parks a receiver only in a free place loses none. -/
theorem lost_step {s t : Attempts} {e : Event} (h : s.Inv ∧ s.lost = []) (hc : s.ParksAlone e)
    (hs : s.step e = some t) : t.Inv ∧ t.lost = [] := by
  refine ⟨inv_step h.1 hs, ?_⟩
  cases move_step hs with
  | permission l n hn isConnected granted =>
    unfold onPermission
    split <;> exact h.2
  | tick i he t ht =>
    obtain ⟨l, hl, rfl | ⟨ad, ho, rfl⟩ | rfl⟩ := tick_cases ht
    · exact h.2
    · subst he
      have hp := h.1.books.parked
      rw [hc l ad hl ho] at hp
      have hn : s.parked = none := Option.isNone_iff_eq_none.mp (by simpa using hp)
      rw [hn, h.2]
      rfl
    · exact h.2
  | _ => exact h.2

/-- For every order of events, a receiver runs at most once, and the screen is enabled once
everything is settled; if no receiver is parked in another's place, then in every quiet state
the receivers of all calls have run exactly once. -/
theorem outcomes_reported (es : List Event) :
    Always step (fun s ↦ ∀ id, s.runs.count id ≤ 1) {} es ∧
    Always step (fun s ↦ s.Settled → s.view.enabled.latest = some true) {} es ∧
    (Along step ParksAlone {} es → Always step (fun s ↦ s.Quiet → s.AllRun) {} es) := by
  have ha : Always step Inv {} es := by
    intro pre s _ hr
    exact invariant_run (fun _ _ _ h hs ↦ inv_step h hs) inv_init hr
  refine ⟨?_, ?_, ?_⟩
  · exact ha.imp fun s h ↦ h.count_runs_le
  · exact ha.imp fun s h ↦ h.enabled_of_settled
  · intro hc
    have hl : Always step (fun s ↦ s.Inv ∧ s.lost = []) {} es :=
      always_of_along (fun _ _ _ h hc hs ↦ lost_step h hc hs) ⟨inv_init, rfl⟩ hc
    exact hl.imp fun s h ↦ h.1.allRun h.2

-- Two attempts that park one after the other: the receiver of the first one never runs.
example : (run step {} [.toggleServer, .deliverCheckPermission true, .toggleServer,
      .deliverCheckPermission true, .stateChanged .connected,
      .connectAd (RequestResult.forResult 0), .tick 0, .tick 0, .tick 0, .tick 0, .tick 0, .tick 0,
      .deliverConnectAd false]).map (fun s ↦ (s.view.loops, s.runs, s.lost)) =
    some ([], [1], [0]) := by
  decide

/-- A connect attempt whose ad cannot be shown. -/
def adNotShown : List Event :=
  [.toggleServer, .deliverCheckPermission true, .stateChanged .connected,
    .connectAd (RequestResult.forResult 0), .tick 0, .tick 0, .tick 0, .deliverConnectAd false]

/-- Its receiver is parked alone and runs. -/
theorem outcomes_reported_adNotShown :
    Along step ParksAlone {} adNotShown ∧
      Always step (fun s ↦ s.Quiet → s.AllRun) {} adNotShown := by
  have ha : Along step ParksAlone {} adNotShown := by
    refine .cons rfl trivial ?_
    refine .cons rfl trivial ?_
    refine .cons rfl trivial ?_
    refine .cons rfl trivial ?_
    refine .cons rfl (fun _ _ _ _ ↦ rfl) ?_
    refine .cons rfl (fun _ _ _ _ ↦ rfl) ?_
    refine .cons rfl (fun _ _ _ _ ↦ rfl) ?_
    exact .cons rfl trivial (along_nil _)
  exact ⟨ha, (outcomes_reported adNotShown).2.2 ha⟩

/-- A connect attempt without an ad, up to its receiver. -/
def limitedAttempt : List Event :=
  [.toggleServer, .deliverCheckPermission true, .stateChanged .connected,
    .connectAd RequestResult.forLimit, .tick 0, .tick 0, .tick 0]

/-- After the receiver of a single attempt has run, the screen is not enabled before the start
result is delivered and 300 ms have passed. -/
theorem quiet_before_enabled :
    ¬ (Always step (fun s ↦ ∀ id, s.runs.count id ≤ 1) {} limitedAttempt ∧
      Always step (fun s ↦ s.Quiet → s.AllRun ∧ s.view.enabled.latest = some true) {}
        limitedAttempt) := by
  intro h
  have he := (h.2.last rfl ⟨rfl, rfl, rfl⟩).2
  revert he
  decide

end Attempts
end FastSearch.Main
