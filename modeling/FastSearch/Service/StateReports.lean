import FastSearch.Lib.EventSystem
import FastSearch.Service.BaseService
import Mathlib.Logic.Function.Basic

/-!
# State reports to other processes

`Data.changeState` and `Binder` in `bg/BaseService.kt` with the clients of
`aidl/ShadowsocksConnection.kt` in other processes. `changeState` launches a coroutine of the main
thread that tells the callbacks, and sets the state. The coroutine runs at once if the main thread
makes the call by itself; it runs later, and perhaps after another, if the call is made in a
coroutine that has not yet been suspended or on another thread, as by `onRevoke`. Calls of clients
come in on other threads, between any two steps of the service. A client registers and then reads
the state, in one go on its own main thread, and runs the reports that came in meanwhile after
that. Reports and `unregisterCallback` are one-way calls, which arrive at some later time, also when
the client has been bound again. The process of the service lives on.
-/

namespace FastSearch.Service

open EventSystem

/-- A client: its connection, and the one-way calls from and to it. -/
structure ReportClient where
  /-- The connection has a callback, from `connect` to `disconnect`. -/
  callback : Bool := false
  /-- Registered, and still to read the state. -/
  reading : Bool := false
  /-- Registered, with the state read. -/
  connected : Bool := false
  unregistering : Nat := 0
  /-- Reports that have not arrived. -/
  reports : List State := []
  /-- Reports that wait for the main thread. -/
  posted : List State := []
  mSsState : State := .idle
  deriving DecidableEq, Repr

/-- The state of the service, the states that coroutines are launched to tell, those that calls of
`changeState` have still to set, the callbacks, and the clients. -/
structure StateReports where
  state : State := .stopped
  telling : List State := []
  setting : List State := []
  callbacks : List Nat := []
  clients : Nat → ReportClient := fun _ ↦ {}

namespace StateReports

/-- What can happen between the service and its clients. -/
inductive Event where
  /-- `changeState` launches the telling, `bg/BaseService.kt:100`; `msg` says whether there is a
  message. -/
  | changeState (s : State) (msg : Bool)
  /-- One of the launched coroutines runs, `bg/BaseService.kt:203`. -/
  | tell (k : Nat)
  /-- One of the calls of `changeState` sets the state. -/
  | setState (k : Nat)
  /-- `connect`, `aidl/ShadowsocksConnection.kt:133`. -/
  | connect (i : Nat)
  /-- `registerCallback` in `onServiceConnected`, `aidl/ShadowsocksConnection.kt:105`. -/
  | registerCallback (i : Nat)
  /-- The callback reads `service.state`, `server/manager/ServerManager.kt:263`. -/
  | readState (i : Nat)
  /-- A report arrives, `aidl/ShadowsocksConnection.kt:71`. -/
  | arrive (i : Nat)
  /-- A report runs on the main thread of the client. -/
  | stateChanged (i : Nat)
  /-- `disconnect`, `aidl/ShadowsocksConnection.kt:142`. -/
  | disconnect (i : Nat)
  /-- `unregisterCallback` arrives at the service. -/
  | unregisterCallback (i : Nat)
  deriving DecidableEq, Repr

/-- A client changes. -/
def modify (r : StateReports) (i : Nat) (f : ReportClient → ReportClient) : StateReports :=
  { r with clients := Function.update r.clients i (f (r.clients i)) }

/-- `broadcast` of a state to all callbacks. -/
def broadcast (r : StateReports) (s : State) : StateReports :=
  { r with clients := fun i ↦
      if i ∈ r.callbacks then { r.clients i with reports := (r.clients i).reports ++ [s] }
      else r.clients i }

/-- One step; `changeState` does nothing for the same state without a message, a report that arrives
without a callback is dropped, and registering again replaces the registration. -/
def step (r : StateReports) : Event → Option StateReports
  | .changeState s msg =>
    if r.state = s ∧ msg = false then some r
    else some { r with telling := r.telling ++ [s], setting := r.setting ++ [s] }
  | .tell k =>
    r.telling[k]?.map fun s ↦ { r.broadcast s with telling := r.telling.eraseIdx k }
  | .setState k =>
    r.setting[k]?.map fun s ↦ { r with state := s, setting := r.setting.eraseIdx k }
  | .connect i => some (r.modify i ({ · with callback := true }))
  | .registerCallback i =>
    let c := r.clients i
    if c.callback ∧ ¬ c.reading ∧ ¬ c.connected then
      some { r.modify i ({ · with reading := true }) with
        callbacks := i :: r.callbacks.filter (· ≠ i) }
    else none
  | .readState i =>
    if (r.clients i).reading then
      some (r.modify i ({ · with reading := false, connected := true, mSsState := r.state }))
    else none
  | .arrive i =>
    match (r.clients i).reports with
    | [] => none
    | s :: rest => some (r.modify i fun c ↦
        { c with reports := rest, posted := if c.callback then c.posted ++ [s] else c.posted })
  | .stateChanged i =>
    if (r.clients i).reading then none
    else
      match (r.clients i).posted with
      | [] => none
      | s :: rest => some (r.modify i ({ · with posted := rest, mSsState := s }))
  | .disconnect i =>
    if (r.clients i).reading then none
    else some (r.modify i fun c ↦
      { c with
        callback := false
        connected := false
        unregistering := if c.connected then c.unregistering + 1 else c.unregistering })
  | .unregisterCallback i =>
    if (r.clients i).unregistering = 0 then none
    else some { r.modify i fun c ↦ { c with unregistering := c.unregistering - 1 } with
      callbacks := r.callbacks.filter (· ≠ i) }

/-- The state of the service when the calls of `changeState` that have begun are over. -/
def finalState (r : StateReports) : State := r.setting.getLastD r.state

/-- What a callback will have heard last when everything under way has run. -/
def lastWord (r : StateReports) (c : ReportClient) : State :=
  (c.posted ++ c.reports ++ r.telling).getLastD c.mSsState

/-- Every connected client is a callback and remains one, and the last word that it has or will have
is the state that the service has or will have. -/
def Informed (r : StateReports) : Prop :=
  ∀ i, (r.clients i).connected = true →
    i ∈ r.callbacks ∧ (r.clients i).unregistering = 0 ∧ r.lastWord (r.clients i) = r.finalState

/-- What ends a list of states still ends it when this one is taken before the others. -/
def KeepsLast (l : List State) (k : Nat) : Prop :=
  ∀ s ∈ l[k]?, (l.eraseIdx k).getLastD s = l.getLastD s

/-- While a client is connected, no change that has begun overtakes an earlier one to another
state, neither in telling nor in setting. A client that reads the state is a callback, with no
earlier `unregisterCallback` under way, and what it reads, or else the last report under way to
it, is the state to come. -/
def Timely (r : StateReports) : Event → Prop
  | .tell k => (∃ i, (r.clients i).connected = true) → KeepsLast r.telling k
  | .setState k => (∃ i, (r.clients i).connected = true) → KeepsLast r.setting k
  | .readState i => i ∈ r.callbacks ∧ (r.clients i).unregistering = 0 ∧
      r.lastWord { r.clients i with mSsState := r.state } = r.finalState
  | _ => True

/-- When nothing is under way, every connected client has the state of the service. -/
theorem Informed.mSsState_eq {r : StateReports} (h : r.Informed) {i : Nat}
    (hi : (r.clients i).connected = true) (ht : r.telling = []) (hs : r.setting = [])
    (hr : (r.clients i).reports = []) (hp : (r.clients i).posted = []) :
    (r.clients i).mSsState = r.state := by
  have hw := (h i hi).2.2
  rw [lastWord, finalState, ht, hs, hr, hp] at hw
  exact hw

/-- Clients that registered have a callback and read the state once, and the connected ones are
informed. -/
structure Inv (r : StateReports) : Prop where
  callback : ∀ i, (r.clients i).reading = true ∨ (r.clients i).connected = true →
    (r.clients i).callback = true
  apart : ∀ i, (r.clients i).reading = true → (r.clients i).connected = false
  informed : r.Informed

private theorem inv_init : Inv {} where
  callback := by simp
  apart := by simp
  informed := fun i hi ↦ Bool.noConfusion hi

/-! ### The last of a list -/

private theorem getLastD_append_of_ne_nil {a l : List State} (hl : l ≠ []) (m s : State) :
    (a ++ l).getLastD m = l.getLastD s := by
  rw [List.getLastD_eq_getLast?, List.getLastD_eq_getLast?, List.getLast?_append,
    List.getLast?_eq_some_getLast hl]
  rfl

private theorem getLastD_append_cons (a l : List State) (m s : State) :
    (a ++ s :: l).getLastD m = l.getLastD s := by
  rw [getLastD_append_of_ne_nil (List.cons_ne_nil s l) m s, List.getLastD_cons]

private theorem ne_nil_of_getElem? {l : List State} {k : Nat} {s : State} (h : l[k]? = some s) :
    l ≠ [] := by
  rintro rfl
  cases h

/-! ### One step -/

/-- A step that changes one client keeps the invariant if the client does. -/
private theorem inv_modify {r r' : StateReports} (h : r.Inv) {i : Nat} {c : ReportClient}
    (hc : r'.clients = Function.update r.clients i c) (ht : r'.telling = r.telling)
    (hf : r'.finalState = r.finalState)
    (hothers : ∀ j ∈ r.callbacks, j ≠ i → j ∈ r'.callbacks)
    (hback : c.reading = true ∨ c.connected = true → c.callback = true)
    (hapart : c.reading = true → c.connected = false)
    (hinformed : c.connected = true →
      i ∈ r'.callbacks ∧ c.unregistering = 0 ∧ r.lastWord c = r.finalState) : r'.Inv where
  callback := by
    intro j
    rw [hc]
    by_cases hji : j = i
    · subst hji
      rw [Function.update_self]
      exact hback
    · rw [Function.update_of_ne hji]
      exact h.callback j
  apart := by
    intro j
    rw [hc]
    by_cases hji : j = i
    · subst hji
      rw [Function.update_self]
      exact hapart
    · rw [Function.update_of_ne hji]
      exact h.apart j
  informed := by
    intro j
    rw [hc, hf, lastWord, ht]
    by_cases hji : j = i
    · subst hji
      rw [Function.update_self]
      exact hinformed
    · rw [Function.update_of_ne hji]
      intro hj
      obtain ⟨hm, hrest⟩ := h.informed j hj
      exact ⟨hothers j hm hji, hrest⟩

private theorem inv_changeState {r : StateReports} (h : r.Inv) (s : State) :
    Inv { r with telling := r.telling ++ [s], setting := r.setting ++ [s] } where
  callback := h.callback
  apart := h.apart
  informed := by
    intro i hi
    obtain ⟨hm, hu, -⟩ := h.informed i hi
    refine ⟨hm, hu, ?_⟩
    rw [lastWord, finalState, List.getLastD_concat]
    dsimp only
    rw [← List.append_assoc, List.getLastD_concat]

/-- The last word of a callback after a telling. -/
private theorem lastWord_broadcast {r : StateReports} {i k : Nat} {s : State}
    (hm : i ∈ r.callbacks) :
    lastWord { r.broadcast s with telling := r.telling.eraseIdx k } ((r.broadcast s).clients i) =
      (r.telling.eraseIdx k).getLastD s := by
  simp only [lastWord, broadcast, if_pos hm]
  rw [← List.append_assoc, List.append_assoc, List.singleton_append, getLastD_append_cons]

private theorem lastWord_of_getElem? {r : StateReports} {k : Nat} {s : State}
    (hk : r.telling[k]? = some s) (c : ReportClient) : r.lastWord c = r.telling.getLastD s :=
  getLastD_append_of_ne_nil (ne_nil_of_getElem? hk) _ _

private theorem finalState_of_getElem? {r : StateReports} {k : Nat} {s : State}
    (hk : r.setting[k]? = some s) : r.finalState = r.setting.getLastD s :=
  getLastD_append_of_ne_nil (a := []) (ne_nil_of_getElem? hk) _ _

/-- A telling changes nothing but the reports of the callbacks. -/
private theorem clients_broadcast (r : StateReports) (s : State) (i : Nat) :
    ∃ reports, (r.broadcast s).clients i = { r.clients i with reports := reports } := by
  by_cases hm : i ∈ r.callbacks
  · exact ⟨(r.clients i).reports ++ [s], by simp only [broadcast, if_pos hm]⟩
  · exact ⟨(r.clients i).reports, by simp only [broadcast, if_neg hm]⟩

private theorem inv_tell {r : StateReports} (h : r.Inv) {k : Nat} {s : State}
    (hk : r.telling[k]? = some s) (ht : r.Timely (.tell k)) :
    Inv { r.broadcast s with telling := r.telling.eraseIdx k } where
  callback := by
    intro i
    obtain ⟨reports, hc⟩ := clients_broadcast r s i
    dsimp only
    rw [hc]
    exact h.callback i
  apart := by
    intro i
    obtain ⟨reports, hc⟩ := clients_broadcast r s i
    dsimp only
    rw [hc]
    exact h.apart i
  informed := by
    intro i hi
    obtain ⟨reports, hc⟩ := clients_broadcast r s i
    have hcon : (r.clients i).connected = true := by
      dsimp only at hi
      rw [hc] at hi
      exact hi
    obtain ⟨hm, hu, hw⟩ := h.informed i hcon
    refine ⟨hm, ?_, ?_⟩
    · dsimp only
      rw [hc]
      exact hu
    · calc _ = (r.telling.eraseIdx k).getLastD s := lastWord_broadcast hm
        _ = r.telling.getLastD s := ht ⟨i, hcon⟩ s hk
        _ = r.lastWord (r.clients i) := (lastWord_of_getElem? hk _).symm
        _ = r.finalState := hw

private theorem inv_setState {r : StateReports} (h : r.Inv) {k : Nat} {s : State}
    (hk : r.setting[k]? = some s) (ht : r.Timely (.setState k)) :
    Inv { r with state := s, setting := r.setting.eraseIdx k } where
  callback := h.callback
  apart := h.apart
  informed := by
    intro i hi
    obtain ⟨hm, hu, hw⟩ := h.informed i hi
    refine ⟨hm, hu, ?_⟩
    calc _ = r.lastWord (r.clients i) := rfl
      _ = r.finalState := hw
      _ = r.setting.getLastD s := finalState_of_getElem? hk
      _ = (r.setting.eraseIdx k).getLastD s := (ht ⟨i, hi⟩ s hk).symm

/-- A timely step keeps the invariant. -/
private theorem inv_step {r r' : StateReports} {e : Event} (h : r.Inv) (ht : r.Timely e)
    (hs : r.step e = some r') : r'.Inv := by
  cases e with
  | changeState s msg =>
    rw [step] at hs
    split at hs
    · cases hs
      exact h
    · cases hs
      exact inv_changeState h s
  | tell k =>
    obtain ⟨s, hk, rfl⟩ := Option.map_eq_some_iff.mp hs
    exact inv_tell h hk ht
  | setState k =>
    obtain ⟨s, hk, rfl⟩ := Option.map_eq_some_iff.mp hs
    exact inv_setState h hk ht
  | connect i =>
    cases hs
    exact inv_modify h rfl rfl rfl (fun j hj _ ↦ hj) (fun _ ↦ rfl) (h.apart i) (h.informed i)
  | registerCallback i =>
    rw [step] at hs
    dsimp only at hs
    split at hs
    · next hc =>
      cases hs
      refine inv_modify h rfl rfl rfl ?_ (fun _ ↦ hc.1) ?_ ?_
      · exact fun j hj hne ↦ List.mem_cons_of_mem i (by simp [hj, hne])
      · exact fun _ ↦ by simpa using hc.2.2
      · exact fun hcon ↦ absurd hcon hc.2.2
    · cases hs
  | readState i =>
    rw [step] at hs
    split at hs
    · next hr =>
      cases hs
      exact inv_modify h rfl rfl rfl (fun j hj _ ↦ hj) (fun _ ↦ h.callback i (Or.inl hr))
        (by simp) fun _ ↦ ht
    · cases hs
  | arrive i =>
    rw [step] at hs
    split at hs
    · cases hs
    · next s rest hl =>
      cases hs
      refine inv_modify h rfl rfl rfl (fun j hj _ ↦ hj) (h.callback i) (h.apart i) ?_
      intro hcon
      obtain ⟨hm, hu, hw⟩ := h.informed i hcon
      refine ⟨hm, hu, ?_⟩
      rw [← hw, lastWord, lastWord, hl]
      dsimp only
      rw [if_pos (h.callback i (Or.inr hcon))]
      simp only [List.append_assoc, List.cons_append, List.nil_append]
  | stateChanged i =>
    rw [step] at hs
    split at hs
    · cases hs
    · split at hs
      · cases hs
      · next s rest hl =>
        cases hs
        refine inv_modify h rfl rfl rfl (fun j hj _ ↦ hj) (h.callback i) (h.apart i) ?_
        intro hcon
        obtain ⟨hm, hu, hw⟩ := h.informed i hcon
        refine ⟨hm, hu, ?_⟩
        rw [← hw, lastWord, lastWord, hl, List.cons_append, List.cons_append, List.getLastD_cons]
  | disconnect i =>
    rw [step] at hs
    split at hs
    · cases hs
    · next hr =>
      cases hs
      exact inv_modify h rfl rfl rfl (fun j hj _ ↦ hj) (by simp [hr]) (by simp) (by simp)
  | unregisterCallback i =>
    rw [step] at hs
    split at hs
    · cases hs
    · next hu =>
      cases hs
      refine inv_modify h rfl rfl rfl (fun j hj hne ↦ by simp [hj, hne]) (h.callback i)
        (h.apart i) ?_
      -- a connected client has no such call under way
      exact fun hcon ↦ absurd (h.informed i hcon).2.1 hu

/-- A step that is not timely leaves a connected client uninformed. -/
private theorem not_informed_step {r r' : StateReports} {e : Event} (h : r.Inv)
    (ht : ¬ r.Timely e) (hs : r.step e = some r') : ¬ r'.Informed := by
  cases e with
  | tell k =>
    obtain ⟨⟨i, hi⟩, hlast⟩ := Classical.not_imp.mp ht
    obtain ⟨s, hk, rfl⟩ := Option.map_eq_some_iff.mp hs
    obtain ⟨reports, hc⟩ := clients_broadcast r s i
    obtain ⟨hm, -, hw⟩ := h.informed i hi
    intro hinf
    apply hlast
    rintro s' hs'
    obtain rfl : s = s' := Option.some.inj (hk.symm.trans hs')
    have hcon : ((r.broadcast s).clients i).connected = true := by
      rw [hc]
      exact hi
    calc (r.telling.eraseIdx k).getLastD s = _ := (lastWord_broadcast hm).symm
      _ = r.finalState := (hinf i hcon).2.2
      _ = r.lastWord (r.clients i) := hw.symm
      _ = r.telling.getLastD s := lastWord_of_getElem? hk _
  | setState k =>
    obtain ⟨⟨i, hi⟩, hlast⟩ := Classical.not_imp.mp ht
    obtain ⟨s, hk, rfl⟩ := Option.map_eq_some_iff.mp hs
    intro hinf
    apply hlast
    rintro s' hs'
    obtain rfl : s = s' := Option.some.inj (hk.symm.trans hs')
    calc (r.setting.eraseIdx k).getLastD s = r.lastWord (r.clients i) := (hinf i hi).2.2.symm
      _ = r.finalState := (h.informed i hi).2.2
      _ = r.setting.getLastD s := finalState_of_getElem? hk
  | readState i =>
    rw [step] at hs
    split at hs
    · cases hs
      intro hinf
      apply ht
      have hi := hinf i
      simp only [modify, Function.update_self] at hi
      exact hi trivial
    · cases hs
  | _ => exact absurd trivial ht

/-- In every interleaving of the service with its clients, every connected client has, or has under
way, the state that the service comes to, exactly if no change overtakes another while a client is
connected, and every client reads the state as a callback that stays one, neither between the
telling and the setting of a change nor ahead of a report that is out of date. -/
theorem informed_iff_timely (es : List Event) :
    Always step Informed {} es ↔ Along step Timely {} es := by
  apply always_iff_along (J := Inv)
  · exact fun r h ↦ h.informed
  · exact fun r e r' h hc hs ↦ inv_step h hc hs
  · exact fun r e r' h hc hs ↦ not_informed_step h hc hs
  · exact inv_init

end StateReports

end FastSearch.Service
