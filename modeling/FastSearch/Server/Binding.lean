import FastSearch.Lib.EventSystem
import FastSearch.Lib.Owners

/-!
# The connection to the service and the screens that hold it

`aidl/ShadowsocksConnection.kt` as `server/manager/ServerManager.kt` uses it: the manager is one
object for the whole process, and every `MainActivity` attaches itself when it is created and
detaches when it is destroyed. A screen is its number, and so is the context it passes. An
uncaught exception takes the process with it, and with the process all screens; the counter of
screens goes on. That Android takes back the bindings of a destroyed context is left out. What
the callback does with the reports of the service is the subject of `Main.ShownState`.
-/

namespace FastSearch.Server

open EventSystem

/-- How the remote calls in `onServiceConnected` go: they succeed, `linkToDeath` throws a
`RemoteException`, or `registerCallback` does. -/
inductive Remote where
  | ok
  | linkThrows
  | registerThrows
  deriving DecidableEq, Repr

/-- `ShadowsocksConnection`, `aidl/ShadowsocksConnection.kt:44`. `callback` says whether it is
the server manager or null; `binder` and `service` say whether they are set. `bindings` holds
the contexts through which Android has it bound. -/
structure ShadowsocksConnection where
  connectionActive : Bool := false
  callbackRegistered : Bool := false
  callback : Bool := false
  binder : Bool := false
  service : Bool := false
  bindings : List Nat := []
  deriving DecidableEq, Repr

namespace ShadowsocksConnection

/-- `connect`, `aidl/ShadowsocksConnection.kt:133`; `none` when its `check` throws. -/
def connect (c : ShadowsocksConnection) (context : Nat) : Option ShadowsocksConnection :=
  if c.connectionActive then some c
  else if c.callback then none
  else some { c with
    connectionActive := true
    callback := true
    bindings := c.bindings ++ [context] }

/-- `unregisterCallback`, `aidl/ShadowsocksConnection.kt:125`. -/
def unregisterCallback (c : ShadowsocksConnection) : ShadowsocksConnection :=
  { c with callbackRegistered := false }

/-- `disconnect`, `aidl/ShadowsocksConnection.kt:142`. Unbinding through a context that did not
bind throws, which is ignored. -/
def disconnect (c : ShadowsocksConnection) (context : Nat) : ShadowsocksConnection :=
  let c := c.unregisterCallback
  { c with
    bindings := if c.connectionActive then c.bindings.erase context else c.bindings
    connectionActive := false
    binder := false
    service := false
    callback := false }

/-- `onServiceConnected`, `aidl/ShadowsocksConnection.kt:98`; `none` when its `check` or the
`callback!!` after it throws. -/
def onServiceConnected (c : ShadowsocksConnection) (r : Remote) :
    Option ShadowsocksConnection :=
  let c := { c with binder := true, service := true }
  if r ≠ .linkThrows ∧ c.callbackRegistered then none
  else if c.callback then some { c with callbackRegistered := c.callbackRegistered || r = .ok }
  else none

/-- `onServiceDisconnected`, `aidl/ShadowsocksConnection.kt:112`. -/
def onServiceDisconnected (c : ShadowsocksConnection) : ShadowsocksConnection :=
  { c.unregisterCallback with service := false, binder := false }

/-- `binderDied`, `aidl/ShadowsocksConnection.kt:119`. -/
def binderDied (c : ShadowsocksConnection) : ShadowsocksConnection :=
  { c with service := false, callbackRegistered := false }

end ShadowsocksConnection

/-- The manager's `mContext` and `mSsConnection`, the screens, and the `onBinderDied` calls that
are posted to the main thread. -/
structure Binding where
  screens : Owners := {}
  mContext : Option Nat := none
  mSsConnection : ShadowsocksConnection := {}
  deaths : Nat := 0
  deriving DecidableEq, Repr

namespace Binding

/-- What can happen to the connection. -/
inductive Event where
  /-- `MainActivity.onCreate`. -/
  | create
  /-- `MainActivity.onDestroy`. -/
  | destroy (i : Nat)
  | onServiceConnected (r : Remote)
  | onServiceDisconnected
  /-- The binder thread learns that the service process died. -/
  | binderDied
  /-- The manager is told of it on the main thread. -/
  | onBinderDied
  deriving DecidableEq, Repr

/-- An uncaught exception: a new process will have no screen and no connection. -/
def crash (b : Binding) : Binding := { screens := { b.screens with alive := [] } }

/-- `onBinderDied`, `server/manager/ServerManager.kt:279`. -/
def onBinderDied (b : Binding) : Binding :=
  match b.mContext with
  | some context => { b with mSsConnection := b.mSsConnection.disconnect context }
  | none => b

/-- `attach`, `server/manager/ServerManager.kt:121`, by a new screen. -/
def attach (b : Binding) : Binding :=
  let context := b.screens.created
  let b := { b with screens := b.screens.create, mContext := some context }
  match b.mSsConnection.connect context with
  | some c => { b with mSsConnection := c }
  | none => b.crash

/-- `detach`, `server/manager/ServerManager.kt:127`. -/
def detach (b : Binding) : Binding := { b.onBinderDied with mContext := none }

/-- One step. Android calls back only while the connection is bound. -/
def step (b : Binding) : Event → Option Binding
  | .create => some b.attach
  | .destroy i => (b.screens.destroy i).map fun o ↦ { b.detach with screens := o }
  | .onServiceConnected r =>
    if b.mSsConnection.bindings = [] then none
    else match b.mSsConnection.onServiceConnected r with
      | some c => some { b with mSsConnection := c }
      | none => some b.crash
  | .onServiceDisconnected =>
    if b.mSsConnection.bindings = [] then none
    else some { b with mSsConnection := b.mSsConnection.onServiceDisconnected }
  | .binderDied =>
    some { b with
      mSsConnection := b.mSsConnection.binderDied
      deaths := if b.mSsConnection.callback then b.deaths + 1 else b.deaths }
  | .onBinderDied =>
    match b.deaths with
    | 0 => none
    | n + 1 => some { b.onBinderDied with deaths := n }

/-- The latest screen, while alive, has an active connection that reports to the manager and is
bound through the context that `detach` will unbind it with. -/
def Bound (b : Binding) : Prop :=
  ∀ h, b.screens.Latest h → b.mSsConnection.connectionActive = true ∧
    b.mSsConnection.callback = true ∧
    ∃ context, b.mContext = some context ∧ context ∈ b.mSsConnection.bindings

/-- A screen is created, and the death of the service is told, while no screen is alive. -/
def Apart (b : Binding) : Event → Prop
  | .create | .onBinderDied => b.screens.alive = []
  | _ => True

/-- The connection has no screen and is not bound. -/
structure Free (b : Binding) : Prop where
  screens : b.screens.alive = []
  mContext : b.mContext = none
  active : b.mSsConnection.connectionActive = false
  callback : b.mSsConnection.callback = false
  bindings : b.mSsConnection.bindings = []

/-- The connection belongs to the only screen. -/
structure Held (b : Binding) (h : Nat) : Prop where
  screens : b.screens.Sole h
  mContext : b.mContext = some h
  active : b.mSsConnection.connectionActive = true
  callback : b.mSsConnection.callback = true
  bindings : b.mSsConnection.bindings = [h]

/-- At most one screen, and it holds the connection. -/
def Inv (b : Binding) : Prop := b.Free ∨ ∃ h, b.Held h

theorem Inv.bound {b : Binding} (h : b.Inv) : b.Bound := by
  intro i hi
  rcases h with hf | ⟨k, hk⟩
  · exact False.elim (Owners.not_latest_of_nil hf.screens i hi)
  · exact ⟨hk.active, hk.callback, k, hk.mContext, by simp [hk.bindings]⟩

private theorem free_crash (b : Binding) : b.crash.Free := ⟨rfl, rfl, rfl, rfl, rfl⟩

/-- The only screen goes: the connection is unbound through its own context. -/
private theorem free_detach {b : Binding} {h : Nat} (hb : b.Held h) {o : Owners}
    (ho : o.alive = []) : Free { b.detach with screens := o } := by
  unfold detach onBinderDied
  rw [hb.mContext]
  refine ⟨ho, rfl, rfl, rfl, ?_⟩
  simp [ShadowsocksConnection.disconnect, ShadowsocksConnection.unregisterCallback, hb.active,
    hb.bindings]

/-- The callbacks of Android touch neither the screens nor the binding. -/
private theorem inv_callback {b : Binding} {c : ShadowsocksConnection} {n : Nat} (h : b.Inv)
    (ha : c.connectionActive = b.mSsConnection.connectionActive)
    (hc : c.callback = b.mSsConnection.callback)
    (hb : c.bindings = b.mSsConnection.bindings) :
    Inv { b with mSsConnection := c, deaths := n } := by
  rcases h with hf | ⟨k, hk⟩
  · exact Or.inl ⟨hf.screens, hf.mContext, ha.trans hf.active, hc.trans hf.callback,
      hb.trans hf.bindings⟩
  · exact Or.inr ⟨k, hk.screens, hk.mContext, ha.trans hk.active, hc.trans hk.callback,
      hb.trans hk.bindings⟩

private theorem onServiceConnected_cases {c c' : ShadowsocksConnection} {r : Remote}
    (h : c.onServiceConnected r = some c') : c'.connectionActive = c.connectionActive ∧
      c'.callback = c.callback ∧ c'.bindings = c.bindings := by
  unfold ShadowsocksConnection.onServiceConnected at h
  dsimp only at h
  split at h
  · cases h
  · split at h
    · cases h
      exact ⟨rfl, rfl, rfl⟩
    · cases h

/-- A step of screens that live apart keeps the invariant. -/
theorem inv_step {b b' : Binding} {e : Event} (h : b.Inv) (hc : b.Apart e)
    (hs : b.step e = some b') : b'.Inv := by
  cases e with
  | create =>
    have hf : b.Free := by
      rcases h with hf | ⟨k, hk⟩
      · exact hf
      · have hn : b.screens.alive = [] := hc
        rw [hk.screens.1] at hn
        cases hn
    cases hs
    unfold attach ShadowsocksConnection.connect
    simp only [hf.active, hf.callback, Bool.false_eq_true, if_false]
    exact Or.inr ⟨b.screens.created, Owners.sole_create hf.screens, rfl, rfl, rfl,
      by simp [hf.bindings]⟩
  | destroy i =>
    simp only [step, Option.map_eq_some_iff] at hs
    obtain ⟨o, ho, rfl⟩ := hs
    rcases h with hf | ⟨k, hk⟩
    · rw [Owners.destroy_of_nil hf.screens] at ho
      cases ho
    · exact Or.inl (free_detach hk (hk.screens.destroy ho).2)
  | onServiceConnected r =>
    simp only [step] at hs
    split at hs
    · cases hs
    · split at hs
      · next c hr =>
        cases hs
        obtain ⟨h1, h2, h3⟩ := onServiceConnected_cases hr
        exact inv_callback h h1 h2 h3
      · cases hs
        exact Or.inl (free_crash b)
  | onServiceDisconnected =>
    simp only [step] at hs
    split at hs
    · cases hs
    · cases hs
      exact inv_callback h rfl rfl rfl
  | binderDied =>
    cases hs
    exact inv_callback h rfl rfl rfl
  | onBinderDied =>
    simp only [step] at hs
    split at hs
    · cases hs
    · next n hn =>
      cases hs
      rcases h with hf | ⟨k, hk⟩
      · unfold onBinderDied
        rw [hf.mContext]
        exact Or.inl ⟨hf.screens, hf.mContext, hf.active, hf.callback, hf.bindings⟩
      · have hn : b.screens.alive = [] := hc
        rw [hk.screens.1] at hn
        cases hn

/-- A second screen takes the context over but not the binding; a death that is told to a
living screen closes its connection for good. -/
theorem not_bound_step {b b' : Binding} {e : Event} (h : b.Inv) (hc : ¬ b.Apart e)
    (hs : b.step e = some b') : ¬ b'.Bound := by
  rcases h with hf | ⟨k, hk⟩
  · cases e with
    | create | onBinderDied => exact False.elim (hc hf.screens)
    | destroy | onServiceConnected | onServiceDisconnected | binderDied =>
      exact False.elim (hc trivial)
  · cases e with
    | create =>
      cases hs
      intro hb
      unfold attach ShadowsocksConnection.connect at hb
      simp only [hk.active, if_true] at hb
      obtain ⟨_, _, context, hcx, hm⟩ := hb b.screens.created (Owners.latest_create _)
      cases hcx
      have hm : b.screens.created ∈ b.mSsConnection.bindings := hm
      rw [hk.bindings, List.mem_singleton] at hm
      have hlast := hk.screens.2
      omega
    | onBinderDied =>
      simp only [step] at hs
      split at hs
      · cases hs
      · cases hs
        unfold onBinderDied
        rw [hk.mContext]
        intro hb
        have ha := (hb k ((hk.screens.latest_iff k).mpr rfl)).1
        cases ha
    | destroy | onServiceConnected | onServiceDisconnected | binderDied =>
      exact False.elim (hc trivial)

/-- Throughout a run the latest screen has its connection, exactly if screens are created, and
deaths of the service are told, only while no screen is alive. -/
theorem bound_iff_apart (es : List Event) :
    Always step Bound {} es ↔ Along step Apart {} es := by
  apply always_iff_along (J := Inv)
  · intro b h
    exact h.bound
  · intro b e b' h hc hs
    exact inv_step h hc hs
  · intro b e b' h hc hs
    exact not_bound_step h hc hs
  · exact Or.inl ⟨rfl, rfl, rfl, rfl, rfl⟩

/-- A screen is created before the older one is destroyed, which then closes the connection of
the newer one through a context that never bound it. -/
theorem older_screen_unbinds :
    ¬ Always step Bound {} [.create, .onServiceConnected .ok, .create, .destroy 0] := by
  intro h
  have hs := h.last rfl
  have ha := (hs 1 ⟨by decide, rfl⟩).1
  cases ha

end Binding
end FastSearch.Server
