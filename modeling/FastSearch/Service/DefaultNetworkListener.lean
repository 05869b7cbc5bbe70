import FastSearch.Lib.EventSystem
import FastSearch.Lib.LinkedMap

/-!
# The default network

`net/DefaultNetworkListener.kt`: an actor that keeps the listeners and the current default network
and answers the requests for it. It handles one message after the other, whoever sends them. An
exception in a handler ends the actor, and every later `send` fails.
-/

namespace FastSearch.Service

open EventSystem

universe u

/-- `NetworkMessage`, `net/DefaultNetworkListener.kt:40`. -/
inductive NetworkMessage (Key Listener Network Request : Type u) where
  | start (key : Key) (listener : Listener)
  | get (message : Request)
  | stop (key : Key)
  | put (network : Network)
  | update (network : Network)
  | lost (network : Network)
  deriving DecidableEq

/-- A call that the actor makes; `ok` says that the connectivity manager did not throw. -/
inductive NetworkCall (Listener Network Request : Type u) where
  | register (ok : Bool)
  | unregister (ok : Bool)
  | listener (listener : Listener) (network : Option Network)
  | complete (message : Request) (network : Network)
  deriving DecidableEq

namespace NetworkCall

variable {Listener Network Request : Type u}

/-- The request that the call answers. -/
@[simp] def request? : NetworkCall Listener Network Request → Option Request
  | complete message _ => some message
  | _ => none

/-- A call to register the callback. -/
@[simp] def isRegister : NetworkCall Listener Network Request → Bool
  | register _ => true
  | _ => false

/-- A call to unregister the callback. -/
@[simp] def isUnregister : NetworkCall Listener Network Request → Bool
  | unregister _ => true
  | _ => false

/-- The requests that have been answered, in order. -/
def completed (calls : List (NetworkCall Listener Network Request)) : List Request :=
  calls.filterMap request?

/-- How many calls were made to register the callback, whether they threw or not. -/
def registerCalls (calls : List (NetworkCall Listener Network Request)) : Nat :=
  calls.countP isRegister

/-- How many calls were made to unregister the callback, whether they threw or not. -/
def unregisterCalls (calls : List (NetworkCall Listener Network Request)) : Nat :=
  calls.countP isUnregister

/-- The registrations that the connectivity manager holds after a call, by what it held before: a
call that throws changes nothing. -/
@[simp] def hold (held : Nat) : NetworkCall Listener Network Request → Nat
  | register true => held + 1
  | unregister true => held - 1
  | _ => held

/-- The registrations of the callback that the connectivity manager holds. -/
def registrations (calls : List (NetworkCall Listener Network Request)) : Nat :=
  calls.foldl hold 0

section Lists

variable (calls calls' : List (NetworkCall Listener Network Request))
  (listeners : List Listener) (n : Option Network) (requests : List Request) (network : Network)

@[simp] theorem completed_append :
    completed (calls ++ calls') = completed calls ++ completed calls' :=
  List.filterMap_append

@[simp] theorem completed_singleton (c : NetworkCall Listener Network Request) :
    completed [c] = c.request?.toList := by
  cases c <;> rfl

@[simp] theorem registerCalls_append :
    registerCalls (calls ++ calls') = registerCalls calls + registerCalls calls' :=
  List.countP_append

@[simp] theorem registerCalls_singleton (c : NetworkCall Listener Network Request) :
    registerCalls [c] = c.isRegister.toNat := by
  cases c <;> rfl

@[simp] theorem unregisterCalls_append :
    unregisterCalls (calls ++ calls') = unregisterCalls calls + unregisterCalls calls' :=
  List.countP_append

@[simp] theorem unregisterCalls_singleton (c : NetworkCall Listener Network Request) :
    unregisterCalls [c] = c.isUnregister.toNat := by
  cases c <;> rfl

@[simp] theorem registrations_append :
    registrations (calls ++ calls') = calls'.foldl hold (registrations calls) :=
  List.foldl_append

@[simp] theorem foldl_hold_listener (held : Nat) :
    (listeners.map fun l ↦ (listener l n : NetworkCall Listener Network Request)).foldl hold held =
      held := by
  induction listeners with
  | nil => rfl
  | cons l listeners ih => exact ih

@[simp] theorem foldl_hold_complete (held : Nat) :
    (requests.map fun r ↦ (complete r network : NetworkCall Listener Network Request)).foldl hold
      held = held := by
  induction requests with
  | nil => rfl
  | cons r requests ih => exact ih

/-- Calls to listeners answer no request and register nothing. -/
@[simp] theorem completed_listener :
    completed (listeners.map fun l ↦ (listener l n : NetworkCall Listener Network Request)) =
      [] := by
  simp [completed]

@[simp] theorem registerCalls_listener :
    registerCalls (listeners.map fun l ↦ (listener l n : NetworkCall Listener Network Request)) =
      0 := by
  simp [registerCalls]

@[simp] theorem unregisterCalls_listener :
    unregisterCalls (listeners.map fun l ↦ (listener l n : NetworkCall Listener Network Request)) =
      0 := by
  simp [unregisterCalls]

@[simp] theorem completed_complete :
    completed (requests.map fun r ↦ (complete r network : NetworkCall Listener Network Request)) =
      requests := by
  simp [completed, Function.comp_def]

@[simp] theorem registerCalls_complete :
    registerCalls
      (requests.map fun r ↦ (complete r network : NetworkCall Listener Network Request)) = 0 := by
  simp [registerCalls]

@[simp] theorem unregisterCalls_complete :
    unregisterCalls
      (requests.map fun r ↦ (complete r network : NetworkCall Listener Network Request)) = 0 := by
  simp [unregisterCalls]

end Lists

end NetworkCall

/-- The variables of the actor, `net/DefaultNetworkListener.kt:51`, and `fallback`, with the calls
made so far and the requests accepted so far. -/
structure NetworkActor (Key Listener Network Request : Type u) where
  listeners : LinkedMap Key Listener := ∅
  network : Option Network := none
  pendingRequests : List Request := []
  fallback : Bool := false
  failed : Bool := false
  calls : List (NetworkCall Listener Network Request) := []
  asked : List Request := []

namespace NetworkActor

variable {Key Listener Network Request : Type u}

/-- A call is made. -/
def call (s : NetworkActor Key Listener Network Request)
    (c : NetworkCall Listener Network Request) : NetworkActor Key Listener Network Request :=
  { s with calls := s.calls ++ [c] }

/-- `listeners.values.forEach { it(network) }`. -/
def notifyAll (s : NetworkActor Key Listener Network Request) (network : Option Network) :
    NetworkActor Key Listener Network Request :=
  { s with calls := s.calls ++ s.listeners.values.map fun l ↦ .listener l network }

/-- `register`, `net/DefaultNetworkListener.kt:124`; `throws` is a `RuntimeException` of the
connectivity manager, which only the last branch catches. -/
def register (sdk : Nat) (throws : Bool) (s : NetworkActor Key Listener Network Request) :
    NetworkActor Key Listener Network Request :=
  if 24 ≤ sdk ∧ sdk < 31 then { s.call (.register !throws) with failed := throws }
  else { s.call (.register !throws) with fallback := throws }

/-- `unregister`, `net/DefaultNetworkListener.kt:146`. -/
def unregister (throws : Bool) (s : NetworkActor Key Listener Network Request) :
    NetworkActor Key Listener Network Request :=
  { s.call (.unregister !throws) with failed := throws }

theorem failed_register {sdk : Nat} {throws : Bool}
    {s : NetworkActor Key Listener Network Request} (hf : s.failed = false) :
    (s.register sdk throws).failed = true ↔ throws = true ∧ 24 ≤ sdk ∧ sdk < 31 := by
  rw [register]
  split
  · next hs => simp [hs]
  · next hs => simp [call, hf, hs]

private theorem network_register {sdk : Nat} {throws : Bool}
    {s : NetworkActor Key Listener Network Request} :
    (s.register sdk throws).network = s.network := by
  rw [register]
  split <;> rfl

section Handle

variable [DecidableEq Key] [DecidableEq Network]

/-- The rest of `Start`, after `register`. -/
def add (s : NetworkActor Key Listener Network Request) (key : Key) (listener : Listener) :
    NetworkActor Key Listener Network Request :=
  let s := { s with listeners := s.listeners.put key listener }
  if s.network.isSome then s.call (.listener listener s.network) else s

/-- The body of the loop, `net/DefaultNetworkListener.kt:55`; `throws` says that the connectivity
manager throws if it is called. -/
def handle (sdk : Nat) (throws : Bool) (s : NetworkActor Key Listener Network Request) :
    NetworkMessage Key Listener Network Request → NetworkActor Key Listener Network Request
  | .start key listener =>
    let s := if s.listeners.isEmpty then s.register sdk throws else s
    if s.failed then s else s.add key listener
  | .get message =>
    if s.listeners.isEmpty then { s with failed := true }
    else
      match s.network with
      | none =>
        { s with pendingRequests := s.pendingRequests ++ [message], asked := s.asked ++ [message] }
      | some network => { s.call (.complete message network) with asked := s.asked ++ [message] }
  | .stop key =>
    if (s.listeners.get? key).isSome then
      let s := { s with listeners := s.listeners.remove key }
      if s.listeners.isEmpty then { s with network := none }.unregister throws else s
    else s
  | .put network =>
    { s with
      network := some network
      pendingRequests := []
      calls := s.calls ++ s.pendingRequests.map fun message ↦ NetworkCall.complete message network
      }.notifyAll (some network)
  | .update network => if s.network = some network then s.notifyAll s.network else s
  | .lost network =>
    if s.network = some network then { s with network := none }.notifyAll none else s

/-- One message; a failed actor takes none. -/
def step (sdk : Nat) (s : NetworkActor Key Listener Network Request)
    (e : NetworkMessage Key Listener Network Request × Bool) :
    Option (NetworkActor Key Listener Network Request) :=
  if s.failed then none else some (s.handle sdk e.2 e.1)

end Handle

/-! ### Requests and registrations -/

/-- The actor answers the requests in their order and once each, lets them wait only while it knows
no network, and calls `register` for the first listener and `unregister` after the last. -/
structure Serves (s : NetworkActor Key Listener Network Request) : Prop where
  inOrder : NetworkCall.completed s.calls ++ s.pendingRequests = s.asked
  waits : s.network.isSome = true → s.pendingRequests = []
  called : s.failed = false → NetworkCall.registerCalls s.calls =
    NetworkCall.unregisterCalls s.calls + (!s.listeners.isEmpty).toNat
  once : NetworkCall.registerCalls s.calls ≤ NetworkCall.unregisterCalls s.calls + 1

private theorem serves_of_called {s : NetworkActor Key Listener Network Request}
    (ho : NetworkCall.completed s.calls ++ s.pendingRequests = s.asked)
    (hw : s.network.isSome = true → s.pendingRequests = [])
    (hr : NetworkCall.registerCalls s.calls =
      NetworkCall.unregisterCalls s.calls + (!s.listeners.isEmpty).toNat) : s.Serves where
  inOrder := ho
  waits := hw
  called := fun _ ↦ hr
  once := by
    have hb := Bool.toNat_le (!s.listeners.isEmpty)
    omega

private theorem serves_notifyAll {s : NetworkActor Key Listener Network Request} (h : s.Serves)
    (n : Option Network) : (s.notifyAll n).Serves where
  inOrder := by simpa [notifyAll] using h.inOrder
  waits := h.waits
  called := by simpa [notifyAll] using h.called
  once := by simpa [notifyAll] using h.once

section Serves

variable [DecidableEq Key]

private theorem serves_add {s : NetworkActor Key Listener Network Request}
    (ho : NetworkCall.completed s.calls ++ s.pendingRequests = s.asked)
    (hw : s.network.isSome = true → s.pendingRequests = [])
    (hr : NetworkCall.registerCalls s.calls = NetworkCall.unregisterCalls s.calls + 1) (key : Key)
    (listener : Listener) : (s.add key listener).Serves := by
  rw [add]
  split
  · exact serves_of_called (by simpa [call] using ho) hw (by simp [call, hr])
  · exact serves_of_called ho hw (by simp [hr])

variable [DecidableEq Network]

private theorem serves_start {sdk : Nat} {throws : Bool}
    {s : NetworkActor Key Listener Network Request} (h : s.Serves) (hf : s.failed = false)
    (key : Key) (listener : Listener) : (s.handle sdk throws (.start key listener)).Serves := by
  have ho := h.inOrder
  have hr := h.called hf
  by_cases he : s.listeners.isEmpty
  · have hc : NetworkCall.registerCalls (s.call (.register !throws)).calls =
        NetworkCall.unregisterCalls (s.call (.register !throws)).calls + 1 := by
      simp [call, hr, he]
    have hco : NetworkCall.completed (s.call (.register !throws)).calls ++ s.pendingRequests =
        s.asked := by
      simpa [call] using ho
    simp only [handle, he, if_true, register]
    split
    · -- an exception that is not caught ends the actor, else the listener is added
      cases throws with
      | true => exact ⟨hco, h.waits, nofun, Nat.le_of_eq hc⟩
      | false =>
        exact serves_add (s := { s.call (.register true) with failed := false }) hco h.waits hc
          key listener
    · rw [if_neg]
      · exact serves_add (s := { s.call (.register !throws) with fallback := throws }) hco
          h.waits hc key listener
      · simp [call, hf]
  · simp only [handle, he, if_false, hf, Bool.false_eq_true]
    exact serves_add ho h.waits (by simpa [he] using hr) key listener

omit [DecidableEq Network] in
/-- A key that is found is in a map that is not empty. -/
private theorem isEmpty_of_get? {s : NetworkActor Key Listener Network Request} {key : Key}
    (hk : (s.listeners.get? key).isSome = true) : s.listeners.isEmpty = false := by
  rw [← Bool.not_eq_true, LinkedMap.isEmpty_iff]
  intro hall
  rw [hall key] at hk
  cases hk

private theorem serves_stop {sdk : Nat} {throws : Bool}
    {s : NetworkActor Key Listener Network Request} (h : s.Serves) (hf : s.failed = false)
    (key : Key) : (s.handle sdk throws (.stop key)).Serves := by
  have hr := h.called hf
  rw [handle]
  split
  · next hk =>
    rw [isEmpty_of_get? hk] at hr
    dsimp only
    split
    · next hz =>
      refine serves_of_called ?_ (by simp [unregister, call]) ?_
      · simpa [unregister, call] using h.inOrder
      · simp [unregister, call, hr, hz]
    · next hz => exact serves_of_called h.inOrder h.waits (by simp [hr, hz])
  · exact h

private theorem serves_get {sdk : Nat} {throws : Bool}
    {s : NetworkActor Key Listener Network Request} (h : s.Serves) (hf : s.failed = false)
    (message : Request) : (s.handle sdk throws (.get message)).Serves := by
  have ho := h.inOrder
  have hr := h.called hf
  rw [handle]
  split
  · exact serves_of_called ho h.waits hr
  · cases hn : s.network with
    | none => exact serves_of_called (by simp [← ho]) nofun hr
    | some network =>
      have hp := h.waits (by simp [hn])
      refine serves_of_called ?_ (fun _ ↦ hp) ?_
      · simp [call, ← ho, hp]
      · simpa [call] using hr

/-- Every message keeps the actor serving. -/
theorem serves_handle {sdk : Nat} {throws : Bool}
    {s : NetworkActor Key Listener Network Request} (h : s.Serves) (hf : s.failed = false)
    (m : NetworkMessage Key Listener Network Request) : (s.handle sdk throws m).Serves := by
  cases m with
  | start key listener => exact serves_start h hf key listener
  | get message => exact serves_get h hf message
  | stop key => exact serves_stop h hf key
  | put network =>
    apply serves_notifyAll
    exact serves_of_called (by simp [h.inOrder]) (fun _ ↦ rfl) (by simpa using h.called hf)
  | update network =>
    rw [handle]
    split
    · exact serves_notifyAll h _
    · exact h
  | lost network =>
    rw [handle]
    split
    · apply serves_notifyAll
      exact serves_of_called h.inOrder nofun (h.called hf)
    · exact h

/-- The connectivity manager holds one registration of the callback while there is a listener,
unless `register` caught its exception, and holds none otherwise. Where nothing catches the
exception, `get` never falls back. -/
structure Registered (sdk : Nat) (s : NetworkActor Key Listener Network Request) : Prop where
  fallback : 24 ≤ sdk → sdk < 31 → s.fallback = false
  held : s.failed = false → NetworkCall.registrations s.calls =
    (!s.listeners.isEmpty && !s.fallback).toNat
  once : NetworkCall.registrations s.calls ≤ 1

omit [DecidableEq Key] [DecidableEq Network] in
private theorem registered_of_held {sdk : Nat} {s : NetworkActor Key Listener Network Request}
    (hb : 24 ≤ sdk → sdk < 31 → s.fallback = false)
    (hh : NetworkCall.registrations s.calls = (!s.listeners.isEmpty && !s.fallback).toNat) :
    s.Registered sdk where
  fallback := hb
  held := fun _ ↦ hh
  once := hh ▸ Bool.toNat_le _

omit [DecidableEq Key] [DecidableEq Network] in
private theorem registered_notifyAll {sdk : Nat} {s : NetworkActor Key Listener Network Request}
    (h : s.Registered sdk) (n : Option Network) : (s.notifyAll n).Registered sdk where
  fallback := h.fallback
  held := by simpa [notifyAll] using h.held
  once := by simpa [notifyAll] using h.once

omit [DecidableEq Network] in
private theorem registered_add {sdk : Nat} {s : NetworkActor Key Listener Network Request}
    (hb : 24 ≤ sdk → sdk < 31 → s.fallback = false)
    (hh : NetworkCall.registrations s.calls = (!s.fallback).toNat) (key : Key)
    (listener : Listener) : (s.add key listener).Registered sdk := by
  rw [add]
  split
  · exact registered_of_held hb (by simp [call, hh])
  · exact registered_of_held hb (by simp [hh])

private theorem registered_start {sdk : Nat} {throws : Bool}
    {s : NetworkActor Key Listener Network Request} (h : s.Registered sdk) (hf : s.failed = false)
    (key : Key) (listener : Listener) :
    (s.handle sdk throws (.start key listener)).Registered sdk := by
  have hh := h.held hf
  by_cases he : s.listeners.isEmpty
  · have hzero : NetworkCall.registrations s.calls = 0 := by simp [hh, he]
    have hcall : NetworkCall.registrations (s.call (.register !throws)).calls =
        (!throws).toNat := by
      cases throws <;> simp [call, hzero]
    simp only [handle, he, if_true, register]
    split
    · next hs =>
      have hb := h.fallback hs.1 hs.2
      cases throws with
      | true => exact ⟨h.fallback, nofun, Nat.le_trans (Nat.le_of_eq hcall) (Nat.zero_le 1)⟩
      | false =>
        have hone : (!s.fallback).toNat = 1 := by simp [hb]
        exact registered_add (s := { s.call (.register true) with failed := false }) h.fallback
          (hcall.trans hone.symm) key listener
    · next hs =>
      rw [if_neg (by simp [call, hf])]
      exact registered_add (s := { s.call (.register !throws) with fallback := throws })
        (fun h₁ h₂ ↦ absurd ⟨h₁, h₂⟩ hs) hcall key listener
  · simp only [handle, he, if_false, hf, Bool.false_eq_true]
    exact registered_add h.fallback (by simpa [he] using hh) key listener

private theorem registered_stop {sdk : Nat} {throws : Bool}
    {s : NetworkActor Key Listener Network Request} (h : s.Registered sdk) (hf : s.failed = false)
    (key : Key) : (s.handle sdk throws (.stop key)).Registered sdk := by
  have hh := h.held hf
  rw [handle]
  split
  · next hk =>
    have he := isEmpty_of_get? hk
    dsimp only
    split
    · next hz =>
      cases throws with
      | true => exact ⟨h.fallback, nofun, by simpa [unregister, call] using h.once⟩
      | false =>
        have hone := h.once
        refine registered_of_held h.fallback ?_
        simp only [unregister, call, NetworkCall.registrations_append, List.foldl_cons,
          List.foldl_nil, Bool.not_false, NetworkCall.hold, hz, Bool.not_true, Bool.false_and,
          Bool.toNat_false]
        omega
    · next hz => exact registered_of_held h.fallback (by simp [hh, hz, he])
  · exact h

/-- Every message keeps the registrations in step. -/
private theorem registered_handle {sdk : Nat} {throws : Bool}
    {s : NetworkActor Key Listener Network Request} (h : s.Registered sdk) (hf : s.failed = false)
    (m : NetworkMessage Key Listener Network Request) :
    (s.handle sdk throws m).Registered sdk := by
  have hh := h.held hf
  cases m with
  | start key listener => exact registered_start h hf key listener
  | get message =>
    rw [handle]
    split
    · exact ⟨h.fallback, nofun, h.once⟩
    · cases s.network with
      | none => exact registered_of_held h.fallback hh
      | some network => exact registered_of_held h.fallback (by simpa [call] using hh)
  | stop key => exact registered_stop h hf key
  | put network =>
    apply registered_notifyAll
    exact registered_of_held h.fallback (by simpa using hh)
  | update network =>
    rw [handle]
    split
    · exact registered_notifyAll h _
    · exact h
  | lost network =>
    rw [handle]
    split
    · apply registered_notifyAll
      exact registered_of_held h.fallback hh
    · exact h

/-- In every order of messages, the requests are answered in the order in which they came and once
each and wait only while no network is known; `register` is called for a first listener and
`unregister` after the last; and the callback is registered, once, exactly while there is a
listener and the exception of its registration was not caught. -/
theorem serves_always (sdk : Nat)
    (es : List (NetworkMessage Key Listener Network Request × Bool)) :
    Always (step sdk) (fun s ↦ s.Serves ∧ s.Registered sdk) {} es := by
  refine always_of_along (C := fun _ _ ↦ True) ?_
    ⟨serves_of_called rfl nofun rfl, registered_of_held (fun _ _ ↦ rfl) rfl⟩
    fun _ _ _ _ _ _ ↦ trivial
  rintro s ⟨m, throws⟩ t ⟨h, hr⟩ - hs
  rw [step] at hs
  split at hs
  · cases hs
  · next hf =>
    cases hs
    have hf : s.failed = false := by simpa using hf
    exact ⟨serves_handle h hf m, registered_handle hr hf m⟩

end Serves

/-! ### What the listeners know -/

section Told

variable [DecidableEq Listener]

/-- What a listener knows after a call, by what it knew before. -/
def hear (l : Listener) (known : Option Network) :
    NetworkCall Listener Network Request → Option Network
  | .listener l' network => if l' = l then network else known
  | _ => known

/-- The network that a listener was last called with. -/
def told (l : Listener) (calls : List (NetworkCall Listener Network Request)) : Option Network :=
  calls.foldl (hear l) none

theorem told_append (l : Listener)
    (calls calls' : List (NetworkCall Listener Network Request)) :
    told l (calls ++ calls') = calls'.foldl (hear l) (told l calls) :=
  List.foldl_append

private theorem foldl_hear_listener (l : Listener) (known n : Option Network)
    (listeners : List Listener) :
    (listeners.map fun l' ↦ (.listener l' n : NetworkCall Listener Network Request)).foldl
      (hear l) known = if l ∈ listeners then n else known := by
  induction listeners generalizing known with
  | nil => rfl
  | cons l' listeners ih =>
    rw [List.map_cons, List.foldl_cons, ih, hear]
    by_cases hl : l' = l
    · simp [hl]
    · simp [hl, Ne.symm hl]

private theorem foldl_hear_complete (l : Listener) (known : Option Network) (network : Network)
    (requests : List Request) :
    (requests.map fun r ↦ (.complete r network : NetworkCall Listener Network Request)).foldl
      (hear l) known = known := by
  induction requests with
  | nil => rfl
  | cons r requests ih => exact ih

private theorem told_register {sdk : Nat} {throws : Bool}
    {s : NetworkActor Key Listener Network Request} (l : Listener) :
    told l (s.register sdk throws).calls = told l s.calls := by
  rw [register]
  split <;> simp [call, told_append, hear]

variable [DecidableEq Key]

/-- Every listener was last called with the current network. -/
def Informed (s : NetworkActor Key Listener Network Request) : Prop :=
  ∀ key l, s.listeners.get? key = some l → told l s.calls = s.network

/-- The message brings no listener that still has a network from before while none is known;
a listener whose registration fails is not brought. -/
def BringsFresh (sdk : Nat) (s : NetworkActor Key Listener Network Request) :
    NetworkMessage Key Listener Network Request × Bool → Prop
  | (.start _ l, throws) =>
    s.network = none → ¬ (s.listeners.isEmpty ∧ throws ∧ 24 ≤ sdk ∧ sdk < 31) →
      told l s.calls = none
  | _ => True

private theorem informed_notifyAll (s : NetworkActor Key Listener Network Request) :
    (s.notifyAll s.network).Informed := by
  intro key l hl
  have hm : l ∈ s.listeners.values := LinkedMap.mem_values_iff.mpr ⟨key, hl⟩
  simp only [notifyAll, told_append, foldl_hear_listener, hm, if_true]

private theorem informed_add {s : NetworkActor Key Listener Network Request} (h : s.Informed)
    (key : Key) (l : Listener) :
    (s.add key l).Informed ↔ (s.network = none → told l s.calls = none) := by
  have hget : ∀ key' l', (s.listeners.put key l).get? key' = some l' →
      (key' = key ∧ l' = l) ∨ told l' s.calls = s.network := by
    intro key' l' hl'
    rw [LinkedMap.get?_put] at hl'
    split at hl'
    · next hk => exact Or.inl ⟨hk, (Option.some.inj hl').symm⟩
    · exact Or.inr (h key' l' hl')
  rw [add]
  cases hn : s.network with
  | none =>
    simp only [Option.isSome_none, Bool.false_eq_true, if_false, forall_const]
    constructor
    · intro hi
      simpa [hn] using hi key l (by simp)
    · intro hl key' l' hl'
      rcases hget key' l' hl' with ⟨_, rfl⟩ | ht
      · simpa [hn] using hl
      · simpa [hn] using ht
  | some n =>
    simp only [Option.isSome_some, if_true, reduceCtorEq, false_imp_iff, iff_true]
    intro key' l' hl'
    simp only [call, told_append, List.foldl_cons, List.foldl_nil, hear]
    split
    · rfl
    · next hne =>
      rcases hget key' l' hl' with ⟨_, rfl⟩ | ht
      · exact absurd rfl hne
      · rw [ht, hn]

variable {sdk : Nat} {throws : Bool} {s : NetworkActor Key Listener Network Request}

/-- The same listeners and network, after calls that are not to listeners. -/
private theorem informed_of_calls {t : NetworkActor Key Listener Network Request}
    (h : s.Informed) (hl : t.listeners = s.listeners) (hn : t.network = s.network)
    (hc : ∀ l, told l t.calls = told l s.calls) : t.Informed := by
  intro key l hk
  rw [hc, hn]
  exact h key l (hl ▸ hk)

private theorem informed_register (h : s.Informed) : (s.register sdk throws).Informed := by
  apply informed_of_calls h
  · rw [register]
    split <;> rfl
  · exact network_register
  · exact fun l ↦ told_register l

variable [DecidableEq Network]

private theorem informed_start (h : s.Informed) (hf : s.failed = false) (key : Key)
    (l : Listener) : (s.handle sdk throws (.start key l)).Informed ↔
      BringsFresh sdk s (.start key l, throws) := by
  rw [handle, BringsFresh]
  by_cases he : s.listeners.isEmpty
  · simp only [he, if_true, true_and]
    by_cases hr : (s.register sdk throws).failed
    · rw [if_pos hr]
      exact iff_of_true (informed_register h) fun _ hn ↦ absurd ((failed_register hf).mp hr) hn
    · have hn : ¬ (throws = true ∧ 24 ≤ sdk ∧ sdk < 31) := fun hc ↦ hr ((failed_register hf).mpr hc)
      simp only [hr, hn, not_false_eq_true, forall_const]
      rw [if_neg Bool.false_ne_true, informed_add (informed_register h), network_register,
        told_register]
  · simp [he, hf, informed_add h]

/-- Of the informed states, a message leads to informed ones exactly when it brings no listener
with a network from before. -/
theorem informed_handle (h : s.Informed) (hf : s.failed = false)
    (m : NetworkMessage Key Listener Network Request) :
    (s.handle sdk throws m).Informed ↔ BringsFresh sdk s (m, throws) := by
  cases m with
  | start key l => exact informed_start h hf key l
  | get message =>
    refine iff_of_true ?_ trivial
    rw [handle]
    split
    · exact h
    · cases hn : s.network with
      | none => exact informed_of_calls h rfl hn.symm fun _ ↦ rfl
      | some network =>
        exact informed_of_calls h rfl rfl fun l ↦ by simp [call, told_append, hear]
  | stop key =>
    refine iff_of_true ?_ trivial
    rw [handle]
    split
    · dsimp only
      split
      · next hz =>
        intro key' l hl
        have hnone := LinkedMap.isEmpty_iff.mp hz key'
        exact absurd (hl.symm.trans hnone) (by simp)
      · intro key' l hl
        rw [LinkedMap.get?_remove] at hl
        split at hl
        · cases hl
        · exact h key' l hl
    · exact h
  | put network => exact iff_of_true (informed_notifyAll _) trivial
  | update network =>
    refine iff_of_true ?_ trivial
    rw [handle]
    split
    · exact informed_notifyAll s
    · exact h
  | lost network =>
    refine iff_of_true ?_ trivial
    rw [handle]
    split
    · exact informed_notifyAll { s with network := none }
    · exact h

/-- Every listener was last called with the current network, throughout a run, exactly if no
message of the run brings back a listener that still has a network from before while none is
known: `Start` does not call the listener then. -/
theorem informed_iff_bringsFresh (sdk : Nat)
    (es : List (NetworkMessage Key Listener Network Request × Bool)) :
    Always (step sdk) Informed {} es ↔ Along (step sdk) (BringsFresh sdk) {} es := by
  have hstep : ∀ (s : NetworkActor Key Listener Network Request) e t, s.Informed →
      step sdk s e = some t → (t.Informed ↔ BringsFresh sdk s e) := by
    rintro s ⟨m, throws⟩ t h hs
    rw [step] at hs
    split at hs
    · cases hs
    · next hf =>
      cases hs
      exact informed_handle h (by simpa using hf) m
  apply always_iff_along (J := Informed)
  · exact fun _ h ↦ h
  · exact fun s e t h hc hs ↦ (hstep s e t h hs).mpr hc
  · exact fun s e t h hc hs hq ↦ hc ((hstep s e t h hs).mp hq)
  · exact fun key l hl ↦ (nomatch hl)

/-! ### One message -/

omit [DecidableEq Network] in
/-- `add` takes the listener and calls it alone. -/
private theorem add_eq (key : Key) (l : Listener) :
    ∃ new, (s.add key l).calls = s.calls ++ new ∧ NetworkCall.unregisterCalls new = 0 ∧
      (∀ l' ≠ l, ∀ known, new.foldl (hear l') known = known) ∧
      (s.add key l).failed = s.failed ∧ (s.add key l).listeners = s.listeners.put key l := by
  rw [add]
  dsimp only
  split
  · refine ⟨_, rfl, by simp, ?_, rfl, rfl⟩
    intro l' hl' known
    simp [hear, hl'.symm]
  · exact ⟨[], by simp, rfl, fun _ _ _ ↦ rfl, rfl, rfl⟩

/-- A start appends calls that are to its listener alone and unregister nothing; it takes the
listener, unless an exception of the registration is not caught. -/
theorem handle_start {t : NetworkActor Key Listener Network Request} {key : Key} {l : Listener}
    (hf : s.failed = false) (ht : s.handle sdk throws (.start key l) = t) :
    ∃ new, t.calls = s.calls ++ new ∧ NetworkCall.unregisterCalls new = 0 ∧
      (∀ l', l' ≠ l ∨ t.failed = true → ∀ known, new.foldl (hear l') known = known) ∧
      (t.failed = true ∧ t.listeners = s.listeners ∧ throws = true ∧ 24 ≤ sdk ∧ sdk < 31 ∨
        t.failed = false ∧ t.listeners = s.listeners.put key l) := by
  subst ht
  have hcalls : (s.register sdk throws).calls = s.calls ++ [.register !throws] := by
    rw [register]
    split <;> rfl
  have hlisteners : (s.register sdk throws).listeners = s.listeners := by
    rw [register]
    split <;> rfl
  by_cases he : s.listeners.isEmpty
  · simp only [handle, he, if_true]
    by_cases hr : (s.register sdk throws).failed
    · rw [if_pos hr]
      exact ⟨_, hcalls, rfl, fun _ _ _ ↦ rfl,
        Or.inl ⟨hr, hlisteners, (failed_register hf).mp hr⟩⟩
    · rw [if_neg hr]
      obtain ⟨new, hc, hu, ho, hfa, hl⟩ := add_eq (s := s.register sdk throws) key l
      refine ⟨.register (!throws) :: new, ?_, hu, ?_, Or.inr ⟨?_, ?_⟩⟩
      · rw [hc, hcalls, List.append_assoc]
        rfl
      · rw [hfa]
        exact fun l' hl' ↦ ho l' (hl'.resolve_right hr)
      · rw [hfa]
        simpa using hr
      · rw [hl, hlisteners]
  · simp only [handle, he, hf, if_neg Bool.false_ne_true]
    obtain ⟨new, hc, hu, ho, hfa, hl⟩ := add_eq (s := s) key l
    refine ⟨new, hc, hu, ?_, Or.inr ⟨hfa.trans hf, hl⟩⟩
    rw [hfa, hf]
    exact fun l' hl' ↦ ho l' (hl'.resolve_right Bool.false_ne_true)

/-- A message that is neither a start nor a stop, nor a request without listeners, appends calls
that are to the listeners and unregister nothing. -/
theorem handle_of_listening (sdk : Nat) (throws : Bool) (hf : s.failed = false)
    {m : NetworkMessage Key Listener Network Request} (hstart : ∀ key l, m ≠ .start key l)
    (hstop : ∀ key, m ≠ .stop key) (hget : ∀ r, m = .get r → s.listeners.isEmpty = false) :
    ∃ new, (s.handle sdk throws m).calls = s.calls ++ new ∧ NetworkCall.unregisterCalls new = 0 ∧
      (∀ l ∉ s.listeners.values, ∀ known, new.foldl (hear l) known = known) ∧
      (s.handle sdk throws m).failed = false ∧
      (s.handle sdk throws m).listeners = s.listeners := by
  cases m with
  | start key l => exact absurd rfl (hstart key l)
  | stop key => exact absurd rfl (hstop key)
  | get message =>
    rw [handle, hget message rfl, if_neg Bool.false_ne_true]
    cases hn : s.network with
    | none => exact ⟨[], by simp, rfl, fun _ _ _ ↦ rfl, hf, rfl⟩
    | some network => exact ⟨[.complete message network], rfl, rfl, fun _ _ _ ↦ rfl, hf, rfl⟩
  | put network =>
    refine ⟨_, List.append_assoc _ _ _, by simp, ?_, hf, rfl⟩
    intro l hl known
    rw [List.foldl_append, foldl_hear_complete, foldl_hear_listener, if_neg hl]
  | update network =>
    rw [handle]
    split
    · refine ⟨_, rfl, by simp, ?_, hf, rfl⟩
      intro l hl known
      rw [foldl_hear_listener, if_neg hl]
    · exact ⟨[], by simp, rfl, fun _ _ _ ↦ rfl, hf, rfl⟩
  | lost network =>
    rw [handle]
    split
    · refine ⟨_, rfl, by simp, ?_, hf, rfl⟩
      intro l hl known
      rw [foldl_hear_listener, if_neg hl]
    · exact ⟨[], by simp, rfl, fun _ _ _ ↦ rfl, hf, rfl⟩

omit [DecidableEq Listener] in
/-- A stop of a key without a listener does nothing. -/
theorem handle_stop_of_none {key : Key} (h : s.listeners.get? key = none) :
    s.handle sdk throws (.stop key) = s := by
  rw [handle, h]
  rfl

end Told

end NetworkActor

end FastSearch.Service
