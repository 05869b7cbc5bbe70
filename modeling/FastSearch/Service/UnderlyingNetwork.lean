import FastSearch.Service.DefaultNetworkListener

/-!
# The network under the tunnel

`bg/VpnService.kt`: each service listens to the default network under its own name, keeps it in
`underlyingNetwork` and passes it on to its tunnel. In `killProcesses` the call
`DefaultNetworkListener.stop(this)` stands in the block of `launch`, where `this` is the coroutine:
the listener of the service stays. The main thread runs one segment at a time; the callbacks of the
connectivity manager may come on another thread, also while `startVpn` builds a tunnel.
-/

namespace FastSearch.Service

open EventSystem

/-- A key of the listeners: a service, or a coroutine that `killProcesses` launched. -/
inductive ListenerKey where
  | service (id : Nat)
  | coroutine (id : Nat)
  deriving DecidableEq, Repr

/-- The fields of `VpnService`, `bg/VpnService.kt:108`; the tunnel `conn` is given by the networks
that it was told to run over, where `none` is null. -/
structure VpnService (Network : Type) where
  active : Bool := false
  metered : Bool := false
  underlyingNetwork : Option Network := none
  conn : Option (Option Network) := none
  deriving DecidableEq, Repr

namespace VpnService

variable {Network : Type} (sdk : Nat)

/-- What `underlyingNetworks` is for a flag and a network, `bg/VpnService.kt:118`. -/
def networksFor (metered : Bool) (network : Option Network) : Option Network :=
  if sdk = 28 ∧ metered then none else network

/-- `underlyingNetworks`. -/
def underlyingNetworks (v : VpnService Network) : Option Network :=
  networksFor sdk v.metered v.underlyingNetwork

/-- The setter of `underlyingNetwork`, `bg/VpnService.kt:113`; without a tunnel
`setUnderlyingNetworks` has nothing to set. -/
def setUnderlyingNetwork (v : VpnService Network) (value : Option Network) : VpnService Network :=
  let v := { v with underlyingNetwork := value }
  if v.active then { v with conn := v.conn.map fun _ ↦ v.underlyingNetworks sdk } else v

@[simp] theorem underlyingNetwork_setUnderlyingNetwork (v : VpnService Network)
    (value : Option Network) : (v.setUnderlyingNetwork sdk value).underlyingNetwork = value := by
  rw [setUnderlyingNetwork]
  dsimp only
  split <;> rfl

/-- The tunnel runs over the networks of the service, which is active then. -/
def Follows (v : VpnService Network) : Prop :=
  ∀ networks, v.conn = some networks → v.active = true ∧ networks = v.underlyingNetworks sdk

variable {sdk} in
theorem Follows.setUnderlyingNetwork {v : VpnService Network} (h : v.Follows sdk)
    (value : Option Network) : (v.setUnderlyingNetwork sdk value).Follows sdk ∧
      (v.setUnderlyingNetwork sdk value).active = v.active ∧
      (v.setUnderlyingNetwork sdk value).conn.isSome = v.conn.isSome := by
  rw [VpnService.setUnderlyingNetwork]
  dsimp only
  split
  · next ha =>
    refine ⟨?_, rfl, by simp⟩
    intro networks hn
    obtain ⟨_, _, rfl⟩ := Option.map_eq_some_iff.mp hn
    exact ⟨ha, rfl⟩
  · next ha =>
    refine ⟨?_, rfl, rfl⟩
    intro networks hn
    exact absurd (h networks hn).1 ha

/-- `startVpn`, `bg/VpnService.kt:207`, up to the call of `establish`. -/
def activate (v : VpnService Network) (metered : Bool) : VpnService Network :=
  { v with metered := metered, active := true }

/-- `killProcesses`, `bg/VpnService.kt:129`, less the coroutine that it launches. -/
def killProcesses (v : VpnService Network) : VpnService Network :=
  { v with active := false, conn := none }

end VpnService

/-- The services of the process and the actor. `started` are the services whose `preInit` is done,
`building` the tunnel under construction with the networks given to its builder, `launched` how
many coroutines `killProcesses` has launched. -/
structure VpnProcess (Network : Type) where
  actor : NetworkActor ListenerKey Nat Network Nat := {}
  services : Nat → VpnService Network := fun _ ↦ {}
  started : List Nat := []
  building : Option (Nat × Option Network) := none
  launched : Nat := 0

/-- What can happen. -/
inductive VpnEvent (Network : Type) where
  /-- `preInit` of a service; `throws` is an exception of the connectivity manager. -/
  | preInit (id : Nat) (throws : Bool)
  /-- `openConnection` of a service, from the thread that flattens the rules. -/
  | openConnection (id request : Nat)
  /-- `startVpn` up to the call of `establish`. -/
  | activate (id : Nat) (metered : Bool)
  /-- `establish` returns, with or without a tunnel. -/
  | establish (connected : Bool)
  | killProcesses (id : Nat)
  /-- The coroutine launched by `killProcesses` runs. -/
  | stop (coroutine : Nat) (throws : Bool)
  | onAvailable (network : Network)
  | onCapabilitiesChanged (network : Network)
  | onLost (network : Network)
  deriving DecidableEq, Repr

namespace VpnProcess

variable {Network : Type} [DecidableEq Network] (sdk : Nat)

/-- A call of the actor to a listener sets `underlyingNetwork` of the service. -/
def hear (services : Nat → VpnService Network) :
    NetworkCall Nat Network Nat → Nat → VpnService Network
  | .listener id network =>
    Function.update services id ((services id).setUnderlyingNetwork sdk network)
  | _ => services

/-- The actor handles a message and makes its calls. -/
def send (p : VpnProcess Network) (m : NetworkMessage ListenerKey Nat Network Nat)
    (throws : Bool) : VpnProcess Network :=
  let actor := p.actor.handle sdk throws m
  { p with
    actor := actor
    services := (actor.calls.drop p.actor.calls.length).foldl (hear sdk) p.services }

/-- A service changes. -/
def modify (p : VpnProcess Network) (id : Nat) (f : VpnService Network → VpnService Network) :
    VpnProcess Network :=
  { p with services := Function.update p.services id (f (p.services id)) }

/-- One step; nothing happens after the actor has failed, which ends the process, and the main
thread does nothing else while it builds a tunnel. -/
def step (p : VpnProcess Network) (e : VpnEvent Network) : Option (VpnProcess Network) :=
  if p.actor.failed then none
  else
    match e with
    | .preInit id throws =>
      if p.building.isSome then none
      else
        let p := p.send sdk (.start (.service id) id) throws
        some (if p.actor.failed then p else { p with started := id :: p.started })
    | .openConnection id request =>
      if id ∉ p.started then none
      else if p.actor.fallback then some p
      else some (p.send sdk (.get request) false)
    | .activate id metered =>
      if p.building.isSome ∨ id ∉ p.started then none
      else
        let p := p.modify id fun v ↦ v.activate metered
        some { p with building := some (id, (p.services id).underlyingNetworks sdk) }
    | .establish connected =>
      match p.building with
      | none => none
      | some (id, networks) =>
        let p := { p with building := none }
        some (if connected then p.modify id fun v ↦ { v with conn := some networks } else p)
    | .killProcesses id =>
      if p.building.isSome then none
      else some { p.modify id VpnService.killProcesses with launched := p.launched + 1 }
    | .stop coroutine throws =>
      if p.building.isSome ∨ ¬ coroutine < p.launched then none
      else some (p.send sdk (.stop (.coroutine coroutine)) throws)
    | .onAvailable network => some (p.send sdk (.put network) false)
    | .onCapabilitiesChanged network => some (p.send sdk (.update network) false)
    | .onLost network => some (p.send sdk (.lost network) false)

/-! ### What the services know -/

/-- The actor serves, every listener is a service's own and knows the network, and every started
service is still listening: the callback was never unregistered. -/
structure Inv (p : VpnProcess Network) : Prop where
  serves : p.actor.Serves
  informed : p.actor.Informed
  view : ∀ id, (p.services id).underlyingNetwork = NetworkActor.told id p.actor.calls
  listening : ∀ id ∈ p.started, p.actor.listeners.get? (.service id) = some id
  own : ∀ key id, p.actor.listeners.get? key = some id → key = .service id
  outside : ∀ id, p.actor.listeners.get? (.service id) = none →
    NetworkActor.told id p.actor.calls = none
  never : NetworkCall.unregisterCalls p.actor.calls = 0

variable {sdk} {p : VpnProcess Network}

omit [DecidableEq Network] in
private theorem inv_start : Inv ({} : VpnProcess Network) where
  serves := ⟨rfl, nofun, fun _ ↦ rfl, Nat.zero_le _⟩
  informed := fun _ _ hl ↦ (nomatch hl)
  view := fun _ ↦ rfl
  listening := fun _ hid ↦ (nomatch hid)
  own := fun _ _ hl ↦ (nomatch hl)
  outside := fun _ _ ↦ rfl
  never := rfl

omit [DecidableEq Network] in
/-- A service that was started knows the default network. -/
private theorem Inv.underlyingNetwork_eq (h : p.Inv) {id : Nat} (hid : id ∈ p.started) :
    (p.services id).underlyingNetwork = p.actor.network :=
  (h.view id).trans (h.informed _ id (h.listening id hid))

omit [DecidableEq Network] in
/-- The calls of the actor reach the services one by one. -/
private theorem underlyingNetwork_foldl_hear (services : Nat → VpnService Network)
    (new : List (NetworkCall Nat Network Nat)) (id : Nat) :
    ((new.foldl (hear sdk) services) id).underlyingNetwork =
      new.foldl (NetworkActor.hear id) (services id).underlyingNetwork := by
  induction new generalizing services with
  | nil => rfl
  | cons c new ih =>
    rw [List.foldl_cons, List.foldl_cons, ih]
    congr 1
    cases c with
    | listener l network =>
      by_cases hl : l = id
      · subst hl
        simp [hear, NetworkActor.hear]
      · simp [hear, NetworkActor.hear, hl, Function.update_of_ne (Ne.symm hl)]
    | _ => rfl

private theorem view_send (hv : ∀ id, (p.services id).underlyingNetwork =
      NetworkActor.told id p.actor.calls)
    {m : NetworkMessage ListenerKey Nat Network Nat} {throws : Bool}
    {new : List (NetworkCall Nat Network Nat)}
    (hc : (p.actor.handle sdk throws m).calls = p.actor.calls ++ new) (id : Nat) :
    ((p.send sdk m throws).services id).underlyingNetwork =
      NetworkActor.told id (p.send sdk m throws).actor.calls := by
  simp only [send, hc, List.drop_left, underlyingNetwork_foldl_hear, NetworkActor.told_append, hv]

omit [DecidableEq Network] in
/-- A service that starts to listen has no network from before: if it is listening it knows that
there is none, and else it has never known one. -/
private theorem bringsFresh_start (h : p.Inv) (id : Nat) (throws : Bool) :
    NetworkActor.BringsFresh sdk p.actor (.start (.service id) id, throws) := by
  intro hn _
  cases hk : p.actor.listeners.get? (.service id) with
  | none => exact h.outside id hk
  | some l =>
    obtain rfl : id = l := by simpa using h.own _ l hk
    rw [h.informed _ _ hk, hn]

private theorem inv_send_start (h : p.Inv) (hf : p.actor.failed = false) (id : Nat)
    (throws : Bool) {q : VpnProcess Network}
    (hq : p.send sdk (.start (.service id) id) throws = q) :
    q.Inv ∧ (q.actor.failed = true ∧ throws = true ∧ 24 ≤ sdk ∧ sdk < 31 ∨
      q.actor.failed = false ∧ q.actor.listeners.get? (.service id) = some id) := by
  subst hq
  obtain ⟨new, hc, hu, ho, hl⟩ := NetworkActor.handle_start hf
    (Eq.refl (p.actor.handle sdk throws (.start (.service id) id)))
  have hget : ∀ key l, (p.actor.handle sdk throws (.start (.service id) id)).listeners.get? key =
      some l → key = .service l := by
    intro key l hk
    rcases hl with ⟨_, hl, _⟩ | ⟨_, hl⟩
    · exact h.own key l (hl ▸ hk)
    · rw [hl, LinkedMap.get?_put] at hk
      split at hk
      · next hkey => rw [hkey, Option.some.inj hk]
      · exact h.own key l hk
  have hold : ∀ id', p.actor.listeners.get? (.service id') = some id' →
      (p.actor.handle sdk throws (.start (.service id) id)).listeners.get? (.service id') =
        some id' := by
    intro id' hid'
    rcases hl with ⟨_, hl, _⟩ | ⟨_, hl⟩
    · rw [hl, hid']
    · rw [hl, LinkedMap.get?_put]
      split
      · next hkey => rw [ListenerKey.service.inj hkey]
      · exact hid'
  constructor
  · exact {
      serves := NetworkActor.serves_handle h.serves hf (.start (.service id) id)
      informed := (NetworkActor.informed_handle h.informed hf (.start (.service id) id)).mpr
        (bringsFresh_start h id throws)
      view := view_send h.view hc
      listening := fun id' hid' ↦ hold id' (h.listening id' hid')
      own := hget
      outside := by
        intro id' hid'
        have hold' : p.actor.listeners.get? (.service id') = none := by
          cases hk : p.actor.listeners.get? (.service id') with
          | none => rfl
          | some l =>
            obtain rfl : id' = l := by simpa using h.own _ l hk
            exact absurd (hid'.symm.trans (hold id' hk)) (by simp)
        change NetworkActor.told id' (p.actor.handle sdk throws _).calls = none
        rw [hc, NetworkActor.told_append, ho id', h.outside id' hold']
        rcases hl with ⟨hfa, _⟩ | ⟨_, hl⟩
        · exact Or.inr hfa
        · refine Or.inl ?_
          rintro rfl
          change (p.actor.handle sdk throws _).listeners.get? _ = none at hid'
          rw [hl, LinkedMap.get?_put_self] at hid'
          cases hid'
      never := by
        change NetworkCall.unregisterCalls (p.actor.handle sdk throws _).calls = 0
        rw [hc, NetworkCall.unregisterCalls_append, hu, h.never] }
  · rcases hl with ⟨hfa, _, hl⟩ | ⟨hfa, hl⟩
    · exact Or.inl ⟨hfa, hl⟩
    · refine Or.inr ⟨hfa, ?_⟩
      change (p.actor.handle sdk throws _).listeners.get? _ = _
      rw [hl, LinkedMap.get?_put_self]

private theorem inv_send_of_listening (sdk : Nat) (throws : Bool) (h : p.Inv)
    (hf : p.actor.failed = false) {m : NetworkMessage ListenerKey Nat Network Nat}
    (hstart : ∀ key l, m ≠ .start key l) (hstop : ∀ key, m ≠ .stop key)
    (hget : ∀ r, m = .get r → p.actor.listeners.isEmpty = false) :
    (p.send sdk m throws).Inv ∧ (p.send sdk m throws).actor.failed = false := by
  obtain ⟨new, hc, hu, ho, hfa, hl⟩ := NetworkActor.handle_of_listening sdk throws hf hstart hstop
    hget
  have hfresh : NetworkActor.BringsFresh sdk p.actor (m, throws) := by
    cases m with
    | start key l => exact absurd rfl (hstart key l)
    | _ => trivial
  refine ⟨?_, hfa⟩
  exact {
    serves := NetworkActor.serves_handle h.serves hf m
    informed := (NetworkActor.informed_handle h.informed hf m).mpr hfresh
    view := view_send h.view hc
    listening := fun id hid ↦ hl ▸ h.listening id hid
    own := fun key id hk ↦ h.own key id (hl ▸ hk)
    outside := by
      intro id hid
      have hnone : p.actor.listeners.get? (.service id) = none := hl ▸ hid
      have hm : id ∉ p.actor.listeners.values := by
        intro hm
        obtain ⟨key, hk⟩ := LinkedMap.mem_values_iff.mp hm
        rw [h.own key id hk, hnone] at hk
        cases hk
      change NetworkActor.told id (p.actor.handle sdk throws m).calls = none
      rw [hc, NetworkActor.told_append, ho id hm]
      exact h.outside id hnone
    never := by
      change NetworkCall.unregisterCalls (p.actor.handle sdk throws m).calls = 0
      rw [hc, NetworkCall.unregisterCalls_append, hu, h.never] }

/-- A stop of a key without a listener changes nothing. -/
private theorem send_stop_of_none {key : ListenerKey} {throws : Bool}
    (h : p.actor.listeners.get? key = none) : p.send sdk (.stop key) throws = p := by
  simp [send, NetworkActor.handle_stop_of_none h]

omit [DecidableEq Network] in
/-- A change of other fields of a service. -/
private theorem inv_modify (h : p.Inv) (id : Nat) {f : VpnService Network → VpnService Network}
    (hu : (f (p.services id)).underlyingNetwork = (p.services id).underlyingNetwork) :
    (p.modify id f).Inv where
  serves := h.serves
  informed := h.informed
  view := by
    intro id'
    by_cases hid : id' = id
    · subst hid
      simp only [modify, Function.update_self, hu]
      exact h.view id'
    · simp only [modify, Function.update_of_ne hid]
      exact h.view id'
  listening := h.listening
  own := h.own
  outside := h.outside
  never := h.never

/-- What a step can be. -/
private theorem step_cases {q : VpnProcess Network} {e : VpnEvent Network}
    (hs : p.step sdk e = some q) : p.actor.failed = false ∧
    ((∃ id throws r, e = .preInit id throws ∧ r = p.send sdk (.start (.service id) id) throws ∧
        q = if r.actor.failed then r else { r with started := id :: r.started }) ∨
      (∃ id request, e = .openConnection id request ∧ id ∈ p.started ∧
        (q = p ∨ q = p.send sdk (.get request) false)) ∨
      (∃ id metered, e = .activate id metered ∧ id ∈ p.started ∧
        q = { p.modify id fun v ↦ v.activate metered with
          building := some (id, ((p.services id).activate metered).underlyingNetworks sdk) }) ∨
      (∃ connected id networks, e = .establish connected ∧ p.building = some (id, networks) ∧
        q = if connected then { p.modify id fun v ↦ { v with conn := some networks } with
          building := none } else { p with building := none }) ∨
      (∃ id, e = .killProcesses id ∧ p.building = none ∧
        q = { p.modify id VpnService.killProcesses with launched := p.launched + 1 }) ∨
      (∃ coroutine throws, e = .stop coroutine throws ∧
        q = p.send sdk (.stop (.coroutine coroutine)) throws) ∨
      (∃ network m, (e = .onAvailable network ∧ m = .put network ∨
          e = .onCapabilitiesChanged network ∧ m = .update network ∨
          e = .onLost network ∧ m = .lost network) ∧ q = p.send sdk m false)) := by
  unfold step at hs
  split at hs
  · cases hs
  · next hf =>
    refine ⟨by simpa using hf, ?_⟩
    cases e with
    | preInit id throws =>
      dsimp only at hs
      split at hs
      · cases hs
      · exact Or.inl ⟨id, throws, _, rfl, rfl, (Option.some.inj hs).symm⟩
    | openConnection id request =>
      dsimp only at hs
      split at hs
      · cases hs
      · next hid =>
        right
        left
        refine ⟨id, request, rfl, by simpa using hid, ?_⟩
        split at hs
        · exact Or.inl (Option.some.inj hs).symm
        · exact Or.inr (Option.some.inj hs).symm
    | activate id metered =>
      dsimp only at hs
      split at hs
      · cases hs
      · next hid =>
        cases hs
        iterate 2 right
        left
        refine ⟨id, metered, rfl, ?_, ?_⟩
        · simpa using (not_or.mp hid).2
        · simp [modify]
    | establish connected =>
      dsimp only at hs
      cases hb : p.building with
      | none =>
        rw [hb] at hs
        cases hs
      | some b =>
        rw [hb] at hs
        cases hs
        iterate 3 right
        exact Or.inl ⟨connected, b.1, b.2, rfl, rfl, rfl⟩
    | killProcesses id =>
      dsimp only at hs
      split at hs
      · cases hs
      · next hb =>
        iterate 4 right
        exact Or.inl ⟨id, rfl, by simpa using hb, (Option.some.inj hs).symm⟩
    | stop coroutine throws =>
      dsimp only at hs
      split at hs
      · cases hs
      · iterate 5 right
        exact Or.inl ⟨coroutine, throws, rfl, (Option.some.inj hs).symm⟩
    | onAvailable network =>
      iterate 6 right
      exact ⟨network, .put network, Or.inl ⟨rfl, rfl⟩, (Option.some.inj hs).symm⟩
    | onCapabilitiesChanged network =>
      iterate 6 right
      exact ⟨network, .update network, Or.inr (Or.inl ⟨rfl, rfl⟩), (Option.some.inj hs).symm⟩
    | onLost network =>
      iterate 6 right
      exact ⟨network, .lost network, Or.inr (Or.inr ⟨rfl, rfl⟩), (Option.some.inj hs).symm⟩

/-- A step keeps the invariant, and the actor fails only at a registration. -/
private theorem inv_step {q : VpnProcess Network} {e : VpnEvent Network} (h : p.Inv)
    (hs : p.step sdk e = some q) :
    q.Inv ∧ (q.actor.failed = true → ∃ id, e = .preInit id true ∧ 24 ≤ sdk ∧ sdk < 31) := by
  obtain ⟨hf, hs⟩ := step_cases hs
  have hno : ∀ {b : Bool} {P : Prop}, b = false → b = true → P := by
    rintro b P rfl hb
    cases hb
  rcases hs with ⟨id, throws, r, rfl, hr, rfl⟩ | ⟨id, request, rfl, hid, rfl | rfl⟩ |
    ⟨id, metered, rfl, -, rfl⟩ | ⟨connected, id, networks, rfl, -, rfl⟩ | ⟨id, rfl, -, rfl⟩ |
    ⟨coroutine, throws, rfl, rfl⟩ | ⟨network, m, hm, rfl⟩
  · obtain ⟨hi, ⟨hfa, rfl, hlo, hhi⟩ | ⟨hfa, hl⟩⟩ := inv_send_start h hf id throws hr.symm
    · rw [if_pos hfa]
      exact ⟨hi, fun _ ↦ ⟨id, rfl, hlo, hhi⟩⟩
    · rw [hfa, if_neg Bool.false_ne_true]
      refine ⟨{ hi with listening := ?_ }, hno hfa⟩
      intro id' hid'
      rcases List.mem_cons.mp hid' with rfl | hid'
      · exact hl
      · exact hi.listening id' hid'
  · exact ⟨h, hno hf⟩
  · -- a service that opens a connection is still listening, so the check passes
    have hne : p.actor.listeners.isEmpty = false := by
      rw [← Bool.not_eq_true, LinkedMap.isEmpty_iff]
      intro hall
      have hl := h.listening id hid
      rw [hall] at hl
      cases hl
    obtain ⟨hi, hfa⟩ := inv_send_of_listening sdk false (m := .get request) h hf nofun nofun
      fun _ _ ↦ hne
    exact ⟨hi, hno hfa⟩
  · exact ⟨{ inv_modify h id (f := fun v ↦ v.activate metered) rfl with }, hno hf⟩
  · cases connected with
    | true =>
      exact ⟨{ inv_modify h id (f := fun v ↦ { v with conn := some networks }) rfl with }, hno hf⟩
    | false => exact ⟨{ h with }, hno hf⟩
  · exact ⟨{ inv_modify h id (f := VpnService.killProcesses) rfl with }, hno hf⟩
  · -- no coroutine is a key of the listeners
    have hnone : p.actor.listeners.get? (.coroutine coroutine) = none := by
      cases hk : p.actor.listeners.get? (.coroutine coroutine) with
      | none => rfl
      | some l => exact absurd (h.own _ l hk) (by simp)
    rw [send_stop_of_none hnone]
    exact ⟨h, hno hf⟩
  · have hm' : (∀ key l, m ≠ .start key l) ∧ (∀ key, m ≠ .stop key) ∧ ∀ r, m ≠ .get r := by
      rcases hm with ⟨_, rfl⟩ | ⟨_, rfl⟩ | ⟨_, rfl⟩ <;> exact ⟨nofun, nofun, nofun⟩
    obtain ⟨hi, hfa⟩ := inv_send_of_listening sdk false h hf hm'.1 hm'.2.1
      fun r hr ↦ absurd hr (hm'.2.2 r)
    exact ⟨hi, hno hfa⟩

/-- In every order of starts, stops and callbacks, over all services of the process: `register` is
called at most once and `unregister` never, every service that was started listens for good, its
`underlyingNetwork` is the default network, and the actor fails only if a registration throws
where nothing catches it. -/
theorem services_listen_always (sdk : Nat) (es : List (VpnEvent Network)) :
    Always (step sdk) (fun p ↦ NetworkCall.unregisterCalls p.actor.calls = 0 ∧
      NetworkCall.registerCalls p.actor.calls ≤ 1 ∧ ∀ id ∈ p.started,
        p.actor.listeners.get? (.service id) = some id ∧
          (p.services id).underlyingNetwork = p.actor.network) {} es ∧
    Throughout (step sdk) (fun _ e q ↦ q.actor.failed = true →
      ∃ id, e = .preInit id true ∧ 24 ≤ sdk ∧ sdk < 31) {} es := by
  have hkeep : ∀ (p : VpnProcess Network) e q, p.Inv → step sdk p e = some q → q.Inv :=
    fun _ _ _ h hs ↦ (inv_step h hs).1
  constructor
  · intro pre p _ hr
    have h := invariant_run hkeep inv_start hr
    have honce := h.serves.once
    rw [h.never] at honce
    refine ⟨h.never, honce, ?_⟩
    intro id hid
    exact ⟨h.listening id hid, h.underlyingNetwork_eq hid⟩
  · intro pre e p q _ hr hs
    exact (inv_step (invariant_run hkeep inv_start hr) hs).2

/-! ### What the tunnels run over -/

/-- A tunnel of a service, or the one under construction, belongs to an active service that was
started, and runs over the networks of the service. -/
structure Tunnels (sdk : Nat) (p : VpnProcess Network) : Prop where
  follows : ∀ id, (p.services id).Follows sdk
  started : ∀ id, (p.services id).conn.isSome = true → id ∈ p.started
  building : ∀ id networks, p.building = some (id, networks) →
    id ∈ p.started ∧ (p.services id).active = true

/-- Every tunnel runs over the default network, or over none where that is hidden. -/
def OverDefault (sdk : Nat) (p : VpnProcess Network) : Prop :=
  ∀ id networks, (p.services id).conn = some networks →
    networks = VpnService.networksFor sdk (p.services id).metered p.actor.network

/-- A tunnel is established over the networks that the service has by then, and a service that has
a tunnel does not change them by starting another. -/
def Timely (sdk : Nat) (p : VpnProcess Network) : VpnEvent Network → Prop
  | .activate id metered => ∀ networks, (p.services id).conn = some networks →
      networks = VpnService.networksFor sdk metered (p.services id).underlyingNetwork
  | .establish true => ∀ id networks, p.building = some (id, networks) →
      networks = (p.services id).underlyingNetworks sdk
  | _ => True

omit [DecidableEq Network] in
private theorem foldl_hear_follows (services : Nat → VpnService Network)
    (h : ∀ id, (services id).Follows sdk) (new : List (NetworkCall Nat Network Nat)) (id : Nat) :
    ((new.foldl (hear sdk) services) id).Follows sdk ∧
      ((new.foldl (hear sdk) services) id).active = (services id).active ∧
      ((new.foldl (hear sdk) services) id).conn.isSome = (services id).conn.isSome := by
  induction new generalizing services with
  | nil => exact ⟨h id, rfl, rfl⟩
  | cons c new ih =>
    have hc : ∀ id, (hear sdk services c id).Follows sdk ∧
        (hear sdk services c id).active = (services id).active ∧
        (hear sdk services c id).conn.isSome = (services id).conn.isSome := by
      intro id
      cases c with
      | listener l network =>
        by_cases hl : id = l
        · subst hl
          simpa [hear] using (h id).setUnderlyingNetwork network
        · simpa [hear, Function.update_of_ne hl] using h id
      | _ => exact ⟨h id, rfl, rfl⟩
    obtain ⟨hf, ha, hs⟩ := ih (hear sdk services c) fun id ↦ (hc id).1
    exact ⟨hf, ha.trans (hc id).2.1, hs.trans (hc id).2.2⟩

private theorem Tunnels.send (h : p.Tunnels sdk) (m : NetworkMessage ListenerKey Nat Network Nat)
    (throws : Bool) : (p.send sdk m throws).Tunnels sdk where
  follows := fun id ↦ (foldl_hear_follows p.services h.follows _ id).1
  started := by
    intro id hid
    apply h.started id
    rw [← (foldl_hear_follows p.services h.follows _ id).2.2]
    exact hid
  building := by
    intro id networks hb
    obtain ⟨hs, ha⟩ := h.building id networks hb
    exact ⟨hs, (foldl_hear_follows p.services h.follows _ id).2.1.trans ha⟩

omit [DecidableEq Network] in
private theorem Tunnels.modify (h : p.Tunnels sdk) {id : Nat}
    {f : VpnService Network → VpnService Network} {building : Option (Nat × Option Network)}
    (hf : (f (p.services id)).Follows sdk)
    (hs : (f (p.services id)).conn.isSome = true → id ∈ p.started)
    (hb : ∀ id' networks, building = some (id', networks) →
      id' ∈ p.started ∧ ((p.modify id f).services id').active = true) :
    Tunnels sdk { p.modify id f with building := building } where
  follows := by
    intro id'
    by_cases hid : id' = id
    · subst hid
      simpa [VpnProcess.modify] using hf
    · simpa [VpnProcess.modify, Function.update_of_ne hid] using h.follows id'
  started := by
    intro id'
    by_cases hid : id' = id
    · subst hid
      simpa [VpnProcess.modify] using hs
    · simpa [VpnProcess.modify, Function.update_of_ne hid] using h.started id'
  building := hb

omit [DecidableEq Network] in
/-- The tunnels of started services run over the default network. -/
private theorem overDefault_of_tunnels (h : p.Inv) (ht : p.Tunnels sdk) : p.OverDefault sdk := by
  intro id networks hc
  rw [(ht.follows id networks hc).2, VpnService.underlyingNetworks,
    h.underlyingNetwork_eq (ht.started id (by simp [hc]))]

/-- A timely step keeps the tunnels. -/
private theorem tunnels_step {q : VpnProcess Network} {e : VpnEvent Network} (h : p.Tunnels sdk)
    (hc : p.Timely sdk e) (hs : p.step sdk e = some q) : q.Tunnels sdk := by
  obtain ⟨_, ⟨id, throws, r, rfl, rfl, rfl⟩ | ⟨id, request, rfl, _, rfl | rfl⟩ |
    ⟨id, metered, rfl, hid, rfl⟩ | ⟨connected, id, networks, rfl, hb, rfl⟩ | ⟨id, rfl, hb, rfl⟩ |
    ⟨coroutine, throws, rfl, rfl⟩ | ⟨network, m, _, rfl⟩⟩ := step_cases hs
  · have hr := h.send (.start (.service id) id) throws
    split
    · exact hr
    · refine ⟨hr.follows, fun id' hid' ↦ List.mem_cons_of_mem _ (hr.started id' hid'), ?_⟩
      intro id' networks hb
      obtain ⟨hs, ha⟩ := hr.building id' networks hb
      exact ⟨List.mem_cons_of_mem _ hs, ha⟩
  · exact h
  · exact h.send _ _
  · apply h.modify
    · intro networks hn
      exact ⟨rfl, hc networks hn⟩
    · exact fun _ ↦ hid
    · intro id' networks hb
      cases hb
      exact ⟨hid, by simp [VpnProcess.modify, VpnService.activate]⟩
  · cases connected with
    | false => exact ⟨h.follows, h.started, nofun⟩
    | true =>
      obtain ⟨hid, ha⟩ := h.building id networks hb
      refine h.modify (f := fun v ↦ { v with conn := some networks }) ?_ (fun _ ↦ hid) nofun
      intro networks' hn
      cases hn
      exact ⟨ha, hc id networks hb⟩
  · have hk : { p.modify id VpnService.killProcesses with building := p.building }.Tunnels sdk :=
      h.modify nofun nofun (by simp [hb])
    exact { hk with }
  · exact h.send _ _
  · exact h.send _ _

/-- A step that is not timely leaves a tunnel over other networks. -/
private theorem not_overDefault_step {q : VpnProcess Network} {e : VpnEvent Network} (h : p.Inv)
    (ht : p.Tunnels sdk) (hc : ¬ p.Timely sdk e) (hs : p.step sdk e = some q) :
    ¬ q.OverDefault sdk := by
  obtain ⟨_, ⟨id, throws, r, rfl, _⟩ | ⟨id, request, rfl, _⟩ | ⟨id, metered, rfl, hid, rfl⟩ |
    ⟨connected, id, networks, rfl, hb, rfl⟩ | ⟨id, rfl, _⟩ | ⟨coroutine, throws, rfl, _⟩ |
    ⟨network, m, hm, _⟩⟩ := step_cases hs
  · exact absurd trivial hc
  · exact absurd trivial hc
  · intro hq
    apply hc
    intro networks hn
    rw [h.underlyingNetwork_eq hid]
    have hq' := hq id networks (by simpa [modify, VpnService.activate] using hn)
    simpa [modify, VpnService.activate] using hq'
  · cases connected with
    | false => exact absurd trivial hc
    | true =>
      intro hq
      apply hc
      intro id' networks' hb'
      rw [hb] at hb'
      cases hb'
      rw [VpnService.underlyingNetworks, h.underlyingNetwork_eq (ht.building id networks hb).1]
      have hq' := hq id networks (by simp [modify])
      simpa [modify] using hq'
  · exact absurd trivial hc
  · exact absurd trivial hc
  · rcases hm with ⟨rfl, _⟩ | ⟨rfl, _⟩ | ⟨rfl, _⟩ <;> exact absurd trivial hc

/-- Every tunnel of the process runs over the current default network (over none on Android 9 if
the profile is metered), throughout a run, exactly if every tunnel is established over the networks
that its service has by then and no service with a tunnel changes them by starting another. -/
theorem tunnels_over_default_iff (sdk : Nat) (es : List (VpnEvent Network)) :
    Always (step sdk) (OverDefault sdk) {} es ↔ Along (step sdk) (Timely sdk) {} es := by
  apply always_iff_along (J := fun p ↦ p.Inv ∧ p.Tunnels sdk)
  · exact fun p h ↦ overDefault_of_tunnels h.1 h.2
  · exact fun p e q h hc hs ↦ ⟨(inv_step h.1 hs).1, tunnels_step h.2 hc hs⟩
  · exact fun p e q h hc hs ↦ not_overDefault_step h.1 h.2 hc hs
  · exact ⟨inv_start, fun _ _ hn ↦ (nomatch hn), nofun, nofun⟩

end VpnProcess

end FastSearch.Service
