import FastSearch.Service.Lifecycle

/-!
# Connect and disconnect commands

`BaseServerManager.connect`, `disconnect` and `forceDisconnect` against the service process.
A connect launches a background step that stores the profile and sends a start command; a
disconnect sends the close broadcast at once. The two channels are not ordered with respect
to each other. Calls are numbered, and each step or message in flight has the number of the
call it comes from.
-/

namespace FastSearch.Service

open EventSystem

/-- The service is connected, or has a connecting coroutine that nobody cancelled. -/
def Data.Active (d : Data) : Prop := d.state = .connected ∨ ∃ j ∈ d.jobs, j.cancelled = false

namespace Data

/-- Activity is a matter of the phase. -/
theorem In.active_iff {d : Data} {p : Phase} (h : d.In p) : d.Active ↔ p.Active := by
  unfold Active Phase.Active
  cases p with
  | off => simp [h.1, h.2.2.1]
  | connecting =>
    obtain ⟨j, hc, _⟩ := h
    simp [hc.jobs, hc.active]
  | connected => simp [h.1]
  | joining =>
    obtain ⟨hs, _, _, _, hj | ⟨j, hj, _, hc⟩⟩ := h
    · simp [hs, hj]
    · simp [hs, hj, hc]
  | cleaning => simp [h.1, h.2.1]

/-- An active service has its close receiver registered. -/
theorem In.receiver_of_active {d : Data} {p : Phase} (h : d.In p) (ha : p.Active) :
    d.closeReceiverRegistered = true := by
  rcases ha with rfl | rfl
  · obtain ⟨j, hc, _⟩ := h
    exact hc.receiver
  · exact h.2.2.2

end Data

/-- Only a start command makes an inactive phase active. -/
theorem Phase.Step.not_active {p q : Phase} {e : Event} (h : p.Step e q) (hp : ¬ p.Active)
    (he : ∀ prepared profile, e ≠ .startCommand prepared profile) : ¬ q.Active := by
  cases h with
  | stay => exact hp
  | stop => exact p.not_active_stop
  | start profile => exact False.elim (he true profile rfl)
  | established => exact False.elim (hp (Or.inl rfl))
  | joined | cleaned => simp [Phase.Active]

/-- A delivered close broadcast leaves the service inactive. -/
theorem not_active_closeBroadcast {d d' : Data} {p : Phase} (h : d.In p)
    (hs : step d .closeBroadcast = some d') : ¬ d'.Active := by
  simp only [step, Option.some.injEq] at hs
  subst hs
  split
  · rw [(Data.stopRunner_in false h).active_iff]
    exact p.not_active_stop
  · next hr =>
    intro ha
    exact hr (h.receiver_of_active (h.active_iff.mp ha))

/-- The calls on the server manager. -/
inductive Call where
  | connect
  | disconnect
  deriving DecidableEq, Repr

/-- The service with the calls made so far and what they left in flight. -/
structure Commands where
  service : Data := {}
  calls : Nat := 0
  last : Option Call := none
  pendingSteps : List Nat := []
  pendingStarts : List Nat := []
  pendingCloses : List Nat := []
  deriving DecidableEq, Repr

namespace Commands

/-- Calls, deliveries, and segments of the service's own coroutines. -/
inductive Event where
  /-- `connect`, `server/manager/ServerManager.kt:147`. -/
  | connect
  /-- `disconnect`, `server/manager/ServerManager.kt:179`. -/
  | disconnect
  /-- `forceDisconnect`, `server/manager/ServerManager.kt:184`. -/
  | forceDisconnect
  /-- `onConnect` runs: the profile is stored and `Core.startService` called. -/
  | onConnect (call : Nat)
  /-- The start command reaches the service. -/
  | deliverStart (call : Nat) (prepared : Bool) (profile : Option Bool)
  /-- The close broadcast reaches the process. -/
  | deliverClose (call : Nat)
  /-- The service stops by itself. -/
  | stopCall
  /-- A connecting coroutine runs. -/
  | resumeJob (id : Nat) (o : Outcome)
  /-- A clean-up coroutine runs. -/
  | resumeStop (i : Nat)
  deriving DecidableEq, Repr

/-- A new connect call, with its background step launched. -/
def callConnect (w : Commands) : Commands :=
  { w with
    calls := w.calls + 1
    last := some .connect
    pendingSteps := w.pendingSteps ++ [w.calls] }

/-- A new disconnect call, with its broadcast sent. Both variants send the same one. -/
def callDisconnect (w : Commands) : Commands :=
  { w with
    calls := w.calls + 1
    last := some .disconnect
    pendingCloses := w.pendingCloses ++ [w.calls] }

/-- The service takes a step of its own. -/
def stepService (w : Commands) (e : Service.Event) : Option Commands :=
  (Service.step w.service e).map fun d ↦ { w with service := d }

/-- One atomic step; `none` when what it concerns is not in flight. -/
def step (w : Commands) : Event → Option Commands
  | .connect => some w.callConnect
  | .disconnect | .forceDisconnect => some w.callDisconnect
  | .onConnect n =>
    if n ∈ w.pendingSteps then
      some { w with pendingSteps := w.pendingSteps.erase n
                    pendingStarts := w.pendingStarts ++ [n] }
    else none
  | .deliverStart n prepared profile =>
    if n ∈ w.pendingStarts then
      { w with pendingStarts := w.pendingStarts.erase n }.stepService
        (.startCommand prepared profile)
    else none
  | .deliverClose n =>
    if n ∈ w.pendingCloses then
      { w with pendingCloses := w.pendingCloses.erase n }.stepService .closeBroadcast
    else none
  | .stopCall => w.stepService .stopCall
  | .resumeJob id o => w.stepService (.resumeJob id o)
  | .resumeStop i => w.stepService (.resumeStop i)

/-- No background step, start command or close broadcast is outstanding. -/
def Quiet (w : Commands) : Prop :=
  w.pendingSteps = [] ∧ w.pendingStarts = [] ∧ w.pendingCloses = []

/-- In a quiet state the service is connecting or connected only after a connect call. -/
def LastWins (w : Commands) : Prop := w.Quiet → w.service.Active → w.last = some .connect

/-- The close broadcast of a call is delivered after the start of every earlier connect call,
and no start command is accepted while a coroutine is connecting. -/
def Ordered (w : Commands) : Event → Prop
  | .deliverStart _ prepared profile =>
    StartsAlone w.service (.startCommand prepared profile)
  | .deliverClose n => ∀ m ∈ w.pendingSteps ++ w.pendingStarts, n < m
  | _ => True

/-! ### The invariant -/

/-- Nothing is left that could start the service. -/
def Quenched (w : Commands) : Prop :=
  w.pendingSteps = [] ∧ w.pendingStarts = [] ∧ ¬ w.service.Active

/-- The last call was a disconnect whose broadcast is still in flight, and all that could
start the service comes from earlier calls. -/
def Closing (w : Commands) : Prop :=
  ∃ n ∈ w.pendingCloses, w.calls = n + 1 ∧ ∀ m ∈ w.pendingSteps ++ w.pendingStarts, m < n

/-- The service follows its life cycle, and unless the last call was a connect the service is
out of reach or about to be closed. -/
structure Inv (w : Commands) : Prop where
  phase : ∃ p, w.service.In p
  dropped : w.service.NothingDropped
  numbered : ∀ m ∈ w.pendingSteps ++ w.pendingStarts, m < w.calls
  settled : w.last ≠ some .connect → w.Quenched ∨ w.Closing

/-- Before any call. -/
theorem inv_init : Inv {} where
  phase := ⟨.off, in_off_init⟩
  dropped := ⟨rfl, rfl, rfl⟩
  numbered := by simp
  settled := by
    intro _
    refine Or.inl ⟨rfl, rfl, ?_⟩
    rw [in_off_init.active_iff]
    simp [Phase.Active]

/-- The invariant gives the property. -/
theorem Inv.lastWins {w : Commands} (h : w.Inv) : w.LastWins := by
  intro hq ha
  apply Classical.byContradiction
  intro hl
  rcases h.settled hl with hs | ⟨n, hn, _⟩
  · exact hs.2.2 ha
  · rw [hq.2.2] at hn
    cases hn

private theorem inv_connect {w : Commands} (h : w.Inv) : w.callConnect.Inv where
  phase := h.phase
  dropped := h.dropped
  numbered := by
    intro m hm
    have hc : m ∈ w.pendingSteps ++ w.pendingStarts ∨ m = w.calls := by
      simpa [callConnect, or_assoc, or_comm, or_left_comm] using hm
    change m < w.calls + 1
    rcases hc with hm | rfl
    · exact Nat.lt_succ_of_lt (h.numbered m hm)
    · exact Nat.lt_succ_self _
  settled := by
    intro hl
    exact False.elim (hl rfl)

private theorem inv_disconnect {w : Commands} (h : w.Inv) : w.callDisconnect.Inv where
  phase := h.phase
  dropped := h.dropped
  numbered := by
    intro m hm
    exact Nat.lt_succ_of_lt (h.numbered m hm)
  settled := by
    intro _
    exact Or.inr ⟨w.calls, by simp [callDisconnect], rfl, h.numbered⟩

private theorem mem_steps_move {steps starts : List Nat} {n m : Nat} (hn : n ∈ steps)
    (hm : m ∈ steps.erase n ++ (starts ++ [n])) : m ∈ steps ++ starts := by
  rcases List.mem_append.mp hm with hm | hm
  · exact List.mem_append_left _ (List.mem_of_mem_erase hm)
  · rcases List.mem_append.mp hm with hm | hm
    · exact List.mem_append_right _ hm
    · rw [List.mem_singleton.mp hm]
      exact List.mem_append_left _ hn

private theorem inv_onConnect {w : Commands} {n : Nat} (h : w.Inv) (hn : n ∈ w.pendingSteps) :
    Inv { w with pendingSteps := w.pendingSteps.erase n
                 pendingStarts := w.pendingStarts ++ [n] } where
  phase := h.phase
  dropped := h.dropped
  numbered := by
    intro m hm
    exact h.numbered m (mem_steps_move hn hm)
  settled := by
    intro hl
    rcases h.settled hl with hs | ⟨k, hk, hc, hlt⟩
    · rw [hs.1] at hn
      cases hn
    · refine Or.inr ⟨k, hk, hc, ?_⟩
      intro m hm
      exact hlt m (mem_steps_move hn hm)

/-- A service step that is not a start, with nothing else in flight changed. -/
private theorem inv_stepService {w w' : Commands} {e : Service.Event} (h : w.Inv)
    (ha : StartsAlone w.service e) (he : ∀ prepared profile, e ≠ .startCommand prepared profile)
    (hs : w.stepService e = some w') : w'.Inv := by
  simp only [stepService, Option.map_eq_some_iff] at hs
  obtain ⟨d, hd, rfl⟩ := hs
  obtain ⟨p, hp⟩ := h.phase
  obtain ⟨⟨q, hpq, hq⟩, hn⟩ := step_follows hp h.dropped ha hd
  refine ⟨⟨q, hq⟩, hn, h.numbered, ?_⟩
  intro hl
  rcases h.settled hl with ⟨h1, h2, h3⟩ | hc
  · refine Or.inl ⟨h1, h2, ?_⟩
    rw [hp.active_iff] at h3
    rw [hq.active_iff]
    exact hpq.not_active h3 he
  · exact Or.inr hc

private theorem inv_deliverStart {w w' : Commands} {n : Nat} {prepared : Bool}
    {profile : Option Bool} (h : w.Inv) (hn : n ∈ w.pendingStarts)
    (ha : StartsAlone w.service (.startCommand prepared profile))
    (hs : { w with pendingStarts := w.pendingStarts.erase n }.stepService
      (.startCommand prepared profile) = some w') : w'.Inv := by
  simp only [stepService, Option.map_eq_some_iff] at hs
  obtain ⟨d, hd, rfl⟩ := hs
  obtain ⟨p, hp⟩ := h.phase
  obtain ⟨⟨q, _, hq⟩, hdr⟩ := step_follows hp h.dropped ha hd
  have hsub : ∀ m ∈ w.pendingSteps ++ w.pendingStarts.erase n,
      m ∈ w.pendingSteps ++ w.pendingStarts := by
    intro m hm
    rcases List.mem_append.mp hm with hm | hm
    · exact List.mem_append_left _ hm
    · exact List.mem_append_right _ (List.mem_of_mem_erase hm)
  refine ⟨⟨q, hq⟩, hdr, fun m hm ↦ h.numbered m (hsub m hm), ?_⟩
  intro hl
  rcases h.settled hl with ⟨_, h2, _⟩ | ⟨k, hk, hc, hlt⟩
  · rw [h2] at hn
    cases hn
  · exact Or.inr ⟨k, hk, hc, fun m hm ↦ hlt m (hsub m hm)⟩

private theorem inv_deliverClose {w w' : Commands} {n : Nat} (h : w.Inv)
    (ho : ∀ m ∈ w.pendingSteps ++ w.pendingStarts, n < m)
    (hs : { w with pendingCloses := w.pendingCloses.erase n }.stepService .closeBroadcast =
      some w') : w'.Inv := by
  simp only [stepService, Option.map_eq_some_iff] at hs
  obtain ⟨d, hd, rfl⟩ := hs
  obtain ⟨p, hp⟩ := h.phase
  obtain ⟨⟨q, _, hq⟩, hdr⟩ := step_follows (e := .closeBroadcast) hp h.dropped trivial hd
  have hna : ¬ d.Active := not_active_closeBroadcast hp hd
  refine ⟨⟨q, hq⟩, hdr, h.numbered, ?_⟩
  intro hl
  rcases h.settled hl with ⟨h1, h2, _⟩ | ⟨k, hk, hc, hlt⟩
  · exact Or.inl ⟨h1, h2, hna⟩
  · by_cases hkn : k = n
    · -- the broadcast of the last call: everything in flight would lie on both sides of it
      subst hkn
      have he : w.pendingSteps ++ w.pendingStarts = [] := by
        apply List.eq_nil_iff_forall_not_mem.mpr
        intro m hm
        exact Nat.lt_asymm (ho m hm) (hlt m hm)
      obtain ⟨h1, h2⟩ := List.append_eq_nil_iff.mp he
      exact Or.inl ⟨h1, h2, hna⟩
    · exact Or.inr ⟨k, (List.mem_erase_of_ne hkn).mpr hk, hc, hlt⟩

/-- Every step that meets the condition keeps the invariant. -/
theorem inv_step {w w' : Commands} {e : Event} (h : w.Inv) (ho : w.Ordered e)
    (hs : w.step e = some w') : w'.Inv := by
  cases e with
  | connect =>
    cases hs
    exact inv_connect h
  | disconnect | forceDisconnect =>
    cases hs
    exact inv_disconnect h
  | onConnect n =>
    simp only [step] at hs
    split at hs
    · next hn =>
      cases hs
      exact inv_onConnect h hn
    · cases hs
  | deliverStart n prepared profile =>
    simp only [step] at hs
    split at hs
    · next hn => exact inv_deliverStart h hn ho hs
    · cases hs
  | deliverClose n =>
    simp only [step] at hs
    split at hs
    · exact inv_deliverClose h ho hs
    · cases hs
  | stopCall => exact inv_stepService (e := .stopCall) h trivial (by simp) hs
  | resumeJob id o => exact inv_stepService (e := .resumeJob id o) h trivial (by simp) hs
  | resumeStop i => exact inv_stepService (e := .resumeStop i) h trivial (by simp) hs

/-- In every run in which each close broadcast is delivered after the starts of the connect
calls before it and no start is accepted while another is connecting, the last command wins
in every state. -/
theorem lastWins_of_ordered (es : List Event) (h : Along step Ordered {} es) :
    Always step LastWins {} es :=
  (always_of_along (fun _ _ _ hw ho hs ↦ inv_step hw ho hs) inv_init h).imp
    fun _ hw ↦ hw.lastWins

/-- A connect and a disconnect delivered in order leave the service inactive. -/
theorem lastWins_in_order :
    Along step Ordered {} [.connect, .onConnect 0, .deliverStart 0 true (some false),
        .disconnect, .deliverClose 1] ∧
      Always step LastWins {} [.connect, .onConnect 0, .deliverStart 0 true (some false),
        .disconnect, .deliverClose 1] := by
  have h : Along step Ordered {} [.connect, .onConnect 0,
      .deliverStart 0 true (some false), .disconnect, .deliverClose 1] := by
    repeat
      refine .cons rfl ?_ ?_
      · simp [Ordered, StartsAlone, callConnect, callDisconnect]
    exact along_nil step
  exact ⟨h, lastWins_of_ordered _ h⟩

/-- A disconnect overtakes the background step of the connect before it: its broadcast finds
no receiver, and the start that follows leaves the service connecting. -/
theorem disconnect_overtakes :
    ¬ Always step LastWins {} [.connect, .disconnect, .deliverClose 1, .onConnect 0,
      .deliverStart 0 true (some false)] := by
  intro h
  have hs := h.last rfl
  have hl := hs ⟨rfl, rfl, rfl⟩ (Or.inr ⟨_, List.mem_cons_self, rfl⟩)
  cases hl

end Commands
end FastSearch.Service
