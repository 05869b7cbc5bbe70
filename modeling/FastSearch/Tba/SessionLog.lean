import FastSearch.Tba.InstallLog

/-!
# Delivering the session event

`tbalog/TbaManager.kt`, from one call of `postSessionEvent` on. The call starts a coroutine,
the coroutine sends a request, and a failed request is sent again after a delay, or started
anew after the last retry. A request that fails without a network waits for it and then calls
`postInstaller`, which posts no session. The run ends neither with the process nor with a
second session, and what the coroutine reads before it sends the log is there.
-/

namespace FastSearch.Tba

open EventSystem

namespace Sessions

/-- The coroutines, requests and retries of the session log together. -/
def underWay (s : Sessions) : Nat := s.starting + s.requests.length + s.retries.length

/-- A session post is in flight or scheduled. -/
def Pending (s : Sessions) : Prop := 0 < s.starting ∨ s.requests ≠ [] ∨ s.retries ≠ []

theorem pending_iff (s : Sessions) : s.Pending ↔ 0 < s.underWay := by
  simp only [Pending, underWay, ← List.length_pos_iff]
  omega

end Sessions

/-- `TbaManager` and whether the server has answered the session event. -/
structure SessionLog where
  tba : TbaManager
  responded : Bool := false
  deriving DecidableEq, Repr

namespace SessionLog

open TbaManager (Event)

/-- The session event has just been posted, whatever else is under way. -/
def start (s : TbaManager) : SessionLog where
  tba := { s with sessions := {} }.postSessionEvent

/-- The step of `TbaManager`, for the events of one session. -/
def step (s : SessionLog) : Event → Option SessionLog
  | .tbaInit | .kill => none
  | .onSessionResponse i code networkIsAvailable =>
    (s.tba.step (.onSessionResponse i code networkIsAvailable)).map (⟨·, true⟩)
  | e => (s.tba.step e).map (⟨·, s.responded⟩)

/-- As long as the event has not been answered, a session post is under way. -/
def NotDropped (s : SessionLog) : Prop := s.responded = false → s.tba.sessions.Pending

/-- A session request that fails before the first answer finds the network available. -/
def FailsOnline (s : SessionLog) : Event → Prop
  | .onSessionFailure _ networkIsAvailable => s.responded = false → networkIsAvailable = true
  | _ => True

/-! ### One session post at a time -/

/-- Before the first answer exactly one thing is under way for the event. -/
def OneUnderWay (s : SessionLog) : Prop := s.responded = false → s.tba.sessions.underWay = 1

theorem OneUnderWay.notDropped {s : SessionLog} (h : s.OneUnderWay) : s.NotDropped := by
  intro hr
  have hu : s.tba.sessions.underWay = 1 := h hr
  rw [Sessions.pending_iff, hu]
  exact Nat.one_pos

end SessionLog

namespace TbaManager

@[simp] theorem sessions_postInstaller (s : TbaManager) :
    s.postInstaller.sessions = s.sessions := by
  unfold postInstaller
  split <;> rfl

@[simp] theorem sessions_onInstallReferrerSetupFinished (s : TbaManager) (late : Bool)
    (setup : Setup) : (s.onInstallReferrerSetupFinished late setup).sessions = s.sessions := by
  cases setup with
  | ok response endThrows => cases endThrows <;> rfl
  | okThrows => rfl
  | other endThrows => cases endThrows <;> rfl

@[simp] theorem sessions_onFailure (s : TbaManager) (r : InstallRequest)
    (networkIsAvailable : Bool) :
    (s.onFailure r networkIsAvailable).sessions = s.sessions := by
  unfold onFailure
  split
  · split <;> rfl
  · rfl

@[simp] theorem sessions_onResponse (s : TbaManager) (r : InstallRequest) (code : Nat) :
    (s.onResponse r code).sessions = s.sessions := by
  unfold onResponse
  split <;> rfl

/-- With a network a failed request leaves one more thing under way, without one nothing. -/
theorem underWay_onSessionFailure (s : TbaManager) (retryNum : Nat) (networkIsAvailable : Bool) :
    (s.onSessionFailure retryNum networkIsAvailable).sessions.underWay =
      s.sessions.underWay + if networkIsAvailable then 1 else 0 := by
  unfold onSessionFailure
  cases networkIsAvailable with
  | false => rfl
  | true =>
    by_cases hn : retryNum < maxRetry
    · simp [hn, Sessions.underWay]
      omega
    · simp [hn, Sessions.underWay, postSessionEvent]
      omega

end TbaManager

namespace Sessions

/-- An element that leaves a list of requests is one thing less under way. -/
theorem underWay_eraseRequest {s : Sessions} {i n : Nat} (h : s.requests[i]? = some n) :
    underWay { s with requests := s.requests.eraseIdx i } + 1 = s.underWay := by
  obtain ⟨hi, _⟩ := List.getElem?_eq_some_iff.mp h
  simp only [underWay, List.length_eraseIdx_of_lt hi]
  omega

theorem underWay_eraseRetry {s : Sessions} {i n : Nat} (h : s.retries[i]? = some n) :
    underWay { s with retries := s.retries.eraseIdx i } + 1 = s.underWay := by
  obtain ⟨hi, _⟩ := List.getElem?_eq_some_iff.mp h
  simp only [underWay, List.length_eraseIdx_of_lt hi]
  omega

end Sessions

namespace SessionLog

open TbaManager

/-- What a step does to what is under way for the event: a failure without a network takes it
away, and only an answer settles it. -/
def Moves (s : SessionLog) (e : Event) (t : SessionLog) : Prop :=
  match e with
  | .onSessionFailure _ networkIsAvailable =>
    t.responded = s.responded ∧
      t.tba.sessions.underWay + 1 =
        s.tba.sessions.underWay + if networkIsAvailable then 1 else 0
  | .onSessionResponse .. => t.responded = true
  | _ => t.responded = s.responded ∧ t.tba.sessions.underWay = s.tba.sessions.underWay

theorem moves_step {s t : SessionLog} {e : Event} (hs : s.step e = some t) : s.Moves e t := by
  cases e with
  | tbaInit => cases hs
  | kill => cases hs
  | setupFinished i setup =>
    simp only [step, TbaManager.step, Option.map_map, Option.map_eq_some_iff] at hs
    obtain ⟨late, _, rfl⟩ := hs
    exact ⟨rfl, by simp⟩
  | send i =>
    simp only [step, TbaManager.step, Option.map_map, Option.map_eq_some_iff] at hs
    obtain ⟨l, _, rfl⟩ := hs
    exact ⟨rfl, rfl⟩
  | onFailure i networkIsAvailable =>
    simp only [step, TbaManager.step, Option.map_map, Option.map_eq_some_iff] at hs
    obtain ⟨r, _, rfl⟩ := hs
    exact ⟨rfl, by simp⟩
  | onResponse i code =>
    simp only [step, TbaManager.step, Option.map_map, Option.map_eq_some_iff] at hs
    obtain ⟨r, _, rfl⟩ := hs
    exact ⟨rfl, by simp⟩
  | retry i =>
    simp only [step, TbaManager.step, Option.map_map, Option.map_eq_some_iff] at hs
    obtain ⟨r, _, rfl⟩ := hs
    exact ⟨rfl, rfl⟩
  | call =>
    simp only [step, TbaManager.step, Option.map_eq_some_iff] at hs
    obtain ⟨u, hu, rfl⟩ := hs
    split at hu
    · cases hu
    · cases hu
      exact ⟨rfl, by simp⟩
  | sendSession =>
    simp only [step, TbaManager.step, Option.map_eq_some_iff] at hs
    obtain ⟨u, hu, rfl⟩ := hs
    split at hu
    · cases hu
    · next hn =>
      cases hu
      refine ⟨rfl, ?_⟩
      simp only [Sessions.underWay, postSessionLog, List.length_append, List.length_singleton]
      omega
  | onSessionFailure i networkIsAvailable =>
    simp only [step, TbaManager.step, Option.map_map, Option.map_eq_some_iff] at hs
    obtain ⟨n, hn, rfl⟩ := hs
    refine ⟨rfl, ?_⟩
    rw [Function.comp_apply, underWay_onSessionFailure, ← Sessions.underWay_eraseRequest hn]
    exact Nat.add_right_comm _ _ _
  | onSessionResponse i code networkIsAvailable =>
    simp only [step, TbaManager.step, Option.map_map, Option.map_eq_some_iff] at hs
    obtain ⟨n, _, rfl⟩ := hs
    rfl
  | retrySession i =>
    simp only [step, TbaManager.step, Option.map_map, Option.map_eq_some_iff] at hs
    obtain ⟨n, hn, rfl⟩ := hs
    have he := Sessions.underWay_eraseRetry hn
    refine ⟨rfl, ?_⟩
    simp only [Sessions.underWay, Function.comp_apply, postSessionLog, List.length_append,
      List.length_singleton] at he ⊢
    omega

/-- A step whose session request does not fail offline keeps one thing under way. -/
theorem oneUnderWay_step {s t : SessionLog} {e : Event} (h : s.OneUnderWay) (hc : s.FailsOnline e)
    (hs : s.step e = some t) : t.OneUnderWay := by
  have hm : s.Moves e t := moves_step hs
  intro hr
  cases e with
  | onSessionFailure i networkIsAvailable =>
    obtain ⟨hre, hu⟩ := hm
    rw [hre] at hr
    rw [hc hr, if_pos rfl, h hr] at hu
    omega
  | onSessionResponse i code networkIsAvailable =>
    rw [show t.responded = true from hm] at hr
    cases hr
  | _ => exact hm.2.trans (h (hm.1 ▸ hr))

/-- A session request that fails offline before the first answer is the last thing under way. -/
theorem dropped_of_failsOffline {s t : SessionLog} {e : Event} (h : s.OneUnderWay)
    (hc : ¬ s.FailsOnline e) (hs : s.step e = some t) : ¬ t.NotDropped := by
  have hm : s.Moves e t := moves_step hs
  cases e with
  | onSessionFailure i networkIsAvailable =>
    obtain ⟨hr, hn⟩ := Classical.not_imp.mp hc
    obtain ⟨hre, hu⟩ := hm
    intro hd
    have hp : 0 < t.tba.sessions.underWay := (Sessions.pending_iff _).mp (hd (hre.trans hr))
    rw [if_neg hn, h hr] at hu
    omega
  | _ => exact absurd trivial hc

/-- From the post of the session event on, a session post stays under way until the server
answers exactly when no session request fails without a network before the first answer. -/
theorem notDropped_iff_failsOnline (s : TbaManager) (es : List Event) :
    Always step NotDropped (start s) es ↔ Along step FailsOnline (start s) es := by
  have hi : (start s).OneUnderWay := fun _ ↦ rfl
  exact always_iff_along (fun _ h ↦ h.notDropped) (fun _ _ _ h hc hs ↦ oneUnderWay_step h hc hs)
    (fun _ _ _ h hc hs ↦ dropped_of_failsOffline h hc hs) hi

/-- The first request fails while the device is offline: the event is dropped, and what waits
for the network is a call of `postInstaller`. -/
theorem session_dropped_offline :
    ¬ Always step NotDropped (start {}) [.sendSession, .onSessionFailure 0 false] := by
  intro h
  have hp : Sessions.Pending {} := h.last rfl rfl
  exact absurd ((Sessions.pending_iff _).mp hp) (by decide)

end SessionLog

end FastSearch.Tba
