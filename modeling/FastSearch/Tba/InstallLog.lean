import FastSearch.Lib.EventSystem

/-!
# Reporting the install event

`tbalog/TbaManager.kt`. An install log goes from a call of `postInstaller` through a listener
of the referrer service and a coroutine to a request, which may be retried; the session log can
end in a call of `postInstaller` as well. Of the log only the `ReferrerDetails` it carries are
kept. The two cached strings survive the end of the process, everything else is lost with it.
Every listener, log and request knows whether the call it comes from was made after the server
had answered 200 to a log with an install referrer.
-/

namespace FastSearch.Tba

open EventSystem

/-- The part of `ReferrerDetails` that decides anything. -/
structure ReferrerDetails where
  installReferrer : Option String
  deriving DecidableEq, Repr

/-- A coroutine of `postInstallerLog(referrer)`, `tbalog/TbaManager.kt:201`. -/
structure InstallLog where
  referrer : Option ReferrerDetails
  late : Bool
  deriving DecidableEq, Repr

/-- The arguments of `postInstallerLog`, `tbalog/TbaManager.kt:43`. -/
structure InstallRequest where
  referrer : Option ReferrerDetails
  late : Bool
  retryNum : Nat
  isNullReferrer : Bool
  deriving DecidableEq, Repr

/-- The request of a log, `tbalog/TbaManager.kt:222`. -/
def InstallLog.toRequest (l : InstallLog) : InstallRequest where
  referrer := l.referrer
  late := l.late
  retryNum := 0
  isNullReferrer := l.referrer.isSome

/-- The log has an install referrer that is not empty. -/
def InstallRequest.carriesReferrer (r : InstallRequest) : Bool :=
  (r.referrer.bind (·.installReferrer)).any (· ≠ "")

/-- The request comes from a call before the report, and its flag is what the log says. -/
def InstallRequest.Sound (r : InstallRequest) : Prop :=
  r.late = false ∧ r.isNullReferrer = r.referrer.isSome

/-- What the referrer service does when the setup is finished: it may give no details, and
`installReferrer` and `endConnection` may throw. -/
inductive Setup where
  | ok (response : Option ReferrerDetails) (endThrows : Bool)
  | okThrows
  | other (endThrows : Bool)
  deriving DecidableEq, Repr

/-- The session log: coroutines started, requests and retries, by their `retryNum`. -/
structure Sessions where
  starting : Nat := 0
  requests : List Nat := []
  retries : List Nat := []
  deriving DecidableEq, Repr

/-- `MAX_RETRY`. -/
def maxRetry : Nat := 3

/-- `TbaManager` with what it has under way. `reported` says that the server answered 200 to a
log with an install referrer, `nullReported` that it did to one without `ReferrerDetails`, and
`lateLogs` counts the logs sent by calls made after the former. -/
structure TbaManager where
  postInstallLogStatus : String := "false"
  mInstallReferrer : String := ""
  listeners : List Bool := []
  logs : List InstallLog := []
  requests : List InstallRequest := []
  retries : List InstallRequest := []
  calls : Nat := 0
  sessions : Sessions := {}
  reported : Bool := false
  nullReported : Bool := false
  lateLogs : Nat := 0
  deriving DecidableEq, Repr

namespace TbaManager

/-- What happens to the app and to its logs. -/
inductive Event where
  | tbaInit
  /-- The process ends. -/
  | kill
  /-- `onInstallReferrerSetupFinished` of the `i`-th listener. -/
  | setupFinished (i : Nat) (setup : Setup)
  /-- The `i`-th coroutine has its data and sends the log. -/
  | send (i : Nat)
  | onFailure (i : Nat) (networkIsAvailable : Bool)
  | onResponse (i : Nat) (code : Nat)
  /-- A delay of five seconds is over. -/
  | retry (i : Nat)
  /-- A delay is over, or the network is back, and `postInstaller` is called. -/
  | call
  | sendSession
  | onSessionFailure (i : Nat) (networkIsAvailable : Bool)
  | onSessionResponse (i : Nat) (code : Nat) (networkIsAvailable : Bool)
  | retrySession (i : Nat)
  deriving DecidableEq, Repr

/-- The condition of `postInstaller`. -/
def unposted (s : TbaManager) : Bool :=
  s.postInstallLogStatus == "false" || s.mInstallReferrer == ""

/-- `postInstaller`, `tbalog/TbaManager.kt:165`. -/
def postInstaller (s : TbaManager) : TbaManager :=
  if s.unposted then { s with listeners := s.listeners ++ [s.reported] } else s

/-- `postInstallerLog(referrer)`, `tbalog/TbaManager.kt:201`. -/
def postInstallerLog (s : TbaManager) (late : Bool) (referrer : Option ReferrerDetails) :
    TbaManager :=
  { s with logs := s.logs ++ [⟨referrer, late⟩] }

/-- `onInstallReferrerSetupFinished`, `tbalog/TbaManager.kt:169`: what `endConnection` throws
is caught and sends another log. -/
def onInstallReferrerSetupFinished (s : TbaManager) (late : Bool) : Setup → TbaManager
  | .ok response endThrows =>
    let t := { s with
      mInstallReferrer := (response.bind (·.installReferrer)).getD "" }.postInstallerLog late response
    if endThrows then t.postInstallerLog late none else t
  | .okThrows => s.postInstallerLog late none
  | .other endThrows =>
    let t := s.postInstallerLog late none
    if endThrows then t.postInstallerLog late none else t

/-- `OkHttpManager.request` for an install log. -/
def request (s : TbaManager) (r : InstallRequest) : TbaManager :=
  { s with
    requests := s.requests ++ [r]
    lateLogs := if r.late then s.lateLogs + 1 else s.lateLogs }

/-- `onFailure`, `tbalog/TbaManager.kt:54`. -/
def onFailure (s : TbaManager) (r : InstallRequest) (networkIsAvailable : Bool) : TbaManager :=
  if networkIsAvailable then
    if r.retryNum < maxRetry then
      { s with retries := s.retries ++ [{ r with retryNum := r.retryNum + 1 }] }
    else { s with calls := s.calls + 1 }
  else { s with calls := s.calls + 1 }

/-- `onResponse`, `tbalog/TbaManager.kt:76`. -/
def onResponse (s : TbaManager) (r : InstallRequest) (code : Nat) : TbaManager :=
  if code = 200 then
    { s with
      postInstallLogStatus := if !r.isNullReferrer then "true" else s.postInstallLogStatus
      reported := s.reported || r.carriesReferrer
      nullReported := s.nullReported || r.referrer.isNone }
  else s

/-- `postSessionEvent`, `tbalog/TbaManager.kt:226`. -/
def postSessionEvent (s : TbaManager) : TbaManager :=
  { s with sessions.starting := s.sessions.starting + 1 }

/-- `postSessionLog`, `tbalog/TbaManager.kt:87`. -/
def postSessionLog (s : TbaManager) (retryNum : Nat) : TbaManager :=
  { s with sessions.requests := s.sessions.requests ++ [retryNum] }

/-- `onFailure` of the session log, `tbalog/TbaManager.kt:91`: without a network it ends in
`postInstaller`. -/
def onSessionFailure (s : TbaManager) (retryNum : Nat) (networkIsAvailable : Bool) :
    TbaManager :=
  if networkIsAvailable then
    if retryNum < maxRetry then
      { s with sessions.retries := s.sessions.retries ++ [retryNum + 1] }
    else s.postSessionEvent
  else { s with calls := s.calls + 1 }

/-- `onResponse` of the session log, `tbalog/TbaManager.kt:113`. -/
def onSessionResponse (s : TbaManager) (retryNum code : Nat) (networkIsAvailable : Bool) :
    TbaManager :=
  if code = 200 then s
  else if networkIsAvailable && retryNum < maxRetry then s.postSessionLog (retryNum + 1)
  else s

/-- One thing that happens. -/
def step (s : TbaManager) : Event → Option TbaManager
  | .tbaInit => some s.postInstaller.postSessionEvent
  | .kill => some { s with
      listeners := [], logs := [], requests := [], retries := [], calls := 0, sessions := {} }
  | .setupFinished i setup =>
    s.listeners[i]?.map fun late ↦ s.onInstallReferrerSetupFinished late setup
  | .send i => s.logs[i]?.map fun l ↦ { s with logs := s.logs.eraseIdx i }.request l.toRequest
  | .onFailure i networkIsAvailable => s.requests[i]?.map fun r ↦
      { s with requests := s.requests.eraseIdx i }.onFailure r networkIsAvailable
  | .onResponse i code => s.requests[i]?.map fun r ↦
      { s with requests := s.requests.eraseIdx i }.onResponse r code
  | .retry i => s.retries[i]?.map fun r ↦ { s with retries := s.retries.eraseIdx i }.request r
  | .call =>
    if s.calls = 0 then none else some { s with calls := s.calls - 1 }.postInstaller
  | .sendSession =>
    if s.sessions.starting = 0 then none
    else some ({ s with sessions.starting := s.sessions.starting - 1 }.postSessionLog 0)
  | .onSessionFailure i networkIsAvailable => s.sessions.requests[i]?.map fun n ↦
      { s with sessions.requests := s.sessions.requests.eraseIdx i }.onSessionFailure n
        networkIsAvailable
  | .onSessionResponse i code networkIsAvailable => s.sessions.requests[i]?.map fun n ↦
      { s with sessions.requests := s.sessions.requests.eraseIdx i }.onSessionResponse n code
        networkIsAvailable
  | .retrySession i => s.sessions.retries[i]?.map fun n ↦
      { s with sessions.retries := s.sessions.retries.eraseIdx i }.postSessionLog n

/-- No call made after the install was reported has sent a log. -/
def ReportedOnce (s : TbaManager) : Prop := s.lateLogs = 0

/-- A call of `postInstaller` after the install was reported finds that a log without
`ReferrerDetails` was answered 200 as well, and the install referrer read last not empty. -/
def NullLogFirst (s : TbaManager) : Event → Prop
  | .tbaInit | .call => s.reported = true → s.nullReported = true ∧ s.mInstallReferrer ≠ ""
  | _ => True

/-! ### What is under way after the report -/

/-- Everything under way comes from calls before the report; the status tells whether a log
without `ReferrerDetails` was answered. -/
structure Inv (s : TbaManager) : Prop where
  status : s.postInstallLogStatus = if s.nullReported then "true" else "false"
  listeners : ∀ late ∈ s.listeners, late = false
  logs : ∀ l ∈ s.logs, l.late = false
  requests : ∀ r ∈ s.requests, r.Sound
  retries : ∀ r ∈ s.retries, r.Sound
  once : s.lateLogs = 0

/-- `postInstaller` goes on exactly while no log without `ReferrerDetails` was answered or the
referrer is empty. -/
theorem Inv.unposted_iff {s : TbaManager} (h : s.Inv) :
    s.unposted = true ↔ s.nullReported = false ∨ s.mInstallReferrer = "" := by
  unfold unposted
  rw [h.status]
  cases s.nullReported <;> simp

theorem inv_postInstaller {s : TbaManager} (h : s.Inv)
    (hc : s.reported = true → s.nullReported = true ∧ s.mInstallReferrer ≠ "") :
    s.postInstaller.Inv := by
  unfold postInstaller
  split
  · next hu =>
    have hr : s.reported = false := by
      apply Bool.eq_false_iff.mpr
      intro hr
      obtain ⟨hn, hm⟩ := hc hr
      rcases h.unposted_iff.mp hu with hf | he
      · rw [hn] at hf
        cases hf
      · exact hm he
    refine { h with listeners := ?_ }
    intro late hl
    rcases List.mem_append.mp hl with hl | hl
    · exact h.listeners late hl
    · rw [List.mem_singleton.mp hl, hr]
  · exact h

theorem inv_postInstallerLog {s : TbaManager} (h : s.Inv) (referrer : Option ReferrerDetails) :
    (s.postInstallerLog false referrer).Inv := by
  refine { h with logs := ?_ }
  intro l hl
  rcases List.mem_append.mp hl with hl | hl
  · exact h.logs l hl
  · rw [List.mem_singleton.mp hl]

theorem inv_setupFinished {s : TbaManager} (h : s.Inv) (setup : Setup) :
    (s.onInstallReferrerSetupFinished false setup).Inv := by
  cases setup with
  | ok response endThrows =>
    have hr : Inv { s with mInstallReferrer := (response.bind (·.installReferrer)).getD "" } :=
      { h with }
    cases endThrows with
    | false => exact inv_postInstallerLog hr response
    | true => exact inv_postInstallerLog (inv_postInstallerLog hr response) none
  | okThrows => exact inv_postInstallerLog h none
  | other endThrows =>
    cases endThrows with
    | false => exact inv_postInstallerLog h none
    | true => exact inv_postInstallerLog (inv_postInstallerLog h none) none

theorem inv_request {s : TbaManager} {r : InstallRequest} (h : s.Inv) (hr : r.Sound) :
    (s.request r).Inv := by
  refine { h with requests := ?_, once := ?_ }
  · intro r' hm
    rcases List.mem_append.mp hm with hm | hm
    · exact h.requests r' hm
    · rw [List.mem_singleton.mp hm]
      exact hr
  · unfold request
    rw [hr.1]
    exact h.once

theorem inv_onFailure {s : TbaManager} {r : InstallRequest} (h : s.Inv) (hr : r.Sound)
    (networkIsAvailable : Bool) : (s.onFailure r networkIsAvailable).Inv := by
  unfold onFailure
  split
  · split
    · refine { h with retries := ?_ }
      intro r' hm
      rcases List.mem_append.mp hm with hm | hm
      · exact h.retries r' hm
      · rw [List.mem_singleton.mp hm]
        exact hr
    · exact { h with }
  · exact { h with }

/-- A request that is answered is no longer under way. -/
theorem Inv.eraseRequest {s : TbaManager} (h : s.Inv) (i : Nat) :
    Inv { s with requests := s.requests.eraseIdx i } :=
  { h with requests := fun r hm ↦ h.requests r (List.mem_of_mem_eraseIdx hm) }

/-- Only the answer to a log without `ReferrerDetails` sets the status. -/
theorem inv_onResponse {s : TbaManager} {r : InstallRequest} (h : s.Inv) (hr : r.Sound)
    (code : Nat) : (s.onResponse r code).Inv := by
  unfold onResponse
  split
  · refine { h with status := ?_ }
    rw [hr.2, h.status]
    cases r.referrer <;> cases s.nullReported <;> rfl
  · exact h

theorem inv_onSessionFailure {s : TbaManager} (h : s.Inv) (retryNum : Nat)
    (networkIsAvailable : Bool) : (s.onSessionFailure retryNum networkIsAvailable).Inv := by
  unfold onSessionFailure
  split
  · split
    · exact { h with }
    · exact { h with }
  · exact { h with }

theorem inv_onSessionResponse {s : TbaManager} (h : s.Inv) (retryNum code : Nat)
    (networkIsAvailable : Bool) : (s.onSessionResponse retryNum code networkIsAvailable).Inv := by
  unfold onSessionResponse
  split
  · exact h
  · split
    · exact { h with }
    · exact h

/-- Every step under the condition keeps the invariant. -/
theorem inv_step {s t : TbaManager} {e : Event} (h : s.Inv) (hc : s.NullLogFirst e)
    (hs : s.step e = some t) : t.Inv := by
  cases e with
  | tbaInit =>
    cases hs
    exact { inv_postInstaller h hc with }
  | kill =>
    cases hs
    exact { h with
      listeners := by simp
      logs := by simp
      requests := by simp
      retries := by simp }
  | setupFinished i setup =>
    simp only [step, Option.map_eq_some_iff] at hs
    obtain ⟨late, hl, rfl⟩ := hs
    rw [h.listeners late (List.mem_of_getElem? hl)]
    exact inv_setupFinished h setup
  | send i =>
    simp only [step, Option.map_eq_some_iff] at hs
    obtain ⟨l, hl, rfl⟩ := hs
    have hi : Inv { s with logs := s.logs.eraseIdx i } :=
      { h with logs := fun l' hm ↦ h.logs l' (List.mem_of_mem_eraseIdx hm) }
    exact inv_request hi ⟨h.logs l (List.mem_of_getElem? hl), rfl⟩
  | onFailure i networkIsAvailable =>
    simp only [step, Option.map_eq_some_iff] at hs
    obtain ⟨r, hr, rfl⟩ := hs
    exact inv_onFailure (h.eraseRequest i) (h.requests r (List.mem_of_getElem? hr))
      networkIsAvailable
  | onResponse i code =>
    simp only [step, Option.map_eq_some_iff] at hs
    obtain ⟨r, hr, rfl⟩ := hs
    exact inv_onResponse (h.eraseRequest i) (h.requests r (List.mem_of_getElem? hr)) code
  | retry i =>
    simp only [step, Option.map_eq_some_iff] at hs
    obtain ⟨r, hr, rfl⟩ := hs
    have hi : Inv { s with retries := s.retries.eraseIdx i } :=
      { h with retries := fun r' hm ↦ h.retries r' (List.mem_of_mem_eraseIdx hm) }
    exact inv_request hi (h.retries r (List.mem_of_getElem? hr))
  | call =>
    simp only [step] at hs
    split at hs
    · cases hs
    · cases hs
      have hi : Inv { s with calls := s.calls - 1 } := { h with }
      exact inv_postInstaller hi hc
  | sendSession =>
    simp only [step] at hs
    split at hs
    · cases hs
    · cases hs
      exact { h with }
  | onSessionFailure i networkIsAvailable =>
    simp only [step, Option.map_eq_some_iff] at hs
    obtain ⟨n, _, rfl⟩ := hs
    have hi : Inv { s with sessions.requests := s.sessions.requests.eraseIdx i } := { h with }
    exact inv_onSessionFailure hi n networkIsAvailable
  | onSessionResponse i code networkIsAvailable =>
    simp only [step, Option.map_eq_some_iff] at hs
    obtain ⟨n, _, rfl⟩ := hs
    have hi : Inv { s with sessions.requests := s.sessions.requests.eraseIdx i } := { h with }
    exact inv_onSessionResponse hi n code networkIsAvailable
  | retrySession i =>
    simp only [step, Option.map_eq_some_iff] at hs
    obtain ⟨n, _, rfl⟩ := hs
    exact { h with }

/-- In every run from a fresh install in which each call of `postInstaller` after the report
meets the condition, no such call sends a log. -/
theorem reportedOnce_of_nullLogFirst (es : List Event) (h : Along step NullLogFirst {} es) :
    Always step ReportedOnce {} es := by
  have hi : Inv {} := {
    status := rfl
    listeners := by simp
    logs := by simp
    requests := by simp
    retries := by simp
    once := rfl }
  have ha : Always step Inv {} es :=
    always_of_along (fun _ _ _ hi hc hs ↦ inv_step hi hc hs) hi h
  exact ha.imp fun _ hi ↦ hi.once

/-- Details with an install referrer. -/
def organic : ReferrerDetails := ⟨some "utm_source=google-play&utm_medium=organic"⟩

/-- The first launch sends two logs, since the connection cannot be closed, and both are
answered; then the app is started again. -/
def bothAnswered : List Event :=
  [.tbaInit, .setupFinished 0 (.ok (some organic) true), .send 0, .send 0, .onResponse 0 200,
    .onResponse 0 200, .kill, .tbaInit]

/-- The second launch sends nothing. -/
theorem reportedOnce_both_answered :
    Along step NullLogFirst {} bothAnswered ∧ Always step ReportedOnce {} bothAnswered := by
  have ha : Along step NullLogFirst {} bothAnswered := by
    refine .cons rfl (fun hr ↦ nomatch hr) ?_
    refine .cons rfl trivial ?_
    refine .cons rfl trivial ?_
    refine .cons rfl trivial ?_
    refine .cons rfl trivial ?_
    refine .cons rfl trivial ?_
    refine .cons rfl trivial ?_
    refine .cons rfl (fun _ ↦ ⟨rfl, ?_⟩) (along_nil _)
    decide
  exact ⟨ha, reportedOnce_of_nullLogFirst bothAnswered ha⟩

/-- An install that was reported with its referrer is reported again at the next launch: the
flag says the opposite of its name, and the status stays `false`. -/
theorem reported_again_at_next_launch :
    ¬ Always step ReportedOnce {}
      [.tbaInit, .setupFinished 0 (.ok (some organic) false), .send 0, .onResponse 0 200, .kill,
        .tbaInit, .setupFinished 0 (.ok (some organic) false), .send 0] := by
  intro h
  have hl : 1 = 0 := h.last rfl
  cases hl

end TbaManager
end FastSearch.Tba
