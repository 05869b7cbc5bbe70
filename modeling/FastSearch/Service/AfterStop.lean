import FastSearch.Service.Lifecycle

/-!
# What comes after a stop

A `stopRunner` that has completed leaves the service `stopped` and without a proxy. A coroutine
that it did not cancel may still be live, but it fails at the missing proxy, so only a later
start command brings the service to `connected`. The code relies on one `stopRunner` at a time:
a coroutine that reaches `connected` while one is in progress lets a second one begin, and the
first may then complete after a start command that the second one let in.
-/

namespace FastSearch.Service

open EventSystem

/-- The service and whether a `stopRunner(restart = false)` has completed with no start command
delivered since. -/
structure StopRun where
  data : Data := {}
  quiet : Bool := false
  deriving DecidableEq, Repr

/-- The event completes a `stopRunner(restart = false)`. -/
def Data.completesStop (d : Data) : Event → Bool
  | .resumeStop i => d.stoppers[i]? == some ⟨false, .scope⟩
  | _ => false

/-- The event delivers a start command. -/
def Event.isStart : Event → Bool
  | .startCommand _ _ => true
  | _ => false

/-- The segment of a connecting coroutine that ends in `changeState(State.Connected)`. -/
def Data.Connects (d : Data) : Event → Prop
  | .resumeJob id .ok => d.proxy.stored ≠ none ∧
      ∃ j tries, (d.jobs.find? fun j ↦ j.id = id) = some j ∧ j.cancelled = false ∧
        j.pc = .sendFd tries
  | _ => False

namespace StopRun

/-- One segment, with the record of stops and starts. -/
def step (s : StopRun) (e : Event) : Option StopRun :=
  (Service.step s.data e).map fun d ↦
    { data := d, quiet := !e.isStart && (s.quiet || s.data.completesStop e) }

/-- After a completed stop the service is not connected until a start command is delivered. -/
def StaysStopped (s : StopRun) : Prop := s.quiet = true → s.data.state ≠ .connected

/-- No coroutine reaches `connected` while a `stopRunner` is in progress. -/
def Undisturbed (s : StopRun) (e : Event) : Prop := s.data.Connects e → s.data.stoppers = []

/-- One `stopRunner` at a time marks the service `stopping`; from its clean-up on, and after it
until the next start command, there is no proxy. -/
structure Inv (d : Data) (quiet : Bool) : Prop where
  stopping : d.state = .stopping ↔ d.stoppers ≠ []
  single : d.stoppers.length ≤ 1
  released : ∀ r, (⟨r, .scope⟩ : Stopper) ∈ d.stoppers → d.proxy.stored = none
  quiet : quiet = true → d.proxy.stored = none ∧ d.state ≠ .connected

section
variable {d d' : Data} {q : Bool}

/-- Only the state, the proxy and the running stops matter. -/
private theorem inv_congr (h : Inv d q) (hst : d'.state = d.state)
    (hsp : d'.stoppers = d.stoppers) (hp : d'.proxy = d.proxy) : Inv d' q where
  stopping := by
    rw [hst, hsp]
    exact h.stopping
  single := by
    rw [hsp]
    exact h.single
  released := by
    rw [hsp, hp]
    exact h.released
  quiet := by
    rw [hst, hp]
    exact h.quiet

/-- The record may be forgotten. -/
private theorem inv_forget (h : Inv d q) : Inv d false :=
  ⟨h.stopping, h.single, h.released, fun hq ↦ nomatch hq⟩

private theorem stoppers_nil (h : Inv d q) (hn : d.state ≠ .stopping) : d.stoppers = [] := by
  apply Classical.byContradiction
  intro hs
  exact hn (h.stopping.mpr hs)

/-- A stop request begins the only `stopRunner`, or finds one in progress. -/
private theorem inv_stopRunner (r : Bool) (h : Inv d q) : Inv (d.stopRunner r) q := by
  by_cases hs : d.state = .stopping
  · unfold Data.stopRunner
    rw [if_pos hs]
    exact h
  · have hnil : d.stoppers = [] := stoppers_nil h hs
    unfold Data.stopRunner
    rw [if_neg hs]
    split
    · next id _ =>
      refine ⟨by simp [Data.cancel, Data.changeState], by simp [hnil], ?_, ?_⟩
      · intro r' hr
        simp [hnil] at hr
      · intro hq
        exact ⟨(h.quiet hq).1, by simp [Data.cancel, Data.changeState]⟩
    · refine ⟨by simp [Data.cleanUp, Data.changeState], by simp [hnil], ?_, ?_⟩
      · intro _ _
        rfl
      · intro _
        exact ⟨rfl, by simp [Data.cleanUp, Data.changeState]⟩

private theorem inv_fail (id : Nat) (h : Inv d q) : Inv (d.fail id) q :=
  inv_congr (inv_stopRunner false h) rfl rfl rfl

private theorem inv_startProcesses (id : Nat) (throws : Bool) (h : Inv d q) :
    Inv (d.startProcesses id throws) q := by
  have h' : Inv { d with processes := d.processes.store d.next, next := d.next + 1 } q :=
    inv_congr h rfl rfl rfl
  unfold Data.startProcesses
  dsimp only
  split
  · exact inv_fail id h'
  · exact inv_congr h' rfl rfl rfl

/-- A segment of a coroutine; only its last one changes the state, and needs a proxy for it. -/
private theorem inv_resumeJob {j : Job} (o : Outcome) (h : Inv d q)
    (hc : o = .ok → d.proxy.stored ≠ none → j.cancelled = false →
      (∃ tries, j.pc = .sendFd tries) → d.stoppers = []) : Inv (d.resumeJob j o) q := by
  have again (pc : JobPc) : Inv (d.suspend j.id pc) q := inv_congr h rfl rfl rfl
  unfold Data.resumeJob
  by_cases hca : j.cancelled = true
  · rw [if_pos hca]
    split
    · exact inv_congr h rfl rfl rfl
    · exact inv_congr h rfl rfl rfl
  · rw [if_neg hca]
    cases hpc : j.pc with
    | posted =>
      cases o with
      | ok => exact again _
      | throws | startThrows => exact inv_fail _ h
    | preInit =>
      cases o with
      | throws => exact inv_fail _ h
      | ok | startThrows =>
        dsimp only
        split
        · exact again _
        · exact inv_startProcesses _ _ h
    | flatten =>
      cases o with
      | throws => exact inv_fail _ h
      | ok | startThrows => exact inv_startProcesses _ _ h
    | sendFd tries =>
      cases o with
      | ok =>
        dsimp only
        split
        · exact inv_fail _ h
        · next hp =>
          have hnil : d.stoppers = [] := hc rfl hp (by simpa using hca) ⟨tries, hpc⟩
          refine ⟨?_, h.single, h.released, ?_⟩
          · simp [Data.finish, Data.remove, Data.changeState, hnil]
          · intro hq
            exact False.elim (hp (h.quiet hq).1)
      | throws | startThrows =>
        dsimp only
        split
        · exact inv_fail _ h
        · exact again _

/-- A start command is accepted only with no `stopRunner` in progress. -/
private theorem inv_start (profile : Option Bool) (h : Inv d q) (hs : d.state = .stopped) :
    Inv (d.start profile) false := by
  have hnil : d.stoppers = [] := stoppers_nil h (by rw [hs]; decide)
  cases profile with
  | none =>
    apply inv_stopRunner false
    exact inv_congr (inv_forget h) rfl rfl rfl
  | some customRules =>
    refine ⟨h.stopping, h.single, ?_, fun hq ↦ nomatch hq⟩
    intro r hr
    simp [Data.start, hnil] at hr

private theorem inv_onStartCommand (prepared : Bool) (profile : Option Bool) (h : Inv d q) :
    Inv (d.onStartCommand prepared profile) false := by
  unfold Data.onStartCommand
  split
  · split
    · next hs => exact inv_start profile h hs
    · exact inv_forget h
  · exact inv_stopRunner false (inv_forget h)

/-- A segment of the only `stopRunner`. Its last one leaves the service without a proxy. -/
private theorem inv_resumeStop {i : Nat} {st : Stopper} (h : Inv d q)
    (hst : d.stoppers[i]? = some st) (hs : d.resumeStop i st = some d') :
    Inv d' (q || d.completesStop (.resumeStop i)) := by
  have hl := h.single
  have hi : i < d.stoppers.length := (List.getElem?_eq_some_iff.mp hst).1
  obtain rfl : i = 0 := by omega
  obtain ⟨x, hx⟩ : ∃ x, d.stoppers = [x] := List.length_eq_one_iff.mp (by omega)
  obtain rfl : x = st := by simpa [hx] using hst
  obtain ⟨restart, pc⟩ := x
  have hstate : d.state = .stopping := h.stopping.mpr (by simp [hx])
  cases pc with
  | joining id =>
    have hcs : d.completesStop (.resumeStop 0) = false := by simp [Data.completesStop, hx]
    simp only [Data.resumeStop] at hs
    split at hs
    · cases hs
    · cases hs
      rw [hcs, Bool.or_false]
      refine ⟨by simp [Data.cleanUp, hx, hstate], by simp [hx], fun _ _ ↦ rfl, ?_⟩
      intro hq
      exact ⟨rfl, (h.quiet hq).2⟩
  | scope =>
    have hp : d.proxy.stored = none := h.released restart (by simp [hx])
    cases hs
    refine ⟨by simp [Data.changeState, hx], by simp [hx], fun _ _ ↦ hp, ?_⟩
    intro _
    exact ⟨hp, by simp [Data.changeState]⟩

end

/-- An undisturbed segment keeps the invariant. -/
theorem inv_step {s t : StopRun} {e : Event} (h : Inv s.data s.quiet) (hc : s.Undisturbed e)
    (hs : s.step e = some t) : Inv t.data t.quiet := by
  simp only [step, Option.map_eq_some_iff] at hs
  obtain ⟨d, hd, rfl⟩ := hs
  have keep (d : Data) (h : Inv d s.quiet) : Inv d (true && (s.quiet || false)) := by
    rw [Bool.or_false, Bool.true_and]
    exact h
  cases e with
  | startCommand prepared profile =>
    cases hd
    exact inv_onStartCommand prepared profile h
  | closeBroadcast =>
    cases hd
    apply keep
    split
    · exact inv_stopRunner false h
    · exact h
  | reloadBroadcast =>
    cases hd
    apply keep
    split
    · unfold Data.forceLoad
      split
      · exact h
      · split
        · exact inv_stopRunner true h
        · exact h
    · exact h
  | stopCall =>
    cases hd
    exact keep _ (inv_stopRunner false h)
  | resumeJob id o =>
    simp only [Service.step, Option.map_eq_some_iff] at hd
    obtain ⟨j, hj, rfl⟩ := hd
    apply keep
    apply inv_resumeJob o h
    rintro rfl hp hca ⟨tries, hpc⟩
    exact hc ⟨hp, j, tries, hj, hca, hpc⟩
  | resumeStop i =>
    simp only [Service.step, Option.bind_eq_some_iff] at hd
    obtain ⟨st, hst, hd⟩ := hd
    exact inv_resumeStop h hst hd

/-- In each phase of the life cycle a coroutine that is not cancelled has no stop beside it. -/
theorem undisturbed_of_in {s : StopRun} {p : Phase} {e : Event} (h : s.data.In p) :
    s.Undisturbed e := by
  intro hc
  unfold Data.Connects at hc
  split at hc
  · obtain ⟨_, j, _, hj, hca, _⟩ := hc
    have hm : j ∈ s.data.jobs := List.mem_of_find?_eq_some hj
    cases p with
    | off | connected => exact h.2.1
    | connecting =>
      obtain ⟨k, hk, _⟩ := h
      exact hk.stoppers
    | joining =>
      obtain ⟨_, _, _, _, hn | ⟨k, hk, _, hck⟩⟩ := h
      · rw [hn] at hm
        cases hm
      · rw [hk, List.mem_singleton] at hm
        subst hm
        rw [hck] at hca
        cases hca
    | cleaning =>
      rw [h.2.1] at hm
      cases hm
  · cases hc

/-- In every run in which no coroutine reaches `connected` while a `stopRunner` is in progress,
a completed stop is followed by a start command before the service is connected again. -/
theorem staysStopped_of_undisturbed (es : List Event) (h : Along step Undisturbed {} es) :
    Always step StaysStopped {} es := by
  have hi : Always step (fun s : StopRun ↦ Inv s.data s.quiet) {} es := by
    refine always_of_along (J := fun s : StopRun ↦ Inv s.data s.quiet) ?_ ?_ h
    · intro s e t hs hc ht
      exact inv_step hs hc ht
    · exact ⟨by simp, by simp, by simp, by simp⟩
  exact hi.imp fun s hs hq ↦ (hs.quiet hq).2

/-- A service is connected, stopped and started again. -/
def stopAndStart : List Event :=
  [.startCommand true (some false), .resumeJob 0 .ok, .resumeJob 0 .ok, .resumeJob 0 .ok,
    .stopCall, .resumeStop 0, .startCommand true (some false)]

/-- No coroutine is at work while it is stopped. -/
theorem staysStopped_stop_and_start :
    Along step Undisturbed {} stopAndStart ∧ Always step StaysStopped {} stopAndStart := by
  have h : Along step Undisturbed {} stopAndStart := by
    iterate 5
      refine .cons rfl (fun _ ↦ rfl) ?_
    iterate 2
      refine .cons rfl (fun hc ↦ False.elim hc) ?_
    exact along_nil _
  exact ⟨h, staysStopped_of_undisturbed _ h⟩

/-- Two coroutines are live. The first one reaches `connected` while the stop that cancelled
the second one is in progress; a second stop completes at once and lets a start command in,
then the first stop completes, and the new coroutine reaches `connected`. -/
theorem connected_after_completed_stop :
    ¬ Always step StaysStopped {} [.startCommand true (some false),
      .startCommand true (some false), .resumeJob 0 .ok, .resumeJob 0 .ok, .stopCall,
      .resumeJob 0 .ok, .resumeJob 1 .ok, .resumeStop 0, .stopCall, .resumeStop 1,
      .startCommand true (some false), .resumeStop 0, .resumeJob 3 .ok, .resumeJob 3 .ok,
      .resumeJob 3 .ok] := by
  intro h
  have hs := h.last rfl
  exact hs rfl rfl

/-- The life cycle excludes it: when start commands come alone, every segment is undisturbed. -/
theorem staysStopped_of_startsAlone (es : List Event)
    (h : Along step (fun s ↦ StartsAlone s.data) {} es) : Always step StaysStopped {} es := by
  have hj : Always step (fun s : StopRun ↦
      ((∃ p, s.data.In p) ∧ s.data.NothingDropped) ∧ Inv s.data s.quiet) {} es := by
    refine always_of_along (J := fun s : StopRun ↦
      ((∃ p, s.data.In p) ∧ s.data.NothingDropped) ∧ Inv s.data s.quiet) ?_ ?_ h
    · rintro s e t ⟨⟨⟨p, hp⟩, hn⟩, hi⟩ ha ht
      have hu : s.Undisturbed e := undisturbed_of_in hp
      refine ⟨?_, inv_step hi hu ht⟩
      simp only [step, Option.map_eq_some_iff] at ht
      obtain ⟨d, hd, rfl⟩ := ht
      obtain ⟨⟨q, _, hq⟩, hdr⟩ := step_follows hp hn ha hd
      exact ⟨⟨q, hq⟩, hdr⟩
    · exact ⟨⟨⟨.off, in_off_init⟩, rfl, rfl, rfl⟩, by simp, by simp, by simp, by simp⟩
  exact hj.imp fun s hs hq ↦ (hs.2.quiet hq).2

end StopRun
end FastSearch.Service
