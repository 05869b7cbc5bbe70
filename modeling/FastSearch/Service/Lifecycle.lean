import FastSearch.Service.BaseService

/-!
# The life cycle of the background service

What `BaseService` is for, as five phases, and when the code keeps to it. A service is off,
connecting with one coroutine, connected, waiting for a cancelled coroutine, or cleaning up.
Every field that owns a resource is written in a phase in which it is free. The code has no
mark for the connecting phase, its state is still `stopped` there, so keeping to the life
cycle depends on when start commands arrive.
-/

namespace FastSearch.Service

open EventSystem

/-- The phases of one service. -/
inductive Phase where
  | off
  | connecting
  | connected
  | joining
  | cleaning
  deriving DecidableEq, Repr

namespace Phase

/-- The phase that a stop request leads to. -/
def stop : Phase → Phase
  | .connecting | .joining => .joining
  | .off | .connected | .cleaning => .cleaning

/-- The life cycle: which phase may follow which, and at what event. -/
inductive Step : Phase → Event → Phase → Prop where
  | stay (p : Phase) (e : Event) : Step p e p
  | stop (p : Phase) (e : Event) : Step p e p.stop
  | start (profile : Option Bool) : Step .off (.startCommand true profile) .connecting
  | established (id : Nat) (o : Outcome) : Step .connecting (.resumeJob id o) .connected
  | joined (i : Nat) : Step .joining (.resumeStop i) .cleaning
  | cleaned (i : Nat) : Step .cleaning (.resumeStop i) .off

/-- The service is connecting or connected. -/
def Active (p : Phase) : Prop := p = .connecting ∨ p = .connected

/-- A stop request ends activity. -/
theorem not_active_stop (p : Phase) : ¬ p.stop.Active := by
  cases p <;> simp [stop, Active]

end Phase

namespace Data

/-- No resource is held and the close receiver is not registered. -/
def Free (d : Data) : Prop :=
  d.processes.stored = none ∧ d.proxy.stored = none ∧ d.notification.stored = none ∧
    d.closeReceiverRegistered = false

/-- No resource was overwritten while it was held. -/
def NothingDropped (d : Data) : Prop :=
  d.processes.dropped = [] ∧ d.proxy.dropped = [] ∧ d.notification.dropped = []

/-- At most one connecting coroutine is live and no resource was overwritten while held. -/
def Sound (d : Data) : Prop := d.jobs.length ≤ 1 ∧ d.NothingDropped

/-- The only live coroutine is `j`, it is not cancelled and it owns what the start stored. -/
structure Connecting (d : Data) (j : Job) : Prop where
  state : d.state = .stopped
  stoppers : d.stoppers = []
  jobs : d.jobs = [j]
  active : j.cancelled = false
  job : d.connectingJob = some j.id
  receiver : d.closeReceiverRegistered = true
  proxy : d.proxy.stored ≠ none
  notification : d.notification.stored ≠ none

/-- The coroutine has stored its process pool. -/
def hasPool : JobPc → Bool
  | .sendFd _ => true
  | _ => false

/-- The field for the process pool is free until the coroutine stores one. -/
def PoolFree (d : Data) (pc : JobPc) : Prop := hasPool pc = false → d.processes.stored = none

/-- What each phase says about the fields. -/
def In (d : Data) : Phase → Prop
  | .off => d.state = .stopped ∧ d.stoppers = [] ∧ d.jobs = [] ∧ d.Free
  | .connecting => ∃ j, d.Connecting j ∧ d.PoolFree j.pc
  | .connected => d.state = .connected ∧ d.stoppers = [] ∧ d.jobs = [] ∧
      d.closeReceiverRegistered = true
  | .joining => d.state = .stopping ∧ ∃ r id, d.stoppers = [⟨r, .joining id⟩] ∧
      (d.jobs = [] ∨ ∃ j, d.jobs = [j] ∧ j.id = id ∧ j.cancelled = true)
  | .cleaning => d.state = .stopping ∧ d.jobs = [] ∧ (∃ r, d.stoppers = [⟨r, .scope⟩]) ∧ d.Free

/-- Every phase has at most one live coroutine. -/
theorem In.length_le {d : Data} {p : Phase} (h : d.In p) : d.jobs.length ≤ 1 := by
  cases p with
  | off => simp [h.2.2.1]
  | connecting =>
    obtain ⟨j, hj, _⟩ := h
    simp [hj.jobs]
  | connected => simp [h.2.2.1]
  | joining =>
    obtain ⟨_, _, _, _, hj | ⟨j, hj, _⟩⟩ := h
    · simp [hj]
    · simp [hj]
  | cleaning => simp [h.2.1]

/-! ### Stopping -/

/-- Stopping overwrites nothing. -/
theorem nothingDropped_stopRunner (d : Data) (r : Bool) :
    (d.stopRunner r).NothingDropped ↔ d.NothingDropped := by
  unfold stopRunner
  split
  · rfl
  · split
    · rfl
    · rfl

/-- Stopping without a live coroutine cleans up at once. -/
theorem stopRunner_cleaning {d : Data} (r : Bool) (hs : d.state ≠ .stopping)
    (hst : d.stoppers = []) (hj : d.jobs = []) : (d.stopRunner r).In .cleaning := by
  have hf : d.connectingJob.filter d.live = none := by
    rw [Option.filter_eq_none_iff]
    intro id _
    simp [live, hj]
  unfold stopRunner
  rw [if_neg hs, hf]
  exact ⟨rfl, hj, ⟨r, by simp [hst]⟩, rfl, rfl, rfl, rfl⟩

/-- Stopping cancels the connecting coroutine and waits for it. -/
theorem stopRunner_joining {d : Data} {j : Job} (r : Bool) (h : d.Connecting j) :
    d.stopRunner r = { d with
      state := .stopping
      jobs := [{ j with cancelled := true }]
      stoppers := [⟨r, .joining j.id⟩] } := by
  have hf : d.connectingJob.filter d.live = some j.id := by
    rw [h.job]
    simp [Option.filter, live, h.jobs]
  unfold stopRunner
  rw [if_neg (by rw [h.state]; decide), hf]
  simp [changeState, cancel, h.jobs, h.stoppers]

/-- A stop request while already stopping does nothing. -/
theorem stopRunner_of_stopping {d : Data} (r : Bool) (h : d.state = .stopping) :
    d.stopRunner r = d := by
  unfold stopRunner
  rw [if_pos h]

/-- Stopping leads from any phase to its stopping phase. -/
theorem stopRunner_in {d : Data} {p : Phase} (r : Bool) (h : d.In p) :
    (d.stopRunner r).In p.stop := by
  cases p with
  | off => exact stopRunner_cleaning r (by rw [h.1]; decide) h.2.1 h.2.2.1
  | connecting =>
    obtain ⟨j, hj, _⟩ := h
    rw [stopRunner_joining r hj]
    exact ⟨rfl, r, j.id, rfl, Or.inr ⟨_, rfl, rfl, rfl⟩⟩
  | connected => exact stopRunner_cleaning r (by rw [h.1]; decide) h.2.1 h.2.2.1
  | joining =>
    rw [stopRunner_of_stopping r h.1]
    exact h
  | cleaning =>
    rw [stopRunner_of_stopping r h.1]
    exact h

/-! ### Segments of the connecting coroutine -/

/-- The error path of the coroutine stops the service and leaves no live coroutine. -/
theorem fail_in {d : Data} {j : Job} (h : d.Connecting j) : (d.fail j.id).In .joining := by
  unfold fail
  rw [stopRunner_joining false h]
  exact ⟨rfl, false, j.id, rfl, Or.inl (by simp [finish, remove])⟩

/-- The error path overwrites nothing. -/
theorem nothingDropped_fail (d : Data) (id : Nat) :
    (d.fail id).NothingDropped ↔ d.NothingDropped :=
  nothingDropped_stopRunner d false

/-- Suspending again keeps the connecting phase. -/
theorem suspend_in {d : Data} {j : Job} {pc : JobPc} (h : d.Connecting j)
    (hp : d.PoolFree pc) : (d.suspend j.id pc).In .connecting := by
  refine ⟨{ j with pc := pc }, ?_, hp⟩
  exact { h with jobs := by simp [suspend, h.jobs] }

/-- Starting the processes stores the pool in a free field. -/
theorem startProcesses_in {d : Data} {j : Job} (throws : Bool) (h : d.Connecting j)
    (hp : d.processes.stored = none) (hn : d.NothingDropped) :
    ((d.startProcesses j.id throws).In .connecting ∨
        (d.startProcesses j.id throws).In .joining) ∧
      (d.startProcesses j.id throws).NothingDropped := by
  let d' : Data := { d with processes := d.processes.store d.next, next := d.next + 1 }
  have hd : d'.Connecting j := { h with }
  have hn' : d'.NothingDropped :=
    ⟨(Slot.dropped_store_eq_nil _ _).mpr ⟨hn.1, hp⟩, hn.2⟩
  unfold startProcesses
  by_cases ht : throws = true ∨ d'.proxy.stored = none
  · rw [if_pos ht]
    exact ⟨Or.inr (fail_in hd), (nothingDropped_fail d' j.id).mpr hn'⟩
  · rw [if_neg ht]
    exact ⟨Or.inl (suspend_in hd (by intro hf; cases hf)), hn'⟩

/-- One segment of the coroutine in the connecting phase. -/
theorem resumeJob_in {d : Data} {j : Job} (o : Outcome) (h : d.Connecting j)
    (hf : d.PoolFree j.pc) (hn : d.NothingDropped) :
    ((d.resumeJob j o).In .connecting ∨ (d.resumeJob j o).In .joining ∨
        (d.resumeJob j o).In .connected) ∧ (d.resumeJob j o).NothingDropped := by
  have failing : ((d.fail j.id).In .connecting ∨ (d.fail j.id).In .joining ∨
      (d.fail j.id).In .connected) ∧ (d.fail j.id).NothingDropped :=
    ⟨Or.inr (Or.inl (fail_in h)), (nothingDropped_fail d j.id).mpr hn⟩
  have again (pc : JobPc) (hp : d.PoolFree pc) :
      ((d.suspend j.id pc).In .connecting ∨ (d.suspend j.id pc).In .joining ∨
        (d.suspend j.id pc).In .connected) ∧ (d.suspend j.id pc).NothingDropped :=
    ⟨Or.inl (suspend_in h hp), hn⟩
  have starting (throws : Bool) (hp : d.processes.stored = none) :
      ((d.startProcesses j.id throws).In .connecting ∨
        (d.startProcesses j.id throws).In .joining ∨
        (d.startProcesses j.id throws).In .connected) ∧
        (d.startProcesses j.id throws).NothingDropped := by
    obtain ⟨hc | hj, hd⟩ := startProcesses_in throws h hp hn
    · exact ⟨Or.inl hc, hd⟩
    · exact ⟨Or.inr (Or.inl hj), hd⟩
  unfold resumeJob
  rw [if_neg (by simp [h.active])]
  cases hpc : j.pc with
  | posted =>
    have hp : d.processes.stored = none := hf (by rw [hpc]; rfl)
    cases o with
    | ok => exact again _ (fun _ ↦ hp)
    | throws | startThrows => exact failing
  | preInit =>
    have hp : d.processes.stored = none := hf (by rw [hpc]; rfl)
    cases o with
    | throws => exact failing
    | ok | startThrows =>
      dsimp only
      split
      · exact again _ (fun _ ↦ hp)
      · exact starting _ hp
  | flatten =>
    have hp : d.processes.stored = none := hf (by rw [hpc]; rfl)
    cases o with
    | throws => exact failing
    | ok | startThrows => exact starting _ hp
  | sendFd tries =>
    cases o with
    | ok =>
      dsimp only
      rw [if_neg h.proxy]
      refine ⟨Or.inr (Or.inr ⟨rfl, h.stoppers, ?_, h.receiver⟩), hn⟩
      simp [finish, remove, changeState, h.jobs]
    | throws | startThrows =>
      dsimp only
      split
      · exact failing
      · exact again _ (by intro hp; cases hp)

/-- A cancelled coroutine only ends. -/
theorem resumeJob_cancelled {d : Data} {j : Job} (o : Outcome) (h : j.cancelled = true) :
    d.resumeJob j o = d.remove j.id ∨ d.resumeJob j o = d.finish j.id := by
  unfold resumeJob
  rw [if_pos h]
  by_cases hp : j.pc = .posted
  · exact Or.inl (if_pos hp)
  · exact Or.inr (if_neg hp)

/-! ### Accepted start commands -/

/-- A start accepted while the service is off. -/
theorem start_in {d : Data} (profile : Option Bool) (h : d.In .off) (hn : d.NothingDropped) :
    ((d.start profile).In .connecting ∨ (d.start profile).In .cleaning) ∧
      (d.start profile).NothingDropped := by
  obtain ⟨hs, hst, hj, _, hpr, hno, _⟩ := h
  have hdn : (d.notification.store d.next).dropped = [] :=
    (Slot.dropped_store_eq_nil _ _).mpr ⟨hn.2.2, hno⟩
  cases profile with
  | none =>
    constructor
    · exact Or.inr (stopRunner_cleaning false (by change d.state ≠ _; rw [hs]; decide) hst hj)
    · exact (nothingDropped_stopRunner _ false).mpr ⟨hn.1, hn.2.1, hdn⟩
  | some customRules =>
    constructor
    · refine Or.inl ⟨{ id := d.next, customRules := customRules }, ?_, ?_⟩
      · exact { state := hs, stoppers := hst, jobs := by simp [start, hj], active := rfl
                job := rfl, receiver := rfl, proxy := by simp [start]
                notification := by simp [start] }
      · intro _
        assumption
    · exact ⟨hn.1, (Slot.dropped_store_eq_nil _ _).mpr ⟨hn.2.1, hpr⟩, hdn⟩

/-- A start accepted while a coroutine is connecting overwrites the notification. -/
theorem start_drops {d : Data} {j : Job} (profile : Option Bool) (h : d.Connecting j) :
    ¬ (d.start profile).NothingDropped := by
  have hd : (d.notification.store d.next).dropped ≠ [] := by
    intro he
    exact h.notification ((Slot.dropped_store_eq_nil _ _).mp he).2
  cases profile with
  | none =>
    intro hn
    exact hd ((nothingDropped_stopRunner _ false).mp hn).2.2
  | some customRules =>
    intro hn
    exact hd hn.2.2

end Data

/-! ### Runs -/

/-- Start commands that pass the guard find no live connecting coroutine. -/
def StartsAlone (d : Data) : Event → Prop
  | .startCommand true _ => d.state = .stopped → d.jobs = []
  | _ => True

/-- The fields are those of a phase that may follow `p` at `e`, and nothing was dropped. -/
def Data.Follows (d : Data) (p : Phase) (e : Event) : Prop :=
  (∃ q, p.Step e q ∧ d.In q) ∧ d.NothingDropped

/-- Doing nothing follows the life cycle. -/
theorem follows_same {d : Data} {p : Phase} (e : Event) (h : d.In p) (hn : d.NothingDropped) :
    d.Follows p e :=
  ⟨⟨p, .stay p e, h⟩, hn⟩

/-- So does a stop request, in any phase. -/
theorem follows_stopRunner {d : Data} {p : Phase} (e : Event) (r : Bool) (h : d.In p)
    (hn : d.NothingDropped) : (d.stopRunner r).Follows p e :=
  ⟨⟨p.stop, .stop p e, Data.stopRunner_in r h⟩, (Data.nothingDropped_stopRunner d r).mpr hn⟩

/-- So does a start command that finds no live coroutine behind the state `stopped`. -/
theorem follows_onStartCommand {d : Data} {p : Phase} (prepared : Bool) (profile : Option Bool)
    (h : d.In p) (hn : d.NothingDropped)
    (ha : StartsAlone d (.startCommand prepared profile)) :
    (d.onStartCommand prepared profile).Follows p (.startCommand prepared profile) := by
  unfold Data.onStartCommand
  cases prepared with
  | false => exact follows_stopRunner _ false h hn
  | true =>
    rw [if_pos rfl]
    by_cases hst : d.state = .stopped
    · rw [if_pos hst]
      have hj : d.jobs = [] := ha hst
      cases p with
      | off =>
        obtain ⟨hi | hi, hd⟩ := Data.start_in profile h hn
        · exact ⟨⟨_, .start profile, hi⟩, hd⟩
        · exact ⟨⟨_, .stop _ _, hi⟩, hd⟩
      | connecting =>
        obtain ⟨j, hc, _⟩ := h
        rw [hc.jobs] at hj
        cases hj
      | connected | joining | cleaning =>
        rw [h.1] at hst
        cases hst
    · rw [if_neg hst]
      exact follows_same _ h hn

/-- So does a segment of a live coroutine: it is the connecting one or the one waited for. -/
theorem follows_resumeJob {d : Data} {p : Phase} {k : Job} (id : Nat) (o : Outcome)
    (h : d.In p) (hn : d.NothingDropped) (hm : k ∈ d.jobs) :
    (d.resumeJob k o).Follows p (.resumeJob id o) := by
  cases p with
  | connecting =>
    obtain ⟨j, hc, hf⟩ := h
    rw [hc.jobs, List.mem_singleton] at hm
    subst hm
    obtain ⟨hi | hi | hi, hd⟩ := Data.resumeJob_in o hc hf hn
    · exact ⟨⟨_, .stay _ _, hi⟩, hd⟩
    · exact ⟨⟨_, .stop _ _, hi⟩, hd⟩
    · exact ⟨⟨_, .established id o, hi⟩, hd⟩
  | joining =>
    obtain ⟨hst, r, i, hsp, hj | ⟨j, hj, hid, hca⟩⟩ := h
    · rw [hj] at hm
      cases hm
    · rw [hj, List.mem_singleton] at hm
      subst hm
      have hr : (d.remove k.id).jobs = [] := by simp [Data.remove, hj]
      rcases Data.resumeJob_cancelled o hca with he | he
      · rw [he]
        exact ⟨⟨_, .stay _ _, hst, r, i, hsp, Or.inl hr⟩, hn⟩
      · rw [he]
        exact ⟨⟨_, .stay _ _, hst, r, i, hsp, Or.inl hr⟩, hn⟩
  | off | connected =>
    rw [h.2.2.1] at hm
    cases hm
  | cleaning =>
    rw [h.2.1] at hm
    cases hm

/-- So does a segment of the stopping coroutine. -/
theorem follows_resumeStop {d d' : Data} {p : Phase} {i : Nat} (h : d.In p)
    (hn : d.NothingDropped) (hs : step d (.resumeStop i) = some d') :
    d'.Follows p (.resumeStop i) := by
  simp only [step, Option.bind_eq_some_iff] at hs
  obtain ⟨st, hst, hs⟩ := hs
  have hm : st ∈ d.stoppers := List.mem_of_getElem? hst
  have hi : i < d.stoppers.length := (List.getElem?_eq_some_iff.mp hst).1
  cases p with
  | joining =>
    obtain ⟨hstate, r, id, hsp, hj⟩ := h
    rw [hsp, List.mem_singleton] at hm
    rw [hsp, List.length_singleton] at hi
    obtain rfl : i = 0 := by omega
    subst hm
    simp only [Data.resumeStop] at hs
    split at hs
    · cases hs
    · next hl =>
      cases hs
      have hjobs : d.jobs = [] := by
        rcases hj with hj | ⟨j, hj, hid, _⟩
        · exact hj
        · simp [Data.live, hj, hid] at hl
      exact ⟨⟨_, .joined 0, hstate, hjobs, ⟨r, by simp [hsp]⟩, rfl, rfl, rfl, rfl⟩, hn⟩
  | cleaning =>
    obtain ⟨_, hj, ⟨r, hsp⟩, hfree⟩ := h
    rw [hsp, List.mem_singleton] at hm
    rw [hsp, List.length_singleton] at hi
    obtain rfl : i = 0 := by omega
    subst hm
    cases hs
    exact ⟨⟨_, .cleaned 0, rfl, by simp [hsp], hj, hfree⟩, hn⟩
  | off | connected =>
    rw [h.2.1] at hm
    cases hm
  | connecting =>
    obtain ⟨j, hc, _⟩ := h
    rw [hc.stoppers] at hm
    cases hm

/-- When start commands come alone, one segment follows the life cycle and drops nothing. -/
theorem step_follows {d d' : Data} {p : Phase} {e : Event} (h : d.In p)
    (hn : d.NothingDropped) (ha : StartsAlone d e) (hs : step d e = some d') :
    d'.Follows p e := by
  cases e with
  | startCommand prepared profile =>
    cases hs
    exact follows_onStartCommand prepared profile h hn ha
  | closeBroadcast =>
    cases hs
    split
    · exact follows_stopRunner _ false h hn
    · exact follows_same _ h hn
  | reloadBroadcast =>
    cases hs
    split
    · unfold Data.forceLoad
      split
      · exact follows_same _ h hn
      · split
        · exact follows_stopRunner _ true h hn
        · exact follows_same _ h hn
    · exact follows_same _ h hn
  | stopCall =>
    cases hs
    exact follows_stopRunner _ false h hn
  | resumeJob id o =>
    simp only [step, Option.map_eq_some_iff] at hs
    obtain ⟨k, hk, rfl⟩ := hs
    exact follows_resumeJob id o h hn (List.mem_of_find?_eq_some hk)
  | resumeStop i => exact follows_resumeStop h hn hs

/-- The new service is off. -/
theorem in_off_init : ({} : Data).In .off := ⟨rfl, rfl, rfl, rfl, rfl, rfl, rfl⟩

/-- Throughout a run at most one connecting coroutine is live and no stored proxy,
notification or process pool is overwritten, exactly when every start command that passes the
guard is delivered while no connecting coroutine is live. -/
theorem sound_iff_startsAlone (es : List Event) :
    Always step Data.Sound {} es ↔ Along step StartsAlone {} es := by
  apply always_iff_along (J := fun d ↦ (∃ p, d.In p) ∧ d.NothingDropped)
  · rintro d ⟨⟨p, hp⟩, hn⟩
    exact ⟨hp.length_le, hn⟩
  · rintro d e d' ⟨⟨p, hp⟩, hn⟩ ha hs
    obtain ⟨⟨q, _, hq⟩, hd⟩ := step_follows hp hn ha hs
    exact ⟨⟨q, hq⟩, hd⟩
  · rintro d e d' ⟨⟨p, hp⟩, hn⟩ ha hs hq
    -- only an accepted start with a live coroutine breaks the condition
    cases e with
    | startCommand prepared profile =>
      cases prepared with
      | false => exact ha trivial
      | true =>
        simp only [StartsAlone, Classical.not_imp] at ha
        have hd' : d' = d.start profile := by
          cases hs
          unfold Data.onStartCommand
          rw [if_pos rfl, if_pos ha.1]
        cases p with
        | off => exact ha.2 hp.2.2.1
        | connecting =>
          obtain ⟨j, hc, _⟩ := hp
          exact Data.start_drops profile hc (hd' ▸ hq.2)
        | connected | joining | cleaning =>
          rw [hp.1] at ha
          exact nomatch ha.1
    | closeBroadcast | reloadBroadcast | stopCall => exact ha trivial
    | resumeJob id o => exact ha trivial
    | resumeStop i => exact ha trivial
  · exact ⟨⟨.off, in_off_init⟩, rfl, rfl, rfl⟩

/-- Two start commands in a row: the second finds the state still `stopped`, launches a second
coroutine and overwrites the first proxy and notification. -/
theorem second_start_not_sound :
    ¬ Always step Data.Sound {}
      [.startCommand true (some false), .startCommand true (some false)] := by
  intro h
  have hs := h.last (t := (((({} : Data).start (some false)).start (some false)))) rfl
  revert hs
  simp [Data.Sound, Data.start]

end FastSearch.Service
