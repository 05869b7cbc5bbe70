import FastSearch.Lib.EventSystem

/-!
# The guarded process pool

`bg/GuardedProcessPool.kt` with the restart callback of `bg/VpnService.kt:228`. Each guard is a
coroutine on the main thread; child processes and their stdout threads run beside it. A guard
is between two suspension points, except for `calling`: there its stdout thread is already
running while the guard is still about to call `receive`, and the main thread is busy.

A suspended `receive` resumes later than the rendezvous that hands it the exit code. If the
coroutine is cancelled, or the enclosing timeout strikes, before it resumes, the call ends with
that exception and the exit code is lost (the prompt cancellation of kotlinx.coroutines 1.5).
Stderr threads only log and are left out, so are the log lines.
-/

namespace FastSearch.Service

open EventSystem

/-- The receive of the clean-up a guard is in: after SIGTERM (`:98`), after `destroy` (`:102`),
or the last one (`:105`). -/
inductive CleanUp where
  | terminated
  | destroyed
  | last
  deriving DecidableEq, Repr

/-- Where a guard is: about to call the `receive` of its loop, suspended in it, suspended with
the exit code handed over, in the `delay` of `sendFd`, in a receive of the clean-up without and
with an exit code handed over, or at its end. -/
inductive GuardPc where
  | calling
  | receiving
  | handed
  | inCallback (tries : Nat)
  | cleaning (c : CleanUp)
  | cleaningHanded (c : CleanUp)
  | done
  deriving DecidableEq, Repr

/-- `Guard`, `bg/GuardedProcessPool.kt:46`. Processes are numbered by the restarts; `stdout` has
the process of each stdout thread that has not delivered its exit code. -/
structure Guard where
  callback : Bool
  process : Nat := 0
  alive : Bool := true
  stdout : List Nat := []
  running : Bool := true
  pc : GuardPc := .done
  fatal : Bool := false
  deriving DecidableEq, Repr

/-- How an attempt to connect in `sendFd` ends. The callback answers an `ErrnoException` with
`stopRunner`, which closes the pool at once unless it has a job to join. -/
inductive SendFd where
  | sent
  | ioError
  | errno (closes : Bool)
  deriving DecidableEq, Repr

/-- What can happen to one guard. The flag `started` says whether `start` succeeds where the
step restarts the process. -/
inductive GuardEvent where
  /-- The process exits. -/
  | processExit
  /-- The loop calls `receive`; `fast` says that the stdout thread is already sending. -/
  | callReceive (fast started : Bool)
  /-- The stdout thread of process `p` meets a suspended `receive`. -/
  | handOver (p : Nat)
  /-- The coroutine resumes from `receive`. -/
  | resume (started : Bool)
  /-- The coroutine resumes from the `delay` in `sendFd`. -/
  | delayOver (o : SendFd)
  /-- A `withTimeoutOrNull` of the clean-up runs out. -/
  | timeout
  deriving DecidableEq, Repr

namespace Guard

/-- The head of the loop, `bg/GuardedProcessPool.kt:63`. -/
def spawn (g : Guard) : Guard :=
  { g with stdout := g.stdout ++ [g.process], pc := .calling }

/-- From `process.destroy()` on, `bg/GuardedProcessPool.kt:100`. -/
def destroy (sdk : Nat) (g : Guard) : Guard :=
  { g with pc := .cleaning (if 26 ≤ sdk then .destroyed else .last) }

/-- The `finally` block, `bg/GuardedProcessPool.kt:89`. -/
def cleanUp (sdk : Nat) (g : Guard) : Guard :=
  if g.running then
    if sdk < 24 then { g with pc := .cleaning .terminated } else g.destroy sdk
  else { g with pc := .done }

/-- An `IOException` leaves the loop, `bg/GuardedProcessPool.kt:85`. -/
def fail (sdk : Nat) (g : Guard) : Guard := { g with fatal := true }.cleanUp sdk

/-- From `running = false` to the next suspension, `bg/GuardedProcessPool.kt:73`. In a cancelled
coroutine the `delay` of the callback throws at once. -/
def restart (sdk : Nat) (cancelled started : Bool) (g : Guard) : Guard :=
  if started then
    let g := { g with process := g.process + 1, alive := true, running := true }
    if g.callback then
      if cancelled then g.cleanUp sdk else { g with pc := .inCallback 0 }
    else g.spawn
  else { g with running := false }.fail sdk

/-- The process has exited. -/
def Exited (g : Guard) (p : Nat) : Prop := p ≠ g.process ∨ g.alive = false

instance (g : Guard) (p : Nat) : Decidable (g.Exited p) := by
  unfold Exited
  infer_instance

/-- One step of a guard in a pool whose job is or is not cancelled. -/
def step (sdk : Nat) (cancelled : Bool) (g : Guard) : GuardEvent → Option Guard
  | .processExit => if g.alive then some { g with alive := false } else none
  | .callReceive fast started =>
    if g.pc = .calling then
      if fast then
        if g.process ∈ g.stdout ∧ g.Exited g.process then
          some ({ g with stdout := g.stdout.erase g.process }.restart sdk cancelled started)
        else none
      else if cancelled then some (g.cleanUp sdk) else some { g with pc := .receiving }
    else none
  | .handOver p =>
    if p ∈ g.stdout ∧ g.Exited p then
      match g.pc with
      | .receiving =>
        -- cancellation has taken the waiting receiver out of the channel
        if cancelled then none else some { g with stdout := g.stdout.erase p, pc := .handed }
      | .cleaning c => some { g with stdout := g.stdout.erase p, pc := .cleaningHanded c }
      | _ => none
    else none
  | .resume started =>
    match g.pc with
    | .receiving => if cancelled then some (g.cleanUp sdk) else none
    | .handed => some (if cancelled then g.cleanUp sdk else g.restart sdk cancelled started)
    | .cleaningHanded _ => some { g with pc := .done }
    | _ => none
  | .delayOver o =>
    match g.pc with
    | .inCallback tries =>
      if cancelled then some (g.cleanUp sdk)
      else match o with
        | .sent | .errno _ => some g.spawn
        | .ioError =>
          if 5 < tries then some (g.fail sdk) else some { g with pc := .inCallback (tries + 1) }
    | _ => none
  | .timeout =>
    match g.pc with
    | .cleaning .terminated | .cleaningHanded .terminated => some (g.destroy sdk)
    | .cleaning .destroyed | .cleaningHanded .destroyed =>
      some { g with pc := .cleaning .last }
    | _ => none

/-- A guard that waits for an exit code in its clean-up has a stdout thread that will send it. -/
def Served (g : Guard) : Prop := ∀ c, g.pc = .cleaning c → g.process ∈ g.stdout

/-- The guard does not unwind between a restart and the stdout thread of the new process, nor
from a receive that was handed its exit code; and no timeout strikes after such a handover. -/
def Safe (cancelled : Bool) (g : Guard) : GuardEvent → Prop
  | .callReceive fast started =>
    fast = true → started = true → cancelled = true → g.callback = false
  | .resume _ => g.pc = .handed → cancelled = false
  | .delayOver o => cancelled = false ∧ ∀ tries, g.pc = .inCallback tries → o = .ioError → tries ≤ 5
  | .timeout => ∀ c, g.pc ≠ .cleaningHanded c
  | _ => True

/-! ### The invariant of a guard -/

/-- Exactly one stdout thread runs while a receive waits for it, and none from the handover to
the next turn of the loop. -/
def Inv (g : Guard) : Prop :=
  match g.pc with
  | .calling | .receiving => g.running = true ∧ g.stdout = [g.process]
  | .handed | .inCallback _ => g.running = true ∧ g.stdout = []
  | .cleaning _ => g.stdout = [g.process]
  | .cleaningHanded _ => g.stdout = []
  | .done => True

theorem Inv.served {g : Guard} (h : g.Inv) : g.Served := by
  intro c hc
  unfold Inv at h
  rw [hc] at h
  simp [h]

private theorem cleanUp_eq (sdk : Nat) {g : Guard} (h : g.running = true) :
    ∃ c, g.cleanUp sdk = { g with pc := .cleaning c } := by
  unfold cleanUp
  rw [if_pos h]
  split
  · exact ⟨_, rfl⟩
  · exact ⟨_, rfl⟩

/-- With its stdout thread running a guard may unwind. -/
private theorem inv_cleanUp (sdk : Nat) {g : Guard} (h : g.running = true)
    (ht : g.stdout = [g.process]) : (g.cleanUp sdk).Inv := by
  obtain ⟨c, hc⟩ := cleanUp_eq sdk h
  rw [hc]
  exact ht

/-- Without a stdout thread it may not. -/
private theorem not_served_cleanUp (sdk : Nat) {g : Guard} (h : g.running = true)
    (ht : g.stdout = []) : ¬ (g.cleanUp sdk).Served := by
  obtain ⟨c, hc⟩ := cleanUp_eq sdk h
  rw [hc]
  intro hs
  have hm : g.process ∈ g.stdout := hs c rfl
  rw [ht] at hm
  cases hm

private theorem inv_spawn {g : Guard} (h : g.running = true) (ht : g.stdout = []) :
    g.spawn.Inv := by
  refine ⟨h, ?_⟩
  change g.stdout ++ [g.process] = [g.process]
  rw [ht]
  rfl

private theorem erase_thread {g : Guard} {p : Nat} (h : g.stdout = [g.process])
    (hp : p ∈ g.stdout) : g.stdout.erase p = [] := by
  rw [h] at hp ⊢
  rw [List.mem_singleton.mp hp]
  simp

private theorem inv_restart (sdk : Nat) {cancelled started : Bool} {g : Guard}
    (ht : g.stdout = []) (hc : started = true → cancelled = true → g.callback = false) :
    (g.restart sdk cancelled started).Inv := by
  unfold restart
  cases started with
  | false => exact trivial
  | true =>
    by_cases hg : g.callback = true
    · have hn : cancelled = false := by
        cases cancelled with
        | false => rfl
        | true => simp [hc rfl rfl] at hg
      subst hn
      simp only [hg, if_true, Bool.false_eq_true, if_false]
      exact ⟨rfl, ht⟩
    · simp only [hg, if_true, Bool.false_eq_true, if_false]
      exact inv_spawn rfl ht

private theorem not_served_restart (sdk : Nat) {g : Guard} (ht : g.stdout = [])
    (hg : g.callback = true) : ¬ (g.restart sdk true true).Served := by
  unfold restart
  simp only [hg, if_true]
  exact not_served_cleanUp sdk rfl ht

section
variable {sdk : Nat} {cancelled : Bool} {g g' : Guard}

private theorem inv_callReceive {fast started : Bool} (h : g.Inv)
    (hc : g.Safe cancelled (.callReceive fast started))
    (hs : g.step sdk cancelled (.callReceive fast started) = some g') : g'.Inv := by
  simp only [step] at hs
  split at hs
  · next hpc =>
    simp only [Inv, hpc] at h
    cases fast with
    | true =>
      simp only [if_true] at hs
      split at hs
      · cases hs
        apply inv_restart
        · simp [h.2]
        · exact hc rfl
      · cases hs
    | false =>
      simp only [Bool.false_eq_true, if_false] at hs
      split at hs
      · cases hs
        exact inv_cleanUp sdk h.1 h.2
      · cases hs
        exact h
  · cases hs

private theorem inv_handOver {p : Nat} (h : g.Inv)
    (hs : g.step sdk cancelled (.handOver p) = some g') : g'.Inv := by
  simp only [step] at hs
  split at hs
  · next hp =>
    unfold Inv at h
    split at hs
    · next hpc =>
      rw [hpc] at h
      split at hs
      · cases hs
      · cases hs
        exact ⟨h.1, erase_thread h.2 hp.1⟩
    · next c hpc =>
      rw [hpc] at h
      cases hs
      exact erase_thread h hp.1
    · cases hs
  · cases hs

private theorem inv_resume {started : Bool} (h : g.Inv) (hc : g.Safe cancelled (.resume started))
    (hs : g.step sdk cancelled (.resume started) = some g') : g'.Inv := by
  simp only [step] at hs
  unfold Inv at h
  split at hs
  · next hpc =>
    rw [hpc] at h
    split at hs
    · cases hs
      exact inv_cleanUp sdk h.1 h.2
    · cases hs
  · next hpc =>
    rw [hpc] at h
    have hn : cancelled = false := hc hpc
    subst hn
    cases hs
    exact inv_restart sdk h.2 (by simp)
  · cases hs
    exact trivial
  · cases hs

private theorem inv_delayOver {o : SendFd} (h : g.Inv)
    (hc : g.Safe cancelled (.delayOver o))
    (hs : g.step sdk cancelled (.delayOver o) = some g') : g'.Inv := by
  simp only [step] at hs
  unfold Inv at h
  split at hs
  · next tries hpc =>
    rw [hpc] at h
    obtain ⟨hn, ho⟩ := hc
    subst hn
    simp only [Bool.false_eq_true, if_false] at hs
    cases o with
    | sent | errno =>
      cases hs
      exact inv_spawn h.1 h.2
    | ioError =>
      have ht : ¬ 5 < tries := Nat.not_lt.mpr (ho tries hpc rfl)
      simp only [if_neg ht] at hs
      cases hs
      exact h
  · cases hs

private theorem inv_timeout (h : g.Inv) (hc : g.Safe cancelled .timeout)
    (hs : g.step sdk cancelled .timeout = some g') : g'.Inv := by
  simp only [step] at hs
  unfold Inv at h
  split at hs
  · next hpc =>
    rw [hpc] at h
    cases hs
    exact h
  · next hpc => exact False.elim (hc _ hpc)
  · next hpc =>
    rw [hpc] at h
    cases hs
    exact h
  · next hpc => exact False.elim (hc _ hpc)
  · cases hs

/-- A safe step keeps the invariant. -/
theorem inv_step {e : GuardEvent} (h : g.Inv) (hc : g.Safe cancelled e)
    (hs : g.step sdk cancelled e = some g') : g'.Inv := by
  cases e with
  | processExit =>
    simp only [step] at hs
    split at hs
    · cases hs
      exact h
    · cases hs
  | callReceive fast started => exact inv_callReceive h hc hs
  | handOver p => exact inv_handOver h hs
  | resume started => exact inv_resume h hc hs
  | delayOver o => exact inv_delayOver h hc hs
  | timeout => exact inv_timeout h hc hs

end

/-- Any other step leaves the guard waiting for an exit code that nobody will send. -/
theorem not_served_step {sdk : Nat} {cancelled : Bool} {g g' : Guard} {e : GuardEvent}
    (h : g.Inv) (hc : ¬ g.Safe cancelled e) (hs : g.step sdk cancelled e = some g') :
    ¬ g'.Served := by
  cases e with
  | processExit | handOver => exact False.elim (hc trivial)
  | callReceive fast started =>
    simp only [Safe, Classical.not_imp, Bool.not_eq_false] at hc
    obtain ⟨rfl, rfl, rfl, hg⟩ := hc
    simp only [step, if_true] at hs
    split at hs
    · next hpc =>
      simp only [Inv, hpc] at h
      split at hs
      · cases hs
        exact not_served_restart sdk (by simp [h.2]) hg
      · cases hs
    · cases hs
  | resume started =>
    simp only [Safe, Classical.not_imp, Bool.not_eq_false] at hc
    obtain ⟨hpc, rfl⟩ := hc
    simp only [Inv, hpc] at h
    simp only [step, hpc, if_true] at hs
    cases hs
    exact not_served_cleanUp sdk h.1 h.2
  | delayOver o =>
    simp only [step] at hs
    split at hs
    · next tries hpc =>
      simp only [Inv, hpc] at h
      cases cancelled with
      | true =>
        simp only [if_true] at hs
        cases hs
        exact not_served_cleanUp sdk h.1 h.2
      | false =>
        simp only [Safe, true_and, Classical.not_forall, hpc] at hc
        obtain ⟨t, ht, rfl, ho⟩ := hc
        cases ht
        simp only [Bool.false_eq_true, if_false, if_pos (Nat.not_le.mp ho)] at hs
        cases hs
        exact not_served_cleanUp sdk h.1 h.2
    · cases hs
  | timeout =>
    simp only [Safe, Classical.not_forall, ne_eq, Classical.not_not] at hc
    obtain ⟨c, hpc⟩ := hc
    simp only [Inv, hpc] at h
    simp only [step, hpc] at hs
    have hn : ∀ c, ¬ Served { g with pc := .cleaning c } := by
      intro c hv
      have hm : g.process ∈ g.stdout := hv c rfl
      rw [h] at hm
      cases hm
    cases c with
    | terminated =>
      cases hs
      exact hn _
    | destroyed =>
      cases hs
      exact hn _
    | last => cases hs

/-- A guard that is served finishes once its process is dead: the thread sends, it resumes. -/
theorem finishes_of_served (sdk : Nat) (cancelled : Bool) {g : Guard} {c : CleanUp}
    (hv : g.Served) (hc : g.pc = .cleaning c) (hd : g.alive = false) :
    ∃ g', run (step sdk cancelled) g [.handOver g.process, .resume true] = some g' ∧
      g'.pc = .done := by
  have hm : g.process ∈ g.stdout ∧ g.Exited g.process := ⟨hv c hc, Or.inr hd⟩
  refine ⟨{ g with stdout := g.stdout.erase g.process, pc := .done }, ?_, rfl⟩
  simp only [run, step, if_pos hm, hc, Option.bind_some]

/-- The guard waits in its last receive and no stdout thread is left. -/
def Stuck (g : Guard) : Prop := g.pc = .cleaning .last ∧ g.stdout = []

/-- No step of its own or of its process frees such a guard. -/
theorem stuck_step {sdk : Nat} {cancelled : Bool} {g g' : Guard} {e : GuardEvent}
    (h : g.Stuck) (hs : g.step sdk cancelled e = some g') : g'.Stuck := by
  obtain ⟨hpc, ht⟩ := h
  cases e with
  | processExit =>
    simp only [step] at hs
    split at hs
    · cases hs
      exact ⟨hpc, ht⟩
    · cases hs
  | handOver p => simp [step, ht] at hs
  | callReceive | resume | delayOver | timeout => simp [step, hpc] at hs

end Guard

/-- `GuardedProcessPool`, `bg/GuardedProcessPool.kt:39`; `cancelled` is the state of its job. -/
structure ProcessPool where
  guards : List Guard := []
  cancelled : Bool := false
  deriving DecidableEq, Repr

namespace ProcessPool

/-- Calls on the pool and steps of its guards. -/
inductive Event where
  /-- `start` of a process that can be started, `bg/GuardedProcessPool.kt:114`. -/
  | start (callback : Bool)
  /-- `close`, `bg/GuardedProcessPool.kt:123`. -/
  | close
  /-- A step of the guard `i`. -/
  | guard (i : Nat) (e : GuardEvent)
  deriving DecidableEq, Repr

/-- The main thread is in the middle of a guard's segment. -/
def Busy (p : ProcessPool) : Prop := ∃ g ∈ p.guards, g.pc = .calling

instance (p : ProcessPool) : Decidable p.Busy := by
  unfold Busy
  infer_instance

/-- The step needs the main thread and does not belong to the segment it may be busy with. -/
def onMainThread : GuardEvent → Bool
  | .resume _ | .delayOver _ | .timeout => true
  | .processExit | .callReceive _ _ | .handOver _ => false

/-- The step closes the pool from within the callback. -/
def closes : GuardEvent → Bool
  | .delayOver (.errno closes) => closes
  | _ => false

/-- One atomic step of the pool. A coroutine launched in a cancelled scope never runs. -/
def step (sdk : Nat) (p : ProcessPool) : Event → Option ProcessPool
  | .start callback =>
    if p.Busy then none
    else
      let g : Guard := { callback }
      some { p with guards := p.guards ++ [if p.cancelled then g else g.spawn] }
  | .close => if p.Busy then none else some { p with cancelled := true }
  | .guard i e =>
    if onMainThread e ∧ p.Busy then none
    else
      (p.guards[i]?.bind (·.step sdk p.cancelled e)).map fun g ↦
        { p with guards := p.guards.set i g, cancelled := p.cancelled || closes e }

/-- Every guard that waits in its clean-up is going to be served. -/
def Served (p : ProcessPool) : Prop := ∀ g ∈ p.guards, g.Served

/-- The step is safe for the guard that takes it. -/
def Safe (p : ProcessPool) : Event → Prop
  | .guard i e => ∀ g, p.guards[i]? = some g → g.Safe p.cancelled e
  | _ => True

/-- The invariant of each guard. -/
def Inv (p : ProcessPool) : Prop := ∀ g ∈ p.guards, g.Inv

private theorem step_guard {sdk : Nat} {p p' : ProcessPool} {i : Nat} {e : GuardEvent}
    (hs : p.step sdk (.guard i e) = some p') :
    ∃ g g', p.guards[i]? = some g ∧ g.step sdk p.cancelled e = some g' ∧
      p'.guards = p.guards.set i g' := by
  simp only [step] at hs
  split at hs
  · cases hs
  · rw [Option.map_eq_some_iff] at hs
    obtain ⟨g', hg, rfl⟩ := hs
    rw [Option.bind_eq_some_iff] at hg
    obtain ⟨g, hi, hg⟩ := hg
    exact ⟨g, g', hi, hg, rfl⟩

/-- A safe step keeps the invariant of every guard. -/
theorem inv_step {sdk : Nat} {p p' : ProcessPool} {e : Event} (h : p.Inv) (hc : p.Safe e)
    (hs : p.step sdk e = some p') : p'.Inv := by
  cases e with
  | start callback =>
    simp only [step] at hs
    split at hs
    · cases hs
    · cases hs
      intro g hg
      rcases List.mem_append.mp hg with hg | hg
      · exact h g hg
      · rw [List.mem_singleton.mp hg]
        split
        · exact trivial
        · exact ⟨rfl, rfl⟩
  | close =>
    simp only [step] at hs
    split at hs
    · cases hs
    · cases hs
      exact h
  | guard i e =>
    obtain ⟨g, g', hi, hg, hp⟩ := step_guard hs
    intro x hx
    rw [hp] at hx
    rcases List.mem_or_eq_of_mem_set hx with hx | rfl
    · exact h x hx
    · exact Guard.inv_step (h g (List.mem_of_getElem? hi)) (hc g hi) hg

/-- Any other step leaves a guard that nobody will serve. -/
theorem not_served_step {sdk : Nat} {p p' : ProcessPool} {e : Event} (h : p.Inv)
    (hc : ¬ p.Safe e) (hs : p.step sdk e = some p') : ¬ p'.Served := by
  cases e with
  | start | close => exact False.elim (hc trivial)
  | guard i e =>
    obtain ⟨g, g', hi, hg, hp⟩ := step_guard hs
    have hn : ¬ g.Safe p.cancelled e := by
      intro hsafe
      apply hc
      intro x hx
      rw [hi] at hx
      cases hx
      exact hsafe
    intro hv
    apply Guard.not_served_step (h g (List.mem_of_getElem? hi)) hn hg
    apply hv
    rw [hp]
    exact List.mem_set (List.getElem?_eq_some_iff.mp hi).1 g'

/-- On every SDK level, all guards are served throughout a run exactly if its steps are safe. -/
theorem served_iff_safe (sdk : Nat) (es : List Event) :
    Always (step sdk) Served {} es ↔ Along (step sdk) Safe {} es := by
  apply always_iff_along (J := Inv)
  · intro p h g hg
    exact (h g hg).served
  · intro p e p' h hc hs
    exact inv_step h hc hs
  · intro p e p' h hc hs
    exact not_served_step h hc hs
  · intro g hg
    cases hg

/-- The process exits, is restarted, and the pool is closed while the callback is in its delay:
the guard unwinds before the new process has a stdout thread. -/
theorem close_in_callback_not_served :
    ¬ Always (step 30) Served {} [.start true, .guard 0 (.callReceive false true),
      .guard 0 .processExit, .guard 0 (.handOver 0), .guard 0 (.resume true), .close,
      .guard 0 (.delayOver .sent)] := by
  intro h
  have hs := h.last rfl
  have hm := hs _ List.mem_cons_self _ rfl
  cases hm

/-- A guard that nobody will serve keeps the pool's job from completing in every run that
follows. -/
theorem stuck_run {sdk : Nat} {p p' : ProcessPool} {i : Nat} {es : List Event}
    (h : ∃ g, p.guards[i]? = some g ∧ g.Stuck) (hr : run (step sdk) p es = some p') :
    ∃ g, p'.guards[i]? = some g ∧ g.Stuck := by
  apply invariant_run (J := fun p : ProcessPool ↦ ∃ g, p.guards[i]? = some g ∧ g.Stuck) _ h hr
  rintro p e p' ⟨g, hi, hg⟩ hs
  cases e with
  | start callback =>
    simp only [step] at hs
    split at hs
    · cases hs
    · cases hs
      exact ⟨g, by rw [List.getElem?_append_left (List.getElem?_eq_some_iff.mp hi).1, hi], hg⟩
  | close =>
    simp only [step] at hs
    split at hs
    · cases hs
    · cases hs
      exact ⟨g, hi, hg⟩
  | guard j e =>
    obtain ⟨x, x', hj, hx, hp⟩ := step_guard hs
    rw [hp]
    by_cases hij : j = i
    · subst hij
      rw [hi] at hj
      cases hj
      exact ⟨x', List.getElem?_set_self (List.getElem?_eq_some_iff.mp hi).1,
        Guard.stuck_step hg hx⟩
    · exact ⟨g, by rw [List.getElem?_set_ne hij, hi], hg⟩

end ProcessPool
end FastSearch.Service
