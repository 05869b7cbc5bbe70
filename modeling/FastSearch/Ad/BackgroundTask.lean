import FastSearch.Lib.EventSystem

/-!
# The background task

`ad/AdBackgroundTask.kt`: a count of started activities, a timer of three seconds that runs while
the app is in the background, and a flag that the timer sets and the next started activity
consumes. Which activity is on top is known to a library; here it is a function of the started
activities. A task may change the list of tasks while it runs.
-/

namespace FastSearch.Ad

open EventSystem

/-- What the callbacks ask other components to do. -/
inductive BackgroundEffect (α τ : Type) where
  /-- `AdvertiseManager.request(Request.forOpen())`. -/
  | requestOpen
  /-- `startActivity` of `SplashActivity`, from the activity on top. -/
  | startSplash (top : α)
  | runTask (task : τ)
  /-- The timer finishes `SplashActivity` and `AdActivity`. -/
  | finishActivities
  deriving DecidableEq, Repr

/-- The fields of `AdBackgroundTask`, with records. A timer is its number; `mJob` keeps the last
one, fired or not, and `pending` are those launched that were neither cancelled nor have fired.
`dropTimer` is the timer launched when the count last dropped to zero, `startedSince` says whether
an activity was started since. The activities of one process do not fill the 32 bits of the
count. -/
structure BackgroundTask (α τ : Type) where
  mActiveActivityCount : Int := 0
  mJob : Option Nat := none
  mTaskFlag : Bool := false
  mTasks : List τ := []
  pending : List Nat := []
  started : List α := []
  launched : Nat := 0
  dropTimer : Option Nat := none
  fired : List Nat := []
  startedSince : Bool := false
  log : List (BackgroundEffect α τ) := []
  deriving DecidableEq, Repr

namespace BackgroundTask

variable {α τ : Type}

/-- The lifecycle callbacks, the timers, and the list of tasks. -/
inductive Event (α τ : Type) where
  | onActivityStarted (activity : α)
  | onActivityStopped (activity : α)
  /-- A pending timer arrives at its three seconds. -/
  | timerFires (timer : Nat)
  | register (runnable : τ)
  | unregister (runnable : τ)
  deriving DecidableEq, Repr

section Model

variable [DecidableEq α] [DecidableEq τ]

/-- `notifyTask`, `ad/AdBackgroundTask.kt:89`: the tasks of a snapshot that are still registered
at their turn, and the list they leave. -/
def notifyTask (onRun : τ → List τ → List τ) : List τ → List τ → List τ × List τ
  | [], mTasks => ([], mTasks)
  | it :: tasks, mTasks =>
    if it ∈ mTasks then
      let r := notifyTask onRun tasks (onRun it mTasks)
      (it :: r.1, r.2)
    else notifyTask onRun tasks mTasks

/-- `isInBackground`, `ad/AdBackgroundTask.kt:106`. -/
def isInBackground (s : BackgroundTask α τ) : Bool := s.mActiveActivityCount = 0

/-- `mJob?.cancel()`: the timer that `mJob` refers to is pending no more. -/
def cancelJob (s : BackgroundTask α τ) : BackgroundTask α τ :=
  { s with pending := s.pending.filter fun j ↦ some j ≠ s.mJob }

-- the activity on top, and what running a task does to the list of tasks
variable (getTopActivity : List α → Option α) (onRun : τ → List τ → List τ)

/-- The body under `if (mTaskFlag)`, `ad/AdBackgroundTask.kt:36`. -/
def consumeFlag (s : BackgroundTask α τ) : BackgroundTask α τ :=
  let splash := match getTopActivity s.started with
    | some top => [BackgroundEffect.startSplash top]
    | none => []
  let (ran, mTasks) := notifyTask onRun s.mTasks s.mTasks
  { s with
    mTaskFlag := false
    mTasks := mTasks
    log := s.log ++ .requestOpen :: splash ++ ran.map .runTask }

/-- `onActivityStarted`, `ad/AdBackgroundTask.kt:32`. -/
def onActivityStarted (s : BackgroundTask α τ) (activity : α) : BackgroundTask α τ :=
  let s := { s with
    mActiveActivityCount := s.mActiveActivityCount + 1
    started := activity :: s.started
    startedSince := true }
  let s := { s.cancelJob with mJob := none }
  if s.mTaskFlag then s.consumeFlag getTopActivity onRun else s

/-- `onActivityStopped`, `ad/AdBackgroundTask.kt:62`. -/
def onActivityStopped (s : BackgroundTask α τ) (activity : α) : BackgroundTask α τ :=
  let s := { s with
    mActiveActivityCount := s.mActiveActivityCount - 1
    started := s.started.erase activity }
  if s.mActiveActivityCount ≤ 0 then
    { s with
      mJob := some s.launched
      pending := s.pending ++ [s.launched]
      launched := s.launched + 1
      dropTimer := some s.launched
      startedSince := false }
  else s

/-- The coroutine after its delay, `ad/AdBackgroundTask.kt:67`. -/
def timerFires (s : BackgroundTask α τ) (timer : Nat) : BackgroundTask α τ :=
  { s with
    mTaskFlag := true
    pending := s.pending.filter (· ≠ timer)
    fired := timer :: s.fired
    log := s.log ++ [.finishActivities] }

/-- One step: an activity is started only when it is not, and stopped only when it is; a timer
fires only while it is pending. -/
def step (s : BackgroundTask α τ) : Event α τ → Option (BackgroundTask α τ)
  | .onActivityStarted a =>
    if a ∈ s.started then none else some (s.onActivityStarted getTopActivity onRun a)
  | .onActivityStopped a => if a ∈ s.started then some (s.onActivityStopped a) else none
  | .timerFires j => if j ∈ s.pending then some (s.timerFires j) else none
  | .register r => some { s with mTasks := s.mTasks ++ [r] }
  | .unregister r => some { s with mTasks := s.mTasks.erase r }

end Model

/-! ### What is to hold -/

/-- The timer launched when the count last dropped to zero has fired. -/
def FiredSinceDrop (s : BackgroundTask α τ) : Prop := ∃ j, s.dropTimer = some j ∧ j ∈ s.fired

/-- That timer has fired, and no activity was started since the count dropped. -/
def Due (s : BackgroundTask α τ) : Prop := s.startedSince = false ∧ s.FiredSinceDrop

/-- The count is that of the started activities; at most one timer is pending, and a timer or the
flag only without started activities. -/
structure Consistent (s : BackgroundTask α τ) : Prop where
  count : s.mActiveActivityCount = s.started.length
  pending_le : s.pending.length ≤ 1
  pending_background : s.pending ≠ [] → s.started = []
  flag_background : s.mTaskFlag = true → s.started = []

/-- The tasks run by some effects. -/
def tasksRun (effects : List (BackgroundEffect α τ)) : List τ :=
  effects.filterMap fun
    | .runTask r => some r
    | _ => none

/-- A started event launches `SplashActivity` exactly under the condition `due`, no other event
does, and the registered tasks are run on exactly these events. -/
def LaunchesIff [DecidableEq τ] (onRun : τ → List τ → List τ) (due : BackgroundTask α τ → Prop)
    (s : BackgroundTask α τ) (e : Event α τ) (t : BackgroundTask α τ) : Prop :=
  ∃ effects, t.log = s.log ++ effects ∧
    ((∃ top, .startSplash top ∈ effects) ↔ (∃ a, e = .onActivityStarted a) ∧ due s) ∧
    ((∃ a, e = .onActivityStarted a) ∧ due s →
      tasksRun effects = (notifyTask onRun s.mTasks s.mTasks).1) ∧
    (¬ ((∃ a, e = .onActivityStarted a) ∧ due s) → tasksRun effects = [])

/-- The flag says that a launch is due; a pending timer is the one launched at the last drop. -/
structure Inv (s : BackgroundTask α τ) : Prop where
  count : s.mActiveActivityCount = s.started.length
  flag_iff : s.mTaskFlag = true ↔ s.Due
  timer : s.pending = [] ∨
    ∃ j, s.pending = [j] ∧ s.mJob = some j ∧ s.dropTimer = some j ∧ s.startedSince = false
  background : s.startedSince = false → s.started = []
  pending_lt : ∀ j ∈ s.pending, j < s.launched
  fired_lt : ∀ j ∈ s.fired, j < s.launched

theorem Inv.consistent {s : BackgroundTask α τ} (h : s.Inv) : s.Consistent where
  count := h.count
  pending_le := by
    rcases h.timer with hp | ⟨j, hp, _⟩
    · simp [hp]
    · simp [hp]
  pending_background := by
    intro hne
    rcases h.timer with hp | ⟨j, _, _, _, hs⟩
    · exact absurd hp hne
    · exact h.background hs
  flag_background := by
    intro hf
    exact h.background (h.flag_iff.mp hf).1

/-! ### Tasks -/

/-- If no task takes another one out of the list, all registered tasks are run, in order. -/
theorem notifyTask_eq [DecidableEq τ] {onRun : τ → List τ → List τ}
    (h : ∀ r l, ∀ x ∈ l, x ∈ onRun r l) (tasks mTasks : List τ)
    (hsub : ∀ x ∈ tasks, x ∈ mTasks) : (notifyTask onRun tasks mTasks).1 = tasks := by
  induction tasks generalizing mTasks with
  | nil => rfl
  | cons it tasks ih =>
    rw [List.forall_mem_cons] at hsub
    rw [notifyTask, if_pos hsub.1]
    simp only [List.cons.injEq, true_and]
    apply ih
    intro x hx
    exact h it mTasks x (hsub.2 x hx)

@[simp] theorem tasksRun_map_runTask (ran : List τ) :
    tasksRun (ran.map (BackgroundEffect.runTask (α := α))) = ran := by
  induction ran with
  | nil => rfl
  | cons r ran ih =>
    rw [tasksRun, List.map_cons, List.filterMap_cons]
    exact congrArg (r :: ·) ih

/-! ### Steps -/

/-- A started activity cancels the pending timer, if there is one. -/
theorem Inv.pending_cancelJob {s : BackgroundTask α τ} (h : s.Inv) :
    s.pending.filter (fun j ↦ some j ≠ s.mJob) = [] := by
  rcases h.timer with hp | ⟨j, hp, hj, _⟩
  · simp [hp]
  · simp [hp, hj]

/-- With an activity started and the flag consumed there is nothing left to launch. -/
theorem inv_of_foreground {s : BackgroundTask α τ} (hc : s.mActiveActivityCount = s.started.length)
    (hs : s.startedSince = true) (hf : s.mTaskFlag = false) (hp : s.pending = [])
    (hl : ∀ j ∈ s.fired, j < s.launched) : s.Inv where
  count := hc
  flag_iff := by
    rw [hf]
    refine iff_of_false (by decide) ?_
    intro hd
    exact absurd (hs.symm.trans hd.1) (by decide)
  timer := Or.inl hp
  background := by
    intro hb
    exact absurd (hs.symm.trans hb) (by decide)
  pending_lt := by
    intro j hj
    rw [hp] at hj
    cases hj
  fired_lt := hl

section Started

variable [DecidableEq τ] (getTopActivity : List α → Option α) (onRun : τ → List τ → List τ)
  {s : BackgroundTask α τ}

/-- What a started event does: the timer is gone, and a set flag is consumed. -/
theorem onActivityStarted_cases (h : s.Inv) (a : α) :
    ∃ s' : BackgroundTask α τ,
      s' = { s with
        mActiveActivityCount := s.mActiveActivityCount + 1, started := a :: s.started
        startedSince := true, pending := [], mJob := none } ∧
      ((s.mTaskFlag = true ∧
          s.onActivityStarted getTopActivity onRun a = s'.consumeFlag getTopActivity onRun) ∨
        (s.mTaskFlag = false ∧ s.onActivityStarted getTopActivity onRun a = s')) := by
  refine ⟨_, rfl, ?_⟩
  simp only [onActivityStarted, cancelJob, h.pending_cancelJob]
  cases s.mTaskFlag with
  | true => exact Or.inl ⟨rfl, rfl⟩
  | false => exact Or.inr ⟨rfl, rfl⟩

theorem inv_onActivityStarted (h : s.Inv) (a : α) :
    (s.onActivityStarted getTopActivity onRun a).Inv := by
  have hcount : s.mActiveActivityCount + 1 = ((a :: s.started).length : Int) := by
    rw [h.count]
    rfl
  obtain ⟨s', rfl, ⟨hf, he⟩ | ⟨hf, he⟩⟩ :=
    onActivityStarted_cases getTopActivity onRun h a
  · rw [he]
    exact inv_of_foreground hcount rfl rfl rfl h.fired_lt
  · rw [he]
    exact inv_of_foreground hcount rfl hf rfl h.fired_lt

/-- A started event launches `SplashActivity` and runs the tasks exactly when that is due. -/
theorem launchesIff_onActivityStarted (htop : ∀ l, l ≠ [] → (getTopActivity l).isSome = true)
    (h : s.Inv) (a : α) :
    LaunchesIff onRun Due s (.onActivityStarted a)
      (s.onActivityStarted getTopActivity onRun a) := by
  have hstart : (∃ b, (.onActivityStarted a : Event α τ) = .onActivityStarted b) ∧ s.Due ↔
      s.mTaskFlag = true := by
    rw [h.flag_iff]
    exact ⟨fun hd ↦ hd.2, fun hd ↦ ⟨⟨a, rfl⟩, hd⟩⟩
  unfold LaunchesIff
  rw [hstart]
  obtain ⟨s', rfl, ⟨hf, he⟩ | ⟨hf, he⟩⟩ :=
    onActivityStarted_cases getTopActivity onRun h a
  · obtain ⟨top, ht⟩ := Option.isSome_iff_exists.mp (htop (a :: s.started) (by simp))
    refine ⟨.requestOpen :: .startSplash top ::
      (notifyTask onRun s.mTasks s.mTasks).1.map .runTask, ?_, ?_, ?_, ?_⟩
    · rw [he]
      simp [consumeFlag, ht]
    · exact iff_of_true ⟨top, by simp⟩ hf
    · intro _
      exact tasksRun_map_runTask _
    · intro hn
      exact absurd hf hn
  · refine ⟨[], ?_, ?_, ?_, ?_⟩
    · rw [he]
      simp
    · rw [hf]
      exact iff_of_false (by simp) (by decide)
    · rw [hf]
      exact fun hd ↦ absurd hd (by decide)
    · exact fun _ ↦ rfl

end Started

theorem inv_onActivityStopped [DecidableEq α] {s : BackgroundTask α τ} (h : s.Inv) {a : α}
    (ha : a ∈ s.started) :
    (s.onActivityStopped a).Inv := by
  have hs : s.startedSince = true := by
    cases hb : s.startedSince with
    | true => rfl
    | false =>
      rw [h.background hb] at ha
      cases ha
  have hflag : s.mTaskFlag = false := by
    cases hf : s.mTaskFlag with
    | false => rfl
    | true => exact absurd ((h.flag_iff.mp hf).1.symm.trans hs) (by decide)
  have hpending : s.pending = [] := by
    rcases h.timer with hp | ⟨_, _, _, _, hb⟩
    · exact hp
    · exact absurd (hb.symm.trans hs) (by decide)
  have hpos : 0 < s.started.length := List.length_pos_of_mem ha
  have hcount : s.mActiveActivityCount - 1 = ((s.started.erase a).length : Int) := by
    rw [h.count, List.length_erase_of_mem ha]
    omega
  unfold onActivityStopped
  simp only
  split
  · next hz =>
    have hnil : s.started.erase a = [] := by
      apply List.length_eq_zero_iff.mp
      omega
    refine ⟨hcount, ?_, ?_, fun _ ↦ hnil, ?_, ?_⟩
    · rw [hflag]
      refine iff_of_false (by decide) ?_
      -- the new timer has not fired yet
      rintro ⟨_, j, hj, hfired⟩
      cases hj
      exact absurd (h.fired_lt _ hfired) (Nat.lt_irrefl _)
    · exact Or.inr ⟨s.launched, by rw [hpending]; rfl, rfl, rfl, rfl⟩
    · intro j hj
      simp only [hpending, List.nil_append, List.mem_singleton] at hj
      rw [hj]
      exact Nat.lt_succ_self _
    · intro j hj
      exact Nat.lt_succ_of_lt (h.fired_lt j hj)
  · exact inv_of_foreground hcount hs hflag hpending h.fired_lt

theorem inv_timerFires {s : BackgroundTask α τ} (h : s.Inv) {j : Nat} (hj : j ∈ s.pending) :
    (s.timerFires j).Inv := by
  rcases h.timer with hp | ⟨i, hp, _, hd, hb⟩
  · rw [hp] at hj
    cases hj
  · obtain rfl : j = i := by simpa [hp] using hj
    refine ⟨h.count, ?_, ?_, h.background, ?_, ?_⟩
    · exact iff_of_true rfl ⟨hb, j, hd, by simp [timerFires]⟩
    · exact Or.inl (by simp [timerFires, hp])
    · intro i hi
      simp [timerFires, hp] at hi
    · intro i hi
      rcases List.mem_cons.mp hi with rfl | hi
      · exact h.pending_lt i hj
      · exact h.fired_lt i hi

section Steps

variable [DecidableEq α] [DecidableEq τ] {getTopActivity : List α → Option α}
  {onRun : τ → List τ → List τ} {s t : BackgroundTask α τ}

/-- Every step keeps the invariant. -/
theorem inv_step {e : Event α τ} (h : s.Inv) (hs : s.step getTopActivity onRun e = some t) :
    t.Inv := by
  cases e with
  | onActivityStarted a =>
    simp only [step] at hs
    split at hs
    · cases hs
    · cases hs
      exact inv_onActivityStarted getTopActivity onRun h a
  | onActivityStopped a =>
    simp only [step] at hs
    split at hs
    · next ha =>
      cases hs
      exact inv_onActivityStopped h ha
    · cases hs
  | timerFires j =>
    simp only [step] at hs
    split at hs
    · next hj =>
      cases hs
      exact inv_timerFires h hj
    · cases hs
  | register r | unregister r =>
    cases hs
    exact ⟨h.count, h.flag_iff, h.timer, h.background, h.pending_lt, h.fired_lt⟩

/-- Every step launches and runs tasks exactly when that is due. -/
theorem launchesIff_step (htop : ∀ l, l ≠ [] → (getTopActivity l).isSome = true) {e : Event α τ}
    (h : s.Inv) (hs : s.step getTopActivity onRun e = some t) : LaunchesIff onRun Due s e t := by
  have hother : ∀ (effects : List (BackgroundEffect α τ)), t.log = s.log ++ effects →
      (∀ top, .startSplash top ∉ effects) → tasksRun effects = [] →
      (∀ a, e ≠ .onActivityStarted a) → LaunchesIff onRun Due s e t := by
    intro effects hl hsplash hrun he
    have hno : ¬ ((∃ a, e = .onActivityStarted a) ∧ s.Due) := fun ⟨⟨a, ha⟩, _⟩ ↦ he a ha
    exact ⟨effects, hl, iff_of_false (fun ⟨top, ht⟩ ↦ hsplash top ht) hno,
      fun hd ↦ absurd hd hno, fun _ ↦ hrun⟩
  cases e with
  | onActivityStarted a =>
    simp only [step] at hs
    split at hs
    · cases hs
    · cases hs
      exact launchesIff_onActivityStarted getTopActivity onRun htop h a
  | onActivityStopped a =>
    refine hother [] ?_ (by simp) rfl (fun b hb ↦ (nomatch hb))
    simp only [step] at hs
    split at hs
    · cases hs
      unfold onActivityStopped
      simp only
      split <;> simp
    · cases hs
  | timerFires j =>
    refine hother [.finishActivities] ?_ (by simp) rfl (fun b hb ↦ (nomatch hb))
    simp only [step] at hs
    split at hs
    · cases hs
      rfl
    · cases hs
  | register r | unregister r =>
    cases hs
    exact hother [] (by simp) (by simp) rfl (fun b hb ↦ (nomatch hb))

end Steps

/-! ### Runs -/

/-- For every run from the start of the process: the count is that of the started activities, a
timer is pending and the flag set only without them, and an activity that is started launches
`SplashActivity` exactly if it is the first since the count last dropped to zero and the timer
launched then has fired. On these events, and no others, the registered tasks are run, all of them
if none takes another out of the list. -/
theorem background_task_runs [DecidableEq α] [DecidableEq τ] (getTopActivity : List α → Option α)
    (onRun : τ → List τ → List τ) (htop : ∀ l, l ≠ [] → (getTopActivity l).isSome = true)
    (es : List (Event α τ)) :
    Always (step getTopActivity onRun) Consistent {} es ∧
      Throughout (step getTopActivity onRun) (LaunchesIff onRun Due) {} es ∧
      ((∀ r l, ∀ x ∈ l, x ∈ onRun r l) → ∀ l, (notifyTask onRun l l).1 = l) := by
  have hinit : ({} : BackgroundTask α τ).Inv :=
    ⟨rfl, iff_of_false Bool.false_ne_true (fun ⟨_, j, hj, _⟩ ↦ nomatch hj), Or.inl rfl, fun _ ↦ rfl,
      fun j hj ↦ (nomatch hj), fun j hj ↦ (nomatch hj)⟩
  refine ⟨?_, ?_, ?_⟩
  · intro pre t _ hr
    exact (invariant_run (J := Inv) (fun _ _ _ h hs ↦ inv_step h hs) hinit hr).consistent
  · intro pre e t u _ hr hu
    have ht : t.Inv := invariant_run (J := Inv) (fun _ _ _ h hs ↦ inv_step h hs) hinit hr
    exact launchesIff_step htop ht hu
  · intro h l
    exact notifyTask_eq h l l fun x hx ↦ hx

/-- The activities are numbers, the last one started is on top, and a task takes none out. -/
theorem background_task_runs_head :
    Always (step (α := Nat) (τ := Nat) List.head? fun _ l ↦ l) Consistent {}
        [.register 7, .onActivityStarted 0, .onActivityStopped 0, .timerFires 0,
          .onActivityStarted 1] ∧
      Throughout (step (α := Nat) (τ := Nat) List.head? fun _ l ↦ l)
        (LaunchesIff (fun _ l ↦ l) Due) {}
        [.register 7, .onActivityStarted 0, .onActivityStopped 0, .timerFires 0,
          .onActivityStarted 1] ∧
      ((∀ r l, ∀ x ∈ l, x ∈ (fun (_ : Nat) (l : List Nat) ↦ l) r l) →
        ∀ l, (notifyTask (fun (_ : Nat) (l : List Nat) ↦ l) l l).1 = l) :=
  background_task_runs List.head? (fun _ l ↦ l)
    (fun l hl ↦ by rw [List.isSome_head?]; simpa using hl) _

/-- Two activities are started after the timer has fired: the first one consumes the flag, and the
second launches nothing. -/
theorem second_start_launches_nothing :
    ¬ Throughout (step (α := Nat) (τ := Nat) List.head? fun _ l ↦ l)
      (LaunchesIff (fun _ l ↦ l) FiredSinceDrop) {}
      [.onActivityStarted 0, .onActivityStopped 0, .timerFires 0, .onActivityStarted 1,
        .onActivityStarted 2] := by
  intro h
  obtain ⟨effects, hl, hiff, _⟩ := h [.onActivityStarted 0, .onActivityStopped 0, .timerFires 0,
    .onActivityStarted 1] (.onActivityStarted 2) _ _ (List.prefix_refl _) rfl rfl
  obtain ⟨top, ht⟩ := hiff.mpr ⟨⟨2, rfl⟩, 0, rfl, by decide⟩
  have hlog : [.finishActivities, .requestOpen, .startSplash 1] ++ effects =
      [.finishActivities, .requestOpen, .startSplash 1] ++ [] := hl.symm
  rw [List.append_cancel_left hlog] at ht
  cases ht

end BackgroundTask
end FastSearch.Ad
