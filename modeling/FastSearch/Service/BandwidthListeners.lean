import FastSearch.Lib.EventSystem
import FastSearch.Lib.LinkedMap

/-!
# Listening for the bandwidth

`Binder` in `bg/BaseService.kt`: the callbacks that want to be told of the traffic, and the
coroutine that tells them. A call of another process comes in on a binder thread and posts a
coroutine to the main thread; a call of the service's own notification is on the main thread and
runs at once. Callbacks are numbered, and `isLocal` says which ones are of the process of the
service. What the loop tells them is left out.
-/

namespace FastSearch.Service

open EventSystem

/-- The bodies of `startListeningForBandwidth` and `stopListeningForBandwidth`. -/
inductive BandwidthTask where
  | start (cb : Nat) (timeout : Int)
  | stop (cb : Nat)
  deriving DecidableEq, Repr

namespace BandwidthTask

/-- The callback of a task. -/
def cb : BandwidthTask → Nat
  | start cb _ => cb
  | stop cb => cb

/-- Whether a callback listens after a task, by whether it did before. -/
def listens (c : Nat) (now : Bool) : BandwidthTask → Bool
  | start cb _ => if c = cb then true else now
  | stop cb => if c = cb then false else now

theorem listens_of_ne {c : Nat} {task : BandwidthTask} (h : c ≠ task.cb) (now : Bool) :
    task.listens c now = now := by
  cases task with
  | start cb timeout => exact if_neg h
  | stop cb => exact if_neg h

theorem foldl_listens_of_ne {c : Nat} {tasks : List BandwidthTask} (h : ∀ task ∈ tasks, c ≠ task.cb)
    (now : Bool) : tasks.foldl (listens c) now = now := by
  induction tasks with
  | nil => rfl
  | cons task tasks ih =>
    rw [List.foldl_cons, listens_of_ne (h task List.mem_cons_self)]
    exact ih fun task' hm ↦ h task' (List.mem_cons_of_mem task hm)

end BandwidthTask

/-- `Binder`, `bg/BaseService.kt:107`: `loops` are the coroutines of `loop` that are suspended in
their `delay`, `posted` those that wait for the main thread. `thrown` says that a `check` or a
`!!` failed. -/
structure BandwidthBinder where
  callbacks : List Nat := []
  bandwidthListeners : LinkedMap Nat Int := ∅
  looper : Option Nat := none
  loops : List Nat := []
  launched : Nat := 0
  posted : List BandwidthTask := []
  closed : Bool := false
  thrown : Bool := false

namespace BandwidthBinder

/-- `startListeningForBandwidth` on the main thread, `bg/BaseService.kt:161`: `and` evaluates both
of its operands. -/
def start (b : BandwidthBinder) (cb : Nat) (timeout : Int) : BandwidthBinder :=
  let first := b.bandwidthListeners.isEmpty && (b.bandwidthListeners.get? cb).isNone
  let b := { b with bandwidthListeners := b.bandwidthListeners.put cb timeout }
  if first then
    if b.looper.isSome then { b with thrown := true }
    else { b with
      looper := some b.launched
      loops := b.loops ++ [b.launched]
      launched := b.launched + 1 }
  else b

/-- `stopListeningForBandwidth` on the main thread, `bg/BaseService.kt:188`. -/
def stop (b : BandwidthBinder) (cb : Nat) : BandwidthBinder :=
  if (b.bandwidthListeners.get? cb).isNone then b
  else
    let b := { b with bandwidthListeners := b.bandwidthListeners.remove cb }
    if b.bandwidthListeners.isEmpty then
      match b.looper with
      | none => { b with thrown := true }
      | some j => { b with looper := none, loops := b.loops.erase j }
    else b

/-- A task runs on the main thread. -/
def perform (b : BandwidthBinder) : BandwidthTask → BandwidthBinder
  | .start cb timeout => b.start cb timeout
  | .stop cb => b.stop cb

variable (isLocal : Nat → Bool)

/-- A `launch` for a callback: nothing is launched once the binder is closed. -/
def launch (b : BandwidthBinder) (task : BandwidthTask) : BandwidthBinder :=
  if b.closed then b
  else if isLocal task.cb then b.perform task
  else { b with posted := b.posted ++ [task] }

/-- What can happen to the binder. -/
inductive Event where
  | registerCallback (cb : Nat)
  | unregisterCallback (cb : Nat)
  /-- `startListeningForBandwidth` or `stopListeningForBandwidth` is called. -/
  | call (task : BandwidthTask)
  /-- `onCallbackDied`. -/
  | died (cb : Nat)
  /-- The main thread runs a posted coroutine. -/
  | run
  /-- A `delay` of the loop is over. -/
  | wake (j : Nat)
  | close
  deriving DecidableEq, Repr

/-- One step. -/
def step (b : BandwidthBinder) : Event → Option BandwidthBinder
  | .registerCallback cb =>
    some (if b.closed then b else { b with callbacks := cb :: b.callbacks })
  | .unregisterCallback cb =>
    some { b.launch isLocal (.stop cb) with callbacks := b.callbacks.filter (· ≠ cb) }
  | .call task => some (b.launch isLocal task)
  | .died cb =>
    if cb ∈ b.callbacks ∧ isLocal cb = false then
      some { b.launch isLocal (.stop cb) with callbacks := b.callbacks.filter (· ≠ cb) }
    else none
  | .run =>
    match b.posted with
    | [] => none
    | task :: posted => some ({ b with posted := posted }.perform task)
  | .wake j =>
    if j ∈ b.loops then
      some (if b.bandwidthListeners.isEmpty then { b with loops := b.loops.erase j } else b)
    else none
  | .close => some { b with callbacks := [], loops := [], posted := [], closed := true }

/-- Whether a callback listens once the posted tasks have run. -/
def finallyListens (b : BandwidthBinder) (cb : Nat) : Bool :=
  b.posted.foldl (BandwidthTask.listens cb) (b.bandwidthListeners.get? cb).isSome

/-- Nothing was thrown, one loop runs exactly while somebody listens, and everyone who will go on
to listen is a registered callback. -/
structure Sound (b : BandwidthBinder) : Prop where
  thrown : b.thrown = false
  loops : b.loops = b.looper.toList ∨ b.closed = true
  looper : b.looper.isNone = b.bandwidthListeners.isEmpty ∨ b.closed = true
  registered : b.closed = false → ∀ cb, b.finallyListens cb = true → cb ∈ b.callbacks

/-- Only registered callbacks start to listen. -/
def StartsRegistered (b : BandwidthBinder) : Event → Prop
  | .call (.start cb _) => b.closed = false → cb ∈ b.callbacks
  | _ => True

/-! ### One task -/

section Perform

variable {b : BandwidthBinder}

/-- A task changes neither the callbacks nor what is posted. -/
private theorem perform_frame (b : BandwidthBinder) (task : BandwidthTask) :
    (b.perform task).callbacks = b.callbacks ∧ (b.perform task).posted = b.posted ∧
      (b.perform task).closed = b.closed := by
  cases task with
  | start cb timeout =>
    simp only [perform, start]
    split
    · split <;> exact ⟨rfl, rfl, rfl⟩
    · exact ⟨rfl, rfl, rfl⟩
  | stop cb =>
    simp only [perform, stop]
    split
    · exact ⟨rfl, rfl, rfl⟩
    · split
      · split <;> exact ⟨rfl, rfl, rfl⟩
      · exact ⟨rfl, rfl, rfl⟩

private theorem get?_perform_isSome (b : BandwidthBinder) (task : BandwidthTask) (c : Nat) :
    ((b.perform task).bandwidthListeners.get? c).isSome =
      task.listens c (b.bandwidthListeners.get? c).isSome := by
  cases task with
  | start cb timeout =>
    have hput : (b.start cb timeout).bandwidthListeners = b.bandwidthListeners.put cb timeout := by
      simp only [start]
      split
      · split <;> rfl
      · rfl
    rw [perform, hput, LinkedMap.get?_put, BandwidthTask.listens]
    split <;> rfl
  | stop cb =>
    rw [perform, stop, BandwidthTask.listens]
    split
    · next hn =>
      split
      · next hc =>
        rw [hc, Option.isNone_iff_eq_none.mp hn]
        rfl
      · rfl
    · have hremove : ∀ b' : BandwidthBinder,
          b'.bandwidthListeners = b.bandwidthListeners.remove cb →
          (b'.bandwidthListeners.get? c).isSome =
            if c = cb then false else (b.bandwidthListeners.get? c).isSome := by
        intro b' hb'
        rw [hb', LinkedMap.get?_remove]
        split <;> rfl
      apply hremove
      dsimp only
      split
      · split <;> rfl
      · rfl

/-- One loop runs exactly while somebody listens. -/
private structure Looping (b : BandwidthBinder) : Prop where
  thrown : b.thrown = false
  loops : b.loops = b.looper.toList
  looper : b.looper.isNone = b.bandwidthListeners.isEmpty

private theorem Looping.start (h : Looping b) (cb : Nat) (timeout : Int) :
    Looping (b.start cb timeout) := by
  have hl := h.looper
  rw [BandwidthBinder.start]
  dsimp only
  split
  · next hfirst =>
    simp only [Bool.and_eq_true] at hfirst
    rw [hfirst.1, Option.isNone_iff_eq_none] at hl
    rw [if_neg (by simp [hl])]
    refine ⟨h.thrown, ?_, by simp⟩
    simp [h.loops, hl]
  · next hfirst =>
    refine ⟨h.thrown, h.loops, ?_⟩
    have hne : b.bandwidthListeners.isEmpty = false := by
      rw [← Bool.not_eq_true]
      intro he
      exact hfirst (by simp [he, LinkedMap.isEmpty_iff.mp he cb])
    simpa [hne] using hl

private theorem Looping.stop (h : Looping b) (cb : Nat) : Looping (b.stop cb) := by
  have hl := h.looper
  rw [BandwidthBinder.stop]
  split
  · exact h
  · next hsome =>
    have hne : b.bandwidthListeners.isEmpty = false := by
      rw [← Bool.not_eq_true, LinkedMap.isEmpty_iff]
      intro hall
      exact hsome (by simp [hall cb])
    dsimp only
    split
    · next he =>
      cases hj : b.looper with
      | none =>
        rw [hj, hne] at hl
        cases hl
      | some j => exact ⟨h.thrown, by simp [h.loops, hj], by simp [he]⟩
    · next he =>
      refine ⟨h.thrown, h.loops, ?_⟩
      rw [Bool.not_eq_true] at he
      rw [he, hl, hne]

private theorem Looping.perform (h : Looping b) (task : BandwidthTask) :
    Looping (b.perform task) := by
  cases task with
  | start cb timeout => exact h.start cb timeout
  | stop cb => exact h.stop cb

end Perform

/-! ### Whole runs -/

variable {isLocal} {b b' : BandwidthBinder}

variable (isLocal) in
/-- While the binder is open, one loop runs as it should, only calls of other processes are posted,
and who goes on to listen is registered. -/
private structure Inv (b : BandwidthBinder) : Prop where
  thrown : b.thrown = false
  ended : b.closed = true → b.posted = [] ∧ b.loops = []
  looping : b.closed = false → Looping b
  remote : ∀ task ∈ b.posted, isLocal task.cb = false
  registered : b.closed = false → ∀ cb, b.finallyListens cb = true → cb ∈ b.callbacks

private theorem Inv.sound (h : Inv isLocal b) : b.Sound := by
  cases hc : b.closed with
  | true => exact ⟨h.thrown, Or.inr hc, Or.inr hc, by simp [hc]⟩
  | false => exact ⟨h.thrown, Or.inl (h.looping hc).loops, Or.inl (h.looping hc).looper, h.registered⟩

/-- A launched task takes effect after what was posted before it. -/
private theorem finallyListens_launch (hr : ∀ task ∈ b.posted, isLocal task.cb = false)
    (hc : b.closed = false) (task : BandwidthTask) (c : Nat) :
    (b.launch isLocal task).finallyListens c = task.listens c (b.finallyListens c) := by
  rw [launch, hc, if_neg Bool.false_ne_true]
  split
  · next hl =>
    obtain ⟨-, hp, -⟩ := perform_frame b task
    rw [finallyListens, hp, get?_perform_isSome, finallyListens]
    by_cases ht : c = task.cb
    · -- nothing posted is about a callback of this process
      have hne : ∀ task' ∈ b.posted, c ≠ task'.cb := by
        intro task' hm he
        have := hr task' hm
        rw [← he, ht, hl] at this
        cases this
      rw [BandwidthTask.foldl_listens_of_ne hne, BandwidthTask.foldl_listens_of_ne hne]
    · rw [BandwidthTask.listens_of_ne ht, BandwidthTask.listens_of_ne ht]
  · rw [finallyListens, List.foldl_append]
    rfl

/-- A launch keeps everything but who is registered. -/
private theorem launch_cases (h : Inv isLocal b) (task : BandwidthTask) :
    (b.launch isLocal task).thrown = false ∧
      (b.closed = true → (b.launch isLocal task).posted = [] ∧ (b.launch isLocal task).loops = []) ∧
      ((b.launch isLocal task).closed = false → Looping (b.launch isLocal task)) ∧
      (∀ task' ∈ (b.launch isLocal task).posted, isLocal task'.cb = false) ∧
      (b.launch isLocal task).closed = b.closed ∧
      (b.launch isLocal task).callbacks = b.callbacks := by
  rw [launch]
  split
  · exact ⟨h.thrown, h.ended, h.looping, h.remote, rfl, rfl⟩
  · next hc =>
    have hopen : b.closed = false := by simpa using hc
    split
    · obtain ⟨hcb, hp, hcl⟩ := perform_frame b task
      have hloop := (h.looping hopen).perform task
      exact ⟨hloop.thrown, fun hc' ↦ absurd hc' hc, fun _ ↦ hloop, by rw [hp]; exact h.remote,
        hcl, hcb⟩
    · next hl =>
      have hloop := h.looping hopen
      refine ⟨h.thrown, fun hc' ↦ absurd hc' hc, fun _ ↦ ⟨hloop.thrown, hloop.loops, hloop.looper⟩,
        ?_, rfl, rfl⟩
      intro task' hm
      rcases List.mem_append.mp hm with hm | hm
      · exact h.remote task' hm
      · rw [List.mem_singleton.mp hm]
        simpa using hl

/-- A callback stops listening and is no longer registered. -/
private theorem inv_unregister (h : Inv isLocal b) (cb : Nat) :
    Inv isLocal
      { b.launch isLocal (.stop cb) with callbacks := b.callbacks.filter (· ≠ cb) } := by
  obtain ⟨ht, he, hl, hr, hc, -⟩ := launch_cases h (.stop cb)
  refine ⟨ht, fun hc' ↦ he (hc ▸ hc'), fun ho ↦ ⟨(hl ho).thrown, (hl ho).loops, (hl ho).looper⟩, hr, ?_⟩
  intro ho c hlisten
  have hopen : b.closed = false := hc ▸ ho
  have hf := finallyListens_launch h.remote hopen (.stop cb) c
  change (b.launch isLocal (.stop cb)).finallyListens c = true at hlisten
  rw [hf, BandwidthTask.listens] at hlisten
  split at hlisten
  · cases hlisten
  · next hne =>
    rw [List.mem_filter]
    exact ⟨h.registered hopen c hlisten, by simpa using hne⟩

private theorem inv_step {e : Event} (h : Inv isLocal b) (hn : b.StartsRegistered e)
    (hs : b.step isLocal e = some b') : Inv isLocal b' := by
  cases e with
  | registerCallback cb =>
    cases hs
    split
    · exact h
    · refine ⟨h.thrown, h.ended, fun ho ↦ ?_, h.remote, fun ho c hl ↦ ?_⟩
      · exact ⟨(h.looping ho).thrown, (h.looping ho).loops, (h.looping ho).looper⟩
      · exact List.mem_cons_of_mem cb (h.registered ho c hl)
  | unregisterCallback cb =>
    cases hs
    exact inv_unregister h cb
  | call task =>
    cases hs
    obtain ⟨ht, he, hl, hr, hc, hcb⟩ := launch_cases h task
    refine ⟨ht, fun hc' ↦ he (hc ▸ hc'), hl, hr, ?_⟩
    intro ho c hlisten
    rw [hc] at ho
    rw [finallyListens_launch h.remote ho] at hlisten
    rw [hcb]
    cases task with
    | start cb timeout =>
      rw [BandwidthTask.listens] at hlisten
      split at hlisten
      · next he => exact he ▸ hn ho
      · exact h.registered ho c hlisten
    | stop cb =>
      rw [BandwidthTask.listens] at hlisten
      split at hlisten
      · cases hlisten
      · exact h.registered ho c hlisten
  | died cb =>
    rw [step] at hs
    split at hs
    · cases hs
      exact inv_unregister h cb
    · cases hs
  | run =>
    rw [step] at hs
    split at hs
    · cases hs
    · next task posted hp =>
      cases hs
      have hopen : b.closed = false := by
        rw [← Bool.not_eq_true]
        intro hc
        rw [(h.ended hc).1] at hp
        cases hp
      obtain ⟨hcb, hpo, hcl⟩ := perform_frame { b with posted := posted } task
      have hloop : Looping { b with posted := posted } :=
        ⟨h.thrown, (h.looping hopen).loops, (h.looping hopen).looper⟩
      refine ⟨(hloop.perform task).thrown, ?_, fun _ ↦ hloop.perform task, ?_, ?_⟩
      · intro hc
        rw [hcl] at hc
        exact absurd (hc.symm.trans hopen) (by simp)
      · rw [hpo]
        exact fun task' hm ↦ h.remote task' (hp ▸ List.mem_cons_of_mem task hm)
      · intro _ c hlisten
        rw [hcb]
        apply h.registered hopen c
        rw [finallyListens, hp, List.foldl_cons]
        rw [finallyListens, hpo, get?_perform_isSome] at hlisten
        exact hlisten
  | wake j =>
    rw [step] at hs
    split at hs
    · next hj =>
      cases hs
      have hopen : b.closed = false := by
        rw [← Bool.not_eq_true]
        intro hc
        rw [(h.ended hc).2] at hj
        cases hj
      have hloop := h.looping hopen
      rw [if_neg]
      · exact h
      · -- the loop that wakes is the looper, so there is a listener
        rw [hloop.loops, Option.mem_toList] at hj
        rw [← hloop.looper, hj]
        exact Bool.false_ne_true
    · cases hs
  | close =>
    cases hs
    exact ⟨h.thrown, fun _ ↦ ⟨rfl, rfl⟩, nofun, nofun, nofun⟩

/-- A callback that is not registered and starts to listen is never told to stop. -/
private theorem not_sound_step {e : Event} (h : Inv isLocal b) (hn : ¬ b.StartsRegistered e)
    (hs : b.step isLocal e = some b') : ¬ b'.Sound := by
  cases e with
  | call task =>
    cases task with
    | stop cb => exact absurd trivial hn
    | start cb timeout =>
      obtain ⟨hopen, hcb⟩ : b.closed = false ∧ cb ∉ b.callbacks := Classical.not_imp.mp hn
      cases hs
      obtain ⟨-, -, -, -, hc, hcbs⟩ := launch_cases h (.start cb timeout)
      intro hsound
      apply hcb
      rw [← hcbs]
      apply hsound.registered (hc.trans hopen) cb
      rw [finallyListens_launch h.remote hopen, BandwidthTask.listens, if_pos rfl]
  | _ => exact absurd trivial hn

/-- In every order of calls, deaths and wake-ups nothing throws, one loop runs exactly while
somebody listens, and everyone who goes on to listen is registered, exactly if only registered
callbacks start to listen. -/
theorem sound_iff_startsRegistered (isLocal : Nat → Bool) (es : List Event) :
    Always (step isLocal) Sound {} es ↔ Along (step isLocal) StartsRegistered {} es := by
  apply always_iff_along (J := Inv isLocal)
  · exact fun b h ↦ h.sound
  · exact fun b e b' h hc hs ↦ inv_step h hc hs
  · exact fun b e b' h hc hs ↦ not_sound_step h hc hs
  · exact ⟨rfl, nofun, fun _ ↦ ⟨rfl, rfl, rfl⟩, nofun, nofun⟩

end BandwidthBinder

end FastSearch.Service
