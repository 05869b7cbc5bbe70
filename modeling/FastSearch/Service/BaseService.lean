import FastSearch.Lib.EventSystem
import FastSearch.Lib.Slot

/-!
# The background service

`bg/BaseService.kt` as `bg/VpnService.kt` runs it: `Data`, `onStartCommand`, the connecting
coroutine, `stopRunner` and its clean-up coroutine. All code runs on the main thread, so one
step is one segment between suspension points. A proxy, notification or process pool is its
number in creation order. `udpFallback` is always null here, `localDns`, the protect worker
and the tunnel descriptor are released with the pool and decide nothing; they are left out.
-/

namespace FastSearch.Service

open EventSystem

/-- `BaseService.State`, `bg/BaseService.kt:63`. -/
inductive State where
  | idle
  | connecting
  | connected
  | stopping
  | stopped
  deriving DecidableEq, Repr

/-- `State.canStop`. -/
def State.canStop : State → Bool
  | .connecting | .connected => true
  | _ => false

/-- Where a connecting coroutine is suspended: not yet dispatched, in `preInit`, in the
`withContext` that flattens custom rules, or in the `delay` of `sendFd`. -/
inductive JobPc where
  | posted
  | preInit
  | flatten
  | sendFd (tries : Nat)
  deriving DecidableEq, Repr

/-- A live connecting coroutine; `customRules` is `profile.route == Acl.CUSTOM_RULES`. -/
structure Job where
  id : Nat
  customRules : Bool
  pc : JobPc := .posted
  cancelled : Bool := false
  deriving DecidableEq, Repr

/-- Where the coroutine of `stopRunner` is suspended: joining a cancelled job, or waiting for
the children of its clean-up scope. -/
inductive StopPc where
  | joining (job : Nat)
  | scope
  deriving DecidableEq, Repr

/-- A live coroutine of `stopRunner`. -/
structure Stopper where
  restart : Bool
  pc : StopPc
  deriving DecidableEq, Repr

/-- `BaseService.Data`, `bg/BaseService.kt:80`, with the coroutines that work on it. -/
structure Data where
  state : State := .stopped
  processes : Slot Nat := {}
  proxy : Slot Nat := {}
  notification : Slot Nat := {}
  closeReceiverRegistered : Bool := false
  connectingJob : Option Nat := none
  jobs : List Job := []
  stoppers : List Stopper := []
  next : Nat := 0
  deriving DecidableEq, Repr

namespace Data

/-- `changeState`, `bg/BaseService.kt:100`; its early return leaves the same state. -/
def changeState (d : Data) (s : State) : Data := { d with state := s }

/-- Whether the job is still live. -/
def live (d : Data) (id : Nat) : Bool := d.jobs.any fun j ↦ j.id = id

/-- `Job.cancel`. -/
def cancel (d : Data) (id : Nat) : Data :=
  { d with jobs := d.jobs.map fun j ↦ if j.id = id then { j with cancelled := true } else j }

/-- The body of the clean-up scope, `bg/BaseService.kt:280`. -/
def cleanUp (d : Data) : Data :=
  { d with
    processes := d.processes.release
    closeReceiverRegistered := false
    notification := d.notification.release
    proxy := d.proxy.release }

/-- `stopRunner`, `bg/BaseService.kt:271`, up to the first suspension of its coroutine:
`cancelAndJoin` on the stored job, or the whole clean-up when there is none to wait for. -/
def stopRunner (d : Data) (restart : Bool) : Data :=
  if d.state = .stopping then d else
    match d.connectingJob.filter d.live with
    | some id =>
      { (d.changeState .stopping).cancel id with
        stoppers := d.stoppers ++ [⟨restart, .joining id⟩] }
    | none =>
      { (d.changeState .stopping).cleanUp with
        stoppers := d.stoppers ++ [⟨restart, .scope⟩] }

/-- `forceLoad`, `bg/BaseService.kt:228`; `startRunner` only sends a start command. -/
def forceLoad (d : Data) : Data :=
  if d.state = .stopped then d
  else if d.state.canStop then d.stopRunner true
  else d

/-- The coroutine is over. -/
def remove (d : Data) (id : Nat) : Data := { d with jobs := d.jobs.filter fun j ↦ j.id ≠ id }

/-- The coroutine's `finally` clause, `bg/BaseService.kt:383`, after which it is over. -/
def finish (d : Data) (id : Nat) : Data := { d.remove id with connectingJob := none }

/-- The `catch (exc: Throwable)` clause and the `finally` after it. -/
def fail (d : Data) (id : Nat) : Data := (d.stopRunner false).finish id

/-- The coroutine suspends again. -/
def suspend (d : Data) (id : Nat) (pc : JobPc) : Data :=
  { d with jobs := d.jobs.map fun j ↦ if j.id = id then { j with pc := pc } else j }

/-- From `data.processes = GuardedProcessPool` to the first `delay` of `sendFd`,
`bg/BaseService.kt:368`; a missing proxy throws at `data.proxy!!`. -/
def startProcesses (d : Data) (id : Nat) (throws : Bool) : Data :=
  let d' := { d with processes := d.processes.store d.next, next := d.next + 1 }
  if throws ∨ d'.proxy.stored = none then d'.fail id else d'.suspend id (.sendFd 0)

end Data

/-- How the segment of a connecting coroutine goes: it reaches the next suspension or its end,
the call it was suspended in throws, or `startProcesses` throws. -/
inductive Outcome where
  | ok
  | throws
  | startThrows
  deriving DecidableEq, Repr

namespace Data

/-- One segment of the connecting coroutine, `bg/BaseService.kt:354`. A cancelled coroutine
resumes with `CancellationException`; one cancelled before its dispatch never runs, its
`finally` included. -/
def resumeJob (d : Data) (j : Job) (o : Outcome) : Data :=
  if j.cancelled then
    if j.pc = .posted then d.remove j.id else d.finish j.id
  else match j.pc, o with
    | .posted, .ok => d.suspend j.id .preInit
    | .posted, _ => d.fail j.id
    | .preInit, .throws => d.fail j.id
    | .preInit, o =>
      if j.customRules then d.suspend j.id .flatten
      else d.startProcesses j.id (o = .startThrows)
    | .flatten, .throws => d.fail j.id
    | .flatten, o => d.startProcesses j.id (o = .startThrows)
    | .sendFd _, .ok =>
      if d.proxy.stored = none then d.fail j.id
      else (d.changeState .connected).finish j.id
    | .sendFd tries, _ =>
      if 5 < tries then d.fail j.id else d.suspend j.id (.sendFd (tries + 1))

/-- The guard of `Interface.onStartCommand` passed: `bg/BaseService.kt:323` on. The profile is
given by its route test; the constructor of `ProxyInstance` checks nothing any more. -/
def start (d : Data) : Option Bool → Data
  | none => { d with notification := d.notification.store d.next, next := d.next + 1 }.stopRunner
      false
  | some customRules =>
    { d with
      proxy := d.proxy.store d.next
      closeReceiverRegistered := true
      notification := d.notification.store d.next
      connectingJob := some d.next
      jobs := d.jobs ++ [{ id := d.next, customRules := customRules }]
      next := d.next + 1 }

/-- `VpnService.onStartCommand`, `bg/VpnService.kt:139`; `prepared` says that the service mode
is VPN and the permission is granted. -/
def onStartCommand (d : Data) (prepared : Bool) (profile : Option Bool) : Data :=
  if prepared then if d.state = .stopped then d.start profile else d
  else d.stopRunner false

/-- One segment of the coroutine of `stopRunner`; a join waits for its job. -/
def resumeStop (d : Data) (i : Nat) (st : Stopper) : Option Data :=
  match st.pc with
  | .joining id =>
    if d.live id then none
    else some { d.cleanUp with stoppers := d.stoppers.set i ⟨st.restart, .scope⟩ }
  | .scope => some { d.changeState .stopped with stoppers := d.stoppers.eraseIdx i }

end Data

/-- What can happen to the service, one main-thread segment each. -/
inductive Event where
  /-- Delivery of a start command with what `onStartCommand` reads. -/
  | startCommand (prepared : Bool) (profile : Option Bool)
  /-- Delivery of `Action.CLOSE` to the process. -/
  | closeBroadcast
  /-- Delivery of `Action.RELOAD` to the process. -/
  | reloadBroadcast
  /-- `onRevoke`, a fatal guard error, or the restart callback giving up. -/
  | stopCall
  /-- A connecting coroutine runs until it suspends or ends. -/
  | resumeJob (id : Nat) (o : Outcome)
  /-- A clean-up coroutine runs until it suspends or ends. -/
  | resumeStop (i : Nat)
  deriving DecidableEq, Repr

/-- One main-thread segment; `none` when there is no such coroutine to run. -/
def step (d : Data) : Event → Option Data
  | .startCommand prepared profile => some (d.onStartCommand prepared profile)
  | .closeBroadcast => some (if d.closeReceiverRegistered then d.stopRunner false else d)
  | .reloadBroadcast => some (if d.closeReceiverRegistered then d.forceLoad else d)
  | .stopCall => some (d.stopRunner false)
  | .resumeJob id o => (d.jobs.find? fun j ↦ j.id = id).map fun j ↦ d.resumeJob j o
  | .resumeStop i => (d.stoppers[i]?).bind fun st ↦ d.resumeStop i st

end FastSearch.Service
