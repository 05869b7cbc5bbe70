import FastSearch.Lib.EventSystem
import FastSearch.Server.Manager

/-!
# The node of a session

`BaseServerManager` reads `mNode` twice for one session: in the background step of `connect`
that starts the service, and again when the connection is reported, where it becomes
`mLastConnectedNode`. Between the two the user may choose another node, and a report may come
again long after. Which start commands the service accepts is left open: it refuses those that
find it busy.
-/

namespace FastSearch.Server

open EventSystem

/-- `getLastConnectedNode`, `server/manager/ServerManager.kt:189`. -/
def ServerManager.getLastConnectedNode (m : ServerManager) : ServerNode := m.mLastConnectedNode

/-- The manager, the background steps not yet run, and the start commands under way, each with
the node that `doConnect` read for it. `started` is the node of the command the service
accepted last, `session` the node of the session that was established last. -/
structure NodeRun where
  manager : ServerManager := {}
  launched : Nat := 0
  commands : List ServerNode := []
  started : Option ServerNode := none
  session : Option ServerNode := none
  deriving DecidableEq, Repr

namespace NodeRun

/-- What can happen to the manager and the service. -/
inductive Event where
  | changeNode (newNode : ServerNode)
  | connect
  /-- The background step of a `connect` runs, `server/manager/ServerManager.kt:153`. -/
  | doConnect
  /-- The oldest start command reaches the service, which accepts or refuses it. -/
  | deliver (accepted : Bool)
  /-- `changeState` with `connected` or `stopped`, called by a receiver of the main screen. -/
  | changeState (connected : Bool)
  | onServiceConnected (stat : Service.State)
  | onServiceDisconnected
  | disconnect
  | forceDisconnect
  deriving DecidableEq, Repr

/-- A session is established with the node the service was started for. -/
def establish (s : NodeRun) (m : ServerManager) : NodeRun :=
  { s with manager := m, session := s.started }

/-- One step. -/
def step (s : NodeRun) : Event → Option NodeRun
  | .changeNode newNode => some { s with manager := s.manager.changeNode newNode }
  | .connect => some { s with manager := s.manager.connect, launched := s.launched + 1 }
  | .doConnect =>
    match s.launched with
    | 0 => none
    | n + 1 => some { s with launched := n, commands := s.commands ++ [s.manager.mNode] }
  | .deliver accepted =>
    match s.commands with
    | [] => none
    | node :: rest =>
      some { s with commands := rest, started := if accepted then some node else s.started }
  | .changeState true => some (s.establish (s.manager.changeState .connected))
  | .changeState false => some { s with manager := s.manager.changeState .stopped }
  | .onServiceConnected .connected =>
    some (s.establish (s.manager.onServiceConnected .connected))
  | .onServiceConnected stat => some { s with manager := s.manager.onServiceConnected stat }
  | .onServiceDisconnected => some { s with manager := s.manager.onServiceDisconnected }
  | .disconnect => some { s with manager := s.manager.disconnect }
  | .forceDisconnect => some { s with manager := s.manager.forceDisconnect }

/-- The last connected node is the one the last session was started for. -/
def NodeTold (s : NodeRun) : Prop :=
  ∀ n, s.session = some n → s.manager.getLastConnectedNode = n

/-- A connection is reported while the chosen node is the one its service was started for. -/
def Steady (s : NodeRun) : Event → Prop
  | .changeState true | .onServiceConnected .connected =>
    ∀ n, s.started = some n → s.manager.mNode = n
  | _ => True

/-- Any event that establishes no session leaves the last session and its node alone. -/
private theorem session_step {s t : NodeRun} {e : Event} (hs : s.step e = some t) :
    (t.session = s.session ∧
        t.manager.getLastConnectedNode = s.manager.getLastConnectedNode ∧ s.Steady e) ∨
      (t.session = s.started ∧ t.manager.getLastConnectedNode = s.manager.mNode ∧
        (s.Steady e ↔ ∀ n, s.started = some n → s.manager.mNode = n)) := by
  cases e with
  | changeState connected =>
    cases connected with
    | true =>
      cases hs
      exact Or.inr ⟨rfl, rfl, Iff.rfl⟩
    | false =>
      cases hs
      exact Or.inl ⟨rfl, rfl, trivial⟩
  | onServiceConnected stat =>
    cases stat with
    | connected =>
      cases hs
      exact Or.inr ⟨rfl, rfl, Iff.rfl⟩
    | idle | connecting | stopping | stopped =>
      cases hs
      exact Or.inl ⟨rfl, rfl, trivial⟩
  | doConnect =>
    simp only [step] at hs
    split at hs
    · cases hs
    · cases hs
      exact Or.inl ⟨rfl, rfl, trivial⟩
  | deliver accepted =>
    simp only [step] at hs
    split at hs
    · cases hs
    · cases hs
      exact Or.inl ⟨rfl, rfl, trivial⟩
  | changeNode | connect | onServiceDisconnected | disconnect | forceDisconnect =>
    cases hs
    exact Or.inl ⟨rfl, rfl, trivial⟩

/-- From a state with the right node, a step ends in one exactly if it is steady. -/
theorem nodeTold_step_iff {s t : NodeRun} {e : Event} (h : s.NodeTold)
    (hs : s.step e = some t) : t.NodeTold ↔ s.Steady e := by
  unfold NodeTold
  rcases session_step hs with ⟨h1, h2, h3⟩ | ⟨h1, h2, h3⟩
  · rw [h1, h2]
    exact iff_of_true h h3
  · rw [h1, h2]
    exact h3.symm

/-- Throughout a run the last connected node is the one its session was started for, exactly
if every report of a connection is steady. -/
theorem nodeTold_iff_steady (es : List Event) :
    Always step NodeTold {} es ↔ Along step Steady {} es := by
  apply always_iff_along (J := NodeTold)
  · intro s h
    exact h
  · intro s e t h hc hs
    exact (nodeTold_step_iff h hs).mpr hc
  · intro s e t h hc hs ht
    exact hc ((nodeTold_step_iff h hs).mp ht)
  · intro n hn
    cases hn

/-- The user chooses another node while the service is connecting to the first one. -/
theorem changed_node_not_told :
    ¬ Always step NodeTold {} [.connect, .doConnect, .deliver true,
      .changeNode { host := "192.99.42.21", port := 3711 }, .changeState true] := by
  intro h
  have hs := h.last rfl ServerNode.fast rfl
  have hc := congrArg ServerNode.cls hs
  cases hc

end NodeRun
end FastSearch.Server
