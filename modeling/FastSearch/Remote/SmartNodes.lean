import FastSearch.Lib.EventSystem
import FastSearch.Remote.Readers

/-!
# The smart nodes under changing configuration

`getSmartNodes` of `server/ServersRepository.kt`, from which `doConnect` of
`server/manager/ServerManager.kt` draws a node when the fast entry is selected. The two strings of
`remote/ConfigManager.kt` arrive in any order between the calls, and both readers memoise their
first non-empty answer. A server-node string is well formed when its array holds objects only.
-/

namespace FastSearch.Remote

open Server EventSystem

/-- A server-node string whose elements can be read. -/
abbrev ServerNodeText (J : OrgJson) : Type :=
  { json : String // AllObjects (arrayAt J json "fsnd023") }

/-- The stored strings, the server-node string well formed, and the memoised lists. -/
structure Servers (J : OrgJson) where
  fastCityJson : String
  serverNodeJson : ServerNodeText J
  repo : ServersRepository := {}

namespace Servers

variable {J : OrgJson}

/-- Arrivals of the two strings, and calls of the readers. -/
inductive Event (J : OrgJson) where
  | fastCityArrived (json : String)
  | serverNodeArrived (json : ServerNodeText J)
  | getAllNodes
  /-- A call of `getSmartNodes`, as `doConnect` makes it. -/
  | getSmartNodes

/-- The strings as `ConfigManager` keeps them. -/
def config (s : Servers J) : Config :=
  { fastCityJson := s.fastCityJson, serverNodeJson := s.serverNodeJson.val }

/-- `getAllNodes` at this moment. -/
def allNodes (s : Servers J) : Option (List ServerNode × ServersRepository) :=
  ServersRepository.getAllNodes J s.config s.repo

/-- `getSmartNodes` at this moment. -/
def smartNodes (s : Servers J) : Option (List ServerNode × ServersRepository) :=
  ServersRepository.getSmartNodes J s.config s.repo

/-- One arrival or call; `none` when the reader throws. -/
def step (s : Servers J) : Event J → Option (Servers J)
  | .fastCityArrived json => some { s with fastCityJson := json }
  | .serverNodeArrived json => some { s with serverNodeJson := json }
  | .getAllNodes => s.allNodes.map fun (_, r) ↦ { s with repo := r }
  | .getSmartNodes => s.smartNodes.map fun (_, r) ↦ { s with repo := r }

/-- The cities in effect: those memoised, or else those of the stored string. -/
def cities (s : Servers J) : List String :=
  ifEmpty s.repo.fastCity (optListString J (arrayAt J s.fastCityJson "fsct567"))

/-- A call of `getSmartNodes` gives a non-empty part of `getAllNodes`, from which any draw takes a
node. -/
def Serves (s : Servers J) (e : Event J) (_ : Servers J) : Prop :=
  e = .getSmartNodes → ∃ smart all r r', s.smartNodes = some (smart, r) ∧
    s.allNodes = some (all, r') ∧ smart.Sublist all ∧ smart ≠ [] ∧
    ∀ random, (randomOrNull random smart).isSome = true

/-- At a call of `getSmartNodes` there are no cities in effect, or some node is in one of them. -/
def CityHasNode (s : Servers J) (e : Event J) : Prop :=
  e = .getSmartNodes →
    s.cities = [] ∨ ∃ n ∈ nodesOf J s.config s.repo, n.city ∈ s.cities

/-! ### The two readers -/

/-- The readers return: all nodes, and those of them in the cities in effect. -/
theorem readers_return (s : Servers J) :
    (∃ r, s.allNodes = some (nodesOf J s.config s.repo, r)) ∧
      ∃ r, s.smartNodes = some (smartNodesOf J s.config s.repo, r) :=
  ⟨(getAllNodes_iff J s.config s.repo).mpr fun _ ↦ s.serverNodeJson.property,
    getSmartNodes_of_allNodes fun _ ↦ s.serverNodeJson.property⟩

/-- The smart nodes are part of all nodes. -/
theorem smartNodesOf_sublist (s : Servers J) :
    (smartNodesOf J s.config s.repo).Sublist (nodesOf J s.config s.repo) :=
  List.filter_sublist

/-- There are smart nodes exactly without cities in effect or with a node in one of them. -/
theorem smartNodesOf_ne_nil_iff (s : Servers J) :
    smartNodesOf J s.config s.repo ≠ [] ↔
      s.cities = [] ∨ ∃ n ∈ nodesOf J s.config s.repo, n.city ∈ s.cities := by
  have hmem : ∀ n, n ∈ smartNodesOf J s.config s.repo ↔
      n ∈ nodesOf J s.config s.repo ∧ (s.cities = [] ∨ n.city ∈ s.cities) := by
    intro n
    simp [smartNodesOf, cities, config]
  constructor
  · intro h
    obtain ⟨n, hn⟩ := List.exists_mem_of_ne_nil _ h
    obtain ⟨hall, hc | hc⟩ := (hmem n).mp hn
    · exact Or.inl hc
    · exact Or.inr ⟨n, hall, hc⟩
  · rintro (hc | ⟨n, hn, hc⟩)
    · obtain ⟨n, hn⟩ := List.exists_mem_of_ne_nil _ (nodesOf_ne_nil J s.config s.repo)
      exact List.ne_nil_of_mem ((hmem n).mpr ⟨hn, Or.inl hc⟩)
    · exact List.ne_nil_of_mem ((hmem n).mpr ⟨hn, Or.inr hc⟩)

private theorem randomOrNull_isSome {α : Type} {l : List α} (h : l ≠ []) (random : Nat) :
    (randomOrNull random l).isSome = true := by
  have hl : 0 < l.length := List.length_pos_iff.mpr h
  unfold randomOrNull
  rw [List.getElem?_eq_getElem (Nat.mod_lt random hl)]
  rfl

/-- A call is served exactly when a city in effect has a node. -/
theorem serves_iff (s t : Servers J) (e : Event J) : s.Serves e t ↔ s.CityHasNode e := by
  obtain ⟨⟨r', hall⟩, r, hsmart⟩ := readers_return s
  constructor
  · intro h he
    obtain ⟨smart, all, q, q', h1, _, _, hne, _⟩ := h he
    rw [hsmart] at h1
    cases h1
    exact (smartNodesOf_ne_nil_iff s).mp hne
  · intro h he
    have hne := (smartNodesOf_ne_nil_iff s).mpr (h he)
    exact ⟨_, _, r, r', hsmart, hall, smartNodesOf_sublist s, hne, randomOrNull_isSome hne⟩

/-! ### Runs -/

theorem step_isSome (s : Servers J) (e : Event J) : (s.step e).isSome = true := by
  obtain ⟨⟨r', hall⟩, r, hsmart⟩ := readers_return s
  cases e with
  | fastCityArrived json => rfl
  | serverNodeArrived json => rfl
  | getAllNodes => simp [step, hall]
  | getSmartNodes => simp [step, hsmart]

/-- No arrival or call of a run fails. -/
theorem run_isSome (s : Servers J) (es : List (Event J)) : (run step s es).isSome = true := by
  induction es generalizing s with
  | nil => rfl
  | cons e es ih =>
    obtain ⟨t, ht⟩ := Option.isSome_iff_exists.mp (step_isSome s e)
    rw [run_cons, ht]
    exact ih t

/-- Every run of arrivals and calls goes through, and every call of `getSmartNodes` in it gives a
non-empty part of all nodes exactly when at each of them there are no cities in effect or some
node is in one of them. -/
theorem serves_throughout_iff (s : Servers J) (es : List (Event J)) :
    (run step s es).isSome = true ∧
      (Throughout step Serves s es ↔ Along step CityHasNode s es) := by
  refine ⟨run_isSome s es, ?_⟩
  apply throughout_iff_along (J := fun _ ↦ True)
  · intro s e t _ _
    trivial
  · intro s e t _ _
    exact serves_iff s t e
  · trivial

/-! ### Cities without a server -/

/-- A fast-city string with one city. -/
def parisText : String := "\x7b\"fsct567\":[\"Paris\"]\x7d"

/-- `org.json` on the text above; the cleared string is no object. -/
def parisJson : OrgJson where
  parse text := if text = parisText then some [("fsct567", .array [.string "Paris"])] else none
  text _ := ""
  int _ := none

/-- The strings as `initialize` clears them. -/
def cleared : Servers parisJson where
  fastCityJson := ""
  serverNodeJson := ⟨"", by intro x hx; cases hx⟩

/-- No built-in node is in Paris: there is no smart node, and a connect has nothing to draw. -/
theorem no_node_in_city :
    ¬ Throughout step Serves cleared [.fastCityArrived parisText, .getSmartNodes] := by
  intro h
  obtain ⟨smart, all, r, r', h1, _, _, hne, _⟩ := h [.fastCityArrived parisText] .getSmartNodes _ _
    (List.prefix_refl _) rfl rfl rfl
  cases h1
  exact hne rfl

end Servers
end FastSearch.Remote
