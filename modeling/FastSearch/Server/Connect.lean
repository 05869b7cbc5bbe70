import FastSearch.Lib.EventSystem
import FastSearch.Server.Profile
import FastSearch.Server.Repository

/-!
# From a selected node to a stored profile

The part of the app that decides which profile the VPN process starts with:
`ServersRepository.initialize` writing the built-in nodes, the remote configuration arriving,
the node list being offered and chosen from, and the background step of
`BaseServerManager.connect` that stores `DataStore.profileId`. The Profile table and the
stored identifier survive a restart of the process; everything else is rebuilt by `launch`.
-/

namespace FastSearch.Server

open EventSystem

/-- The app state that the connect step reads and writes. -/
structure App where
  profiles : ProfileTable := RowTable.empty
  profileId : Int := 0
  config : Config := {}
  repo : ServersRepository := {}
  node : ServerNode := ServerNode.fast
  offered : List ServerNode := []
  pendingWrites : List ServerNode := []

namespace App

/-- What can happen to that state, one atomic step each. -/
inductive Event where
  /-- `FastSearch.onCreate`: fresh singletons, the write loop launched, the strings cleared. -/
  | launch
  /-- The next iteration of the loop in `ServersRepository.initialize`. -/
  | writeNext
  /-- `mFastCityJson` assigned by the config listener. -/
  | fastCityArrived (json : String)
  /-- `mServerNodeJson` assigned by the config listener. -/
  | serverNodeArrived (json : String)
  /-- `NodesActivity.getModels`. -/
  | listNodes
  /-- `NodesViewModel.connect` on a listed node. -/
  | changeNode (node : ServerNode)
  /-- The coroutine of `doConnect`, with the number that `randomOrNull` draws. -/
  | doConnect (random : Nat)

/-- The candidates `doConnect` chooses from, with the repository after reading them. -/
def candidates (J : OrgJson) (s : App) : Option (List ServerNode × ServersRepository) :=
  if s.node.equals ServerNode.fast then ServersRepository.getSmartNodes J s.config s.repo
  else some ([s.node], s.repo)

/-- `onConnect`, `server/manager/ServerManager.kt:228`, up to `Core.startService`. -/
def onConnect (s : App) (node : Option ServerNode) : App :=
  { s with profileId := match node with
      | none => 0
      | some n => queryDataIdFromNode s.profiles n }

/-- One atomic step; `none` when the event cannot happen or its code throws. -/
def step (J : OrgJson) (g : ProfileKey) (s : App) : Event → Option App
  | .launch => some { profiles := s.profiles, profileId := s.profileId
                      pendingWrites := mDefaultNodes }
  | .writeNext =>
    match s.pendingWrites with
    | [] => none
    | n :: rest =>
      match writeToDatabase g false s.profiles n with
      | .ok t => some { s with profiles := t, pendingWrites := rest }
      | .error _ => none
  | .fastCityArrived json => some { s with config := { s.config with fastCityJson := json } }
  | .serverNodeArrived json =>
    some { s with config := { s.config with serverNodeJson := json } }
  | .listNodes =>
    (ServersRepository.getAllNodes J s.config s.repo).map fun (nodes, r) ↦
      { s with repo := r, offered := ServerNode.fast :: nodes }
  | .changeNode n => if n ∈ s.offered then some { s with node := n } else none
  | .doConnect random =>
    (candidates J s).map fun (nodes, r) ↦
      onConnect { s with repo := r } (randomOrNull random nodes)

/-- `Core.currentProfile`, `Core.kt:87`: what the service process will read back. -/
def currentProfile (s : App) : Option Profile := s.profiles.get s.profileId

/-! ### The invariant of the profile table -/

/-- The loop only ever holds built-in nodes, addresses are unique, and every row stores a
built-in node. -/
structure Inv (s : App) : Prop where
  pending : ∀ n ∈ s.pendingWrites, n ∈ mDefaultNodes
  unique : AddressesUnique s.profiles
  builtIn : ∀ p ∈ s.profiles.rows, ∃ d ∈ mDefaultNodes, p.Stores d

/-- The first start, with an empty table. -/
theorem inv_init : Inv {} where
  pending := by simp
  unique := by
    intro p hp
    cases hp
  builtIn := by
    intro p hp
    cases hp

private theorem inv_of_table {s t : App} (h : Inv s) (hp : t.profiles = s.profiles)
    (hw : ∀ n ∈ t.pendingWrites, n ∈ mDefaultNodes) : Inv t where
  pending := hw
  unique := hp ▸ h.unique
  builtIn := hp ▸ h.builtIn

private theorem inv_writeNext {g : ProfileKey} {s : App} {n : ServerNode}
    {rest : List ServerNode} {t : ProfileTable} (h : Inv s) (hs : s.pendingWrites = n :: rest)
    (hw : writeToDatabase g false s.profiles n = .ok t) :
    Inv { s with profiles := t, pendingWrites := rest } where
  pending := by
    intro m hm
    exact h.pending m (by simp [hs, show m ∈ rest from hm])
  unique := addressesUnique_writeToDatabase hw h.unique
  builtIn := by
    intro p hp
    rcases mem_writeToDatabase hw h.unique hp with hp | ⟨hp, _⟩
    · exact ⟨n, h.pending n (by simp [hs]), hp⟩
    · exact h.builtIn p hp

/-- Every step keeps the invariant. -/
theorem inv_step {J : OrgJson} {g : ProfileKey} {s t : App} {e : Event} (h : Inv s)
    (hs : step J g s e = some t) : Inv t := by
  cases e with
  | launch =>
    cases hs
    exact inv_of_table h rfl (fun _ hn ↦ hn)
  | writeNext =>
    simp only [step] at hs
    split at hs
    · cases hs
    · next n rest hp =>
      split at hs
      · next t' hw =>
        cases hs
        exact inv_writeNext h hp hw
      · cases hs
  | fastCityArrived json | serverNodeArrived json =>
    cases hs
    exact inv_of_table h rfl h.pending
  | listNodes =>
    simp only [step, Option.map_eq_some_iff] at hs
    obtain ⟨_, _, rfl⟩ := hs
    exact inv_of_table h rfl h.pending
  | changeNode n =>
    simp only [step] at hs
    split at hs
    · cases hs
      exact inv_of_table h rfl h.pending
    · cases hs
  | doConnect random =>
    simp only [step, Option.map_eq_some_iff] at hs
    obtain ⟨_, _, rfl⟩ := hs
    exact inv_of_table h rfl h.pending

/-! ### When the stored identifier is right -/

/-- The stored identifier is not zero and names a row with the host, port, method and
password of one of the given nodes. -/
def ProfileOf (s : App) (nodes : List ServerNode) : Prop :=
  s.profileId ≠ 0 ∧ ∃ p, s.currentProfile = some p ∧ ∃ n ∈ nodes, p.Stores n

/-- Two nodes with one host, port, method and password. -/
def SameServer (a b : ServerNode) : Prop :=
  a.host = b.host ∧ a.port = b.port ∧ a.method = b.method ∧ a.password = b.password

/-- The start-up write of a built-in node has been committed. -/
def Written (s : App) (d : ServerNode) : Prop := ∃ p ∈ s.profiles.rows, p.Stores d

/-- The drawn node has the address of a written built-in node, and that built-in node is one
of the candidates up to country and city. -/
def Connectable (s : App) (nodes : List ServerNode) (random : Nat) : Prop :=
  ∃ d ∈ mDefaultNodes, s.Written d ∧ (∃ m ∈ nodes, SameServer m d) ∧
    ∃ n, randomOrNull random nodes = some n ∧ n.host = d.host ∧ n.port = d.port

/-- Host and port tell the built-in nodes apart. -/
private theorem default_eq_of_address {d e : ServerNode} (hd : d ∈ mDefaultNodes)
    (he : e ∈ mDefaultNodes) (h : d.host = e.host) : d = e := by
  have all : ∀ d ∈ mDefaultNodes, ∀ e ∈ mDefaultNodes, d.host = e.host → d = e := by decide
  exact all d hd e he h

/-- The stored identifier after the connect step, in terms of the drawn node. -/
private theorem profileOf_onConnect_iff {s : App} (h : Inv s) {nodes : List ServerNode}
    {r : ServersRepository} {random : Nat} :
    ProfileOf (onConnect { s with repo := r } (randomOrNull random nodes)) nodes ↔
      s.Connectable nodes random := by
  cases hn : randomOrNull random nodes with
  | none => simp [ProfileOf, onConnect, Connectable, hn]
  | some n =>
    rcases queryDataIdFromNode_cases s.profiles n with ⟨hq, hno⟩ | ⟨p, hp, ha, hq⟩
    · -- no row has the drawn node's address
      have hl : ¬ ProfileOf (onConnect { s with repo := r } (some n)) nodes := by
        intro hf
        exact hf.1 hq
      refine iff_of_false hl ?_
      rintro ⟨d, hd, ⟨p, hp, hpd⟩, _, m, hm, hh, hpt⟩
      obtain rfl : n = m := Option.some.inj (hn.symm.trans hm)
      exact hno p hp ⟨hpd.1.1.trans hh.symm, hpd.1.2.trans hpt.symm⟩
    · have hg : s.profiles.get p.id = some p := RowTable.get_eq_some.mpr ⟨hp, rfl⟩
      obtain ⟨d, hd, hpd⟩ := h.builtIn p hp
      constructor
      · rintro ⟨_, q, hcur, m, hm, hqm⟩
        have hqp : q = p := by
          simp only [currentProfile, onConnect, hq, hg] at hcur
          exact (Option.some.inj hcur).symm
        subst hqp
        refine ⟨d, hd, ⟨q, hp, hpd⟩, ⟨m, hm, ?_⟩, n, hn, ?_, ?_⟩
        · exact ⟨hqm.1.1.symm.trans hpd.1.1, hqm.1.2.symm.trans hpd.1.2,
            hqm.2.1.symm.trans hpd.2.1, hqm.2.2.symm.trans hpd.2.2⟩
        · exact ha.1.symm.trans hpd.1.1
        · exact ha.2.symm.trans hpd.1.2
      · rintro ⟨e, he, _, ⟨m, hm, hme⟩, k, hk, hh, hpt⟩
        obtain rfl : n = k := Option.some.inj (hn.symm.trans hk)
        have hde : d = e :=
          default_eq_of_address hd he (hpd.1.1.symm.trans (ha.1.trans hh))
        subst hde
        refine ⟨?_, p, ?_, m, hm, ⟨?_, ?_⟩, ?_, ?_⟩
        · have hpos := s.profiles.keys_pos p hp
          simp only [onConnect, hq]
          omega
        · simp only [currentProfile, onConnect, hq, hg]
        · exact hpd.1.1.trans hme.1.symm
        · exact hpd.1.2.trans hme.2.1.symm
        · exact hpd.2.1.trans hme.2.2.1.symm
        · exact hpd.2.2.trans hme.2.2.2.symm

/-- A connect stores the identifier of a row of its selected node, of some smart node when the
fast node is selected. -/
def ConnectsRight (J : OrgJson) (s : App) (e : Event) (t : App) : Prop :=
  ∀ random nodes r, e = .doConnect random → candidates J s = some (nodes, r) → t.ProfileOf nodes

/-- A connect draws a node that it can connect. -/
def ConnectsKnown (J : OrgJson) (s : App) (e : Event) : Prop :=
  ∀ random nodes r, e = .doConnect random → candidates J s = some (nodes, r) →
    s.Connectable nodes random

private theorem connectsRight_iff {J : OrgJson} {g : ProfileKey} {s t : App} {e : Event}
    (h : Inv s) (hs : step J g s e = some t) : s.ConnectsRight J e t ↔ s.ConnectsKnown J e := by
  have key : ∀ random nodes r, e = .doConnect random → candidates J s = some (nodes, r) →
      (t.ProfileOf nodes ↔ s.Connectable nodes random) := by
    intro random nodes r he hc
    subst he
    simp only [step, hc, Option.map_some, Option.some.injEq] at hs
    subst hs
    exact profileOf_onConnect_iff h
  constructor
  · intro hr random nodes r he hc
    exact (key random nodes r he hc).mp (hr random nodes r he hc)
  · intro hk random nodes r he hc
    exact (key random nodes r he hc).mpr (hk random nodes r he hc)

/-- Throughout a run every connect stores the identifier of a row of its selected node exactly
when each of them draws a node with the address of a built-in node already written, and that
built-in node is a candidate. -/
theorem connectsRight_throughout_iff (J : OrgJson) (g : ProfileKey) (es : List Event) :
    Throughout (step J g) (ConnectsRight J) {} es ↔ Along (step J g) (ConnectsKnown J) {} es := by
  apply throughout_iff_along (J := Inv)
  · intro s e t h hs
    exact inv_step h hs
  · intro s e t h hs
    exact connectsRight_iff h hs
  · exact inv_init

/-! ### A server that only the configuration lists -/

/-- A server-node string with one server. -/
def remoteText : String :=
  "\x7b\"fsnd023\":[\x7b\"fsf_ho\":\"203.0.113.7\",\"fsf_po\":443\x7d]\x7d"

/-- `org.json` on the two texts used below: the listing above is an object, the cleared
string is not. -/
def sampleJson : OrgJson where
  parse text :=
    if text = remoteText then
      some [("fsnd023", .array [.object
        [("fsf_ho", .string "203.0.113.7"), ("fsf_po", .number "443")]])]
    else none
  text
    | .number literal => literal
    | _ => ""
  int
    | .number "443" => some 443
    | _ => none

/-- Room numbering rows from one. -/
def sampleKey : ProfileKey := AutoKey.succMax Profile.id

/-- The node read from the listing. -/
def remoteNode : ServerNode := { host := "203.0.113.7", port := 443 }

/-- Selecting the listed server stores identifier zero: nothing ever wrote a row for it. -/
theorem remote_connect_not_right :
    ¬ Throughout (step sampleJson sampleKey) (ConnectsRight sampleJson) {}
      [.launch, .writeNext, .writeNext, .serverNodeArrived remoteText, .listNodes,
        .changeNode remoteNode, .doConnect 0] := by
  intro h
  have hc := h [.launch, .writeNext, .writeNext, .serverNodeArrived remoteText, .listNodes,
    .changeNode remoteNode] _ _ _ (List.prefix_refl _) rfl rfl
  exact (hc 0 [remoteNode] _ rfl rfl).1 rfl

end App
end FastSearch.Server
