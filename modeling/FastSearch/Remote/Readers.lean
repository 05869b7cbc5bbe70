import FastSearch.Ad.Cache

/-!
# The readers of the remote configuration

`getAllNodes` and `getSmartNodes` of `server/ServersRepository.kt` and `getRequestParams` of
`ad/manager/AdvertiseManager.kt` over any strings. Each reader goes from the string to an
object, to an array in it and to its elements; what is no JSON, no object or no array ends in
the default. The elements go through `optListObj` of `utils/JsonUtil.kt`, whose `optList` drops
nulls, but the null of an element that is no object reaches the deserializer first.
-/

namespace FastSearch.Remote

open Server Ad

/-- The array under a key of a stored string, or no elements. -/
def arrayAt (J : OrgJson) (json key : String) : List Json :=
  ((J.parse json).bind fun o ↦ OrgJson.optJSONArray o key).getD []

/-- Every element is an object. -/
def AllObjects (xs : List Json) : Prop := ∀ x ∈ xs, (OrgJson.itemObject x).isSome

/-- What is meant to be read of an array: its objects, the other elements skipped. -/
def objectsOf {α : Type} (deserializer : List (String × Json) → α) (xs : List Json) : List α :=
  xs.filterMap fun x ↦ (OrgJson.itemObject x).map deserializer

/-- The nodes that are meant to be read: those read before, or those of the stored string, or
the built-in ones. -/
def nodesOf (J : OrgJson) (c : Config) (r : ServersRepository) : List ServerNode :=
  if r.remoteNodes.isEmpty then
    ifEmpty (objectsOf (ServerNode.ofJson J) (arrayAt J c.serverNodeJson "fsnd023")) mDefaultNodes
  else r.remoteNodes

/-- The nodes in the cities that are meant to be read, all nodes without such cities. -/
def smartNodesOf (J : OrgJson) (c : Config) (r : ServersRepository) : List ServerNode :=
  let cities := ifEmpty r.fastCity (optListString J (arrayAt J c.fastCityJson "fsct567"))
  (nodesOf J c r).filter fun n ↦ cities.isEmpty || cities.contains n.city

/-- The parameters that are meant to be read: those of the remote manifest, or of the local
one. -/
def paramsOf (J : OrgJson) (m : Manifest) (space : String) : List Param :=
  ((ifEmpty (objectsOf (Param.ofJson J) (arrayAt J m.mAdManifestJson space))
    (objectsOf (Param.ofJson J) (arrayAt J m.mLocalAdJson space))).filter
      fun p ↦ p.source == "admob").insertionSort fun a b ↦ b.sort ≤ a.sort

/-- The readers return normally with what is meant to be read, and there are nodes. -/
structure ReadNormally (J : OrgJson) (c : Config) (r : ServersRepository) (m : Manifest)
    (space : String) : Prop where
  allNodes : ∃ r', ServersRepository.getAllNodes J c r = some (nodesOf J c r, r')
  allNodes_ne_nil : nodesOf J c r ≠ []
  smartNodes : ∃ r', ServersRepository.getSmartNodes J c r = some (smartNodesOf J c r, r')
  params : m.getRequestParams J space = some (paramsOf J m space)

/-- The arrays that are read hold objects only: the nodes unless some were read before, the
parameters of the space in the remote manifest, and in the local one if there are none. -/
structure OnlyObjectsRead (J : OrgJson) (c : Config) (r : ServersRepository) (m : Manifest)
    (space : String) : Prop where
  nodes : r.remoteNodes = [] → AllObjects (arrayAt J c.serverNodeJson "fsnd023")
  remote : AllObjects (arrayAt J m.mAdManifestJson space)
  local_ : arrayAt J m.mAdManifestJson space = [] → AllObjects (arrayAt J m.mLocalAdJson space)

/-! ### Elements -/

theorem optListObj_eq_some {α : Type} (deserializer : List (String × Json) → α) {xs : List Json}
    (h : AllObjects xs) : optListObj deserializer xs = some (objectsOf deserializer xs) := by
  induction xs with
  | nil => rfl
  | cons x xs ih =>
    obtain ⟨o, ho⟩ := Option.isSome_iff_exists.mp (h x List.mem_cons_self)
    have ht := ih fun y hy ↦ h y (List.mem_cons_of_mem x hy)
    simp only [optListObj, objectsOf] at ht ⊢
    simp [List.mapM_cons, ho, ht]

/-- An element that is no object makes the whole array throw. -/
theorem allObjects_of_optListObj {α : Type} {deserializer : List (String × Json) → α}
    {xs : List Json} {ys : List α} (h : optListObj deserializer xs = some ys) : AllObjects xs := by
  induction xs generalizing ys with
  | nil =>
    intro x hx
    cases hx
  | cons x xs ih =>
    rw [optListObj, List.mapM_cons] at h
    obtain ⟨y, hy, h⟩ := Option.bind_eq_some_iff.mp h
    obtain ⟨ys', hys, _⟩ := Option.bind_eq_some_iff.mp h
    obtain ⟨o, ho, _⟩ := Option.map_eq_some_iff.mp hy
    intro z hz
    rcases List.mem_cons.mp hz with rfl | hz
    · rw [ho]
      rfl
    · exact ih hys z hz

/-! ### Nodes -/

theorem readRemoteNodes_of_allObjects {J : OrgJson} {c : Config}
    (h : AllObjects (arrayAt J c.serverNodeJson "fsnd023")) :
    ∃ remote, ServersRepository.readRemoteNodes J c = some remote ∧
      remote.getD [] = objectsOf (ServerNode.ofJson J) (arrayAt J c.serverNodeJson "fsnd023") := by
  unfold ServersRepository.readRemoteNodes arrayAt at *
  cases ha : (J.parse c.serverNodeJson).bind fun o ↦ OrgJson.optJSONArray o "fsnd023" with
  | none => exact ⟨none, rfl, rfl⟩
  | some xs =>
    rw [ha] at h
    have hs : optListObj (ServerNode.ofJson J) xs = some (objectsOf (ServerNode.ofJson J) xs) :=
      optListObj_eq_some _ h
    exact ⟨some (objectsOf (ServerNode.ofJson J) xs), by simp only [hs, Option.map_some], rfl⟩

theorem allObjects_of_readRemoteNodes {J : OrgJson} {c : Config}
    {remote : Option (List ServerNode)}
    (h : ServersRepository.readRemoteNodes J c = some remote) :
    AllObjects (arrayAt J c.serverNodeJson "fsnd023") := by
  unfold ServersRepository.readRemoteNodes at h
  unfold arrayAt
  split at h
  · next ha =>
    rw [ha]
    intro x hx
    cases hx
  · next xs ha =>
    rw [ha]
    obtain ⟨ys, hy, _⟩ := Option.map_eq_some_iff.mp h
    exact allObjects_of_optListObj hy

theorem nodesOf_ne_nil (J : OrgJson) (c : Config) (r : ServersRepository) :
    nodesOf J c r ≠ [] := by
  unfold nodesOf
  cases hr : r.remoteNodes with
  | nil =>
    simp only [List.isEmpty_nil, if_true]
    unfold ifEmpty
    split
    · simp [mDefaultNodes]
    · next hn => simpa using hn
  | cons n ns => simp

/-- The nodes are read exactly when they were read before or their array holds objects only. -/
theorem getAllNodes_iff (J : OrgJson) (c : Config) (r : ServersRepository) :
    (∃ r', ServersRepository.getAllNodes J c r = some (nodesOf J c r, r')) ↔
      (r.remoteNodes = [] → AllObjects (arrayAt J c.serverNodeJson "fsnd023")) := by
  unfold ServersRepository.getAllNodes nodesOf
  by_cases hr : r.remoteNodes = []
  · simp only [hr, List.isEmpty_nil, if_true, forall_const]
    constructor
    · rintro ⟨r', h⟩
      obtain ⟨remote, hread, _⟩ := Option.map_eq_some_iff.mp h
      exact allObjects_of_readRemoteNodes hread
    · intro h
      obtain ⟨remote, hread, he⟩ := readRemoteNodes_of_allObjects h
      exact ⟨_, by rw [hread, ← he]; rfl⟩
  · simp [hr]

theorem fastCities_eq (J : OrgJson) (c : Config) (r : ServersRepository) :
    (ServersRepository.fastCities J c r).1 =
        ifEmpty r.fastCity (optListString J (arrayAt J c.fastCityJson "fsct567")) ∧
      (ServersRepository.fastCities J c r).2.remoteNodes = r.remoteNodes := by
  unfold ServersRepository.fastCities ifEmpty
  by_cases hr : r.fastCity.isEmpty
  · simp only [hr, if_true, and_true]
    unfold ServersRepository.readFastCity arrayAt
    cases (J.parse c.fastCityJson).bind fun o ↦ OrgJson.optJSONArray o "fsct567" <;> rfl
  · simp [hr]

/-- `getSmartNodes` reads the nodes through `getAllNodes` and throws exactly when it does. -/
theorem getSmartNodes_of_allNodes {J : OrgJson} {c : Config} {r : ServersRepository}
    (h : r.remoteNodes = [] → AllObjects (arrayAt J c.serverNodeJson "fsnd023")) :
    ∃ r', ServersRepository.getSmartNodes J c r = some (smartNodesOf J c r, r') := by
  obtain ⟨hc, hr⟩ := fastCities_eq J c r
  have hn : nodesOf J c (ServersRepository.fastCities J c r).2 = nodesOf J c r := by
    unfold nodesOf
    rw [hr]
  rw [← hr] at h
  obtain ⟨r', hall⟩ := (getAllNodes_iff J c _).mpr h
  refine ⟨r', ?_⟩
  simp only [ServersRepository.getSmartNodes, hall, Option.map_some, hn, hc, smartNodesOf]

/-! ### Ad parameters -/

theorem parseRequestParam_of_allObjects {J : OrgJson} {json space : String}
    (h : AllObjects (arrayAt J json space)) :
    Manifest.parseRequestParam J json space =
      some (objectsOf (Param.ofJson J) (arrayAt J json space)) := by
  unfold Manifest.parseRequestParam arrayAt at *
  cases ha : (J.parse json).bind fun o ↦ OrgJson.optJSONArray o space with
  | none => rfl
  | some xs =>
    rw [ha] at h
    exact optListObj_eq_some _ h

theorem allObjects_of_parseRequestParam {J : OrgJson} {json space : String} {ps : List Param}
    (h : Manifest.parseRequestParam J json space = some ps) :
    AllObjects (arrayAt J json space) := by
  unfold Manifest.parseRequestParam at h
  unfold arrayAt
  split at h
  · next ha =>
    rw [ha]
    intro x hx
    cases hx
  · next xs ha =>
    rw [ha]
    exact allObjects_of_optListObj h

theorem objectsOf_eq_nil {α : Type} {deserializer : List (String × Json) → α} {xs : List Json}
    (h : AllObjects xs) : objectsOf deserializer xs = [] ↔ xs = [] := by
  cases xs with
  | nil => exact iff_of_true rfl rfl
  | cons x xs =>
    obtain ⟨o, ho⟩ := Option.isSome_iff_exists.mp (h x List.mem_cons_self)
    simp [objectsOf, ho]

/-- The parameters are read exactly when the remote array, and without elements there the
local one, hold objects only. -/
theorem getRequestParams_iff (J : OrgJson) (m : Manifest) (space : String) :
    m.getRequestParams J space = some (paramsOf J m space) ↔
      AllObjects (arrayAt J m.mAdManifestJson space) ∧
        (arrayAt J m.mAdManifestJson space = [] →
          AllObjects (arrayAt J m.mLocalAdJson space)) := by
  rw [Manifest.getRequestParams_eq]
  constructor
  · intro h
    obtain ⟨params, hp, _⟩ := Option.map_eq_some_iff.mp h
    obtain ⟨remote, hr, hp⟩ := Option.bind_eq_some_iff.mp hp
    have ho := allObjects_of_parseRequestParam hr
    refine ⟨ho, ?_⟩
    intro hnil
    have hremote : remote = [] := by
      rw [parseRequestParam_of_allObjects ho] at hr
      rw [← Option.some.inj hr]
      exact (objectsOf_eq_nil ho).mpr hnil
    rw [hremote] at hp
    exact allObjects_of_parseRequestParam hp
  · rintro ⟨ho, hl⟩
    rw [parseRequestParam_of_allObjects ho, Option.bind_some, paramsOf, ifEmpty]
    by_cases hnil : arrayAt J m.mAdManifestJson space = []
    · rw [(objectsOf_eq_nil ho).mpr hnil, List.isEmpty_nil, if_pos rfl, if_pos rfl,
        parseRequestParam_of_allObjects (hl hnil)]
      rfl
    · have hne : ¬ (objectsOf (Param.ofJson J)
          (arrayAt J m.mAdManifestJson space)).isEmpty = true := by
        rw [List.isEmpty_iff, objectsOf_eq_nil ho]
        exact hnil
      rw [if_neg hne, if_neg hne]
      rfl

/-- The readers return normally, with nodes and with the elements that are no objects skipped,
exactly when there is no such element in the arrays they read. -/
theorem readNormally_iff_onlyObjectsRead (J : OrgJson) (c : Config) (r : ServersRepository)
    (m : Manifest) (space : String) :
    ReadNormally J c r m space ↔ OnlyObjectsRead J c r m space := by
  constructor
  · intro h
    obtain ⟨hr, hl⟩ := (getRequestParams_iff J m space).mp h.params
    exact ⟨(getAllNodes_iff J c r).mp h.allNodes, hr, hl⟩
  · intro h
    exact ⟨(getAllNodes_iff J c r).mpr h.nodes, nodesOf_ne_nil J c r,
      getSmartNodes_of_allNodes h.nodes, (getRequestParams_iff J m space).mpr ⟨h.remote, h.local_⟩⟩

/-- A stored string with a node and a number in the server-node array. -/
def mixedNodes : String := "\x7b\"fsnd023\":[\x7b\"fsf_ho\":\"1.2.3.4\"\x7d,5]\x7d"

/-- What `org.json` makes of this string. -/
def mixedJson : OrgJson where
  parse s :=
    if s = mixedNodes then
      some [("fsnd023", .array [.object [("fsf_ho", .string "1.2.3.4")], .number "5"])]
    else none
  text _ := ""
  int _ := none

theorem arrayAt_mixedNodes :
    arrayAt mixedJson mixedNodes "fsnd023" =
      [.object [("fsf_ho", .string "1.2.3.4")], .number "5"] := by
  simp [arrayAt, mixedJson, OrgJson.optJSONArray]

/-- The number is not skipped: `getAllNodes` throws. -/
theorem getAllNodes_throws_on_number :
    ¬ ReadNormally mixedJson { serverNodeJson := mixedNodes } {} {} spaceOpen := by
  intro h
  have ha := (getAllNodes_iff _ _ _).mp h.allNodes rfl
  rw [arrayAt_mixedNodes] at ha
  exact absurd (ha (.number "5") (by simp)) (by decide)

end FastSearch.Remote
