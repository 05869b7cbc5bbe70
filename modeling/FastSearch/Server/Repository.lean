import FastSearch.Server.Node

/-!
# The server repository

`server/ServersRepository.kt` over the two strings that `remote/ConfigManager.kt` keeps.
Both readers memoise their first non-empty answer, so they pass the repository through.
-/

namespace FastSearch.Server

/-- The two remote-config strings the repository reads, `remote/ConfigManager.kt:19`. -/
structure Config where
  fastCityJson : String := ""
  serverNodeJson : String := ""
  deriving DecidableEq, Repr

/-- The memoised lists of `ServersRepository`, `server/ServersRepository.kt:33`. -/
structure ServersRepository where
  fastCity : List String := []
  remoteNodes : List ServerNode := []
  deriving DecidableEq, Repr

/-- `mDefaultNodes`, `server/ServersRepository.kt:13`. -/
def mDefaultNodes : List ServerNode :=
  [{ host := "79.133.124.13", port := 3711, password := "M1hN9hSpue0LR5Uu2RGI"
     method := "chacha20-ietf-poly1305", country := "United States", city := "Chicago" },
   { host := "192.99.42.21", port := 3711, password := "M1hN9hSpue0LR5Uu2RGI"
     method := "chacha20-ietf-poly1305", country := "Canada", city := "Montreal" }]

/-- `List.ifEmpty`. -/
def ifEmpty {α : Type} (l default : List α) : List α := if l.isEmpty then default else l

/-- `List.randomOrNull`, with the random number given. -/
def randomOrNull {α : Type} (random : Nat) (l : List α) : Option α := l[random % l.length]?

namespace ServersRepository

/-- The cities of the fast-city string; `none` is the source's null. -/
def readFastCity (J : OrgJson) (c : Config) : Option (List String) :=
  ((J.parse c.fastCityJson).bind fun o ↦ OrgJson.optJSONArray o "fsct567").map (optListString J)

/-- The nodes of the server-node string. The inner option is the source's null, the outer
one the exception that `optListObj` lets through. -/
def readRemoteNodes (J : OrgJson) (c : Config) : Option (Option (List ServerNode)) :=
  match (J.parse c.serverNodeJson).bind fun o ↦ OrgJson.optJSONArray o "fsnd023" with
  | none => some none
  | some xs => (optListObj (ServerNode.ofJson J) xs).map some

/-- `getAllNodes`, `server/ServersRepository.kt:61`; `none` when the reader throws. -/
def getAllNodes (J : OrgJson) (c : Config) (r : ServersRepository) :
    Option (List ServerNode × ServersRepository) :=
  if r.remoteNodes.isEmpty then
    (readRemoteNodes J c).map fun remote ↦
      (ifEmpty (remote.getD []) mDefaultNodes,
        { r with remoteNodes := r.remoteNodes ++ remote.getD [] })
  else some (r.remoteNodes, r)

/-- The city filter of `getSmartNodes` and the memoised cities after it. -/
def fastCities (J : OrgJson) (c : Config) (r : ServersRepository) :
    List String × ServersRepository :=
  if r.fastCity.isEmpty then
    let read := (readFastCity J c).getD []
    (read, { r with fastCity := r.fastCity ++ read })
  else (r.fastCity, r)

/-- `getSmartNodes`, `server/ServersRepository.kt:45`; `none` when the reader throws. -/
def getSmartNodes (J : OrgJson) (c : Config) (r : ServersRepository) :
    Option (List ServerNode × ServersRepository) :=
  let (cities, r') := fastCities J c r
  (getAllNodes J c r').map fun (nodes, r'') ↦
    (nodes.filter fun n ↦ cities.isEmpty || cities.contains n.city, r'')

end ServersRepository
end FastSearch.Server
