import FastSearch.Lib.LinkedMap
import FastSearch.Lib.Numeral
import FastSearch.Plugin.PluginOptions
import FastSearch.Server.Profile

/-!
# Profiles in JSON

`Profile.parseJson` and its `JsonParser` in `database/Profile.kt`: the objects of a document that
describe a server become profiles, and the fallback of a profile is looked up or created after all
of them. Whoever imports says how a profile is created, and keeps the objects it returns; a profile
object is known by its identifier, so that a change made to it is seen by all who hold it.
-/

namespace FastSearch.Database

open Server Plugin

/-- What is used of Gson's numbers: `getAsInt` of a literal, where it does not throw. -/
structure Gson where
  intValue : String → Option Int32

/-- `optString`, `database/Profile.kt:166`. -/
def optString : Option Json → Option String
  | some (.string s) => some s
  | some (.number literal) => some literal
  | some (.bool b) => some (if b then "true" else "false")
  | _ => none

/-- `optBoolean`, `database/Profile.kt:167`. -/
def optBoolean : Option Json → Option Bool
  | some (.bool b) => some b
  | _ => none

/-- `optInt`, `database/Profile.kt:170`. -/
def optInt (J : Gson) : Option Json → Option Int32
  | some (.number literal) => J.intValue literal
  | some (.string s) => (Numeral.parseInt s.toList).map Int32.ofInt
  | _ => none

/-- A text that is neither null nor empty. -/
def nonEmpty (s : Option String) : Option String := s.filter (· ≠ "")

/-- `formattedAddress`, `database/Profile.kt:282`, with the numerals of the default locale. -/
def formattedAddress (numeral : Int32 → String) (profile : Profile) : String :=
  if profile.host.toList.contains ':' then
    "[" ++ profile.host ++ "]:" ++ numeral profile.remotePort
  else profile.host ++ ":" ++ numeral profile.remotePort

/-- `copyFeatureSettingsTo`, `database/Profile.kt:285`. -/
def copyFeatureSettingsTo (feature profile : Profile) : Profile :=
  { profile with
    route := feature.route
    ipv6 := feature.ipv6
    metered := feature.metered
    proxyApps := feature.proxyApps
    bypass := feature.bypass
    individual := feature.individual
    udpdns := feature.udpdns }

/-- The lines of a list of applications, `database/Profile.kt:206`. -/
def joinedLines (items : List Json) : String :=
  "\n".intercalate (items.filterMap fun item ↦ optString (some item))

section JsonParser

variable (J : Gson) (feature : Option Profile)

/-- The four fields without which an object is no profile, `database/Profile.kt:178`. -/
def requiredFields (json : List (String × Json)) : Option Profile := do
  let host ← nonEmpty (optString (json.lookup "server"))
  let remotePort ← (optInt J (json.lookup "server_port")).filter (0 < ·)
  let password ← nonEmpty (optString (json.lookup "password"))
  let method ← nonEmpty (optString (json.lookup "method"))
  return { host, remotePort, password, method }

/-- The text of the plugin, `database/Profile.kt:193`. -/
def pluginText (json : List (String × Json)) : Except String (Option String) :=
  match nonEmpty (optString (json.lookup "plugin")) with
  | some id => (PluginOptions.ofIdAndText id (optString (json.lookup "plugin_opts"))).map
      fun options ↦ some (options.toString false)
  | none => .ok none

/-- `tryParse` with `fallback`, `database/Profile.kt:177`. -/
def tryParseFallback (json : List (String × Json)) : Except String (Option Profile) :=
  match requiredFields J json with
  | none => .ok none
  | some profile => (pluginText json).map fun plugin ↦
      let profile := feature.elim profile fun f ↦ copyFeatureSettingsTo f profile
      some { profile with
        plugin := plugin
        name := optString (json.lookup "remarks")
        route := (optString (json.lookup "route")).getD profile.route }

/-- The applications that use the proxy, `database/Profile.kt:203`. -/
def readProxyApps (profile : Profile) : Option Json → Profile
  | some (.object apps) =>
    { profile with
      proxyApps := (optBoolean (apps.lookup "enabled")).getD profile.proxyApps
      bypass := (optBoolean (apps.lookup "bypass")).getD profile.bypass
      individual :=
        match apps.lookup "android_list" with
        | some (.array items) => joinedLines items
        | _ => profile.individual }
  | _ => profile

/-- `tryParse`, `database/Profile.kt:177`: the profile, and its fallback if it has one. -/
def tryParse (json : List (String × Json)) : Except String (Option (Profile × Option Profile)) := do
  match ← tryParseFallback J feature json with
  | none => return none
  | some profile =>
    let profile := { profile with
      remoteDns := (optString (json.lookup "remote_dns")).getD profile.remoteDns
      ipv6 := (optBoolean (json.lookup "ipv6")).getD profile.ipv6
      metered := (optBoolean (json.lookup "metered")).getD profile.metered }
    let profile := readProxyApps profile (json.lookup "proxy_apps")
    let profile := { profile with
      udpdns := (optBoolean (json.lookup "udpdns")).getD profile.udpdns }
    match json.lookup "udp_fallback" with
    | some (.object fallback) => return some (profile, ← tryParseFallback J feature fallback)
    | _ => return some (profile, none)

/-- `JsonParser`, `database/Profile.kt:163`: the profiles, and the fallbacks of some by the values
of their profiles. -/
structure JsonParser where
  profiles : List Profile := []
  fallbackMap : LinkedMap Profile Profile := ∅

/-- A profile is added with its fallback, `database/Profile.kt:210` and `:218`. -/
def JsonParser.add (parser : JsonParser) (read : Profile × Option Profile) : JsonParser where
  profiles := parser.profiles ++ [read.1]
  fallbackMap := read.2.elim parser.fallbackMap (parser.fallbackMap.put read.1)

mutual

/-- `process`, `database/Profile.kt:214`. -/
def process (parser : JsonParser) : Json → Except String JsonParser
  | .object fields => do
    match ← tryParse J feature fields with
    | some read => return parser.add read
    | none => processFields parser fields
  | .array items => processItems parser items
  | _ => .ok parser

/-- The values of an object that is no profile. -/
def processFields (parser : JsonParser) : List (String × Json) → Except String JsonParser
  | [] => .ok parser
  | (_, value) :: fields => do processFields (← process parser value) fields

/-- The items of an array. -/
def processItems (parser : JsonParser) : List Json → Except String JsonParser
  | [] => .ok parser
  | item :: items => do processItems (← process parser item) items

end

end JsonParser

/-! ### Importing -/

/-- The table, the profile objects by their identifiers, and what the importer keeps. -/
structure Importing (σ : Type) where
  table : ProfileTable
  objects : Int → Profile
  kept : σ

variable {σ : Type}

/-- A profile object changes. -/
def Importing.setObject (s : Importing σ) (profile : Profile) : Importing σ :=
  { s with objects := Function.update s.objects profile.id profile }

/-- `createProfile`, `database/ProfileManager.kt:59`, and the object that it returns. -/
def Importing.createProfile (g : ProfileKey) (s : Importing σ) (profile : Profile) :
    Int × Importing σ :=
  let id := g.next s.table.rows
  (id, { s.setObject { profile with
      id := id
      userOrder := (ProfileManager.nextOrder s.table).getD 0 } with
    table := ProfileManager.createProfile g s.table profile })

section Import

variable (create : Importing σ → Profile → Int × Importing σ)

/-- The loop of `parseJson`, `database/Profile.kt:242`. Fallbacks are found by the value of a
profile before it is created, and kept under the object that `create` returns. -/
def createAll (s : Importing σ) : List Profile → LinkedMap Profile Profile →
    LinkedMap Int Profile → Importing σ × LinkedMap Int Profile
  | [], _, created => (s, created)
  | profile :: profiles, read, created =>
    let (id, s) := create s profile
    createAll s profiles (read.remove profile)
      ((read.get? profile).elim created (created.put id))

/-- The profile that is a fallback already, `database/Profile.kt:228`. -/
def matching (profiles : List Profile) (fallback : Profile) : Option Profile :=
  profiles.find? fun it ↦
    fallback.host = it.host ∧ fallback.remotePort = it.remotePort ∧
      fallback.password = it.password ∧ fallback.method = it.method ∧ nonEmpty it.plugin = none

/-- `finalize`, `database/Profile.kt:225`, and the exception if a row is missing. -/
def finalize (profiles : List Profile) (s : Importing σ) :
    List (Int × Profile) → Importing σ × Option String
  | [] => (s, none)
  | (id, fallback) :: rest =>
    let (udpFallback, s) : Int × Importing σ :=
      match matching profiles fallback with
      | some profile => (profile.id, s)
      | none => create s fallback
    let profile := { s.objects id with udpFallback := some udpFallback }
    let s := s.setObject profile
    match ProfileManager.updateProfile s.table profile with
    | .ok table => finalize profiles { s with table := table } rest
    | .error e => (s, some e)

/-- `parseJson`, `database/Profile.kt:239`: what was done before an exception stays. -/
def parseJson (J : Gson) (feature : Option Profile) (s : Importing σ) (json : Json) :
    Importing σ × Option String :=
  match process J feature {} json with
  | .error e => (s, some e)
  | .ok parser =>
    let (s, created) := createAll create s parser.profiles parser.fallbackMap ∅
    finalize create s.table.rows s created.entries

end Import

end FastSearch.Database
