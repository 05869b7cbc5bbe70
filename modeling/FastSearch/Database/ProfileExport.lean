import FastSearch.Database.ProfileJson
import FastSearch.Plugin.PluginConfiguration

/-!
# Exported profiles

`toJson` in `database/Profile.kt` and `serializeToJson` in `database/ProfileManager.kt`, which write
what `JsonParser` reads. Of the plugins only the selected one is written, and the applications only
if the proxy is for some of them.
-/

namespace FastSearch.Database

open Server Plugin

/-- A number in a JSON object. -/
def jsonInt (n : Int32) : Json := .number (toString n.toInt)

/-- `toJson()`, `database/Profile.kt:312`, without other profiles. -/
def serverFields (profile : Profile) : List (String × Json) :=
  [("server", .string profile.host), ("server_port", jsonInt profile.remotePort),
    ("password", .string profile.password), ("method", .string profile.method)]

section Export

variable (defaultConfig : String → Option String)

/-- The options of the selected plugin, `database/Profile.kt:318`. -/
def selectedOptions (plugin : Option String) : Except String PluginOptions := do
  let configuration ← PluginConfiguration.ofText (plugin.getD "")
  configuration.getOptions defaultConfig configuration.selected

/-- The fields of a plugin, `database/Profile.kt:319`. -/
def pluginFields (options : PluginOptions) : List (String × Json) :=
  if options.id = "" then []
  else [("plugin", .string options.id), ("plugin_opts", .string (options.toString true))]

/-- The lines of a text as an array. -/
def linesJson (text : String) : Json :=
  .array ((text.toList.splitOn '\n').map fun line ↦ .string (String.ofList line))

/-- The applications, `database/Profile.kt:329`. -/
def proxyAppsFields (profile : Profile) : List (String × Json) :=
  ("enabled", .bool profile.proxyApps) :: if profile.proxyApps then
    [("bypass", .bool profile.bypass), ("android_list", linesJson profile.individual)] else []

/-- The fallback that is written, `database/Profile.kt:338`: one without a plugin. -/
def exportedFallback (profiles : Int → Option Profile) (profile : Profile) : Option Profile :=
  (profile.udpFallback.bind profiles).filter fun fallback ↦ nonEmpty fallback.plugin = none

/-- The settings, `database/Profile.kt:325`. -/
def settingFields (profile : Profile) : List (String × Json) :=
  [("route", .string profile.route), ("remote_dns", .string profile.remoteDns),
    ("ipv6", .bool profile.ipv6), ("metered", .bool profile.metered),
    ("proxy_apps", .object (proxyAppsFields profile)), ("udpdns", .bool profile.udpdns)]

/-- All fields in their order; a null name is not put. -/
def exportedFields (options : PluginOptions) (fallback : Option Profile) (profile : Profile) :
    List (String × Json) :=
  serverFields profile ++ (pluginFields options ++
    ((profile.name.map fun name ↦ ("remarks", Json.string name)).toList ++
      (settingFields profile ++ (fallback.map fun fallback ↦
        ("udp_fallback", Json.object (serverFields fallback))).toList)))

/-- `toJson`, `database/Profile.kt:312`, with other profiles. -/
def toJson (profiles : Int → Option Profile) (profile : Profile) :
    Except String (List (String × Json)) :=
  (selectedOptions defaultConfig profile.plugin).map fun options ↦
    exportedFields options (exportedFallback profiles profile) profile

/-- The sparse array of `serializeToJson`, `database/ProfileManager.kt:88`: the last profile with
an identifier stays. -/
def profileLookup (profiles : List Profile) (id : Int) : Option Profile :=
  profiles.reverse.find? fun it ↦ it.id = id

/-- `serializeToJson`, `database/ProfileManager.kt:88`. -/
def serializeToJson (profiles : List Profile) : Except String Json :=
  (profiles.mapM (toJson defaultConfig (profileLookup profiles))).map fun objects ↦
    .array (objects.map .object)

end Export

/-! ### What the parser makes of it -/

/-- What a profile needs to be read: a server, a port, a password and a method. -/
def Complete (p : Profile) : Prop :=
  p.host ≠ "" ∧ 0 < p.remotePort ∧ p.password ≠ "" ∧ p.method ≠ ""

instance (p : Profile) : Decidable (Complete p) := inferInstanceAs (Decidable (_ ∧ _))

/-- Gson reads the number that was printed. -/
def Gson.ReadsInts (J : Gson) : Prop := ∀ n : Int32, J.intValue (toString n.toInt) = some n

variable {J : Gson} {feature : Option Profile}

/-- A new profile with the server of another one. -/
def withServer (p : Profile) : Profile where
  host := p.host
  remotePort := p.remotePort
  password := p.password
  method := p.method

/-- The settings of the selected profile, in a new one. -/
def featured (feature : Option Profile) (profile : Profile) : Profile :=
  feature.elim profile fun f ↦ copyFeatureSettingsTo f profile

/-- The profile that is read from an exported one, with the text of its plugin. -/
def imported (feature : Option Profile) (plugin : Option String) (p : Profile) : Profile :=
  { featured feature (withServer p) with
    plugin := plugin
    name := p.name
    route := p.route
    remoteDns := p.remoteDns
    ipv6 := p.ipv6
    metered := p.metered
    proxyApps := p.proxyApps
    bypass := if p.proxyApps then p.bypass else (featured feature (withServer p)).bypass
    individual := if p.proxyApps then p.individual
      else (featured feature (withServer p)).individual
    udpdns := p.udpdns }

theorem featured_eq (feature : Option Profile) (profile : Profile) :
    featured feature profile = { profile with
      route := (featured feature profile).route
      ipv6 := (featured feature profile).ipv6
      metered := (featured feature profile).metered
      proxyApps := (featured feature profile).proxyApps
      bypass := (featured feature profile).bypass
      individual := (featured feature profile).individual
      udpdns := (featured feature profile).udpdns } := by
  cases feature <;> rfl

/-- The profile that is read from an exported fallback. -/
def importedFallback (feature : Option Profile) (p : Profile) : Profile :=
  { featured feature (withServer p) with plugin := none, name := none }

theorem nonEmpty_some {s : String} (h : s ≠ "") : nonEmpty (some s) = some s :=
  Option.filter_some_pos (by simpa using h)

theorem requiredFields_eq (hJ : J.ReadsInts) {p : Profile} (hp : Complete p)
    (rest : List (String × Json)) :
    requiredFields J (serverFields p ++ rest) = some (withServer p) := by
  obtain ⟨hhost, hport, hpassword, hmethod⟩ := hp
  have hserver : nonEmpty (optString ((serverFields p ++ rest).lookup "server")) =
      some p.host := nonEmpty_some hhost
  have hpw : nonEmpty (optString ((serverFields p ++ rest).lookup "password")) =
      some p.password := nonEmpty_some hpassword
  have hm : nonEmpty (optString ((serverFields p ++ rest).lookup "method")) =
      some p.method := nonEmpty_some hmethod
  have hp : (optInt J ((serverFields p ++ rest).lookup "server_port")).filter (0 < ·) =
      some p.remotePort := by
    have hi : optInt J ((serverFields p ++ rest).lookup "server_port") = some p.remotePort :=
      hJ p.remotePort
    rw [hi]
    exact Option.filter_some_pos (by simpa using hport)
  simp only [requiredFields, hserver, hpw, hm, hp]
  rfl

/-- A fallback is read with the settings of the selected profile. -/
theorem tryParseFallback_serverFields (hJ : J.ReadsInts) {p : Profile} (hp : Complete p) :
    tryParseFallback J feature (serverFields p) = .ok (some (importedFallback feature p)) := by
  have hr := requiredFields_eq hJ hp []
  rw [List.append_nil] at hr
  have hn : ∀ name, name = "plugin" ∨ name = "remarks" ∨ name = "route" →
      (serverFields p).lookup name = none := by
    rintro name (rfl | rfl | rfl) <;> rfl
  simp only [tryParseFallback, hr, pluginText, hn _ (Or.inl rfl), hn _ (Or.inr (Or.inl rfl)),
    hn _ (Or.inr (Or.inr rfl))]
  rfl

/-! ### The fields of an exported profile -/

section Fields

variable (options : PluginOptions) (fallback : Option Profile) (p : Profile)

private theorem lookup_optionField {α : Type} (o : Option α) (f : α → Json) (name field : String) :
    List.lookup name (o.map fun a ↦ (field, f a)).toList =
      if name = field then o.map f else none := by
  cases o with
  | none => simp
  | some a =>
    by_cases h : name = field
    · simp [h]
    · simp [List.lookup_cons, beq_eq_false_iff_ne.mpr h, h]

private theorem lookup_pluginFields {name : String} (h : name ≠ "plugin")
    (ho : name ≠ "plugin_opts") : (pluginFields options).lookup name = none := by
  unfold pluginFields
  split
  · rfl
  · simp [List.lookup_cons, beq_eq_false_iff_ne.mpr h, beq_eq_false_iff_ne.mpr ho]

private theorem lookup_exportedFields {name : String} (h : name ≠ "plugin")
    (ho : name ≠ "plugin_opts") :
    (exportedFields options fallback p).lookup name = ((serverFields p).lookup name).or
      ((if name = "remarks" then p.name.map Json.string else none).or
        (((settingFields p).lookup name).or
          (if name = "udp_fallback" then fallback.map fun f ↦ Json.object (serverFields f)
            else none))) := by
  rw [exportedFields, List.lookup_append, List.lookup_append, List.lookup_append,
    List.lookup_append, lookup_pluginFields options h ho, lookup_optionField, lookup_optionField,
    Option.none_or]

/-- The text of the plugin comes from the options alone. -/
private theorem pluginText_exportedFields :
    pluginText (exportedFields options fallback p) =
      if options.id = "" then .ok none
      else (PluginOptions.ofIdAndText options.id (some (options.toString true))).map
        fun options ↦ some (options.toString false) := by
  by_cases hid : options.id = ""
  · have hl : (exportedFields options fallback p).lookup "plugin" = none := by
      rw [exportedFields, pluginFields, if_pos hid, List.lookup_append, List.lookup_append,
        List.lookup_append, List.lookup_append, lookup_optionField, lookup_optionField]
      rfl
    rw [pluginText, hl, if_pos hid]
    rfl
  · have hl : (exportedFields options fallback p).lookup "plugin" = some (.string options.id) := by
      rw [exportedFields, pluginFields, if_neg hid]
      rfl
    have ho : (exportedFields options fallback p).lookup "plugin_opts" =
        some (.string (options.toString true)) := by
      rw [exportedFields, pluginFields, if_neg hid]
      rfl
    simp only [pluginText, hl, ho, optString, nonEmpty_some hid, if_neg hid]

/-- The lines of a text are joined to it. -/
private theorem joinedLines_lines (text : String) :
    joinedLines ((text.toList.splitOn '\n').map fun line ↦ .string (String.ofList line)) =
      text := by
  have hf : ((text.toList.splitOn '\n').map fun line ↦ Json.string (String.ofList line)).filterMap
      (fun item ↦ optString (some item)) = (text.toList.splitOn '\n').map String.ofList := by
    rw [List.filterMap_map]
    exact congrFun List.filterMap_eq_map _
  have ht : ((text.toList.splitOn '\n').map String.ofList).map String.toList =
      text.toList.splitOn '\n' := by
    rw [List.map_map]
    exact List.map_id'' (fun l ↦ String.toList_ofList) _
  rw [joinedLines, hf, ← String.toList_inj, String.toList_intercalate, ht]
  exact List.intercalate_splitOn '\n'

/-- The applications are read if the proxy is for some of them. -/
private theorem readProxyApps_exported (profile : Profile) :
    readProxyApps profile (some (.object (proxyAppsFields p))) =
      { profile with
        proxyApps := p.proxyApps
        bypass := if p.proxyApps then p.bypass else profile.bypass
        individual := if p.proxyApps then p.individual else profile.individual } := by
  unfold proxyAppsFields
  cases p.proxyApps with
  | false => rfl
  | true =>
    have hr : readProxyApps profile (some (.object [("enabled", .bool true),
        ("bypass", .bool p.bypass), ("android_list", linesJson p.individual)])) =
        { profile with
          proxyApps := true
          bypass := p.bypass
          individual := joinedLines ((p.individual.toList.splitOn '\n').map fun line ↦
            .string (String.ofList line)) } := rfl
    rw [joinedLines_lines] at hr
    exact hr

/-- A field of the settings is found. -/
private theorem lookup_setting (name : String) {value : Json}
    (h : ((serverFields p).lookup name).or ((settingFields p).lookup name) = some value)
    (hne : name ≠ "plugin" ∧ name ≠ "plugin_opts" ∧ name ≠ "remarks") :
    (exportedFields options fallback p).lookup name = some value := by
  rw [lookup_exportedFields options fallback p hne.1 hne.2.1, if_neg hne.2.2, Option.none_or,
    ← Option.or_assoc, h, Option.some_or]

/-- An exported profile is read with its fallback. -/
theorem tryParse_exportedFields (hJ : J.ReadsInts) (hp : Complete p)
    (hf : ∀ f, fallback = some f → Complete f) {plugin : Option String}
    (hpl : pluginText (exportedFields options fallback p) = .ok plugin) :
    tryParse J feature (exportedFields options fallback p) =
      .ok (some (imported feature plugin p, fallback.map (importedFallback feature))) := by
  have hname : optString ((exportedFields options fallback p).lookup "remarks") = p.name := by
    rw [lookup_exportedFields options fallback p (by decide) (by decide)]
    cases p.name <;> cases fallback <;> rfl
  have hroute := lookup_setting options fallback p "route" rfl (by decide)
  have hdns := lookup_setting options fallback p "remote_dns" rfl (by decide)
  have hipv6 := lookup_setting options fallback p "ipv6" rfl (by decide)
  have hmetered := lookup_setting options fallback p "metered" rfl (by decide)
  have happs := lookup_setting options fallback p "proxy_apps" rfl (by decide)
  have hudpdns := lookup_setting options fallback p "udpdns" rfl (by decide)
  have hfallback : (exportedFields options fallback p).lookup "udp_fallback" =
      fallback.map fun f ↦ Json.object (serverFields f) := by
    rw [lookup_exportedFields options fallback p (by decide) (by decide)]
    cases fallback <;> rfl
  have hbase : tryParseFallback J feature (exportedFields options fallback p) =
      .ok (some { featured feature (withServer p) with
        plugin := plugin
        name := p.name
        route := p.route }) := by
    rw [tryParseFallback, hpl, hname, hroute, exportedFields, requiredFields_eq hJ hp]
    rfl
  rw [tryParse, hbase]
  simp only [hdns, hipv6, hmetered, happs, hudpdns, hfallback, readProxyApps_exported]
  cases fallback with
  | none => rfl
  | some f =>
    simp only [Option.map_some, tryParseFallback_serverFields hJ (hf f rfl)]
    rfl

end Fields

/-! ### The selected plugin -/

section Plugin

variable {defaultConfig : String → Option String} {plugin : Option String}
  {options : PluginOptions}

variable (defaultConfig) in
/-- The selected plugin can be written: its entries are printable, and it would not be read as an
old kcptun line. -/
def PluginPrintable (plugin : Option String) : Prop :=
  ∃ options, selectedOptions defaultConfig plugin = .ok options ∧
    (options.id ≠ "" → options.EntriesPrintable ∧
      PluginConfiguration.kcptunStart.isPrefixOf options.id.toList = false)

/-- Without a text no plugin is selected. -/
theorem selectedOptions_of_empty (h : nonEmpty plugin = none) :
    selectedOptions defaultConfig plugin = .ok {} := by
  have hp : plugin.getD "" = "" := by
    cases plugin with
    | none => rfl
    | some text => simpa [nonEmpty] using h
  rw [selectedOptions, hp]
  rfl

/-- No plugin is selected, or one whose identifier has no control characters. -/
private theorem selectedOptions_cases (h : selectedOptions defaultConfig plugin = .ok options) :
    options = {} ∨ options.id ≠ "" ∧ PluginOptions.NoControl options.id := by
  unfold selectedOptions at h
  cases hc : PluginConfiguration.ofText (plugin.getD "") with
  | error e =>
    rw [hc] at h
    cases h
  | ok c =>
    rw [hc] at h
    have hb := PluginConfiguration.built_of_ofText hc
    change c.getOptions defaultConfig c.selected = .ok options at h
    by_cases hs : c.selected = ""
    · rw [PluginConfiguration.getOptions, if_pos hs] at h
      exact Or.inl (Except.ok.inj h).symm
    · obtain ⟨o, ho⟩ := hb.selected hs
      rw [PluginConfiguration.getOptions, if_neg hs, ho] at h
      cases h
      rw [hb.id_eq _ _ ho]
      exact Or.inr ⟨hs, hb.control _ _ ho⟩

/-- Options that are the same are printable if one of them is. -/
theorem entriesPrintable_of_same {o r : PluginOptions} (hs : r.Same o)
    (h : o.EntriesPrintable) : r.EntriesPrintable := by
  intro e he
  apply h
  have hl : r.map.lookup e.1 = some e.2 := AList.mem_lookup_iff.mpr he
  rw [hs.2] at hl
  exact AList.mem_lookup_iff.mp hl

variable (defaultConfig) in
/-- The line of printable options selects them. -/
theorem selectedOptions_toString {r : PluginOptions} (hid : r.id ≠ "")
    (hc : PluginOptions.NoControl r.id) (he : r.EntriesPrintable)
    (hk : PluginConfiguration.kcptunStart.isPrefixOf r.id.toList = false) :
    ∃ options, selectedOptions defaultConfig (some (r.toString false)) = .ok options ∧
      options.Same r := by
  obtain ⟨o, ho, hs⟩ := PluginConfiguration.ofLine_toString hid hc he hk
  have hn : '\n' ∉ (r.toString false).toList := by
    obtain ⟨q, hq, -⟩ := r.ofText_toString_iff.mpr ⟨fun h ↦ absurd h hid, hc, he⟩
    intro hm
    have hctl := PluginOptions.noControl_of_ofText hq '\n' hm
    exact absurd hctl (by decide)
  refine ⟨o, ?_, hs⟩
  have hoid : o.id ≠ "" := by rwa [hs.1]
  have ht := PluginConfiguration.ofText_of_ofLine ho hn
  have hl : (PluginConfiguration.ofPlugins [o]).pluginsOptions.get? o.id = some o := by
    obtain ⟨q, hq⟩ := Option.isSome_iff_exists.mp
      (PluginConfiguration.get?_ofPlugins_isSome (List.mem_singleton_self o) hoid)
    rw [hq, List.mem_singleton.mp (PluginConfiguration.mem_of_get?_ofPlugins hq).1]
  rw [selectedOptions, Option.getD_some, ht]
  change (PluginConfiguration.ofPlugins [o]).getOptions defaultConfig o.id = .ok o
  rw [PluginConfiguration.getOptions, if_neg hoid, hl]

/-- The exported plugin is read as the selected one. -/
theorem exists_pluginText (h : PluginPrintable defaultConfig plugin)
    (ho : selectedOptions defaultConfig plugin = .ok options) (fallback : Option Profile)
    (p : Profile) :
    ∃ plugin' options', pluginText (exportedFields options fallback p) = .ok plugin' ∧
      selectedOptions defaultConfig plugin' = .ok options' ∧ options'.Same options ∧
      (options.id = "" → plugin' = none) := by
  obtain ⟨o, ho', hprint⟩ := h
  rw [ho] at ho'
  cases ho'
  rw [pluginText_exportedFields]
  rcases selectedOptions_cases ho with rfl | ⟨hid, hc⟩
  · exact ⟨none, {}, rfl, selectedOptions_of_empty rfl, ⟨rfl, fun _ ↦ rfl⟩, fun _ ↦ rfl⟩
  · have hne := hid
    obtain ⟨he, hk⟩ := hprint hid
    obtain ⟨r, hr, hs⟩ := options.ofIdAndText_toString_iff.mpr he
    rw [if_neg hid, hr]
    rw [← hs.1] at hid hc hk
    obtain ⟨o, hsel, hso⟩ := selectedOptions_toString defaultConfig hid hc
      (entriesPrintable_of_same hs he) hk
    exact ⟨_, o, rfl, hsel, ⟨hso.1.trans hs.1, fun key ↦ (hso.2 key).trans (hs.2 key)⟩,
      fun he ↦ absurd he hne⟩

end Plugin

end FastSearch.Database
