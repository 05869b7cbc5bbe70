import FastSearch.Database.ProfileExport

/-!
# Importing exported profiles

`createProfilesFromJson` in `database/ProfileManager.kt`. When it replaces, the old profiles are
cleared once the first new one is there, and a new profile takes over the traffic counts of the old
one at its address. What `serializeToJson` wrote comes back so, the fallbacks included.
-/

namespace FastSearch.Database

open Server Plugin

section Import

variable (g : ProfileKey) (numeral : Int32 → String)

/-- The old profiles by their addresses, `database/ProfileManager.kt:68`. -/
def byAddress (profiles : List Profile) : LinkedMap String Profile :=
  profiles.foldl (fun m it ↦ m.put (formattedAddress numeral it) it) ∅

/-- `singleOrNull`. -/
def singleOrNull {α : Type} : List α → Option α
  | [a] => some a
  | _ => none

/-- The counts of the old profile at the same address, `database/ProfileManager.kt:78`. -/
def copyStats (profiles : LinkedMap String Profile) (it : Profile) : Profile :=
  (profiles.get? (formattedAddress numeral it)).elim it fun old ↦
    { it with tx := old.tx, rx := old.rx }

/-- How a profile is created, `database/ProfileManager.kt:75`; what is kept says that `lazyClear`
has run. There are no old profiles unless they are replaced. -/
def createImported (profiles : Option (LinkedMap String Profile)) (s : Importing Bool)
    (it : Profile) : Int × Importing Bool :=
  match profiles with
  | none => s.createProfile g it
  | some profiles =>
    (if s.kept then s else { s with table := RowTable.empty, kept := true }).createProfile g
      (copyStats numeral profiles it)

/-- One stream, `database/ProfileManager.kt:73`; the exceptions are collected. -/
def importStream (J : Gson) (profiles : Option (LinkedMap String Profile))
    (feature : Option Profile) (s : Importing Bool × List String) (json : Except String Json) :
    Importing Bool × List String :=
  match json with
  | .error e => (s.1, s.2 ++ [e])
  | .ok json =>
    let (t, e) := parseJson (createImported g numeral profiles) J feature s.1 json
    (t, s.2 ++ e.toList)

/-- `createProfilesFromJson`, `database/ProfileManager.kt:67`: the table, and the exceptions of
which the first is thrown. A stream that is no single JSON element is its exception. -/
def createProfilesFromJson (J : Gson) (replace : Bool) (profileId : Int) (table : ProfileTable)
    (jsons : List (Except String Json)) : ProfileTable × List String :=
  let profiles := if replace then some (byAddress numeral table.rows) else none
  let feature := match profiles with
    | some profiles => singleOrNull (profiles.values.filter fun it ↦ it.id = profileId)
    | none => table.get profileId
  let (s, errors) := jsons.foldl (importStream g numeral J profiles feature)
    (⟨table, fun _ ↦ {}, false⟩, [])
  (s.table, errors)

end Import

/-! ### Reading the array -/

/-- Profiles that are read one by one are added in their order. -/
private theorem processItems_objects {J : Gson} {feature : Option Profile}
    {objects : List (List (String × Json))} {reads : List (Profile × Option Profile)}
    (h : List.Forall₂ (fun fields read ↦ tryParse J feature fields = .ok (some read))
      objects reads) (parser : JsonParser) :
    processItems J feature parser (objects.map .object) =
      .ok (reads.foldl JsonParser.add parser) := by
  induction h generalizing parser with
  | nil => rfl
  | cons hr _ ih =>
    rw [List.map_cons, processItems, process, hr]
    exact ih _

private theorem profiles_foldl_add (reads : List (Profile × Option Profile)) (parser : JsonParser) :
    (reads.foldl JsonParser.add parser).profiles = parser.profiles ++ reads.map Prod.fst := by
  induction reads generalizing parser with
  | nil => simp
  | cons read reads ih =>
    rw [List.foldl_cons, ih, JsonParser.add, List.append_assoc]
    rfl

private theorem get?_add_ne {read : Profile × Option Profile} {q : Profile} (h : q ≠ read.1)
    (parser : JsonParser) :
    (parser.add read).fallbackMap.get? q = parser.fallbackMap.get? q := by
  obtain ⟨profile, fallback⟩ := read
  cases fallback with
  | none => rfl
  | some f => exact LinkedMap.get?_put_ne _ _ h

private theorem get?_foldl_add_of_notMem {reads : List (Profile × Option Profile)} {q : Profile}
    (h : q ∉ reads.map Prod.fst) (parser : JsonParser) :
    (reads.foldl JsonParser.add parser).fallbackMap.get? q = parser.fallbackMap.get? q := by
  induction reads generalizing parser with
  | nil => rfl
  | cons read reads ih =>
    rw [List.map_cons, List.mem_cons, not_or] at h
    rw [List.foldl_cons, ih h.2, get?_add_ne h.1]

/-- The fallback of a profile that is read once is found. -/
private theorem get?_foldl_add {reads : List (Profile × Option Profile)}
    (hnd : (reads.map Prod.fst).Nodup) {read : Profile × Option Profile} (hr : read ∈ reads)
    {parser : JsonParser} (hp : parser.fallbackMap.get? read.1 = none) :
    (reads.foldl JsonParser.add parser).fallbackMap.get? read.1 = read.2 := by
  induction reads generalizing parser with
  | nil => cases hr
  | cons r reads ih =>
    rw [List.map_cons, List.nodup_cons] at hnd
    rw [List.foldl_cons]
    rcases List.mem_cons.mp hr with rfl | hr
    · rw [get?_foldl_add_of_notMem hnd.1]
      obtain ⟨profile, fallback⟩ := read
      cases fallback with
      | none => exact hp
      | some f => exact LinkedMap.get?_put_self _ _ _
    · apply ih hnd.2 hr
      rw [get?_add_ne, hp]
      intro he
      exact hnd.1 (he ▸ List.mem_map_of_mem hr)

/-! ### Creating the profiles -/

section Create

variable {g : ProfileKey} {numeral : Int32 → String} {old : LinkedMap String Profile}

/-- The row of a profile that was read: it has its counts, a key and a place. -/
def RowOf (numeral : Int32 → String) (old : LinkedMap String Profile) (q r : Profile) : Prop :=
  r = { copyStats numeral old q with id := r.id, userOrder := r.userOrder }

/-- What is there after some profiles were created: their rows and objects, and the fallbacks under
their keys. -/
structure Created (numeral : Int32 → String) (old : LinkedMap String Profile)
    (read : LinkedMap Profile Profile) (done : List Profile) (s : Importing Bool)
    (created : LinkedMap Int Profile) : Prop where
  kept : s.kept = true
  rows : List.Forall₂ (fun q r ↦ RowOf numeral old q r ∧ s.objects r.id = r ∧
    created.get? r.id = read.get? q) done s.table.rows
  keys : ∀ id f, created.get? id = some f → ∃ r ∈ s.table.rows, r.id = id

variable {read : LinkedMap Profile Profile} {done : List Profile} {s : Importing Bool}
  {created : LinkedMap Int Profile}

private theorem created_step (h : Created numeral old read done s created) (q : Profile) :
    Created numeral old read (done ++ [q]) (createImported g numeral (some old) s q).2
      ((read.get? q).elim created (created.put (createImported g numeral (some old) s q).1)) := by
  have heq : createImported g numeral (some old) s q =
      s.createProfile g (copyStats numeral old q) := by
    rw [createImported, h.kept, if_pos rfl]
  have hfresh : ∀ r ∈ s.table.rows, r.id ≠ g.next s.table.rows := fun r hr he ↦
    g.fresh s.table.rows (List.mem_map.mpr ⟨r, hr, he⟩)
  have hfree : created.get? (g.next s.table.rows) = none := by
    cases hc : created.get? (g.next s.table.rows) with
    | none => rfl
    | some f =>
      obtain ⟨r, hr, he⟩ := h.keys _ f hc
      exact absurd he (hfresh r hr)
  rw [heq]
  have hget : ∀ id, ((read.get? q).elim created (created.put (g.next s.table.rows))).get? id =
      if id = g.next s.table.rows then read.get? q else created.get? id := by
    intro id
    cases read.get? q with
    | none =>
      split
      · next he => rw [he]; exact hfree
      · rfl
    | some f => exact LinkedMap.get?_put _ _ _ _
  refine ⟨h.kept, ?_, ?_⟩
  · refine List.rel_append (Lines.imp_of_mem h.rows ?_) (.cons ?_ .nil)
    · rintro q' _ r hr ⟨hrow, hobj, hc⟩
      refine ⟨hrow, ?_, ?_⟩
      · exact (Function.update_of_ne (hfresh r hr) _ _).trans hobj
      · exact (hget r.id).trans ((if_neg (hfresh r hr)).trans hc)
    · exact ⟨rfl, Function.update_self _ _ _, (hget _).trans (if_pos rfl)⟩
  · intro id f hc
    have hc' := (hget id).symm.trans hc
    split at hc'
    · next he => exact ⟨_, RowTable.mem_insert.mpr (Or.inr rfl), he.symm⟩
    · obtain ⟨r, hr, he⟩ := h.keys id f hc'
      exact ⟨r, RowTable.mem_insert.mpr (Or.inl hr), he⟩

/-- All profiles are created; each is found in the map of fallbacks by its value. -/
private theorem created_createAll (h : Created numeral old read done s created)
    {qs : List Profile} (hnd : (done ++ qs).Nodup) {rest : LinkedMap Profile Profile}
    (hrest : ∀ q, q ∉ done → rest.get? q = read.get? q) :
    Created numeral old read (done ++ qs)
      (createAll (createImported g numeral (some old)) s qs rest created).1
      (createAll (createImported g numeral (some old)) s qs rest created).2 := by
  induction qs generalizing done s rest created with
  | nil =>
    rw [List.append_nil]
    exact h
  | cons q qs ih =>
    have hq : q ∉ done := fun hm ↦
      (List.nodup_append.mp hnd).2.2 q hm q List.mem_cons_self rfl
    rw [createAll, hrest q hq, List.append_cons]
    refine ih (created_step h q) (List.append_cons done q qs ▸ hnd) ?_
    intro q' hq'
    rw [List.mem_append, List.mem_singleton, not_or] at hq'
    rw [LinkedMap.get?_remove, if_neg hq'.2, hrest q' hq'.1]

end Create

/-! ### Setting the fallbacks -/

section Finalize

variable {σ : Type} {create : Importing σ → Profile → Int × Importing σ} {profiles : List Profile}

/-- What `finalize` makes of a row, if all fallbacks are rows already. -/
def withFallback (profiles : List Profile) (entries : List (Int × Profile)) (r : Profile) :
    Profile :=
  ((entries.find? fun e ↦ e.1 = r.id).bind fun e ↦ matching profiles e.2).elim r fun m ↦
    { r with udpFallback := some m.id }

private theorem withFallback_cons_self {id : Int} {f m r : Profile} (hr : r.id = id)
    (hm : matching profiles f = some m) (entries : List (Int × Profile)) :
    withFallback profiles ((id, f) :: entries) r = { r with udpFallback := some m.id } := by
  rw [withFallback, List.find?_cons_of_pos (by simp [hr]), Option.bind_some, hm, Option.elim_some]

private theorem withFallback_cons_ne {id : Int} {f r : Profile} (hr : r.id ≠ id)
    (entries : List (Int × Profile)) :
    withFallback profiles ((id, f) :: entries) r = withFallback profiles entries r := by
  rw [withFallback, List.find?_cons_of_neg (by simpa using hr.symm), withFallback]

private theorem withFallback_of_notMem {entries : List (Int × Profile)} {r : Profile}
    (h : r.id ∉ entries.map Prod.fst) : withFallback profiles entries r = r := by
  have hf : entries.find? (fun e ↦ e.1 = r.id) = none := by
    rw [List.find?_eq_none]
    intro e he
    simp only [decide_eq_true_eq]
    rintro hk
    exact h (hk ▸ List.mem_map_of_mem he)
  rw [withFallback, hf]
  rfl

variable (create) in
/-- Every fallback that is a row already is set, and nothing throws. -/
private theorem rows_finalize {entries : List (Int × Profile)} {s : Importing σ}
    (hnd : (entries.map Prod.fst).Nodup) (hid : ∀ e ∈ entries, ∃ r ∈ s.table.rows, r.id = e.1)
    (hobj : ∀ r ∈ s.table.rows, s.objects r.id = r)
    (hm : ∀ e ∈ entries, ∃ m, matching profiles e.2 = some m) :
    (finalize create profiles s entries).1.table.rows =
        s.table.rows.map (withFallback profiles entries) ∧
      (finalize create profiles s entries).2 = none := by
  induction entries generalizing s with
  | nil => exact ⟨(List.map_id' _).symm, rfl⟩
  | cons e entries ih =>
    obtain ⟨id, f⟩ := e
    rw [List.map_cons, List.nodup_cons] at hnd
    obtain ⟨m, hmf⟩ := hm _ List.mem_cons_self
    obtain ⟨r, hr, hrid⟩ := hid _ List.mem_cons_self
    have hrid : r.id = id := hrid
    have hro : s.objects id = r := hrid ▸ hobj r hr
    let r' : Profile := { r with udpFallback := some m.id }
    have hin : r'.id ∈ s.table.rows.map Profile.id := List.mem_map.mpr ⟨r, hr, rfl⟩
    have hup : ProfileManager.updateProfile s.table r' = .ok (s.table.update r') := by
      rw [ProfileManager.updateProfile]
      exact if_pos (RowTable.updateCount_eq_one hin)
    have heq : finalize create profiles s ((id, f) :: entries) =
        finalize create profiles { s.setObject r' with table := s.table.update r' } entries := by
      rw [finalize, hmf]
      simp only [hro]
      erw [hup]
    rw [heq]
    have hid' : ∀ e ∈ entries, ∃ x ∈ (s.table.update r').rows, x.id = e.1 := by
      intro e he
      obtain ⟨x, hx, hxe⟩ := hid e (List.mem_cons_of_mem _ he)
      by_cases hxr : x.id = r'.id
      · exact ⟨r', RowTable.mem_update.mpr (Or.inr ⟨rfl, hin⟩), hxr.symm.trans hxe⟩
      · exact ⟨x, RowTable.mem_update.mpr (Or.inl ⟨hx, hxr⟩), hxe⟩
    have hobj' : ∀ x ∈ (s.table.update r').rows,
        Function.update s.objects r'.id r' x.id = x := by
      intro x hx
      rcases RowTable.mem_update.mp hx with ⟨hx, hne⟩ | ⟨rfl, -⟩
      · rw [Function.update_of_ne hne]
        exact hobj x hx
      · exact Function.update_self _ _ _
    obtain ⟨hrows, hnone⟩ := ih (s := { s.setObject r' with table := s.table.update r' }) hnd.2
      hid' hobj' fun e he ↦ hm e (List.mem_cons_of_mem _ he)
    refine ⟨hrows.trans ?_, hnone⟩
    simp only [RowTable.update, List.map_map]
    apply List.map_congr_left
    intro x hx
    rw [Function.comp_apply]
    by_cases hxid : x.id = r'.id
    · have hxr : x = r := RowTable.eq_of_key_eq hx hr hxid
      rw [if_pos hxid, hxr, withFallback_cons_self hrid hmf]
      exact withFallback_of_notMem (hrid ▸ hnd.1)
    · rw [if_neg hxid, withFallback_cons_ne fun he ↦ hxid (he.trans hrid.symm)]

end Finalize

/-! ### The round trip -/

/-- The profiles have the same server. -/
def SameServer (p r : Profile) : Prop :=
  r.host = p.host ∧ r.remotePort = p.remotePort ∧ r.password = p.password ∧ r.method = p.method

section RoundTrip

variable {defaultConfig : String → Option String} {numeral : Int32 → String}
  {old : LinkedMap String Profile} {feature : Option Profile} {exported rows : List Profile}
  {p q r : Profile}

variable (defaultConfig) in
/-- The plugins select the same options. -/
def SamePlugin (plugin plugin' : Option String) : Prop :=
  ∃ o o', selectedOptions defaultConfig plugin = .ok o ∧
    selectedOptions defaultConfig plugin' = .ok o' ∧ o'.Same o

variable (defaultConfig numeral old) in
/-- A row restores an exported profile: its server and settings, the applications if there are
some, the options of the selected plugin, the counts of the profile at its address, and a fallback
with the server of the one that was exported. -/
structure Restores (exported rows : List Profile) (p r : Profile) : Prop where
  name : r.name = p.name
  server : SameServer p r
  settings : r.route = p.route ∧ r.remoteDns = p.remoteDns ∧ r.ipv6 = p.ipv6 ∧
    r.metered = p.metered ∧ r.udpdns = p.udpdns ∧ r.proxyApps = p.proxyApps
  apps : p.proxyApps = true → r.bypass = p.bypass ∧ r.individual = p.individual
  plugin : SamePlugin defaultConfig p.plugin r.plugin
  stats : ∀ o, old.get? (formattedAddress numeral p) = some o → r.tx = o.tx ∧ r.rx = o.rx
  fallback : match exportedFallback (profileLookup exported) p with
    | none => r.udpFallback = none
    | some f => ∃ m ∈ rows, r.udpFallback = some m.id ∧ SameServer f m ∧ nonEmpty m.plugin = none

variable (defaultConfig feature exported) in
/-- What is read from an exported profile. -/
def ReadFrom (p : Profile) (read : Profile × Option Profile) : Prop :=
  ∃ plugin, read = (imported feature plugin p,
      (exportedFallback (profileLookup exported) p).map (importedFallback feature)) ∧
    SamePlugin defaultConfig p.plugin plugin ∧ (nonEmpty p.plugin = none → plugin = none)

/-- A fallback that is exported is among the exported profiles. -/
private theorem mem_of_exportedFallback {f : Profile}
    (h : exportedFallback (profileLookup exported) p = some f) :
    f ∈ exported ∧ nonEmpty f.plugin = none := by
  obtain ⟨hf, hn⟩ := Option.filter_eq_some_iff.mp h
  obtain ⟨id, -, hid⟩ := Option.bind_eq_some_iff.mp hf
  exact ⟨List.mem_reverse.mp (List.mem_of_find?_eq_some hid), by simpa using hn⟩

private theorem sameServer_imported (plugin : Option String) :
    SameServer p (imported feature plugin p) := by
  cases feature <;> exact ⟨rfl, rfl, rfl, rfl⟩

private theorem sameServer_importedFallback : SameServer p (importedFallback feature p) := by
  cases feature <;> exact ⟨rfl, rfl, rfl, rfl⟩

/-- Every exported profile is written and read. -/
private theorem exists_read {J : Gson} (hJ : J.ReadsInts)
    (hc : ∀ p ∈ exported, Complete p ∧ PluginPrintable defaultConfig p.plugin)
    (hp : p ∈ exported) :
    ∃ x : List (String × Json) × (Profile × Option Profile),
      toJson defaultConfig (profileLookup exported) p = .ok x.1 ∧
        tryParse J feature x.1 = .ok (some x.2) ∧
          ReadFrom defaultConfig feature exported p x.2 := by
  obtain ⟨hcomplete, hprint⟩ := hc p hp
  obtain ⟨options, ho, -⟩ := hprint
  obtain ⟨plugin, options', ht, ho', hs, hn⟩ := exists_pluginText (hc p hp).2 ho
    (exportedFallback (profileLookup exported) p) p
  have hf : ∀ f, exportedFallback (profileLookup exported) p = some f → Complete f := fun f hf ↦
    (hc f (mem_of_exportedFallback hf).1).1
  refine ⟨(exportedFields options _ p, _), ?_, tryParse_exportedFields _ _ _ hJ hcomplete hf ht,
    plugin, rfl, ⟨options, options', ho, ho', hs⟩, ?_⟩
  · rw [toJson, ho]
    rfl
  · intro he
    rw [selectedOptions_of_empty he] at ho
    cases ho
    exact hn rfl

private theorem formattedAddress_congr (h : SameServer p r) :
    formattedAddress numeral r = formattedAddress numeral p := by
  rw [formattedAddress, h.1, h.2.1, formattedAddress]

private theorem eq_of_rowOf (h : RowOf numeral old q r) :
    r = { q with id := r.id, userOrder := r.userOrder, tx := r.tx, rx := r.rx } := by
  have hc : copyStats numeral old q = { q with
      tx := (copyStats numeral old q).tx
      rx := (copyStats numeral old q).rx } := by
    unfold copyStats
    cases old.get? (formattedAddress numeral q) <;> rfl
  rw [RowOf, hc] at h
  rw [h]

/-- The row of a profile that was read has everything but its fallback. -/
private theorem restores_of_rowOf {plugin : Option String} {r₀ : Profile}
    (hrow : RowOf numeral old (imported feature plugin p) r₀)
    (hplugin : SamePlugin defaultConfig p.plugin plugin)
    (hr : r = { r₀ with udpFallback := r.udpFallback })
    (hfallback : match exportedFallback (profileLookup exported) p with
      | none => r.udpFallback = none
      | some f => ∃ m ∈ rows, r.udpFallback = some m.id ∧ SameServer f m ∧
        nonEmpty m.plugin = none) :
    Restores defaultConfig numeral old exported rows p r := by
  have hserver : SameServer p (imported feature plugin p) := sameServer_imported plugin
  have hstats : ∀ o, old.get? (formattedAddress numeral p) = some o →
      r.tx = o.tx ∧ r.rx = o.rx := by
    intro o ho
    rw [hr, hrow, copyStats, formattedAddress_congr hserver, ho]
    exact ⟨rfl, rfl⟩
  have heq := eq_of_rowOf hrow
  rw [imported, featured_eq] at heq
  rw [heq] at hr
  rw [hr] at hfallback hstats ⊢
  exact {
    name := rfl
    server := ⟨rfl, rfl, rfl, rfl⟩
    settings := ⟨rfl, rfl, rfl, rfl, rfl, rfl⟩
    apps := fun ha ↦ ⟨if_pos ha, if_pos ha⟩
    plugin := hplugin
    stats := hstats
    fallback := hfallback }

private theorem server_of_rowOf {plugin : Option String}
    (h : RowOf numeral old (imported feature plugin p) r) :
    SameServer p r ∧ r.plugin = plugin ∧ r.udpFallback = none := by
  have heq := eq_of_rowOf h
  rw [imported, featured_eq] at heq
  rw [heq]
  exact ⟨⟨rfl, rfl, rfl, rfl⟩, rfl, rfl⟩

variable (defaultConfig numeral old feature exported) in
/-- The row of an exported profile before the fallbacks are set, with the fallback that waits. -/
private def RowFrom (created : LinkedMap Int Profile) (p r : Profile) : Prop :=
  ∃ plugin, RowOf numeral old (imported feature plugin p) r ∧
    SamePlugin defaultConfig p.plugin plugin ∧ (nonEmpty p.plugin = none → plugin = none) ∧
    created.get? r.id =
      (exportedFallback (profileLookup exported) p).map (importedFallback feature)

/-- A fallback that waits is the row of an exported profile. -/
private theorem exists_matching {created : LinkedMap Int Profile}
    (h : List.Forall₂ (RowFrom defaultConfig numeral old feature exported created) exported rows)
    {f : Profile} (hf : exportedFallback (profileLookup exported) p = some f) :
    ∃ m, matching rows (importedFallback feature f) = some m := by
  obtain ⟨hmem, hempty⟩ := mem_of_exportedFallback hf
  obtain ⟨r, hr, plugin, hrow, -, hnone, -⟩ := Lines.exists_right h hmem
  obtain ⟨hs, hpl, -⟩ := server_of_rowOf hrow
  have hi : SameServer f (importedFallback feature f) := sameServer_importedFallback
  rw [← Option.isSome_iff_exists, matching, List.find?_isSome]
  refine ⟨r, hr, decide_eq_true ⟨hi.1.trans hs.1.symm, hi.2.1.trans hs.2.1.symm,
    hi.2.2.1.trans hs.2.2.1.symm, hi.2.2.2.trans hs.2.2.2.symm, ?_⟩⟩
  rw [hpl, hnone hempty]
  rfl

/-- What `matching` finds has the server and no plugin. -/
private theorem of_matching {f m : Profile}
    (h : matching rows (importedFallback feature f) = some m) :
    m ∈ rows ∧ SameServer f m ∧ nonEmpty m.plugin = none := by
  have hi : SameServer f (importedFallback feature f) := sameServer_importedFallback
  have hfound := List.find?_some h
  obtain ⟨h1, h2, h3, h4, h5⟩ := of_decide_eq_true hfound
  exact ⟨List.mem_of_find?_eq_some h, ⟨h1.symm.trans hi.1, h2.symm.trans hi.2.1,
    h3.symm.trans hi.2.2.1, h4.symm.trans hi.2.2.2⟩, h5⟩

private theorem withFallback_eq (profiles : List Profile) (entries : List (Int × Profile))
    (r : Profile) : withFallback profiles entries r =
      { r with udpFallback := (withFallback profiles entries r).udpFallback } := by
  unfold withFallback
  cases (entries.find? fun e ↦ e.1 = r.id).bind fun e ↦ matching profiles e.2 <;> rfl

private theorem withFallback_of_get? {created : LinkedMap Int Profile} {f m : Profile}
    (h : created.get? r.id = some f) (hm : matching rows f = some m) :
    withFallback rows created.entries r = { r with udpFallback := some m.id } := by
  obtain ⟨e, he, rfl⟩ := Option.map_eq_some_iff.mp h
  rw [withFallback, he, Option.bind_some, hm, Option.elim_some]

/-- The rows with their fallbacks restore the exported profiles. -/
private theorem restores_withFallback {created : LinkedMap Int Profile}
    (h : List.Forall₂ (RowFrom defaultConfig numeral old feature exported created) exported rows) :
    List.Forall₂ (Restores defaultConfig numeral old exported
        (rows.map (withFallback rows created.entries)))
      exported (rows.map (withFallback rows created.entries)) := by
  rw [List.forall₂_map_right_iff]
  refine h.imp fun p r hr ↦ ?_
  obtain ⟨plugin, hrow, hplugin, -, hget⟩ := hr
  refine restores_of_rowOf hrow hplugin (withFallback_eq _ _ r) ?_
  cases hf : exportedFallback (profileLookup exported) p with
  | none =>
    rw [hf, Option.map_none, LinkedMap.get?_eq_none_iff] at hget
    rw [withFallback_of_notMem hget]
    exact (server_of_rowOf hrow).2.2
  | some f =>
    obtain ⟨m, hm⟩ := exists_matching h hf
    obtain ⟨hmem, hs, hempty⟩ := of_matching hm
    refine ⟨withFallback rows created.entries m, List.mem_map_of_mem hmem, ?_, ?_, ?_⟩
    · have hid : (withFallback rows created.entries m).id = m.id := by rw [withFallback_eq]
      rw [hid, withFallback_of_get? (hget.trans (congrArg _ hf)) hm]
    · rw [withFallback_eq]
      exact hs
    · rw [withFallback_eq]
      exact hempty

/-- No two profiles have one address. -/
def AddressesDiffer (profiles : List Profile) : Prop :=
  (profiles.map fun p ↦ (p.host, p.remotePort)).Nodup

instance (profiles : List Profile) : Decidable (AddressesDiffer profiles) :=
  inferInstanceAs (Decidable (List.Nodup _))

private theorem nodup_reads {reads : List (Profile × Option Profile)}
    (h : List.Forall₂ (ReadFrom defaultConfig feature exported) exported reads)
    (hd : AddressesDiffer exported) : (reads.map Prod.fst).Nodup := by
  have hmap : (reads.map Prod.fst).map (fun p ↦ (p.host, p.remotePort)) =
      exported.map fun p ↦ (p.host, p.remotePort) := by
    rw [List.map_map, ← List.forall₂_eq_eq_eq, List.forall₂_map_left_iff,
      List.forall₂_map_right_iff]
    refine h.flip.imp fun read p hr ↦ ?_
    obtain ⟨plugin, rfl, -⟩ := hr
    have hs : SameServer p (imported feature plugin p) := sameServer_imported plugin
    exact Prod.ext hs.1 hs.2.1
  rw [AddressesDiffer, ← hmap] at hd
  exact List.Nodup.of_map _ hd

variable {g : ProfileKey}

/-- The first profile clears the table. -/
private theorem createAll_clears {s : Importing Bool} (hs : s.kept = false) {qs : List Profile}
    (hq : qs ≠ []) (read : LinkedMap Profile Profile) (created : LinkedMap Int Profile) :
    createAll (createImported g numeral (some old)) s qs read created =
      createAll (createImported g numeral (some old))
        { s with table := RowTable.empty, kept := true } qs read created := by
  obtain ⟨q, qs, rfl⟩ := List.exists_cons_of_ne_nil hq
  have hc : createImported g numeral (some old) s q = createImported g numeral (some old)
      { s with table := RowTable.empty, kept := true } q := by
    simp only [createImported, hs, Bool.false_eq_true, if_false, if_true]
  rw [createAll, hc, createAll]

/-- The document of the exported profiles leaves their rows. -/
private theorem restores_parseJson {J : Gson} {json : Json}
    {reads : List (Profile × Option Profile)}
    (h : List.Forall₂ (ReadFrom defaultConfig feature exported) exported reads)
    (hd : AddressesDiffer exported) (hne : exported ≠ [])
    (hp : process J feature {} json = .ok (reads.foldl JsonParser.add {})) {s : Importing Bool}
    (hs : s.kept = false) :
    (parseJson (createImported g numeral (some old)) J feature s json).2 = none ∧
      List.Forall₂ (Restores defaultConfig numeral old exported
          (parseJson (createImported g numeral (some old)) J feature s json).1.table.rows)
        exported
        (parseJson (createImported g numeral (some old)) J feature s json).1.table.rows := by
  have hnd := nodup_reads h hd
  have hqs : reads.map Prod.fst ≠ [] := by
    intro he
    apply hne
    have hl := h.length_eq
    rw [List.map_eq_nil_iff.mp he] at hl
    exact List.length_eq_zero_iff.mp hl
  have hprofiles : (reads.foldl JsonParser.add {}).profiles = reads.map Prod.fst :=
    profiles_foldl_add reads {}
  simp only [parseJson, hp, hprofiles, createAll_clears hs hqs]
  set read := (reads.foldl JsonParser.add {}).fallbackMap with hread
  set out := createAll (createImported g numeral (some old))
    { s with table := RowTable.empty, kept := true } (reads.map Prod.fst) read ∅ with hout
  have hcreated : Created numeral old read (reads.map Prod.fst) out.1 out.2 := by
    have h₀ : Created numeral old read [] { s with table := RowTable.empty, kept := true } ∅ :=
      ⟨rfl, .nil, fun id f hf ↦ (nomatch hf)⟩
    exact created_createAll h₀ (by simpa using hnd) fun _ _ ↦ rfl
  have hrows : List.Forall₂ (RowFrom defaultConfig numeral old feature exported out.2) exported
      out.1.table.rows := by
    have hget : ∀ read' ∈ reads, read.get? read'.1 = read'.2 := fun read' hm ↦
      get?_foldl_add hnd hm (LinkedMap.get?_empty _)
    have hfound := Lines.imp_of_mem (List.forall₂_map_left_iff.mp hcreated.rows)
      fun read' hm r _ hr ↦ And.intro (hget read' hm) hr
    refine (Lines.forall₂_trans h hfound).imp ?_
    rintro p r ⟨read', ⟨plugin, rfl, hplugin, hempty⟩, hget, hrow, -, hc⟩
    exact ⟨plugin, hrow, hplugin, hempty, hc.trans hget⟩
  have hid : ∀ e ∈ out.2.entries, ∃ r ∈ out.1.table.rows, r.id = e.1 := fun e he ↦
    hcreated.keys e.1 e.2 (LinkedMap.get?_eq_some_iff.mpr he)
  have hobj : ∀ r ∈ out.1.table.rows, out.1.objects r.id = r := by
    intro r hr
    obtain ⟨q, -, -, ho, -⟩ := Lines.exists_left hcreated.rows hr
    exact ho
  have hm : ∀ e ∈ out.2.entries, ∃ m, matching out.1.table.rows e.2 = some m := by
    intro e he
    obtain ⟨r, hr, hre⟩ := hid e he
    obtain ⟨p, -, plugin, -, -, -, hget⟩ := Lines.exists_left hrows hr
    rw [hre, LinkedMap.get?_eq_some_iff.mpr he] at hget
    obtain ⟨f, hf, hfe⟩ := Option.map_eq_some_iff.mp hget.symm
    rw [← hfe]
    exact exists_matching hrows hf
  obtain ⟨hfinal, hnone⟩ := rows_finalize (createImported g numeral (some old))
    out.2.nodup hid hobj hm
  rw [hfinal]
  exact ⟨hnone, restores_withFallback hrows⟩

/-- Profiles that were exported and are imported in place of all others come back: as many rows in
the same order, each with the server, the settings, the selected plugin and the counts of its
profile, and with a fallback among them that has the server of the exported one. It needs that
every profile is complete and its plugin printable, and that no two have one address. Importing no
profile at all leaves the table as it is. -/
theorem import_restores_export (g : ProfileKey) (numeral : Int32 → String)
    (defaultConfig : String → Option String) (J : Gson) (hJ : J.ReadsInts)
    (exported : List Profile)
    (hc : ∀ p ∈ exported, Complete p ∧ PluginPrintable defaultConfig p.plugin)
    (hd : AddressesDiffer exported) (profileId : Int) (table : ProfileTable) :
    ∃ json t, serializeToJson defaultConfig exported = .ok json ∧
      createProfilesFromJson g numeral J true profileId table [.ok json] = (t, []) ∧
      if exported = [] then t = table
      else List.Forall₂ (Restores defaultConfig numeral (byAddress numeral table.rows) exported
        t.rows) exported t.rows := by
  let old := byAddress numeral table.rows
  let feature := singleOrNull (old.values.filter fun it ↦ it.id = profileId)
  have hread : ∀ p ∈ exported, ∃ x : List (String × Json) × (Profile × Option Profile),
      toJson defaultConfig (profileLookup exported) p = .ok x.1 ∧
        tryParse J feature x.1 = .ok (some x.2) ∧
        ReadFrom defaultConfig feature exported p x.2 := fun p hp ↦ exists_read hJ hc hp
  obtain ⟨xs, hxs⟩ := Lines.exists_forall₂ hread
  have hobjects : exported.mapM (toJson defaultConfig (profileLookup exported)) =
      .ok (xs.map Prod.fst) :=
    Lines.mapM_eq_ok_iff.mpr (List.forall₂_map_right_iff.mpr (hxs.imp fun _ _ hx ↦ hx.1))
  have hreads : List.Forall₂ (ReadFrom defaultConfig feature exported) exported
      (xs.map Prod.snd) := List.forall₂_map_right_iff.mpr (hxs.imp fun _ _ hx ↦ hx.2.2)
  have hparse : List.Forall₂ (fun fields read ↦ tryParse J feature fields = .ok (some read))
      (xs.map Prod.fst) (xs.map Prod.snd) := by
    rw [List.forall₂_map_left_iff, List.forall₂_map_right_iff, List.forall₂_same]
    intro x hx
    obtain ⟨p, -, -, hp, -⟩ := Lines.exists_left hxs hx
    exact hp
  have hprocess : process J feature {} (.array ((xs.map Prod.fst).map .object)) =
      .ok ((xs.map Prod.snd).foldl JsonParser.add {}) := by
    rw [process]
    exact processItems_objects hparse {}
  have hjson : serializeToJson defaultConfig exported =
      .ok (.array ((xs.map Prod.fst).map .object)) := by
    rw [serializeToJson, hobjects]
    rfl
  by_cases he : exported = []
  · subst he
    cases hxs
    refine ⟨_, table, hjson, rfl, ?_⟩
    rw [if_pos rfl]
  · let s : Importing Bool := ⟨table, fun _ ↦ {}, false⟩
    obtain ⟨hnone, hrows⟩ := restores_parseJson (g := g) (s := s) hreads hd he hprocess rfl
    refine ⟨_, _, hjson, Prod.ext rfl ?_, ?_⟩
    · exact congrArg Option.toList hnone
    · rw [if_neg he]
      exact hrows

end RoundTrip

/-- Decimal numerals, read as Java does. -/
def decimalGson : Gson where
  intValue literal := (Numeral.parseInt literal.toList).map Int32.ofInt

private theorem readsInts_decimalGson : decimalGson.ReadsInts := by
  intro n
  simp only [decimalGson, Numeral.parseInt_toString n.le_toInt n.toInt_lt, Option.map_some,
    Int32.ofInt_toInt]

/-- A profile with a plugin, and its fallback. -/
def twoProfiles : List Profile :=
  [{ id := 1, host := "203.0.113.7", remotePort := 443, password := "x", method := "aes-256-gcm",
     plugin := some (PluginOptions.toString { id := "a" } false), udpFallback := some 2 },
    { id := 2, host := "203.0.113.8", remotePort := 8388, password := "y",
      method := "aes-256-gcm" }]

private theorem printable_twoProfiles : ∀ p ∈ twoProfiles,
    Complete p ∧ PluginPrintable (fun _ ↦ none) p.plugin := by
  have he : PluginOptions.EntriesPrintable { id := "a" } := fun e he ↦ (nomatch he)
  have hk : PluginConfiguration.kcptunStart.isPrefixOf "a".toList = false := by decide
  obtain ⟨o, ho, hs⟩ := selectedOptions_toString (fun _ ↦ none) (r := { id := "a" }) (by decide)
    (by simp [PluginOptions.NoControl, PluginOptions.isISOControl]) he hk
  intro p hp
  rcases List.mem_pair.mp hp with rfl | rfl
  · refine ⟨by decide, o, ho, fun _ ↦ ⟨entriesPrintable_of_same hs he, ?_⟩⟩
    rw [hs.1]
    exact hk
  · exact ⟨by decide, {}, selectedOptions_of_empty rfl, fun hne ↦ absurd rfl hne⟩

theorem import_restores_two_profiles :
    ∃ json t, serializeToJson (fun _ ↦ none) twoProfiles = .ok json ∧
      createProfilesFromJson (AutoKey.succMax Profile.id) (fun n ↦ toString n.toInt) decimalGson
        true 1 RowTable.empty [.ok json] = (t, []) ∧
      if twoProfiles = [] then t = RowTable.empty
      else List.Forall₂ (Restores (fun _ ↦ none) (fun n ↦ toString n.toInt)
        (byAddress (fun n ↦ toString n.toInt) []) twoProfiles t.rows) twoProfiles t.rows :=
  import_restores_export _ _ _ _ readsInts_decimalGson _ printable_twoProfiles (by decide) 1 _

end FastSearch.Database
