import FastSearch.Lib.Lines
import FastSearch.Lib.LinkedMap
import FastSearch.Plugin.Commandline
import FastSearch.Plugin.PluginOptions

/-!
# Plugin configurations

`plugin/PluginConfiguration.kt`: the options of several plugins, one line for each, of which the
first is the selected one. A line of the old plugin kcptun is a command line. The default options
of a plugin come from the installed packages; here they are a parameter.
-/

namespace FastSearch.Plugin

/-- `PluginConfiguration`, `plugin/PluginConfiguration.kt:27`. -/
structure PluginConfiguration where
  pluginsOptions : LinkedMap String PluginOptions := ∅
  selected : String := ""

namespace PluginConfiguration

/-- The private constructor, `plugin/PluginConfiguration.kt:28`. -/
def ofPlugins (plugins : List PluginOptions) : PluginConfiguration where
  pluginsOptions := (plugins.filter fun o ↦ o.id ≠ "").foldl (fun m o ↦ m.put o.id o) ∅
  selected :=
    match plugins with
    | [] => ""
    | o :: _ => o.id

/-- The loop over the words of a kcptun line; what it throws is caught, and ends it. -/
def kcptunOptions (opt : PluginOptions) : List String → PluginOptions
  | [] => opt
  | option :: iterator =>
    if option = "--nocomp" then kcptunOptions (opt.put "nocomp" none) iterator
    else if ['-', '-'].isPrefixOf option.toList then
      match iterator with
      | [] => opt
      | value :: iterator =>
        kcptunOptions (opt.put (String.ofList (option.toList.drop 2)) (some value)) iterator
    else opt

/-- The start of a kcptun line. -/
def kcptunStart : List Char := "kcptun ".toList

/-- One line, `plugin/PluginConfiguration.kt:32`. -/
def ofLine (line : String) : Except String PluginOptions :=
  if kcptunStart.isPrefixOf line.toList then
    match Commandline.translateCommandline (some line) with
    | .error _ => .ok { id := "kcptun" }
    | .ok words => .ok (kcptunOptions { id := "kcptun" } (words.drop 1))
  else PluginOptions.ofText (some line)

/-- The constructor from a text, `plugin/PluginConfiguration.kt:31`. -/
def ofText (plugin : String) : Except String PluginConfiguration :=
  ((plugin.toList.splitOn '\n').mapM fun line ↦ ofLine (String.ofList line)).map ofPlugins

section Default

variable (defaultConfig : String → Option String)

/-- `getOptions`, `plugin/PluginConfiguration.kt:52`. -/
def getOptions (c : PluginConfiguration) (id : String) : Except String PluginOptions :=
  if id = "" then .ok {}
  else
    match c.pluginsOptions.get? id with
    | some o => .ok o
    | none => PluginOptions.ofIdAndText id (defaultConfig id)

/-- The list that `toString` builds from the map: the selected options first. -/
def selectedFirst (c : PluginConfiguration) : List PluginOptions :=
  c.pluginsOptions.entries.foldl
    (fun result e ↦ if e.1 = c.selected then e.2 :: result else result ++ [e.2]) []

/-- `toString`, `plugin/PluginConfiguration.kt:57`. -/
def toString (c : PluginConfiguration) : Except String String := do
  let mut result := c.selectedFirst
  if c.pluginsOptions.get? c.selected = none then
    result := (← c.getOptions defaultConfig c.selected) :: result
  return String.ofList (['\n'].intercalate (result.map fun o ↦ (o.toString false).toList))

end Default

/-- The configurations select the same plugin and have the same options for every plugin. -/
def Same (c c' : PluginConfiguration) : Prop :=
  c.selected = c'.selected ∧
    ∀ id, Option.Rel PluginOptions.Same (c.pluginsOptions.get? id) (c'.pluginsOptions.get? id)

/-- The configurations differ at most in the order of the entries of their options, which are hash
maps. -/
def Reordered (c c' : PluginConfiguration) : Prop :=
  c.selected = c'.selected ∧
    List.Forall₂ (fun e e' ↦ e.1 = e'.1 ∧ e.2.Same e'.2) c.pluginsOptions.entries
      c'.pluginsOptions.entries

/-- Every plugin's options can be printed as a line that is read as them: their entries are
printable, and the identifier does not start as a kcptun line does. -/
def Printable (c : PluginConfiguration) : Prop :=
  ∀ id o, c.pluginsOptions.get? id = some o →
    o.EntriesPrintable ∧ kcptunStart.isPrefixOf id.toList = false

/-! ### The map of a list of options -/

private theorem mem_of_get?_put {plugins : List PluginOptions}
    {m : LinkedMap String PluginOptions} {id : String} {o : PluginOptions}
    (h : (plugins.foldl (fun m o ↦ m.put o.id o) m).get? id = some o) :
    (o ∈ plugins ∧ o.id = id) ∨ m.get? id = some o := by
  induction plugins generalizing m with
  | nil => exact Or.inr h
  | cons q plugins ih =>
    rcases ih h with ⟨hm, hi⟩ | h
    · exact Or.inl ⟨List.mem_cons_of_mem _ hm, hi⟩
    · by_cases hk : id = q.id
      · subst hk
        rw [LinkedMap.get?_put_self] at h
        cases h
        exact Or.inl ⟨List.mem_cons_self, rfl⟩
      · rw [LinkedMap.get?_put_ne _ _ hk] at h
        exact Or.inr h

private theorem get?_put_isSome {plugins : List PluginOptions}
    {m : LinkedMap String PluginOptions} {id : String}
    (h : (∃ o ∈ plugins, o.id = id) ∨ (m.get? id).isSome = true) :
    ((plugins.foldl (fun m o ↦ m.put o.id o) m).get? id).isSome = true := by
  induction plugins generalizing m with
  | nil =>
    rcases h with ⟨o, hm, _⟩ | h
    · cases hm
    · exact h
  | cons q plugins ih =>
    apply ih
    by_cases hk : id = q.id
    · subst hk
      rw [LinkedMap.get?_put_self]
      exact Or.inr rfl
    · rw [LinkedMap.get?_put_ne _ _ hk]
      refine h.imp_left ?_
      rintro ⟨o, hm, hi⟩
      rcases List.mem_cons.mp hm with rfl | hm
      · exact absurd hi.symm hk
      · exact ⟨o, hm, hi⟩

/-- What is found in the configuration of a list is in the list. -/
theorem mem_of_get?_ofPlugins {plugins : List PluginOptions} {id : String} {o : PluginOptions}
    (h : (ofPlugins plugins).pluginsOptions.get? id = some o) :
    o ∈ plugins ∧ o.id = id ∧ id ≠ "" := by
  rcases mem_of_get?_put h with ⟨hm, rfl⟩ | h
  · have hf := List.mem_filter.mp hm
    exact ⟨hf.1, rfl, by simpa using hf.2⟩
  · cases h

/-- Every options of the list with an identifier are found under it, or others with it. -/
theorem get?_ofPlugins_isSome {plugins : List PluginOptions} {o : PluginOptions}
    (h : o ∈ plugins) (hid : o.id ≠ "") :
    ((ofPlugins plugins).pluginsOptions.get? o.id).isSome = true := by
  apply get?_put_isSome
  exact Or.inl ⟨o, List.mem_filter.mpr ⟨h, by simpa using hid⟩, rfl⟩

/-! ### What a text can configure -/

/-- What holds of every configuration that was read from a text. -/
structure Built (c : PluginConfiguration) : Prop where
  id_eq : ∀ id o, c.pluginsOptions.get? id = some o → o.id = id
  id_ne : ∀ id o, c.pluginsOptions.get? id = some o → id ≠ ""
  selected : c.selected ≠ "" → ∃ o, c.pluginsOptions.get? c.selected = some o
  newline : ∀ id o, c.pluginsOptions.get? id = some o → o.Has (· ≠ '\n')
  control : ∀ id o, c.pluginsOptions.get? id = some o → PluginOptions.NoControl id

private theorem has_kcptunOptions {words : List String}
    (hw : ∀ word ∈ words, ∀ c ∈ word.toList, c ≠ '\n') {opt : PluginOptions}
    (h : opt.Has (· ≠ '\n')) : (kcptunOptions opt words).Has (· ≠ '\n') := by
  fun_induction kcptunOptions opt words with
  | case1 => exact h
  | case2 opt iterator ih =>
    rw [List.forall_mem_cons] at hw
    apply ih hw.2
    exact h.put (by simp) (fun v hv ↦ (nomatch hv)) (by decide)
  | case3 => exact h
  | case4 opt option h1 h2 value iterator ih =>
    rw [List.forall_mem_cons, List.forall_mem_cons] at hw
    apply ih hw.2.2
    apply h.put
    · intro c hc
      rw [String.toList_ofList] at hc
      exact hw.1 c (List.mem_of_mem_drop hc)
    · intro v hv
      cases hv
      exact hw.2.1
    · simp
  | case5 => exact h

private theorem id_kcptunOptions (opt : PluginOptions) (words : List String) :
    (kcptunOptions opt words).id = opt.id := by
  fun_induction kcptunOptions opt words with
  | case1 => rfl
  | case2 opt iterator ih => exact ih
  | case3 => rfl
  | case4 opt option h1 h2 value iterator ih => exact ih
  | case5 => rfl

/-- The options of a line have no line break, and their identifier no control character. -/
private theorem has_of_ofLine {line : String} {o : PluginOptions} (h : ofLine line = .ok o)
    (hn : ∀ c ∈ line.toList, c ≠ '\n') :
    o.Has (· ≠ '\n') ∧ PluginOptions.NoControl o.id := by
  have hk : PluginOptions.Has (· ≠ '\n') { id := "kcptun" } :=
    ⟨by simp, fun e he ↦ (nomatch he), fun e he ↦ (nomatch he), fun e he ↦ (nomatch he)⟩
  have hc : PluginOptions.NoControl "kcptun" := by
    simp [PluginOptions.NoControl, PluginOptions.isISOControl]
  unfold ofLine at h
  split at h
  · split at h
    · cases h
      exact ⟨hk, hc⟩
    · next words hw =>
      cases h
      refine ⟨has_kcptunOptions ?_ hk, ?_⟩
      · intro word hm
        exact Commandline.forall_mem_of_translateCommandline (by decide) hw hn word
          (List.mem_of_mem_drop hm)
      · rw [id_kcptunOptions]
        exact hc
  · refine ⟨PluginOptions.has_of_ofText h (by decide) hn, ?_⟩
    have hctl := PluginOptions.noControl_of_ofText h
    exact (PluginOptions.has_of_ofText h (by decide) hctl).id

/-- A text is read by reading its lines. -/
private theorem ofText_eq_ok {text : String} {c : PluginConfiguration} :
    ofText text = .ok c ↔ ∃ plugins,
      List.Forall₂ (fun line o ↦ ofLine (String.ofList line) = .ok o)
        (text.toList.splitOn '\n') plugins ∧ c = ofPlugins plugins := by
  rw [ofText]
  constructor
  · intro h
    cases hm : (text.toList.splitOn '\n').mapM fun line ↦ ofLine (String.ofList line) with
    | error e =>
      rw [hm] at h
      cases h
    | ok plugins =>
      rw [hm] at h
      exact ⟨plugins, Lines.mapM_eq_ok_iff.mp hm, (Except.ok.inj h).symm⟩
  · rintro ⟨plugins, hp, rfl⟩
    rw [Lines.mapM_eq_ok_iff.mpr hp]
    rfl

theorem built_of_ofText {text : String} {c : PluginConfiguration} (h : ofText text = .ok c) :
    c.Built := by
  obtain ⟨plugins, hp, rfl⟩ := ofText_eq_ok.mp h
  have hline : ∀ o ∈ plugins, o.Has (· ≠ '\n') ∧ PluginOptions.NoControl o.id := by
    intro o ho
    obtain ⟨line, hl, hr⟩ := Lines.exists_left hp ho
    apply has_of_ofLine hr
    intro c hc
    rintro rfl
    rw [String.toList_ofList] at hc
    exact Lines.not_mem_of_mem_splitOn hl hc
  constructor
  · intro id o hl
    exact (mem_of_get?_ofPlugins hl).2.1
  · intro id o hl
    exact (mem_of_get?_ofPlugins hl).2.2
  · intro hne
    cases plugins with
    | nil => exact absurd rfl hne
    | cons o plugins =>
      exact Option.isSome_iff_exists.mp (get?_ofPlugins_isSome List.mem_cons_self hne)
  · intro id o hl
    exact (hline o (mem_of_get?_ofPlugins hl).1).1
  · intro id o hl
    obtain ⟨hm, rfl, _⟩ := mem_of_get?_ofPlugins hl
    exact (hline o hm).2

/-- The options of a plugin are the same in whatever order. -/
private theorem Reordered.get? {c c' : PluginConfiguration} (h : c.Reordered c') {id : String}
    {o : PluginOptions} (ho : c.pluginsOptions.get? id = some o) :
    ∃ o', c'.pluginsOptions.get? id = some o' ∧ o.Same o' := by
  obtain ⟨e', he', hid, hs⟩ := Lines.exists_right h.2 (LinkedMap.get?_eq_some_iff.mp ho)
  have hid : id = e'.1 := hid
  rw [hid]
  exact ⟨e'.2, LinkedMap.get?_eq_some_iff.mpr he', hs⟩

private theorem Reordered.keys {c c' : PluginConfiguration} (h : c.Reordered c') :
    c.pluginsOptions.entries.map Prod.fst = c'.pluginsOptions.entries.map Prod.fst := by
  have hk : List.Forall₂ (fun k k' ↦ k = k') (c.pluginsOptions.entries.map Prod.fst)
      (c'.pluginsOptions.entries.map Prod.fst) := by
    rw [List.forall₂_map_left_iff, List.forall₂_map_right_iff]
    exact h.2.imp fun _ _ he ↦ he.1
  exact List.forall₂_eq_eq_eq ▸ hk

private theorem Built.reordered {c c' : PluginConfiguration} (hb : c'.Built) (h : c.Reordered c') :
    c.Built := by
  constructor
  · intro id o ho
    obtain ⟨o', ho', hs⟩ := h.get? ho
    exact hs.1.trans (hb.id_eq id o' ho')
  · intro id o ho
    obtain ⟨o', ho', -⟩ := h.get? ho
    exact hb.id_ne id o' ho'
  · intro hne
    obtain ⟨o', ho'⟩ := hb.selected (h.1 ▸ hne)
    rw [← Option.isSome_iff_exists, Option.isSome_iff_ne_none, ne_eq, LinkedMap.get?_eq_none_iff,
      h.keys, h.1, ← LinkedMap.get?_eq_none_iff, ho']
    exact Option.some_ne_none o'
  · intro id o ho
    obtain ⟨o', ho', hs⟩ := h.get? ho
    exact (hb.newline id o' ho').of_same hs
  · intro id o ho
    obtain ⟨o', ho', -⟩ := h.get? ho
    exact hb.control id o' ho'

/-! ### What is printed -/

/-- The options that `toString` prints: the selected ones first, then those of the other plugins,
each once. Without a selected plugin, empty options come first. -/
structure Prints (c : PluginConfiguration) (l : List PluginOptions) : Prop where
  head : ∃ o rest, l = o :: rest ∧ o.id = c.selected
  mem : ∀ o, (o ∈ l ∧ o.id ≠ "") ↔ c.pluginsOptions.get? o.id = some o
  nodup : (l.map PluginOptions.id).Nodup
  empty : ∀ o ∈ l, o.id = "" → o = {}

private theorem foldl_others (selected : String) (es : List (String × PluginOptions))
    (h : ∀ e ∈ es, e.1 ≠ selected) (result : List PluginOptions) :
    es.foldl (fun result e ↦ if e.1 = selected then e.2 :: result else result ++ [e.2]) result =
      result ++ es.map (·.2) := by
  induction es generalizing result with
  | nil => simp
  | cons e es ih =>
    rw [List.forall_mem_cons] at h
    rw [List.foldl_cons, if_neg h.1, ih h.2]
    simp

private theorem selectedFirst_of_get? {c : PluginConfiguration} {o : PluginOptions}
    (h : c.pluginsOptions.get? c.selected = some o) :
    ∃ l₁ l₂, c.pluginsOptions.entries = l₁ ++ (c.selected, o) :: l₂ ∧
      c.selectedFirst = o :: (l₁.map (·.2) ++ l₂.map (·.2)) := by
  obtain ⟨l₁, l₂, hl⟩ := List.append_of_mem (LinkedMap.get?_eq_some_iff.mp h)
  have hn := c.pluginsOptions.nodup
  rw [hl, List.map_append, List.map_cons] at hn
  have h₁ : ∀ e ∈ l₁, e.1 ≠ c.selected := by
    intro e he hc
    exact (List.nodup_append.mp hn).2.2 e.1 (List.mem_map_of_mem he) c.selected
      List.mem_cons_self hc
  have h₂ : ∀ e ∈ l₂, e.1 ≠ c.selected := by
    intro e he hc
    have hnot := (List.nodup_cons.mp (List.nodup_append.mp hn).2.1).1
    exact hnot (List.mem_map.mpr ⟨e, he, hc⟩)
  refine ⟨l₁, l₂, hl, ?_⟩
  rw [selectedFirst, hl, List.foldl_append, foldl_others _ _ h₁, List.foldl_cons, if_pos rfl,
    foldl_others _ _ h₂]
  rfl

private theorem id_eq_of_mem {c : PluginConfiguration} (hb : c.Built)
    {e : String × PluginOptions} (he : e ∈ c.pluginsOptions.entries) :
    c.pluginsOptions.get? e.1 = some e.2 ∧ e.2.id = e.1 := by
  have hl : c.pluginsOptions.get? e.1 = some e.2 := LinkedMap.get?_eq_some_iff.mpr he
  exact ⟨hl, hb.id_eq _ _ hl⟩

private theorem mem_options_iff {c : PluginConfiguration} (hb : c.Built) (o : PluginOptions) :
    o ∈ c.pluginsOptions.entries.map (·.2) ↔ c.pluginsOptions.get? o.id = some o := by
  rw [List.mem_map]
  constructor
  · rintro ⟨e, he, rfl⟩
    obtain ⟨hl, hi⟩ := id_eq_of_mem hb he
    rw [hi]
    exact hl
  · intro h
    exact ⟨(o.id, o), LinkedMap.get?_eq_some_iff.mp h, rfl⟩

private theorem map_id_entries {c : PluginConfiguration} (hb : c.Built) :
    (c.pluginsOptions.entries.map (·.2)).map PluginOptions.id =
      c.pluginsOptions.entries.map Prod.fst := by
  rw [List.map_map]
  apply List.map_congr_left
  intro e he
  exact (id_eq_of_mem hb he).2

/-- A configuration read from a text is printed line by line. -/
private theorem exists_prints (defaultConfig : String → Option String) {c : PluginConfiguration}
    (hb : c.Built) : ∃ l, c.Prints l ∧ c.toString defaultConfig =
      .ok (String.ofList (['\n'].intercalate (l.map fun o ↦ (o.toString false).toList))) := by
  have hids := map_id_entries hb
  by_cases hs : c.selected = ""
  · -- no plugin has the empty identifier
    have hnot : c.pluginsOptions.get? c.selected = none := by
      rw [Option.eq_none_iff_forall_ne_some]
      intro o ho
      exact hb.id_ne _ _ ho hs
    have hfirst : c.selectedFirst = c.pluginsOptions.entries.map (·.2) := by
      rw [selectedFirst, foldl_others _ _ _ [], List.nil_append]
      intro e he
      rw [hs]
      exact hb.id_ne _ _ (id_eq_of_mem hb he).1
    refine ⟨{} :: c.pluginsOptions.entries.map (·.2), ⟨⟨{}, _, rfl, hs.symm⟩, ?_, ?_, ?_⟩, ?_⟩
    · intro o
      rw [List.mem_cons, ← mem_options_iff hb]
      constructor
      · rintro ⟨rfl | hm, hne⟩
        · exact absurd rfl hne
        · exact hm
      · intro hm
        exact ⟨Or.inr hm, hb.id_ne _ _ ((mem_options_iff hb o).mp hm)⟩
    · rw [List.map_cons, hids, List.nodup_cons]
      exact ⟨hs ▸ LinkedMap.get?_eq_none_iff.mp hnot, c.pluginsOptions.nodup⟩
    · intro o ho hid
      rcases List.mem_cons.mp ho with rfl | ho
      · rfl
      · exact absurd hid (hb.id_ne _ _ ((mem_options_iff hb o).mp ho))
    · rw [toString, if_pos hnot, getOptions, if_pos hs, hfirst]
      rfl
  · obtain ⟨o, ho⟩ := hb.selected hs
    obtain ⟨l₁, l₂, hl, hfirst⟩ := selectedFirst_of_get? ho
    have hin : ¬ c.pluginsOptions.get? c.selected = none := by
      rw [ho]
      exact Option.some_ne_none o
    have hperm : c.selectedFirst.Perm (c.pluginsOptions.entries.map (·.2)) := by
      rw [hfirst, hl, List.map_append, List.map_cons]
      exact List.perm_middle.symm
    refine ⟨c.selectedFirst, ⟨⟨o, _, hfirst, hb.id_eq _ _ ho⟩, ?_, ?_, ?_⟩, ?_⟩
    · intro q
      rw [hperm.mem_iff, mem_options_iff hb, and_iff_left_iff_imp]
      intro hq
      exact hb.id_ne _ _ hq
    · rw [(hperm.map _).nodup_iff, hids]
      exact c.pluginsOptions.nodup
    · intro q hq hid
      rw [hperm.mem_iff, mem_options_iff hb] at hq
      exact absurd hid (hb.id_ne _ _ hq)
    · rw [toString, if_neg hin]
      rfl

/-! ### Reading what was printed -/

/-- The line of some options starts as a kcptun line does exactly if their identifier does. -/
private theorem isPrefixOf_toString (o : PluginOptions) :
    kcptunStart.isPrefixOf (o.toString false).toList = kcptunStart.isPrefixOf o.id.toList := by
  obtain ⟨tail, ht, hsemi⟩ := o.toString_eq_append
  rw [ht]
  apply Tokens.isPrefixOf_escape
  · rfl
  · have hk : kcptunStart = ['k', 'c', 'p', 't', 'u', 'n', ' '] := by decide
    rw [hk]
    simp [PluginOptions.isDelim]
  · intro c hc
    rw [hsemi c hc]
    rfl

/-- The line of some options is read as options with their identifier, or as kcptun's. -/
private theorem id_of_ofLine_toString {o r : PluginOptions} (hid : o.id ≠ "")
    (h : ofLine (o.toString false) = .ok r) :
    (kcptunStart.isPrefixOf o.id.toList = false ∧
        PluginOptions.ofText (some (o.toString false)) = .ok r ∧ r.id = o.id) ∨
      (kcptunStart.isPrefixOf o.id.toList = true ∧ r.id = "kcptun") := by
  unfold ofLine at h
  rw [isPrefixOf_toString] at h
  cases hk : kcptunStart.isPrefixOf o.id.toList with
  | false =>
    rw [if_neg (by rw [hk]; exact Bool.false_ne_true)] at h
    exact Or.inl ⟨rfl, h, PluginOptions.id_of_reads_back hid h⟩
  | true =>
    rw [if_pos hk] at h
    refine Or.inr ⟨rfl, ?_⟩
    split at h
    · cases h
      rfl
    · cases h
      exact id_kcptunOptions _ _

/-- The line of printable options is read as them. -/
theorem ofLine_toString {o : PluginOptions} (hid : o.id ≠ "") (hc : PluginOptions.NoControl o.id)
    (he : o.EntriesPrintable) (hk : kcptunStart.isPrefixOf o.id.toList = false) :
    ∃ r, ofLine (o.toString false) = .ok r ∧ r.Same o := by
  obtain ⟨r, hr, hs⟩ := o.ofText_toString_iff.mpr ⟨fun h ↦ absurd h hid, hc, he⟩
  refine ⟨r, ?_, hs⟩
  rw [ofLine, isPrefixOf_toString, hk, if_neg Bool.false_ne_true]
  exact hr

/-- Reading the printed lines gives options line by line. -/
private theorem ofText_intercalate {c : PluginConfiguration} (hb : c.Built)
    {l : List PluginOptions} (hp : c.Prints l) {c' : PluginConfiguration} :
    ofText (String.ofList (['\n'].intercalate (l.map fun o ↦ (o.toString false).toList))) =
        .ok c' ↔
      ∃ plugins, List.Forall₂ (fun o r ↦ ofLine (o.toString false) = .ok r) l plugins ∧
        c' = ofPlugins plugins := by
  have hn : ∀ line ∈ l.map fun o ↦ (o.toString false).toList, '\n' ∉ line := by
    intro line hl
    obtain ⟨o, ho, rfl⟩ := List.mem_map.mp hl
    have hhas : o.Has (· ≠ '\n') := by
      by_cases hid : o.id = ""
      · rw [hp.empty o ho hid]
        exact PluginOptions.has_empty
      · exact hb.newline _ _ ((hp.mem o).mp ⟨ho, hid⟩)
    intro hm
    exact hhas.toString (by decide) (by decide) (by decide) '\n' hm rfl
  have hne : (l.map fun o ↦ (o.toString false).toList) ≠ [] := by
    obtain ⟨o, rest, rfl, _⟩ := hp.head
    simp
  rw [ofText_eq_ok, String.toList_ofList, List.splitOn_intercalate '\n' hn hne]
  simp only [List.forall₂_map_left_iff, String.ofList_toList]

/-- With every line read as the options it was printed from, the configuration comes back. -/
private theorem same_ofPlugins {c : PluginConfiguration} (hb : c.Built)
    {l plugins : List PluginOptions} (hp : c.Prints l)
    (h : List.Forall₂ (fun o r ↦ r.Same o) l plugins) : (ofPlugins plugins).Same c := by
  constructor
  · obtain ⟨o, rest, rfl, hid⟩ := hp.head
    obtain ⟨r, _, hr, _, rfl⟩ := List.forall₂_cons_left_iff.mp h
    exact hr.1.trans hid
  · intro id
    cases hl : (ofPlugins plugins).pluginsOptions.get? id with
    | some r =>
      obtain ⟨hm, rfl, hne⟩ := mem_of_get?_ofPlugins hl
      obtain ⟨o, ho, hs⟩ := Lines.exists_left h hm
      have hlo := (hp.mem o).mp ⟨ho, hs.1 ▸ hne⟩
      rw [hs.1, hlo]
      exact Option.Rel.some hs
    | none =>
      cases hlc : c.pluginsOptions.get? id with
      | none => exact Option.Rel.none
      | some o =>
        have hid := hb.id_eq _ _ hlc
        subst hid
        obtain ⟨ho, hne⟩ := (hp.mem o).mpr hlc
        obtain ⟨r, hr, hs⟩ := Lines.exists_right h ho
        have hsome := get?_ofPlugins_isSome hr (hs.1.symm ▸ hne)
        rw [hs.1, hl] at hsome
        cases hsome

private theorem ofLine_empty : ofLine (PluginOptions.toString {} false) = .ok {} := rfl

/-- A text without line breaks configures what its line says. -/
theorem ofText_of_ofLine {text : String} {r : PluginOptions} (h : ofLine text = .ok r)
    (hn : '\n' ∉ text.toList) : ofText text = .ok (ofPlugins [r]) := by
  rw [ofText_eq_ok]
  refine ⟨[r], ?_, rfl⟩
  rw [List.splitOn_eq_singleton hn]
  exact List.Forall₂.cons (by rw [String.ofList_toList]; exact h) List.Forall₂.nil

/-- What is found in the configuration read back was read from a line. -/
private theorem exists_line {c : PluginConfiguration} {l plugins : List PluginOptions}
    (hp : c.Prints l) (h : List.Forall₂ (fun o r ↦ ofLine (o.toString false) = .ok r) l plugins)
    {id : String} {r : PluginOptions}
    (hr : (ofPlugins plugins).pluginsOptions.get? id = some r) :
    ∃ o, c.pluginsOptions.get? o.id = some o ∧
      ((kcptunStart.isPrefixOf o.id.toList = false ∧
          PluginOptions.ofText (some (o.toString false)) = .ok r ∧ id = o.id) ∨
        (kcptunStart.isPrefixOf o.id.toList = true ∧ id = "kcptun")) := by
  obtain ⟨hm, rfl, hne⟩ := mem_of_get?_ofPlugins hr
  obtain ⟨o, ho, hl⟩ := Lines.exists_left h hm
  have hid : o.id ≠ "" := by
    intro hid
    rw [hp.empty o ho hid, ofLine_empty] at hl
    cases hl
    exact hne rfl
  exact ⟨o, (hp.mem o).mp ⟨ho, hid⟩, id_of_ofLine_toString hid hl⟩

/-- If the configuration comes back, every plugin's line was read as its options. -/
private theorem printable_of_same {c : PluginConfiguration}
    {l plugins : List PluginOptions} (hp : c.Prints l)
    (h : List.Forall₂ (fun o r ↦ ofLine (o.toString false) = .ok r) l plugins)
    (hs : (ofPlugins plugins).Same c) : c.Printable := by
  have hfound : ∀ id o, c.pluginsOptions.get? id = some o →
      ∃ r, (ofPlugins plugins).pluginsOptions.get? id = some r ∧ r.Same o := by
    intro id o ho
    have hrel := hs.2 id
    rw [ho] at hrel
    cases hr : (ofPlugins plugins).pluginsOptions.get? id with
    | none =>
      rw [hr] at hrel
      cases hrel
    | some r =>
      rw [hr] at hrel
      cases hrel with
      | some hrel => exact ⟨r, rfl, hrel⟩
  -- an identifier that starts as a kcptun line does would not come back
  have hstart : ∀ id o, c.pluginsOptions.get? id = some o →
      kcptunStart.isPrefixOf id.toList = false := by
    intro id o ho
    obtain ⟨r, hr, _⟩ := hfound id o ho
    obtain ⟨q, _, ⟨hk, _, rfl⟩ | ⟨_, rfl⟩⟩ := exists_line hp h hr
    · exact hk
    · decide
  intro id o ho
  refine ⟨?_, hstart id o ho⟩
  obtain ⟨r, hr, hro⟩ := hfound id o ho
  obtain ⟨q, hq, ⟨_, ht, rfl⟩ | ⟨hk, _⟩⟩ := exists_line hp h hr
  · have hqo : q = o := Option.some.inj (hq.symm.trans ho)
    rw [← hqo] at hro ⊢
    exact (q.ofText_toString_iff.mp ⟨r, ht, hro⟩).2.2
  · rw [hstart _ q hq] at hk
    cases hk

/-- A configuration read from a text, printed and read again is the same configuration exactly
when its lines are printable: a kcptun line may hide control characters, and an escape at the
start of a line may hide that it would be a kcptun line. The hash maps may visit their entries in
any order. -/
theorem reads_back_of_ofText_iff (defaultConfig : String → Option String) (text : String)
    (c₀ c : PluginConfiguration) (h : ofText text = .ok c₀) (ho : c.Reordered c₀) :
    (∃ text' c', c.toString defaultConfig = .ok text' ∧ ofText text' = .ok c' ∧ c'.Same c) ↔
      c.Printable := by
  have hb := (built_of_ofText h).reordered ho
  obtain ⟨l, hp, ht⟩ := exists_prints defaultConfig hb
  constructor
  · rintro ⟨text', c', ht', hc', hs⟩
    rw [ht] at ht'
    cases ht'
    obtain ⟨plugins, hl, rfl⟩ := (ofText_intercalate hb hp).mp hc'
    exact printable_of_same hp hl hs
  · intro hprint
    have hline : ∀ o ∈ l, ∃ r, ofLine (o.toString false) = .ok r ∧ r.Same o := by
      intro o ho
      by_cases hid : o.id = ""
      · rw [hp.empty o ho hid]
        exact ⟨{}, ofLine_empty, rfl, fun _ ↦ rfl⟩
      · have hlo := (hp.mem o).mp ⟨ho, hid⟩
        obtain ⟨he, hk⟩ := hprint _ _ hlo
        exact ofLine_toString hid (hb.control _ _ hlo) he hk
    obtain ⟨plugins, hall⟩ := Lines.exists_forall₂ hline
    refine ⟨_, ofPlugins plugins, ht, (ofText_intercalate hb hp).mpr ⟨plugins, ?_, rfl⟩, ?_⟩
    · exact hall.imp fun _ _ hr ↦ hr.1
    · exact same_ofPlugins hb hp (hall.imp fun _ _ hr ↦ hr.2)

private def twoPlugins (o : PluginOptions) : PluginConfiguration := ofPlugins [o, { id := "f" }]

private theorem ofText_two_lines : ofText "a;b=c;d\nf" =
    .ok (twoPlugins (PluginOptions.put (PluginOptions.put { id := "a" } "b" (some "c")) "d"
      none)) := by
  have hs : ['a', ';', 'b', '=', 'c', ';', 'd', '\n', 'f'].splitOn '\n' =
      [['a', ';', 'b', '=', 'c', ';', 'd'], ['f']] := by decide
  have hk : ¬ kcptunStart <+: ['a', ';', 'b', '=', 'c', ';', 'd'] := by decide
  have hf : ¬ kcptunStart <+: ['f'] := by decide
  have ht : Tokens.tokens PluginOptions.isDelim ['a', ';', 'b', '=', 'c', ';', 'd', ';'] =
      [['a'], [';'], ['b'], ['='], ['c'], [';'], ['d'], [';']] := by decide
  have hu : Tokens.tokens PluginOptions.isDelim ['f', ';'] = [['f'], [';']] := by decide
  simp [ofText, ofLine, hs, hk, hf, ht, hu, PluginOptions.ofText, PluginOptions.parse,
    PluginOptions.isISOControl, PluginOptions.Parse.loop, PluginOptions.Parse.append,
    PluginOptions.Parse.semicolon, PluginOptions.Parse.equals, Except.map, twoPlugins]
  rfl

private theorem entries_twoPlugins {o : PluginOptions} (h : o.id = "a") :
    (twoPlugins o).pluginsOptions.entries = [("a", o), ("f", { id := "f" })] := by
  simp [twoPlugins, ofPlugins, h, LinkedMap.put, EmptyCollection.emptyCollection]

private theorem reordered_two_options : Reordered
    (twoPlugins (PluginOptions.put (PluginOptions.put { id := "a" } "d" none) "b" (some "c")))
    (twoPlugins (PluginOptions.put (PluginOptions.put { id := "a" } "b" (some "c")) "d" none)) := by
  refine ⟨rfl, ?_⟩
  rw [entries_twoPlugins rfl, entries_twoPlugins rfl]
  refine .cons ⟨rfl, rfl, fun key ↦ ?_⟩ (.cons ⟨rfl, rfl, fun _ ↦ rfl⟩ .nil)
  exact AList.perm_lookup (AList.insert_insert_of_ne _ (by decide))

theorem reads_back_of_two_lines :
    ∃ c₀ c, ofText "a;b=c;d\nf" = .ok c₀ ∧ c.Reordered c₀ ∧
      ((∃ text' c', c.toString (fun _ ↦ none) = .ok text' ∧ ofText text' = .ok c' ∧ c'.Same c) ↔
        c.Printable) :=
  ⟨_, _, ofText_two_lines, reordered_two_options,
    reads_back_of_ofText_iff _ _ _ _ ofText_two_lines reordered_two_options⟩

end PluginConfiguration
end FastSearch.Plugin
