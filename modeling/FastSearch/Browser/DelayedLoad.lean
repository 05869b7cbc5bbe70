import FastSearch.Browser.Core

/-!
# Where a delayed load goes

`addTabAndLoadTagUrl` opens a tab and loads its address 100 ms later into whatever tab is in
front then. The address reaches the tab it was opened for, and no other one, exactly when that
tab still is open and in front; with no such tab left it is dropped only if no tab was ever in
front.
-/

namespace FastSearch.Browser

open EventSystem

namespace Core

/-- Every delayed load knows the mode of the tab it was opened for. -/
def ModesKnown (c : Core) : Prop :=
  ∀ d ∈ c.delayed, ∀ t, d.created = some t → c.modes[t]? = some d.incognito

private theorem getElem?_of_prefix {l m : List Bool} {t : Nat} {b : Bool} (h : l <+: m)
    (ht : l[t]? = some b) : m[t]? = some b := by
  obtain ⟨r, rfl⟩ := h
  rw [List.getElem?_append_left (List.getElem?_eq_some_iff.mp ht).1, ht]

private theorem TabsOnly.modesKnown {c d : Core} (h : TabsOnly c d) (hc : c.ModesKnown) :
    d.ModesKnown := by
  intro x hx t ht
  rw [h.delayed] at hx
  exact getElem?_of_prefix h.modes (hc x hx t ht)

/-- A new tab has the mode it was opened in. -/
private theorem modes_add {c : Core} {h : Nat} (incognito : Bool) (hm : c.mHost = some h) :
    (c.add incognito).modes[c.tabs.length]? = some incognito := by
  rw [add_of_host incognito hm]
  apply getElem?_of_prefix ((tabsOnly_select _ _).trans (tabsOnly_tell _ _)).modes
  simp [modes]

/-- Every event keeps the modes known. -/
theorem modesKnown_apply {E : Env} {c : Core} (h : c.ModesKnown) (e : Event) :
    (c.apply E e).ModesKnown := by
  rcases apply_cases E c e with hk | ⟨t, tab, url, title, now, clock, _, he⟩ | ⟨i, url, he⟩ |
    ⟨i, he⟩
  · exact hk.modesKnown h
  · rw [he]
    intro d hd x hx
    rw [modes_record]
    exact h d hd x hx
  · rw [he]
    intro d hd x hx
    rcases List.mem_append.mp hd with hd | hd
    · exact (tabsOnly_add c i).modesKnown h d hd x hx
    · rw [List.mem_singleton.mp hd] at hx ⊢
      cases hm : c.mHost with
      | none => simp [hm] at hx
      | some host =>
        have hxt : c.tabs.length = x := by simpa [hm] using hx
        subst hxt
        exact modes_add i hm
  · rw [he]
    intro d hd
    exact h d (List.mem_of_mem_eraseIdx hd)

end Core

namespace State

/-- The tab a delayed load was opened for, if it is still open. -/
def target (s : State) (d : DelayedLoad) : Option Nat := d.created.filter (· ∈ s.mWebTabs)

/-- A delayed load is loaded by its own tab if that is still open, and by none otherwise; an
incognito load only by incognito tabs. -/
def LoadsOwn (s : State) (e : Event) (s' : State) : Prop :=
  ∀ i d, e = .delayedLoad i → s.delayed[i]? = some d →
    ∃ ts : List Nat, s'.loads = s.loads ++ ts.map (·, d.url) ∧ ts = (s.target d).toList ∧
      (d.incognito = true → ∀ t ∈ ts, s.core.modes[t]? = some true)

/-- The tab in front is the one the load was opened for. -/
def InFront (s : State) (e : Event) : Prop :=
  ∀ i d, e = .delayedLoad i → s.delayed[i]? = some d → s.mForegroundTab = s.target d

@[simp] theorem loads_tellHost (s : State) (host : Option Nat) (f : BrowserHost → BrowserHost) :
    (s.tellHost host f).loads = s.loads := by
  cases host <;> rfl

@[simp] theorem loads_changeViewTo (s : State) (t : Nat) (isHome : Bool) :
    (s.changeViewTo t isHome).loads = s.loads := by
  unfold changeViewTo
  split
  · rfl
  · split
    · rfl
    · split
      · rfl
      · exact loads_tellHost _ _ _

theorem loads_loadUrl (s : State) (t : Nat) (url : String) :
    (s.loadUrl t url).loads = s.loads ++ [(t, url)] := by
  change (s.changeViewTo t false).loads ++ [(t, url)] = _
  rw [loads_changeViewTo]

/-- A delayed load goes to the tab in front. -/
theorem loads_delayedLoad {E : Env} {s s' : State} {i : Nat} {d : DelayedLoad}
    (hs : s.step E (.delayedLoad i) = some s') (hd : s.delayed[i]? = some d) :
    s'.loads = s.loads ++ s.mForegroundTab.toList.map (·, d.url) := by
  simp only [step, hd, Option.map_some, Option.some.injEq] at hs
  subst hs
  unfold onForeground
  cases hf : s.mForegroundTab with
  | none => simp
  | some t => exact loads_loadUrl _ t d.url

private theorem toList_inj {α : Type} {a b : Option α} (h : a.toList = b.toList) : a = b := by
  cases a with
  | none =>
    cases b with
    | none => rfl
    | some b => cases h
  | some a =>
    cases b with
    | none => cases h
    | some b =>
      cases h
      rfl

private theorem map_pair_inj {l m : List Nat} {url : String}
    (h : l.map (·, url) = m.map (·, url)) : l = m := by
  have hc := congrArg (List.map Prod.fst) h
  simpa [List.map_map, Function.comp_def] using hc

/-- A delayed load is loaded by its own tab exactly if that is the tab in front. -/
theorem loadsOwn_iff_inFront {E : Env} {s s' : State} {e : Event} (h : s.core.ModesKnown)
    (hs : s.step E e = some s') : s.LoadsOwn e s' ↔ s.InFront e := by
  constructor
  · intro hl i d he hd
    subst he
    obtain ⟨ts, hts, rfl, _⟩ := hl i d rfl hd
    rw [loads_delayedLoad hs hd] at hts
    exact toList_inj (map_pair_inj (List.append_cancel_left hts))
  · intro hf i d he hd
    subst he
    refine ⟨(s.target d).toList, ?_, rfl, ?_⟩
    · rw [loads_delayedLoad hs hd, hf i d rfl hd]
    · intro hi t ht
      have hc : d.created = some t := by
        have ht : s.target d = some t := by simpa using ht
        exact (Option.filter_eq_some_iff.mp ht).1
      rw [h d (List.mem_of_getElem? hd) t hc, hi]

/-- Throughout a run every delayed load is loaded by its own tab exactly if that tab is in front
whenever a delayed load is carried out. -/
theorem loadsOwn_throughout_iff (E : Env) (es : List Event) :
    Throughout (step E) LoadsOwn {} es ↔ Along (step E) InFront {} es := by
  apply throughout_iff_along (J := fun s : State ↦ s.core.ModesKnown)
  · intro s e s' h hs
    rw [core_step hs]
    exact Core.modesKnown_apply h e
  · intro s e s' h hs
    exact loadsOwn_iff_inFront h hs
  · intro d hd
    cases hd

/-- An address opened in incognito mode is loaded by the normal tab the user has gone back to. -/
theorem incognito_load_not_own :
    ¬ Throughout (step plainEnv) LoadsOwn {} [.attach, .addTabAndLoadTagUrl true "https://a.test/",
      .changeToTab 0, .delayedLoad 0] := by
  intro h
  have hf := h [.attach, .addTabAndLoadTagUrl true "https://a.test/", .changeToTab 0] _ _ _
    (List.prefix_refl _) rfl rfl
  obtain ⟨ts, hts, rfl, _⟩ := hf 0 _ rfl rfl
  cases hts

end State
end FastSearch.Browser
