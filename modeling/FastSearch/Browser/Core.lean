import FastSearch.Browser.Tab

/-!
# The browser without its display

What remains of the browser when everything shown is forgotten: which tabs are open, which one
is in front, whom they are attached to, what the screens were told about them, the tables and
the loads that are still to come.
The operations below work on that part alone, and every step of the browser acts on it as one
of them, so whatever is shown never flows back.
-/

namespace FastSearch.Browser

open EventSystem

/-- A tab without its position and page. -/
structure CoreTab where
  mTabHost : Option Nat
  isIncognitoMode : Bool
  recentlyOpenedDB : Option RecentlyOpenedDB
  detached : Nat
  deriving DecidableEq, Repr

/-- A detached tab. -/
def CoreTab.detach (t : CoreTab) : CoreTab :=
  { t with mTabHost := none, detached := t.detached + 1 }

/-- What a screen was told about the tabs. -/
structure CoreHost where
  curTab : Option Nat
  tabCount : Option Nat
  deriving DecidableEq, Repr

/-- The browser without its display. -/
structure Core where
  tabs : List CoreTab
  hosts : List CoreHost
  mWebTabs : List Nat
  mHost : Option Nat
  mForegroundTab : Option Nat
  history : HistoryTable
  recently : RecentlyTable
  delayed : List DelayedLoad

/-- Forget the position and the page. -/
def WebTab.core (t : WebTab) : CoreTab :=
  ⟨t.mTabHost, t.isIncognitoMode, t.recentlyOpenedDB, t.detached⟩

/-- Forget what the screen shows. -/
def BrowserHost.core (h : BrowserHost) : CoreHost := ⟨h.curTab.value, h.tabCount⟩

/-- Forget the display. -/
def State.core (s : State) : Core where
  tabs := s.tabs.map WebTab.core
  hosts := s.hosts.map BrowserHost.core
  mWebTabs := s.mWebTabs
  mHost := s.mHost
  mForegroundTab := s.mForegroundTab
  history := s.history
  recently := s.recently
  delayed := s.delayed

namespace Core

/-- Tell the current screen, if there is one. -/
def tell (c : Core) (f : CoreHost → CoreHost) : Core :=
  match c.mHost with
  | some h => { c with hosts := c.hosts.modify h f }
  | none => c

/-- Report the number of tabs. -/
def tellCount (c : Core) : Core := c.tell fun h ↦ { h with tabCount := some c.mWebTabs.length }

/-- Bring a tab to the front. -/
def select (c : Core) (t : Nat) : Core :=
  let c := { c with mForegroundTab := some t }
  if t < c.tabs.length then c.tell fun h ↦ { h with curTab := some t } else c

/-- Open a tab in front. -/
def add (c : Core) (incognito : Bool) : Core :=
  match c.mHost with
  | none => c
  | some h =>
    let t := c.tabs.length
    let c := { c with
      tabs := c.tabs ++ [(⟨some h, incognito, none, 0⟩ : CoreTab)]
      mWebTabs := c.mWebTabs ++ [t] }
    (c.select t).tellCount

/-- Open a tab in front and leave a load for it. -/
def addDelayed (c : Core) (incognito : Bool) (url : String) : Core :=
  let created := c.mHost.map fun _ ↦ c.tabs.length
  let c := c.add incognito
  { c with delayed := c.delayed ++ [⟨created, incognito, url⟩] }

/-- A screen takes over. -/
def attach (c : Core) : Core :=
  let c := { c with hosts := c.hosts ++ [⟨none, none⟩], mHost := some c.hosts.length }
  if c.mWebTabs = [] then c.add false else c

/-- Take a tab out of the list. -/
def drop (c : Core) (t : Nat) : Core :=
  { c with tabs := c.tabs.modify t CoreTab.detach, mWebTabs := c.mWebTabs.erase t }

/-- Choose another tab for the front. -/
def refocus (c : Core) (removed : Nat) : Core :=
  if c.mForegroundTab = some removed then
    match c.mWebTabs with
    | [] => c.add false
    | first :: _ => c.select first
  else c

/-- Close a tab. -/
def remove (c : Core) (t : Nat) : Core :=
  if t ∈ c.mWebTabs then ((c.drop t).refocus t).tellCount else c

/-- The screen goes, and all tabs with it. -/
def detach (c : Core) : Core :=
  { c with
    mHost := none
    tabs := c.mWebTabs.foldl (fun tabs t ↦ tabs.modify t CoreTab.detach) c.tabs
    mWebTabs := [] }

/-- Record a page of a tab. -/
def record (E : Env) (c : Core) (t : Nat) (tab : CoreTab) (url title : Option String)
    (now clock : Int64) : Core :=
  let (own, recently) := updateRecentlyOpen E.platform E.recentlyKey tab.recentlyOpenedDB
    c.recently url title clock
  { c with
    tabs := c.tabs.modify t fun tab ↦ { tab with recentlyOpenedDB := own }
    history := c.history.add E.historyKey (BrowserHistory.ofPage E.platform url title now)
    recently := recently }

/-- What an event does to the browser without its display. -/
def apply (E : Env) (c : Core) : Event → Core
  | .attach => c.attach
  | .detach => c.detach
  | .addTab => c.add false
  | .addIncognitoTab => c.add true
  | .addTabAndLoadTagUrl incognito url => c.addDelayed incognito url
  | .delayedLoad i => { c with delayed := c.delayed.eraseIdx i }
  | .changeToTab t => c.select t
  | .removeTab t => c.remove t
  | .onPageStarted t url title now clock =>
    match c.tabs[t]? with
    | some tab =>
      if url = some homePlaceholderUrl ∨ tab.isIncognitoMode then c
      else c.record E t tab url title now clock
    | none => c
  | _ => c

end Core

private theorem map_modify_comm {α β : Type} {g : α → β} {f : α → α} {k : β → β}
    (h : ∀ a, g (f a) = k (g a)) (l : List α) (i : Nat) :
    (l.modify i f).map g = (l.map g).modify i k := by
  apply List.ext_getElem?
  intro j
  rw [List.getElem?_map, List.getElem?_modify, List.getElem?_modify, List.getElem?_map]
  cases l[j]? with
  | none => rfl
  | some a =>
    by_cases hij : i = j
    · simp [hij, h]
    · simp [hij]

private theorem map_modify_eq {α β : Type} {g : α → β} {f : α → α}
    (h : ∀ a, g (f a) = g a) (l : List α) (i : Nat) : (l.modify i f).map g = l.map g := by
  rw [map_modify_comm (k := id) h]
  exact List.modify_id _ _

namespace Core

/-- With a screen, a tab is appended, brought to the front and counted. -/
theorem add_of_host {c : Core} {h : Nat} (incognito : Bool) (hm : c.mHost = some h) :
    c.add incognito =
      (select { c with
        tabs := c.tabs ++ [(⟨some h, incognito, none, 0⟩ : CoreTab)]
        mWebTabs := c.mWebTabs ++ [c.tabs.length] } c.tabs.length).tellCount := by
  unfold add
  rw [hm]

/-! ### Tab operations touch the tabs only -/

/-- Which tabs are incognito, in order of creation. -/
def modes (c : Core) : List Bool := c.tabs.map (·.isIncognitoMode)

/-- Tables and delayed loads are the same, and no tab has changed its mode. -/
structure TabsOnly (c d : Core) : Prop where
  history : d.history = c.history
  recently : d.recently = c.recently
  delayed : d.delayed = c.delayed
  modes : c.modes <+: d.modes

theorem TabsOnly.refl (c : Core) : TabsOnly c c := ⟨rfl, rfl, rfl, List.prefix_refl _⟩

theorem TabsOnly.trans {c d e : Core} (h : TabsOnly c d) (k : TabsOnly d e) : TabsOnly c e :=
  ⟨k.history.trans h.history, k.recently.trans h.recently, k.delayed.trans h.delayed,
    h.modes.trans k.modes⟩

theorem tabsOnly_tell (c : Core) (f : CoreHost → CoreHost) : TabsOnly c (c.tell f) := by
  unfold tell
  split
  · exact ⟨rfl, rfl, rfl, List.prefix_refl _⟩
  · exact TabsOnly.refl c

theorem tabsOnly_select (c : Core) (t : Nat) : TabsOnly c (c.select t) := by
  have h : TabsOnly c { c with mForegroundTab := some t } :=
    ⟨rfl, rfl, rfl, List.prefix_refl _⟩
  unfold select
  dsimp only
  split
  · exact h.trans (tabsOnly_tell _ _)
  · exact h

theorem tabsOnly_add (c : Core) (incognito : Bool) : TabsOnly c (c.add incognito) := by
  cases hm : c.mHost with
  | none =>
    unfold add
    rw [hm]
    exact TabsOnly.refl c
  | some h =>
    rw [add_of_host incognito hm]
    have ha : TabsOnly c { c with
        tabs := c.tabs ++ [(⟨some h, incognito, none, 0⟩ : CoreTab)]
        mWebTabs := c.mWebTabs ++ [c.tabs.length] } := by
      refine ⟨rfl, rfl, rfl, ?_⟩
      simp [modes]
    exact (ha.trans (tabsOnly_select _ _)).trans (tabsOnly_tell _ _)

theorem tabsOnly_attach (c : Core) : TabsOnly c c.attach := by
  have h : TabsOnly c { c with
      hosts := c.hosts ++ [(⟨none, none⟩ : CoreHost)], mHost := some c.hosts.length } :=
    ⟨rfl, rfl, rfl, List.prefix_refl _⟩
  unfold attach
  dsimp only
  split
  · exact h.trans (tabsOnly_add _ _)
  · exact h

private theorem modes_detachTab (tab : CoreTab) :
    tab.detach.isIncognitoMode = tab.isIncognitoMode := rfl

theorem tabsOnly_drop (c : Core) (t : Nat) : TabsOnly c (c.drop t) := by
  refine ⟨rfl, rfl, rfl, ?_⟩
  simp only [modes, drop, map_modify_eq modes_detachTab]
  exact List.prefix_refl _

theorem tabsOnly_refocus (c : Core) (t : Nat) : TabsOnly c (c.refocus t) := by
  unfold refocus
  split
  · split
    · exact tabsOnly_add c false
    · exact tabsOnly_select c _
  · exact TabsOnly.refl c

theorem tabsOnly_remove (c : Core) (t : Nat) : TabsOnly c (c.remove t) := by
  unfold remove
  split
  · exact ((tabsOnly_drop c t).trans (tabsOnly_refocus _ t)).trans (tabsOnly_tell _ _)
  · exact TabsOnly.refl c

private theorem modes_foldl_detach (l : List Nat) (tabs : List CoreTab) :
    (l.foldl (fun tabs t ↦ tabs.modify t CoreTab.detach) tabs).map (·.isIncognitoMode) =
      tabs.map (·.isIncognitoMode) := by
  induction l generalizing tabs with
  | nil => rfl
  | cons t l ih => rw [List.foldl_cons, ih, map_modify_eq modes_detachTab]

theorem tabsOnly_detach (c : Core) : TabsOnly c c.detach := by
  refine ⟨rfl, rfl, rfl, ?_⟩
  simp only [modes, detach, modes_foldl_detach]
  exact List.prefix_refl _

/-- Recording a page does not change modes. -/
theorem modes_record (E : Env) (c : Core) (t : Nat) (tab : CoreTab) (url title : Option String)
    (now clock : Int64) : (c.record E t tab url title now clock).modes = c.modes := by
  simp only [modes, record]
  apply map_modify_eq
  intro x
  rfl

/-- What an event may do to the rest: write the tables, leave a delayed load, or carry one out;
any other event touches the tabs only. -/
theorem apply_cases (E : Env) (c : Core) (e : Event) :
    TabsOnly c (c.apply E e) ∨
      (∃ t tab url title now clock, url ≠ some homePlaceholderUrl ∧
        c.apply E e = c.record E t tab url title now clock) ∨
      (∃ incognito url, c.apply E e = c.addDelayed incognito url) ∨
      ∃ i, c.apply E e = { c with delayed := c.delayed.eraseIdx i } := by
  cases e with
  | attach => exact Or.inl (tabsOnly_attach c)
  | detach => exact Or.inl (tabsOnly_detach c)
  | addTab => exact Or.inl (tabsOnly_add c false)
  | addIncognitoTab => exact Or.inl (tabsOnly_add c true)
  | changeToTab t => exact Or.inl (tabsOnly_select c t)
  | removeTab t => exact Or.inl (tabsOnly_remove c t)
  | addTabAndLoadTagUrl incognito url => exact Or.inr (Or.inr (Or.inl ⟨incognito, url, rfl⟩))
  | delayedLoad i => exact Or.inr (Or.inr (Or.inr ⟨i, rfl⟩))
  | onPageStarted t url title now clock =>
    simp only [apply]
    split
    · next tab _ =>
      split
      · exact Or.inl (TabsOnly.refl c)
      · next hn =>
        exact Or.inr (Or.inl ⟨t, tab, url, title, now, clock, fun h ↦ hn (Or.inl h), rfl⟩)
    · exact Or.inl (TabsOnly.refl c)
  | loadUrl | searchContent | pageGoHome | goHome | goForward | back
  | onPageFinished | deliverTabView | deliverShowingHome | deliverTabCount =>
    exact Or.inl (TabsOnly.refl c)

end Core

/-! ### Every step acts on the core -/

namespace State

/-- Writing a tab's position or page does not reach the core. -/
theorem core_setTab (s : State) (t : Nat) {f : WebTab → WebTab}
    (h : ∀ tab, (f tab).core = tab.core) : (s.setTab t f).core = s.core := by
  simp only [core, setTab, map_modify_eq h]

/-- Telling a screen only what it shows does not reach the core. -/
theorem core_tellHost (s : State) (host : Option Nat) {f : BrowserHost → BrowserHost}
    (h : ∀ x, (f x).core = x.core) : (s.tellHost host f).core = s.core := by
  cases host with
  | none => rfl
  | some i => simp only [core, tellHost, map_modify_eq h]

@[simp] theorem core_noteViewChange (s : State) (t : Nat) :
    (s.noteViewChange t).core = s.core := rfl

@[simp] theorem core_noteLoad (s : State) (t : Nat) (url : String) :
    (s.noteLoad t url).core = s.core := rfl

/-- A change of view does not reach the core. -/
@[simp] theorem core_changeViewTo (s : State) (t : Nat) (isHome : Bool) :
    (s.changeViewTo t isHome).core = s.core := by
  unfold changeViewTo
  split
  · rfl
  · split
    · rfl
    · split
      · apply core_setTab
        intro tab
        rfl
      · next h _ =>
        rw [core_noteViewChange, core_tellHost, core_setTab]
        · intro tab
          rfl
        · intro x
          rfl

@[simp] theorem core_loadUrl (s : State) (t : Nat) (url : String) :
    (s.loadUrl t url).core = s.core := by
  rw [loadUrl, core_noteLoad, core_changeViewTo]

@[simp] theorem core_goHome (s : State) (t : Nat) : (s.goHome t).core = s.core := by
  rw [goHome, core_changeViewTo, core_loadUrl]

@[simp] theorem core_goForward (s : State) (t : Nat) (can : Bool) :
    (s.goForward t can).core = s.core := by
  unfold goForward
  split
  · split
    · rw [core_changeViewTo]
    · rfl
  · rfl

@[simp] theorem core_onBackPressed (s : State) (t : Nat) (can : Bool) :
    (s.onBackPressed t can).core = s.core := by
  unfold onBackPressed
  split
  · rfl
  · rw [core_changeViewTo]

/-- A call that does not reach the core, made on the foreground tab. -/
theorem core_onForeground (s : State) {f : State → Nat → State}
    (h : ∀ s t, (f s t).core = s.core) : (s.onForeground f).core = s.core := by
  unfold onForeground
  split
  · exact h s _
  · rfl

@[simp] theorem core_setCurWebUrl (s : State) (t : Nat) (url : String) :
    (s.setCurWebUrl t url).core = s.core := by
  unfold setCurWebUrl
  rw [core_onForeground, core_setTab]
  · intro tab
    rfl
  · intro s t
    exact core_changeViewTo s t _

private theorem core_tell {s : State} {f : BrowserHost → BrowserHost} {g : CoreHost → CoreHost}
    (h : ∀ x, (f x).core = g x.core) : (s.tellHost s.mHost f).core = s.core.tell g := by
  unfold tellHost Core.tell
  cases hm : s.mHost with
  | none => simp only [core, hm]
  | some i => simp only [core, hm, map_modify_comm h]

@[simp] theorem core_tabCountChanged (s : State) : s.tabCountChanged.core = s.core.tellCount :=
  core_tell fun _ ↦ rfl

@[simp] theorem core_changeToTab (s : State) (t : Nat) :
    (s.changeToTab t).core = s.core.select t := by
  unfold changeToTab Core.select getCurView
  cases ht : s.tabs[t]? with
  | none =>
    have hl : ¬ t < s.tabs.length := by
      rw [List.getElem?_eq_none_iff] at ht
      omega
    simp [hl, core]
  | some tab =>
    have hl : t < s.tabs.length := (List.getElem?_eq_some_iff.mp ht).1
    have hc : t < s.core.tabs.length := by
      simpa [core] using hl
    simp only [ht, Option.map_some, if_pos hc]
    exact core_tell (s := { s with mForegroundTab := some t }) fun _ ↦ rfl

@[simp] theorem core_addTab (s : State) (incognito : Bool) :
    (s.addTab incognito).core = s.core.add incognito := by
  unfold addTab Core.add
  cases hm : s.mHost with
  | none => simp [core, hm]
  | some h =>
    simp only [core_tabCountChanged, core_changeToTab]
    simp [core, hm, WebTab.core]

@[simp] theorem core_addTabAndLoadTagUrl (s : State) (incognito : Bool) (url : String) :
    (s.addTabAndLoadTagUrl incognito url).core = s.core.addDelayed incognito url := by
  unfold Core.addDelayed
  rw [← core_addTab]
  simp [addTabAndLoadTagUrl, core]

@[simp] theorem core_attach (s : State) : s.attach.core = s.core.attach := by
  unfold attach Core.attach
  by_cases h : s.mWebTabs = []
  · simp only [h, if_true, core_addTab]
    simp [core, BrowserHost.core, h]
  · simp [core, BrowserHost.core, h]

private theorem core_detachTab (t : WebTab) : t.detach.core = t.core.detach := rfl

@[simp] theorem core_dropTab (s : State) (t : Nat) : (s.dropTab t).core = s.core.drop t := by
  simp only [dropTab, Core.drop, core, setTab, map_modify_comm core_detachTab]

@[simp] theorem core_refocus (s : State) (t : Nat) :
    (s.refocus t).core = s.core.refocus t := by
  unfold refocus Core.refocus
  have hf : s.core.mForegroundTab = s.mForegroundTab := rfl
  have hw : s.core.mWebTabs = s.mWebTabs := rfl
  rw [hf, hw]
  split
  · cases s.mWebTabs with
    | nil => exact core_addTab s false
    | cons first rest => exact core_changeToTab s first
  · rfl

@[simp] theorem core_removeTab (s : State) (t : Nat) :
    (s.removeTab t).core = s.core.remove t := by
  unfold removeTab Core.remove
  by_cases hm : t ∈ s.mWebTabs
  · have hc : t ∈ s.core.mWebTabs := hm
    rw [if_pos hm, if_pos hc, core_tabCountChanged, core_refocus, core_dropTab]
  · have hc : t ∉ s.core.mWebTabs := hm
    rw [if_neg hm, if_neg hc]

private theorem map_foldl_detach (l : List Nat) (tabs : List WebTab) :
    (l.foldl (fun tabs t ↦ tabs.modify t WebTab.detach) tabs).map WebTab.core =
      l.foldl (fun tabs t ↦ tabs.modify t CoreTab.detach) (tabs.map WebTab.core) := by
  induction l generalizing tabs with
  | nil => rfl
  | cons t l ih =>
    rw [List.foldl_cons, List.foldl_cons, ih, map_modify_comm core_detachTab]

@[simp] theorem core_detach (s : State) : s.detach.core = s.core.detach := by
  simp only [detach, Core.detach, core, map_foldl_detach]

@[simp] theorem core_recordPage (E : Env) (s : State) (t : Nat) (tab : WebTab)
    (url title : Option String) (now clock : Int64) :
    (s.recordPage E t tab url title now clock).core =
      s.core.record E t tab.core url title now clock := by
  simp only [recordPage, Core.record, core, setTab]
  rw [map_modify_comm]
  · rfl
  · intro x
    rfl

/-- A delivery changes one screen. -/
theorem deliver_eq_some {s s' : State} {host : Nat} {f : BrowserHost → Option BrowserHost}
    (hs : s.deliver host f = some s') :
    ∃ x y, s.hosts[host]? = some x ∧ f x = some y ∧
      s' = { s with hosts := s.hosts.set host y } := by
  obtain ⟨y, hy, rfl⟩ := Option.map_eq_some_iff.mp hs
  obtain ⟨x, hx, hf⟩ := Option.bind_eq_some_iff.mp hy
  exact ⟨x, y, hx, hf, rfl⟩

/-- Delivering a post does not reach the core. -/
theorem core_deliver {s s' : State} {host : Nat} {f : BrowserHost → Option BrowserHost}
    (h : ∀ x y, f x = some y → y.core = x.core) (hs : s.deliver host f = some s') :
    s'.core = s.core := by
  obtain ⟨x, y, hx, hy, rfl⟩ := deliver_eq_some hs
  simp only [core]
  congr 1
  apply List.ext_getElem?
  intro j
  rw [List.getElem?_map, List.getElem?_map]
  by_cases hj : host = j
  · subst hj
    rw [List.getElem?_set_self (List.getElem?_eq_some_iff.mp hx).1, hx, Option.map_some,
      Option.map_some, h x y hy]
  · rw [List.getElem?_set_ne hj]

/-- Every step acts on the browser without its display as `Core.apply`. -/
theorem core_step {E : Env} {s s' : State} {e : Event} (hs : s.step E e = some s') :
    s'.core = s.core.apply E e := by
  cases e with
  | attach | detach | addTab | addIncognitoTab | removeTab =>
    cases hs
    simp [Core.apply]
  | changeToTab t =>
    simp only [step] at hs
    split at hs
    · cases hs
      exact core_changeToTab s t
    · cases hs
  | addTabAndLoadTagUrl incognito url =>
    cases hs
    exact core_addTabAndLoadTagUrl s incognito url
  | delayedLoad i =>
    simp only [step, Option.map_eq_some_iff] at hs
    obtain ⟨d, _, rfl⟩ := hs
    rw [core_onForeground _ fun s t ↦ core_loadUrl s t d.url]
    rfl
  | loadUrl url =>
    cases hs
    exact core_onForeground s fun s t ↦ core_loadUrl s t url
  | searchContent queryUrl content =>
    cases hs
    exact core_onForeground s fun s t ↦ core_loadUrl s t _
  | pageGoHome =>
    cases hs
    exact core_onForeground s core_goHome
  | back can =>
    cases hs
    exact core_onForeground s fun s t ↦ core_onBackPressed s t can
  | goHome host =>
    simp only [step, Option.map_eq_some_iff] at hs
    obtain ⟨t, _, rfl⟩ := hs
    exact core_goHome s t
  | goForward host can =>
    simp only [step, Option.map_eq_some_iff] at hs
    obtain ⟨t, _, rfl⟩ := hs
    exact core_goForward s t can
  | onPageStarted t url title now clock =>
    simp only [step, Option.map_eq_some_iff] at hs
    obtain ⟨tab, ht, rfl⟩ := hs
    have hc : s.core.tabs[t]? = some tab.core := by
      simp [core, ht]
    simp only [Core.apply, hc]
    unfold onPageStarted
    dsimp only
    split
    · next h =>
      rw [core_setCurWebUrl]
      exact (if_pos h).symm
    · next h =>
      rw [core_recordPage, core_setCurWebUrl]
      exact (if_neg h).symm
  | onPageFinished t url =>
    simp only [step, Option.map_eq_some_iff] at hs
    obtain ⟨tab, _, rfl⟩ := hs
    exact core_setCurWebUrl s t _
  | deliverTabView host =>
    apply core_deliver _ hs
    intro x y hy
    simp only [BrowserHost.deliverTabView, Option.map_eq_some_iff] at hy
    obtain ⟨l, _, rfl⟩ := hy
    rfl
  | deliverShowingHome host =>
    apply core_deliver _ hs
    intro x y hy
    simp only [BrowserHost.deliverShowingHome, Option.map_eq_some_iff] at hy
    obtain ⟨l, _, rfl⟩ := hy
    rfl
  | deliverTabCount host =>
    apply core_deliver _ hs
    intro x y hy
    simp only [BrowserHost.deliverTabCount, Option.map_eq_some_iff] at hy
    obtain ⟨l, _, rfl⟩ := hy
    rfl

end State
end FastSearch.Browser
