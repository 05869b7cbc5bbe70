import FastSearch.Browser.TabInvariant

/-!
# What the screen shows

One screen, from its creation on. A change of view inside the foreground tab posts the view
and the position of that tab; a switch to another tab sets the view at once but posts neither.
The screen therefore shows the foreground tab as long as each switch happens when no view is
outstanding and the navigation bar already has the position of the tab switched to.
-/

namespace FastSearch.Browser

open EventSystem

namespace BrowserHost

/-- The content once everything posted has been delivered. -/
def picture (h : BrowserHost) : Option View := h.curTabView.posted.or h.content

/-- The screen shows a view, or will when everything posted has been delivered. -/
structure Pictures (h : BrowserHost) (v : View) : Prop where
  picture : h.picture = some v
  position : h.curShowingHomePage.latest = some v.isHome

/-- Nothing posted is outstanding. -/
def Settled (h : BrowserHost) : Prop :=
  h.curTabView.Settled ∧ h.curShowingHomePage.Settled ∧ h.totalTabCount.Settled

end BrowserHost

namespace State

/-- The current view of the foreground tab. -/
def frontView (s : State) : Option View := s.mForegroundTab.bind s.getCurView

/-- Whenever nothing posted is outstanding, the screen shows the foreground tab, and the
navigation bar its position. -/
def Shown (s : State) : Prop :=
  ∀ h host, s.mHost = some h → s.hosts[h]? = some host → host.Settled →
    host.content = s.frontView ∧
      host.curShowingHomePage.value = s.frontView.map (·.isHome)

/-- The browser after its screen was created. -/
def opened : State := attach {}

/-- The steps of a screen that lives on: tab operations, page callbacks and deliveries. -/
def browse (E : Env) (s : State) (e : Event) : Option State :=
  if e = .attach ∨ e = .detach then none else s.step E e

/-- The view that a switch of tabs brings to the front. -/
def switchesTo (s : State) : Event → Option View
  | .addTab | .addIncognitoTab | .addTabAndLoadTagUrl _ _ => some ⟨s.tabs.length, true⟩
  | .changeToTab t => s.getCurView t
  | .removeTab t =>
    if t ∈ s.mWebTabs ∧ s.mForegroundTab = some t then
      match s.mWebTabs.erase t with
      | [] => some ⟨s.tabs.length, true⟩
      | first :: _ => s.getCurView first
    else none
  | _ => none

/-- A switch happens with no other view outstanding and with the navigation bar, posts included,
at the position of the tab switched to. -/
def Smooth (s : State) (e : Event) : Prop :=
  ∀ v, s.switchesTo e = some v → ∀ h host, s.mHost = some h → s.hosts[h]? = some host →
    (host.curTabView.posted = none ∨ host.curTabView.posted = some v) ∧
      host.curShowingHomePage.latest = some v.isHome

/-! ### The invariant -/

/-- The only screen shows the foreground tab, or is about to. -/
def Pictured (s : State) : Prop :=
  ∃ host v, s.mHost = some 0 ∧ s.hosts = [host] ∧ s.frontView = some v ∧ host.Pictures v

/-- The screen shows the foreground tab and the tabs are in order. -/
structure Displayed (s : State) : Prop where
  inv : s.core.Inv
  pictured : s.Pictured

theorem Pictured.shown {s : State} (h : s.Pictured) : s.Shown := by
  obtain ⟨host, v, hm, hh, hv, hp⟩ := h
  intro i x hi hx hs
  rw [hm] at hi
  cases hi
  rw [hh] at hx
  cases hx
  rw [hv]
  constructor
  · have hc := hp.picture
    unfold BrowserHost.picture at hc
    rw [hs.1] at hc
    exact hc
  · rw [← LiveData.latest_of_settled hs.2.1]
    exact hp.position

/-- The foreground tab is open and attached to the screen. -/
private theorem Displayed.front {s : State} (h : s.Displayed) :
    ∃ f tab, s.mForegroundTab = some f ∧ s.tabs[f]? = some tab ∧ tab.mTabHost = some 0 ∧
      s.mWebTab 0 = some f := by
  obtain ⟨host, v, hm, hh, hv, hp⟩ := h.pictured
  have hc := coherent_of_inv h.inv
  obtain ⟨f, hf, hfg, x, hx, hxf, _⟩ := (hc.1 0 hm).front
  obtain ⟨tab, ht, hth⟩ := (hc.1 0 hm).attached f hf
  refine ⟨f, tab, hfg, ht, hth, ?_⟩
  simp [mWebTab, hx, hxf]

private theorem pictured_congr {s s' : State} (h : s.Pictured) (hm : s'.mHost = s.mHost)
    (hh : s'.hosts = s.hosts) (hv : s'.frontView = s.frontView) : s'.Pictured := by
  obtain ⟨host, v, h1, h2, h3, h4⟩ := h
  exact ⟨host, v, hm.trans h1, hh.trans h2, hv.trans h3, h4⟩

private theorem getCurView_setTab (s : State) (t x : Nat) {f : WebTab → WebTab}
    (h : ∀ tab, (f tab).mIsHomePos = tab.mIsHomePos) :
    (s.setTab t f).getCurView x = s.getCurView x := by
  unfold getCurView setTab
  rw [List.getElem?_modify]
  cases s.tabs[x]? with
  | none => rfl
  | some tab =>
    by_cases hx : t = x
    · simp [hx, h]
    · simp [hx]

private theorem frontView_setTab (s : State) (t : Nat) {f : WebTab → WebTab}
    (h : ∀ tab, (f tab).mIsHomePos = tab.mIsHomePos) :
    (s.setTab t f).frontView = s.frontView := by
  unfold frontView
  change s.mForegroundTab.bind _ = _
  congr 1
  funext x
  exact getCurView_setTab s t x h

/-- A change of view inside the foreground tab reaches the screen. -/
private theorem displayed_changeViewTo {s : State} {f : Nat} (isHome : Bool) (h : s.Displayed)
    (hf : s.mForegroundTab = some f) : (s.changeViewTo f isHome).Displayed := by
  refine ⟨by rw [core_changeViewTo]; exact h.inv, ?_⟩
  obtain ⟨g, tab, hg, ht, hth, _⟩ := h.front
  rw [hf] at hg
  cases hg
  obtain ⟨host, v, hm, hh, hv, hp⟩ := h.pictured
  unfold changeViewTo
  rw [ht]
  dsimp only
  split
  · exact h.pictured
  · rw [hth]
    refine ⟨host.onTabContentViewChanged ⟨f, isHome⟩ isHome, ⟨f, isHome⟩, hm, ?_, ?_, ?_⟩
    · simp [tellHost, noteViewChange, setTab, hh]
    · simp [frontView, getCurView, tellHost, noteViewChange, setTab, hf, ht]
    · exact ⟨rfl, rfl⟩

private theorem mForegroundTab_changeViewTo (s : State) (t : Nat) (isHome : Bool) :
    (s.changeViewTo t isHome).mForegroundTab = s.mForegroundTab :=
  congrArg Core.mForegroundTab (core_changeViewTo s t isHome)

private theorem displayed_loadUrl {s : State} {f : Nat} (url : String) (h : s.Displayed)
    (hf : s.mForegroundTab = some f) : (s.loadUrl f url).Displayed := by
  have hd := displayed_changeViewTo false h hf
  exact ⟨hd.inv, pictured_congr hd.pictured rfl rfl rfl⟩

private theorem displayed_goHome {s : State} {f : Nat} (h : s.Displayed)
    (hf : s.mForegroundTab = some f) : (s.goHome f).Displayed := by
  apply displayed_changeViewTo true (displayed_loadUrl _ h hf)
  exact (mForegroundTab_changeViewTo s f false).trans hf

private theorem displayed_goForward {s : State} {f : Nat} (can : Bool) (h : s.Displayed)
    (hf : s.mForegroundTab = some f) : (s.goForward f can).Displayed := by
  unfold goForward
  split
  · split
    · exact displayed_changeViewTo false h hf
    · exact h
  · exact h

private theorem displayed_onBackPressed {s : State} {f : Nat} (can : Bool) (h : s.Displayed)
    (hf : s.mForegroundTab = some f) : (s.onBackPressed f can).Displayed := by
  unfold onBackPressed
  split
  · exact h
  · exact displayed_changeViewTo true h hf

/-- A call on the foreground tab that keeps the display. -/
private theorem displayed_onForeground {s : State} {f : State → Nat → State} (h : s.Displayed)
    (hf : ∀ t, s.mForegroundTab = some t → (f s t).Displayed) :
    (s.onForeground f).Displayed := by
  unfold onForeground
  split
  · next t ht => exact hf t ht
  · exact h

private theorem displayed_setCurWebUrl {s : State} (t : Nat) (url : String) (h : s.Displayed) :
    (s.setCurWebUrl t url).Displayed := by
  have h₁ : (s.setTab t fun tab ↦ { tab with curWebUrl := url }).Displayed := by
    have hc : (s.setTab t fun tab ↦ { tab with curWebUrl := url }).core = s.core :=
      core_setTab s t fun _ ↦ rfl
    refine ⟨?_, pictured_congr h.pictured rfl rfl (frontView_setTab s t fun _ ↦ rfl)⟩
    rw [hc]
    exact h.inv
  apply displayed_onForeground h₁
  intro f hf
  exact displayed_changeViewTo _ h₁ hf

private theorem frontView_recordPage (E : Env) (s : State) (t : Nat) (tab : WebTab)
    (url title : Option String) (now clock : Int64) :
    (s.recordPage E t tab url title now clock).frontView = s.frontView :=
  frontView_setTab s t fun _ ↦ rfl

/-- Taking a load off the list shows nothing. -/
private theorem displayed_delayed {s : State} (E : Env) (i : Nat) (h : s.Displayed) :
    Displayed { s with delayed := s.delayed.eraseIdx i } where
  inv := Core.inv_apply (E := E) (e := .delayedLoad i) h.inv (by simp) (by simp)
  pictured := pictured_congr h.pictured rfl rfl rfl

/-! ### Switches -/

/-- The screen is ready for a switch to the view. -/
private def ReadyFor (host : BrowserHost) (v : View) : Prop :=
  (host.curTabView.posted = none ∨ host.curTabView.posted = some v) ∧
    host.curShowingHomePage.latest = some v.isHome

private theorem pictured_changeToTab {s : State} {host : BrowserHost} {t : Nat} {v : View}
    (hm : s.mHost = some 0) (hh : s.hosts = [host]) (hv : s.getCurView t = some v)
    (hr : ReadyFor host v) : (s.changeToTab t).Pictured := by
  have hv' : ({ s with mForegroundTab := some t } : State).getCurView t = some v := hv
  unfold changeToTab
  dsimp only
  rw [hv']
  refine ⟨host.onTabChanged v, v, ?_, ?_, ?_, ?_, hr.2⟩
  · simp [tellHost, hm]
  · simp [tellHost, hm, hh]
  · simp only [tellHost, hm, frontView]
    exact hv
  · rcases hr.1 with hn | hs
    · simp [BrowserHost.picture, BrowserHost.onTabChanged, hn]
    · simp [BrowserHost.picture, BrowserHost.onTabChanged, hs]

private theorem pictured_tabCountChanged {s : State} (h : s.Pictured) :
    s.tabCountChanged.Pictured := by
  obtain ⟨host, v, hm, hh, hv, hp⟩ := h
  unfold tabCountChanged
  refine ⟨host.onTabCountChanged s.mWebTabs.length, v, ?_, ?_, ?_, hp.picture, hp.position⟩
  · simp [tellHost, hm]
  · simp [tellHost, hm, hh]
  · simp only [tellHost, hm]
    exact hv

private theorem pictured_addTab {s : State} {host : BrowserHost} (incognito : Bool)
    (hm : s.mHost = some 0) (hh : s.hosts = [host])
    (hr : ReadyFor host ⟨s.tabs.length, true⟩) : (s.addTab incognito).Pictured := by
  unfold addTab
  rw [hm]
  apply pictured_tabCountChanged
  exact pictured_changeToTab (v := ⟨s.tabs.length, true⟩) rfl hh (by simp [getCurView]) hr

private theorem pictured_removeTab {s : State} {t : Nat} (h : s.Pictured)
    (hi : ∀ x ∈ s.mWebTabs, x < s.tabs.length)
    (hc : s.Smooth (.removeTab t)) : (s.removeTab t).Pictured := by
  unfold removeTab
  split
  · next ht =>
    apply pictured_tabCountChanged
    obtain ⟨host, v, hm, hh, hv, hp⟩ := h
    have hready : ∀ w, s.switchesTo (.removeTab t) = some w → ReadyFor host w := by
      intro w hw
      exact hc w hw 0 host hm (by simp [hh])
    have hview : ∀ x, (s.dropTab t).getCurView x = s.getCurView x :=
      fun x ↦ getCurView_setTab (f := WebTab.detach) s t x fun _ ↦ rfl
    unfold refocus
    by_cases hf : s.mForegroundTab = some t
    · have hf' : (s.dropTab t).mForegroundTab = some t := hf
      have hw : (s.dropTab t).mWebTabs = s.mWebTabs.erase t := rfl
      rw [if_pos hf', hw]
      simp only [switchesTo, if_pos (And.intro ht hf)] at hready
      cases he : s.mWebTabs.erase t with
      | nil =>
        rw [he] at hready
        apply pictured_addTab (s := s.dropTab t) false hm hh
        have hl : (s.dropTab t).tabs.length = s.tabs.length := by simp [dropTab, setTab]
        rw [hl]
        exact hready _ rfl
      | cons first rest =>
        rw [he] at hready
        have hl : first < s.tabs.length :=
          hi first (List.mem_of_mem_erase (he ▸ List.mem_cons_self))
        have hg : s.getCurView first = some ⟨first, s.tabs[first].mIsHomePos⟩ := by
          simp [getCurView, List.getElem?_eq_getElem hl]
        exact pictured_changeToTab (s := s.dropTab t) hm hh ((hview first).trans hg)
          (hready _ hg)
    · have hf' : (s.dropTab t).mForegroundTab ≠ some t := hf
      have hfv : (s.dropTab t).frontView = s.frontView :=
        frontView_setTab (f := WebTab.detach) s t fun _ ↦ rfl
      rw [if_neg hf']
      exact ⟨host, v, hm, hh, hfv.trans hv, hp⟩
  · exact h

/-! ### Deliveries -/

private theorem pictured_deliver {s s' : State} {i : Nat} {f : BrowserHost → Option BrowserHost}
    (h : s.Pictured) (hf : ∀ x y, f x = some y → y.picture = x.picture ∧
      y.curShowingHomePage.latest = x.curShowingHomePage.latest)
    (hs : s.deliver i f = some s') : s'.Pictured := by
  obtain ⟨host, v, hm, hh, hv, hp⟩ := h
  obtain ⟨x, y, hx, hy, rfl⟩ := deliver_eq_some hs
  rw [hh] at hx
  cases i with
  | zero =>
    cases hx
    obtain ⟨h1, h2⟩ := hf host y hy
    exact ⟨y, v, hm, by simp [hh], hv, h1.trans hp.picture, h2.trans hp.position⟩
  | succ i => cases hx

private theorem deliverTabView_pictures {x y : BrowserHost} (h : x.deliverTabView = some y) :
    y.picture = x.picture ∧ y.curShowingHomePage.latest = x.curShowingHomePage.latest := by
  simp only [BrowserHost.deliverTabView, Option.map_eq_some_iff] at h
  obtain ⟨l, hl, rfl⟩ := h
  refine ⟨?_, rfl⟩
  simp only [LiveData.deliver, Option.map_eq_some_iff] at hl
  obtain ⟨v, hv, rfl⟩ := hl
  simp [BrowserHost.picture, hv]

private theorem deliverShowingHome_pictures {x y : BrowserHost}
    (h : x.deliverShowingHome = some y) :
    y.picture = x.picture ∧ y.curShowingHomePage.latest = x.curShowingHomePage.latest := by
  simp only [BrowserHost.deliverShowingHome, Option.map_eq_some_iff] at h
  obtain ⟨l, hl, rfl⟩ := h
  exact ⟨rfl, LiveData.latest_deliver hl⟩

private theorem deliverTabCount_pictures {x y : BrowserHost} (h : x.deliverTabCount = some y) :
    y.picture = x.picture ∧ y.curShowingHomePage.latest = x.curShowingHomePage.latest := by
  simp only [BrowserHost.deliverTabCount, Option.map_eq_some_iff] at h
  obtain ⟨l, hl, rfl⟩ := h
  exact ⟨rfl, rfl⟩

/-! ### Runs -/

private theorem readyFor {s : State} {e : Event} {v : View} {host : BrowserHost}
    (hc : s.Smooth e) (he : s.switchesTo e = some v) (hm : s.mHost = some 0)
    (hh : s.hosts = [host]) : ReadyFor host v :=
  hc v he 0 host hm (by simp [hh])

private theorem pictured_step {E : Env} {s s' : State} {e : Event} (h : s.Displayed)
    (hc : s.Smooth e) (hs : s.browse E e = some s') : s'.Pictured := by
  unfold browse at hs
  split at hs
  · cases hs
  · next hn =>
    obtain ⟨host, v, hm, hh, hv, hp⟩ := h.pictured
    obtain ⟨f, tab, hf, ht, _, hw⟩ := h.front
    have hw' : ∀ i t, s.mWebTab i = some t → t = f := by
      intro i t hi
      cases i with
      | zero =>
        rw [hw] at hi
        exact (Option.some.inj hi).symm
      | succ i => simp [mWebTab, hh] at hi
    cases e with
    | attach | detach => simp at hn
    | addTab =>
      cases hs
      exact pictured_addTab false hm hh (readyFor hc rfl hm hh)
    | addIncognitoTab =>
      cases hs
      exact pictured_addTab true hm hh (readyFor hc rfl hm hh)
    | addTabAndLoadTagUrl incognito url =>
      cases hs
      have hp' := pictured_addTab incognito hm hh (readyFor hc rfl hm hh)
      exact pictured_congr hp' rfl rfl rfl
    | changeToTab t =>
      simp only [step] at hs
      split at hs
      · next hmem =>
        cases hs
        have hl : t < s.tabs.length := by
          simpa [core] using h.inv.kept.lt_length (t := t) hmem
        have hg : s.getCurView t = some ⟨t, s.tabs[t].mIsHomePos⟩ := by
          simp [getCurView, List.getElem?_eq_getElem hl]
        exact pictured_changeToTab hm hh hg (readyFor hc hg hm hh)
      · cases hs
    | removeTab t =>
      cases hs
      apply pictured_removeTab h.pictured _ hc
      intro x hx
      simpa [core] using h.inv.kept.lt_length (t := x) hx
    | delayedLoad i =>
      simp only [step, Option.map_eq_some_iff] at hs
      obtain ⟨d, _, rfl⟩ := hs
      have hd := displayed_delayed E i h
      exact (displayed_onForeground hd fun t ht ↦ displayed_loadUrl d.url hd ht).pictured
    | loadUrl url =>
      cases hs
      exact (displayed_onForeground h fun t ht ↦ displayed_loadUrl url h ht).pictured
    | searchContent queryUrl content =>
      cases hs
      exact (displayed_onForeground h fun t ht ↦ displayed_loadUrl _ h ht).pictured
    | pageGoHome =>
      cases hs
      exact (displayed_onForeground h fun t ht ↦ displayed_goHome h ht).pictured
    | back can =>
      cases hs
      exact (displayed_onForeground h fun t ht ↦ displayed_onBackPressed can h ht).pictured
    | goHome i =>
      simp only [step, Option.map_eq_some_iff] at hs
      obtain ⟨t, hi, rfl⟩ := hs
      rw [hw' i t hi]
      exact (displayed_goHome h hf).pictured
    | goForward i can =>
      simp only [step, Option.map_eq_some_iff] at hs
      obtain ⟨t, hi, rfl⟩ := hs
      rw [hw' i t hi]
      exact (displayed_goForward can h hf).pictured
    | onPageStarted t url title now clock =>
      simp only [step, Option.map_eq_some_iff] at hs
      obtain ⟨x, _, rfl⟩ := hs
      have hd := (displayed_setCurWebUrl t (url.getD "") h).pictured
      unfold onPageStarted
      dsimp only
      split
      · exact hd
      · exact pictured_congr hd rfl rfl (frontView_recordPage ..)
    | onPageFinished t url =>
      simp only [step, Option.map_eq_some_iff] at hs
      obtain ⟨x, _, rfl⟩ := hs
      exact (displayed_setCurWebUrl t _ h).pictured
    | deliverTabView i =>
      exact pictured_deliver h.pictured (fun _ _ ↦ deliverTabView_pictures) hs
    | deliverShowingHome i =>
      exact pictured_deliver h.pictured (fun _ _ ↦ deliverShowingHome_pictures) hs
    | deliverTabCount i =>
      exact pictured_deliver h.pictured (fun _ _ ↦ deliverTabCount_pictures) hs

/-- A step with a smooth switch, or none, keeps the display. -/
theorem displayed_step {E : Env} {s s' : State} {e : Event} (h : s.Displayed) (hc : s.Smooth e)
    (hs : s.browse E e = some s') : s'.Displayed := by
  refine ⟨?_, pictured_step h hc hs⟩
  unfold browse at hs
  split at hs
  · cases hs
  · next hn =>
    rw [core_step hs]
    apply Core.inv_apply h.inv
    · intro he
      exact False.elim (hn (Or.inl he))
    · rintro t rfl
      simp only [step] at hs
      split at hs
      · next ht => exact ht
      · cases hs

/-- The screen with its first tab. -/
theorem displayed_opened : opened.Displayed where
  inv := by
    have hc : opened.core = Core.attach (core {}) := core_attach {}
    rw [hc]
    exact Core.inv_attach inv_core_init rfl
  pictured := ⟨_, ⟨0, true⟩, rfl, rfl, rfl, rfl, rfl⟩

/-- In every run of a screen whose switches of tabs are smooth, the screen shows the foreground
tab in every state in which nothing posted is outstanding. -/
theorem shown_of_smooth (E : Env) (es : List Event) (h : Along (browse E) Smooth opened es) :
    Always (browse E) Shown opened es := by
  have hd : Always (browse E) Displayed opened es :=
    always_of_along (fun _ _ _ hd hc hs ↦ displayed_step hd hc hs) displayed_opened h
  exact hd.imp fun _ hs ↦ hs.pictured.shown

private theorem smooth_of_stay {s : State} {e : Event} (h : s.switchesTo e = none) :
    s.Smooth e := by
  intro v hv
  rw [h] at hv
  cases hv

/-- A page is loaded in the only tab, and a second tab is opened after the way back home. -/
theorem shown_home_again :
    Along (browse plainEnv) Smooth opened [.loadUrl "https://a.test/", .deliverTabView 0,
        .goHome 0, .deliverTabView 0, .addTab] ∧
      Always (browse plainEnv) Shown opened [.loadUrl "https://a.test/", .deliverTabView 0,
        .goHome 0, .deliverTabView 0, .addTab] := by
  have h : Along (browse plainEnv) Smooth opened [.loadUrl "https://a.test/",
      .deliverTabView 0, .goHome 0, .deliverTabView 0, .addTab] := by
    iterate 4
      refine .cons rfl (smooth_of_stay rfl) ?_
    refine .cons rfl ?_ (along_nil _)
    intro v hv i host hi hh
    cases hv
    cases hi
    cases hh
    exact ⟨Or.inl rfl, rfl⟩
  exact ⟨h, shown_of_smooth plainEnv _ h⟩

/-- A new tab opened over a web page is on its home page, while the navigation bar stays at the
position of the old one. -/
theorem new_tab_not_shown :
    ¬ Always (browse plainEnv) Shown opened [.loadUrl "https://a.test/", .deliverTabView 0,
      .deliverShowingHome 0, .addTab, .deliverTabCount 0] := by
  intro h
  have hs := h.last rfl
  have hm := (hs 0 _ rfl rfl ⟨rfl, rfl, rfl⟩).2
  cases hm

end State
end FastSearch.Browser
