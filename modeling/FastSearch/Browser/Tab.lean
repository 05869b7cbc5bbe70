import FastSearch.Lib.EventSystem
import FastSearch.Lib.LiveData
import FastSearch.Browser.Database

/-!
# Tabs, their manager and the browser screen

`browser/tab/WebTabImpl.kt`, `browser/tab/manager/TabManager.kt`, the page callbacks of
`browser/engine/android/AndroidWebEngine.kt` and the screen `browser/BrowserActivity.kt` with
its view model, all on the main thread. Tabs and screens are their numbers in creation order.
Every tab has an engine and a home page from its creation on, since `attach` is the first call
on it. What a `WebView` answers to `canGoBack` and `canGoForward` comes with the event. Titles,
progress, bookmarks and the read list decide nothing here and are left out.
-/

namespace FastSearch.Browser

open EventSystem

/-- The content of a tab: its home page or its web view. -/
structure View where
  tab : Nat
  isHome : Bool
  deriving DecidableEq, Repr

/-- `WebTabImpl` with its engine, `browser/tab/WebTabImpl.kt:16`. `isIncognitoMode`, `curWebUrl`
and `recentlyOpenedDB` are fields of the engine and its view model; `detached` counts the calls
of `detach`. -/
structure WebTab where
  mTabHost : Option Nat
  mIsHomePos : Bool := true
  isIncognitoMode : Bool := false
  curWebUrl : String := homePlaceholderUrl
  recentlyOpenedDB : Option RecentlyOpenedDB := none
  detached : Nat := 0
  deriving DecidableEq, Repr

/-- `WebTabImpl.detach`, `browser/tab/WebTabImpl.kt:103`. -/
def WebTab.detach (t : WebTab) : WebTab := { t with mTabHost := none, detached := t.detached + 1 }

/-- `BrowserActivity` and `BrowserViewModel`. `content` is the child of `tabContentRoot`;
`tabCount` is the last argument of `onTabCountChanged`. -/
structure BrowserHost where
  curTab : LiveData Nat := {}
  curTabView : LiveData View := {}
  curShowingHomePage : LiveData Bool := ⟨some true, none⟩
  totalTabCount : LiveData String := {}
  content : Option View := none
  tabCount : Option Nat := none
  deriving DecidableEq, Repr

namespace BrowserHost

/-- `onTabChanged`, `browser/BrowserActivity.kt:97`, and the observer of `curTab`. -/
def onTabChanged (h : BrowserHost) (view : View) : BrowserHost :=
  { h with curTab := h.curTab.setValue view.tab, content := some view }

/-- `onTabContentViewChanged`, `browser/BrowserActivity.kt:85`. -/
def onTabContentViewChanged (h : BrowserHost) (view : View) (isHomePage : Bool) : BrowserHost :=
  { h with curShowingHomePage := h.curShowingHomePage.postValue isHomePage
           curTabView := h.curTabView.postValue view }

/-- `onTabCountChanged`, `browser/BrowserActivity.kt:103`. -/
def onTabCountChanged (h : BrowserHost) (count : Nat) : BrowserHost :=
  let text := if 1 < count then (if 99 < count then "99+" else toString count) else ""
  { h with totalTabCount := h.totalTabCount.postValue text, tabCount := some count }

/-- A posted view reaches the observer of `curTabView`. -/
def deliverTabView (h : BrowserHost) : Option BrowserHost :=
  h.curTabView.deliver.map fun l ↦ { h with curTabView := l, content := l.value }

/-- A posted position reaches the navigation bar. -/
def deliverShowingHome (h : BrowserHost) : Option BrowserHost :=
  h.curShowingHomePage.deliver.map fun l ↦ { h with curShowingHomePage := l }

/-- A posted count reaches the navigation bar. -/
def deliverTabCount (h : BrowserHost) : Option BrowserHost :=
  h.totalTabCount.deliver.map fun l ↦ { h with totalTabCount := l }

end BrowserHost

/-- A load posted by `addTabAndLoadTagUrl`, with the tab that call created. -/
structure DelayedLoad where
  created : Option Nat
  incognito : Bool
  url : String
  deriving DecidableEq, Repr

/-- The tabs and screens created so far, `TabManager`, the tables, the delayed loads, and two
records: the `loadUrl` calls on engines and the tabs whose host was told of a new content. -/
structure State where
  tabs : List WebTab := []
  hosts : List BrowserHost := []
  mWebTabs : List Nat := []
  mHost : Option Nat := none
  mForegroundTab : Option Nat := none
  history : HistoryTable := RowTable.empty
  recently : RecentlyTable := RowTable.empty
  delayed : List DelayedLoad := []
  loads : List (Nat × String) := []
  viewChanges : List Nat := []

namespace State

/-- Write to a tab. -/
def setTab (s : State) (t : Nat) (f : WebTab → WebTab) : State :=
  { s with tabs := s.tabs.modify t f }

/-- Call a host, if there is one. -/
def tellHost (s : State) (host : Option Nat) (f : BrowserHost → BrowserHost) : State :=
  match host with
  | some h => { s with hosts := s.hosts.modify h f }
  | none => s

/-- Note that a tab's host was told of a new content. -/
def noteViewChange (s : State) (t : Nat) : State := { s with viewChanges := s.viewChanges ++ [t] }

/-- Note a `loadUrl` call on the engine of a tab. -/
def noteLoad (s : State) (t : Nat) (url : String) : State :=
  { s with loads := s.loads ++ [(t, url)] }

/-! ### A tab -/

/-- `changeViewTo`, `browser/tab/WebTabImpl.kt:73`; `goHome` and `goWebResult` are this with
true and false. -/
def changeViewTo (s : State) (t : Nat) (isHome : Bool) : State :=
  match s.tabs[t]? with
  | none => s
  | some tab =>
    if tab.mIsHomePos = isHome then s
    else
      let s := s.setTab t fun tab ↦ { tab with mIsHomePos := isHome }
      match tab.mTabHost with
      | none => s
      | some h =>
        (s.tellHost (some h) (·.onTabContentViewChanged ⟨t, isHome⟩ isHome)).noteViewChange t

/-- `loadUrl`, `browser/tab/WebTabImpl.kt:79`; `ensureWebResult` leaves the home position. -/
def loadUrl (s : State) (t : Nat) (url : String) : State :=
  (s.changeViewTo t false).noteLoad t url

/-- The home buttons, `browser/BrowserViewModel.kt:30` and
`browser/tab/home/HomePageViewModel.kt:25`. -/
def goHome (s : State) (t : Nat) : State :=
  (s.loadUrl t homePlaceholderUrl).changeViewTo t true

/-- `goForward`, `browser/tab/WebTabImpl.kt:28`. -/
def goForward (s : State) (t : Nat) (canGoForward : Bool) : State :=
  match s.tabs[t]? with
  | some tab => if tab.mIsHomePos && canGoForward then s.changeViewTo t false else s
  | none => s

/-- `onBackPressed`, `browser/tab/WebTabImpl.kt:113`. -/
def onBackPressed (s : State) (t : Nat) (canGoBack : Bool) : State :=
  if canGoBack then s else s.changeViewTo t true

/-- `getCurView`, `browser/tab/WebTabImpl.kt:99`. -/
def getCurView (s : State) (t : Nat) : Option View :=
  s.tabs[t]?.map fun tab ↦ ⟨t, tab.mIsHomePos⟩

/-! ### The tab manager -/

/-- `tabCountChanged`, `browser/tab/manager/TabManager.kt:128`. -/
def tabCountChanged (s : State) : State :=
  s.tellHost s.mHost (·.onTabCountChanged s.mWebTabs.length)

/-- `changeToTab`, `browser/tab/manager/TabManager.kt:111`. -/
def changeToTab (s : State) (target : Nat) : State :=
  let s := { s with mForegroundTab := some target }
  match s.getCurView target with
  | some view => s.tellHost s.mHost (·.onTabChanged view)
  | none => s

/-- `addTab` and `addIncognitoTab`, `browser/tab/manager/TabManager.kt:38` and `:47`. The engine
loads the home placeholder when it is created. -/
def addTab (s : State) (isIncognitoMode : Bool) : State :=
  match s.mHost with
  | none => s
  | some h =>
    let id := s.tabs.length
    let newTab : WebTab := { mTabHost := some h, isIncognitoMode }
    let s := { s with
      tabs := s.tabs ++ [newTab]
      loads := s.loads ++ [(id, homePlaceholderUrl)]
      mWebTabs := s.mWebTabs ++ [id] }
    (s.changeToTab id).tabCountChanged

/-- `attach`, `browser/tab/manager/TabManager.kt:25`, called by a new screen; `ensureTab` adds
a tab if there is none. -/
def attach (s : State) : State :=
  let s := { s with hosts := s.hosts ++ [{}], mHost := some s.hosts.length }
  if s.mWebTabs = [] then s.addTab false else s

/-- The tab is detached and leaves the list. -/
def dropTab (s : State) (t : Nat) : State :=
  { s.setTab t WebTab.detach with mWebTabs := s.mWebTabs.erase t }

/-- The foreground after a removal, `browser/tab/manager/TabManager.kt:120`: without a tab left
`ensureTab` adds one, otherwise the first one comes to the front. -/
def refocus (s : State) (removed : Nat) : State :=
  if s.mForegroundTab = some removed then
    match s.mWebTabs with
    | [] => s.addTab false
    | first :: _ => s.changeToTab first
  else s

/-- `removeTab`, `browser/tab/manager/TabManager.kt:116`. -/
def removeTab (s : State) (removed : Nat) : State :=
  if removed ∈ s.mWebTabs then ((s.dropTab removed).refocus removed).tabCountChanged else s

/-- `detach`, `browser/tab/manager/TabManager.kt:132`. -/
def detach (s : State) : State :=
  { s with
    mHost := none
    tabs := s.mWebTabs.foldl (fun tabs t ↦ tabs.modify t WebTab.detach) s.tabs
    mWebTabs := [] }

/-- The call made on the foreground tab, if there is one. -/
def onForeground (s : State) (f : State → Nat → State) : State :=
  match s.mForegroundTab with
  | some t => f s t
  | none => s

/-- `addTabAndLoadTagUrl` and its incognito variant, `browser/tab/manager/TabManager.kt:87`. -/
def addTabAndLoadTagUrl (s : State) (incognito : Bool) (url : String) : State :=
  let created := s.mHost.map fun _ ↦ s.tabs.length
  let s := s.addTab incognito
  { s with delayed := s.delayed ++ [⟨created, incognito, url⟩] }

/-! ### The page callbacks of an engine -/

/-- `setCurWebUrl`, `browser/engine/WebEngineViewModel.kt:29`, in the engine of tab `t`. -/
def setCurWebUrl (s : State) (t : Nat) (url : String) : State :=
  (s.setTab t fun tab ↦ { tab with curWebUrl := url }).onForeground fun s f ↦
    s.changeViewTo f (url == homePlaceholderUrl)

end State

/-- The platform and Room's key generators. -/
structure Env where
  platform : Platform
  historyKey : AutoKey BrowserHistory BrowserHistory.id
  recentlyKey : AutoKey RecentlyOpenedDB RecentlyOpenedDB.id

/-- A platform without host names, and Room's usual numbering. -/
def plainEnv : Env where
  platform := ⟨fun _ ↦ none, fun _ ↦ none, 0⟩
  historyKey := AutoKey.succMax BrowserHistory.id
  recentlyKey := AutoKey.succMax RecentlyOpenedDB.id

namespace State

/-- The two table writes of `onPageStarted`, `browser/engine/android/AndroidWebEngine.kt:58`. -/
def recordPage (E : Env) (s : State) (t : Nat) (tab : WebTab) (url title : Option String)
    (now clock : Int64) : State :=
  let row := BrowserHistory.ofPage E.platform url title now
  let (own, recently) := updateRecentlyOpen E.platform E.recentlyKey tab.recentlyOpenedDB
    s.recently url title clock
  { s.setTab t fun tab ↦ { tab with recentlyOpenedDB := own } with
    history := s.history.add E.historyKey row
    recently := recently }

/-- `onPageStarted`, `browser/engine/android/AndroidWebEngine.kt:51`. -/
def onPageStarted (E : Env) (s : State) (t : Nat) (tab : WebTab) (url title : Option String)
    (now clock : Int64) : State :=
  let s := s.setCurWebUrl t (url.getD "")
  if url = some homePlaceholderUrl ∨ tab.isIncognitoMode then s
  else s.recordPage E t tab url title now clock

end State

/-- The steps of the browser. A screen appears as the number of its activity. -/
inductive Event where
  /-- A screen is created. -/
  | attach
  /-- A screen is destroyed. -/
  | detach
  | addTab
  | addIncognitoTab
  /-- The user picks a tab from `getAllTabs`. -/
  | changeToTab (target : Nat)
  | removeTab (removed : Nat)
  | addTabAndLoadTagUrl (incognito : Bool) (url : String)
  /-- The coroutine of the `i`-th delayed load resumes. -/
  | delayedLoad (i : Nat)
  /-- `TabManager.loadUrl`, or a bookmark on the home page. -/
  | loadUrl (url : String)
  /-- A search from the search screen. -/
  | searchContent (queryUrl content : String)
  /-- The home button of the web page. -/
  | pageGoHome
  /-- The home button of a screen. -/
  | goHome (host : Nat)
  /-- The forward button of a screen. -/
  | goForward (host : Nat) (canGoForward : Bool)
  /-- The system's back button. -/
  | back (canGoBack : Bool)
  | onPageStarted (tab : Nat) (url title : Option String) (now clock : Int64)
  | onPageFinished (tab : Nat) (url : Option String)
  | deliverTabView (host : Nat)
  | deliverShowingHome (host : Nat)
  | deliverTabCount (host : Nat)
  deriving DecidableEq, Repr

namespace State

/-- The tab a screen works on, `browser/BrowserViewModel.kt:17`. -/
def mWebTab (s : State) (host : Nat) : Option Nat := s.hosts[host]?.bind (·.curTab.value)

/-- A posted value of a screen is delivered. -/
def deliver (s : State) (host : Nat) (f : BrowserHost → Option BrowserHost) : Option State :=
  (s.hosts[host]?.bind f).map fun h ↦ { s with hosts := s.hosts.set host h }

/-- One atomic step; `none` when the event cannot occur. -/
def step (E : Env) (s : State) : Event → Option State
  | .attach => some s.attach
  | .detach => some s.detach
  | .addTab => some (s.addTab false)
  | .addIncognitoTab => some (s.addTab true)
  | .changeToTab target =>
    if target ∈ s.mWebTabs then some (s.changeToTab target) else none
  | .removeTab removed => some (s.removeTab removed)
  | .addTabAndLoadTagUrl incognito url => some (s.addTabAndLoadTagUrl incognito url)
  | .delayedLoad i =>
    s.delayed[i]?.map fun d ↦
      { s with delayed := s.delayed.eraseIdx i }.onForeground (·.loadUrl · d.url)
  | .loadUrl url => some (s.onForeground (·.loadUrl · url))
  | .searchContent queryUrl content => some (s.onForeground (·.loadUrl · (queryUrl ++ content)))
  | .pageGoHome => some (s.onForeground goHome)
  | .goHome host => (s.mWebTab host).map s.goHome
  | .goForward host can => (s.mWebTab host).map (s.goForward · can)
  | .back can => some (s.onForeground (·.onBackPressed · can))
  | .onPageStarted t url title now clock =>
    s.tabs[t]?.map fun tab ↦ s.onPageStarted E t tab url title now clock
  | .onPageFinished t url => s.tabs[t]?.map fun _ ↦ s.setCurWebUrl t (url.getD "")
  | .deliverTabView host => s.deliver host BrowserHost.deliverTabView
  | .deliverShowingHome host => s.deliver host BrowserHost.deliverShowingHome
  | .deliverTabCount host => s.deliver host BrowserHost.deliverTabCount

end State
end FastSearch.Browser
