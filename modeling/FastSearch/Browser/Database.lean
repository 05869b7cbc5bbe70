import FastSearch.Lib.RowTable

/-!
# History and recently-opened tables

The two Room tables a page load can write: `database/BrowserHistory.kt` and
`database/RecentlyOpenedDB.kt`, with the queries of their DAOs that the web engine uses.
Room's key generators and what the engine asks of `android.net.Uri` are parameters.
-/

namespace FastSearch.Browser

/-- `HOME_PLACEHOLDER_URL`, `browser/tab/WebTabImpl.kt:14`. -/
def homePlaceholderUrl : String := "file:///android_asset/discover_null_page.html"

/-- What the platform answers: `Uri.getHost`, `Uri.getScheme`, and the first number drawn from
`Random(Long.MAX_VALUE)`. -/
structure Platform where
  uriHost : String → Option String
  uriScheme : String → Option String
  seed : Int64

/-- `webIconUrlToLoadUrl`, `utils/OtherUtil.kt:120`; a missing part is printed as null. -/
def webIconUrlToLoadUrl (P : Platform) (url : Option String) : String :=
  ((url.bind P.uriScheme).getD "null") ++ "://" ++ ((url.bind P.uriHost).getD "null") ++
    "/favicon.ico"

/-- `BrowserHistory`, `database/BrowserHistory.kt:7`. -/
structure BrowserHistory where
  id : Int := 0
  title : Option String := some ""
  host : Option String := some ""
  iconUrl : Option String := some ""
  url : Option String := some ""
  systemTime : Int64
  deriving DecidableEq, Repr

/-- The table of visited pages. -/
abbrev HistoryTable := RowTable BrowserHistory BrowserHistory.id

/-- The row `onPageStarted` adds, `browser/engine/android/AndroidWebEngine.kt:59`. -/
def BrowserHistory.ofPage (P : Platform) (url title : Option String) (now : Int64) :
    BrowserHistory :=
  let row : BrowserHistory := { title, systemTime := now }
  match url with
  | some it => { row with url := some it, host := P.uriHost it
                          iconUrl := some (webIconUrlToLoadUrl P (some it)) }
  | none => row

/-- `BrowserHistoryDao.add`, `database/BrowserHistoryDao.kt:12`. -/
def HistoryTable.add (g : AutoKey BrowserHistory BrowserHistory.id) (t : HistoryTable)
    (value : BrowserHistory) : HistoryTable :=
  t.insert g (fun k ↦ { value with id := k }) fun _ ↦ rfl

/-- `RecentlyOpenedDB`, `database/RecentlyOpenedDB.kt:8`. -/
structure RecentlyOpenedDB where
  id : Int := 0
  title : Option String := some ""
  host : Option String := some ""
  iconUrl : Option String := some ""
  url : Option String := some ""
  time : Int64
  deriving DecidableEq, Repr

/-- The table of recently opened pages. -/
abbrev RecentlyTable := RowTable RecentlyOpenedDB RecentlyOpenedDB.id

namespace RecentlyOpenedDB

/-- A fresh row: its time is the first seeded random number plus the clock. -/
def new (P : Platform) (clock : Int64) : RecentlyOpenedDB := { time := P.seed + clock }

/-- The assignments in `updateRecentlyOpen`, `browser/engine/WebEngineViewModel.kt:43`. -/
def setPage (P : Platform) (r : RecentlyOpenedDB) (url title : Option String) :
    RecentlyOpenedDB :=
  { r with url, title, iconUrl := some (webIconUrlToLoadUrl P url), host := url.bind P.uriHost }

end RecentlyOpenedDB

namespace RecentlyTable

/-- `RecentlyOpenedDao.add`, `database/RecentlyOpenedDao.kt:8`. -/
def add (g : AutoKey RecentlyOpenedDB RecentlyOpenedDB.id) (t : RecentlyTable)
    (value : RecentlyOpenedDB) : RecentlyTable :=
  t.insert g (fun k ↦ { value with id := k }) fun _ ↦ rfl

/-- `RecentlyOpenedDao.get(t)`, `database/RecentlyOpenedDao.kt:13`: the row with that time and
the largest id. -/
def getByTime (t : RecentlyTable) (time : Int64) : Option RecentlyOpenedDB :=
  t.rows.foldl
    (fun best r ↦
      if r.time = time then
        match best with
        | some b => if b.id < r.id then some r else best
        | none => some r
      else best) none

end RecentlyTable

/-- `updateRecentlyOpen`, `browser/engine/WebEngineViewModel.kt:38`, on the engine's own row
object and the table. -/
def updateRecentlyOpen (P : Platform) (g : AutoKey RecentlyOpenedDB RecentlyOpenedDB.id)
    (own : Option RecentlyOpenedDB) (t : RecentlyTable) (url title : Option String)
    (clock : Int64) : Option RecentlyOpenedDB × RecentlyTable :=
  match own with
  | none =>
    let r := (RecentlyOpenedDB.new P clock).setPage P url title
    let t := t.add g r
    (t.getByTime r.time, t)
  | some r =>
    let r := r.setPage P url title
    (some r, t.update r)

/-! ### No row holds the home placeholder -/

/-- No visited page is the home placeholder. -/
def HistoryTable.HomeFree (t : HistoryTable) : Prop :=
  ∀ r ∈ t.rows, r.url ≠ some homePlaceholderUrl

/-- No recently opened page is the home placeholder. -/
def RecentlyTable.HomeFree (t : RecentlyTable) : Prop :=
  ∀ r ∈ t.rows, r.url ≠ some homePlaceholderUrl

/-- Adding the row of another page keeps the history free of the placeholder. -/
theorem HistoryTable.homeFree_add {g : AutoKey BrowserHistory BrowserHistory.id}
    {t : HistoryTable} {P : Platform} {url title : Option String} {now : Int64}
    (h : t.HomeFree) (hu : url ≠ some homePlaceholderUrl) :
    (t.add g (BrowserHistory.ofPage P url title now)).HomeFree := by
  intro r hr
  rcases RowTable.mem_insert.mp hr with hr | rfl
  · exact h r hr
  · cases url with
    | none =>
      change some "" ≠ some homePlaceholderUrl
      decide
    | some u => exact hu

/-- Writing another page keeps the recently-opened table free of the placeholder. -/
theorem RecentlyTable.homeFree_update {g : AutoKey RecentlyOpenedDB RecentlyOpenedDB.id}
    {t : RecentlyTable} {P : Platform} {own : Option RecentlyOpenedDB}
    {url title : Option String} {clock : Int64} (h : t.HomeFree)
    (hu : url ≠ some homePlaceholderUrl) :
    (updateRecentlyOpen P g own t url title clock).2.HomeFree := by
  cases own with
  | none =>
    intro r hr
    rcases RowTable.mem_insert.mp hr with hr | rfl
    · exact h r hr
    · exact hu
  | some own =>
    intro r hr
    rcases RowTable.mem_update.mp hr with ⟨hr, _⟩ | ⟨rfl, _⟩
    · exact h r hr
    · exact hu

end FastSearch.Browser
