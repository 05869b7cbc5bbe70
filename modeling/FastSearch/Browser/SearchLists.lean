import FastSearch.Lib.EventSystem
import FastSearch.Lib.LiveData
import FastSearch.Browser.HistoryList

/-!
# The searched lists

The history, bookmark and read-list screens: `browser/history/HistoryModel.kt`,
`browser/bookmarkpage/BookmarkModel.kt` and `browser/readlistpage/ReadListModel.kt`. Every
change of the search text starts a coroutine of its own that reads the table and posts the
list it makes of the rows. The coroutines are neither cancelled nor told apart, and any of them
may read and post at any time. The rows a query gives are left to the database.
-/

namespace FastSearch.Browser

open EventSystem

/-- The two queries of a DAO, on a database that may change meanwhile. -/
structure ListDao (τ α : Type) where
  get : τ → List α
  search : τ → String → List α

/-- A view model: its DAO and its `listTrasfrom`. -/
structure ListModel (τ α β : Type) where
  dao : ListDao τ α
  listTrasfrom : List α → List β

/-- `BookmarkDB`, `database/BookmarkDB.kt:7`. -/
structure BookmarkDB where
  id : Int := 0
  title : Option String := some ""
  host : Option String := some ""
  iconUrl : Option String := some ""
  url : Option String := some ""
  deriving DecidableEq, Repr

/-- `BookmarkUiBean`, `browser/bookmarkpage/BookmarkUiBean.kt:8`. -/
structure BookmarkUiBean where
  title : Option String := some ""
  host : Option String := some ""
  url : Option String := some ""
  iconUrl : Option String := some ""
  bookmarkDB : BookmarkDB
  itemOrientationSwipe : ItemOrientation := .left
  deriving DecidableEq, Repr

/-- `ReadListDB`, `database/ReadListDB.kt:7`. -/
structure ReadListDB where
  id : Int := 0
  title : Option String := some ""
  host : Option String := some ""
  iconUrl : Option String := some ""
  url : Option String := some ""
  deriving DecidableEq, Repr

/-- `ReadListUiBean`, `browser/readlistpage/ReadListUiBean.kt:7`. -/
structure ReadListUiBean where
  title : Option String := some ""
  host : Option String := some ""
  url : Option String := some ""
  iconUrl : Option String := some ""
  readListDB : ReadListDB
  itemOrientationSwipe : ItemOrientation := .left
  deriving DecidableEq, Repr

namespace ListModel

variable {τ α β : Type}

/-- `HistoryModel`. -/
def history (C : Calendar) (dao : ListDao τ BrowserHistory) :
    ListModel τ BrowserHistory HistoryUiBean where
  dao := dao
  listTrasfrom := Browser.listTrasfrom C

/-- `BookmarkModel`, `browser/bookmarkpage/BookmarkModel.kt:35`. -/
def bookmark (dao : ListDao τ BookmarkDB) : ListModel τ BookmarkDB BookmarkUiBean where
  dao := dao
  listTrasfrom list := list.map fun l ↦
    { title := l.title, host := l.host, url := l.url, iconUrl := l.iconUrl, bookmarkDB := l }

/-- `ReadListModel`, `browser/readlistpage/ReadListModel.kt:41`. -/
def readList (dao : ListDao τ ReadListDB) : ListModel τ ReadListDB ReadListUiBean where
  dao := dao
  listTrasfrom list := list.map fun l ↦
    { title := l.title, host := l.host, url := l.url, iconUrl := l.iconUrl, readListDB := l }

/-- What a query reads: `refresh` all rows, `search` those that match a text that is not
empty. -/
def read (M : ListModel τ α β) (db : τ) : Option String → List α
  | none => M.dao.get db
  | some str => if str = "" then M.dao.get db else M.dao.search db str

end ListModel

/-- A coroutine of `refresh` (without a text) or `search`: the rows it has read, and whether it
has posted its list. -/
structure ListQuery (α : Type) where
  str : Option String
  rows : Option (List α) := none
  posted : Bool := false
  deriving DecidableEq, Repr

/-- The database, the queries in the order they were started, and the list of the screen. -/
structure ListScreen (τ α β : Type) where
  db : τ
  queries : List (ListQuery α) := []
  list : LiveData (List β) := {}

/-- What happens to a screen. -/
inductive ListEvent (τ : Type) where
  /-- The database changes. -/
  | change (db : τ)
  | refresh
  | search (str : String)
  /-- The `i`-th query reads its rows. -/
  | read (i : Nat)
  /-- The `i`-th query posts the list of its rows and is complete. -/
  | post (i : Nat)
  /-- The main thread delivers what was posted last. -/
  | deliver

namespace ListScreen

variable {τ α β : Type} (M : ListModel τ α β)

/-- `refresh` and `search` start a coroutine. -/
def launch (s : ListScreen τ α β) (str : Option String) : ListScreen τ α β :=
  { s with queries := s.queries ++ [{ str }] }

/-- One thing that happens. -/
def step (s : ListScreen τ α β) : ListEvent τ → Option (ListScreen τ α β)
  | .change db => some { s with db }
  | .refresh => some (s.launch none)
  | .search str => some (s.launch (some str))
  | .read i => s.queries[i]?.bind fun q ↦
      if q.rows.isSome then none
      else some { s with queries := s.queries.set i { q with rows := some (M.read s.db q.str) } }
  | .post i => s.queries[i]?.bind fun q ↦
      if q.posted then none
      else q.rows.map fun rows ↦
        { s with
          queries := s.queries.set i { q with posted := true }
          list := s.list.postValue (M.listTrasfrom rows) }
  | .deliver => s.list.deliver.map fun list ↦ { s with list }

/-- Every query is complete and everything posted has been delivered. -/
def Quiet (s : ListScreen τ α β) : Prop :=
  (∀ q ∈ s.queries, q.posted = true) ∧ s.list.Settled

/-- Once the screen is quiet it shows the list of the rows of the query started last. -/
def ShowsLast (s : ListScreen τ α β) : Prop :=
  s.Quiet → ∀ q, s.queries.getLast? = some q →
    ∃ rows, q.rows = some rows ∧ s.list.value = some (M.listTrasfrom rows)

/-- A query posts as the one started last, or before that one has posted. -/
def PostsInOrder (s : ListScreen τ α β) : ListEvent τ → Prop
  | .post i => i + 1 = s.queries.length ∨ ∀ q, s.queries.getLast? = some q → q.posted = false
  | _ => True

/-! ### The last post -/

/-- When the query started last has posted, its list is the one the screen ends up with. -/
def LastPosted (s : ListScreen τ α β) : Prop :=
  ∀ q, s.queries.getLast? = some q → q.posted = true →
    ∃ rows, q.rows = some rows ∧ s.list.latest = some (M.listTrasfrom rows)

variable {M}

theorem LastPosted.showsLast {s : ListScreen τ α β} (h : s.LastPosted M) : s.ShowsLast M := by
  rintro ⟨hq, hs⟩ q hl
  obtain ⟨rows, hr, he⟩ := h q hl (hq q (List.mem_of_getLast? hl))
  refine ⟨rows, hr, ?_⟩
  rw [← LiveData.latest_of_settled hs]
  exact he

theorem lastPosted_launch (s : ListScreen τ α β) (str : Option String) :
    (s.launch str).LastPosted M := by
  intro q hl hp
  have he : q = { str } := by simpa [launch] using hl.symm
  rw [he] at hp
  cases hp

private theorem getLast?_set {γ : Type} (l : List γ) (i : Nat) (a : γ) :
    (l.set i a).getLast? = if i + 1 = l.length then some a else l.getLast? := by
  rw [List.getLast?_eq_getElem?, List.length_set, List.getElem?_set, List.getLast?_eq_getElem?]
  by_cases h : i + 1 = l.length
  · have hi : i = l.length - 1 := by omega
    have hlt : i < l.length := by omega
    rw [if_pos h, if_pos hi, if_pos hlt]
  · rw [if_neg h]
    by_cases hi : i = l.length - 1
    · have hn : l = [] := List.eq_nil_of_length_eq_zero (by omega)
      subst hn
      simp
    · rw [if_neg hi]

/-- A query that has not read yet has not posted. -/
theorem lastPosted_read {s t : ListScreen τ α β} {i : Nat} (h : s.LastPosted M)
    (hs : s.step M (.read i) = some t) : t.LastPosted M := by
  obtain ⟨q, hq, hs⟩ := Option.bind_eq_some_iff.mp hs
  split at hs
  · cases hs
  · next hr =>
    cases hs
    intro p hl hp
    simp only [getLast?_set] at hl
    by_cases hi : i + 1 = s.queries.length
    · rw [if_pos hi] at hl
      cases hl
      have hlast : s.queries.getLast? = some q := by
        rw [List.getLast?_eq_getElem?, ← hi]
        exact hq
      obtain ⟨rows, he, _⟩ := h q hlast hp
      rw [he] at hr
      exact absurd rfl hr
    · rw [if_neg hi] at hl
      exact h p hl hp

theorem lastPosted_post {s t : ListScreen τ α β} {i : Nat} (hc : s.PostsInOrder (.post i))
    (hs : s.step M (.post i) = some t) : t.LastPosted M := by
  obtain ⟨q, hq, hs⟩ := Option.bind_eq_some_iff.mp hs
  split at hs
  · cases hs
  · obtain ⟨rows, hr, rfl⟩ := Option.map_eq_some_iff.mp hs
    intro p hl hp
    simp only [getLast?_set] at hl
    by_cases hi : i + 1 = s.queries.length
    · rw [if_pos hi] at hl
      cases hl
      exact ⟨rows, hr, rfl⟩
    · rw [if_neg hi] at hl
      rw [hc.resolve_left hi p hl] at hp
      cases hp

theorem lastPosted_step {s t : ListScreen τ α β} {e : ListEvent τ} (h : s.LastPosted M)
    (hc : s.PostsInOrder e) (hs : s.step M e = some t) : t.LastPosted M := by
  cases e with
  | change db =>
    cases hs
    exact h
  | refresh =>
    cases hs
    exact lastPosted_launch s none
  | search str =>
    cases hs
    exact lastPosted_launch s (some str)
  | read i => exact lastPosted_read h hs
  | post i => exact lastPosted_post hc hs
  | deliver =>
    obtain ⟨list, hl, rfl⟩ := Option.map_eq_some_iff.mp hs
    intro q hq hp
    obtain ⟨rows, hr, he⟩ := h q hq hp
    exact ⟨rows, hr, (LiveData.latest_deliver hl).trans he⟩

/-- In a run whose posts are in order, a screen that is quiet shows the list of the query
started last. -/
theorem showsLast_of_postsInOrder (M : ListModel τ α β) (db : τ) {es : List (ListEvent τ)}
    (h : Along (step M) PostsInOrder { db } es) : Always (step M) (ShowsLast M) { db } es := by
  have hi : LastPosted M { db } := by
    intro q hq
    cases hq
  exact (always_of_along (fun _ _ _ h hc hs ↦ lastPosted_step h hc hs) hi h).imp
    fun _ h ↦ h.showsLast

end ListScreen

/-- On the history, bookmark and read-list screens the list shown once all queries are complete
and delivered is that of the query started last, in every run in which a query posts as the
one started last or before that one has posted. -/
theorem lists_show_last_query {τ : Type} (C : Calendar) (history : ListDao τ BrowserHistory)
    (bookmark : ListDao τ BookmarkDB) (readList : ListDao τ ReadListDB) (db : τ)
    (es : List (ListEvent τ)) :
    (Along (ListScreen.step (.history C history)) ListScreen.PostsInOrder { db } es →
      Always (ListScreen.step (.history C history)) (ListScreen.ShowsLast (.history C history))
        { db } es) ∧
    (Along (ListScreen.step (.bookmark bookmark)) ListScreen.PostsInOrder { db } es →
      Always (ListScreen.step (.bookmark bookmark)) (ListScreen.ShowsLast (.bookmark bookmark))
        { db } es) ∧
    (Along (ListScreen.step (.readList readList)) ListScreen.PostsInOrder { db } es →
      Always (ListScreen.step (.readList readList)) (ListScreen.ShowsLast (.readList readList))
        { db } es) :=
  ⟨ListScreen.showsLast_of_postsInOrder _ db, ListScreen.showsLast_of_postsInOrder _ db,
    ListScreen.showsLast_of_postsInOrder _ db⟩

/-- Tables of the three screens. -/
structure ListTables where
  history : List BrowserHistory := []
  bookmark : List BookmarkDB := []
  readList : List ReadListDB := []

/-- `LIKE '%' || :str || '%'`, on texts in lower case and without wildcards. -/
def like (str : String) (text : Option String) : Bool :=
  text.any fun t ↦ t.toList.tails.any str.toList.isPrefixOf

/-- `BrowserHistoryDao` on these tables. -/
def historyDao : ListDao ListTables BrowserHistory where
  get db := db.history
  search db str := db.history.filter fun l ↦ like str l.title || like str l.host

/-- `BookmarkDao` on these tables. -/
def bookmarkDao : ListDao ListTables BookmarkDB where
  get db := db.bookmark
  search db str := db.bookmark.filter fun l ↦ like str l.title || like str l.host

/-- `ReadListDao` on these tables. -/
def readListDao : ListDao ListTables ReadListDB where
  get db := db.readList
  search db str := db.readList.filter fun l ↦ like str l.title || like str l.host

/-- Two bookmarks. -/
def twoBookmarks : ListTables where
  bookmark := [{ id := 2, title := some "news" }, { id := 1, title := some "maps" }]

/-- Two searches that read and post in their order. -/
def searchesInOrder : List (ListEvent ListTables) :=
  [.search "m", .read 0, .post 0, .search "n", .read 1, .post 1, .deliver]

/-- All three screens show the second search. -/
theorem shows_last_in_order :
    Always (ListScreen.step (.history twoDays historyDao))
      (ListScreen.ShowsLast (.history twoDays historyDao)) { db := twoBookmarks }
      searchesInOrder ∧
    Always (ListScreen.step (.bookmark bookmarkDao))
      (ListScreen.ShowsLast (.bookmark bookmarkDao)) { db := twoBookmarks } searchesInOrder ∧
    Always (ListScreen.step (.readList readListDao))
      (ListScreen.ShowsLast (.readList readListDao)) { db := twoBookmarks } searchesInOrder := by
  obtain ⟨hh, hb, hr⟩ := lists_show_last_query twoDays historyDao bookmarkDao readListDao
    twoBookmarks searchesInOrder
  refine ⟨hh ?_, hb ?_, hr ?_⟩
  all_goals
    refine .cons rfl trivial (.cons rfl trivial ?_)
    refine .cons rfl (Or.inl rfl) (.cons rfl trivial ?_)
    exact .cons rfl trivial (.cons rfl (Or.inl rfl) (.cons rfl trivial (along_nil _)))

/-- The first of two searches posts after the second, and its list is the one that stays. -/
theorem stale_list_shown :
    ¬ Always (ListScreen.step (.bookmark bookmarkDao))
      (ListScreen.ShowsLast (.bookmark bookmarkDao)) { db := twoBookmarks }
      [.search "m", .search "n", .read 0, .read 1, .post 1, .deliver, .post 0, .deliver] := by
  intro h
  have hs : ListScreen.ShowsLast (.bookmark bookmarkDao) _ := h.last rfl
  obtain ⟨rows, hr, hv⟩ := hs ⟨by decide, rfl⟩ _ rfl
  cases hr
  exact absurd hv (by decide)

end FastSearch.Browser
