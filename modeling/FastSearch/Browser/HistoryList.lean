import Mathlib.Data.Int.Order.Basic
import FastSearch.Lib.Headings
import FastSearch.Browser.Database

/-!
# The history list

`listTrasfrom` of `browser/history/HistoryModel.kt` with the date functions of
`utils/OtherUtil.kt`: the rows of a query in their order, with a title in front of the rows of
each date. What `Calendar` and `SimpleDateFormat` answer is a parameter.
-/

namespace FastSearch.Browser

open Headings

/-- `Calendar.DAY_OF_WEEK`. -/
inductive DayOfWeek where
  | sunday
  | monday
  | tuesday
  | wednesday
  | thursday
  | friday
  | saturday
  deriving DecidableEq, Repr

/-- What the platform makes of a time in the device's zone: the day of the week and the texts
of the two formats. -/
structure Calendar where
  dayOfWeek : Int64 → DayOfWeek
  /-- The format of month, day and year. -/
  date : Int64 → String
  /-- The format of hour and minute. -/
  time : Int64 → String

namespace Calendar

/-- `getWeek`, `utils/OtherUtil.kt:132`. -/
def getWeek (C : Calendar) (time : Int64) : String :=
  match C.dayOfWeek time with
  | .sunday => "Sunday"
  | .monday => "Monday"
  | .tuesday => "Tuesday"
  | .wednesday => "Wednesday"
  | .thursday => "Thursday"
  | .friday => "Friday"
  | .saturday => "Saturday"

/-- `timeToString`, `utils/OtherUtil.kt:106`. -/
def timeToString (C : Calendar) (systemTime : Int64) : String := C.date systemTime

/-- `getDate`, `utils/OtherUtil.kt:111`. -/
def getDate (C : Calendar) (systemTime : Int64) : String :=
  C.getWeek systemTime ++ ", " ++ C.timeToString systemTime

/-- `getTime`, `utils/OtherUtil.kt:115`. -/
def getTime (C : Calendar) (systemTime : Int64) : String := C.time systemTime

/-- The calendar day is monotone in the time, and the date tells the days apart. -/
structure Days (C : Calendar) (day : Int64 → Int) : Prop where
  mono : ∀ s t, s ≤ t → day s ≤ day t
  getDate_eq_iff : ∀ s t, C.getDate s = C.getDate t ↔ day s = day t

/-- A date is never the empty text. -/
theorem getDate_ne_empty (C : Calendar) (systemTime : Int64) : C.getDate systemTime ≠ "" := by
  simp [getDate]

end Calendar

/-- `ItemOrientation`, as far as the list uses it. -/
inductive ItemOrientation where
  | none
  | left
  deriving DecidableEq, Repr

/-- `HistoryUiBean`, `browser/history/HistoryUiBean.kt:7`. -/
structure HistoryUiBean where
  isTitle : Bool
  title : Option String := some ""
  timeLeft : Option String := some ""
  browserHistory : Option BrowserHistory := none
  itemOrientationSwipe : ItemOrientation := .left
  deriving DecidableEq, Repr

namespace HistoryUiBean

/-- The title `listTrasfrom` adds for a date. -/
def ofDate (date : String) : HistoryUiBean where
  isTitle := true
  title := some date
  itemOrientationSwipe := .none

/-- The item `listTrasfrom` adds for a row. -/
def ofRow (C : Calendar) (l : BrowserHistory) : HistoryUiBean where
  isTitle := false
  title := l.title
  browserHistory := some l
  timeLeft := some (C.getTime l.systemTime)

end HistoryUiBean

/-- `listTrasfrom`, `browser/history/HistoryModel.kt:40`, one pass with the current title. -/
def listTrasfrom (C : Calendar) (list : List BrowserHistory) : List HistoryUiBean :=
  (list.foldl
    (fun (curTitle, result) l ↦
      let date := C.getDate l.systemTime
      let (curTitle, result) :=
        if curTitle ≠ date then (date, result ++ [HistoryUiBean.ofDate date])
        else (curTitle, result)
      (curTitle, result ++ [HistoryUiBean.ofRow C l]))
    (("", []) : String × List HistoryUiBean)).2

/-- The date of a row. -/
def BrowserHistory.dateOf (C : Calendar) (l : BrowserHistory) : String := C.getDate l.systemTime

/-- The rows of a list with a title for each date, after the title `cur`. -/
def titled (C : Calendar) (cur : String) (list : List BrowserHistory) : List HistoryUiBean :=
  insertHeadings (BrowserHistory.dateOf C) HistoryUiBean.ofDate (HistoryUiBean.ofRow C) cur list

private theorem foldl_titled (C : Calendar) (list : List BrowserHistory) (cur : String)
    (result : List HistoryUiBean) :
    (list.foldl
      (fun (curTitle, result) l ↦
        let date := C.getDate l.systemTime
        let (curTitle, result) :=
          if curTitle ≠ date then (date, result ++ [HistoryUiBean.ofDate date])
          else (curTitle, result)
        (curTitle, result ++ [HistoryUiBean.ofRow C l]))
      (cur, result)).2 = result ++ titled C cur list := by
  induction list generalizing cur result with
  | nil => simp [titled, insertHeadings]
  | cons l list ih =>
    rw [List.foldl_cons]
    by_cases h : cur = C.getDate l.systemTime
    · simp only [h, ne_eq, not_true, if_false]
      rw [ih]
      simp [titled, insertHeadings, BrowserHistory.dateOf]
    · simp only [h, ne_eq, not_false_iff, if_true]
      rw [ih]
      simp [titled, insertHeadings, BrowserHistory.dateOf, Ne.symm h]

theorem listTrasfrom_eq_titled (C : Calendar) (list : List BrowserHistory) :
    listTrasfrom C list = titled C "" list := foldl_titled C list "" []

/-! ### Rows under their titles -/

/-- The item stands under a title with its date, and only rows of this date in between. -/
def UnderItsTitle (C : Calendar) (pre : List HistoryUiBean) (b : HistoryUiBean) : Prop :=
  ∃ l, b.browserHistory = some l ∧
    ∃ front t between, pre = front ++ t :: between ∧
      t.isTitle = true ∧ t.title = some (C.getDate l.systemTime) ∧
      ∀ x ∈ between, x.isTitle = false ∧
        ∃ r, x.browserHistory = some r ∧ C.getDate r.systemTime = C.getDate l.systemTime

/-- The texts of the titles. -/
def titles (items : List HistoryUiBean) : List (Option String) :=
  (items.filter (·.isTitle)).map (·.title)

/-- The order of the queries: newest first. -/
def NewestFirst (list : List BrowserHistory) : Prop :=
  list.Pairwise fun a b ↦ b.systemTime ≤ a.systemTime

theorem filter_listTrasfrom (C : Calendar) (list : List BrowserHistory) :
    (listTrasfrom C list).filter (fun b ↦ !b.isTitle) = list.map (HistoryUiBean.ofRow C) := by
  rw [listTrasfrom_eq_titled]
  exact filter_items (fun _ ↦ rfl) (fun _ ↦ rfl) "" list

/-- The titles shown by any number of rows end with the date of the last row. -/
private theorem exists_last_title (C : Calendar) {list : List BrowserHistory} (hn : list ≠ []) :
    ∃ (pre : List HistoryUiBean) (m : List BrowserHistory),
      titled C "" list =
        pre ++ .ofDate (lastLabel (BrowserHistory.dateOf C) "" list) :: m.map (.ofRow C) ∧
      ∀ a ∈ m, BrowserHistory.dateOf C a = lastLabel (BrowserHistory.dateOf C) "" list :=
  exists_last_heading (fun a _ ↦ C.getDate_ne_empty a.systemTime) hn

theorem underItsTitle (C : Calendar) {list : List BrowserHistory} {pre post : List HistoryUiBean}
    {b : HistoryUiBean} (h : listTrasfrom C list = pre ++ b :: post) (hb : b.isTitle = false) :
    UnderItsTitle C pre b := by
  rw [listTrasfrom_eq_titled] at h
  obtain ⟨l₁, l, l₂, rfl, rfl, hpre, _⟩ := split_at_item (fun _ ↦ rfl) h hb
  refine ⟨l, rfl, ?_⟩
  by_cases hl : BrowserHistory.dateOf C l = lastLabel (BrowserHistory.dateOf C) "" l₁
  · rw [entry, if_pos hl] at hpre
    have hn : l₁ ≠ [] := by
      rintro rfl
      exact C.getDate_ne_empty l.systemTime hl
    obtain ⟨front, m, he, hm⟩ := exists_last_title C hn
    refine ⟨front, _, m.map (.ofRow C), (List.append_cancel_right hpre).trans he, rfl, ?_, ?_⟩
    · rw [← hl]
      rfl
    · intro x hx
      obtain ⟨r, hr, rfl⟩ := List.mem_map.mp hx
      exact ⟨rfl, r, rfl, (hm r hr).trans hl.symm⟩
  · rw [entry, if_neg hl] at hpre
    refine ⟨titled C "" l₁, .ofDate (C.getDate l.systemTime), [], ?_, rfl, rfl, by simp⟩
    apply (List.append_left_inj [HistoryUiBean.ofRow C l]).mp
    rw [hpre]
    simp [titled, BrowserHistory.dateOf]

theorem row_after_title (C : Calendar) {list : List BrowserHistory}
    {pre post : List HistoryUiBean} {t : HistoryUiBean}
    (h : listTrasfrom C list = pre ++ t :: post) (ht : t.isTitle = true) :
    ∃ b post', post = b :: post' ∧ b.isTitle = false := by
  rw [listTrasfrom_eq_titled] at h
  obtain ⟨l, post', rfl⟩ := item_after_heading (fun _ ↦ rfl) h ht
  exact ⟨_, post', rfl, rfl⟩

/-! ### One title for each date -/

theorem titles_listTrasfrom (C : Calendar) (list : List BrowserHistory) :
    titles (listTrasfrom C list) =
      ((list.map (BrowserHistory.dateOf C)).destutter' (· ≠ ·) "").tail.map some := by
  have hf : (titled C "" list).filter (·.isTitle) =
      ((list.map (BrowserHistory.dateOf C)).destutter' (· ≠ ·) "").tail.map .ofDate :=
    filter_headings (fun _ ↦ rfl) (fun _ ↦ rfl) "" list
  rw [titles, listTrasfrom_eq_titled, hf, List.map_map]
  rfl

/-- A date is among the titles exactly when a row has it. -/
theorem mem_titles (C : Calendar) (list : List BrowserHistory) (date : String) :
    some date ∈ titles (listTrasfrom C list) ↔ ∃ l ∈ list, C.getDate l.systemTime = date := by
  constructor
  · intro h
    rw [titles_listTrasfrom] at h
    obtain ⟨d, hd, he⟩ := List.mem_map.mp h
    obtain rfl : d = date := Option.some.inj he
    have hs : List.Sublist ((list.map (BrowserHistory.dateOf C)).destutter' (· ≠ ·) "").tail
        (list.map (BrowserHistory.dateOf C)) := (List.destutter'_sublist _ _ _).tail
    exact List.mem_map.mp (hs.subset hd)
  · rintro ⟨l, hl, rfl⟩
    obtain ⟨l₁, l₂, rfl⟩ := List.append_of_mem hl
    have hn : l₁ ++ [l] ≠ [] := by simp
    obtain ⟨pre, m, he, _⟩ := exists_last_title C hn
    have ht : listTrasfrom C (l₁ ++ l :: l₂) =
        titled C "" (l₁ ++ [l]) ++ titled C (C.getDate l.systemTime) l₂ := by
      rw [listTrasfrom_eq_titled, List.append_cons]
      refine (insertHeadings_append "" _ _).trans ?_
      rw [lastLabel_append]
      rfl
    rw [titles, ht, he, lastLabel_append]
    simp only [List.filter_append, List.map_append, List.mem_append, List.filter_cons]
    exact Or.inl (Or.inr List.mem_cons_self)

/-- In a list sorted by time no date has two titles. -/
theorem nodup_titles {C : Calendar} {day : Int64 → Int} (hd : C.Days day)
    {list : List BrowserHistory} (hs : NewestFirst list) :
    (titles (listTrasfrom C list)).Nodup := by
  rw [titles_listTrasfrom]
  refine List.Nodup.map (fun _ _ h ↦ Option.some.inj h) ?_
  cases list with
  | nil => exact List.nodup_nil
  | cons l list =>
    have hl : "" ≠ BrowserHistory.dateOf C l := (C.getDate_ne_empty l.systemTime).symm
    rw [List.map_cons, List.destutter'_cons_pos _ hl]
    have hk : ∀ a b : BrowserHistory, BrowserHistory.dateOf C a = BrowserHistory.dateOf C b ↔
        day a.systemTime = day b.systemTime := fun a b ↦ hd.getDate_eq_iff _ _
    exact nodup_destutter' hk (hs.imp fun h ↦ hd.mono _ _ h)

/-- Without its titles the list is the rows in their order, every row stands under a title
with its date, and every title is followed by a row. When the rows are sorted by time, newest
first, every date has exactly one title. -/
theorem listTrasfrom_grouped (C : Calendar) (list : List BrowserHistory) :
    (listTrasfrom C list).filter (fun b ↦ !b.isTitle) = list.map (HistoryUiBean.ofRow C) ∧
    (∀ pre b post, listTrasfrom C list = pre ++ b :: post → b.isTitle = false →
      UnderItsTitle C pre b) ∧
    (∀ pre t post, listTrasfrom C list = pre ++ t :: post → t.isTitle = true →
      ∃ b post', post = b :: post' ∧ b.isTitle = false) ∧
    ∀ day, C.Days day → NewestFirst list →
      (titles (listTrasfrom C list)).Nodup ∧
        ∀ date, some date ∈ titles (listTrasfrom C list) ↔
          ∃ l ∈ list, C.getDate l.systemTime = date :=
  ⟨filter_listTrasfrom C list, fun _ _ _ h hb ↦ underItsTitle C h hb,
    fun _ _ _ h ht ↦ row_after_title C h ht,
    fun _ hd hs ↦ ⟨nodup_titles hd hs, mem_titles C list⟩⟩

/-- The first two days of 1970 in universal time. -/
def twoDays : Calendar where
  dayOfWeek t := if t < 86400000 then .thursday else .friday
  date t := if t < 86400000 then "01, 01, 1970" else "01, 02, 1970"
  time t := if t < 86400000 then "01:00 AM" else "00:00 AM"

/-- The number of the day in these two days. -/
def dayNumber (t : Int64) : Int := if t < 86400000 then 0 else 1

theorem days_twoDays : twoDays.Days dayNumber where
  mono := by
    intro s t h
    unfold dayNumber
    by_cases ht : t < 86400000
    · have hs : s < 86400000 := Int64.lt_of_le_of_lt h ht
      simp [hs, ht]
    · by_cases hs : s < 86400000 <;> simp [hs, ht]
  getDate_eq_iff := by
    intro s t
    unfold dayNumber Calendar.getDate Calendar.getWeek Calendar.timeToString twoDays
    by_cases hs : s < 86400000 <;> by_cases ht : t < 86400000 <;> simp [hs, ht]

/-- Two rows of the second day and one of the first. -/
def threeRows : List BrowserHistory :=
  [{ id := 3, systemTime := 86400000 }, { id := 2, systemTime := 86400000 },
    { id := 1, systemTime := 3600000 }]

theorem newestFirst_threeRows : NewestFirst threeRows := by
  unfold NewestFirst threeRows
  decide

/-- The three rows are shown under two titles. -/
theorem titles_three_rows :
    NewestFirst threeRows ∧
      titles (listTrasfrom twoDays threeRows) =
        [some "Friday, 01, 02, 1970", some "Thursday, 01, 01, 1970"] ∧
      (titles (listTrasfrom twoDays threeRows)).Nodup :=
  ⟨newestFirst_threeRows, by decide,
    ((listTrasfrom_grouped twoDays threeRows).2.2.2 dayNumber days_twoDays
      newestFirst_threeRows).1⟩

end FastSearch.Browser
