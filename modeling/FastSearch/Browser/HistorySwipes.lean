import FastSearch.Lib.EventSystem
import FastSearch.Browser.HistoryList

/-!
# Swiping history entries away

`onSwiped` and `handleTitle` of `browser/history/BrowserHistoryActivity.kt`. A swipe deletes
the row, the base class removes the item at its position, and `handleTitle` removes a title
that is left without rows. It compares the position with the list after the removal, so an
item that is now last is taken for the end of the list. Each `handleTitle` runs before the
next swipe.
-/

namespace FastSearch.Browser

open EventSystem Headings

/-- The result of a query: newest first, and the ids are primary keys. -/
structure HistoryRows where
  rows : List BrowserHistory
  newestFirst : NewestFirst rows
  ids_nodup : (rows.map (·.id)).Nodup

/-- The rows that are left and the adapter's list. -/
structure HistoryScreen where
  rows : List BrowserHistory
  models : List HistoryUiBean
  deriving DecidableEq, Repr

/-- The item at the position is a title. -/
def isTitleAt (models : List HistoryUiBean) (position : Nat) : Bool :=
  models[position]?.any (·.isTitle)

/-- `handleTitle`, `browser/history/BrowserHistoryActivity.kt:109`. -/
def handleTitle (models : List HistoryUiBean) (position : Nat) : List HistoryUiBean :=
  let size := models.length
  if position > 0 then
    if position < size - 1 then
      if isTitleAt models (position - 1) && isTitleAt models position then
        models.eraseIdx (position - 1)
      else models
    else
      if isTitleAt models (position - 1) then models.eraseIdx (position - 1) else models
  else models

namespace HistoryScreen

/-- The screen when the list is first shown. -/
def start (C : Calendar) (r : HistoryRows) : HistoryScreen where
  rows := r.rows
  models := listTrasfrom C r.rows

/-- `onSwiped`, `browser/history/BrowserHistoryActivity.kt:57`, with the `handleTitle` it
starts. The row is deleted by its primary key. -/
def onSwiped (s : HistoryScreen) (position : Nat) (data : HistoryUiBean) : HistoryScreen :=
  match data.browserHistory with
  | some history =>
    { rows := s.rows.filter (·.id ≠ history.id)
      models := handleTitle (s.models.eraseIdx position) position }
  | none => { s with models := s.models.eraseIdx position }

/-- A swipe at a position; an item with orientation `NONE` cannot be swiped. -/
def step (s : HistoryScreen) (position : Nat) : Option HistoryScreen :=
  s.models[position]?.bind fun data ↦
    if data.itemOrientationSwipe = .none then none else some (s.onSwiped position data)

/-- The adapter's list is what a rebuild of the remaining rows gives. -/
def Rebuilt (C : Calendar) (s : HistoryScreen) : Prop := s.models = listTrasfrom C s.rows

instance (C : Calendar) (s : HistoryScreen) : Decidable (s.Rebuilt C) :=
  inferInstanceAs (Decidable (_ = _))

/-- The swiped item is not the first of exactly two items under the last title. -/
def NotFirstOfLastTwo (s : HistoryScreen) (position : Nat) : Prop :=
  position + 2 = s.models.length → isTitleAt s.models (position - 1) = false

end HistoryScreen

/-! ### What `handleTitle` does at a split of the list -/

private theorem isTitleAt_length (front post : List HistoryUiBean) (b : HistoryUiBean) :
    isTitleAt (front ++ b :: post) front.length = b.isTitle := by
  simp [isTitleAt]

/-- Behind a row nothing is removed. -/
theorem handleTitle_of_row (front post : List HistoryUiBean) {b : HistoryUiBean}
    (hb : b.isTitle = false) :
    handleTitle (front ++ b :: post) (front.length + 1) = front ++ b :: post := by
  have ht : isTitleAt (front ++ b :: post) front.length = false := by
    rw [isTitleAt_length, hb]
  simp [handleTitle, ht]

/-- Behind a title it is the title that goes, unless at least two items follow and the first
of them is a row. -/
theorem handleTitle_of_title (front post : List HistoryUiBean) {t : HistoryUiBean}
    (ht : t.isTitle = true) :
    handleTitle (front ++ t :: post) (front.length + 1) =
      if 2 ≤ post.length ∧ isTitleAt post 0 = false then front ++ t :: post
      else front ++ post := by
  have h0 : isTitleAt (front ++ t :: post) front.length = true := by
    rw [isTitleAt_length, ht]
  have h1 : isTitleAt (front ++ t :: post) (front.length + 1) = isTitleAt post 0 := by
    simp [isTitleAt, List.getElem?_append_right]
  have he : (front ++ t :: post).eraseIdx front.length = front ++ post := by
    simp [List.eraseIdx_append_of_length_le]
  have hl : front.length + 1 < (front ++ t :: post).length - 1 ↔ 2 ≤ post.length := by
    simp only [List.length_append, List.length_cons]
    omega
  simp only [handleTitle, Nat.add_sub_cancel, h0, h1, he, hl, Bool.true_and, Nat.succ_pos,
    gt_iff_lt, if_true]
  by_cases h2 : 2 ≤ post.length
  · cases hp : isTitleAt post 0 <;> simp [h2]
  · simp [h2]

/-! ### One swipe -/

/-- The title in front of a row whose date is not the current one. -/
def newTitle (C : Calendar) (cur : String) (a : BrowserHistory) : List HistoryUiBean :=
  if BrowserHistory.dateOf C a = cur then [] else [.ofDate (BrowserHistory.dateOf C a)]

/-- The date of the last row. -/
def lastDate (C : Calendar) (list : List BrowserHistory) : String :=
  lastLabel (BrowserHistory.dateOf C) "" list

private theorem entry_eq (C : Calendar) (cur : String) (a : BrowserHistory) :
    entry (BrowserHistory.dateOf C) HistoryUiBean.ofDate (HistoryUiBean.ofRow C) cur a =
      newTitle C cur a ++ [.ofRow C a] := by
  unfold entry newTitle
  split <;> rfl

theorem titled_append (C : Calendar) (list m : List BrowserHistory) :
    titled C "" (list ++ m) = titled C "" list ++ titled C (lastDate C list) m :=
  insertHeadings_append "" list m

theorem titled_cons (C : Calendar) (cur : String) (a : BrowserHistory)
    (list : List BrowserHistory) :
    titled C cur (a :: list) =
      newTitle C cur a ++ .ofRow C a :: titled C (BrowserHistory.dateOf C a) list := by
  rw [titled, insertHeadings_cons, entry_eq, List.append_assoc]
  rfl

/-- Deleting by primary key takes one row away. -/
private theorem filter_id_ne {l r : List BrowserHistory} {a : BrowserHistory}
    (hn : ((l ++ a :: r).map (·.id)).Nodup) :
    (l ++ a :: r).filter (·.id ≠ a.id) = l ++ r := by
  rw [List.map_append, List.map_cons, List.nodup_append, List.nodup_cons] at hn
  obtain ⟨_, ⟨har, _⟩, hla⟩ := hn
  have hl : l.filter (·.id ≠ a.id) = l := by
    apply List.filter_eq_self.mpr
    intro b hb
    exact decide_eq_true (hla _ (List.mem_map_of_mem hb) _ List.mem_cons_self)
  have hr : r.filter (·.id ≠ a.id) = r := by
    apply List.filter_eq_self.mpr
    intro b hb
    apply decide_eq_true
    intro he
    exact har (List.mem_map.mpr ⟨b, hb, he⟩)
  simp only [List.filter_append, List.filter_cons, hl, hr]
  simp

/-- Where the swiped row stands, and what the swipe leaves. -/
theorem exists_split {C : Calendar} {s t : HistoryScreen} {position : Nat} (h : s.Rebuilt C)
    (hn : (s.rows.map (·.id)).Nodup) (hs : s.step position = some t) :
    ∃ l a r, s.rows = l ++ a :: r ∧ t.rows = l ++ r ∧
      position = (titled C "" l ++ newTitle C (lastDate C l) a).length ∧
      t.models = handleTitle (titled C "" l ++ newTitle C (lastDate C l) a ++
        titled C (BrowserHistory.dateOf C a) r) position := by
  obtain ⟨data, hd, hs⟩ := Option.bind_eq_some_iff.mp hs
  obtain ⟨hp, hg⟩ := List.getElem?_eq_some_iff.mp hd
  have hm : s.models = s.models.take position ++ data :: s.models.drop (position + 1) := by
    rw [← hg, List.getElem_cons_drop, List.take_append_drop]
  have hlen : (s.models.take position).length = position :=
    List.length_take_of_le (Nat.le_of_lt hp)
  split at hs
  · cases hs
  · next ho =>
    have hmem : data ∈ titled C "" s.rows := by
      rw [← listTrasfrom_eq_titled, ← h]
      exact List.mem_of_getElem? hd
    have hrow : data.isTitle = false := by
      rcases eq_heading_or_item hmem with ⟨date, rfl⟩ | ⟨a, rfl⟩
      · exact absurd rfl ho
      · rfl
    have ht : titled C "" s.rows =
        s.models.take position ++ data :: s.models.drop (position + 1) := by
      rw [← listTrasfrom_eq_titled, ← h, ← hm]
    obtain ⟨l, a, r, hr, rfl, hpre, hpost⟩ := split_at_item (fun _ ↦ rfl) ht hrow
    have hfront : s.models.take position = titled C "" l ++ newTitle C (lastDate C l) a := by
      apply (List.append_left_inj [HistoryUiBean.ofRow C a]).mp
      rw [hpre, entry_eq, List.append_assoc]
      rfl
    have herase : s.models.eraseIdx position =
        titled C "" l ++ newTitle C (lastDate C l) a ++ titled C (BrowserHistory.dateOf C a) r := by
      rw [List.eraseIdx_eq_take_drop_succ, hfront, hpost]
      rfl
    have hrows : s.rows.filter (·.id ≠ a.id) = l ++ r := by
      rw [hr] at hn ⊢
      exact filter_id_ne hn
    cases hs
    exact ⟨l, a, r, hr, hrows, by rw [← hfront, hlen], by rw [← herase]; rfl⟩

/-- The rows before `a` do not end with the date of the row after it, unless `a` has it too. -/
theorem dateOf_ne_lastDate {C : Calendar} {day : Int64 → Int} (hd : C.Days day)
    {l r : List BrowserHistory} {a b : BrowserHistory} (hs : NewestFirst (l ++ a :: b :: r))
    (hab : BrowserHistory.dateOf C b ≠ BrowserHistory.dateOf C a) :
    BrowserHistory.dateOf C b ≠ lastDate C l := by
  intro hb
  rcases List.eq_nil_or_concat l with rfl | ⟨l, c, rfl⟩
  · exact C.getDate_ne_empty b.systemTime hb
  · rw [List.concat_eq_append] at hs hb
    have hbc : BrowserHistory.dateOf C b = BrowserHistory.dateOf C c :=
      hb.trans (lastLabel_append "" l c)
    have hp : [c, a, b].Pairwise fun x y ↦ y.systemTime ≤ x.systemTime :=
      List.Pairwise.sublist (by simp [List.append_assoc]) hs
    have hca : day a.systemTime ≤ day c.systemTime := hd.mono _ _ (by simp_all)
    have hba : day b.systemTime ≤ day a.systemTime := hd.mono _ _ (by simp_all)
    have hcb : day b.systemTime = day c.systemTime := (hd.getDate_eq_iff _ _).mp hbc
    have hday : day b.systemTime = day a.systemTime := by omega
    exact hab ((hd.getDate_eq_iff _ _).mpr hday)

/-- Behind a row of the same date nothing changes but the row itself. -/
private theorem handleTitle_same_date {C : Calendar} {l : List BrowserHistory} (hn : l ≠ [])
    (post : List HistoryUiBean) :
    handleTitle (titled C "" l ++ post) (titled C "" l).length = titled C "" l ++ post ∧
      isTitleAt (titled C "" l ++ post) ((titled C "" l).length - 1) = false := by
  rcases List.eq_nil_or_concat l with rfl | ⟨l, c, rfl⟩
  · exact absurd rfl hn
  · rw [List.concat_eq_append, titled_append, titled_cons, ← List.append_assoc]
    generalize titled C "" l ++ newTitle C (lastDate C l) c = front
    have hp : front ++ HistoryUiBean.ofRow C c :: titled C (BrowserHistory.dateOf C c) [] ++ post =
        front ++ HistoryUiBean.ofRow C c :: post := by
      simp [titled, insertHeadings]
    have hl : (front ++ HistoryUiBean.ofRow C c ::
        titled C (BrowserHistory.dateOf C c) []).length = front.length + 1 := by
      simp [titled, insertHeadings]
    rw [hp, hl]
    exact ⟨handleTitle_of_row front post rfl, isTitleAt_length front post _⟩

/-- Under a new title the swipe leaves what a rebuild gives unless one row is left there, at
the end of the list. -/
private theorem handleTitle_new_date {C : Calendar} {day : Int64 → Int} (hd : C.Days day)
    {l r : List BrowserHistory} {a : BrowserHistory} (hs : NewestFirst (l ++ a :: r))
    (ha : BrowserHistory.dateOf C a ≠ lastDate C l) :
    handleTitle (titled C "" l ++ .ofDate (BrowserHistory.dateOf C a) ::
        titled C (BrowserHistory.dateOf C a) r) ((titled C "" l).length + 1) =
      titled C "" (l ++ r) ↔ (titled C (BrowserHistory.dateOf C a) r).length ≠ 1 := by
  rw [handleTitle_of_title _ _ rfl, titled_append]
  cases r with
  | nil => simp [titled, insertHeadings]
  | cons b r =>
    by_cases hab : BrowserHistory.dateOf C b = BrowserHistory.dateOf C a
    · have hb : BrowserHistory.dateOf C b ≠ lastDate C l := hab ▸ ha
      rw [titled_cons, titled_cons, newTitle, if_pos hab, newTitle, if_neg hb, hab]
      cases hr : titled C (BrowserHistory.dateOf C a) r with
      | nil => simp
      | cons x xs => simp [isTitleAt, HistoryUiBean.ofRow]
    · have hb : BrowserHistory.dateOf C b ≠ lastDate C l := dateOf_ne_lastDate hd hs hab
      rw [titled_cons, titled_cons, newTitle, if_neg hab, newTitle, if_neg hb]
      simp [isTitleAt, HistoryUiBean.ofDate]

namespace HistoryScreen

/-- A swipe leaves what a rebuild gives exactly when it is not on the first of the last two
items under the last title. -/
theorem rebuilt_iff {C : Calendar} {day : Int64 → Int} (hd : C.Days day) {s t : HistoryScreen}
    {position : Nat} (h : s.Rebuilt C) (hn : (s.rows.map (·.id)).Nodup)
    (hs : NewestFirst s.rows) (ht : s.step position = some t) :
    t.Rebuilt C ↔ s.NotFirstOfLastTwo position := by
  obtain ⟨l, a, r, hr, htr, hp, hm⟩ := exists_split h hn ht
  have hsm : s.models = titled C "" l ++ newTitle C (lastDate C l) a ++
      .ofRow C a :: titled C (BrowserHistory.dateOf C a) r := by
    rw [h, listTrasfrom_eq_titled, hr, titled_append, titled_cons, List.append_assoc]
  unfold Rebuilt NotFirstOfLastTwo
  rw [hm, htr, listTrasfrom_eq_titled, hsm, hp]
  by_cases ha : BrowserHistory.dateOf C a = lastDate C l
  · have hl : l ≠ [] := by
      rintro rfl
      exact C.getDate_ne_empty a.systemTime ha
    rw [newTitle, if_pos ha, List.append_nil, titled_append, ha]
    exact iff_of_true (handleTitle_same_date hl _).1 fun _ ↦ (handleTitle_same_date hl _).2
  · rw [hr] at hs
    have htitle : isTitleAt (titled C "" l ++ HistoryUiBean.ofDate (BrowserHistory.dateOf C a) ::
        .ofRow C a :: titled C (BrowserHistory.dateOf C a) r) (titled C "" l).length = true :=
      isTitleAt_length _ _ _
    simp only [newTitle, if_neg ha, List.append_assoc, List.singleton_append,
      List.length_append, List.length_cons, List.length_nil, Nat.zero_add, Nat.add_sub_cancel,
      htitle, Bool.true_eq_false, imp_false, handleTitle_new_date hd hs ha]
    omega

/-! ### Any number of swipes -/

/-- The list is the rebuilt one, over rows as a query gives them. -/
structure Inv (C : Calendar) (s : HistoryScreen) : Prop where
  rebuilt : s.Rebuilt C
  newestFirst : NewestFirst s.rows
  ids_nodup : (s.rows.map (·.id)).Nodup

theorem inv_step {C : Calendar} {day : Int64 → Int} (hd : C.Days day) {s t : HistoryScreen}
    {position : Nat} (h : s.Inv C) (hc : s.NotFirstOfLastTwo position)
    (ht : s.step position = some t) : t.Inv C := by
  obtain ⟨l, a, r, hr, htr, _, _⟩ := exists_split h.rebuilt h.ids_nodup ht
  have hsub : List.Sublist t.rows s.rows := by
    rw [hr, htr]
    exact (List.sublist_cons_self a r).append_left l
  exact {
    rebuilt := (rebuilt_iff hd h.rebuilt h.ids_nodup h.newestFirst ht).mpr hc
    newestFirst := h.newestFirst.sublist hsub
    ids_nodup := h.ids_nodup.sublist (hsub.map _) }

/-- Over any sequence of swipes the list stays what a rebuild of the remaining rows gives
exactly when no swipe is on the first of the last two items under the last title. -/
theorem rebuilt_iff_notFirstOfLastTwo (C : Calendar) (day : Int64 → Int) (hd : C.Days day)
    (r : HistoryRows) (positions : List Nat) :
    Always step (Rebuilt C) (start C r) positions ↔
      Along step NotFirstOfLastTwo (start C r) positions := by
  have hi : (start C r).Inv C := ⟨rfl, r.newestFirst, r.ids_nodup⟩
  exact always_iff_along (fun _ h ↦ h.rebuilt) (fun _ _ _ h hc ht ↦ inv_step hd h hc ht)
    (fun _ _ _ h hc ht hq ↦
      hc ((rebuilt_iff hd h.rebuilt h.ids_nodup h.newestFirst ht).mp hq)) hi

/-- The rows of the first two days of 1970 as a query gives them. -/
def threeHistoryRows : HistoryRows where
  rows := threeRows
  newestFirst := newestFirst_threeRows
  ids_nodup := by decide

/-- Of the three rows the newest is swiped, then the oldest, then the last one. -/
theorem rebuilt_three_swipes :
    twoDays.Days dayNumber ∧
      Always step (Rebuilt twoDays) (start twoDays threeHistoryRows) [1, 3, 1] := by
  refine ⟨days_twoDays,
    (rebuilt_iff_notFirstOfLastTwo twoDays dayNumber days_twoDays threeHistoryRows _).mpr ?_⟩
  refine .cons rfl (fun h ↦ absurd h (by decide)) ?_
  refine .cons rfl (fun h ↦ absurd h (by decide)) ?_
  exact .cons rfl (fun h ↦ absurd h (by decide)) (along_nil _)

/-- Two rows of one day. -/
def twoHistoryRows : HistoryRows where
  rows := [{ id := 2, systemTime := 86400000 }, { id := 1, systemTime := 86400000 }]
  newestFirst := by
    unfold NewestFirst
    decide
  ids_nodup := by decide

/-- When the newer of two rows of one day is swiped, the other is left without its title. -/
theorem title_lost_of_two :
    ¬ Always step (Rebuilt twoDays) (start twoDays twoHistoryRows) [1] := by
  intro h
  have hr : Rebuilt twoDays _ := h.last rfl
  exact absurd hr (by decide)

end HistoryScreen
end FastSearch.Browser
