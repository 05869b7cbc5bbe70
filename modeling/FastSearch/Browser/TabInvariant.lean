import FastSearch.Lib.FocusedList
import FastSearch.Browser.Core

/-!
# The tab list, its foreground and its screen

While screens come and go one after the other, the open tabs are a list with a focus: never
empty while a screen is attached, free of duplicates, with the foreground tab among them. The
screen has been told the foreground tab and the number of tabs, the open tabs are attached to
it, and a tab that left the list was detached once. The invariant is stated and kept on the
browser without its display.
-/

namespace FastSearch.Browser

open EventSystem

namespace Core

/-! ### Fields the operations leave alone -/

section Fields

variable (c : Core) (f : CoreHost → CoreHost) (t : Nat)

@[simp] theorem tabs_tell : (c.tell f).tabs = c.tabs := by
  unfold tell
  split <;> rfl

@[simp] theorem mWebTabs_tell : (c.tell f).mWebTabs = c.mWebTabs := by
  unfold tell
  split <;> rfl

@[simp] theorem mHost_tell : (c.tell f).mHost = c.mHost := by
  unfold tell
  split <;> simp_all

@[simp] theorem mForegroundTab_tell : (c.tell f).mForegroundTab = c.mForegroundTab := by
  unfold tell
  split <;> rfl

@[simp] theorem tabs_select : (c.select t).tabs = c.tabs := by
  unfold select
  dsimp only
  split
  · rw [tabs_tell]
  · rfl

@[simp] theorem mWebTabs_select : (c.select t).mWebTabs = c.mWebTabs := by
  unfold select
  dsimp only
  split
  · rw [mWebTabs_tell]
  · rfl

@[simp] theorem mHost_select : (c.select t).mHost = c.mHost := by
  unfold select
  dsimp only
  split
  · rw [mHost_tell]
  · rfl

@[simp] theorem mForegroundTab_select : (c.select t).mForegroundTab = some t := by
  unfold select
  dsimp only
  split
  · rw [mForegroundTab_tell]
  · rfl

end Fields

private theorem hosts_tell {c : Core} {h : Nat} {x : CoreHost} (f : CoreHost → CoreHost)
    (hm : c.mHost = some h) (hx : c.hosts[h]? = some x) : (c.tell f).hosts[h]? = some (f x) := by
  unfold tell
  rw [hm]
  simp [hx]

private theorem hosts_tellCount {c : Core} {h : Nat} {x : CoreHost} (hm : c.mHost = some h)
    (hx : c.hosts[h]? = some x) :
    c.tellCount.hosts[h]? = some { x with tabCount := some c.mWebTabs.length } :=
  hosts_tell _ hm hx

private theorem hosts_select {c : Core} {h t : Nat} {x : CoreHost} (hm : c.mHost = some h)
    (hx : c.hosts[h]? = some x) (ht : t < c.tabs.length) :
    (c.select t).hosts[h]? = some { x with curTab := some t } := by
  unfold select
  dsimp only
  rw [if_pos ht]
  exact hosts_tell (c := { c with mForegroundTab := some t }) _ hm hx

/-! ### The tabs -/

/-- The open tabs are attached to the current screen and never were detached; every other tab
was detached once. -/
structure Kept (c : Core) : Prop where
  opened : ∀ t ∈ c.mWebTabs, ∃ tab, c.tabs[t]? = some tab ∧ tab.mTabHost = c.mHost ∧
    tab.detached = 0
  left : ∀ t tab, c.tabs[t]? = some tab → t ∉ c.mWebTabs → tab.detached = 1

/-- Open tabs exist. -/
theorem Kept.lt_length {c : Core} (h : c.Kept) {t : Nat} (ht : t ∈ c.mWebTabs) :
    t < c.tabs.length := by
  obtain ⟨tab, hg, _⟩ := h.opened t ht
  exact (List.getElem?_eq_some_iff.mp hg).1

private theorem kept_congr {c d : Core} (h : c.Kept) (ht : d.tabs = c.tabs)
    (hw : d.mWebTabs = c.mWebTabs) (hm : d.mHost = c.mHost) : d.Kept where
  opened := by
    rw [ht, hw, hm]
    exact h.opened
  left := by
    rw [ht, hw]
    exact h.left

/-- A new tab of the current screen, at the end of both lists. -/
private theorem kept_append {c : Core} {h : Nat} {incognito : Bool} (hc : c.Kept)
    (hm : c.mHost = some h) :
    Kept { c with
      tabs := c.tabs ++ [(⟨some h, incognito, none, 0⟩ : CoreTab)]
      mWebTabs := c.mWebTabs ++ [c.tabs.length] } where
  opened := by
    intro t ht
    rcases List.mem_append.mp ht with ht | ht
    · obtain ⟨tab, hg, hr⟩ := hc.opened t ht
      refine ⟨tab, ?_, hr⟩
      rw [List.getElem?_append_left (hc.lt_length ht)]
      exact hg
    · rw [List.mem_singleton.mp ht]
      exact ⟨⟨some h, incognito, none, 0⟩, by simp, hm.symm, rfl⟩
  left := by
    intro t tab hg ht
    have hn : t ∉ c.mWebTabs ∧ t ≠ c.tabs.length := by
      simpa [not_or] using ht
    have hl : t < c.tabs.length := by
      have := (List.getElem?_eq_some_iff.mp hg).1
      simp at this
      omega
    rw [List.getElem?_append_left hl] at hg
    exact hc.left t tab hg hn.1

private theorem kept_drop {c : Core} {t : Nat} (hc : c.Kept) (hn : c.mWebTabs.Nodup)
    (ht : t ∈ c.mWebTabs) : (c.drop t).Kept where
  opened := by
    intro x hx
    have hx : x ∈ c.mWebTabs.erase t := hx
    obtain ⟨hne, hx⟩ := hn.mem_erase_iff.mp hx
    obtain ⟨tab, hg, hr⟩ := hc.opened x hx
    refine ⟨tab, ?_, hr⟩
    change (c.tabs.modify t CoreTab.detach)[x]? = some tab
    rw [List.getElem?_modify_ne _ _ (Ne.symm hne)]
    exact hg
  left := by
    intro x tab hg hx
    have hg : (c.tabs.modify t CoreTab.detach)[x]? = some tab := hg
    by_cases hxt : t = x
    · subst hxt
      obtain ⟨old, ho, _, hz⟩ := hc.opened t ht
      rw [List.getElem?_modify_eq, ho] at hg
      cases hg
      change old.detached + 1 = 1
      rw [hz]
    · rw [List.getElem?_modify_ne _ _ hxt] at hg
      apply hc.left x tab hg
      intro hm
      exact hx (hn.mem_erase_iff.mpr ⟨Ne.symm hxt, hm⟩)

/-- Detaching each tab of a list without duplicates detaches each of them once. -/
private theorem getElem?_foldl_detach {l : List Nat} (hn : l.Nodup) (tabs : List CoreTab)
    (t : Nat) :
    (l.foldl (fun tabs t ↦ tabs.modify t CoreTab.detach) tabs)[t]? =
      if t ∈ l then tabs[t]?.map CoreTab.detach else tabs[t]? := by
  induction l generalizing tabs with
  | nil => simp
  | cons a l ih =>
    obtain ⟨ha, hl⟩ := List.nodup_cons.mp hn
    rw [List.foldl_cons, ih hl]
    by_cases hat : a = t
    · subst hat
      simp [ha]
    · simp [List.getElem?_modify_ne _ _ hat, Ne.symm hat]

private theorem kept_detach {c : Core} (hc : c.Kept) (hn : c.mWebTabs.Nodup) :
    c.detach.Kept where
  opened := by
    intro t ht
    cases ht
  left := by
    intro t tab hg _
    have hg : (c.mWebTabs.foldl (fun tabs t ↦ tabs.modify t CoreTab.detach) c.tabs)[t]? =
      some tab := hg
    rw [getElem?_foldl_detach hn] at hg
    by_cases ht : t ∈ c.mWebTabs
    · obtain ⟨old, ho, _, hz⟩ := hc.opened t ht
      rw [if_pos ht, ho] at hg
      cases hg
      change old.detached + 1 = 1
      rw [hz]
    · rw [if_neg ht] at hg
      exact hc.left t tab hg ht

/-! ### The focus and the screen -/

/-- The open tabs are the items of `F`, its focus is in front, and screen `h` knows both. -/
structure Told (c : Core) (h : Nat) (F : FocusedList Nat) : Prop where
  items : c.mWebTabs = F.items
  front : c.mForegroundTab = some F.focus
  host : c.hosts[h]? = some ⟨some F.focus, some F.items.length⟩

/-- With a screen attached the open tabs are a focused list; without one there are none. -/
structure Inv (c : Core) : Prop where
  kept : c.Kept
  closed : c.mHost = none → c.mWebTabs = []
  told : ∀ h, c.mHost = some h → ∃ F, c.Told h F

/-- The open tabs are distinct. -/
theorem Inv.nodup {c : Core} (h : c.Inv) : c.mWebTabs.Nodup := by
  cases hm : c.mHost with
  | none =>
    rw [h.closed hm]
    exact List.nodup_nil
  | some i =>
    obtain ⟨F, hF⟩ := h.told i hm
    rw [hF.items]
    exact F.nodup

private theorem Kept.length_not_mem {c : Core} (h : c.Kept) : c.tabs.length ∉ c.mWebTabs := by
  intro hm
  exact Nat.lt_irrefl _ (h.lt_length hm)

private theorem inv_of_told {c : Core} {h : Nat} {F : FocusedList Nat} (hc : c.Kept)
    (hm : c.mHost = some h) (hF : c.Told h F) : c.Inv where
  kept := hc
  closed := by
    intro hn
    rw [hm] at hn
    cases hn
  told := by
    intro i hi
    rw [hm] at hi
    cases hi
    exact ⟨F, hF⟩

/-- Reporting the count completes a state whose screen knows the foreground tab. -/
private theorem inv_tellCount {c : Core} {h : Nat} {x : CoreHost} {F : FocusedList Nat}
    (hc : c.Kept) (hm : c.mHost = some h) (hi : c.mWebTabs = F.items)
    (hf : c.mForegroundTab = some F.focus) (hx : c.hosts[h]? = some x)
    (ht : x.curTab = some F.focus) : c.tellCount.Inv := by
  apply inv_of_told (F := F) (kept_congr hc (tabs_tell c _) (mWebTabs_tell c _) (mHost_tell c _))
  · exact (mHost_tell c _).trans hm
  · refine ⟨(mWebTabs_tell c _).trans hi, (mForegroundTab_tell c _).trans hf, ?_⟩
    have hh := hosts_tellCount hm hx
    rw [ht, hi] at hh
    exact hh

/-- Reporting a new foreground tab and the count completes any state. -/
private theorem inv_select_tellCount {c : Core} {h : Nat} {x : CoreHost} {F : FocusedList Nat}
    (hc : c.Kept) (hm : c.mHost = some h) (hi : c.mWebTabs = F.items)
    (hx : c.hosts[h]? = some x) : (c.select F.focus).tellCount.Inv := by
  have hl : F.focus < c.tabs.length := by
    apply hc.lt_length
    rw [hi]
    exact F.focus_mem
  apply inv_tellCount (F := F) (h := h) (x := { x with curTab := some F.focus })
  · exact kept_congr hc (tabs_select c _) (mWebTabs_select c _) (mHost_select c _)
  · rw [mHost_select, hm]
  · rw [mWebTabs_select, hi]
  · rw [mForegroundTab_select]
  · exact hosts_select hm hx hl
  · rfl

/-- Opening a tab completes any state with a screen. -/
private theorem inv_add_of_host {c : Core} {h : Nat} {x : CoreHost} (incognito : Bool)
    (hc : c.Kept) (hn : c.mWebTabs.Nodup) (hm : c.mHost = some h) (hx : c.hosts[h]? = some x) :
    (c.add incognito).Inv := by
  have hnd : (c.mWebTabs ++ [c.tabs.length]).Nodup :=
    hn.append (List.nodup_singleton _) (by simpa using hc.length_not_mem)
  rw [add_of_host incognito hm]
  exact inv_select_tellCount (F := ⟨_, c.tabs.length, hnd, by simp⟩) (x := x)
    (kept_append hc hm) hm rfl hx

/-- Opening a tab keeps the invariant; without a screen it does nothing. -/
theorem inv_add {c : Core} (h : c.Inv) (incognito : Bool) : (c.add incognito).Inv := by
  cases hm : c.mHost with
  | none =>
    unfold add
    rw [hm]
    exact h
  | some i =>
    obtain ⟨F, hF⟩ := h.told i hm
    exact inv_add_of_host incognito h.kept h.nodup hm hF.host

/-- A screen that attaches to an empty list. -/
theorem inv_attach {c : Core} (h : c.Inv) (hm : c.mHost = none) : c.attach.Inv := by
  have hw : c.mWebTabs = [] := h.closed hm
  unfold attach
  dsimp only
  rw [if_pos hw]
  apply inv_add_of_host (h := c.hosts.length) (x := ⟨none, none⟩)
  · constructor
    · intro t ht
      have ht : t ∈ c.mWebTabs := ht
      rw [hw] at ht
      cases ht
    · exact h.kept.left
  · rw [hw]
    exact List.nodup_nil
  · rfl
  · simp

/-- Bringing an open tab to the front. -/
theorem inv_select {c : Core} {t : Nat} (h : c.Inv) (ht : t ∈ c.mWebTabs) :
    (c.select t).Inv := by
  cases hm : c.mHost with
  | none =>
    rw [h.closed hm] at ht
    cases ht
  | some i =>
    obtain ⟨F, hF⟩ := h.told i hm
    have hl : t < c.tabs.length := h.kept.lt_length ht
    have hFt : t ∈ F.items := hF.items ▸ ht
    apply inv_of_told (h := i) (F := F.select t hFt)
    · exact kept_congr h.kept (tabs_select c _) (mWebTabs_select c _) (mHost_select c _)
    · rw [mHost_select, hm]
    · refine ⟨?_, mForegroundTab_select c t, ?_⟩
      · rw [mWebTabs_select]
        exact hF.items
      · rw [hosts_select hm hF.host hl]
        rfl

/-- Closing a tab: the open tabs become the focused list without it. -/
theorem inv_remove {c : Core} (h : c.Inv) (t : Nat) : (c.remove t).Inv := by
  unfold remove
  split
  · next ht =>
    cases hm : c.mHost with
    | none =>
      rw [h.closed hm] at ht
      cases ht
    | some i =>
      obtain ⟨F, hF⟩ := h.told i hm
      have hk : (c.drop t).Kept := kept_drop h.kept h.nodup ht
      have hw : (c.drop t).mWebTabs = F.items.erase t := by rw [← hF.items]; rfl
      unfold refocus
      by_cases hf : F.focus = t
      · have hc : (c.drop t).mForegroundTab = some t := hf ▸ hF.front
        rw [if_pos hc]
        cases he : F.items.erase t with
        | nil =>
          -- the last tab: a fresh one takes its place, and its count is reported twice
          rw [hw, he]
          have ha : ((c.drop t).add false).Inv := by
            apply inv_add_of_host false hk _ hm hF.host
            rw [hw, he]
            exact List.nodup_nil
          have hmd : ((c.drop t).add false).mHost = some i := by
            rw [add_of_host false (show (c.drop t).mHost = some i from hm)]
            simp [tellCount, hm, drop]
          obtain ⟨G, hG⟩ := ha.told i hmd
          exact inv_tellCount ha.kept hmd hG.items hG.front hG.host rfl
        | cons first rest =>
          obtain ⟨hr, hrf⟩ := F.remove_focused c.tabs.length hf he
          rw [hw, he]
          dsimp only
          rw [← hrf]
          exact inv_select_tellCount hk hm (by rw [hw, he, hr]) hF.host
      · have hc : (c.drop t).mForegroundTab ≠ some t := by
          intro hc
          exact hf (Option.some.inj (hF.front.symm.trans hc))
        rw [if_neg hc]
        obtain ⟨hr, hrf⟩ := F.remove_of_ne c.tabs.length hf
        apply inv_tellCount (F := F.remove t c.tabs.length) hk hm
        · rw [hw, hr]
        · rw [hrf]
          exact hF.front
        · exact hF.host
        · rw [hrf]
  · exact h

/-- A screen that goes takes all tabs with it. -/
theorem inv_detach {c : Core} (h : c.Inv) : c.detach.Inv where
  kept := kept_detach h.kept h.nodup
  closed := by
    intro _
    rfl
  told := by
    intro i hi
    cases hi

private theorem kept_modify {c : Core} {t : Nat} {f : CoreTab → CoreTab} (hc : c.Kept)
    (hf : ∀ tab, (f tab).mTabHost = tab.mTabHost ∧ (f tab).detached = tab.detached) :
    Kept { c with tabs := c.tabs.modify t f } where
  opened := by
    intro x hx
    obtain ⟨tab, hg, hh, hz⟩ := hc.opened x hx
    by_cases hxt : t = x
    · subst hxt
      exact ⟨f tab, by simp [hg], (hf tab).1.trans hh, (hf tab).2.trans hz⟩
    · exact ⟨tab, by simp [List.getElem?_modify_ne _ _ hxt, hg], hh, hz⟩
  left := by
    intro x tab hg hx
    have hg : (c.tabs.modify t f)[x]? = some tab := hg
    by_cases hxt : t = x
    · subst hxt
      rw [List.getElem?_modify_eq, Option.map_eq_map, Option.map_eq_some_iff] at hg
      obtain ⟨old, ho, rfl⟩ := hg
      rw [(hf old).2]
      exact hc.left t old ho hx
    · rw [List.getElem?_modify_ne _ _ hxt] at hg
      exact hc.left x tab hg hx

private theorem inv_of_kept {c d : Core} (h : c.Inv) (hk : d.Kept)
    (hw : d.mWebTabs = c.mWebTabs) (hm : d.mHost = c.mHost)
    (hf : d.mForegroundTab = c.mForegroundTab) (hh : d.hosts = c.hosts) : d.Inv where
  kept := hk
  closed := by
    rw [hm, hw]
    exact h.closed
  told := by
    intro i hi
    obtain ⟨F, hF⟩ := h.told i (hm ▸ hi)
    exact ⟨F, hw.trans hF.items, hf.trans hF.front, hh ▸ hF.host⟩

private theorem inv_record {E : Env} {c : Core} {t : Nat} {tab : CoreTab}
    {url title : Option String} {now clock : Int64} (h : c.Inv) :
    (c.record E t tab url title now clock).Inv := by
  have hk := kept_modify (t := t) h.kept (f := fun x ↦ { x with recentlyOpenedDB :=
    (updateRecentlyOpen E.platform E.recentlyKey tab.recentlyOpenedDB c.recently url title
      clock).1 }) fun _ ↦ ⟨rfl, rfl⟩
  exact inv_of_kept h (kept_congr hk rfl rfl rfl) rfl rfl rfl rfl

/-- Every event keeps the invariant, provided that a screen attaches only when there is none
and that only open tabs are brought to the front. -/
theorem inv_apply {E : Env} {c : Core} {e : Event} (h : c.Inv)
    (ha : e = .attach → c.mHost = none) (hs : ∀ t, e = .changeToTab t → t ∈ c.mWebTabs) :
    (c.apply E e).Inv := by
  cases e with
  | attach => exact inv_attach h (ha rfl)
  | detach => exact inv_detach h
  | addTab => exact inv_add h false
  | addIncognitoTab => exact inv_add h true
  | addTabAndLoadTagUrl incognito url =>
    have hi : (c.add incognito).Inv := inv_add h incognito
    exact inv_of_kept hi (kept_congr hi.kept rfl rfl rfl) rfl rfl rfl rfl
  | delayedLoad i => exact inv_of_kept h (kept_congr h.kept rfl rfl rfl) rfl rfl rfl rfl
  | changeToTab t => exact inv_select h (hs t rfl)
  | removeTab t => exact inv_remove h t
  | onPageStarted t url title now clock =>
    simp only [apply]
    split
    · split
      · exact h
      · exact inv_record h
    · exact h
  | loadUrl | searchContent | pageGoHome | goHome | goForward | back
  | onPageFinished | deliverTabView | deliverShowingHome | deliverTabCount => exact h

end Core

namespace State

/-- Screens attach one after the other: a new one only when the last one is gone. -/
def Sequential (s : State) (e : Event) : Prop := e = .attach → s.mHost = none

/-- What a screen `h` that is attached can rely on. -/
structure Attached (s : State) (h : Nat) : Prop where
  nonempty : s.mWebTabs ≠ []
  nodup : s.mWebTabs.Nodup
  attached : ∀ t ∈ s.mWebTabs, ∃ tab, s.tabs[t]? = some tab ∧ tab.mTabHost = some h
  front : ∃ f ∈ s.mWebTabs, s.mForegroundTab = some f ∧
    ∃ host, s.hosts[h]? = some host ∧ host.curTab.value = some f ∧
      host.tabCount = some s.mWebTabs.length

/-- The current screen can rely on its tabs, and every tab that left was detached once. -/
def Coherent (s : State) : Prop :=
  (∀ h, s.mHost = some h → s.Attached h) ∧
    ∀ t tab, s.tabs[t]? = some tab → t ∉ s.mWebTabs → tab.detached = 1

/-- The invariant of the core says all of that. -/
theorem coherent_of_inv {s : State} (h : s.core.Inv) : s.Coherent := by
  constructor
  · intro i hi
    obtain ⟨F, hF⟩ := h.told i hi
    have hw : s.mWebTabs = F.items := hF.items
    refine ⟨?_, ?_, ?_, F.focus, ?_, hF.front, ?_⟩
    · rw [hw]
      exact F.items_ne_nil
    · rw [hw]
      exact F.nodup
    · intro t ht
      obtain ⟨tab, hg, hh, _⟩ := h.kept.opened t ht
      simp only [core, List.getElem?_map, Option.map_eq_some_iff] at hg
      obtain ⟨x, hx, rfl⟩ := hg
      exact ⟨x, hx, hh.trans hi⟩
    · rw [hw]
      exact F.focus_mem
    · have hh := hF.host
      simp only [core, List.getElem?_map, Option.map_eq_some_iff, BrowserHost.core,
        CoreHost.mk.injEq] at hh
      obtain ⟨x, hx, hc, hn⟩ := hh
      exact ⟨x, hx, hc, by rw [hn, hw]⟩
  · intro t tab ht hn
    exact h.kept.left t tab.core (by simp [core, ht]) hn

/-- Before any screen. -/
theorem inv_core_init : Core.Inv (core {}) where
  kept := ⟨by simp [core], by simp [core]⟩
  closed := by
    intro _
    rfl
  told := by
    intro i hi
    cases hi

/-- In every run in which screens attach one after the other, every state is coherent. -/
theorem coherent_of_sequential (E : Env) (es : List Event)
    (h : Along (step E) Sequential {} es) : Always (step E) Coherent {} es := by
  have hi : Always (step E) (fun s ↦ s.core.Inv) {} es := by
    refine always_of_along (J := fun s ↦ s.core.Inv) ?_ inv_core_init h
    intro s e s' hi hq hs
    rw [core_step hs]
    apply Core.inv_apply hi hq
    rintro t rfl
    simp only [step] at hs
    split at hs
    · next ht => exact ht
    · cases hs
  exact hi.imp fun _ hs ↦ coherent_of_inv hs

/-- Two screens one after the other, with the foreground tab closed in between. -/
theorem coherent_two_screens :
    Along (step plainEnv) Sequential {} [.attach, .addIncognitoTab, .removeTab 1, .detach,
        .attach] ∧
      Always (step plainEnv) Coherent {} [.attach, .addIncognitoTab, .removeTab 1, .detach,
        .attach] := by
  have h : Along (step plainEnv) Sequential {} [.attach, .addIncognitoTab, .removeTab 1,
      .detach, .attach] := by
    repeat
      refine .cons rfl ?_ ?_
      · simp [Sequential, detach]
    exact along_nil _
  exact ⟨h, coherent_of_sequential plainEnv _ h⟩

end State
end FastSearch.Browser
