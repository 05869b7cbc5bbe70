import FastSearch.Browser.Core

/-!
# Incognito tabs leave no trace

Two runs of the browser that agree on everything except the page callbacks of incognito tabs
end with the same history and recently-opened tables. The argument runs on the browser
without its display: page callbacks of incognito tabs do not reach it, and every other event
acts on it in the same way in both runs. When posted values are delivered to the screens is
left open in both runs.
-/

namespace FastSearch.Browser

open EventSystem

namespace Core

/-- Neither table holds the home placeholder. -/
def HomeFree (c : Core) : Prop := c.history.HomeFree ∧ c.recently.HomeFree

private theorem TabsOnly.homeFree {c d : Core} (h : TabsOnly c d) (hc : c.HomeFree) :
    d.HomeFree := by
  unfold HomeFree
  rw [h.history, h.recently]
  exact hc

/-- Every event keeps the tables free of the home placeholder. -/
theorem homeFree_apply {E : Env} {c : Core} (h : c.HomeFree) (e : Event) :
    (c.apply E e).HomeFree := by
  rcases apply_cases E c e with hk | ⟨t, tab, url, title, now, clock, hu, he⟩ | ⟨i, url, he⟩ |
    ⟨i, he⟩
  · exact hk.homeFree h
  · rw [he]
    exact ⟨HistoryTable.homeFree_add h.1 hu, RecentlyTable.homeFree_update h.2 hu⟩
  · rw [he]
    exact (tabsOnly_add c i).homeFree h
  · rw [he]
    exact h

end Core

namespace State

/-- The event is a page callback of an incognito tab, or delivers a posted value. -/
def hidden (s : State) : Event → Bool
  | .onPageStarted t _ _ _ _ | .onPageFinished t _ => s.tabs[t]?.any (·.isIncognitoMode)
  | .deliverTabView _ | .deliverShowingHome _ | .deliverTabCount _ => true
  | _ => false

/-- Hidden steps do not reach the core. -/
theorem core_of_hidden {E : Env} {s s' : State} {e : Event} (h : s.hidden e = true)
    (hs : s.step E e = some s') : s'.core = s.core := by
  rw [core_step hs]
  cases e with
  | onPageStarted t url title now clock =>
    simp only [hidden] at h
    simp only [Core.apply, core, List.getElem?_map]
    cases ht : s.tabs[t]? with
    | none => rfl
    | some tab =>
      have hi : tab.core.isIncognitoMode = true := by
        rw [ht] at h
        exact h
      simp only [Option.map_some]
      rw [if_pos (Or.inr hi)]
  | attach | detach | addTab | addIncognitoTab | addTabAndLoadTagUrl | changeToTab | removeTab
  | delayedLoad | loadUrl | searchContent | pageGoHome | goHome | goForward | back =>
    cases h
  | onPageFinished | deliverTabView | deliverShowingHome | deliverTabCount => rfl

/-- Two runs that differ only in page callbacks of incognito tabs, and in when posted values are
delivered, end with the same tables, which never hold the home placeholder. -/
theorem tables_noninterference (E : Env) (es fs : List Event) {s t : State}
    (hs : run (step E) {} es = some s) (ht : run (step E) {} fs = some t)
    (hv : visible (step E) hidden {} es = visible (step E) hidden {} fs) :
    (s.history = t.history ∧ s.recently = t.recently) ∧
      s.history.HomeFree ∧ s.recently.HomeFree ∧ t.history.HomeFree ∧ t.recently.HomeFree := by
  have hc : s.core = t.core := by
    apply unwinding (R := fun a b : State ↦ a.core = b.core) _ _ _ rfl hs ht hv
    · intro a b u e hr hh hstep
      rw [core_of_hidden hh hstep, hr]
    · intro a b u e hr hh hstep
      rw [hr, core_of_hidden hh hstep]
    · intro a a' b b' e hr _ _ ha hb
      rw [core_step ha, core_step hb, hr]
  have hf : ∀ {gs : List Event} {u : State}, run (step E) {} gs = some u → u.core.HomeFree := by
    intro gs u hu
    apply invariant_run (J := fun u : State ↦ u.core.HomeFree) _ _ hu
    · intro a e b ha hab
      rw [core_step hab]
      exact Core.homeFree_apply ha e
    · constructor
      · intro r hr
        cases hr
      · intro r hr
        cases hr
  refine ⟨⟨congrArg Core.history hc, congrArg Core.recently hc⟩, ?_⟩
  exact ⟨(hf hs).1, (hf hs).2, (hf ht).1, (hf ht).2⟩

/-- A page of an incognito tab, or none: the page of the normal tab is all that is kept. -/
theorem tables_noninterference_one_page :
    ∃ s t : State,
      run (step plainEnv) {} [.attach, .addIncognitoTab,
        .onPageStarted 1 (some "https://a.test/") none 5 5,
        .onPageStarted 0 (some "https://b.test/") none 7 7] = some s ∧
      run (step plainEnv) {} [.attach, .addIncognitoTab,
        .onPageStarted 0 (some "https://b.test/") none 7 7] = some t ∧
      s.history = t.history ∧ s.history.rows.length = 1 := by
  refine ⟨_, _, rfl, rfl, ?_, rfl⟩
  exact (tables_noninterference plainEnv
    [.attach, .addIncognitoTab, .onPageStarted 1 (some "https://a.test/") none 5 5,
      .onPageStarted 0 (some "https://b.test/") none 7 7]
    [.attach, .addIncognitoTab, .onPageStarted 0 (some "https://b.test/") none 7 7]
    rfl rfl rfl).1.1

end State
end FastSearch.Browser
