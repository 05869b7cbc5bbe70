import FastSearch.Browser.Tab

/-!
# What a page callback does to other tabs

The view model of an engine moves the tab that is in front when the callback arrives, whichever
tab the engine belongs to. A callback leaves the other tabs alone exactly when that tab is its
own or already is where the callback would put it.
-/

namespace FastSearch.Browser

open EventSystem

/-- The tab and address of a page callback. -/
def Event.page : Event → Option (Nat × Option String)
  | .onPageStarted t url _ _ _ => some (t, url)
  | .onPageFinished t url => some (t, url)
  | _ => none

namespace State

/-- The home or web position of every tab. -/
def positions (s : State) : List Bool := s.tabs.map (·.mIsHomePos)

private theorem positions_setTab (s : State) (t : Nat) {f : WebTab → WebTab}
    (h : ∀ tab, (f tab).mIsHomePos = tab.mIsHomePos) : (s.setTab t f).positions = s.positions := by
  apply List.ext_getElem?
  intro j
  simp only [positions, setTab, List.getElem?_map, List.getElem?_modify]
  cases s.tabs[j]? with
  | none => rfl
  | some tab =>
    by_cases hj : t = j
    · simp [hj, h]
    · simp [hj]

@[simp] theorem positions_tellHost (s : State) (host : Option Nat)
    (f : BrowserHost → BrowserHost) : (s.tellHost host f).positions = s.positions := by
  cases host <;> rfl

@[simp] theorem viewChanges_tellHost (s : State) (host : Option Nat)
    (f : BrowserHost → BrowserHost) : (s.tellHost host f).viewChanges = s.viewChanges := by
  cases host <;> rfl

/-- A tab that is already there stays, and nobody is told. -/
theorem changeViewTo_of_eq {s : State} {t : Nat} {tab : WebTab} {isHome : Bool}
    (ht : s.tabs[t]? = some tab) (h : tab.mIsHomePos = isHome) : s.changeViewTo t isHome = s := by
  unfold changeViewTo
  rw [ht]
  exact if_pos h

/-- A change of view moves that tab only. -/
theorem positions_changeViewTo_ne (s : State) {t x : Nat} (isHome : Bool) (hx : x ≠ t) :
    (s.changeViewTo t isHome).positions[x]? = s.positions[x]? := by
  unfold changeViewTo
  split
  · rfl
  · split
    · rfl
    · have hp : (s.setTab t fun tab ↦ { tab with mIsHomePos := isHome }).positions[x]? =
          s.positions[x]? := by
        simp [positions, setTab, List.getElem?_modify_ne _ _ (Ne.symm hx)]
      split
      · exact hp
      · exact (congrArg (·[x]?) (positions_tellHost _ _ _)).trans hp

/-- A change of view does move the tab. -/
theorem positions_changeViewTo_self {s : State} {t : Nat} {tab : WebTab} {isHome : Bool}
    (ht : s.tabs[t]? = some tab) : (s.changeViewTo t isHome).positions[t]? = some isHome := by
  unfold changeViewTo
  rw [ht]
  dsimp only
  split
  · next h => simp [positions, ht, h]
  · have hp : (s.setTab t fun tab ↦ { tab with mIsHomePos := isHome }).positions[t]? =
        some isHome := by
      simp [positions, setTab, ht]
    split
    · exact hp
    · exact (congrArg (·[t]?) (positions_tellHost _ _ _)).trans hp

/-- A change of view is announced for that tab only. -/
theorem count_viewChanges_changeViewTo (s : State) {t x : Nat} (isHome : Bool) (hx : x ≠ t) :
    (s.changeViewTo t isHome).viewChanges.count x = s.viewChanges.count x := by
  unfold changeViewTo
  split
  · rfl
  · split
    · rfl
    · split
      · rfl
      · change (_ ++ [t]).count x = _
        rw [List.count_append, viewChanges_tellHost, List.count_singleton]
        have hn : (t == x) = false := beq_eq_false_iff_ne.mpr (Ne.symm hx)
        simp [hn, setTab]

/-- A callback with this address sends the foreground tab home. -/
def sendsHome (url : Option String) : Bool := url.getD "" == homePlaceholderUrl

/-- A page callback of tab `t` moves no other tab and announces no other tab's content. -/
def Framed (s : State) (e : Event) (s' : State) : Prop :=
  ∀ t url, e.page = some (t, url) → ∀ x ≠ t,
    s'.positions[x]? = s.positions[x]? ∧ s'.viewChanges.count x = s.viewChanges.count x

/-- The foreground tab is the callback's own, or already where the callback will put it. -/
def Aimed (s : State) (e : Event) : Prop :=
  ∀ t url, e.page = some (t, url) → ∀ f tab, s.mForegroundTab = some f →
    s.tabs[f]? = some tab → f = t ∨ tab.mIsHomePos = sendsHome url

/-! ### One callback -/

/-- Nothing happens to the other tabs from `s` to `s'`. -/
private def SameBut (t : Nat) (s s' : State) : Prop :=
  ∀ x ≠ t, s'.positions[x]? = s.positions[x]? ∧ s'.viewChanges.count x = s.viewChanges.count x

private theorem sameBut_changeViewTo_iff (s : State) (t f : Nat) (isHome : Bool) :
    SameBut t s (s.changeViewTo f isHome) ↔
      (f ≠ t → ∀ b, s.positions[f]? = some b → b = isHome) := by
  cases ht : s.tabs[f]? with
  | none =>
    have hs : s.changeViewTo f isHome = s := by
      unfold changeViewTo
      rw [ht]
    rw [hs]
    apply iff_of_true
    · intro x _
      exact ⟨rfl, rfl⟩
    · intro _ b hb
      simp [positions, ht] at hb
  | some tab =>
    have hp : s.positions[f]? = some tab.mIsHomePos := by simp [positions, ht]
    constructor
    · intro h hft b hb
      have hm := (h f hft).1
      rw [positions_changeViewTo_self ht, hb] at hm
      exact (Option.some.inj hm).symm
    · intro h x hx
      by_cases hxf : x = f
      · subst hxf
        rw [changeViewTo_of_eq ht (h hx _ hp)]
        exact ⟨rfl, rfl⟩
      · exact ⟨positions_changeViewTo_ne s _ hxf, count_viewChanges_changeViewTo s _ hxf⟩

private theorem sameBut_congr {t : Nat} {s s₁ s' s₁' : State} (hp : s₁.positions = s.positions)
    (hv : s₁.viewChanges = s.viewChanges) (hp' : s₁'.positions = s'.positions)
    (hv' : s₁'.viewChanges = s'.viewChanges) : SameBut t s₁ s₁' ↔ SameBut t s s' := by
  unfold SameBut
  rw [hp, hv, hp', hv']

private theorem sameBut_setCurWebUrl_iff (s : State) (t : Nat) (url : Option String) :
    SameBut t s (s.setCurWebUrl t (url.getD "")) ↔
      ∀ f, s.mForegroundTab = some f → f ≠ t →
        ∀ b, s.positions[f]? = some b → b = sendsHome url := by
  have hp : (s.setTab t fun tab ↦ { tab with curWebUrl := url.getD "" }).positions =
    s.positions := positions_setTab s t fun _ ↦ rfl
  have hf₁ : (s.setTab t fun tab ↦ { tab with curWebUrl := url.getD "" }).mForegroundTab =
    s.mForegroundTab := rfl
  unfold setCurWebUrl onForeground
  rw [hf₁]
  cases hf : s.mForegroundTab with
  | none =>
    apply iff_of_true
    · intro x _
      exact ⟨congrArg (·[x]?) hp, rfl⟩
    · intro f hc
      cases hc
  | some f =>
    dsimp only
    rw [← sameBut_congr hp rfl rfl rfl, sameBut_changeViewTo_iff, hp]
    constructor
    · intro h g hg
      cases hg
      exact h
    · intro h
      exact h f rfl

@[simp] theorem positions_recordPage (E : Env) (s : State) (t : Nat) (tab : WebTab)
    (url title : Option String) (now clock : Int64) :
    (s.recordPage E t tab url title now clock).positions = s.positions :=
  positions_setTab s t fun _ ↦ rfl

private theorem sameBut_onPageStarted (E : Env) (s : State) (t : Nat) (tab : WebTab)
    (url title : Option String) (now clock : Int64) :
    SameBut t s (s.onPageStarted E t tab url title now clock) ↔
      SameBut t s (s.setCurWebUrl t (url.getD "")) := by
  unfold onPageStarted
  dsimp only
  split
  · rfl
  · exact sameBut_congr rfl rfl (positions_recordPage ..) rfl

/-- A page callback leaves the other tabs alone exactly if it is aimed. -/
theorem framed_iff_aimed {E : Env} {s s' : State} {e : Event} (hs : s.step E e = some s') :
    s.Framed e s' ↔ s.Aimed e := by
  have key : ∀ t url, e.page = some (t, url) →
      (SameBut t s s' ↔ SameBut t s (s.setCurWebUrl t (url.getD ""))) := by
    intro t url he
    cases e with
    | onPageStarted x u title now clock =>
      cases he
      simp only [step, Option.map_eq_some_iff] at hs
      obtain ⟨tab, _, rfl⟩ := hs
      exact sameBut_onPageStarted E s t tab url title now clock
    | onPageFinished x u =>
      cases he
      simp only [step, Option.map_eq_some_iff] at hs
      obtain ⟨tab, _, rfl⟩ := hs
      rfl
    | attach | detach | addTab | addIncognitoTab | addTabAndLoadTagUrl | changeToTab | removeTab
    | delayedLoad | loadUrl | searchContent | pageGoHome | goHome | goForward | back
    | deliverTabView | deliverShowingHome | deliverTabCount => cases he
  unfold Framed Aimed
  apply forall_congr'
  intro t
  apply forall_congr'
  intro url
  apply imp_congr_right
  intro he
  change SameBut t s s' ↔ _
  rw [key t url he, sameBut_setCurWebUrl_iff]
  constructor
  · intro h f tab hf ht
    by_cases hft : f = t
    · exact Or.inl hft
    · exact Or.inr (h f hf hft _ (by simp [positions, ht]))
  · intro h f hf hft b hb
    simp only [positions, List.getElem?_map, Option.map_eq_some_iff] at hb
    obtain ⟨tab, ht, rfl⟩ := hb
    exact (h f tab hf ht).resolve_left hft

/-- Throughout a run no page callback touches another tab exactly if every page callback of the
run is aimed. -/
theorem framed_throughout_iff (E : Env) (es : List Event) :
    Throughout (step E) Framed {} es ↔ Along (step E) Aimed {} es := by
  apply throughout_iff_along (J := fun _ ↦ True)
  · intro s e s' _ _
    trivial
  · intro s e s' _ hs
    exact framed_iff_aimed hs
  · trivial

/-- A page that a tab was asked to load starts when a new tab is in front: the new tab is taken
off its home page. -/
theorem background_page_not_framed :
    ¬ Throughout (step plainEnv) Framed {} [.attach, .loadUrl "https://a.test/", .addTab,
      .onPageStarted 0 (some "https://a.test/") none 5 5] := by
  intro h
  have hf := h [.attach, .loadUrl "https://a.test/", .addTab] _ _ _ (List.prefix_refl _) rfl rfl
  have hm := (hf 0 _ rfl 1 (by decide)).1
  cases hm

end State
end FastSearch.Browser
