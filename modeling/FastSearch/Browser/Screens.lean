import FastSearch.Lib.Owners
import FastSearch.Browser.TabInvariant

/-!
# Screens that overlap

`TabManager` is one object for the whole process. Every `BrowserActivity` attaches itself when
it is created, and when it is destroyed it detaches whatever screen is attached by then. The
latest screen has its tabs as long as screens follow one another. A screen that is created
while another one is alive finds the tabs of that one and gets none of its own, and the older
screen takes the tabs of the newer one with it.
-/

namespace FastSearch.Browser

open EventSystem

/-- The browser and the screens that are alive; a screen has its number in both. -/
structure Screens where
  owners : Owners := {}
  browser : State := {}

namespace Screens

/-- Screens come and go, and between them the browser is used. -/
inductive Event where
  /-- `BrowserActivity.onCreate`, `browser/BrowserActivity.kt:34`. -/
  | create
  /-- `BrowserActivity.onDestroy`, `browser/BrowserActivity.kt:64`. -/
  | destroy (i : Nat)
  /-- Any step of the browser but these two. -/
  | browse (e : Browser.Event)
  deriving DecidableEq, Repr

/-- One step. -/
def step (E : Env) (s : Screens) : Event → Option Screens
  | .create => some { owners := s.owners.create, browser := s.browser.attach }
  | .destroy i => (s.owners.destroy i).map fun o ↦ { owners := o, browser := s.browser.detach }
  | .browse e =>
    if e = .attach ∨ e = .detach then none
    else (s.browser.step E e).map fun b ↦ { s with browser := b }

/-- What the latest screen has while it is alive: it is the host, it was told the foreground
tab, and a tab is attached to it. -/
def Served (s : Screens) : Prop :=
  ∀ h, s.owners.Latest h → s.browser.mHost = some h ∧
    (∃ host f, s.browser.hosts[h]? = some host ∧ host.curTab.value = some f ∧
      s.browser.mForegroundTab = some f) ∧
    ∃ t ∈ s.browser.mWebTabs, ∃ tab, s.browser.tabs[t]? = some tab ∧ tab.mTabHost = some h

/-- Destroying an older screen leaves the host and the tabs of the latest one alone. -/
def LeavesLatest (s : Screens) (e : Event) (t : Screens) : Prop :=
  ∀ i h, e = .destroy i → s.owners.Latest h → i ≠ h →
    t.browser.mHost = s.browser.mHost ∧ t.browser.mWebTabs = s.browser.mWebTabs ∧
      t.browser.tabs = s.browser.tabs

/-- A screen is created only after all others were destroyed. -/
def OneByOne (s : Screens) (e : Event) : Prop := e = .create → s.owners.alive = []

/-! ### What the browser leaves alone -/

private theorem hosts_tell_length (c : Core) (f : CoreHost → CoreHost) :
    (c.tell f).hosts.length = c.hosts.length := by
  unfold Core.tell
  split
  · simp
  · rfl

private theorem hosts_select_length (c : Core) (t : Nat) :
    (c.select t).hosts.length = c.hosts.length := by
  unfold Core.select
  dsimp only
  split
  · rw [hosts_tell_length]
  · rfl

/-- The screen that is attached and the number of screens created so far. -/
private def place (c : Core) : Option Nat × Nat := (c.mHost, c.hosts.length)

private theorem place_tell (c : Core) (f : CoreHost → CoreHost) : place (c.tell f) = place c := by
  unfold place
  rw [Core.mHost_tell, hosts_tell_length]

private theorem place_select (c : Core) (t : Nat) : place (c.select t) = place c := by
  unfold place
  rw [Core.mHost_select, hosts_select_length]

private theorem place_add (c : Core) (incognito : Bool) : place (c.add incognito) = place c := by
  cases hm : c.mHost with
  | none =>
    unfold Core.add
    rw [hm]
  | some h =>
    rw [Core.add_of_host incognito hm]
    exact (place_tell _ _).trans (place_select _ _)

private theorem place_remove (c : Core) (t : Nat) : place (c.remove t) = place c := by
  unfold Core.remove
  split
  · refine (place_tell _ _).trans ?_
    unfold Core.refocus
    split
    · split
      · exact place_add _ false
      · exact place_select _ _
    · rfl
  · rfl

/-- Only screens that come and go change the screen that is attached. -/
private theorem place_apply {E : Env} {c : Core} {e : Browser.Event}
    (he : ¬ (e = .attach ∨ e = .detach)) : place (c.apply E e) = place c := by
  cases e with
  | attach | detach => simp at he
  | addTab | addIncognitoTab => exact place_add c _
  | addTabAndLoadTagUrl incognito url => exact place_add c incognito
  | changeToTab t => exact place_select c t
  | removeTab t => exact place_remove c t
  | onPageStarted t url title now clock =>
    simp only [Core.apply]
    split
    · split
      · rfl
      · rfl
    · rfl
  | delayedLoad | loadUrl | searchContent | pageGoHome | goHome | goForward | back
  | onPageFinished | deliverTabView | deliverShowingHome | deliverTabCount => rfl

/-! ### Screens one by one -/

/-- The tabs are in order, and the screen attached is the only one alive, if any. -/
structure Inv (s : Screens) : Prop where
  tabs : s.browser.core.Inv
  created : s.browser.hosts.length = s.owners.created
  host : (s.owners.alive = [] ∧ s.browser.mHost = none) ∨
    ∃ h, s.owners.Sole h ∧ s.browser.mHost = some h

theorem Inv.served {s : Screens} (h : s.Inv) : s.Served := by
  intro i hi
  rcases h.host with ⟨hn, _⟩ | ⟨k, hk, hm⟩
  · exact False.elim (Owners.not_latest_of_nil hn i hi)
  · obtain rfl : i = k := (hk.latest_iff i).mp hi
    have ha : s.browser.Attached i := (State.coherent_of_inv h.tabs).1 i hm
    obtain ⟨f, hf, hfront, host, hh, hc, _⟩ := ha.front
    obtain ⟨tab, ht, hat⟩ := ha.attached f hf
    exact ⟨hm, ⟨host, f, hh, hc, hfront⟩, f, hf, tab, ht, hat⟩

private theorem inv_create {s : Screens} (h : s.Inv) (ha : s.owners.alive = []) :
    Inv { owners := s.owners.create, browser := s.browser.attach } := by
  have hm : s.browser.mHost = none := by
    rcases h.host with ⟨_, hm⟩ | ⟨k, hk, _⟩
    · exact hm
    · rw [hk.1] at ha
      cases ha
  have hp : place s.browser.attach.core =
      (some s.browser.hosts.length, s.browser.hosts.length + 1) := by
    rw [State.core_attach]
    unfold Core.attach
    dsimp only
    split
    · refine (place_add _ false).trans ?_
      simp [place, State.core]
    · simp [place, State.core]
  obtain ⟨hhost, hlen⟩ := Prod.mk.inj hp
  refine ⟨?_, ?_, Or.inr ⟨s.owners.created, Owners.sole_create ha, ?_⟩⟩
  · rw [State.core_attach]
    exact Core.inv_attach h.tabs hm
  · have hl : s.browser.attach.hosts.length = s.browser.hosts.length + 1 := by
      simpa [State.core] using hlen
    rw [hl, h.created]
    rfl
  · exact hhost.trans (by rw [h.created])

private theorem inv_destroy {s : Screens} {i : Nat} {o : Owners} (h : s.Inv)
    (ho : s.owners.destroy i = some o) : Inv { owners := o, browser := s.browser.detach } := by
  have hc : s.browser.detach.core = s.browser.core.detach := State.core_detach s.browser
  have halive : o.alive = [] := by
    rcases h.host with ⟨hn, _⟩ | ⟨k, hk, _⟩
    · rw [Owners.destroy_of_nil hn] at ho
      cases ho
    · exact (hk.destroy ho).2
  refine ⟨?_, ?_, Or.inl ⟨halive, rfl⟩⟩
  · rw [hc]
    exact Core.inv_detach h.tabs
  · have hcr : o.created = s.owners.created := by
      unfold Owners.destroy at ho
      split at ho
      · cases ho
        rfl
      · cases ho
    rw [hcr]
    exact h.created

private theorem inv_browse {E : Env} {s : Screens} {e : Browser.Event} {b : State} (h : s.Inv)
    (he : ¬ (e = .attach ∨ e = .detach)) (hb : s.browser.step E e = some b) :
    Inv { s with browser := b } := by
  have hc : b.core = s.browser.core.apply E e := State.core_step hb
  have hp : place b.core = place s.browser.core := by rw [hc, place_apply he]
  obtain ⟨hhost, hlen⟩ := Prod.mk.inj hp
  have hm : b.mHost = s.browser.mHost := hhost
  refine ⟨?_, ?_, ?_⟩
  · rw [hc]
    apply Core.inv_apply h.tabs
    · intro ha
      exact False.elim (he (Or.inl ha))
    · rintro t rfl
      simp only [State.step] at hb
      split at hb
      · next ht => exact ht
      · cases hb
  · have hl : b.hosts.length = s.browser.hosts.length := by simpa [State.core] using hlen
    exact hl.trans h.created
  · rw [hm]
    exact h.host

/-- Screens one by one keep the invariant. -/
theorem inv_step {E : Env} {s t : Screens} {e : Event} (h : s.Inv) (hc : s.OneByOne e)
    (hs : s.step E e = some t) : t.Inv := by
  cases e with
  | create =>
    cases hs
    exact inv_create h (hc rfl)
  | destroy i =>
    simp only [step, Option.map_eq_some_iff] at hs
    obtain ⟨o, ho, rfl⟩ := hs
    exact inv_destroy h ho
  | browse e =>
    simp only [step] at hs
    split at hs
    · cases hs
    · next he =>
      rw [Option.map_eq_some_iff] at hs
      obtain ⟨b, hb, rfl⟩ := hs
      exact inv_browse h he hb

/-- A screen created beside another one is told no tab. -/
theorem not_served_step {E : Env} {s t : Screens} {e : Event} (h : s.Inv)
    (hc : ¬ s.OneByOne e) (hs : s.step E e = some t) : ¬ t.Served := by
  simp only [OneByOne, Classical.not_imp] at hc
  obtain ⟨rfl, ha⟩ := hc
  cases hs
  intro hserved
  obtain ⟨_, ⟨host, f, hh, hf, _⟩, _⟩ := hserved s.owners.created (Owners.latest_create _)
  rcases h.host with ⟨hn, _⟩ | ⟨k, _, hm⟩
  · exact ha hn
  · have hw : s.browser.mWebTabs ≠ [] := ((State.coherent_of_inv h.tabs).1 k hm).nonempty
    have hnew : s.browser.attach.hosts = s.browser.hosts ++ [({} : BrowserHost)] := by
      unfold State.attach
      dsimp only
      rw [if_neg hw]
    have hh : s.browser.attach.hosts[s.owners.created]? = some host := hh
    rw [hnew, ← h.created, List.getElem?_concat_length] at hh
    cases hh
    cases hf

/-- Among screens one by one there is no older one to destroy. -/
private theorem leavesLatest_of_inv {E : Env} {s t : Screens} {e : Event} (h : s.Inv)
    (hs : s.step E e = some t) : s.LeavesLatest e t := by
  rintro i k rfl hk hne
  simp only [step, Option.map_eq_some_iff] at hs
  obtain ⟨o, ho, _⟩ := hs
  rcases h.host with ⟨hn, _⟩ | ⟨l, hl, _⟩
  · exact False.elim (Owners.not_latest_of_nil hn k hk)
  · have hi : i = l := (hl.destroy ho).1
    have hkl : k = l := (hl.latest_iff k).mp hk
    exact False.elim (hne (hi.trans hkl.symm))

private theorem inv_init : ({} : Screens).Inv :=
  ⟨State.inv_core_init, rfl, Or.inl ⟨rfl, rfl⟩⟩

/-- Throughout a run the latest screen has its host and tabs, and no older screen takes them
away, exactly if every screen is created after all others were destroyed. -/
theorem served_iff_oneByOne (E : Env) (es : List Event) :
    (Always (step E) Served {} es ∧ Throughout (step E) LeavesLatest {} es) ↔
      Along (step E) OneByOne {} es := by
  have hiff : Always (step E) Served {} es ↔ Along (step E) OneByOne {} es := by
    apply always_iff_along (J := Inv)
    · intro s h
      exact h.served
    · intro s e t h hc hs
      exact inv_step h hc hs
    · intro s e t h hc hs
      exact not_served_step h hc hs
    · exact inv_init
  constructor
  · intro h
    exact hiff.mp h.1
  · intro h
    refine ⟨hiff.mpr h, ?_⟩
    have hinv : Always (step E) Inv {} es :=
      always_of_along (fun _ _ _ hi hc hs ↦ inv_step hi hc hs) inv_init h
    intro pre e s t hp hr hs
    exact leavesLatest_of_inv (hinv pre s ((List.prefix_append _ _).trans hp) hr) hs

/-- A screen is created before the older one is destroyed: it has lost its host and its tabs
when that happens, and was never told a tab. -/
theorem older_screen_takes_tabs :
    ¬ (Always (step plainEnv) Served {} [.create, .create, .destroy 0] ∧
      Throughout (step plainEnv) LeavesLatest {} [.create, .create, .destroy 0]) := by
  intro h
  have hs := h.1.last rfl
  have hm := (hs 1 ⟨by decide, rfl⟩).1
  cases hm

end Screens
end FastSearch.Browser
