import Mathlib.Logic.Function.Basic
import FastSearch.Lib.EventSystem
import FastSearch.Lib.LiveData
import FastSearch.Ad.RequestTransmitter

/-!
# Native ads of the home and the result screen

`main/MainViewModel.kt` and `server/result/ResultViewModel.kt` as far as they request native
ads, with the transmitters of the two spaces. A screen gets a result in its callback, destroys
the ad it got before and posts the new one; the ad is shown when the post is delivered. Screens
are numbered in the order of their creation. The SDK answers with an ad that is new. The limit
and the parameters come with the request that reads them.
-/

namespace FastSearch.Ad

open EventSystem

/-- The spaces of native ads. -/
inductive NativeSpace where
  | home
  | result
  deriving DecidableEq, Repr

/-- `SPACE_HOME` and `SPACE_RESULT`. -/
def NativeSpace.name : NativeSpace → String
  | .home => "fsp_hm"
  | .result => "fsp_ru"

/-- The view model of a screen: `mHomeNativeAdResult` or `mResultAd`, `showHomeNativeAd` or
`showResultNativeAd`, and whether `onCleared` has run. -/
structure NativeModel where
  ad : Option RequestResult := none
  showNativeAd : LiveData RequestResult := {}
  cleared : Bool := false
  deriving DecidableEq, Repr

/-- The ad in the post that is still to be delivered, if the screen is there to show it. -/
def NativeModel.postedAd (m : NativeModel) : Option Nat :=
  if m.cleared then none else m.showNativeAd.posted.bind (·.data)

/-- The callbacks, `main/MainViewModel.kt:54`, `server/result/ResultViewModel.kt:17`, after the
ad held before was cleared. -/
def NativeModel.receive (m : NativeModel) (result : RequestResult) : NativeModel :=
  { m with
    ad := some result
    showNativeAd :=
      if result.isSuccessful && !result.isLimited then m.showNativeAd.postValue result
      else m.showNativeAd }

/-- `onCleared` after the ad was cleared: `clearHomeAd` forgets it, `clearResultAd` does not,
`main/MainViewModel.kt:240`, `server/result/ResultViewModel.kt:35`. -/
def NativeModel.clear (m : NativeModel) : NativeSpace → NativeModel
  | .home => { m with ad := none, cleared := true }
  | .result => { m with cleared := true }

/-- The screens and transmitters of the two spaces, the callbacks that a transmitter has still to
invoke, the number of ads loaded so far and the ads passed to `clearNativeAd`. -/
structure NativeAds where
  requester : NativeSpace → RequestTransmitter Nat := fun space ↦ { space := space.name }
  models : NativeSpace → List NativeModel := fun _ ↦ []
  notifying : List (NativeSpace × Delivery Nat) := []
  loaded : Nat := 0
  destroyed : List Nat := []

namespace NativeAds

/-- What happens on the screens and in the transmitters. -/
inductive Event where
  /-- A screen is opened. -/
  | create (space : NativeSpace)
  /-- `refreshNativeAd` or `refreshResultAd` of the `i`-th screen. -/
  | refresh (space : NativeSpace) (i : Nat) (limited : Bool) (params : List Param) (now : Int)
  /-- `preloadHomeNativeAd` or `preloadResultAd`: a request without a callback. -/
  | preload (space : NativeSpace) (limited : Bool) (params : List Param) (now : Int)
  /-- The SDK answers the `i`-th request made to it with a new ad. -/
  | loaded (space : NativeSpace) (i : Nat) (now : Int)
  /-- The SDK answers it with an error. -/
  | failed (space : NativeSpace) (i : Nat) (now : Int) (message : String)
  /-- The next callback is invoked, `ad/request/RequestTransmitter.kt:107`. -/
  | notify
  /-- The post of the `i`-th screen is delivered; its view has a `NativeAdView` or not. -/
  | deliver (space : NativeSpace) (i : Nat) (nativeRoot : Bool)
  | clearCache (space : NativeSpace)
  /-- `onCleared` of the `i`-th screen. -/
  | onCleared (space : NativeSpace) (i : Nat)
  deriving DecidableEq, Repr

section

variable (cls : Nat → AdClass)

/-- `clearNativeAd`, `ad/admob/AdmobManager.kt:85`. -/
def clearNativeAd (s : NativeAds) (native : Option Nat) : NativeAds :=
  { s with destroyed := s.destroyed ++ (asNative cls native).toList }

/-- An assignment to a screen's view model. -/
def setModel (s : NativeAds) (space : NativeSpace) (i : Nat) (m : NativeModel) : NativeAds :=
  { s with models := Function.update s.models space ((s.models space).set i m) }

/-- An assignment to a transmitter. -/
def setRequester (s : NativeAds) (space : NativeSpace) (t : RequestTransmitter Nat) : NativeAds :=
  { s with requester := Function.update s.requester space t }

/-- The callback of a screen is invoked. -/
def invoke (s : NativeAds) (space : NativeSpace) (d : Delivery Nat) : NativeAds :=
  match (s.models space)[d.registration.callback]? with
  | some m => (s.clearNativeAd cls (m.ad.bind (·.data))).setModel space d.registration.callback
      (m.receive d.result)
  | none => s

/-- An operation of the transmitter of a space, which goes on to invoke callbacks. -/
def operate (s : NativeAds) (space : NativeSpace)
    (p : RequestTransmitter Nat × List (Delivery Nat)) : NativeAds :=
  { s.setRequester space p.1 with notifying := p.2.map (space, ·) }

/-- The screen that is there to act. -/
def live (s : NativeAds) (space : NativeSpace) (i : Nat) : Option NativeModel :=
  (s.models space)[i]?.filter fun m ↦ !m.cleared

/-- What happens when no callback is left to invoke. -/
def act (s : NativeAds) : Event → Option NativeAds
  | .create space =>
    some { s with models := Function.update s.models space (s.models space ++ [{}]) }
  | .refresh space i limited params now => (s.live space i).map fun _ ↦
      s.operate space ((s.requester space).transmit (some i) limited params now)
  | .preload space limited params now =>
    some (s.operate space ((s.requester space).transmit none limited params now))
  | .loaded space i now => (s.requester space).loads[i]?.map fun load ↦
      { s with loaded := s.loaded + 1 }.operate space
        ((s.requester space).answer load now (RequestResult.forResult s.loaded))
  | .failed space i now message => (s.requester space).loads[i]?.map fun load ↦
      s.operate space
        ((s.requester space).answer load now (RequestResult.forError message))
  | .notify => none
  | .deliver space i nativeRoot => (s.live space i).bind fun m ↦
      m.showNativeAd.deliver.map fun l ↦
        let t := s.setModel space i { m with showNativeAd := l }
        if nativeRoot && (asNative cls m.postedAd).isSome then
          t.setRequester space (s.requester space).clearCache
        else t
  | .clearCache space => some (s.setRequester space (s.requester space).clearCache)
  | .onCleared space i => (s.live space i).map fun m ↦
      ((s.clearNativeAd cls (m.ad.bind (·.data))).setModel space i (m.clear space)).setRequester
        space ((s.requester space).cancelTransmit i)

/-- One thing that happens; the callbacks are invoked one after the other, with nothing else on the
main thread in between. -/
def step (s : NativeAds) (e : Event) : Option NativeAds :=
  match s.notifying with
  | [] => s.act cls e
  | (space, d) :: rest =>
    if e = .notify then some ({ s with notifying := rest }.invoke cls space d) else none

/-- The `NativeAd` that an event hands to `showNative`. -/
def handed (s : NativeAds) : Event → Option Nat
  | .deliver space i _ => (s.live space i).bind fun m ↦ asNative cls m.postedAd
  | _ => none

/-- What is handed to `showNative` was not destroyed before. -/
def ShowsIntact (s : NativeAds) (e : Event) (_ : NativeAds) : Prop :=
  ∀ x, s.handed cls e = some x → x ∉ s.destroyed

/-! ### Destroying only what is done with -/

/-- The ad that the next request of the space may be answered with. -/
def cachedAd (s : NativeAds) (space : NativeSpace) : Option Nat := (s.requester space).cachedAd

/-- The ad that the `i`-th screen holds is in no cache and waits in no post, except in a post
of the screen itself that is `void`. -/
def Spares (s : NativeAds) (space : NativeSpace) (i : Nat) (void : Bool) : Prop :=
  ∀ m, (s.models space)[i]? = some m → ∀ x, asNative cls (m.ad.bind (·.data)) = some x →
    (∀ space', s.cachedAd space' ≠ some x) ∧
    ∀ space' j m', (s.models space')[j]? = some m' → m'.postedAd = some x →
      space' = space ∧ j = i ∧ void = true

/-- A screen gets a result, or is closed, only when the ad it got before is done with; a new ad
takes the place of the screen's own post. -/
def Careful (s : NativeAds) : Event → Prop
  | .notify => ∀ p ∈ s.notifying.head?, s.Spares cls p.1 p.2.registration.callback
      (p.2.result.isSuccessful && !p.2.result.isLimited)
  | .onCleared space i => s.Spares cls space i true
  | _ => True

end

/-- The ad can still come to be shown. -/
inductive Due (s : NativeAds) (x : Nat) : Prop where
  | cached (space : NativeSpace) (h : s.cachedAd space = some x)
  | posted (space : NativeSpace) (i : Nat) (m : NativeModel)
      (hm : (s.models space)[i]? = some m) (h : m.postedAd = some x)

/-- No ad that can still come to be shown was destroyed; an ad that is loaded next is new. -/
structure Inv (s : NativeAds) : Prop where
  destroyed_lt : ∀ x ∈ s.destroyed, x < s.loaded
  held_lt : ∀ space (i : Nat) (m : NativeModel) x, (s.models space)[i]? = some m →
    m.ad.bind (·.data) = some x → x < s.loaded
  cached_lt : ∀ space x, s.cachedAd space = some x → x < s.loaded
  intact : ∀ x, s.Due x → x ∉ s.destroyed

/-- The callbacks that are still to be invoked are told the cached ad, or no ad. -/
def Told (s : NativeAds) : Prop :=
  ∀ p ∈ s.notifying, ∀ x, p.2.result.data = some x → s.cachedAd p.1 = some x

section

variable {cls : Nat → AdClass} {s : NativeAds} {space : NativeSpace} {i : Nat} {m : NativeModel}

/-- What is due depends on the screens and the transmitters only. -/
theorem Due.congr {t : NativeAds} {x : Nat} (h : t.Due x) (hr : t.requester = s.requester)
    (hm : t.models = s.models) : s.Due x := by
  cases h with
  | cached space hc =>
    apply Due.cached space
    unfold cachedAd at hc ⊢
    rw [← hr]
    exact hc
  | posted space i m hi hp => exact .posted space i m (hm ▸ hi) hp

/-- The number of ads loaded may grow. -/
theorem Inv.more (h : s.Inv) : Inv { s with loaded := s.loaded + 1 } where
  destroyed_lt := by
    intro x hx
    exact Nat.lt_succ_of_lt (h.destroyed_lt x hx)
  held_lt := by
    intro space i m x hm hx
    exact Nat.lt_succ_of_lt (h.held_lt space i m x hm hx)
  cached_lt := by
    intro space x hx
    exact Nat.lt_succ_of_lt (h.cached_lt space x hx)
  intact := by
    intro x hd
    exact h.intact x (hd.congr rfl rfl)

/-- So may the callbacks that are left. -/
theorem Inv.notifying (h : s.Inv) (l : List (NativeSpace × Delivery Nat)) :
    Inv { s with notifying := l } where
  destroyed_lt := h.destroyed_lt
  held_lt := h.held_lt
  cached_lt := h.cached_lt
  intact := by
    intro x hd
    exact h.intact x (hd.congr rfl rfl)

/-- The screens after one was changed. -/
theorem models_setModel {space' : NativeSpace} {j : Nat} {m' : NativeModel}
    (h : ((s.setModel space i m).models space')[j]? = some m') :
    m' = m ∨ ¬ (space' = space ∧ j = i) ∧ (s.models space')[j]? = some m' := by
  unfold setModel at h
  by_cases hs : space' = space
  · subst hs
    simp only [Function.update_self] at h
    by_cases hj : i = j
    · subst hj
      rw [List.getElem?_set_self'] at h
      cases hm : (s.models space')[i]? with
      | none =>
        rw [hm] at h
        cases h
      | some m₀ =>
        rw [hm] at h
        cases h
        exact Or.inl rfl
    · rw [List.getElem?_set_ne hj] at h
      exact Or.inr ⟨fun hc ↦ hj hc.2.symm, h⟩
  · simp only [Function.update_of_ne hs] at h
    exact Or.inr ⟨fun hc ↦ hs hc.1, h⟩

/-- A screen may hold and post what it held and posted before, or the cached ad. -/
theorem inv_setModel (h : s.Inv) {m' : NativeModel} (hm : (s.models space)[i]? = some m)
    (held : ∀ x, m'.ad.bind (·.data) = some x →
      m.ad.bind (·.data) = some x ∨ s.cachedAd space = some x)
    (post : ∀ x, m'.postedAd = some x → m.postedAd = some x ∨ s.cachedAd space = some x) :
    (s.setModel space i m').Inv where
  destroyed_lt := h.destroyed_lt
  held_lt := by
    intro space' j m₁ x hj hx
    rcases models_setModel hj with rfl | ⟨_, hj⟩
    · rcases held x hx with ho | hc
      · exact h.held_lt space i m x hm ho
      · exact h.cached_lt space x hc
    · exact h.held_lt space' j m₁ x hj hx
  cached_lt := h.cached_lt
  intact := by
    intro x hd
    apply h.intact x
    cases hd with
    | cached space' hc => exact .cached space' hc
    | posted space' j m₁ hj hx =>
      rcases models_setModel hj with rfl | ⟨_, hj⟩
      · rcases post x hx with ho | hc
        · exact .posted space i m hm ho
        · exact .cached space hc
      · exact .posted space' j m₁ hj hx

variable (cls) in
/-- An ad that cannot come to be shown may be destroyed. -/
theorem inv_clearNativeAd (h : s.Inv) {native : Option Nat}
    (hx : ∀ x, asNative cls native = some x → x < s.loaded ∧ ¬ s.Due x) :
    (s.clearNativeAd cls native).Inv where
  destroyed_lt := by
    intro x hm
    rcases List.mem_append.mp hm with hm | hm
    · exact h.destroyed_lt x hm
    · exact (hx x (Option.mem_toList.mp hm)).1
  held_lt := h.held_lt
  cached_lt := h.cached_lt
  intact := by
    intro x hd hm
    have hd : s.Due x := hd.congr rfl rfl
    rcases List.mem_append.mp hm with hm | hm
    · exact h.intact x hd hm
    · exact (hx x (Option.mem_toList.mp hm)).2 hd

/-- A transmitter may keep its cached ad or have a new one. -/
theorem inv_setRequester (h : s.Inv) {t : RequestTransmitter Nat}
    (ht : ∀ x, t.cachedAd = some x →
      s.cachedAd space = some x ∨ x < s.loaded ∧ x ∉ s.destroyed) :
    (s.setRequester space t).Inv := by
  have hc : ∀ space' x, (s.setRequester space t).cachedAd space' = some x →
      s.cachedAd space' = some x ∨ x < s.loaded ∧ x ∉ s.destroyed := by
    intro space' x hx
    unfold cachedAd setRequester at hx
    by_cases hs : space' = space
    · subst hs
      simp only [Function.update_self] at hx
      exact ht x hx
    · simp only [Function.update_of_ne hs] at hx
      exact Or.inl hx
  refine ⟨h.destroyed_lt, h.held_lt, ?_, ?_⟩
  · intro space' x hx
    rcases hc space' x hx with ho | hn
    · exact h.cached_lt space' x ho
    · exact hn.1
  · intro x hd
    cases hd with
    | cached space' hx =>
      rcases hc space' x hx with ho | hn
      · exact h.intact x (.cached space' ho)
      · exact hn.2
    | posted space' j m₁ hj hp => exact h.intact x (.posted space' j m₁ hj hp)

/-- A screen that spares what is due destroys its ad after it has replaced its post. -/
theorem Spares.not_due {void : Bool} {m' : NativeModel} (hs : s.Spares cls space i void)
    (hm : (s.models space)[i]? = some m)
    (post : ∀ x, m'.postedAd = some x →
      s.cachedAd space = some x ∨ m.postedAd = some x ∧ void = false)
    {x : Nat} (hx : asNative cls (m.ad.bind (·.data)) = some x) :
    ¬ (s.setModel space i m').Due x := by
  obtain ⟨hcache, hposts⟩ := hs m hm x hx
  intro hd
  cases hd with
  | cached space' hc => exact hcache space' hc
  | posted space' j m₁ hj hp =>
    rcases models_setModel hj with rfl | ⟨hne, hj⟩
    · rcases post x hp with hc | ⟨ho, hv⟩
      · exact hcache space hc
      · have ht := (hposts space i m hm ho).2.2
        rw [hv] at ht
        cases ht
    · obtain ⟨hsp, hji, _⟩ := hposts space' j m₁ hj hp
      exact hne ⟨hsp, hji⟩

/-! ### The operations keep the invariant -/

theorem postedAd_receive {r : RequestResult} {x : Nat} (h : (m.receive r).postedAd = some x) :
    r.data = some x ∨
      m.postedAd = some x ∧ (r.isSuccessful && !r.isLimited) = false := by
  by_cases hr : (r.isSuccessful && !r.isLimited) = true
  · have hp : (m.receive r).showNativeAd = m.showNativeAd.postValue r := if_pos hr
    unfold NativeModel.postedAd at h
    rw [hp] at h
    split at h
    · cases h
    · exact Or.inl h
  · have hp : (m.receive r).showNativeAd = m.showNativeAd := if_neg hr
    unfold NativeModel.postedAd at h
    rw [hp] at h
    exact Or.inr ⟨h, Bool.eq_false_iff.mpr hr⟩

/-- A callback that is told the cached ad, or no ad. -/
theorem inv_invoke {d : Delivery Nat} (h : s.Inv)
    (hr : ∀ x, d.result.data = some x → s.cachedAd space = some x)
    (hc : s.Spares cls space d.registration.callback
      (d.result.isSuccessful && !d.result.isLimited)) :
    (s.invoke cls space d).Inv := by
  unfold invoke
  split
  · next m hm =>
    have hset : (s.setModel space d.registration.callback (m.receive d.result)).Inv := by
      apply inv_setModel h hm
      · intro x hx
        exact Or.inr (hr x hx)
      · intro x hx
        rcases postedAd_receive hx with hx | ⟨hx, _⟩
        · exact Or.inr (hr x hx)
        · exact Or.inl hx
    apply inv_clearNativeAd cls hset
    intro x hx
    constructor
    · exact h.held_lt space _ m x hm (Option.filter_eq_some_iff.mp hx).1
    · apply hc.not_due hm _ hx
      intro y hy
      exact (postedAd_receive hy).imp (hr y) id
  · exact h

theorem cachedAd_invoke (d : Delivery Nat) (space' : NativeSpace) :
    (s.invoke cls space d).cachedAd space' = s.cachedAd space' := by
  unfold invoke
  split <;> rfl

theorem notifying_invoke (d : Delivery Nat) :
    (s.invoke cls space d).notifying = s.notifying := by
  unfold invoke
  split <;> rfl

/-- An operation of a transmitter whose SDK answer, if any, is a new ad. -/
theorem inv_operate (h : s.Inv) {given : Option RequestResult} {t : RequestTransmitter Nat}
    {p : RequestTransmitter Nat × List (Delivery Nat)} (ho : t.Outcome given p.1 p.2)
    (ht : t.cachedAd = s.cachedAd space)
    (hg : ∀ x, given.bind (·.data) = some x → x < s.loaded ∧ x ∉ s.destroyed) :
    (s.operate space p).Inv ∧ (s.operate space p).Told := by
  have hset : (s.setRequester space p.1).Inv := by
    apply inv_setRequester h
    intro x hx
    rcases ho.cachedAd hx with hx | hx
    · exact Or.inl (ht ▸ hx)
    · exact Or.inr (hg x hx)
  refine ⟨hset.notifying _, ?_⟩
  intro q hq x hx
  obtain ⟨d, hd, rfl⟩ := List.mem_map.mp hq
  unfold cachedAd operate setRequester
  simp only [Function.update_self]
  exact ho.told_cached hd hx

theorem live_eq_some {m : NativeModel} (h : s.live space i = some m) :
    (s.models space)[i]? = some m ∧ m.cleared = false := by
  unfold live at h
  rw [Option.filter_eq_some_iff] at h
  exact ⟨h.1, by simpa using h.2⟩

/-- A new screen holds and posts nothing. -/
theorem inv_create (h : s.Inv) :
    Inv { s with models := Function.update s.models space (s.models space ++ [{}]) } := by
  have hm : ∀ space' (j : Nat) (m : NativeModel),
      (Function.update s.models space (s.models space ++ [({} : NativeModel)]) space')[j]? =
        some m → (s.models space')[j]? = some m ∨ m = {} := by
    intro space' j m hj
    by_cases hs : space' = space
    · subst hs
      rw [Function.update_self, List.getElem?_append] at hj
      split at hj
      · exact Or.inl hj
      · right
        rw [List.getElem?_singleton] at hj
        split at hj
        · exact (Option.some.inj hj).symm
        · cases hj
    · rw [Function.update_of_ne hs] at hj
      exact Or.inl hj
  refine ⟨h.destroyed_lt, ?_, h.cached_lt, ?_⟩
  · intro space' j m x hj hx
    rcases hm space' j m hj with ho | rfl
    · exact h.held_lt space' j m x ho hx
    · cases hx
  · intro x hd
    cases hd with
    | cached space' hc => exact h.intact x (.cached space' hc)
    | posted space' j m hj hp =>
      rcases hm space' j m hj with ho | rfl
      · exact h.intact x (.posted space' j m ho hp)
      · cases hp

/-- A delivered post is no longer due. -/
theorem inv_deliver (h : s.Inv) {l : LiveData RequestResult}
    (hm : (s.models space)[i]? = some m) (hl : m.showNativeAd.deliver = some l) :
    (s.setModel space i { m with showNativeAd := l }).Inv := by
  apply inv_setModel h hm
  · intro x hx
    exact Or.inl hx
  · intro x hx
    unfold LiveData.deliver at hl
    rw [Option.map_eq_some_iff] at hl
    obtain ⟨r, _, rfl⟩ := hl
    unfold NativeModel.postedAd at hx
    split at hx <;> cases hx

/-- A transmitter whose cache is cleared. -/
theorem inv_clearCache (h : s.Inv) {t : RequestTransmitter Nat} :
    (s.setRequester space t.clearCache).Inv := by
  apply inv_setRequester h
  intro x hx
  cases hx

/-- A screen that is closed after its ad is done with. -/
theorem inv_onCleared (h : s.Inv) (hm : (s.models space)[i]? = some m)
    (hc : s.Spares cls space i true) :
    ((s.clearNativeAd cls (m.ad.bind (·.data))).setModel space i (m.clear space)).Inv := by
  have hp : ∀ x, (m.clear space).postedAd ≠ some x := by
    intro x
    cases space <;> simp [NativeModel.clear, NativeModel.postedAd]
  have hset : (s.setModel space i (m.clear space)).Inv := by
    apply inv_setModel h hm
    · intro x hx
      cases space with
      | home => cases hx
      | result => exact Or.inl hx
    · intro x hx
      exact absurd hx (hp x)
  apply inv_clearNativeAd cls hset
  intro x hx
  constructor
  · exact h.held_lt space i m x hm (Option.filter_eq_some_iff.mp hx).1
  · apply hc.not_due hm _ hx
    intro y hy
    exact absurd hy (hp y)

/-- With no callback left to invoke there is nothing to tell. -/
theorem told_of_nil (h : s.notifying = []) : s.Told := by
  intro p hp
  rw [h] at hp
  cases hp

/-- What happens when no callback is left to invoke keeps the invariant. -/
theorem inv_act {t : NativeAds} {e : Event} (h : s.Inv) (hn : s.notifying = [])
    (hc : s.Careful cls e) (hs : s.act cls e = some t) : t.Inv ∧ t.Told := by
  cases e with
  | create space =>
    cases hs
    exact ⟨inv_create h, told_of_nil hn⟩
  | refresh space i limited params now =>
    simp only [act, Option.map_eq_some_iff] at hs
    obtain ⟨m, _, rfl⟩ := hs
    apply inv_operate h ((s.requester space).outcome_transmit (some i) limited params now).1
      (RequestTransmitter.cachedAd_register _ _)
    intro x hx
    cases hx
  | preload space limited params now =>
    cases hs
    apply inv_operate h ((s.requester space).outcome_transmit none limited params now).1
      (RequestTransmitter.cachedAd_register _ _)
    intro x hx
    cases hx
  | loaded space i now =>
    simp only [act, Option.map_eq_some_iff] at hs
    obtain ⟨load, _, rfl⟩ := hs
    apply inv_operate h.more ((s.requester space).outcome_answer load now _) rfl
    -- The ad that comes has a number none of the others has.
    intro x hx
    cases hx
    exact ⟨Nat.lt_succ_self _, fun hd ↦ Nat.lt_irrefl _ (h.destroyed_lt _ hd)⟩
  | failed space i now message =>
    simp only [act, Option.map_eq_some_iff] at hs
    obtain ⟨load, _, rfl⟩ := hs
    apply inv_operate h ((s.requester space).outcome_answer load now _) rfl
    intro x hx
    cases hx
  | notify => cases hs
  | deliver space i nativeRoot =>
    simp only [act, Option.bind_eq_some_iff, Option.map_eq_some_iff] at hs
    obtain ⟨m, hm, l, hl, rfl⟩ := hs
    have hd := inv_deliver h (live_eq_some hm).1 hl
    split
    · exact ⟨inv_clearCache hd, told_of_nil hn⟩
    · exact ⟨hd, told_of_nil hn⟩
  | clearCache space =>
    cases hs
    exact ⟨inv_clearCache h, told_of_nil hn⟩
  | onCleared space i =>
    simp only [act, Option.map_eq_some_iff] at hs
    obtain ⟨m, hm, rfl⟩ := hs
    refine ⟨inv_setRequester (inv_onCleared h (live_eq_some hm).1 hc) ?_, told_of_nil hn⟩
    intro x hx
    exact Or.inl hx

/-- Every careful step keeps the invariant. -/
theorem inv_step {t : NativeAds} {e : Event} (h : s.Inv ∧ s.Told) (hc : s.Careful cls e)
    (hs : s.step cls e = some t) : t.Inv ∧ t.Told := by
  unfold step at hs
  split at hs
  · next hn => exact inv_act h.1 hn hc hs
  · next space d rest hn =>
    split at hs
    · next he =>
      subst he
      cases hs
      have htold := fun p hp ↦ h.2 p (by rw [hn]; exact hp)
      have hspares : s.Spares cls space d.registration.callback
          (d.result.isSuccessful && !d.result.isLimited) := hc (space, d) (by rw [hn]; rfl)
      refine ⟨inv_invoke (h.1.notifying rest) (htold (space, d) List.mem_cons_self) hspares, ?_⟩
      intro p hp x hx
      rw [notifying_invoke] at hp
      rw [cachedAd_invoke]
      exact htold p (List.mem_cons_of_mem _ hp) x hx
    · cases hs

/-- What a delivery hands to `showNative` was due. -/
theorem due_of_handed {e : Event} {x : Nat} (h : s.handed cls e = some x) : s.Due x := by
  cases e with
  | deliver space i nativeRoot =>
    simp only [handed, Option.bind_eq_some_iff] at h
    obtain ⟨m, hm, hx⟩ := h
    exact .posted space i m (live_eq_some hm).1 (Option.filter_eq_some_iff.mp hx).1
  | _ => cases h

theorem inv_init : Inv {} where
  destroyed_lt := by
    intro x hx
    cases hx
  held_lt := by
    intro space i m x hm
    cases hm
  cached_lt := by
    intro space x hx
    cases hx
  intact := by
    intro x _ hx
    cases hx

end

/-- In every run in which screens get results and are closed only when the ad they got before
is done with, no ad is shown after it was destroyed. -/
theorem showsIntact_of_careful (cls : Nat → AdClass) (es : List Event)
    (h : Along (step cls) (Careful cls) {} es) : Throughout (step cls) (ShowsIntact cls) {} es := by
  refine throughout_of_along (J := fun s ↦ s.Inv ∧ s.Told) ?_ ?_ ⟨inv_init, told_of_nil rfl⟩ h
  · intro s e t hi hc hs
    exact inv_step hi hc hs
  · intro s e t hi _ _ x hx
    exact hi.1.intact x (due_of_handed hx)

/-- A parameter of a native ad. -/
def nativeParam : Param := ⟨"admob", "ca-app-pub", "n", 1⟩

/-- The home screen gets two ads one after the other, the first is shown before the second one
comes. -/
def twoAds : List Event :=
  [.create .home, .refresh .home 0 false [nativeParam] 0, .loaded .home 0 1, .notify,
    .deliver .home 0 true, .refresh .home 0 false [nativeParam] 2, .loaded .home 1 3, .notify,
    .deliver .home 0 true]

/-- It is shown before it is destroyed. -/
theorem showsIntact_two_ads :
    Along (step fun _ ↦ .nativeAd) (Careful fun _ ↦ .nativeAd) {} twoAds ∧
    Throughout (step fun _ ↦ .nativeAd) (ShowsIntact fun _ ↦ .nativeAd) {} twoAds := by
  have ha : Along (step fun _ ↦ .nativeAd) (Careful fun _ ↦ .nativeAd) {} twoAds := by
    refine .cons rfl trivial ?_
    refine .cons rfl trivial ?_
    refine .cons rfl trivial ?_
    refine .cons rfl ?_ ?_
    · intro p hp m hm x hx
      cases hp
      cases hm
      cases hx
    refine .cons rfl trivial ?_
    refine .cons rfl trivial ?_
    refine .cons rfl trivial ?_
    refine .cons rfl ?_ (.cons rfl trivial (along_nil _))
    intro p hp m hm x hx
    cases hp
    cases hm
    cases hx
    constructor
    · intro space'
      cases space' <;> decide
    · intro space' j m' hm' hp
      cases space' with
      | home =>
        cases j with
        | zero =>
          cases hm'
          cases hp
        | succ j => cases hm'
      | result => cases hm'
  exact ⟨ha, showsIntact_of_careful _ _ ha⟩

/-- Two refreshes wait for one load: the second callback destroys the ad that the first one
got, and it is shown all the same. -/
theorem destroyed_ad_shown :
    ¬ Throughout (step fun _ ↦ .nativeAd) (ShowsIntact fun _ ↦ .nativeAd) {}
      [.create .home, .refresh .home 0 false [nativeParam] 0,
        .refresh .home 0 false [nativeParam] 1, .loaded .home 0 2, .notify, .notify,
        .deliver .home 0 true] := by
  intro h
  have hx := h [.create .home, .refresh .home 0 false [nativeParam] 0,
    .refresh .home 0 false [nativeParam] 1, .loaded .home 0 2, .notify, .notify]
    (.deliver .home 0 true) _ _ (List.prefix_refl _) rfl rfl 0 rfl
  revert hx
  decide

end NativeAds
end FastSearch.Ad
