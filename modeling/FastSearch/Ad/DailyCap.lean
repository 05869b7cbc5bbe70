import Mathlib.Logic.Function.Basic
import FastSearch.Lib.EventSystem
import FastSearch.Ad.Cache

/-!
# Ads shown against the daily cap

The two ways in which the app comes by ads and shows them, within one day: the transmitters of
`ad/admob/AdmobManager.kt`, whose results go to `ad/admob/AdmobShower.kt`, and the spaces of
`ad/admob/AdUtils.kt`. An ad is shown when it is handed to the SDK with `show` or
`setNativeAd`. The SDK answers and calls back at any time. A manifest that
`getRequestParams` throws on ends the run.
-/

namespace FastSearch.Ad

open Server EventSystem

/-- `AdSpace`, `ad/admob/AdSpace.kt:3`. -/
inductive AdSpace where
  | spaceOpen
  | spaceBackBookmark
  | spaceBackReadList
  | spaceDiscoverReOpen
  | spaceDiscoverHistory
  deriving DecidableEq, Repr

/-- `spaceName`. -/
def AdSpace.spaceName : AdSpace → String
  | .spaceOpen => "fsp_op"
  | .spaceBackBookmark => "fsp_bk_bm"
  | .spaceBackReadList => "fsp_bk_rl"
  | .spaceDiscoverReOpen => "fsp_discover_re_open"
  | .spaceDiscoverHistory => "fsp_discover_history"

/-- `AdDataWrap`, `ad/admob/AdDataWrap.kt:3`: the field and the time it was last filled. -/
structure AdDataWrap where
  field : Option Nat := none
  time : Int := 0
  deriving DecidableEq, Repr

/-- The getter of `ad`, which hides an ad after an hour. -/
def AdDataWrap.ad (w : AdDataWrap) (now : Int) : Option Nat :=
  if now - w.time < 3600000 then w.field else none

/-- The state of an `AdSpace`. -/
structure SpaceState where
  isLoading : Bool := false
  adDataWrap : AdDataWrap := {}
  deriving DecidableEq, Repr

/-- An SDK request made for a space, with what its iterator has left. -/
structure SpaceLoad where
  space : AdSpace
  rest : List Param
  deriving DecidableEq, Repr

/-- The spaces of `mRequester`, `ad/admob/AdmobManager.kt:15`. -/
def requesterSpaces : List String :=
  ["fsp_op", "fsp_hm", "fsp_ru", "fsp_cc", "fsp_bk", "fsp_rt", "fsp_bk_bm", "fsp_bk_rl",
    "fsp_discover_re_open", "fsp_discover_history"]

/-- The ads of the app on one day. `handed` are the results that callbacks were given, with
their space; `fullScreens` the full-screen ads given to the SDK, with the space of those whose
callback is an `AdmobFullScreenCallback`; `shown` all ads given to the SDK, in order. -/
structure AdDay where
  manifest : Manifest := {}
  counts : Counts := {}
  mIsShowingFullScreen : Bool := false
  mRequester : String → Option (RequestTransmitter Nat) := fun space ↦
    if space ∈ requesterSpaces then some { space := space } else none
  handed : List (String × RequestResult) := []
  spaces : AdSpace → SpaceState := fun _ ↦ {}
  spaceLoads : List SpaceLoad := []
  fullScreens : List (Option String) := []
  shown : List Nat := []

namespace AdDay

/-- What happens to the ads of the app. -/
inductive Event where
  /-- `mAdManifestJson` assigned by the config listener. -/
  | manifestArrived (json : String)
  | request (space : String) (callback : Option Nat) (now : Int)
  | cancelRequest (space : String) (callback : Nat)
  /-- The SDK answers the `i`-th request of a transmitter. -/
  | requestAnswered (space : String) (i : Nat) (now : Int) (result : RequestResult)
  | clearCache (space : String)
  | loadAd (space : AdSpace) (now : Int)
  /-- The SDK answers the `i`-th request made for the spaces, with an ad or without one. -/
  | loadAnswered (i : Nat) (ad : Option Nat) (now : Int)
  /-- `AdmobShower.showFullScreen` with the `i`-th result handed out. -/
  | showFullScreen (i : Nat) (mIsOnResume : Bool)
  /-- `AdmobShower.showNative` with the `i`-th result, on a view that has a `NativeAdView` or
  not. -/
  | showNative (i : Nat) (nativeRoot : Bool)
  | showAd (space : AdSpace) (now : Int)
  | getNativeView (space : AdSpace) (now : Int)
  /-- The callbacks of the `i`-th full-screen ad given to the SDK. -/
  | onAdShowed (i : Nat)
  | onAdDismissed (i : Nat)
  | onAdFailedToShow (i : Nat)
  | onAdClicked (i : Nat)
  /-- A native ad loaded by a transmitter is clicked, `ad/admob/AdmobTransmitter.kt:53`. -/
  | onNativeAdClicked
  deriving DecidableEq, Repr

/-- `isAdUpperLimit` at this moment. -/
def isLimited (J : OrgJson) (s : AdDay) : Bool := isAdUpperLimit J s.manifest s.counts

/-- An operation on the transmitter of a space, which hands out results. -/
def withRequester (s : AdDay) (space : String)
    (f : RequestTransmitter Nat → RequestTransmitter Nat × List (Delivery Nat)) : AdDay :=
  match s.mRequester space with
  | some t => { s with
      mRequester := Function.update s.mRequester space (some (f t).1)
      handed := s.handed ++ (f t).2.map fun d ↦ (space, d.result) }
  | none => s

/-- `clearCache`, `ad/admob/AdmobManager.kt:81`. -/
def clearRequesterCache (s : AdDay) (space : String) : AdDay :=
  s.withRequester space fun t ↦ (t.clearCache, [])

/-- The transmitter goes to the manifest for its parameters. -/
def readsParams (J : OrgJson) (s : AdDay) (space : String) (now : Int) : Bool :=
  (s.mRequester space).any fun t ↦
    !s.isLimited J && !t.mIsLoading && (t.freshCache now).isNone

/-- `request`, `ad/admob/AdmobManager.kt:38`; `none` when the parameters cannot be read. -/
def request (J : OrgJson) (s : AdDay) (space : String) (callback : Option Nat) (now : Int) :
    Option AdDay :=
  match s.manifest.getRequestParams J space with
  | some params =>
    some (s.withRequester space fun t ↦ t.transmit callback (s.isLimited J) params now)
  | none =>
    if s.readsParams J space now then none
    else some (s.withRequester space fun t ↦ t.transmit callback (s.isLimited J) [] now)

/-- An assignment to the state of a space. -/
def updateSpace (s : AdDay) (space : AdSpace) (f : SpaceState → SpaceState) : AdDay :=
  { s with spaces := Function.update s.spaces space (f (s.spaces space)) }

/-- `load`, `ad/admob/AdUtils.kt:45`: `AdImpl` asks the SDK for the known types only. -/
def load (s : AdDay) (space : AdSpace) (con : Param) (rest : List Param) : AdDay :=
  if con.known then { s with spaceLoads := s.spaceLoads ++ [⟨space, rest⟩] } else s

/-- `loadAd`, `ad/admob/AdUtils.kt:22`; `none` when the parameters cannot be read. -/
def loadAd (J : OrgJson) (s : AdDay) (space : AdSpace) (now : Int) : Option AdDay :=
  if s.isLimited J then some s
  else if (s.spaces space).isLoading then some s
  else if ((s.spaces space).adDataWrap.ad now).isSome then some s
  else (s.manifest.getRequestParams J space.spaceName).map fun params ↦
    match params with
    | con :: rest =>
      (s.updateSpace space fun a ↦ { a with isLoading := true }).load space con rest
    | [] => s

/-- The callbacks of `load`, `ad/admob/AdUtils.kt:52`. -/
def loadAnswered (s : AdDay) (l : SpaceLoad) (ad : Option Nat) (now : Int) : AdDay :=
  match ad, l.rest with
  | some ad, _ => s.updateSpace l.space fun _ ↦ ⟨false, ⟨some ad, now⟩⟩
  | none, con :: rest => s.load l.space con rest
  | none, [] => s.updateSpace l.space fun a ↦ { a with isLoading := false }

section Shows

variable (J : OrgJson) (cls : Nat → AdClass)

/-- `canShow`, `ad/show/Shower.kt:37`. -/
def canShow (s : AdDay) (mIsOnResume : Bool) : Bool :=
  mIsOnResume && !s.mIsShowingFullScreen && !s.isLimited J

/-- `ad.show(activity)`, with the space of an `AdmobFullScreenCallback`. -/
def showOnScreen (s : AdDay) (ad : Nat) (callback : Option String) : AdDay :=
  { s with fullScreens := s.fullScreens ++ [callback], shown := s.shown ++ [ad] }

/-- `adView.setNativeAd(nativeAd)` and the count. -/
def setNativeAd (s : AdDay) (ad : Nat) : AdDay :=
  { s with counts := s.counts.show, shown := s.shown ++ [ad] }

/-- `showFullScreen` of `AdmobShower`, `ad/show/Shower.kt:9`, `ad/admob/AdmobShower.kt:57`. -/
def showFullScreen (s : AdDay) (space : String) (result : RequestResult) (mIsOnResume : Bool) :
    AdDay :=
  if s.canShow J mIsOnResume then
    match asFullScreen cls result.data with
    | some ad => s.showOnScreen ad (some space)
    | none => s
  else s

/-- `showNative` of `AdmobShower`, `ad/show/Shower.kt:25`, `ad/admob/AdmobShower.kt:73`. -/
def showNative (s : AdDay) (space : String) (result : RequestResult) (nativeRoot : Bool) :
    AdDay :=
  if nativeRoot then
    match asNative cls result.data with
    | some ad => (s.setNativeAd ad).clearRequesterCache space
    | none => s
  else s

/-- `showAd`, `ad/admob/AdUtils.kt:76`. -/
def showAd (s : AdDay) (space : AdSpace) (now : Int) : AdDay :=
  match asFullScreen cls ((s.spaces space).adDataWrap.ad now) with
  | some ad => (s.showOnScreen ad none).updateSpace space fun a ↦
      { a with adDataWrap := { a.adDataWrap with field := none } }
  | none => s

/-- `getNativeView`, `ad/admob/AdUtils.kt:114`. -/
def getNativeView (s : AdDay) (space : AdSpace) (now : Int) : AdDay :=
  match asNative cls ((s.spaces space).adDataWrap.ad now) with
  | some ad => (s.setNativeAd ad).updateSpace space fun a ↦
      { a with adDataWrap := { a.adDataWrap with field := none } }
  | none => s

/-- `onAdShowedFullScreenContent` of the two callbacks, `ad/admob/AdmobShower.kt:49`,
`ad/admob/AdUtils.kt:93`. -/
def onAdShowed (s : AdDay) : Option String → AdDay
  | some space =>
    { s with counts := s.counts.show, mIsShowingFullScreen := true }.clearRequesterCache space
  | none => { s with counts := s.counts.show }

/-- `onAdDismissedFullScreenContent`; the callback of `AdUtils` only closes. -/
def onAdDismissed (s : AdDay) : Option String → AdDay
  | some _ => { s with mIsShowingFullScreen := false }
  | none => s

/-- `onAdFailedToShowFullScreenContent`. -/
def onAdFailedToShow (s : AdDay) : Option String → AdDay
  | some space => { s with mIsShowingFullScreen := false }.clearRequesterCache space
  | none => s

/-- A full-screen ad is gone. -/
def close (s : AdDay) (i : Nat) : AdDay := { s with fullScreens := s.fullScreens.eraseIdx i }

/-- One thing that happens. -/
def step (s : AdDay) : Event → Option AdDay
  | .manifestArrived json => some { s with manifest.mAdManifestJson := json }
  | .request space callback now => s.request J space callback now
  | .cancelRequest space callback =>
    some (s.withRequester space fun t ↦ (t.cancelTransmit callback, []))
  | .requestAnswered space i now result =>
    ((s.mRequester space).bind (·.loads[i]?)).map fun load ↦
      s.withRequester space fun t ↦ t.answer load now result
  | .clearCache space => some (s.clearRequesterCache space)
  | .loadAd space now => s.loadAd J space now
  | .loadAnswered i ad now => s.spaceLoads[i]?.map fun l ↦
      { s with spaceLoads := s.spaceLoads.eraseIdx i }.loadAnswered l ad now
  | .showFullScreen i mIsOnResume => s.handed[i]?.map fun (space, result) ↦
      s.showFullScreen J cls space result mIsOnResume
  | .showNative i nativeRoot => s.handed[i]?.map fun (space, result) ↦
      s.showNative cls space result nativeRoot
  | .showAd space now => some (s.showAd cls space now)
  | .getNativeView space now => some (s.getNativeView cls space now)
  | .onAdShowed i => s.fullScreens[i]?.map s.onAdShowed
  | .onAdDismissed i => s.fullScreens[i]?.map (s.close i).onAdDismissed
  | .onAdFailedToShow i => s.fullScreens[i]?.map (s.close i).onAdFailedToShow
  | .onAdClicked i => s.fullScreens[i]?.map fun _ ↦ { s with counts := s.counts.click }
  | .onNativeAdClicked => some { s with counts := s.counts.click }

/-- An ad is shown only while the cap is not reached. -/
def Capped (s : AdDay) (_ : Event) (t : AdDay) : Prop := t.shown ≠ s.shown → s.isLimited J = false

/-- The ad that an event shows without a look at the cap: the three paths other than
`showFullScreen` have no such check. -/
def unchecked (s : AdDay) : Event → Option Nat
  | .showNative i true => (s.handed[i]?).bind fun d ↦ asNative cls d.2.data
  | .showAd space now => asFullScreen cls ((s.spaces space).adDataWrap.ad now)
  | .getNativeView space now => asNative cls ((s.spaces space).adDataWrap.ad now)
  | _ => none

/-- The callers of the unchecked paths call them only below the cap. -/
def CallersCheck (s : AdDay) (e : Event) : Prop :=
  (s.unchecked cls e).isSome = true → s.isLimited J = false

/-! ### What is shown -/

/-- The ad that an event shows. -/
def shows (s : AdDay) : Event → Option Nat
  | .showFullScreen i mIsOnResume =>
    if s.canShow J mIsOnResume then (s.handed[i]?).bind fun d ↦ asFullScreen cls d.2.data else none
  | e => s.unchecked cls e

@[simp]
theorem shown_withRequester (s : AdDay) (space : String)
    (f : RequestTransmitter Nat → RequestTransmitter Nat × List (Delivery Nat)) :
    (s.withRequester space f).shown = s.shown := by
  unfold withRequester
  split <;> rfl

@[simp]
theorem shown_clearRequesterCache (s : AdDay) (space : String) :
    (s.clearRequesterCache space).shown = s.shown := by
  rw [clearRequesterCache, shown_withRequester]

@[simp]
theorem shown_updateSpace (s : AdDay) (space : AdSpace) (f : SpaceState → SpaceState) :
    (s.updateSpace space f).shown = s.shown := rfl

@[simp]
theorem shown_load (s : AdDay) (space : AdSpace) (con : Param) (rest : List Param) :
    (s.load space con rest).shown = s.shown := by
  unfold load
  split <;> rfl

variable {J} {cls}

/-- A request shows nothing. -/
theorem shown_request {s t : AdDay} {space : String} {callback : Option Nat} {now : Int}
    (h : s.request J space callback now = some t) : t.shown = s.shown := by
  unfold request at h
  split at h
  · cases h
    rw [shown_withRequester]
  · split at h
    · cases h
    · cases h
      rw [shown_withRequester]

/-- Loading for a space shows nothing. -/
theorem shown_loadAd {s t : AdDay} {space : AdSpace} {now : Int}
    (h : s.loadAd J space now = some t) : t.shown = s.shown := by
  unfold loadAd at h
  split at h
  · cases h
    rfl
  · split at h
    · cases h
      rfl
    · split at h
      · cases h
        rfl
      · rw [Option.map_eq_some_iff] at h
        obtain ⟨params, _, rfl⟩ := h
        cases params with
        | nil => rfl
        | cons con rest => rw [shown_load, shown_updateSpace]

/-- Nor does the answer. -/
theorem shown_loadAnswered (s : AdDay) (l : SpaceLoad) (ad : Option Nat) (now : Int) :
    (s.loadAnswered l ad now).shown = s.shown := by
  unfold loadAnswered
  split
  · rw [shown_updateSpace]
  · rw [shown_load]
  · rw [shown_updateSpace]

/-- What an event adds to the ads shown. -/
theorem shown_step {s t : AdDay} {e : Event} (h : s.step J cls e = some t) :
    t.shown = s.shown ++ (s.shows J cls e).toList := by
  cases e with
  | showFullScreen i mIsOnResume =>
    simp only [step, Option.map_eq_some_iff] at h
    obtain ⟨⟨space, result⟩, hd, rfl⟩ := h
    simp only [shows, hd, Option.bind_some, showFullScreen]
    split
    · cases asFullScreen cls result.data with
      | none => simp
      | some ad => rfl
    · simp
  | showNative i nativeRoot =>
    simp only [step, Option.map_eq_some_iff] at h
    obtain ⟨⟨space, result⟩, hd, rfl⟩ := h
    cases nativeRoot with
    | false => simp [shows, unchecked, showNative]
    | true =>
      simp only [shows, unchecked, showNative, hd, Option.bind_some, if_true]
      cases asNative cls result.data with
      | none => simp
      | some ad => simp [setNativeAd]
  | showAd space now =>
    cases h
    simp only [shows, unchecked, showAd]
    cases asFullScreen cls ((s.spaces space).adDataWrap.ad now) with
    | none => simp
    | some ad => rfl
  | getNativeView space now =>
    cases h
    simp only [shows, unchecked, getNativeView]
    cases asNative cls ((s.spaces space).adDataWrap.ad now) with
    | none => simp
    | some ad => rfl
  | request space callback now => simp [shows, unchecked, shown_request h]
  | loadAd space now => simp [shows, unchecked, shown_loadAd h]
  | loadAnswered i ad now =>
    simp only [step, Option.map_eq_some_iff] at h
    obtain ⟨l, _, rfl⟩ := h
    simp [shows, unchecked, shown_loadAnswered]
  | requestAnswered space i now result =>
    simp only [step, Option.map_eq_some_iff] at h
    obtain ⟨load, _, rfl⟩ := h
    simp [shows, unchecked]
  | onAdShowed i =>
    simp only [step, Option.map_eq_some_iff] at h
    obtain ⟨callback, _, rfl⟩ := h
    cases callback <;> simp [shows, unchecked, onAdShowed]
  | onAdDismissed i =>
    simp only [step, Option.map_eq_some_iff] at h
    obtain ⟨callback, _, rfl⟩ := h
    cases callback <;> simp [shows, unchecked, onAdDismissed, close]
  | onAdFailedToShow i =>
    simp only [step, Option.map_eq_some_iff] at h
    obtain ⟨callback, _, rfl⟩ := h
    cases callback <;> simp [shows, unchecked, onAdFailedToShow, close]
  | onAdClicked i =>
    simp only [step, Option.map_eq_some_iff] at h
    obtain ⟨callback, _, rfl⟩ := h
    simp [shows, unchecked]
  | manifestArrived json =>
    cases h
    simp [shows, unchecked]
  | cancelRequest space callback =>
    cases h
    simp [shows, unchecked]
  | clearCache space =>
    cases h
    simp [shows, unchecked]
  | onNativeAdClicked =>
    cases h
    simp [shows, unchecked]

/-- `showFullScreen` shows an ad only below the cap. -/
theorem isLimited_of_shows_showFullScreen {s : AdDay} {i : Nat} {mIsOnResume : Bool}
    (h : (s.shows J cls (.showFullScreen i mIsOnResume)).isSome = true) :
    s.isLimited J = false := by
  simp only [shows] at h
  split at h
  · next hc =>
    unfold canShow at hc
    cases hl : s.isLimited J with
    | false => rfl
    | true => simp [hl] at hc
  · cases h

/-- One event keeps to the cap exactly when an unchecked show is made below it. -/
theorem capped_iff_callersCheck {s t : AdDay} {e : Event} (h : s.step J cls e = some t) :
    Capped J s e t ↔ CallersCheck J cls s e := by
  have hn : t.shown ≠ s.shown ↔ (s.shows J cls e).isSome = true := by
    rw [shown_step h]
    cases s.shows J cls e <;> simp
  unfold Capped CallersCheck
  rw [hn]
  cases e with
  | showFullScreen i mIsOnResume =>
    constructor
    · intro _ hu
      cases hu
    · intro _ hs
      exact isLimited_of_shows_showFullScreen hs
  | _ => rfl

/-- On every day, from whatever state, the cap is respected exactly when every call of
`showNative`, `showAd` and `getNativeView` that has an ad to show is made below it. -/
theorem capped_throughout_iff (J : OrgJson) (cls : Nat → AdClass) (s : AdDay)
    (es : List Event) :
    Throughout (step J cls) (Capped J) s es ↔ Along (step J cls) (CallersCheck J cls) s es := by
  apply throughout_iff_along (J := fun _ ↦ True)
  · intro _ _ _ _ _
    trivial
  · intro s e t _ h
    exact capped_iff_callersCheck h
  · trivial

end Shows

/-! ### Two ads loaded before the cap is reached -/

/-- A manifest that allows one show a day. -/
def manifestText : String :=
  "\x7b\"fsp_show_num\":1,\"fsp_bk_bm\":[\x7b\"fsa_so\":\"admob\",\"fsa_tp\":\"i\"\x7d]," ++
    "\"fsp_bk_rl\":[\x7b\"fsa_so\":\"admob\",\"fsa_tp\":\"i\"\x7d]\x7d"

/-- `org.json` on that manifest. -/
def manifestJson : OrgJson where
  parse text :=
    if text = manifestText then
      let params := Json.array [.object [("fsa_so", .string "admob"), ("fsa_tp", .string "i")]]
      some [("fsp_show_num", .number "1"), ("fsp_bk_bm", params), ("fsp_bk_rl", params)]
    else none
  text
    | .number literal => literal
    | _ => ""
  int
    | .number "1" => some 1
    | _ => none

/-- The ads of the bookmark and the read-list screen are loaded, the first one is shown and
reaches the cap, and the second one is shown all the same. -/
theorem second_ad_over_cap :
    ¬ Throughout (step manifestJson fun _ ↦ .interstitialAd) (Capped manifestJson) {}
      [.manifestArrived manifestText, .loadAd .spaceBackBookmark 1, .loadAd .spaceBackReadList 2,
        .loadAnswered 0 (some 0) 3, .loadAnswered 0 (some 1) 4, .showAd .spaceBackBookmark 5,
        .onAdShowed 0, .onAdDismissed 0, .showAd .spaceBackReadList 6] := by
  intro h
  have hc := h [.manifestArrived manifestText, .loadAd .spaceBackBookmark 1,
    .loadAd .spaceBackReadList 2, .loadAnswered 0 (some 0) 3, .loadAnswered 0 (some 1) 4,
    .showAd .spaceBackBookmark 5, .onAdShowed 0, .onAdDismissed 0] (.showAd .spaceBackReadList 6)
    _ _ (List.prefix_refl _) rfl rfl
  have hl := hc (by decide)
  revert hl
  decide

end AdDay
end FastSearch.Ad
