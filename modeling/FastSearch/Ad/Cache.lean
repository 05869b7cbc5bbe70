import Mathlib.Data.List.Sort
import FastSearch.Server.Repository
import FastSearch.Ad.RequestTransmitter

/-!
# The ad manifest and the daily cap

`ad/Cache.kt` and the readers of `ad/manager/AdvertiseManager.kt`. The counters are kept under
the date, so within one day they are two numbers. `setAdLimitData` assigns both limits from the
manifest before every comparison, so the limits are no state of their own.
-/

namespace FastSearch.Ad

open Server

/-- The remote manifest, `remote/ConfigManager.kt:24`, and the one shipped with the app. -/
structure Manifest where
  mAdManifestJson : String := ""
  mLocalAdJson : String := ""
  deriving DecidableEq, Repr

/-- `Param.from`, `ad/request/Param.kt:21`, with the source's field names. -/
def Param.ofJson (J : OrgJson) (json : List (String × Json)) : Param where
  source := J.optString json "fsa_so"
  dataId := J.optString json "fsa_dt"
  type := J.optString json "fsa_tp"
  sort := J.optInt json "fsa_st"

namespace Manifest

/-- `parseLimitField`, `ad/manager/AdvertiseManager.kt:83`. -/
def parseLimitField (J : OrgJson) (m : Manifest) (key : String) : Int32 :=
  match J.parse m.mAdManifestJson with
  | some o => J.optInt o key
  | none =>
    match J.parse m.mLocalAdJson with
    | some o => J.optInt o key
    | none => 50

/-- A limit as `setAdLimitData` leaves it, `ad/Cache.kt:23`: zero stands for the default. -/
def limitOr (J : OrgJson) (m : Manifest) (key : String) (default : Int32) : Int32 :=
  if m.parseLimitField J key = 0 then default else m.parseLimitField J key

/-- `adClickLimitNum`. -/
def adClickLimitNum (J : OrgJson) (m : Manifest) : Int32 := m.limitOr J "fsp_click_num" 15

/-- `adShowLimitNum`. -/
def adShowLimitNum (J : OrgJson) (m : Manifest) : Int32 := m.limitOr J "fsp_show_num" 50

/-- `parseRequestParam`, `ad/manager/AdvertiseManager.kt:89`; `none` when the reader throws. -/
def parseRequestParam (J : OrgJson) (json space : String) : Option (List Param) :=
  match (J.parse json).bind fun o ↦ OrgJson.optJSONArray o space with
  | none => some []
  | some xs => optListObj (Param.ofJson J) xs

/-- `getRequestParams`, `ad/manager/AdvertiseManager.kt:45`; `none` when the reader throws. -/
def getRequestParams (J : OrgJson) (m : Manifest) (space : String) : Option (List Param) := do
  let remote ← parseRequestParam J m.mAdManifestJson space
  let params ← if remote.isEmpty then parseRequestParam J m.mLocalAdJson space else some remote
  return (params.filter fun p ↦ p.source == "admob").insertionSort fun a b ↦ b.sort ≤ a.sort

/-- Reading comes first, then filter and sort. -/
theorem getRequestParams_eq (J : OrgJson) (m : Manifest) (space : String) :
    m.getRequestParams J space =
      ((parseRequestParam J m.mAdManifestJson space).bind fun remote ↦
        if remote.isEmpty then parseRequestParam J m.mLocalAdJson space else some remote).map
        fun params ↦
          (params.filter fun p ↦ p.source == "admob").insertionSort fun a b ↦ b.sort ≤ a.sort := by
  unfold getRequestParams
  cases parseRequestParam J m.mAdManifestJson space with
  | none => rfl
  | some remote =>
    cases remote with
    | nil => cases parseRequestParam J m.mLocalAdJson space <;> rfl
    | cons p ps => rfl

end Manifest

/-- `mClickCount` and `mShowCount` of the day, `ad/Cache.kt:10`. -/
structure Counts where
  mClickCount : Int32 := 0
  mShowCount : Int32 := 0
  deriving DecidableEq, Repr

/-- `isAdUpperLimit`, `ad/Cache.kt:34`. -/
def isAdUpperLimit (J : OrgJson) (m : Manifest) (c : Counts) : Bool :=
  m.adClickLimitNum J ≤ c.mClickCount || m.adShowLimitNum J ≤ c.mShowCount

/-- `mClickCount++`. -/
def Counts.click (c : Counts) : Counts := { c with mClickCount := c.mClickCount + 1 }

/-- `mShowCount++`. -/
def Counts.show (c : Counts) : Counts := { c with mShowCount := c.mShowCount + 1 }

end FastSearch.Ad
