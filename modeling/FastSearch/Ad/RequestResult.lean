/-!
# Ad request results

`ad/request/RequestResult.kt`. A result has a code and possibly an ad object; here an ad
object is its number. The code of a failed load is the message of the SDK, any string.
-/

namespace FastSearch.Ad

/-- `RequestResult`, `ad/request/RequestResult.kt:4`. -/
structure RequestResult where
  code : String
  data : Option Nat
  deriving DecidableEq, Repr

namespace RequestResult

/-- `CODE_SUCCESS`. -/
def codeSuccess : String := "success"

/-- `CODE_NO_AD`. -/
def codeNoAd : String := "no_ad"

/-- `CODE_LIMIT`. -/
def codeLimit : String := "limit"

/-- `isSuccessful`, `ad/request/RequestResult.kt:10`. -/
def isSuccessful (r : RequestResult) : Bool := r.code == codeSuccess && r.data.isSome

/-- `isLimited`, `ad/request/RequestResult.kt:14`. -/
def isLimited (r : RequestResult) : Bool := r.code == codeLimit

/-- `forError`, `ad/request/RequestResult.kt:36`. -/
def forError (code : String) : RequestResult := ⟨code, none⟩

/-- `forLimit`, `ad/request/RequestResult.kt:28`. -/
def forLimit : RequestResult := forError codeLimit

/-- `forNoAd`, `ad/request/RequestResult.kt:32`. -/
def forNoAd : RequestResult := forError codeNoAd

/-- `forResult`, `ad/request/RequestResult.kt:42`. -/
def forResult (data : Nat) : RequestResult := ⟨codeSuccess, some data⟩

end RequestResult

/-- The classes of ad objects. -/
inductive AdClass where
  | appOpenAd
  | interstitialAd
  | nativeAd
  deriving DecidableEq, Repr

section

variable (cls : Nat → AdClass)

/-- `data as? NativeAd`, for the classes that the ad objects have. -/
def asNative (data : Option Nat) : Option Nat := data.filter fun ad ↦ cls ad = .nativeAd

/-- The branches `is AppOpenAd` and `is InterstitialAd`. -/
def asFullScreen (data : Option Nat) : Option Nat := data.filter fun ad ↦ cls ad ≠ .nativeAd

end

end FastSearch.Ad
