import FastSearch.Ad.RequestResult

/-!
# Ad requests and their answers

`ad/request/RequestTransmitter.kt` with the types of ad that `ad/admob/AdmobTransmitter.kt` can
ask the SDK for. The callbacks of requests are elements of an arbitrary type. As all callers
do, a callback cancels its own request when it is invoked and does not request again; what else
it does is not modelled here, the operations return what was handed to whom. The parameters of
a space, the limit and the time come with the operation that reads them. The SDK may answer a
request at any time or never; nothing relies on a single answer.
-/

namespace FastSearch.Ad

universe u

/-- `Param`, `ad/request/Param.kt:5`. -/
structure Param where
  source : String
  dataId : String
  type : String
  sort : Int32
  deriving DecidableEq, Repr

/-- `onRequest` asks the SDK for these types, `ad/admob/AdmobTransmitter.kt:23`; for any other
it does nothing. -/
def Param.known (p : Param) : Bool := p.type == "o" || p.type == "n" || p.type == "i"

/-- `AdvertiseManager.SPACE_OPEN`. -/
def spaceOpen : String := "fsp_op"

/-- A result with its `createTime`, `ad/request/RequestResult.kt:8`. -/
structure CachedResult where
  result : RequestResult
  createTime : Int
  deriving DecidableEq, Repr

/-- `isExpired`, `ad/request/RequestResult.kt:19`. -/
def CachedResult.isExpired (c : CachedResult) (now : Int) : Bool := 3600000 ≤ now - c.createTime

/-- An entry of `mCallbacks`: a callback and the number of the registration. -/
structure Registration (κ : Type u) where
  callback : κ
  id : Nat
  deriving DecidableEq, Repr

/-- A result handed to a registration. -/
structure Delivery (κ : Type u) where
  registration : Registration κ
  result : RequestResult
  deriving DecidableEq, Repr

/-- An SDK request: the parameters, the one asked for, and whether this is the second pass. -/
structure Load where
  params : List Param
  index : Nat
  second : Bool
  deriving DecidableEq, Repr

/-- `RequestTransmitter`, `ad/request/RequestTransmitter.kt:8`, with the SDK requests made and
the number of registrations so far. -/
structure RequestTransmitter (κ : Type u) where
  space : String
  mCallbacks : List (Registration κ) := []
  mIsLoading : Bool := false
  mCachedResult : Option CachedResult := none
  loads : List Load := []
  registered : Nat := 0
  deriving DecidableEq, Repr

namespace RequestTransmitter

variable {κ : Type u} [DecidableEq κ]

/-- The oldest registration of a callback, which `mCallbacks.remove` takes out. -/
def oldest (l : List (Registration κ)) (callback : κ) : Option (Registration κ) :=
  l.find? fun r ↦ r.callback = callback

/-- `mCallbacks.remove(callback)`. -/
def remove (l : List (Registration κ)) (callback : κ) : List (Registration κ) :=
  l.eraseP fun r ↦ r.callback = callback

/-- `cancelTransmit`, `ad/request/RequestTransmitter.kt:69`. -/
def cancelTransmit (t : RequestTransmitter κ) (callback : κ) : RequestTransmitter κ :=
  { t with mCallbacks := remove t.mCallbacks callback }

/-- The loop of `notifyResult` over the copied list: a callback that is still registered is
invoked and cancels itself. -/
def notifyAll (result : RequestResult) :
    List (Registration κ) → List (Registration κ) → List (Registration κ) × List (Delivery κ)
  | [], current => (current, [])
  | r :: rest, current =>
    match oldest current r.callback with
    | some first =>
      let (l, told) := notifyAll result rest (remove current r.callback)
      (l, ⟨first, result⟩ :: told)
    | none => notifyAll result rest current

/-- `notifyResult`, `ad/request/RequestTransmitter.kt:103`. -/
def notifyResult (t : RequestTransmitter κ) (result : RequestResult) :
    RequestTransmitter κ × List (Delivery κ) :=
  let (l, told) := notifyAll result t.mCallbacks t.mCallbacks
  ({ t with mCallbacks := l }, told)

/-- `clearCache`, `ad/request/RequestTransmitter.kt:112`. -/
def clearCache (t : RequestTransmitter κ) : RequestTransmitter κ := { t with mCachedResult := none }

/-- `finalResult`, `ad/request/RequestTransmitter.kt:47`. -/
def finalResult (t : RequestTransmitter κ) (now : Int) (result : RequestResult) :
    RequestTransmitter κ × List (Delivery κ) :=
  let (t, told) := { t with mCachedResult := some ⟨result, now⟩ }.notifyResult result
  ({ t with mIsLoading := false }, told)

/-- `startLooped`, `ad/request/RequestTransmitter.kt:77`, from an index on; `receiver` is run
at the end of the list. -/
def startLooped (t : RequestTransmitter κ) (load : Load)
    (receiver : RequestTransmitter κ → RequestResult →
      RequestTransmitter κ × List (Delivery κ)) : RequestTransmitter κ × List (Delivery κ) :=
  match load.params[load.index]? with
  | none => receiver t RequestResult.forNoAd
  | some p => ({ t with loads := if p.known then t.loads ++ [load] else t.loads }, [])

/-- The receiver of the first pass, `ad/request/RequestTransmitter.kt:53`: without an ad the
open space makes a second pass. -/
def firstReceiver (params : List Param) (now : Int) (t : RequestTransmitter κ)
    (result : RequestResult) : RequestTransmitter κ × List (Delivery κ) :=
  if result.isSuccessful then t.finalResult now result
  else if t.space = spaceOpen then
    t.startLooped ⟨params, 0, true⟩ fun t result ↦ t.finalResult now result
  else t.finalResult now result

/-- The receiver that the pass of an SDK request was started with. -/
def receiverOf (load : Load) (now : Int) (t : RequestTransmitter κ) (result : RequestResult) :
    RequestTransmitter κ × List (Delivery κ) :=
  if load.second then t.finalResult now result else t.firstReceiver load.params now result

/-- The SDK answers, `ad/request/RequestTransmitter.kt:87`. -/
def answer (t : RequestTransmitter κ) (load : Load) (now : Int) (result : RequestResult) :
    RequestTransmitter κ × List (Delivery κ) :=
  if result.isSuccessful then t.receiverOf load now result
  else t.startLooped { load with index := load.index + 1 } (receiverOf load now)

/-- `mCallbacks.addIfNotNull(request.callback)`. -/
def register (t : RequestTransmitter κ) : Option κ → RequestTransmitter κ
  | some callback => { t with
      mCallbacks := t.mCallbacks ++ [⟨callback, t.registered⟩]
      registered := t.registered + 1 }
  | none => t

/-- The ad of the cached result. -/
def cachedAd (t : RequestTransmitter κ) : Option Nat := t.mCachedResult.bind (·.result.data)

/-- The cached result that `transmit` hands out at once. -/
def freshCache (t : RequestTransmitter κ) (now : Int) : Option RequestResult :=
  (t.mCachedResult.filter fun c ↦ c.result.isSuccessful && !c.isExpired now).map (·.result)

/-- A successful result that is too old is cleared. -/
def dropExpired (t : RequestTransmitter κ) (now : Int) : RequestTransmitter κ :=
  if t.mCachedResult.any fun c ↦ c.result.isSuccessful && c.isExpired now then t.clearCache else t

/-- `transmit`, `ad/request/RequestTransmitter.kt:17`. -/
def transmit (t : RequestTransmitter κ) (callback : Option κ) (limited : Bool)
    (params : List Param) (now : Int) : RequestTransmitter κ × List (Delivery κ) :=
  let t := t.register callback
  if limited then t.notifyResult RequestResult.forLimit
  else if t.mIsLoading then (t, [])
  else match t.freshCache now with
    | some cache => t.notifyResult cache
    | none =>
      { t.dropExpired now with mIsLoading := true }.startLooped ⟨params, 0, false⟩
        (firstReceiver params now)

/-! ### What the operations do to the waiting callbacks -/

omit [DecidableEq κ] in
theorem cachedAd_register (t : RequestTransmitter κ) (callback : Option κ) :
    (t.register callback).cachedAd = t.cachedAd := by
  cases callback <;> rfl

/-- Every registration is told once, in order, and none is left. -/
theorem notifyAll_self (result : RequestResult) (l : List (Registration κ)) :
    notifyAll result l l = ([], l.map (⟨·, result⟩)) := by
  induction l with
  | nil => rfl
  | cons r l ih =>
    have hf : oldest (r :: l) r.callback = some r := by simp [oldest]
    have hr : remove (r :: l) r.callback = l := by simp [remove]
    simp only [notifyAll, hf, hr, ih]
    rfl

theorem notifyResult_eq (t : RequestTransmitter κ) (result : RequestResult) :
    t.notifyResult result = ({ t with mCallbacks := [] }, t.mCallbacks.map (⟨·, result⟩)) := by
  unfold notifyResult
  rw [notifyAll_self]

theorem finalResult_eq (t : RequestTransmitter κ) (now : Int) (result : RequestResult) :
    t.finalResult now result = ({ t with
      mCallbacks := []
      mIsLoading := false
      mCachedResult := some ⟨result, now⟩ }, t.mCallbacks.map (⟨·, result⟩)) := by
  unfold finalResult
  rw [notifyResult_eq]

/-- What an operation of the transmitter comes to. `given` is the answer of the SDK, if it is
one. Either the callbacks go on waiting for a load, or all of them are told one result and none
is left; a result with an ad is the one in the cache, and only the one given is new there. -/
inductive Outcome (given : Option RequestResult) (t t' : RequestTransmitter κ)
    (told : List (Delivery κ)) : Prop where
  | waits (callbacks : t'.mCallbacks = t.mCallbacks) (nobody : told = [])
      (loading : t.mIsLoading = true → t'.mIsLoading = true)
      (cache : t'.mCachedResult = t.mCachedResult ∨ t'.mCachedResult = none)
      (registered : t'.registered = t.registered)
  | tells (result : RequestResult) (callbacks : t'.mCallbacks = [])
      (all : told = t.mCallbacks.map (⟨·, result⟩))
      (cache : t'.mCachedResult = t.mCachedResult ∨ t'.mCachedResult = none ∨
        t'.mCachedResult.map (·.result) = some result ∧ (result.data = none ∨ given = some result))
      (cached : result.data = none ∨ t'.mCachedResult.map (·.result) = some result)
      (registered : t'.registered = t.registered)

omit [DecidableEq κ] in
/-- Only the ad that the SDK gave is new in the cache. -/
theorem Outcome.cachedAd {given : Option RequestResult} {t t' : RequestTransmitter κ}
    {told : List (Delivery κ)} (h : Outcome given t t' told) {x : Nat}
    (hx : t'.cachedAd = some x) : t.cachedAd = some x ∨ given.bind (·.data) = some x := by
  unfold RequestTransmitter.cachedAd at hx ⊢
  cases h with
  | waits callbacks nobody loading cache registered =>
    rcases cache with hc | hc
    · exact Or.inl (hc ▸ hx)
    · rw [hc] at hx
      cases hx
  | tells result callbacks all cache cached registered =>
    rcases cache with hc | hc | ⟨hc, hg⟩
    · exact Or.inl (hc ▸ hx)
    · rw [hc] at hx
      cases hx
    · have hd : result.data = some x := by
        rw [Option.map_eq_some_iff] at hc
        obtain ⟨c, hc, rfl⟩ := hc
        rw [hc] at hx
        exact hx
      rcases hg with hn | hg
      · rw [hn] at hd
        cases hd
      · rw [hg]
        exact Or.inr hd

omit [DecidableEq κ] in
/-- Whoever is told an ad is told the cached one. -/
theorem Outcome.told_cached {given : Option RequestResult} {t t' : RequestTransmitter κ}
    {told : List (Delivery κ)} (h : Outcome given t t' told) {d : Delivery κ} (hd : d ∈ told)
    {x : Nat} (hx : d.result.data = some x) : t'.cachedAd = some x := by
  cases h with
  | waits callbacks nobody loading cache registered =>
    rw [nobody] at hd
    cases hd
  | tells result callbacks all cache cached registered =>
    rw [all, List.mem_map] at hd
    obtain ⟨r, _, rfl⟩ := hd
    rcases cached with hn | hc
    · rw [hn] at hx
      cases hx
    · rw [Option.map_eq_some_iff] at hc
      obtain ⟨c, hc, rfl⟩ := hc
      unfold RequestTransmitter.cachedAd
      rw [hc]
      exact hx

/-- The end of a load caches its result and tells it. -/
theorem outcome_finalResult {given : Option RequestResult} (t : RequestTransmitter κ) (now : Int)
    {result : RequestResult} (hs : result.data = none ∨ given = some result) :
    Outcome given t (t.finalResult now result).1 (t.finalResult now result).2 := by
  rw [finalResult_eq]
  exact .tells result rfl rfl (Or.inr (Or.inr ⟨rfl, hs⟩)) (Or.inr rfl) rfl

omit [DecidableEq κ] in
/-- A pass waits for the SDK or runs its receiver without an ad. -/
theorem outcome_startLooped {given : Option RequestResult} (t : RequestTransmitter κ)
    (load : Load) {receiver : RequestTransmitter κ → RequestResult →
      RequestTransmitter κ × List (Delivery κ)}
    (hr : Outcome given t (receiver t RequestResult.forNoAd).1
      (receiver t RequestResult.forNoAd).2) :
    Outcome given t (t.startLooped load receiver).1 (t.startLooped load receiver).2 := by
  unfold startLooped
  split
  · exact hr
  · exact .waits rfl rfl id (Or.inl rfl) rfl

theorem outcome_firstReceiver {given : Option RequestResult} (t : RequestTransmitter κ)
    (params : List Param) (now : Int) {result : RequestResult}
    (hs : result.data = none ∨ given = some result) :
    Outcome given t (t.firstReceiver params now result).1
      (t.firstReceiver params now result).2 := by
  unfold firstReceiver
  split
  · exact outcome_finalResult t now hs
  · split
    · exact outcome_startLooped t _ (outcome_finalResult t now (Or.inl rfl))
    · exact outcome_finalResult t now hs

theorem outcome_receiverOf {given : Option RequestResult} (t : RequestTransmitter κ)
    (load : Load) (now : Int) {result : RequestResult}
    (hs : result.data = none ∨ given = some result) :
    Outcome given t (t.receiverOf load now result).1 (t.receiverOf load now result).2 := by
  unfold receiverOf
  split
  · exact outcome_finalResult t now hs
  · exact outcome_firstReceiver t load.params now hs

/-- An answer of the SDK. -/
theorem outcome_answer (t : RequestTransmitter κ) (load : Load) (now : Int)
    (result : RequestResult) :
    Outcome (some result) t (t.answer load now result).1 (t.answer load now result).2 := by
  unfold answer
  split
  · exact outcome_receiverOf t load now (Or.inr rfl)
  · exact outcome_startLooped t _ (outcome_receiverOf t load now (Or.inl rfl))

omit [DecidableEq κ] in
private theorem freshCache_eq {t : RequestTransmitter κ} {now : Int} {cache : RequestResult}
    (h : t.freshCache now = some cache) : t.mCachedResult.map (·.result) = some cache := by
  unfold freshCache at h
  rw [Option.map_eq_some_iff] at h
  obtain ⟨c, hc, rfl⟩ := h
  rw [Option.filter_eq_some_iff] at hc
  rw [hc.1]
  rfl

omit [DecidableEq κ] in
private theorem dropExpired_cases (t : RequestTransmitter κ) (now : Int) :
    t.dropExpired now = t ∨ t.dropExpired now = t.clearCache := by
  unfold dropExpired
  split
  · exact Or.inr rfl
  · exact Or.inl rfl

omit [DecidableEq κ] in
/-- A load that was started, seen from before its start. -/
private theorem outcome_started {t t' : RequestTransmitter κ} {now : Int}
    {told : List (Delivery κ)}
    (h : Outcome none { t.dropExpired now with mIsLoading := true } t' told) :
    Outcome none t t' told ∧ (t'.mCallbacks = [] ∨ t'.mIsLoading = true) := by
  have hd : (t.dropExpired now).mCallbacks = t.mCallbacks ∧
      (t.dropExpired now).registered = t.registered ∧
      ((t.dropExpired now).mCachedResult = t.mCachedResult ∨
        (t.dropExpired now).mCachedResult = none) := by
    rcases dropExpired_cases t now with he | he
    · rw [he]
      exact ⟨rfl, rfl, Or.inl rfl⟩
    · rw [he]
      exact ⟨rfl, rfl, Or.inr rfl⟩
  obtain ⟨hcb, hreg, hcache⟩ := hd
  cases h with
  | waits callbacks nobody loading cache registered =>
    have hl : t'.mIsLoading = true := loading rfl
    refine ⟨.waits (callbacks.trans hcb) nobody (fun _ ↦ hl) ?_ (registered.trans hreg),
      Or.inr hl⟩
    rcases cache with hc | hc
    · exact hcache.imp hc.trans hc.trans
    · exact Or.inr hc
  | tells result callbacks all cache cached registered =>
    refine ⟨.tells result callbacks ?_ ?_ cached (registered.trans hreg), Or.inl callbacks⟩
    · rw [all]
      exact congrArg (List.map _) hcb
    · rcases cache with hc | hc
      · rcases hcache with h | h
        · exact Or.inl (hc.trans h)
        · exact Or.inr (Or.inl (hc.trans h))
      · exact Or.inr hc

/-- A request, seen from the list with the new registration; whoever waits after it waits for
a load. -/
theorem outcome_transmit (t : RequestTransmitter κ) (callback : Option κ) (limited : Bool)
    (params : List Param) (now : Int) :
    Outcome none (t.register callback) (t.transmit callback limited params now).1
        (t.transmit callback limited params now).2 ∧
      ((t.transmit callback limited params now).1.mCallbacks = [] ∨
        (t.transmit callback limited params now).1.mIsLoading = true) := by
  unfold transmit
  dsimp only
  split
  · rw [notifyResult_eq]
    exact ⟨.tells _ rfl rfl (Or.inl rfl) (Or.inl rfl) rfl, Or.inl rfl⟩
  · split
    · next hl => exact ⟨.waits rfl rfl id (Or.inl rfl) rfl, Or.inr hl⟩
    · split
      · next cache hc =>
        rw [notifyResult_eq]
        exact ⟨.tells _ rfl rfl (Or.inl rfl) (Or.inr (freshCache_eq hc)) rfl,
          Or.inl rfl⟩
      · apply outcome_started
        apply outcome_startLooped
        exact outcome_firstReceiver _ params now (Or.inl rfl)

end RequestTransmitter
end FastSearch.Ad
