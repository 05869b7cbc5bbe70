import FastSearch.Lib.Waterfall
import FastSearch.Ad.DailyCap

/-!
# The two ad waterfalls

One load of `ad/request/RequestTransmitter.kt` and one of `ad/admob/AdUtils.kt`, with the SDK
answering each of its requests once. Both go on only from the callback of the entry that was
asked, and an entry whose type is not `o`, `n` or `i` has none: `AdmobTransmitter.onRequest`
and `AdImpl.loadAd` do nothing for it. Both are shown to be a `Waterfall`, the open space of the
transmitter one over its entries twice.
-/

namespace FastSearch.Ad

open Server

universe u

/-- An answer of the SDK: an ad, or the message of an error. -/
inductive SdkAnswer where
  | loaded (ad : Nat)
  | failed (message : String)
  deriving DecidableEq, Repr

namespace SdkAnswer

/-- `onRequestSuccess` and `onRequestError`, `ad/admob/AdmobTransmitter.kt:90`. -/
def result : SdkAnswer → RequestResult
  | .loaded ad => .forResult ad
  | .failed message => .forError message

/-- The ad, if there is one. -/
def ad : SdkAnswer → Option Nat
  | .loaded ad => some ad
  | .failed _ => none

/-- The SDK has an ad. -/
def isLoaded (a : SdkAnswer) : Bool := a.ad.isSome

theorem isSuccessful_result (a : SdkAnswer) : a.result.isSuccessful = a.isLoaded := by
  cases a <;> simp [result, RequestResult.forResult, RequestResult.forError,
    RequestResult.isSuccessful, isLoaded, ad]

end SdkAnswer

/-- The answers to the requests of a load, in the order of the requests, with their times. -/
structure SdkAnswers where
  answer : Nat → SdkAnswer
  time : Nat → Int

/-- Which requests are answered with an ad. -/
def SdkAnswers.ok (A : SdkAnswers) (n : Nat) : Bool := (A.answer n).isLoaded

/-- The time of the last of `n` answers, or of the call. -/
def SdkAnswers.timeOf (A : SdkAnswers) (now : Int) : Nat → Int
  | 0 => now
  | n + 1 => A.time n

/-- The entry an SDK request is for. -/
def Load.param (l : Load) : Option Param := l.params[l.index]?

/-- The type of the entry is one that the SDK is asked for. -/
def Load.able (l : Load) : Bool := l.param.any (·.known)

/-- The requests of a load that never succeeds: the entries in their order, and once more for
the open space. -/
def requestsOf (space : String) (params : List Param) : List Load :=
  (List.range params.length).map (⟨params, ·, false⟩) ++
    if space = spaceOpen then (List.range params.length).map (⟨params, ·, true⟩) else []

/-! ### The requests in order -/

theorem requestsOf_first {space : String} {params : List Param} {n : Nat}
    (hn : n < params.length) : (requestsOf space params)[n]? = some ⟨params, n, false⟩ := by
  rw [requestsOf, List.getElem?_append_left (by simpa using hn)]
  simp [hn]

theorem requestsOf_second {space : String} {params : List Param} {i : Nat}
    (hs : space = spaceOpen) (hi : i < params.length) :
    (requestsOf space params)[params.length + i]? = some ⟨params, i, true⟩ := by
  rw [requestsOf, if_pos hs, List.getElem?_append_right (by simp)]
  simp [hi]

theorem length_requestsOf (space : String) (params : List Param) :
    (requestsOf space params).length =
      if space = spaceOpen then params.length + params.length else params.length := by
  unfold requestsOf
  split <;> simp

/-- A request is one of the first pass, or one of the second pass of the open space. -/
theorem requestsOf_cases {space : String} {params : List Param} {n : Nat} {l : Load}
    (h : (requestsOf space params)[n]? = some l) :
    (n < params.length ∧ l = ⟨params, n, false⟩) ∨
      ∃ i, space = spaceOpen ∧ n = params.length + i ∧ i < params.length ∧
        l = ⟨params, i, true⟩ := by
  by_cases hn : n < params.length
  · rw [requestsOf_first hn] at h
    exact Or.inl ⟨hn, (Option.some.inj h).symm⟩
  · obtain ⟨hlt, _⟩ := List.getElem?_eq_some_iff.mp h
    rw [length_requestsOf] at hlt
    split at hlt
    · next hs =>
      have hi : n - params.length < params.length := by omega
      have he : n = params.length + (n - params.length) := by omega
      rw [he, requestsOf_second hs hi] at h
      exact Or.inr ⟨_, hs, he, hi, (Option.some.inj h).symm⟩
    · exact absurd hlt hn

namespace RequestTransmitter

variable {κ : Type u} [DecidableEq κ]

/-- Go on to a request, or end the load without an ad. -/
def ask (t : RequestTransmitter κ) (requests : List Load) (now : Int) (n : Nat) :
    RequestTransmitter κ × List (Delivery κ) :=
  match requests[n]? with
  | some l => ({ t with loads := if l.able then t.loads ++ [l] else t.loads }, [])
  | none => t.finalResult now .forNoAd

omit [DecidableEq κ] in
theorem startLooped_some {t : RequestTransmitter κ} {l : Load} (h : l.index < l.params.length)
    (receiver : RequestTransmitter κ → RequestResult →
      RequestTransmitter κ × List (Delivery κ)) :
    t.startLooped l receiver =
      ({ t with loads := if l.able then t.loads ++ [l] else t.loads }, []) := by
  have hp : l.params[l.index]? = some l.params[l.index] := List.getElem?_eq_getElem h
  simp only [startLooped, hp, Load.able, Load.param, Option.any_some]

omit [DecidableEq κ] in
theorem startLooped_none {t : RequestTransmitter κ} {l : Load} (h : l.params.length ≤ l.index)
    (receiver : RequestTransmitter κ → RequestResult →
      RequestTransmitter κ × List (Delivery κ)) :
    t.startLooped l receiver = receiver t .forNoAd := by
  have hp : l.params[l.index]? = none := List.getElem?_eq_none h
  simp only [startLooped, hp]

/-- The first pass ends without an ad. -/
theorem firstReceiver_forNoAd (t : RequestTransmitter κ) (params : List Param) (now : Int) :
    t.firstReceiver params now .forNoAd =
      t.ask (requestsOf t.space params) now params.length := by
  have hn : RequestResult.forNoAd.isSuccessful = false := rfl
  rw [firstReceiver, hn, if_neg Bool.false_ne_true, ask]
  by_cases hs : t.space = spaceOpen
  · rw [if_pos hs]
    cases params with
    | nil => simp [startLooped_none, requestsOf]
    | cons p ps =>
      have h0 : 0 < (p :: ps).length := Nat.zero_lt_succ _
      have hl := requestsOf_second hs h0
      rw [Nat.add_zero] at hl
      rw [hl, startLooped_some h0]
  · have hl : (requestsOf t.space params)[params.length]? = none := by
      apply List.getElem?_eq_none
      rw [length_requestsOf, if_neg hs]
    rw [if_neg hs, hl]

/-- A failed request goes on to the next one. -/
theorem answer_failed {t : RequestTransmitter κ} {params : List Param} {n : Nat} {l : Load}
    (hl : (requestsOf t.space params)[n]? = some l) (now : Int) {r : RequestResult}
    (hr : r.isSuccessful = false) :
    t.answer l now r = t.ask (requestsOf t.space params) now (n + 1) := by
  rw [answer, hr, if_neg Bool.false_ne_true]
  rcases requestsOf_cases hl with ⟨hn, rfl⟩ | ⟨i, hs, rfl, hi, rfl⟩
  · by_cases hlast : n + 1 < params.length
    · rw [startLooped_some hlast, ask, requestsOf_first hlast]
    · have he : n + 1 = params.length := by omega
      rw [startLooped_none (Nat.le_of_not_lt hlast), he]
      exact firstReceiver_forNoAd t params now
  · by_cases hlast : i + 1 < params.length
    · rw [startLooped_some hlast, ask, Nat.add_assoc, requestsOf_second hs hlast]
    · have hnone : (requestsOf t.space params)[params.length + i + 1]? = none := by
        apply List.getElem?_eq_none
        rw [length_requestsOf, if_pos hs]
        omega
      rw [startLooped_none (Nat.le_of_not_lt hlast), ask, hnone]
      rfl

/-- A request that succeeds ends the load with its result. -/
theorem answer_loaded {t : RequestTransmitter κ} (l : Load) (now : Int) {r : RequestResult}
    (hr : r.isSuccessful = true) : t.answer l now r = t.finalResult now r := by
  rw [answer, if_pos hr, receiverOf]
  split
  · rfl
  · rw [firstReceiver, if_pos hr]

/-- The transmitter when `transmit` starts a load. -/
def started (t : RequestTransmitter κ) (callback : Option κ) (now : Int) : RequestTransmitter κ :=
  { (t.register callback).dropExpired now with mIsLoading := true }

omit [DecidableEq κ] in
/-- Only an expired result is dropped at the start. -/
theorem started_eq (t : RequestTransmitter κ) (callback : Option κ) (now : Int) :
    ∃ cache, (cache = t.mCachedResult ∨ cache = none) ∧
      t.started callback now =
        { t.register callback with mCachedResult := cache, mIsLoading := true } := by
  have hreg : (t.register callback).mCachedResult = t.mCachedResult := by cases callback <;> rfl
  unfold started dropExpired
  split
  · exact ⟨none, Or.inr rfl, rfl⟩
  · exact ⟨_, Or.inl hreg, rfl⟩

omit [DecidableEq κ] in
theorem space_started (t : RequestTransmitter κ) (callback : Option κ) (now : Int) :
    (t.started callback now).space = t.space := by
  obtain ⟨cache, _, hs⟩ := started_eq t callback now
  rw [hs]
  cases callback <;> rfl

omit [DecidableEq κ] in
theorem loads_started (t : RequestTransmitter κ) (callback : Option κ) (now : Int) :
    (t.started callback now).loads = t.loads := by
  obtain ⟨cache, _, hs⟩ := started_eq t callback now
  rw [hs]
  cases callback <;> rfl

/-- `transmit` starts a load with the first request. -/
theorem transmit_eq_ask {t : RequestTransmitter κ} {now : Int} (hl : t.mIsLoading = false)
    (hc : t.freshCache now = none) (callback : Option κ) (params : List Param) :
    t.transmit callback false params now =
      (t.started callback now).ask (requestsOf t.space params) now 0 := by
  have hl' : (t.register callback).mIsLoading = false := by cases callback <;> exact hl
  have hc' : (t.register callback).freshCache now = none := by cases callback <;> exact hc
  simp only [transmit, hl', hc', Bool.false_eq_true, if_false]
  change (t.started callback now).startLooped _ _ = _
  rw [← space_started t callback now]
  cases params with
  | nil =>
    rw [startLooped_none (Nat.le_refl _)]
    exact firstReceiver_forNoAd _ [] now
  | cons p ps =>
    have h0 : 0 < (p :: ps).length := Nat.zero_lt_succ _
    rw [startLooped_some h0, ask, requestsOf_first h0]

end RequestTransmitter

/-! ### The transmitter is a waterfall -/

/-- A transmitter during one load, how many requests the SDK has answered, and what was told
since the load began. -/
structure TransmitterRun (κ : Type u) where
  transmitter : RequestTransmitter κ
  answered : Nat
  told : List (Delivery κ)

namespace TransmitterRun

variable {κ : Type u} [DecidableEq κ]

/-- `transmit` is called below the cap; the requests of earlier loads are answered. -/
def start (t : RequestTransmitter κ) (callback : Option κ) (params : List Param) (now : Int) :
    TransmitterRun κ :=
  let (t', told) := t.transmit callback false params now
  ⟨t', t.loads.length, told⟩

/-- The SDK answers the request it has not answered yet. -/
def respond (s : TransmitterRun κ) (a : SdkAnswer) (time : Int) : TransmitterRun κ :=
  match s.transmitter.loads[s.answered]? with
  | some load =>
    let (t, told) := s.transmitter.answer load time a.result
    ⟨t, s.answered + 1, s.told ++ told⟩
  | none => s

/-- The run after some answers. -/
def drive (s : TransmitterRun κ) (A : SdkAnswers) : Nat → TransmitterRun κ
  | 0 => s
  | n + 1 => (s.drive A n).respond (A.answer n) (A.time n)

/-- The transmitter after its first `n` requests. -/
def asked (t : RequestTransmitter κ) (requests : List Load) (n : Nat) : RequestTransmitter κ :=
  { t with loads := t.loads ++ requests.take n }

omit [DecidableEq κ] in
theorem asked_zero (t : RequestTransmitter κ) (requests : List Load) : asked t requests 0 = t := by
  simp [asked]

/-- A load that has ended with a result; nothing is left to answer. -/
def finished (t : RequestTransmitter κ) (time : Int) (result : RequestResult) :
    TransmitterRun κ where
  transmitter := (t.finalResult time result).1
  answered := t.loads.length
  told := (t.finalResult time result).2

/-- The run that a phase of the waterfall stands for. -/
def ofPhase (t : RequestTransmitter κ) (requests : List Load) (A : SdkAnswers) (now : Int) :
    Waterfall.Phase → TransmitterRun κ
  | .asking n => ⟨asked t requests (n + 1), (asked t requests n).loads.length, []⟩
  | .stuck n => ⟨asked t requests n, (asked t requests n).loads.length, []⟩
  | .won n => finished (asked t requests (n + 1)) (A.time n) (A.answer n).result
  | .lost => finished (asked t requests requests.length) (A.timeOf now requests.length) .forNoAd

/-- The requests whose entry has a type that the SDK is asked for. -/
def able (requests : List Load) (n : Nat) : Bool := requests[n]?.any (·.able)

/-- Going on to a request is going on in the waterfall. -/
theorem ask_ofPhase (t : RequestTransmitter κ) (requests : List Load) (A : SdkAnswers) (now : Int)
    {n : Nat} (hn : n ≤ requests.length) :
    (⟨((asked t requests n).ask requests (A.timeOf now n) n).1, (asked t requests n).loads.length,
      ((asked t requests n).ask requests (A.timeOf now n) n).2⟩ : TransmitterRun κ) =
      ofPhase t requests A now (Waterfall.ask requests.length (able requests) n) := by
  unfold RequestTransmitter.ask Waterfall.ask
  by_cases hlt : n < requests.length
  · have hg : requests[n]? = some requests[n] := List.getElem?_eq_getElem hlt
    have ha : able requests n = requests[n].able := by simp [able, hg]
    rw [hg, if_pos hlt, ha]
    cases hb : requests[n].able with
    | true =>
      simp only [hb, if_true, ofPhase, asked, List.append_assoc, List.take_append_getElem]
    | false => simp only [hb, Bool.false_eq_true, if_false, ofPhase]
  · obtain rfl : n = requests.length := by omega
    have hg : requests[requests.length]? = none := List.getElem?_eq_none (Nat.le_refl _)
    rw [hg, if_neg hlt]
    rfl

/-- Without an outstanding request nothing is answered. -/
private theorem respond_of_answered {s : TransmitterRun κ}
    (h : s.transmitter.loads.length ≤ s.answered) (a : SdkAnswer) (time : Int) :
    s.respond a time = s := by
  unfold respond
  rw [List.getElem?_eq_none h]

theorem loads_finished (t : RequestTransmitter κ) (time : Int) (result : RequestResult) :
    (finished t time result).transmitter.loads = t.loads := by
  rw [finished, RequestTransmitter.finalResult_eq]

/-- The answer to a request is the answer in the waterfall. -/
theorem respond_asking {t : RequestTransmitter κ} {params : List Param} {n : Nat}
    (hn : n < (requestsOf t.space params).length) (A : SdkAnswers) (now : Int) :
    (ofPhase t (requestsOf t.space params) A now (.asking n)).respond (A.answer n) (A.time n) =
      ofPhase t (requestsOf t.space params) A now
        (Waterfall.respond (requestsOf t.space params).length
          (able (requestsOf t.space params)) (.asking n) (A.ok n)) := by
  have hsucc : (asked t (requestsOf t.space params) (n + 1)).loads =
      (asked t (requestsOf t.space params) n).loads ++ [(requestsOf t.space params)[n]] := by
    simp only [asked, List.append_assoc, List.take_append_getElem]
  have hload : (asked t (requestsOf t.space params) (n + 1)).loads[
      (asked t (requestsOf t.space params) n).loads.length]? =
        some (requestsOf t.space params)[n] := by
    rw [hsucc, List.getElem?_append_right (Nat.le_refl _), Nat.sub_self]
    rfl
  have hlen : (asked t (requestsOf t.space params) n).loads.length + 1 =
      (asked t (requestsOf t.space params) (n + 1)).loads.length := by
    rw [hsucc, List.length_append]
    rfl
  have hresp : (ofPhase t (requestsOf t.space params) A now (.asking n)).respond (A.answer n)
      (A.time n) =
      let (t', told) := (asked t (requestsOf t.space params) (n + 1)).answer
        (requestsOf t.space params)[n] (A.time n) (A.answer n).result
      ⟨t', (asked t (requestsOf t.space params) (n + 1)).loads.length, told⟩ := by
    simp only [ofPhase, respond, hload, List.nil_append, hlen]
  have hsuccess : (A.answer n).result.isSuccessful = A.ok n := SdkAnswer.isSuccessful_result _
  rw [hresp]
  by_cases hok : A.ok n = true
  · rw [RequestTransmitter.answer_loaded _ _ (hsuccess.trans hok), Waterfall.respond, if_pos hok]
    rfl
  · have hf := RequestTransmitter.answer_failed
      (t := asked t (requestsOf t.space params) (n + 1)) (List.getElem?_eq_getElem hn)
      (A.time n) (hsuccess.trans (Bool.eq_false_iff.mpr hok))
    rw [hf, Waterfall.respond, if_neg hok]
    exact ask_ofPhase t (requestsOf t.space params) A now hn

/-- The run of a load is the run of the waterfall over its requests. -/
theorem drive_eq_ofPhase {t : RequestTransmitter κ} {now : Int} (hl : t.mIsLoading = false)
    (hc : t.freshCache now = none) (callback : Option κ) (params : List Param) (A : SdkAnswers)
    (k : Nat) :
    (start t callback params now).drive A k =
      ofPhase (t.started callback now) (requestsOf t.space params) A now
        (Waterfall.after (requestsOf t.space params).length (able (requestsOf t.space params))
          A.ok k) := by
  have hspace := RequestTransmitter.space_started t callback now
  induction k with
  | zero =>
    have ha := ask_ofPhase (t.started callback now) (requestsOf t.space params) A now
      (Nat.zero_le _)
    rw [asked_zero, RequestTransmitter.loads_started] at ha
    rw [Waterfall.after, ← ha, drive, start, RequestTransmitter.transmit_eq_ask hl hc]
    rfl
  | succ k ih =>
    rw [drive, ih, Waterfall.after]
    cases hp : Waterfall.after (requestsOf t.space params).length
        (able (requestsOf t.space params)) A.ok k with
    | asking n =>
      obtain ⟨rfl, hn, _⟩ := Waterfall.after_eq_asking hp
      rw [← hspace] at hn ⊢
      exact respond_asking hn A now
    | stuck n => exact respond_of_answered (Nat.le_refl _) _ _
    | won n => exact respond_of_answered (by rw [ofPhase, loads_finished]; rfl) _ _
    | lost => exact respond_of_answered (by rw [ofPhase, loads_finished]; rfl) _ _

/-- The transmitter is loading until the waterfall ends. -/
theorem mIsLoading_ofPhase {t : RequestTransmitter κ} (ht : t.mIsLoading = true)
    (requests : List Load) (A : SdkAnswers) (now : Int) (p : Waterfall.Phase) :
    (ofPhase t requests A now p).transmitter.mIsLoading = !p.ended := by
  cases p with
  | asking n => exact ht
  | stuck n => exact ht
  | won n =>
    rw [ofPhase, finished, RequestTransmitter.finalResult_eq]
    rfl
  | lost =>
    rw [ofPhase, finished, RequestTransmitter.finalResult_eq]
    rfl

end TransmitterRun

/-! ### When a load ends -/

/-- Every entry of another type than `o`, `n` and `i` comes after an entry that the SDK answers
with an ad. -/
def EntriesPassable (params : List Param) (A : SdkAnswers) : Prop :=
  ∀ i p, params[i]? = some p → p.known = false → ∃ j < i, A.ok j = true

/-- The second pass of the open space adds nothing to the condition. -/
theorem passable_requestsOf (space : String) (params : List Param) (A : SdkAnswers) :
    Waterfall.Passable (requestsOf space params).length
        (TransmitterRun.able (requestsOf space params)) A.ok ↔ EntriesPassable params A := by
  constructor
  · intro h i p hp hk
    obtain ⟨hi, _⟩ := List.getElem?_eq_some_iff.mp hp
    have hr : (requestsOf space params)[i]? = some ⟨params, i, false⟩ := requestsOf_first hi
    apply h i (List.getElem?_eq_some_iff.mp hr).1
    simp [TransmitterRun.able, hr, Load.able, Load.param, hp, hk]
  · intro h n hn ha
    have hr : (requestsOf space params)[n]? = some (requestsOf space params)[n] :=
      List.getElem?_eq_getElem hn
    rw [TransmitterRun.able, hr] at ha
    rcases requestsOf_cases hr with ⟨hlt, he⟩ | ⟨i, _, rfl, hi, he⟩
    · rw [he] at ha
      have hp : params[n]? = some params[n] := List.getElem?_eq_getElem hlt
      exact h n _ hp (by simpa [Load.able, Load.param, hp] using ha)
    · rw [he] at ha
      have hp : params[i]? = some params[i] := List.getElem?_eq_getElem hi
      obtain ⟨j, hj, hok⟩ := h i _ hp (by simpa [Load.able, Load.param, hp] using ha)
      exact ⟨j, by omega, hok⟩

/-- A load of a transmitter ends exactly when every entry of another type comes after a
success. -/
theorem TransmitterRun.ends_iff {κ : Type u} [DecidableEq κ] {t : RequestTransmitter κ} {now : Int}
    (hl : t.mIsLoading = false) (hc : t.freshCache now = none) (callback : Option κ)
    (params : List Param) (A : SdkAnswers) :
    (∃ k, ((start t callback params now).drive A k).transmitter.mIsLoading = false) ↔
      EntriesPassable params A := by
  rw [← passable_requestsOf t.space, ← Waterfall.exists_ended_iff]
  apply exists_congr
  intro k
  rw [drive_eq_ofPhase hl hc, mIsLoading_ofPhase rfl, Bool.not_eq_false']

/-! ### A space of `AdUtils` is a waterfall -/

namespace AdDay

/-- The SDK answers the request at a position, if there is one. -/
def respondSpace (s : AdDay) (i : Nat) (a : SdkAnswer) (time : Int) : AdDay :=
  match s.spaceLoads[i]? with
  | some l => { s with spaceLoads := s.spaceLoads.eraseIdx i }.loadAnswered l a.ad time
  | none => s

/-- The day after some answers to the requests at a position. -/
def driveSpace (s : AdDay) (i : Nat) (A : SdkAnswers) : Nat → AdDay
  | 0 => s
  | n + 1 => (s.driveSpace i A n).respondSpace i (A.answer n) (A.time n)

/-- The space is loading. -/
def loading (s : AdDay) (space : AdSpace) : AdDay :=
  s.updateSpace space fun a ↦ { a with isLoading := true }

/-- The day that a phase of the waterfall over the entries stands for. -/
def ofPhase (s : AdDay) (space : AdSpace) (params : List Param) (A : SdkAnswers) :
    Waterfall.Phase → AdDay
  | .asking n =>
    { s.loading space with spaceLoads := s.spaceLoads ++ [⟨space, params.drop (n + 1)⟩] }
  | .stuck _ => s.loading space
  | .won n => (s.loading space).updateSpace space fun _ ↦ ⟨false, ⟨(A.answer n).ad, A.time n⟩⟩
  | .lost => (s.loading space).updateSpace space fun a ↦ { a with isLoading := false }

/-- The entries whose type `AdImpl` knows. -/
def able (params : List Param) (n : Nat) : Bool := params[n]?.any (·.known)

/-- Going on to an entry is going on in the waterfall. -/
theorem load_ofPhase (s : AdDay) (space : AdSpace) (params : List Param) (A : SdkAnswers)
    (n : Nat) :
    (match params.drop n with
      | con :: rest => (s.loading space).load space con rest
      | [] => (s.loading space).updateSpace space fun a ↦ { a with isLoading := false }) =
      ofPhase s space params A (Waterfall.ask params.length (able params) n) := by
  unfold Waterfall.ask
  by_cases hn : n < params.length
  · have hp : params[n]? = some params[n] := List.getElem?_eq_getElem hn
    have ha : able params n = params[n].known := by simp [able, hp]
    rw [List.drop_eq_getElem_cons hn, if_pos hn, ha]
    simp only [load]
    cases params[n].known <;> rfl
  · rw [List.drop_eq_nil_of_le (Nat.le_of_not_lt hn), if_neg hn]
    rfl

/-- The answer to an entry is the answer in the waterfall. -/
theorem respondSpace_ofPhase (s : AdDay) (space : AdSpace) (params : List Param) (A : SdkAnswers)
    (n : Nat) :
    (s.ofPhase space params A (.asking n)).respondSpace s.spaceLoads.length (A.answer n)
        (A.time n) =
      s.ofPhase space params A
        (Waterfall.respond params.length (able params) (.asking n) (A.ok n)) := by
  have hload : (s.ofPhase space params A (.asking n)).spaceLoads[s.spaceLoads.length]? =
      some ⟨space, params.drop (n + 1)⟩ := by
    simp [ofPhase]
  have herase : { s.ofPhase space params A (.asking n) with
      spaceLoads := (s.ofPhase space params A (.asking n)).spaceLoads.eraseIdx
        s.spaceLoads.length } = s.loading space := by
    simp [ofPhase, loading, updateSpace, List.eraseIdx_append_of_length_le]
  have hresp : (s.ofPhase space params A (.asking n)).respondSpace s.spaceLoads.length (A.answer n)
      (A.time n) = (s.loading space).loadAnswered ⟨space, params.drop (n + 1)⟩ (A.answer n).ad
        (A.time n) := by
    rw [respondSpace, hload, ← herase]
  rw [hresp, Waterfall.respond]
  by_cases hok : A.ok n = true
  · obtain ⟨ad, had⟩ := Option.isSome_iff_exists.mp hok
    rw [if_pos hok, ofPhase, had]
    rfl
  · have had : (A.answer n).ad = none := Option.not_isSome_iff_eq_none.mp hok
    rw [if_neg hok, ← load_ofPhase, had]
    cases params.drop (n + 1) <;> rfl

/-- The run of a load for a space is the run of the waterfall over its entries. -/
theorem driveSpace_eq_ofPhase (s : AdDay) (space : AdSpace) (con : Param) (rest : List Param)
    (A : SdkAnswers) (k : Nat) :
    ((s.loading space).load space con rest).driveSpace s.spaceLoads.length A k =
      s.ofPhase space (con :: rest) A
        (Waterfall.after (con :: rest).length (able (con :: rest)) A.ok k) := by
  induction k with
  | zero => exact load_ofPhase s space (con :: rest) A 0
  | succ k ih =>
    have hidle : ∀ p : Waterfall.Phase, (s.ofPhase space (con :: rest) A p).spaceLoads =
        s.spaceLoads → (s.ofPhase space (con :: rest) A p).respondSpace s.spaceLoads.length
          (A.answer k) (A.time k) = s.ofPhase space (con :: rest) A p := by
      intro p hp
      rw [respondSpace, hp, List.getElem?_eq_none (Nat.le_refl _)]
    rw [driveSpace, ih, Waterfall.after]
    cases hp : Waterfall.after (con :: rest).length (able (con :: rest)) A.ok k with
    | asking n =>
      obtain ⟨rfl, _⟩ := Waterfall.after_eq_asking hp
      exact respondSpace_ofPhase s space (con :: rest) A n
    | stuck n => exact hidle (.stuck n) rfl
    | won n => exact hidle (.won n) rfl
    | lost => exact hidle .lost rfl

/-- The space is loading until the waterfall ends. -/
theorem isLoading_ofPhase (s : AdDay) (space : AdSpace) (params : List Param) (A : SdkAnswers)
    (p : Waterfall.Phase) :
    ((s.ofPhase space params A p).spaces space).isLoading = !p.ended := by
  cases p <;> simp [ofPhase, loading, updateSpace, Waterfall.Phase.ended]

theorem passable_able (params : List Param) (A : SdkAnswers) :
    Waterfall.Passable params.length (able params) A.ok ↔ EntriesPassable params A := by
  constructor
  · intro h i p hp hk
    exact h i (List.getElem?_eq_some_iff.mp hp).1 (by simp [able, hp, hk])
  · intro h i hi ha
    have hp : params[i]? = some params[i] := List.getElem?_eq_getElem hi
    exact h i _ hp (by simpa [able, hp] using ha)

/-- A load for a space ends exactly when every entry of another type comes after a success. -/
theorem ends_iff {J : OrgJson} {s : AdDay} {space : AdSpace} {now : Int} {params : List Param}
    (hlim : s.isLimited J = false) (hl : (s.spaces space).isLoading = false)
    (hc : (s.spaces space).adDataWrap.ad now = none)
    (hp : s.manifest.getRequestParams J space.spaceName = some params) (A : SdkAnswers) :
    ∃ s', s.loadAd J space now = some s' ∧
      ((∃ k, ((s'.driveSpace s.spaceLoads.length A k).spaces space).isLoading = false) ↔
        EntriesPassable params A) := by
  have hload : s.loadAd J space now = some (match params with
      | con :: rest => (s.loading space).load space con rest
      | [] => s) := by
    simp only [loadAd, hlim, hl, hc, hp, Option.isSome_none, Bool.false_eq_true, if_false,
      Option.map_some]
    cases params <;> rfl
  refine ⟨_, hload, ?_⟩
  cases params with
  | nil => exact iff_of_true ⟨0, hl⟩ fun i p hi ↦ by simp at hi
  | cons con rest =>
    rw [← passable_able, ← Waterfall.exists_ended_iff]
    apply exists_congr
    intro k
    rw [driveSpace_eq_ofPhase, isLoading_ofPhase, Bool.not_eq_false']

end AdDay

/-- A load that `transmit` starts ends, with `mIsLoading` false, and a load that
`AdUtils.loadAd` starts ends, with `isLoading` false, after finitely many answers exactly when
every entry of another type than `o`, `n` and `i` comes after an entry that the SDK answers with
an ad. -/
theorem loads_end_iff_entriesPassable (params : List Param) (A : SdkAnswers) :
    (∀ (κ : Type u) [DecidableEq κ] (t : RequestTransmitter κ) (callback : Option κ) (now : Int),
      t.mIsLoading = false → t.freshCache now = none →
        ((∃ k, ((TransmitterRun.start t callback params now).drive A k).transmitter.mIsLoading =
          false) ↔ EntriesPassable params A)) ∧
    ∀ (J : OrgJson) (s : AdDay) (space : AdSpace) (now : Int),
      s.isLimited J = false → (s.spaces space).isLoading = false →
      (s.spaces space).adDataWrap.ad now = none →
      s.manifest.getRequestParams J space.spaceName = some params →
        ∃ s', s.loadAd J space now = some s' ∧
          ((∃ k, ((s'.driveSpace s.spaceLoads.length A k).spaces space).isLoading = false) ↔
            EntriesPassable params A) :=
  ⟨fun _ _ _ callback _ hl hc ↦ TransmitterRun.ends_iff hl hc callback params A,
    fun _ _ _ _ hlim hl hc hp ↦ AdDay.ends_iff hlim hl hc hp A⟩

/-- The SDK has no ad for any request. -/
def noFill : SdkAnswers := ⟨fun _ ↦ .failed "No fill.", fun _ ↦ 0⟩

/-- The one interstitial of the manifest of `DailyCap`. -/
def interstitial : Param := ⟨"admob", "", "i", 0⟩

/-- Without an ad for its one interstitial, the bookmark space is left idle by both loads. -/
theorem loads_end_interstitial :
    (∃ k, ((TransmitterRun.start { space := "fsp_bk_bm" } (some (0 : Nat)) [interstitial]
      0).drive noFill k).transmitter.mIsLoading = false) ∧
    ∃ s', AdDay.loadAd AdDay.manifestJson { manifest := { mAdManifestJson := AdDay.manifestText } }
        .spaceBackBookmark 0 = some s' ∧
      ∃ k, ((s'.driveSpace 0 noFill k).spaces .spaceBackBookmark).isLoading = false := by
  have hpass : EntriesPassable [interstitial] noFill := by
    intro i p hp hk
    obtain rfl : p = interstitial := List.mem_singleton.mp (List.mem_of_getElem? hp)
    exact absurd hk (by decide)
  have h := loads_end_iff_entriesPassable.{0} [interstitial] noFill
  refine ⟨(h.1 Nat { space := "fsp_bk_bm" } (some 0) 0 rfl rfl).mpr hpass, ?_⟩
  obtain ⟨s', hs, hiff⟩ := h.2 AdDay.manifestJson
    { manifest := { mAdManifestJson := AdDay.manifestText } } .spaceBackBookmark 0 (by decide) rfl
    (by decide) (by decide)
  exact ⟨s', hs, hiff.mpr hpass⟩

/-- A manifest whose only entry is a banner. -/
def bannerText : String :=
  "\x7b\"fsp_bk_bm\":[\x7b\"fsa_so\":\"admob\",\"fsa_tp\":\"b\"\x7d]\x7d"

/-- `org.json` on that manifest. -/
def bannerJson : OrgJson where
  parse text :=
    if text = bannerText then
      some [("fsp_bk_bm", .array [.object [("fsa_so", .string "admob"), ("fsa_tp", .string "b")]])]
    else none
  text _ := ""
  int _ := none

/-- What `Param.from` makes of the entry. -/
def banner : Param :=
  Param.ofJson bannerJson [("fsa_so", .string "admob"), ("fsa_tp", .string "b")]

private theorem not_entriesPassable_banner : ¬ EntriesPassable [banner] noFill := by
  intro h
  obtain ⟨j, hj, _⟩ := h 0 banner rfl (by decide)
  exact absurd hj (Nat.not_lt_zero j)

/-- Both loads of the manifest with the banner stay loading, whatever time passes. -/
theorem banner_loads_for_ever :
    (¬ ∃ k, ((TransmitterRun.start { space := "fsp_bk_bm" } (some (0 : Nat)) [banner]
      0).drive noFill k).transmitter.mIsLoading = false) ∧
    ∃ s', AdDay.loadAd bannerJson { manifest := { mAdManifestJson := bannerText } }
        .spaceBackBookmark 0 = some s' ∧
      ¬ ∃ k, ((s'.driveSpace 0 noFill k).spaces .spaceBackBookmark).isLoading = false := by
  constructor
  · intro h
    exact not_entriesPassable_banner ((TransmitterRun.ends_iff rfl rfl _ _ _).mp h)
  · have hend : ∃ s', AdDay.loadAd bannerJson { manifest := { mAdManifestJson := bannerText } }
        .spaceBackBookmark 0 = some s' ∧
        ((∃ k, ((s'.driveSpace 0 noFill k).spaces .spaceBackBookmark).isLoading = false) ↔
          EntriesPassable [banner] noFill) :=
      AdDay.ends_iff (by decide) rfl (by decide) (by decide) noFill
    obtain ⟨s', hs, hiff⟩ := hend
    exact ⟨s', hs, fun h ↦ not_entriesPassable_banner (hiff.mp h)⟩

end FastSearch.Ad
