import Mathlib.Logic.Function.Basic
import FastSearch.Lib.EventSystem

/-!
# The counters of ads by day

`mClickCount` and `mShowCount` of `ad/Cache.kt`, which `utils/IntCacheDelegate.kt` keeps in MMKV
under the date. The getter and the setter of an increment compute the key on their own, each
from its own reading of the clock. The text of a date is made by a library; here it is a
parameter, and a day is the text of its date.
-/

namespace FastSearch.Ad

open EventSystem

/-- `generateConsKey`, `utils/OtherUtil.kt:77`, with the identifier of `build.gradle.kts:12`. -/
def generateConsKey (key : String) : String := "com.fdemo.xxx" ++ "_" ++ key

/-- The 32-bit entries of the MMKV store. -/
abbrev Mmkv := String → Option Int32

namespace IntCacheDelegate

/-- `getValue`, `utils/IntCacheDelegate.kt:15`, with the default zero. -/
def getValue (mmkv : Mmkv) (cacheKey : String) : Int32 := (mmkv (generateConsKey cacheKey)).getD 0

/-- `setValue`, `utils/IntCacheDelegate.kt:19`, without a receiver. -/
def setValue (mmkv : Mmkv) (cacheKey : String) (value : Int32) : Mmkv :=
  Function.update mmkv (generateConsKey cacheKey) (some value)

end IntCacheDelegate

/-- The two counters of `Cache`. -/
inductive Counter where
  | mClickCount
  | mShowCount
  deriving DecidableEq, Repr

/-- The `cacheKey` of a counter on a day, `ad/Cache.kt:10,15`. -/
def Counter.cacheKey (c : Counter) (date : String) : String :=
  match c with
  | .mClickCount => date ++ "_CLICK_COUNT"
  | .mShowCount => date ++ "_SHOW_COUNT"

/-- An increment `c++` and the two readings of the clock it makes. -/
structure Increment where
  counter : Counter
  getTime : Int64
  setTime : Int64
  deriving DecidableEq, Repr

/-- The store, the latest reading of the clock, and how many increments of a counter were
finished on a day. -/
structure DayCounters where
  mmkv : Mmkv := fun _ ↦ none
  clock : Int64 := 0
  finished : Counter → String → Nat := fun _ _ ↦ 0

namespace DayCounters

/-- The stored value of a counter for a day. -/
def value (s : DayCounters) (c : Counter) (date : String) : Int32 :=
  IntCacheDelegate.getValue s.mmkv (c.cacheKey date)

section Runs

-- `toSimpleDateStr`, `utils/OtherUtil.kt:151`
variable (toSimpleDateStr : Int64 → String)

/-- `Cache.mClickCount++` or `Cache.mShowCount++`, as `onAdClicked` and `onAdShowed` of
`ad/manager/AdvertiseManager.kt:64` call it; the clock does not go back. -/
def step (s : DayCounters) (e : Increment) : Option DayCounters :=
  if s.clock ≤ e.getTime ∧ e.getTime ≤ e.setTime then
    let value := s.value e.counter (toSimpleDateStr e.getTime)
    some {
      mmkv := IntCacheDelegate.setValue s.mmkv
        (e.counter.cacheKey (toSimpleDateStr e.setTime)) (value + 1)
      clock := e.setTime
      finished := Function.update s.finished e.counter
        (Function.update (s.finished e.counter) (toSimpleDateStr e.setTime)
          (s.finished e.counter (toSimpleDateStr e.setTime) + 1)) }
  else none

/-- One counter of one day is one larger, and every other counter of every day as before. -/
def AddsOne (s : DayCounters) (_ : Increment) (t : DayCounters) : Prop :=
  ∃ c date, (t.value c date).toInt = (s.value c date).toInt + 1 ∧
    ∀ c' date', (c', date') ≠ (c, date) → t.value c' date' = s.value c' date'

/-- No counter of a day exceeds the increments finished on that day. -/
def Bounded (s : DayCounters) : Prop :=
  ∀ c date, (s.value c date).toInt ≤ s.finished c date

/-- Both readings are on one day, or the two days have the same count; and the count is not the
largest number. -/
def SameCount (s : DayCounters) (e : Increment) : Prop :=
  (toSimpleDateStr e.getTime = toSimpleDateStr e.setTime ∨
    s.value e.counter (toSimpleDateStr e.getTime) =
      s.value e.counter (toSimpleDateStr e.setTime)) ∧
  s.value e.counter (toSimpleDateStr e.getTime) ≠ Int32.maxValue

/-- Every counter of a day is the number of increments finished on it. -/
def Exact (s : DayCounters) : Prop := ∀ c date, (s.value c date).toInt = s.finished c date

end Runs

/-! ### Keys -/

private theorem append_tail_inj {d d' a b : String} (hl : a.toList.length = b.toList.length)
    (h : d ++ a = d' ++ b) : d = d' ∧ a = b := by
  have hc := congrArg String.toList h
  rw [String.toList_append, String.toList_append] at hc
  obtain ⟨h1, h2⟩ := List.append_inj' hc hl
  exact ⟨String.toList_inj.mp h1, String.toList_inj.mp h2⟩

private theorem click_ne_show (d d' : String) : d ++ "_CLICK_COUNT" ≠ d' ++ "_SHOW_COUNT" := by
  intro h
  have hs : d ++ "_CLICK_COUNT" = (d ++ "_") ++ "CLICK_COUNT" := by
    rw [String.append_assoc]
    rfl
  rw [hs] at h
  have hn := (append_tail_inj (by decide) h).2
  revert hn
  decide

/-- The keys of two counters or of two days differ. -/
theorem generateConsKey_cacheKey_inj {c c' : Counter} {d d' : String} :
    generateConsKey (c.cacheKey d) = generateConsKey (c'.cacheKey d') ↔ c = c' ∧ d = d' := by
  constructor
  · intro h
    have hk : c.cacheKey d = c'.cacheKey d' := by
      have hc := congrArg String.toList h
      simp only [generateConsKey, String.toList_append] at hc
      exact String.toList_inj.mp (List.append_cancel_left hc)
    cases c with
    | mClickCount =>
      cases c' with
      | mClickCount => exact ⟨rfl, (append_tail_inj rfl hk).1⟩
      | mShowCount => exact absurd hk (click_ne_show d d')
    | mShowCount =>
      cases c' with
      | mClickCount => exact absurd hk.symm (click_ne_show d' d)
      | mShowCount => exact ⟨rfl, (append_tail_inj rfl hk).1⟩
  · rintro ⟨rfl, rfl⟩
    rfl

/-! ### One increment -/

section Steps

variable {toSimpleDateStr : Int64 → String} {s t : DayCounters} {e : Increment}

/-- What an increment leaves: one more than the day of the getter had, on the day of the
setter. -/
theorem value_step (h : step toSimpleDateStr s e = some t) (c : Counter) (date : String) :
    t.value c date =
      if c = e.counter ∧ date = toSimpleDateStr e.setTime then
        s.value e.counter (toSimpleDateStr e.getTime) + 1
      else s.value c date := by
  unfold step at h
  split at h
  · cases h
    simp only [value, IntCacheDelegate.getValue, IntCacheDelegate.setValue, Function.update_apply,
      generateConsKey_cacheKey_inj]
    split
    · rfl
    · rfl
  · cases h

/-- An increment is finished on the day of the setter. -/
theorem finished_step (h : step toSimpleDateStr s e = some t) (c : Counter) (date : String) :
    t.finished c date =
      if c = e.counter ∧ date = toSimpleDateStr e.setTime then s.finished c date + 1
      else s.finished c date := by
  unfold step at h
  split at h
  · cases h
    by_cases hc : c = e.counter
    · subst hc
      by_cases hd : date = toSimpleDateStr e.setTime
      · subst hd
        simp
      · simp [hd]
    · simp [hc]
  · cases h

private theorem toInt_add_one_eq {a b : Int32} :
    (a + 1).toInt = b.toInt + 1 ↔ a = b ∧ a ≠ Int32.maxValue := by
  have ha := a.toInt_lt
  have ha' := a.le_toInt
  have hb := b.toInt_lt
  have hb' := b.le_toInt
  have hm : a = Int32.maxValue ↔ a.toInt = 2 ^ 31 - 1 := by
    rw [← Int32.toInt_inj, Int32.toInt_maxValue]
  have h1 : (1 : Int32).toInt = 1 := rfl
  rw [Int32.toInt_add, h1, ← Int32.toInt_inj, ne_eq, hm, Int.bmod_def]
  constructor
  · intro h
    split at h <;> omega
  · rintro ⟨h, hne⟩
    split <;> omega

/-- Two days of the same count: one more than the first has is one more than the second has. -/
theorem sameCount_iff :
    s.SameCount toSimpleDateStr e ↔
      (s.value e.counter (toSimpleDateStr e.getTime) + 1).toInt =
        (s.value e.counter (toSimpleDateStr e.setTime)).toInt + 1 := by
  rw [toInt_add_one_eq]
  unfold SameCount
  constructor
  · rintro ⟨hd | hv, hm⟩
    · exact ⟨by rw [hd], hm⟩
    · exact ⟨hv, hm⟩
  · rintro ⟨hv, hm⟩
    exact ⟨Or.inr hv, hm⟩

/-- An increment adds one to one counter exactly if the two days had the same count. -/
theorem addsOne_iff (h : step toSimpleDateStr s e = some t) :
    s.AddsOne e t ↔ s.SameCount toSimpleDateStr e := by
  rw [sameCount_iff]
  constructor
  · rintro ⟨c, date, hone, _⟩
    rw [value_step h] at hone
    split at hone
    · next hc =>
      obtain ⟨rfl, rfl⟩ := hc
      exact hone
    · omega
  · intro hone
    refine ⟨e.counter, toSimpleDateStr e.setTime, ?_, ?_⟩
    · rw [value_step h, if_pos ⟨rfl, rfl⟩]
      exact hone
    · intro c' date' hne
      rw [value_step h, if_neg]
      rintro ⟨rfl, rfl⟩
      exact hne rfl

/-- An increment between days of the same count keeps the counters exact. -/
theorem exact_step (hx : s.Exact) (hk : s.SameCount toSimpleDateStr e)
    (h : step toSimpleDateStr s e = some t) : t.Exact := by
  intro c date
  rw [value_step h, finished_step h]
  by_cases hc : c = e.counter ∧ date = toSimpleDateStr e.setTime
  · obtain ⟨rfl, rfl⟩ := hc
    rw [if_pos ⟨rfl, rfl⟩, if_pos ⟨rfl, rfl⟩, sameCount_iff.mp hk, hx]
    rfl
  · rw [if_neg hc, if_neg hc]
    exact hx c date

end Steps

/-! ### Runs -/

/-- From an empty store, the increments are counted exactly throughout a run (each adds one to
one day's counter, and no day's counter exceeds the increments finished on it) if and only if
every increment reads and writes days of the same count. -/
theorem exact_iff_sameCount (toSimpleDateStr : Int64 → String) (clock : Int64)
    (es : List Increment) :
    (Throughout (step toSimpleDateStr) AddsOne { clock := clock } es ∧
      Always (step toSimpleDateStr) Bounded { clock := clock } es) ↔
    Along (step toSimpleDateStr) (SameCount toSimpleDateStr) { clock := clock } es := by
  have hiff : Throughout (step toSimpleDateStr) AddsOne { clock := clock } es ↔
      Along (step toSimpleDateStr) (SameCount toSimpleDateStr) { clock := clock } es :=
    throughout_iff_along (J := fun _ ↦ True) (C := SameCount toSimpleDateStr) (P := AddsOne)
      (fun _ _ _ _ _ ↦ trivial) (fun _ _ _ _ hs ↦ addsOne_iff hs) trivial
  constructor
  · intro h
    exact hiff.mp h.1
  · intro h
    have hx : Always (step toSimpleDateStr) Exact { clock := clock } es :=
      always_of_along (J := Exact) (fun _ _ _ hx hk hs ↦ exact_step hx hk hs) (fun _ _ ↦ rfl) h
    exact ⟨hiff.mpr h, hx.imp fun s hs c date ↦ Int.le_of_eq (hs c date)⟩

/-- The dates of two successive days. -/
def twoDates (time : Int64) : String := if time < 86400000 then "1970-01-01" else "1970-01-02"

/-- The first ad of a day is shown, and the next increment straddles midnight: the new day
starts with a count of two after one increment finished on it. -/
theorem count_carried_over_midnight :
    let es : List Increment := [⟨.mShowCount, 1000, 1000⟩, ⟨.mShowCount, 86399999, 86400000⟩]
    ¬ Throughout (step twoDates) AddsOne {} es ∧ ¬ Always (step twoDates) Bounded {} es := by
  intro es
  constructor
  · intro h
    have hone := h [⟨.mShowCount, 1000, 1000⟩] ⟨.mShowCount, 86399999, 86400000⟩ _ _
      (List.prefix_refl _) rfl rfl
    obtain ⟨hd | hv, _⟩ := (addsOne_iff rfl).mp hone
    · revert hd
      decide
    · revert hv
      decide
  · intro h
    have hb := h.last rfl .mShowCount "1970-01-02"
    revert hb
    decide

end DayCounters
end FastSearch.Ad
