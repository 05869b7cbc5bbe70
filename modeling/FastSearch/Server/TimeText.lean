/-!
# The text of the connection time

`toTimeUnit` of `utils/OtherUtil.kt`: the text in which the main screen and the result screen show
how long a session has lasted. The time is a `Long` of milliseconds; each of the three fields is a
remainder and a quotient of its own.
-/

namespace FastSearch.Server

/-- The local function `fill` of `toTimeUnit`, `utils/OtherUtil.kt:35`. -/
def fill (s : String) : String := if s.length = 2 then s else "0" ++ s

/-- `toTimeUnit`, `utils/OtherUtil.kt:29`. -/
def toTimeUnit (this : Option Int64) : String :=
  let time := this.getD 0
  let s : Int64 := (time % 60000) / 1000
  let m : Int64 := (time % 3600000) / 60000
  let h : Int64 := (time % 86400000) / 3600000
  fill (toString h.toInt) ++ ":" ++ fill (toString m.toInt) ++ ":" ++ fill (toString s.toInt)

/-- A field of the text: at least two decimal digits whose number is `n`. -/
structure IsField (text : String) (n : Nat) : Prop where
  digits : ∀ c ∈ text.toList, c.isDigit = true
  long : 2 ≤ text.length
  value : Nat.ofDigitChars 10 text.toList 0 = n

/-- The text has the form `H:M:S`, with minutes and seconds below sixty, and shows this many
seconds. -/
def ShowsSeconds (text : String) (seconds : Int) : Prop :=
  ∃ (hs ms ss : String) (h m s : Nat),
    text = hs ++ ":" ++ ms ++ ":" ++ ss ∧ IsField hs h ∧ IsField ms m ∧ IsField ss s ∧
      m < 60 ∧ s < 60 ∧ 3600 * (h : Int) + 60 * m + s = seconds

/-! ### Reading the text back -/

private theorem colon_notMem {text : String} {n : Nat} (h : IsField text n) :
    ':' ∉ text.toList := by
  intro hc
  have hd := h.digits ':' hc
  revert hd
  decide

private theorem append_colon_inj {l r a b : List Char} (hl : ':' ∉ l) (hr : ':' ∉ r)
    (h : l ++ ':' :: a = r ++ ':' :: b) : l = r ∧ a = b := by
  induction l generalizing r with
  | nil =>
    cases r with
    | nil => simpa using h
    | cons d r =>
      obtain ⟨rfl, _⟩ := List.cons.inj h
      simp at hr
  | cons c l ih =>
    cases r with
    | nil =>
      obtain ⟨rfl, _⟩ := List.cons.inj h
      simp at hl
    | cons d r =>
      rw [List.mem_cons, not_or] at hl hr
      obtain ⟨hc, h⟩ := List.cons.inj h
      obtain ⟨hlr, he⟩ := ih hl.2 hr.2 h
      exact ⟨by rw [hc, hlr], he⟩

/-- A text shows one number of seconds at most. -/
theorem ShowsSeconds.unique {text : String} {a b : Int} (ha : ShowsSeconds text a)
    (hb : ShowsSeconds text b) : a = b := by
  obtain ⟨hs, ms, ss, h, m, s, ht, hh, hm, hs', _, _, rfl⟩ := ha
  obtain ⟨ks, ns, us, k, n, u, hu, hk, hn, hu', _, _, rfl⟩ := hb
  have he := congrArg String.toList (ht.symm.trans hu)
  have hcolon : ":".toList = [':'] := rfl
  simp only [String.toList_append, hcolon, List.append_assoc, List.singleton_append] at he
  obtain ⟨h1, he⟩ := append_colon_inj (colon_notMem hh) (colon_notMem hk) he
  obtain ⟨h2, h3⟩ := append_colon_inj (colon_notMem hm) (colon_notMem hn) he
  have e1 : h = k := by rw [← hh.value, ← hk.value, h1]
  have e2 : m = n := by rw [← hm.value, ← hn.value, h2]
  have e3 : s = u := by rw [← hs'.value, ← hu'.value, h3]
  rw [e1, e2, e3]

/-! ### The three fields -/

private theorem isField_fill (n : Nat) : IsField (fill (toString (n : Int))) n := by
  have hr : toString (n : Int) = n.repr := rfl
  have hd : n.repr.toList = Nat.toDigits 10 n := Nat.toList_repr
  have hdig : ∀ c ∈ Nat.toDigits 10 n, c.isDigit = true := fun c hc ↦
    Nat.isDigit_of_mem_toDigits (by decide) (by decide) hc
  have hlen : n.repr.length = (Nat.toDigits 10 n).length := by rw [← hd, String.length_toList]
  rw [hr]
  unfold fill
  by_cases h2 : n.repr.length = 2
  · rw [if_pos h2]
    exact ⟨hd ▸ hdig, Nat.le_of_eq h2.symm, hd ▸ Nat.ofDigitChars_ten_toDigits⟩
  · rw [if_neg h2]
    have hpos : 0 < (Nat.toDigits 10 n).length := Nat.length_toDigits_pos
    have hz : ("0" ++ n.repr).toList = '0' :: Nat.toDigits 10 n := by
      rw [String.toList_append, hd]
      rfl
    refine ⟨?_, ?_, ?_⟩
    · rw [hz]
      intro c hc
      rcases List.mem_cons.mp hc with rfl | hc
      · rfl
      · exact hdig c hc
    · rw [← String.length_toList, hz, List.length_cons]
      omega
    · rw [hz, Nat.ofDigitChars_cons]
      exact Nat.ofDigitChars_ten_toDigits

private theorem toInt_field (t : Int64) {a b : Int64} (hb : 0 < b.toInt) :
    ((t % a) / b).toInt = (t.toInt.tmod a.toInt).tdiv b.toInt := by
  rw [Int64.toInt_div_of_ne_right, Int64.toInt_mod]
  intro h
  rw [h] at hb
  revert hb
  decide

/-- What the text of a time shows: the seconds within its day. -/
theorem showsSeconds_toTimeUnit {t : Int64} (ht : 0 ≤ t) :
    ShowsSeconds (toTimeUnit (some t)) (t.toInt / 1000 % 86400) := by
  have h0 : 0 ≤ t.toInt := Int64.le_iff_toInt_le.mp ht
  obtain ⟨n, hn⟩ := Int.eq_ofNat_of_zero_le h0
  have es : ((t % 60000) / 1000).toInt = ((n % 60000 / 1000 : Nat) : Int) := by
    rw [toInt_field t (by decide), hn]
    rfl
  have em : ((t % 3600000) / 60000).toInt = ((n % 3600000 / 60000 : Nat) : Int) := by
    rw [toInt_field t (by decide), hn]
    rfl
  have eh : ((t % 86400000) / 3600000).toInt = ((n % 86400000 / 3600000 : Nat) : Int) := by
    rw [toInt_field t (by decide), hn]
    rfl
  refine ⟨_, _, _, n % 86400000 / 3600000, n % 3600000 / 60000, n % 60000 / 1000, rfl,
    ?_, ?_, ?_, ?_, ?_, ?_⟩
  · rw [Option.getD_some, eh]
    exact isField_fill _
  · rw [Option.getD_some, em]
    exact isField_fill _
  · rw [Option.getD_some, es]
    exact isField_fill _
  · omega
  · omega
  · rw [hn]
    omega

/-- The text of a time shows its seconds exactly when the time is below one day. -/
theorem showsSeconds_iff {t : Int64} (ht : 0 ≤ t) :
    ShowsSeconds (toTimeUnit (some t)) (t.toInt / 1000) ↔ t < 86400000 := by
  have hs := showsSeconds_toTimeUnit ht
  have h0 : 0 ≤ t.toInt := Int64.le_iff_toInt_le.mp ht
  have hd : t < 86400000 ↔ t.toInt < 86400000 := Int64.lt_iff_toInt_lt
  rw [hd]
  constructor
  · intro h
    have he := h.unique hs
    omega
  · intro h
    have he : t.toInt / 1000 % 86400 = t.toInt / 1000 := by omega
    rwa [he] at hs

/-! ### Pairs of times -/

/-- The texts of two connection times read as their seconds, and times a second or more apart
have different texts, exactly when both times are below one day. -/
theorem toTimeUnit_exact_iff (t u : Int64) (ht : 0 ≤ t) (hu : 0 ≤ u) :
    (ShowsSeconds (toTimeUnit (some t)) (t.toInt / 1000) ∧
      ShowsSeconds (toTimeUnit (some u)) (u.toInt / 1000) ∧
      (1000 ≤ (t.toInt - u.toInt).natAbs → toTimeUnit (some t) ≠ toTimeUnit (some u))) ↔
    (t < 86400000 ∧ u < 86400000) := by
  constructor
  · rintro ⟨h1, h2, _⟩
    exact ⟨(showsSeconds_iff ht).mp h1, (showsSeconds_iff hu).mp h2⟩
  · rintro ⟨h1, h2⟩
    have s1 := (showsSeconds_iff ht).mpr h1
    have s2 := (showsSeconds_iff hu).mpr h2
    refine ⟨s1, s2, ?_⟩
    intro hfar he
    rw [he] at s1
    have hs := s1.unique s2
    omega

theorem toTimeUnit_exact_iff_hour :
    ShowsSeconds (toTimeUnit (some 3723000)) 3723 ∧ ShowsSeconds (toTimeUnit (some 3724000)) 3724 ∧
      (1000 ≤ ((3723000 : Int) - 3724000).natAbs →
        toTimeUnit (some 3723000) ≠ toTimeUnit (some 3724000)) :=
  (toTimeUnit_exact_iff 3723000 3724000 (by decide) (by decide)).mpr ⟨by decide, by decide⟩

/-- After exactly one day the text starts again from zero. -/
theorem toTimeUnit_of_day :
    (0 : Int64) ≤ 86400000 ∧
      ¬ ShowsSeconds (toTimeUnit (some 86400000)) ((86400000 : Int64).toInt / 1000) ∧
      toTimeUnit (some 86400000) = toTimeUnit (some 0) ∧
      toTimeUnit (some 86400000) = "00:00:00" := by
  refine ⟨by decide, ?_, by decide, by decide⟩
  intro h
  have hlt := (showsSeconds_iff (by decide)).mp h
  revert hlt
  decide

end FastSearch.Server
