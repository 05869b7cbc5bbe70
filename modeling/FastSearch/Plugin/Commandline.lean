import FastSearch.Lib.Tokens

/-!
# Command lines

`utils/Commandline.kt`: arguments quoted into one line, and a line cracked into arguments by a
finite state machine over tokens. The machine knows two kinds of quotes and a backslash, which in
double quotes stays if it escapes nothing.
-/

namespace FastSearch.Plugin

open Tokens

namespace Commandline

/-- The characters that `toString` escapes and at which `translateCommandline` cuts. -/
def isDelim (c : Char) : Bool := c == '\\' || c == '\x22' || c == '\x27' || c == ' '

/-- The characters of an argument, escaped. -/
def quote (arg : List Char) : List Char := escape '\\' isDelim arg

/-- The loop of `toString`: a blank before every argument but at the start of the text. -/
def append (result : List Char) (arg : String) : List Char :=
  (if result = [] then result else result ++ [' ']) ++ quote arg.toList

/-- `toString`, `utils/Commandline.kt:56`. -/
def toString : Option (List String) → String
  | none => ""
  | some args => String.ofList (args.foldl append [])

/-- The states of the machine. -/
inductive Mode where
  | normal
  | inQuote
  | inDoubleQuote
  deriving DecidableEq, Repr

/-- The variables of the loop. -/
structure Scan where
  state : Mode := .normal
  result : List String := []
  current : List Char := []
  lastTokenHasBeenQuoted : Bool := false
  lastTokenIsSlash : Bool := false
  deriving DecidableEq, Repr

namespace Scan

/-- What was read since the last argument is an argument, if it is not empty or was quoted. -/
def add (s : Scan) : Scan :=
  if s.lastTokenHasBeenQuoted = true ∨ s.current ≠ [] then
    { s with result := s.result ++ [String.ofList s.current], current := [] }
  else s

/-- A token outside quotes. -/
def stepNormal (s : Scan) (nextTok : List Char) : Scan :=
  let s' :=
    if s.lastTokenIsSlash then
      { s with current := s.current ++ nextTok, lastTokenIsSlash := false }
    else if nextTok = ['\\'] then { s with lastTokenIsSlash := true }
    else if nextTok = ['\x27'] then { s with state := .inQuote }
    else if nextTok = ['\x22'] then { s with state := .inDoubleQuote }
    else if nextTok = [' '] then s.add
    else { s with current := s.current ++ nextTok }
  { s' with lastTokenHasBeenQuoted := false }

/-- A token in single quotes. -/
def stepQuote (s : Scan) (nextTok : List Char) : Scan :=
  if nextTok = ['\x27'] then { s with lastTokenHasBeenQuoted := true, state := .normal }
  else { s with current := s.current ++ nextTok }

/-- A token in double quotes: a backslash before anything but itself and the quote stays. -/
def stepDoubleQuote (s : Scan) (nextTok : List Char) : Scan :=
  if nextTok = ['\x22'] then
    if s.lastTokenIsSlash then
      { s with current := s.current ++ nextTok, lastTokenIsSlash := false }
    else { s with lastTokenHasBeenQuoted := true, state := .normal }
  else if nextTok = ['\\'] then
    if s.lastTokenIsSlash then
      { s with current := s.current ++ nextTok, lastTokenIsSlash := false }
    else { s with lastTokenIsSlash := true }
  else if s.lastTokenIsSlash then
    { s with current := s.current ++ '\\' :: nextTok, lastTokenIsSlash := false }
  else { s with current := s.current ++ nextTok }

/-- The body of the loop. -/
def step (s : Scan) (nextTok : List Char) : Scan :=
  match s.state with
  | .normal => s.stepNormal nextTok
  | .inQuote => s.stepQuote nextTok
  | .inDoubleQuote => s.stepDoubleQuote nextTok

/-- The body of the loop on one character. -/
def stepChar (s : Scan) (c : Char) : Scan := s.step [c]

end Scan

/-- `translateCommandline`, `utils/Commandline.kt:91`. -/
def translateCommandline (toProcess : Option String) : Except String (List String) :=
  match toProcess with
  | none => .ok []
  | some text =>
    if text = "" then .ok [] else
      let s := ((tokens isDelim text.toList).foldl Scan.step {})
      if s.state ≠ .normal then .error ("unbalanced quotes in " ++ text)
      else if s.lastTokenIsSlash then
        .error ("escape character following nothing in " ++ text)
      else .ok s.add.result

/-! ### Tokens and characters -/

private theorem ne_delim {a : Char} {t : List Char} (h : isDelim a = false) {b : Char}
    (hb : isDelim b = true) : a :: t ≠ [b] := by
  intro he
  cases he
  rw [h] at hb
  cases hb

/-- The machine takes a run of characters one by one. -/
private theorem step_run (s : Scan) (a : Char) (t : List Char) (h : isDelim a = false)
    (ht : IsRun isDelim t) : s.step (a :: t) = (s.step [a]).step t := by
  obtain ⟨b, t, rfl⟩ := List.exists_cons_of_ne_nil ht.1
  have hb : isDelim b = false := ht.2 b List.mem_cons_self
  have n := fun {c : Char} (l : List Char) (hc : isDelim c = true) ↦ ne_delim (t := l) h hc
  have m := fun {c : Char} (l : List Char) (hc : isDelim c = true) ↦ ne_delim (t := l) hb hc
  cases hs : s.state with
  | normal =>
    cases hl : s.lastTokenIsSlash <;>
      simp [Scan.step, Scan.stepNormal, hs, hl, n _ (by decide : isDelim '\\' = true),
        n _ (by decide : isDelim '\x27' = true), n _ (by decide : isDelim '\x22' = true),
        n _ (by decide : isDelim ' ' = true), m _ (by decide : isDelim '\\' = true),
        m _ (by decide : isDelim '\x27' = true), m _ (by decide : isDelim '\x22' = true),
        m _ (by decide : isDelim ' ' = true)]
  | inQuote =>
    simp [Scan.step, Scan.stepQuote, hs, n _ (by decide : isDelim '\x27' = true),
      m _ (by decide : isDelim '\x27' = true)]
  | inDoubleQuote =>
    cases hl : s.lastTokenIsSlash <;>
      simp [Scan.step, Scan.stepDoubleQuote, hs, hl, n _ (by decide : isDelim '\\' = true),
        n _ (by decide : isDelim '\x22' = true), m _ (by decide : isDelim '\\' = true),
        m _ (by decide : isDelim '\x22' = true)]

/-- The loop over the tokens is a loop over the characters. -/
theorem foldl_step_tokens (text : List Char) (s : Scan) :
    (tokens isDelim text).foldl Scan.step s = text.foldl Scan.stepChar s :=
  foldl_tokens step_run text s

/-! ### Quoting -/

/-- The machine is outside quotes and has nothing to remember of the last token. -/
structure Scan.Plain (s : Scan) : Prop where
  state : s.state = .normal
  slash : s.lastTokenIsSlash = false
  quoted : s.lastTokenHasBeenQuoted = false

private theorem stepChar_plain {s : Scan} (h : s.Plain) {c : Char} (hc : isDelim c = false) :
    s.stepChar c = { s with current := s.current ++ [c] } := by
  have n := fun {b : Char} (hb : isDelim b = true) ↦ ne_delim (t := []) hc hb
  simp [Scan.stepChar, Scan.step, Scan.stepNormal, h.state, h.slash, h.quoted,
    n (by decide : isDelim '\\' = true), n (by decide : isDelim '\x27' = true),
    n (by decide : isDelim '\x22' = true), n (by decide : isDelim ' ' = true)]

private theorem stepChar_escaped {s : Scan} (h : s.Plain) (c : Char) :
    (s.stepChar '\\').stepChar c = { s with current := s.current ++ [c] } := by
  simp [Scan.stepChar, Scan.step, Scan.stepNormal, h.state, h.slash, h.quoted]

private theorem foldl_push (s : Scan) (w : List Char) :
    w.foldl (fun s c ↦ { s with current := s.current ++ [c] }) s =
      { s with current := s.current ++ w } := by
  induction w generalizing s with
  | nil => simp
  | cons c w ih =>
    rw [List.foldl_cons, ih]
    simp

/-- A quoted argument is read as its characters. -/
theorem foldl_quote (arg : List Char) {s : Scan} (h : s.Plain) :
    (quote arg).foldl Scan.stepChar s = { s with current := s.current ++ arg } := by
  rw [← foldl_push, quote]
  apply foldl_escape (P := Scan.Plain)
  · intro s c hs
    exact ⟨hs.state, hs.slash, hs.quoted⟩
  · intro s c hs _
    exact stepChar_escaped hs c
  · intro s c hs hc
    exact stepChar_plain hs hc
  · exact h

/-- The machine after a text. -/
private def scanned (text : List Char) : Scan := text.foldl Scan.stepChar {}

private theorem add_of_plain {s : Scan} (h : s.Plain) :
    s.add.result = s.result ++ if s.current = [] then [] else [String.ofList s.current] := by
  unfold Scan.add
  by_cases hc : s.current = []
  · simp [h.quoted, hc]
  · simp [hc]

/-- A blank ends the argument before it. -/
private theorem scanned_blank {text : List Char} (h : (scanned text).Plain) :
    (scanned (text ++ [' '])).Plain ∧ (scanned (text ++ [' '])).current = [] ∧
      (scanned (text ++ [' '])).result = (scanned text).add.result := by
  have he : scanned (text ++ [' ']) =
      { (scanned text).add with lastTokenHasBeenQuoted := false } := by
    rw [scanned, List.foldl_append]
    change (scanned text).stepChar ' ' = _
    simp [Scan.stepChar, Scan.step, Scan.stepNormal, h.state, h.slash]
  rw [he]
  unfold Scan.add
  by_cases hc : (scanned text).current = []
  · simp only [h.quoted, hc, ne_eq, not_true_eq_false, or_false, Bool.false_eq_true, if_false]
    exact ⟨⟨h.state, h.slash, rfl⟩, trivial, trivial⟩
  · simp only [hc, ne_eq, not_false_eq_true, or_true, if_true]
    exact ⟨⟨h.state, h.slash, rfl⟩, trivial, trivial⟩

/-- What the machine has read of the arguments printed so far. -/
private theorem scanned_append {text : List Char} {args : List String} (h : (scanned text).Plain)
    (ha : (scanned text).add.result = args) (arg : String) :
    (scanned (append text arg)).Plain ∧
      (scanned (append text arg)).add.result = args ++ if arg = "" then [] else [arg] := by
  -- the text with its blank, before the argument
  obtain ⟨pre, hpre, hp, hc, hr⟩ : ∃ pre, append text arg = pre ++ quote arg.toList ∧
      (scanned pre).Plain ∧ (scanned pre).current = [] ∧ (scanned pre).result = args := by
    by_cases ht : text = []
    · subst ht
      refine ⟨[], rfl, h, rfl, ?_⟩
      rw [← ha]
      rfl
    · obtain ⟨hp, hc, hr⟩ := scanned_blank h
      exact ⟨text ++ [' '], by rw [append, if_neg ht], hp, hc, hr.trans ha⟩
  have hs : scanned (append text arg) = { scanned pre with current := arg.toList } := by
    rw [hpre, scanned, List.foldl_append]
    refine (foldl_quote arg.toList hp).trans ?_
    rw [hc, List.nil_append]
  have hplain : (scanned (append text arg)).Plain := by
    rw [hs]
    exact ⟨hp.state, hp.slash, hp.quoted⟩
  refine ⟨hplain, ?_⟩
  rw [add_of_plain hplain, hs, hr]
  simp [String.toList_eq_nil_iff]

/-- The whole loop of `toString`. -/
private theorem scanned_foldl_append (args : List String) {text : List Char} {done : List String}
    (h : (scanned text).Plain) (hd : (scanned text).add.result = done) :
    (scanned (args.foldl append text)).Plain ∧
      (scanned (args.foldl append text)).add.result = done ++ args.filter (· ≠ "") := by
  induction args generalizing text done with
  | nil => simpa using And.intro h hd
  | cons arg args ih =>
    obtain ⟨h', hd'⟩ := scanned_append h hd arg
    obtain ⟨hp, hr⟩ := ih h' hd'
    refine ⟨hp, hr.trans ?_⟩
    by_cases he : arg = ""
    · simp [he]
    · simp [he]

/-- A text that leaves the machine plain is cracked into the arguments read. -/
private theorem translateCommandline_of_plain {text : List Char} (h : (scanned text).Plain) :
    translateCommandline (some (String.ofList text)) = .ok (scanned text).add.result := by
  by_cases ht : text = []
  · subst ht
    rfl
  · have hne : String.ofList text ≠ "" := by simpa using ht
    have hs : (tokens isDelim (String.ofList text).toList).foldl Scan.step {} = scanned text := by
      rw [foldl_step_tokens, String.toList_ofList, scanned]
    simp only [translateCommandline, hs, if_neg hne, h.state, h.slash, ne_eq, not_true_eq_false,
      if_false, Bool.false_eq_true]

/-- Cracking the line of any arguments gives the arguments back, less those that are empty. -/
theorem translateCommandline_toString (args : List String) :
    translateCommandline (some (toString (some args))) = .ok (args.filter (· ≠ "")) := by
  have h0 : (scanned []).Plain := ⟨rfl, rfl, rfl⟩
  obtain ⟨hp, hr⟩ := scanned_foldl_append args h0 rfl
  rw [toString, translateCommandline_of_plain hp, hr]
  rfl

/-! ### The characters of the arguments -/

section Has

variable {p : Char → Prop}

/-- Every character the machine holds has a property. -/
private structure ScanHas (p : Char → Prop) (s : Scan) : Prop where
  result : ∀ arg ∈ s.result, ∀ c ∈ arg.toList, p c
  current : ∀ c ∈ s.current, p c

private theorem ScanHas.append {s s' : Scan} (h : ScanHas p s) {text : List Char}
    (ht : ∀ c ∈ text, p c) (hr : s'.result = s.result) (hc : s'.current = s.current ++ text) :
    ScanHas p s' := by
  refine ⟨hr ▸ h.result, ?_⟩
  rw [hc, List.forall_mem_append]
  exact ⟨h.current, ht⟩

private theorem ScanHas.add {s : Scan} (h : ScanHas p s) : ScanHas p s.add := by
  unfold Scan.add
  split
  · refine ⟨?_, fun c hc ↦ (nomatch hc)⟩
    rw [List.forall_mem_append, List.forall_mem_singleton]
    exact ⟨h.result, by simpa using h.current⟩
  · exact h

private theorem ScanHas.stepChar {s : Scan} (h : ScanHas p s) (hb : p '\\') {c : Char}
    (hc : p c) : ScanHas p (s.stepChar c) := by
  have hone : ∀ b ∈ [c], p b := by simpa using hc
  have htwo : ∀ b ∈ ['\\', c], p b := by simpa using And.intro hb hc
  unfold Scan.stepChar Scan.step
  split
  · -- outside quotes
    have hs : ∀ t : Scan, ScanHas p t → ScanHas p { t with lastTokenHasBeenQuoted := false } :=
      fun t ht ↦ ⟨ht.result, ht.current⟩
    apply hs
    split
    · exact h.append hone rfl rfl
    · split
      · exact ⟨h.result, h.current⟩
      · split
        · exact ⟨h.result, h.current⟩
        · split
          · exact ⟨h.result, h.current⟩
          · split
            · exact h.add
            · exact h.append hone rfl rfl
  · unfold Scan.stepQuote
    split
    · exact ⟨h.result, h.current⟩
    · exact h.append hone rfl rfl
  · unfold Scan.stepDoubleQuote
    split
    · split
      · exact h.append hone rfl rfl
      · exact ⟨h.result, h.current⟩
    · split
      · split
        · exact h.append hone rfl rfl
        · exact ⟨h.result, h.current⟩
      · split
        · exact h.append htwo rfl rfl
        · exact h.append hone rfl rfl

private theorem ScanHas.foldl {s : Scan} (h : ScanHas p s) (hb : p '\\') {text : List Char}
    (ht : ∀ c ∈ text, p c) : ScanHas p (text.foldl Scan.stepChar s) := by
  induction text generalizing s with
  | nil => exact h
  | cons c text ih =>
    rw [List.forall_mem_cons] at ht
    exact ih (h.stepChar hb ht.1) ht.2

/-- The characters of the arguments are characters of the line, but for backslashes. -/
theorem forall_mem_of_translateCommandline (hb : p '\\') {text : String} {args : List String}
    (h : translateCommandline (some text) = .ok args) (ht : ∀ c ∈ text.toList, p c) :
    ∀ arg ∈ args, ∀ c ∈ arg.toList, p c := by
  have hstart : ScanHas p ({} : Scan) := ⟨fun arg ha ↦ (nomatch ha), fun c hc ↦ (nomatch hc)⟩
  have hend := hstart.foldl hb ht
  simp only [translateCommandline, foldl_step_tokens] at h
  split at h
  · cases h
    exact fun arg ha ↦ (nomatch ha)
  · split at h
    · cases h
    · split at h
      · cases h
      · cases h
        exact hend.add.result

end Has

end Commandline
end FastSearch.Plugin
