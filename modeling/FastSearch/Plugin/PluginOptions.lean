import Mathlib.Data.List.AList
import FastSearch.Lib.Tokens

/-!
# Plugin options

`plugin/PluginOptions.kt`: the identifier of a plugin and a map of options, some without a value,
with a text in which backslash, equals sign and semicolon are escaped. The map is a hash map; an
association list gives the order in which its entries are visited, which may be any.
-/

namespace FastSearch.Plugin

open Tokens

/-- `PluginOptions`, `plugin/PluginOptions.kt:30`. -/
structure PluginOptions where
  id : String := ""
  map : AList (fun _ : String ↦ Option String) := ∅

namespace PluginOptions

/-- `equals`: the identifiers and the maps are equal. -/
def Same (o o' : PluginOptions) : Prop := o.id = o'.id ∧ ∀ key, o.map.lookup key = o'.map.lookup key

/-- `put`. The place that a hash map gives a new entry is not specified; here it is the first one,
and printing and reading are proved for every order of the entries. -/
def put (o : PluginOptions) (key : String) (value : Option String) : PluginOptions :=
  { o with map := o.map.insert key value }

/-! ### Printing -/

/-- The characters at which a text is cut. -/
def isDelim (c : Char) : Bool := c == '\\' || c == '=' || c == ';'

/-- The private `append`, `plugin/PluginOptions.kt:78`. -/
def escaped (str : String) : List Char := escape '\\' isDelim str.toList

/-- An entry of the map as text. -/
def entryText (key : String) (value : Option String) : List Char :=
  escaped key ++ match value with
    | none => []
    | some value => '=' :: escaped value

/-- The loop of `toString`: a semicolon before every entry but at the start of the text. -/
def appendEntry (result : List Char) (e : (_ : String) × Option String) : List Char :=
  (if result = [] then [] else result ++ [';']) ++ entryText e.1 e.2

/-- `toString`, `plugin/PluginOptions.kt:88`. -/
def toString (o : PluginOptions) (trimId : Bool) : String :=
  if trimId = false ∧ o.id = "" then ""
  else String.ofList (o.map.entries.foldl appendEntry (if trimId then [] else escaped o.id))

/-! ### Parsing -/

/-- `Char.isISOControl`. -/
def isISOControl (c : Char) : Bool :=
  decide (c.toNat ≤ 0x1F ∨ (0x7F ≤ c.toNat ∧ c.toNat ≤ 0x9F))

/-- The variables of the constructor's loop. -/
structure Parse where
  options : PluginOptions := {}
  current : List Char := []
  key : Option (List Char) := none
  parseId : Bool

namespace Parse

/-- Text appended to `current`. -/
def append (s : Parse) (text : List Char) : Parse := { s with current := s.current ++ text }

/-- An equals sign: the first one of an entry ends the key. -/
def equals (s : Parse) : Parse :=
  match s.key with
  | none => { s with key := some s.current, current := [] }
  | some _ => s.append ['=']

/-- A semicolon ends an entry, or the identifier. -/
def semicolon (s : Parse) : Parse :=
  { options :=
      match s.key with
      | some key => s.options.put (String.ofList key) (some (String.ofList s.current))
      | none =>
        if s.current = [] then s.options
        else if s.parseId then { s.options with id := String.ofList s.current }
        else s.options.put (String.ofList s.current) none
    parseId := false }

/-- The loop over the tokens; a backslash takes the next one, whatever it is. -/
def loop : List (List Char) → Parse → Except String Parse
  | [], s => .ok s
  | nextToken :: tokenizer, s =>
    if nextToken = ['\\'] then
      match tokenizer with
      | [] => .error "NoSuchElementException"
      | next :: tokenizer => loop tokenizer (s.append next)
    else if nextToken = ['='] then loop tokenizer s.equals
    else if nextToken = [';'] then loop tokenizer s.semicolon
    else loop tokenizer (s.append nextToken)

end Parse

/-- The private constructor, `plugin/PluginOptions.kt:37`. -/
def parse (options : Option String) (parseId : Bool) : Except String PluginOptions :=
  match options with
  | none => .ok {}
  | some text =>
    if text = "" then .ok {}
    else if text.toList.all fun c ↦ !isISOControl c then
      (Parse.loop (tokens isDelim (text.toList ++ [';'])) { parseId := parseId }).map Parse.options
    else .error "No control characters allowed."

/-- The constructor from a whole text, `plugin/PluginOptions.kt:65`. -/
def ofText (options : Option String) : Except String PluginOptions := parse options true

/-- The constructor from an identifier and options, `plugin/PluginOptions.kt:66`. -/
def ofIdAndText (id : String) (options : Option String) : Except String PluginOptions :=
  (parse options false).map fun o ↦ { o with id := id }

/-! ### Reading character by character -/

namespace Parse

/-- The loop on one character; the flag says that a backslash came before. -/
def stepChar (s : Parse × Bool) (c : Char) : Parse × Bool :=
  if s.2 then (s.1.append [c], false)
  else if c = '\\' then (s.1, true)
  else if c = '=' then (s.1.equals, false)
  else if c = ';' then (s.1.semicolon, false)
  else (s.1.append [c], false)

/-- The outcome of the loop on a text. -/
def finish (s : Parse × Bool) : Except String Parse :=
  if s.2 then .error "NoSuchElementException" else .ok s.1

private theorem append_append (s : Parse) (a b : List Char) :
    (s.append a).append b = s.append (a ++ b) := by
  simp [append, List.append_assoc]

private theorem loop_run {t : List Char} (h : IsRun isDelim t) (ts : List (List Char)) (s : Parse) :
    loop (t :: ts) s = loop ts (s.append t) := by
  obtain ⟨a, t, rfl⟩ := List.exists_cons_of_ne_nil h.1
  have ha : isDelim a = false := h.2 a List.mem_cons_self
  have hne : ∀ c, isDelim c = true → a :: t ≠ [c] := by
    rintro c hc he
    cases he
    rw [ha] at hc
    cases hc
  rw [loop.eq_def]
  simp only [hne '\\' rfl, hne '=' rfl, hne ';' rfl, if_false]

/-- The next token after a backslash is appended, and the loop goes on. -/
private def loopEscaped : List (List Char) → Parse → Except String Parse
  | [], _ => .error "NoSuchElementException"
  | next :: ts, s => loop ts (s.append next)

/-- The loop over the tokens of a text is the loop over its characters, after a backslash or
not. -/
private theorem loop_tokens_aux (l : List Char) (s : Parse) :
    loop (tokens isDelim l) s = finish (l.foldl stepChar (s, false)) ∧
      loopEscaped (tokens isDelim l) s = finish (l.foldl stepChar (s, true)) := by
  induction l generalizing s with
  | nil => exact ⟨rfl, rfl⟩
  | cons a l ih =>
    rw [List.foldl_cons, List.foldl_cons]
    have htrue : stepChar (s, true) a = (s.append [a], false) := rfl
    rw [htrue]
    cases h : isDelim a with
    | true =>
      rw [tokens_delim h]
      refine ⟨?_, (ih _).1⟩
      simp only [isDelim, Bool.or_eq_true, beq_iff_eq] at h
      rcases h with (rfl | rfl) | rfl
      · refine Eq.trans ?_ (ih s).2
        rw [loop.eq_def]
        cases tokens isDelim l <;> rfl
      · refine Eq.trans ?_ (ih s.equals).1
        rw [loop.eq_def]
        rfl
      · refine Eq.trans ?_ (ih s.semicolon).1
        rw [loop.eq_def]
        rfl
    | false =>
      have hstep : stepChar (s, false) a = (s.append [a], false) := by
        simp only [isDelim, Bool.or_eq_false_iff, beq_eq_false_iff_ne] at h
        simp [stepChar, h.1.1, h.1.2, h.2]
      rw [hstep, ← (ih _).1]
      rcases tokens_letter h l with ⟨t, ts, ht, hts, he⟩ | he
      · have ht' : IsRun isDelim (a :: t) := ⟨by simp, by simpa [h] using ht.2⟩
        rw [he, hts, loop_run ht', loop_run ht, append_append]
        exact ⟨rfl, rfl⟩
      · have ha : IsRun isDelim [a] := ⟨by simp, by simpa using h⟩
        rw [he, loop_run ha]
        exact ⟨rfl, rfl⟩

/-- The loop over the tokens is the loop over the characters. -/
theorem loop_tokens (l : List Char) (s : Parse) :
    loop (tokens isDelim l) s = finish (l.foldl stepChar (s, false)) :=
  (loop_tokens_aux l s).1

/-- The semicolon at the end leaves no backslash open. -/
theorem loop_terminated (l : List Char) (s : Parse) :
    ∃ s', loop (tokens isDelim (l ++ [';'])) s = .ok s' ∧
      (l ++ [';']).foldl stepChar (s, false) = (s', false) := by
  rw [loop_tokens, List.foldl_append]
  obtain ⟨t, b⟩ := l.foldl stepChar (s, false)
  cases b with
  | true => exact ⟨t.append [';'], rfl, rfl⟩
  | false => exact ⟨t.semicolon, rfl, rfl⟩

end Parse

/-! ### What a printed text reads as -/

private theorem foldl_append (s : Parse) (w : List Char) :
    w.foldl (fun (s : Parse × Bool) c ↦ (s.1.append [c], false)) (s, false) =
      (s.append w, false) := by
  induction w generalizing s with
  | nil => simp [Parse.append]
  | cons c w ih =>
    rw [List.foldl_cons, ih, Parse.append_append]
    rfl

/-- Escaped text is read as the text. -/
theorem foldl_escaped (s : Parse) (str : String) :
    (escaped str).foldl Parse.stepChar (s, false) = (s.append str.toList, false) := by
  rw [← foldl_append, escaped]
  apply foldl_escape (P := fun s : Parse × Bool ↦ s.2 = false)
  · intro s c _
    rfl
  · rintro ⟨s, b⟩ c (rfl : b = false) _
    rfl
  · rintro ⟨s, b⟩ c (rfl : b = false) hc
    simp only [isDelim, Bool.or_eq_false_iff, beq_eq_false_iff_ne] at hc
    simp [Parse.stepChar, hc.1.1, hc.1.2, hc.2]
  · rfl

/-- An entry as it comes back: one without a key and without a value does not. -/
def putEntry (o : PluginOptions) (e : (_ : String) × Option String) : PluginOptions :=
  if e.1 = "" ∧ e.2 = none then o else o.put e.1 e.2

/-- After the text, a semicolon leaves these options. -/
def Reads (parseId : Bool) (text : List Char) (o : PluginOptions) : Prop :=
  ∃ s : Parse, text.foldl Parse.stepChar ({ parseId := parseId }, false) = (s, false) ∧
    s.semicolon = { options := o, parseId := false }

private theorem reads_nil : Reads false [] {} := ⟨{ parseId := false }, rfl, rfl⟩

private theorem reads_id {id : String} (h : id ≠ "") : Reads true (escaped id) { id := id } := by
  refine ⟨_, foldl_escaped _ id, ?_⟩
  have hne : id.toList ≠ [] := by simpa using h
  simp [Parse.append, Parse.semicolon, hne]

/-- An entry read from a fresh start. -/
private theorem semicolon_entryText (o : PluginOptions) (e : (_ : String) × Option String) :
    ∃ s : Parse, (entryText e.1 e.2).foldl Parse.stepChar
        ({ options := o, parseId := false }, false) = (s, false) ∧
      s.semicolon = { options := o.putEntry e, parseId := false } := by
  obtain ⟨key, value⟩ := e
  cases value with
  | none =>
    rw [entryText, List.append_nil, foldl_escaped]
    refine ⟨_, rfl, ?_⟩
    by_cases hk : key = ""
    · simp [Parse.append, Parse.semicolon, putEntry, hk]
    · simp [Parse.append, Parse.semicolon, putEntry, hk]
  | some value =>
    rw [entryText, List.foldl_append, foldl_escaped, List.foldl_cons]
    have heq : Parse.stepChar
        (Parse.append { options := o, parseId := false } key.toList, false) '=' =
        ({ options := o, key := some key.toList, parseId := false }, false) := rfl
    rw [heq, foldl_escaped]
    refine ⟨_, rfl, ?_⟩
    simp [Parse.append, Parse.semicolon, putEntry]

/-- One entry more. -/
private theorem reads_appendEntry {parseId : Bool} {text : List Char} {o : PluginOptions}
    (h : Reads parseId text o) (hid : text = [] → parseId = false)
    (e : (_ : String) × Option String) : Reads parseId (appendEntry text e) (o.putEntry e) := by
  obtain ⟨s, hs, ho⟩ := h
  obtain ⟨t, ht, hsemi⟩ := semicolon_entryText o e
  refine ⟨t, ?_, hsemi⟩
  rw [appendEntry, List.foldl_append]
  by_cases hne : text = []
  · have hp := hid hne
    subst hne hp
    cases hs
    have ho' : o = {} := (congrArg Parse.options ho).symm
    rw [ho'] at ht
    exact ht
  · rw [if_neg hne, List.foldl_append, hs]
    change List.foldl Parse.stepChar (s.semicolon, false) _ = _
    rw [ho]
    exact ht

private theorem appendEntry_eq_nil {text : List Char} {e : (_ : String) × Option String}
    (h : appendEntry text e = []) : text = [] := by
  by_contra hne
  rw [appendEntry, if_neg hne] at h
  simp at h

/-- All entries. -/
private theorem reads_foldl {parseId : Bool} {text : List Char} {o : PluginOptions}
    (h : Reads parseId text o) (hid : text = [] → parseId = false)
    (es : List ((_ : String) × Option String)) :
    Reads parseId (es.foldl appendEntry text) (es.foldl putEntry o) := by
  induction es generalizing text o with
  | nil => exact h
  | cons e es ih =>
    apply ih (reads_appendEntry h hid e)
    intro he
    exact hid (appendEntry_eq_nil he)

/-- A text without control characters is parsed as it reads. -/
private theorem parse_of_reads {parseId : Bool} {text : List Char} {o : PluginOptions}
    (h : Reads parseId text o) (hid : text = [] → parseId = false)
    (hc : ∀ c ∈ text, isISOControl c = false) :
    parse (some (String.ofList text)) parseId = .ok o := by
  obtain ⟨s, hs, ho⟩ := h
  by_cases hne : text = []
  · subst hne
    have hp := hid rfl
    subst hp
    cases hs
    exact congrArg Except.ok (congrArg Parse.options ho)
  · have hne' : String.ofList text ≠ "" := by simpa using hne
    have hall : (String.ofList text).toList.all (fun c ↦ !isISOControl c) = true := by
      simpa [List.all_eq_true] using hc
    rw [parse, if_neg hne', if_pos hall, String.toList_ofList, Parse.loop_tokens,
      List.foldl_append, hs]
    change Except.ok s.semicolon.options = _
    rw [ho]

/-- A text with a control character is refused. -/
private theorem parse_of_control (parseId : Bool) {text : List Char}
    (h : ¬ ∀ c ∈ text, isISOControl c = false) :
    ∃ e, parse (some (String.ofList text)) parseId = .error e := by
  have hne : String.ofList text ≠ "" := by
    intro he
    have : text = [] := by simpa using he
    exact h (by simp [this])
  have hall : ¬ (String.ofList text).toList.all (fun c ↦ !isISOControl c) = true := by
    simpa [List.all_eq_true] using h
  exact ⟨_, by rw [parse, if_neg hne, if_neg hall]⟩

/-! ### Maps -/

private theorem id_foldl_putEntry (o : PluginOptions) (es : List ((_ : String) × Option String)) :
    (es.foldl putEntry o).id = o.id := by
  induction es generalizing o with
  | nil => rfl
  | cons e es ih =>
    rw [List.foldl_cons, ih, putEntry]
    split <;> rfl

/-- Entries with different keys are put as they are, if none is without key and value. -/
private theorem lookup_foldl_putEntry {es : List ((_ : String) × Option String)}
    (hn : es.NodupKeys) (hs : ∀ e ∈ es, ¬ (e.1 = "" ∧ e.2 = none)) (o : PluginOptions)
    (key : String) :
    (es.foldl putEntry o).map.lookup key = (es.dlookup key).or (o.map.lookup key) := by
  induction es generalizing o with
  | nil => rfl
  | cons e es ih =>
    rw [List.forall_mem_cons] at hs
    obtain ⟨hne, hn⟩ := List.nodupKeys_cons.mp hn
    rw [List.foldl_cons, ih hn hs.2, putEntry, if_neg hs.1, put]
    by_cases hk : key = e.1
    · subst hk
      rw [AList.lookup_insert, List.dlookup_eq_none.mpr hne, List.dlookup_cons_eq]
      rfl
    · rw [AList.lookup_insert_ne hk, List.dlookup_cons_ne _ _ hk]

/-- An entry without key and value leaves the empty key alone. -/
private theorem lookup_empty_foldl_putEntry {es : List ((_ : String) × Option String)}
    (hs : ∀ e ∈ es, e.1 = "" → e.2 = none) (o : PluginOptions) :
    (es.foldl putEntry o).map.lookup "" = o.map.lookup "" := by
  induction es generalizing o with
  | nil => rfl
  | cons e es ih =>
    rw [List.forall_mem_cons] at hs
    rw [List.foldl_cons, ih hs.2, putEntry]
    split
    · rfl
    · next hne =>
      apply AList.lookup_insert_ne
      intro he
      exact hne ⟨he.symm, hs.1 he.symm⟩

/-- The text has no control characters. -/
def NoControl (s : String) : Prop := ∀ c ∈ s.toList, isISOControl c = false

/-- The entry has a key or a value, and no control characters. -/
def EntryPrintable (e : (_ : String) × Option String) : Prop :=
  ¬ (e.1 = "" ∧ e.2 = none) ∧ NoControl e.1 ∧ ∀ value, e.2 = some value → NoControl value

/-- Reading the entries of a map gives the map back exactly when no entry is without key and
value. -/
private theorem same_foldl_putEntry_iff (o : PluginOptions) :
    (o.map.entries.foldl putEntry { id := o.id }).Same o ↔
      ∀ e ∈ o.map.entries, ¬ (e.1 = "" ∧ e.2 = none) := by
  constructor
  · rintro ⟨_, h⟩ e he ⟨hk, hv⟩
    obtain ⟨key, value⟩ := e
    cases hk
    cases hv
    have hlook : o.map.lookup "" = some none := AList.mem_lookup_iff.mpr he
    have hkeys : ∀ e ∈ o.map.entries, e.1 = "" → e.2 = none := by
      rintro ⟨key, value⟩ hm (rfl : key = "")
      have hl : o.map.lookup "" = some value := AList.mem_lookup_iff.mpr hm
      rw [hlook] at hl
      exact (Option.some.inj hl).symm
    have h' := h ""
    rw [lookup_empty_foldl_putEntry hkeys, hlook] at h'
    cases h'
  · intro hs
    refine ⟨id_foldl_putEntry _ _, ?_⟩
    intro key
    rw [lookup_foldl_putEntry o.map.nodupKeys hs, AList.lookup_empty, Option.or_none]
    rfl

/-! ### The characters of a text -/

section Characters

variable {p : Char → Prop} (hb : p '\\') (he : p '=') (hs : p ';')

include hb he in
private theorem forall_entryText (e : (_ : String) × Option String) :
    (∀ c ∈ entryText e.1 e.2, p c) ↔
      (∀ c ∈ e.1.toList, p c) ∧ ∀ value, e.2 = some value → ∀ c ∈ value.toList, p c := by
  obtain ⟨key, value⟩ := e
  cases value with
  | none => simp [entryText, escaped, forall_mem_escape hb]
  | some value =>
    simp only [entryText, escaped, List.forall_mem_append, List.forall_mem_cons,
      forall_mem_escape hb, he, true_and, Option.some.injEq, forall_eq']

include hb he hs in
/-- The characters of a printed text are those of the entries, but for the three added. -/
private theorem forall_foldl (es : List ((_ : String) × Option String)) (text : List Char) :
    (∀ c ∈ es.foldl appendEntry text, p c) ↔
      (∀ c ∈ text, p c) ∧
        ∀ e ∈ es, (∀ c ∈ e.1.toList, p c) ∧
          ∀ value, e.2 = some value → ∀ c ∈ value.toList, p c := by
  induction es generalizing text with
  | nil => simp
  | cons e es ih =>
    have hpre : (∀ c ∈ (if text = [] then [] else text ++ [';']), p c) ↔ ∀ c ∈ text, p c := by
      split
      · next ht => rw [ht]
      · rw [List.forall_mem_append, List.forall_mem_singleton, and_iff_left hs]
    rw [List.foldl_cons, ih, appendEntry, List.forall_mem_append, hpre, forall_entryText hb he,
      List.forall_mem_cons, and_assoc]

end Characters

private theorem noControl_escaped (s : String) :
    (∀ c ∈ escaped s, isISOControl c = false) ↔ NoControl s :=
  forall_mem_escape (p := fun c ↦ isISOControl c = false) (by decide)

private theorem noControl_foldl (es : List ((_ : String) × Option String)) (text : List Char) :
    (∀ c ∈ es.foldl appendEntry text, isISOControl c = false) ↔
      (∀ c ∈ text, isISOControl c = false) ∧
        ∀ e ∈ es, NoControl e.1 ∧ ∀ value, e.2 = some value → NoControl value :=
  forall_foldl (p := fun c ↦ isISOControl c = false) (by decide) (by decide) (by decide) es text

/-! ### Round trips -/

private theorem foldl_putEntry_withId (id : String) (es : List ((_ : String) × Option String))
    (o : PluginOptions) :
    { es.foldl putEntry o with id := id } = es.foldl putEntry { o with id := id } := by
  induction es generalizing o with
  | nil => rfl
  | cons e es ih =>
    rw [List.foldl_cons, List.foldl_cons, ih, putEntry, putEntry]
    split <;> rfl

/-- A printed text is parsed to the entries that come back, or refused for a control character. -/
private theorem parse_foldl {parseId : Bool} {text : List Char} {o : PluginOptions}
    (h : Reads parseId text o) (hid : text = [] → parseId = false)
    (es : List ((_ : String) × Option String)) {r : PluginOptions} :
    parse (some (String.ofList (es.foldl appendEntry text))) parseId = .ok r ↔
      (∀ c ∈ text, isISOControl c = false) ∧
        (∀ e ∈ es, NoControl e.1 ∧ ∀ value, e.2 = some value → NoControl value) ∧
        r = es.foldl putEntry o := by
  have hnil : es.foldl appendEntry text = [] → parseId = false := by
    intro he
    apply hid
    clear h
    induction es generalizing text with
    | nil => exact he
    | cons e es ih => exact appendEntry_eq_nil (ih (fun h' ↦ hid (appendEntry_eq_nil h')) he)
  rw [← and_assoc, ← noControl_foldl]
  constructor
  · intro hp
    by_cases hc : ∀ c ∈ es.foldl appendEntry text, isISOControl c = false
    · rw [parse_of_reads (reads_foldl h hid es) hnil hc] at hp
      exact ⟨hc, (Except.ok.inj hp).symm⟩
    · obtain ⟨err, herr⟩ := parse_of_control parseId hc
      rw [herr] at hp
      cases hp
  · rintro ⟨hc, rfl⟩
    exact parse_of_reads (reads_foldl h hid es) hnil hc

/-- The options can be printed: no entry is without key and value, and nothing in the entries is
a control character. -/
def EntriesPrintable (o : PluginOptions) : Prop := ∀ e ∈ o.map.entries, EntryPrintable e

private theorem entriesPrintable_iff (o : PluginOptions) :
    o.EntriesPrintable ↔
      (∀ e ∈ o.map.entries, NoControl e.1 ∧ ∀ value, e.2 = some value → NoControl value) ∧
        (o.map.entries.foldl putEntry { id := o.id }).Same o := by
  rw [same_foldl_putEntry_iff, and_comm, ← forall₂_and]
  rfl

/-- Without an identifier the text is empty, and so are the options that come back. -/
private theorem same_empty_iff {o : PluginOptions} (hid : o.id = "") :
    PluginOptions.Same {} o ↔ o.map.entries = [] := by
  constructor
  · rintro ⟨_, h⟩
    apply List.eq_nil_iff_forall_not_mem.mpr
    rintro ⟨key, value⟩ he
    have hl : o.map.lookup key = some value := AList.mem_lookup_iff.mpr he
    have hn := h key
    rw [hl] at hn
    cases hn
  · intro he
    refine ⟨hid.symm, ?_⟩
    intro key
    change none = List.dlookup key o.map.entries
    rw [he]
    rfl

/-- The full text is read as the options exactly when they have an identifier or nothing at all,
and nothing in them is a control character or an entry without key and value. -/
theorem ofText_toString_iff (o : PluginOptions) :
    (∃ r, ofText (some (o.toString false)) = .ok r ∧ r.Same o) ↔
      (o.id = "" → o.map.entries = []) ∧ NoControl o.id ∧ o.EntriesPrintable := by
  by_cases hid : o.id = ""
  · have ht : ofText (some (o.toString false)) = .ok {} := by simp [toString, hid, ofText, parse]
    have hc : NoControl o.id := by simp [NoControl, hid]
    rw [ht]
    constructor
    · rintro ⟨r, hr, hs⟩
      cases hr
      have he := (same_empty_iff hid).mp hs
      refine ⟨fun _ ↦ he, hc, ?_⟩
      intro e hm
      rw [he] at hm
      cases hm
    · rintro ⟨he, _⟩
      exact ⟨{}, rfl, (same_empty_iff hid).mpr (he hid)⟩
  · have ht : o.toString false =
        String.ofList (o.map.entries.foldl appendEntry (escaped o.id)) := by
      simp [toString, hid]
    have hne : escaped o.id = [] → true = false := by
      intro he
      exact absurd (escape_eq_nil_iff.mp he) (by simpa using hid)
    rw [ht, entriesPrintable_iff]
    simp only [ofText, parse_foldl (reads_id hid) hne, noControl_escaped]
    constructor
    · rintro ⟨r, ⟨hc, he, rfl⟩, hs⟩
      exact ⟨fun h ↦ absurd h hid, hc, he, hs⟩
    · rintro ⟨_, hc, he, hs⟩
      exact ⟨_, ⟨hc, he, rfl⟩, hs⟩

/-- The text without the identifier is read as the options exactly when their entries are
printable. -/
theorem ofIdAndText_toString_iff (o : PluginOptions) :
    (∃ r, ofIdAndText o.id (some (o.toString true)) = .ok r ∧ r.Same o) ↔ o.EntriesPrintable := by
  have ht : o.toString true = String.ofList (o.map.entries.foldl appendEntry []) := by
    simp [toString]
  have hmap : ∀ text r, ofIdAndText o.id text = .ok r ↔
      ∃ r', parse text false = .ok r' ∧ { r' with id := o.id } = r := by
    intro text r
    rw [ofIdAndText]
    cases parse text false <;> simp [Except.map]
  simp only [hmap, ht, entriesPrintable_iff, parse_foldl reads_nil fun _ ↦ rfl]
  constructor
  · rintro ⟨r, ⟨r', ⟨_, he, rfl⟩, rfl⟩, hs⟩
    rw [foldl_putEntry_withId] at hs
    exact ⟨he, hs⟩
  · rintro ⟨he, hs⟩
    refine ⟨_, ⟨_, ⟨by simp, he, rfl⟩, rfl⟩, ?_⟩
    rw [foldl_putEntry_withId]
    exact hs

/-- Options come back from their text: from the full text exactly when they have an identifier or
nothing at all, and nothing in them is a control character or an entry without key and value; from
the text without the identifier exactly when their entries are printable. -/
theorem reads_back_iff (o : PluginOptions) :
    ((∃ r, ofText (some (o.toString false)) = .ok r ∧ r.Same o) ↔
      (o.id = "" → o.map.entries = []) ∧ NoControl o.id ∧ o.EntriesPrintable) ∧
    ((∃ r, ofIdAndText o.id (some (o.toString true)) = .ok r ∧ r.Same o) ↔ o.EntriesPrintable) :=
  ⟨o.ofText_toString_iff, o.ofIdAndText_toString_iff⟩

/-- A full text is the escaped identifier and the entries, set off by semicolons. -/
theorem toString_eq_append (o : PluginOptions) :
    ∃ tail, (o.toString false).toList = escaped o.id ++ tail ∧ ∀ c ∈ tail.head?, c = ';' := by
  by_cases hid : o.id = ""
  · exact ⟨[], by simp [toString, hid, escaped, escape], by simp⟩
  · have hne : escaped o.id ≠ [] := by
      intro he
      exact hid (by simpa using escape_eq_nil_iff.mp he)
    have hall : ∀ (es : List ((_ : String) × Option String)) (tail : List Char),
        (∀ c ∈ tail.head?, c = ';') → ∃ tail',
          es.foldl appendEntry (escaped o.id ++ tail) = escaped o.id ++ tail' ∧
            ∀ c ∈ tail'.head?, c = ';' := by
      intro es
      induction es with
      | nil => exact fun tail ht ↦ ⟨tail, rfl, ht⟩
      | cons e es ih =>
        intro tail ht
        have he : appendEntry (escaped o.id ++ tail) e =
            escaped o.id ++ (tail ++ ';' :: entryText e.1 e.2) := by
          simp [appendEntry, hne]
        rw [List.foldl_cons, he]
        apply ih
        cases tail with
        | nil => simp
        | cons c tail => exact ht
    obtain ⟨tail, ht, hsemi⟩ := hall o.map.entries [] (by simp)
    refine ⟨tail, ?_, hsemi⟩
    rw [List.append_nil] at ht
    simp [toString, hid, ht]

/-- What is read from the full text of options with an identifier has the identifier. -/
theorem id_of_reads_back {o r : PluginOptions} (hid : o.id ≠ "")
    (h : ofText (some (o.toString false)) = .ok r) : r.id = o.id := by
  have ht : o.toString false =
      String.ofList (o.map.entries.foldl appendEntry (escaped o.id)) := by
    simp [toString, hid]
  have hne : escaped o.id = [] → true = false := by
    intro he
    exact absurd (escape_eq_nil_iff.mp he) (by simpa using hid)
  rw [ht, ofText, parse_foldl (reads_id hid) hne] at h
  rw [h.2.2]
  exact id_foldl_putEntry _ _

/-! ### What can be read -/

/-- Every character of the options has a property, and no entry is without key and value. -/
structure Has (p : Char → Prop) (o : PluginOptions) : Prop where
  id : ∀ c ∈ o.id.toList, p c
  key : ∀ e ∈ o.map.entries, ∀ c ∈ e.1.toList, p c
  value : ∀ e ∈ o.map.entries, ∀ value, e.2 = some value → ∀ c ∈ value.toList, p c
  entry : ∀ e ∈ o.map.entries, ¬ (e.1 = "" ∧ e.2 = none)

section Has

variable {p : Char → Prop}

theorem has_empty : Has p {} :=
  ⟨by simp, fun e he ↦ (nomatch he), fun e he ↦ (nomatch he), fun e he ↦ (nomatch he)⟩

/-- The order of the entries does not matter. -/
theorem Has.of_same {o o' : PluginOptions} (h : Has p o') (hs : o.Same o') : Has p o := by
  have hmem : ∀ e ∈ o.map.entries, e ∈ o'.map.entries := by
    intro e he
    rw [← AList.mem_lookup_iff, ← hs.2]
    exact AList.mem_lookup_iff.mpr he
  exact ⟨hs.1 ▸ h.id, fun e he ↦ h.key e (hmem e he), fun e he ↦ h.value e (hmem e he),
    fun e he ↦ h.entry e (hmem e he)⟩

theorem Has.put {o : PluginOptions} (h : Has p o) {key : String} {value : Option String}
    (hk : ∀ c ∈ key.toList, p c) (hv : ∀ v, value = some v → ∀ c ∈ v.toList, p c)
    (he : ¬ (key = "" ∧ value = none)) : Has p (o.put key value) := by
  have hm : ∀ e ∈ (o.put key value).map.entries, e = ⟨key, value⟩ ∨ e ∈ o.map.entries := by
    intro e hm
    rw [PluginOptions.put, AList.entries_insert, List.mem_cons] at hm
    exact hm.imp_right fun h ↦ List.Sublist.subset (List.kerase_sublist _ _) h
  constructor
  · exact h.id
  · intro e hme
    rcases hm e hme with rfl | hme
    · exact hk
    · exact h.key e hme
  · intro e hme
    rcases hm e hme with rfl | hme
    · exact hv
    · exact h.value e hme
  · intro e hme
    rcases hm e hme with rfl | hme
    · exact he
    · exact h.entry e hme

/-- The same for all that the loop holds. -/
private structure ParseHas (p : Char → Prop) (s : Parse) : Prop where
  options : Has p s.options
  current : ∀ c ∈ s.current, p c
  key : ∀ key, s.key = some key → ∀ c ∈ key, p c

private theorem ParseHas.append {s : Parse} (h : ParseHas p s) {c : Char} (hc : p c) :
    ParseHas p (s.append [c]) := by
  refine ⟨h.options, ?_, h.key⟩
  intro b hb
  rcases List.mem_append.mp hb with hb | hb
  · exact h.current b hb
  · rw [List.mem_singleton.mp hb]
    exact hc

private theorem ParseHas.equals {s : Parse} (h : ParseHas p s) (hc : p '=') :
    ParseHas p s.equals := by
  unfold Parse.equals
  split
  · refine ⟨h.options, fun c hc ↦ (nomatch hc), ?_⟩
    intro key hk
    cases hk
    exact h.current
  · exact h.append hc

private theorem ParseHas.semicolon {s : Parse} (h : ParseHas p s) : ParseHas p s.semicolon := by
  refine ⟨?_, fun c hc ↦ (nomatch hc), fun key hk ↦ (nomatch hk)⟩
  unfold Parse.semicolon
  dsimp only
  split
  · next key hk =>
    apply h.options.put
    · simpa using h.key key hk
    · intro v hv
      cases hv
      simpa using h.current
    · simp
  · split
    · exact h.options
    · next hne =>
      split
      · exact ⟨by simpa using h.current, h.options.key, h.options.value, h.options.entry⟩
      · apply h.options.put
        · simpa using h.current
        · intro v hv
          cases hv
        · simpa using hne

private theorem ParseHas.foldl {s : Parse × Bool} (h : ParseHas p s.1) {text : List Char}
    (ht : ∀ c ∈ text, p c) : ParseHas p (text.foldl Parse.stepChar s).1 := by
  induction text generalizing s with
  | nil => exact h
  | cons c text ih =>
    rw [List.forall_mem_cons] at ht
    apply ih _ ht.2
    unfold Parse.stepChar
    split
    · exact h.append ht.1
    · split
      · exact h
      · split
        · next hc => exact h.equals (hc ▸ ht.1)
        · split
          · exact h.semicolon
          · exact h.append ht.1

/-- The characters of parsed options are characters of the text. -/
theorem has_of_ofText {text : String} {o : PluginOptions} (h : ofText (some text) = .ok o)
    (hs : p ';') (ht : ∀ c ∈ text.toList, p c) : Has p o := by
  rw [ofText, parse] at h
  split at h
  · cases h
    exact has_empty
  · split at h
    · obtain ⟨s, hs', hf⟩ := Parse.loop_terminated text.toList { parseId := true }
      rw [hs'] at h
      cases h
      have hstart : ParseHas p ({ parseId := true } : Parse) :=
        ⟨has_empty, fun c hc ↦ (nomatch hc), fun key hk ↦ (nomatch hk)⟩
      have hall : ∀ c ∈ text.toList ++ [';'], p c := by
        rw [List.forall_mem_append, List.forall_mem_singleton]
        exact ⟨ht, hs⟩
      have hend := ParseHas.foldl (s := ({ parseId := true }, false)) hstart hall
      rw [hf] at hend
      exact hend.options
    · cases h

/-- A text that is parsed has no control characters. -/
theorem noControl_of_ofText {text : String} {o : PluginOptions} (h : ofText (some text) = .ok o) :
    NoControl text := by
  rw [ofText, parse] at h
  split at h
  · next he => simp [NoControl, he]
  · split at h
    · next hc => simpa [NoControl, List.all_eq_true] using hc
    · cases h

/-- The characters of a full text are those of the options, but for the three added. -/
theorem Has.toString {o : PluginOptions} (h : Has p o) (hb : p '\\') (he : p '=') (hs : p ';') :
    ∀ c ∈ (o.toString false).toList, p c := by
  unfold PluginOptions.toString
  split
  · exact fun c hc ↦ (nomatch hc)
  · rw [String.toList_ofList, forall_foldl hb he hs]
    exact ⟨(forall_mem_escape hb).mpr h.id, fun e hm ↦ ⟨h.key e hm, h.value e hm⟩⟩

end Has

end PluginOptions
end FastSearch.Plugin
