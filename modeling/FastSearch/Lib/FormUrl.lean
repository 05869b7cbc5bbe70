import Mathlib.Data.List.DropRight
import FastSearch.Lib.PercentEncoding

/-!
# The parameters of a URL

How the URL Standard reads the parameters of an `http` or `https` URL: the query lies between
the first `?` and the `#`, and the parser of `application/x-www-form-urlencoded` splits and
decodes it. A text at the end of a URL is read back from its last parameter exactly if nothing
in it has a meaning in URLs.
-/

namespace FormUrl

/-! ### Forms and URLs -/

/-- The name and the value of a part of a form, split at the first `=`. -/
def parsePart (bs : List UInt8) : List Char × List Char :=
  (decodeComponent (bs.takeWhile (· ≠ 0x3D)), decodeComponent (bs.dropWhile (· ≠ 0x3D)).tail)

/-- The parser of `application/x-www-form-urlencoded`. -/
def parseForm (bs : List UInt8) : List (List Char × List Char) :=
  ((bs.splitOn 0x26).filter fun part ↦ !part.isEmpty).map parsePart

/-- C0 controls and the space. -/
def isC0OrSpace (c : Char) : Bool := c.toNat ≤ 0x20

/-- Tab and newlines. -/
def isTabOrNewline (c : Char) : Bool := c.toNat == 0x09 || c.toNat == 0x0A || c.toNat == 0x0D

/-- A URL without what the parser of URLs removes before it starts. -/
def trim (url : List Char) : List Char :=
  ((url.dropWhile isC0OrSpace).rdropWhile isC0OrSpace).filter fun c ↦ !isTabOrNewline c

/-- The query of an `http` or `https` URL, still as it was written. -/
def query (url : List Char) : Option (List Char) :=
  match ((trim url).takeWhile (· ≠ '#')).dropWhile (· ≠ '?') with
  | _ :: q => some q
  | [] => none

/-- The value of the first parameter of a name. -/
def get (name url : List Char) : Option (List Char) :=
  (query url).bind fun q ↦ (parseForm (encode q)).lookup name

/-! ### Encodings that keep a separator -/

section Separators

universe u v

variable {α : Type u} {β : Type v} [DecidableEq α] [DecidableEq β] {f : α → List β} {a : α} {b : β}

/-- A separator that is not in a list stops no scan of it. -/
private theorem forall_ne_of_not_mem {l : List β} (h : b ∉ l) :
    ∀ x ∈ l, decide (x ≠ b) = true := by
  intro x hx
  exact decide_eq_true fun he ↦ h (he ▸ hx)

private theorem splitOn_append (l : List β) (h : b ∉ l) (rest : List β) :
    (l ++ rest).splitOn b = (rest.splitOn b).modifyHead (l ++ ·) := by
  induction l with
  | nil =>
    rw [List.nil_append]
    cases rest.splitOn b <;> rfl
  | cons x l ih =>
    rw [List.mem_cons, not_or] at h
    have hx : (x == b) = false := beq_eq_false_iff_ne.mpr fun he ↦ h.1 he.symm
    rw [List.cons_append, List.splitOn_cons_eq_if_modifyHead, hx, ih h.2]
    cases rest.splitOn b <;> rfl

/-- Splitting comes before or after the encoding. -/
theorem splitOn_flatMap (ha : f a = [b]) (hf : ∀ x, x ≠ a → b ∉ f x) (l : List α) :
    (l.flatMap f).splitOn b = (l.splitOn a).map (·.flatMap f) := by
  induction l with
  | nil => rfl
  | cons x l ih =>
    rw [List.flatMap_cons, List.splitOn_cons_eq_if_modifyHead]
    by_cases hx : x = a
    · rw [hx, ha, List.singleton_append, List.splitOn_cons_eq_if_modifyHead, ih]
      simp
    · rw [splitOn_append _ (hf x hx), ih, beq_eq_false_iff_ne.mpr hx]
      cases l.splitOn a <;> rfl

theorem takeWhile_flatMap (ha : f a = [b]) (hf : ∀ x, x ≠ a → b ∉ f x) (l : List α) :
    (l.flatMap f).takeWhile (· ≠ b) = (l.takeWhile (· ≠ a)).flatMap f := by
  induction l with
  | nil => rfl
  | cons x l ih =>
    rw [List.flatMap_cons]
    by_cases hx : x = a
    · rw [hx, ha]
      simp
    · rw [List.takeWhile_append_of_pos (forall_ne_of_not_mem (hf x hx)), ih]
      simp [hx]

theorem dropWhile_flatMap (ha : f a = [b]) (hf : ∀ x, x ≠ a → b ∉ f x) (l : List α) :
    (l.flatMap f).dropWhile (· ≠ b) = (l.dropWhile (· ≠ a)).flatMap f := by
  induction l with
  | nil => rfl
  | cons x l ih =>
    rw [List.flatMap_cons]
    by_cases hx : x = a
    · rw [hx, ha]
      simp [ha]
    · rw [List.dropWhile_append_of_pos (forall_ne_of_not_mem (hf x hx)), ih]
      simp [hx]

end Separators

/-! ### The parameters of a query -/

/-- A part of a query is split before it is encoded. -/
theorem parsePart_encode (cs : List Char) :
    parsePart (encode cs) = (decodeComponent (encode (cs.takeWhile (· ≠ '='))),
      decodeComponent (encode (cs.dropWhile (· ≠ '=')).tail)) := by
  have hsep : encodeChar '=' = [0x3D] := rfl
  have hnot : ∀ c, c ≠ '=' → 0x3D ∉ encodeChar c :=
    fun c hc ↦ not_mem_encodeChar (Or.inr rfl) rfl rfl hc
  have htail : (encode (cs.dropWhile (· ≠ '='))).tail = encode (cs.dropWhile (· ≠ '=')).tail := by
    have hhead := List.head?_dropWhile_not (fun c : Char ↦ decide (c ≠ '=')) cs
    cases hd : cs.dropWhile (· ≠ '=') with
    | nil => rfl
    | cons x xs =>
      rw [hd] at hhead
      have hx : x = '=' := by simpa using hhead
      rw [hx]
      rfl
  unfold parsePart
  rw [encode, takeWhile_flatMap hsep hnot, dropWhile_flatMap hsep hnot]
  exact congrArg _ (congrArg _ htail)

/-- A query is split before it is encoded. -/
theorem parseForm_encode (q : List Char) :
    parseForm (encode q) =
      ((q.splitOn '&').filter fun part ↦ !part.isEmpty).map fun part ↦ parsePart (encode part) := by
  have hsep : encodeChar '&' = [0x26] := rfl
  have hnot : ∀ c, c ≠ '&' → 0x26 ∉ encodeChar c :=
    fun c hc ↦ not_mem_encodeChar (Or.inl rfl) rfl rfl hc
  unfold parseForm
  rw [encode, splitOn_flatMap hsep hnot, List.filter_map, List.map_map]
  have hfilter : ((fun part : List UInt8 ↦ !part.isEmpty) ∘ fun part ↦ part.flatMap encodeChar) =
      fun part : List Char ↦ !part.isEmpty := by
    funext part
    exact congrArg _ (isEmpty_encode part)
  rw [hfilter]
  rfl

private theorem length_le_of_mem_splitOn {part q : List Char} (h : part ∈ q.splitOn '&') :
    part.length ≤ q.length := by
  induction q generalizing part with
  | nil =>
    rw [List.mem_singleton.mp h]
    exact Nat.le_refl _
  | cons c q ih =>
    rw [List.splitOn_cons_eq_if_modifyHead] at h
    split at h
    · rcases List.mem_cons.mp h with rfl | h
      · exact Nat.zero_le _
      · exact Nat.le_succ_of_le (ih h)
    · cases hq : q.splitOn '&' with
      | nil => exact absurd hq (List.splitOn_ne_nil _ _)
      | cons first others =>
        rw [hq] at h ih
        rcases List.mem_cons.mp h with rfl | h
        · exact Nat.succ_le_succ (ih List.mem_cons_self)
        · exact Nat.le_succ_of_le (ih (List.mem_cons_of_mem _ h))

/-- No value is longer than the query. -/
theorem length_lookup_le {name q v : List Char} (h : (parseForm (encode q)).lookup name = some v) :
    v.length ≤ q.length := by
  obtain ⟨l₁, l₂, hl, _⟩ := List.lookup_eq_some_iff.mp h
  have hmem : (name, v) ∈ parseForm (encode q) := by
    rw [hl]
    simp
  rw [parseForm_encode, List.mem_map] at hmem
  obtain ⟨part, hpart, he⟩ := hmem
  rw [parsePart_encode, Prod.mk.injEq] at he
  have hsub : ((part.dropWhile (· ≠ '=')).tail).Sublist part :=
    (List.tail_sublist _).trans (List.dropWhile_sublist _)
  calc v.length = (decodeComponent (encode (part.dropWhile (· ≠ '=')).tail)).length := by rw [he.2]
    _ ≤ (part.dropWhile (· ≠ '=')).tail.length := length_decodeComponent_le _
    _ ≤ part.length := hsub.length_le
    _ ≤ q.length := length_le_of_mem_splitOn (List.mem_of_mem_filter hpart)

private theorem splitOn_eq_takeWhile_cons (q : List Char) :
    ∃ others, q.splitOn '&' = q.takeWhile (· ≠ '&') :: others := by
  induction q with
  | nil => exact ⟨[], rfl⟩
  | cons c q ih =>
    obtain ⟨others, ho⟩ := ih
    rw [List.splitOn_cons_eq_if_modifyHead, ho]
    by_cases hc : c = '&'
    · simp [hc]
    · simp [hc]

/-- The form that begins with a parameter. -/
private theorem parseForm_parameter {name : List Char}
    (hname : decodeComponent (encode name) = name) (hamp : '&' ∉ name) (heq : '=' ∉ name)
    (rest : List Char) :
    ∃ others, parseForm (encode (name ++ '=' :: rest)) =
      (name, decodeComponent (encode (rest.takeWhile (· ≠ '&')))) :: others := by
  obtain ⟨others, ho⟩ := splitOn_eq_takeWhile_cons rest
  have hsplit : (name ++ '=' :: rest).splitOn '&' =
      (name ++ '=' :: rest.takeWhile (· ≠ '&')) :: others := by
    have hn : '&' ∉ name ++ ['='] := by simp [hamp]
    have happ := splitOn_append (name ++ ['=']) hn rest
    rw [ho] at happ
    simpa using happ
  have hfirst : (name ++ '=' :: rest.takeWhile (· ≠ '&')).isEmpty = false := by
    cases name <;> rfl
  refine ⟨(others.filter fun part ↦ !part.isEmpty).map fun part ↦ parsePart (encode part), ?_⟩
  rw [parseForm_encode, hsplit, List.filter_cons, hfirst, Bool.not_false, if_pos rfl, List.map_cons,
    parsePart_encode, List.takeWhile_append_of_pos (forall_ne_of_not_mem heq),
    List.dropWhile_append_of_pos (forall_ne_of_not_mem heq)]
  simp [hname]

/-- The value of a parameter that no earlier part has. -/
theorem lookup_append {b name : List Char}
    (hb : b = [] ∨ ∃ b', b = b' ++ ['&'] ∧ (parseForm (encode b')).lookup name = none)
    (hname : decodeComponent (encode name) = name) (hamp : '&' ∉ name) (heq : '=' ∉ name)
    (rest : List Char) :
    (parseForm (encode (b ++ (name ++ '=' :: rest)))).lookup name =
      some (decodeComponent (encode (rest.takeWhile (· ≠ '&')))) := by
  obtain ⟨others, ho⟩ := parseForm_parameter hname hamp heq rest
  rcases hb with rfl | ⟨b', rfl, hnone⟩
  · rw [List.nil_append, ho]
    exact List.lookup_cons_self
  · have hsplit : parseForm (encode (b' ++ ['&'] ++ (name ++ '=' :: rest))) =
        parseForm (encode b') ++ parseForm (encode (name ++ '=' :: rest)) := by
      rw [parseForm_encode, parseForm_encode, parseForm_encode, List.append_assoc,
        List.singleton_append, List.splitOn_append_cons_self, List.filter_append, List.map_append]
    rw [hsplit, List.lookup_append, hnone, ho, List.lookup_cons_self]
    rfl

/-! ### A text at the end of a URL -/

/-- What is left of the end of a URL. -/
def trimEnd (text : List Char) : List Char :=
  (text.rdropWhile isC0OrSpace).filter fun c ↦ !isTabOrNewline c

theorem trimEnd_sublist (text : List Char) : (trimEnd text).Sublist text :=
  List.filter_sublist.trans (List.rdropWhile_prefix _ _).sublist

private theorem rdropWhile_append {front : List Char} (hf : ∀ c ∈ front, isC0OrSpace c = false)
    (text : List Char) :
    (front ++ text).rdropWhile isC0OrSpace = front ++ text.rdropWhile isC0OrSpace := by
  induction text using List.reverseRecOn with
  | nil =>
    rw [List.append_nil, List.rdropWhile_nil, List.append_nil, List.rdropWhile_eq_self_iff]
    intro hne
    rw [hf _ (List.getLast_mem hne)]
    exact Bool.false_ne_true
  | append_singleton text c ih =>
    rw [← List.append_assoc, List.rdropWhile_concat, List.rdropWhile_concat, ih]
    split
    · rfl
    · rw [List.append_assoc]

/-- Only the end of a URL is trimmed. -/
theorem trim_append {front : List Char} (hf : ∀ c ∈ front, isC0OrSpace c = false)
    (hne : front ≠ []) (text : List Char) : trim (front ++ text) = front ++ trimEnd text := by
  have hdrop : (front ++ text).dropWhile isC0OrSpace = front ++ text := by
    cases front with
    | nil => exact absurd rfl hne
    | cons c cs =>
      rw [List.cons_append, List.dropWhile_cons, hf c List.mem_cons_self,
        if_neg Bool.false_ne_true]
  have hfilter : front.filter (fun c ↦ !isTabOrNewline c) = front := by
    apply List.filter_eq_self.mpr
    intro c hc
    have hgt := hf c hc
    rw [isC0OrSpace, decide_eq_false_iff_not] at hgt
    rw [isTabOrNewline, Bool.not_eq_true', Bool.or_eq_false_iff, Bool.or_eq_false_iff,
      beq_eq_false_iff_ne, beq_eq_false_iff_ne, beq_eq_false_iff_ne]
    omega
  rw [trim, hdrop, rdropWhile_append hf, List.filter_append, hfilter, trimEnd]

/-- What is left of a text in the last parameter of a URL. -/
def lastValue (text : List Char) : List Char :=
  ((trimEnd text).takeWhile (· ≠ '#')).takeWhile (· ≠ '&')

theorem lastValue_sublist (text : List Char) : (lastValue text).Sublist text :=
  ((List.takeWhile_sublist _).trans (List.takeWhile_sublist _)).trans (trimEnd_sublist text)

/-- A URL up to the text at its end: neither blanks nor a fragment. -/
def IsFront (front : List Char) : Prop :=
  front ≠ [] ∧ ∀ c ∈ front, isC0OrSpace c = false ∧ c ≠ '#'

theorem isFront_of_all {front : List Char} (hne : front.isEmpty = false)
    (h : front.all (fun c ↦ !isC0OrSpace c && c != '#') = true) : IsFront front := by
  refine ⟨fun he ↦ by simp [he] at hne, ?_⟩
  intro c hc
  simpa using List.all_eq_true.mp h c hc

theorem IsFront.takeWhile_trim {front : List Char} (h : IsFront front) (text : List Char) :
    (trim (front ++ text)).takeWhile (· ≠ '#') = front ++ (trimEnd text).takeWhile (· ≠ '#') := by
  rw [trim_append (fun c hc ↦ (h.2 c hc).1) h.1, List.takeWhile_append_of_pos]
  intro c hc
  exact decide_eq_true (h.2 c hc).2

/-- The query of a URL whose text comes after the `?`. -/
theorem query_append {a b : List Char} (h : IsFront (a ++ '?' :: b)) (ha : '?' ∉ a)
    (text : List Char) :
    query (a ++ '?' :: b ++ text) = some (b ++ (trimEnd text).takeWhile (· ≠ '#')) := by
  rw [query, h.takeWhile_trim, List.append_assoc,
    List.dropWhile_append_of_pos (forall_ne_of_not_mem ha)]
  simp

/-- Without a `?` before it, the text has to bring the query. -/
theorem length_query_lt {front : List Char} (h : IsFront front) (hq : '?' ∉ front)
    {text q : List Char} (he : query (front ++ text) = some q) : q.length < text.length := by
  rw [query, h.takeWhile_trim, List.dropWhile_append_of_pos (forall_ne_of_not_mem hq)] at he
  have hsub : (((trimEnd text).takeWhile (· ≠ '#')).dropWhile (· ≠ '?')).Sublist text :=
    ((List.dropWhile_sublist _).trans (List.takeWhile_sublist _)).trans (trimEnd_sublist text)
  split at he
  · next c rest hr =>
    obtain rfl : rest = q := Option.some.inj he
    rw [hr] at hsub
    exact hsub.length_le
  · cases he

/-- A text that nothing in a URL changes. -/
structure Verbatim (text : List Char) : Prop where
  noAmpersand : '&' ∉ text
  noNumberSign : '#' ∉ text
  noPlus : '+' ∉ text
  noEscape : hasEscape text = false
  noNewline : ∀ c ∈ text, isTabOrNewline c = false
  noBlankEnd : ∀ h : text ≠ [], isC0OrSpace (text.getLast h) = false

private theorem takeWhile_ne_eq_self_iff (d : Char) (text : List Char) :
    text.takeWhile (· ≠ d) = text ↔ d ∉ text := by
  rw [List.takeWhile_eq_self_iff]
  constructor
  · intro h hd
    exact of_decide_eq_true (h d hd) rfl
  · exact forall_ne_of_not_mem

/-- Trimming leaves a text without newlines and without a blank end. -/
private theorem trimEnd_eq_self_iff (text : List Char) :
    trimEnd text = text ↔ (∀ c ∈ text, isTabOrNewline c = false) ∧
      ∀ h : text ≠ [], isC0OrSpace (text.getLast h) = false := by
  have hblank : text.rdropWhile isC0OrSpace = text ↔
      ∀ h : text ≠ [], isC0OrSpace (text.getLast h) = false := by
    rw [List.rdropWhile_eq_self_iff]
    simp only [Bool.not_eq_true]
  constructor
  · intro h
    have hr : text.rdropWhile isC0OrSpace = text := by
      apply (List.rdropWhile_prefix _ _).sublist.eq_of_length_le
      exact (congrArg List.length h).symm.le.trans List.filter_sublist.length_le
    refine ⟨?_, hblank.mp hr⟩
    rw [trimEnd, hr, List.filter_eq_self] at h
    intro c hc
    exact (Bool.not_eq_true' _).mp (h c hc)
  · rintro ⟨hnewline, hend⟩
    rw [trimEnd, hblank.mpr hend, List.filter_eq_self]
    intro c hc
    exact (Bool.not_eq_true' _).mpr (hnewline c hc)

private theorem lastValue_eq_self_iff (text : List Char) :
    lastValue text = text ↔ trimEnd text = text ∧ '#' ∉ text ∧ '&' ∉ text := by
  constructor
  · intro h
    have hlen : text.length ≤ (trimEnd text).length := by
      have hsub : (lastValue text).Sublist (trimEnd text) :=
        (List.takeWhile_sublist _).trans (List.takeWhile_sublist _)
      exact (congrArg List.length h).symm.le.trans hsub.length_le
    have ht : trimEnd text = text := (trimEnd_sublist text).eq_of_length_le hlen
    have hn : text.takeWhile (· ≠ '#') = text := by
      apply (List.takeWhile_sublist _).eq_of_length_le
      rw [lastValue, ht] at h
      exact (congrArg List.length h).symm.le.trans (List.takeWhile_sublist _).length_le
    rw [lastValue, ht, hn, takeWhile_ne_eq_self_iff] at h
    exact ⟨ht, (takeWhile_ne_eq_self_iff _ _).mp hn, h⟩
  · rintro ⟨ht, hn, ha⟩
    rw [lastValue, ht, (takeWhile_ne_eq_self_iff _ _).mpr hn,
      (takeWhile_ne_eq_self_iff _ _).mpr ha]

/-- The last parameter of a URL reads a text back exactly if it is verbatim. -/
theorem decodeComponent_lastValue_iff (text : List Char) :
    decodeComponent (encode (lastValue text)) = text ↔ Verbatim text := by
  constructor
  · intro h
    have hself : lastValue text = text := by
      apply (lastValue_sublist text).eq_of_length_le
      exact (congrArg List.length h).symm.le.trans (length_decodeComponent_le _)
    obtain ⟨ht, hn, ha⟩ := (lastValue_eq_self_iff text).mp hself
    rw [hself, decodeComponent_eq_self_iff] at h
    obtain ⟨hnewline, hend⟩ := (trimEnd_eq_self_iff text).mp ht
    exact ⟨ha, hn, h.2, h.1, hnewline, hend⟩
  · intro h
    have ht : trimEnd text = text := (trimEnd_eq_self_iff text).mpr ⟨h.noNewline, h.noBlankEnd⟩
    rw [(lastValue_eq_self_iff text).mpr ⟨ht, h.noNumberSign, h.noAmpersand⟩]
    exact (decodeComponent_eq_self_iff text).mpr ⟨h.noEscape, h.noPlus⟩

/-- A URL whose last parameter is the text. -/
theorem get_append_eq_iff {a b name : List Char} (h : IsFront (a ++ '?' :: (b ++ (name ++ ['=']))))
    (ha : '?' ∉ a)
    (hb : b = [] ∨ ∃ b', b = b' ++ ['&'] ∧ (parseForm (encode b')).lookup name = none)
    (hname : decodeComponent (encode name) = name) (hamp : '&' ∉ name) (heq : '=' ∉ name)
    (text : List Char) :
    get name (a ++ '?' :: (b ++ (name ++ ['='])) ++ text) = some text ↔ Verbatim text := by
  rw [get, query_append h ha, Option.bind_some, List.append_assoc, List.append_assoc,
    List.singleton_append, lookup_append hb hname hamp heq, Option.some.injEq]
  exact decodeComponent_lastValue_iff text

/-- A URL without a query before the text never has the text as a parameter. -/
theorem get_append_ne {front : List Char} (h : IsFront front) (hq : '?' ∉ front)
    (name text : List Char) : get name (front ++ text) ≠ some text := by
  intro he
  obtain ⟨q, hquery, hl⟩ := Option.bind_eq_some_iff.mp he
  exact absurd (length_lookup_le hl) (Nat.not_le_of_lt (length_query_lt h hq hquery))

end FormUrl
