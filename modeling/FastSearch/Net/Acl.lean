import FastSearch.Lib.Lines
import FastSearch.Lib.SortedList
import FastSearch.Lib.Utf16Order
import FastSearch.Net.Subnet
import Mathlib.Data.List.DropRight

/-!
# Access control lists

`acl/Acl.kt`: hostnames and subnets that bypass the proxy or go through it, and addresses of
further lists. A `SortedList` of hostnames or subnets is the finite set of its items, listed in
their order; URLs that compare equal may differ, so their list is kept as it is. The platform's
addresses, URLs and patterns are parameters; what is relied on about their texts is a property of
its own.
-/

namespace FastSearch.Net

open Lines

/-- `Acl`, `acl/Acl.kt:42`. -/
structure Acl (Url : Type) where
  bypassHostnames : Finset String := ∅
  proxyHostnames : Finset String := ∅
  subnets : Finset Subnet := ∅
  urls : List Url := []
  bypass : Bool := false

namespace Acl

/-- `Char.isWhitespace`. -/
def isWhitespace (c : Char) : Bool :=
  let n := c.toNat
  (9 ≤ n && n ≤ 13) || (28 ≤ n && n ≤ 32) || n == 0xA0 || n == 0x1680 ||
    (0x2000 ≤ n && n ≤ 0x200A) || n == 0x2028 || n == 0x2029 || n == 0x202F || n == 0x205F ||
    n == 0x3000

/-- `trim`. -/
def trim (text : List Char) : List Char := (text.dropWhile isWhitespace).rdropWhile isWhitespace

/-- The characters that a dot in a pattern does not match. -/
def isLineTerminator (c : Char) : Bool :=
  c == '\n' || c == '\r' || c == '\u0085' || c == '\u2028' || c == '\u2029'

/-- What an address is printed with. -/
def isAddressChar (c : Char) : Bool :=
  ('0' ≤ c && c ≤ '9') || ('a' ≤ c && c ≤ 'f') || c == '.' || c == ':'

/-- What the platform does with addresses, URLs and white space in patterns; `sameUrl` is the
`equals` of URLs. -/
structure System (Url : Type) where
  parseNumericAddress : String → Option InetAddress
  hostAddress : InetAddress → String
  url : String → Option Url
  urlText : Url → String
  host : Url → String
  port : Url → Int
  file : Url → String
  protocol : Url → String
  sameUrl : Url → Url → Bool
  patternSpace : Char → Bool

/-- The text ends no line within a pattern. -/
def OnePatternLine (text : List Char) : Prop := ∀ c ∈ text, isLineTerminator c = false

theorem onePatternLine_of_any {text : List Char} (h : text.any isLineTerminator = false) :
    OnePatternLine text := by
  intro c hc
  simpa using List.any_eq_false.mp h c hc

namespace System

variable {Url : Type} (sys : System Url)

/-- `URLSorter`, `utils/Sorters.kt:38`. -/
def compareUrls (u v : Url) : Ordering :=
  letI := Utf16.order
  (compare (sys.host u) (sys.host v)).then ((compare (sys.port u) (sys.port v)).then
    ((compare (sys.file u) (sys.file v)).then (compare (sys.protocol u) (sys.protocol v))))

/-- The platform gives this address for a text; of IPv6, it gives none that is mapped from IPv4. -/
def Yields (a : InetAddress) : Prop := ∃ text, sys.parseNumericAddress text = some a

/-- The platform gives this URL for a text. -/
def YieldsUrl (u : Url) : Prop := ∃ text, sys.url text = some u

/-- What is relied on: the text of an address or a URL that the platform gives is not empty and is
read as it, addresses have digits, dots and colons, and a URL read from a line is printed on one. -/
structure Lawful : Prop where
  parse_hostAddress : ∀ a, sys.Yields a → sys.parseNumericAddress (sys.hostAddress a) = some a
  hostAddress_ne : ∀ a, sys.Yields a → sys.hostAddress a ≠ ""
  hostAddress_chars : ∀ a, sys.Yields a → ∀ c ∈ (sys.hostAddress a).toList, isAddressChar c = true
  url_urlText : ∀ u, sys.YieldsUrl u → sys.url (sys.urlText u) = some u
  urlText_ne : ∀ u, sys.YieldsUrl u → sys.urlText u ≠ ""
  urlText_line : ∀ text u, sys.url text = some u → OnePatternLine text.toList →
    OnePatternLine (sys.urlText u).toList
  patternSpace_blank : sys.patternSpace ' ' = true
  patternSpace_angle : sys.patternSpace '<' = false ∧ sys.patternSpace '>' = false

end System

/-- Where a rule sends a connection. -/
inductive Side where
  | bypass
  | proxy
  deriving DecidableEq, Repr

/-- The variables of `parse`, `acl/Acl.kt:71`, and what its callers collect; `sink` is where
`hostnames` and `subnets` point, which change together. -/
structure Parse (Url : Type) where
  bypass : Bool
  sink : Option Side
  bypassSubnets : List Subnet := []
  proxySubnets : List Subnet := []
  bypassHostnames : Finset String := ∅
  proxyHostnames : Finset String := ∅
  urls : List Url := []

namespace Parse

variable {Url : Type}

/-- `hostnames!!(input)`. -/
def addHostname (s : Parse Url) (side : Side) (hostname : String) : Parse Url :=
  match side with
  | .bypass => { s with bypassHostnames := insert hostname s.bypassHostnames }
  | .proxy => { s with proxyHostnames := insert hostname s.proxyHostnames }

/-- `subnets!!.add(subnet)`. -/
def addSubnet (s : Parse Url) (side : Side) (subnet : Subnet) : Parse Url :=
  match side with
  | .bypass => { s with bypassSubnets := s.bypassSubnets ++ [subnet] }
  | .proxy => { s with proxySubnets := s.proxySubnets ++ [subnet] }

/-- A line that begins with a bracket, `acl/Acl.kt:87`. -/
def block (s : Parse Url) (input : List Char) : Except String (Parse Url) :=
  if input = "[outbound_block_list]".toList then .ok { s with sink := none }
  else if input = "[black_list]".toList ∨ input = "[bypass_list]".toList then
    .ok { s with sink := some .bypass }
  else if input = "[white_list]".toList ∨ input = "[proxy_list]".toList then
    .ok { s with sink := some .proxy }
  else if input = "[reject_all]".toList ∨ input = "[bypass_all]".toList then
    .ok { s with bypass := true }
  else if input = "[accept_all]".toList ∨ input = "[proxy_all]".toList then
    .ok { s with bypass := false }
  else .error ("Unrecognized block: " ++ String.ofList input)

end Parse

/-! ### Trimming -/

/-- Text that begins and ends with no white space is left alone. -/
theorem trim_eq_self {l : List Char} (hh : ∀ c ∈ l.head?, isWhitespace c = false)
    (hl : ∀ c ∈ l.getLast?, isWhitespace c = false) : trim l = l := by
  have hd : l.dropWhile isWhitespace = l := by
    cases l with
    | nil => rfl
    | cons c l => rw [List.dropWhile_cons_of_neg (by simpa using hh c rfl)]
  rw [trim, hd, List.rdropWhile_eq_self_iff]
  intro hne
  simpa using hl _ (List.getLast?_eq_some_getLast hne)

private theorem head?_dropWhile (l : List Char) :
    ∀ c ∈ (l.dropWhile isWhitespace).head?, isWhitespace c = false := by
  induction l with
  | nil => simp
  | cons c l ih =>
    rw [List.dropWhile_cons]
    split
    · exact ih
    · next h => simpa using h

/-- What is trimmed stays as it is. -/
theorem trim_trim (l : List Char) : trim (trim l) = trim l := by
  apply trim_eq_self
  · intro c hc
    have hp : trim l <+: l.dropWhile isWhitespace := List.rdropWhile_prefix _ _
    obtain ⟨rest, hr⟩ := hp
    apply head?_dropWhile l
    rw [← hr]
    cases ht : trim l with
    | nil =>
      rw [ht] at hc
      cases hc
    | cons d t =>
      rw [ht] at hc
      exact hc
  · intro c hc
    have hne : trim l ≠ [] := by
      rintro h
      rw [h] at hc
      cases hc
    have hlast := List.rdropWhile_last_not isWhitespace (l.dropWhile isWhitespace) hne
    rw [List.getLast?_eq_some_getLast hne] at hc
    cases hc
    exact Bool.eq_false_iff.mpr hlast

/-- Trimming only removes. -/
theorem trim_sublist (l : List Char) : (trim l).Sublist l :=
  (List.rdropWhile_prefix _ _).sublist.trans (List.dropWhile_sublist _)

section System

variable {Url : Type} (sys : System Url)

/-- What `networkAclParser` captures in a comment: the dot matches no line terminator, and only
white space may follow the last angle bracket. -/
def importUrl (comment : List Char) : Option (List Char) :=
  let name := "IMPORT_URL".toList
  if name.isPrefixOf comment then
    match (comment.drop name.length).dropWhile sys.patternSpace with
    | '<' :: rest =>
      match (rest.rdropWhile sys.patternSpace).reverse with
      | '>' :: captured =>
        if captured = [] ∨ captured.any isLineTerminator then none else some captured.reverse
      | _ => none
    | _ => none
  else none

/-- A rule of a line, `acl/Acl.kt:103`. -/
def Parse.rule (s : Parse Url) (side : Side) (input : String) : Parse Url :=
  match Subnet.fromString sys.parseNumericAddress input (-1) with
  | .ok (some subnet) => s.addSubnet side subnet
  | _ => s.addHostname side input

/-- What follows a number sign, `acl/Acl.kt:83`. -/
def Parse.comment (s : Parse Url) (text : List Char) : Except String (Parse Url) :=
  match importUrl sys text with
  | none => .ok s
  | some url =>
    match sys.url (String.ofList url) with
    | none => .error "MalformedURLException"
    | some u => .ok { s with urls := SortedList.add sys.compareUrls sys.sameUrl s.urls u }

/-- What precedes it, `acl/Acl.kt:87`. -/
def Parse.input (s : Parse Url) (input : List Char) : Except String (Parse Url) :=
  if input.head? = some '[' then s.block input
  else
    match s.sink with
    | none => .ok s
    | some side => .ok (if input = [] then s else s.rule sys side (String.ofList input))

/-- One line, `acl/Acl.kt:80`. -/
def parseLine (s : Parse Url) (line : List Char) : Except String (Parse Url) :=
  (s.comment sys ((line.dropWhile (· ≠ '#')).drop 1)).bind fun s ↦
    s.input sys (trim (line.takeWhile (· ≠ '#')))

/-- `fromReader`, `acl/Acl.kt:137`, on the lines that are read. -/
def fromLines (defaultBypass : Bool) (lines : List (List Char)) : Except String (Acl Url) :=
  (lines.foldlM (parseLine sys)
    { bypass := defaultBypass, sink := some (if defaultBypass then .proxy else .bypass) }).map
    fun s ↦
      { bypassHostnames := s.bypassHostnames
        proxyHostnames := s.proxyHostnames
        subnets := (if s.bypass then s.proxySubnets else s.bypassSubnets).toFinset
        urls := s.urls
        bypass := s.bypass }

/-- `fromReader`. -/
def fromReader (defaultBypass : Bool) (text : List Char) : Except String (Acl Url) :=
  fromLines sys defaultBypass (readLines text)

/-- A section of `toString`; an empty one is not written. -/
def sectionText (header : String) (list : List (List Char)) : List Char :=
  if list = [] then [] else header.toList ++ '\n' :: ['\n'].intercalate list ++ ['\n']

/-- The texts of the subnets in order. -/
def subnetTexts (acl : Acl Url) : List (List Char) :=
  acl.subnets.sort.map fun s ↦ (s.toString sys.hostAddress).toList

/-- `toString`, `acl/Acl.kt:174`. -/
def toText (acl : Acl Url) : List Char :=
  let bypassList := (Utf16.sort acl.bypassHostnames).map String.toList
  let proxyList := (Utf16.sort acl.proxyHostnames).map String.toList
  (if acl.bypass then "[bypass_all]" else "[proxy_all]").toList ++ '\n' ::
    sectionText "[bypass_list]"
      (if acl.bypass then bypassList else subnetTexts sys acl ++ bypassList) ++
    sectionText "[proxy_list]"
      (if acl.bypass then subnetTexts sys acl ++ proxyList else proxyList) ++
    acl.urls.flatMap fun u ↦ "#IMPORT_URL <".toList ++ (sys.urlText u).toList ++ ['>', '\n']

/-! ### Lines that are rules -/

/-- A hostname that a list can hold: it is not empty, begins and ends with no white space, has no
comment and no end of a line, is no heading and no subnet. -/
structure Plain (h : String) : Prop where
  ne : h.toList ≠ []
  trimmed : trim h.toList = h.toList
  comment : '#' ∉ h.toList
  line : OneLine h.toList
  heading : h.toList.head? ≠ some '['
  hostname : ∀ s, Subnet.fromString sys.parseNumericAddress h (-1) ≠ .ok (some s)

/-- A line with no comment is trimmed and is a heading or a rule. -/
private theorem parseLine_of_text {l : List Char} (hc : '#' ∉ l) (ht : trim l = l)
    (s : Parse Url) :
    parseLine sys s l = s.input sys l := by
  have hall : ∀ c ∈ l, decide (c ≠ '#') = true := by
    intro c hm
    simpa using fun h : c = '#' ↦ hc (h ▸ hm)
  have htake : l.takeWhile (· ≠ '#') = l := List.takeWhile_eq_self_iff.mpr hall
  have hdrop : l.dropWhile (· ≠ '#') = [] := List.dropWhile_eq_nil_iff.mpr hall
  rw [parseLine, htake, hdrop, ht]
  rfl

/-- A plain hostname is added. -/
private theorem parseLine_hostname {h : String} (hp : Plain sys h) {s : Parse Url} {side : Side}
    (hs : s.sink = some side) : parseLine sys s h.toList = .ok (s.addHostname side h) := by
  rw [parseLine_of_text sys hp.comment hp.trimmed, Parse.input, if_neg hp.heading, hs]
  simp only [if_neg hp.ne, String.ofList_toList, Parse.rule]
  split
  · next subnet hsub => exact absurd hsub (hp.hostname subnet)
  · rfl

private theorem isAddressChar_of_isDigit {c : Char} (hd : c.isDigit = true) :
    isAddressChar c = true := by
  simp only [Char.isDigit, Bool.and_eq_true, decide_eq_true_eq] at hd
  simp only [isAddressChar, Bool.or_eq_true, Bool.and_eq_true, decide_eq_true_eq]
  exact Or.inl (Or.inl (Or.inl hd))

private theorem isAddressChar_of_mem_repr (n : Nat) :
    ∀ c ∈ n.repr.toList, isAddressChar c = true := by
  intro c hc
  rw [Nat.toList_repr] at hc
  exact isAddressChar_of_isDigit (Nat.isDigit_of_mem_toDigits (by decide) (by decide) hc)

private theorem isAddressChar_toString {sys : System Url} (hsys : sys.Lawful) {s : Subnet}
    (hy : sys.Yields s.address) :
    ∀ c ∈ (s.toString sys.hostAddress).toList, isAddressChar c = true ∨ c = '/' := by
  intro c hc
  rw [Subnet.toString] at hc
  split at hc
  · exact Or.inl (hsys.hostAddress_chars s.address hy c hc)
  · rw [String.toList_append, String.toList_append, List.mem_append, List.mem_append] at hc
    rcases hc with (hc | hc) | hc
    · exact Or.inl (hsys.hostAddress_chars s.address hy c hc)
    · simpa using Or.inr hc
    · exact Or.inl (isAddressChar_of_mem_repr s.prefixSize c hc)

/-- The characters of an address are none that a list gives a meaning to. -/
private theorem ne_of_isAddressChar {c : Char} (h : isAddressChar c = true ∨ c = '/') :
    isWhitespace c = false ∧ c ≠ '#' ∧ c ≠ '[' ∧ c ≠ '\n' ∧ c ≠ '\r' := by
  have hn : (46 ≤ c.toNat ∧ c.toNat ≤ 58) ∨ (97 ≤ c.toNat ∧ c.toNat ≤ 102) := by
    rcases h with h | rfl
    · simp only [isAddressChar, Bool.or_eq_true, Bool.and_eq_true, decide_eq_true_eq,
        beq_iff_eq] at h
      rcases h with ((⟨h₁, h₂⟩ | ⟨h₁, h₂⟩) | rfl) | rfl
      · have h₁ : 48 ≤ c.toNat := h₁
        have h₂ : c.toNat ≤ 57 := h₂
        omega
      · exact Or.inr ⟨h₁, h₂⟩
      · decide
      · decide
    · decide
  refine ⟨?_, ?_, ?_, ?_, ?_⟩
  · simp only [isWhitespace, Bool.or_eq_false_iff, Bool.and_eq_false_iff, decide_eq_false_iff_not,
      beq_eq_false_iff_ne]
    omega
  all_goals
    rintro rfl
    revert hn
    decide

private theorem toString_ne_nil {sys : System Url} (hsys : sys.Lawful) {s : Subnet}
    (hy : sys.Yields s.address) : (s.toString sys.hostAddress).toList ≠ [] := by
  have hne := hsys.hostAddress_ne s.address hy
  rw [Subnet.toString]
  split
  · simpa using hne
  · simp

/-- The text of a subnet is not empty and begins neither as a comment nor as a heading. -/
theorem head?_subnet {sys : System Url} (hsys : sys.Lawful) {s : Subnet}
    (hy : sys.Yields s.address) :
    (s.toString sys.hostAddress).toList ≠ [] ∧
      (s.toString sys.hostAddress).toList.head? ≠ some '#' ∧
      (s.toString sys.hostAddress).toList.head? ≠ some '[' := by
  have hchars := fun c hc ↦ ne_of_isAddressChar (isAddressChar_toString hsys hy c hc)
  exact ⟨toString_ne_nil hsys hy, fun hh ↦ (hchars _ (List.mem_of_head? hh)).2.1 rfl,
    fun hh ↦ (hchars _ (List.mem_of_head? hh)).2.2.1 rfl⟩

/-- Trimming leaves the text of a subnet, and it has no comment and is no heading. -/
private theorem parseLine_subnet {sys : System Url} (hsys : sys.Lawful) {subnet : Subnet}
    (hy : sys.Yields subnet.address) {s : Parse Url} {side : Side} (hs : s.sink = some side) :
    parseLine sys s (subnet.toString sys.hostAddress).toList = .ok (s.addSubnet side subnet) := by
  have hchars := fun c hc ↦ ne_of_isAddressChar (isAddressChar_toString hsys hy c hc)
  have ht : trim (subnet.toString sys.hostAddress).toList =
      (subnet.toString sys.hostAddress).toList :=
    trim_eq_self (fun c hc ↦ (hchars c (List.mem_of_head? hc)).1)
      fun c hc ↦ (hchars c (List.mem_of_getLast? hc)).1
  have hslash : '/' ∉ (sys.hostAddress subnet.address).toList := by
    intro h
    exact absurd (hsys.hostAddress_chars subnet.address hy '/' h) (by decide)
  rw [parseLine_of_text sys (fun hc ↦ (hchars _ hc).2.1 rfl) ht, Parse.input,
    if_neg (head?_subnet hsys hy).2.2, hs]
  simp only [if_neg (head?_subnet hsys hy).1, String.ofList_toList, Parse.rule,
    Subnet.fromString_toString subnet (hsys.parse_hostAddress subnet.address hy) hslash]

/-- The comment that imports a list is read as its URL. -/
private theorem importUrl_urlText {sys : System Url} (hsys : sys.Lawful) {u : Url}
    (hy : sys.YieldsUrl u) (hu : OnePatternLine (sys.urlText u).toList) :
    importUrl sys ("IMPORT_URL <".toList ++ (sys.urlText u).toList ++ ['>']) =
      some (sys.urlText u).toList := by
  have hne : (sys.urlText u).toList ≠ [] := by simpa using hsys.urlText_ne u hy
  have hline : (sys.urlText u).toList.any isLineTerminator = false := by
    rw [List.any_eq_false]
    simpa [OnePatternLine] using hu
  have hpre : "IMPORT_URL".toList.isPrefixOf
      ("IMPORT_URL <".toList ++ (sys.urlText u).toList ++ ['>']) = true := by
    simp
  have hdrop : ("IMPORT_URL <".toList ++ (sys.urlText u).toList ++ ['>']).drop
      "IMPORT_URL".toList.length = ' ' :: '<' :: ((sys.urlText u).toList ++ ['>']) := by
    simp
  rw [importUrl]
  simp only [hpre, if_true, hdrop]
  rw [List.dropWhile_cons_of_pos hsys.patternSpace_blank,
    List.dropWhile_cons_of_neg (by simp [hsys.patternSpace_angle.1])]
  change (match (((sys.urlText u).toList ++ ['>']).rdropWhile sys.patternSpace).reverse with
    | '>' :: captured =>
      if captured = [] ∨ captured.any isLineTerminator then none else some captured.reverse
    | _ => none) = _
  rw [List.rdropWhile_concat_neg _ _ _ (by simp [hsys.patternSpace_angle.2]), List.reverse_append]
  simp [hne, hline]

private theorem parseLine_url {sys : System Url} (hsys : sys.Lawful) {u : Url}
    (hy : sys.YieldsUrl u) (hu : OnePatternLine (sys.urlText u).toList) (s : Parse Url) :
    parseLine sys s ("#IMPORT_URL <".toList ++ (sys.urlText u).toList ++ ['>']) =
      .ok { s with urls := SortedList.add sys.compareUrls sys.sameUrl s.urls u } := by
  have hline : "#IMPORT_URL <".toList ++ (sys.urlText u).toList ++ ['>'] =
      '#' :: ("IMPORT_URL <".toList ++ (sys.urlText u).toList ++ ['>']) := by
    simp
  have hdrop : (('#' :: ("IMPORT_URL <".toList ++ (sys.urlText u).toList ++ ['>'])).dropWhile
      (· ≠ '#')).drop 1 = "IMPORT_URL <".toList ++ (sys.urlText u).toList ++ ['>'] := by
    rw [List.dropWhile_cons_of_neg (by simp)]
    rfl
  have htake : ('#' :: ("IMPORT_URL <".toList ++ (sys.urlText u).toList ++ ['>'])).takeWhile
      (· ≠ '#') = [] := by
    rw [List.takeWhile_cons_of_neg (by simp)]
  rw [hline, parseLine, hdrop, htake, Parse.comment, importUrl_urlText hsys hy hu]
  simp only [String.ofList_toList, hsys.url_urlText u hy]
  cases s with
  | mk bypass sink => cases sink <;> rfl

/-! ### Lists that are printed -/

/-- The state after the rules of one section. -/
def Parse.addRules (s : Parse Url) (side : Side) (subnets : List Subnet) (hosts : List String) :
    Parse Url :=
  match side with
  | .bypass =>
    { s with
      bypassSubnets := s.bypassSubnets ++ subnets
      bypassHostnames := s.bypassHostnames ∪ hosts.toFinset }
  | .proxy =>
    { s with
      proxySubnets := s.proxySubnets ++ subnets
      proxyHostnames := s.proxyHostnames ∪ hosts.toFinset }

private theorem foldlM_hostnames {hosts : List String} (hp : ∀ h ∈ hosts, Plain sys h)
    {s : Parse Url} {side : Side} (hs : s.sink = some side) :
    (hosts.map String.toList).foldlM (parseLine sys) s = .ok (s.addRules side [] hosts) := by
  induction hosts generalizing s with
  | nil => cases side <;> simp [Parse.addRules, pure, Except.pure]
  | cons h hosts ih =>
    rw [List.forall_mem_cons] at hp
    have hs' : (s.addHostname side h).sink = some side := by cases side <;> exact hs
    rw [List.map_cons, List.foldlM_cons, parseLine_hostname sys hp.1 hs]
    change (hosts.map String.toList).foldlM (parseLine sys) (s.addHostname side h) = _
    rw [ih hp.2 hs']
    cases side <;> simp [Parse.addRules, Parse.addHostname, Finset.insert_union]

private theorem foldlM_subnets {sys : System Url} (hsys : sys.Lawful) {subnets : List Subnet}
    (hy : ∀ n ∈ subnets, sys.Yields n.address) {s : Parse Url} {side : Side}
    (hs : s.sink = some side) :
    (subnets.map fun n ↦ (n.toString sys.hostAddress).toList).foldlM (parseLine sys) s =
      .ok (s.addRules side subnets []) := by
  induction subnets generalizing s with
  | nil => cases side <;> simp [Parse.addRules, pure, Except.pure]
  | cons n subnets ih =>
    rw [List.forall_mem_cons] at hy
    have hs' : (s.addSubnet side n).sink = some side := by cases side <;> exact hs
    rw [List.map_cons, List.foldlM_cons, parseLine_subnet hsys hy.1 hs]
    change (subnets.map fun n ↦ (n.toString sys.hostAddress).toList).foldlM (parseLine sys)
      (s.addSubnet side n) = _
    rw [ih hy.2 hs']
    cases side <;> simp [Parse.addRules, Parse.addSubnet]

private theorem foldlM_urls {sys : System Url} (hsys : sys.Lawful) {us : List Url}
    (hy : ∀ u ∈ us, sys.YieldsUrl u) (hu : ∀ u ∈ us, OnePatternLine (sys.urlText u).toList)
    (s : Parse Url) :
    (us.map fun u ↦ "#IMPORT_URL <".toList ++ (sys.urlText u).toList ++ ['>']).foldlM
      (parseLine sys) s =
        .ok { s with urls := us.foldl (SortedList.add sys.compareUrls sys.sameUrl) s.urls } := by
  induction us generalizing s with
  | nil => simp [pure, Except.pure]
  | cons u us ih =>
    rw [List.forall_mem_cons] at hy hu
    rw [List.map_cons, List.foldlM_cons, parseLine_url hsys hy.1 hu.1]
    exact ih hy.2 hu.2 _

/-- The lines of a section. -/
def sectionLines (header : String) (list : List (List Char)) : List (List Char) :=
  if list = [] then [] else header.toList :: list

private theorem sectionText_eq (header : String) (list : List (List Char)) :
    sectionText header list = (sectionLines header list).flatMap fun l ↦ l ++ ['\n'] := by
  rw [sectionText, sectionLines]
  split
  · rfl
  · next hne =>
    have hjoin : ∀ list : List (List Char), list ≠ [] →
        ['\n'].intercalate list ++ ['\n'] = list.flatMap fun l ↦ l ++ ['\n'] := by
      intro list hne
      induction list with
      | nil => exact absurd rfl hne
      | cons l list ih =>
        cases list with
        | nil => simp [List.intercalate]
        | cons l' list =>
          have h := ih (by simp)
          rw [List.flatMap_cons, ← h]
          simp [List.intercalate]
    rw [List.flatMap_cons, ← hjoin list hne]
    simp

/-- The heading of the rules of a side. -/
def Side.header : Side → String
  | .bypass => "[bypass_list]"
  | .proxy => "[proxy_list]"

private theorem parseLine_header (side : Side) (s : Parse Url) :
    parseLine sys s side.header.toList = .ok { s with sink := some side } := by
  cases side
  · rw [parseLine_of_text sys (by decide) (by decide)]
    simp [Parse.input, Parse.block, Side.header]
  · rw [parseLine_of_text sys (by decide) (by decide)]
    simp [Parse.input, Parse.block, Side.header]

private theorem parseLine_mode (bypass : Bool) (s : Parse Url) :
    parseLine sys s (if bypass then "[bypass_all]" else "[proxy_all]").toList =
      .ok { s with bypass := bypass } := by
  cases bypass
  · rw [parseLine_of_text sys (by decide) (by decide)]
    simp [Parse.input, Parse.block]
  · rw [parseLine_of_text sys (by decide) (by decide)]
    simp [Parse.input, Parse.block]

/-- A section adds its rules; what comes after it finds another sink or the same. -/
private theorem foldlM_section {sys : System Url} (hsys : sys.Lawful) (side : Side)
    (subnets : List Subnet) (hy : ∀ n ∈ subnets, sys.Yields n.address) {hosts : List String}
    (hp : ∀ h ∈ hosts, Plain sys h) (s : Parse Url) :
    ∃ sink, (sectionLines side.header
        ((subnets.map fun n ↦ (n.toString sys.hostAddress).toList) ++
          hosts.map String.toList)).foldlM (parseLine sys) s =
      .ok { s.addRules side subnets hosts with sink := sink } := by
  by_cases hnil : (subnets.map fun n ↦ (n.toString sys.hostAddress).toList) ++
      hosts.map String.toList = []
  · obtain ⟨hn, hh⟩ := List.append_eq_nil_iff.mp hnil
    rw [List.map_eq_nil_iff] at hn hh
    subst hn hh
    refine ⟨s.sink, ?_⟩
    cases side <;> simp [sectionLines, Parse.addRules, pure, Except.pure]
  · refine ⟨some side, ?_⟩
    have hs : ({ s with sink := some side }.addRules side subnets []).sink = some side := by
      cases side <;> rfl
    rw [sectionLines, if_neg hnil, List.foldlM_cons, parseLine_header]
    change List.foldlM (parseLine sys) { s with sink := some side } _ = _
    rw [List.foldlM_append, foldlM_subnets hsys hy rfl]
    change List.foldlM (parseLine sys) ({ s with sink := some side }.addRules side subnets []) _ = _
    rw [foldlM_hostnames sys hp hs]
    cases side <;> simp [Parse.addRules]

/-- The lines of a list. -/
def lines (acl : Acl Url) : List (List Char) :=
  (if acl.bypass then "[bypass_all]" else "[proxy_all]").toList ::
    (sectionLines Side.bypass.header
        (((if acl.bypass then [] else acl.subnets.sort).map fun n ↦
          (n.toString sys.hostAddress).toList) ++
          (Utf16.sort acl.bypassHostnames).map String.toList) ++
      (sectionLines Side.proxy.header
        (((if acl.bypass then acl.subnets.sort else []).map fun n ↦
          (n.toString sys.hostAddress).toList) ++
          (Utf16.sort acl.proxyHostnames).map String.toList) ++
        acl.urls.map fun u ↦ "#IMPORT_URL <".toList ++ (sys.urlText u).toList ++ ['>']))

/-- The text of a list is its lines. -/
theorem toText_eq (acl : Acl Url) :
    acl.toText sys = (lines sys acl).flatMap fun l ↦ l ++ ['\n'] := by
  have hurls : (acl.urls.flatMap fun u ↦
        "#IMPORT_URL <".toList ++ (sys.urlText u).toList ++ ['>', '\n']) =
      (acl.urls.map fun u ↦
        "#IMPORT_URL <".toList ++ (sys.urlText u).toList ++ ['>']).flatMap fun l ↦ l ++ ['\n'] := by
    rw [List.flatMap_map]
    simp
  rw [lines, List.flatMap_cons, List.flatMap_append, List.flatMap_append, ← sectionText_eq,
    ← sectionText_eq, ← hurls, toText]
  cases acl.bypass <;> simp [subnetTexts, Side.header]

private theorem oneLine_sectionLines {side : Side} {list : List (List Char)}
    (h : ∀ l ∈ list, OneLine l) : ∀ l ∈ sectionLines side.header list, OneLine l := by
  intro l hl
  rw [sectionLines] at hl
  split at hl
  · cases hl
  · rcases List.mem_cons.mp hl with rfl | hl
    · cases side <;> simp [OneLine, Side.header]
    · exact h l hl

private theorem oneLine_rules {sys : System Url} (hsys : sys.Lawful) {subnets : List Subnet}
    (hy : ∀ n ∈ subnets, sys.Yields n.address) {hosts : List String}
    (hp : ∀ h ∈ hosts, Plain sys h) :
    ∀ l ∈ (subnets.map fun n ↦ (n.toString sys.hostAddress).toList) ++ hosts.map String.toList,
      OneLine l := by
  intro l hl
  rcases List.mem_append.mp hl with hl | hl
  · obtain ⟨n, hn, rfl⟩ := List.mem_map.mp hl
    intro c hc
    exact (ne_of_isAddressChar (isAddressChar_toString hsys (hy n hn) c hc)).2.2.2
  · obtain ⟨h, hh, rfl⟩ := List.mem_map.mp hl
    exact (hp h hh).line

/-- The list is made of addresses and URLs that the platform gives, as every list is. -/
structure Native (acl : Acl Url) : Prop where
  addresses : ∀ n ∈ acl.subnets, sys.Yields n.address
  urls : ∀ u ∈ acl.urls, sys.YieldsUrl u

/-- The list can be printed: every hostname is plain, and the text of every URL is on one line. -/
structure Printable (acl : Acl Url) : Prop where
  bypassHostnames : ∀ h ∈ acl.bypassHostnames, Plain sys h
  proxyHostnames : ∀ h ∈ acl.proxyHostnames, Plain sys h
  urls : ∀ u ∈ acl.urls, OnePatternLine (sys.urlText u).toList

/-- The lists hold the same; URLs that compare equal may have changed places. -/
structure Same (acl acl' : Acl Url) : Prop where
  bypassHostnames : acl.bypassHostnames = acl'.bypassHostnames
  proxyHostnames : acl.proxyHostnames = acl'.proxyHostnames
  subnets : acl.subnets = acl'.subnets
  urls : acl.urls.Perm acl'.urls
  bypass : acl.bypass = acl'.bypass

variable {sys} {acl : Acl Url}

/-- The subnets of either section have addresses that the platform gives. -/
theorem yields_sort (hn : acl.Native sys) {c : Bool} :
    (∀ n ∈ if c then [] else acl.subnets.sort, sys.Yields n.address) ∧
      ∀ n ∈ if c then acl.subnets.sort else [], sys.Yields n.address := by
  have hsort : ∀ n ∈ acl.subnets.sort, sys.Yields n.address := fun n hm ↦
    hn.addresses n ((Finset.mem_sort _).mp hm)
  have hnil : ∀ n ∈ ([] : List Subnet), sys.Yields n.address := fun n hm ↦ (nomatch hm)
  cases c
  · exact ⟨hsort, hnil⟩
  · exact ⟨hnil, hsort⟩

/-- No line of a printable list has an end of a line in it. -/
theorem oneLine_lines (hsys : sys.Lawful) (hn : acl.Native sys) (hp : acl.Printable sys) :
    ∀ l ∈ lines sys acl, OneLine l := by
  have hb : ∀ h ∈ Utf16.sort acl.bypassHostnames, Plain sys h := fun h hh ↦
    hp.bypassHostnames h (Utf16.mem_sort.mp hh)
  have hx : ∀ h ∈ Utf16.sort acl.proxyHostnames, Plain sys h := fun h hh ↦
    hp.proxyHostnames h (Utf16.mem_sort.mp hh)
  intro l hl
  rw [lines, List.mem_cons, List.mem_append, List.mem_append] at hl
  rcases hl with rfl | hl | hl | hl
  · cases acl.bypass <;> simp [OneLine]
  · exact oneLine_sectionLines (oneLine_rules hsys (yields_sort hn).1 hb) l hl
  · exact oneLine_sectionLines (oneLine_rules hsys (yields_sort hn).2 hx) l hl
  · obtain ⟨u, hu, rfl⟩ := List.mem_map.mp hl
    intro c hc
    rw [List.mem_append, List.mem_append] at hc
    rcases hc with (hc | hc) | hc
    · revert c
      simp
    · have ht := hp.urls u hu c hc
      constructor <;> rintro rfl <;> simp [isLineTerminator] at ht
    · rw [List.mem_singleton.mp hc]
      decide

/-- A printable list is read back from its text, whatever the default mode; its URLs are added one
after the other. -/
theorem fromReader_toText (hsys : sys.Lawful) (hn : acl.Native sys) (hp : acl.Printable sys)
    (defaultBypass : Bool) :
    fromReader sys defaultBypass (acl.toText sys) =
      .ok { acl with urls := acl.urls.foldl (SortedList.add sys.compareUrls sys.sameUrl) [] } := by
  have hb : ∀ h ∈ Utf16.sort acl.bypassHostnames, Plain sys h := fun h hh ↦
    hp.bypassHostnames h (Utf16.mem_sort.mp hh)
  have hx : ∀ h ∈ Utf16.sort acl.proxyHostnames, Plain sys h := fun h hh ↦
    hp.proxyHostnames h (Utf16.mem_sort.mp hh)
  rw [fromReader, toText_eq, readLines_flatMap (oneLine_lines hsys hn hp), fromLines, lines,
    List.foldlM_cons, parseLine_mode]
  obtain ⟨sink, h₁⟩ := foldlM_section hsys .bypass
    (if acl.bypass then [] else acl.subnets.sort) (yields_sort hn).1 hb
    { bypass := acl.bypass, sink := some (if defaultBypass then .proxy else .bypass) }
  obtain ⟨sink', h₂⟩ := foldlM_section hsys .proxy
    (if acl.bypass then acl.subnets.sort else []) (yields_sort hn).2 hx
    { ({ bypass := acl.bypass, sink := some (if defaultBypass then .proxy else .bypass) } :
        Parse Url).addRules .bypass (if acl.bypass then [] else acl.subnets.sort)
        (Utf16.sort acl.bypassHostnames) with sink := sink }
  have hbind : ∀ (s : Parse Url) (f : Parse Url → Except String (Parse Url)),
      (Except.ok s >>= f) = f s := fun _ _ ↦ rfl
  rw [hbind, List.foldlM_append, h₁, hbind, List.foldlM_append, h₂, hbind,
    foldlM_urls hsys hn.urls hp.urls]
  have hset : ∀ s : Finset String, (Utf16.sort s).toFinset = s := by
    intro s
    ext t
    simp
  obtain ⟨bypassHostnames, proxyHostnames, subnets, urls, bypass⟩ := acl
  cases bypass <;> simp [Except.map, Parse.addRules, hset]

/-! ### Lists that are read -/

/-- What precedes a comment in a line is a plain hostname if it is not empty, no heading and no
subnet. -/
private theorem plain_of_line {line : List Char} (hl : OneLine line)
    (hne : trim (line.takeWhile (· ≠ '#')) ≠ [])
    (hh : (trim (line.takeWhile (· ≠ '#'))).head? ≠ some '[')
    (hs : ∀ s, Subnet.fromString sys.parseNumericAddress
      (String.ofList (trim (line.takeWhile (· ≠ '#')))) (-1) ≠ .ok (some s)) :
    Plain sys (String.ofList (trim (line.takeWhile (· ≠ '#')))) where
  ne := by
    rw [String.toList_ofList]
    exact hne
  trimmed := by
    rw [String.toList_ofList]
    exact trim_trim _
  comment := by
    rw [String.toList_ofList]
    intro hc
    have ht := List.mem_takeWhile_imp ((trim_sublist _).subset hc)
    simp at ht
  line := by
    rw [String.toList_ofList]
    intro c hc
    exact hl c ((List.takeWhile_sublist _).subset ((trim_sublist _).subset hc))
  heading := by
    rw [String.toList_ofList]
    exact hh
  hostname := hs

/-- What has been read so far is printable and made of what the platform gives. -/
private structure Parse.Clean (sys : System Url) (s : Parse Url) : Prop where
  bypassHostnames : ∀ h ∈ s.bypassHostnames, Plain sys h
  proxyHostnames : ∀ h ∈ s.proxyHostnames, Plain sys h
  bypassSubnets : ∀ n ∈ s.bypassSubnets, sys.Yields n.address
  proxySubnets : ∀ n ∈ s.proxySubnets, sys.Yields n.address
  urls : ∀ u ∈ s.urls, sys.YieldsUrl u ∧ OnePatternLine (sys.urlText u).toList

private theorem onePatternLine_of_importUrl {comment url : List Char}
    (h : importUrl sys comment = some url) : OnePatternLine url := by
  rw [importUrl] at h
  split at h
  · split at h
    · split at h
      · next captured _ =>
        split at h
        · cases h
        · next hn =>
          cases h
          apply onePatternLine_of_any
          rw [List.any_reverse]
          exact Bool.eq_false_iff.mpr fun ht ↦ hn (Or.inr ht)
      · cases h
    · cases h
  · cases h

private theorem clean_comment (hsys : sys.Lawful) {s t : Parse Url} {text : List Char}
    (hp : s.Clean sys) (h : s.comment sys text = .ok t) : t.Clean sys := by
  rw [Parse.comment] at h
  split at h
  · cases h
    exact hp
  · next url hi =>
    split at h
    · cases h
    · next u hu =>
      cases h
      refine { hp with urls := ?_ }
      intro v hv
      rcases SortedList.mem_of_mem_add hv with rfl | hv
      · refine ⟨⟨_, hu⟩, hsys.urlText_line _ _ hu ?_⟩
        rw [String.toList_ofList]
        exact onePatternLine_of_importUrl hi
      · exact hp.urls v hv

private theorem clean_block {s t : Parse Url} {input : List Char} (hp : s.Clean sys)
    (h : s.block input = .ok t) : t.Clean sys := by
  rw [Parse.block] at h
  split_ifs at h <;> cases h <;> exact { hp with }

private theorem clean_addSubnet {s : Parse Url} {side : Side} {subnet : Subnet}
    (hp : s.Clean sys) (hy : sys.Yields subnet.address) : (s.addSubnet side subnet).Clean sys := by
  have hadd : ∀ {l : List Subnet}, (∀ n ∈ l, sys.Yields n.address) →
      ∀ n ∈ l ++ [subnet], sys.Yields n.address := by
    intro l hl n hn
    rcases List.mem_append.mp hn with hn | hn
    · exact hl n hn
    · rw [List.mem_singleton.mp hn]
      exact hy
  cases side with
  | bypass => exact { hp with bypassSubnets := hadd hp.bypassSubnets }
  | proxy => exact { hp with proxySubnets := hadd hp.proxySubnets }

private theorem clean_addHostname {s : Parse Url} {side : Side} {h : String} (hp : s.Clean sys)
    (hh : Plain sys h) : (s.addHostname side h).Clean sys := by
  have hadd : ∀ {hs : Finset String}, (∀ h ∈ hs, Plain sys h) → ∀ x ∈ insert h hs, Plain sys x := by
    intro hs hall x hx
    rcases Finset.mem_insert.mp hx with rfl | hx
    · exact hh
    · exact hall x hx
  cases side with
  | bypass => exact { hp with bypassHostnames := hadd hp.bypassHostnames }
  | proxy => exact { hp with proxyHostnames := hadd hp.proxyHostnames }

private theorem clean_parseLine (hsys : sys.Lawful) {s t : Parse Url} {line : List Char}
    (hp : s.Clean sys) (hl : OneLine line) (h : parseLine sys s line = .ok t) : t.Clean sys := by
  rw [parseLine] at h
  cases hc : s.comment sys ((line.dropWhile (· ≠ '#')).drop 1) with
  | error e =>
    rw [hc] at h
    cases h
  | ok u =>
    have hu := clean_comment hsys hp hc
    rw [hc] at h
    change u.input sys (trim (line.takeWhile (· ≠ '#'))) = .ok t at h
    rw [Parse.input] at h
    split at h
    · exact clean_block hu h
    · next hh =>
      cases hs : u.sink with
      | none =>
        rw [hs] at h
        cases h
        exact hu
      | some side =>
        rw [hs] at h
        cases h
        split
        · exact hu
        · next hne =>
          rw [Parse.rule]
          split
          · next subnet hsub => exact clean_addSubnet hu ⟨_, Subnet.parse_of_fromString hsub⟩
          · next hsub => exact clean_addHostname hu (plain_of_line hl hne hh fun n hn ↦ hsub n hn)

/-- What is read can be printed, and is made of what the platform gives. -/
theorem printable_of_fromReader (hsys : sys.Lawful) {defaultBypass : Bool} {text : List Char}
    (h : fromReader sys defaultBypass text = .ok acl) : acl.Printable sys ∧ acl.Native sys := by
  rw [fromReader, fromLines] at h
  cases hf : (readLines text).foldlM (parseLine sys)
      { bypass := defaultBypass, sink := some (if defaultBypass then .proxy else .bypass) } with
  | error e =>
    rw [hf] at h
    cases h
  | ok t =>
    rw [hf] at h
    cases h
    have ht : t.Clean sys := by
      refine foldlM_keeps (P := fun s : Parse Url ↦ s.Clean sys) ?_ ?_ hf
      · exact fun s l t hs hl ↦ clean_parseLine hsys hs (oneLine_of_mem_readLines hl)
      · exact ⟨fun _ hh ↦ (nomatch hh), fun _ hh ↦ (nomatch hh), fun _ hh ↦ (nomatch hh),
          fun _ hh ↦ (nomatch hh), fun _ hh ↦ (nomatch hh)⟩
    refine ⟨⟨ht.bypassHostnames, ht.proxyHostnames, fun u hu ↦ (ht.urls u hu).2⟩, ?_,
      fun u hu ↦ (ht.urls u hu).1⟩
    intro n hn
    dsimp only at hn
    rw [List.mem_toFinset] at hn
    split at hn
    · exact ht.proxySubnets n hn
    · exact ht.bypassSubnets n hn

/-- A list is read back from its text, whatever the default mode, exactly if it can be printed. A
`SortedList` holds no URL twice. -/
theorem fromReader_toText_iff (sys : System Url) (hsys : sys.Lawful) (acl : Acl Url)
    (hn : acl.Native sys)
    (hd : acl.urls.Pairwise fun u v ↦ ¬ SortedList.Clash sys.compareUrls sys.sameUrl u v)
    (defaultBypass : Bool) :
    (∃ acl', fromReader sys defaultBypass (acl.toText sys) = .ok acl' ∧ acl'.Same acl) ↔
      acl.Printable sys := by
  constructor
  · rintro ⟨acl', hr, hs⟩
    obtain ⟨hp, -⟩ := printable_of_fromReader hsys hr
    exact ⟨hs.bypassHostnames ▸ hp.bypassHostnames, hs.proxyHostnames ▸ hp.proxyHostnames,
      fun u hu ↦ hp.urls u (hs.urls.mem_iff.mpr hu)⟩
  · intro hp
    refine ⟨_, fromReader_toText hsys hn hp defaultBypass, rfl, rfl, rfl, ?_, rfl⟩
    exact SortedList.foldl_add_perm (fun x hx ↦ (nomatch hx)) hd

end System

/-! ### A platform -/

/-- A URL of the protocol `https`, without user and port. -/
structure WebUrl where
  host : List Char
  file : List Char
  deriving DecidableEq

/-- The start of such a URL. -/
def httpsStart : List Char := "https://".toList

/-- The platform on IPv4 addresses and on URLs of the protocol `https`. -/
def web : System WebUrl where
  parseNumericAddress := inetPton
  hostAddress a := String.ofList (dottedText a.bytes)
  url text :=
    if httpsStart.isPrefixOf text.toList then
      let rest := text.toList.drop httpsStart.length
      some ⟨rest.takeWhile (· ≠ '/'), rest.dropWhile (· ≠ '/')⟩
    else none
  urlText u := String.ofList (httpsStart ++ (u.host ++ u.file))
  host u := String.ofList u.host
  port _ := -1
  file u := String.ofList u.file
  protocol _ := "https"
  sameUrl u v := u = v
  patternSpace c := c == ' ' || (9 ≤ c.toNat && c.toNat ≤ 13)

private theorem urlText_web {text : String} {u : WebUrl} (h : web.url text = some u) :
    web.urlText u = text := by
  simp only [web] at h ⊢
  split at h
  · next hp =>
    obtain ⟨rest, hr⟩ := List.isPrefixOf_iff_prefix.mp hp
    cases h
    rw [← hr, List.drop_left, List.takeWhile_append_dropWhile, hr, String.ofList_toList]
  · cases h

private theorem toList_hostAddress_web (a : InetAddress) :
    (web.hostAddress a).toList = dottedText a.bytes :=
  String.toList_ofList

private theorem parse_hostAddress_web {a : InetAddress} (h : web.Yields a) :
    inetPton (web.hostAddress a) = some a := by
  obtain ⟨text, ht⟩ := h
  obtain ⟨bytes, size⟩ := a
  obtain ⟨a, b, c, d, he⟩ := exists_of_inetPton ht
  subst he
  exact inetPton_dottedText (toList_hostAddress_web _)

theorem lawful_web : web.Lawful where
  parse_hostAddress := fun _ h ↦ parse_hostAddress_web h
  hostAddress_ne := by
    intro a h he
    have hread := parse_hostAddress_web h
    rw [he] at hread
    exact absurd hread (by simp [inetPton, Numeral.readByte, Numeral.number, List.splitOn_nil])
  hostAddress_chars := by
    intro a _ c hc
    rw [toList_hostAddress_web] at hc
    rcases mem_dottedText hc with hd | rfl
    · exact isAddressChar_of_isDigit hd
    · rfl
  url_urlText := by
    rintro u ⟨text, ht⟩
    rw [urlText_web ht]
    exact ht
  urlText_ne := by
    intro u _ he
    rw [web, String.ofList_eq_empty_iff] at he
    cases he
  urlText_line := by
    intro text u hu ht
    rw [urlText_web hu]
    exact ht
  patternSpace_blank := rfl
  patternSpace_angle := ⟨by decide, by decide⟩

private def webAcl : Acl WebUrl where
  bypassHostnames := {"example.com"}
  proxyHostnames := {"(^|\\.)example\\.org$"}
  subnets := {⟨.ipv4 10 0 0 0, 8, by decide⟩, Subnet.single (.ipv4 192 0 2 1)}
  urls := [⟨"example.org".toList, "/list.acl".toList⟩]
  bypass := true

private theorem native_webAcl : webAcl.Native web := by
  constructor
  · intro n hn
    simp only [webAcl, Finset.mem_insert, Finset.mem_singleton] at hn
    rcases hn with rfl | rfl
    · exact ⟨"10.0.0.0", by decide⟩
    · exact ⟨"192.0.2.1", by decide⟩
  · intro u hu
    rw [List.mem_singleton.mp hu]
    exact ⟨"https://example.org/list.acl", by decide⟩

/-- A text that is no heading, no comment and no address is a hostname to the platform. -/
theorem plain_web {h : String} (hne : h.toList ≠ []) (ht : trim h.toList = h.toList)
    (hc : ∀ c ∈ h.toList, c ≠ '#' ∧ c ≠ '\n' ∧ c ≠ '\r') (hb : h.toList.head? ≠ some '[')
    (hp : inetPton (String.ofList (h.toList.takeWhile (· ≠ '/'))) = none) : Plain web h where
  ne := hne
  trimmed := ht
  comment := fun hm ↦ (hc _ hm).1 rfl
  line := fun c hm ↦ (hc c hm).2
  heading := hb
  hostname := by
    intro s hs
    have hsome := Subnet.parse_of_fromString hs
    rw [show web.parseNumericAddress = inetPton from rfl, hp] at hsome
    cases hsome

private theorem printable_webAcl : webAcl.Printable web := by
  constructor
  · intro h hh
    rw [Finset.mem_singleton.mp hh]
    exact plain_web (by decide) (by decide) (by simp) (by decide) (by decide)
  · intro h hh
    rw [Finset.mem_singleton.mp hh]
    exact plain_web (by decide) (by decide) (by simp) (by decide) (by decide)
  · intro u hu
    rw [List.mem_singleton.mp hu]
    exact onePatternLine_of_any (by decide)

theorem fromReader_toText_web :
    ∃ acl', fromReader web false (webAcl.toText web) = .ok acl' ∧ acl'.Same webAcl :=
  (fromReader_toText_iff web lawful_web webAcl native_webAcl (List.pairwise_singleton ..)
    false).mpr printable_webAcl

end Acl

end FastSearch.Net
