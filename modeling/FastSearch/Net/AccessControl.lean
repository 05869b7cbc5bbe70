import FastSearch.Net.AclFlatten

/-!
# The access control of the local server

`AccessControl` of `shadowsocks-service/src/acl/mod.rs`, in the process that a service starts with
`--acl`. It reads the list that the service has saved and decides which connections bypass the
proxy. The parsers of addresses and networks and the compiler of a pattern are parameters.
-/

namespace FastSearch.Net

open Lines BitPrefix

/-- Libraries of the local server: `parse::<IpNet>()`, `parse::<IpAddr>()`, and a compiled pattern,
with the flag `case_insensitive`, as the hosts it matches. -/
structure Crates where
  parseIpNet : String → Option Subnet
  parseIpAddr : String → Option InetAddress
  regex : Bool → String → Except String (String → Bool)

/-- The libraries read the texts that the platform prints: an address alone is no network, and a
network is its address, a slash and the prefix. -/
structure Crates.Reads {Url : Type} (crates : Crates) (sys : Acl.System Url) : Prop where
  net : ∀ n : Subnet, sys.Yields n.address → n.prefixSize ≠ 8 * n.address.bytes.length →
    crates.parseIpNet (n.toString sys.hostAddress) = some n
  bare : ∀ a, sys.Yields a → crates.parseIpNet (sys.hostAddress a) = none ∧
    crates.parseIpAddr (sys.hostAddress a) = some a

/-- The text is a pattern to the local server. -/
def Crates.IsPattern (crates : Crates) (text : String) : Prop :=
  crates.parseIpNet text = none ∧ crates.parseIpAddr text = none

instance (crates : Crates) (text : String) : Decidable (crates.IsPattern text) :=
  inferInstanceAs (Decidable (crates.parseIpNet text = none ∧ crates.parseIpAddr text = none))

namespace AccessControl

/-- `Mode`, `acl/mod.rs:21`. -/
inductive Mode where
  | blackList
  | whiteList
  deriving DecidableEq, Repr

/-- The lists that rules are added to. -/
inductive ListName where
  | outboundBlock
  | bypass
  | proxy
  deriving DecidableEq, Repr

/-- The ranges and the patterns of a list while it is read. -/
structure Entries where
  ipv4 : List Subnet := []
  ipv6 : List Subnet := []
  rules : List String := []
  deriving DecidableEq

/-- The variables of `load_from_file`, `acl/mod.rs:157`. -/
structure Reading where
  mode : Mode := .blackList
  entries : ListName → Entries := fun _ ↦ {}
  curr : ListName := .bypass

/-- `curr_ipv4.add` or `curr_ipv6.add`. -/
def Entries.addNet (s : Entries) (net : Subnet) : Entries :=
  if net.address.bytes.length = 4 then { s with ipv4 := s.ipv4 ++ [net] }
  else { s with ipv6 := s.ipv6 ++ [net] }

/-- The line of a network, an address or a pattern, `acl/mod.rs:211`. -/
def Entries.addLine (crates : Crates) (s : Entries) (line : String) : Entries :=
  match crates.parseIpNet line with
  | some net => s.addNet net
  | none =>
    match crates.parseIpAddr line with
    | some addr => s.addNet (Subnet.single addr)
    | none => { s with rules := s.rules ++ [line] }

/-- The last branch of the loop. -/
def Reading.addLine (crates : Crates) (s : Reading) (line : String) : Reading :=
  { s with entries := Function.update s.entries s.curr ((s.entries s.curr).addLine crates line) }

/-- The body of the loop, `acl/mod.rs:177`. -/
def Reading.next (crates : Crates) (s : Reading) (line : String) : Reading :=
  if line = "" then s
  else if line.toList.head? = some '#' then s
  else if line = "[reject_all]" ∨ line = "[bypass_all]" then { s with mode := .whiteList }
  else if line = "[accept_all]" ∨ line = "[proxy_all]" then { s with mode := .blackList }
  else if line = "[outbound_block_list]" then { s with curr := .outboundBlock }
  else if line = "[black_list]" ∨ line = "[bypass_list]" then { s with curr := .bypass }
  else if line = "[white_list]" ∨ line = "[proxy_list]" then { s with curr := .proxy }
  else s.addLine crates line

/-- A line without the carriage return before its line feed. -/
def chomp (line : List Char) : List Char :=
  if line.getLast? = some '\r' then line.dropLast else line

/-- The lines of a text after the part of a line that has been read. -/
def linesFrom (current : List Char) : List Char → List (List Char)
  | [] => if current = [] then [] else [current]
  | c :: cs =>
    if c = '\n' then chomp current :: linesFrom [] cs else linesFrom (current ++ [c]) cs

/-- The loop of `load_from_file` over `lines`. -/
def read (crates : Crates) (text : List Char) : Reading :=
  (linesFrom [] text).foldl (fun s line ↦ s.next crates (String.ofList line)) {}

/-- `Rules`, `acl/mod.rs:29`; a range is the list of its networks. -/
structure Rules where
  ipv4 : List Subnet
  ipv6 : List Subnet
  rule : List (String → Bool)

/-- The network contains the address: they agree in the bits of the prefix. -/
def contains (net : Subnet) (addr : InetAddress) : Bool :=
  addr.bytes.length = net.address.bytes.length ∧
    leading net.prefixSize addr.bytes = leading net.prefixSize net.address.bytes

namespace Rules

/-- `check_ip_matched`, `acl/mod.rs:77`. -/
def checkIpMatched (r : Rules) (addr : InetAddress) : Bool :=
  if addr.bytes.length = 4 then r.ipv4.any (contains · addr) else r.ipv6.any (contains · addr)

/-- `check_host_matched`, `acl/mod.rs:85`. -/
def checkHostMatched (r : Rules) (host : String) : Bool := r.rule.any fun regex ↦ regex host

/-- `is_ip_empty`, `acl/mod.rs:90`. -/
def isIpEmpty (r : Rules) : Bool := r.ipv4.isEmpty && r.ipv6.isEmpty

end Rules

end AccessControl

/-- `AccessControl`, `acl/mod.rs:148`. -/
structure AccessControl where
  outboundBlock : AccessControl.Rules
  blackList : AccessControl.Rules
  whiteList : AccessControl.Rules
  mode : AccessControl.Mode

namespace AccessControl

/-- The patterns of a list are compiled, or the first that cannot be is the error. -/
def Entries.build (crates : Crates) (s : Entries) (caseInsensitive : Bool) (name : String) :
    Except String Rules :=
  match s.rules.mapM (crates.regex caseInsensitive) with
  | .ok rule => .ok { ipv4 := s.ipv4, ipv6 := s.ipv6, rule := rule }
  | .error err => .error (name ++ " regex error: " ++ err)

/-- `load_from_file`, `acl/mod.rs:157`. -/
def loadFromFile (crates : Crates) (text : List Char) : Except String AccessControl := do
  let s := read crates text
  let outboundBlock ← (s.entries .outboundBlock).build crates false "[outbound_block_list]"
  let blackList ← (s.entries .bypass).build crates true "[black_list] or [bypass_list]"
  let whiteList ← (s.entries .proxy).build crates true "[white_list] or [proxy_list]"
  return { outboundBlock, blackList, whiteList, mode := s.mode }

section Checks

variable (control : AccessControl)

/-- `check_host_in_proxy_list`, `acl/mod.rs:296`. -/
def checkHostInProxyList (host : String) : Option Bool :=
  if control.whiteList.checkHostMatched host then some true
  else if control.blackList.checkHostMatched host then some false
  else none

/-- `is_ip_empty`, `acl/mod.rs:309`. -/
def isIpEmpty : Bool :=
  match control.mode with
  | .blackList => control.blackList.isIpEmpty
  | .whiteList => control.whiteList.isIpEmpty

/-- `check_ip_in_proxy_list`, `acl/mod.rs:322`. -/
def checkIpInProxyList (ip : InetAddress) : Bool :=
  match control.mode with
  | .blackList => !control.blackList.checkIpMatched ip
  | .whiteList => control.whiteList.checkIpMatched ip

/-- `is_default_in_proxy_list`, `acl/mod.rs:334`. -/
def isDefaultInProxyList : Bool :=
  match control.mode with
  | .blackList => true
  | .whiteList => false

/-- `Address`: where a connection goes to. -/
inductive Address where
  | socketAddress (ip : InetAddress) (port : UInt16)
  | domainName (host : String) (port : UInt16)
  deriving DecidableEq

/-- `check_target_bypassed`, `acl/mod.rs:344`; `dnsResolve` may fail. -/
def checkTargetBypassed (dnsResolve : String → UInt16 → Option (List InetAddress)) :
    Address → Bool
  | .socketAddress ip _ => !control.checkIpInProxyList ip
  | .domainName host port =>
    match control.checkHostInProxyList host with
    | some value => !value
    | none =>
      if control.isIpEmpty then !control.isDefaultInProxyList
      else
        match dnsResolve host port with
        | some vaddr => vaddr.any fun addr ↦ !control.checkIpInProxyList addr
        | none => false

end Checks

/-! ### What a list says -/

section Meaning

variable {Url : Type}

/-- The entries with some networks and patterns. -/
def Entries.of (subnets : List Subnet) (hosts : List String) : Entries where
  ipv4 := subnets.filter fun n ↦ n.address.bytes.length = 4
  ipv6 := subnets.filter fun n ↦ n.address.bytes.length ≠ 4
  rules := hosts

/-- What was read is the list: the mode, its hostnames as patterns and its subnets, which are of the
list that the mode makes an exception of. -/
structure Reading.Represents (s : Reading) (acl : Acl Url) : Prop where
  mode : s.mode = if acl.bypass then .whiteList else .blackList
  outboundBlock : s.entries .outboundBlock = {}
  bypass : s.entries .bypass =
    Entries.of (if acl.bypass then [] else acl.subnets.sort) (Utf16.sort acl.bypassHostnames)
  proxy : s.entries .proxy =
    Entries.of (if acl.bypass then acl.subnets.sort else []) (Utf16.sort acl.proxyHostnames)

/-- A pattern of the set matches the host. -/
def MatchesHost (crates : Crates) (patterns : Finset String) (host : String) : Prop :=
  ∃ pattern ∈ patterns, ∃ regex, crates.regex true pattern = .ok regex ∧ regex host = true

/-- An address goes through the proxy: one in the subnets if the list bypasses by default, else one
in none of them. -/
def ProxiesIp (acl : Acl Url) (ip : InetAddress) : Prop :=
  (∃ n ∈ acl.subnets, contains n ip = true) ↔ acl.bypass = true

/-- A target bypasses the proxy. Of a host, the patterns decide first, those of the proxy before the
others; then the mode, if there are no subnets, and else its addresses. -/
def Bypasses (crates : Crates) (acl : Acl Url)
    (dnsResolve : String → UInt16 → Option (List InetAddress)) : Address → Prop
  | .socketAddress ip _ => ¬ ProxiesIp acl ip
  | .domainName host port =>
    ¬ MatchesHost crates acl.proxyHostnames host ∧
      (MatchesHost crates acl.bypassHostnames host ∨
        if acl.subnets = ∅ then acl.bypass = true
        else ∃ vaddr, dnsResolve host port = some vaddr ∧ ∃ addr ∈ vaddr, ¬ ProxiesIp acl addr)

end Meaning

/-! ### Reading what was printed -/

private theorem linesFrom_append {l : List Char} (hl : OneLine l) (current cs : List Char)
    (hc : OneLine current) :
    linesFrom current (l ++ '\n' :: cs) = (current ++ l) :: linesFrom [] cs := by
  induction l generalizing current with
  | nil =>
    have hchomp : chomp current = current := by
      rw [chomp, if_neg]
      intro h
      exact (hc _ (List.mem_of_getLast? h)).2 rfl
    rw [List.nil_append, linesFrom, if_pos rfl, hchomp, List.append_nil]
  | cons c l ih =>
    rw [OneLine, List.forall_mem_cons] at hl
    have hcur : OneLine (current ++ [c]) := by
      intro d hd
      rcases List.mem_append.mp hd with hd | hd
      · exact hc d hd
      · rw [List.mem_singleton.mp hd]
        exact hl.1
    rw [List.cons_append, linesFrom, if_neg hl.1.1, ih hl.2 _ hcur, List.append_assoc,
      List.singleton_append]

/-- Lines that are written one after the other are read back. -/
private theorem linesFrom_flatMap {ls : List (List Char)} (h : ∀ l ∈ ls, OneLine l) :
    linesFrom [] (ls.flatMap fun l ↦ l ++ ['\n']) = ls := by
  induction ls with
  | nil => rfl
  | cons l ls ih =>
    rw [List.forall_mem_cons] at h
    have hcons : (l :: ls).flatMap (fun l ↦ l ++ ['\n']) =
        l ++ '\n' :: ls.flatMap fun l ↦ l ++ ['\n'] := by
      simp
    rw [hcons, linesFrom_append h.1 [] _ fun _ hc ↦ (nomatch hc), List.nil_append, ih h.2]

variable {crates : Crates}

/-- A line that is not empty and begins neither as a comment nor as a heading is added. -/
private theorem next_of_rule (s : Reading) {line : String} (hne : line.toList ≠ [])
    (hc : line.toList.head? ≠ some '#') (hh : line.toList.head? ≠ some '[') :
    s.next crates line = s.addLine crates line := by
  have hno : ∀ name : String, name.toList.head? = some '[' → line ≠ name := by
    rintro name hn rfl
    exact hh hn
  have hempty : line ≠ "" := by
    rintro rfl
    exact hne rfl
  rw [Reading.next, if_neg hempty, if_neg hc,
    if_neg (not_or.mpr ⟨hno _ rfl, hno _ rfl⟩), if_neg (not_or.mpr ⟨hno _ rfl, hno _ rfl⟩),
    if_neg (hno _ rfl), if_neg (not_or.mpr ⟨hno _ rfl, hno _ rfl⟩),
    if_neg (not_or.mpr ⟨hno _ rfl, hno _ rfl⟩)]

/-- Lines that are rules are added to the current list. -/
private theorem foldl_next {ls : List String} (h : ∀ line ∈ ls, line.toList ≠ [] ∧
    line.toList.head? ≠ some '#' ∧ line.toList.head? ≠ some '[') (s : Reading) :
    ls.foldl (fun s line ↦ s.next crates line) s = { s with
      entries := Function.update s.entries s.curr
        (ls.foldl (fun e line ↦ e.addLine crates line) (s.entries s.curr)) } := by
  induction ls generalizing s with
  | nil => simp
  | cons line ls ih =>
    rw [List.forall_mem_cons] at h
    rw [List.foldl_cons, next_of_rule s h.1.1 h.1.2.1 h.1.2.2, ih h.2]
    simp [Reading.addLine]

section Printed

variable {Url : Type} {sys : Acl.System Url} {acl : Acl Url}

/-- The list that the rules of a side go to. -/
def nameOf : Acl.Side → ListName
  | .bypass => .bypass
  | .proxy => .proxy

private theorem next_header (side : Acl.Side) (s : Reading) :
    s.next crates side.header = { s with curr := nameOf side } := by
  cases side <;> simp [Reading.next, Acl.Side.header, nameOf]

private theorem next_mode (bypass : Bool) (s : Reading) :
    s.next crates (if bypass then "[bypass_all]" else "[proxy_all]") =
      { s with mode := if bypass then .whiteList else .blackList } := by
  cases bypass <;> simp [Reading.next]

variable (crates) in
/-- A section adds its rules to its list. -/
private theorem foldl_section (side : Acl.Side) {texts : List String} (h : ∀ line ∈ texts,
    line.toList ≠ [] ∧ line.toList.head? ≠ some '#' ∧ line.toList.head? ≠ some '[') (s : Reading) :
    ∃ curr, (Acl.sectionLines side.header (texts.map String.toList)).foldl
      (fun s line ↦ s.next crates (String.ofList line)) s = { s with
        curr := curr
        entries := Function.update s.entries (nameOf side)
          (texts.foldl (fun e line ↦ e.addLine crates line) (s.entries (nameOf side))) } := by
  by_cases hnil : texts = []
  · subst hnil
    exact ⟨s.curr, by simp [Acl.sectionLines]⟩
  · refine ⟨nameOf side, ?_⟩
    rw [Acl.sectionLines, if_neg (by simpa using hnil), List.foldl_cons, String.ofList_toList,
      next_header, List.foldl_map]
    simp only [String.ofList_toList]
    rw [foldl_next h]

/-- The addresses of further lists are comments. -/
private theorem foldl_urls (us : List Url) (s : Reading) :
    (us.map fun u ↦ "#IMPORT_URL <".toList ++ (sys.urlText u).toList ++ ['>']).foldl
      (fun s line ↦ s.next crates (String.ofList line)) s = s := by
  induction us generalizing s with
  | nil => rfl
  | cons u us ih =>
    have hskip : s.next crates
        (String.ofList ("#IMPORT_URL <".toList ++ (sys.urlText u).toList ++ ['>'])) = s := by
      simp [Reading.next]
    rw [List.map_cons, List.foldl_cons, hskip]
    exact ih s

/-- The rules of a side as they are printed. -/
private def ruleTexts (sys : Acl.System Url) (subnets : List Subnet) (hosts : List String) :
    List String :=
  subnets.map (fun n ↦ n.toString sys.hostAddress) ++ hosts

private theorem rule_of_ruleTexts (hsys : sys.Lawful) {subnets : List Subnet}
    (hy : ∀ n ∈ subnets, sys.Yields n.address) (hosts : List String)
    (hp : ∀ h ∈ hosts, Acl.Plain sys h) : ∀ line ∈ ruleTexts sys subnets hosts,
      line.toList ≠ [] ∧ line.toList.head? ≠ some '#' ∧ line.toList.head? ≠ some '[' := by
  intro line hl
  rcases List.mem_append.mp hl with hl | hl
  · obtain ⟨n, hn, rfl⟩ := List.mem_map.mp hl
    exact Acl.head?_subnet hsys (hy n hn)
  · have hplain := hp line hl
    exact ⟨hplain.ne, fun hh ↦ hplain.comment (List.mem_of_head? hh), hplain.heading⟩

private theorem map_ruleTexts (subnets : List Subnet) (hosts : List String) :
    (subnets.map fun n ↦ (n.toString sys.hostAddress).toList) ++ hosts.map String.toList =
      (ruleTexts sys subnets hosts).map String.toList := by
  simp [ruleTexts, Function.comp_def]

variable (crates) in
/-- What is read from the text of a printable list. -/
private theorem read_toText (hsys : sys.Lawful) (hn : acl.Native sys) (hp : acl.Printable sys) :
    (read crates (acl.toText sys)).mode = (if acl.bypass then .whiteList else .blackList) ∧
      (read crates (acl.toText sys)).entries .outboundBlock = {} ∧
      (read crates (acl.toText sys)).entries .bypass =
        (ruleTexts sys (if acl.bypass then [] else acl.subnets.sort)
          (Utf16.sort acl.bypassHostnames)).foldl (fun e line ↦ e.addLine crates line) {} ∧
      (read crates (acl.toText sys)).entries .proxy =
        (ruleTexts sys (if acl.bypass then acl.subnets.sort else [])
          (Utf16.sort acl.proxyHostnames)).foldl (fun e line ↦ e.addLine crates line) {} := by
  have hb := rule_of_ruleTexts hsys (Acl.yields_sort hn (c := acl.bypass)).1
    (Utf16.sort acl.bypassHostnames) fun h hh ↦ hp.bypassHostnames h (Utf16.mem_sort.mp hh)
  have hx := rule_of_ruleTexts hsys (Acl.yields_sort hn (c := acl.bypass)).2
    (Utf16.sort acl.proxyHostnames) fun h hh ↦ hp.proxyHostnames h (Utf16.mem_sort.mp hh)
  rw [read, Acl.toText_eq, linesFrom_flatMap (Acl.oneLine_lines hsys hn hp), Acl.lines,
    map_ruleTexts, map_ruleTexts, List.foldl_cons, String.ofList_toList, next_mode,
    List.foldl_append, List.foldl_append, foldl_urls]
  obtain ⟨curr, h₁⟩ := foldl_section crates .bypass hb
    { mode := if acl.bypass then .whiteList else .blackList }
  rw [h₁]
  obtain ⟨curr', h₂⟩ := foldl_section crates .proxy hx
    { mode := if acl.bypass then .whiteList else .blackList
      curr := curr
      entries := Function.update (fun _ ↦ {}) .bypass
        ((ruleTexts sys (if acl.bypass then [] else acl.subnets.sort)
          (Utf16.sort acl.bypassHostnames)).foldl (fun e line ↦ e.addLine crates line) {}) }
  exact h₂ ▸ ⟨rfl, rfl, rfl, rfl⟩

/-- The text of a subnet adds it. -/
private theorem addLine_subnet (hcrates : Crates.Reads crates sys) {n : Subnet}
    (hy : sys.Yields n.address) (e : Entries) :
    e.addLine crates (n.toString sys.hostAddress) = e.addNet n := by
  by_cases hs : n.prefixSize = 8 * n.address.bytes.length
  · have ht : n.toString sys.hostAddress = sys.hostAddress n.address := if_pos hs
    obtain ⟨hnet, haddr⟩ := hcrates.bare n.address hy
    rw [Entries.addLine, ht, hnet]
    simp only [haddr, Subnet.single_eq hs]
  · rw [Entries.addLine, hcrates.net n hy hs]

private theorem foldl_subnets (hcrates : Crates.Reads crates sys) {subnets : List Subnet}
    (hy : ∀ n ∈ subnets, sys.Yields n.address) (e : Entries) :
    (subnets.map fun n ↦ n.toString sys.hostAddress).foldl
      (fun e line ↦ e.addLine crates line) e =
      { e with
        ipv4 := e.ipv4 ++ (Entries.of subnets []).ipv4
        ipv6 := e.ipv6 ++ (Entries.of subnets []).ipv6 } := by
  induction subnets generalizing e with
  | nil => simp [Entries.of]
  | cons n subnets ih =>
    rw [List.forall_mem_cons] at hy
    rw [List.map_cons, List.foldl_cons, addLine_subnet hcrates hy.1, ih hy.2, Entries.addNet]
    split
    · next h => simp [Entries.of, h]
    · next h => simp [Entries.of, h]

/-- Of the texts, the patterns are added to the patterns. -/
private theorem rules_foldl (texts : List String) (e : Entries) :
    (texts.foldl (fun e line ↦ e.addLine crates line) e).rules =
      e.rules ++ texts.filter fun text ↦ crates.IsPattern text := by
  induction texts generalizing e with
  | nil => simp
  | cons text texts ih =>
    have hnet : ∀ net : Subnet, (e.addNet net).rules = e.rules := by
      intro net
      rw [Entries.addNet]
      split <;> rfl
    rw [List.foldl_cons, ih, Entries.addLine]
    cases hn : crates.parseIpNet text with
    | some net => simp [hnet, Crates.IsPattern, hn]
    | none =>
      cases ha : crates.parseIpAddr text with
      | some addr => simp [hnet, Crates.IsPattern, ha]
      | none => simp [Crates.IsPattern, hn, ha]

private theorem foldl_patterns {hosts : List String} (h : ∀ host ∈ hosts, crates.IsPattern host)
    (e : Entries) : hosts.foldl (fun e line ↦ e.addLine crates line) e =
      { e with rules := e.rules ++ hosts } := by
  induction hosts generalizing e with
  | nil => simp
  | cons host hosts ih =>
    rw [List.forall_mem_cons] at h
    rw [List.foldl_cons, ih h.2, Entries.addLine, h.1.1]
    simp [h.1.2]

/-- The rules of a section are read as its subnets and its hostnames exactly if every hostname is a
pattern. -/
private theorem foldl_ruleTexts_iff (hcrates : Crates.Reads crates sys) {subnets : List Subnet}
    (hy : ∀ n ∈ subnets, sys.Yields n.address) (hosts : List String) :
    (ruleTexts sys subnets hosts).foldl (fun e line ↦ e.addLine crates line) {} =
        Entries.of subnets hosts ↔ ∀ host ∈ hosts, crates.IsPattern host := by
  rw [ruleTexts, List.foldl_append, foldl_subnets hcrates hy]
  constructor
  · intro h
    have hrules := congrArg Entries.rules h
    rw [rules_foldl, List.nil_append] at hrules
    intro host hm
    simpa using List.filter_eq_self.mp hrules host hm
  · intro h
    rw [foldl_patterns h]
    simp [Entries.of]

/-- What is read from the text of a printable list is the list exactly if every hostname of it is a
pattern to the local server. -/
theorem represents_iff (hsys : sys.Lawful) (hcrates : Crates.Reads crates sys)
    (hn : acl.Native sys) (hp : acl.Printable sys) :
    (read crates (acl.toText sys)).Represents acl ↔
      ∀ host ∈ acl.bypassHostnames ∪ acl.proxyHostnames, crates.IsPattern host := by
  obtain ⟨hmode, hblock, hbypass, hproxy⟩ := read_toText crates hsys hn hp
  have hy := Acl.yields_sort hn (c := acl.bypass)
  have hb := foldl_ruleTexts_iff hcrates hy.1 (Utf16.sort acl.bypassHostnames)
  have hx := foldl_ruleTexts_iff hcrates hy.2 (Utf16.sort acl.proxyHostnames)
  simp only [Utf16.mem_sort] at hb hx
  constructor
  · intro h host hh
    rcases Finset.mem_union.mp hh with hh | hh
    · exact hb.mp (hbypass.symm.trans h.bypass) host hh
    · exact hx.mp (hproxy.symm.trans h.proxy) host hh
  · intro h
    exact ⟨hmode, hblock,
      hbypass.trans (hb.mpr fun host hh ↦ h host (Finset.mem_union_left _ hh)),
      hproxy.trans (hx.mpr fun host hh ↦ h host (Finset.mem_union_right _ hh))⟩

end Printed

/-! ### Deciding -/

/-- A list is compiled pattern by pattern. -/
private theorem build_eq_ok {e : Entries} {caseInsensitive : Bool} {name : String} {r : Rules} :
    e.build crates caseInsensitive name = .ok r ↔
      ∃ rule, List.Forall₂ (fun p regex ↦ crates.regex caseInsensitive p = .ok regex) e.rules rule ∧
        { ipv4 := e.ipv4, ipv6 := e.ipv6, rule := rule } = r := by
  rw [Entries.build]
  cases hm : e.rules.mapM (crates.regex caseInsensitive) with
  | error err =>
    refine iff_of_false nofun ?_
    rintro ⟨rule, h, -⟩
    rw [mapM_eq_ok_iff.mpr h] at hm
    cases hm
  | ok rule =>
    have hall := mapM_eq_ok_iff.mp hm
    constructor
    · rintro ⟨⟩
      exact ⟨rule, hall, rfl⟩
    · rintro ⟨rule', h, rfl⟩
      rw [mapM_eq_ok_iff.mpr h] at hm
      cases hm
      rfl

private theorem exists_build_iff {e : Entries} {caseInsensitive : Bool} {name : String} :
    (∃ r, e.build crates caseInsensitive name = .ok r) ↔
      ∀ p ∈ e.rules, ∃ regex, crates.regex caseInsensitive p = .ok regex := by
  simp only [build_eq_ok]
  constructor
  · rintro ⟨r, rule, h, -⟩ p hp
    obtain ⟨regex, -, hr⟩ := exists_right h hp
    exact ⟨regex, hr⟩
  · intro h
    obtain ⟨rule, hall⟩ := exists_forall₂ h
    exact ⟨_, rule, hall, rfl⟩

/-- The patterns of a list that was compiled match the hosts that one of them matches. -/
private theorem checkHostMatched_iff {subnets : List Subnet} {patterns : Finset String}
    {name : String} {r : Rules}
    (h : (Entries.of subnets (Utf16.sort patterns)).build crates true name = .ok r)
    (host : String) : r.checkHostMatched host = true ↔ MatchesHost crates patterns host := by
  obtain ⟨rule, hall, rfl⟩ := build_eq_ok.mp h
  rw [Rules.checkHostMatched, List.any_eq_true]
  constructor
  · rintro ⟨regex, hm, hr⟩
    obtain ⟨p, hp, hc⟩ := exists_left hall hm
    exact ⟨p, Utf16.mem_sort.mp hp, regex, hc, hr⟩
  · rintro ⟨p, hp, regex, hc, hr⟩
    obtain ⟨regex', hm, hc'⟩ := exists_right hall (Utf16.mem_sort.mpr hp)
    rw [hc] at hc'
    cases hc'
    exact ⟨regex, hm, hr⟩

private theorem checkIpMatched_iff {subnets : List Subnet} {hosts : List String} {name : String}
    {r : Rules} (h : (Entries.of subnets hosts).build crates true name = .ok r)
    (ip : InetAddress) : r.checkIpMatched ip = true ↔ ∃ n ∈ subnets, contains n ip = true := by
  obtain ⟨rule, -, rfl⟩ := build_eq_ok.mp h
  -- a network of the other length does not contain the address
  have hlen : ∀ n, contains n ip = true → n.address.bytes.length = ip.bytes.length := by
    intro n hn
    exact (of_decide_eq_true hn).1.symm
  rw [Rules.checkIpMatched]
  split
  · next h4 =>
    simp only [Entries.of, List.any_filter, List.any_eq_true, Bool.and_eq_true, decide_eq_true_eq]
    exact ⟨fun ⟨n, hn, _, hc⟩ ↦ ⟨n, hn, hc⟩, fun ⟨n, hn, hc⟩ ↦ ⟨n, hn, (hlen n hc).trans h4, hc⟩⟩
  · next h4 =>
    simp only [Entries.of, List.any_filter, List.any_eq_true, Bool.and_eq_true, decide_eq_true_eq]
    exact ⟨fun ⟨n, hn, _, hc⟩ ↦ ⟨n, hn, hc⟩,
      fun ⟨n, hn, hc⟩ ↦ ⟨n, hn, fun he ↦ h4 ((hlen n hc).symm.trans he), hc⟩⟩

private theorem isIpEmpty_iff {subnets : List Subnet} {hosts : List String} {name : String}
    {r : Rules} (h : (Entries.of subnets hosts).build crates true name = .ok r) :
    r.isIpEmpty = true ↔ subnets = [] := by
  obtain ⟨rule, -, rfl⟩ := build_eq_ok.mp h
  simp only [Rules.isIpEmpty, Entries.of, Bool.and_eq_true, List.isEmpty_iff,
    List.filter_eq_nil_iff, decide_eq_true_eq]
  constructor
  · rintro ⟨h₁, h₂⟩
    exact List.eq_nil_iff_forall_not_mem.mpr fun n hn ↦ h₂ n hn (h₁ n hn)
  · rintro rfl
    exact ⟨fun n hn ↦ (nomatch hn), fun n hn ↦ (nomatch hn)⟩

/-- A file is loaded by compiling its three lists. -/
private theorem loadFromFile_eq_ok {text : List Char} {control : AccessControl} :
    loadFromFile crates text = .ok control ↔
      ((read crates text).entries .outboundBlock).build crates false "[outbound_block_list]" =
          .ok control.outboundBlock ∧
        ((read crates text).entries .bypass).build crates true "[black_list] or [bypass_list]" =
          .ok control.blackList ∧
        ((read crates text).entries .proxy).build crates true "[white_list] or [proxy_list]" =
          .ok control.whiteList ∧
        control.mode = (read crates text).mode := by
  obtain ⟨block, black, white, mode⟩ := control
  rw [loadFromFile]
  cases ((read crates text).entries .outboundBlock).build crates false "[outbound_block_list]" with
  | error e => exact iff_of_false nofun nofun
  | ok a =>
    cases ((read crates text).entries .bypass).build crates true
      "[black_list] or [bypass_list]" with
    | error e => exact iff_of_false nofun nofun
    | ok b =>
      cases ((read crates text).entries .proxy).build crates true
        "[white_list] or [proxy_list]" with
      | error e => exact iff_of_false nofun nofun
      | ok c =>
        change (Except.ok _ = Except.ok _) ↔ _
        simp [eq_comm]

section Decide

variable {Url : Type} {acl : Acl Url} {text : List Char} {control : AccessControl}

private theorem exists_bypass_iff (hr : (read crates text).Represents acl) (name : String) :
    (∃ r, ((read crates text).entries .bypass).build crates true name = .ok r) ↔
      ∀ p ∈ acl.bypassHostnames, ∃ regex, crates.regex true p = .ok regex := by
  rw [exists_build_iff, hr.bypass]
  simp only [Entries.of, Utf16.mem_sort]

private theorem exists_proxy_iff (hr : (read crates text).Represents acl) (name : String) :
    (∃ r, ((read crates text).entries .proxy).build crates true name = .ok r) ↔
      ∀ p ∈ acl.proxyHostnames, ∃ regex, crates.regex true p = .ok regex := by
  rw [exists_build_iff, hr.proxy]
  simp only [Entries.of, Utf16.mem_sort]

/-- A file that represents a list is loaded exactly if all its patterns compile. -/
private theorem exists_load_iff (hr : (read crates text).Represents acl) :
    (∃ control, loadFromFile crates text = .ok control) ↔
      ∀ p ∈ acl.bypassHostnames ∪ acl.proxyHostnames, ∃ regex,
        crates.regex true p = .ok regex := by
  simp only [Finset.forall_mem_union]
  constructor
  · rintro ⟨control, h⟩
    obtain ⟨-, hb, hx, -⟩ := loadFromFile_eq_ok.mp h
    exact ⟨(exists_bypass_iff hr _).mp ⟨_, hb⟩, (exists_proxy_iff hr _).mp ⟨_, hx⟩⟩
  · rintro ⟨hb, hx⟩
    obtain ⟨black, hb⟩ := (exists_bypass_iff hr "[black_list] or [bypass_list]").mpr hb
    obtain ⟨white, hx⟩ := (exists_proxy_iff hr "[white_list] or [proxy_list]").mpr hx
    refine ⟨⟨⟨[], [], []⟩, black, white, _⟩, loadFromFile_eq_ok.mpr ⟨?_, hb, hx, rfl⟩⟩
    rw [hr.outboundBlock]
    rfl

variable (hr : (read crates text).Represents acl)
  (hload : loadFromFile crates text = .ok control)

include hr hload

private theorem checkIpInProxyList_iff (ip : InetAddress) :
    control.checkIpInProxyList ip = true ↔ ProxiesIp acl ip := by
  obtain ⟨-, hb, hx, hmode⟩ := loadFromFile_eq_ok.mp hload
  rw [hr.bypass] at hb
  rw [hr.proxy] at hx
  rw [hr.mode] at hmode
  rw [checkIpInProxyList, ProxiesIp, hmode]
  cases hc : acl.bypass with
  | true =>
    rw [hc, if_pos rfl] at hx
    simp only [if_pos, iff_true]
    rw [checkIpMatched_iff hx]
    simp
  | false =>
    rw [hc, if_neg Bool.false_ne_true] at hb
    have hm := checkIpMatched_iff hb ip
    simp only [Finset.mem_sort] at hm
    simp [← hm]

private theorem isIpEmpty_iff_subnets : control.isIpEmpty = true ↔ acl.subnets = ∅ := by
  obtain ⟨-, hb, hx, hmode⟩ := loadFromFile_eq_ok.mp hload
  have hsort : acl.subnets.sort = [] ↔ acl.subnets = ∅ := by
    rw [← List.toFinset_eq_empty_iff, Finset.sort_toFinset]
  rw [hr.bypass] at hb
  rw [hr.proxy] at hx
  rw [hr.mode] at hmode
  rw [isIpEmpty, hmode, ← hsort]
  cases hc : acl.bypass with
  | true =>
    rw [hc, if_pos rfl] at hx
    exact isIpEmpty_iff hx
  | false =>
    rw [hc, if_neg Bool.false_ne_true] at hb
    exact isIpEmpty_iff hb

/-- The access control that was loaded decides as the list says. -/
private theorem checkTargetBypassed_iff
    (dnsResolve : String → UInt16 → Option (List InetAddress)) (target : Address) :
    control.checkTargetBypassed dnsResolve target = true ↔
      Bypasses crates acl dnsResolve target := by
  have hip := fun ip ↦ (Bool.eq_false_iff.trans (not_congr (checkIpInProxyList_iff hr hload ip)))
  obtain ⟨-, hb, hx, hmode⟩ := loadFromFile_eq_ok.mp hload
  have hempty := isIpEmpty_iff_subnets hr hload
  rw [hr.bypass] at hb
  rw [hr.proxy] at hx
  rw [hr.mode] at hmode
  cases target with
  | socketAddress ip port => simp only [checkTargetBypassed, Bypasses, Bool.not_eq_true', hip]
  | domainName host port =>
    have hwhite := checkHostMatched_iff hx host
    have hblack := checkHostMatched_iff hb host
    have hdefault : control.isDefaultInProxyList = !acl.bypass := by
      rw [isDefaultInProxyList, hmode]
      cases acl.bypass <;> rfl
    rw [checkTargetBypassed, Bypasses, checkHostInProxyList, ← hwhite, ← hblack]
    cases hw : control.whiteList.checkHostMatched host with
    | true => simp
    | false =>
      cases hk : control.blackList.checkHostMatched host with
      | true => simp
      | false =>
        cases he : control.isIpEmpty with
        | true =>
          rw [if_pos (hempty.mp he)]
          simp [hdefault]
        | false =>
          rw [if_neg fun hs ↦ Bool.false_ne_true (he.symm.trans (hempty.mpr hs))]
          cases hd : dnsResolve host port with
          | none => simp
          | some vaddr => simp [hip]

end Decide

/-- The user's list that a service saves with its imports in place is what the local server goes by.
What it reads is that list exactly if no hostname of it is an address to the local server; then the
file is loaded exactly if all patterns compile, and every target is sent past the proxy exactly if
the list says so. -/
theorem saved_rules_decide {Url : Type} (sys : Acl.System Url) (hsys : sys.Lawful)
    (crates : Crates) (hcrates : crates.Reads sys)
    (connect : List Url → Except String (List Char)) (file : Option (List Char))
    (text : List Char) (hsaved : Acl.savedRules sys connect file = .ok text) :
    ∃ rules flat, Acl.customRules sys file = .ok rules ∧
      Acl.Holds sys connect 10 [] rules flat ∧ flat.bypass = true ∧
      ((read crates text).Represents flat ↔
        ∀ host ∈ flat.bypassHostnames ∪ flat.proxyHostnames, crates.IsPattern host) ∧
      ((∀ host ∈ flat.bypassHostnames ∪ flat.proxyHostnames, crates.IsPattern host) →
        ((∃ control, loadFromFile crates text = .ok control) ↔
          ∀ p ∈ flat.bypassHostnames ∪ flat.proxyHostnames, ∃ regex,
            crates.regex true p = .ok regex) ∧
        ∀ control, loadFromFile crates text = .ok control → ∀ dnsResolve target,
          (control.checkTargetBypassed dnsResolve target = true ↔
            Bypasses crates flat dnsResolve target)) := by
  rw [Acl.savedRules] at hsaved
  cases hc : Acl.customRules sys file with
  | error e =>
    rw [hc] at hsaved
    cases hsaved
  | ok rules =>
    rw [hc] at hsaved
    change (Acl.flatten sys connect 10 [] rules).bind (fun flat ↦ .ok (flat.toText sys)) = _
      at hsaved
    cases hf : Acl.flatten sys connect 10 [] rules with
    | error e =>
      rw [hf] at hsaved
      cases hsaved
    | ok flat =>
      rw [hf] at hsaved
      cases hsaved
      obtain ⟨hrules, hbypass⟩ := Acl.printable_of_customRules hsys hc
      obtain ⟨hp, hn⟩ := Acl.printable_of_flatten hsys hrules hf
      have hholds := Acl.holds_of_flatten hf
      have hiff := represents_iff hsys hcrates hn hp
      refine ⟨rules, flat, rfl, hholds, hholds.bypass.trans hbypass, hiff, fun hpattern ↦ ?_⟩
      have hr := hiff.mpr hpattern
      exact ⟨exists_load_iff hr, fun control hload ↦ checkTargetBypassed_iff hr hload⟩
/-! ### The libraries on IPv4 -/

/-- A pattern of letters, which is found in a host or not. -/
def literal (caseInsensitive : Bool) (pattern : String) : Except String (String → Bool) :=
  let fold : String → List Char := fun text ↦
    if caseInsensitive then text.toList.map Char.toLower else text.toList
  if pattern.toList.all Char.isAlpha then .ok fun host ↦ fold pattern <:+: fold host
  else .error "regex parse error"

/-- The libraries on the texts of IPv4 and on patterns of letters. -/
def ipv4Crates : Crates where
  parseIpNet text :=
    if '/' ∈ text.toList then
      match Subnet.fromString inetPton text (-1) with
      | .ok net => net
      | .error _ => none
    else none
  parseIpAddr := inetPton
  regex := literal

theorem reads_web : ipv4Crates.Reads Acl.web := by
  have hslash : ∀ a, '/' ∉ (Acl.web.hostAddress a).toList := by
    intro a h
    rw [Acl.web, String.toList_ofList] at h
    rcases mem_dottedText h with h | h
    · exact absurd h (by decide)
    · exact absurd h (by decide)
  constructor
  · intro n hy hs
    have hread := Subnet.fromString_append_slash n (Acl.lawful_web.parse_hostAddress _ hy)
      (hslash n.address)
    rw [Subnet.toString, if_neg hs]
    simp only [ipv4Crates]
    rw [if_pos (by simp), show inetPton = Acl.web.parseNumericAddress from rfl, hread]
  · intro a hy
    exact ⟨if_neg (hslash a), Acl.lawful_web.parse_hostAddress a hy⟩

/-- The user's list, which imports another. -/
private def userRules : Acl Acl.WebUrl where
  bypassHostnames := {"intranet"}
  proxyHostnames := {"tracker"}
  subnets := {⟨.ipv4 172 16 0 0, 12, by decide⟩}
  urls := [⟨"example.org".toList, "/list.acl".toList⟩]
  bypass := true

private def importedRules : Acl Acl.WebUrl where
  proxyHostnames := {"video"}
  subnets := {Subnet.single (.ipv4 192 0 2 1)}
  bypass := true

private def flatRules : Acl Acl.WebUrl :=
  { Acl.merge userRules importedRules with urls := [] }

private theorem plain_letters {h : String} (hne : h.toList ≠ [])
    (ha : h.toList.all Char.isAlpha = true) (ht : Acl.trim h.toList = h.toList)
    (hp : inetPton (String.ofList (h.toList.takeWhile (· ≠ '/'))) = none) :
    Acl.Plain Acl.web h := by
  have hc : ∀ c ∈ h.toList, c ≠ '#' ∧ c ≠ '\n' ∧ c ≠ '\r' ∧ c ≠ '[' := by
    intro c hm
    have hac := List.all_eq_true.mp ha c hm
    refine ⟨?_, ?_, ?_, ?_⟩ <;> rintro rfl <;> revert hac <;> decide
  exact Acl.plain_web hne ht (fun c hm ↦ ⟨(hc c hm).1, (hc c hm).2.1, (hc c hm).2.2.1⟩)
    (fun hh ↦ (hc _ (List.mem_of_head? hh)).2.2.2 rfl) hp

private theorem read_userRules :
    Acl.fromReader Acl.web true (userRules.toText Acl.web) = .ok userRules := by
  refine Acl.fromReader_toText Acl.lawful_web ⟨?_, ?_⟩ ⟨?_, ?_, ?_⟩ true
  · intro n hn
    rw [Finset.mem_singleton.mp hn]
    exact ⟨"172.16.0.0", by decide⟩
  · intro u hu
    rw [List.mem_singleton.mp hu]
    exact ⟨"https://example.org/list.acl", by decide⟩
  · intro h hh
    rw [Finset.mem_singleton.mp hh]
    exact plain_letters (by decide) (by decide) (by decide) (by decide)
  · intro h hh
    rw [Finset.mem_singleton.mp hh]
    exact plain_letters (by decide) (by decide) (by decide) (by decide)
  · intro u hu
    rw [List.mem_singleton.mp hu]
    exact Acl.onePatternLine_of_any (by decide)

private theorem read_importedRules :
    Acl.fromReader Acl.web true (importedRules.toText Acl.web) = .ok importedRules := by
  refine Acl.fromReader_toText Acl.lawful_web ⟨?_, fun _ hu ↦ absurd hu List.not_mem_nil⟩
    ⟨fun _ hh ↦ absurd hh (Finset.notMem_empty _), ?_, fun _ hu ↦ absurd hu List.not_mem_nil⟩ true
  · intro n hn
    rw [Finset.mem_singleton.mp hn]
    exact ⟨"192.0.2.1", by decide⟩
  · intro h hh
    rw [Finset.mem_singleton.mp hh]
    exact plain_letters (by decide) (by decide) (by decide) (by decide)

private theorem flatten_userRules :
    Acl.flatten Acl.web (fun _ ↦ .ok (importedRules.toText Acl.web)) 10 [] userRules =
      .ok flatRules := by
  have hbind : ∀ (text : List Char) (f : List Char → Except String (Acl Acl.WebUrl)),
      (Except.ok text).bind f = f text := fun _ _ ↦ rfl
  rw [Acl.flatten]
  change Except.map _ (List.foldlM _ userRules [_]) = _
  rw [List.foldlM_cons, hbind]
  change Except.map _ (Except.bind (Except.map _ ((Acl.fromReader Acl.web true _).bind _)) _) = _
  rw [read_importedRules]
  rfl

theorem saved_rules_decide_web :
    Acl.savedRules Acl.web (fun _ ↦ .ok (importedRules.toText Acl.web))
        (some (userRules.toText Acl.web)) = .ok (flatRules.toText Acl.web) ∧
      ∃ control, loadFromFile ipv4Crates (flatRules.toText Acl.web) = .ok control ∧
        ∀ dnsResolve target, (control.checkTargetBypassed dnsResolve target = true ↔
          Bypasses ipv4Crates flatRules dnsResolve target) := by
  have hcustom : Acl.customRules Acl.web (some (userRules.toText Acl.web)) = .ok userRules := by
    rw [Acl.customRules, read_userRules]
    rfl
  have hsaved : Acl.savedRules Acl.web (fun _ ↦ .ok (importedRules.toText Acl.web))
      (some (userRules.toText Acl.web)) = .ok (flatRules.toText Acl.web) := by
    rw [Acl.savedRules, hcustom]
    change Except.bind (Acl.flatten Acl.web _ 10 [] userRules) _ = _
    rw [flatten_userRules]
    rfl
  obtain ⟨rules, flat, hc, hholds, -, -, hdecide⟩ := saved_rules_decide Acl.web Acl.lawful_web
    ipv4Crates reads_web _ _ _ hsaved
  rw [hcustom] at hc
  cases hc
  obtain rfl := hholds.unique (Acl.holds_of_flatten flatten_userRules)
  have hhosts : flatRules.bypassHostnames ∪ flatRules.proxyHostnames =
      {"intranet", "tracker", "video"} := by
    decide
  have hpattern : ∀ host ∈ flatRules.bypassHostnames ∪ flatRules.proxyHostnames,
      ipv4Crates.IsPattern host := by
    rw [hhosts]
    decide
  obtain ⟨hload, hall⟩ := hdecide hpattern
  obtain ⟨control, hcontrol⟩ := hload.mpr (by
    rw [hhosts]
    simp [ipv4Crates, literal])
  exact ⟨hsaved, control, hcontrol, hall control hcontrol⟩

end AccessControl

end FastSearch.Net
