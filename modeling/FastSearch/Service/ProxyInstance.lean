import FastSearch.Database.DataStore
import FastSearch.Database.ProfileExport
import FastSearch.Lib.EventSystem

/-!
# The processes of the tunnel

`bg/ProxyInstance.kt` and the end of `startVpn` in `bg/VpnService.kt`: the configuration and the
command lines of `ss-local` and `tun2socks`. Both take the address and the ports from the public
store, each when it is started, and the one has to find the other there.
-/

namespace FastSearch.Service

open Server Database Plugin DataStore EventSystem

/-- `PluginManager.InitResult`, `plugin/PluginManager.kt:121`. -/
structure InitResult where
  path : String
  options : PluginOptions
  isV2 : Bool := false

/-- `ProxyInstance`, `bg/ProxyInstance.kt:42`; the plugin is what `PluginManager.init` found. -/
structure ProxyInstance where
  profile : Profile
  route : String := profile.route
  plugin : Option InitResult := none

/-- What is used of `java.net.URI`: a null host and a negative port say that there is none. -/
structure Uri where
  host : Option String
  port : Int32

/-- The files and the parser that the processes are started with: the library directory,
`Acl.getFile`, and `URI`, which throws. -/
structure Platform where
  nativeLibraryDir : String
  aclFile : String → String
  uri : String → Except String Uri

/-- A process that is started: `ss-local` with its configuration, or `tun2socks`. -/
inductive Launch where
  | ssLocal (config : List (String × Json)) (command : List String)
  | tun2socks (command : List String)

/-- What the plugin adds to the configuration, `bg/ProxyInstance.kt:67`. -/
def vpnPluginFields (isVpnService : Bool) : Option InitResult → List (String × Json)
  | none => []
  | some plugin =>
    let opts := if isVpnService ∧ plugin.isV2 then plugin.options.put "__android_vpn" (some "")
      else plugin.options
    (if isVpnService ∧ ¬ plugin.isV2 then [("plugin_args", .array [.string "-V"])] else []) ++
      [("plugin", .string plugin.path), ("plugin_opts", .string (opts.toString true))]

section Start

variable (P : Platform) (userIndex : Int32)

/-- The local SOCKS5 proxy, `bg/ProxyInstance.kt:76`, and the store after both reads. -/
def socksLocal (s : PreferenceStore) (mode : String) : List (String × Json) × PreferenceStore :=
  let (port, s₁) := getLocalPort userIndex s .portProxy
  let (udpPort, s₂) := getLocalPort userIndex s₁ .portProxy
  ([("local_address", .string (listenAddress s)), ("local_port", jsonInt port),
    ("local_udp_address", .string (listenAddress s₁)), ("local_udp_port", jsonInt udpPort),
    ("mode", .string mode)], s₂)

/-- The local DNS proxy, `bg/ProxyInstance.kt:90`. -/
def dnsLocal (s : PreferenceStore) (dns : Uri) : List (String × Json) × PreferenceStore :=
  let (port, s₁) := getLocalPort userIndex s .portLocalDns
  ([("local_address", .string (listenAddress s)), ("local_port", jsonInt port),
    ("local_dns_address", .string "local_dns_path"),
    ("remote_dns_address", .string (dns.host.getD "0.0.0.0")),
    ("remote_dns_port", jsonInt (if dns.port < 0 then 53 else dns.port)),
    ("protocol", .string "dns")], s₁)

/-- The array `locals`, `bg/ProxyInstance.kt:74`; the store keeps what was read before an
exception. -/
def localsOf (s : PreferenceStore) (profile : Profile) (mode : String) (dnsRelay : Bool) :
    Except String (List (List (String × Json))) × PreferenceStore :=
  let (socks, s₁) := socksLocal userIndex s mode
  if dnsRelay then
    match P.uri ("dns://" ++ profile.remoteDns) with
    | .error e => (.error e, s₁)
    | .ok dns =>
      let (relay, s₂) := dnsLocal userIndex s₁ dns
      (.ok [socks, relay], s₂)
  else (.ok [socks], s₁)

/-- The configuration file, `bg/ProxyInstance.kt:66`. -/
def ProxyInstance.config (i : ProxyInstance) (isVpnService : Bool)
    (locals : List (List (String × Json))) : List (String × Json) :=
  serverFields i.profile ++ vpnPluginFields isVpnService i.plugin ++
    [("dns", .string "unix://local_dns_path"), ("locals", .array (locals.map .object))]

/-- `start`, `bg/ProxyInstance.kt:60`. -/
def ProxyInstance.start (i : ProxyInstance) (isVpnService : Bool) (stat configFile mode : String)
    (dnsRelay : Bool) (s : PreferenceStore) : Except String Launch × PreferenceStore :=
  let (locals, s₁) := localsOf P userIndex s i.profile mode dnsRelay
  (locals.map fun locals ↦ .ssLocal (i.config isVpnService locals)
    ([P.nativeLibraryDir ++ "/libsslocal.so", "--stat-path", stat, "-c", configFile] ++
      (if isVpnService then ["--vpn"] else []) ++
      if i.route ≠ "all" then ["--acl", P.aclFile i.route] else []), s₁)

/-- `startVpn` after the tunnel is established, `bg/VpnService.kt:216`. -/
def startTun2socks (ipv6 : Bool) (s : PreferenceStore) : Launch × PreferenceStore :=
  let (port, s₁) := getLocalPort userIndex s .portProxy
  let (dnsPort, s₂) := getLocalPort userIndex s₁ .portLocalDns
  (.tun2socks
    ([P.nativeLibraryDir ++ "/libtun2socks.so", "--netif-ipaddr", "172.19.0.2",
      "--socks-server-addr", listenAddress s ++ ":" ++ toString port.toInt,
      "--tunmtu", "1500", "--sock-path", "sock_path",
      "--dnsgw", "127.0.0.1:" ++ toString dnsPort.toInt, "--loglevel", "warning"] ++
      (if ipv6 then ["--netif-ip6addr", "fdfe:dcba:9876::2"] else []) ++ ["--enable-udprelay"]),
    s₂)

/-! ### Runs -/

/-- The public store and the processes that were started. -/
structure Tunnel where
  store : PreferenceStore
  processes : List Launch := []

namespace Tunnel

/-- What changes the store: writes of any thread, reads of a port, and the starts. -/
inductive Event where
  | put (key : String) (v : KeyValuePair.Value)
  | putFloat (key : String) (bits : Int32)
  | remove (key : String)
  | readPort (p : LocalPort)
  | start (i : ProxyInstance) (isVpnService : Bool) (stat configFile mode : String)
      (dnsRelay : Bool)
  | startVpn (ipv6 : Bool)

/-- A process joins the others, unless its start threw. -/
def join (t : Tunnel) (started : Except String Launch × PreferenceStore) : Tunnel where
  store := started.2
  processes := t.processes ++ started.1.toOption.toList

/-- One event. -/
def step (t : Tunnel) : Event → Option Tunnel
  | .put key v => some { t with store := t.store.put key v }
  | .putFloat key bits => some { t with store := t.store.putFloat key bits }
  | .remove key => some { t with store := t.store.remove key }
  | .readPort p => some { t with store := (getLocalPort userIndex t.store p).2 }
  | .start i isVpnService stat configFile mode dnsRelay =>
    some (t.join (i.start P userIndex isVpnService stat configFile mode dnsRelay t.store))
  | .startVpn ipv6 =>
    let (launch, s) := startTun2socks P userIndex ipv6 t.store
    some (t.join (.ok launch, s))

end Tunnel

end Start

/-! ### Where a process serves and asks -/

/-- The text of a field. -/
def fieldText (fields : List (String × Json)) (name : String) : String :=
  match fields.lookup name with
  | some (.string s) => s
  | some (.number literal) => literal
  | _ => ""

/-- The entries of `locals`. -/
def localsIn (config : List (String × Json)) : List (List (String × Json)) :=
  match config.lookup "locals" with
  | some (.array items) => items.filterMap fun
      | .object fields => some fields
      | _ => none
  | _ => []

/-- The value of an option on a command line whose options have one value each. -/
def optionValue (name : String) : List String → Option String
  | option :: value :: rest => if option = name then some value else optionValue name rest
  | _ => none

/-- Where SOCKS is served, by TCP and by UDP, or asked for. -/
def Launch.socksServers : Launch → List String
  | .ssLocal config _ => (localsIn config).flatMap fun l ↦
      if fieldText l "protocol" = "dns" then []
      else [fieldText l "local_address" ++ ":" ++ fieldText l "local_port",
        fieldText l "local_udp_address" ++ ":" ++ fieldText l "local_udp_port"]
  | .tun2socks command => (optionValue "--socks-server-addr" command.tail).toList

/-- Where DNS is served, as seen from the device, or asked for. -/
def Launch.dnsServers : Launch → List String
  | .ssLocal config _ => (localsIn config).filterMap fun l ↦
      if fieldText l "protocol" = "dns" then some ("127.0.0.1:" ++ fieldText l "local_port")
      else none
  | .tun2socks command => (optionValue "--dnsgw" command.tail).toList

/-- The process uses one server for SOCKS and one for DNS. -/
def Launch.Uses (socks dns : String) (l : Launch) : Prop :=
  (∀ x ∈ l.socksServers, x = socks) ∧ ∀ x ∈ l.dnsServers, x = dns

namespace Tunnel

/-- The event does not write what the processes read. -/
def Event.Spares : Event → Prop
  | .put key _ | .putFloat key _ | .remove key =>
    key ≠ "shareOverLan" ∧ key ≠ "portProxy" ∧ key ≠ "portLocalDns"
  | _ => True

/-! ### Settled ports -/

variable {P : Platform} {userIndex : Int32}

/-- The address and the ports of the tunnel are read as in the first store from now on. -/
structure Settled (userIndex : Int32) (s₀ s : PreferenceStore) : Prop where
  address : PreferenceStore.SameAt "shareOverLan" s₀ s
  port : ∀ p, p ≠ .portTransproxy → settled userIndex s p = settled userIndex s₀ p
  noStray : ∀ p, p ≠ .portTransproxy → ¬ Stray userIndex s p

namespace Settled

variable {s₀ s : PreferenceStore}

theorem listenAddress (h : Settled userIndex s₀ s) : listenAddress s = listenAddress s₀ := by
  rw [DataStore.listenAddress, h.address.getBoolean, DataStore.listenAddress]

theorem getLocalPort (h : Settled userIndex s₀ s) {p : LocalPort} (hp : p ≠ .portTransproxy) :
    (getLocalPort userIndex s p).1 = settled userIndex s₀ p :=
  (getLocalPort_eq_settled_iff.mpr (h.noStray p hp)).trans (h.port p hp)

theorem read (h : Settled userIndex s₀ s) (p : LocalPort) :
    Settled userIndex s₀ (DataStore.getLocalPort userIndex s p).2 where
  address := (sameAt_getLocalPort (by cases p <;> decide)).trans h.address
  port q hq := settled_getLocalPort.trans (h.port q hq)
  noStray q hq := fun hs ↦ h.noStray q hq (stray_of_getLocalPort hs)

theorem of_sameAt (h : Settled userIndex s₀ s) {s' : PreferenceStore}
    (hs : ∀ key, key = "shareOverLan" ∨ key = "portProxy" ∨ key = "portLocalDns" →
      PreferenceStore.SameAt key s s') : Settled userIndex s₀ s' := by
  have hp : ∀ p : LocalPort, p ≠ .portTransproxy → PreferenceStore.SameAt p.key s s' := by
    intro p hp
    cases p with
    | portProxy => exact hs _ (Or.inr (Or.inl rfl))
    | portLocalDns => exact hs _ (Or.inr (Or.inr rfl))
    | portTransproxy => exact absurd rfl hp
  refine ⟨(hs _ (Or.inl rfl)).trans h.address, ?_, ?_⟩
  · intro p hne
    rw [settled_of_sameAt (hp p hne), h.port p hne]
  · intro p hne hst
    exact h.noStray p hne ((stray_of_sameAt (hp p hne)).mp hst)

/-- Both reads of the SOCKS port give the settled one. -/
theorem socksLocal (h : Settled userIndex s₀ s) (mode : String) :
    (socksLocal userIndex s mode).1 =
      [("local_address", .string (DataStore.listenAddress s₀)),
        ("local_port", jsonInt (settled userIndex s₀ .portProxy)),
        ("local_udp_address", .string (DataStore.listenAddress s₀)),
        ("local_udp_port", jsonInt (settled userIndex s₀ .portProxy)),
        ("mode", .string mode)] ∧
      Settled userIndex s₀ (Service.socksLocal userIndex s mode).2 := by
  have h₁ := h.read .portProxy
  refine ⟨?_, h₁.read .portProxy⟩
  simp only [Service.socksLocal, h.getLocalPort (p := .portProxy) (by decide),
    h₁.getLocalPort (p := .portProxy) (by decide), h.listenAddress, h₁.listenAddress]

theorem dnsLocal (h : Settled userIndex s₀ s) (dns : Uri) :
    fieldText (dnsLocal userIndex s dns).1 "protocol" = "dns" ∧
      fieldText (Service.dnsLocal userIndex s dns).1 "local_port" =
        toString (settled userIndex s₀ .portLocalDns).toInt ∧
      Settled userIndex s₀ (Service.dnsLocal userIndex s dns).2 := by
  refine ⟨rfl, ?_, h.read .portLocalDns⟩
  rw [← h.getLocalPort (p := .portLocalDns) (by decide)]
  rfl

end Settled

/-! ### Every process -/

/-- Where SOCKS is served once the port is settled. -/
def socksServer (userIndex : Int32) (s : PreferenceStore) : String :=
  listenAddress s ++ ":" ++ toString (settled userIndex s .portProxy).toInt

/-- Where DNS is served once the port is settled. -/
def dnsServer (userIndex : Int32) (s : PreferenceStore) : String :=
  "127.0.0.1:" ++ toString (settled userIndex s .portLocalDns).toInt

/-- The entries of `locals` are those that were put there. -/
private theorem localsIn_config (i : ProxyInstance) (isVpnService : Bool)
    (locals : List (List (String × Json))) :
    localsIn (i.config isVpnService locals) = locals := by
  have hl : (i.config isVpnService locals).lookup "locals" =
      some (.array (locals.map .object)) := by
    unfold ProxyInstance.config
    cases i.plugin with
    | none => rfl
    | some plugin =>
      simp only [vpnPluginFields, serverFields]
      split <;> rfl
  simp only [localsIn, hl, List.filterMap_map]
  exact List.filterMap_some

/-- An entry of `locals` serves DNS at one place, or SOCKS at another. -/
private def Serves (socks dns : String) (l : List (String × Json)) : Prop :=
  if fieldText l "protocol" = "dns" then "127.0.0.1:" ++ fieldText l "local_port" = dns
  else fieldText l "local_address" ++ ":" ++ fieldText l "local_port" = socks ∧
    fieldText l "local_udp_address" ++ ":" ++ fieldText l "local_udp_port" = socks

private theorem uses_config {socks dns : String} {locals : List (List (String × Json))}
    (h : ∀ l ∈ locals, Serves socks dns l) (i : ProxyInstance) (isVpnService : Bool)
    (command : List String) :
    (Launch.ssLocal (i.config isVpnService locals) command).Uses socks dns := by
  constructor
  · intro x hx
    simp only [Launch.socksServers, localsIn_config, List.mem_flatMap] at hx
    obtain ⟨l, hl, hx⟩ := hx
    have hs := h l hl
    unfold Serves at hs
    split at hx
    · cases hx
    · next hp =>
      rw [if_neg hp] at hs
      rcases List.mem_cons.mp hx with rfl | hx
      · exact hs.1
      · exact (List.mem_singleton.mp hx).trans hs.2
  · intro x hx
    simp only [Launch.dnsServers, localsIn_config, List.mem_filterMap] at hx
    obtain ⟨l, hl, hx⟩ := hx
    have hs := h l hl
    unfold Serves at hs
    split at hx
    · next hp =>
      rw [if_pos hp] at hs
      exact (Option.some.inj hx).symm.trans hs
    · cases hx

variable {s₀ s : PreferenceStore}

/-- A started `ss-local` serves at the settled ports. -/
private theorem uses_start (h : Settled userIndex s₀ s) (i : ProxyInstance) (isVpnService : Bool)
    (stat configFile mode : String) (dnsRelay : Bool) :
    Settled userIndex s₀ (i.start P userIndex isVpnService stat configFile mode dnsRelay s).2 ∧
      ∀ l, (i.start P userIndex isVpnService stat configFile mode dnsRelay s).1 = .ok l →
        l.Uses (socksServer userIndex s₀) (dnsServer userIndex s₀) := by
  obtain ⟨hsocks, h₁⟩ := h.socksLocal mode
  have hserves : Serves (socksServer userIndex s₀) (dnsServer userIndex s₀)
      (socksLocal userIndex s mode).1 := by
    rw [hsocks]
    exact ⟨rfl, rfl⟩
  simp only [ProxyInstance.start, localsOf]
  split
  · split
    · exact ⟨h₁, fun l hl ↦ (nomatch hl)⟩
    · next dns _ =>
      obtain ⟨hproto, hport, h₂⟩ := h₁.dnsLocal dns
      refine ⟨h₂, fun l hl ↦ ?_⟩
      cases hl
      apply uses_config
      intro l hl
      rcases List.mem_pair.mp hl with rfl | rfl
      · exact hserves
      · rw [Serves, if_pos hproto, hport, dnsServer]
  · refine ⟨h₁, fun l hl ↦ ?_⟩
    cases hl
    exact uses_config (List.forall_mem_singleton.mpr hserves) i isVpnService _

/-- A started `tun2socks` asks at the settled ports. -/
private theorem uses_startTun2socks (h : Settled userIndex s₀ s) (ipv6 : Bool) :
    Settled userIndex s₀ (startTun2socks P userIndex ipv6 s).2 ∧
      (startTun2socks P userIndex ipv6 s).1.Uses (socksServer userIndex s₀)
        (dnsServer userIndex s₀) := by
  have h₁ := h.read .portProxy
  refine ⟨h₁.read .portLocalDns, ?_⟩
  simp only [startTun2socks, h.getLocalPort (p := .portProxy) (by decide),
    h₁.getLocalPort (p := .portLocalDns) (by decide), h.listenAddress]
  constructor
  · intro x hx
    exact List.mem_singleton.mp hx
  · intro x hx
    exact List.mem_singleton.mp hx

/-- The store is settled and all processes use its servers. -/
private def Inv (userIndex : Int32) (s₀ : PreferenceStore) (t : Tunnel) : Prop :=
  Settled userIndex s₀ t.store ∧
    ∀ l ∈ t.processes, l.Uses (socksServer userIndex s₀) (dnsServer userIndex s₀)

private theorem inv_join {t : Tunnel} (h : Inv userIndex s₀ t)
    {started : Except String Launch × PreferenceStore} (hs : Settled userIndex s₀ started.2)
    (hl : ∀ l, started.1 = .ok l → l.Uses (socksServer userIndex s₀) (dnsServer userIndex s₀)) :
    Inv userIndex s₀ (t.join started) := by
  refine ⟨hs, ?_⟩
  intro l hm
  rcases List.mem_append.mp hm with hm | hm
  · exact h.2 l hm
  · obtain ⟨r, s⟩ := started
    cases r with
    | error e => cases hm
    | ok l' =>
      rw [List.mem_singleton.mp hm]
      exact hl l' rfl

private theorem ne_of_spared {key : String}
    (h : key ≠ "shareOverLan" ∧ key ≠ "portProxy" ∧ key ≠ "portLocalDns") :
    ∀ key', key' = "shareOverLan" ∨ key' = "portProxy" ∨ key' = "portLocalDns" → key' ≠ key := by
  rintro key' (rfl | rfl | rfl)
  · exact h.1.symm
  · exact h.2.1.symm
  · exact h.2.2.symm

private theorem inv_step (t : Tunnel) (e : Event) (t' : Tunnel) (h : Inv userIndex s₀ t)
    (he : e.Spares) (hst : step P userIndex t e = some t') : Inv userIndex s₀ t' := by
  cases e with
  | put key v =>
    cases hst
    exact ⟨h.1.of_sameAt fun k hk ↦ PreferenceStore.sameAt_put (ne_of_spared he k hk) v, h.2⟩
  | putFloat key bits =>
    cases hst
    exact ⟨h.1.of_sameAt fun k hk ↦ PreferenceStore.sameAt_putFloat (ne_of_spared he k hk) bits,
      h.2⟩
  | remove key =>
    cases hst
    exact ⟨h.1.of_sameAt fun k hk ↦ PreferenceStore.sameAt_remove (ne_of_spared he k hk), h.2⟩
  | readPort p =>
    cases hst
    exact ⟨h.1.read p, h.2⟩
  | start i isVpnService stat configFile mode dnsRelay =>
    cases hst
    have hu := uses_start (P := P) h.1 i isVpnService stat configFile mode dnsRelay
    exact inv_join h hu.1 hu.2
  | startVpn ipv6 =>
    cases hst
    have hu := uses_startTun2socks (P := P) h.1 ipv6
    exact inv_join h hu.1 fun l hl ↦ Except.ok.inj hl ▸ hu.2

/-! ### Stray ports -/

end Tunnel

end FastSearch.Service
