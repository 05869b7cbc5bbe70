import FastSearch.Net.Subnet
import Mathlib.Data.List.Sort

/-!
# The routes of the tunnel

`startVpn` in `bg/VpnService.kt` and its table `bypass_private_route`: which addresses go through
the tunnel. Every route is given as the subnet that the builder is called with.
-/

namespace FastSearch.Net

open ByteOrder BitPrefix

/-- An entry of the table: four bytes and a prefix. -/
structure Cidr where
  a : UInt8
  b : UInt8
  c : UInt8
  d : UInt8
  p : Fin 33
  deriving DecidableEq, Repr

namespace Cidr

/-- Four numbers with dots between them. -/
def dotted (a b c d : UInt8) : String :=
  a.toNat.repr ++ "." ++ b.toNat.repr ++ "." ++ c.toNat.repr ++ "." ++ d.toNat.repr

/-- The entry as the table has it. -/
def text (k : Cidr) : String := dotted k.a k.b k.c k.d ++ "/" ++ k.p.val.repr

/-- The subnet that the entry means. -/
def subnet (k : Cidr) : Subnet where
  address := .ipv4 k.a k.b k.c k.d
  prefixSize := k.p
  valid := Nat.le_of_lt_succ k.p.isLt

end Cidr

/-- `bypass_private_route`, `res/values/arrays.xml:43`. -/
def bypassPrivateRoute : List Cidr :=
  [⟨1, 0, 0, 0, 8⟩, ⟨2, 0, 0, 0, 7⟩, ⟨4, 0, 0, 0, 6⟩, ⟨8, 0, 0, 0, 7⟩, ⟨11, 0, 0, 0, 8⟩,
    ⟨12, 0, 0, 0, 6⟩, ⟨16, 0, 0, 0, 4⟩, ⟨32, 0, 0, 0, 3⟩, ⟨64, 0, 0, 0, 3⟩, ⟨96, 0, 0, 0, 6⟩,
    ⟨100, 0, 0, 0, 10⟩, ⟨100, 128, 0, 0, 9⟩, ⟨101, 0, 0, 0, 8⟩, ⟨102, 0, 0, 0, 7⟩,
    ⟨104, 0, 0, 0, 5⟩, ⟨112, 0, 0, 0, 10⟩, ⟨112, 64, 0, 0, 11⟩, ⟨112, 96, 0, 0, 12⟩,
    ⟨112, 112, 0, 0, 13⟩, ⟨112, 120, 0, 0, 14⟩, ⟨112, 124, 0, 0, 19⟩, ⟨112, 124, 32, 0, 21⟩,
    ⟨112, 124, 40, 0, 22⟩, ⟨112, 124, 44, 0, 23⟩, ⟨112, 124, 46, 0, 24⟩, ⟨112, 124, 48, 0, 20⟩,
    ⟨112, 124, 64, 0, 18⟩, ⟨112, 124, 128, 0, 17⟩, ⟨112, 125, 0, 0, 16⟩, ⟨112, 126, 0, 0, 15⟩,
    ⟨112, 128, 0, 0, 9⟩, ⟨113, 0, 0, 0, 8⟩, ⟨114, 0, 0, 0, 10⟩, ⟨114, 64, 0, 0, 11⟩,
    ⟨114, 96, 0, 0, 12⟩, ⟨114, 112, 0, 0, 15⟩, ⟨114, 114, 0, 0, 18⟩, ⟨114, 114, 64, 0, 19⟩,
    ⟨114, 114, 96, 0, 20⟩, ⟨114, 114, 112, 0, 23⟩, ⟨114, 114, 115, 0, 24⟩, ⟨114, 114, 116, 0, 22⟩,
    ⟨114, 114, 120, 0, 21⟩, ⟨114, 114, 128, 0, 17⟩, ⟨114, 115, 0, 0, 16⟩, ⟨114, 116, 0, 0, 14⟩,
    ⟨114, 120, 0, 0, 13⟩, ⟨114, 128, 0, 0, 9⟩, ⟨115, 0, 0, 0, 8⟩, ⟨116, 0, 0, 0, 6⟩,
    ⟨120, 0, 0, 0, 6⟩, ⟨124, 0, 0, 0, 7⟩, ⟨126, 0, 0, 0, 8⟩, ⟨128, 0, 0, 0, 3⟩, ⟨160, 0, 0, 0, 5⟩,
    ⟨168, 0, 0, 0, 8⟩, ⟨169, 0, 0, 0, 9⟩, ⟨169, 128, 0, 0, 10⟩, ⟨169, 192, 0, 0, 11⟩,
    ⟨169, 224, 0, 0, 12⟩, ⟨169, 240, 0, 0, 13⟩, ⟨169, 248, 0, 0, 14⟩, ⟨169, 252, 0, 0, 15⟩,
    ⟨169, 255, 0, 0, 16⟩, ⟨170, 0, 0, 0, 7⟩, ⟨172, 0, 0, 0, 12⟩, ⟨172, 32, 0, 0, 11⟩,
    ⟨172, 64, 0, 0, 10⟩, ⟨172, 128, 0, 0, 9⟩, ⟨173, 0, 0, 0, 8⟩, ⟨174, 0, 0, 0, 7⟩,
    ⟨176, 0, 0, 0, 4⟩, ⟨192, 0, 0, 8, 29⟩, ⟨192, 0, 0, 16, 28⟩, ⟨192, 0, 0, 32, 27⟩,
    ⟨192, 0, 0, 64, 26⟩, ⟨192, 0, 0, 128, 25⟩, ⟨192, 0, 1, 0, 24⟩, ⟨192, 0, 3, 0, 24⟩,
    ⟨192, 0, 4, 0, 22⟩, ⟨192, 0, 8, 0, 21⟩, ⟨192, 0, 16, 0, 20⟩, ⟨192, 0, 32, 0, 19⟩,
    ⟨192, 0, 64, 0, 18⟩, ⟨192, 0, 128, 0, 17⟩, ⟨192, 1, 0, 0, 16⟩, ⟨192, 2, 0, 0, 15⟩,
    ⟨192, 4, 0, 0, 14⟩, ⟨192, 8, 0, 0, 13⟩, ⟨192, 16, 0, 0, 12⟩, ⟨192, 32, 0, 0, 11⟩,
    ⟨192, 64, 0, 0, 12⟩, ⟨192, 80, 0, 0, 13⟩, ⟨192, 88, 0, 0, 18⟩, ⟨192, 88, 64, 0, 19⟩,
    ⟨192, 88, 96, 0, 23⟩, ⟨192, 88, 98, 0, 24⟩, ⟨192, 88, 100, 0, 22⟩, ⟨192, 88, 104, 0, 21⟩,
    ⟨192, 88, 112, 0, 20⟩, ⟨192, 88, 128, 0, 17⟩, ⟨192, 89, 0, 0, 16⟩, ⟨192, 90, 0, 0, 15⟩,
    ⟨192, 92, 0, 0, 14⟩, ⟨192, 96, 0, 0, 11⟩, ⟨192, 128, 0, 0, 11⟩, ⟨192, 160, 0, 0, 13⟩,
    ⟨192, 169, 0, 0, 16⟩, ⟨192, 170, 0, 0, 15⟩, ⟨192, 172, 0, 0, 14⟩, ⟨192, 176, 0, 0, 12⟩,
    ⟨192, 192, 0, 0, 10⟩, ⟨193, 0, 0, 0, 8⟩, ⟨194, 0, 0, 0, 7⟩, ⟨196, 0, 0, 0, 7⟩,
    ⟨198, 0, 0, 0, 12⟩, ⟨198, 16, 0, 0, 15⟩, ⟨198, 20, 0, 0, 14⟩, ⟨198, 24, 0, 0, 13⟩,
    ⟨198, 32, 0, 0, 12⟩, ⟨198, 48, 0, 0, 15⟩, ⟨198, 50, 0, 0, 16⟩, ⟨198, 51, 0, 0, 18⟩,
    ⟨198, 51, 64, 0, 19⟩, ⟨198, 51, 96, 0, 22⟩, ⟨198, 51, 101, 0, 24⟩, ⟨198, 51, 102, 0, 23⟩,
    ⟨198, 51, 104, 0, 21⟩, ⟨198, 51, 112, 0, 20⟩, ⟨198, 51, 128, 0, 17⟩, ⟨198, 52, 0, 0, 14⟩,
    ⟨198, 56, 0, 0, 13⟩, ⟨198, 64, 0, 0, 10⟩, ⟨198, 128, 0, 0, 9⟩, ⟨199, 0, 0, 0, 8⟩,
    ⟨200, 0, 0, 0, 7⟩, ⟨202, 0, 0, 0, 8⟩, ⟨203, 0, 0, 0, 18⟩, ⟨203, 0, 64, 0, 19⟩,
    ⟨203, 0, 96, 0, 20⟩, ⟨203, 0, 112, 0, 24⟩, ⟨203, 0, 114, 0, 23⟩, ⟨203, 0, 116, 0, 22⟩,
    ⟨203, 0, 120, 0, 21⟩, ⟨203, 0, 128, 0, 17⟩, ⟨203, 1, 0, 0, 16⟩, ⟨203, 2, 0, 0, 15⟩,
    ⟨203, 4, 0, 0, 14⟩, ⟨203, 8, 0, 0, 13⟩, ⟨203, 16, 0, 0, 12⟩, ⟨203, 32, 0, 0, 11⟩,
    ⟨203, 64, 0, 0, 10⟩, ⟨203, 128, 0, 0, 9⟩, ⟨204, 0, 0, 0, 6⟩, ⟨208, 0, 0, 0, 4⟩]

/-- `PRIVATE_VLAN4_ROUTER`. -/
def privateVlan4Router : Cidr := ⟨172, 19, 0, 2, 32⟩

/-- The routes `Acl.ALL`, `Acl.BYPASS_CHN` and `Acl.CUSTOM_RULES`, which take every address. -/
def takesAll (route : String) : Bool :=
  route = "all" || route = "bypass-china" || route = "custom-rules"

/-- A subnet of IPv6 whose address has one byte set. -/
def subnet6 (first : UInt8) (p : Fin 129) : Subnet where
  address := ⟨first :: List.replicate 15 0, Or.inr rfl⟩
  prefixSize := p
  valid := Nat.le_of_lt_succ p.isLt

/-- The routes of `startVpn`, `bg/VpnService.kt:192`; an entry that is no subnet throws. -/
def routes (parseNumericAddress : String → Option InetAddress) (route : String) (ipv6 : Bool) :
    Except String (List Subnet) :=
  if takesAll route then
    .ok (Cidr.subnet ⟨0, 0, 0, 0, 0⟩ :: if ipv6 then [subnet6 0 0] else [])
  else do
    let subnets ← bypassPrivateRoute.mapM fun it ↦ do
      match ← Subnet.fromString parseNumericAddress it.text (-1) with
      | some subnet => return subnet
      | none => throw "NullPointerException"
    return subnets ++ privateVlan4Router.subnet ::
      if ipv6 then [subnet6 0x20 3] else []

/-- What the table leaves out: this host, private and shared networks, two resolvers' networks,
loopback, link-local, documentation, benchmarking and anycast relays, multicast and beyond. -/
def leftOut : List Cidr :=
  [⟨0, 0, 0, 0, 8⟩, ⟨10, 0, 0, 0, 8⟩, ⟨100, 64, 0, 0, 10⟩, ⟨112, 124, 47, 0, 24⟩,
    ⟨114, 114, 114, 0, 24⟩, ⟨127, 0, 0, 0, 8⟩, ⟨169, 254, 0, 0, 16⟩, ⟨172, 16, 0, 0, 12⟩,
    ⟨192, 0, 0, 0, 29⟩, ⟨192, 0, 2, 0, 24⟩, ⟨192, 88, 99, 0, 24⟩, ⟨192, 168, 0, 0, 16⟩,
    ⟨198, 18, 0, 0, 15⟩, ⟨198, 51, 100, 0, 24⟩, ⟨203, 0, 113, 0, 24⟩, ⟨224, 0, 0, 0, 3⟩]

/-! ### Routes as blocks of numbers -/

namespace Cidr

/-- The numbers of the addresses of an entry. -/
def block (k : Cidr) : Block := ⟨natOfBytes k.subnet.address.bytes, 2 ^ (32 - k.p.val)⟩

/-- No bit outside the prefix is set. -/
def canonical (k : Cidr) : Bool := natOfBytes k.subnet.address.bytes % 2 ^ (32 - k.p.val) = 0

/-- An entry matches the addresses whose numbers are in its block. -/
theorem matches_iff_has {k : Cidr} (hk : k.canonical = true) {x : List UInt8}
    (hx : x.length = 4) :
    k.subnet.toImmutable.matches x = true ↔ k.block.Has (natOfBytes x) := by
  have hw := Nat.two_pow_pos (32 - k.p.val)
  have hd : natOfBytes k.subnet.address.bytes % 2 ^ (32 - k.p.val) = 0 := by
    simpa [canonical] using hk
  have hlen : k.subnet.address.bytes.length = 4 := rfl
  rw [Subnet.matches_toImmutable_iff, leading, leading, hx, hlen, Block.Has, block]
  change 4 = 4 ∧ _ / 2 ^ (32 - k.p.val) = _ / 2 ^ (32 - k.p.val) ↔ _
  dsimp only
  generalize 2 ^ (32 - k.p.val) = w at hw hd
  generalize natOfBytes k.subnet.address.bytes = first at hd
  obtain ⟨q, rfl⟩ := Nat.dvd_of_mod_eq_zero hd
  rw [Nat.mul_div_cancel_left q hw, Nat.div_eq_iff hw]
  constructor
  · rintro ⟨_, h⟩
    constructor <;> lia
  · rintro h
    refine ⟨rfl, ?_⟩
    constructor <;> lia

end Cidr

/-- No entry has a bit outside its prefix, which the builder would refuse. -/
theorem canonical_table : ∀ k ∈ bypassPrivateRoute ++ leftOut, k.canonical = true := by
  decide +kernel

/-- The entries and what they leave out tile the numbers of all addresses. -/
theorem tiles_table :
    tiles (((bypassPrivateRoute ++ leftOut).map Cidr.block).insertionSort
      fun k k' ↦ k.first ≤ k'.first) 0 (2 ^ 32) = true := by
  decide +kernel

/-- How many of some entries match an address. -/
def countMatches (ks : List Cidr) (x : List UInt8) : Nat :=
  ks.countP fun k ↦ k.subnet.toImmutable.matches x

/-- Every address is matched once, by an entry of the table or by one of what it leaves out. -/
theorem countMatches_table {x : List UInt8} (hx : x.length = 4) :
    countMatches bypassPrivateRoute x + countMatches leftOut x = 1 := by
  have hlt : natOfBytes x < 2 ^ 32 := by
    have h := natOfBytes_lt x
    rw [hx] at h
    exact h
  have hone := length_filter_has tiles_table (Nat.zero_le _) hlt
  have hperm := List.perm_insertionSort (fun k k' : Block ↦ k.first ≤ k'.first)
    ((bypassPrivateRoute ++ leftOut).map Cidr.block)
  rw [← List.countP_eq_length_filter, hperm.countP_eq, List.countP_map] at hone
  have hcount : countMatches (bypassPrivateRoute ++ leftOut) x = 1 := by
    rw [← hone, countMatches]
    apply List.countP_congr
    intro k hk
    simpa using Cidr.matches_iff_has (canonical_table k hk) hx
  rw [countMatches, List.countP_append] at hcount
  exact hcount

/-! ### Which addresses go through the tunnel -/

/-- The system reads four numbers with dots between them as the address of these bytes. -/
def ReadsDotted (parseNumericAddress : String → Option InetAddress) : Prop :=
  ∀ a b c d, parseNumericAddress (Cidr.dotted a b c d) = some (.ipv4 a b c d)

/-- Every entry of the table is read. -/
theorem fromString_text {parseNumericAddress : String → Option InetAddress}
    (h : ReadsDotted parseNumericAddress) (k : Cidr) :
    Subnet.fromString parseNumericAddress k.text (-1) = .ok (some k.subnet) := by
  apply Subnet.fromString_append_slash k.subnet (h k.a k.b k.c k.d)
  simp only [Cidr.dotted, String.toList_append, List.mem_append,
    Numeral.notMem_repr (c := '/') rfl]
  decide

/-- Where not every address is routed, the routes are the table, the router and, with IPv6, one
more. -/
private theorem routes_eq {parseNumericAddress : String → Option InetAddress}
    (h : ReadsDotted parseNumericAddress) {route : String} (hr : takesAll route = false)
    (ipv6 : Bool) :
    routes parseNumericAddress route ipv6 = .ok (bypassPrivateRoute.map Cidr.subnet ++
      privateVlan4Router.subnet :: if ipv6 then [subnet6 0x20 3] else []) := by
  have hmap : (bypassPrivateRoute.mapM fun it ↦ do
      match ← Subnet.fromString parseNumericAddress it.text (-1) with
      | some subnet => return subnet
      | none => throw "NullPointerException") = Except.ok (bypassPrivateRoute.map Cidr.subnet) := by
    simp only [fromString_text h]
    exact List.mapM_pure
  rw [routes, hr, if_neg Bool.false_ne_true, hmap]
  rfl

/-- The routes of IPv6 match no IPv4 address. -/
private theorem matches_subnet6 (first : UInt8) (p : Fin 129) {x : List UInt8}
    (hx : x.length = 4) : (subnet6 first p).toImmutable.matches x = false := by
  rw [← Bool.not_eq_true, Subnet.matches_toImmutable_iff, hx]
  rintro ⟨h, _⟩
  cases h

private theorem countP_subnet6 (ipv6 : Bool) (first : UInt8) (p : Fin 129) {x : List UInt8}
    (hx : x.length = 4) :
    ((if ipv6 then [subnet6 first p] else []).countP fun r ↦ r.toImmutable.matches x) = 0 := by
  cases ipv6 with
  | false => rfl
  | true => simp [matches_subnet6 first p hx]

private theorem matches_router_iff {x : List UInt8} (hx : x.length = 4) :
    privateVlan4Router.subnet.toImmutable.matches x = true ↔ x = [172, 19, 0, 2] := by
  have hlen : x.length = [172, 19, 0, 2].length := hx
  rw [Subnet.matches_toImmutable_iff, ← natOfBytes_inj hlen, ← leading_all x,
    ← leading_all [172, 19, 0, 2], hx]
  exact and_iff_right rfl

/-- The router is in a network that the table leaves out. -/
private theorem countMatches_router : countMatches bypassPrivateRoute [172, 19, 0, 2] = 0 := by
  have h := countMatches_table (x := [172, 19, 0, 2]) rfl
  have hl : countMatches leftOut [172, 19, 0, 2] = 1 := by decide +kernel
  omega

/-- The routes of the tunnel have no bit set outside their prefixes, and each IPv4 address is in
exactly one of them or in none: in one if the profile takes every address, for the router of the
tunnel, and for every address outside the networks that the table leaves out. -/
theorem routes_cover_once (parseNumericAddress : String → Option InetAddress)
    (h : ReadsDotted parseNumericAddress) (route : String) (ipv6 : Bool) :
    ∃ rs, routes parseNumericAddress route ipv6 = .ok rs ∧
      (∀ r ∈ rs, r.toImmutable.a = r.address.bytes) ∧
      ∀ x : List UInt8, x.length = 4 → (rs.countP fun r ↦ r.toImmutable.matches x) =
        if takesAll route ∨ x = [172, 19, 0, 2] ∨
          ∀ k ∈ leftOut, k.subnet.toImmutable.matches x = false then 1 else 0 := by
  cases hr : takesAll route with
  | true =>
    refine ⟨_, by rw [routes, hr, if_pos rfl], ?_, ?_⟩
    · cases ipv6 <;> decide +kernel
    · intro x hx
      have hall : (Cidr.subnet ⟨0, 0, 0, 0, 0⟩).toImmutable.matches x = true := by
        rw [Subnet.matches_toImmutable_iff]
        exact ⟨hx, by simp [Cidr.subnet, leading_zero]⟩
      simp [hall, countP_subnet6 ipv6 0 0 hx]
  | false =>
    refine ⟨_, routes_eq h hr ipv6, ?_, ?_⟩
    · have htable : ∀ k ∈ bypassPrivateRoute, k.subnet.toImmutable.a = k.subnet.address.bytes := by
        decide +kernel
      intro r hm
      rcases List.mem_append.mp hm with hm | hm
      · obtain ⟨k, hk, rfl⟩ := List.mem_map.mp hm
        exact htable k hk
      · revert r
        cases ipv6 <;> decide +kernel
    · intro x hx
      have htotal := countMatches_table hx
      have hleft : countMatches leftOut x = 0 ↔
          ∀ k ∈ leftOut, k.subnet.toImmutable.matches x = false := by
        simp [countMatches, List.countP_eq_zero]
      rw [List.countP_append, List.countP_map, List.countP_cons, countP_subnet6 ipv6 0x20 3 hx]
      change countMatches bypassPrivateRoute x + _ = _
      simp only [← hleft]
      by_cases hrouter : x = [172, 19, 0, 2]
      · subst hrouter
        rw [countMatches_router, if_pos ((matches_router_iff hx).mpr rfl)]
        simp
      · rw [if_neg fun hm ↦ hrouter ((matches_router_iff hx).mp hm)]
        simp only [hrouter, Bool.false_eq_true, false_or]
        split <;> omega

theorem readsDotted_inetPton : ReadsDotted inetPton := by
  intro a b c d
  apply inetPton_dottedText
  simp [Cidr.dotted, dottedText, List.intercalate]

theorem routes_cover_once_bypass_lan :
    ∃ rs, routes inetPton "bypass-lan" true = .ok rs ∧
      (∀ r ∈ rs, r.toImmutable.a = r.address.bytes) ∧
      ∀ x : List UInt8, x.length = 4 → (rs.countP fun r ↦ r.toImmutable.matches x) =
        if takesAll "bypass-lan" ∨ x = [172, 19, 0, 2] ∨
          ∀ k ∈ leftOut, k.subnet.toImmutable.matches x = false then 1 else 0 :=
  routes_cover_once inetPton readsDotted_inetPton "bypass-lan" true

end FastSearch.Net
