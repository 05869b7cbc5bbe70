import FastSearch.Lib.ByteOrder

/-!
# Leading bits

The number that the first bits of some bytes are, most significant bit first, and tilings of an
interval of numbers by blocks.
-/

namespace BitPrefix

open ByteOrder

/-- The number of the first `p` bits. -/
def leading (p : Nat) (bs : List UInt8) : Nat := natOfBytes bs / 2 ^ (8 * bs.length - p)

private theorem pow_length (n : Nat) : 256 ^ n = 2 ^ (8 * n) := by
  rw [Nat.pow_mul]

theorem leading_lt {p : Nat} {bs : List UInt8} (h : p ≤ 8 * bs.length) : leading p bs < 2 ^ p := by
  rw [leading, Nat.div_lt_iff_lt_mul (Nat.two_pow_pos _), ← Nat.pow_add, Nat.add_sub_cancel' h,
    ← pow_length]
  exact natOfBytes_lt bs

/-- No bit makes the number zero. -/
theorem leading_zero (bs : List UInt8) : leading 0 bs = 0 := by
  have h := leading_lt (Nat.zero_le (8 * bs.length))
  rw [Nat.pow_zero] at h
  omega

/-- All bits make the number of the bytes. -/
theorem leading_all (bs : List UInt8) : leading (8 * bs.length) bs = natOfBytes bs := by
  rw [leading, Nat.sub_self, Nat.pow_zero, Nat.div_one]

/-- A whole byte comes first. -/
theorem leading_cons_of_le {p : Nat} {b : UInt8} {bs : List UInt8} (h : 8 ≤ p)
    (hp : p ≤ 8 * (bs.length + 1)) :
    leading p (b :: bs) = b.toNat * 2 ^ (p - 8) + leading (p - 8) bs := by
  have hk : 8 * bs.length = (p - 8) + (8 * (bs.length + 1) - p) := by omega
  have hk' : 8 * bs.length - (p - 8) = 8 * (bs.length + 1) - p := by omega
  rw [leading, leading, natOfBytes_cons, List.length_cons, hk', pow_length, hk, Nat.pow_add,
    ← Nat.mul_assoc, Nat.add_comm, Nat.add_mul_div_right _ _ (Nat.two_pow_pos _), Nat.add_comm]

/-- Less than a byte comes first. -/
theorem leading_cons_of_lt {p : Nat} {b : UInt8} {bs : List UInt8} (h : p < 8) :
    leading p (b :: bs) = b.toNat / 2 ^ (8 - p) := by
  have hk : 8 * (bs.length + 1) - p = 8 * bs.length + (8 - p) := by omega
  have hlt := natOfBytes_lt bs
  rw [pow_length] at hlt
  rw [leading, natOfBytes_cons, List.length_cons, hk, Nat.pow_add, ← Nat.div_div_eq_div_mul,
    pow_length, Nat.add_comm, Nat.add_mul_div_right _ _ (Nat.two_pow_pos _),
    Nat.div_eq_of_lt hlt, Nat.zero_add]

/-- With the same number of bytes, equal first bits are equal first bytes and equal first bits
after them. -/
theorem leading_cons_eq_iff {p : Nat} {a b : UInt8} {as bs : List UInt8} (h : 8 ≤ p)
    (hlen : as.length = bs.length) (hp : p ≤ 8 * (bs.length + 1)) :
    leading p (a :: as) = leading p (b :: bs) ↔
      a = b ∧ leading (p - 8) as = leading (p - 8) bs := by
  have ha : leading (p - 8) as < 2 ^ (p - 8) := leading_lt (by omega)
  have hb : leading (p - 8) bs < 2 ^ (p - 8) := leading_lt (by omega)
  rw [leading_cons_of_le h (hlen ▸ hp), leading_cons_of_le h hp]
  constructor
  · intro he
    have hd := congrArg (· / 2 ^ (p - 8)) he
    have hm := congrArg (· % 2 ^ (p - 8)) he
    simp only [Nat.mul_comm _ (2 ^ (p - 8)), Nat.mul_add_mod, Nat.mod_eq_of_lt ha,
      Nat.mod_eq_of_lt hb] at hm
    simp only [Nat.mul_comm _ (2 ^ (p - 8)), Nat.mul_add_div (Nat.two_pow_pos _),
      Nat.div_eq_of_lt ha, Nat.div_eq_of_lt hb, Nat.add_zero] at hd
    exact ⟨UInt8.toNat_inj.mp hd, hm⟩
  · rintro ⟨rfl, he⟩
    rw [he]

/-- Bytes of one length with the same number are the same. -/
theorem natOfBytes_inj {as bs : List UInt8} (hlen : as.length = bs.length) :
    natOfBytes as = natOfBytes bs ↔ as = bs := by
  induction as generalizing bs with
  | nil =>
    cases bs with
    | nil => simp
    | cons b bs => cases hlen
  | cons a as ih =>
    cases bs with
    | nil => cases hlen
    | cons b bs =>
      have hlen' : as.length = bs.length := Nat.succ.inj hlen
      have hp : 8 * (bs.length + 1) - 8 = 8 * bs.length := by omega
      rw [← leading_all (a :: as), ← leading_all (b :: bs), List.length_cons, List.length_cons, hlen',
        leading_cons_eq_iff (by omega) hlen' (Nat.le_refl _), hp, leading_all]
      nth_rewrite 1 [← hlen']
      rw [leading_all, ih hlen', List.cons.injEq]

/-! ### Tilings -/

/-- A block of numbers: the first one, and how many there are. -/
structure Block where
  first : Nat
  size : Nat
  deriving DecidableEq, Repr

/-- The number is in the block. -/
def Block.Has (k : Block) (x : Nat) : Prop := k.first ≤ x ∧ x < k.first + k.size

instance (k : Block) (x : Nat) : Decidable (k.Has x) := inferInstanceAs (Decidable (_ ∧ _))

/-- Each block begins where the one before it ends; the first begins at `lo`, the last ends at
`hi`. -/
def tiles : List Block → Nat → Nat → Bool
  | [], lo, hi => lo = hi
  | k :: ks, lo, hi => k.first = lo && tiles ks (lo + k.size) hi

private theorem lo_le_first {ks : List Block} {lo hi : Nat} (h : tiles ks lo hi = true) :
    ∀ k ∈ ks, lo ≤ k.first := by
  induction ks generalizing lo with
  | nil => simp
  | cons k ks ih =>
    simp only [tiles, Bool.and_eq_true, decide_eq_true_eq] at h
    intro k' hk'
    rcases List.mem_cons.mp hk' with rfl | hk'
    · exact h.1.ge
    · have hle := ih h.2 k' hk'
      omega

/-- Every number of the interval is in exactly one block. -/
theorem length_filter_has {ks : List Block} {lo hi : Nat} (h : tiles ks lo hi = true) {x : Nat}
    (hlo : lo ≤ x) (hhi : x < hi) : (ks.filter fun k ↦ k.Has x).length = 1 := by
  induction ks generalizing lo with
  | nil =>
    simp only [tiles, decide_eq_true_eq] at h
    omega
  | cons k ks ih =>
    simp only [tiles, Bool.and_eq_true, decide_eq_true_eq] at h
    by_cases hx : k.Has x
    · have hnone : ks.filter (fun k ↦ k.Has x) = [] := by
        rw [List.filter_eq_nil_iff]
        intro k' hk' hhas
        have hle := lo_le_first h.2 k' hk'
        have hge := (of_decide_eq_true hhas).1
        have hlt := hx.2
        omega
      rw [List.filter_cons_of_pos (by simpa using hx), hnone]
      rfl
    · rw [List.filter_cons_of_neg (by simpa using hx)]
      apply ih h.2
      simp only [Block.Has] at hx
      omega

end BitPrefix
