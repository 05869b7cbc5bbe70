/-!
# UTF-8 decoding with replacement

Decoding of arbitrary bytes as the Encoding Standard has it: where no character can be read, one
U+FFFD stands for the longest part of a character that begins there. A sequence of characters
and loose bytes decodes to at most as many characters, and characters alone decode to
themselves.
-/

namespace Utf8Decode

/-- The ranges of the bytes that may follow a first byte. -/
def wanted (b : UInt8) : List (UInt8 × UInt8) :=
  if 0xC2 ≤ b ∧ b ≤ 0xDF then [(0x80, 0xBF)]
  else if 0xE0 ≤ b ∧ b ≤ 0xEF then
    [(if b = 0xE0 then 0xA0 else 0x80, if b = 0xED then 0x9F else 0xBF), (0x80, 0xBF)]
  else if 0xF0 ≤ b ∧ b ≤ 0xF4 then
    [(if b = 0xF0 then 0x90 else 0x80, if b = 0xF4 then 0x8F else 0xBF), (0x80, 0xBF), (0x80, 0xBF)]
  else []

/-- How many of the bytes are in their ranges, up to the first that is not. -/
def accepted : List (UInt8 × UInt8) → List UInt8 → Nat
  | r :: ranges, b :: bs => if r.1 ≤ b ∧ b ≤ r.2 then accepted ranges bs + 1 else 0
  | _, _ => 0

/-- The characters of some bytes; the first argument is how many of them are still to be
skipped. -/
def decode : Nat → List UInt8 → List Char
  | _, [] => []
  | skip + 1, _ :: bs => decode skip bs
  | 0, b :: bs =>
    match (b :: bs).toByteArray.utf8DecodeChar? 0 with
    | some c => c :: decode (c.utf8Size - 1) bs
    | none => '\uFFFD' :: decode (accepted (wanted b) bs) bs

theorem decode_eq_drop (skip : Nat) (bs : List UInt8) :
    decode skip bs = decode 0 (bs.drop skip) := by
  induction bs generalizing skip with
  | nil => cases skip <;> rfl
  | cons b bs ih =>
    cases skip with
    | zero => rfl
    | succ skip => exact ih skip

/-- A character is read back. -/
theorem decode_utf8EncodeChar_append (c : Char) (bs : List UInt8) :
    decode 0 (String.utf8EncodeChar c ++ bs) = c :: decode 0 bs := by
  have hc : (String.utf8EncodeChar c ++ bs).toByteArray.utf8DecodeChar? 0 = some c := by
    rw [List.toByteArray_append]
    exact ByteArray.utf8DecodeChar?_utf8EncodeChar_append
  have hlen := String.length_utf8EncodeChar c
  cases he : String.utf8EncodeChar c with
  | nil => exact absurd he String.utf8EncodeChar_ne_nil
  | cons b tail =>
    rw [he] at hc hlen
    rw [List.cons_append] at hc ⊢
    rw [decode, hc]
    show c :: decode (c.utf8Size - 1) (tail ++ bs) = c :: decode 0 bs
    rw [List.length_cons] at hlen
    rw [decode_eq_drop, ← hlen, Nat.add_sub_cancel, List.drop_left]

/-! ### Characters and loose bytes -/

/-- A character, or a byte on its own. -/
inductive Piece where
  | char (c : Char)
  | byte (b : UInt8)
  deriving DecidableEq, Repr

/-- The bytes of a piece. -/
def Piece.bytes : Piece → List UInt8
  | .char c => String.utf8EncodeChar c
  | .byte b => [b]

/-- Characters are read back. -/
theorem decode_chars (cs : List Char) :
    decode 0 ((cs.map Piece.char).flatMap Piece.bytes) = cs := by
  induction cs with
  | nil => rfl
  | cons c cs ih =>
    rw [List.map_cons, List.flatMap_cons]
    exact (decode_utf8EncodeChar_append c _).trans (congrArg _ ih)

private theorem not_isUTF8FirstByte_of_range {b : UInt8} (h : 0x80 ≤ b ∧ b ≤ 0xBF) :
    ¬ b.IsUTF8FirstByte := by
  have hall : ∀ n : Fin 256, 0x80 ≤ n.val ∧ n.val ≤ 0xBF →
      ¬ (UInt8.ofNat n.val).IsUTF8FirstByte := by decide +kernel
  have hb := hall ⟨b.toNat, b.toNat_lt⟩ ⟨h.1, h.2⟩
  rwa [UInt8.ofNat_toNat] at hb

private theorem wanted_range (b : UInt8) :
    ∀ r ∈ wanted b, 0x80 ≤ r.1 ∧ r.2 ≤ 0xBF := by
  have hlo : ∀ (p : Prop) [Decidable p] (lo : UInt8), 0x80 ≤ lo →
      0x80 ≤ if p then lo else (0x80 : UInt8) := by
    intro p _ lo h
    split
    · exact h
    · exact UInt8.le_refl _
  have hhi : ∀ (p : Prop) [Decidable p] (hi : UInt8), hi ≤ 0xBF →
      (if p then hi else (0xBF : UInt8)) ≤ 0xBF := by
    intro p _ hi h
    split
    · exact h
    · exact UInt8.le_refl _
  have hrest : (0x80 : UInt8) ≤ 0x80 ∧ (0xBF : UInt8) ≤ 0xBF := ⟨UInt8.le_refl _, UInt8.le_refl _⟩
  unfold wanted
  split
  · rw [List.forall_mem_singleton]
    exact hrest
  · split
    · rw [List.forall_mem_cons, List.forall_mem_singleton]
      exact ⟨⟨hlo _ 0xA0 (by decide), hhi _ 0x9F (by decide)⟩, hrest⟩
    · split
      · rw [List.forall_mem_cons, List.forall_mem_cons, List.forall_mem_singleton]
        exact ⟨⟨hlo _ 0x90 (by decide), hhi _ 0x8F (by decide)⟩, hrest, hrest⟩
      · simp

private theorem accepted_le (ranges : List (UInt8 × UInt8)) (bs : List UInt8) :
    accepted ranges bs ≤ bs.length := by
  induction bs generalizing ranges with
  | nil => cases ranges <;> exact Nat.le_refl 0
  | cons b bs ih =>
    cases ranges with
    | nil => exact Nat.zero_le _
    | cons r ranges =>
      rw [accepted]
      split
      · exact Nat.succ_le_succ (ih ranges)
      · exact Nat.zero_le _

/-- What the decoder skips after a first byte cannot begin a character. -/
private theorem not_first_of_accepted {ranges : List (UInt8 × UInt8)}
    (hr : ∀ r ∈ ranges, 0x80 ≤ r.1 ∧ r.2 ≤ 0xBF) (bs : List UInt8) :
    ∀ b ∈ bs.take (accepted ranges bs), ¬ b.IsUTF8FirstByte := by
  induction bs generalizing ranges with
  | nil => simp
  | cons b bs ih =>
    cases ranges with
    | nil => simp [accepted]
    | cons r ranges =>
      rw [accepted]
      split
      · next hb =>
        rw [List.take_succ_cons, List.forall_mem_cons]
        have hr0 := hr r List.mem_cons_self
        exact ⟨not_isUTF8FirstByte_of_range ⟨UInt8.le_trans hr0.1 hb.1, UInt8.le_trans hb.2 hr0.2⟩,
          ih fun r hr' ↦ hr r (List.mem_cons_of_mem _ hr')⟩
      · simp

/-- Bytes that cannot begin a character are pieces of their own. -/
private theorem exists_drop {n : Nat} {ps : List Piece} (hn : n ≤ (ps.flatMap Piece.bytes).length)
    (h : ∀ b ∈ (ps.flatMap Piece.bytes).take n, ¬ b.IsUTF8FirstByte) :
    ∃ qs : List Piece, qs.flatMap Piece.bytes = (ps.flatMap Piece.bytes).drop n ∧
      qs.length ≤ ps.length := by
  induction n generalizing ps with
  | zero => exact ⟨ps, rfl, Nat.le_refl _⟩
  | succ n ih =>
    cases ps with
    | nil => exact absurd hn (Nat.not_succ_le_zero n)
    | cons p ps =>
      rw [List.flatMap_cons] at hn h ⊢
      cases p with
      | char c =>
        -- the first byte of a character can begin one
        have hpos : 0 < (String.utf8EncodeChar c).length := by
          rw [String.length_utf8EncodeChar]
          exact c.utf8Size_pos
        have hfirst : (String.utf8EncodeChar c)[0].IsUTF8FirstByte :=
          UInt8.isUTF8FirstByte_getElem_utf8EncodeChar.mpr rfl
        refine absurd hfirst (h _ ?_)
        rw [Piece.bytes, List.take_append, List.mem_append]
        exact Or.inl (List.mem_take_iff_getElem.mpr ⟨0, by omega, rfl⟩)
      | byte b =>
        have hn' : n ≤ (ps.flatMap Piece.bytes).length := Nat.le_of_succ_le_succ hn
        obtain ⟨qs, hqs, hlen⟩ := ih hn' fun b' hb' ↦ h b' (List.mem_cons_of_mem _ hb')
        exact ⟨qs, hqs, Nat.le_succ_of_le hlen⟩

/-- What the decoder skips after reading a character cannot begin a character. -/
private theorem not_first_of_decoded {b : UInt8} {bs : List UInt8} {c : Char}
    (h : (b :: bs).toByteArray.utf8DecodeChar? 0 = some c) :
    c.utf8Size - 1 ≤ bs.length ∧ ∀ b' ∈ bs.take (c.utf8Size - 1), ¬ b'.IsUTF8FirstByte := by
  obtain ⟨rest, hrest⟩ := ByteArray.exists_of_utf8DecodeChar?_eq_some h
  have hbs : b :: bs = String.utf8EncodeChar c ++ rest.data.toList := by
    have hdata := congrArg (·.data.toList) hrest
    simpa using hdata
  have hlen := String.length_utf8EncodeChar c
  have hnot : ∀ i, 0 < i → ∀ hi : i < (String.utf8EncodeChar c).length,
      ¬ (String.utf8EncodeChar c)[i].IsUTF8FirstByte := by
    intro i hpos hi hfirst
    exact Nat.ne_of_gt hpos (UInt8.isUTF8FirstByte_getElem_utf8EncodeChar.mp hfirst)
  cases he : String.utf8EncodeChar c with
  | nil => exact absurd he String.utf8EncodeChar_ne_nil
  | cons b0 tail =>
    simp only [he] at hbs hlen hnot
    rw [List.length_cons] at hlen
    rw [List.cons_append] at hbs
    rw [(List.cons.inj hbs).2, ← hlen, Nat.add_sub_cancel]
    refine ⟨by simp, ?_⟩
    rw [List.take_left]
    intro b' hb'
    obtain ⟨i, hi, rfl⟩ := List.getElem_of_mem hb'
    exact hnot (i + 1) (Nat.succ_pos i) (Nat.succ_lt_succ hi)

/-- Pieces decode to at most as many characters. -/
theorem length_decode_le (ps : List Piece) :
    (decode 0 (ps.flatMap Piece.bytes)).length ≤ ps.length := by
  generalize hn : ps.length = n
  induction n using Nat.strongRecOn generalizing ps with
  | ind n ih =>
    subst hn
    cases ps with
    | nil => exact Nat.le_refl 0
    | cons p ps =>
      have hrest : ∀ k ≤ (ps.flatMap Piece.bytes).length,
          (∀ b ∈ (ps.flatMap Piece.bytes).take k, ¬ b.IsUTF8FirstByte) →
          (decode k (ps.flatMap Piece.bytes)).length ≤ ps.length := by
        intro k hk hfirst
        obtain ⟨qs, hqs, hlen⟩ := exists_drop hk hfirst
        rw [decode_eq_drop, ← hqs]
        exact Nat.le_trans (ih qs.length (Nat.lt_succ_of_le hlen) qs rfl) hlen
      rw [List.flatMap_cons, List.length_cons]
      cases p with
      | char c =>
        rw [Piece.bytes, decode_utf8EncodeChar_append, List.length_cons]
        exact Nat.succ_le_succ (ih ps.length (Nat.lt_succ_self _) ps rfl)
      | byte b =>
        rw [Piece.bytes, List.singleton_append, decode]
        split
        · next c hc =>
          obtain ⟨hle, hfirst⟩ := not_first_of_decoded hc
          exact Nat.succ_le_succ (hrest _ hle hfirst)
        · have hfirst := not_first_of_accepted (wanted_range b) (ps.flatMap Piece.bytes)
          exact Nat.succ_le_succ (hrest _ (accepted_le _ _) hfirst)

end Utf8Decode
