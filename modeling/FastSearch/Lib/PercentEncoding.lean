import FastSearch.Lib.Utf8Decode

/-!
# Percent-encoded components

The percent-encoding of a query by the URL Standard, and the decoding of a name or a value by
the parser of `application/x-www-form-urlencoded`. Texts are lists of characters. The encoding
leaves `&`, `=`, `+` and `%` alone, so a text with an escape or a `+` is not read back.
-/

namespace FormUrl

open Utf8Decode

/-! ### Percent-encoding -/

/-- The value of a hexadecimal digit. -/
def hexValue (n : Nat) : Option Nat :=
  if 0x30 ≤ n ∧ n ≤ 0x39 then some (n - 0x30)
  else if 0x41 ≤ n ∧ n ≤ 0x46 then some (n - 0x37)
  else if 0x61 ≤ n ∧ n ≤ 0x66 then some (n - 0x57)
  else none

/-- The byte that the two digits after a `%` stand for. -/
def escape : List Nat → Option UInt8
  | h :: l :: _ => (hexValue h).bind fun x ↦ (hexValue l).map fun y ↦ UInt8.ofNat (16 * x + y)
  | _ => none

/-- A hexadecimal digit. -/
def hexDigit (n : Nat) : UInt8 := UInt8.ofNat (if n < 10 then 0x30 + n else 0x37 + n)

/-- A percent-encoded byte. -/
def percentEncodeByte (b : UInt8) : List UInt8 :=
  [0x25, hexDigit (b.toNat / 16), hexDigit (b.toNat % 16)]

/-- The special-query percent-encode set. -/
def inQuerySet (c : Char) : Bool :=
  c.toNat ≤ 0x20 || 0x7E < c.toNat || [0x22, 0x23, 0x27, 0x3C, 0x3E].contains c.toNat

/-- A character of a query. -/
def encodeChar (c : Char) : List UInt8 :=
  if inQuerySet c then (String.utf8EncodeChar c).flatMap percentEncodeByte else [c.toUInt8]

/-- A query as the parser of URLs leaves it. -/
def encode (cs : List Char) : List UInt8 := cs.flatMap encodeChar

/-- Percent-decoding; the first argument is how many bytes are still to be skipped. -/
def percentDecode : Nat → List UInt8 → List UInt8
  | _, [] => []
  | skip + 1, _ :: bs => percentDecode skip bs
  | 0, b :: bs =>
    match if b = 0x25 then escape (bs.map UInt8.toNat) else none with
    | some x => x :: percentDecode 2 bs
    | none => b :: percentDecode 0 bs

/-- `+` stands for a space. -/
def plusToSpace (b : UInt8) : UInt8 := if b = 0x2B then 0x20 else b

/-- A name or a value of a form. -/
def decodeComponent (bs : List UInt8) : List Char :=
  decode 0 (percentDecode 0 (bs.map plusToSpace))

/-! ### The encoding of a character -/

/-- A digit has its value and is none of the separators. -/
private theorem hexDigit_spec : ∀ n < 16, hexValue (hexDigit n).toNat = some n ∧
    hexDigit n ≠ 0x26 ∧ hexDigit n ≠ 0x2B ∧ hexDigit n ≠ 0x3D := by
  decide

/-- A percent-encoded byte has its two digits after the `%`, and none of the separators. -/
private theorem percentEncodeByte_spec (b : UInt8) :
    escape ((percentEncodeByte b).tail.map UInt8.toNat) = some b ∧
      ∀ s ∈ percentEncodeByte b, s ≠ 0x26 ∧ s ≠ 0x2B ∧ s ≠ 0x3D := by
  have hb : b.toNat < 256 := b.toNat_lt
  obtain ⟨hh, hhs⟩ := hexDigit_spec (b.toNat / 16) (by omega)
  obtain ⟨hl, hls⟩ := hexDigit_spec (b.toNat % 16) (by omega)
  constructor
  · have hsum : 16 * (b.toNat / 16) + b.toNat % 16 = b.toNat := Nat.div_add_mod _ _
    show ((hexValue (hexDigit (b.toNat / 16)).toNat).bind fun x ↦
      (hexValue (hexDigit (b.toNat % 16)).toNat).map fun y ↦ UInt8.ofNat (16 * x + y)) = some b
    rw [hh, Option.bind_some, hl, Option.map_some, hsum, UInt8.ofNat_toNat]
  · rw [percentEncodeByte, List.forall_mem_cons, List.forall_mem_cons, List.forall_mem_singleton]
    exact ⟨by decide, hhs, hls⟩

private theorem encodeChar_of_inQuerySet {c : Char} (h : inQuerySet c = true) :
    encodeChar c = (String.utf8EncodeChar c).flatMap percentEncodeByte := by
  rw [encodeChar, if_pos h]

/-- Outside the set a character is its own byte. -/
private theorem encodeChar_of_not_inQuerySet {c : Char} (h : inQuerySet c = false) :
    encodeChar c = [c.toUInt8] ∧ String.utf8EncodeChar c = [c.toUInt8] ∧
      c.toUInt8.toNat = c.toNat := by
  have hlt : c.toNat ≤ 0x7E := by
    simp only [inQuerySet, Bool.or_eq_false_iff, decide_eq_false_iff_not] at h
    omega
  have hsize : c.utf8Size = 1 := by
    rw [Char.utf8Size_eq_one_iff, UInt32.le_iff_toNat_le]
    exact Nat.le_trans hlt (by decide)
  refine ⟨?_, String.utf8EncodeChar_eq_singleton hsize, ?_⟩
  · rw [encodeChar, h]
    rfl
  · exact Nat.mod_eq_of_lt (Nat.lt_of_le_of_lt hlt (by decide))

private theorem percentDecode_percentEncodeByte (b : UInt8) (rest : List UInt8) :
    percentDecode 0 (percentEncodeByte b ++ rest) = b :: percentDecode 0 rest := by
  have he : escape ((hexDigit (b.toNat / 16) :: hexDigit (b.toNat % 16) :: rest).map UInt8.toNat) =
      some b := (percentEncodeByte_spec b).1
  rw [percentEncodeByte, List.cons_append, List.cons_append, List.cons_append, List.nil_append,
    percentDecode, if_pos rfl, he]
  rfl

private theorem percentDecode_flatMap_percentEncodeByte (bs rest : List UInt8) :
    percentDecode 0 (bs.flatMap percentEncodeByte ++ rest) = bs ++ percentDecode 0 rest := by
  induction bs with
  | nil => rfl
  | cons b bs ih =>
    rw [List.flatMap_cons, List.append_assoc, percentDecode_percentEncodeByte, ih]
    rfl

private theorem map_plusToSpace_percentEncode (bs : List UInt8) :
    (bs.flatMap percentEncodeByte).map plusToSpace = bs.flatMap percentEncodeByte := by
  have hid : ∀ s ∈ bs.flatMap percentEncodeByte, plusToSpace s = id s := by
    intro s hs
    obtain ⟨b, _, hb⟩ := List.mem_flatMap.mp hs
    exact if_neg ((percentEncodeByte_spec b).2 s hb).2.1
  rw [List.map_congr_left hid, List.map_id]

/-- The first byte of a character is a digit exactly if the character is one, and then it is
the only byte. -/
private theorem hexValue_encodeChar (c : Char) :
    ∃ x xs, (encodeChar c).map plusToSpace = x :: xs ∧ hexValue x.toNat = hexValue c.toNat ∧
      ((hexValue c.toNat).isSome = true → xs = []) := by
  cases h : inQuerySet c with
  | true =>
    have hnone : hexValue c.toNat = none := by
      simp only [inQuerySet, Bool.or_eq_true, decide_eq_true_eq, List.contains_iff_mem,
        List.mem_cons, List.not_mem_nil, or_false] at h
      rw [hexValue, if_neg (by omega), if_neg (by omega), if_neg (by omega)]
    rw [encodeChar_of_inQuerySet h, map_plusToSpace_percentEncode, hnone]
    cases hb : String.utf8EncodeChar c with
    | nil => exact absurd hb String.utf8EncodeChar_ne_nil
    | cons b bs => exact ⟨0x25, _, rfl, rfl, fun hs ↦ by cases hs⟩
  | false =>
    obtain ⟨he, _, hn⟩ := encodeChar_of_not_inQuerySet h
    refine ⟨plusToSpace c.toUInt8, [], by rw [he]; rfl, ?_, fun _ ↦ rfl⟩
    unfold plusToSpace
    split
    · next hp =>
      rw [← hn, hp]
      rfl
    · rw [hn]

/-! ### What a component decodes to -/

/-- A character of a component. -/
def plusChar (c : Char) : Char := if c = '+' then ' ' else c

/-- The characters and escaped bytes of a component; the first argument is how many characters
are still to be skipped. -/
def pieces : Nat → List Char → List Piece
  | _, [] => []
  | skip + 1, _ :: cs => pieces skip cs
  | 0, c :: cs =>
    match if c = '%' then escape (cs.map Char.toNat) else none with
    | some b => .byte b :: pieces 2 cs
    | none => .char (plusChar c) :: pieces 0 cs

private theorem escape_encode (cs : List Char) :
    escape (((encode cs).map plusToSpace).map UInt8.toNat) = escape (cs.map Char.toNat) := by
  cases cs with
  | nil => rfl
  | cons c cs =>
    obtain ⟨x, xs, he, hx, hxs⟩ := hexValue_encodeChar c
    rw [encode, List.flatMap_cons, List.map_append, he]
    cases hc : hexValue c.toNat with
    | none =>
      have hl : ∀ l : List Nat, escape (x.toNat :: l) = none := by
        intro l
        cases l <;> simp [escape, hx, hc]
      have hr : ∀ l : List Nat, escape (c.toNat :: l) = none := by
        intro l
        cases l <;> simp [escape, hc]
      exact (hl _).trans (hr _).symm
    | some v =>
      rw [hxs (by rw [hc]; rfl)]
      cases cs with
      | nil => rfl
      | cons d ds =>
        obtain ⟨y, ys, he', hy, _⟩ := hexValue_encodeChar d
        simp [List.flatMap_cons, escape, hx, hy, he']

private theorem isSome_of_escape {cs : List Char} {b : UInt8}
    (h : escape (cs.map Char.toNat) = some b) :
    ∀ c ∈ cs.take 2, (hexValue c.toNat).isSome = true := by
  match cs, h with
  | c :: d :: cs, h =>
    obtain ⟨x, hx, hy⟩ := Option.bind_eq_some_iff.mp h
    obtain ⟨y, hy, _⟩ := Option.map_eq_some_iff.mp hy
    simp [hx, hy]

private theorem eq_of_toUInt8_eq {c d : Char} (h : inQuerySet c = false)
    (hd : d.toUInt8.toNat = d.toNat) (he : c.toUInt8 = d.toUInt8) : c = d := by
  rw [← Char.toNat_inj, ← (encodeChar_of_not_inQuerySet h).2.2, he, hd]

/-- A character that is its own byte is read as it is, apart from the `+`. -/
private theorem bytes_plusChar {c : Char} (h : inQuerySet c = false) :
    (Piece.char (plusChar c)).bytes = [plusToSpace c.toUInt8] := by
  rw [Piece.bytes, plusChar, plusToSpace]
  by_cases hc : c = '+'
  · rw [hc]
    rfl
  · have hb : c.toUInt8 ≠ 0x2B := fun hb ↦ hc (eq_of_toUInt8_eq h rfl hb)
    rw [if_neg hc, if_neg hb, (encodeChar_of_not_inQuerySet h).2.1]

/-- Decoding an encoded component reads its pieces. -/
private theorem percentDecode_encode (cs : List Char) {skip : Nat}
    (h : ∀ c ∈ cs.take skip, (hexValue c.toNat).isSome = true) :
    percentDecode skip ((encode cs).map plusToSpace) = (pieces skip cs).flatMap Piece.bytes := by
  induction cs generalizing skip with
  | nil => cases skip <;> rfl
  | cons c cs ih =>
    rw [encode, List.flatMap_cons, List.map_append]
    change percentDecode skip (_ ++ (encode cs).map plusToSpace) = _
    cases skip with
    | succ skip =>
      obtain ⟨x, xs, he, _, hxs⟩ := hexValue_encodeChar c
      rw [List.take_succ_cons, List.forall_mem_cons] at h
      rw [he, hxs h.1, List.singleton_append]
      exact ih h.2
    | zero =>
      have ih0 : percentDecode 0 ((encode cs).map plusToSpace) =
          (pieces 0 cs).flatMap Piece.bytes := ih (by simp)
      cases hset : inQuerySet c with
      | true =>
        have hpercent : c ≠ '%' := by
          rintro rfl
          exact absurd hset (by decide)
        have hplus : plusChar c = c := by
          apply if_neg
          rintro rfl
          exact absurd hset (by decide)
        rw [encodeChar_of_inQuerySet hset, map_plusToSpace_percentEncode,
          percentDecode_flatMap_percentEncodeByte, ih0, pieces, if_neg hpercent, hplus]
        rfl
      | false =>
        by_cases hc : c = '%'
        · have hb : (encodeChar c).map plusToSpace = [0x25] := by
            rw [hc]
            rfl
          rw [hb, List.singleton_append, percentDecode, if_pos rfl, escape_encode, pieces,
            if_pos hc]
          cases he : escape (cs.map Char.toNat) with
          | some b => exact congrArg _ (ih (isSome_of_escape he))
          | none =>
            rw [hc, List.flatMap_cons, ← ih0]
            rfl
        · have hb : plusToSpace c.toUInt8 ≠ 0x25 := by
            intro hb
            unfold plusToSpace at hb
            split at hb
            · exact absurd hb (by decide)
            · exact hc (eq_of_toUInt8_eq hset rfl hb)
          rw [(encodeChar_of_not_inQuerySet hset).1, List.map_singleton, List.singleton_append,
            percentDecode, if_neg hb, pieces, if_neg hc, List.flatMap_cons, bytes_plusChar hset,
            ← ih0]
          rfl

/-- The form parser decodes a component of a query to the characters of its pieces. -/
theorem decodeComponent_encode (cs : List Char) :
    decodeComponent (encode cs) = decode 0 ((pieces 0 cs).flatMap Piece.bytes) := by
  rw [decodeComponent, percentDecode_encode cs (by simp)]

/-- A `%` has two hexadecimal digits after it. -/
def hasEscape : List Char → Bool
  | [] => false
  | c :: cs => (c == '%' && (escape (cs.map Char.toNat)).isSome) || hasEscape cs

private theorem length_pieces_le (skip : Nat) (cs : List Char) :
    (pieces skip cs).length ≤ cs.length - skip := by
  induction cs generalizing skip with
  | nil => cases skip <;> exact Nat.zero_le _
  | cons c cs ih =>
    rw [List.length_cons]
    cases skip with
    | succ skip =>
      rw [Nat.add_sub_add_right]
      exact ih skip
    | zero =>
      rw [pieces]
      split
      · exact Nat.succ_le_succ (Nat.le_trans (ih 2) (Nat.sub_le _ _))
      · exact Nat.succ_le_succ (ih 0)

/-- An escape makes one piece of three characters. -/
private theorem length_pieces_lt {cs : List Char} (h : hasEscape cs = true) :
    (pieces 0 cs).length < cs.length := by
  induction cs with
  | nil => cases h
  | cons c cs ih =>
    rw [pieces]
    split
    · next b hb =>
      have hlen : 2 ≤ cs.length := by
        match cs, hb with
        | [], hb => split at hb <;> cases hb
        | [d], hb => split at hb <;> cases hb
        | d :: e :: cs, _ => simp
      have hle := length_pieces_le 2 cs
      rw [List.length_cons, List.length_cons]
      omega
    · next hb =>
      refine Nat.succ_lt_succ (ih ?_)
      rw [hasEscape, Bool.or_eq_true, Bool.and_eq_true, beq_iff_eq] at h
      rcases h with ⟨hc, he⟩ | h
      · rw [if_pos hc] at hb
        rw [hb] at he
        cases he
      · exact h

/-- Without an escape every character is a piece. -/
private theorem pieces_of_not_hasEscape {cs : List Char} (h : hasEscape cs = false) :
    pieces 0 cs = (cs.map plusChar).map Piece.char := by
  induction cs with
  | nil => rfl
  | cons c cs ih =>
    rw [hasEscape, Bool.or_eq_false_iff] at h
    have hnone : (if c = '%' then escape (cs.map Char.toNat) else none) = none := by
      split
      · next hc =>
        have he := h.1
        rw [hc, beq_self_eq_true, Bool.true_and, Option.isSome_eq_false_iff,
          Option.isNone_iff_eq_none] at he
        exact he
      · rfl
    rw [pieces, hnone]
    exact congrArg _ (ih h.2)

theorem length_decodeComponent_le (cs : List Char) :
    (decodeComponent (encode cs)).length ≤ cs.length := by
  rw [decodeComponent_encode]
  exact Nat.le_trans (length_decode_le _) (length_pieces_le 0 cs)

/-- An escape is lost. -/
theorem length_decodeComponent_lt {cs : List Char} (h : hasEscape cs = true) :
    (decodeComponent (encode cs)).length < cs.length := by
  rw [decodeComponent_encode]
  exact Nat.lt_of_le_of_lt (length_decode_le _) (length_pieces_lt h)

/-- Without an escape only `+` changes. -/
theorem decodeComponent_of_not_hasEscape {cs : List Char} (h : hasEscape cs = false) :
    decodeComponent (encode cs) = cs.map plusChar := by
  rw [decodeComponent_encode, pieces_of_not_hasEscape h, decode_chars]

/-- A component is read back exactly if it has no escape and no `+`. -/
theorem decodeComponent_eq_self_iff (cs : List Char) :
    decodeComponent (encode cs) = cs ↔ hasEscape cs = false ∧ '+' ∉ cs := by
  constructor
  · intro h
    have hno : hasEscape cs = false := by
      rw [← Bool.not_eq_true]
      intro he
      exact absurd (congrArg List.length h) (Nat.ne_of_lt (length_decodeComponent_lt he))
    refine ⟨hno, ?_⟩
    intro hp
    have hmap : cs.map plusChar = cs.map id := by
      rw [← decodeComponent_of_not_hasEscape hno, h, List.map_id]
    exact absurd (List.map_inj_left.mp hmap '+' hp) (by decide)
  · rintro ⟨hno, hp⟩
    have hmap : cs.map plusChar = cs.map id := by
      apply List.map_congr_left
      intro c hc
      have hne : c ≠ '+' := by
        rintro rfl
        exact hp hc
      exact if_neg hne
    rw [decodeComponent_of_not_hasEscape hno, hmap, List.map_id]

/-! ### Separators -/

/-- No other character brings a separator into a query. -/
theorem not_mem_encodeChar {c d : Char} {s : UInt8} (hs : s = 0x26 ∨ s = 0x3D)
    (hd : d.toUInt8 = s) (hn : d.toUInt8.toNat = d.toNat) (h : c ≠ d) : s ∉ encodeChar c := by
  cases hset : inQuerySet c with
  | true =>
    rw [encodeChar_of_inQuerySet hset, List.mem_flatMap]
    rintro ⟨b, _, hb⟩
    have hb' := (percentEncodeByte_spec b).2 s hb
    rcases hs with rfl | rfl
    · exact hb'.1 rfl
    · exact hb'.2.2 rfl
  | false =>
    rw [(encodeChar_of_not_inQuerySet hset).1, List.mem_singleton, ← hd]
    exact fun he ↦ h (eq_of_toUInt8_eq hset hn he.symm)

theorem isEmpty_encode (cs : List Char) : (encode cs).isEmpty = cs.isEmpty := by
  cases cs with
  | nil => rfl
  | cons c cs =>
    obtain ⟨x, xs, he, _⟩ := hexValue_encodeChar c
    cases hc : encodeChar c with
    | nil =>
      rw [hc] at he
      cases he
    | cons y ys =>
      rw [encode, List.flatMap_cons, hc]
      rfl

end FormUrl
