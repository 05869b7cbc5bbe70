import FastSearch.Lib.ByteOrder
import FastSearch.Lib.Utf16
import FastSearch.Lib.Utf8Decode

/-!
# Key-value pairs

`database/KeyValuePair.kt`: a typed value stored as bytes. Numbers are big-endian, text is UTF-8,
and a set of strings is a sequence of records, each a 32-bit length and the bytes of one string.
The writer takes the length of a record from the string, the reader counts bytes with it. A getter
that throws gives `none`; the null of a value of another type is the inner `none`.
-/

namespace FastSearch.Database

open ByteOrder

/-- The type tags, `database/KeyValuePair.kt:30`. -/
inductive ValueType where
  | uninitialized
  | boolean
  | float
  | int
  | long
  | string
  | stringSet
  deriving DecidableEq, Repr

/-- `KeyValuePair`, `database/KeyValuePair.kt:28`. -/
structure KeyValuePair where
  key : String := ""
  valueType : ValueType := .uninitialized
  value : List UInt8 := []
  deriving DecidableEq, Repr

/-- A string as the platform has it, its length a non-negative 32-bit number. -/
abbrev JavaString : Type := { s : String // Utf16.length s < 2 ^ 31 }

/-- `String.toByteArray()`: the UTF-8 bytes. -/
def toByteArray (s : String) : List UInt8 := s.toList.flatMap String.utf8EncodeChar

/-- `String(bytes)`: what the bytes decode to. -/
def stringOfBytes (bytes : List UInt8) : String := String.ofList (Utf8Decode.decode 0 bytes)

/-- `ByteBuffer.getInt`: the next four bytes, and the buffer after them. -/
def getInt (buffer : List UInt8) : Option (Int32 × List UInt8) :=
  if buffer.length < 4 then none else some (int32OfBytes (buffer.take 4), buffer.drop 4)

/-- `ByteBuffer.getLong`: the next eight bytes. -/
def getLong (buffer : List UInt8) : Option Int64 :=
  if buffer.length < 8 then none else some (int64OfBytes (buffer.take 8))

/-- `ByteArray(n)` filled by `ByteBuffer.get`: both throw, on a negative size and on too few
bytes. -/
def getBytes (n : Int32) (buffer : List UInt8) : Option (List UInt8 × List UInt8) :=
  if n < 0 ∨ buffer.length < n.toInt.toNat then none
  else some (buffer.take n.toInt.toNat, buffer.drop n.toInt.toNat)

/-- One round of the loop: a length, and that many bytes. -/
def getRecord (buffer : List UInt8) : Option (List UInt8 × List UInt8) :=
  (getInt buffer).bind fun (n, rest) ↦ getBytes n rest

theorem length_getRecord {buffer chArr rest : List UInt8}
    (h : getRecord buffer = some (chArr, rest)) : rest.length < buffer.length := by
  obtain ⟨⟨n, mid⟩, hi, hb⟩ := Option.bind_eq_some_iff.mp h
  unfold getInt at hi
  split at hi
  · cases hi
  · cases hi
    simp only [getBytes] at hb
    split at hb
    · cases hb
    · cases hb
      rw [List.length_drop, List.length_drop]
      omega

/-- The loop of the `stringSet` getter, `database/KeyValuePair.kt:77`: the strings in the order in
which they are added to the result. -/
def readStrings (buffer : List UInt8) : Option (List String) :=
  if buffer.isEmpty then some []
  else
    match _h : getRecord buffer with
    | none => none
    | some (chArr, rest) => (readStrings rest).map (stringOfBytes chArr :: ·)
termination_by buffer.length
decreasing_by exact length_getRecord _h

namespace KeyValuePair

/-! ### Getters -/

/-- `boolean`, `database/KeyValuePair.kt:57`. -/
def boolean (kv : KeyValuePair) : Option (Option Bool) :=
  if kv.valueType = .boolean then kv.value.head?.map fun b ↦ some (b ≠ 0) else some none

/-- `float`, `database/KeyValuePair.kt:59`, as the bits of the number. -/
def float (kv : KeyValuePair) : Option (Option Int32) :=
  if kv.valueType = .float then (getInt kv.value).map fun r ↦ some r.1 else some none

/-- `int`, `database/KeyValuePair.kt:63`. -/
def int (kv : KeyValuePair) : Option (Option Int32) :=
  if kv.valueType = .int then (getInt kv.value).map fun r ↦ some r.1 else some none

/-- `long`, `database/KeyValuePair.kt:65`. -/
def long (kv : KeyValuePair) : Option (Option Int64) :=
  match kv.valueType with
  | .int => (getInt kv.value).map fun r ↦ some r.1.toInt64
  | .long => (getLong kv.value).map some
  | _ => some none

/-- `string`, `database/KeyValuePair.kt:71`. -/
def string (kv : KeyValuePair) : Option (Option String) :=
  if kv.valueType = .string then some (some (stringOfBytes kv.value)) else some none

/-- `stringSet`, `database/KeyValuePair.kt:73`; the set is given by a list of its members. -/
def stringSet (kv : KeyValuePair) : Option (Option (List String)) :=
  if kv.valueType = .stringSet then (readStrings kv.value).map some else some none

/-! ### Writing -/

/-- `put(value: Boolean)`, `database/KeyValuePair.kt:91`. -/
def putBoolean (kv : KeyValuePair) (value : Bool) : KeyValuePair :=
  { kv with valueType := .boolean, value := [if value then 1 else 0] }

/-- `put(value: Int)`, `database/KeyValuePair.kt:103`. -/
def putInt (kv : KeyValuePair) (value : Int32) : KeyValuePair :=
  { kv with valueType := .int, value := bytesOfInt32 value }

/-- `put(value: Long)`, `database/KeyValuePair.kt:108`. -/
def putLong (kv : KeyValuePair) (value : Int64) : KeyValuePair :=
  { kv with valueType := .long, value := bytesOfInt64 value }

/-- `put(value: String)`, `database/KeyValuePair.kt:113`. -/
def putString (kv : KeyValuePair) (value : String) : KeyValuePair :=
  { kv with valueType := .string, value := toByteArray value }

/-- One record of a set: `v.length` counts UTF-16 units. -/
def record (v : JavaString) : List UInt8 :=
  bytesOfInt32 (Int32.ofNat (Utf16.length v.val)) ++ toByteArray v.val

/-- `put(value: Set<String>)`, `database/KeyValuePair.kt:118`; the list has the members of the set
in the order of its iterator. -/
def putStringSet (kv : KeyValuePair) (value : List JavaString) : KeyValuePair :=
  { kv with valueType := .stringSet, value := value.flatMap record }

/-! ### Values -/

/-- What can be stored, floats apart. -/
inductive Value where
  | boolean (value : Bool)
  | int (value : Int32)
  | long (value : Int64)
  | string (value : String)
  | stringSet (value : List JavaString)

/-- `put` at the type of the value. -/
def put (kv : KeyValuePair) : Value → KeyValuePair
  | .boolean value => kv.putBoolean value
  | .int value => kv.putInt value
  | .long value => kv.putLong value
  | .string value => kv.putString value
  | .stringSet value => kv.putStringSet value

/-- The getter of the value's type returns the value, an `Int` also through `long`; the getters of
the other types return null. -/
def Returns (kv : KeyValuePair) (v : Value) : Prop :=
  kv.float = some none ∧
  match v with
  | .boolean value =>
    kv.boolean = some (some value) ∧ kv.int = some none ∧ kv.long = some none ∧
      kv.string = some none ∧ kv.stringSet = some none
  | .int value =>
    kv.boolean = some none ∧ kv.int = some (some value) ∧
      (∃ l : Int64, kv.long = some (some l) ∧ l.toInt = value.toInt) ∧
      kv.string = some none ∧ kv.stringSet = some none
  | .long value =>
    kv.boolean = some none ∧ kv.int = some none ∧ kv.long = some (some value) ∧
      kv.string = some none ∧ kv.stringSet = some none
  | .string value =>
    kv.boolean = some none ∧ kv.int = some none ∧ kv.long = some none ∧
      kv.string = some (some value) ∧ kv.stringSet = some none
  | .stringSet value =>
    kv.boolean = some none ∧ kv.int = some none ∧ kv.long = some none ∧
      kv.string = some none ∧
      ∃ result, kv.stringSet = some (some result) ∧
        ∀ s, s ∈ result ↔ s ∈ value.map Subtype.val

/-- The string has ASCII characters only. -/
def Ascii (s : String) : Prop := ∀ c ∈ s.toList, c.toNat < 128

instance (s : String) : Decidable (Ascii s) :=
  inferInstanceAs (Decidable (∀ c ∈ s.toList, c.toNat < 128))

/-- A set has ASCII strings only. -/
def Value.Ascii : Value → Prop
  | .stringSet value => ∀ v ∈ value, KeyValuePair.Ascii v.val
  | _ => True

/-- A set without U+0000 in its strings and with records of less than 16 MiB together. -/
def Value.Ordinary : Value → Prop
  | .stringSet value =>
    (∀ v ∈ value, ∀ c ∈ v.val.toList, c.toNat ≠ 0) ∧ (value.flatMap record).length < 2 ^ 24
  | _ => True

/-! ### Text -/

/-- Text is read back from its bytes. -/
theorem stringOfBytes_toByteArray (s : String) : stringOfBytes (toByteArray s) = s := by
  have hp : toByteArray s =
      (s.toList.map Utf8Decode.Piece.char).flatMap Utf8Decode.Piece.bytes := by
    rw [toByteArray, List.flatMap_map]
    rfl
  rw [stringOfBytes, hp, Utf8Decode.decode_chars, String.ofList_toList]

/-- Only U+0000 has a zero byte. -/
private theorem ne_zero_of_mem_utf8EncodeChar {c : Char} (hc : c.toNat ≠ 0) {b : UInt8}
    (hb : b ∈ String.utf8EncodeChar c) : b.toNat ≠ 0 := by
  have hn : c.val.toNat = c.toNat := rfl
  simp only [String.utf8EncodeChar, hn] at hb
  split at hb
  · simp only [List.mem_singleton] at hb
    rw [hb, UInt8.toNat_ofNat']
    omega
  · split at hb
    · simp only [List.mem_cons, List.not_mem_nil, or_false] at hb
      rcases hb with rfl | rfl <;> rw [UInt8.toNat_ofNat'] <;> omega
    · split at hb
      · simp only [List.mem_cons, List.not_mem_nil, or_false] at hb
        rcases hb with rfl | rfl | rfl <;> rw [UInt8.toNat_ofNat'] <;> omega
      · simp only [List.mem_cons, List.not_mem_nil, or_false] at hb
        rcases hb with rfl | rfl | rfl | rfl <;> rw [UInt8.toNat_ofNat'] <;> omega

/-! ### Records -/

theorem getInt_bytesOfInt32_append (n : Int32) (rest : List UInt8) :
    getInt (bytesOfInt32 n ++ rest) = some (n, rest) := by
  have hlen : (bytesOfInt32 n).length = 4 := length_bytesOfInt32 n
  rw [getInt, if_neg (by rw [List.length_append, hlen]; omega), List.take_left' hlen,
    List.drop_left' hlen, int32OfBytes_bytesOfInt32]

private theorem toInt_length (v : JavaString) :
    (Int32.ofNat (Utf16.length v.val)).toInt = Utf16.length v.val :=
  Int32.toInt_ofNat_of_lt v.property

/-- The first round on a record takes as many bytes as the string has UTF-16 units. -/
theorem getRecord_record (v : JavaString) (rest : List UInt8)
    (h : Utf16.length v.val ≤ (toByteArray v.val).length) :
    getRecord (record v ++ rest) =
      some ((toByteArray v.val ++ rest).take (Utf16.length v.val),
        (toByteArray v.val ++ rest).drop (Utf16.length v.val)) := by
  have hn := toInt_length v
  have hneg : ¬ Int32.ofNat (Utf16.length v.val) < 0 := by
    rw [Int32.lt_iff_toInt_lt, hn, Int32.toInt_zero]
    omega
  rw [getRecord, record, List.append_assoc, getInt_bytesOfInt32_append, Option.bind_some]
  simp only [getBytes, hn, Int.toNat_natCast]
  rw [if_neg]
  rintro (hlt | hlt)
  · exact hneg hlt
  · rw [List.length_append] at hlt
    omega

theorem readStrings_eq {buffer : List UInt8} (h : buffer ≠ []) :
    readStrings buffer =
      (getRecord buffer).bind fun r ↦ (readStrings r.2).map (stringOfBytes r.1 :: ·) := by
  rw [readStrings, if_neg (by simpa using h)]
  split
  · next hr => rw [hr]; rfl
  · next chArr rest hr => rw [hr]; rfl

private theorem record_append_ne_nil (v : JavaString) (rest : List UInt8) :
    record v ++ rest ≠ [] := by
  intro h
  have hl := congrArg List.length h
  rw [record, List.length_append, List.length_append, length_bytesOfInt32, List.length_nil] at hl
  omega

/-- An ASCII string is read back and the buffer stays aligned. -/
theorem readStrings_record (v : JavaString) (rest : List UInt8) (h : Ascii v.val) :
    readStrings (record v ++ rest) = (readStrings rest).map (v.val :: ·) := by
  have hl : Utf16.length v.val = (toByteArray v.val).length := Utf16.length_eq_of_ascii h
  rw [readStrings_eq (record_append_ne_nil v rest), getRecord_record v rest (Nat.le_of_eq hl), hl,
    List.take_left, List.drop_left, Option.bind_some, stringOfBytes_toByteArray]

/-- Sets of ASCII strings are read back, in their order. -/
theorem readStrings_records {vs : List JavaString} (h : ∀ v ∈ vs, Ascii v.val) :
    readStrings (vs.flatMap record) = some (vs.map Subtype.val) := by
  induction vs with
  | nil => rw [readStrings]; rfl
  | cons v vs ih =>
    rw [List.forall_mem_cons] at h
    rw [List.flatMap_cons, readStrings_record v _ h.1, ih h.2]
    rfl

/-! ### Misaligned buffers -/

/-- A length whose first byte is not zero is negative or at least 2^24. -/
private theorem int32OfBytes_of_ne_zero {b : UInt8} {bs : List UInt8} (hb : b.toNat ≠ 0)
    (hl : bs.length = 3) :
    int32OfBytes (b :: bs) < 0 ∨ 2 ^ 24 ≤ (int32OfBytes (b :: bs)).toInt := by
  have hlt := natOfBytes_lt bs
  have hb' := b.toNat_lt
  rw [hl] at hlt
  have hn : natOfBytes (b :: bs) = b.toNat * 256 ^ 3 + natOfBytes bs := by
    rw [natOfBytes_cons, hl]
  have ht : (int32OfBytes (b :: bs)).toInt = (natOfBytes (b :: bs) : Int).bmod (2 ^ 32) := by
    rw [int32OfBytes, Int32.toInt_ofBitVec, BitVec.toInt_ofNat']
  rw [Int32.lt_iff_toInt_lt, ht, hn, Int.bmod_def, Int32.toInt_zero]
  split <;> omega

/-- Reading gets stuck before a byte that is not zero, with less than 16 MiB left. -/
theorem readStrings_stuck {b : UInt8} {bs : List UInt8} (hb : b.toNat ≠ 0)
    (hl : bs.length < 2 ^ 24) : readStrings (b :: bs) = none := by
  have hr : getRecord (b :: bs) = none := by
    rw [getRecord, getInt]
    by_cases h4 : (b :: bs).length < 4
    · rw [if_pos h4]
      rfl
    · have hlen : (bs.take 3).length = 3 := by
        rw [List.length_cons] at h4
        rw [List.length_take]
        omega
      rw [if_neg h4, Option.bind_some, List.take_succ_cons]
      simp only [getBytes]
      rw [if_pos]
      rcases int32OfBytes_of_ne_zero hb hlen with hneg | hbig
      · exact Or.inl hneg
      · refine Or.inr ?_
        rw [List.length_drop, List.length_cons]
        omega
  rw [readStrings_eq (List.cons_ne_nil b bs), hr]
  rfl

/-- After a string that is not ASCII the reader stands inside its bytes. -/
private theorem drop_length_eq_cons {v : JavaString} (hv : ¬ Ascii v.val)
    (hz : ∀ c ∈ v.val.toList, c.toNat ≠ 0) (rest : List UInt8) :
    ∃ b tail, (toByteArray v.val ++ rest).drop (Utf16.length v.val) = b :: tail ∧ b.toNat ≠ 0 := by
  have hlt : Utf16.length v.val < (toByteArray v.val).length := Utf16.length_lt_of_not_ascii hv
  have hlt' : Utf16.length v.val < (toByteArray v.val ++ rest).length := by
    rw [List.length_append]
    omega
  refine ⟨_, _, List.drop_eq_getElem_cons hlt', ?_⟩
  rw [List.getElem_append_left hlt]
  obtain ⟨c, hc, hb⟩ := List.mem_flatMap.mp (List.getElem_mem hlt)
  exact ne_zero_of_mem_utf8EncodeChar (hz c hc) hb

/-- A set with a string that is not ASCII cannot be read, unless U+0000 or 16 MiB of records
intervene. -/
theorem readStrings_records_stuck {vs : List JavaString} (h : ¬ ∀ v ∈ vs, Ascii v.val)
    (hz : ∀ v ∈ vs, ∀ c ∈ v.val.toList, c.toNat ≠ 0)
    (hl : (vs.flatMap record).length < 2 ^ 24) : readStrings (vs.flatMap record) = none := by
  induction vs with
  | nil => exact absurd (fun v hv ↦ (nomatch hv)) h
  | cons v vs ih =>
    rw [List.forall_mem_cons] at hz
    rw [List.flatMap_cons] at hl ⊢
    rw [List.length_append] at hl
    by_cases hv : Ascii v.val
    · have hvs : ¬ ∀ v ∈ vs, Ascii v.val := by
        intro hall
        exact h (List.forall_mem_cons.mpr ⟨hv, hall⟩)
      rw [readStrings_record v _ hv, ih hvs hz.2 (by omega)]
      rfl
    · have hlt : Utf16.length v.val < (toByteArray v.val).length := Utf16.length_lt_of_not_ascii hv
      obtain ⟨b, tail, hd, hb⟩ := drop_length_eq_cons hv hz.1 (vs.flatMap record)
      have htail : tail.length < 2 ^ 24 := by
        have hdl := congrArg List.length hd
        have hrec : (record v).length = 4 + (toByteArray v.val).length := by
          rw [record, List.length_append, length_bytesOfInt32]
        rw [List.length_drop, List.length_append, List.length_cons] at hdl
        omega
      rw [readStrings_eq (record_append_ne_nil v _), getRecord_record v _ (Nat.le_of_lt hlt),
        Option.bind_some, hd, readStrings_stuck hb htail]
      rfl

/-! ### Every value -/

/-- Sets apart, every value is returned. -/
theorem returns_put_of_not_set (kv : KeyValuePair) {v : Value} (h : ∀ vs, v ≠ .stringSet vs) :
    (kv.put v).Returns v := by
  cases v with
  | boolean value => cases value <;> exact ⟨rfl, rfl, rfl, rfl, rfl, rfl⟩
  | int value =>
    have hi : getInt (bytesOfInt32 value) = some (value, []) := by
      have ha := getInt_bytesOfInt32_append value []
      rwa [List.append_nil] at ha
    refine ⟨rfl, rfl, ?_, ⟨value.toInt64, ?_, Int32.toInt_toInt64 value⟩, rfl, rfl⟩
    · simp only [put, putInt, int, if_true, hi, Option.map_some]
    · simp only [put, putInt, long, hi, Option.map_some]
  | long value =>
    have hl : getLong (bytesOfInt64 value) = some value := by
      have hlen : (bytesOfInt64 value).length = 8 := length_bytesOfInt64 value
      rw [getLong, if_neg (by omega), List.take_of_length_le (by omega), int64OfBytes_bytesOfInt64]
    refine ⟨rfl, rfl, rfl, ?_, rfl, rfl⟩
    simp only [put, putLong, long, hl, Option.map_some]
  | string value =>
    refine ⟨rfl, rfl, rfl, rfl, ?_, rfl⟩
    simp only [put, putString, string, if_true, stringOfBytes_toByteArray]
  | stringSet value => exact absurd rfl (h value)

private theorem stringSet_put (kv : KeyValuePair) (vs : List JavaString) :
    (kv.put (.stringSet vs)).stringSet = (readStrings (vs.flatMap record)).map some := rfl

/-- A value put under any key is returned by the getter of its type, and by no other, if it is no
set or a set of ASCII strings. A set with another string is not returned, at least when its
strings are free of U+0000 and its records take less than 16 MiB. -/
theorem returns_put (kv : KeyValuePair) (v : Value) :
    (v.Ascii → (kv.put v).Returns v) ∧ (v.Ordinary → (kv.put v).Returns v → v.Ascii) := by
  cases v with
  | stringSet vs =>
    constructor
    · intro h
      refine ⟨rfl, rfl, rfl, rfl, rfl, vs.map Subtype.val, ?_, fun s ↦ Iff.rfl⟩
      rw [stringSet_put, readStrings_records h]
      rfl
    · rintro ⟨hz, hl⟩ ⟨_, _, _, _, _, result, hs, _⟩
      apply Classical.byContradiction
      intro h
      rw [stringSet_put, readStrings_records_stuck h hz hl] at hs
      cases hs
  | boolean value | int value | long value | string value =>
    exact ⟨fun _ ↦ returns_put_of_not_set kv (fun vs h ↦ nomatch h), fun _ _ ↦ trivial⟩

/-- The set of the empty string and one digit. -/
def digitSet : List JavaString := [⟨"", by decide⟩, ⟨"3", by decide⟩]

theorem returns_put_digitSet :
    (({ key := "k" } : KeyValuePair).put (.stringSet digitSet)).Returns (.stringSet digitSet) := by
  apply (returns_put _ _).1
  show ∀ v ∈ digitSet, Ascii v.val
  simp [digitSet, Ascii]

/-- The set of one letter outside ASCII. -/
def accentSet : List JavaString := [⟨"é", by decide⟩]

/-- The length counts one unit, the letter has two bytes, and the reader throws on the second. -/
theorem not_returns_accentSet :
    ¬ (({ key := "k" } : KeyValuePair).put (.stringSet accentSet)).Returns
      (.stringSet accentSet) := by
  have hv : ¬ ∀ v ∈ accentSet, Ascii v.val := by simp [accentSet, Ascii]
  have hz : ∀ v ∈ accentSet, ∀ c ∈ v.val.toList, c.toNat ≠ 0 := by simp [accentSet]
  rintro ⟨_, _, _, _, _, result, hs, _⟩
  rw [stringSet_put, readStrings_records_stuck hv hz (by decide)] at hs
  cases hs

end KeyValuePair
end FastSearch.Database
