import FastSearch.Database.KeyValuePair
import FastSearch.Lib.LinkedMap
import FastSearch.Lib.Numeral

/-!
# The preference store

`preference/RoomPreferenceDataStore.kt` over the rows of `database/KeyValuePair.kt`, and what
`preference/DataStore.kt` keeps in the public one: the address and the local ports of the service.
A port that an older version has stored as a number is rewritten as text when it is first read.
-/

namespace FastSearch.Database

open ByteOrder

namespace KeyValuePair

/-- `put(value: Float)`, `database/KeyValuePair.kt:96`, of the bits of the number. -/
def putFloat (kv : KeyValuePair) (bits : Int32) : KeyValuePair :=
  { kv with valueType := .float, value := bytesOfInt32 bits }

/-- The pair has been through one of the functions `put`. -/
def Written (kv : KeyValuePair) : Prop :=
  (∃ kv₀ v, kv = put kv₀ v) ∨ ∃ kv₀ bits, kv = putFloat kv₀ bits

/-- The getters of a written pair do not throw, sets of strings apart. -/
theorem Written.isSome {kv : KeyValuePair} (h : kv.Written) :
    kv.boolean.isSome = true ∧ kv.long.isSome = true ∧ kv.string.isSome = true := by
  rcases h with ⟨kv₀, v, rfl⟩ | ⟨kv₀, bits, rfl⟩
  · by_cases hset : ∃ vs, v = .stringSet vs
    · obtain ⟨vs, rfl⟩ := hset
      exact ⟨rfl, rfl, rfl⟩
    · have hr := returns_put_of_not_set kv₀ (v := v) fun vs he ↦ hset ⟨vs, he⟩
      cases v with
      | stringSet vs => exact absurd ⟨vs, rfl⟩ hset
      | int value =>
        obtain ⟨_, hb, _, ⟨l, hl, _⟩, hs, _⟩ := hr
        simp only [hb, hl, hs, Option.isSome_some, and_self]
      | boolean value | long value | string value =>
        obtain ⟨_, hb, _, hl, hs, _⟩ := hr
        simp only [hb, hl, hs, Option.isSome_some, and_self]
  · exact ⟨rfl, rfl, rfl⟩

end KeyValuePair

/-- A table of written pairs, `KeyValuePair.Dao`. -/
structure PreferenceStore where
  rows : LinkedMap String KeyValuePair := ∅
  written : ∀ key kv, rows.get? key = some kv → kv.Written := by simp

namespace PreferenceStore

/-! ### Getters

A getter that throws gives null as well: by `Written.isSome` none of these does. -/

/-- `getBoolean`, `preference/RoomPreferenceDataStore.kt:29`. -/
def getBoolean (s : PreferenceStore) (key : String) : Option Bool :=
  (s.rows.get? key).bind fun kv ↦ kv.boolean.join

/-- `getLong`, `preference/RoomPreferenceDataStore.kt:32`. -/
def getLong (s : PreferenceStore) (key : String) : Option Int64 :=
  (s.rows.get? key).bind fun kv ↦ kv.long.join

/-- `getInt`, `preference/RoomPreferenceDataStore.kt:31`: the low half of a long number. -/
def getInt (s : PreferenceStore) (key : String) : Option Int32 :=
  (s.getLong key).map Int64.toInt32

/-- `getString`, `preference/RoomPreferenceDataStore.kt:33`. -/
def getString (s : PreferenceStore) (key : String) : Option String :=
  (s.rows.get? key).bind fun kv ↦ kv.string.join

/-! ### Writing -/

/-- The row of a key is replaced by a written pair. -/
def putRow (s : PreferenceStore) (key : String) (kv : KeyValuePair) (h : kv.Written) :
    PreferenceStore where
  rows := s.rows.put key kv
  written := by
    intro key' kv' hg
    rw [LinkedMap.get?_put] at hg
    split at hg
    · cases hg
      exact h
    · exact s.written key' kv' hg

/-- `putBoolean`, `putLong`, `putString` and `putStringSet`,
`preference/RoomPreferenceDataStore.kt:47`, at the type of the value. -/
def put (s : PreferenceStore) (key : String) (v : KeyValuePair.Value) : PreferenceStore :=
  s.putRow key (KeyValuePair.put { key := key } v) (Or.inl ⟨_, _, rfl⟩)

/-- `putString`, `preference/RoomPreferenceDataStore.kt:63`. -/
def putString (s : PreferenceStore) (key value : String) : PreferenceStore :=
  s.put key (.string value)

/-- `putFloat`, `preference/RoomPreferenceDataStore.kt:51`. -/
def putFloat (s : PreferenceStore) (key : String) (bits : Int32) : PreferenceStore :=
  s.putRow key (KeyValuePair.putFloat { key := key } bits) (Or.inr ⟨_, _, rfl⟩)

/-- `remove`, `preference/RoomPreferenceDataStore.kt:72`. -/
def remove (s : PreferenceStore) (key : String) : PreferenceStore where
  rows := s.rows.remove key
  written := by
    intro key' kv' hg
    rw [LinkedMap.get?_remove] at hg
    split at hg
    · cases hg
    · exact s.written key' kv' hg

/-! ### What is read after a write -/

/-- The stores have the same row under a key. -/
def SameAt (key : String) (s s' : PreferenceStore) : Prop := s'.rows.get? key = s.rows.get? key

theorem sameAt_put {s : PreferenceStore} {key key' : String} (h : key' ≠ key)
    (v : KeyValuePair.Value) : SameAt key' s (s.put key v) :=
  LinkedMap.get?_put_ne s.rows _ h

theorem sameAt_putFloat {s : PreferenceStore} {key key' : String} (h : key' ≠ key)
    (bits : Int32) : SameAt key' s (s.putFloat key bits) :=
  LinkedMap.get?_put_ne s.rows _ h

theorem sameAt_remove {s : PreferenceStore} {key key' : String} (h : key' ≠ key) :
    SameAt key' s (s.remove key) :=
  LinkedMap.get?_remove_ne s.rows h

section SameAt

variable {key : String} {s s' : PreferenceStore} (h : SameAt key s s')

include h

theorem SameAt.getBoolean : s'.getBoolean key = s.getBoolean key := by
  rw [PreferenceStore.getBoolean, h, PreferenceStore.getBoolean]

theorem SameAt.getInt : s'.getInt key = s.getInt key := by
  rw [PreferenceStore.getInt, PreferenceStore.getLong, h, PreferenceStore.getInt,
    PreferenceStore.getLong]

theorem SameAt.getString : s'.getString key = s.getString key := by
  rw [PreferenceStore.getString, h, PreferenceStore.getString]

end SameAt

@[simp] theorem get?_putString (s : PreferenceStore) (key value : String) :
    (s.putString key value).rows.get? key =
      some (KeyValuePair.put { key := key } (.string value)) :=
  LinkedMap.get?_put_self s.rows key _

theorem getInt_putString (s : PreferenceStore) (key value : String) :
    (s.putString key value).getInt key = none := by
  rw [getInt, getLong, get?_putString]
  rfl

theorem getString_putString (s : PreferenceStore) (key value : String) :
    (s.putString key value).getString key = some value := by
  rw [getString, get?_putString, Option.bind_some]
  obtain ⟨_, _, _, _, hs, _⟩ :=
    KeyValuePair.returns_put_of_not_set { key := key } (v := .string value) (by simp)
  rw [hs]
  rfl

end PreferenceStore

/-! ### The public store -/

namespace DataStore

/-- `parsePort`, `utils/Utils.kt:98`. -/
def parsePort (str : Option String) (default min : Int32) : Int32 :=
  let value := ((str.bind fun s ↦ Numeral.parseInt s.toList).map Int32.ofInt).getD default
  if value < min ∨ value > 65535 then default else value

/-- `listenAddress`, `preference/DataStore.kt:70`. -/
def listenAddress (s : PreferenceStore) : String :=
  if (s.getBoolean "shareOverLan").getD false then "0.0.0.0" else "127.0.0.1"

/-- The three ports of `preference/DataStore.kt:71`. -/
inductive LocalPort where
  | portProxy
  | portLocalDns
  | portTransproxy
  deriving DecidableEq, Repr

namespace LocalPort

/-- The keys, `utils/Constants.kt:41`. -/
def key : LocalPort → String
  | portProxy => "portProxy"
  | portLocalDns => "portLocalDns"
  | portTransproxy => "portTransproxy"

/-- The defaults, `preference/DataStore.kt:72`. -/
def default : LocalPort → Int32
  | portProxy => 1080
  | portLocalDns => 5450
  | portTransproxy => 8200

end LocalPort

variable (userIndex : Int32)

/-- `getLocalPort`, `preference/DataStore.kt:51`, and the store that it leaves. -/
def getLocalPort (s : PreferenceStore) (p : LocalPort) : Int32 × PreferenceStore :=
  match s.getInt p.key with
  | some value => (value, s.putString p.key (toString value.toInt))
  | none => (parsePort (s.getString p.key) (p.default + userIndex) 1025, s)

/-- What `parsePort` makes of a number. -/
def checked (p : LocalPort) (value : Int32) : Int32 :=
  if value < 1025 ∨ value > 65535 then p.default + userIndex else value

/-- The port that is read from the second time on. -/
def settled (s : PreferenceStore) (p : LocalPort) : Int32 :=
  match s.getInt p.key with
  | some value => checked userIndex p value
  | none => parsePort (s.getString p.key) (p.default + userIndex) 1025

/-- A number is stored for the port that is no port of a user, nor the default. -/
def Stray (s : PreferenceStore) (p : LocalPort) : Prop :=
  ∃ value, s.getInt p.key = some value ∧ value ≠ checked userIndex p value

/-! ### Reading ports -/

theorem parsePort_toString (value default min : Int32) :
    parsePort (some (toString value.toInt)) default min =
      if value < min ∨ value > 65535 then default else value := by
  rw [parsePort, Option.bind_some, Numeral.parseInt_toString value.le_toInt value.toInt_lt,
    Option.map_some, Option.getD_some, Int32.ofInt_toInt]

theorem LocalPort.key_injective : Function.Injective LocalPort.key := by
  intro p q h
  cases p <;> cases q <;> simp_all [LocalPort.key]

variable {userIndex} {s s' : PreferenceStore} {p q : LocalPort}

theorem settled_of_sameAt (h : PreferenceStore.SameAt p.key s s') :
    settled userIndex s' p = settled userIndex s p := by
  rw [settled, h.getInt, h.getString, settled]

theorem stray_of_sameAt (h : PreferenceStore.SameAt p.key s s') :
    Stray userIndex s' p ↔ Stray userIndex s p := by
  rw [Stray, h.getInt, Stray]

/-- A port is not stray after it was read. -/
theorem not_stray_getLocalPort : ¬ Stray userIndex (getLocalPort userIndex s p).2 p := by
  rintro ⟨value, hg, _⟩
  unfold getLocalPort at hg
  split at hg
  · rw [PreferenceStore.getInt_putString] at hg
    cases hg
  · next hn =>
    rw [hn] at hg
    cases hg

/-- Reading a port leaves the others as they are. -/
theorem sameAt_getLocalPort {key : String} (h : key ≠ p.key) :
    PreferenceStore.SameAt key s (getLocalPort userIndex s p).2 := by
  unfold getLocalPort
  split
  · exact PreferenceStore.sameAt_put h _
  · rfl

/-- Reading a port settles it: what is rewritten is read as before. -/
theorem settled_getLocalPort_self :
    settled userIndex (getLocalPort userIndex s p).2 p = settled userIndex s p := by
  cases hg : s.getInt p.key with
  | none => simp only [getLocalPort, hg]
  | some value =>
    simp only [getLocalPort, settled, hg, PreferenceStore.getInt_putString,
      PreferenceStore.getString_putString, parsePort_toString, checked]

theorem settled_getLocalPort :
    settled userIndex (getLocalPort userIndex s p).2 q = settled userIndex s q := by
  by_cases h : q = p
  · subst h
    exact settled_getLocalPort_self
  · exact settled_of_sameAt (sameAt_getLocalPort fun he ↦ h (LocalPort.key_injective he))

theorem stray_of_getLocalPort (h : Stray userIndex (getLocalPort userIndex s p).2 q) :
    Stray userIndex s q := by
  by_cases hq : q = p
  · subst hq
    exact absurd h not_stray_getLocalPort
  · exact (stray_of_sameAt (sameAt_getLocalPort fun he ↦ hq (LocalPort.key_injective he))).mp h

/-- A port is read as the settled one exactly if it is not stray. -/
theorem getLocalPort_eq_settled_iff :
    (getLocalPort userIndex s p).1 = settled userIndex s p ↔ ¬ Stray userIndex s p := by
  cases hg : s.getInt p.key with
  | none => simp [getLocalPort, settled, Stray, hg]
  | some value => simp [getLocalPort, settled, Stray, hg]

end DataStore

end FastSearch.Database
