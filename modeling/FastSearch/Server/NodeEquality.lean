import FastSearch.Lib.Utf16
import FastSearch.Server.Node

/-!
# Equality and hash code of the server nodes

`server/ServerNode.kt`: `equals` compares names when its argument is the fast entry and
addresses otherwise, `hashCode` reads all six fields. The laws are stated for a set of nodes the
program builds: the fast entry together with `ServerNode.from` of given JSON objects.
-/

namespace FastSearch.Server

/-- `String.hashCode` of the platform: base 31 over the UTF-16 units, in 32 bits. -/
def stringHash (s : String) : Int32 :=
  (Utf16.units s).foldl (fun h c ↦ 31 * h + Int32.ofNat c.toNat) 0

namespace ServerNode

/-- `hashCode`, `server/ServerNode.kt:27`. -/
def hashCode (n : ServerNode) : Int32 :=
  let result := stringHash n.host
  let result := 31 * result + n.port
  let result := 31 * result + stringHash n.method
  let result := 31 * result + stringHash n.password
  let result := 31 * result + stringHash n.country
  31 * result + stringHash n.city

/-- The nodes built from the given JSON objects, and the fast entry. -/
def Built (J : OrgJson) (objs : List (String × Json) → Prop) (n : ServerNode) : Prop :=
  n = fast ∨ ∃ o, objs o ∧ n = ofJson J o

/-- What a set of nodes needs of `equals` and `hashCode`. -/
structure EqualsLaws (N : ServerNode → Prop) : Prop where
  refl : ∀ a, N a → a.equals a = true
  symm : ∀ a b, N a → N b → a.equals b = true → b.equals a = true
  trans : ∀ a b c, N a → N b → N c → a.equals b = true → b.equals c = true → a.equals c = true
  only_fast : ∀ a, N a → a.equals fast = true → a = fast
  hash : ∀ a b, N a → N b → a.equals b = true → a.hashCode = b.hashCode

/-- The contribution to the hash code of the fields that `equals` does not compare. -/
def restHash (n : ServerNode) : Int32 :=
  29791 * stringHash n.method + 961 * stringHash n.password + 31 * stringHash n.country +
    stringHash n.city

/-- The node has the host and port of the fast entry. -/
def NoAddress (n : ServerNode) : Prop := n.host = "" ∧ n.port = 0

/-! ### `equals` on the two classes -/

/-- Comparing with a plain node compares the addresses. -/
theorem equals_plain {a b : ServerNode} (hb : b.cls = .plain) :
    a.equals b = true ↔ b.host = a.host ∧ b.port = a.port := by
  rw [equals, if_neg (nodeName_plain_ne b hb), decide_eq_true_iff]

/-- The fast entry equals the plain nodes that have no address. -/
theorem fast_equals_plain {b : ServerNode} (hb : b.cls = .plain) :
    fast.equals b = true ↔ b.NoAddress :=
  equals_plain hb

/-- Two nodes at one address have equal hash codes exactly when the other fields contribute
equally. -/
theorem hashCode_eq_iff {a b : ServerNode} (hh : a.host = b.host) (hp : a.port = b.port) :
    a.hashCode = b.hashCode ↔ a.restHash = b.restHash := by
  simp only [hashCode, restHash, hh, hp]
  constructor
  · intro h
    grind
  · intro h
    grind

section Built

variable {J : OrgJson} {objs : List (String × Json) → Prop}

private theorem built_ofJson {o : List (String × Json)} (ho : objs o) :
    Built J objs (ofJson J o) :=
  Or.inr ⟨o, ho, rfl⟩

/-- Where no node lacks an address, equal nodes are both the fast entry or both read from JSON
with one address. -/
theorem equals_iff (hn : ∀ o, objs o → ¬ (ofJson J o).NoAddress) {a b : ServerNode}
    (ha : Built J objs a) (hb : Built J objs b) :
    a.equals b = true ↔
      (a = fast ∧ b = fast) ∨
        (a.cls = .plain ∧ b.cls = .plain ∧ a.host = b.host ∧ a.port = b.port) := by
  rcases hb with rfl | ⟨p, hp, rfl⟩
  · rw [equals_fast]
    rcases ha with rfl | ⟨o, ho, rfl⟩
    · simp [fast]
    · simp [ofJson, fast]
  · rw [equals_plain rfl]
    rcases ha with rfl | ⟨o, ho, rfl⟩
    · constructor
      · intro h
        exact False.elim (hn p hp h)
      · rintro (⟨_, h⟩ | ⟨h, _⟩)
        · exact absurd (congrArg ServerNode.cls h) (by simp [ofJson, fast])
        · exact absurd h (by decide)
    · constructor
      · rintro ⟨h1, h2⟩
        exact Or.inr ⟨rfl, rfl, h1.symm, h2.symm⟩
      · rintro (⟨_, h⟩ | ⟨_, _, h1, h2⟩)
        · exact absurd (congrArg ServerNode.cls h) (by simp [ofJson, fast])
        · exact ⟨h1.symm, h2.symm⟩

/-! ### The laws on a set of built nodes -/

/-- Under the laws every node read from JSON has an address: the fast entry equals one without,
and by symmetry that node would equal the fast entry. -/
theorem EqualsLaws.hasAddress (h : EqualsLaws (Built J objs)) {o : List (String × Json)}
    (ho : objs o) : ¬ (ofJson J o).NoAddress := by
  intro hno
  have hf : fast.equals (ofJson J o) = true := (fast_equals_plain rfl).mpr hno
  have hb := h.symm _ _ (Or.inl rfl) (built_ofJson ho) hf
  have hc := (equals_fast _).mp hb
  exact absurd hc (by simp [ofJson])

/-- Under the laws the fields that `equals` does not compare contribute equally to the hash codes
of nodes at one address. -/
theorem EqualsLaws.restHash_eq (h : EqualsLaws (Built J objs)) {o p : List (String × Json)}
    (ho : objs o) (hp : objs p) (hh : (ofJson J o).host = (ofJson J p).host)
    (hport : (ofJson J o).port = (ofJson J p).port) :
    (ofJson J o).restHash = (ofJson J p).restHash := by
  have he : (ofJson J o).equals (ofJson J p) = true :=
    (equals_plain rfl).mpr ⟨hh.symm, hport.symm⟩
  have heq := h.hash _ _ (built_ofJson ho) (built_ofJson hp) he
  exact (hashCode_eq_iff hh hport).mp heq

/-- Equal nodes have equal hash codes, if the nodes at one address do. -/
private theorem hashCode_eq_of_equals (hn : ∀ o, objs o → ¬ (ofJson J o).NoAddress)
    (hr : ∀ o p, objs o → objs p → (ofJson J o).host = (ofJson J p).host →
      (ofJson J o).port = (ofJson J p).port → (ofJson J o).restHash = (ofJson J p).restHash)
    {a b : ServerNode} (ha : Built J objs a) (hb : Built J objs b) (he : a.equals b = true) :
    a.hashCode = b.hashCode := by
  rcases (equals_iff hn ha hb).mp he with ⟨rfl, rfl⟩ | ⟨h1, h2, h3, h4⟩
  · rfl
  · rcases ha with rfl | ⟨o, ho, rfl⟩
    · exact absurd h1 (by decide)
    · rcases hb with rfl | ⟨p, hp, rfl⟩
      · exact absurd h2 (by decide)
      · exact (hashCode_eq_iff h3 h4).mpr (hr o p ho hp h3 h4)

end Built

/-- On the nodes built from any set of JSON objects the laws of equality and hash code hold
exactly when every such node has an address, and nodes at one address agree in what their other
fields contribute to the hash code. -/
theorem equalsLaws_iff (J : OrgJson) (objs : List (String × Json) → Prop) :
    EqualsLaws (Built J objs) ↔
      (∀ o, objs o → ¬ (ofJson J o).NoAddress) ∧
      ∀ o p, objs o → objs p → (ofJson J o).host = (ofJson J p).host →
        (ofJson J o).port = (ofJson J p).port →
        (ofJson J o).restHash = (ofJson J p).restHash := by
  constructor
  · intro h
    exact ⟨fun _ ho ↦ h.hasAddress ho, fun _ _ ho hp ↦ h.restHash_eq ho hp⟩
  · rintro ⟨hn, hr⟩
    have key := fun {a b : ServerNode} (ha : Built J objs a) (hb : Built J objs b) ↦
      equals_iff hn ha hb
    constructor
    · intro a ha
      rw [key ha ha]
      rcases ha with rfl | ⟨o, ho, rfl⟩
      · exact Or.inl ⟨rfl, rfl⟩
      · exact Or.inr ⟨rfl, rfl, rfl, rfl⟩
    · intro a b ha hb
      rw [key ha hb, key hb ha]
      rintro (⟨h1, h2⟩ | ⟨h1, h2, h3, h4⟩)
      · exact Or.inl ⟨h2, h1⟩
      · exact Or.inr ⟨h2, h1, h3.symm, h4.symm⟩
    · intro a b c ha hb hc
      rw [key ha hb, key hb hc, key ha hc]
      rintro (⟨h1, h2⟩ | ⟨h1, h2, h3, h4⟩) (⟨k1, k2⟩ | ⟨k1, k2, k3, k4⟩)
      · exact Or.inl ⟨h1, k2⟩
      · rw [h2] at k1
        exact absurd k1 (by decide)
      · rw [k1] at h2
        exact absurd h2 (by decide)
      · exact Or.inr ⟨h1, k2, h3.trans k3, h4.trans k4⟩
    · intro a ha he
      rcases (key ha (Or.inl rfl)).mp he with ⟨h, _⟩ | ⟨_, h, _⟩
      · exact h
      · exact absurd h (by decide)
    · intro a b ha hb he
      exact hashCode_eq_of_equals hn hr ha hb he

/-- The coercions of `org.json` on texts and integer literals of one digit. -/
def digitJson : OrgJson where
  parse _ := none
  text
    | .number l => l
    | _ => ""
  int
    | .number "1" => some 1
    | _ => none

/-- On all nodes the laws fail twice. The fast entry equals the node of the empty JSON object,
which does not equal the fast entry; two nodes at one address in different cities are equal with
different hash codes. -/
theorem equalsLaws_fail :
    let a := ofJson digitJson
      [("fsf_ho", .string "h"), ("fsf_po", .number "1"), ("fsf_ci", .string "a")]
    let b := ofJson digitJson
      [("fsf_ho", .string "h"), ("fsf_po", .number "1"), ("fsf_ci", .string "b")]
    ¬ EqualsLaws (Built digitJson fun _ ↦ True) ∧
      fast.equals (ofJson digitJson []) = true ∧ (ofJson digitJson []).equals fast = false ∧
      a.equals b = true ∧ a.hashCode ≠ b.hashCode := by
  intro a b
  refine ⟨?_, by decide, by decide, by decide, by decide⟩
  intro h
  have hb := h.symm fast (ofJson digitJson []) (Or.inl rfl) (Or.inr ⟨[], trivial, rfl⟩) (by decide)
  revert hb
  decide

end ServerNode
end FastSearch.Server
