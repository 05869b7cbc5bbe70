/-!
# Server nodes and the JSON they are read from

`server/ServerNode.kt` and `utils/JsonUtil.kt`. The JSON classes belong to Android; what the
readers need of them is the structure `OrgJson`: the text constructor and the two value
coercions behind `optString` and `optInt`, all left arbitrary.
-/

namespace FastSearch.Server

/-- A parsed JSON value; numbers keep their literal text. -/
inductive Json where
  | null
  | bool (b : Bool)
  | number (literal : String)
  | string (s : String)
  | array (items : List Json)
  | object (fields : List (String × Json))

/-- What the readers use of `org.json`: the `JSONObject(String)` constructor (`none` when it
throws) and the coercions of a present value to text and to a 32-bit integer. -/
structure OrgJson where
  parse : String → Option (List (String × Json))
  text : Json → String
  int : Json → Option Int32

namespace OrgJson

/-- `JSONObject.optString(name)`: the coerced value, or the empty text. -/
def optString (J : OrgJson) (o : List (String × Json)) (name : String) : String :=
  match o.lookup name with
  | some (.string s) => s
  | some v => J.text v
  | none => ""

/-- `JSONObject.optInt(name)`: the coerced value, or zero. -/
def optInt (J : OrgJson) (o : List (String × Json)) (name : String) : Int32 :=
  ((o.lookup name).bind J.int).getD 0

/-- `JSONObject.optJSONArray(name)`: the value when it is an array. -/
def optJSONArray (o : List (String × Json)) (name : String) : Option (List Json) :=
  match o.lookup name with
  | some (.array xs) => some xs
  | _ => none

/-- `JSONArray.optString(index)` on a present element. -/
def itemString (J : OrgJson) : Json → String
  | .string s => s
  | v => J.text v

/-- `JSONArray.optJSONObject(index)` on a present element. -/
def itemObject : Json → Option (List (String × Json))
  | .object o => some o
  | _ => none

end OrgJson

/-- `optListString`, `utils/JsonUtil.kt:20`: every element as text. -/
def optListString (J : OrgJson) (xs : List Json) : List String := xs.map J.itemString

/-- `optListObj`, `utils/JsonUtil.kt:12`: the deserializer takes a non-null object, so the
null that `optJSONObject` gives for another element is thrown back (`none`). -/
def optListObj {α : Type} (deserializer : List (String × Json) → α) (xs : List Json) :
    Option (List α) :=
  xs.mapM fun x ↦ (OrgJson.itemObject x).map deserializer

/-- The two node classes of `ServerNode.kt`: the open class and the anonymous subclass
behind `ServerNode.fast`, which overrides the name. -/
inductive NodeClass where
  | plain
  | fast
  deriving DecidableEq, Repr

/-- `ServerNode`, `server/ServerNode.kt:5`. -/
structure ServerNode where
  host : String := ""
  port : Int32 := 0
  method : String := ""
  password : String := ""
  country : String := ""
  city : String := ""
  cls : NodeClass := .plain
  deriving DecidableEq, Repr

namespace ServerNode

/-- `ServerNode.fast`, `server/ServerNode.kt:42`. -/
def fast : ServerNode := { cls := .fast }

/-- `nodeName`, `server/ServerNode.kt:13,43`. -/
def nodeName (n : ServerNode) : String :=
  match n.cls with
  | .fast => "Fast Servers"
  | .plain => n.country ++ " - " ++ n.city

/-- `this.equals(other)`, `server/ServerNode.kt:18`, for a non-null node argument. -/
def equals (this other : ServerNode) : Bool :=
  if other.nodeName = fast.nodeName then this.nodeName = fast.nodeName
  else other.host = this.host ∧ other.port = this.port

/-- `ServerNode.from`, `server/ServerNode.kt:54`, with the source's field names. -/
def ofJson (J : OrgJson) (json : List (String × Json)) : ServerNode where
  host := J.optString json "fsf_ho"
  port := J.optInt json "fsf_po"
  method := J.optString json "fsf_mt"
  password := J.optString json "fsf_pw"
  country := J.optString json "fsf_cn"
  city := J.optString json "fsf_ci"

/-- The name of the fast node. -/
theorem nodeName_fast : fast.nodeName = "Fast Servers" := rfl

/-- A plain name has a hyphen, which the fast name lacks. -/
theorem nodeName_plain_ne (n : ServerNode) (h : n.cls = .plain) :
    n.nodeName ≠ fast.nodeName := by
  intro he
  have hm : '-' ∈ n.nodeName.toList := by simp [nodeName, h]
  rw [he, nodeName_fast] at hm
  revert hm
  decide

/-- Comparing with the fast node decides the class. -/
theorem equals_fast (n : ServerNode) : n.equals fast = true ↔ n.cls = .fast := by
  simp only [equals, if_true, decide_eq_true_eq]
  constructor
  · intro h
    cases hc : n.cls with
    | fast => rfl
    | plain => exact False.elim (nodeName_plain_ne n hc h)
  · intro h
    rw [nodeName, h, nodeName_fast]

end ServerNode
end FastSearch.Server
