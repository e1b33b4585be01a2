/-
  JSON values. The members of an object keep the order in which they stand; nothing forces
  their keys to be distinct, since a text may repeat a key. `Json.settled` removes
  repetitions (the first place and the last value win), `Json.Distinct` says that there are
  none, and `Json.Object` is an object known to have none at any depth.
-/
import OrmGen.OrderedMap
import OrmGen.Binary64

namespace OrmGen

/-- A number: an integer as written without fraction and exponent, or a float. -/
inductive Json.Number where
  | integer (n : Int)
  | float (x : Binary64)
deriving DecidableEq, Repr

/-- A JSON value. -/
inductive Json where
  | null
  | bool (b : Bool)
  | number (n : Json.Number)
  | string (s : String)
  | array (items : List Json)
  | object (members : List (String × Json))
deriving Inhabited, Repr

namespace Json

/-! ## Equality -/

mutual

def decEq : (v w : Json) → Decidable (v = w)
  | .null, .null => isTrue rfl
  | .bool a, .bool b => decidable_of_iff (a = b) (by simp)
  | .number a, .number b => decidable_of_iff (a = b) (by simp)
  | .string a, .string b => decidable_of_iff (a = b) (by simp)
  | .array a, .array b =>
    match decEqItems a b with
    | isTrue h => isTrue (by rw [h])
    | isFalse h => isFalse (by simpa using h)
  | .object a, .object b =>
    match decEqMembers a b with
    | isTrue h => isTrue (by rw [h])
    | isFalse h => isFalse (by simpa using h)
  | .null, .bool _ | .null, .number _ | .null, .string _ | .null, .array _ | .null, .object _
  | .bool _, .null | .bool _, .number _ | .bool _, .string _ | .bool _, .array _
  | .bool _, .object _
  | .number _, .null | .number _, .bool _ | .number _, .string _ | .number _, .array _
  | .number _, .object _
  | .string _, .null | .string _, .bool _ | .string _, .number _ | .string _, .array _
  | .string _, .object _
  | .array _, .null | .array _, .bool _ | .array _, .number _ | .array _, .string _
  | .array _, .object _
  | .object _, .null | .object _, .bool _ | .object _, .number _ | .object _, .string _
  | .object _, .array _ => isFalse nofun

def decEqItems : (vs ws : List Json) → Decidable (vs = ws)
  | [], [] => isTrue rfl
  | [], _ :: _ => isFalse nofun
  | _ :: _, [] => isFalse nofun
  | v :: vs, w :: ws =>
    match decEq v w, decEqItems vs ws with
    | isTrue h, isTrue t => isTrue (by rw [h, t])
    | isFalse h, _ => isFalse fun e => h (List.cons.inj e).1
    | _, isFalse t => isFalse fun e => t (List.cons.inj e).2

def decEqMembers : (vs ws : List (String × Json)) → Decidable (vs = ws)
  | [], [] => isTrue rfl
  | [], _ :: _ => isFalse nofun
  | _ :: _, [] => isFalse nofun
  | (j, v) :: vs, (k, w) :: ws =>
    match decEq v w, decEqMembers vs ws with
    | isTrue h, isTrue t => decidable_of_iff (j = k) (by simp [h, t])
    | isFalse h, _ => isFalse fun e => h (Prod.mk.inj (List.cons.inj e).1).2
    | _, isFalse t => isFalse fun e => t (List.cons.inj e).2

end

instance : DecidableEq Json := decEq

/-! ## Distinct keys -/

mutual

/-- No object in the value has a key twice. -/
def Distinct : Json → Prop
  | .null | .bool _ | .number _ | .string _ => True
  | .array items => DistinctItems items
  | .object members => (members.map Prod.fst).Nodup ∧ DistinctMembers members

def DistinctItems : List Json → Prop
  | [] => True
  | v :: vs => Distinct v ∧ DistinctItems vs

def DistinctMembers : List (String × Json) → Prop
  | [] => True
  | (_, v) :: ms => Distinct v ∧ DistinctMembers ms

end

mutual

/-- The value without repeated keys: a key stays where it first stands, with the value that
stands at it last. -/
def settled : Json → Json
  | .null => .null
  | .bool b => .bool b
  | .number n => .number n
  | .string s => .string s
  | .array items => .array (settledItems items)
  | .object members => .object (OrderedMap.ofList (settledMembers members)).entries

def settledItems : List Json → List Json
  | [] => []
  | v :: vs => settled v :: settledItems vs

def settledMembers : List (String × Json) → List (String × Json)
  | [] => []
  | (k, v) :: ms => (k, settled v) :: settledMembers ms

end

theorem distinctMembers_iff {ms : List (String × Json)} :
    DistinctMembers ms ↔ ∀ m ∈ ms, Distinct m.2 := by
  induction ms with
  | nil => simp [DistinctMembers]
  | cons m ms ih => obtain ⟨k, v⟩ := m; simp [DistinctMembers, ih]

theorem distinctMembers_ofList {ms : List (String × Json)} (h : DistinctMembers ms) :
    DistinctMembers (OrderedMap.ofList ms).entries := by
  rw [distinctMembers_iff] at h ⊢
  exact fun m hm => h m (OrderedMap.mem_of_mem_ofList hm)

mutual

theorem distinct_settled : (v : Json) → Distinct (settled v)
  | .null | .bool _ | .number _ | .string _ => by simp [settled, Distinct]
  | .array items => by simpa [settled, Distinct] using distinct_settledItems items
  | .object members => by
    rw [settled, Distinct]
    exact ⟨(OrderedMap.ofList _).nodup, distinctMembers_ofList (distinct_settledMembers members)⟩

theorem distinct_settledItems : (vs : List Json) → DistinctItems (settledItems vs)
  | [] => by simp [settledItems, DistinctItems]
  | v :: vs => by
    rw [settledItems, DistinctItems]
    exact ⟨distinct_settled v, distinct_settledItems vs⟩

theorem distinct_settledMembers :
    (ms : List (String × Json)) → DistinctMembers (settledMembers ms)
  | [] => by simp [settledMembers, DistinctMembers]
  | (_, v) :: ms => by
    rw [settledMembers, DistinctMembers]
    exact ⟨distinct_settled v, distinct_settledMembers ms⟩

end

/-- The members of an object without repeated keys, at any depth. -/
structure Object where
  members : List (String × Json)
  distinct : Distinct (.object members)

namespace Object

theorem ext {a b : Object} (h : a.members = b.members) : a = b := by
  cases a; cases b; cases h; rfl

instance : DecidableEq Object := fun a b =>
  if h : a.members = b.members then isTrue (ext h) else isFalse fun e => h (e ▸ rfl)

/-- The members without their repetitions. -/
def ofMembers (members : List (String × Json)) : Object :=
  ⟨(OrderedMap.ofList (settledMembers members)).entries, distinct_settled (.object members)⟩

end Object

/-- The value at the first member with key `k`. -/
def member? (k : String) (members : List (String × Json)) : Option Json :=
  OrderedMap.lookup? k members

end Json
end OrmGen
