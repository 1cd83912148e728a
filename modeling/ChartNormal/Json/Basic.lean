import ChartNormal.OrderedMap
import ChartNormal.Number.Double

/-!
# JSON values

Members of an object keep the order in which they were written, and a value as written may repeat a key. `settle`
applies the rule for free-form objects: a repeated key keeps its first place and takes its last value.
-/

namespace ChartNormal

inductive Number where
  | int (n : Int)
  | float (x : Double)
deriving DecidableEq, Repr

inductive Json where
  | null
  | bool (b : Bool)
  | num (n : Number)
  | str (s : String)
  | arr (items : List Json)
  | obj (members : List (String × Json))
deriving Repr, Inhabited

abbrev Members := List (String × Json)

abbrev Object := OrderedMap String Json

namespace Json

mutual

def decEq : (a b : Json) → Decidable (a = b)
  | .null, .null => isTrue rfl
  | .bool a, .bool b => decidable_of_iff (a = b) (by simp)
  | .num a, .num b => decidable_of_iff (a = b) (by simp)
  | .str a, .str b => decidable_of_iff (a = b) (by simp)
  | .arr a, .arr b => have := decEqItems a b; decidable_of_iff (a = b) (by simp)
  | .obj a, .obj b => have := decEqMembers a b; decidable_of_iff (a = b) (by simp)
  | .null, .bool _ | .null, .num _ | .null, .str _ | .null, .arr _ | .null, .obj _
  | .bool _, .null | .bool _, .num _ | .bool _, .str _ | .bool _, .arr _ | .bool _, .obj _
  | .num _, .null | .num _, .bool _ | .num _, .str _ | .num _, .arr _ | .num _, .obj _
  | .str _, .null | .str _, .bool _ | .str _, .num _ | .str _, .arr _ | .str _, .obj _
  | .arr _, .null | .arr _, .bool _ | .arr _, .num _ | .arr _, .str _ | .arr _, .obj _
  | .obj _, .null | .obj _, .bool _ | .obj _, .num _ | .obj _, .str _ | .obj _, .arr _ => isFalse (by simp)

def decEqItems : (a b : List Json) → Decidable (a = b)
  | [], [] => isTrue rfl
  | [], _ :: _ | _ :: _, [] => isFalse (by simp)
  | x :: a, y :: b =>
    have := decEq x y
    have := decEqItems a b
    decidable_of_iff (x = y ∧ a = b) (by simp)

def decEqMembers : (a b : List (String × Json)) → Decidable (a = b)
  | [], [] => isTrue rfl
  | [], _ :: _ | _ :: _, [] => isFalse (by simp)
  | (k, x) :: a, (l, y) :: b =>
    have := decEq x y
    have := decEqMembers a b
    decidable_of_iff (k = l ∧ x = y ∧ a = b) (by simp [and_assoc])

end

instance : DecidableEq Json := decEq

mutual

def settle : Json → Json
  | .arr items => .arr (settleItems items)
  | .obj members => .obj (OrderedMap.ofList (settleMembers members)).entries
  | j => j

def settleItems : List Json → List Json
  | [] => []
  | j :: rest => j.settle :: settleItems rest

/-- Settles each value and leaves repeated keys as they are. -/
def settleMembers : Members → Members
  | [] => []
  | (k, j) :: rest => (k, j.settle) :: settleMembers rest

end

mutual

/-- Equality in which the order of members does not count. -/
def same : Json → Json → Bool
  | .null, .null => true
  | .bool a, .bool b => a = b
  | .num (.int a), .num (.int b) => a = b
  | .num (.float a), .num (.float b) => a.same b
  | .str a, .str b => a = b
  | .arr a, .arr b => sameItems a b
  | .obj a, .obj b => a.length = b.length && sameMembers a b
  | _, _ => false

def sameItems : List Json → List Json → Bool
  | [], [] => true
  | x :: a, y :: b => x.same y && sameItems a b
  | _, _ => false

/-- Each member of the first has an equal one under its key in the second. -/
def sameMembers : Members → Members → Bool
  | [], _ => true
  | (k, x) :: a, b => (match b.lookup k with | some y => x.same y | none => false) && sameMembers a b

end

/-- The value under `key`, of an object. -/
def get? : Json → String → Option Json
  | .obj members, key => members.lookup key
  | _, _ => none

end Json

end ChartNormal
