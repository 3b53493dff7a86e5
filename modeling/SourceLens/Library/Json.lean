import Mathlib.Data.Rat.Defs
import Mathlib.Data.List.Sort

/-! Decoded JSON values with the equality a dynamic language gives them: numbers
compare across booleans, integers and floats, objects up to the order of keys. -/

namespace SourceLens

/-- A decoded JSON value. A finite float is the rational it denotes; the three
other floats a lenient decoder accepts are told apart by name. -/
inductive Json
  | null
  | bool (value : Bool)
  | int (value : Int)
  | float (value : ℚ)
  | nonFinite (name : String)
  | str (value : String)
  | arr (items : List Json)
  | obj (fields : List (String × Json))

namespace Json

mutual
def beq : Json → Json → Bool
  | .null, .null => true
  | .bool left, .bool right => left == right
  | .int left, .int right => left == right
  | .float left, .float right => left == right
  | .nonFinite left, .nonFinite right => left == right
  | .str left, .str right => left == right
  | .arr left, .arr right => beqItems left right
  | .obj left, .obj right => beqFields left right
  | _, _ => false

def beqItems : List Json → List Json → Bool
  | [], [] => true
  | left :: lefts, right :: rights => beq left right && beqItems lefts rights
  | _, _ => false

def beqFields : List (String × Json) → List (String × Json) → Bool
  | [], [] => true
  | (leftKey, left) :: lefts, (rightKey, right) :: rights =>
    leftKey == rightKey && beq left right && beqFields lefts rights
  | _, _ => false
end

mutual
theorem beq_iff : ∀ left right : Json, beq left right = true ↔ left = right
  | .null, right => by cases right <;> simp [beq]
  | .bool left, right => by cases right <;> simp [beq]
  | .int left, right => by cases right <;> simp [beq]
  | .float left, right => by cases right <;> simp [beq]
  | .nonFinite left, right => by cases right <;> simp [beq]
  | .str left, right => by cases right <;> simp [beq]
  | .arr left, right => by cases right <;> simp [beq, beqItems_iff left]
  | .obj left, right => by cases right <;> simp [beq, beqFields_iff left]

theorem beqItems_iff : ∀ left right : List Json, beqItems left right = true ↔ left = right
  | [], right => by cases right <;> simp [beqItems]
  | left :: lefts, right => by
    cases right <;> simp [beqItems, beq_iff left, beqItems_iff lefts]

theorem beqFields_iff : ∀ left right : List (String × Json),
    beqFields left right = true ↔ left = right
  | [], right => by cases right <;> simp [beqFields]
  | (key, left) :: lefts, right => by
    cases right with
    | nil => simp [beqFields]
    | cons head rest =>
      rcases head with ⟨otherKey, other⟩
      simp [beqFields, beq_iff left, beqFields_iff lefts, and_assoc]
end

instance : DecidableEq Json := fun left right =>
  decidable_of_iff (beq left right = true) (beq_iff left right)

mutual
/-- One representative for each class of equal values: every number as the
rational it denotes, every object in key order. -/
def canonical : Json → Json
  | .null => .null
  | .bool value => .float (if value then 1 else 0)
  | .int value => .float value
  | .float value => .float value
  | .nonFinite name => .nonFinite name
  | .str value => .str value
  | .arr items => .arr (canonicalItems items)
  | .obj fields => .obj ((canonicalFields fields).insertionSort (fun left right => left.1 ≤ right.1))

def canonicalItems : List Json → List Json
  | [] => []
  | item :: rest => canonical item :: canonicalItems rest

def canonicalFields : List (String × Json) → List (String × Json)
  | [] => []
  | (key, value) :: rest => (key, canonical value) :: canonicalFields rest
end

/-- The dynamic language's `==`. -/
def equal (left right : Json) : Bool := decide (canonical left = canonical right)

@[simp] theorem equal_refl (value : Json) : equal value value = true := by
  simp [equal]

/-- `value.get(key)` on an object; `none` where the key is absent. -/
def get? (fields : List (String × Json)) (key : String) : Option Json := fields.lookup key

/-- `value.get(key)` with the language's default. -/
def getOrNull (fields : List (String × Json)) (key : String) : Json :=
  (get? fields key).getD .null

def intField (value : Json) (key : String) : Option Int :=
  match value with
  | .obj fields =>
    match get? fields key with
    | some (.int number) => some number
    | _ => none
  | _ => none

/-- `value[key] = item` on an object: an existing key keeps its place. -/
def setField (fields : List (String × Json)) (key : String) (item : Json) :
    List (String × Json) :=
  if key ∈ fields.map Prod.fst then
    fields.map fun field => if field.1 = key then (key, item) else field
  else fields ++ [(key, item)]

def truthy : Json → Bool
  | .null => false
  | .bool value => value
  | .int value => value != 0
  | .float value => value != 0
  | .nonFinite _ => true
  | .str value => value != ""
  | .arr items => !items.isEmpty
  | .obj fields => !fields.isEmpty

mutual
def finite : Json → Bool
  | .nonFinite _ => false
  | .arr items => finiteItems items
  | .obj fields => finiteFields fields
  | _ => true

def finiteItems : List Json → Bool
  | [] => true
  | item :: rest => finite item && finiteItems rest

def finiteFields : List (String × Json) → Bool
  | [] => true
  | (_, value) :: rest => finite value && finiteFields rest
end

def encodedCharSize (c : Char) : Nat :=
  let n := c.toNat
  if n = 34 ∨ n = 92 ∨ n = 8 ∨ n = 9 ∨ n = 10 ∨ n = 12 ∨ n = 13 then 2
  else if n < 32 then 6
  else c.utf8Size

def encodedStrSize (text : String) : Nat :=
  text.toList.foldl (fun size c => size + encodedCharSize c) 2

mutual
/-- The size of the compact encoding without ASCII escapes, given that of a float. -/
def encodedSize (floatSize : ℚ → Nat) : Json → Nat
  | .null => 4
  | .bool value => if value then 4 else 5
  | .int value => (toString value).length
  | .float value => floatSize value
  | .nonFinite name => name.length
  | .str value => encodedStrSize value
  | .arr items => 2 + encodedItemsSize floatSize items
  | .obj fields => 2 + encodedFieldsSize floatSize fields

def encodedItemsSize (floatSize : ℚ → Nat) : List Json → Nat
  | [] => 0
  | [item] => encodedSize floatSize item
  | item :: rest => encodedSize floatSize item + 1 + encodedItemsSize floatSize rest

def encodedFieldsSize (floatSize : ℚ → Nat) : List (String × Json) → Nat
  | [] => 0
  | [(key, value)] => encodedStrSize key + 1 + encodedSize floatSize value
  | (key, value) :: rest =>
    encodedStrSize key + 1 + encodedSize floatSize value + 1 + encodedFieldsSize floatSize rest
end

end Json

end SourceLens
