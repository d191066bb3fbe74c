import TextAdventure.Binary64

/-!
# JSON values

The values that authored documents, flags and saves are made of. A value keeps its fields in the
order in which they are to be written; a *canonical* value, which is what a text is read as, has its
fields sorted by key and no key twice.
-/

namespace TextAdventure

/-- A JSON number. A literal without fraction and exponent that fits into 64 bits, signed or not, is
an integer; every other literal is a floating-point number. -/
inductive Json.Number where
  | integer (n : Int)
  | real (x : Binary64)
  deriving DecidableEq

/-- A JSON value. -/
inductive Json where
  | null
  | bool (b : Bool)
  | number (n : Json.Number)
  | string (s : String)
  | array (items : List Json)
  | object (fields : List (String × Json))

namespace Json

/-- Whether two numbers are equal. An integer never equals a floating-point number. -/
def Number.same : Number → Number → Bool
  | .integer m, .integer n => m == n
  | .real x, .real y => x.same y
  | _, _ => false

mutual

/-- Whether two canonical values are equal: the sign of a floating-point zero does not count. -/
def same : Json → Json → Bool
  | .null, .null => true
  | .bool a, .bool b => a == b
  | .number m, .number n => m.same n
  | .string s, .string t => s == t
  | .array xs, .array ys => sameItems xs ys
  | .object xs, .object ys => sameFields xs ys
  | _, _ => false

/-- `same` for the items of an array. -/
def sameItems : List Json → List Json → Bool
  | [], [] => true
  | x :: xs, y :: ys => same x y && sameItems xs ys
  | _, _ => false

/-- `same` for the fields of an object. -/
def sameFields : List (String × Json) → List (String × Json) → Bool
  | [], [] => true
  | (j, x) :: xs, (k, y) :: ys => j == k && same x y && sameFields xs ys
  | _, _ => false

end

/-- The value of the first field with the key, if the value is an object that has one. -/
def field? (key : String) : Json → Option Json
  | .object fields => fields.lookup key
  | _ => none

/-- The text of a string value. -/
def string? : Json → Option String
  | .string s => some s
  | _ => none

end Json

end TextAdventure
