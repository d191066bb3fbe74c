import TextAdventure.Json
import TextAdventure.Table

/-!
# What a JSON text says

A `Json.Tree` is a JSON text as it was written: fields in order, repeated keys kept. Some texts obey
the grammar and still stand for no value, such as a string with half a surrogate pair or a number
beyond all bounds; they are read as `Tree.refused`. A reader of documents fails when it has to look
at such a part, and not when the part belongs to a field that it skips.

`Tree.toJson?` turns a tree into the canonical value that it stands for. `Tree.record?` and the
functions after it are what the documents are read with.
-/

namespace TextAdventure

/-- A JSON text as it was written. -/
inductive Json.Tree where
  | null
  | bool (b : Bool)
  | number (n : Json.Number)
  | string (s : String)
  | array (items : List Json.Tree)
  | object (fields : List (String × Json.Tree))
  /-- A part that obeys the grammar and stands for no value. -/
  | refused

namespace Json

/-- Fields in the order in which they were written, sorted by key. Of fields with the same key the
last counts. -/
def sortFields (fields : List (String × Json)) : List (String × Json) :=
  fields.foldl (fun sorted f => Table.insertEntry f.1 f.2 sorted) []

mutual

/-- The tree of the text that is written for a value. -/
def toTree : Json → Tree
  | .null => .null
  | .bool b => .bool b
  | .number n => .number n
  | .string s => .string s
  | .array items => .array (itemsToTree items)
  | .object fields => .object (fieldsToTree fields)

/-- `toTree` for the items of an array. -/
def itemsToTree : List Json → List Tree
  | [] => []
  | x :: xs => toTree x :: itemsToTree xs

/-- `toTree` for the fields of an object. -/
def fieldsToTree : List (String × Json) → List (String × Tree)
  | [] => []
  | (k, x) :: xs => (k, toTree x) :: fieldsToTree xs

end

namespace Tree

mutual

/-- The canonical value that a tree stands for, if no part of it is refused. -/
def toJson? : Tree → Option Json
  | .null => some .null
  | .bool b => some (.bool b)
  | .number n => some (.number n)
  | .string s => some (.string s)
  | .array items => (itemsToJson? items).map .array
  | .object fields => (fieldsToJson? fields).map fun fs => .object (sortFields fs)
  | .refused => none

/-- `toJson?` for the items of an array. -/
def itemsToJson? : List Tree → Option (List Json)
  | [] => some []
  | x :: xs => do
    let v ← toJson? x
    let vs ← itemsToJson? xs
    return v :: vs

/-- `toJson?` for the fields of an object, in the order in which they were written. -/
def fieldsToJson? : List (String × Tree) → Option (List (String × Json))
  | [] => some []
  | (k, x) :: xs => do
    let v ← toJson? x
    let vs ← fieldsToJson? xs
    return (k, v) :: vs

end

/-- The string that a tree stands for. -/
def string? : Tree → Option String
  | .string s => some s
  | _ => none

/-- The truth value that a tree stands for. -/
def bool? : Tree → Option Bool
  | .bool b => some b
  | _ => none

/-- The integer that a tree stands for. -/
def integer? : Tree → Option Int
  | .number (.integer n) => some n
  | _ => none

/-- The signed 32-bit integer that a tree stands for. -/
def int32? (t : Tree) : Option Int32 :=
  t.integer?.bind fun n =>
    if Int32.minValue.toInt ≤ n ∧ n ≤ Int32.maxValue.toInt then some (Int32.ofInt n) else none

/-- The unsigned 32-bit integer that a tree stands for. -/
def uint32? (t : Tree) : Option UInt32 :=
  t.integer?.bind fun n =>
    if 0 ≤ n ∧ n < UInt32.size then some (UInt32.ofNat n.toNat) else none

/-- The list that a tree stands for, each item read in the same way. -/
def list? {α : Type} (read : Tree → Option α) : Tree → Option (List α)
  | .array items => items.mapM read
  | _ => none

/-- The table that a tree stands for, each value read in the same way. Of fields with the same key
the last counts, but all of them have to be readable. -/
def table? {α : Type} (read : Tree → Option α) : Tree → Option (Table α)
  | .object fields => (fields.mapM fun f => (read f.2).map (f.1, ·)).map Table.ofList
  | _ => none

/-- The set of strings that a tree stands for. -/
def idSet? (t : Tree) : Option IdSet := (t.list? string?).map IdSet.ofIds

/-- What a tree stands for where a null may take the place of a value. -/
def nullable? {α : Type} (read : Tree → Option α) : Tree → Option (Option α)
  | .null => some none
  | t => (read t).map some

/-- The fields of a tree that can only be written as an object. -/
def objectFields? : Tree → Option (List (String × Tree))
  | .object fields => some fields
  | _ => none

end Tree

/-- The fields of a record, as they were written. -/
structure Record (α : Type) where
  fields : List (String × α)

/-- The record that a tree stands for. A record may be written as an object, or as an array that
gives the values of the named fields in order; the array may stop early, after at least `least`
values, but has no value left over. -/
def Tree.record? (names : List String) (least : Nat) : Tree → Option (Record Tree)
  | .object fields => some ⟨fields⟩
  | .array items =>
    if least ≤ items.length ∧ items.length ≤ names.length then some ⟨names.zip items⟩ else none
  | _ => none

namespace Record

variable {α β : Type}

/-- The value of the one field that has one of the names, or nothing if there is no such field. More
than one such field is an error. -/
def find? (r : Record α) (names : List String) : Option (Option α) :=
  match r.fields.filter fun f => names.contains f.1 with
  | [] => some none
  | [f] => some (some f.2)
  | _ => none

/-- A field under one of several names, with the value that it has when it is not there. -/
def among (r : Record α) (names : List String) (absent : β) (read : α → Option β) : Option β := do
  match ← r.find? names with
  | some value => read value
  | none => return absent

/-- A field that has to be there. -/
def required (r : Record α) (name : String) (read : α → Option β) : Option β := do
  let value ← r.find? [name]
  value.bind read

/-- A field with the value that it has when it is not there. -/
def withDefault (r : Record α) (name : String) (absent : β) (read : α → Option β) : Option β :=
  r.among [name] absent read

/-- A field that may be missing or null. -/
def optional (r : Record Tree) (name : String) (read : Tree → Option β) : Option (Option β) :=
  r.withDefault name none (Tree.nullable? read)

/-- The fields whose names are not among those given. -/
def others (r : Record α) (names : List String) : List (String × α) :=
  r.fields.filter fun f => !names.contains f.1

end Record

end Json

end TextAdventure
