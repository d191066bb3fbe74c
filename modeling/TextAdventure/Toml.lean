import TextAdventure.Json.Tree

/-!
# TOML documents

The tables and values of a TOML document, and the rules by which its lines build it up: a key is set
once, a table has one header, and what was written as one value is not extended from outside. Dates
and fractional numbers are values that no configuration asks for, so only their presence is kept.
-/

namespace TextAdventure

/-- How a table came about, which decides what may still be added to it. -/
inductive Toml.Origin where
  /-- By a header of its own. -/
  | header
  /-- By the header of a table inside it. -/
  | implied
  /-- By a key with dots. -/
  | dotted
  /-- As a value between braces. -/
  | inlined
  deriving DecidableEq

/-- A TOML value. -/
inductive Toml where
  | string (s : String)
  | integer (n : Int)
  | boolean (b : Bool)
  /-- A fractional number or a date. -/
  | other
  | array (items : List Toml)
  | table (origin : Toml.Origin) (fields : List (String × Toml))
  /-- Tables that were added one after another under one name. -/
  | tables (rows : List Toml)

namespace Toml

/-- The fields of a table. -/
abbrev Fields := List (String × Toml)

/-- Fields with the value of a key replaced. -/
def replace (key : String) (value : Toml) (fields : Fields) : Fields :=
  fields.map fun f => if f.1 == key then (key, value) else f

/-- A list of tables with the fields of the last one changed. -/
def changeLast (change : Fields → Option Fields) : List Toml → Option (List Toml)
  | [] => none
  | [.table origin fields] => (change fields).map fun fs => [.table origin fs]
  | [_] => none
  | row :: rows => (changeLast change rows).map (row :: ·)

/-- Fields with a key set, to which other keys lead. The tables on the way are created if they are
not there; those that are have to be open for keys with dots. -/
def setKey : List String → String → Toml → Fields → Option Fields
  | [], key, value, fields =>
    if fields.any (·.1 == key) then none else some (fields ++ [(key, value)])
  | k :: ks, key, value, fields =>
    match fields.lookup k with
    | none => (setKey ks key value []).map fun inner => fields ++ [(k, .table .dotted inner)]
    | some (.table origin inner) =>
      -- Keys may lead through a table that headers have implied, but not set anything in it.
      if origin == .dotted || (origin == .implied && !ks.isEmpty) then
        (setKey ks key value inner).map fun inner => replace k (.table origin inner) fields
      else none
    | some (.tables rows) =>
      if ks.isEmpty then none
      else (changeLast (setKey ks key value) rows).map fun rows => replace k (.tables rows) fields
    | some _ => none

/-- Fields with those of a table changed, to which keys of headers lead. -/
def changeAt (change : Fields → Option Fields) : List String → Fields → Option Fields
  | [], fields => change fields
  | k :: ks, fields =>
    match fields.lookup k with
    | some (.table origin inner) =>
      (changeAt change ks inner).map fun inner => replace k (.table origin inner) fields
    | some (.tables rows) =>
      (changeLast (changeAt change ks) rows).map fun rows => replace k (.tables rows) fields
    | _ => none

/-- Fields with what a header opens, which `last` decides for the last key of the header. The tables
on the way are created if they are not there. -/
def openHeader (last : String → Fields → Option Fields) : List String → Fields → Option Fields
  | [], _ => none
  | [k], fields => last k fields
  | k :: ks, fields =>
    match fields.lookup k with
    | none => (openHeader last ks []).map fun inner => fields ++ [(k, .table .implied inner)]
    | some (.table origin inner) =>
      if origin == .inlined then none
      else (openHeader last ks inner).map fun inner => replace k (.table origin inner) fields
    | some (.tables rows) =>
      (changeLast (openHeader last ks) rows).map fun rows => replace k (.tables rows) fields
    | some _ => none

/-- Opens a table, which must not have been written before. -/
def openTable (key : String) (fields : Fields) : Option Fields :=
  match fields.lookup key with
  | none => some (fields ++ [(key, .table .header [])])
  | some (.table .implied inner) => some (replace key (.table .header inner) fields)
  | some _ => none

/-- Opens one more of the tables under a name. -/
def openRow (key : String) (fields : Fields) : Option Fields :=
  match fields.lookup key with
  | none => some (fields ++ [(key, .tables [.table .header []])])
  | some (.tables rows) => some (replace key (.tables (rows ++ [.table .header []])) fields)
  | some _ => none

mutual

/-- A value in the form in which documents are read. -/
def toTree : Toml → Json.Tree
  | .string s => .string s
  | .integer n => .number (.integer n)
  | .boolean b => .bool b
  | .other => .refused
  | .array items => .array (itemsToTree items)
  | .table _ fields => .object (fieldsToTree fields)
  | .tables rows => .array (itemsToTree rows)

/-- `toTree` for the items of an array. -/
def itemsToTree : List Toml → List Json.Tree
  | [] => []
  | x :: xs => toTree x :: itemsToTree xs

/-- `toTree` for the fields of a table. -/
def fieldsToTree : List (String × Toml) → List (String × Json.Tree)
  | [] => []
  | (k, x) :: xs => (k, toTree x) :: fieldsToTree xs

end

end Toml

end TextAdventure
