import TextAdventure.Art
import TextAdventure.Script
import TextAdventure.Stats

/-!
# Items, fixtures and enemies

What a player meets in a room. An item can be carried; a fixture stays where it is and reacts to
being used; an enemy is fought.
-/

namespace TextAdventure

/-- A thing that can be carried. -/
structure Item where
  id : String
  name : String
  description : String
  /-- Whether the player can take it. -/
  pickup : Bool
  /-- The script that runs for each thing that the item is combined with. -/
  combine : Table Script
  onUse : Script

namespace Item

/-- The fields of an item, in the order in which they are written. -/
def fieldNames : List String := ["id", "name", "description", "pickup", "combine", "on_use"]

/-- Reads an item. -/
def ofTree? (t : Json.Tree) : Option Item := do
  let r ← t.record? fieldNames 0
  return {
    id := ← r.required "id" Json.Tree.string?
    name := ← r.withDefault "name" "" Json.Tree.string?
    description := ← r.withDefault "description" "" Json.Tree.string?
    pickup := ← r.withDefault "pickup" false Json.Tree.bool?
    combine := ← r.withDefault "combine" .empty (Json.Tree.table? Script.ofTree?)
    onUse := ← r.withDefault "on_use" [] Script.ofTree? }

/-- The value that is written for an item. -/
def toJson (i : Item) : Json :=
  .object [("id", .string i.id), ("name", .string i.name), ("description", .string i.description),
    ("pickup", .bool i.pickup), ("combine", .ofTable Script.toJson i.combine),
    ("on_use", i.onUse.toJson)]

instance : Document Item := ⟨ofTree?, toJson⟩

end Item

/-- A thing that never leaves its room. -/
structure Fixture where
  id : String
  name : String
  description : String
  /-- Whether it reacts with `onLockedUse` instead of `use`. -/
  locked : Bool
  inspect : Script
  use : Script
  onLockedUse : Script
  /-- The fields that the engine does not know. -/
  extra : Table Json

namespace Fixture

/-- The fields of a fixture that the engine knows. -/
def fieldNames : List String :=
  ["id", "name", "description", "locked", "inspect", "use", "on_locked_use"]

/-- Reads a fixture. It has to be an object, since its other fields are kept. -/
def ofTree? (t : Json.Tree) : Option Fixture := do
  let r : Json.Record Json.Tree := ⟨← t.objectFields?⟩
  return {
    id := ← r.required "id" Json.Tree.string?
    name := ← r.withDefault "name" "" Json.Tree.string?
    description := ← r.withDefault "description" "" Json.Tree.string?
    locked := ← r.withDefault "locked" false Json.Tree.bool?
    inspect := ← r.withDefault "inspect" [] Script.ofTree?
    use := ← r.withDefault "use" [] Script.ofTree?
    onLockedUse := ← r.withDefault "on_locked_use" [] Script.ofTree?
    extra := ← (Json.Tree.object (r.others fieldNames)).table? Json.Tree.toJson? }

/-- The value that is written for a fixture. -/
def toJson (f : Fixture) : Json :=
  .object ([("id", .string f.id), ("name", .string f.name),
      ("description", .string f.description), ("locked", .bool f.locked),
      ("inspect", f.inspect.toJson), ("use", f.use.toJson),
      ("on_locked_use", f.onLockedUse.toJson)] ++
    f.extra.entries)

instance : Document Fixture := ⟨ofTree?, toJson⟩

end Fixture

/-- An opponent. -/
structure Enemy where
  id : String
  name : String
  description : String
  stats : Stats
  /-- The picture that is shown when the fight begins. -/
  ascii : Option ArtRef
  /-- The ids of the items that the player gets for winning. -/
  drops : List String
  deriving DecidableEq, Repr

namespace Enemy

/-- The fields of an enemy, in the order in which they are written. -/
def fieldNames : List String := ["id", "name", "description", "stats", "ascii", "drops"]

/-- Reads an enemy. -/
def ofTree? (t : Json.Tree) : Option Enemy := do
  let r ← t.record? fieldNames 0
  return {
    id := ← r.required "id" Json.Tree.string?
    name := ← r.withDefault "name" "" Json.Tree.string?
    description := ← r.withDefault "description" "" Json.Tree.string?
    stats := ← r.required "stats" Stats.ofTree?
    ascii := ← r.optional "ascii" ArtRef.ofTree?
    drops := ← r.withDefault "drops" [] (Json.Tree.list? Json.Tree.string?) }

/-- The value that is written for an enemy. -/
def toJson (e : Enemy) : Json :=
  .object ([("id", .string e.id), ("name", .string e.name),
      ("description", .string e.description), ("stats", e.stats.toJson)] ++
    Json.optionalField "ascii" ArtRef.toJson e.ascii ++ [("drops", .stringList e.drops)])

instance : Document Enemy := ⟨ofTree?, toJson⟩

end Enemy

end TextAdventure
